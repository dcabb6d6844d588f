import ToyBootloader.Stage3.Load
import ToyBootloader.Laws.Controller
import ToyBootloader.Laws.Layout
import ToyBootloader.Laws.Geometry
import ToyBootloader.Laws.Paging
import ToyBootloader.Laws.CopyErrors
import ToyBootloader.Laws.WakeUp
import ToyBootloader.Laws.Sensing
import ToyBootloader.Laws.CopyBytes
import ToyBootloader.Laws.Loads
import ToyBootloader.Laws.PowerOn
import ToyBootloader.Laws.Results
import ToyBootloader.Laws.Pic
import ToyBootloader.Laws.Dma
import ToyBootloader.Laws.Transfer
import ToyBootloader.Laws.Arming
import ToyBootloader.Laws.HandOver
import ToyBootloader.Laws.SectorId
import ToyBootloader.Laws.CopyWrites
import ToyBootloader.Laws.Addresses
import ToyBootloader.Laws.DiskProps
import ToyBootloader.Laws.Packets
import ToyBootloader.Laws.Descriptors
import ToyBootloader.Laws.IdtHandlers
import ToyBootloader.Laws.Print
import ToyBootloader.Laws.Puts
import ToyBootloader.Laws.Cpuid
import ToyBootloader.Laws.Serial
import ToyBootloader.Laws.Sleep
import ToyBootloader.Laws.Pit
import ToyBootloader.Laws.Handshake
import ToyBootloader.Laws.A20
import ToyBootloader.Laws.Printf
import ToyBootloader.Formats
import ToyBootloader.Laws.FormatTexts
import ToyBootloader.Laws.Progress
import ToyBootloader.Laws.Reports
import ToyBootloader.Laws.Arrivals
import ToyBootloader.Ia32.Modes
import ToyBootloader.Laws.Modes
