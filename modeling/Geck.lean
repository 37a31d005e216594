import Geck.MemoryIsolation
import Geck.FlatMemory
import Geck.TlbCoherence
import Geck.SlotResidue
import Geck.PageBounds
import Geck.CpuTransparency
import Geck.InstructionSet
import Geck.ScreenOutput
import Geck.ReadyTokens
import Geck.ProcessCensus
import Geck.RunningList
import Geck.QuantumCauses
import Geck.QuantumHandshake
import Geck.DispatchProtocol
import Geck.AccessFaults
import Geck.WireMessages
import Geck.PackageStream
import Geck.ClockChoice
import Geck.ClockMirror
import Geck.TlbHistory
import Geck.SegmentFaults
import Geck.PageGeometry
import Geck.FreeSearch
import Geck.SwapSlots
import Geck.StoreOutcome
import Geck.PageTableIds
import Geck.FrameNames
import Geck.DeviceQueues
import Geck.InterruptChannel
import Geck.ReferenceBits
import Geck.ConsoleDialogue
import Geck.SharedSections
import Geck.Standstill
import Geck.MachineProgress
import Geck.ProcessIsolation
import Geck.ReadyOrder
import Geck.FaultResumption
import Geck.OverlappingLists
