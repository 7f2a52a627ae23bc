import Xrp.ConcurrentRelease
import Xrp.Dsp.Access
import Xrp.Dsp.Dispatch
import Xrp.Dsp.References
import Xrp.Exchange.Coherence
import Xrp.Exchange.CommandLoop
import Xrp.Exchange.ExactlyOnce
import Xrp.Exchange.Failure
import Xrp.Exchange.Handshake
import Xrp.Exchange.HostWakeup
import Xrp.Exchange.NativeCommand
import Xrp.Exchange.Queues
import Xrp.Exchange.RoundTrip
import Xrp.Exchange.ShadowCopy
import Xrp.Exchange.SyncData
import Xrp.Exchange.Wakeup
import Xrp.Kernel.AddressMap
import Xrp.Kernel.AddressRanges
import Xrp.Kernel.AllocCanonical
import Xrp.Kernel.BounceBuffer
import Xrp.Kernel.CommCopy
import Xrp.Kernel.FirmwareBounds
import Xrp.Kernel.FirmwareImage
import Xrp.Kernel.FirmwareLookup
import Xrp.Kernel.FirmwareObjects
import Xrp.Kernel.HoldersLeak
import Xrp.Kernel.MapRequestRelease
import Xrp.Kernel.PowerSound
import Xrp.Kernel.Probe
import Xrp.Kernel.SharePath
import Xrp.Kernel.SubmitSafe
import Xrp.Kernel.UserCopyExact
import Xrp.Native.BuffersRun
import Xrp.Native.QueueRelease
import Xrp.Sim.Devices
import Xrp.Sim.EnqueueFailure
import Xrp.Sim.QueueOrder
import Xrp.Sim.QueuedBuffers
import Xrp.Sim.SharedMemory
import Xrp.Sim.Uninitialised
