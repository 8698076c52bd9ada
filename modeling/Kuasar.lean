import Kuasar.Template.Collection
import Kuasar.Template.LeaseMatch
import Kuasar.Template.Refills
import Kuasar.Template.EvictionOrder
import Kuasar.Template.ContinuationCreate
import Kuasar.Sandbox.RestoreWorkDir
import Kuasar.Sandbox.Monitor
import Kuasar.Sandbox.DumpCrash
import Kuasar.Sandbox.Recovery
import Kuasar.Sandbox.PinSafety
import Kuasar.Sandbox.ContinuationGc
import Kuasar.Sandbox.LockOrder
import Kuasar.Sandbox.TearDown
import Kuasar.Sandbox.RootIsolation
import Kuasar.Sandbox.Adoption
import Kuasar.WarmFork.RestoreTargets
import Kuasar.Guest.ClockSync
import Kuasar.Guest.DeviceMonitor
import Kuasar.Guest.GuestStorages
import Kuasar.Guest.StdinStreams
import Kuasar.Shim.Ports
import Kuasar.Shim.VsockConnect
import Kuasar.Runc.NamespaceMounts
import Kuasar.Network.DriverBinding
import Kuasar.Network.RouteFlags
import Kuasar.Template.EntryDirs
import Kuasar.Ctl.ExitCode
import Kuasar.Sandbox.HandlerChain
import Kuasar.Sandbox.StorageReuse
import Kuasar.Sandbox.RestoredDisks
import Kuasar.Hypervisor.CommandFds
import Kuasar.Hypervisor.DetachRetry
import Kuasar.Hypervisor.QmpEvents
import Kuasar.Guest.RuntimeLog
import Kuasar.Quark.MountCleanup
import Kuasar.Sandbox.PodResources
import Kuasar.Sandbox.GuestPaths
