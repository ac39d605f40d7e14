import OpenUsb.Recover
import OpenUsb.NullBuffer
import OpenUsb.WalkersExact
import OpenUsb.AltTable
import OpenUsb.ParserSafety
import OpenUsb.ParserTermination
import OpenUsb.ParseLayout
import OpenUsb.Consistency
import OpenUsb.ClaimHistory
import OpenUsb.Config
import OpenUsb.Delivery
import OpenUsb.SyncWait
import OpenUsb.Isoc
import OpenUsb.Control
import OpenUsb.ShortRead
import OpenUsb.BulkSplit
import OpenUsb.BulkPrefix
import OpenUsb.IsocSplit
import OpenUsb.IsocReaps
import OpenUsb.IsocResults
import OpenUsb.Ownership
import OpenUsb.ListSequences
import OpenUsb.LockOrder
import OpenUsb.EventFini
import OpenUsb.SolarisClaim
import OpenUsb.EndpointMap
import OpenUsb.ControlEndpoint
import OpenUsb.Emulation
import OpenUsb.MultiRequest
import OpenUsb.MultiRegistry
import OpenUsb.MultiOwner
import OpenUsb.InitFini
import OpenUsb.BusRegistry
import OpenUsb.DeviceTable
import OpenUsb.HandleLinks
import OpenUsb.OpenDevice
import OpenUsb.FailedOpen
import OpenUsb.DeviceData
import OpenUsb.Deadlines
import OpenUsb.SetupPacket
import OpenUsb.Strings
import OpenUsb.SettingCount
import OpenUsb.ClassSearch
import OpenUsb.IfcBounds
import OpenUsb.RawDescriptor
import OpenUsb.CheckRequest
import OpenUsb.Rescan
import OpenUsb.EndpointFiles
import OpenUsb.EndpointUse
import OpenUsb.IsocStart
import OpenUsb.Lib.Stores
import OpenUsb.SolarisIsoc
import OpenUsb.SolarisRefresh
import OpenUsb.DescriptorViews
import OpenUsb.SolarisHal
