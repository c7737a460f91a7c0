import MozartLineage.Transition.Run
import MozartLineage.Transition.History
import MozartLineage.Transition.DeferredWrite
import MozartLineage.Power.Boost
import MozartLineage.Power.Knobs
import MozartLineage.Container.Ring
import MozartLineage.Sensors.SensorEventQueue
import MozartLineage.Sensors.Handle
import MozartLineage.Sensors.Multihal
import MozartLineage.Sensors.Delivery
import MozartLineage.Sensors.Proxy
import MozartLineage.Sensors.LegacySensor
import MozartLineage.Sensors.BatchPeriod
import MozartLineage.Sensors.DelayGuard
import MozartLineage.Sensors.StartUp
import MozartLineage.Sensors.StartUpLocks
import MozartLineage.Sensors.Routing
import MozartLineage.Storage.FileTree
import MozartLineage.Blobs.Extract
import MozartLineage.Blobs.Cache
import MozartLineage.Camera.Session
import MozartLineage.Camera.StillCapture
import MozartLineage.Graphics.BufferMapper
import MozartLineage.Graphics.Clones
import MozartLineage.Graphics.Holders
import MozartLineage.Container.UnorderedMap
import MozartLineage.Composer.Dss
import MozartLineage.Composer.Adapter
import MozartLineage.Composer.Overlay
import MozartLineage.Composer.Operations
import MozartLineage.Composer.Fallback
import MozartLineage.Composer.Negotiation
import MozartLineage.Sensors.Registered
import MozartLineage.Sensors.Translation
import MozartLineage.Camera.Registration
import MozartLineage.Camera.StillRelease
import MozartLineage.Camera.Thumbnail
import MozartLineage.Macaddr.Mac
import MozartLineage.Macaddr.EnsureMac
import MozartLineage.Macaddr.Persistence
import MozartLineage.Transition.Monitor
import MozartLineage.Metadata.LegacyCameraMetadata
import MozartLineage.Metadata.BufferOwnership
import MozartLineage.Metadata.StaleReads
import MozartLineage.Metadata.Multimap
import MozartLineage.Metadata.Locking
import MozartLineage.Sensors.Wakeups
import MozartLineage.Composer.SourceRect
import MozartLineage.Sensors.Unregistered
import MozartLineage.Power.Deadlines
import MozartLineage.Metadata.Contract
import MozartLineage.Metadata.Growth
import MozartLineage.Metadata.Update
import MozartLineage.Metadata.Typed
import MozartLineage.Camera.JpegSize
import MozartLineage.Camera.StreamConfigurations
import MozartLineage.Location.HandlerThread
import MozartLineage.Location.LateEffects
import MozartLineage.Graphics.Fences
import MozartLineage.Macaddr.Codec
import MozartLineage.Macaddr.FileCheck
import MozartLineage.Health.Battery
import MozartLineage.Media.Framerate
import MozartLineage.Sensors.QueueContract
import MozartLineage.Sensors.Fairness
import MozartLineage.Sensors.Numbering
import MozartLineage.Blobs.Script
import MozartLineage.Patching.Diff
import MozartLineage.Patching.Worktree
import MozartLineage.Transition.Resume
import MozartLineage.Patching.Apply
import MozartLineage.Patching.Stack
import MozartLineage.Patching.DeviceTree
import MozartLineage.Patching.Checkout
import MozartLineage.Container.Occurrence
import MozartLineage.Blobs.LegacySymbols
import MozartLineage.Sensors.ManagerMemory
import MozartLineage.Sensors.ManagerSessions
import MozartLineage.Sensors.Instances
import MozartLineage.Thermal.CpuUsages
import MozartLineage.Macaddr.Starts
