import NgpEncodeServer.Foundation.Machine
import NgpEncodeServer.Foundation.AssocMap
import NgpEncodeServer.Foundation.Sided
import NgpEncodeServer.Foundation.ListUpdate
import NgpEncodeServer.Foundation.ByteOrder
import NgpEncodeServer.Foundation.Script
import NgpEncodeServer.Video.FrameQueue
import NgpEncodeServer.Video.FrameMap
import NgpEncodeServer.Base.CameraManager
import NgpEncodeServer.Base.CameraAgreement
import NgpEncodeServer.Base.CameraControl
import NgpEncodeServer.Base.Reinitialize
import NgpEncodeServer.Encode.Pipeline
import NgpEncodeServer.Encode.Frames
import NgpEncodeServer.Encode.Offers
import NgpEncodeServer.Encode.Lockstep
import NgpEncodeServer.Encode.Reorder
import NgpEncodeServer.Encode.Stale
import NgpEncodeServer.Encode.ReceivePacket
import NgpEncodeServer.Server.State
import NgpEncodeServer.Server.Step
import NgpEncodeServer.Server.Requests
import NgpEncodeServer.Server.Delivery
import NgpEncodeServer.Server.Position
import NgpEncodeServer.Server.Resolution
import NgpEncodeServer.Server.Wedge
import NgpEncodeServer.Server.Fitting
import NgpEncodeServer.Video.PixelBounds
import NgpEncodeServer.Server.Pixels
import NgpEncodeServer.Server.Control
import NgpEncodeServer.Net.Socket
import NgpEncodeServer.Net.Framing
import NgpEncodeServer.Server.Connection
import NgpEncodeServer.Base.PacketStream
import NgpEncodeServer.Encode.Process
import NgpEncodeServer.Server.Processing
import NgpEncodeServer.Foundation.Monitor
import NgpEncodeServer.Video.QueueMonitor
import NgpEncodeServer.Video.MapMonitor
import NgpEncodeServer.Encode.Cleanup
import NgpEncodeServer.Foundation.Wakeup
import NgpEncodeServer.Video.Wakeups
import NgpEncodeServer.Foundation.Text
import NgpEncodeServer.Foundation.MachineInt
import NgpEncodeServer.Server.Manage
import NgpEncodeServer.Server.Eyes
import NgpEncodeServer.Video.ImageBuffers
import NgpEncodeServer.Server.Snapshots
import NgpEncodeServer.Video.CodecInfo
import NgpEncodeServer.Video.Overlay
import NgpEncodeServer.Foundation.Progress
import NgpEncodeServer.Encode.Stats
import NgpEncodeServer.Program.State
import NgpEncodeServer.Foundation.Observe
import NgpEncodeServer.Foundation.ListSum
import NgpEncodeServer.Encode.Viewers
import NgpEncodeServer.Program.Step
import NgpEncodeServer.Program.Shutdown
import NgpEncodeServer.Program.Termination
import NgpEncodeServer.Program.Progress
import NgpEncodeServer.Encode.Discards
import NgpEncodeServer.Server.Accounting
import NgpEncodeServer.Program.Backlog
import NgpEncodeServer.Program.Streams
import NgpEncodeServer.Program.Statistics
import NgpEncodeServer.Program.Failures
import NgpEncodeServer.Server.Texts
import NgpEncodeServer.Foundation.Completion
import NgpEncodeServer.Video.Completion
import NgpEncodeServer.Server.Cameras
import NgpEncodeServer.Foundation.Mutex
import NgpEncodeServer.Video.CodecLocks
import NgpEncodeServer.Video.CodecAtomic
import NgpEncodeServer.Encode.Threads
