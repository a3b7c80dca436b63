import AetherBond.Lib.Run
import AetherBond.Lib.OrderedMap
import AetherBond.Lib.Bytes
import AetherBond.Lib.Aead
import AetherBond.Lib.Dict
import AetherBond.Lib.Lock
import AetherBond.Lib.Utf8
import AetherBond.Lib.Window
import AetherBond.Lib.Pool
import AetherBond.Lib.Overwrite
import AetherBond.Lib.Intervals
import AetherBond.Lib.Rounding
import AetherBond.Lib.Cumulative
import AetherBond.Common.Protocol
import AetherBond.Common.Frame
import AetherBond.Core.Resequencing
import AetherBond.Core.ResequencingOrder
import AetherBond.Core.ResequencingWrap
import AetherBond.Core.ResequencingDuplicates
import AetherBond.Core.Crypto
import AetherBond.Core.Redundancy
import AetherBond.Core.Transport
import AetherBond.Server.Receiver
import AetherBond.Server.ReceiverOrder
import AetherBond.Server.ReceiverSteps
import AetherBond.Server.ReceiverStream
import AetherBond.Server.ReceiverTimed
import AetherBond.Server.Router
import AetherBond.Server.RouterLock
import AetherBond.Server.RouterSteps
import AetherBond.Server.RouterSends
import AetherBond.Server.RouterUplink
import AetherBond.Server.RouterStream
import AetherBond.Server.RouterTable
import AetherBond.Server.RouterBlocking
import AetherBond.Client.Vpn
import AetherBond.Client.VpnSteps
import AetherBond.Client.VpnDownlink
import AetherBond.Client.VpnUplink
import AetherBond.Client.VpnOrder
import AetherBond.Client.Socks
import AetherBond.Client.Downloader
import AetherBond.Client.DownloaderQueue
import AetherBond.Client.DownloaderFile
import AetherBond.Client.DownloaderChunks
import AetherBond.Client.Metrics
import AetherBond.Client.Scheduler
import AetherBond.Client.SchedulerWeights
import AetherBond.Client.SchedulerLatency
import AetherBond.Client.VpnLanes
import AetherBond.Client.VpnCleanup
import AetherBond.Control.Stun
import AetherBond.Control.Monitor
import AetherBond.Gui.Server
import AetherBond.Server.Main
import AetherBond.Server.Isolation
import AetherBond.Tunnel.Codec
import AetherBond.Tunnel.System
import AetherBond.Tunnel.Nonces
import AetherBond.Tunnel.Stream
import AetherBond.Tunnel.Packets
import AetherBond.Tunnel.Origin
import AetherBond.Tunnel.Exhaustion
import AetherBond.Tunnel.RelayOrder
import AetherBond.Tunnel.Allocation
import AetherBond.Interop.Resequencing
import AetherBond.Interop.Wire
import AetherBond.Client.DownloaderAccounting
import AetherBond.Control.StunMatching
import AetherBond.Control.StunDecoding
import AetherBond.Client.Proxy
import AetherBond.Client.ProxyConnect
import AetherBond.Client.ProxyRelay
import AetherBond.Core.Congestion
import AetherBond.Lib.Held
import AetherBond.Core.CongestionWindow
import AetherBond.Core.CongestionJitter
import AetherBond.Core.CongestionScore
import AetherBond.Core.CryptoPacket
import AetherBond.Control.MonitorHistory
import AetherBond.Core.ResequencingBound
import AetherBond.Server.ReceiverTask
import AetherBond.Client.VpnRequests
import AetherBond.Server.RouterRequests
import AetherBond.Tunnel.Connections
import AetherBond.Client.VpnWritten
import AetherBond.Tunnel.Downlink
import AetherBond.Client.Interfaces
import AetherBond.Server.RouterFrozen
import AetherBond.Tunnel.Rest
import AetherBond.Client.Failover
import AetherBond.Client.SimulatedBytes
import AetherBond.Client.DownloaderFinishes
import AetherBond.Server.Replay
import AetherBond.Control.Lifecycle
import AetherBond.Gui.Dashboard
import AetherBond.Gui.Monitors
import AetherBond.Gui.Status
