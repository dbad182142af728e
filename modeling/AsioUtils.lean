import AsioUtils.CPG.Reconnect
import AsioUtils.CentralServer.LastEvent
import AsioUtils.CentralServer.Load
import AsioUtils.CentralServer.Ownership
import AsioUtils.CentralServer.Recovery
import AsioUtils.CentralServer.Timer
import AsioUtils.CentralServer.Validity
import AsioUtils.GateWay.Replies
import AsioUtils.MatchServer.DistributeCheck
import AsioUtils.Net.ByteQueue
import AsioUtils.Net.Closing
import AsioUtils.Net.PoolMap
import AsioUtils.Net.Stall
import AsioUtils.Net.TCPConnector
import AsioUtils.Lib.UnorderedMap
import AsioUtils.Net.ServiceKernel
import AsioUtils.GateWay.MatchRoutes
import AsioUtils.CentralServer.Kernel
import AsioUtils.CentralServer.Registry
import AsioUtils.CentralServer.Registered
import AsioUtils.CentralServer.Delivery
import AsioUtils.CentralServer.Sessions
import AsioUtils.CPG.Handshake
import AsioUtils.CentralServer.Discovery
import AsioUtils.CPG.MatchStruct
import AsioUtils.CPG.MatchCreateFactory
import AsioUtils.CentralServer.Creation
import AsioUtils.CentralServer.CreateRequests
import AsioUtils.CentralServer.Shape
import AsioUtils.CentralServer.Notified
import AsioUtils.Lib.SqlText
import AsioUtils.CPG.InsertText
import AsioUtils.CPG.MatchRow
import AsioUtils.CentralServer.Update
import AsioUtils.CentralServer.WebThreads
import AsioUtils.Net.ClientSession
import AsioUtils.CPG.Json
import AsioUtils.CPG.MatchJson
import AsioUtils.CPG.SQLConnector
import AsioUtils.Net.Announcements
import AsioUtils.Net.BufferInts
import AsioUtils.Net.ConnectAttempt
import AsioUtils.CPG.CreateFromJson
import AsioUtils.CPG.HTTPClientManager
import AsioUtils.CPG.BetAlgorithm
import AsioUtils.CPG.PacketHeader
import AsioUtils.Net.ObjectPool
import AsioUtils.Net.PoolDestructors
import AsioUtils.CentralServer.Statements
import AsioUtils.CentralServer.MergeOrder
import AsioUtils.CentralServer.PendingLog
import AsioUtils.Net.AsyncLogging
import AsioUtils.Lib.InPlace
import AsioUtils.Net.LogLine
import AsioUtils.Cluster.MatchServers
import AsioUtils.Cluster.Gates
import AsioUtils.CPG.ServerConfig
import AsioUtils.Cluster.HeartBeats
import AsioUtils.MatchServer.Players
import AsioUtils.Net.Active
import AsioUtils.Net.LogFile
import AsioUtils.Net.TCPServer
import AsioUtils.Net.TimerManager
import AsioUtils.CentralServer.IntLoads
import AsioUtils.CentralServer.PostedCalls
