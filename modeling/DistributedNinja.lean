import DistributedNinja.Rpc.FrameLoop
import DistributedNinja.Rpc.Connection
import DistributedNinja.Rpc.Link
import DistributedNinja.Master.Registries
import DistributedNinja.Master.Progress
import DistributedNinja.Master.LateFetch
import DistributedNinja.Master.Disconnect
import DistributedNinja.Slave.FailedPrerequisite
import DistributedNinja.Slave.SlaveEffects
import DistributedNinja.Slave.Attribution
import DistributedNinja.Slave.Answers
import DistributedNinja.Master.ErrorPaths
import DistributedNinja.Common.Files
import DistributedNinja.Common.Parallelism
import DistributedNinja.Master.CurlHelper
import DistributedNinja.Master.Slots
import DistributedNinja.Master.Dependencies
import DistributedNinja.Rpc.ClosedOnce
import DistributedNinja.Rpc.Accepted
import DistributedNinja.Rpc.ReadPending
import DistributedNinja.Lib.Listing
import DistributedNinja.Master.Dispatch
import DistributedNinja.Slave.SlaveRpc
import DistributedNinja.Protocol.SlaveLink
import DistributedNinja.Protocol.Cluster
import DistributedNinja.Master.ServerSimulation
import DistributedNinja.Common.ExecutorThread
import DistributedNinja.Lib.MapWalk
import DistributedNinja.Master.Iteration
import DistributedNinja.Master.SlaveTable
import DistributedNinja.Master.OwnResults
import DistributedNinja.Lib.DepthFirst
import DistributedNinja.Ninja.NinjaMain
import DistributedNinja.Protocol.EdgeIds
import DistributedNinja.Rpc.ReadHistory
import DistributedNinja.Rpc.WriteHistory
import DistributedNinja.Lib.Printf
import DistributedNinja.Master.WebUIThread
import DistributedNinja.Master.CurlTransfer
import DistributedNinja.Net.NetUtil
import DistributedNinja.Net.TCPClientSocket
import DistributedNinja.Rpc.SocketClient
import DistributedNinja.Common.AsyncSubprocess
import DistributedNinja.Ninja.InitFromManifest
import DistributedNinja.Ninja.BuildOrder
import DistributedNinja.Master.PlanCalls
import DistributedNinja.Master.BoundedWork
import DistributedNinja.Master.BuildOrder
import DistributedNinja.Master.CompleteBuild
import DistributedNinja.Net.NetErrors
import DistributedNinja.Net.SocketLibevent
import DistributedNinja.Net.IPEndPoint
import DistributedNinja.Net.TCPServerSocket
import DistributedNinja.Rpc.AcceptLoop
import DistributedNinja.Rpc.Flow
import DistributedNinja.Rpc.Pair
import DistributedNinja.Rpc.EndToEnd
import DistributedNinja.Rpc.Deliveries
import DistributedNinja.Rpc.OverSocket
import DistributedNinja.Rpc.SocketRefinement
import DistributedNinja.Rpc.SocketPair
import DistributedNinja.Rpc.PendingCalls
import DistributedNinja.Proto.SlaveCodec
import DistributedNinja.Protocol.RemoteSlave
import DistributedNinja.Protocol.RpcCluster
import DistributedNinja.Protocol.ExactlyOnce
