import Corpcron.Lib.Fencing
import Corpcron.MySQL.RowInvariant
import Corpcron.MySQL.ExecutionFencing
import Corpcron.MySQL.AcknowledgedWrite
import Corpcron.Redis.TaskLock
import Corpcron.Scheduler.Execution
import Corpcron.Rpc.TaskHandlers
import Corpcron.Scheduler.Dispatch
import Corpcron.System.Deployment
import Corpcron.System.TableInvariant
import Corpcron.System.LockHolders
import Corpcron.System.MutualExclusion
import Corpcron.System.Ownership
import Corpcron.System.Occurrence
import Corpcron.System.LocalData
import Corpcron.System.ManualRun
import Corpcron.System.ReadModifyWrite
import Corpcron.System.Shutdown
import Corpcron.System.StaleRecovery
import Corpcron.System.ExecutedDefinition
import Corpcron.System.MissingWorker
import Corpcron.Lib.BigEndian
import Corpcron.Rpc.Protocol
import Corpcron.Lib.Framing
import Corpcron.Net.ClientHandler
import Corpcron.Rpc.ConnectionReuse
import Corpcron.Rpc.Streaming
import Corpcron.System.ExecutionIds
import Corpcron.System.Cancellation
import Corpcron.System.Release
import Corpcron.Rpc.Authorization
import Corpcron.Rpc.ExecuteTask
import Corpcron.Rpc.HalfOpenProbe
import Corpcron.Common.ThreadPoolRuns
import Corpcron.Redis.ServiceDiscovery
import Corpcron.System.RetryBudget
import Corpcron.System.ScanBatch
import Corpcron.System.Rollback
import Corpcron.Rpc.HandlerSimulation
import Corpcron.Rpc.RequestGate
import Corpcron.Rpc.CallerFailures
import Corpcron.Redis.LockCommand
import Corpcron.Redis.WorkerRegistration
import Corpcron.Rpc.HandlerAdmission
import Corpcron.Net.EpollLoop
import Corpcron.Net.EpollDrain
import Corpcron.Scheduler.LeaseVerdict
import Corpcron.Scheduler.LockRenewer
import Corpcron.System.UniqueIds
import Corpcron.Metrics.Percentile
import Corpcron.Metrics.Observations
import Corpcron.Metrics.AlertRules
import Corpcron.Metrics.RpcOutcomes
import Corpcron.Scheduler.DueTimes
import Corpcron.Common.Logger
import Corpcron.Rpc.Deadlines
import Corpcron.Rpc.CandidateOrder
import Corpcron.Net.ReceiveBuffer
import Corpcron.MySQL.SessionTimeZone
import Corpcron.Rpc.Listing
import Corpcron.Lib.ResourcePool
import Corpcron.Rpc.PooledClients
import Corpcron.Rpc.CallTiming
import Corpcron.Net.TcpServer
import Corpcron.Net.Connections
import Corpcron.App.Lifecycle
import Corpcron.App.Shutdown
import Corpcron.App.Termination
