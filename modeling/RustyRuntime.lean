import RustyRuntime.Checkpoint.Fork
import RustyRuntime.Executor.FinishOrder
import RustyRuntime.Executor.InboxFlow
import RustyRuntime.Executor.Resume
import RustyRuntime.Memory.Assembly
import RustyRuntime.Memory.Conflicts
import RustyRuntime.Memory.Forget
import RustyRuntime.Memory.PassState
import RustyRuntime.React.Turn
import RustyRuntime.Receipt
import RustyRuntime.Replay.Exact
import RustyRuntime.Server.Activation
import RustyRuntime.Server.Attempts
import RustyRuntime.Server.Connectors
import RustyRuntime.Server.Consolidation
import RustyRuntime.Server.Coordination.Soundness
import RustyRuntime.Server.Coordination.Window
import RustyRuntime.Server.Debounce
import RustyRuntime.Server.Deploy.Admission
import RustyRuntime.Server.Deploy.Rollback
import RustyRuntime.Server.Outbox
import RustyRuntime.Server.PoolCap
import RustyRuntime.Server.PostgresSettle
import RustyRuntime.Server.Redrive
import RustyRuntime.Server.RestartBudget
import RustyRuntime.Server.RunManager
import RustyRuntime.Server.RunStream
import RustyRuntime.Server.StageWakes
import RustyRuntime.Server.Threads
import RustyRuntime.Memory.Rewrite
import RustyRuntime.Server.Category
import RustyRuntime.State.Sharing
import RustyRuntime.Checkpoint.ChainBound
import RustyRuntime.React.NothingNew
import RustyRuntime.Server.ChainSpend
import RustyRuntime.Server.ScopeTable
import RustyRuntime.Tool.Confinement
