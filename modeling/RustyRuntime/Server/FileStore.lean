import RustyRuntime.Server.Task
import RustyRuntime.Library.Index
import RustyRuntime.Library.Durable
import RustyRuntime.Library.SortByKey

/-!
# The file backend

`JsonFileStore` of `server_store.rs`, as far as it is the task queue: the task index, the
outbox and the activation leases of agents. Each operation runs under the locks of the
indexes it uses, so it is one computation over the store.

A record is written to its file before the index is changed, and the next write starts after
that, so a write of the record and the change of the index are one durable write: if it fails
neither happens, and after a crash the index is loaded from the files. Only a release removes
its lease from the index first.

`HashMap` iteration has no fixed order. Where the order shows, the source takes a minimum
over distinct keys; the loops over several tasks are taken in the order of their ids.
-/

namespace RustyRuntime

open Library

/-! ## Rows -/

structure OutboxRecord where
  outboxId : String
  tenant : String
  task : TaskRecord
  publishedAt : Option Instant
  createdAt : Instant
  deriving DecidableEq

def OutboxRecord.new (task : TaskRecord) (now : Instant) : OutboxRecord :=
  { outboxId := task.taskId, tenant := task.tenant, task, publishedAt := none, createdAt := now }

structure ActivationLease where
  agentId : String
  owner : String
  fencing : Nat
  expiresAt : Instant
  acquiredAt : Instant
  deriving DecidableEq

def ActivationLease.heldBy (lease : ActivationLease) (owner : String) (fencing : Nat)
    (now : Instant) : Bool :=
  lease.owner = owner && lease.fencing = fencing && now < lease.expiresAt

structure JsonFileStore where
  tasks : Index TaskRecord.taskId := .empty
  outbox : Index OutboxRecord.outboxId := .empty
  agentLeases : Index ActivationLease.agentId := .empty

/-- The computations of the file backend. An error is the text of the failed write. -/
abbrev StoreM := Durable JsonFileStore String

namespace JsonFileStore

variable (store : JsonFileStore)

def putTask (task : TaskRecord) : JsonFileStore :=
  { store with tasks := store.tasks.insert task }

def putRow (row : OutboxRecord) : JsonFileStore :=
  { store with outbox := store.outbox.insert row }

def putLease (lease : ActivationLease) : JsonFileStore :=
  { store with agentLeases := store.agentLeases.insert lease }

def getTask (tenant taskId : String) : Option TaskRecord :=
  (store.tasks.get? taskId).filter (·.tenant = tenant)

end JsonFileStore

def persistTask (task : TaskRecord) : StoreM Unit := .write "persist task" (·.putTask task)

def persistRow (row : OutboxRecord) : StoreM Unit := .write "persist outbox row" (·.putRow row)

def persistLease (lease : ActivationLease) : StoreM Unit :=
  .write "persist agent lease" (·.putLease lease)

/-! ## Enqueueing -/

def JsonFileStore.deduplicated (store : JsonFileStore) (record : TaskRecord) : Option TaskRecord :=
  record.idempotencyKey.bind fun key => store.tasks.values.find? fun t =>
    t.tenant = record.tenant && t.idempotencyKey = some key

/-- `enqueue_locked`: the answer says whether the record was deduplicated. -/
def enqueueLocked (record : TaskRecord) : StoreM (TaskRecord × Bool) := do
  let store ← .get
  match store.deduplicated record with
  | some existing => return (existing, true)
  | none =>
    persistTask record
    return (record, false)

def outboxEnqueue (record : TaskRecord) (now : Instant) : StoreM (TaskRecord × Bool) := do
  let store ← .get
  match store.outbox.get? record.taskId with
  | some existing => return (existing.task, true)
  | none =>
    persistRow (.new record now)
    return (record, false)

def JsonFileStore.pendingRows (store : JsonFileStore) (limit : Nat) : List OutboxRecord :=
  (sortByKey (fun row => toLex (row.createdAt, row.outboxId))
    (store.outbox.values.filter (·.publishedAt.isNone))).take limit

def publishRow (now : Instant) (row : OutboxRecord) : StoreM TaskRecord := do
  let (task, _) ← enqueueLocked row.task
  persistRow { row with publishedAt := some now }
  return task

def outboxPublishPending (limit : Nat) (now : Instant) : StoreM (List TaskRecord) := do
  let store ← .get
  .collect (publishRow now) (store.pendingRows limit)

/-! ## Claiming -/

/-- The body of the loop in `finalize_due_locked`. -/
def finalizeOne (now : Instant) (taskId : String) : StoreM Unit := do
  let store ← .get
  match store.tasks.get? taskId with
  | none => return ()
  | some task => persistTask (task.applyCancellation now)

/-- `finalize_due_locked`: unanswered cancellations and elapsed deadlines. -/
def finalizeDueLocked (tenant : String) (now : Instant) : StoreM Unit := do
  let store ← .get
  let due := (store.tasks.values.filter fun t => t.tenant = tenant && t.cancellationDue now).map
    TaskRecord.taskId
  .each (finalizeOne now) due

/-- The order in which tasks are handed out. -/
def TaskRecord.age (t : TaskRecord) : Instant ×ₗ String := toLex (t.createdAt, t.taskId)

/-- The oldest task, by creation time and then by id. -/
def oldest (ts : List TaskRecord) : Option TaskRecord := minByKey TaskRecord.age ts

/-- `ClaimScope`. The acting policy enters as its timeout bound for each kind of task. -/
structure ClaimScope where
  pools : List String
  poolLimits : Std.ExtTreeMap String Nat := ∅
  workerVersion : Option String := none
  timeoutBound : String → Option Nat := fun _ => none

/-- The task holds its lease at `now`. -/
def TaskRecord.isLive (t : TaskRecord) (now : Instant) : Bool :=
  t.status = .leased && t.lease.any (now < ·.expiresAt)

section

variable (store : JsonFileStore)

variable (tenant : String) (scope : ClaimScope) (now : Instant)

def JsonFileStore.liveLeases (tenant pool : String) (now : Instant) : Nat :=
  store.tasks.values.countP fun t => t.tenant = tenant && t.pool = pool && t.isLive now

def JsonFileStore.saturated (pool : String) : Bool :=
  scope.poolLimits[pool]?.any (· ≤ store.liveLeases tenant pool now)

/-- The filter of `claim_task`. -/
def JsonFileStore.claimable (t : TaskRecord) : Bool :=
  t.tenant = tenant && t.recipient.isNone && scope.pools.contains t.pool && t.claimableAt now &&
    !store.saturated tenant scope now t.pool && t.matchesWorkerVersion scope.workerVersion

def JsonFileStore.claimCandidate : Option TaskRecord :=
  oldest (store.tasks.values.filter (store.claimable tenant scope now))

end

def policyLeaseMs (scope : ClaimScope) (kind : String) (leaseMs : Nat) : Nat :=
  (scope.timeoutBound kind).elim leaseMs (min leaseMs)

def claimTask (tenant workerId : String) (scope : ClaimScope) (leaseMs : Nat) (now : Instant) :
    StoreM (Option TaskRecord) := do
  finalizeDueLocked tenant now
  let store ← .get
  match store.claimCandidate tenant scope now with
  | none => return none
  | some task =>
    let task := task.claim workerId (policyLeaseMs scope task.kind leaseMs) now
    persistTask task
    return some task

structure MailboxClaimScope where
  agentId : String
  recipient : String
  owner : String
  fencing : Nat

inductive MailboxClaim where
  | claimed (task : TaskRecord)
  | empty
  | activationLost
  deriving DecidableEq

def MailboxClaim.task? : MailboxClaim → Option TaskRecord
  | .claimed task => some task
  | .empty | .activationLost => none

def JsonFileStore.turnInFlight (store : JsonFileStore) (tenant recipient : String)
    (now : Instant) : Bool :=
  store.tasks.values.any fun t =>
    t.tenant = tenant && t.recipient = some recipient && t.isLive now

def JsonFileStore.mailboxCandidate (store : JsonFileStore) (tenant recipient : String)
    (now : Instant) : Option TaskRecord :=
  oldest (store.tasks.values.filter fun t =>
    t.tenant = tenant && t.recipient = some recipient && t.claimableAt now)

/-- `claim_agent_task`: the activation gate, the finalization sweep, the turn gate. -/
def claimAgentTask (tenant : String) (scope : MailboxClaimScope) (leaseMs : Nat) (now : Instant) :
    StoreM MailboxClaim := do
  let store ← .get
  match store.agentLeases.get? scope.agentId with
  | none => return .activationLost
  | some lease =>
    if !lease.heldBy scope.owner scope.fencing now then return .activationLost
    else
      finalizeDueLocked tenant now
      let store ← .get
      if store.turnInFlight tenant scope.recipient now then return .empty
      else
        match store.mailboxCandidate tenant scope.recipient now with
        | none => return .empty
        | some task =>
          let task := task.claim scope.owner leaseMs now
          persistTask task
          return .claimed task

/-! ## Mutations -/

inductive MutationOutcome where
  | applied (task : TaskRecord)
  | leaseLost
  | unknown
  deriving DecidableEq

section

variable (tenant taskId workerId : String)

/-- `mutate_task`: the lease-guarded mutations share it. -/
def mutateTask (mutate : TaskRecord → TaskRecord) : StoreM MutationOutcome := do
  let store ← .get
  match store.tasks.get? taskId with
  | none => return .unknown
  | some current =>
    if current.tenant ≠ tenant then return .unknown
    else if !current.leasedTo workerId then return .leaseLost
    else
      let task := mutate current
      persistTask task
      return .applied task

def heartbeatTask (leaseMs : Nat) (now : Instant) : StoreM MutationOutcome :=
  mutateTask tenant taskId workerId (·.renewLease leaseMs now)

def completeTask (report : CompletionReport) (now : Instant) : StoreM MutationOutcome :=
  mutateTask tenant taskId workerId (·.complete report now)

def failTask (report : FailureReport) (now : Instant) : StoreM MutationOutcome :=
  mutateTask tenant taskId workerId (·.fail report now)

/-- What a worker reports of a failure. -/
structure FailurePayload where
  errorClass : ErrorClass
  message : String
  retryable : Bool
  cost : SettlementCost := {}
  jitter : Nat → Nat := id

def reportFailure (policy : RetryPolicyParameters) (payload : FailurePayload) (now : Instant) :
    StoreM MutationOutcome := do
  let store ← .get
  let retry := match store.getTask tenant taskId with
    | some task => resolveRetryParameters policy payload.errorClass task.maxAttempts
    | none => .floor 0
  failTask tenant taskId workerId
    { errorClass := payload.errorClass, message := payload.message
      retryable := payload.retryable, cost := payload.cost, retry, jitter := payload.jitter } now

end

inductive CancelOutcome where
  | applied (task : TaskRecord)
  | terminal (status : TaskStatus)
  | unknown
  deriving DecidableEq

def cancelTask (tenant taskId : String) (now : Instant) : StoreM CancelOutcome := do
  let store ← .get
  match store.tasks.get? taskId with
  | none => return .unknown
  | some current =>
    if current.tenant ≠ tenant then return .unknown
    else
      match current.cancel now with
      | none => return .terminal current.status
      | some (_, task) =>
        persistTask task
        return .applied task

inductive RedriveOutcome where
  | applied (task : TaskRecord)
  | notDead (status : TaskStatus)
  | unknown
  deriving DecidableEq

def redriveTask (tenant taskId : String) (now : Instant) : StoreM RedriveOutcome := do
  let store ← .get
  match store.tasks.get? taskId with
  | none => return .unknown
  | some current =>
    if current.tenant ≠ tenant then return .unknown
    else
      match current.redrive now with
      | none => return .notDead current.status
      | some task =>
        persistTask task
        return .applied task

/-- The loop that `cancel_run_tasks` and `cancel_agent_tasks` share: the tasks that a filter
selects, and how the cancellation of each lands. -/
def cancelSelected (select : TaskRecord → Bool) (now : Instant) :
    StoreM (List (CancelTransition × TaskRecord)) := do
  let store ← .get
  let targets := (store.tasks.values.filter select).map TaskRecord.taskId
  let landed ← .collect (fun taskId => do
    let store ← .get
    match store.tasks.get? taskId with
    | none => return none
    | some current =>
      match current.cancel now with
      | none => return none
      | some (transition, task) =>
        persistTask task
        return some (transition, task)) targets
  return landed.filterMap id

def cancelRunTasks (tenant runId : String) (now : Instant) :
    StoreM (List (CancelTransition × TaskRecord)) :=
  cancelSelected (fun t => t.tenant = tenant && t.runId = some runId) now

def cancelAgentTasks (tenant recipient : String) (now : Instant) :
    StoreM (List (CancelTransition × TaskRecord)) :=
  cancelSelected (fun t => t.tenant = tenant && t.recipient = some recipient) now

/-! ## Activations -/

inductive ActivationOutcome where
  | claimed (lease : ActivationLease)
  | held (lease : ActivationLease)
  deriving DecidableEq

def claimActivation (agentId owner : String) (leaseMs : Nat) (now : Instant) :
    StoreM ActivationOutcome := do
  let store ← .get
  let grant (fencing : Nat) : StoreM ActivationOutcome := do
    let lease : ActivationLease :=
      { agentId, owner, fencing, expiresAt := now + milliseconds leaseMs, acquiredAt := now }
    persistLease lease
    return .claimed lease
  match store.agentLeases.get? agentId with
  | some current =>
    if now < current.expiresAt then return .held current else grant (current.fencing + 1)
  | none => grant 1

inductive ActivationMutation where
  | applied (lease : ActivationLease)
  | fencingLost
  | unknown
  deriving DecidableEq

def renewActivation (agentId owner : String) (fencing leaseMs : Nat) (now : Instant) :
    StoreM ActivationMutation := do
  let store ← .get
  match store.agentLeases.get? agentId with
  | none => return .unknown
  | some current =>
    if !current.heldBy owner fencing now then return .fencingLost
    else
      let lease := { current with expiresAt := now + milliseconds leaseMs }
      persistLease lease
      return .applied lease

/-- `release_activation`: out of the index first, then the file. -/
def releaseActivation (agentId owner : String) (fencing : Nat) (now : Instant) :
    StoreM ActivationMutation := do
  let store ← .get
  match store.agentLeases.get? agentId with
  | none => return .unknown
  | some current =>
    if !current.heldBy owner fencing now then return .fencingLost
    else
      .modify fun store => { store with agentLeases := store.agentLeases.erase agentId }
      .write "remove agent lease" id
      return .applied current

/-! ## Operations -/

/-- The operations of the queue, without the time at which they happen. -/
inductive QueueOp where
  | enqueue (task : NewTask)
  | deadLetter (task : NewTask) (lastError : String)
  | outboxEnqueue (task : NewTask)
  | publish (limit : Nat)
  | claim (tenant workerId : String) (scope : ClaimScope) (leaseMs : Nat)
  | claimAgent (tenant : String) (scope : MailboxClaimScope) (leaseMs : Nat)
  | heartbeat (tenant taskId workerId : String) (leaseMs : Nat)
  | complete (tenant taskId workerId : String) (report : CompletionReport)
  | fail (tenant taskId workerId : String) (policy : RetryPolicyParameters)
      (payload : FailurePayload)
  | cancel (tenant taskId : String)
  | redrive (tenant taskId : String)
  | cancelRun (tenant runId : String)
  | cancelAgent (tenant recipient : String)
  | claimActivation (agentId owner : String) (leaseMs : Nat)
  | renewActivation (agentId owner : String) (fencing leaseMs : Nat)
  | releaseActivation (agentId owner : String) (fencing : Nat)

/-- A record that is dead from the start, as `dead_letter_task` is given it. -/
def TaskRecord.deadLettered (task : NewTask) (lastError : String) (now : Instant) : TaskRecord :=
  { TaskRecord.new task now with status := .dead, lastError := some lastError }

/-- An operation at a time. The answer is the task that was leased, if one was. -/
def QueueOp.run (now : Instant) : QueueOp → StoreM (Option TaskRecord)
  | .enqueue task => do
    let _ ← enqueueLocked (.new task now)
    return none
  | .deadLetter task lastError => do
    let _ ← enqueueLocked (.deadLettered task lastError now)
    return none
  | .outboxEnqueue task => do
    let _ ← RustyRuntime.outboxEnqueue (.new task now) now
    return none
  | .publish limit => do
    let _ ← outboxPublishPending limit now
    return none
  | .claim tenant workerId scope leaseMs => claimTask tenant workerId scope leaseMs now
  | .claimAgent tenant scope leaseMs => do
    let outcome ← claimAgentTask tenant scope leaseMs now
    return outcome.task?
  | .heartbeat tenant taskId workerId leaseMs => do
    let _ ← heartbeatTask tenant taskId workerId leaseMs now
    return none
  | .complete tenant taskId workerId report => do
    let _ ← completeTask tenant taskId workerId report now
    return none
  | .fail tenant taskId workerId policy payload => do
    let _ ← reportFailure tenant taskId workerId policy payload now
    return none
  | .cancel tenant taskId => do
    let _ ← cancelTask tenant taskId now
    return none
  | .redrive tenant taskId => do
    let _ ← redriveTask tenant taskId now
    return none
  | .cancelRun tenant runId => do
    let _ ← cancelRunTasks tenant runId now
    return none
  | .cancelAgent tenant recipient => do
    let _ ← cancelAgentTasks tenant recipient now
    return none
  | .claimActivation agentId owner leaseMs => do
    let _ ← RustyRuntime.claimActivation agentId owner leaseMs now
    return none
  | .renewActivation agentId owner fencing leaseMs => do
    let _ ← RustyRuntime.renewActivation agentId owner fencing leaseMs now
    return none
  | .releaseActivation agentId owner fencing => do
    let _ ← RustyRuntime.releaseActivation agentId owner fencing now
    return none

end RustyRuntime
