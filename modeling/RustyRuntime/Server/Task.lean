import RustyRuntime.Server.Retry

/-!
# Durable tasks

`TaskRecord` of `tasks.rs` and its transitions: claim, heartbeat, complete, fail, cancel,
re-drive and the finalization of a cancellation. Each transition is a function on the record;
the queue checks its guard and stores the result.

`WellFormed` is what the record's own documentation says of its fields: a lease is present
exactly while the task is leased, and a retry time only while it has failed. Every transition
keeps it, and none changes what the task is (`SameTask`).
-/

namespace RustyRuntime

/-- A UTC timestamp in nanoseconds. -/
abbrev Instant := Int

def i64Max : Nat := 9223372036854775807

/-- `Duration::milliseconds(ms.min(i64::MAX as u64) as i64)`. -/
def milliseconds (ms : Nat) : Int := (min ms i64Max : Nat) * 1000000

/-! ## Records -/

inductive TaskStatus where
  | queued
  | leased
  | failed
  | completed
  | dead
  | cancelled
  deriving DecidableEq, Repr

inductive StatusCategory where
  | backlog
  | todo
  | inProgress
  | inReview
  | done
  | cancelled
  deriving DecidableEq, Repr

def StatusCategory.isTerminal : StatusCategory → Bool
  | .done => true
  | .cancelled => true
  | _ => false

structure TaskLease where
  owner : String
  expiresAt : Instant
  deriving DecidableEq

/-- `TaskRecord`. The effect receipt is kept as the JSON it serializes to. -/
structure TaskRecord where
  taskId : String
  tenant : String
  kind : String
  payload : Json
  pool : String
  recipient : Option String
  status : TaskStatus
  attempt : UInt32
  maxAttempts : UInt32
  lease : Option TaskLease
  errorClass : Option ErrorClass
  effect : Option Effect
  lastError : Option String
  idempotencyKey : Option String
  result : Option Json
  receipt : Option Json
  tokens : Option Usage
  costUsd : Option Rat
  runId : Option String
  threadId : Option String
  parent : Option String
  parentTaskId : Option String
  stage : UInt32
  statusCategory : StatusCategory
  cancelRequested : Bool
  deadline : Option Instant
  workerVersion : Option String
  nextAttemptAt : Option Instant
  createdAt : Instant
  updatedAt : Instant
  deriving DecidableEq

def defaultPool : String := "default"

def defaultMaxAttempts : UInt32 := 3

/-- What the enqueuer supplies of a task. -/
structure NewTask where
  taskId : String
  tenant : String
  kind : String
  payload : Json := .null
  pool : String := defaultPool
  recipient : Option String := none
  maxAttempts : UInt32 := defaultMaxAttempts
  idempotencyKey : Option String := none
  effect : Option Effect := none
  runId : Option String := none
  threadId : Option String := none
  deadline : Option Instant := none
  workerVersion : Option String := none
  parent : Option String := none
  parentTaskId : Option String := none
  stage : UInt32 := 0
  statusCategory : StatusCategory := .todo

structure SettlementCost where
  tokens : Option Usage := none
  costUsd : Option Rat := none

structure CompletionReport where
  result : Json
  receipt : Option Json := none
  cost : SettlementCost := {}

/-- `FailureReport`, with the jitter that the retry decision draws. -/
structure FailureReport where
  errorClass : ErrorClass
  message : String
  retryable : Bool
  cost : SettlementCost := {}
  retry : ResolvedRetryParameters
  jitter : Nat → Nat

/-! ## Transitions -/

/-- `u32::saturating_add(1)`. -/
def saturatingSucc (n : UInt32) : UInt32 := if n = 4294967295 then n else n + 1

theorem toNat_saturatingSucc_of_lt {n m : UInt32} (h : n < m) :
    (saturatingSucc n).toNat = n.toNat + 1 := by
  have hMax : m.toNat < 4294967296 := m.toNat_lt
  have hLt : n.toNat < m.toNat := UInt32.lt_iff_toNat_lt.mp h
  have hNe : n ≠ 4294967295 := by
    rintro rfl
    simp at hLt
    omega
  rw [saturatingSucc, if_neg hNe, UInt32.toNat_add]
  simp only [UInt32.toNat_one]
  omega

theorem le_saturatingSucc (n : UInt32) : n ≤ saturatingSucc n := by
  by_cases hMax : n = 4294967295
  · rw [saturatingSucc, if_pos hMax]
    exact UInt32.le_refl n
  · have hLt : n < 4294967295 := by
      have hBound : n.toNat < 4294967296 := n.toNat_lt
      have hNe : n.toNat ≠ 4294967295 := fun hEq => hMax (UInt32.toNat_inj.mp hEq)
      change n.toNat < 4294967295
      omega
    refine UInt32.le_iff_toNat_le.mpr ?_
    rw [toNat_saturatingSucc_of_lt hLt]
    omega

namespace TaskRecord

def new (task : NewTask) (now : Instant) : TaskRecord where
  taskId := task.taskId
  tenant := task.tenant
  kind := task.kind
  payload := task.payload
  pool := task.pool
  recipient := task.recipient
  status := .queued
  attempt := 0
  maxAttempts := task.maxAttempts
  lease := none
  errorClass := none
  effect := task.effect
  lastError := none
  idempotencyKey := task.idempotencyKey
  result := none
  receipt := none
  tokens := none
  costUsd := none
  runId := task.runId
  threadId := task.threadId
  parent := task.parent
  parentTaskId := task.parentTaskId
  stage := task.stage
  statusCategory := task.statusCategory
  cancelRequested := false
  deadline := task.deadline
  workerVersion := task.workerVersion
  nextAttemptAt := none
  createdAt := now
  updatedAt := now

variable (t : TaskRecord)

variable (workerId : String) (leaseMs : Nat) (now : Instant)

def claimableAt : Bool :=
  match t.status with
  | .queued => true
  | .failed => t.nextAttemptAt.any (· ≤ now)
  | .leased => t.lease.any (·.expiresAt ≤ now)
  | .completed | .dead | .cancelled => false

def matchesWorkerVersion (workerVersion : Option String) : Bool :=
  t.workerVersion.all fun pin => some pin = workerVersion

def isTerminal : Bool :=
  match t.status with
  | .completed | .dead | .cancelled => true
  | .failed => t.nextAttemptAt.isNone
  | .queued | .leased => false

def leasedTo : Bool :=
  t.status = .leased && t.lease.any (·.owner = workerId)

def claim : TaskRecord :=
  { t with
    status := .leased
    attempt := saturatingSucc t.attempt
    lease := some ⟨workerId, now + milliseconds leaseMs⟩
    nextAttemptAt := none
    updatedAt := now }

def renewLease : TaskRecord :=
  { t with
    lease := t.lease.map fun lease => { lease with expiresAt := now + milliseconds leaseMs }
    updatedAt := now }

def complete (report : CompletionReport) (now : Instant) : TaskRecord :=
  { t with
    status := .completed
    statusCategory := .done
    result := some report.result
    receipt := report.receipt
    tokens := report.cost.tokens
    costUsd := report.cost.costUsd
    lease := none
    nextAttemptAt := none
    updatedAt := now }

def applyCancellation (now : Instant) : TaskRecord :=
  { t with
    status := .cancelled
    statusCategory := .cancelled
    errorClass := some .cancelled
    lease := none
    nextAttemptAt := none
    updatedAt := now }

end TaskRecord

inductive CancelTransition where
  | cancelled
  | signalled
  deriving DecidableEq, Repr

namespace TaskRecord

section

variable (t : TaskRecord)

/-- `TaskRecord::cancel`; `none` is a terminal record, which does not change. -/
def cancel (now : Instant) : Option (CancelTransition × TaskRecord) :=
  if t.isTerminal then none
  else if t.status = .leased then
    some (.signalled, { t with cancelRequested := true, updatedAt := now })
  else some (.cancelled, t.applyCancellation now)

/-- `TaskRecord::redrive`; `none` is the answer `false`. -/
def redrive (now : Instant) : Option TaskRecord :=
  if t.status ≠ .dead then none
  else some
    { t with
      status := .queued
      statusCategory := .todo
      lease := none
      nextAttemptAt := none
      updatedAt := now }

def cancellationDue (now : Instant) : Bool :=
  t.claimableAt now && (t.cancelRequested || t.deadline.any (· ≤ now))

def effectOf (retryable : Bool) : Effect :=
  t.effect.getD (if retryable then .idempotent else .nonIdempotent)

def retryDecision (report : FailureReport) : RetryDecision :=
  classifyRetryWithPolicy (t.effectOf report.retryable) report.errorClass t.attempt report.retry
    report.jitter

def fail (report : FailureReport) (now : Instant) : TaskRecord :=
  let t := match t.retryDecision report with
    | .retry afterMs =>
      { t with status := .failed, nextAttemptAt := some (now + milliseconds afterMs) }
    | .dead => { t with status := .dead, statusCategory := .cancelled, nextAttemptAt := none }
    | .fail =>
      { t with
        status := if report.errorClass = ErrorClass.cancelled then .cancelled else .failed
        statusCategory := .cancelled
        nextAttemptAt := none }
  { t with
    errorClass := some report.errorClass
    lastError := some report.message
    tokens := report.cost.tokens
    costUsd := report.cost.costUsd
    lease := none
    updatedAt := now }

/-! ## What every transition keeps -/

structure WellFormed (t : TaskRecord) : Prop where
  lease : t.lease.isSome ↔ t.status = .leased
  retry : t.nextAttemptAt.isSome → t.status = .failed

structure SameTask (before after : TaskRecord) : Prop where
  taskId : after.taskId = before.taskId
  tenant : after.tenant = before.tenant
  kind : after.kind = before.kind
  payload : after.payload = before.payload
  pool : after.pool = before.pool
  recipient : after.recipient = before.recipient
  maxAttempts : after.maxAttempts = before.maxAttempts
  effect : after.effect = before.effect
  idempotencyKey : after.idempotencyKey = before.idempotencyKey
  runId : after.runId = before.runId
  parentTaskId : after.parentTaskId = before.parentTaskId
  stage : after.stage = before.stage
  deadline : after.deadline = before.deadline
  workerVersion : after.workerVersion = before.workerVersion
  createdAt : after.createdAt = before.createdAt

theorem SameTask.refl : t.SameTask t :=
  ⟨rfl, rfl, rfl, rfl, rfl, rfl, rfl, rfl, rfl, rfl, rfl, rfl, rfl, rfl, rfl⟩

end

theorem SameTask.trans {a b c : TaskRecord} (h : a.SameTask b) (h' : b.SameTask c) :
    a.SameTask c where
  taskId := h'.taskId.trans h.taskId
  tenant := h'.tenant.trans h.tenant
  kind := h'.kind.trans h.kind
  payload := h'.payload.trans h.payload
  pool := h'.pool.trans h.pool
  recipient := h'.recipient.trans h.recipient
  maxAttempts := h'.maxAttempts.trans h.maxAttempts
  effect := h'.effect.trans h.effect
  idempotencyKey := h'.idempotencyKey.trans h.idempotencyKey
  runId := h'.runId.trans h.runId
  parentTaskId := h'.parentTaskId.trans h.parentTaskId
  stage := h'.stage.trans h.stage
  deadline := h'.deadline.trans h.deadline
  workerVersion := h'.workerVersion.trans h.workerVersion
  createdAt := h'.createdAt.trans h.createdAt

variable {t t' : TaskRecord} {now : Instant}

theorem wellFormed_new (task : NewTask) (now : Instant) : (new task now).WellFormed :=
  ⟨by simp [new], by simp [new]⟩

theorem leasedTo_iff {workerId : String} :
    t.leasedTo workerId = true ↔
      t.status = .leased ∧ ∃ expiresAt, t.lease = some ⟨workerId, expiresAt⟩ := by
  simp only [leasedTo, Bool.and_eq_true, decide_eq_true_eq, Option.any_eq_true]
  constructor
  · rintro ⟨hStatus, ⟨owner, expiresAt⟩, hLease, rfl⟩
    exact ⟨hStatus, expiresAt, hLease⟩
  · rintro ⟨hStatus, expiresAt, hLease⟩
    exact ⟨hStatus, _, hLease, rfl⟩

theorem cancel_eq_some {transition : CancelTransition}
    (h : t.cancel now = some (transition, t')) :
    t.isTerminal = false ∧
      (transition = .signalled ∧ t.status = .leased ∧
          t' = { t with cancelRequested := true, updatedAt := now } ∨
        transition = .cancelled ∧ t.status ≠ .leased ∧ t' = t.applyCancellation now) := by
  unfold cancel at h
  split at h
  · cases h
  · next hOpen =>
    refine ⟨by simpa using hOpen, ?_⟩
    split at h
    · next hLeased =>
      cases h
      exact .inl ⟨rfl, hLeased, rfl⟩
    · next hLeased =>
      cases h
      exact .inr ⟨rfl, hLeased, rfl⟩

theorem redrive_eq_some (h : t.redrive now = some t') :
    t.status = .dead ∧ t' = { t with
      status := .queued, statusCategory := .todo, lease := none, nextAttemptAt := none
      updatedAt := now } := by
  unfold redrive at h
  split at h
  · cases h
  · next hDead =>
    cases h
    exact ⟨not_not.mp hDead, rfl⟩

/-- The resting states of a failed attempt: a retry is scheduled, the budget is spent, or the
task has failed for good. -/
theorem fail_cases (t : TaskRecord) (report : FailureReport) (now : Instant) :
    (∃ afterMs, t.retryDecision report = .retry afterMs ∧ (t.fail report now).status = .failed ∧
        (t.fail report now).nextAttemptAt = some (now + milliseconds afterMs) ∧
        (t.fail report now).statusCategory = t.statusCategory) ∨
      (t.retryDecision report = .dead ∧ (t.fail report now).status = .dead ∧
        (t.fail report now).nextAttemptAt = none ∧
        (t.fail report now).statusCategory = .cancelled) ∨
      (t.retryDecision report = .fail ∧ (t.fail report now).nextAttemptAt = none ∧
        (t.fail report now).statusCategory = .cancelled ∧
        (t.fail report now).status =
          if report.errorClass = ErrorClass.cancelled then .cancelled else .failed) := by
  unfold fail
  cases hDecide : t.retryDecision report with
  | retry afterMs => exact .inl ⟨afterMs, rfl, rfl, rfl, rfl⟩
  | dead => exact .inr (.inl ⟨rfl, rfl, rfl, rfl⟩)
  | fail => exact .inr (.inr ⟨rfl, rfl, rfl, rfl⟩)

theorem fail_keeps (t : TaskRecord) (report : FailureReport) (now : Instant) :
    t.SameTask (t.fail report now) ∧ (t.fail report now).lease = none ∧
      (t.fail report now).attempt = t.attempt ∧ (t.fail report now).result = t.result := by
  unfold fail
  cases t.retryDecision report <;>
    exact ⟨⟨rfl, rfl, rfl, rfl, rfl, rfl, rfl, rfl, rfl, rfl, rfl, rfl, rfl, rfl, rfl⟩, rfl, rfl, rfl⟩

theorem wellFormed_fail (report : FailureReport) : (t.fail report now).WellFormed := by
  obtain ⟨-, hLease, -⟩ := fail_keeps t report now
  rcases fail_cases t report now with ⟨afterMs, -, hStatus, -, -⟩ | ⟨-, hStatus, hRetry, -⟩ |
    ⟨-, hRetry, -, hStatus⟩
  · exact ⟨by simp [hLease, hStatus], fun _ => hStatus⟩
  · exact ⟨by simp [hLease, hStatus], by simp [hRetry]⟩
  · refine ⟨?_, by simp [hRetry]⟩
    rw [hLease, hStatus]
    split <;> simp

end TaskRecord

end RustyRuntime
