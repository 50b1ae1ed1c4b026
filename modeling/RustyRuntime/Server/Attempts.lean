import RustyRuntime.Server.TaskLife

/-!
# How often a task is leased

`LeaseLog` runs a history of the queue and keeps the ids of the tasks it leased, one entry a
lease. A lease is handed out on three paths: a queued task for the first time, a failed one
when its retry time has come, and a leased one when its lease has expired. The failure path
asks the retry classification, which knows the attempt budget and the declared effect; the
expiry path asks nothing.

Main results:

* **Within the budget.** If every expired lease that a claim meets still has attempts left and
  declares no effect that must not be repeated, no task is leased more often than its
  `max_attempts`, and one with such an effect once only (`bounded_of_sparesBudget`).
* A worker that vanishes is enough to lease a task of one attempt and a non-idempotent effect
  twice (`vanished_worker_leases_twice`).
-/

namespace RustyRuntime

open Library

/-! ## Histories with their leases -/

structure LeaseLog where
  store : JsonFileStore := {}
  leases : List String := []

def LeaseLog.next (log : LeaseLog) (event : QueueEvent) : LeaseLog where
  store := log.store.next event
  leases := match (event.op.run event.now).answer event.writes log.store with
    | .ok (some task) => task.taskId :: log.leases
    | _ => log.leases

/-- Every task that was leased was leased within its budget, and only once if its declared
effect must not be repeated. -/
def LeaseLog.Bounded (log : LeaseLog) : Prop :=
  ∀ id ∈ log.leases, ∃ t, log.store.tasks.get? id = some t ∧
    log.leases.count id ≤ t.maxAttempts.toNat ∧
    ((∃ effect, t.effect = some effect ∧ effect.isFreelyRepeatable = false) →
      log.leases.count id ≤ 1)

/-! ## The condition -/

/-- Every expired lease of the tenant that is not about to be cancelled may be handed out
again. -/
def JsonFileStore.reclaimsSafely (store : JsonFileStore) (tenant : String) (now : Instant) : Bool :=
  store.tasks.values.all fun t =>
    t.tenant ≠ tenant || t.status ≠ .leased || !t.claimableAt now || t.cancellationDue now ||
      (t.attempt < t.maxAttempts && t.effect.all (·.isFreelyRepeatable))

/-- What an operation itself has to respect: a budget of at least one attempt, no re-drive. -/
def QueueOp.keepsBudget : QueueOp → Bool
  | .enqueue task => 0 < task.maxAttempts
  | .outboxEnqueue task => 0 < task.maxAttempts
  | .redrive _ _ => false
  | _ => true

def QueueOp.sparesBudget (now : Instant) (op : QueueOp) (store : JsonFileStore) : Bool :=
  op.entersFresh now store && op.keepsBudget && op.claimsFor.all (store.reclaimsSafely · now)

abbrev SparesBudget (log : LeaseLog) (event : QueueEvent) : Prop :=
  event.op.sparesBudget event.now log.store

/-! ## One record -/

/-- A record within its budget. A queued one has not been leased; a failed one with a retry
time has passed the retry classification. -/
structure TaskRecord.WithinBudget (t : TaskRecord) : Prop where
  attempt : t.attempt ≤ t.maxAttempts
  once : (∃ effect, t.effect = some effect ∧ effect.isFreelyRepeatable = false) → t.attempt ≤ 1
  queued : t.status = .queued → t.attempt = 0 ∧ 0 < t.maxAttempts
  failed : t.status = .failed → t.nextAttemptAt.isSome →
    t.attempt < t.maxAttempts ∧ t.effect.all (·.isFreelyRepeatable)

namespace TaskRecord

variable {t t' : TaskRecord} {now : Instant}

theorem WithinBudget.of_keeps (h : t.WithinBudget) (hSame : t.SameTask t')
    (hAttempt : t'.attempt = t.attempt) (hQueued : t'.status ≠ .queued)
    (hFailed : t'.status = .failed → t'.nextAttemptAt.isSome →
      t'.attempt < t'.maxAttempts ∧ t'.effect.all (·.isFreelyRepeatable)) :
    t'.WithinBudget where
  attempt := by
    rw [hAttempt, hSame.maxAttempts]
    exact h.attempt
  once hEffect := by
    rw [hAttempt]
    rw [hSame.effect] at hEffect
    exact h.once hEffect
  queued hStatus := absurd hStatus hQueued
  failed := hFailed

theorem WithinBudget.applyCancellation (h : t.WithinBudget) :
    (t.applyCancellation now).WithinBudget :=
  h.of_keeps (t.sameTask_applyCancellation now) rfl (by simp [TaskRecord.applyCancellation])
    (by simp [TaskRecord.applyCancellation])

theorem retryDecision_eq_retry {report : FailureReport} {policy : RetryPolicyParameters}
    {afterMs : Nat}
    (hRetry : report.retry = resolveRetryParameters policy report.errorClass t.maxAttempts)
    (h : t.retryDecision report = .retry afterMs) :
    t.attempt < t.maxAttempts ∧ t.effect.all (·.isFreelyRepeatable) := by
  obtain ⟨hEffect, -, hLeft⟩ := classifyRetryWithPolicy_eq_retry h
  constructor
  · have hNarrow := resolveRetryParameters_le policy report.errorClass t.maxAttempts
    rw [hRetry] at hLeft
    exact UInt32.lt_of_lt_of_le hLeft hNarrow
  · unfold effectOf at hEffect
    cases hDeclared : t.effect with
    | none => rfl
    | some effect => simpa [hDeclared] using hEffect

theorem withinBudget_claim (hLeft : t.attempt < t.maxAttempts)
    (hRepeat : t.effect.all (·.isFreelyRepeatable) ∨ t.attempt = 0) (workerId : String)
    (leaseMs : Nat) : (t.claim workerId leaseMs now).WithinBudget where
  attempt := by
    have hNat := UInt32.lt_iff_toNat_lt.mp hLeft
    change (saturatingSucc t.attempt).toNat ≤ t.maxAttempts.toNat
    rw [toNat_saturatingSucc_of_lt hLeft]
    omega
  once hEffect := by
    obtain ⟨effect, hDeclared, hUnsafe⟩ := hEffect
    have hDeclared' : t.effect = some effect := hDeclared
    rcases hRepeat with hSafe | hFirst
    · rw [hDeclared', Option.all_some, hUnsafe] at hSafe
      cases hSafe
    · change saturatingSucc t.attempt ≤ 1
      rw [hFirst]
      decide
  queued hStatus := by cases hStatus
  failed hStatus := by cases hStatus

end TaskRecord

variable {t t' record : TaskRecord} {log : LeaseLog} {tenant : String} {swept : JsonFileStore}
  {event : QueueEvent}

theorem TaskChange.withinBudget {now : Instant} {store : JsonFileStore} {op : QueueOp}
    (h : TaskChange now store op t t') (hOp : op.claimsFor = none)
    (hRedrive : ∀ tenant taskId, op ≠ .redrive tenant taskId) (hBudget : t.WithinBudget) :
    t'.WithinBudget ∧ t'.attempt = t.attempt := by
  cases h with
  | finalized hFor hDue =>
    rw [hOp] at hFor
    cases hFor
  | claimed | mailboxClaimed => cases hOp
  | @renewed workerId leaseMs _ hLease =>
    have hStatus := (TaskRecord.leasedTo_iff.mp hLease).1
    have hSame : t.SameTask (t.renewLease leaseMs now) := by constructor <;> rfl
    refine ⟨hBudget.of_keeps hSame rfl ?_ ?_, rfl⟩
    · simp [TaskRecord.renewLease, hStatus]
    · simp [TaskRecord.renewLease, hStatus]
  | @completed workerId report _ hLease =>
    have hSame : t.SameTask (t.complete report now) := by constructor <;> rfl
    refine ⟨hBudget.of_keeps hSame rfl ?_ ?_, rfl⟩
    · simp [TaskRecord.complete]
    · simp [TaskRecord.complete]
  | @failed workerId policy payload report _ hLease hRetry =>
    obtain ⟨hSame, -, hAttempt, -⟩ := t.fail_keeps report now
    refine ⟨hBudget.of_keeps hSame hAttempt ?_ ?_, hAttempt⟩
    · rcases t.fail_cases report now with ⟨_, -, hStatus, -⟩ | ⟨-, hStatus, -⟩ |
        ⟨-, -, -, hStatus⟩
      · simp [hStatus]
      · simp [hStatus]
      · rw [hStatus]
        split <;> simp
    · intro hFailed hScheduled
      rw [hAttempt, hSame.maxAttempts, hSame.effect]
      rcases t.fail_cases report now with ⟨_, hDecision, -⟩ | ⟨-, hStatus, -⟩ | ⟨-, hNone, -⟩
      · exact TaskRecord.retryDecision_eq_retry hRetry hDecision
      · rw [hStatus] at hFailed
        cases hFailed
      · rw [hNone] at hScheduled
        cases hScheduled
  | cancelled hFor hCancel =>
    obtain ⟨-, ⟨-, hStatus, rfl⟩ | ⟨-, -, rfl⟩⟩ := TaskRecord.cancel_eq_some hCancel
    · refine ⟨hBudget.of_keeps ?_ rfl ?_ ?_, rfl⟩
      · constructor <;> rfl
      · simp [hStatus]
      · simp [hStatus]
    · exact ⟨hBudget.applyCancellation, rfl⟩
  | redriven => exact absurd rfl (hRedrive _ _)

/-! ## The whole queue -/

structure Budgeted (store : JsonFileStore) (leases : List String) : Prop where
  record : ∀ id t, store.tasks.get? id = some t →
    t.WithinBudget ∧ leases.count id = t.attempt.toNat
  absent : ∀ id, store.tasks.get? id = none → leases.count id = 0
  row : ∀ id row, store.outbox.get? id = some row →
    row.task.WithinBudget ∧ row.task.attempt = 0

variable {op : QueueOp} {now : Instant} {store store' : JsonFileStore} {leases : List String}

theorem Budgeted.bounded (h : Budgeted log.store log.leases) : log.Bounded := by
  intro id hId
  cases hIn : log.store.tasks.get? id with
  | none =>
    have hNone := h.absent id hIn
    rw [List.count_eq_zero] at hNone
    exact absurd hId hNone
  | some t =>
    obtain ⟨hBudget, hCount⟩ := h.record id t hIn
    refine ⟨t, rfl, ?_, fun hEffect => ?_⟩
    · rw [hCount]
      exact UInt32.le_iff_toNat_le.mp hBudget.attempt
    · rw [hCount]
      exact UInt32.le_iff_toNat_le.mp (hBudget.once hEffect)

section

variable (h : Budgeted store leases)
include h

theorem Budgeted.putTask_change (hIn : store.tasks.get? t.taskId = some t)
    (hId : t'.taskId = t.taskId) (hBudget : t'.WithinBudget) (hAttempt : t'.attempt = t.attempt) :
    Budgeted (store.putTask t') leases where
  record id s hGet := by
    rw [get?_putTask] at hGet
    split at hGet
    · next hSame =>
      cases hGet
      refine ⟨hBudget, ?_⟩
      rw [← hSame, hId, hAttempt]
      exact (h.record _ t hIn).2
    · exact h.record id s hGet
  absent id hNone := by
    rw [get?_putTask] at hNone
    split at hNone
    · cases hNone
    · exact h.absent id hNone
  row := h.row

theorem Budgeted.putTask_enter (hNew : ∀ t, store.tasks.get? record.taskId = some t → t = record)
    (hBudget : record.WithinBudget) (hFirst : record.attempt = 0) :
    Budgeted (store.putTask record) leases where
  record id s hGet := by
    rw [get?_putTask] at hGet
    split at hGet
    · next hSame =>
      cases hGet
      refine ⟨hBudget, ?_⟩
      cases hIn : store.tasks.get? id with
      | none =>
        rw [h.absent id hIn, hFirst]
        rfl
      | some t =>
        rw [(h.record id t hIn).2, hNew t (hSame ▸ hIn)]
    · exact h.record id s hGet
  absent id hNone := by
    rw [get?_putTask] at hNone
    split at hNone
    · cases hNone
    · exact h.absent id hNone
  row := h.row

theorem Budgeted.putTask_lease {workerId : String} {leaseMs : Nat}
    (hIn : store.tasks.get? t.taskId = some t) (hLeft : t.attempt < t.maxAttempts)
    (hRepeat : t.effect.all (·.isFreelyRepeatable) ∨ t.attempt = 0) :
    Budgeted (store.putTask (t.claim workerId leaseMs now)) (t.taskId :: leases) where
  record id s hGet := by
    rw [get?_putTask] at hGet
    split at hGet
    · next hSame =>
      cases hGet
      have hId : t.taskId = id := hSame
      refine ⟨TaskRecord.withinBudget_claim hLeft hRepeat workerId leaseMs, ?_⟩
      change _ = (saturatingSucc t.attempt).toNat
      rw [← hId, List.count_cons_self, (h.record _ t hIn).2, toNat_saturatingSucc_of_lt hLeft]
    · next hOther =>
      have hNe : t.taskId ≠ id := hOther
      rw [List.count_cons_of_ne hNe]
      exact h.record id s hGet
  absent id hNone := by
    rw [get?_putTask] at hNone
    split at hNone
    · cases hNone
    · next hOther =>
      have hNe : t.taskId ≠ id := hOther
      rw [List.count_cons_of_ne hNe]
      exact h.absent id hNone
  row := h.row

theorem Budgeted.of_eq (hTasks : store'.tasks = store.tasks)
    (hOutbox : store'.outbox = store.outbox) : Budgeted store' leases := by
  refine ⟨?_, ?_, ?_⟩
  · rw [hTasks]
    exact h.record
  · rw [hTasks]
    exact h.absent
  · rw [hOutbox]
    exact h.row

end

theorem TaskRecord.withinBudget_new {task : NewTask} (hBudget : 0 < task.maxAttempts) :
    (TaskRecord.new task now).WithinBudget where
  attempt := UInt32.le_iff_toNat_le.mpr (Nat.zero_le _)
  once _ := UInt32.le_iff_toNat_le.mpr (Nat.zero_le _)
  queued _ := ⟨rfl, hBudget⟩
  failed hStatus := by cases hStatus

theorem enqueues_withinBudget (h : op.enqueues now = some record) (hKeeps : op.keepsBudget) :
    record.WithinBudget ∧ record.attempt = 0 := by
  cases op <;> simp only [QueueOp.enqueues, reduceCtorEq, Option.some.injEq] at h
  · subst h
    exact ⟨TaskRecord.withinBudget_new (by simpa [QueueOp.keepsBudget] using hKeeps), rfl⟩
  · subst h
    refine ⟨⟨?_, ?_, ?_, ?_⟩, rfl⟩
    · exact UInt32.le_iff_toNat_le.mpr (Nat.zero_le _)
    · intro _
      exact UInt32.le_iff_toNat_le.mpr (Nat.zero_le _)
    · rintro ⟨⟩
    · rintro ⟨⟩

theorem Budgeted.putRow (h : Budgeted store leases) {row : OutboxRecord}
    (hRow : row.task.WithinBudget ∧ row.task.attempt = 0) :
    Budgeted (store.putRow row) leases where
  record := h.record
  absent := h.absent
  row id other hIn := by
    simp only [JsonFileStore.putRow, Index.get?_insert] at hIn
    split at hIn
    · cases hIn
      exact hRow
    · exact h.row id other hIn

/-- **The step lemma** for the operations that lease nothing. -/
theorem StoreStep.budgeted (h : StoreStep now op store store') (hOp : op.claimsFor = none)
    (hKeeps : op.keepsBudget) (hFresh : op.entersFresh now store) (hForm : StoreForm store)
    (hBudget : Budgeted store leases) : Budgeted store' leases := by
  cases h with
  | @enqueued _ _ record hEnters hNone =>
    obtain ⟨hRecord, hFirst⟩ := enqueues_withinBudget hEnters hKeeps
    exact hBudget.putTask_enter (new_of_enqueued hEnters hNone hFresh) hRecord hFirst
  | @relayed limit _ row hRow hPending hNone =>
    obtain ⟨hRecord, hFirst⟩ := hBudget.row _ row hRow
    exact hBudget.putTask_enter (new_of_relayed hRow hPending hNone hFresh) hRecord hFirst
  | @changed _ _ t t' hIn hChange =>
    have hRedrive : ∀ tenant taskId, op ≠ .redrive tenant taskId := by
      rintro _ _ rfl
      cases hKeeps
    obtain ⟨hRecord, hAttempt⟩ :=
      hChange.withinBudget hOp hRedrive (hBudget.record _ t hIn).1
    have hSame := (hChange.progress (hForm.tasks _ t hIn)).1.same
    exact hBudget.putTask_change hIn hSame.taskId hRecord hAttempt
  | @rowAdded task _ hNew =>
    exact hBudget.putRow
      ⟨TaskRecord.withinBudget_new (by simpa [QueueOp.keepsBudget] using hKeeps), rfl⟩
  | @rowMarked limit _ row hRow hPending hHolds => exact hBudget.putRow (hBudget.row _ row hRow)
  | leaseChanged => exact hBudget.of_eq rfl rfl

theorem budgeted_steps (hSteps : StoreSteps now op store store')
    (hOp : op.claimsFor = none) (hKeeps : op.keepsBudget) (hFresh : op.entersFresh now store)
    (hForm : StoreForm store) (hBudget : Budgeted store leases) : Budgeted store' leases := by
  induction hSteps with
  | refl => exact hBudget
  | tail hSteps hStep ih =>
    have hFresh' := entersFresh_steps hSteps hForm hFresh
    exact hStep.budgeted hOp hKeeps hFresh' (storeForm_steps hSteps hForm) ih

theorem budgeted_finalizes (hSteps : Relation.ReflTransGen (Finalizes tenant now) store store')
    (hBudget : Budgeted store leases) : Budgeted store' leases := by
  induction hSteps with
  | refl => exact hBudget
  | tail _ hStep ih =>
    obtain ⟨t, hIn, -, -, rfl⟩ := hStep
    exact ih.putTask_change hIn rfl (ih.record _ t hIn).1.applyCancellation rfl

theorem Swept.claimable (h : Swept tenant now store swept)
    (hIn : swept.tasks.get? t.taskId = some t) (hTenant : t.tenant = tenant)
    (hAt : t.claimableAt now) :
    store.tasks.get? t.taskId = some t ∧ t.cancellationDue now = false := by
  rw [h.tasks] at hIn
  obtain ⟨before, hBefore, hEq⟩ := Option.map_eq_some_iff.mp hIn
  unfold TaskRecord.settleDue at hEq
  split at hEq
  · rw [← hEq] at hAt
    cases hAt
  · next hNot =>
    subst hEq
    refine ⟨hBefore, ?_⟩
    rw [not_and, Bool.not_eq_true] at hNot
    exact hNot hTenant

/-- A claimable task has attempts left: by its status, or by the condition on expired leases. -/
theorem claimable_within_budget (hSwept : Swept tenant now store swept)
    (hSafe : store.reclaimsSafely tenant now) (hIn : swept.tasks.get? t.taskId = some t)
    (hTenant : t.tenant = tenant) (hAt : t.claimableAt now) (hBudget : t.WithinBudget) :
    t.attempt < t.maxAttempts ∧ (t.effect.all (·.isFreelyRepeatable) ∨ t.attempt = 0) := by
  rcases TaskRecord.isOpen_of_claimableAt hAt with hQueued | hFailed | hLeased
  · obtain ⟨hFirst, hPositive⟩ := hBudget.queued hQueued
    exact ⟨hFirst ▸ hPositive, .inr hFirst⟩
  · have hScheduled : t.nextAttemptAt.isSome := by
      simp only [TaskRecord.claimableAt, hFailed, Option.any_eq_true] at hAt
      obtain ⟨at', hAt', -⟩ := hAt
      rw [hAt']
      rfl
    obtain ⟨hLeft, hRepeat⟩ := hBudget.failed hFailed hScheduled
    exact ⟨hLeft, .inl hRepeat⟩
  · obtain ⟨hBefore, hNotDue⟩ := hSwept.claimable hIn hTenant hAt
    have hThis := List.all_eq_true.mp hSafe t (Index.mem_values_iff.mpr hBefore)
    simp only [hTenant, hLeased, hAt, hNotDue, ne_eq, not_true_eq_false, decide_false,
      Bool.not_true, Bool.or_self, Bool.false_or, Bool.and_eq_true, decide_eq_true_eq] at hThis
    exact ⟨hThis.1, .inl hThis.2⟩

theorem leases_next_of_idle
    (h : ∀ task, (event.op.run event.now).answer event.writes log.store ≠ .ok (some task)) :
    (log.next event).leases = log.leases := by
  unfold LeaseLog.next
  split
  · next task hTask => exact absurd hTask (h task)
  · rfl

/-- **One event.** -/
theorem budgeted_next (hForm : StoreForm log.store) (hBudget : Budgeted log.store log.leases)
    (hSpares : SparesBudget log event) :
    Budgeted (log.next event).store (log.next event).leases := by
  simp only [SparesBudget, QueueOp.sparesBudget, Bool.and_eq_true] at hSpares
  obtain ⟨⟨hFresh, hKeeps⟩, hReclaims⟩ := hSpares
  cases hFor : event.op.claimsFor with
  | none =>
    have hIdle := answer_of_claimsFor_eq_none hFor event.now event.writes log.store
    rw [leases_next_of_idle hIdle]
    exact budgeted_steps (log.store.steps_next event) hFor hKeeps hFresh hForm hBudget
  | some tenant =>
    rw [hFor, Option.all_some] at hReclaims
    obtain ⟨swept, hSteps, hCases⟩ := claim_cases hFor event.now event.writes log.store
    have hSweptBudget := budgeted_finalizes hSteps hBudget
    rcases hCases with ⟨hState, hIdle⟩ | ⟨t, workerId, leaseMs, hSwept, hIn, hTenant, hAt,
      hState, hAnswer⟩
    · rw [leases_next_of_idle hIdle]
      exact hSweptBudget.of_eq (congrArg _ hState) (congrArg _ hState)
    · have hLeases : (log.next event).leases = t.taskId :: log.leases := by
        unfold LeaseLog.next
        rw [hAnswer]
        rfl
      obtain ⟨hLeft, hRepeat⟩ := claimable_within_budget hSwept hReclaims hIn hTenant hAt
        (hSweptBudget.record _ t hIn).1
      rw [hLeases]
      exact (hSweptBudget.putTask_lease hIn hLeft hRepeat).of_eq (congrArg _ hState)
        (congrArg _ hState)

theorem budgeted_empty : Budgeted {} [] where
  record id t hIn := by
    cases hIn
  absent _ _ := rfl
  row id row hIn := by
    cases hIn

/-- What a history keeps. -/
structure LeaseLog.Sound (log : LeaseLog) : Prop where
  form : StoreForm log.store
  budget : Budgeted log.store log.leases

/-- **Within the budget**, after every history whose claims meet only expired leases that may
be handed out again. -/
theorem bounded_of_sparesBudget (history : List QueueEvent)
    (hHistory : Admissible LeaseLog.next SparesBudget {} history) :
    (run LeaseLog.next {} history).Bounded := by
  have hSound : (run LeaseLog.next {} history).Sound := by
    refine run_invariant ?_ ⟨storeForm_empty, budgeted_empty⟩ hHistory
    intro log event hSound hSpares
    exact ⟨storeForm_next event hSound.form, budgeted_next hSound.form hSound.budget hSpares⟩
  exact hSound.budget.bounded

def reclaimedHistory : List QueueEvent :=
  [⟨0, .enqueue { jobTask with maxAttempts := 2 }, 1⟩, jobClaim,
    ⟨3000000000, .claim "acme" "worker-2" { pools := [defaultPool] } 1000, 1⟩,
    ⟨3000000001, .complete "acme" "job" "worker-2" { result := .null }, 1⟩]

theorem bounded_reclaimedHistory :
    (run LeaseLog.next {} reclaimedHistory).leases = ["job", "job"] ∧
      (run LeaseLog.next {} reclaimedHistory).Bounded :=
  ⟨by decide, bounded_of_sparesBudget reclaimedHistory
    ⟨by decide, by decide, by decide, by decide, trivial⟩⟩

def vanishedHistory : List QueueEvent :=
  [⟨0, .enqueue { jobTask with maxAttempts := 1, effect := some .nonIdempotent }, 1⟩, jobClaim,
    ⟨3000000000, .claim "acme" "worker-2" { pools := [defaultPool] } 1000, 1⟩]

theorem vanished_worker_leases_twice : ¬ (run LeaseLog.next {} vanishedHistory).Bounded := by
  intro h
  obtain ⟨t, hIn, hBudget, -⟩ := h "job" (by decide)
  have hMax : ((run LeaseLog.next {} vanishedHistory).store.tasks.get? "job").map
      TaskRecord.maxAttempts = some 1 := by decide
  have hCount : (run LeaseLog.next {} vanishedHistory).leases.count "job" = 2 := by
    decide
  rw [hIn, Option.map_some, Option.some.injEq] at hMax
  rw [hCount, hMax] at hBudget
  simp at hBudget

end RustyRuntime
