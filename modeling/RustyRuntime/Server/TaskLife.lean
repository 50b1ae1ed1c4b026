import RustyRuntime.Server.QueueStep
import RustyRuntime.Library.Run

/-!
# The life of a task

A history of the file backend is a list of operations, each at any time and cut off after any
number of its writes. `Orderly` is what the queue promises of one operation: leases lie exactly
on leased records and retry times only on failed ones, attempts never go down, a completed or
cancelled record is final, a dead one moves only by a re-drive, and a result comes from the
worker that holds the lease.

`enqueue_locked` looks for the idempotency key of a record and not for its id, so a record
whose key no task has replaces the one that has its id. `entersFresh` excludes this.

Main results:

* **Every history in which no record replaces another is orderly** (`orderly_of_entersFresh`).
* A record that is enqueued again under its id, by a producer or by the relay after a lost
  write, takes a completed task back to the queue (`reenqueued_task_rewinds`).
-/

namespace RustyRuntime

open Library

/-! ## Histories -/

/-- An operation at a time, and how many of its writes succeed. -/
structure QueueEvent where
  now : Instant
  op : QueueOp
  writes : Nat

def JsonFileStore.next (store : JsonFileStore) (event : QueueEvent) : JsonFileStore :=
  (event.op.run event.now).state event.writes store

theorem JsonFileStore.steps_next (store : JsonFileStore) (event : QueueEvent) :
    StoreSteps event.now event.op store (store.next event) :=
  reaches_run event.op event.now store event.writes

/-! ## One record -/

structure Progress (op : QueueOp) (t t' : TaskRecord) : Prop where
  same : t.SameTask t'
  attempt : t.attempt ≤ t'.attempt
  settled : t.status = .completed ∨ t.status = .cancelled → t' = t
  dead : t.status = .dead → t' = t ∨ op = .redrive t.tenant t.taskId
  result : t'.result = t.result ∨ ∃ workerId report,
    op = .complete t.tenant t.taskId workerId report ∧ t.leasedTo workerId ∧
      t'.result = some report.result
  completion : ∀ tenant taskId workerId report,
    op = .complete tenant taskId workerId report → t' = t ∨ t'.status = .completed

theorem Progress.refl (op : QueueOp) (t : TaskRecord) : Progress op t t where
  same := .refl t
  attempt := UInt32.le_refl _
  settled _ := rfl
  dead _ := .inl rfl
  result := .inl rfl
  completion _ _ _ _ _ := .inl rfl

variable {t t' record : TaskRecord} {limit : Nat}

theorem Progress.trans {op : QueueOp} {t'' : TaskRecord} (h : Progress op t t')
    (h' : Progress op t' t'') : Progress op t t'' where
  same := h.same.trans h'.same
  attempt := UInt32.le_trans h.attempt h'.attempt
  settled hStatus := by
    have hEq := h.settled hStatus
    rw [hEq] at h'
    exact h'.settled hStatus
  dead hStatus := by
    rcases h.dead hStatus with hEq | hOp
    · rw [hEq] at h'
      exact h'.dead hStatus
    · exact .inr hOp
  result := by
    rcases h'.result with hKept | ⟨workerId, report, hOp, hLease, hResult⟩
    · rcases h.result with hFirst | ⟨workerId, report, hOp, hLease, hResult⟩
      · exact .inl (hKept.trans hFirst)
      · exact .inr ⟨workerId, report, hOp, hLease, hKept.trans hResult⟩
    · -- The record is still leased, so the operation has not touched it before.
      have hEq : t' = t := by
        rcases h.completion _ _ _ _ hOp with hEq | hStatus
        · exact hEq
        · rw [(TaskRecord.leasedTo_iff.mp hLease).1] at hStatus
          cases hStatus
      rw [hEq] at hOp hLease
      exact .inr ⟨workerId, report, hOp, hLease, hResult⟩
  completion tenant taskId workerId report hOp := by
    rcases h.completion tenant taskId workerId report hOp with hEq | hStatus
    · rw [hEq] at h'
      exact h'.completion tenant taskId workerId report hOp
    · rw [h'.settled (.inl hStatus)]
      exact .inr hStatus

/-- The statuses in which a record still moves by itself. -/
def TaskRecord.IsOpen (t : TaskRecord) : Prop :=
  t.status = .queued ∨ t.status = .failed ∨ t.status = .leased

variable {now : Instant}

theorem TaskRecord.isOpen_of_claimableAt (h : t.claimableAt now) : t.IsOpen := by
  unfold claimableAt at h
  unfold IsOpen
  split at h <;> simp_all

theorem not_isTerminal_of_claimableAt (h : t.claimableAt now) : t.isTerminal = false := by
  unfold TaskRecord.claimableAt at h
  unfold TaskRecord.isTerminal
  cases hStatus : t.status with
  | failed =>
    rw [hStatus] at h
    simp only [Option.any_eq_true] at h
    obtain ⟨at', hAt, -⟩ := h
    simp [hAt]
  | queued | leased => rfl
  | completed | dead | cancelled =>
    rw [hStatus] at h
    cases h

theorem TaskRecord.isOpen_of_not_isTerminal (h : t.isTerminal = false) : t.IsOpen := by
  unfold isTerminal at h
  unfold IsOpen
  split at h <;> simp_all

theorem Progress.of_open {op : QueueOp} (hOpen : t.IsOpen) (hSame : t.SameTask t')
    (hAttempt : t.attempt ≤ t'.attempt) (hResult : t'.result = t.result)
    (hOp : ∀ tenant taskId workerId report, op ≠ .complete tenant taskId workerId report) :
    Progress op t t' where
  same := hSame
  attempt := hAttempt
  settled hStatus := by
    rcases hOpen with h | h | h <;> rw [h] at hStatus <;> simp at hStatus
  dead hStatus := by
    rcases hOpen with h | h | h <;> rw [h] at hStatus <;> simp at hStatus
  result := .inl hResult
  completion tenant taskId workerId report h := absurd h (hOp tenant taskId workerId report)

section

variable (t : TaskRecord) (now : Instant) (workerId : String) (leaseMs : Nat)

theorem TaskRecord.sameTask_applyCancellation : t.SameTask (t.applyCancellation now) := by
  constructor <;> rfl

theorem TaskRecord.sameTask_claim (now : Instant) : t.SameTask (t.claim workerId leaseMs now) := by
  constructor <;> rfl

theorem TaskRecord.wellFormed_applyCancellation : (t.applyCancellation now).WellFormed :=
  ⟨by simp [applyCancellation], by simp [applyCancellation]⟩

theorem TaskRecord.wellFormed_claim (now : Instant) : (t.claim workerId leaseMs now).WellFormed :=
  ⟨by simp [claim], by simp [claim]⟩

end

variable {store store'' : JsonFileStore}

/-- **Every transition is progress and keeps a record well formed.** -/
theorem TaskChange.progress {op : QueueOp} (h : TaskChange now store op t t')
    (hForm : t.WellFormed) : Progress op t t' ∧ t'.WellFormed := by
  cases h with
  | finalized hFor hDue =>
    simp only [TaskRecord.cancellationDue, Bool.and_eq_true] at hDue
    refine ⟨.of_open (TaskRecord.isOpen_of_claimableAt hDue.1)
      (t.sameTask_applyCancellation now) (UInt32.le_refl _) rfl ?_,
      t.wellFormed_applyCancellation now⟩
    rintro _ _ _ _ rfl
    cases hFor
  | claimed hCandidate =>
    have hOpen := TaskRecord.isOpen_of_claimableAt
      (claimable_spec (claimCandidate_spec hCandidate).2).2.2
    refine ⟨.of_open hOpen (t.sameTask_claim _ _ now) (le_saturatingSucc t.attempt) rfl ?_,
      t.wellFormed_claim _ _ now⟩
    rintro _ _ _ _ ⟨⟩
  | mailboxClaimed hTurn hCandidate =>
    have hOpen := TaskRecord.isOpen_of_claimableAt (mailboxCandidate_spec hCandidate).2.2.2
    refine ⟨.of_open hOpen (t.sameTask_claim _ _ now) (le_saturatingSucc t.attempt) rfl ?_,
      t.wellFormed_claim _ _ now⟩
    rintro _ _ _ _ ⟨⟩
  | @renewed workerId leaseMs _ hLease =>
    have hStatus := (TaskRecord.leasedTo_iff.mp hLease).1
    have hSame : t.SameTask (t.renewLease leaseMs now) := by constructor <;> rfl
    refine ⟨.of_open (.inr (.inr hStatus)) hSame (UInt32.le_refl _) rfl ?_, ?_, hForm.retry⟩
    · rintro _ _ _ _ ⟨⟩
    · have hLease := hForm.lease
      simpa [TaskRecord.renewLease] using hLease
  | @completed workerId report _ hLease =>
    have hStatus := (TaskRecord.leasedTo_iff.mp hLease).1
    refine ⟨?_, by simp [TaskRecord.complete], by simp [TaskRecord.complete]⟩
    exact
      { same := by constructor <;> rfl
        attempt := UInt32.le_refl _
        settled := by simp [hStatus]
        dead := by simp [hStatus]
        result := .inr ⟨workerId, report, rfl, hLease, rfl⟩
        completion := fun _ _ _ _ _ => .inr rfl }
  | @failed workerId policy payload report _ hLease hRetry =>
    have hStatus := (TaskRecord.leasedTo_iff.mp hLease).1
    obtain ⟨hSame, -, hAttempt, hResult⟩ := t.fail_keeps report now
    refine ⟨.of_open (.inr (.inr hStatus)) hSame ?_ hResult ?_, TaskRecord.wellFormed_fail report⟩
    · rw [hAttempt]
      exact UInt32.le_refl _
    · rintro _ _ _ _ ⟨⟩
  | cancelled hFor hCancel =>
    obtain ⟨hTerminal, hCases⟩ := TaskRecord.cancel_eq_some hCancel
    have hOpen := TaskRecord.isOpen_of_not_isTerminal hTerminal
    have hOther : ∀ tenant taskId workerId report,
        op ≠ .complete tenant taskId workerId report := by
      rintro _ _ _ _ rfl
      cases hFor
    rcases hCases with ⟨-, -, rfl⟩ | ⟨-, -, rfl⟩
    · refine ⟨.of_open hOpen ?_ (UInt32.le_refl _) rfl hOther, hForm.lease, hForm.retry⟩
      constructor <;> rfl
    · exact ⟨.of_open hOpen (t.sameTask_applyCancellation now) (UInt32.le_refl _) rfl hOther,
        t.wellFormed_applyCancellation now⟩
  | redriven hRedrive =>
    obtain ⟨hDead, rfl⟩ := TaskRecord.redrive_eq_some hRedrive
    refine ⟨?_, by simp, by simp⟩
    exact
      { same := by constructor <;> rfl
        attempt := UInt32.le_refl _
        settled := by simp [hDead]
        dead := fun _ => .inr rfl
        result := .inl rfl
        completion := nofun }

/-! ## Records that enter the queue -/

/-- The record does not replace another one: its id is free or its own, or a task has its
key. -/
def JsonFileStore.admits (store : JsonFileStore) (record : TaskRecord) : Bool :=
  (store.tasks.get? record.taskId).all (· = record) || (store.deduplicated record).isSome

/-- No record that the operation enqueues replaces another one. -/
def QueueOp.entersFresh (now : Instant) (op : QueueOp) (store : JsonFileStore) : Bool :=
  match op with
  | .enqueue task => store.admits (.new task now)
  | .deadLetter task lastError => store.admits (.deadLettered task lastError now)
  | .publish _ => store.outbox.values.all fun row =>
      row.publishedAt.isSome || store.admits row.task
  | _ => true

theorem deduplicated_isSome :
    (store.deduplicated record).isSome ↔ ∃ key t, record.idempotencyKey = some key ∧
      store.tasks.get? t.taskId = some t ∧ t.tenant = record.tenant ∧
        t.idempotencyKey = some key := by
  unfold JsonFileStore.deduplicated
  cases hKey : record.idempotencyKey with
  | none => simp
  | some key =>
    simp only [Option.bind_some, List.find?_isSome, Bool.and_eq_true, decide_eq_true_eq,
      Index.mem_values_iff]
    constructor
    · rintro ⟨t, hIn, hTenant, hSame⟩
      exact ⟨key, t, rfl, hIn, hTenant, hSame⟩
    · rintro ⟨_, t, ⟨⟩, hIn, hTenant, hSame⟩
      exact ⟨t, hIn, hTenant, hSame⟩

theorem admits_iff :
    store.admits record ↔ (∀ t, store.tasks.get? record.taskId = some t → t = record) ∨
      (store.deduplicated record).isSome := by
  simp [JsonFileStore.admits, Option.all_eq_true]

structure RowForm (row : OutboxRecord) : Prop where
  outboxId : row.outboxId = row.task.taskId
  tenant : row.tenant = row.task.tenant
  wellFormed : row.task.WellFormed
  status : row.task.status = .queued
  result : row.task.result = none

/-- What every history keeps of a store. -/
structure StoreForm (store : JsonFileStore) : Prop where
  tasks : ∀ id t, store.tasks.get? id = some t → t.WellFormed
  rows : ∀ id row, store.outbox.get? id = some row → RowForm row

/-- Every record that the operation enqueues passes a test. -/
def QueueOp.enters (admits : JsonFileStore → TaskRecord → Bool) (now : Instant) (op : QueueOp)
    (store : JsonFileStore) : Bool :=
  match op with
  | .enqueue task => admits store (.new task now)
  | .deadLetter task lastError => admits store (.deadLettered task lastError now)
  | .publish _ => store.outbox.values.all fun row => row.publishedAt.isSome || admits store row.task
  | _ => true

theorem entersFresh_eq (now : Instant) (op : QueueOp) (store : JsonFileStore) :
    op.entersFresh now store = op.enters JsonFileStore.admits now store := by
  cases op <;> rfl

variable {admits : JsonFileStore → TaskRecord → Bool}

theorem enters_publish :
    (QueueOp.publish limit).enters admits now store ↔
      ∀ row, store.outbox.get? row.outboxId = some row → row.publishedAt = none →
        admits store row.task := by
  simp only [QueueOp.enters, List.all_eq_true, Index.mem_values_iff, Bool.or_eq_true,
    Option.isSome_iff_ne_none]
  constructor
  · intro h row hRow hPending
    exact (h row hRow).resolve_left (not_not.mpr hPending)
  · intro h row hRow
    by_cases hPending : row.publishedAt = none
    · exact .inr (h row hRow hPending)
    · exact .inl hPending

/-! ## One step -/

/-- What one operation promises of the whole queue. -/
structure Orderly (op : QueueOp) (store store' : JsonFileStore) : Prop where
  wellFormed : ∀ id t, store'.tasks.get? id = some t → t.WellFormed
  progress : ∀ id t, store.tasks.get? id = some t →
    ∃ t', store'.tasks.get? id = some t' ∧ Progress op t t'
  entered : ∀ id t', store.tasks.get? id = none → store'.tasks.get? id = some t' →
    t'.result = none ∧ ∀ tenant taskId workerId report,
      op ≠ .complete tenant taskId workerId report

variable {op : QueueOp} {now : Instant} {store store' : JsonFileStore}

theorem Orderly.of_tasks_eq (hForm : StoreForm store) (h : store'.tasks = store.tasks) :
    Orderly op store store' where
  wellFormed id t hIn := hForm.tasks id t (h ▸ hIn)
  progress id t hIn := ⟨t, h ▸ hIn, .refl op t⟩
  entered id t' hNone hSome := by
    rw [h, hNone] at hSome
    cases hSome

theorem Orderly.trans (h : Orderly op store store') (h' : Orderly op store' store'') :
    Orderly op store store'' where
  wellFormed := h'.wellFormed
  progress id t hIn := by
    obtain ⟨t', hIn', hFirst⟩ := h.progress id t hIn
    obtain ⟨t'', hIn'', hSecond⟩ := h'.progress id t' hIn'
    exact ⟨t'', hIn'', hFirst.trans hSecond⟩
  entered id t'' hNone hSome := by
    cases hMiddle : store'.tasks.get? id with
    | none => exact h'.entered id t'' hMiddle hSome
    | some t' =>
      obtain ⟨hResult, hOp⟩ := h.entered id t' hNone hMiddle
      obtain ⟨_, hSome', hSecond⟩ := h'.progress id t' hMiddle
      rw [hSome] at hSome'
      cases hSome'
      refine ⟨?_, hOp⟩
      rcases hSecond.result with hKept | ⟨workerId, report, hComplete, -⟩
      · exact hKept.trans hResult
      · exact absurd hComplete (hOp _ _ _ _)

theorem get?_putTask (store : JsonFileStore) (t : TaskRecord) (id : String) :
    (store.putTask t).tasks.get? id = if t.taskId = id then some t else store.tasks.get? id :=
  Index.get?_insert store.tasks t id

theorem Orderly.of_entered (hForm : StoreForm store)
    (hNew : ∀ t, store.tasks.get? record.taskId = some t → t = record) (hRecord : record.WellFormed)
    (hResult : record.result = none)
    (hOp : ∀ tenant taskId workerId report, op ≠ .complete tenant taskId workerId report) :
    Orderly op store (store.putTask record) where
  wellFormed id t hIn := by
    rw [get?_putTask] at hIn
    split at hIn
    · cases hIn
      exact hRecord
    · exact hForm.tasks id t hIn
  progress id t hIn := by
    rw [get?_putTask]
    split
    · next hId =>
      refine ⟨record, rfl, ?_⟩
      rw [hNew t (hId ▸ hIn)]
      exact .refl op record
    · exact ⟨t, hIn, .refl op t⟩
  entered id t' hNone hSome := by
    rw [get?_putTask] at hSome
    split at hSome
    · cases hSome
      exact ⟨hResult, hOp⟩
    · rw [hNone] at hSome
      cases hSome

theorem Orderly.of_changed (hForm : StoreForm store) (hIn : store.tasks.get? t.taskId = some t)
    (hProgress : Progress op t t') (hRecord : t'.WellFormed) :
    Orderly op store (store.putTask t') where
  wellFormed id s hGet := by
    rw [get?_putTask] at hGet
    split at hGet
    · cases hGet
      exact hRecord
    · exact hForm.tasks id s hGet
  progress id s hGet := by
    rw [get?_putTask]
    split
    · next hId =>
      rw [← hId, hProgress.same.taskId, hIn] at hGet
      cases hGet
      exact ⟨t', rfl, hProgress⟩
    · exact ⟨s, hGet, .refl op s⟩
  entered id s hNone hSome := by
    rw [get?_putTask] at hSome
    split at hSome
    · next hId =>
      rw [← hId, hProgress.same.taskId, hIn] at hNone
      cases hNone
    · rw [hNone] at hSome
      cases hSome

/-- A test of records that lasts while records that pass it enter. -/
structure EntryRule (admits : JsonFileStore → TaskRecord → Bool) : Prop where
  tasks : ∀ {store store' : JsonFileStore} (record : TaskRecord), store'.tasks = store.tasks →
    admits store' record = admits store record
  putTask : ∀ {store : JsonFileStore} {record other : TaskRecord},
    store.deduplicated record = none → admits store record → admits store other →
      (record.taskId = other.taskId → record = other) → admits (store.putTask record) other

/-- A record that entered stays admitted, and so does any other with a different id. -/
theorem entryRule_admits : EntryRule JsonFileStore.admits where
  tasks record h := by simp only [JsonFileStore.admits, JsonFileStore.deduplicated, h]
  putTask := by
    intro store record other hNone hRecord hOther hIds
    have hNew := (admits_iff.mp hRecord).resolve_right (by simp [hNone])
    rw [admits_iff] at hOther ⊢
    rcases hOther with hFree | hKnown
    · refine .inl fun t hIn => ?_
      rw [get?_putTask] at hIn
      split at hIn
      · next hId =>
        cases hIn
        exact hIds hId
      · exact hFree t hIn
    · refine .inr ?_
      rw [deduplicated_isSome] at hKnown ⊢
      obtain ⟨key, t, hKey, hIn, hTenant, hSame⟩ := hKnown
      refine ⟨key, t, hKey, ?_, hTenant, hSame⟩
      rw [get?_putTask]
      split
      · next hId => rw [hNew t (hId ▸ hIn)]
      · exact hIn

theorem StoreForm.putTask (hForm : StoreForm store) (hRecord : t.WellFormed) :
    StoreForm (store.putTask t) where
  tasks id s hIn := by
    rw [get?_putTask] at hIn
    split at hIn
    · cases hIn
      exact hRecord
    · exact hForm.tasks id s hIn
  rows := hForm.rows

theorem StoreForm.putRow (hForm : StoreForm store) {row : OutboxRecord} (hRow : RowForm row) :
    StoreForm (store.putRow row) where
  tasks := hForm.tasks
  rows id other hIn := by
    simp only [JsonFileStore.putRow, Index.get?_insert] at hIn
    split at hIn
    · cases hIn
      exact hRow
    · exact hForm.rows id other hIn

theorem enqueues_spec (h : op.enqueues now = some record) :
    record.WellFormed ∧ record.result = none ∧
      ∀ tenant taskId workerId report, op ≠ .complete tenant taskId workerId report := by
  cases op <;> simp only [QueueOp.enqueues, reduceCtorEq, Option.some.injEq] at h
  · subst h
    exact ⟨TaskRecord.wellFormed_new _ now, rfl, by simp⟩
  · subst h
    refine ⟨⟨?_, ?_⟩, rfl, by simp⟩
    · simp [TaskRecord.deadLettered, TaskRecord.new]
    · simp [TaskRecord.deadLettered, TaskRecord.new]

theorem enters_of_enqueues (h : op.enqueues now = some record) (store : JsonFileStore) :
    op.enters admits now store = admits store record := by
  cases op <;> simp only [QueueOp.enqueues, reduceCtorEq, Option.some.injEq] at h
  · subst h
    rfl
  · subst h
    rfl

theorem new_of_enqueued (hOp : op.enqueues now = some record)
    (hNone : store.deduplicated record = none) (hFresh : op.entersFresh now store) :
    ∀ t, store.tasks.get? record.taskId = some t → t = record := by
  rw [entersFresh_eq, enters_of_enqueues hOp] at hFresh
  exact (admits_iff.mp hFresh).resolve_right (by simp [hNone])

theorem new_of_relayed {limit : Nat} {row : OutboxRecord}
    (hRow : store.outbox.get? row.outboxId = some row) (hPending : row.publishedAt = none)
    (hNone : store.deduplicated row.task = none)
    (hFresh : (QueueOp.publish limit).entersFresh now store) :
    ∀ t, store.tasks.get? row.task.taskId = some t → t = row.task := by
  rw [entersFresh_eq, enters_publish] at hFresh
  exact (admits_iff.mp (hFresh row hRow hPending)).resolve_right (by simp [hNone])

theorem enters_of_changes (h : TaskChange now store op t t') (other : JsonFileStore) :
    op.enters admits now other := by
  cases h with
  | @finalized op _ hFor hDue => cases op <;> simp_all [QueueOp.claimsFor, QueueOp.enters]
  | @cancelled op _ _ _ hFor hCancel => cases op <;> simp_all [QueueOp.cancels, QueueOp.enters]
  | claimed | mailboxClaimed | renewed | completed | failed | redriven => rfl

theorem StoreStep.storeForm (h : StoreStep now op store store') (hForm : StoreForm store) :
    StoreForm store' := by
  cases h with
  | enqueued hOp => exact hForm.putTask (enqueues_spec hOp).1
  | relayed hRow => exact hForm.putTask (hForm.rows _ _ hRow).wellFormed
  | changed hIn hChange => exact hForm.putTask (hChange.progress (hForm.tasks _ _ hIn)).2
  | rowAdded => exact hForm.putRow ⟨rfl, rfl, TaskRecord.wellFormed_new _ now, rfl, rfl⟩
  | rowMarked hRow =>
    have hRowForm := hForm.rows _ _ hRow
    exact hForm.putRow ⟨hRowForm.outboxId, hRowForm.tenant, hRowForm.wellFormed,
      hRowForm.status, hRowForm.result⟩
  | leaseChanged => exact ⟨hForm.tasks, hForm.rows⟩

theorem StoreStep.enters (hRule : EntryRule admits) (h : StoreStep now op store store')
    (hForm : StoreForm store) (hEnters : op.enters admits now store) :
    op.enters admits now store' := by
  cases h with
  | enqueued hOp hNone =>
    rw [enters_of_enqueues hOp] at hEnters ⊢
    exact hRule.putTask hNone hEnters hEnters fun _ => rfl
  | @relayed limit _ row hRow hPending hNone =>
    rw [enters_publish] at hEnters ⊢
    intro other hOther hOpen
    refine hRule.putTask hNone (hEnters row hRow hPending) (hEnters other hOther hOpen)
      fun hIds => ?_
    -- The id of a row is the id of its task, so rows with one task id are one row.
    have hSame : row.outboxId = other.outboxId :=
      (hForm.rows _ row hRow).outboxId.trans (hIds.trans (hForm.rows _ other hOther).outboxId.symm)
    have hOther' : store.outbox.get? other.outboxId = some other := hOther
    rw [← hSame, hRow] at hOther'
    cases hOther'
    rfl
  | changed hIn hChange => exact enters_of_changes hChange _
  | rowAdded => rfl
  | @rowMarked limit _ row hRow hPending hHolds =>
    rw [enters_publish] at hEnters ⊢
    intro other hOther hOpen
    have hSame : admits (store.putRow { row with publishedAt := some now }) other.task =
        admits store other.task := hRule.tasks other.task rfl
    rw [hSame]
    simp only [JsonFileStore.putRow, Index.get?_insert] at hOther
    split at hOther
    · cases hOther
      cases hOpen
    · exact hEnters other hOther hOpen
  | leaseChanged hOp => cases op <;> simp_all [QueueOp.isActivation, QueueOp.enters]

theorem StoreStep.entersFresh (h : StoreStep now op store store') (hForm : StoreForm store)
    (hFresh : op.entersFresh now store) : op.entersFresh now store' := by
  exact h.enters entryRule_admits hForm hFresh

/-- **The step lemma.** -/
theorem StoreStep.orderly (h : StoreStep now op store store') (hForm : StoreForm store)
    (hFresh : op.entersFresh now store) : Orderly op store store' := by
  cases h with
  | enqueued hOp hNone =>
    obtain ⟨hRecord, hResult, hOther⟩ := enqueues_spec hOp
    exact .of_entered hForm (new_of_enqueued hOp hNone hFresh) hRecord hResult hOther
  | relayed hRow hPending hNone =>
    have hRowForm := hForm.rows _ _ hRow
    exact .of_entered hForm (new_of_relayed hRow hPending hNone hFresh) hRowForm.wellFormed
      hRowForm.result (by simp)
  | changed hIn hChange =>
    obtain ⟨hProgress, hRecord⟩ := hChange.progress (hForm.tasks _ _ hIn)
    exact .of_changed hForm hIn hProgress hRecord
  | rowAdded | rowMarked | leaseChanged => exact .of_tasks_eq hForm rfl

/-! ## Whole histories -/

theorem storeForm_steps (hSteps : StoreSteps now op store store')
    (hForm : StoreForm store) : StoreForm store' := by
  induction hSteps with
  | refl => exact hForm
  | tail _ hStep ih => exact hStep.storeForm ih

theorem storeForm_next (event : QueueEvent) (hForm : StoreForm store) :
    StoreForm (store.next event) :=
  storeForm_steps (store.steps_next event) hForm

theorem enters_steps (hRule : EntryRule admits) (hSteps : StoreSteps now op store store')
    (hForm : StoreForm store) (hEnters : op.enters admits now store) :
    op.enters admits now store' := by
  induction hSteps with
  | refl => exact hEnters
  | tail hSteps hStep ih => exact hStep.enters hRule (storeForm_steps hSteps hForm) ih

theorem entersFresh_steps (hSteps : StoreSteps now op store store')
    (hForm : StoreForm store) (hFresh : op.entersFresh now store) :
    op.entersFresh now store' := by
  exact enters_steps entryRule_admits hSteps hForm hFresh

theorem orderly_steps (hSteps : StoreSteps now op store store')
    (hForm : StoreForm store) (hFresh : op.entersFresh now store) : Orderly op store store' := by
  induction hSteps with
  | refl => exact .of_tasks_eq hForm rfl
  | tail hSteps hStep ih =>
    have hForm' := storeForm_steps hSteps hForm
    exact ih.trans (hStep.orderly hForm' (entersFresh_steps hSteps hForm hFresh))

theorem storeForm_empty : StoreForm {} where
  tasks id t hIn := by
    cases hIn
  rows id row hIn := by
    cases hIn

/-- No event of the history lets a record replace another one. -/
abbrev EntersFresh (store : JsonFileStore) (event : QueueEvent) : Prop :=
  event.op.entersFresh event.now store

/-- **Every history in which no record replaces another is orderly**, at every event. -/
theorem orderly_of_entersFresh (history : List QueueEvent) (event : QueueEvent)
    (hHistory : Admissible JsonFileStore.next EntersFresh {} history)
    (hEvent : EntersFresh (run JsonFileStore.next {} history) event) :
    Orderly event.op (run JsonFileStore.next {} history)
      ((run JsonFileStore.next {} history).next event) := by
  have hForm : StoreForm (run JsonFileStore.next {} history) :=
    run_invariant (fun _ event hForm _ => storeForm_next event hForm) storeForm_empty hHistory
  exact orderly_steps (JsonFileStore.steps_next _ event) hForm hEvent

def jobTask : NewTask := { taskId := "job", tenant := "acme", kind := "graph_run" }

def jobClaim : QueueEvent := ⟨1, .claim "acme" "worker-1" { pools := [defaultPool] } 1000, 1⟩

def jobCompletion : QueueEvent :=
  ⟨2, .complete "acme" "job" "worker-1" { result := .str "done" }, 1⟩

/-- A task that is enqueued, leased and completed. -/
theorem orderly_jobCompletion :
    Orderly jobCompletion.op (run JsonFileStore.next {} [⟨0, .enqueue jobTask, 1⟩, jobClaim])
      ((run JsonFileStore.next {} [⟨0, .enqueue jobTask, 1⟩, jobClaim]).next jobCompletion) :=
  orderly_of_entersFresh _ _ ⟨by decide, by decide, trivial⟩ (by decide)

def JsonFileStore.statusOf (store : JsonFileStore) (taskId : String) : Option TaskStatus :=
  (store.tasks.get? taskId).map TaskRecord.status

theorem not_orderly_of_rewound (id : String)
    (hBefore : store.statusOf id = some .completed)
    (hAfter : store'.statusOf id = some .queued) : ¬ Orderly op store store' := by
  intro h
  obtain ⟨t, hIn, hStatus⟩ := Option.map_eq_some_iff.mp hBefore
  obtain ⟨t', hIn', hProgress⟩ := h.progress id t hIn
  rw [JsonFileStore.statusOf, hIn', hProgress.settled (.inl hStatus), Option.map_some,
    hStatus] at hAfter
  cases hAfter

def completedJob : JsonFileStore :=
  run JsonFileStore.next {} [⟨0, .enqueue jobTask, 1⟩, jobClaim, jobCompletion]

/-- The first pass of the relay loses the write that marks the row. -/
def relayedJob : JsonFileStore :=
  run JsonFileStore.next {}
    [⟨0, .outboxEnqueue jobTask, 1⟩, ⟨0, .publish 10, 1⟩, jobClaim, jobCompletion]

/-- A completed task is taken back to the queue, by a producer that enqueues its id again and
by the next pass of the relay. -/
theorem reenqueued_task_rewinds :
    ¬ Orderly (.enqueue jobTask) completedJob (completedJob.next ⟨3, .enqueue jobTask, 1⟩) ∧
      ¬ Orderly (.publish 10) relayedJob (relayedJob.next ⟨3, .publish 10, 2⟩) := by
  constructor
  · exact not_orderly_of_rewound "job" (by decide) (by decide)
  · exact not_orderly_of_rewound "job" (by decide) (by decide)

end RustyRuntime
