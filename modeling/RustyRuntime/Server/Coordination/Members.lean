import RustyRuntime.Server.Coordination.Latches

/-!
# The tasks of a coordination's members

What the queue holds under the task ids of a coordination's members, and what operations of the
queue do to it. An operation spares the members if it neither enqueues a task under a member's
id nor redrives a member's task; claims, heartbeats, completions, failures, cancellations and the
relay of the outbox all do.

Main result: along such operations no member gets a task or a row that it did not have, and a
member's task that is terminal stays terminal (`advances_next`). The relay does not write over a
task: the row of a member carries the member's idempotency key, and so does its task.
-/

namespace RustyRuntime

open Library Library.Durable

/-! ## What the queue holds -/

/-- The operation neither enters a task under one of the ids nor redrives one. -/
def QueueOp.sparesTasks (ids : List String) : QueueOp → Bool
  | .enqueue task => task.taskId ∉ ids
  | .deadLetter task _ => task.taskId ∉ ids
  | .outboxEnqueue task => task.taskId ∉ ids
  | .redrive _ taskId => taskId ∉ ids
  | _ => true

def JsonFileStore.Present (store : JsonFileStore) (id : String) : Prop :=
  (store.tasks.get? id).isSome ∨ (store.outbox.get? id).isSome

def JsonFileStore.finished (store : JsonFileStore) (id : String) : Bool :=
  (store.tasks.get? id).any (·.settlement.isSome)

structure Holds (tenant : String) (owned : List (String × String)) (store : JsonFileStore) :
    Prop where
  form : StoreForm store
  task : ∀ p ∈ owned, ∀ t, store.tasks.get? p.1 = some t →
    t.tenant = tenant ∧ t.idempotencyKey = some p.2
  row : ∀ p ∈ owned, ∀ row, store.outbox.get? p.1 = some row →
    row.task.tenant = tenant ∧ row.task.idempotencyKey = some p.2

/-- Nothing new is present under the given ids, and what is finished stays finished. -/
structure Advances (tenant : String) (owned : List (String × String))
    (store store' : JsonFileStore) : Prop where
  holds : Holds tenant owned store'
  present : ∀ p ∈ owned, store'.Present p.1 → store.Present p.1
  finished : ∀ p ∈ owned, store.finished p.1 → store'.finished p.1

variable {tenant : String} {owned : List (String × String)} {store store' store'' : JsonFileStore}
  {now : Instant} {op : QueueOp}

theorem Advances.refl (h : Holds tenant owned store) : Advances tenant owned store store :=
  ⟨h, fun _ _ hPresent => hPresent, fun _ _ hFinished => hFinished⟩

theorem Advances.trans (h : Advances tenant owned store store')
    (h' : Advances tenant owned store' store'') : Advances tenant owned store store'' where
  holds := h'.holds
  present p hP hPresent := h.present p hP (h'.present p hP hPresent)
  finished p hP hFinished := h'.finished p hP (h.finished p hP hFinished)

variable {id : String} {t : TaskRecord} {row : OutboxRecord}

theorem finished_eq_true :
    store.finished id ↔ ∃ t, store.tasks.get? id = some t ∧ t.settlement.isSome := by
  simp [JsonFileStore.finished, Option.any_eq_true]

theorem Holds.getTask (h : Holds tenant owned store) {p : String × String} (hP : p ∈ owned) :
    store.getTask tenant p.1 = store.tasks.get? p.1 := by
  unfold JsonFileStore.getTask
  cases hTask : store.tasks.get? p.1 with
  | none => rfl
  | some t => simp [Option.filter, (h.task p hP t hTask).1]

/-! ## Single steps -/

theorem isTerminal_of_settlement (h : t.settlement.isSome) : t.isTerminal := by
  unfold TaskRecord.settlement at h
  unfold TaskRecord.isTerminal
  cases hStatus : t.status with
  | failed =>
    rw [hStatus] at h
    simp only at h ⊢
    split at h
    · next hNone => exact hNone
    · cases h
  | queued | leased =>
    rw [hStatus] at h
    cases h
  | completed | dead | cancelled => rfl

theorem TaskChange.redrives {t' : TaskRecord} (h : TaskChange now store op t t')
    (hTerminal : t.isTerminal) : op = .redrive t.tenant t.taskId := by
  have hLeased : ∀ workerId, t.leasedTo workerId → t.isTerminal = false := by
    intro workerId hLease
    rw [TaskRecord.isTerminal, (TaskRecord.leasedTo_iff.mp hLease).1]
  have hOpen : t.isTerminal = false → op = .redrive t.tenant t.taskId := by
    intro hOpen
    rw [hOpen] at hTerminal
    cases hTerminal
  cases h with
  | finalized _ hDue =>
    simp only [TaskRecord.cancellationDue, Bool.and_eq_true] at hDue
    exact hOpen (not_isTerminal_of_claimableAt hDue.1)
  | claimed hCandidate =>
    exact hOpen (not_isTerminal_of_claimableAt
      (claimable_spec (claimCandidate_spec hCandidate).2).2.2)
  | mailboxClaimed _ hCandidate =>
    exact hOpen (not_isTerminal_of_claimableAt (mailboxCandidate_spec hCandidate).2.2.2)
  | renewed hLease | completed hLease | failed hLease => exact hOpen (hLeased _ hLease)
  | cancelled _ hCancel => exact hOpen (TaskRecord.cancel_eq_some hCancel).1
  | redriven => rfl

theorem Holds.putTask_apart (h : Holds tenant owned store) (hForm : t.WellFormed)
    (hApart : t.taskId ∉ owned.map Prod.fst) : Advances tenant owned store (store.putTask t) := by
  have hSame : ∀ p ∈ owned, (store.putTask t).tasks.get? p.1 = store.tasks.get? p.1 := by
    intro p hP
    rw [get?_putTask, if_neg]
    rintro hEq
    exact hApart (hEq ▸ List.mem_map_of_mem hP)
  refine ⟨⟨h.form.putTask hForm, fun p hP t' hT' => ?_, h.row⟩, fun p hP hPresent => ?_,
    fun p hP hFinished => ?_⟩
  · rw [hSame p hP] at hT'
    exact h.task p hP t' hT'
  · rw [JsonFileStore.Present, hSame p hP] at hPresent
    exact hPresent
  · rw [JsonFileStore.finished, hSame p hP]
    exact hFinished

/-- The record of a task is written with its tenant and its key, and not after its end. -/
theorem Holds.putTask_own (h : Holds tenant owned store) (hForm : t.WellFormed)
    (hOwn : ∀ p ∈ owned, t.taskId = p.1 → t.tenant = tenant ∧ t.idempotencyKey = some p.2 ∧
      store.Present p.1 ∧ store.finished p.1 = false) :
    Advances tenant owned store (store.putTask t) := by
  refine ⟨⟨h.form.putTask hForm, fun p hP t' hT' => ?_, h.row⟩, fun p hP hPresent => ?_,
    fun p hP hFinished => ?_⟩
  · rw [get?_putTask] at hT'
    split at hT'
    · next hId =>
      cases hT'
      exact ⟨(hOwn p hP hId).1, (hOwn p hP hId).2.1⟩
    · exact h.task p hP t' hT'
  · by_cases hId : t.taskId = p.1
    · exact (hOwn p hP hId).2.2.1
    · rw [JsonFileStore.Present, get?_putTask, if_neg hId] at hPresent
      exact hPresent
  · rw [JsonFileStore.finished, get?_putTask, if_neg]
    · exact hFinished
    · intro hId
      rw [(hOwn p hP hId).2.2.2] at hFinished
      cases hFinished

theorem Holds.putRow (h : Holds tenant owned store) (hForm : RowForm row)
    (hOwn : ∀ p ∈ owned, row.outboxId = p.1 → row.task.tenant = tenant ∧
      row.task.idempotencyKey = some p.2) : Holds tenant owned (store.putRow row) := by
  refine ⟨h.form.putRow hForm, h.task, fun p hP other hOther => ?_⟩
  simp only [JsonFileStore.putRow, Index.get?_insert] at hOther
  split at hOther
  · next hId =>
    cases hOther
    exact hOwn p hP hId
  · exact h.row p hP other hOther

theorem present_putRow (h : (store.putRow row).Present id) :
    store.Present id ∨ row.outboxId = id := by
  simp only [JsonFileStore.Present, JsonFileStore.putRow, Index.get?_insert] at h
  split at h
  · next hId => exact .inr hId
  · exact .inl h

theorem StoreStep.advances (h : StoreStep now op store store')
    (hSpares : op.sparesTasks (owned.map Prod.fst)) (hHolds : Holds tenant owned store) :
    Advances tenant owned store store' := by
  cases h with
  | enqueued hOp hNew =>
    refine hHolds.putTask_apart (enqueues_spec hOp).1 ?_
    cases op <;> simp only [QueueOp.enqueues, reduceCtorEq, Option.some.injEq] at hOp
    · subst hOp
      exact of_decide_eq_true hSpares
    · subst hOp
      exact of_decide_eq_true hSpares
  | @relayed _ _ row hRow hPending hNew =>
    have hForm := hHolds.form.rows _ _ hRow
    refine hHolds.putTask_own hForm.wellFormed fun p hP hId => ?_
    rw [← hForm.outboxId] at hId
    obtain ⟨hTenant, hKey⟩ := hHolds.row p hP row (hId ▸ hRow)
    refine ⟨hTenant, hKey, .inr (by rw [← hId, hRow]; rfl), ?_⟩
    -- A task under the id would carry the key of the row.
    cases hTask : store.tasks.get? p.1 with
    | none => simp [JsonFileStore.finished, hTask]
    | some t =>
      have hKnown : (store.deduplicated row.task).isSome := by
        refine deduplicated_isSome.mpr ⟨p.2, t, hKey, ?_, ?_, (hHolds.task p hP t hTask).2⟩
        · rw [Index.key_of_get? hTask]
          exact hTask
        · rw [(hHolds.task p hP t hTask).1, hTenant]
      rw [hNew] at hKnown
      cases hKnown
  | @changed _ _ t t' hIn hChange =>
    obtain ⟨hProgress, hForm⟩ := hChange.progress (hHolds.form.tasks _ _ hIn)
    refine hHolds.putTask_own hForm fun p hP hId => ?_
    rw [hProgress.same.taskId] at hId
    obtain ⟨hTenant, hKey⟩ := hHolds.task p hP t (hId ▸ hIn)
    refine ⟨hProgress.same.tenant.trans hTenant, hProgress.same.idempotencyKey.trans hKey,
      .inl (by rw [← hId, hIn]; rfl), ?_⟩
    rw [Bool.eq_false_iff]
    intro hFinished
    obtain ⟨t₀, hT₀, hSettled⟩ := finished_eq_true.mp hFinished
    rw [← hId, hIn] at hT₀
    cases hT₀
    rw [hChange.redrives (isTerminal_of_settlement hSettled)] at hSpares
    simp only [QueueOp.sparesTasks, decide_eq_true_eq, hId] at hSpares
    exact hSpares (List.mem_map_of_mem hP)
  | @rowAdded task _ hNew =>
    simp only [QueueOp.sparesTasks, decide_eq_true_eq] at hSpares
    have hApart : ∀ p ∈ owned, task.taskId ≠ p.1 := by
      intro p hP hEq
      exact hSpares (hEq ▸ List.mem_map_of_mem hP)
    refine ⟨hHolds.putRow ⟨rfl, rfl, TaskRecord.wellFormed_new _ now, rfl, rfl⟩
      fun p hP hId => absurd hId (hApart p hP), fun p hP hPresent => ?_, fun _ _ hFin => hFin⟩
    exact (present_putRow hPresent).resolve_right (hApart p hP)
  | @rowMarked _ _ row hRow hPending hHeld =>
    have hForm := hHolds.form.rows _ _ hRow
    refine ⟨hHolds.putRow ⟨hForm.outboxId, hForm.tenant, hForm.wellFormed, hForm.status,
      hForm.result⟩ fun p hP hId => hHolds.row p hP row (hId ▸ hRow), fun p hP hPresent => ?_,
      fun _ _ hFin => hFin⟩
    refine (present_putRow hPresent).elim id fun hId => .inr ?_
    rw [← hId, hRow]
    rfl
  | leaseChanged hOp =>
    exact ⟨⟨⟨hHolds.form.tasks, hHolds.form.rows⟩, hHolds.task, hHolds.row⟩,
      fun _ _ hPresent => hPresent, fun _ _ hFin => hFin⟩

theorem advances_steps (hSteps : StoreSteps now op store store')
    (hSpares : op.sparesTasks (owned.map Prod.fst)) (hHolds : Holds tenant owned store) :
    Advances tenant owned store store' := by
  induction hSteps with
  | refl => exact .refl hHolds
  | tail _ hStep ih => exact ih.trans (hStep.advances hSpares ih.holds)

/-- **An operation that spares the members advances their tasks.** -/
theorem advances_next {event : QueueEvent} (hSpares : event.op.sparesTasks (owned.map Prod.fst))
    (hHolds : Holds tenant owned store) : Advances tenant owned store (store.next event) :=
  advances_steps (store.steps_next event) hSpares hHolds

end RustyRuntime
