import RustyRuntime.Server.Dedupe

/-!
# The outbox relay

A producer stores an outbox row, and the relay turns the row into a task: it enqueues the
task, then it marks the row as published. The two writes are separate, so a crash between
them makes the next pass enqueue the task once more. The relay counts on the enqueue to
absorb a task that exists; the enqueue does so for a task whose idempotency key it finds, and
replaces any other one that has the id.

Main results:

* **Each row yields exactly one task**, and a pass of the relay changes no task that exists,
  in every history in which no record replaces another (`relays_of_entersFresh`). A pass with
  enough writes leaves no row pending.
* The task of a row without a key is taken back to the queue by the pass after a lost write
  (`relay_rewinds_keyless`).
-/

namespace RustyRuntime

open Library Library.Durable

/-! ## What the relay promises -/

def OutboxRecord.Yields (row : OutboxRecord) (t : TaskRecord) : Prop :=
  if row.task.idempotencyKey = none then row.task.SameTask t
  else t.tenant = row.task.tenant ∧ t.idempotencyKey = row.task.idempotencyKey

def JsonFileStore.pending (store : JsonFileStore) : List OutboxRecord :=
  store.outbox.values.filter (·.publishedAt.isNone)

structure Relays (event : QueueEvent) (store store' : JsonFileStore) : Prop where
  atMostOne : ∀ row ∈ store'.outbox.values, ∀ t ∈ store'.tasks.values, ∀ s ∈ store'.tasks.values,
    row.Yields t → row.Yields s → t = s
  published : ∀ row ∈ store'.outbox.values, row.publishedAt.isSome →
    ∃ t ∈ store'.tasks.values, row.Yields t
  stable : ∀ limit, event.op = .publish limit →
    ∀ t ∈ store.tasks.values, t ∈ store'.tasks.values
  drained : ∀ limit, event.op = .publish limit → store.pending.length ≤ limit →
    2 * store.pending.length ≤ event.writes → store'.pending = []

/-! ## One task for each key -/

/-- What every history keeps. -/
structure OutboxForm (store : JsonFileStore) : Prop where
  form : StoreForm store
  keys : store.UniqueKeys
  published : ∀ row ∈ store.outbox.values, row.publishedAt.isSome →
    ∃ t ∈ store.tasks.values, row.Yields t

variable {store : JsonFileStore} {row : OutboxRecord}

theorem OutboxForm.atMostOne (h : OutboxForm store) {t s : TaskRecord} (hT : t ∈ store.tasks.values)
    (hS : s ∈ store.tasks.values) (hYieldT : row.Yields t) (hYieldS : row.Yields s) : t = s := by
  unfold OutboxRecord.Yields at hYieldT hYieldS
  split at hYieldT
  · next hKey =>
    rw [if_pos hKey] at hYieldS
    rw [Index.mem_values_iff] at hT hS
    rw [hYieldT.taskId, ← hYieldS.taskId, hS] at hT
    exact (Option.some.inj hT).symm
  · next hKey =>
    rw [if_neg hKey] at hYieldS
    refine h.keys t hT s hS (hYieldT.1.trans hYieldS.1.symm) (hYieldT.2.trans hYieldS.2.symm) ?_
    rw [hYieldT.2]
    exact hKey

theorem OutboxRecord.Yields.same {t t' : TaskRecord} (h : row.Yields t) (hSame : t.SameTask t') :
    row.Yields t' := by
  unfold OutboxRecord.Yields at h ⊢
  split at h
  · next hKey =>
    rw [if_pos hKey]
    exact h.trans hSame
  · next hKey =>
    rw [if_neg hKey]
    exact ⟨hSame.tenant.trans h.1, hSame.idempotencyKey.trans h.2⟩

theorem yields_of_holdsTask (h : store.HoldsTask row.task) :
    ∃ t ∈ store.tasks.values, row.Yields t := by
  rcases h with hKnown | hOwn
  · obtain ⟨key, t, hKey, hIn, hTenant, hSame⟩ := deduplicated_isSome.mp hKnown
    refine ⟨t, Index.mem_values_iff.mpr hIn, ?_⟩
    rw [OutboxRecord.Yields, if_neg (by simp [hKey])]
    exact ⟨hTenant, hSame.trans hKey.symm⟩
  · refine ⟨row.task, Index.mem_values_iff.mpr hOwn, ?_⟩
    unfold OutboxRecord.Yields
    split
    · exact .refl row.task
    · exact ⟨rfl, rfl⟩

section Steps

variable {now : Instant} {op : QueueOp} {store store' : JsonFileStore}

theorem published_of_orderly (h : OutboxForm store) (hOrderly : Orderly op store store')
    {row : OutboxRecord} (hRow : row ∈ store.outbox.values) (hPublished : row.publishedAt.isSome) :
    ∃ t ∈ store'.tasks.values, row.Yields t := by
  obtain ⟨t, hT, hYield⟩ := h.published row hRow hPublished
  obtain ⟨t', hT', hProgress⟩ := hOrderly.progress t.taskId t (Index.mem_values_iff.mp hT)
  exact ⟨t', Index.mem_values_of_get? hT', hYield.same hProgress.same⟩

/-- **The step lemma.** -/
theorem StoreStep.outboxForm (hStep : StoreStep now op store store') (h : OutboxForm store)
    (hFresh : op.entersFresh now store) : OutboxForm store' := by
  have hOrderly := hStep.orderly h.form hFresh
  refine ⟨hStep.storeForm h.form, hStep.uniqueKeys h.form h.keys, ?_⟩
  · intro row hRow hPublished
    cases hStep with
    | rowAdded =>
      rcases Index.mem_values_insert.mp hRow with rfl | ⟨-, hOld⟩
      · cases hPublished
      · exact h.published row hOld hPublished
    | rowMarked hMarked hPending hHolds =>
      rcases Index.mem_values_insert.mp hRow with rfl | ⟨-, hOld⟩
      · exact yields_of_holdsTask hHolds
      · exact h.published row hOld hPublished
    | enqueued | relayed | changed | leaseChanged =>
      exact published_of_orderly h hOrderly hRow hPublished

theorem outboxForm_steps (hSteps : StoreSteps now op store store')
    (h : OutboxForm store) (hFresh : op.entersFresh now store) : OutboxForm store' := by
  induction hSteps with
  | refl => exact h
  | tail hSteps hStep ih => exact hStep.outboxForm ih (entersFresh_steps hSteps h.form hFresh)

/-! ## A pass of the relay -/

variable {limit : Nat} {t : TaskRecord}

theorem StoreStep.publish_keeps (hStep : StoreStep now (.publish limit) store store')
    (hFresh : (QueueOp.publish limit).entersFresh now store) (hIn : t ∈ store.tasks.values) :
    t ∈ store'.tasks.values := by
  cases hStep with
  | enqueued hOp => cases hOp
  | @relayed _ _ row hRow hPending hNone =>
    have hNew := new_of_relayed hRow hPending hNone hFresh
    refine Index.mem_values_insert.mpr ?_
    by_cases hId : t.taskId = row.task.taskId
    · exact .inl (hNew t (hId ▸ Index.mem_values_iff.mp hIn))
    · exact .inr ⟨Ne.symm hId, hIn⟩
  | changed _ hChange =>
    -- The relay makes no transition of a record.
    cases hChange with
    | finalized hFor | cancelled hFor => cases hFor
  | rowMarked | leaseChanged => exact hIn

theorem publish_keeps_steps
    (hSteps : StoreSteps now (.publish limit) store store')
    (hForm : StoreForm store) (hFresh : (QueueOp.publish limit).entersFresh now store)
    (hIn : t ∈ store.tasks.values) : t ∈ store'.tasks.values := by
  induction hSteps with
  | refl => exact hIn
  | tail hSteps hStep ih => exact hStep.publish_keeps (entersFresh_steps hSteps hForm hFresh) ih

end Steps

theorem publishRow_ok (now : Instant) (row : OutboxRecord) (store : JsonFileStore) (writes : Nat) :
    ∃ task writes' store', publishRow now row (writes + 2) store = (.ok task, writes', store') ∧
      writes ≤ writes' ∧ store'.outbox = store.outbox.insert { row with publishedAt := some now } := by
  rw [publishRow, bind_apply, enqueueLocked, get_bind]
  cases hKnown : store.deduplicated row.task with
  | none =>
    exact ⟨row.task, writes, (store.putTask row.task).putRow { row with publishedAt := some now },
      rfl, Nat.le_refl _, rfl⟩
  | some existing =>
    exact ⟨existing, writes + 1, store.putRow { row with publishedAt := some now }, rfl,
      Nat.le_succ _, rfl⟩

theorem collect_publishRow (now : Instant) (rows : List OutboxRecord) (store : JsonFileStore)
    (writes : Nat) (hWrites : 2 * rows.length ≤ writes) :
    ∃ tasks writes' store', collect (publishRow now) rows writes store = (.ok tasks, writes', store') ∧
      ∀ row, store'.outbox.get? row.outboxId = some row → row.publishedAt = none →
        store.outbox.get? row.outboxId = some row ∧ row.outboxId ∉ rows.map OutboxRecord.outboxId := by
  induction rows generalizing store writes with
  | nil => exact ⟨[], writes, store, rfl, fun row hRow _ => ⟨hRow, by simp⟩⟩
  | cons first rest ih =>
    rw [List.length_cons] at hWrites
    obtain ⟨left, rfl⟩ : ∃ left, writes = left + 2 := ⟨writes - 2, by omega⟩
    obtain ⟨task, writes', store', hFirst, hLeft, hOutbox⟩ := publishRow_ok now first store left
    obtain ⟨tasks, writes'', store'', hRest, hRows⟩ := ih store' writes' (by omega)
    refine ⟨task :: tasks, writes'', store'', ?_, fun row hRow hPending => ?_⟩
    · simp only [collect, bind_apply, hFirst, hRest, pure_apply]
    · obtain ⟨hMiddle, hNot⟩ := hRows row hRow hPending
      rw [hOutbox, Index.get?_insert] at hMiddle
      split at hMiddle
      · cases hMiddle
        cases hPending
      · next hNe =>
        refine ⟨hMiddle, ?_⟩
        rw [List.map_cons, List.mem_cons, not_or]
        exact ⟨fun hEq => hNe hEq.symm, hNot⟩

theorem pendingRows_of_length_le {limit : Nat} (h : store.pending.length ≤ limit) :
    row ∈ store.pendingRows limit ↔ row ∈ store.pending := by
  have hPerm := sortByKey_perm (fun row : OutboxRecord => toLex (row.createdAt, row.outboxId))
    store.pending
  have hAll : store.pendingRows limit =
      sortByKey (fun row => toLex (row.createdAt, row.outboxId)) store.pending :=
    List.take_of_length_le (hPerm.length_eq.trans_le h)
  rw [hAll]
  exact hPerm.mem_iff

theorem drained_publish {now : Instant} {limit writes : Nat} (hLimit : store.pending.length ≤ limit)
    (hWrites : 2 * store.pending.length ≤ writes) :
    (store.next ⟨now, .publish limit, writes⟩).pending = [] := by
  have hLength : (store.pendingRows limit).length ≤ store.pending.length := by
    refine le_trans (List.length_take_le' _ _) ?_
    exact le_of_eq (sortByKey_perm _ _).length_eq
  obtain ⟨tasks, writes', store', hRun, hRows⟩ :=
    collect_publishRow now (store.pendingRows limit) store writes (by omega)
  have hState : store.next ⟨now, .publish limit, writes⟩ = store' := by
    refine (state_bind_pure (outboxPublishPending limit now) _ writes store).trans ?_
    simp only [state, outboxPublishPending, get_bind, hRun]
  rw [hState, List.eq_nil_iff_forall_not_mem]
  intro row hRow
  obtain ⟨hIn, hPending⟩ := List.mem_filter.mp hRow
  obtain ⟨hBefore, hNot⟩ := hRows row (Index.mem_values_iff.mp hIn)
    (Option.isNone_iff_eq_none.mp hPending)
  apply hNot
  refine List.mem_map_of_mem ((pendingRows_of_length_le hLimit).mpr ?_)
  exact List.mem_filter.mpr ⟨Index.mem_values_iff.mpr hBefore, hPending⟩

/-! ## Whole histories -/

theorem outboxForm_empty : OutboxForm {} where
  form := storeForm_empty
  keys t hT := by cases hT
  published row hRow := by cases hRow

/-- **Each row yields exactly one task**, and a pass changes no task that exists. -/
theorem relays_of_entersFresh (history : List QueueEvent) (event : QueueEvent)
    (hHistory : Admissible JsonFileStore.next EntersFresh {} history)
    (hEvent : EntersFresh (run JsonFileStore.next {} history) event) :
    Relays event (run JsonFileStore.next {} history)
      ((run JsonFileStore.next {} history).next event) := by
  have hForm : OutboxForm (run JsonFileStore.next {} history) :=
    run_invariant (fun store event h hFresh => outboxForm_steps (store.steps_next event) h hFresh)
      outboxForm_empty hHistory
  have hSteps := JsonFileStore.steps_next (run JsonFileStore.next {} history) event
  have hAfter := outboxForm_steps hSteps hForm hEvent
  obtain ⟨now, op, writes⟩ := event
  refine ⟨?_, hAfter.published, ?_, ?_⟩
  · intro row hRow t hT s hS
    exact hAfter.atMostOne hT hS
  · rintro limit rfl t hT
    exact publish_keeps_steps hSteps hForm.form hEvent hT
  · rintro limit rfl hLimit hWrites
    exact drained_publish hLimit hWrites

/-- A row with a key, whose first pass loses the write that marks it; the task is completed
before the second pass. -/
def keyedRelay : List QueueEvent :=
  [⟨0, .outboxEnqueue { jobTask with idempotencyKey := some "job-key" }, 1⟩,
    ⟨0, .publish 10, 1⟩, jobClaim, jobCompletion]

theorem relays_keyed :
    (run JsonFileStore.next {} keyedRelay).statusOf "job" = some .completed ∧
      Relays ⟨3, .publish 10, 2⟩ (run JsonFileStore.next {} keyedRelay)
        ((run JsonFileStore.next {} keyedRelay).next ⟨3, .publish 10, 2⟩) :=
  ⟨by decide, relays_of_entersFresh keyedRelay _
    ⟨by decide, by decide, by decide, by decide, trivial⟩
    (by decide)⟩

/-- The same history without a key: the second pass puts the completed task back. -/
theorem relay_rewinds_keyless :
    relayedJob.statusOf "job" = some .completed ∧
      (relayedJob.next ⟨3, .publish 10, 2⟩).statusOf "job" = some .queued ∧
      ¬ Relays ⟨3, .publish 10, 2⟩ relayedJob (relayedJob.next ⟨3, .publish 10, 2⟩) := by
  have hBefore : relayedJob.statusOf "job" = some .completed := by decide
  have hAfter : (relayedJob.next ⟨3, .publish 10, 2⟩).statusOf "job" = some .queued := by
    decide
  refine ⟨hBefore, hAfter, fun h => ?_⟩
  obtain ⟨t, hIn, hStatus⟩ := Option.map_eq_some_iff.mp hBefore
  have hKept := h.stable 10 rfl t (Index.mem_values_of_get? hIn)
  rw [Index.mem_values_iff, Index.key_of_get? hIn] at hKept
  rw [JsonFileStore.statusOf, hKept, Option.map_some, hStatus] at hAfter
  cases hAfter

end RustyRuntime
