import RustyRuntime.Library.Saturation
import RustyRuntime.Memory.Query

/-!
# Planning a forgetting

`plan_forget` of `memory.rs`: which records go when some are erased. A summary that names an
erased record among its sources goes with it, and so does a summary of that summary, so the
walk sweeps the namespace until a sweep removes nothing more. Summaries may name each other in
a cycle.

**The removal set** (`planForget_isLeast`): the walk ends after one sweep more than the
namespace has records at the latest, and the plan is the least removal set. What is left names
nothing that was removed.
-/

namespace RustyRuntime

open Library

structure ForgetPlan where
  forgotten : List String
  invalidated : List String
  deriving DecidableEq, Repr

def MemoryRecord.namesRemoved (record : MemoryRecord) (removed : List String) : Bool :=
  record.kind = .summary && record.provenance.evidence.sourceMemoryIds.any removed.contains

def existingTargets (records : List MemoryRecord) (targets : List String) : List String :=
  ((records.filter fun record => targets.contains record.memoryId).map (·.memoryId)).dedup

/-- `plan_forget`, with the number of sweeps it may take. -/
def planForget (sweeps : Nat) (records : List MemoryRecord) (targets : List String) :
    Option ForgetPlan := do
  let removed ← saturate MemoryRecord.memoryId MemoryRecord.namesRemoved records sweeps
    (existingTargets records targets)
  let forgotten := (removed.filter targets.contains).mergeSort (· ≤ ·)
  return {
    forgotten
    invalidated := (removed.filter fun id => !forgotten.contains id).mergeSort (· ≤ ·) }

/-! ## The least removal set -/

/-- The sets that hold the existing targets and every summary naming a member. -/
def RemovalSets (records : List MemoryRecord) (targets : List String) : Set (Set String) :=
  {removed | (∀ record ∈ records, record.memoryId ∈ targets → record.memoryId ∈ removed) ∧
    ∀ record ∈ records, record.kind = .summary →
      ∀ source ∈ record.provenance.evidence.sourceMemoryIds, source ∈ removed →
        record.memoryId ∈ removed}

def ForgetPlan.removed (plan : ForgetPlan) : Set String :=
  {id | id ∈ plan.forgotten ∨ id ∈ plan.invalidated}

variable {removed targets : List String} {records : List MemoryRecord}

theorem namesRemoved_iff {record : MemoryRecord} :
    record.namesRemoved removed = true ↔ record.kind = .summary ∧
      ∃ source ∈ record.provenance.evidence.sourceMemoryIds, source ∈ removed := by
  simp [MemoryRecord.namesRemoved]

theorem namesRemoved_monotone : MonotoneRule MemoryRecord.namesRemoved := by
  intro record removed removed' hSub h
  rw [namesRemoved_iff] at h ⊢
  obtain ⟨hKind, source, hSource, hIn⟩ := h
  exact ⟨hKind, source, hSource, hSub hIn⟩

theorem mem_existingTargets {id : String} :
    id ∈ existingTargets records targets ↔
      ∃ record ∈ records, record.memoryId ∈ targets ∧ record.memoryId = id := by
  simp only [existingTargets, List.mem_dedup, List.mem_map, List.mem_filter,
    List.contains_iff_mem, and_assoc]

theorem closed_eq_removalSets (records : List MemoryRecord) (targets : List String) :
    Closed MemoryRecord.memoryId MemoryRecord.namesRemoved records
      (existingTargets records targets) = RemovalSets records targets := by
  ext S
  refine and_congr ?_ (forall₂_congr fun record _ => ?_)
  · constructor
    · intro h record hIn hTarget
      exact h _ (mem_existingTargets.mpr ⟨record, hIn, hTarget, rfl⟩)
    · intro h id hIn
      obtain ⟨record, hRecord, hTarget, rfl⟩ := mem_existingTargets.mp hIn
      exact h record hRecord hTarget
  · constructor
    · intro h hKind source hSource hIn
      refine h [source] (fun i hi => ?_) (namesRemoved_iff.mpr ⟨hKind, source, hSource, ?_⟩)
      · rw [List.mem_singleton.mp hi]
        exact hIn
      · exact List.mem_singleton_self source
    · intro h seen hSeen hNames
      obtain ⟨hKind, source, hSource, hIn⟩ := namesRemoved_iff.mp hNames
      exact h hKind source hSource (hSeen source hIn)

theorem mem_planForget {sweeps : Nat}
    (hRemoved : saturate MemoryRecord.memoryId MemoryRecord.namesRemoved records sweeps
      (existingTargets records targets) = some removed) :
    ∃ plan, planForget sweeps records targets = some plan ∧
      (∀ id, id ∈ plan.forgotten ↔ id ∈ removed ∧ id ∈ targets) ∧
      ∀ id, id ∈ plan.invalidated ↔ id ∈ removed ∧ id ∉ targets := by
  have hPlan : planForget sweeps records targets = some
      { forgotten := (removed.filter targets.contains).mergeSort (· ≤ ·)
        invalidated := (removed.filter fun id =>
          !((removed.filter targets.contains).mergeSort (· ≤ ·)).contains id).mergeSort
            (· ≤ ·) } := by
    simp only [planForget, hRemoved]
    rfl
  refine ⟨_, hPlan, fun id => ?_, fun id => ?_⟩
  · simp only [List.mem_mergeSort, List.mem_filter, List.contains_iff_mem]
  · simp only [List.mem_mergeSort, List.mem_filter, Bool.not_eq_true', ← Bool.not_eq_true,
      List.contains_iff_mem, not_and]
    exact and_congr_right fun hIn => ⟨fun h => h hIn, fun h _ => h⟩

/-- **The removal set.** For every namespace and every list of targets the walk ends, the same
plan comes out for every greater number of sweeps, its ids are the least removal set, no summary
that is left names one of them, and no id is both forgotten and invalidated. -/
theorem planForget_isLeast (records : List MemoryRecord) (targets : List String) :
    ∃ plan : ForgetPlan,
      (∀ sweeps, records.length < sweeps → planForget sweeps records targets = some plan) ∧
      IsLeast (RemovalSets records targets) plan.removed ∧
      (∀ record ∈ records.filter (fun record =>
          !(plan.forgotten ++ plan.invalidated).contains record.memoryId),
        record.kind = .summary →
          ∀ id ∈ plan.forgotten ++ plan.invalidated,
            id ∉ record.provenance.evidence.sourceMemoryIds) ∧
      plan.forgotten.Disjoint plan.invalidated := by
  obtain ⟨removed, hRemoved⟩ := exists_saturate records (records.length + 1)
    (existingTargets records targets) (Nat.lt_succ_of_le (unmarked_le _ _))
  obtain ⟨plan, hPlan, hForgotten, hInvalidated⟩ := mem_planForget hRemoved
  have hIds : ∀ id, id ∈ plan.forgotten ++ plan.invalidated ↔ id ∈ removed := by
    intro id
    rw [List.mem_append, hForgotten, hInvalidated, ← and_or_left]
    exact and_iff_left (Classical.em _)
  have hSet : plan.removed = {id | id ∈ removed} := by
    ext id
    exact Iff.trans List.mem_append.symm (hIds id)
  have hLeast : IsLeast (RemovalSets records targets) plan.removed := by
    rw [hSet, ← closed_eq_removalSets]
    exact saturate_isLeast namesRemoved_monotone hRemoved
  refine ⟨plan, fun sweeps hSweeps => ?_, hLeast, ?_, ?_⟩
  · rw [← hPlan, planForget, planForget, saturate_of_le hSweeps hRemoved, hRemoved]
  · intro record hLeft hKind id hId hSource
    rw [List.mem_filter, Bool.not_eq_true', ← Bool.not_eq_true, List.contains_iff_mem] at hLeft
    have hMember : id ∈ plan.removed := List.mem_append.mp hId
    exact hLeft.2 (List.mem_append.mpr (hLeast.1.2 record hLeft.1 hKind id hSource hMember))
  · intro id hIn hOther
    exact ((hInvalidated id).mp hOther).2 ((hForgotten id).mp hIn).2

end RustyRuntime
