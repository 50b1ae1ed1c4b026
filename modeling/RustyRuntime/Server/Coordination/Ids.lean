import Mathlib.Data.List.Basic
import RustyRuntime.Library.Separator

/-!
# Derived task ids and idempotency keys

The tasks of a coordination have names that are derived, not minted: a member's task id is
the tenant, the coordination and the member joined by two dashes, and its idempotency key is
the coordination and the member joined by a colon. The outcome message and the dead-letter
entry of a race put a fixed word in the member's place.

A label that `validateMemberLabel` accepts has no colon but may have dashes, so that the keys
can be read back and the ids cannot.

Main results:

* **When the names of two members are distinct** (`names_distinct_iff`), from each other and
  from those of the outcome and dead-letter tasks.
* Two members of one tenant with the same task id, and a member whose task id is the outcome
  id of another coordination (`dashed_labels_collide`).
-/

namespace RustyRuntime

open Library

def memberTaskId (tenant coordinationExternal member : String) : String :=
  s!"{tenant}--{coordinationExternal}--{member}"

def outcomeTaskId (tenant coordinationExternal : String) : String :=
  s!"{tenant}--{coordinationExternal}--outcome"

def raceDlqTaskId (tenant coordinationExternal : String) : String :=
  s!"{tenant}--{coordinationExternal}--race-dlq"

def memberIdempotencyKey (coordinationExternal member : String) : String :=
  s!"coordination:{coordinationExternal}:{member}"

/-- The key that `settle` gives the outcome message. -/
def outcomeIdempotencyKey (coordinationExternal : String) : String :=
  s!"coordination:{coordinationExternal}:outcome"

/-- The key that `settle` gives the dead-letter entry of a race. -/
def raceDlqIdempotencyKey (coordinationExternal : String) : String :=
  s!"coordination:{coordinationExternal}:race-dlq"

def validateMemberLabel (what value : String) : Except String Unit :=
  if !value.isEmpty && decide (value.utf8ByteSize ≤ 128) &&
      value.toList.all fun c => c.isAlphanum || c = '_' || c = '-' || c = '.' then .ok ()
  else .error s!"`{what}` must match [A-Za-z0-9._-] and be 1..=128 chars"

/-! ## Members -/

structure MemberRef where
  tenant : String
  coordination : String
  member : String
  deriving DecidableEq

namespace MemberRef

def taskId (p : MemberRef) : String := memberTaskId p.tenant p.coordination p.member

def idempotencyKey (p : MemberRef) : String := memberIdempotencyKey p.coordination p.member

/-- The labels pass `validateMemberLabel`; the tenant is any string. -/
def Accepted (p : MemberRef) : Prop :=
  validateMemberLabel "coordination_id" p.coordination = .ok () ∧
    validateMemberLabel "member" p.member = .ok ()

instance (p : MemberRef) : Decidable p.Accepted := inferInstanceAs (Decidable (_ ∧ _))

/-- The names of `p` are those of no other member, and of no outcome and no dead-letter task,
here compared with the member `q` and its coordination. -/
def Distinct (p q : MemberRef) : Prop :=
  (p ≠ q → p.taskId ≠ q.taskId ∧ p.idempotencyKey ≠ q.idempotencyKey) ∧
    p.taskId ≠ outcomeTaskId q.tenant q.coordination ∧
    p.taskId ≠ raceDlqTaskId q.tenant q.coordination ∧
    p.idempotencyKey ≠ outcomeIdempotencyKey q.coordination ∧
    p.idempotencyKey ≠ raceDlqIdempotencyKey q.coordination

/-- A part of one takes dashes, or a separator and more, from the part that follows it in the
other: the coordination from the member, or the tenant from both. -/
def Overlaps (p q : MemberRef) : Prop :=
  (p.tenant = q.tenant ∧
      (Encroaches '-' p.coordination.toList p.member.toList q.coordination.toList
          q.member.toList ∨
        Encroaches '-' q.coordination.toList q.member.toList p.coordination.toList
          p.member.toList)) ∨
    Slides '-' p.tenant.toList p.coordination.toList p.member.toList q.tenant.toList
      q.coordination.toList q.member.toList ∨
    Slides '-' q.tenant.toList q.coordination.toList q.member.toList p.tenant.toList
      p.coordination.toList p.member.toList

def Apart (p q : MemberRef) : Prop :=
  ¬ p.Overlaps q ∧ ¬ (p.coordination = q.coordination ∧ p.member = q.member)

end MemberRef

/-! ## Reading the names back -/

theorem not_mem_of_validateMemberLabel {what value : String}
    (h : validateMemberLabel what value = .ok ()) : ':' ∉ value.toList := by
  intro hMem
  have hOk : (value.toList.all fun c => c.isAlphanum || c = '_' || c = '-' || c = '.') = true := by
    unfold validateMemberLabel at h
    split at h
    · rename_i hOk
      exact (Bool.and_eq_true_iff.mp hOk).2
    · cases h
  exact absurd (List.all_eq_true.mp hOk ':' hMem) (by decide)

theorem memberIdempotencyKey_eq_iff {c m c' m' : String} (hC : ':' ∉ c.toList)
    (hM : ':' ∉ m.toList) :
    memberIdempotencyKey c m = memberIdempotencyKey c' m' ↔ c = c' ∧ m = m' := by
  have hList : ∀ c m : String, (memberIdempotencyKey c m).toList =
      "coordination:".toList ++ (c.toList ++ ':' :: m.toList) := by
    simp [memberIdempotencyKey, toString]
  rw [← String.toList_inj, hList, hList, List.append_cancel_left_eq]
  constructor
  · intro h
    obtain ⟨hLeft, -, hRight⟩ := (List.append_cons_inj_of_notMem hC hM).mp h
    exact ⟨String.toList_inj.mp hLeft, String.toList_inj.mp hRight⟩
  · rintro ⟨rfl, rfl⟩
    rfl

namespace MemberRef

variable {p q : MemberRef}

theorem toList_taskId (p : MemberRef) : p.taskId.toList =
    joined '-' p.tenant.toList (joined '-' p.coordination.toList p.member.toList) := by
  simp [taskId, memberTaskId, joined, toString]

theorem taskId_eq_iff : p.taskId = q.taskId ↔ p = q ∨ p.Overlaps q := by
  rw [← String.toList_inj, toList_taskId, toList_taskId, joined_joined_eq_iff]
  simp only [SameJoin, String.toList_inj, Overlaps]
  cases p
  cases q
  simp only [MemberRef.mk.injEq]
  tauto

/-- **When two members have different names.** -/
theorem names_ne_iff (hP : p.Accepted) (q : MemberRef) :
    p.taskId ≠ q.taskId ∧ p.idempotencyKey ≠ q.idempotencyKey ↔ p.Apart q := by
  rw [Ne, Ne, taskId_eq_iff, idempotencyKey, idempotencyKey, memberIdempotencyKey_eq_iff
    (not_mem_of_validateMemberLabel hP.1) (not_mem_of_validateMemberLabel hP.2)]
  constructor
  · rintro ⟨hId, hKey⟩
    exact ⟨fun hOverlap => hId (.inr hOverlap), hKey⟩
  · rintro ⟨hOverlap, hKey⟩
    refine ⟨?_, hKey⟩
    rintro (rfl | h)
    · exact hKey ⟨rfl, rfl⟩
    · exact hOverlap h

theorem names_outcome (q : MemberRef) :
    ({ q with member := "outcome" } : MemberRef).taskId =
        outcomeTaskId q.tenant q.coordination ∧
      ({ q with member := "outcome" } : MemberRef).idempotencyKey =
        outcomeIdempotencyKey q.coordination := by
  constructor <;> rw [← String.toList_inj] <;> simp [taskId, memberTaskId, outcomeTaskId,
    idempotencyKey, memberIdempotencyKey, outcomeIdempotencyKey, toString]

theorem names_raceDlq (q : MemberRef) :
    ({ q with member := "race-dlq" } : MemberRef).taskId =
        raceDlqTaskId q.tenant q.coordination ∧
      ({ q with member := "race-dlq" } : MemberRef).idempotencyKey =
        raceDlqIdempotencyKey q.coordination := by
  constructor <;> rw [← String.toList_inj] <;> simp [taskId, memberTaskId, raceDlqTaskId,
    idempotencyKey, memberIdempotencyKey, raceDlqIdempotencyKey, toString]

end MemberRef

/-- **When the names of a member are distinct.** -/
theorem names_distinct_iff (p q : MemberRef) (hP : p.Accepted) :
    p.Distinct q ↔ (p ≠ q → p.Apart q) ∧ p.Apart { q with member := "outcome" } ∧
      p.Apart { q with member := "race-dlq" } := by
  rw [← MemberRef.names_ne_iff hP q, ← MemberRef.names_ne_iff hP { q with member := "outcome" },
    ← MemberRef.names_ne_iff hP { q with member := "race-dlq" }, (MemberRef.names_outcome q).1,
    (MemberRef.names_outcome q).2, (MemberRef.names_raceDlq q).1, (MemberRef.names_raceDlq q).2]
  constructor
  · rintro ⟨hMember, hOutcomeId, hRaceId, hOutcomeKey, hRaceKey⟩
    exact ⟨hMember, ⟨hOutcomeId, hOutcomeKey⟩, hRaceId, hRaceKey⟩
  · rintro ⟨hMember, ⟨hOutcomeId, hOutcomeKey⟩, hRaceId, hRaceKey⟩
    exact ⟨hMember, hOutcomeId, hRaceId, hOutcomeKey, hRaceKey⟩

def planWriter : MemberRef := ⟨"acme", "plan-7", "writer"⟩

def planEditor : MemberRef := ⟨"acme", "plan-7", "editor"⟩

theorem names_distinct_plan : planWriter.Accepted ∧ planEditor.Accepted ∧
    planWriter ≠ planEditor ∧ planWriter.Distinct planEditor := by
  refine ⟨by decide, by decide, by decide, ?_⟩
  refine (names_distinct_iff planWriter planEditor (by decide)).mpr ⟨fun _ => ?_, ?_, ?_⟩
  all_goals
    refine ⟨?_, by decide⟩
    simp [MemberRef.Overlaps, planWriter, planEditor, Encroaches, Slides, joined]

/-- Member `c` of coordination `a--b` and member `b--c` of coordination `a` share a task id,
and member `b--outcome` of `a` has the id of the outcome of `a--b`. -/
theorem dashed_labels_collide :
    ∃ p q r : MemberRef, p.Accepted ∧ q.Accepted ∧ r.Accepted ∧ p ≠ q ∧ p.taskId = q.taskId ∧
      r.member ≠ "outcome" ∧ r.taskId = outcomeTaskId p.tenant p.coordination ∧
      ¬ p.Distinct q ∧ ¬ r.Distinct p := by
  refine ⟨⟨"acme", "a--b", "c"⟩, ⟨"acme", "a", "b--c"⟩, ⟨"acme", "a", "b--outcome"⟩, by decide,
    by decide, by decide, by decide, by decide, by decide, by decide, ?_, ?_⟩
  · rintro ⟨hMember, -⟩
    exact (hMember (by decide)).1 (by decide)
  · rintro ⟨-, hOutcome, -⟩
    exact hOutcome (by decide)

end RustyRuntime
