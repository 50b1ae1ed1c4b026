import Mathlib.Data.List.Basic
import Mathlib.Order.Bounds.Defs

/-!
# Saturation of a finite universe

A loop that sweeps a list of items over and over: an item whose rule fires on what was seen so
far is marked as seen, and the loop ends with the first sweep that marks nothing.

The rule has to be monotone: once it fires it goes on firing. Then the loop ends within one
sweep more than there are items, and what it has marked is the least set that holds the start
and is closed under the rule (`saturate_isLeast`), however the items pull each other in.
-/

namespace RustyRuntime.Library

section Saturation

variable {α ι : Type} [DecidableEq ι] (key : α → ι) (fires : α → List ι → Bool)

section

variable (items : List α) (acc : List ι × Bool)

def mark (item : α) : List ι × Bool :=
  if !acc.1.contains (key item) && fires item acc.1 then (acc.1.insert (key item), true) else acc

def sweep (seen : List ι) : List ι × Bool :=
  items.foldl (mark key fires) (seen, false)

/-- The loop, `none` when the fuel runs out before a sweep that marks nothing. -/
def saturate (items : List α) : Nat → List ι → Option (List ι)
  | 0, _ => none
  | fuel + 1, seen =>
    match sweep key fires items seen with
    | (seen, true) => saturate items fuel seen
    | (seen, false) => some seen

/-- Adding to what was seen takes no firing away. -/
def MonotoneRule : Prop :=
  ∀ item seen seen', seen ⊆ seen' → fires item seen = true → fires item seen' = true

def Closed (start : List ι) : Set (Set ι) :=
  {S | (∀ i ∈ start, i ∈ S) ∧
    ∀ item ∈ items, ∀ seen : List ι, (∀ i ∈ seen, i ∈ S) → fires item seen = true → key item ∈ S}

/-! ## One sweep -/

theorem subset_foldl_mark : acc.1 ⊆ (items.foldl (mark key fires) acc).1 := by
  induction items generalizing acc with
  | nil => exact List.Subset.refl _
  | cons item rest ih =>
    refine List.Subset.trans ?_ (ih _)
    unfold mark
    split
    · exact fun i hIn => List.mem_insert_of_mem hIn
    · exact List.Subset.refl _

theorem foldl_mark_flag (seen : List ι) : (items.foldl (mark key fires) (seen, true)).2 := by
  induction items generalizing seen with
  | nil => rfl
  | cons item rest ih =>
    rw [List.foldl_cons]
    unfold mark
    split
    · exact ih _
    · exact ih _

end

variable {key fires}

variable {items : List α} {start seen seen' closure : List ι}

theorem foldl_mark_mem {rest : List α} {S : Set ι} (hClosed : S ∈ Closed key fires items start)
    (hRest : rest ⊆ items) {acc : List ι × Bool} (hSeen : ∀ i ∈ acc.1, i ∈ S) :
    ∀ i ∈ (rest.foldl (mark key fires) acc).1, i ∈ S := by
  induction rest generalizing acc with
  | nil => exact hSeen
  | cons item rest ih =>
    refine ih (fun x hx => hRest (List.mem_cons_of_mem _ hx)) ?_
    unfold mark
    split
    · rename_i hFires
      rw [Bool.and_eq_true] at hFires
      intro i hIn
      rcases List.mem_insert_iff.mp hIn with rfl | hOld
      · exact hClosed.2 item (hRest List.mem_cons_self) acc.1 hSeen hFires.2
      · exact hSeen i hOld
    · exact hSeen

theorem sweep_quiet (h : sweep key fires items seen = (seen', false)) :
    seen' = seen ∧ ∀ item ∈ items, fires item seen → key item ∈ seen := by
  unfold sweep at h
  induction items with
  | nil =>
    cases h
    exact ⟨rfl, fun item hIn => absurd hIn List.not_mem_nil⟩
  | cons item rest ih =>
    rw [List.foldl_cons, mark] at h
    split at h
    · -- the flag would be up at the end
      have hFlag := foldl_mark_flag key fires rest (seen.insert (key item))
      rw [h] at hFlag
      cases hFlag
    · rename_i hQuiet
      obtain ⟨hSame, hRest⟩ := ih h
      refine ⟨hSame, fun other hIn hFires => ?_⟩
      rcases List.mem_cons.mp hIn with rfl | hIn
      · rw [hFires, Bool.and_true, Bool.not_eq_true', Bool.not_eq_false, List.contains_iff_mem]
          at hQuiet
        exact hQuiet
      · exact hRest other hIn hFires

/-! ## How many sweeps there are -/

variable (key)

/-- The items that are not marked yet. -/
def unmarked (items : List α) (seen : List ι) : Nat :=
  items.countP fun item => !seen.contains (key item)

theorem unmarked_mono (items : List α) (hSub : seen ⊆ seen') :
    unmarked key items seen' ≤ unmarked key items seen := by
  refine List.countP_mono_left fun item _ hUnseen => ?_
  rw [Bool.not_eq_true', ← Bool.not_eq_true, List.contains_iff_mem] at hUnseen ⊢
  exact fun hOld => hUnseen (hSub hOld)

variable {key}

theorem unmarked_lt (hSub : seen ⊆ seen') {item : α} (hIn : item ∈ items)
    (hUnseen : key item ∉ seen) (hSeen : key item ∈ seen') :
    unmarked key items seen' < unmarked key items seen := by
  obtain ⟨before, after, rfl⟩ := List.append_of_mem hIn
  have hBefore := unmarked_mono key before hSub
  have hAfter := unmarked_mono key after hSub
  have hOld : (!seen.contains (key item)) := by simpa using hUnseen
  have hNew : (!seen'.contains (key item)) = false := by simpa using hSeen
  simp only [unmarked, List.countP_append, List.countP_cons, hOld, hNew] at hBefore hAfter ⊢
  simp only [if_true, Bool.false_eq_true, if_false]
  omega

theorem sweep_grew (h : sweep key fires items seen = (seen', true)) :
    unmarked key items seen' < unmarked key items seen := by
  have hMarked : ∃ item ∈ items, key item ∉ seen ∧ key item ∈ seen' := by
    unfold sweep at h
    induction items with
    | nil => cases h
    | cons item rest ih =>
      rw [List.foldl_cons, mark] at h
      split at h
      · rename_i hFires
        refine ⟨item, List.mem_cons_self, ?_, ?_⟩
        · rw [Bool.and_eq_true, Bool.not_eq_true'] at hFires
          simpa using hFires.1
        · have hSub := subset_foldl_mark key fires rest
            (seen.insert (key item), true)
          rw [h] at hSub
          exact hSub List.mem_insert_self
      · obtain ⟨other, hIn, hOther⟩ := ih h
        exact ⟨other, List.mem_cons_of_mem _ hIn, hOther⟩
  obtain ⟨item, hIn, hUnseen, hSeen⟩ := hMarked
  refine unmarked_lt ?_ hIn hUnseen hSeen
  have hSub := subset_foldl_mark key fires items (seen, false)
  rw [← sweep, h] at hSub
  exact hSub

theorem exists_saturate (items : List α) (fuel : Nat) (seen : List ι)
    (hFuel : unmarked key items seen < fuel) :
    ∃ closure, saturate key fires items fuel seen = some closure := by
  induction fuel generalizing seen with
  | zero => omega
  | succ fuel ih =>
    unfold saturate
    split
    · rename_i hGrew
      exact ih _ (by have := sweep_grew hGrew; omega)
    · exact ⟨_, rfl⟩

theorem saturate_of_le {fuel fuel' : Nat} (hLe : fuel ≤ fuel')
    (h : saturate key fires items fuel seen = some closure) :
    saturate key fires items fuel' seen = some closure := by
  induction fuel generalizing fuel' seen with
  | zero => cases h
  | succ fuel ih =>
    obtain ⟨more, rfl⟩ : ∃ more, fuel' = more + 1 := ⟨fuel' - 1, by omega⟩
    unfold saturate at h ⊢
    split at h
    · exact ih (by omega) h
    · exact h

theorem unmarked_le (items : List α) (seen : List ι) :
    unmarked key items seen ≤ items.length :=
  List.countP_le_length

/-! ## What the loop has marked -/

theorem saturate_isLeast (hMono : MonotoneRule fires) {fuel : Nat}
    (h : saturate key fires items fuel start = some closure) :
    IsLeast (Closed key fires items start) {i | i ∈ closure} := by
  induction fuel generalizing start with
  | zero => cases h
  | succ fuel ih =>
    unfold saturate at h
    split at h
    · rename_i seen hGrew
      have hSub : start ⊆ seen := by
        have := subset_foldl_mark key fires items (start, false)
        rwa [← sweep, hGrew] at this
      obtain ⟨hClosed, hLeast⟩ := ih h
      refine ⟨⟨fun i hIn => hClosed.1 i (hSub hIn), hClosed.2⟩, fun S hS => hLeast ⟨?_, hS.2⟩⟩
      have hMarked : ∀ i ∈ (sweep key fires items start).1, i ∈ S :=
        foldl_mark_mem hS (List.Subset.refl _) hS.1
      rw [hGrew] at hMarked
      exact hMarked
    · rename_i seen hQuiet
      cases h
      obtain ⟨rfl, hFired⟩ := sweep_quiet hQuiet
      refine ⟨⟨fun i hIn => hIn, fun item hIn seen hSeen hFires => ?_⟩, fun S hS i hIn => hS.1 i hIn⟩
      exact hFired item hIn (hMono item seen _ hSeen hFires)

end Saturation

end RustyRuntime.Library
