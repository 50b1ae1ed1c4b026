import RustyRuntime.Library.SortByKey

/-!
# The first elements by a key

`firstByKey k key xs` is what a stable sort by `key` puts in the first `k` places. Elements with
equal keys stand in the order of the list, so the choice can depend on that order. `Decided` says
when it does not: no group of equal keys lies across the `k`-th place, and the elements of a group
that is chosen carry the same note.

Main results:

* **The choice is the same for every order of the list exactly when it is decided**
  (`firstByKey_orderFree_iff`).
* `minByKey` is the first one (`minByKey_eq_head?`).
-/

namespace RustyRuntime.Library

variable {α κ γ : Type} [LinearOrder κ] {key : α → κ} {xs ys : List α} {k : Nat}

def firstByKey (k : Nat) (key : α → κ) (xs : List α) : List α := (sortByKey key xs).take k

variable {x : α} {rest : List α} {note : α → Option γ}

theorem mem_of_mem_firstByKey (h : x ∈ firstByKey k key xs) : x ∈ xs :=
  (mem_sortByKey key).mp (List.mem_of_mem_take h)

theorem length_firstByKey : (firstByKey k key xs).length = min k xs.length := by
  rw [firstByKey, List.length_take, (sortByKey_perm key xs).length_eq]

theorem nodup_firstByKey (h : xs.Nodup) : (firstByKey k key xs).Nodup :=
  ((sortByKey_perm key xs).nodup_iff.mpr h).sublist (List.take_sublist k _)

theorem firstByKey_pairwise (xs : List α) :
    (firstByKey k key xs).Pairwise (fun a b => key a ≤ key b) :=
  (sortByKey_pairwise key xs).sublist (List.take_sublist k _)

/-! ## Places in a sorted list -/

/-- The number of elements before `x` in every sorted order of the list. -/
def earlier (key : α → κ) (xs : List α) (x : α) : Nat := xs.countP (fun y => key y < key x)

/-- The number of elements that can stand at or before the place of `x`. -/
def notLater (key : α → κ) (xs : List α) (x : α) : Nat := xs.countP (fun y => key y ≤ key x)

theorem earlier_perm (h : xs.Perm ys) (x : α) : earlier key xs x = earlier key ys x :=
  h.countP_eq _

theorem notLater_perm (h : xs.Perm ys) (x : α) : notLater key xs x = notLater key ys x :=
  h.countP_eq _

section Sorted

variable {before after : List α} {x : α}

theorem countP_around (h : (before ++ x :: after).Pairwise (fun a b => key a ≤ key b)) :
    earlier key (before ++ x :: after) x ≤ before.length ∧
      before.length < notLater key (before ++ x :: after) x := by
  obtain ⟨-, hAfter, hBefore⟩ := List.pairwise_append.mp h
  have hNone : after.countP (fun y => key y < key x) = 0 := by
    rw [List.countP_eq_zero]
    intro y hY
    simpa using (List.pairwise_cons.mp hAfter).1 y hY
  have hAll : before.countP (fun y => key y ≤ key x) = before.length := by
    rw [List.countP_eq_length]
    intro y hY
    simpa using hBefore y hY x List.mem_cons_self
  constructor
  · have hLe := List.countP_le_length (p := fun y => decide (key y < key x)) (l := before)
    simp only [earlier, List.countP_append, List.countP_cons, hNone, lt_irrefl, decide_false]
    simpa using hLe
  · simp only [notLater, List.countP_append, List.countP_cons, hAll, le_refl, decide_true, if_true]
    omega

end Sorted

theorem earlier_lt_of_mem_firstByKey (h : x ∈ firstByKey k key xs) : earlier key xs x < k := by
  obtain ⟨before, after, hSplit⟩ := List.append_of_mem h
  have hSorted := sortByKey_pairwise key xs
  rw [← List.take_append_drop k (sortByKey key xs), ← firstByKey, hSplit, List.append_assoc,
    List.cons_append] at hSorted
  have hEarlier := (countP_around hSorted).1
  have hLength : before.length < k := by
    have hTake := List.length_take_le k (sortByKey key xs)
    rw [← firstByKey, hSplit, List.length_append, List.length_cons] at hTake
    omega
  have hAll : (before ++ x :: (after ++ (sortByKey key xs).drop k)).Perm xs := by
    rw [← List.cons_append, ← List.append_assoc, ← hSplit, firstByKey, List.take_append_drop]
    exact sortByKey_perm key xs
  rw [earlier_perm hAll] at hEarlier
  omega

theorem mem_firstByKey_of_split (hSplit : sortByKey key xs = before ++ x :: after)
    (hLength : before.length < k) : x ∈ firstByKey k key xs := by
  rw [firstByKey, hSplit, List.take_append]
  refine List.mem_append_right _ ?_
  obtain ⟨n, hN⟩ : ∃ n, k - before.length = n + 1 := ⟨k - before.length - 1, by omega⟩
  rw [hN, List.take_succ_cons]
  exact List.mem_cons_self

theorem mem_firstByKey_of_notLater (hX : x ∈ xs) (h : notLater key xs x ≤ k) :
    x ∈ firstByKey k key xs := by
  obtain ⟨before, after, hSplit⟩ := List.append_of_mem ((mem_sortByKey key).mpr hX)
  have hSorted := sortByKey_pairwise key xs
  rw [hSplit] at hSorted
  have hPlace := (countP_around hSorted).2
  rw [← hSplit, notLater_perm (sortByKey_perm key xs)] at hPlace
  exact mem_firstByKey_of_split hSplit (by omega)

variable (key) in
theorem sortByKey_cons_split (x : α) (rest : List α) :
    ∃ before after, sortByKey key (x :: rest) = before ++ x :: after ∧
      before.Perm (rest.filter (fun y => key y < key x)) := by
  refine ⟨_, _, List.insertionSort_cons_eq_take_drop _ x rest, ?_⟩
  have hSorted := sortByKey_pairwise key rest
  rw [sortByKey] at hSorted
  have hTake : (rest.insertionSort fun a b => key a ≤ key b).takeWhile
      (fun y => ¬ key x ≤ key y) =
      (rest.insertionSort fun a b => key a ≤ key b).filter (fun y => key y < key x) := by
    generalize rest.insertionSort (fun a b => key a ≤ key b) = sorted at hSorted
    induction sorted with
    | nil => rfl
    | cons y others ih =>
      obtain ⟨hHead, hOthers⟩ := List.pairwise_cons.mp hSorted
      by_cases hLe : key x ≤ key y
      · have hNone : others.filter (fun z => key z < key x) = [] := by
          rw [List.filter_eq_nil_iff]
          intro z hZ
          simpa using hLe.trans (hHead z hZ)
        rw [List.takeWhile_cons_of_neg (by simpa using hLe),
          List.filter_cons_of_neg (by simpa using hLe), hNone]
      · rw [List.takeWhile_cons_of_pos (by simpa using hLe),
          List.filter_cons_of_pos (by simpa using hLe), ih hOthers]
  rw [hTake]
  exact (List.perm_insertionSort _ rest).filter _

theorem mem_firstByKey_cons (h : earlier key (x :: rest) x < k) :
    x ∈ firstByKey k key (x :: rest) := by
  obtain ⟨before, after, hSplit, hBefore⟩ := sortByKey_cons_split key x rest
  refine mem_firstByKey_of_split hSplit ?_
  rw [hBefore.length_eq, ← List.countP_eq_length_filter]
  simpa [earlier] using h

theorem filterMap_firstByKey_cons {a : γ} (h : earlier key (x :: rest) x < k)
    (hNote : note x = some a) :
    ((firstByKey k key (x :: rest)).filterMap note)[(((x :: rest).filter
      (fun y => key y < key x)).filterMap note).length]? = some a := by
  obtain ⟨before, after, hSplit, hBefore⟩ := sortByKey_cons_split key x rest
  have hLength : before.length < k := by
    rw [hBefore.length_eq, ← List.countP_eq_length_filter]
    simpa [earlier] using h
  have hNotes : (((x :: rest).filter (fun y => key y < key x)).filterMap note).length =
      (before.filterMap note).length := by
    rw [List.filter_cons_of_neg (by simp)]
    exact ((hBefore.filterMap note).length_eq).symm
  obtain ⟨n, hN⟩ : ∃ n, k - before.length = n + 1 := ⟨k - before.length - 1, by omega⟩
  rw [hNotes, firstByKey, hSplit, List.take_append, List.take_of_length_le hLength.le, hN,
    List.take_succ_cons, List.filterMap_append, List.filterMap_cons_some hNote,
    List.getElem?_append_right (le_refl _), Nat.sub_self, List.getElem?_cons_zero]

/-! ## When the order of the list does not matter -/

/-- No group of equal keys lies across the `k`-th place, and the notes of a group that is chosen
agree. -/
structure Decided (k : Nat) (key : α → κ) (note : α → Option γ) (xs : List α) : Prop where
  fits : ∀ x ∈ xs, earlier key xs x < k → notLater key xs x ≤ k
  notes : ∀ x ∈ xs, ∀ y ∈ xs, earlier key xs x < k → key x = key y →
    ∀ a b, note x = some a → note y = some b → a = b

section

variable (h : Decided k key note xs)
include h

theorem mem_firstByKey_iff : x ∈ firstByKey k key xs ↔ x ∈ xs ∧ earlier key xs x < k :=
  ⟨fun hX => ⟨mem_of_mem_firstByKey hX, earlier_lt_of_mem_firstByKey hX⟩,
    fun hX => mem_firstByKey_of_notLater hX.1 (h.fits x hX.1 hX.2)⟩

theorem Decided.perm (hPerm : ys.Perm xs) : Decided k key note ys where
  fits x hX hLt := by
    rw [earlier_perm hPerm] at hLt
    rw [notLater_perm hPerm]
    exact h.fits x (hPerm.mem_iff.mp hX) hLt
  notes x hX y hY hLt := by
    rw [earlier_perm hPerm] at hLt
    exact h.notes x (hPerm.mem_iff.mp hX) y (hPerm.mem_iff.mp hY) hLt

theorem firstByKey_perm (hNodup : xs.Nodup) (hPerm : ys.Perm xs) :
    (firstByKey k key ys).Perm (firstByKey k key xs) := by
  refine (List.perm_ext_iff_of_nodup (nodup_firstByKey (hPerm.nodup_iff.mpr hNodup))
    (nodup_firstByKey hNodup)).mpr fun x => ?_
  rw [mem_firstByKey_iff h, mem_firstByKey_iff (h.perm hPerm), hPerm.mem_iff, earlier_perm hPerm]

/-- The notes of the chosen elements, with their keys, stand in the order of the keys. -/
theorem filterMap_firstByKey_eq (hNodup : xs.Nodup) (hPerm : ys.Perm xs) :
    (firstByKey k key ys).filterMap note = (firstByKey k key xs).filterMap note := by
  have hSplit : ∀ zs : List α, zs.filterMap note =
      (zs.filterMap fun x => (note x).map (Prod.mk (key x))).map Prod.snd := by
    intro zs
    rw [List.map_filterMap]
    refine congrArg (List.filterMap · zs) (funext fun x => ?_)
    cases note x <;> rfl
  have hSorted : ∀ zs : List α, ((firstByKey k key zs).filterMap fun x =>
      (note x).map (Prod.mk (key x))).Pairwise (fun p q => p.1 ≤ q.1) := by
    intro zs
    refine List.Pairwise.filterMap _ ?_ (firstByKey_pairwise zs)
    intro x y hLe p hP q hQ
    simp only [Option.map_eq_some_iff] at hP hQ
    obtain ⟨-, -, rfl⟩ := hP
    obtain ⟨-, -, rfl⟩ := hQ
    exact hLe
  rw [hSplit, hSplit (firstByKey k key xs)]
  refine congrArg _ (List.Perm.eq_of_pairwise ?_ (hSorted ys) (hSorted xs)
    ((firstByKey_perm h hNodup hPerm).filterMap _))
  intro p q hP hQ hPQ hQP
  obtain ⟨x, hX, hNoteX⟩ := List.mem_filterMap.mp hP
  obtain ⟨y, hY, hNoteY⟩ := List.mem_filterMap.mp hQ
  obtain ⟨a, hA, rfl⟩ := Option.map_eq_some_iff.mp hNoteX
  obtain ⟨b, hB, rfl⟩ := Option.map_eq_some_iff.mp hNoteY
  have hKey : key x = key y := le_antisymm hPQ hQP
  have hX' := hPerm.mem_iff.mp (mem_of_mem_firstByKey hX)
  have hLt := earlier_lt_of_mem_firstByKey hX
  rw [earlier_perm hPerm] at hLt
  rw [hKey, h.notes x hX' y (mem_of_mem_firstByKey hY) hLt hKey a b hA hB]

end

/-- **The choice is the same for every order of the list exactly when it is decided.** -/
theorem firstByKey_orderFree_iff (hNodup : xs.Nodup) :
    (∀ ys, ys.Perm xs → (∀ x, x ∈ firstByKey k key ys ↔ x ∈ firstByKey k key xs) ∧
      (firstByKey k key ys).filterMap note = (firstByKey k key xs).filterMap note) ↔
      Decided k key note xs := by
  classical
  constructor
  · intro hFree
    -- an element that can stand before the `k`-th place does so when it is the head of the list
    have hChosen : ∀ x ∈ xs, earlier key xs x < k → x ∈ firstByKey k key xs := by
      intro x hX hLt
      have hPerm : (x :: xs.erase x).Perm xs := (List.perm_cons_erase hX).symm
      refine ((hFree _ hPerm).1 x).mp (mem_firstByKey_cons ?_)
      rw [earlier_perm hPerm]
      exact hLt
    constructor
    · intro x hX hLt
      have hSub : xs.filter (fun y => key y ≤ key x) ⊆ firstByKey k key xs := by
        intro y hY
        obtain ⟨hIn, hLe⟩ := List.mem_filter.mp hY
        refine hChosen y hIn (lt_of_le_of_lt ?_ hLt)
        refine List.countP_mono_left fun z _ hZ => ?_
        simp only [decide_eq_true_eq] at hZ hLe ⊢
        exact lt_of_lt_of_le hZ hLe
      have hLength := ((hNodup.filter _).subperm hSub).length_le
      rw [length_firstByKey, ← List.countP_eq_length_filter] at hLength
      exact hLength.trans (min_le_left _ _)
    · intro x hX y hY hLt hKey a b hA hB
      have hPermX : (x :: xs.erase x).Perm xs := (List.perm_cons_erase hX).symm
      have hPermY : (y :: xs.erase y).Perm xs := (List.perm_cons_erase hY).symm
      have hLtX : earlier key (x :: xs.erase x) x < k := by
        rw [earlier_perm hPermX]
        exact hLt
      have hLtY : earlier key (y :: xs.erase y) y < k := by
        rw [earlier_perm hPermY, earlier, ← hKey]
        exact hLt
      have hAtX := filterMap_firstByKey_cons hLtX hA
      have hAtY := filterMap_firstByKey_cons hLtY hB
      rw [(hFree _ hPermX).2, ((hPermX.filter _).filterMap _).length_eq] at hAtX
      rw [(hFree _ hPermY).2, ((hPermY.filter _).filterMap _).length_eq, ← hKey, hAtX] at hAtY
      exact Option.some.inj hAtY
  · intro hDecided ys hPerm
    exact ⟨fun x => (firstByKey_perm hDecided hNodup hPerm).mem_iff,
      filterMap_firstByKey_eq hDecided hNodup hPerm⟩

/-! ## The least element -/

theorem minByKey_eq_head? (xs : List α) : minByKey key xs = (sortByKey key xs).head? := by
  induction xs with
  | nil => rfl
  | cons x rest ih =>
    rw [minByKey, List.argmin_cons, ← minByKey, ih]
    rw [show sortByKey key (x :: rest) =
      (sortByKey key rest).orderedInsert (fun a b => key a ≤ key b) x from rfl]
    cases sortByKey key rest with
    | nil => rfl
    | cons least others =>
      by_cases hLt : key least < key x
      · simp [hLt, not_le.mpr hLt]
      · simp [hLt, not_lt.mp hLt]

end RustyRuntime.Library
