import Mathlib

/-!
# Stable sorting by a key

`sortByKey` sorts a list by a key in a linear order and keeps the order of elements with
equal keys, as a stable `sort_by` does. Where the key separates the elements of the list,
the result depends on the elements alone (`sortByKey_eq_of_perm`) and its last element is
the one with the greatest key (`getLast?_sortByKey_eq_iff`). In general it depends on the order of
the elements with equal keys and on nothing else (`sortByKey_eq_of_filter`).

`minByKey` is the first element with the least key, as `min_by_key` takes it.
-/

namespace RustyRuntime.Library

variable {α κ : Type} [LinearOrder κ]

def sortByKey (key : α → κ) (xs : List α) : List α :=
  xs.insertionSort (fun a b => key a ≤ key b)

variable (key : α → κ)

theorem sortByKey_perm (xs : List α) : (sortByKey key xs).Perm xs :=
  List.perm_insertionSort _ xs

variable {xs first second : List α} {x last c least : α}

theorem mem_sortByKey : x ∈ sortByKey key xs ↔ x ∈ xs :=
  (sortByKey_perm key xs).mem_iff

theorem sortByKey_pairwise (xs : List α) :
    (sortByKey key xs).Pairwise (fun a b => key a ≤ key b) := by
  exact List.pairwise_insertionSort _ xs

variable {key}

theorem sortByKey_pairwise_lt (hKeys : (xs.map key).Nodup) :
    (sortByKey key xs).Pairwise (fun a b => key a < key b) := by
  have hNodup := List.pairwise_map.mp (((sortByKey_perm key xs).map key).nodup_iff.mpr hKeys)
  exact ((sortByKey_pairwise key xs).and hNodup).imp fun h => lt_of_le_of_ne h.1 h.2

theorem sortByKey_eq_of_perm (hKey : Set.InjOn key {x | x ∈ first}) (hPerm : first.Perm second) :
    sortByKey key first = sortByKey key second := by
  have hSame : (sortByKey key first).Perm (sortByKey key second) :=
    (sortByKey_perm key first).trans (hPerm.trans (sortByKey_perm key second).symm)
  refine List.Perm.eq_of_pairwise ?_ (sortByKey_pairwise key first)
    (sortByKey_pairwise key second) hSame
  intro a b hA hB hAB hBA
  have hA' : a ∈ first := (mem_sortByKey key).mp hA
  have hB' : b ∈ first := hPerm.mem_iff.mpr ((mem_sortByKey key).mp hB)
  exact hKey hA' hB' (le_antisymm hAB hBA)

theorem filter_sortByKey (k : κ) (xs : List α) :
    (sortByKey key xs).filter (key · = k) = xs.filter (key · = k) := by
  induction xs with
  | nil => rfl
  | cons x rest ih =>
    rw [sortByKey, ← List.takeWhile_append_dropWhile (p := fun y => ¬ key x ≤ key y)
      (l := rest.insertionSort _), List.filter_append] at ih
    rw [sortByKey, List.insertionSort_cons_eq_take_drop, List.filter_append]
    by_cases hKey : key x = k
    · -- `x` goes behind smaller keys only
      have hNone : ((rest.insertionSort fun a b => key a ≤ key b).takeWhile
          (fun y => ¬ key x ≤ key y)).filter (key · = k) = [] := by
        refine List.filter_eq_nil_iff.mpr fun y hY hSame => ?_
        have hLess := List.mem_takeWhile_imp hY
        simp only [decide_eq_true_eq] at hLess hSame
        exact hLess (hKey.trans hSame.symm).le
      rw [hNone, List.nil_append] at ih ⊢
      rw [List.filter_cons_of_pos (by simpa using hKey), List.filter_cons_of_pos (by simpa using hKey),
        ih]
    · rw [List.filter_cons_of_neg (by simpa using hKey), List.filter_cons_of_neg (by simpa using hKey),
        ih]

/-- A sorted list is determined by what it holds under each key. -/
theorem eq_of_pairwise_of_filter (hFirst : first.Pairwise (fun a b => key a ≤ key b))
    (hSecond : second.Pairwise (fun a b => key a ≤ key b))
    (h : ∀ k, first.filter (key · = k) = second.filter (key · = k)) : first = second := by
  induction first generalizing second with
  | nil =>
    refine (List.eq_nil_iff_forall_not_mem.mpr fun x hX => ?_).symm
    exact List.filter_eq_nil_iff.mp (h (key x)).symm x hX (by simp)
  | cons a rest ih =>
    have hMem : ∀ {x : α}, x ∈ a :: rest ↔ x ∈ second := fun {x} => by
      simpa using congrArg (x ∈ ·) (h (key x))
    cases second with
    | nil => simpa using hMem.mp List.mem_cons_self
    | cons b others =>
      rw [List.pairwise_cons] at hFirst hSecond
      have hLe : key b ≤ key a := by
        rcases List.mem_cons.mp (hMem.mp List.mem_cons_self) with rfl | hIn
        · exact le_rfl
        · exact hSecond.1 a hIn
      have hGe : key a ≤ key b := by
        rcases List.mem_cons.mp (hMem.mpr List.mem_cons_self) with rfl | hIn
        · exact le_rfl
        · exact hFirst.1 b hIn
      have hKey : key b = key a := le_antisymm hLe hGe
      obtain ⟨rfl, -⟩ : a = b ∧ _ := by simpa [hKey] using h (key a)
      refine congrArg (a :: ·) (ih hFirst.2 hSecond.2 fun k => ?_)
      by_cases hSame : key a = k
      · simpa [hSame] using h k
      · simpa [hSame] using h k

/-- **The sort is stable**: lists that hold the same under each key are sorted alike. -/
theorem sortByKey_eq_of_filter (h : ∀ k, first.filter (key · = k) = second.filter (key · = k)) :
    sortByKey key first = sortByKey key second := by
  refine eq_of_pairwise_of_filter (sortByKey_pairwise key first) (sortByKey_pairwise key second) ?_
  intro k
  rw [filter_sortByKey, filter_sortByKey, h]

theorem mem_and_le_of_getLast?_sortByKey (hLast : (sortByKey key xs).getLast? = some last) :
    last ∈ xs ∧ ∀ other ∈ xs, key other ≤ key last := by
  obtain ⟨front, hSplit⟩ := List.getLast?_eq_some_iff.mp hLast
  have hSorted := sortByKey_pairwise key xs
  rw [hSplit, List.pairwise_append] at hSorted
  refine ⟨(mem_sortByKey key).mp (by simp [hSplit]), fun other hOther => ?_⟩
  have hIn : other ∈ front ++ [last] := hSplit ▸ (mem_sortByKey key).mpr hOther
  rcases List.mem_append.mp hIn with hFront | hEnd
  · exact hSorted.2.2 other hFront last (by simp)
  · rw [List.mem_singleton.mp hEnd]

theorem getLast?_sortByKey_eq_iff (hKey : Set.InjOn key {x | x ∈ xs}) :
    (sortByKey key xs).getLast? = some c ↔ c ∈ xs ∧ ∀ other ∈ xs, key other ≤ key c := by
  constructor
  · exact mem_and_le_of_getLast?_sortByKey
  · rintro ⟨hC, hMax⟩
    have hNe : sortByKey key xs ≠ [] := List.ne_nil_of_mem ((mem_sortByKey key).mpr hC)
    obtain ⟨last, hLast⟩ := Option.isSome_iff_exists.mp (List.getLast?_isSome.mpr hNe)
    obtain ⟨hIn, hTop⟩ := mem_and_le_of_getLast?_sortByKey hLast
    rw [hLast, hKey hIn hC (le_antisymm (hMax last hIn) (hTop c hC))]

/-! ## The least element -/

theorem head?_eq_of_least (hOrder : xs.Pairwise (fun a b => key a < key b)) (hIn : least ∈ xs)
    (hLeast : ∀ other ∈ xs, key least ≤ key other) : xs.head? = some least := by
  cases xs with
  | nil => cases hIn
  | cons x rest =>
    rcases List.mem_cons.mp hIn with rfl | hRest
    · rfl
    · have hLt := (List.pairwise_cons.mp hOrder).1 least hRest
      exact absurd hLt (not_lt.mpr (hLeast x List.mem_cons_self))

def minByKey (key : α → κ) (xs : List α) : Option α := xs.argmin key

theorem mem_of_minByKey (hLeast : minByKey key xs = some least) : least ∈ xs :=
  List.argmin_mem hLeast

theorem minByKey_eq_none : minByKey key xs = none ↔ xs = [] :=
  List.argmin_eq_none

theorem minByKey_eq_iff (hKey : Set.InjOn key {x | x ∈ xs}) :
    minByKey key xs = some c ↔ c ∈ xs ∧ ∀ other ∈ xs, key c ≤ key other := by
  constructor
  · intro hLeast
    exact ⟨mem_of_minByKey hLeast, fun other hOther => List.le_of_mem_argmin hOther hLeast⟩
  · rintro ⟨hC, hMin⟩
    cases hLeast : minByKey key xs with
    | none => simp [minByKey_eq_none.mp hLeast] at hC
    | some least =>
      have hIn := mem_of_minByKey hLeast
      have hLe : key least ≤ key c := List.le_of_mem_argmin hC hLeast
      rw [hKey hIn hC (le_antisymm hLe (hMin least hIn))]

theorem minByKey_eq_of_perm (hKey : Set.InjOn key {x | x ∈ first}) (hPerm : first.Perm second) :
    minByKey key first = minByKey key second := by
  have hKey' : Set.InjOn key {x | x ∈ second} := by
    simpa only [hPerm.mem_iff] using hKey
  refine Option.ext fun c => ?_
  rw [minByKey_eq_iff hKey, minByKey_eq_iff hKey']
  simp only [hPerm.mem_iff]

end RustyRuntime.Library
