import Mathlib

/-!
# Entries of a tree map

A map with a new key lists its entries as before, with the new one somewhere among them.
-/

namespace RustyRuntime.Library

variable {κ α : Type} {cmp : κ → κ → Ordering} [Std.TransCmp cmp] [Std.LawfulEqCmp cmp]

theorem getElem?_insert_ite [DecidableEq κ] (m : Std.ExtTreeMap κ α cmp) (k : κ) (v : α) (key : κ) :
    (m.insert k v)[key]? = if key = k then some v else m[key]? := by
  rw [Std.ExtTreeMap.getElem?_insert]
  simp only [Std.LawfulEqCmp.compare_eq_iff_eq, @eq_comm _ k key]

theorem getElem?_erase_ite [DecidableEq κ] (m : Std.ExtTreeMap κ α cmp) (k key : κ) :
    (m.erase k)[key]? = if key = k then none else m[key]? := by
  rw [Std.ExtTreeMap.getElem?_erase]
  simp only [Std.LawfulEqCmp.compare_eq_iff_eq, @eq_comm _ k key]

theorem nodup_toList (m : Std.ExtTreeMap κ α cmp) : m.toList.Nodup := by
  refine (Std.ExtTreeMap.distinct_keys_toList (t := m)).imp ?_
  rintro a b hNe rfl
  exact hNe Std.ReflCmp.compare_self

variable {m : Std.ExtTreeMap κ α cmp}

theorem mem_toList_insert_iff {k : κ} (hNew : m[k]? = none) (v : α) (entry : κ × α) :
    entry ∈ (m.insert k v).toList ↔ entry = (k, v) ∨ entry ∈ m.toList := by
  obtain ⟨key, value⟩ := entry
  rw [Std.ExtTreeMap.mem_toList_iff_getElem?_eq_some,
    Std.ExtTreeMap.mem_toList_iff_getElem?_eq_some, Std.ExtTreeMap.getElem?_insert]
  split
  · rename_i hKey
    obtain rfl := Std.LawfulEqCmp.eq_of_compare hKey
    rw [hNew]
    simp only [Option.some.injEq, Prod.mk.injEq, true_and, reduceCtorEq, or_false]
    exact eq_comm
  · rename_i hKey
    constructor
    · exact .inr
    · rintro (hSame | hOld)
      · cases hSame
        exact absurd Std.ReflCmp.compare_self hKey
      · exact hOld

theorem exists_toList_insert {k : κ} (hNew : m[k]? = none) (v : α) :
    ∃ left right, m.toList = left ++ right ∧
      (m.insert k v).toList = left ++ (k, v) :: right := by
  have hIn : (k, v) ∈ (m.insert k v).toList := (mem_toList_insert_iff hNew v _).mpr (.inl rfl)
  obtain ⟨left, right, hSplit⟩ := List.append_of_mem hIn
  refine ⟨left, right, ?_, hSplit⟩
  have hNodup := nodup_toList (m.insert k v)
  have hOrdered := Std.ExtTreeMap.ordered_keys_toList (t := m.insert k v)
  have hMem := mem_toList_insert_iff hNew v
  rw [hSplit] at hNodup hOrdered hMem
  have hSub : (left ++ right).Sublist (left ++ (k, v) :: right) :=
    List.Sublist.append_left (List.sublist_cons_self _ _) left
  have hOut : (k, v) ∉ left ++ right := (List.nodup_middle.mp hNodup).notMem
  have hOld : (k, v) ∉ m.toList := by
    rw [Std.ExtTreeMap.mem_toList_iff_getElem?_eq_some, hNew]
    simp
  -- both lists are ordered and have the same entries
  refine List.Perm.eq_of_pairwise ?_ Std.ExtTreeMap.ordered_keys_toList
    (hOrdered.sublist hSub) ?_
  · intro a b _ _ hAb hBa
    have hSwap : cmp a.1 b.1 = (cmp b.1 a.1).swap := Std.OrientedCmp.eq_swap
    rw [hAb, hBa] at hSwap
    cases hSwap
  · rw [List.perm_ext_iff_of_nodup (nodup_toList m) (hNodup.sublist hSub)]
    intro entry
    have hEntry := hMem entry
    simp only [List.mem_append, List.mem_cons] at hEntry hOut ⊢
    constructor
    · intro h
      rcases hEntry.mpr (.inr h) with hLeft | rfl | hRight
      · exact .inl hLeft
      · exact absurd h hOld
      · exact .inr hRight
    · rintro (hLeft | hRight)
      · rcases hEntry.mp (.inl hLeft) with rfl | h
        · exact absurd (.inl hLeft) hOut
        · exact h
      · rcases hEntry.mp (.inr (.inr hRight)) with rfl | h
        · exact absurd (.inr hRight) hOut
        · exact h

end RustyRuntime.Library
