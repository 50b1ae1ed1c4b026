import Mathlib

/-!
# Indexes

An index is a map from ids to values in which every value is stored under its own id. The id
of a value is given by `key`, so a value is inserted without naming where.
-/

namespace RustyRuntime.Library

structure Index {α : Type} (key : α → String) where
  inner : Std.ExtTreeMap String α
  keyed : ∀ id a, inner[id]? = some a → key a = id

namespace Index

variable {α : Type} {key : α → String}

def empty : Index key := ⟨∅, by simp⟩

def get? (index : Index key) (id : String) : Option α := index.inner[id]?

def insert (index : Index key) (a : α) : Index key where
  inner := index.inner.insert (key a) a
  keyed := by
    intro id b h
    rw [Std.ExtTreeMap.getElem?_insert] at h
    split at h
    · next hId =>
      cases h
      exact Std.LawfulEqCmp.eq_of_compare hId
    · exact index.keyed id b h

def erase (index : Index key) (id : String) : Index key where
  inner := index.inner.erase id
  keyed := by
    intro other b h
    rw [Std.ExtTreeMap.getElem?_erase] at h
    split at h
    · cases h
    · exact index.keyed other b h

def values (index : Index key) : List α := index.inner.toList.map Prod.snd

@[simp] theorem get?_empty (id : String) : (empty : Index key).get? id = none := by
  simp [empty, get?]

variable {index : Index key} {id : String} {a : α}

theorem key_of_get? (h : index.get? id = some a) : key a = id :=
  index.keyed id a h

theorem get?_insert (index : Index key) (a : α) (id : String) :
    (index.insert a).get? id = if key a = id then some a else index.get? id := by
  simp only [get?, insert, Std.ExtTreeMap.getElem?_insert, Std.compare_eq_iff_eq]

theorem get?_insert_self (index : Index key) (a : α) : (index.insert a).get? (key a) = some a := by
  rw [get?_insert, if_pos rfl]

theorem get?_insert_of_ne (index : Index key) (h : key a ≠ id) :
    (index.insert a).get? id = index.get? id := by
  rw [get?_insert, if_neg h]

theorem get?_erase (index : Index key) (id other : String) :
    (index.erase id).get? other = if id = other then none else index.get? other := by
  simp only [get?, erase, Std.ExtTreeMap.getElem?_erase, Std.compare_eq_iff_eq]

theorem mem_values_iff : a ∈ index.values ↔ index.get? (key a) = some a := by
  simp only [values, List.mem_map, Prod.exists, exists_eq_right,
    Std.ExtTreeMap.mem_toList_iff_getElem?_eq_some]
  constructor
  · rintro ⟨id, h⟩
    rw [get?, index.keyed id a h]
    exact h
  · intro h
    exact ⟨key a, h⟩

theorem mem_values_of_get? (h : index.get? id = some a) : a ∈ index.values := by
  rw [mem_values_iff, key_of_get? h]
  exact h

theorem nodup_keys_values (index : Index key) : (index.values.map key).Nodup := by
  rw [values, List.map_map, List.Nodup, List.pairwise_map]
  have hDistinct := Std.ExtTreeMap.distinct_keys_toList (t := index.inner)
  refine hDistinct.imp_of_mem ?_
  rintro ⟨first, a⟩ ⟨second, b⟩ hFirst hSecond hNe hEq
  rw [Std.ExtTreeMap.mem_toList_iff_getElem?_eq_some] at hFirst hSecond
  apply hNe
  rw [Std.compare_eq_iff_eq, ← index.keyed first a hFirst, ← index.keyed second b hSecond]
  exact hEq

theorem values_pairwise (index : Index key) : index.values.Pairwise (fun a b => key a < key b) := by
  rw [values, List.pairwise_map]
  refine (Std.ExtTreeMap.ordered_keys_toList (t := index.inner)).imp_of_mem ?_
  rintro ⟨first, a⟩ ⟨second, b⟩ hFirst hSecond hLt
  rw [Std.ExtTreeMap.mem_toList_iff_getElem?_eq_some] at hFirst hSecond
  rw [index.keyed first a hFirst, index.keyed second b hSecond]
  exact compare_lt_iff_lt.mp hLt

theorem mem_values_insert {b : α} :
    b ∈ (index.insert a).values ↔ b = a ∨ key a ≠ key b ∧ b ∈ index.values := by
  rw [mem_values_iff, mem_values_iff, get?_insert]
  split
  · next hSame =>
    constructor
    · intro h
      cases h
      exact .inl rfl
    · rintro (rfl | ⟨hNe, -⟩)
      · rfl
      · exact absurd hSame hNe
  · next hNe =>
    constructor
    · intro h
      exact .inr ⟨hNe, h⟩
    · rintro (rfl | ⟨-, h⟩)
      · exact absurd rfl hNe
      · exact h

theorem nodup_values (index : Index key) : index.values.Nodup :=
  (nodup_keys_values index).of_map

theorem values_insert_perm (index : Index key) (a : α) :
    (index.insert a).values.Perm (a :: index.values.filter fun b => key a ≠ key b) := by
  refine (List.perm_ext_iff_of_nodup (nodup_values _) ?_).mpr fun b => ?_
  · refine List.nodup_cons.mpr ⟨?_, (nodup_values index).filter _⟩
    simp
  · rw [mem_values_insert, List.mem_cons, List.mem_filter, decide_eq_true_eq, and_comm]

end Index

end RustyRuntime.Library
