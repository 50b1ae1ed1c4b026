import Mathlib

/-!
# Overlaying a finite map with its changes

`insertAll entries base` inserts a list of entries into a map, `overlay base delta`
writes every entry of the map `delta` over `base`, and `changedSince new base` keeps the
entries of `new` that `base` does not hold with the same value. A delta records
additions and replacements and no removals, so overlaying the changes on the base gives
back the new map exactly when the base has no key that the new map lacks
(`overlay_changedSince_eq_iff`).
-/

namespace RustyRuntime.Library

open Std

variable {α β : Type} {cmp : α → α → Ordering} [TransCmp cmp] [LawfulEqCmp cmp]

/-- `base` with every entry of the list inserted, first to last. -/
def insertAll (entries : List (α × β)) (base : ExtTreeMap α β cmp) : ExtTreeMap α β cmp :=
  entries.foldl (fun acc entry => acc.insert entry.1 entry.2) base

/-- `base` with every entry of `delta` inserted. -/
def overlay (base delta : ExtTreeMap α β cmp) : ExtTreeMap α β cmp :=
  insertAll delta.toList base

variable (new base : ExtTreeMap α β cmp)

/-- The entries of `new` that are absent from `base` or differ there. -/
def changedSince [DecidableEq β] : List (α × β) :=
  new.toList.filter fun entry =>
    match base[entry.1]? with
    | some baseValue => decide (entry.2 ≠ baseValue)
    | none => true

/-! ## Inserting a list of entries -/

variable {entries : List (α × β)} {key : α} {value : β}

theorem getElem?_insertAll_of_not_mem (hAbsent : ∀ value, (key, value) ∉ entries)
    (base : ExtTreeMap α β cmp) : (insertAll entries base)[key]? = base[key]? := by
  induction entries generalizing base with
  | nil => rfl
  | cons entry rest ih =>
    have hHead : entry.1 ≠ key := by
      rintro rfl
      exact hAbsent entry.2 List.mem_cons_self
    have hRest : ∀ value, (key, value) ∉ rest := fun value h =>
      hAbsent value (List.mem_cons_of_mem _ h)
    calc (insertAll (entry :: rest) base)[key]?
        = (base.insert entry.1 entry.2)[key]? := ih hRest _
      _ = base[key]? := by
        rw [ExtTreeMap.getElem?_insert, if_neg]
        exact fun h => hHead (LawfulEqCmp.eq_of_compare h)

theorem getElem?_insertAll_of_mem (hKeys : (entries.map Prod.fst).Nodup)
    (hMem : (key, value) ∈ entries) (base : ExtTreeMap α β cmp) :
    (insertAll entries base)[key]? = some value := by
  induction entries generalizing base with
  | nil => cases hMem
  | cons entry rest ih =>
    obtain ⟨hFresh, hRest⟩ := List.nodup_cons.mp hKeys
    rcases List.mem_cons.mp hMem with rfl | hTail
    · -- no later entry has this key, so the inserted value stays
      have hAbsent : ∀ other, (key, other) ∉ rest := fun other h =>
        hFresh (List.mem_map.mpr ⟨(key, other), h, rfl⟩)
      exact (getElem?_insertAll_of_not_mem hAbsent _).trans ExtTreeMap.getElem?_insert_self
    · exact ih hRest hTail _

omit [LawfulEqCmp cmp] in
theorem nodup_keys_toList (map : ExtTreeMap α β cmp) : (map.toList.map Prod.fst).Nodup := by
  rw [ExtTreeMap.map_fst_toList_eq_keys]
  exact ExtTreeMap.nodup_keys

theorem toList_insertAll_empty_perm (hKeys : (entries.map Prod.fst).Nodup) :
    (insertAll entries (∅ : ExtTreeMap α β cmp)).toList.Perm entries := by
  have hMap : (insertAll entries (∅ : ExtTreeMap α β cmp)).toList.Nodup :=
    List.Nodup.of_map _ (nodup_keys_toList _)
  refine (List.perm_ext_iff_of_nodup hMap (List.Nodup.of_map _ hKeys)).mpr ?_
  rintro ⟨key, value⟩
  rw [ExtTreeMap.mem_toList_iff_getElem?_eq_some]
  constructor
  · intro hGet
    by_cases hKey : ∃ other, (key, other) ∈ entries
    · obtain ⟨other, hOther⟩ := hKey
      rw [getElem?_insertAll_of_mem hKeys hOther] at hGet
      cases hGet
      exact hOther
    · rw [getElem?_insertAll_of_not_mem (fun other h => hKey ⟨other, h⟩)] at hGet
      simp at hGet
  · exact fun hMem => getElem?_insertAll_of_mem hKeys hMem _

theorem insertAll_empty_eq_of_perm {map : ExtTreeMap α β cmp} (hPerm : entries.Perm map.toList) :
    insertAll entries (∅ : ExtTreeMap α β cmp) = map := by
  have hKeys : (entries.map Prod.fst).Nodup :=
    (hPerm.map Prod.fst).nodup_iff.mpr (nodup_keys_toList map)
  refine ExtTreeMap.ext_getElem? fun key => ?_
  cases hGet : map[key]? with
  | none =>
    rw [getElem?_insertAll_of_not_mem _ ∅]
    · exact ExtTreeMap.getElem?_empty
    · intro value hMem
      rw [hPerm.mem_iff, ExtTreeMap.mem_toList_iff_getElem?_eq_some, hGet] at hMem
      cases hMem
  | some value =>
    refine getElem?_insertAll_of_mem hKeys ?_ ∅
    exact hPerm.mem_iff.mpr (ExtTreeMap.mem_toList_iff_getElem?_eq_some.mpr hGet)

/-! ## Overlaying -/

theorem getElem?_overlay (base delta : ExtTreeMap α β cmp) (key : α) :
    (overlay base delta)[key]? = delta[key]?.or base[key]? := by
  cases hDelta : delta[key]? with
  | none =>
    have hAbsent : ∀ value, (key, value) ∉ delta.toList := by
      intro value hMem
      rw [ExtTreeMap.mem_toList_iff_getElem?_eq_some, hDelta] at hMem
      cases hMem
    exact getElem?_insertAll_of_not_mem hAbsent base
  | some value =>
    have hMem : (key, value) ∈ delta.toList :=
      ExtTreeMap.mem_toList_iff_getElem?_eq_some.mpr hDelta
    exact getElem?_insertAll_of_mem (nodup_keys_toList delta) hMem base

/-! ## The changes of a map -/

variable [DecidableEq β]

theorem mem_changedSince {new base : ExtTreeMap α β cmp} :
    (key, value) ∈ changedSince new base ↔
      new[key]? = some value ∧ base[key]? ≠ some value := by
  simp only [changedSince, List.mem_filter, ExtTreeMap.mem_toList_iff_getElem?_eq_some]
  cases base[key]? with
  | none => simp
  | some baseValue => simp [ne_comm]

omit [LawfulEqCmp cmp] in
theorem nodup_keys_changedSince : ((changedSince new base).map Prod.fst).Nodup :=
  (nodup_keys_toList new).sublist (List.filter_sublist.map _)

theorem getElem?_insertAll_changedSince (key : α) :
    (insertAll (changedSince new base) (∅ : ExtTreeMap α β cmp))[key]? =
      if new[key]? = base[key]? then none else new[key]? := by
  by_cases hSame : new[key]? = base[key]?
  · rw [if_pos hSame, getElem?_insertAll_of_not_mem _ ∅]
    · exact ExtTreeMap.getElem?_empty
    · intro value hMem
      obtain ⟨hNew, hBase⟩ := mem_changedSince.mp hMem
      exact hBase (hSame ▸ hNew)
  · rw [if_neg hSame]
    cases hNew : new[key]? with
    | none =>
      rw [getElem?_insertAll_of_not_mem _ ∅]
      · exact ExtTreeMap.getElem?_empty
      · intro value hMem
        rw [(mem_changedSince.mp hMem).1] at hNew
        cases hNew
    | some value =>
      refine getElem?_insertAll_of_mem (nodup_keys_changedSince new base) ?_ ∅
      exact mem_changedSince.mpr ⟨hNew, fun hBase => hSame (hNew.trans hBase.symm)⟩

theorem getElem?_overlay_changedSince (key : α) :
    (overlay base (insertAll (changedSince new base) ∅))[key]? = new[key]?.or base[key]? := by
  rw [getElem?_overlay, getElem?_insertAll_changedSince]
  by_cases hSame : new[key]? = base[key]?
  · rw [if_pos hSame, hSame]
    cases base[key]? <;> rfl
  · rw [if_neg hSame]

/-- **Exactness of a delta.** Overlaying the changes gives back the new map exactly when
no key of the base is missing from it. -/
theorem overlay_changedSince_eq_iff :
    overlay base (insertAll (changedSince new base) ∅) = new ↔ ∀ key, key ∈ base → key ∈ new := by
  constructor
  · intro hEq key hBase
    rw [← hEq, ExtTreeMap.mem_iff_isSome_getElem?, getElem?_overlay_changedSince]
    cases new[key]? with
    | none => simpa using hBase
    | some _ => rfl
  · intro hKeys
    refine ExtTreeMap.ext_getElem? fun key => ?_
    rw [getElem?_overlay_changedSince]
    cases hNew : new[key]? with
    | some value => rfl
    | none =>
      have hNotBase : key ∉ base := fun hBase => by
        have hMem := hKeys key hBase
        rw [ExtTreeMap.mem_iff_isSome_getElem?, hNew] at hMem
        cases hMem
      simpa using hNotBase

end RustyRuntime.Library
