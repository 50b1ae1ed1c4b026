import Mathlib

/-!
# Groups of a list

Two ways to sort the items of a list into groups: by a key (`keyed`), and greedily around the
first item that is left (`clusters`). Each item lands in at most one group of either kind
(`nodup_flatten_keyed`, `nodup_flatten_clusters`), and clusters leave alone what was taken
before (`mem_clusters`). The pairs within a list (`pairsOf`) are, in a list sorted by a key, those
whose keys ascend (`mem_pairsOf_iff`).
-/

namespace RustyRuntime.Library

variable {α κ : Type}

/-! ## By a key -/

section Keyed

variable [DecidableEq κ]

def keyed (key : α → Option κ) (keys : List κ) (items : List α) : List (κ × List α) :=
  keys.map fun k => (k, items.filter fun x => key x = some k)

variable {key : α → Option κ} {keys : List κ} {items : List α}

theorem mem_keyed {group : κ × List α} (h : group ∈ keyed key keys items) {x : α} (hX : x ∈ group.2) :
    x ∈ items ∧ key x = some group.1 := by
  obtain ⟨k, -, rfl⟩ := List.mem_map.mp h
  obtain ⟨hIn, hKey⟩ := List.mem_filter.mp hX
  exact ⟨hIn, of_decide_eq_true hKey⟩

theorem nodup_flatten_keyed (hKeys : keys.Nodup) (hItems : items.Nodup) :
    ((keyed key keys items).map Prod.snd).flatten.Nodup := by
  rw [List.nodup_flatten]
  constructor
  · intro group hIn
    obtain ⟨pair, hPair, rfl⟩ := List.mem_map.mp hIn
    obtain ⟨k, -, rfl⟩ := List.mem_map.mp hPair
    exact hItems.filter _
  · rw [keyed, List.map_map, List.pairwise_map]
    refine hKeys.imp fun hNe x hX hX' => ?_
    have hFirst := of_decide_eq_true (List.mem_filter.mp hX).2
    have hSecond := of_decide_eq_true (List.mem_filter.mp hX').2
    exact hNe (Option.some.inj (hFirst.symm.trans hSecond))

end Keyed

/-! ## Around an item -/

section Clusters

variable [DecidableEq α]

/-- The first item that is not taken, with all later ones near it, as a group of two or more;
then the rest. -/
def clusters (near : α → α → Bool) : List α → List α → List (List α)
  | _, [] => []
  | taken, x :: rest =>
    if taken.contains x then clusters near taken rest
    else
      let members := x :: rest.filter fun y => !taken.contains y && near x y
      if 2 ≤ members.length then members :: clusters near (taken ++ members) rest
      else clusters near taken rest

variable {near : α → α → Bool} {taken items : List α}

theorem mem_clusters {group : List α} (h : group ∈ clusters near taken items) {x : α}
    (hX : x ∈ group) : x ∈ items ∧ x ∉ taken := by
  induction items generalizing taken with
  | nil => cases h
  | cons first rest ih =>
    rw [clusters] at h
    split at h
    · obtain ⟨hIn, hFree⟩ := ih h
      exact ⟨List.mem_cons_of_mem _ hIn, hFree⟩
    · rename_i hFirst
      simp only at h
      split at h
      · rcases List.mem_cons.mp h with rfl | h
        · rcases List.mem_cons.mp hX with rfl | hX
          · exact ⟨List.mem_cons_self, by simpa using hFirst⟩
          · obtain ⟨hIn, hBoth⟩ := List.mem_filter.mp hX
            rw [Bool.and_eq_true] at hBoth
            exact ⟨List.mem_cons_of_mem _ hIn, by simpa using hBoth.1⟩
        · obtain ⟨hIn, hFree⟩ := ih h
          exact ⟨List.mem_cons_of_mem _ hIn, fun hTaken => hFree (List.mem_append_left _ hTaken)⟩
      · obtain ⟨hIn, hFree⟩ := ih h
        exact ⟨List.mem_cons_of_mem _ hIn, hFree⟩

theorem nodup_flatten_clusters (hItems : items.Nodup) :
    (clusters near taken items).flatten.Nodup := by
  induction items generalizing taken with
  | nil => exact List.nodup_nil
  | cons first rest ih =>
    obtain ⟨hFirst, hRest⟩ := List.nodup_cons.mp hItems
    rw [clusters]
    split
    · exact ih hRest
    · simp only
      split
      · rw [List.flatten_cons]
        refine List.nodup_append.mpr ⟨?_, ih hRest, ?_⟩
        · exact List.nodup_cons.mpr ⟨fun hIn => hFirst (List.mem_filter.mp hIn).1, hRest.filter _⟩
        · intro x hX y hY hEq
          obtain ⟨group, hGroup, hIn⟩ := List.mem_flatten.mp hY
          exact (mem_clusters hGroup hIn).2 (List.mem_append_right _ (hEq ▸ hX))
      · exact ih hRest

end Clusters

/-! ## Pairs -/

/-- The pairs of a list, the earlier item first. -/
def pairsOf : List α → List (α × α)
  | [] => []
  | x :: rest => rest.map (x, ·) ++ pairsOf rest

variable {items : List α}

theorem mem_of_mem_pairsOf {pair : α × α} (h : pair ∈ pairsOf items) :
    pair.1 ∈ items ∧ pair.2 ∈ items := by
  induction items with
  | nil => cases h
  | cons x rest ih =>
    rcases List.mem_append.mp h with h | h
    · obtain ⟨y, hY, rfl⟩ := List.mem_map.mp h
      exact ⟨List.mem_cons_self, List.mem_cons_of_mem _ hY⟩
    · exact ⟨List.mem_cons_of_mem _ (ih h).1, List.mem_cons_of_mem _ (ih h).2⟩

theorem nodup_pairsOf (h : items.Nodup) : (pairsOf items).Nodup := by
  induction items with
  | nil => exact List.nodup_nil
  | cons x rest ih =>
    obtain ⟨hX, hRest⟩ := List.nodup_cons.mp h
    refine List.nodup_append.mpr ⟨hRest.map fun _ _ hEq => (Prod.mk.inj hEq).2, ih hRest, ?_⟩
    intro pair hPair other hOther hEq
    obtain ⟨y, -, rfl⟩ := List.mem_map.mp hPair
    subst hEq
    exact hX (mem_of_mem_pairsOf hOther).1

theorem mem_pairsOf_iff [LinearOrder κ] {key : α → κ}
    (h : items.Pairwise (fun x y => key x < key y)) {x y : α} :
    (x, y) ∈ pairsOf items ↔ x ∈ items ∧ y ∈ items ∧ key x < key y := by
  induction items with
  | nil => simp [pairsOf]
  | cons first rest ih =>
    obtain ⟨hFirst, hRest⟩ := List.pairwise_cons.mp h
    rw [pairsOf, List.mem_append, ih hRest, List.mem_map]
    constructor
    · rintro (⟨z, hZ, hEq⟩ | ⟨hX, hY, hLt⟩)
      · obtain ⟨rfl, rfl⟩ := Prod.mk.inj hEq
        exact ⟨List.mem_cons_self, List.mem_cons_of_mem _ hZ, hFirst _ hZ⟩
      · exact ⟨List.mem_cons_of_mem _ hX, List.mem_cons_of_mem _ hY, hLt⟩
    · rintro ⟨hX, hY, hLt⟩
      rcases List.mem_cons.mp hX with rfl | hLeft <;> rcases List.mem_cons.mp hY with rfl | hRight
      · exact absurd hLt (lt_irrefl _)
      · exact .inl ⟨y, hRight, rfl⟩
      · exact absurd hLt (lt_asymm (hFirst _ hLeft))
      · exact .inr ⟨hLeft, hRight, hLt⟩

end RustyRuntime.Library
