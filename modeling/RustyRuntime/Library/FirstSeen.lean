import Mathlib

/-!
# Lists without repeated keys

`firstSeen` drops the elements whose key has been seen before, as a loop does that pushes an
element only if inserting its key into a set succeeds. An element without a key always stays.

Such a loop over several lists depends on their order. Two lists are `Interchange`able when
it does not matter which of them comes first. Then it does not matter within a longer
sequence either, so pairwise interchangeable lists give the same result in every order
(`firstSeen_flatten_perm`). Conversely the two lists can be read off from the front of a
sequence that starts with them (`interchange_of_append`).
-/

namespace RustyRuntime.Library

variable {α κ : Type} [DecidableEq κ] (key : α → Option κ)

def firstSeen : List κ → List α → List α
  | _, [] => []
  | seen, x :: rest =>
    match key x with
    | none => x :: firstSeen seen rest
    | some k => if k ∈ seen then firstSeen seen rest else x :: firstSeen (seen ++ [k]) rest

variable {key}

/-! ## One list -/

theorem firstSeen_congr {seen seen' : List κ} (h : ∀ k, k ∈ seen ↔ k ∈ seen') (xs : List α) :
    firstSeen key seen xs = firstSeen key seen' xs := by
  induction xs generalizing seen seen' with
  | nil => rfl
  | cons x rest ih =>
    cases hKey : key x with
    | none => simp only [firstSeen, hKey, ih h]
    | some k =>
      have hNext : ∀ k', k' ∈ seen ++ [k] ↔ k' ∈ seen' ++ [k] := by simp [h]
      simp only [firstSeen, hKey, h k, ih h, ih hNext]

theorem firstSeen_of_mem {seen more : List κ} {k : κ} (h : k ∈ seen ++ more) (xs : List α) :
    firstSeen key (seen ++ k :: more) xs = firstSeen key (seen ++ more) xs := by
  apply firstSeen_congr
  intro k'
  rw [List.mem_append] at h ⊢
  rw [List.mem_append, List.mem_cons]
  constructor
  · rintro (hOld | rfl | hNew)
    · exact .inl hOld
    · exact h
    · exact .inr hNew
  · rintro (hOld | hNew)
    · exact .inl hOld
    · exact .inr (.inr hNew)

theorem firstSeen_append (seen : List κ) (xs ys : List α) :
    firstSeen key seen (xs ++ ys) =
      firstSeen key seen xs ++ firstSeen key (seen ++ xs.filterMap key) ys := by
  fun_induction firstSeen key seen xs with
  | case1 seen => simp
  | case2 seen x rest hKey ih => simp [firstSeen, hKey, ih]
  | case3 seen x rest k hKey hSeen ih =>
    simp [firstSeen, hKey, hSeen, ih, firstSeen_of_mem (List.mem_append_left _ hSeen)]
  | case4 seen x rest k hKey hSeen ih => simp [firstSeen, hKey, hSeen, ih]

theorem firstSeen_seen_append (seen more : List κ) (xs : List α) :
    firstSeen key (seen ++ more) xs =
      (firstSeen key seen xs).filter fun x => (key x).all fun k => k ∉ more := by
  fun_induction firstSeen key seen xs with
  | case1 seen => rfl
  | case2 seen x rest hKey ih => simp [firstSeen, hKey, ih]
  | case3 seen x rest k hKey hSeen ih => simp [firstSeen, hKey, hSeen, ih]
  | case4 seen x rest k hKey hSeen ih =>
    by_cases hMore : k ∈ more
    · rw [List.append_assoc, List.singleton_append,
        firstSeen_of_mem (List.mem_append_right seen hMore)] at ih
      simp only [firstSeen, hKey, List.mem_append, hMore, or_true, if_true]
      rw [ih, List.filter_cons_of_neg (by simp [hKey, hMore])]
    · have hSame : ∀ k', k' ∈ seen ++ more ++ [k] ↔ k' ∈ seen ++ [k] ++ more := by
        simp only [List.mem_append, List.mem_singleton]
        tauto
      simp only [firstSeen, hKey, List.mem_append, hSeen, hMore, or_self, if_false]
      rw [firstSeen_congr hSame, ih, List.filter_cons_of_pos (by simp [hKey, hMore])]

theorem length_firstSeen (seen : List κ) (xs : List α) :
    (firstSeen key seen xs).length = (xs.filter fun x => (key x).isNone).length +
      ((xs.filterMap key).toFinset \ seen.toFinset).card := by
  fun_induction firstSeen key seen xs with
  | case1 seen => simp
  | case2 seen x rest hKey ih =>
    simp [hKey, ih]
    omega
  | case3 seen x rest k hKey hSeen ih => simp [hKey, hSeen, ih, Finset.insert_sdiff_of_mem]
  | case4 seen x rest k hKey hSeen ih =>
    have hCard : ((insert k (rest.filterMap key).toFinset) \ seen.toFinset).card =
        ((rest.filterMap key).toFinset \ (seen ++ [k]).toFinset).card + 1 := by
      rw [← Finset.card_insert_of_notMem (a := k) (by simp)]
      congr 1
      ext k'
      by_cases h : k' = k
      · simp [h, hSeen]
      · simp [h]
    simp [hKey, ih, hCard]
    omega

/-! ## Two lists in either order -/

variable (key) in
def Interchange (xs ys : List α) : Prop :=
  firstSeen key [] (xs ++ ys) = firstSeen key [] (ys ++ xs)

variable {xs ys : List α} {β γ : Type}

theorem Interchange.symm (h : Interchange key xs ys) : Interchange key ys xs :=
  Eq.symm h

theorem Interchange.of_seen (h : Interchange key xs ys) (seen : List κ) :
    firstSeen key seen (xs ++ ys) = firstSeen key seen (ys ++ xs) := by
  have hFilter (zs : List α) : firstSeen key ([] ++ seen) zs = _ :=
    firstSeen_seen_append [] seen zs
  rw [← List.nil_append seen, hFilter, hFilter, h]

theorem length_firstSeen_append_comm (xs ys : List α) :
    (firstSeen key [] (xs ++ ys)).length = (firstSeen key [] (ys ++ xs)).length := by
  simp only [length_firstSeen, List.filter_append, List.length_append, List.filterMap_append,
    List.toFinset_append]
  rw [Finset.union_comm, Nat.add_comm (xs.filter _).length]

theorem interchange_of_append {rest : List α}
    (h : firstSeen key [] (xs ++ ys ++ rest) = firstSeen key [] (ys ++ xs ++ rest)) :
    Interchange key xs ys := by
  rw [firstSeen_append [] (xs ++ ys), firstSeen_append [] (ys ++ xs)] at h
  exact (List.append_inj h (length_firstSeen_append_comm xs ys)).1

/-! ## Many lists in any order -/

theorem firstSeen_flatten_perm {lists lists' : List (List α)} (hPerm : lists.Perm lists')
    (h : lists.Pairwise (Interchange key)) (seen : List κ) :
    firstSeen key seen lists.flatten = firstSeen key seen lists'.flatten := by
  induction hPerm generalizing seen with
  | nil => rfl
  | cons xs _ ih =>
    rw [List.flatten_cons, List.flatten_cons, firstSeen_append, firstSeen_append,
      ih (List.pairwise_cons.1 h).2]
  | swap xs ys rest =>
    have hTwo : Interchange key ys xs := (List.pairwise_cons.1 h).1 xs (by simp)
    simp only [List.flatten_cons, ← List.append_assoc]
    rw [firstSeen_append seen (ys ++ xs), firstSeen_append seen (xs ++ ys), hTwo.of_seen seen]
    congr 1
    apply firstSeen_congr
    simp only [List.filterMap_append, List.mem_append]
    tauto
  | trans hPerm _ ih ih' =>
    rw [ih h, ih' (h.perm hPerm fun h => h.symm)]

/-- **Order of the lists.** A loop over the lists gives one result in every order exactly if
each two of them may be interchanged. -/
theorem firstSeen_flatten_perm_iff (lists : List (List α)) :
    (∀ lists', lists.Perm lists' →
      firstSeen key [] lists.flatten = firstSeen key [] lists'.flatten) ↔
    lists.Pairwise (Interchange key) := by
  constructor
  · intro h
    rw [List.pairwise_iff_forall_sublist]
    intro xs ys hSub
    -- bring the two lists to the front, in either order
    obtain ⟨rest, hRest⟩ := hSub.exists_perm_append
    have hFront := h _ hRest
    have hSwapped := h (ys :: xs :: rest) (hRest.trans (List.Perm.swap ys xs rest))
    have hBoth : firstSeen key [] (xs ++ ys ++ rest.flatten) =
        firstSeen key [] (ys ++ xs ++ rest.flatten) := by
      simpa using hFront.symm.trans hSwapped
    exact interchange_of_append hBoth
  · intro h lists' hPerm
    exact firstSeen_flatten_perm hPerm h []

theorem firstSeen_flatten_eq_nil {lists : List (List α)}
    (h : firstSeen key [] lists.flatten = []) : ∀ xs ∈ lists, xs = [] := by
  rw [← List.flatten_eq_nil_iff]
  cases hFlat : lists.flatten with
  | nil => rfl
  | cons x rest =>
    cases hKey : key x <;> simp [hFlat, firstSeen, hKey] at h

/-! ## Lists with keys only, and without keys -/

theorem firstSeen_of_unkeyed (h : ∀ x ∈ xs, key x = none) (seen : List κ) :
    firstSeen key seen xs = xs := by
  induction xs with
  | nil => rfl
  | cons x rest ih =>
    simp only [firstSeen, h x (by simp), ih fun y hy => h y (by simp [hy])]

theorem interchange_iff_of_unkeyed (hX : ∀ x ∈ xs, key x = none) (hY : ∀ y ∈ ys, key y = none) :
    Interchange key xs ys ↔ xs ++ ys = ys ++ xs := by
  unfold Interchange
  rw [firstSeen_of_unkeyed, firstSeen_of_unkeyed]
  · simp only [List.mem_append]
    rintro x (h | h)
    exacts [hY x h, hX x h]
  · simp only [List.mem_append]
    rintro x (h | h)
    exacts [hX x h, hY x h]

theorem mem_keys_firstSeen (seen : List κ) (xs : List α) (k : κ) :
    k ∈ (firstSeen key seen xs).filterMap key ↔ k ∈ xs.filterMap key ∧ k ∉ seen := by
  fun_induction firstSeen key seen xs with
  | case1 seen => simp
  | case2 seen x rest hKey ih => simp only [hKey, List.filterMap_cons, ih]
  | case3 seen x rest k' hKey hSeen ih =>
    simp only [hKey, List.filterMap_cons, ih, List.mem_cons]
    constructor
    · rintro ⟨h, hNew⟩
      exact ⟨.inr h, hNew⟩
    · rintro ⟨rfl | h, hNew⟩
      · exact absurd hSeen hNew
      · exact ⟨h, hNew⟩
  | case4 seen x rest k' hKey hSeen ih =>
    simp only [hKey, List.filterMap_cons, ih, List.mem_cons, List.mem_append]
    by_cases h : k = k'
    · simp [h, hSeen]
    · simp [h]

theorem nodup_keys_firstSeen (seen : List κ) (xs : List α) :
    ((firstSeen key seen xs).filterMap key).Nodup := by
  fun_induction firstSeen key seen xs with
  | case1 seen => simp
  | case2 seen x rest hKey ih => simpa only [hKey, List.filterMap_cons] using ih
  | case3 seen x rest k hKey hSeen ih => exact ih
  | case4 seen x rest k hKey hSeen ih =>
    simp only [hKey, List.filterMap_cons, List.nodup_cons]
    refine ⟨?_, ih⟩
    rw [mem_keys_firstSeen]
    simp

theorem firstSeen_sublist (seen : List κ) (xs : List α) : (firstSeen key seen xs).Sublist xs := by
  fun_induction firstSeen key seen xs with
  | case1 => exact List.Sublist.slnil
  | case2 seen x rest hKey ih | case4 seen x rest k hKey hSeen ih => exact ih.cons_cons x
  | case3 seen x rest k hKey hSeen ih => exact ih.cons x

theorem interchange_of_begins (hX : ∀ x ∈ xs, (key x).isSome)
    (h : firstSeen key [] xs <+: firstSeen key [] ys) : Interchange key xs ys := by
  obtain ⟨rest, hRest⟩ := h
  have hKeyed : ∀ x ∈ firstSeen key [] xs, ∃ k ∈ xs.filterMap key, key x = some k := by
    intro x hx
    have hMem := (firstSeen_sublist [] xs).subset hx
    obtain ⟨k, hk⟩ := Option.isSome_iff_exists.1 (hX x hMem)
    exact ⟨k, List.mem_filterMap.2 ⟨x, hMem, hk⟩, hk⟩
  have hNodup : ((firstSeen key [] ys).filterMap key).Nodup := nodup_keys_firstSeen [] ys
  rw [← hRest, List.filterMap_append, List.nodup_append'] at hNodup
  have hSeen (seen : List κ) (zs : List α) : firstSeen key ([] ++ seen) zs = _ :=
    firstSeen_seen_append [] seen zs
  unfold Interchange
  rw [firstSeen_append, firstSeen_append, hSeen, hSeen, ← hRest, List.filter_append]
  have hOld : ((firstSeen key [] xs).filter fun x =>
      (key x).all fun k => k ∉ xs.filterMap key) = [] := by
    rw [List.filter_eq_nil_iff]
    intro x hx
    obtain ⟨k, hMem, hk⟩ := hKeyed x hx
    simpa [hk] using hMem
  have hNew : (rest.filter fun x => (key x).all fun k => k ∉ xs.filterMap key) = rest := by
    rw [List.filter_eq_self]
    intro x hx
    cases hk : key x with
    | none => rfl
    | some k =>
      have hNot : k ∉ xs.filterMap key := by
        intro hMem
        have hFirst : k ∈ (firstSeen key [] xs).filterMap key :=
          (mem_keys_firstSeen [] xs k).2 ⟨hMem, by simp⟩
        exact hNodup.2.2 hFirst (List.mem_filterMap.2 ⟨x, hx, hk⟩)
      simpa using hNot
  have hAll : ((firstSeen key [] xs).filter fun x =>
      (key x).all fun k => k ∉ ys.filterMap key) = [] := by
    rw [List.filter_eq_nil_iff]
    intro x hx
    obtain ⟨k, hMem, hk⟩ := hKeyed x hx
    have hIn : k ∈ (firstSeen key [] ys).filterMap key := by
      rw [← hRest]
      exact List.mem_filterMap.2 ⟨x, by simp [hx], hk⟩
    simpa [hk] using ((mem_keys_firstSeen [] ys k).1 hIn).1
  rw [hOld, hNew, hAll]
  simp

theorem interchange_iff_of_keyed (hX : ∀ x ∈ xs, (key x).isSome) (hY : ∀ y ∈ ys, (key y).isSome) :
    Interchange key xs ys ↔
      firstSeen key [] xs <+: firstSeen key [] ys ∨
        firstSeen key [] ys <+: firstSeen key [] xs := by
  constructor
  · intro h
    unfold Interchange at h
    rw [firstSeen_append, firstSeen_append] at h
    exact List.prefix_or_prefix_of_prefix ⟨_, h⟩ ⟨_, rfl⟩
  · rintro (h | h)
    · exact interchange_of_begins hX h
    · exact (interchange_of_begins hY h).symm

/-- A list with keys and a list without never interchange, unless one of them is empty. -/
theorem Interchange.eq_nil (hX : ∀ x ∈ xs, (key x).isSome) (hY : ∀ y ∈ ys, key y = none)
    (h : Interchange key xs ys) : xs = [] ∨ ys = [] := by
  cases xs with
  | nil => exact .inl rfl
  | cons x xs =>
    cases ys with
    | nil => exact .inr rfl
    | cons y ys =>
      obtain ⟨k, hk⟩ := Option.isSome_iff_exists.1 (hX x (by simp))
      have hNone := hY y (by simp)
      -- the two results start with elements of different kinds
      have hHead : x = y := by
        unfold Interchange at h
        simp only [List.cons_append, firstSeen, hk, hNone, List.not_mem_nil, if_false,
          List.cons.injEq] at h
        exact h.1
      rw [hHead, hNone] at hk
      cases hk

/-! ## Distinct elements in the order of their first occurrence -/

theorem eraseDups_eq_firstSeen (xs : List κ) : xs.eraseDups = firstSeen some [] xs := by
  suffices h : ∀ n (xs seen : List κ), xs.length ≤ n →
      (xs.filter (· ∉ seen)).eraseDups = firstSeen some seen xs by
    simpa using h xs.length xs [] le_rfl
  intro n
  induction n with
  | zero =>
    intro xs seen hLength
    rw [List.length_eq_zero_iff.1 (Nat.le_zero.1 hLength)]
    rfl
  | succ n ih =>
    intro xs seen hLength
    cases xs with
    | nil => rfl
    | cons x rest =>
      have hRest : rest.length ≤ n := by simpa using hLength
      by_cases hSeen : x ∈ seen
      · simp [firstSeen, hSeen, ← ih rest seen hRest]
      · rw [List.filter_cons_of_pos (by simpa using hSeen), List.eraseDups_cons,
          List.filter_filter]
        simp only [firstSeen, hSeen, if_false]
        rw [← ih rest (seen ++ [x]) hRest]
        congr 3
        funext y
        by_cases hY : y = x <;> simp [hY]

theorem mem_firstSeen_some {seen xs : List κ} {x : κ} :
    x ∈ firstSeen some seen xs ↔ x ∈ xs ∧ x ∉ seen := by
  have h : x ∈ (firstSeen some seen xs).filterMap some ↔ _ := mem_keys_firstSeen seen xs x
  simpa using h

theorem nodup_firstSeen_some (seen xs : List κ) : (firstSeen some seen xs).Nodup := by
  have h : ((firstSeen some seen xs).filterMap some).Nodup := nodup_keys_firstSeen seen xs
  simpa using h

theorem firstSeen_some_perm {xs ys : List κ} (h : xs.Perm ys) (seen : List κ) :
    (firstSeen some seen xs).Perm (firstSeen some seen ys) := by
  rw [List.perm_ext_iff_of_nodup (nodup_firstSeen_some seen xs) (nodup_firstSeen_some seen ys)]
  simp [mem_firstSeen_some, h.mem_iff]

/-! ## Orders of what a list brings, from orders of the list -/

theorem exists_perm_filterMap {f : β → Option γ} {xs : List β} {ys : List γ}
    (h : ys.Perm (xs.filterMap f)) : ∃ xs' : List β, xs'.Perm xs ∧ xs'.filterMap f = ys := by
  induction ys generalizing xs with
  | nil => exact ⟨xs, List.Perm.refl xs, h.symm.eq_nil⟩
  | cons y rest ih =>
    obtain ⟨x, hMem, hX⟩ := List.mem_filterMap.1 (h.subset (by simp : y ∈ y :: rest))
    obtain ⟨front, back, rfl⟩ := List.append_of_mem hMem
    have hMiddle : (front ++ x :: back).Perm (x :: (front ++ back)) := List.perm_middle
    have hRest : rest.Perm ((front ++ back).filterMap f) := by
      have hFront := h.trans (hMiddle.filterMap f)
      rw [List.filterMap_cons_some hX] at hFront
      exact hFront.cons_inv
    obtain ⟨others, hPerm, hOthers⟩ := ih hRest
    refine ⟨x :: others, (hPerm.cons x).trans hMiddle.symm, ?_⟩
    rw [List.filterMap_cons_some hX, hOthers]

theorem exists_perm_map {f : β → γ} {xs : List β} {ys : List γ} (h : ys.Perm (xs.map f)) :
    ∃ xs' : List β, xs'.Perm xs ∧ xs'.map f = ys := by
  rw [← List.filterMap_eq_map] at h
  obtain ⟨xs', hPerm, hMap⟩ := exists_perm_filterMap h
  exact ⟨xs', hPerm, by rw [← hMap, List.filterMap_eq_map]⟩

theorem exists_perm_firstSeen_some {seen xs ys : List κ}
    (h : ys.Perm (firstSeen some seen xs)) :
    ∃ xs' : List κ, xs'.Perm xs ∧ firstSeen some seen xs' = ys := by
  induction ys generalizing seen xs with
  | nil => exact ⟨xs, List.Perm.refl xs, h.symm.eq_nil⟩
  | cons y rest ih =>
    obtain ⟨hMem, hNew⟩ := mem_firstSeen_some.1 (h.subset (by simp : y ∈ y :: rest))
    have hFront := List.perm_cons_erase hMem
    have hRest : rest.Perm (firstSeen some (seen ++ [y]) (xs.erase y)) := by
      have hPerm := h.trans (firstSeen_some_perm hFront seen)
      simp only [firstSeen, hNew, if_false] at hPerm
      exact hPerm.cons_inv
    obtain ⟨others, hPerm, hOthers⟩ := ih hRest
    refine ⟨y :: others, (hPerm.cons y).trans hFront.symm, ?_⟩
    simp only [firstSeen, hNew, if_false, hOthers]

end RustyRuntime.Library
