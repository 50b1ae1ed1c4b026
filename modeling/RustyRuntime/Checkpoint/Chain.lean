import RustyRuntime.Checkpoint.BaseChain

/-!
# Raw histories

The raw checkpoints of one thread, newest first, as the file backend writes them: a link's
base is the checkpoint put just before it (`Chained`). `materialized` is what the newest one
reads as, and `views` is the whole thread as it is read.

The two folds of the source agree with it on such a history:

* `foldChain_chainOf`: `fold_chain` on the links from the root up;
* `materializeAll_perm`: `materialize_all` on the raw checkpoints in any order.

Both come from the base chains of the history (`baseChain_chainOf`).
-/

namespace RustyRuntime

/-! ## Histories and what they read as -/

/-- What the newest checkpoint of a history reads as. -/
def materialized : List Checkpoint → Option Checkpoint
  | [] => none
  | r :: older => if r.base = none then some r else (materialized older).map (foldDelta · r)

/-- The history as it is read, newest first. -/
def views : List Checkpoint → List Checkpoint
  | [] => []
  | r :: older => (materialized (r :: older)).toList ++ views older

/-- The links of the newest checkpoint, root first. -/
def chainOf : List Checkpoint → List Checkpoint
  | [] => []
  | r :: older => if r.base = none then [r] else chainOf older ++ [r]

/-- The number of delta links below the newest checkpoint. -/
def linkDepth : List Checkpoint → Nat
  | [] => 0
  | r :: older => if r.base = none then 0 else linkDepth older + 1

def Chained : List Checkpoint → Prop
  | [] => True
  | r :: older =>
    (∀ baseId, r.base = some baseId → older.head?.map Checkpoint.id = some baseId) ∧ Chained older

variable {r m c : Checkpoint} {older raws suffix : List Checkpoint} {baseId : String}
  {find : String → Option Checkpoint}

theorem Chained.tail (h : Chained (r :: older)) :
    Chained older := h.2

theorem Chained.of_suffix (h : Chained raws) (hSuffix : suffix <:+ raws) : Chained suffix := by
  induction raws with
  | nil => rwa [List.suffix_nil.mp hSuffix]
  | cons r older ih =>
    rcases List.suffix_cons_iff.mp hSuffix with hEq | hOlder
    · rwa [hEq]
    · exact ih h.tail hOlder

theorem Chained.exists_base (h : Chained (r :: older)) (hBase : r.base = some baseId) :
    ∃ base rest, older = base :: rest ∧ base.id = baseId := by
  have hHead := h.1 baseId hBase
  cases older with
  | nil => cases hHead
  | cons base rest => exact ⟨base, rest, rfl, by simpa using hHead⟩

theorem materialized_of_full (h : r.base = none) : materialized (r :: older) = some r := by
  simp [materialized, h]

theorem materialized_of_link (h : r.base = some baseId) :
    materialized (r :: older) = (materialized older).map (foldDelta · r) := by
  simp [materialized, h]

theorem header_eq_of_materialized (h : materialized (r :: older) = some m) :
    m.header = r.header := by
  cases hBase : r.base with
  | none =>
    rw [materialized_of_full hBase] at h
    cases h
    rfl
  | some baseId =>
    rw [materialized_of_link hBase, Option.map_eq_some_iff] at h
    obtain ⟨below, -, rfl⟩ := h
    rfl

/-- Every checkpoint of a chained history reads as something, under its own id, and what is
read is never a delta. -/
theorem exists_materialized (h : Chained (r :: older)) :
    ∃ m, materialized (r :: older) = some m ∧ m.id = r.id ∧ m.base = none := by
  induction older generalizing r with
  | nil =>
    cases hBase : r.base with
    | none => exact ⟨r, materialized_of_full hBase, rfl, hBase⟩
    | some baseId =>
      obtain ⟨base, rest, hNil, -⟩ := h.exists_base hBase
      cases hNil
  | cons next rest ih =>
    cases hBase : r.base with
    | none => exact ⟨r, materialized_of_full hBase, rfl, hBase⟩
    | some baseId =>
      obtain ⟨m, hM, -, -⟩ := ih h.tail
      refine ⟨foldDelta m r, ?_, rfl, rfl⟩
      rw [materialized_of_link hBase, hM]
      rfl

theorem views_cons (h : materialized (r :: older) = some m) :
    views (r :: older) = m :: views older := by
  simp [views, h]

theorem map_id_views (h : Chained raws) :
    (views raws).map Checkpoint.id = raws.map Checkpoint.id := by
  induction raws with
  | nil => rfl
  | cons r older ih =>
    obtain ⟨m, hM, hId, -⟩ := exists_materialized h
    rw [views_cons hM, List.map_cons, List.map_cons, hId, ih h.tail]

/-- What is read is never a delta, and carries the id and header of a raw checkpoint. -/
theorem exists_raw_of_mem_views (h : Chained raws) (hC : c ∈ views raws) :
    c.base = none ∧ ∃ r ∈ raws, c.id = r.id ∧ c.header = r.header := by
  induction raws with
  | nil => cases hC
  | cons r older ih =>
    obtain ⟨m, hM, hId, hBase⟩ := exists_materialized h
    rw [views_cons hM] at hC
    rcases List.mem_cons.mp hC with rfl | hOlder
    · exact ⟨hBase, r, List.mem_cons_self, hId, header_eq_of_materialized hM⟩
    · obtain ⟨hNone, raw, hRaw, hSame⟩ := ih h.tail hOlder
      exact ⟨hNone, raw, List.mem_cons_of_mem _ hRaw, hSame⟩

theorem head?_views (h : Chained raws) : (views raws).head? = materialized raws := by
  cases raws with
  | nil => rfl
  | cons r older =>
    obtain ⟨m, hM, -, -⟩ := exists_materialized h
    rw [views_cons hM, hM]
    rfl

/-! ## `fold_chain` -/

theorem chainOf_subset (raws : List Checkpoint) : chainOf raws ⊆ raws := by
  induction raws with
  | nil => exact List.Subset.refl _
  | cons r older ih =>
    unfold chainOf
    split
    · simp
    · exact List.append_subset.mpr ⟨List.subset_cons_of_subset r ih, by simp⟩

theorem length_chainOf (hNe : raws ≠ []) (h : Chained raws) :
    (chainOf raws).length = linkDepth raws + 1 := by
  induction raws with
  | nil => exact absurd rfl hNe
  | cons r older ih =>
    cases hBase : r.base with
    | none => simp [chainOf, linkDepth, hBase]
    | some baseId =>
      obtain ⟨base, rest, hOlder, -⟩ := h.exists_base hBase
      have := ih (by simp [hOlder]) h.tail
      simp [chainOf, linkDepth, hBase, this]

/-- **`fold_chain` on the links of a history.** -/
theorem foldChain_chainOf (h : Chained raws) (hM : materialized raws = some m) :
    foldChain (chainOf raws) = .ok m := by
  induction raws generalizing m with
  | nil => cases hM
  | cons r older ih =>
    cases hBase : r.base with
    | none =>
      rw [materialized_of_full hBase] at hM
      cases hM
      simpa [chainOf, hBase] using foldChain_full hBase
    | some baseId =>
      obtain ⟨base, rest, rfl, hId⟩ := h.exists_base hBase
      obtain ⟨below, hBelow, hBelowId, -⟩ := exists_materialized h.tail
      rw [materialized_of_link hBase, hBelow] at hM
      cases hM
      have hChain : chainOf (r :: base :: rest) = chainOf (base :: rest) ++ [r] := by
        simp [chainOf, hBase]
      rw [hChain]
      exact foldChain_append_link (ih h.tail hBelow) (by rw [hBase, hBelowId, hId])

theorem baseChain_chainOf (hFind : ∀ x ∈ r :: older, find x.id = some x)
    (h : Chained (r :: older)) : BaseChain find r.id (chainOf (r :: older)) := by
  have hOwn := hFind r List.mem_cons_self
  induction older generalizing r with
  | nil =>
    cases hBase : r.base with
    | none => simpa [chainOf, hBase] using BaseChain.full hOwn hBase
    | some baseId =>
      obtain ⟨base, rest, hNil, -⟩ := h.exists_base hBase
      cases hNil
  | cons next rest ih =>
    cases hBase : r.base with
    | none => simpa [chainOf, hBase] using BaseChain.full hOwn hBase
    | some baseId =>
      obtain ⟨base, tail, hEq, rfl⟩ := h.exists_base hBase
      cases hEq
      have hBelow := ih (List.forall_mem_cons.mp hFind).2 h.tail (hFind next (by simp))
      simpa [chainOf, hBase] using BaseChain.link hOwn hBase hBelow

/-! ## `materialize_all` -/

theorem views_eq (hFind : ∀ x ∈ raws, find x.id = some x) (h : Chained raws) :
    views raws = raws.filterMap fun x => readAt find x.id := by
  induction raws with
  | nil => rfl
  | cons r older ih =>
    obtain ⟨m, hM, -, -⟩ := exists_materialized h
    have hRead : readAt find r.id = some m :=
      readAt_eq_some_iff.mpr ⟨_, baseChain_chainOf hFind h, foldChain_chainOf h hM⟩
    simp [views_cons hM, hRead, ih (List.forall_mem_cons.mp hFind).2 h.tail]

theorem mem_views (hSuffix : (r :: older) <:+ raws) (hM : materialized (r :: older) = some m) :
    m ∈ views raws := by
  induction raws with
  | nil => cases List.suffix_nil.mp hSuffix
  | cons first rest ih =>
    rcases List.suffix_cons_iff.mp hSuffix with hEq | hRest
    · cases hEq
      rw [views_cons hM]
      exact List.mem_cons_self
    · exact List.mem_append_right _ (ih hRest)

/-- **`materialize_all` reads the history**, whatever order the files come in. -/
theorem materializeAll_perm {scanned : List Checkpoint} (hIds : (raws.map Checkpoint.id).Nodup)
    (hChained : Chained raws) (hPerm : scanned.Perm raws) :
    (materializeAll scanned).Perm (views raws) := by
  have hKeys : ((scanned.map fun c => (c.id, c)).map Prod.fst).Nodup := by
    rw [List.map_map]
    exact (hPerm.map Checkpoint.id).nodup_iff.mpr hIds
  have hEntries : (indexById scanned).toList.Perm (scanned.map fun c => (c.id, c)) :=
    Library.toList_insertAll_empty_perm hKeys
  have hStarts : ((indexById scanned).toList.map Prod.snd).Perm raws := by
    refine (hEntries.map Prod.snd).trans ?_
    simpa [Function.comp_def] using hPerm
  have hById : ∀ r ∈ raws, (indexById scanned)[r.id]? = some r := fun r hR =>
    Library.getElem?_insertAll_of_mem hKeys
      (List.mem_map.mpr ⟨r, hPerm.mem_iff.mpr hR, rfl⟩) _
  unfold materializeAll
  rw [materialize_eq scanned (.refl _), views_eq hById hChained]
  exact hStarts.filterMap _

end RustyRuntime
