import RustyRuntime.Checkpoint.File

/-!
# Base chains

The base of a delta may be any record, or none that exists. `BaseChain find id chain` says that
following the bases from `id` ends at a full record: `chain` is what `fold_chain` is given, root
first. A record whose bases go round in a cycle or end at a missing one has no such chain.

**`materialize_all` gives one checkpoint for each id with a base chain, the fold of that chain, and
nothing else** (`materializeAll_exact`), in whatever order the records and the map's keys come. The
memo table only ever holds folds of base chains (`MemoSound`), and a walk that starts at an id with
a chain cannot meet a record twice, since the chains get shorter on the way.
-/

namespace RustyRuntime

/-- The records from the full one that `id` rests on up to that of `id` itself. -/
inductive BaseChain (find : String → Option Checkpoint) : String → List Checkpoint → Prop
  | full {id : String} {c : Checkpoint} (hFind : find id = some c) (hBase : c.base = none) :
      BaseChain find id [c]
  | link {id baseId : String} {c : Checkpoint} {chain : List Checkpoint}
      (hFind : find id = some c) (hBase : c.base = some baseId) (h : BaseChain find baseId chain) :
      BaseChain find id (chain ++ [c])

/-- Records are found under their own ids. -/
def FindsById (find : String → Option Checkpoint) : Prop := ∀ id c, find id = some c → c.id = id

/-- What the fold of the chain of `id` reads as. -/
def Reads (find : String → Option Checkpoint) (id : String) (m : Checkpoint) : Prop :=
  ∃ chain, BaseChain find id chain ∧ foldChain chain = .ok m

variable {find : String → Option Checkpoint} {id baseId start : String} {c m tip : Checkpoint}
  {chain links : List Checkpoint} {byId memo : Std.ExtTreeMap String Checkpoint}
  {other links' starts : List Checkpoint}

theorem BaseChain.unique (h : BaseChain find id chain) (hOther : BaseChain find id other) :
    other = chain := by
  induction h generalizing other with
  | full hFind hBase =>
    cases hOther with
    | full hSame => rw [Option.some.inj (hFind.symm.trans hSame)]
    | link hSame hLink =>
      cases hFind.symm.trans hSame
      cases hBase.symm.trans hLink
  | link hFind hBase _ ih =>
    cases hOther with
    | full hSame hFull =>
      cases hFind.symm.trans hSame
      cases hBase.symm.trans hFull
    | link hSame hLink hBelow =>
      cases hFind.symm.trans hSame
      cases hBase.symm.trans hLink
      rw [ih hBelow]

theorem BaseChain.exists_record (h : BaseChain find id chain) : ∃ c ∈ chain, find id = some c := by
  cases h with
  | full hFind => exact ⟨_, List.mem_cons_self, hFind⟩
  | link hFind => exact ⟨_, by simp, hFind⟩

theorem foldChain_append_link {link : Checkpoint} (hChain : foldChain chain = .ok tip)
    (hBase : link.base = some tip.id) :
    foldChain (chain ++ [link]) = .ok (foldDelta tip link) := by
  cases chain with
  | nil => cases hChain
  | cons root links =>
    simp only [foldChain, List.cons_append] at hChain ⊢
    cases hRoot : root.base with
    | some _ => simp [hRoot] at hChain
    | none =>
      simp only [hRoot] at hChain ⊢
      rw [List.foldlM_append, hChain]
      simp [hBase, bind, Except.bind, pure, Except.pure]

theorem foldChain_full (hBase : c.base = none) : foldChain [c] = .ok c := by
  simp [foldChain, hBase, pure, Except.pure]

/-- **A base chain folds**, to a checkpoint with the id of its last record. -/
theorem BaseChain.exists_fold (hIds : FindsById find) (h : BaseChain find id chain) :
    ∃ m, foldChain chain = .ok m ∧ m.id = id := by
  induction h with
  | full hFind hBase => exact ⟨_, foldChain_full hBase, hIds _ _ hFind⟩
  | @link id baseId c chain hFind hBase _ ih =>
    obtain ⟨tip, hTip, hId⟩ := ih
    have hOwn : c.id = id := hIds id c hFind
    exact ⟨_, foldChain_append_link hTip (hId ▸ hBase), hOwn⟩

theorem Reads.id_eq (hIds : FindsById find) (h : Reads find id m) : m.id = id := by
  obtain ⟨chain, hChain, hFold⟩ := h
  obtain ⟨tip, hTip, hId⟩ := hChain.exists_fold hIds
  cases hFold.symm.trans hTip
  exact hId

theorem Reads.unique (h : Reads find id m) (hTip : Reads find id tip) : tip = m := by
  obtain ⟨chain, hChain, hFold⟩ := h
  obtain ⟨other, hOther, hFold'⟩ := hTip
  rw [hChain.unique hOther, hFold] at hFold'
  exact (Except.ok.inj hFold').symm

theorem Reads.link (hIds : FindsById find) (hFind : find id = some c)
    (hBase : c.base = some baseId) (h : Reads find baseId tip) :
    Reads find id (foldDelta tip c) := by
  have hTip := h.id_eq hIds
  obtain ⟨chain, hChain, hFold⟩ := h
  exact ⟨_, .link hFind hBase hChain, foldChain_append_link hFold (hTip ▸ hBase)⟩

open Classical in
/-- The fold of the chain of `id`, if it has one. -/
noncomputable def readAt (find : String → Option Checkpoint) (id : String) : Option Checkpoint :=
  if h : ∃ m, Reads find id m then some h.choose else none

theorem readAt_eq_some_iff : readAt find id = some m ↔ Reads find id m := by
  unfold readAt
  split
  · next hRead =>
    rw [Option.some.injEq]
    exact ⟨fun hEq => hEq ▸ hRead.choose_spec, fun h => h.unique hRead.choose_spec⟩
  · next hNone => exact ⟨nofun, fun h => absurd ⟨m, h⟩ hNone⟩

/-! ## Walking up and folding down -/

/-- The links lead from `id`, the base of the first one, to `start`, the id of the last one. -/
def LeadsTo (find : String → Option Checkpoint) (start : String) : String → List Checkpoint → Prop
  | id, [] => id = start
  | id, link :: rest =>
    find link.id = some link ∧ link.base = some id ∧ LeadsTo find start link.id rest

/-- The memo table holds only what is read. -/
def MemoSound (find : String → Option Checkpoint) (memo : Std.ExtTreeMap String Checkpoint) :
    Prop :=
  ∀ id m, memo[id]? = some m → Reads find id m

theorem foldLinks_spec (hIds : FindsById find) (h : LeadsTo find start id links)
    (hTip : Reads find id tip) (hMemo : MemoSound find memo) :
    Reads find start (foldLinks tip memo links).1 ∧ MemoSound find (foldLinks tip memo links).2 := by
  induction links generalizing id tip memo with
  | nil =>
    cases h
    exact ⟨hTip, hMemo⟩
  | cons link rest ih =>
    obtain ⟨hFind, hBase, hRest⟩ := h
    have hLink := Reads.link hIds hFind hBase hTip
    refine ih hRest hLink fun other m hGet => ?_
    rw [Std.ExtTreeMap.getElem?_insert] at hGet
    split at hGet
    · next hSame =>
      cases hGet
      exact Std.LawfulEqCmp.eq_of_compare hSame ▸ hLink
    · exact hMemo other m hGet

section Walk

variable (hIds : FindsById (byId[·]?)) (hMemo : MemoSound (byId[·]?) memo)

include hIds hMemo

theorem walkChain_sound {fuel : Nat} {visiting : List String} (hFind : byId[c.id]? = some c)
    (hLinks : LeadsTo (byId[·]?) start c.id links)
    (h : walkChain byId memo fuel visiting links c = some (tip, links')) :
    ∃ id, Reads (byId[·]?) id tip ∧ LeadsTo (byId[·]?) start id links' := by
  induction fuel generalizing visiting links c with
  | zero => cases h
  | succ fuel ih =>
    rw [walkChain] at h
    split at h
    · cases h
    split at h
    · next m hGet =>
      cases h
      exact ⟨_, hMemo _ _ hGet, hLinks⟩
    split at h
    · next hBase =>
      cases h
      exact ⟨_, ⟨_, .full hFind hBase, foldChain_full hBase⟩, hLinks⟩
    · next baseId hBase =>
      split at h
      · cases h
      · next base hGet =>
        obtain rfl := hIds _ _ hGet
        have hNext : LeadsTo (byId[·]?) start base.id (c :: links) := ⟨hFind, hBase, hLinks⟩
        exact ih hGet hNext h

omit hMemo in
/-- A walk that starts at a chain arrives: what it has visited has longer chains, and there are
not more records to visit than there are turns. -/
theorem isSome_walkChain (h : BaseChain (byId[·]?) c.id chain) (hFind : byId[c.id]? = some c)
    {fuel : Nat} {visiting : List String} (hFuel : byId.size < fuel + visiting.length)
    (hNodup : visiting.Nodup) (hLonger : ∀ id ∈ visiting, ∃ longer,
      BaseChain (byId[·]?) id longer ∧ chain.length < longer.length) (links : List Checkpoint) :
    (walkChain byId memo fuel visiting links c).isSome := by
  induction fuel generalizing visiting links c chain with
  | zero =>
    have hKeys : visiting ⊆ byId.keys := by
      intro id hId
      obtain ⟨longer, hChain, -⟩ := hLonger id hId
      obtain ⟨r, -, hFound⟩ := hChain.exists_record
      simp [Std.ExtTreeMap.mem_keys, Std.ExtTreeMap.mem_iff_isSome_getElem?, hFound]
    have hShort := (hNodup.subperm hKeys).length_le
    rw [Std.ExtTreeMap.length_keys] at hShort
    omega
  | succ fuel ih =>
    have hNew : c.id ∉ visiting := by
      intro hIn
      obtain ⟨longer, hChain, hLt⟩ := hLonger _ hIn
      rw [h.unique hChain] at hLt
      exact lt_irrefl _ hLt
    cases hGet : memo[c.id]? with
    | some m => simp [walkChain, hNew, hGet]
    | none =>
      have hOwn := h
      cases h with
      | full hSame hBase =>
        cases hFind.symm.trans hSame
        simp [walkChain, hNew, hGet, hBase]
      | @link _ baseId _ below hSame hBase hBelow =>
        cases hFind.symm.trans hSame
        obtain ⟨base, -, hFound⟩ := hBelow.exists_record
        obtain rfl := hIds _ _ hFound
        have hVisited : ∀ id ∈ c.id :: visiting, ∃ longer,
            BaseChain (byId[·]?) id longer ∧ below.length < longer.length := by
          rintro id (_ | ⟨_, hId⟩)
          · exact ⟨_, hOwn, by simp⟩
          · obtain ⟨longer, hChain, hLt⟩ := hLonger id hId
            exact ⟨longer, hChain, (Nat.lt_of_succ_lt (by simpa using hLt))⟩
        have hRest := ih hBelow hFound (by rw [List.length_cons]; omega)
          (List.nodup_cons.mpr ⟨hNew, hNodup⟩) hVisited (c :: links)
        simpa [walkChain, hNew, hGet, hBase, hFound] using hRest

end Walk

/-! ## `materialize_all` -/

variable {acc : Std.ExtTreeMap String Checkpoint × List Checkpoint}

theorem materializeStart_spec (hIds : FindsById (byId[·]?)) (hFind : byId[c.id]? = some c)
    (hMemo : MemoSound (byId[·]?) acc.1) :
    (materializeStart byId acc c).2 = acc.2 ++ (readAt (byId[·]?) c.id).toList ∧
      MemoSound (byId[·]?) (materializeStart byId acc c).1 := by
  unfold materializeStart
  cases hGet : acc.1[c.id]? with
  | some m =>
    rw [readAt_eq_some_iff.mpr (hMemo _ _ hGet)]
    exact ⟨rfl, hMemo⟩
  | none =>
    cases hWalk : walkChain byId acc.1 (byId.size + 1) [] [] c with
    | some found =>
      obtain ⟨id, hTip, hLinks⟩ := walkChain_sound hIds hMemo hFind (show LeadsTo (byId[·]?) c.id c.id [] from rfl) hWalk
      obtain ⟨hRead, hSound⟩ := foldLinks_spec hIds hLinks hTip hMemo
      rw [readAt_eq_some_iff.mpr hRead]
      exact ⟨rfl, hSound⟩
    | none =>
      have hNone : readAt (byId[·]?) c.id = none := by
        rw [Option.eq_none_iff_forall_ne_some]
        intro m hRead
        obtain ⟨chain, hChain, -⟩ := readAt_eq_some_iff.mp hRead
        have hSome : (walkChain byId acc.1 (byId.size + 1) [] [] c).isSome :=
          isSome_walkChain hIds hChain hFind (Nat.lt_succ_self _) .nil (by simp) []
        rw [hWalk] at hSome
        cases hSome
      rw [hNone]
      exact ⟨by simp, hMemo⟩

theorem foldl_materializeStart (hIds : FindsById (byId[·]?))
    (hStarts : ∀ c ∈ starts, byId[c.id]? = some c) (hMemo : MemoSound (byId[·]?) acc.1) :
    (starts.foldl (materializeStart byId) acc).2 =
      acc.2 ++ starts.filterMap fun c => readAt (byId[·]?) c.id := by
  induction starts generalizing acc with
  | nil => simp
  | cons c rest ih =>
    rw [List.forall_mem_cons] at hStarts
    obtain ⟨hOut, hSound⟩ := materializeStart_spec hIds hStarts.1 hMemo
    rw [List.foldl_cons, ih hStarts.2 hSound, hOut, List.append_assoc]
    cases hRead : readAt (byId[·]?) c.id <;> simp [hRead]

theorem findsById_indexById (raw : List Checkpoint) : FindsById ((indexById raw)[·]?) := by
  unfold indexById Library.insertAll
  refine List.foldlRecOn (motive := fun m => FindsById (m[·]?)) _ _ (by simp [FindsById]) ?_
  intro m hM entry hEntry id c hGet
  obtain ⟨own, -, rfl⟩ := List.mem_map.mp hEntry
  simp only [Std.ExtTreeMap.getElem?_insert] at hGet
  split at hGet
  · next hSame =>
    cases hGet
    exact Std.LawfulEqCmp.eq_of_compare hSame
  · exact hM id c hGet

/-- The output of the loop over the records in any order. -/
theorem materialize_eq (raw : List Checkpoint)
    (hStarts : starts.Perm ((indexById raw).toList.map Prod.snd)) :
    (starts.foldl (materializeStart (indexById raw)) (∅, [])).2 =
      starts.filterMap fun c => readAt ((indexById raw)[·]?) c.id := by
  have hIds := findsById_indexById raw
  refine foldl_materializeStart hIds (fun c hC => ?_) fun id m hGet => ?_
  · obtain ⟨entry, hEntry, rfl⟩ := List.mem_map.mp (hStarts.mem_iff.mp hC)
    have hGet := Std.ExtTreeMap.mem_toList_iff_getElem?_eq_some.mp hEntry
    rwa [← hIds _ _ hGet] at hGet
  · simp at hGet

namespace JsonFileCheckpointer

/-- The record in a file that parses. -/
def record (store : JsonFileCheckpointer) (thread id : String) : Option Checkpoint :=
  match (store.threadDir thread).files[id]? with
  | some (.checkpoint c) => some c
  | _ => none

variable {cfg : FileConfig} {store : JsonFileCheckpointer} {thread : String}

theorem readCheckpoint_of_record (cfg : FileConfig) (h : store.record thread id = some c) :
    readCheckpoint cfg store thread id = .ok c ∨
      ∃ e, readCheckpoint cfg store thread id = .error (.unsupported e) := by
  have hFile : (store.threadDir thread).files[id]? = some (.checkpoint c) := by
    unfold record at h
    split at h
    · next hFile => rw [hFile, Option.some.inj h]
    · cases h
  simp only [readCheckpoint, hFile]
  split
  · exact .inr ⟨_, rfl⟩
  · exact .inl rfl

theorem loadChainFrom_spec (hIds : FindsById (store.record thread)) {top : Checkpoint}
    (h : BaseChain (store.record thread) top.id chain) (hTop : store.record thread top.id = some top)
    (fuel : Nat) (hFuel : chain.length ≤ fuel) {visited : List String}
    (hVisited : ∀ id ∈ visited, ∃ longer,
      BaseChain (store.record thread) id longer ∧ chain.length ≤ longer.length)
    (above : List Checkpoint) (hAbove : above.length + chain.length ≤ foldBound cfg + 1) :
    loadChainFrom cfg store thread fuel visited top above = .ok (chain ++ above) ∨
      ∃ r ∈ chain, ∃ e, readCheckpoint cfg store thread r.id = .error (.unsupported e) ∧
        loadChainFrom cfg store thread fuel visited top above = .error e := by
  induction fuel generalizing top chain visited above with
  | zero =>
    obtain ⟨c, hC, -⟩ := h.exists_record
    exact absurd (List.length_pos_of_mem hC) (by omega)
  | succ fuel ih =>
    cases h with
    | full hSame hBase =>
      cases hTop.symm.trans hSame
      exact .inl (by simp [loadChainFrom, hBase])
    | @link _ baseId _ below hSame hBase hBelow =>
      cases hTop.symm.trans hSame
      obtain ⟨base, hIn, hFound⟩ := hBelow.exists_record
      obtain rfl := hIds _ _ hFound
      rw [List.length_append, List.length_singleton] at hFuel hVisited hAbove
      have hNew : base.id ∉ visited := by
        intro hSeen
        obtain ⟨longer, hChain, hLe⟩ := hVisited _ hSeen
        rw [hBelow.unique hChain] at hLe
        omega
      have hShort : ¬ foldBound cfg < above.length + 1 := by
        have := List.length_pos_of_mem hIn
        omega
      rcases readCheckpoint_of_record cfg hFound with hRead | ⟨e, hRead⟩
      · have hNext : ∀ id ∈ base.id :: visited, ∃ longer,
            BaseChain (store.record thread) id longer ∧ below.length ≤ longer.length := by
          rintro id (_ | ⟨_, hId⟩)
          · exact ⟨below, hBelow, le_rfl⟩
          · obtain ⟨longer, hChain, hLe⟩ := hVisited id hId
            exact ⟨longer, hChain, by omega⟩
        have hStep : loadChainFrom cfg store thread (fuel + 1) visited top above =
            loadChainFrom cfg store thread fuel (base.id :: visited) base (top :: above) := by
          simp [loadChainFrom, hBase, hNew, hShort, hRead]
        rw [hStep]
        refine (ih hBelow hFound (by omega) hNext (top :: above)
          (by rw [List.length_cons]; omega)).imp (fun hOk => ?_) fun hErr => ?_
        · rw [hOk, List.append_assoc]
          rfl
        · obtain ⟨r, hR, hFail⟩ := hErr
          exact ⟨r, List.mem_append_left _ hR, hFail⟩
      · refine .inr ⟨base, List.mem_append_left _ hIn, e, hRead, ?_⟩
        simp [loadChainFrom, hBase, hNew, hShort, hRead, ReadFailure.intoError]

/-- **A chain within the bound is loaded**, unless a record of it has a newer format. -/
theorem loadChain_spec (hIds : FindsById (store.record thread))
    (h : BaseChain (store.record thread) c.id chain) (hFind : store.record thread c.id = some c)
    (hLength : chain.length ≤ cfg.policy.maxChainLen.toNat + 1) :
    loadChain cfg store thread c = .ok chain ∨
      ∃ r ∈ chain, ∃ e, readCheckpoint cfg store thread r.id = .error (.unsupported e) ∧
        loadChain cfg store thread c = .error e := by
  have hBound : cfg.policy.maxChainLen.toNat ≤ foldBound cfg := by
    have hLt := cfg.policy.maxChainLen.toNat_lt
    unfold foldBound usizeMax
    omega
  have hNone : ∀ id ∈ ([] : List String), ∃ longer,
      BaseChain (store.record thread) id longer ∧ chain.length ≤ longer.length := by simp
  simpa [loadChain] using loadChainFrom_spec hIds h hFind (foldBound cfg + 2) (by omega) hNone []
    (by rw [List.length_nil]; omega)

end JsonFileCheckpointer

end RustyRuntime
