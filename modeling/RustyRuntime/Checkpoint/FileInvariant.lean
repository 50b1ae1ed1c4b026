import RustyRuntime.Checkpoint.Chain

/-!
# What the file backend stores and reads

`Stored cfg store thread raws` says that the directory of `thread` holds the raw history
`raws` (newest first) and that the cached head, if there is one, is the newest of it. From
it come the answers of the read methods (`getLatest_of_stored`, `list_of_stored`,
`getById_of_stored`): they are those of the history as it is read, `views raws`.

`stored_write` is the step: a write extends the history of its own thread by the encoded
checkpoint and leaves every other thread alone.
-/

namespace RustyRuntime

/-- An id the `latest` pointer gives back as it was written. -/
def PlainId (id : String) : Prop := Library.trim id = id ∧ id ≠ ""

instance (id : String) : Decidable (PlainId id) := inferInstanceAs (Decidable (_ ∧ _))

/-- A format this build reads. -/
def SupportedFormat (c : Checkpoint) : Prop := c.header.formatVersion ≤ currentFormatVersion

instance (c : Checkpoint) : Decidable (SupportedFormat c) :=
  inferInstanceAs (Decidable (c.header.formatVersion ≤ currentFormatVersion))

open JsonFileCheckpointer

def HeadFor (raws : List Checkpoint) (head : DeltaHead) : Prop :=
  raws.head?.map Checkpoint.id = some head.checkpoint.id ∧ head.chainLen = linkDepth raws

/-- The directory of a thread holds a raw history, newest first. -/
structure Stored (cfg : FileConfig) (store : JsonFileCheckpointer) (thread : String)
    (raws : List Checkpoint) : Prop where
  files : ∀ id, (store.threadDir thread).files[id]? =
    (raws.find? fun r => r.id = id).map .checkpoint
  latest : (store.threadDir thread).latest = raws.head?.map Checkpoint.id
  nodupIds : (raws.map Checkpoint.id).Nodup
  chained : Chained raws
  depth : ∀ suffix, suffix <:+ raws → linkDepth suffix ≤ cfg.policy.maxChainLen.toNat
  plain : ∀ r ∈ raws, PlainId r.id
  supported : ∀ r ∈ raws, SupportedFormat r
  cached : ∀ head, store.heads[thread]? = some head → HeadFor raws head

variable {cfg : FileConfig} {store : JsonFileCheckpointer} {thread : String}
  {raws : List Checkpoint}

theorem stored_new (cfg : FileConfig) (thread : String) : Stored cfg .new thread [] where
  files id := by simp [JsonFileCheckpointer.new, threadDir]
  latest := by simp [JsonFileCheckpointer.new, threadDir]
  nodupIds := List.nodup_nil
  chained := trivial
  depth suffix h := by simp [List.suffix_nil.mp h, linkDepth]
  plain := by simp
  supported := by simp
  cached head h := by simp [JsonFileCheckpointer.new] at h

theorem Stored.restart (h : Stored cfg store thread raws) :
    Stored cfg store.restart thread raws :=
  { h with cached := fun head hHead => by simp [JsonFileCheckpointer.restart] at hHead }

/-! ## Reading one file -/

variable {c r : Checkpoint} {id : String} {older : List Checkpoint} {head : DeltaHead}

theorem find?_id_of_mem (hIds : (raws.map Checkpoint.id).Nodup) (hC : c ∈ raws) :
    raws.find? (fun r => r.id = c.id) = some c := by
  cases hFind : raws.find? (fun r => r.id = c.id) with
  | none =>
    have := List.find?_eq_none.mp hFind c hC
    simp at this
  | some r =>
    have hId : r.id = c.id := by simpa using List.find?_some hFind
    rw [List.inj_on_of_nodup_map hIds (List.mem_of_find?_eq_some hFind) hC hId]

section

variable (h : Stored cfg store thread raws)

include h

theorem readCheckpoint_of_mem (hR : r ∈ raws) : readCheckpoint cfg store thread r.id = .ok r := by
  have hFile := h.files r.id
  rw [find?_id_of_mem h.nodupIds hR] at hFile
  have hFormat : ¬ currentFormatVersion < r.header.formatVersion :=
    UInt32.not_lt.mpr (h.supported r hR)
  simp [readCheckpoint, hFile, ensureSupportedFormat, hFormat]

theorem readCheckpoint_of_not_mem (hId : id ∉ raws.map Checkpoint.id) :
    ∃ e, readCheckpoint cfg store thread id = .error (.corrupt e) := by
  have hFind : raws.find? (fun r => r.id = id) = none := by
    refine List.find?_eq_none.mpr fun r hR => ?_
    have : r.id ≠ id := fun hEq => hId (hEq ▸ List.mem_map_of_mem hR)
    simpa using this
  have hFile := h.files id
  rw [hFind] at hFile
  rw [readCheckpoint, hFile]
  exact ⟨_, rfl⟩

/-! ## Scanning a directory -/

theorem mem_files_keys :
    id ∈ (store.threadDir thread).files.keys ↔ id ∈ raws.map Checkpoint.id := by
  rw [Std.ExtTreeMap.mem_keys, Std.ExtTreeMap.mem_iff_isSome_getElem?, h.files id,
    Option.isSome_map, List.find?_isSome, List.mem_map]
  simp

theorem foldlM_scanEntry (ids : List String) (hIds : ∀ id ∈ ids, id ∈ raws.map Checkpoint.id)
    (found : List Checkpoint) :
    ids.foldlM (scanEntry cfg store thread) found =
      .ok (found ++ ids.filterMap fun id => raws.find? fun r => r.id = id) := by
  induction ids generalizing found with
  | nil => simp [pure, Except.pure]
  | cons id rest ih =>
    obtain ⟨r, hR, rfl⟩ := List.mem_map.mp (hIds id List.mem_cons_self)
    have hEntry : scanEntry cfg store thread found r.id = .ok (found ++ [r]) := by
      simp [scanEntry, readCheckpoint_of_mem h hR]
    rw [List.foldlM_cons, hEntry]
    show List.foldlM (scanEntry cfg store thread) (found ++ [r]) rest = _
    rw [ih (fun x hx => hIds x (List.mem_cons_of_mem _ hx)), List.filterMap_cons,
      find?_id_of_mem h.nodupIds hR]
    simp

theorem scanThreadRaw_of_stored :
    ∃ scanned, scanThreadRaw cfg store thread = .ok scanned ∧ scanned.Perm raws := by
  have hKeys : ∀ id, id ∈ ((store.threadDir thread).files.keys.filter (· ≠ "")) ↔
      id ∈ raws.map Checkpoint.id := by
    intro id
    rw [List.mem_filter, mem_files_keys h]
    refine ⟨And.left, fun hId => ⟨hId, ?_⟩⟩
    obtain ⟨r, hR, rfl⟩ := List.mem_map.mp hId
    simpa using (h.plain r hR).2
  refine ⟨_, foldlM_scanEntry h _ (fun id hId => (hKeys id).mp hId) [], ?_⟩
  rw [List.nil_append]
  have hNodup : ((store.threadDir thread).files.keys.filter (· ≠ "")).Nodup :=
    Std.ExtTreeMap.nodup_keys.filter _
  have hFound {id : String} {r : Checkpoint}
      (hFind : r ∈ raws.find? fun r => r.id = id) : r ∈ raws ∧ r.id = id := by
    have hSome : raws.find? (fun r => r.id = id) = some r := hFind
    exact ⟨List.mem_of_find?_eq_some hSome, by simpa using List.find?_some hSome⟩
  refine (List.perm_ext_iff_of_nodup ?_ (List.Nodup.of_map _ h.nodupIds)).mpr fun r => ?_
  · refine hNodup.filterMap fun id id' r hR hR' => ?_
    rw [← (hFound hR).2, ← (hFound hR').2]
  · rw [List.mem_filterMap]
    constructor
    · rintro ⟨id, -, hFind⟩
      exact (hFound hFind).1
    · intro hR
      exact ⟨r.id, (hKeys r.id).mpr (List.mem_map_of_mem hR), find?_id_of_mem h.nodupIds hR⟩

/-- **`read_latest_raw` gives the newest raw checkpoint.** -/
theorem readLatestRaw_of_stored : readLatestRaw cfg store thread = .ok raws.head? := by
  cases raws with
  | nil =>
    obtain ⟨scanned, hScan, hPerm⟩ := scanThreadRaw_of_stored h
    rw [hPerm.eq_nil] at hScan
    have hLatest := h.latest
    simp [readLatestRaw, hLatest, hScan, Except.map, newest, Library.sortByKey]
  | cons r older =>
    have hLatest := h.latest
    obtain ⟨hTrim, hNonempty⟩ := h.plain r List.mem_cons_self
    simp [readLatestRaw, hLatest, hTrim, hNonempty, readCheckpoint_of_mem h List.mem_cons_self]

/-! ## Loading a chain -/

theorem loadChain_of_stored (hSuffix : (r :: older) <:+ raws) :
    loadChain cfg store thread r = .ok (chainOf (r :: older)) := by
  have hFiles : ∀ id, store.record thread id = raws.find? fun r => r.id = id := by
    intro id
    unfold record
    rw [h.files]
    cases raws.find? (fun r => r.id = id) <;> rfl
  have hIds : FindsById (store.record thread) := fun id c hC => by
    rw [hFiles] at hC
    simpa using List.find?_some hC
  have hRecord : ∀ x ∈ r :: older, store.record thread x.id = some x := fun x hX => by
    rw [hFiles, find?_id_of_mem h.nodupIds (hSuffix.subset hX)]
  have hChained := h.chained.of_suffix hSuffix
  have hLength : (chainOf (r :: older)).length ≤ cfg.policy.maxChainLen.toNat + 1 := by
    rw [length_chainOf (List.cons_ne_nil r older) hChained]
    exact Nat.succ_le_succ (h.depth _ hSuffix)
  rcases loadChain_spec hIds (baseChain_chainOf hRecord hChained) (hRecord r List.mem_cons_self)
    hLength with hOk | ⟨x, hX, e, hRead, -⟩
  · exact hOk
  · cases hRead.symm.trans
      (readCheckpoint_of_mem h (hSuffix.subset (chainOf_subset _ hX)))

/-! ## The read methods -/

theorem foldRaw_of_stored (hSuffix : (r :: older) <:+ raws) :
    foldRaw cfg store thread r = .ok (materialized (r :: older)) := by
  have hChained := h.chained.of_suffix hSuffix
  cases hBase : r.base with
  | none => simp [foldRaw, hBase, materialized_of_full hBase]
  | some baseId =>
    obtain ⟨m, hM, -, -⟩ := exists_materialized hChained
    simp [foldRaw, hBase, loadChain_of_stored h hSuffix, foldChain_chainOf hChained hM, hM,
      Except.map]

theorem getLatest_of_stored : getLatest cfg store thread = .ok (views raws).head? := by
  rw [head?_views h.chained]
  cases raws with
  | nil => simp [getLatest, readLatestRaw_of_stored h, materialized]
  | cons r older =>
    simp [getLatest, readLatestRaw_of_stored h, foldRaw_of_stored h (List.suffix_refl _)]

theorem nodup_ids_views : ((views raws).map Checkpoint.id).Nodup := by
  rw [map_id_views h.chained]
  exact h.nodupIds

theorem list_of_stored : list cfg store thread = .ok (sortHistory (views raws)) := by
  obtain ⟨scanned, hScan, hPerm⟩ := scanThreadRaw_of_stored h
  have hViews := materializeAll_perm h.nodupIds h.chained hPerm
  have hSort : sortHistory (views raws) = sortHistory (materializeAll scanned) :=
    Library.sortByKey_eq_of_perm (Checkpoint.injOn_listKey (nodup_ids_views h)) hViews.symm
  rw [list, hScan, hSort]
  rfl

theorem getById_of_stored (id : String) :
    getById cfg store thread id = .ok ((sortHistory (views raws)).find? fun c => c.id = id) := by
  have hSortedIds : ((sortHistory (views raws)).map Checkpoint.id).Nodup :=
    ((Library.sortByKey_perm _ _).map _).nodup_iff.mpr (nodup_ids_views h)
  by_cases hId : id ∈ raws.map Checkpoint.id
  · obtain ⟨r, hR, rfl⟩ := List.mem_map.mp hId
    obtain ⟨newer, older, hSplit⟩ := List.append_of_mem hR
    have hSuffix : (r :: older) <:+ raws := ⟨newer, hSplit.symm⟩
    obtain ⟨m, hM, hMId, -⟩ := exists_materialized (h.chained.of_suffix hSuffix)
    have hMem : m ∈ sortHistory (views raws) := by
      rw [sortHistory, Library.mem_sortByKey]
      exact mem_views hSuffix hM
    have hFind := find?_id_of_mem hSortedIds hMem
    rw [hMId] at hFind
    simp [getById, readCheckpoint_of_mem h hR, foldRaw_of_stored h hSuffix, hM, hFind]
  · obtain ⟨e, hRead⟩ := readCheckpoint_of_not_mem h hId
    simp [getById, hRead, list_of_stored h, Except.map]

end

/-! ## Writing -/

theorem threadDir_write (store : JsonFileCheckpointer) (c : Checkpoint) (encoding : DeltaEncoding)
    (thread : String) :
    (store.write c encoding).threadDir thread =
      if c.threadId = thread then
        ⟨(store.threadDir c.threadId).files.insert c.id (.checkpoint encoding.checkpoint),
          some c.id⟩
      else store.threadDir thread := by
  by_cases h : c.threadId = thread
  · simp [write, threadDir, h]
  · simp [write, threadDir, Std.ExtTreeMap.getElem?_insert, h]

theorem stored_write_of_ne (h : Stored cfg store thread raws) (encoding : DeltaEncoding)
    (hThread : c.threadId ≠ thread) :
    Stored cfg (store.write c encoding) thread raws where
  files := by
    rw [threadDir_write, if_neg hThread]
    exact h.files
  latest := by
    rw [threadDir_write, if_neg hThread]
    exact h.latest
  nodupIds := h.nodupIds
  chained := h.chained
  depth := h.depth
  plain := h.plain
  supported := h.supported
  cached head hHead := by
    refine h.cached head ?_
    rw [← hHead]
    simp [write, Std.ExtTreeMap.getElem?_insert, hThread]

structure Appends (cfg : FileConfig) (raws : List Checkpoint) (c : Checkpoint)
    (encoding : DeltaEncoding) : Prop where
  id_eq : encoding.checkpoint.id = c.id
  header_eq : encoding.checkpoint.header = c.header
  chained : ∀ baseId, encoding.checkpoint.base = some baseId →
    raws.head?.map Checkpoint.id = some baseId
  chainLen_eq : encoding.chainLen = linkDepth (encoding.checkpoint :: raws)
  chainLen_le : encoding.chainLen ≤ cfg.policy.maxChainLen.toNat

theorem appends_full (cfg : FileConfig) (raws : List Checkpoint) (c : Checkpoint) :
    Appends cfg raws c (.full c) where
  id_eq := rfl
  header_eq := rfl
  chained baseId h := by cases h
  chainLen_eq := rfl
  chainLen_le := Nat.zero_le _

theorem appends_encodeDelta (cfg : FileConfig) {raws : List Checkpoint} (c : Checkpoint)
    (hHead : HeadFor raws head) :
    Appends cfg raws c (encodeDelta cfg.codec c (some head) cfg.policy) := by
  cases hFull : storesFull cfg.codec c head cfg.policy with
  | true =>
    rw [encodeDelta_of_storesFull hFull]
    exact appends_full cfg raws c
  | false =>
    rw [encodeDelta_of_not_storesFull hFull]
    refine ⟨rfl, rfl, ?_, ?_, ?_⟩
    · intro baseId hBase
      cases hBase
      exact hHead.1
    · simp [linkDepth, deltaLink, hHead.2]
    · exact chainLen_lt_of_not_storesFull hFull

/-- **The write step.** A new plain id in a supported format extends the thread's history. -/
theorem stored_write {encoding : DeltaEncoding} (h : Stored cfg store c.threadId raws)
    (hNew : c.id ∉ raws.map Checkpoint.id) (hPlain : PlainId c.id) (hFormat : SupportedFormat c)
    (hAppends : Appends cfg raws c encoding) :
    Stored cfg (store.write c encoding) c.threadId (encoding.checkpoint :: raws) where
  files id := by
    rw [threadDir_write, if_pos rfl, Std.ExtTreeMap.getElem?_insert, List.find?_cons,
      hAppends.id_eq]
    by_cases hId : c.id = id
    · simp [hId]
    · simpa [hId] using h.files id
  latest := by
    rw [threadDir_write, if_pos rfl]
    simp [hAppends.id_eq]
  nodupIds := by
    rw [List.map_cons, hAppends.id_eq]
    exact List.nodup_cons.mpr ⟨hNew, h.nodupIds⟩
  chained := ⟨hAppends.chained, h.chained⟩
  depth suffix hSuffix := by
    rcases List.suffix_cons_iff.mp hSuffix with rfl | hOlder
    · exact hAppends.chainLen_eq ▸ hAppends.chainLen_le
    · exact h.depth suffix hOlder
  plain r hR := by
    rcases List.mem_cons.mp hR with rfl | hOlder
    · exact hAppends.id_eq ▸ hPlain
    · exact h.plain r hOlder
  supported r hR := by
    rcases List.mem_cons.mp hR with rfl | hOlder
    · show encoding.checkpoint.header.formatVersion ≤ _
      rw [hAppends.header_eq]
      exact hFormat
    · exact h.supported r hOlder
  cached head hHead := by
    have hEq : (⟨c, encoding.chainLen⟩ : DeltaHead) = head := by
      simpa [write] using hHead
    subst hEq
    exact ⟨by simp [hAppends.id_eq], hAppends.chainLen_eq⟩

theorem contains_files_iff (h : Stored cfg store thread raws) (id : String) :
    (store.threadDir thread).files.contains id = true ↔ id ∈ raws.map Checkpoint.id := by
  rw [← mem_files_keys h, Std.ExtTreeMap.contains_iff_mem, Std.ExtTreeMap.mem_keys]

theorem putInternal_of_mem (h : Stored cfg store c.threadId raws)
    (hMem : c.id ∈ raws.map Checkpoint.id) (forceFull : Bool) :
    putInternal cfg store c forceFull = (.error (duplicateIdError c), store) := by
  rw [putInternal, if_pos ((contains_files_iff h c.id).mpr hMem)]

theorem putInternal_full_of_not_mem (h : Stored cfg store c.threadId raws)
    (hNew : c.id ∉ raws.map Checkpoint.id) :
    putInternal cfg store c true = (.ok (), store.write c (.full c)) := by
  rw [putInternal, if_neg (mt (contains_files_iff h c.id).mp hNew), if_pos rfl]

theorem put_of_not_mem (h : Stored cfg store c.threadId raws) (hNew : c.id ∉ raws.map Checkpoint.id)
    {head : Option DeltaHead} {warm : JsonFileCheckpointer}
    (hHead : headOf cfg store c.threadId = (.ok head, warm)) :
    put cfg store c = (.ok (), warm.write c (encodeDelta cfg.codec c head cfg.policy)) := by
  rw [put, putInternal, if_neg (mt (contains_files_iff h c.id).mp hNew), hHead]
  rfl

/-! ## The head of a thread -/

theorem Stored.cacheHead (h : Stored cfg store thread raws) {other : String}
    (hHead : other = thread → HeadFor raws head) :
    Stored cfg { store with heads := store.heads.insert other head } thread raws :=
  { h with
    cached := fun found hFound => by
      rw [Std.ExtTreeMap.getElem?_insert] at hFound
      split at hFound
      · next hEq =>
        cases hFound
        exact hHead (Std.LawfulEqCmp.eq_of_compare hEq)
      · exact h.cached found hFound }

/-- **`head_of`.** An empty thread has no head. Otherwise the head is the cached one, or what
the newest checkpoint reads as, which is then cached. -/
theorem headOf_of_stored (h : Stored cfg store thread raws) :
    (raws = [] ∧ headOf cfg store thread = (.ok none, store)) ∨
    ∃ head, HeadFor raws head ∧
      ((store.heads[thread]? = some head ∧ headOf cfg store thread = (.ok (some head), store)) ∨
       (store.heads[thread]? = none ∧ materialized raws = some head.checkpoint ∧
        headOf cfg store thread =
          (.ok (some head), { store with heads := store.heads.insert thread head }))) := by
  cases hCache : store.heads[thread]? with
  | some head =>
    exact .inr ⟨head, h.cached head hCache, .inl ⟨rfl, by simp [headOf, hCache]⟩⟩
  | none =>
    cases hRaws : raws with
    | nil =>
      subst hRaws
      exact .inl ⟨rfl, by simp [headOf, hCache, readLatestRaw_of_stored h]⟩
    | cons r older =>
      subst hRaws
      obtain ⟨m, hM, hId, -⟩ := exists_materialized h.chained
      refine .inr ⟨⟨m, linkDepth (r :: older)⟩, ⟨by simp [hId], rfl⟩, .inr ⟨rfl, hM, ?_⟩⟩
      have hLength := length_chainOf (List.cons_ne_nil r older) h.chained
      simp [headOf, hCache, readLatestRaw_of_stored h, loadChain_of_stored h (List.suffix_refl _),
        foldChain_chainOf h.chained hM, hLength]

end RustyRuntime
