import RustyRuntime.Checkpoint.Refinement

/-!
# The length of chains

A put counts the links below the head it builds on. The count comes from the head cache or, after a
restart, from the chain as it is loaded. **Whatever is put, forked and restarted under one policy,
no stored checkpoint has more than `max_chain_len` links below it**, so that the only checkpoints
`load_chain` refuses are those with a record of a newer format (`chains_bounded`).

Ids are arbitrary here. One with blanks around it makes the `latest` pointer name another file, or
none, and then the next put builds on an older head; its chain is counted all the same.
-/

namespace RustyRuntime

open JsonFileCheckpointer

variable {cfg : FileConfig} {store : JsonFileCheckpointer} {thread id : String} {c : Checkpoint}

theorem BaseChain.mono {find find' : String → Option Checkpoint} {chain : List Checkpoint}
    (hFind : ∀ id c, find id = some c → find' id = some c) (h : BaseChain find id chain) :
    BaseChain find' id chain := by
  induction h with
  | full hFound hBase => exact .full (hFind _ _ hFound) hBase
  | link hFound hBase _ ih => exact .link (hFind _ _ hFound) hBase ih

/-- The head is a stored checkpoint, with the links that it counts. -/
def Counts (store : JsonFileCheckpointer) (thread : String) (head : DeltaHead) : Prop :=
  ∃ chain, BaseChain (store.record thread) head.checkpoint.id chain ∧
    chain.length = head.chainLen + 1

structure Bounded (cfg : FileConfig) (store : JsonFileCheckpointer) : Prop where
  ids : ∀ thread, FindsById (store.record thread)
  chains : ∀ thread id c, store.record thread id = some c → ∃ chain,
    BaseChain (store.record thread) id chain ∧ chain.length ≤ cfg.policy.maxChainLen.toNat + 1
  heads : ∀ thread head, store.heads[thread]? = some head → Counts store thread head

/-! ## Reading the head -/

theorem record_of_readCheckpoint (h : readCheckpoint cfg store thread id = .ok c) :
    store.record thread id = some c := by
  simp only [readCheckpoint] at h
  unfold record
  split at h
  · cases h
  · cases h
  · next own hFile =>
    split at h
    · cases h
    · rw [hFile, Except.ok.inj h]

namespace Bounded

variable (h : Bounded cfg store)

include h

theorem record_of_scan {ids : List String} {found all : List Checkpoint}
    (hFound : ∀ c ∈ found, store.record thread c.id = some c)
    (hScan : ids.foldlM (scanEntry cfg store thread) found = .ok all) :
    ∀ c ∈ all, store.record thread c.id = some c := by
  induction ids generalizing found with
  | nil =>
    cases hScan
    exact hFound
  | cons id rest ih =>
    rw [List.foldlM_cons] at hScan
    obtain ⟨next, hEntry, hRest⟩ := bind_eq_ok.mp hScan
    refine ih ?_ hRest
    unfold scanEntry at hEntry
    split at hEntry
    · next c hRead =>
      cases hEntry
      have hRecord := record_of_readCheckpoint hRead
      refine List.forall_mem_append.mpr ⟨hFound, List.forall_mem_singleton.mpr ?_⟩
      rwa [h.ids thread _ _ hRecord]
    · cases hEntry
    · cases hEntry
      exact hFound

theorem record_of_readLatestRaw (hRead : readLatestRaw cfg store thread = .ok (some c)) :
    store.record thread c.id = some c := by
  have hFallback (hScan : (scanThreadRaw cfg store thread).map newest = .ok (some c)) :
      store.record thread c.id = some c := by
    cases hRaw : scanThreadRaw cfg store thread with
    | error e =>
      rw [hRaw] at hScan
      cases hScan
    | ok all =>
      rw [hRaw] at hScan
      refine h.record_of_scan (by simp) hRaw c ?_
      exact (Library.mem_sortByKey _).mp (List.mem_of_getLast? (Except.ok.inj hScan))
  unfold readLatestRaw at hRead
  split at hRead
  · exact hFallback hRead
  split at hRead
  · exact hFallback hRead
  split at hRead
  · next raw hPointer =>
    cases hRead
    have hRecord := record_of_readCheckpoint hPointer
    rwa [h.ids thread _ _ hRecord]
  · cases hRead
  · exact hFallback hRead

theorem headOf {result : Result (Option DeltaHead)} {warm : JsonFileCheckpointer}
    (hHead : headOf cfg store thread = (result, warm)) :
    Bounded cfg warm ∧ warm.record = store.record ∧ ∀ head, result = .ok (some head) →
      Counts warm thread head := by
  unfold JsonFileCheckpointer.headOf at hHead
  split at hHead
  · next cached hCached =>
    cases hHead
    refine ⟨h, rfl, ?_⟩
    rintro head ⟨⟩
    exact h.heads thread _ hCached
  split at hHead
  · cases hHead
    exact ⟨h, rfl, nofun⟩
  · cases hHead
    exact ⟨h, rfl, nofun⟩
  next raw hRaw =>
  split at hHead
  · cases hHead
    exact ⟨h, rfl, nofun⟩
  next chain hLoad =>
  split at hHead
  · cases hHead
    exact ⟨h, rfl, nofun⟩
  next checkpoint hFold =>
  cases hHead
  have hRecord := h.record_of_readLatestRaw hRaw
  obtain ⟨own, hOwn, hLength⟩ := h.chains thread _ _ hRecord
  have hCounts : Counts store thread ⟨checkpoint, chain.length - 1⟩ := by
    rcases loadChain_spec (h.ids thread) hOwn hRecord hLength with hOk | ⟨r, -, e, -, hErr⟩
    · cases hLoad.symm.trans hOk
      have hId := Reads.id_eq (h.ids thread) ⟨chain, hOwn, hFold⟩
      obtain ⟨r, hIn, -⟩ := hOwn.exists_record
      exact ⟨chain, hId ▸ hOwn, (Nat.sub_add_cancel (List.length_pos_of_mem hIn)).symm⟩
    · cases hLoad.symm.trans hErr
  refine ⟨⟨h.ids, h.chains, fun other found hFound => ?_⟩, rfl, ?_⟩
  · rw [Std.ExtTreeMap.getElem?_insert] at hFound
    split at hFound
    · next hSame =>
      cases hFound
      exact Std.LawfulEqCmp.eq_of_compare hSame ▸ hCounts
    · exact h.heads other found hFound
  · rintro found ⟨⟩
    exact hCounts

/-! ## Writing -/

omit h in
theorem record_write (store : JsonFileCheckpointer) (c : Checkpoint) (encoding : DeltaEncoding)
    (thread id : String) :
    (store.write c encoding).record thread id =
      if c.threadId = thread ∧ c.id = id then some encoding.checkpoint
      else store.record thread id := by
  unfold record
  rw [threadDir_write]
  by_cases hThread : c.threadId = thread
  · subst hThread
    by_cases hId : c.id = id
    · simp [hId]
    · simp [hId, Std.ExtTreeMap.getElem?_insert]
  · simp [hThread]

section

variable (hNew : store.record c.threadId c.id = none)
include hNew

omit h in
theorem record_write_of_some {encoding : DeltaEncoding} {r : Checkpoint}
    (hR : store.record thread id = some r) :
    (store.write c encoding).record thread id = some r := by
  rw [record_write, if_neg]
  · exact hR
  · rintro ⟨rfl, rfl⟩
    cases hNew.symm.trans hR

theorem write {encoding : DeltaEncoding} (hId : encoding.checkpoint.id = c.id)
    (hLe : encoding.chainLen ≤ cfg.policy.maxChainLen.toNat)
    (hCounts : Counts (store.write c encoding) c.threadId ⟨c, encoding.chainLen⟩) :
    Bounded cfg (store.write c encoding) := by
  refine ⟨fun thread id r hR => ?_, fun thread id r hR => ?_, fun thread head hHead => ?_⟩
  · rw [record_write] at hR
    split at hR
    · next hOwn => rw [← Option.some.inj hR, hId, hOwn.2]
    · exact h.ids thread id r hR
  · rw [record_write] at hR
    split at hR
    · next hOwn =>
      obtain ⟨rfl, rfl⟩ := hOwn
      obtain ⟨chain, hChain, hLength⟩ := hCounts
      exact ⟨chain, hChain, by simp only [hLength]; omega⟩
    · obtain ⟨chain, hChain, hLength⟩ := h.chains thread id r hR
      exact ⟨chain, hChain.mono fun _ _ => record_write_of_some hNew, hLength⟩
  · simp only [JsonFileCheckpointer.write, Std.ExtTreeMap.getElem?_insert] at hHead
    split at hHead
    · next hSame =>
      cases hHead
      exact Std.LawfulEqCmp.eq_of_compare hSame ▸ hCounts
    · obtain ⟨chain, hChain, hLength⟩ := h.heads thread head hHead
      exact ⟨chain, hChain.mono fun _ _ => record_write_of_some hNew, hLength⟩

theorem writeFull : Bounded cfg (store.write c (.full c)) := by
  refine h.write hNew rfl (Nat.zero_le _) ⟨[{ c with base := none }], .full ?_ rfl, rfl⟩
  rw [record_write, if_pos ⟨rfl, rfl⟩]
  rfl

theorem writeDelta {head : DeltaHead} (hHead : Counts store c.threadId head) :
    Bounded cfg (store.write c (encodeDelta cfg.codec c (some head) cfg.policy)) := by
  cases hFull : storesFull cfg.codec c head cfg.policy with
  | true =>
    rw [encodeDelta_of_storesFull hFull]
    exact h.writeFull hNew
  | false =>
    rw [encodeDelta_of_not_storesFull hFull]
    obtain ⟨chain, hChain, hLength⟩ := hHead
    have hOwn : (store.write c ⟨deltaLink c head, head.chainLen + 1⟩).record c.threadId c.id =
        some (deltaLink c head) := by
      rw [record_write, if_pos ⟨rfl, rfl⟩]
    exact h.write hNew rfl (chainLen_lt_of_not_storesFull hFull)
      ⟨_, .link hOwn rfl (hChain.mono fun _ _ => record_write_of_some hNew), by simp [hLength]⟩

end

theorem putInternal (c : Checkpoint) (forceFull : Bool) :
    Bounded cfg (putInternal cfg store c forceFull).2 := by
  unfold JsonFileCheckpointer.putInternal
  split
  · exact h
  next hFiles =>
  have hNew : store.record c.threadId c.id = none := by
    rw [Std.ExtTreeMap.contains_eq_isSome_getElem?, Bool.not_eq_true,
      Option.isSome_eq_false_iff, Option.isNone_iff_eq_none] at hFiles
    simp [record, hFiles]
  split
  · exact h.writeFull hNew
  split
  · next hHead => exact (h.headOf hHead).1
  · next head warm hHead =>
    obtain ⟨hWarm, hSame, hCounts⟩ := h.headOf hHead
    rw [← hSame] at hNew
    cases head with
    | none => exact hWarm.writeFull hNew
    | some head => exact hWarm.writeDelta hNew (hCounts head rfl)

theorem next (op : StoreOp) : Bounded cfg (store.next cfg op) := by
  cases op with
  | put c => exact h.putInternal c false
  | restart => exact ⟨h.ids, h.chains, by simp [JsonFileCheckpointer.next, restart]⟩
  | forkThread src dst atId =>
    show Bounded cfg (forkThread cfg store src dst atId).2
    unfold forkThread forkThreadWith
    split
    · exact h
    · next selected hSelected =>
      clear hSelected
      generalize selected.map (·.onThread dst) = copies
      dsimp only
      induction copies generalizing store with
      | nil => exact h
      | cons c rest ih =>
        have hPut := h.putInternal { c with base := none } true
        unfold putAll
        split
        · next hFail => rwa [hFail] at hPut
        · next hDone =>
          rw [hDone] at hPut
          exact ih hPut

end Bounded

/-- **Chains stay short.** -/
theorem chains_bounded (cfg : FileConfig) (ops : List StoreOp) (thread id : String)
    (c : Checkpoint) :
    let store := Library.run (JsonFileCheckpointer.next cfg) .new ops
    store.record thread id = some c → ∃ chain,
      BaseChain (store.record thread) id chain ∧
        chain.length ≤ cfg.policy.maxChainLen.toNat + 1 ∧
        (loadChain cfg store thread c = .ok chain ∨
          ∃ r ∈ chain, ∃ e, readCheckpoint cfg store thread r.id = .error (.unsupported e) ∧
            loadChain cfg store thread c = .error e) := by
  intro store hRecord
  have h : Bounded cfg store := List.foldlRecOn ops _
    ⟨by simp [FindsById, record, JsonFileCheckpointer.new, threadDir],
      by simp [record, JsonFileCheckpointer.new, threadDir], by simp [JsonFileCheckpointer.new]⟩
    fun _ h op _ => h.next op
  obtain ⟨chain, hChain, hLength⟩ := h.chains thread id c hRecord
  have hId := h.ids thread id c hRecord
  subst hId
  exact ⟨chain, hChain, hLength, loadChain_spec (h.ids thread) hChain hRecord hLength⟩

/-- The delta that a cold put stores. -/
theorem chains_bounded_second :
    let store := Library.run (JsonFileCheckpointer.next sampleConfig) .new
      [.put sampleFirst, .restart, .put sampleSecond]
    ∃ chain, BaseChain (store.record "t") "c1" chain ∧ chain.length ≤ 33 := by
  obtain ⟨chain, hChain, hLength, -⟩ := chains_bounded sampleConfig
    [.put sampleFirst, .restart, .put sampleSecond] "t" "c1"
    (deltaLink sampleSecond ⟨sampleFirst, 0⟩) (by decide)
  exact ⟨chain, hChain, hLength⟩

end RustyRuntime
