import RustyRuntime.Checkpoint.FileInvariant
import RustyRuntime.Library.Run

/-!
# The file backend against the in-memory backend

Both backends are given the same operations: puts, forks, and restarts of the process that
holds the file backend's head cache. `Agrees` relates a thread's history in memory to the
raw history on disk and to the cached head.

A put keeps the relation when what is stored reads back as what was put (`PutExact`), and a
fork always does. After every run of such operations the two backends answer `get_latest`,
`list` and `get_by_id` alike (`backends_answer_alike`); a put that drops a channel of the
thread's head breaks it.
-/

namespace RustyRuntime

/-! ## The two stores in step -/

inductive StoreOp where
  | put (c : Checkpoint)
  | forkThread (src dst : String) (atCheckpointId : Option String)
  | restart

section

variable (cfg : FileConfig) (b : Backends)

def InMemoryCheckpointer.next (store : InMemoryCheckpointer) : StoreOp → InMemoryCheckpointer
  | .put c => (store.put c).2
  | .forkThread src dst atId => (store.forkThread src dst atId).2
  | .restart => store

def JsonFileCheckpointer.next (store : JsonFileCheckpointer) : StoreOp → JsonFileCheckpointer
  | .put c => (store.put cfg c).2
  | .forkThread src dst atId => (store.forkThread cfg src dst atId).2
  | .restart => store.restart

structure Backends where
  memory : InMemoryCheckpointer
  file : JsonFileCheckpointer

namespace Backends

def new : Backends := ⟨.new, .new⟩

def next (cfg : FileConfig) (b : Backends) (op : StoreOp) : Backends :=
  ⟨b.memory.next op, b.file.next cfg op⟩

end Backends

structure PutExact (cfg : FileConfig) (file : JsonFileCheckpointer) (c : Checkpoint) : Prop where
  base : c.base = none
  plain : PlainId c.id
  format : SupportedFormat c
  keeps : ∀ head, (file.headOf cfg c.threadId).1 = .ok (some head) →
    storesFull cfg.codec c head cfg.policy = true ∨
      ∀ channel, head.checkpoint.state.contains channel → c.state.contains channel

def Allowed : StoreOp → Prop
  | .put c =>
    c.id ∈ (b.memory.history c.threadId).checkpoints.map Checkpoint.id ∨ PutExact cfg b.file c
  | .forkThread _ _ _ => True
  | .restart => True

/-! ## The relation -/

/-- One thread of the two stores: the history in memory is the history on disk as it is read,
and a cached head is the newest checkpoint. -/
structure AgreesAt (cfg : FileConfig) (b : Backends) (thread : String)
    (raws : List Checkpoint) : Prop where
  stored : Stored cfg b.file thread raws
  history : (b.memory.history thread).checkpoints = (views raws).reverse
  head : ∀ head, b.file.heads[thread]? = some head → materialized raws = some head.checkpoint

def Agrees : Prop := ∀ thread, ∃ raws, AgreesAt cfg b thread raws

theorem agrees_new : Agrees cfg .new := fun thread =>
  ⟨[], stored_new cfg thread,
    by simp [Backends.new, InMemoryCheckpointer.new, InMemoryCheckpointer.history, History.empty,
      views],
    by simp [Backends.new, JsonFileCheckpointer.new]⟩

end

variable {cfg : FileConfig} {b : Backends} {thread : String} {raws : List Checkpoint}
  {store : InMemoryCheckpointer} {c : Checkpoint} {head : DeltaHead}

theorem agrees_restart (h : Agrees cfg b) : Agrees cfg (b.next cfg .restart) := by
  intro thread
  obtain ⟨raws, hAt⟩ := h thread
  exact ⟨raws, hAt.stored.restart, hAt.history,
    by simp [Backends.next, JsonFileCheckpointer.next, JsonFileCheckpointer.restart]⟩

theorem AgreesAt.mem_ids (h : AgreesAt cfg b thread raws) {id : String} :
    id ∈ (b.memory.history thread).checkpoints.map Checkpoint.id ↔
      id ∈ raws.map Checkpoint.id := by
  rw [h.history, List.map_reverse, List.mem_reverse, map_id_views h.stored.chained]

/-! ## The in-memory put -/

theorem InMemoryCheckpointer.put_of_mem
    (h : c.id ∈ (store.history c.threadId).checkpoints.map Checkpoint.id) :
    (store.put c).1 = .error (duplicateIdError c) ∧
      ∀ thread, (store.put c).2.history thread = store.history thread := by
  have hPut : store.put c = (.error (duplicateIdError c),
      ⟨store.inner.insert c.threadId (store.history c.threadId)⟩) := by
    simp only [put]
    rw [dif_neg (not_not.mpr h)]
  rw [hPut]
  refine ⟨rfl, fun thread => ?_⟩
  by_cases hThread : c.threadId = thread
  · subst hThread
    simp [history]
  · simp [history, Std.ExtTreeMap.getElem?_insert, hThread]

theorem InMemoryCheckpointer.put_of_not_mem
    (h : c.id ∉ (store.history c.threadId).checkpoints.map Checkpoint.id) :
    (store.put c).1 = .ok () ∧ ∀ thread, ((store.put c).2.history thread).checkpoints =
      if c.threadId = thread then (store.history thread).checkpoints ++ [c]
      else (store.history thread).checkpoints := by
  have hPut : store.put c = (.ok (),
      ⟨store.inner.insert c.threadId ((store.history c.threadId).push c h)⟩) := by
    simp only [put]
    rw [dif_pos h]
  rw [hPut]
  refine ⟨rfl, fun thread => ?_⟩
  by_cases hThread : c.threadId = thread
  · subst hThread
    simp [history, History.push]
  · simp [history, Std.ExtTreeMap.getElem?_insert, hThread]

/-! ## One write -/

theorem agrees_write {encoding : DeltaEncoding} (h : Agrees cfg b)
    (hAt : AgreesAt cfg b c.threadId raws) (hNew : c.id ∉ raws.map Checkpoint.id)
    (hPlain : PlainId c.id) (hFormat : SupportedFormat c) (hAppends : Appends cfg raws c encoding)
    (hRead : materialized (encoding.checkpoint :: raws) = some c) :
    Agrees cfg ⟨(b.memory.put c).2, b.file.write c encoding⟩ := by
  obtain ⟨-, hHistory⟩ := InMemoryCheckpointer.put_of_not_mem (mt hAt.mem_ids.mp hNew)
  intro thread
  by_cases hThread : c.threadId = thread
  · subst hThread
    refine ⟨encoding.checkpoint :: raws, stored_write hAt.stored hNew hPlain hFormat hAppends, ?_, ?_⟩
    · rw [hHistory, if_pos rfl, hAt.history, views_cons hRead, List.reverse_cons]
    · intro head hHead
      have hEq : (⟨c, encoding.chainLen⟩ : DeltaHead) = head := by
        simpa [JsonFileCheckpointer.write] using hHead
      rw [← hEq, hRead]
  · obtain ⟨others, hOther⟩ := h thread
    refine ⟨others, stored_write_of_ne hOther.stored encoding hThread, ?_, ?_⟩
    · rw [hHistory, if_neg hThread, hOther.history]
    · intro head hHead
      refine hOther.head head ?_
      rw [← hHead]
      simp [JsonFileCheckpointer.write, Std.ExtTreeMap.getElem?_insert, hThread]

theorem agrees_of_history_eq {memory : InMemoryCheckpointer} (h : Agrees cfg b)
    (hHistory : ∀ thread, memory.history thread = b.memory.history thread) :
    Agrees cfg ⟨memory, b.file⟩ := by
  intro thread
  obtain ⟨raws, hAt⟩ := h thread
  exact ⟨raws, hAt.stored, by rw [hHistory]; exact hAt.history, hAt.head⟩

theorem agrees_cacheHead (h : Agrees cfg b) (hAt : AgreesAt cfg b thread raws)
    (hHead : HeadFor raws head) (hRead : materialized raws = some head.checkpoint) :
    let warm : Backends := ⟨b.memory, { b.file with heads := b.file.heads.insert thread head }⟩
    Agrees cfg warm ∧ AgreesAt cfg warm thread raws := by
  have hCached (other : String) (others : List Checkpoint) (hOther : AgreesAt cfg b other others)
      (hSame : thread = other → others = raws) :
      AgreesAt cfg ⟨b.memory, { b.file with heads := b.file.heads.insert thread head }⟩ other
        others := by
    refine ⟨hOther.stored.cacheHead fun hEq => hSame hEq ▸ hHead, hOther.history, ?_⟩
    intro found hFound
    simp only [Std.ExtTreeMap.getElem?_insert] at hFound
    split at hFound
    · next hEq =>
      cases hFound
      rw [hSame (Std.LawfulEqCmp.eq_of_compare hEq), hRead]
    · exact hOther.head found hFound
  refine ⟨fun other => ?_, hCached thread raws hAt fun _ => rfl⟩
  by_cases hThread : thread = other
  · subst hThread
    exact ⟨raws, hCached thread raws hAt fun _ => rfl⟩
  · obtain ⟨others, hOther⟩ := h other
    exact ⟨others, hCached other others hOther fun hEq => absurd hEq hThread⟩

theorem materialized_encodeDelta (hBase : c.base = none)
    (hRead : materialized raws = some head.checkpoint)
    (hKeeps : storesFull cfg.codec c head cfg.policy = true ∨
      ∀ channel, head.checkpoint.state.contains channel → c.state.contains channel) :
    materialized ((encodeDelta cfg.codec c (some head) cfg.policy).checkpoint :: raws) =
      some c := by
  cases hFull : storesFull cfg.codec c head cfg.policy with
  | true =>
    rw [encodeDelta_of_storesFull hFull, (full_checkpoint_eq_iff c).mpr hBase]
    exact materialized_of_full hBase
  | false =>
    rw [encodeDelta_of_not_storesFull hFull]
    have hKept := hKeeps.resolve_left (by simp [hFull])
    have hLink : (deltaLink c head).base = some head.checkpoint.id := rfl
    rw [materialized_of_link hLink, hRead, Option.map_some,
      (foldDelta_deltaLink_eq_iff c head).mpr ⟨hBase, hKept⟩]

/-! ## Reading -/

/-- A checkpoint a fork may copy. -/
def Copyable (c : Checkpoint) : Prop := c.base = none ∧ PlainId c.id ∧ SupportedFormat c

theorem AgreesAt.list_eq (h : AgreesAt cfg b thread raws) :
    b.memory.list thread = .ok (sortHistory (views raws)) ∧
      b.file.list cfg thread = .ok (sortHistory (views raws)) := by
  refine ⟨?_, list_of_stored h.stored⟩
  have hSort : sortHistory (views raws) = sortHistory (views raws).reverse :=
    Library.sortByKey_eq_of_perm (Checkpoint.injOn_listKey (nodup_ids_views h.stored))
      (List.reverse_perm _).symm
  rw [InMemoryCheckpointer.list, h.history, hSort]

theorem AgreesAt.getLatest_eq (h : AgreesAt cfg b thread raws) :
    b.memory.getLatest thread = b.file.getLatest cfg thread := by
  rw [getLatest_of_stored h.stored, InMemoryCheckpointer.getLatest, h.history,
    List.getLast?_reverse]

theorem AgreesAt.getById_eq (h : AgreesAt cfg b thread raws) (id : String) :
    b.memory.getById thread id = b.file.getById cfg thread id := by
  rw [getById_of_stored h.stored, InMemoryCheckpointer.getById, h.list_eq.1]
  rfl

theorem copyable_of_mem_views {store : JsonFileCheckpointer} (h : Stored cfg store thread raws)
    (hC : c ∈ views raws) : Copyable c := by
  obtain ⟨hBase, r, hR, hId, hHeader⟩ := exists_raw_of_mem_views h.chained hC
  refine ⟨hBase, hId ▸ h.plain r hR, ?_⟩
  show c.header.formatVersion ≤ _
  rw [hHeader]
  exact h.supported r hR

/-! ## The operations -/

theorem agrees_put (h : Agrees cfg b) (hAllowed : Allowed cfg b (.put c)) :
    Agrees cfg (b.next cfg (.put c)) := by
  obtain ⟨raws, hAt⟩ := h c.threadId
  by_cases hMem : c.id ∈ raws.map Checkpoint.id
  · have hFile : b.file.put cfg c = (.error (duplicateIdError c), b.file) :=
      putInternal_of_mem hAt.stored hMem false
    obtain ⟨-, hHistory⟩ := InMemoryCheckpointer.put_of_mem (hAt.mem_ids.mpr hMem)
    simp only [Backends.next, InMemoryCheckpointer.next, JsonFileCheckpointer.next, hFile]
    exact agrees_of_history_eq h hHistory
  · have hExact : PutExact cfg b.file c :=
      hAllowed.resolve_left fun hIn => hMem (hAt.mem_ids.mp hIn)
    rcases headOf_of_stored hAt.stored with ⟨rfl, hHead⟩ | ⟨head, hFor, hCache⟩
    · simp only [Backends.next, InMemoryCheckpointer.next, JsonFileCheckpointer.next,
        put_of_not_mem hAt.stored hMem hHead, encodeDelta_none]
      refine agrees_write h hAt hMem hExact.plain hExact.format (appends_full cfg [] c) ?_
      rw [(full_checkpoint_eq_iff c).mpr hExact.base]
      exact materialized_of_full hExact.base
    · rcases hCache with ⟨hWarm, hHead⟩ | ⟨-, hRead, hHead⟩
      · have hRead := hAt.head head hWarm
        have hKeeps := hExact.keeps head (by rw [hHead])
        simp only [Backends.next, InMemoryCheckpointer.next, JsonFileCheckpointer.next,
          put_of_not_mem hAt.stored hMem hHead]
        exact agrees_write h hAt hMem hExact.plain hExact.format
          (appends_encodeDelta cfg c hFor) (materialized_encodeDelta hExact.base hRead hKeeps)
      · have hKeeps := hExact.keeps head (by rw [hHead])
        obtain ⟨hAll, hWarm⟩ := agrees_cacheHead h hAt hFor hRead
        simp only [Backends.next, InMemoryCheckpointer.next, JsonFileCheckpointer.next,
          put_of_not_mem hAt.stored hMem hHead]
        exact agrees_write hAll hWarm hMem hExact.plain hExact.format
          (appends_encodeDelta cfg c hFor) (materialized_encodeDelta hExact.base hRead hKeeps)

theorem agrees_putFull (h : Agrees cfg b) (hCopy : Copyable c) :
    (b.memory.put c).1 = (b.file.putInternal cfg { c with base := none } true).1 ∧
      Agrees cfg
        ⟨(b.memory.put c).2, (b.file.putInternal cfg { c with base := none } true).2⟩ := by
  obtain ⟨hBase, hPlain, hFormat⟩ := hCopy
  have hSame : { c with base := none } = c := (full_checkpoint_eq_iff c).mpr hBase
  rw [hSame]
  obtain ⟨raws, hAt⟩ := h c.threadId
  by_cases hMem : c.id ∈ raws.map Checkpoint.id
  · obtain ⟨hResult, hHistory⟩ := InMemoryCheckpointer.put_of_mem (hAt.mem_ids.mpr hMem)
    rw [putInternal_of_mem hAt.stored hMem, hResult]
    exact ⟨rfl, agrees_of_history_eq h hHistory⟩
  · obtain ⟨hResult, -⟩ := InMemoryCheckpointer.put_of_not_mem (mt hAt.mem_ids.mp hMem)
    rw [putInternal_full_of_not_mem hAt.stored hMem, hResult]
    refine ⟨rfl, agrees_write h hAt hMem hPlain hFormat (appends_full cfg raws c) ?_⟩
    rw [(full_checkpoint_eq_iff c).mpr hBase]
    exact materialized_of_full hBase

theorem agrees_putAll (copies : List Checkpoint) (hCopies : ∀ c ∈ copies, Copyable c)
    (h : Agrees cfg b) :
    let memory := putAll InMemoryCheckpointer.put b.memory copies
    let file := putAll (fun store c => store.putInternal cfg { c with base := none } true) b.file
      copies
    memory.1 = file.1 ∧ Agrees cfg ⟨memory.2, file.2⟩ := by
  induction copies generalizing b with
  | nil => exact ⟨rfl, h⟩
  | cons c rest ih =>
    obtain ⟨hResult, hAgrees⟩ := agrees_putFull h (hCopies c List.mem_cons_self)
    simp only [putAll]
    cases hMemory : b.memory.put c with
    | mk result memory =>
      cases hFile : b.file.putInternal cfg { c with base := none } true with
      | mk result' file =>
        rw [hMemory, hFile] at hResult hAgrees
        have hEq : result = result' := hResult
        subst hEq
        cases result with
        | error e => exact ⟨rfl, hAgrees⟩
        | ok _ => exact ih (fun x hx => hCopies x (List.mem_cons_of_mem _ hx)) hAgrees

theorem agrees_forkThread (h : Agrees cfg b) (src dst : String) (atId : Option String) :
    Agrees cfg (b.next cfg (.forkThread src dst atId)) := by
  obtain ⟨raws, hAt⟩ := h src
  obtain ⟨hMemory, hFile⟩ := hAt.list_eq
  simp only [Backends.next, InMemoryCheckpointer.next, JsonFileCheckpointer.next,
    InMemoryCheckpointer.forkThread, JsonFileCheckpointer.forkThread, forkThreadWith, hMemory, hFile]
  cases hSelect : forkSelection src dst (.ok (sortHistory (views raws))) atId with
  | error e => exact h
  | ok selected =>
    obtain ⟨-, -, hSelected⟩ := forkSelection_eq_ok hSelect
    have hCopies : ∀ c ∈ selected.map (·.onThread dst), Copyable c := by
      intro c hC
      obtain ⟨original, hIn, rfl⟩ := List.mem_map.mp hC
      have hView : original ∈ views raws :=
        (Library.mem_sortByKey _).mp (mem_of_mem_selectHistory hSelected hIn)
      have hCopy : Copyable original := copyable_of_mem_views hAt.stored hView
      exact hCopy
    exact (agrees_putAll _ hCopies h).2

theorem agrees_next (b : Backends) (op : StoreOp) (h : Agrees cfg b) (hAllowed : Allowed cfg b op) :
    Agrees cfg (b.next cfg op) := by
  cases op with
  | put c => exact agrees_put h hAllowed
  | forkThread src dst atId => exact agrees_forkThread h src dst atId
  | restart => exact agrees_restart h

/-! ## Every run -/

/-- **The backends answer alike.** After every sequence of puts, forks and restarts in which
each put of a new id is a full snapshot with a plain id in a supported format that is stored
in full or keeps the channels of the thread's head, the file backend gives the answers of the
in-memory backend, for every thread and id. -/
theorem backends_answer_alike (cfg : FileConfig) (ops : List StoreOp)
    (hOps : Library.Admissible (Backends.next cfg) (Allowed cfg) .new ops) (thread id : String) :
    let b := Library.run (Backends.next cfg) .new ops
    b.file.getLatest cfg thread = b.memory.getLatest thread ∧
      b.file.getById cfg thread id = b.memory.getById thread id ∧
      b.file.list cfg thread = b.memory.list thread := by
  have hAgrees := Library.run_invariant agrees_next (agrees_new cfg) hOps
  obtain ⟨raws, hAt⟩ := hAgrees thread
  exact ⟨hAt.getLatest_eq.symm, (hAt.getById_eq id).symm, hAt.list_eq.2.trans hAt.list_eq.1.symm⟩

/-- The default backend, with the compact writer for its byte measure. -/
def sampleConfig : FileConfig := ⟨"checkpoints", {}, writerCodec⟩

/-- The first checkpoint of a run on thread `t`. -/
def sampleFirst : Checkpoint :=
  { id := "c0", threadId := "t", step := 3
    state := .fromSharedChannels [("kept", .str "x"), ("gone", .bool true)]
    nextNodes := [], createdAt := 0 }

/-- A later checkpoint of the thread with both channels. -/
def sampleSecond : Checkpoint :=
  { sampleFirst with id := "c1", step := 4, createdAt := 1 }

/-- A checkpoint of a fresh run on the thread, which never wrote `gone`. -/
def sampleFresh : Checkpoint :=
  { id := "c1", threadId := "t", step := 0, state := .fromSharedChannels [("kept", .str "x")]
    nextNodes := [], createdAt := 1 }

theorem admissible_samplePuts :
    Library.Admissible (Backends.next sampleConfig) (Allowed sampleConfig) .new
      [.put sampleFirst, .restart, .put sampleSecond] := by
  refine ⟨.inr ⟨rfl, by decide, by decide, ?_⟩, trivial,
    .inr ⟨rfl, by decide, by decide, ?_⟩, trivial⟩
  · intro head hHead
    cases hHead
  · intro head hHead
    have hCold : ((Library.run (Backends.next sampleConfig) .new [.put sampleFirst, .restart]).file.headOf
        sampleConfig "t").1 = .ok (some ⟨sampleFirst, 0⟩) := by decide
    cases hCold.symm.trans hHead
    exact .inr fun channel hIn => hIn

/-- A cold second put stored as a delta: both backends answer with the second checkpoint. -/
theorem backends_answer_alike_second :
    let b := Library.run (Backends.next sampleConfig) .new
      [.put sampleFirst, .restart, .put sampleSecond]
    b.memory.getLatest "t" = .ok (some sampleSecond) ∧
      b.file.getLatest sampleConfig "t" = .ok (some sampleSecond) := by
  have hAlike := backends_answer_alike sampleConfig _ admissible_samplePuts "t" "c1"
  have hMemory : (Library.run (Backends.next sampleConfig) .new
      [.put sampleFirst, .restart, .put sampleSecond]).memory.getLatest "t" =
      .ok (some sampleSecond) := by decide
  exact ⟨hMemory, hAlike.1.trans hMemory⟩

/-- The put of a fresh run on the same thread: the file backend brings `gone` back. -/
theorem backends_differ_on_dropped_channel :
    let b := Library.run (Backends.next sampleConfig) .new [.put sampleFirst, .put sampleFresh]
    b.memory.getLatest "t" = .ok (some sampleFresh) ∧
      b.file.getLatest sampleConfig "t" =
        .ok (some { sampleFresh with state := sampleFirst.state }) ∧
      b.file.getLatest sampleConfig "t" ≠ b.memory.getLatest "t" := by
  decide

end RustyRuntime
