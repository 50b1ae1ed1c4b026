import RustyRuntime.Checkpoint.Refinement

/-!
# Forking a thread

A fork copies the listing of its source, so the destination's latest checkpoint is the one
with the greatest `(step, created_at, id)`, while the source's latest is the one put last.

`HistoryStore` is what the argument needs of a backend: it stands for one history per thread
in insertion order, answers `get_latest` and `list` from it, and a successful put of a copy
appends. Both backends are one (`memoryStore`, `fileStore`), the second over what its
directories read as, which every run of plain puts keeps well formed (`wellFormed_run`).
-/

namespace RustyRuntime

/-! ## Stores that stand for histories -/

/-- A backend that stands for one history per thread, in insertion order. -/
structure HistoryStore (σ : Type) where
  list : σ → String → Result (List Checkpoint)
  getLatest : σ → String → Result (Option Checkpoint)
  /-- The put a fork makes. -/
  copy : σ → Checkpoint → Result Unit × σ
  /-- The store stands for these histories. -/
  StandsFor : σ → (String → List Checkpoint) → Prop
  /-- The checkpoints a fork may copy, on whatever thread. -/
  Valid : Checkpoint → Prop
  nodupIds : ∀ {s H}, StandsFor s H → ∀ thread, ((H thread).map Checkpoint.id).Nodup
  valid_of_mem : ∀ {s H}, StandsFor s H → ∀ thread, ∀ c ∈ H thread, Valid c
  valid_onThread : ∀ {c}, Valid c → ∀ thread, Valid (c.onThread thread)
  list_eq : ∀ {s H}, StandsFor s H → ∀ thread, list s thread = .ok (sortHistory (H thread))
  getLatest_eq : ∀ {s H}, StandsFor s H → ∀ thread, getLatest s thread = .ok (H thread).getLast?
  copy_ok : ∀ {s H c s'}, StandsFor s H → Valid c → copy s c = (.ok (), s') →
    StandsFor s' (Function.update H c.threadId (H c.threadId ++ [c]))

namespace HistoryStore

variable {σ : Type} (S : HistoryStore σ)

def forkThread (s : σ) (src dst : String) : Result Nat × σ :=
  forkThreadWith S.list S.copy s src dst none

/-- The destination's latest checkpoint is the source's apart from the thread id, and the
source's history is as it was. -/
def ForkKeepsLatest (s s' : σ) (src dst : String) : Prop :=
  S.getLatest s' dst = (S.getLatest s src).map (Option.map (·.onThread dst)) ∧
    S.getLatest s' src = S.getLatest s src ∧ S.list s' src = S.list s src

def LatestIsGreatest (s : σ) (thread : String) : Prop :=
  ∃ latest all, S.getLatest s thread = .ok (some latest) ∧ S.list s thread = .ok all ∧
    ∀ c ∈ all, c.listKey ≤ latest.listKey

variable {S}

variable {dst src : String} {s s' : σ} {H : String → List Checkpoint}

theorem standsFor_putAll (copies : List Checkpoint) (hThread : ∀ c ∈ copies, c.threadId = dst)
    (hValid : ∀ c ∈ copies, S.Valid c) (h : S.StandsFor s H)
    (hPut : putAll S.copy s copies = (.ok (), s')) :
    S.StandsFor s' (Function.update H dst (H dst ++ copies)) := by
  induction copies generalizing s H with
  | nil =>
    cases hPut
    rwa [List.append_nil, Function.update_eq_self]
  | cons c rest ih =>
    obtain ⟨hC, hRest⟩ := List.forall_mem_cons.mp hThread
    obtain ⟨hValidC, hValidRest⟩ := List.forall_mem_cons.mp hValid
    cases hCopy : S.copy s c with
    | mk result next =>
      cases result with
      | error e => simp [putAll, hCopy] at hPut
      | ok _ =>
        simp only [putAll, hCopy] at hPut
        have hNext := S.copy_ok h hValidC hCopy
        rw [hC] at hNext
        have hAll := ih hRest hValidRest hNext hPut
        rwa [Function.update_self, Function.update_idem, List.append_assoc,
          List.singleton_append] at hAll

/-- A fork of a whole thread that succeeds appends the source's listing to the destination. -/
theorem standsFor_forkThread {n : Nat} (h : S.StandsFor s H)
    (hFork : S.forkThread s src dst = (.ok n, s')) :
    src ≠ dst ∧ H src ≠ [] ∧ S.StandsFor s'
      (Function.update H dst (H dst ++ (sortHistory (H src)).map (·.onThread dst))) := by
  unfold forkThread forkThreadWith at hFork
  rw [S.list_eq h src] at hFork
  cases hSelect : forkSelection src dst (.ok (sortHistory (H src))) none with
  | error e =>
    rw [hSelect] at hFork
    cases hFork
  | ok selected =>
    obtain ⟨hNe, hAll, hEq⟩ := forkSelection_eq_ok hSelect
    cases hEq
    simp only [hSelect] at hFork
    obtain ⟨hResult, hState⟩ := Prod.mk.inj hFork
    have hNonempty : H src ≠ [] := by
      intro hNil
      rw [hNil] at hAll
      exact hAll rfl
    have hValid : ∀ c ∈ (sortHistory (H src)).map (·.onThread dst), S.Valid c := by
      intro c hC
      obtain ⟨original, hIn, rfl⟩ := List.mem_map.mp hC
      exact S.valid_onThread
        (S.valid_of_mem h src original ((Library.mem_sortByKey _).mp hIn)) dst
    have hThread : ∀ c ∈ (sortHistory (H src)).map (·.onThread dst), c.threadId = dst := by
      intro c hC
      obtain ⟨original, -, rfl⟩ := List.mem_map.mp hC
      rfl
    cases hPut : putAll S.copy s ((sortHistory (H src)).map (·.onThread dst)) with
    | mk result final =>
      rw [hPut] at hResult hState
      cases result with
      | error e => cases hResult
      | ok _ =>
        cases hState
        exact ⟨hNe, hNonempty, standsFor_putAll _ hThread hValid h hPut⟩

/-- **When a fork keeps the latest checkpoint.** -/
theorem forkKeepsLatest_iff {n : Nat} (h : S.StandsFor s H)
    (hFork : S.forkThread s src dst = (.ok n, s')) :
    S.ForkKeepsLatest s s' src dst ↔ S.LatestIsGreatest s src := by
  obtain ⟨hNe, hNonempty, hAfter⟩ := standsFor_forkThread h hFork
  have hIds := S.nodupIds h src
  have hKey := Checkpoint.injOn_listKey hIds
  obtain ⟨latest, hLatest⟩ :=
    Option.isSome_iff_exists.mp (List.getLast?_isSome.mpr hNonempty)
  have hLatestMem : latest ∈ H src := List.mem_of_getLast? hLatest
  have hSorted : sortHistory (H src) ≠ [] := by
    intro hNil
    exact List.ne_nil_of_mem ((Library.mem_sortByKey Checkpoint.listKey).mpr hLatestMem) hNil
  obtain ⟨greatest, hGreatest⟩ :=
    Option.isSome_iff_exists.mp (List.getLast?_isSome.mpr hSorted)
  obtain ⟨hGreatestMem, -⟩ := (Library.getLast?_sortByKey_eq_iff hKey).mp hGreatest
  -- the destination ends with the copies, and those end with the greatest checkpoint
  have hDst : S.getLatest s' dst = .ok (some (greatest.onThread dst)) := by
    rw [S.getLatest_eq hAfter, Function.update_self, List.getLast?_append, List.getLast?_map,
      hGreatest]
    rfl
  have hSrc : S.getLatest s src = .ok (some latest) := by rw [S.getLatest_eq h, hLatest]
  have hSame : Function.update H dst (H dst ++ (sortHistory (H src)).map (·.onThread dst)) src =
      H src := Function.update_of_ne hNe _ _
  have hLatestSame : S.getLatest s' src = S.getLatest s src := by
    rw [S.getLatest_eq hAfter, S.getLatest_eq h, hSame]
  have hListSame : S.list s' src = S.list s src := by
    rw [S.list_eq hAfter, S.list_eq h, hSame]
  have hCopy : S.ForkKeepsLatest s s' src dst ↔ greatest = latest := by
    unfold ForkKeepsLatest
    rw [hDst, hSrc]
    constructor
    · rintro ⟨hEq, -, -⟩
      have hOn : greatest.onThread dst = latest.onThread dst := by
        simpa [Except.map] using hEq
      have hId : (greatest.onThread dst).id = (latest.onThread dst).id := by rw [hOn]
      exact List.inj_on_of_nodup_map hIds hGreatestMem hLatestMem hId
    · rintro rfl
      exact ⟨rfl, hSrc ▸ hLatestSame, hListSame⟩
  rw [hCopy]
  constructor
  · rintro rfl
    refine ⟨greatest, sortHistory (H src), hSrc, S.list_eq h src, fun c hC => ?_⟩
    exact ((Library.getLast?_sortByKey_eq_iff hKey).mp hGreatest).2 c
      ((Library.mem_sortByKey _).mp hC)
  · rintro ⟨latest', all, hLatest', hAll, hMax⟩
    rw [hSrc] at hLatest'
    cases hLatest'
    rw [S.list_eq h] at hAll
    cases hAll
    have hTop : (sortHistory (H src)).getLast? = some latest :=
      (Library.getLast?_sortByKey_eq_iff hKey).mpr
        ⟨hLatestMem, fun c hC => hMax c ((Library.mem_sortByKey _).mpr hC)⟩
    exact Option.some.inj (hGreatest.symm.trans hTop)

end HistoryStore

/-! ## The in-memory backend -/

def memoryStore : HistoryStore InMemoryCheckpointer where
  list := InMemoryCheckpointer.list
  getLatest := InMemoryCheckpointer.getLatest
  copy := InMemoryCheckpointer.put
  StandsFor store H := ∀ thread, (store.history thread).checkpoints = H thread
  Valid _ := True
  nodupIds h thread := h thread ▸ (History.nodupIds _)
  valid_of_mem _ _ _ _ := trivial
  valid_onThread _ _ := trivial
  list_eq h thread := by rw [InMemoryCheckpointer.list, h thread]
  getLatest_eq h thread := by rw [InMemoryCheckpointer.getLatest, h thread]
  copy_ok := by
    intro store H c after h _ hCopy thread
    by_cases hMem : c.id ∈ (store.history c.threadId).checkpoints.map Checkpoint.id
    · have hError := (InMemoryCheckpointer.put_of_mem hMem).1
      rw [hCopy] at hError
      cases hError
    · have hHistory := (InMemoryCheckpointer.put_of_not_mem hMem).2 thread
      rw [hCopy] at hHistory
      rw [hHistory]
      by_cases hThread : c.threadId = thread
      · subst hThread
        rw [if_pos rfl, Function.update_self, h]
      · rw [if_neg hThread, Function.update_of_ne (Ne.symm hThread), h]

/-! ## The file backend -/

/-- Every directory holds a raw history. -/
def JsonFileCheckpointer.WellFormed (cfg : FileConfig) (store : JsonFileCheckpointer) : Prop :=
  ∀ thread, ∃ raws, Stored cfg store thread raws

open JsonFileCheckpointer

variable {cfg : FileConfig} {store : JsonFileCheckpointer} {c : Checkpoint}

theorem wellFormed_write {encoding : DeltaEncoding} {raws : List Checkpoint}
    (h : store.WellFormed cfg) (hStored : Stored cfg store c.threadId raws)
    (hNew : c.id ∉ raws.map Checkpoint.id) (hPlain : PlainId c.id) (hFormat : SupportedFormat c)
    (hAppends : Appends cfg raws c encoding) : (store.write c encoding).WellFormed cfg := by
  intro thread
  by_cases hThread : c.threadId = thread
  · subst hThread
    exact ⟨_, stored_write hStored hNew hPlain hFormat hAppends⟩
  · obtain ⟨others, hOther⟩ := h thread
    exact ⟨others, stored_write_of_ne hOther encoding hThread⟩

theorem wellFormed_put (h : store.WellFormed cfg) (hPlain : PlainId c.id)
    (hFormat : SupportedFormat c) : (store.put cfg c).2.WellFormed cfg := by
  obtain ⟨raws, hStored⟩ := h c.threadId
  by_cases hMem : c.id ∈ raws.map Checkpoint.id
  · rw [show store.put cfg c = _ from putInternal_of_mem hStored hMem false]
    exact h
  · rcases headOf_of_stored hStored with ⟨rfl, hHead⟩ | ⟨head, hFor, hCache⟩
    · rw [put_of_not_mem hStored hMem hHead]
      exact wellFormed_write h hStored hMem hPlain hFormat (appends_full cfg [] c)
    · rcases hCache with ⟨-, hHead⟩ | ⟨-, -, hHead⟩
      · rw [put_of_not_mem hStored hMem hHead]
        exact wellFormed_write h hStored hMem hPlain hFormat (appends_encodeDelta cfg c hFor)
      · rw [put_of_not_mem hStored hMem hHead]
        refine wellFormed_write (fun thread => ?_) (hStored.cacheHead fun _ => hFor) hMem hPlain
          hFormat (appends_encodeDelta cfg c hFor)
        by_cases hThread : c.threadId = thread
        · subst hThread
          exact ⟨raws, hStored.cacheHead fun _ => hFor⟩
        · obtain ⟨others, hOther⟩ := h thread
          exact ⟨others, hOther.cacheHead fun hEq => absurd hEq hThread⟩

/-- The file backend over what its directories read as, in insertion order. -/
def fileStore (cfg : FileConfig) : HistoryStore JsonFileCheckpointer where
  list := JsonFileCheckpointer.list cfg
  getLatest := JsonFileCheckpointer.getLatest cfg
  copy store c := putInternal cfg store { c with base := none } true
  StandsFor store H := ∀ thread, ∃ raws, Stored cfg store thread raws ∧
    H thread = (views raws).reverse
  Valid := Copyable
  nodupIds h thread := by
    obtain ⟨raws, hStored, hEq⟩ := h thread
    rw [hEq, List.map_reverse, List.nodup_reverse]
    exact nodup_ids_views hStored
  valid_of_mem h thread c hC := by
    obtain ⟨raws, hStored, hEq⟩ := h thread
    rw [hEq, List.mem_reverse] at hC
    exact copyable_of_mem_views hStored hC
  valid_onThread h _ := h
  list_eq h thread := by
    obtain ⟨raws, hStored, hEq⟩ := h thread
    rw [list_of_stored hStored, hEq]
    exact congrArg _ (Library.sortByKey_eq_of_perm
      (Checkpoint.injOn_listKey (nodup_ids_views hStored)) (List.reverse_perm _).symm)
  getLatest_eq h thread := by
    obtain ⟨raws, hStored, hEq⟩ := h thread
    rw [getLatest_of_stored hStored, hEq, List.getLast?_reverse]
  copy_ok := by
    intro store H c after h hCopy hPut
    obtain ⟨hBase, hPlain, hFormat⟩ := hCopy
    have hSame : { c with base := none } = c := (full_checkpoint_eq_iff c).mpr hBase
    obtain ⟨raws, hStored, hEq⟩ := h c.threadId
    rw [hSame] at hPut
    by_cases hMem : c.id ∈ raws.map Checkpoint.id
    · rw [putInternal_of_mem hStored hMem] at hPut
      cases hPut
    · rw [putInternal_full_of_not_mem hStored hMem] at hPut
      cases hPut
      have hFull : (DeltaEncoding.full c).checkpoint = c := (full_checkpoint_eq_iff c).mpr hBase
      intro thread
      by_cases hThread : c.threadId = thread
      · subst hThread
        refine ⟨_, stored_write hStored hMem hPlain hFormat (appends_full cfg raws c), ?_⟩
        rw [Function.update_self, hEq, hFull, views_cons (materialized_of_full hBase),
          List.reverse_cons]
      · obtain ⟨others, hOther, hOtherEq⟩ := h thread
        refine ⟨others, stored_write_of_ne hOther _ hThread, ?_⟩
        rw [Function.update_of_ne (Ne.symm hThread), hOtherEq]

theorem exists_standsFor (h : store.WellFormed cfg) : ∃ H, (fileStore cfg).StandsFor store H := by
  choose raws hRaws using h
  exact ⟨fun thread => (views (raws thread)).reverse, fun thread => ⟨raws thread, hRaws thread, rfl⟩⟩

theorem wellFormed_of_standsFor {H : String → List Checkpoint}
    (h : (fileStore cfg).StandsFor store H) : store.WellFormed cfg := by
  intro thread
  obtain ⟨raws, hStored, -⟩ := h thread
  exact ⟨raws, hStored⟩

theorem wellFormed_putAll (copies : List Checkpoint) (hCopies : ∀ c ∈ copies, Copyable c)
    (h : store.WellFormed cfg) : (putAll (fileStore cfg).copy store copies).2.WellFormed cfg := by
  induction copies generalizing store with
  | nil => exact h
  | cons c rest ih =>
    obtain ⟨hC, hRest⟩ := List.forall_mem_cons.mp hCopies
    obtain ⟨H, hStands⟩ := exists_standsFor h
    cases hCopy : (fileStore cfg).copy store c with
    | mk result after =>
      simp only [putAll, hCopy]
      cases result with
      | ok _ => exact ih hRest (wellFormed_of_standsFor ((fileStore cfg).copy_ok hStands hC hCopy))
      | error e =>
        -- a refused copy leaves the store as it was
        obtain ⟨raws, hStored⟩ := h c.threadId
        have hSame : { c with base := none } = c := (full_checkpoint_eq_iff c).mpr hC.1
        have hPut : putInternal cfg store { c with base := none } true = (.error e, after) := hCopy
        rw [hSame] at hPut
        by_cases hMem : c.id ∈ raws.map Checkpoint.id
        · rw [putInternal_of_mem hStored hMem true] at hPut
          cases hPut
          exact h
        · rw [putInternal_full_of_not_mem hStored hMem] at hPut
          cases hPut

theorem wellFormed_forkThread (h : store.WellFormed cfg) (src dst : String) (atId : Option String) :
    (store.forkThread cfg src dst atId).2.WellFormed cfg := by
  obtain ⟨raws, hStored⟩ := h src
  simp only [JsonFileCheckpointer.forkThread, forkThreadWith, list_of_stored hStored]
  cases hSelect : forkSelection src dst (.ok (sortHistory (views raws))) atId with
  | error e => exact h
  | ok selected =>
    obtain ⟨-, -, hSelected⟩ := forkSelection_eq_ok hSelect
    refine wellFormed_putAll _ (fun c hC => ?_) h
    obtain ⟨original, hIn, rfl⟩ := List.mem_map.mp hC
    have hCopy : Copyable original := copyable_of_mem_views hStored
      ((Library.mem_sortByKey _).mp (mem_of_mem_selectHistory hSelected hIn))
    exact hCopy

def PlainOp : StoreOp → Prop
  | .put c => PlainId c.id ∧ SupportedFormat c
  | _ => True

/-- **Every run of plain operations leaves the directories well formed**, whatever channels
its checkpoints drop. -/
theorem wellFormed_run (cfg : FileConfig) {ops : List StoreOp} (hOps : ∀ op ∈ ops, PlainOp op)
    (h : store.WellFormed cfg) :
    (Library.run (JsonFileCheckpointer.next cfg) store ops).WellFormed cfg := by
  induction ops generalizing store with
  | nil => exact h
  | cons op rest ih =>
    obtain ⟨hOp, hRest⟩ := List.forall_mem_cons.mp hOps
    refine ih hRest ?_
    cases op with
    | put c => exact wellFormed_put h hOp.1 hOp.2
    | forkThread src dst atId => exact wellFormed_forkThread h src dst atId
    | restart =>
      intro thread
      obtain ⟨raws, hStored⟩ := h thread
      exact ⟨raws, hStored.restart⟩

/-! ## Both backends -/

/-- **Forking a whole thread.** When the fork succeeds, the destination's latest checkpoint is
the source's (apart from the thread id) and the source is unchanged exactly when the source's
latest checkpoint is also the greatest in `(step, created_at, id)`: in memory for every store,
on disk after every run of plain operations. -/
theorem forkThread_keepsLatest_iff (cfg : FileConfig) (ops : List StoreOp)
    (hOps : ∀ op ∈ ops, PlainOp op) (memory : InMemoryCheckpointer) (src dst : String) :
    (∀ n memory', memory.forkThread src dst none = (.ok n, memory') →
      (memoryStore.ForkKeepsLatest memory memory' src dst ↔
        memoryStore.LatestIsGreatest memory src)) ∧
    (∀ n file', (Library.run (JsonFileCheckpointer.next cfg) .new ops).forkThread cfg src dst none =
        (.ok n, file') →
      ((fileStore cfg).ForkKeepsLatest (Library.run (JsonFileCheckpointer.next cfg) .new ops)
          file' src dst ↔
        (fileStore cfg).LatestIsGreatest (Library.run (JsonFileCheckpointer.next cfg) .new ops)
          src)) := by
  constructor
  · intro n memory' hFork
    exact HistoryStore.forkKeepsLatest_iff (S := memoryStore) (fun _ => rfl) hFork
  · intro n file' hFork
    have hNew : JsonFileCheckpointer.new.WellFormed cfg := fun thread => ⟨[], stored_new cfg thread⟩
    obtain ⟨H, hStands⟩ := exists_standsFor (wellFormed_run cfg hOps hNew)
    exact HistoryStore.forkKeepsLatest_iff hStands hFork

theorem plainOp_samplePuts : ∀ op ∈ [StoreOp.put sampleFirst, .put sampleSecond], PlainOp op := by
  intro op hOp
  simp only [List.mem_cons, List.not_mem_nil, or_false] at hOp
  rcases hOp with rfl | rfl
  · exact ⟨by decide, by decide⟩
  · exact ⟨by decide, by decide⟩

/-- Steps in order: the fork on disk keeps the latest checkpoint. -/
theorem forkThread_keepsLatest_iff_increasing :
    let store := Library.run (JsonFileCheckpointer.next sampleConfig) .new
      [.put sampleFirst, .put sampleSecond]
    (fileStore sampleConfig).ForkKeepsLatest store
      (store.forkThread sampleConfig "t" "u" none).2 "t" "u" := by
  have hFork : ((Library.run (JsonFileCheckpointer.next sampleConfig) .new
      [.put sampleFirst, .put sampleSecond]).forkThread sampleConfig "t" "u" none).1 = .ok 2 := by
    decide
  refine ((forkThread_keepsLatest_iff sampleConfig _ plainOp_samplePuts .new "t" "u").2 2 _
    (Prod.ext hFork rfl)).mpr ⟨sampleSecond, [sampleFirst, sampleSecond], ?_, ?_, ?_⟩
  · decide
  · decide
  · decide

/-- A checkpoint of a replay from an earlier step, put after the head. -/
def sampleReplay : Checkpoint := { sampleFirst with id := "c1", step := 1, createdAt := 1 }

/-- After a replay the source's latest checkpoint is the replayed step, the fork's is the
step before it, in memory and on disk. -/
theorem forkThread_loses_replay :
    let memory := Library.run InMemoryCheckpointer.next .new [.put sampleFirst, .put sampleReplay]
    let file := Library.run (JsonFileCheckpointer.next sampleConfig) .new
      [.put sampleFirst, .put sampleReplay]
    let memoryFork := memory.forkThread "t" "u" none
    let fileFork := file.forkThread sampleConfig "t" "u" none
    (memoryFork.1 = .ok 2 ∧ memory.getLatest "t" = .ok (some sampleReplay) ∧
      memoryFork.2.getLatest "u" = .ok (some (sampleFirst.onThread "u"))) ∧
    (fileFork.1 = .ok 2 ∧ file.getLatest sampleConfig "t" = .ok (some sampleReplay) ∧
      fileFork.2.getLatest sampleConfig "u" = .ok (some (sampleFirst.onThread "u"))) := by
  decide

end RustyRuntime
