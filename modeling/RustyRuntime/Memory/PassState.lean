import RustyRuntime.Library.Index
import RustyRuntime.Library.SortByKey
import RustyRuntime.Server.Memory

/-!
# The state of a consolidation series

`persist_consolidation_state` and `load_consolidation_state` of `memory.rs`, over the in-memory
store. The state between two passes is a record under a well-known key. A later state is stored
beside the earlier ones, under its own content address, and nothing names the earlier ones as
replaced; a load takes the first record of a query, and the store lists by content address.

**What a load returns** (`load_persisted_iff`): the state persisted last, exactly when it is also
the one under the least content address.
-/

namespace RustyRuntime

open Library

structure ConsolidationState where
  highWaterMark : UInt64
  lastRunAt : Instant
  turnsSinceLast : UInt64
  deriving DecidableEq

def ConsolidationState.new (now : Instant) : ConsolidationState := ⟨0, now, 0⟩

def consolidationStateKey : String := "_rusty_consolidation_state"

/-- `InMemoryMemoryStore`: one map keyed by content address. -/
abbrev InMemoryMemoryStore := Index MemoryRecord.memoryId

def InMemoryMemoryStore.put (store : InMemoryMemoryStore) (record : MemoryRecord) :
    Bool × InMemoryMemoryStore :=
  if (store.get? record.memoryId).isSome then (false, store) else (true, store.insert record)

section State

variable (ops : MemoryOps)

def stateJson (state : ConsolidationState) : Json :=
  .object [("high_water_mark", .num (.posInt state.highWaterMark)),
    ("last_run_at", .str (ops.codec.timestamp state.lastRunAt)),
    ("turns_since_last", .num (.posInt state.turnsSinceLast))]

def persistConsolidationState (store : InMemoryMemoryStore) (scope : ScopeAddress)
    (state : ConsolidationState) (provenance : MemoryProvenance) :
    Result (String × InMemoryMemoryStore) := do
  let record ← MemoryRecord.new ops .fact scope provenance 1 ⟨state.lastRunAt, none⟩ state.lastRunAt
    (stateJson ops state)
  let record := { record with key := some consolidationStateKey }
  return (record.memoryId, (store.put record).2)

/-- `load_consolidation_state`; `fromValue` decodes a state. -/
def loadConsolidationState (fromValue : Json → Except String ConsolidationState)
    (store : InMemoryMemoryStore) (scope : ScopeAddress) (now : Instant) :
    Result ConsolidationState :=
  let query : MemoryQuery := { scope := some scope, key := some consolidationStateKey }
  match (applyQuery ops.recallOps store.values query now).head? with
  | none => .ok (.new now)
  | some record =>
    match record.content with
    | .inline value => (fromValue value).mapError fun e =>
        .invalidUpdate s!"corrupt consolidation state: {e}"
    | .artifact _ => .error (.invalidUpdate
        "consolidation state must be inline — artifact reference is unsupported")

def persistAll (scope : ScopeAddress) (store : InMemoryMemoryStore)
    (writes : List (ConsolidationState × MemoryProvenance)) : Result InMemoryMemoryStore :=
  writes.foldlM (fun store write =>
    (persistConsolidationState ops store scope write.1 write.2).map Prod.snd) store

def stateAddress (write : ConsolidationState × MemoryProvenance) : String :=
  deriveMemoryId ops.codec (contentRefOf ops.codec (stateJson ops write.1)) write.2

def stateRecord (scope : ScopeAddress) (write : ConsolidationState × MemoryProvenance) :
    MemoryRecord where
  memoryId := stateAddress ops write
  kind := .fact
  scope := scope
  key := some consolidationStateKey
  tags := []
  priority := 0
  provenance := write.2
  confidence := 1
  validity := ⟨write.1.lastRunAt, none⟩
  createdAt := write.1.lastRunAt
  expiresAt := none
  supersedes := none
  candidacy := none
  content := contentRefOf ops.codec (stateJson ops write.1)

structure Unwritten (scope : ScopeAddress) (writes : List (ConsolidationState × MemoryProvenance))
    (store : InMemoryMemoryStore) : Prop where
  other : ∀ r ∈ store.values, ¬(r.scope = scope ∧ r.key = some consolidationStateKey)
  apart : ∀ r ∈ store.values, ∀ w ∈ writes, r.memoryId ≠ stateAddress ops w
  unnamed : ∀ r ∈ store.values, ∀ w ∈ writes, stateAddress ops w ∉ r.named

/-- The store after the writes: the records it had and states that were written, among them the one
with the least address. -/
structure Written (scope : ScopeAddress) (start : InMemoryMemoryStore)
    (writes : List (ConsolidationState × MemoryProvenance)) (store : InMemoryMemoryStore) :
    Prop where
  only : ∀ r ∈ store.values, r ∈ start.values ∨ ∃ w ∈ writes, r = stateRecord ops scope w
  least : ∀ w, minByKey (stateAddress ops) writes = some w → stateRecord ops scope w ∈ store.values

end State

section Load

variable {ops : MemoryOps} {scope : ScopeAddress} {start store : InMemoryMemoryStore}

variable {writes : List (ConsolidationState × MemoryProvenance)}
  {write least : ConsolidationState × MemoryProvenance}

/-- A write adds its record unless the address is taken; of two writes with one address the first
stays. -/
theorem Written.put (hStart : Unwritten ops scope (writes ++ [write]) start)
    (h : Written ops scope start writes store) :
    Written ops scope start (writes ++ [write]) (store.put (stateRecord ops scope write)).2 := by
  have hOnly : ∀ r ∈ store.values, r ∈ start.values ∨ ∃ w ∈ writes ++ [write],
      r = stateRecord ops scope w := by
    intro r hIn
    refine (h.only r hIn).imp_right ?_
    rintro ⟨w, hW, rfl⟩
    exact ⟨w, List.mem_append_left _ hW, rfl⟩
  rw [InMemoryMemoryStore.put]
  cases hGet : store.get? (stateRecord ops scope write).memoryId with
  | some r =>
    refine ⟨hOnly, fun w hW => h.least w ?_⟩
    -- the address is that of an earlier write, so the new one is not below all of them
    have hIn := Index.mem_values_of_get? hGet
    have hId := Index.key_of_get? hGet
    obtain ⟨w', hW', rfl⟩ := (h.only r hIn).resolve_left
      fun hOld => hStart.apart r hOld write (by simp) hId
    rw [minByKey, List.argmin_concat] at hW
    cases hLeast : minByKey (stateAddress ops) writes with
    | none => simp [minByKey_eq_none.mp hLeast] at hW'
    | some m =>
      have hLe : stateAddress ops m ≤ stateAddress ops w' := List.le_of_mem_argmin hW' hLeast
      rw [minByKey] at hLeast
      rw [hLeast] at hW
      have hNot : ¬ stateAddress ops write < stateAddress ops m := not_lt.mpr (hLe.trans_eq hId)
      simpa [hNot] using hW
  | none =>
    refine ⟨fun r hIn => ?_, fun w hW => ?_⟩
    · rcases Index.mem_values_insert.mp hIn with rfl | ⟨-, hOld⟩
      · exact .inr ⟨write, by simp, rfl⟩
      · exact hOnly r hOld
    · refine Index.mem_values_insert.mpr ?_
      rw [minByKey, List.argmin_concat] at hW
      cases hLeast : minByKey (stateAddress ops) writes with
      | none =>
        rw [minByKey] at hLeast
        rw [hLeast] at hW
        cases hW
        exact .inl rfl
      | some m =>
        have hM := h.least m hLeast
        rw [minByKey] at hLeast
        rw [hLeast] at hW
        simp only at hW
        split at hW
        · cases hW
          exact .inl rfl
        · cases hW
          refine .inr ⟨fun hSame => ?_, hM⟩
          rw [Index.mem_values_iff, ← hSame, hGet] at hM
          cases hM

theorem persistAll_written (hStart : Unwritten ops scope writes start) :
    ∃ store, persistAll ops scope start writes = .ok store ∧ Written ops scope start writes store := by
  induction writes using List.reverseRecOn with
  | nil => exact ⟨start, rfl, fun r hIn => .inl hIn, nofun⟩
  | append_singleton writes write ih =>
    have hBefore : Unwritten ops scope writes start :=
      ⟨hStart.other, fun r hIn w hW => hStart.apart r hIn w (List.mem_append_left _ hW),
        fun r hIn w hW => hStart.unnamed r hIn w (List.mem_append_left _ hW)⟩
    obtain ⟨store, hRun, hWritten⟩ := ih hBefore
    refine ⟨_, ?_, hWritten.put hStart⟩
    rw [persistAll] at hRun ⊢
    rw [List.foldlM_append, hRun]
    rfl

theorem head?_states (hStart : Unwritten ops scope writes start)
    (h : Written ops scope start writes store)
    (hLeast : minByKey (stateAddress ops) writes = some least) (now : Instant) :
    (applyQuery ops.recallOps store.values
      { scope := some scope, key := some consolidationStateKey } now).head? =
        some (stateRecord ops scope least) := by
  have hIn := mem_of_minByKey hLeast
  refine head?_eq_of_least ((Index.values_pairwise store).sublist List.filter_sublist) ?_ ?_
  · refine List.mem_filter.mpr ⟨h.least least hLeast, ?_⟩
    have hFree : stateAddress ops least ∉ supersededSet store.values := by
      intro hNamed
      obtain ⟨r, hR, hId⟩ := mem_supersededSet.mp hNamed
      rcases h.only r hR with hOld | ⟨w, -, rfl⟩
      · exact hStart.unnamed r hOld least hIn hId
      · simp [MemoryRecord.named, stateRecord] at hId
    simp [MemoryQuery.matches, stateRecord, hFree]
  · intro r hR
    obtain ⟨hR, hMatch⟩ := List.mem_filter.mp hR
    simp only [MemoryQuery.matches, Bool.and_eq_true] at hMatch
    have hScope : r.scope = scope := by simpa using hMatch.1.1.1.1.1.1.1.1.1.1.1
    have hKey : r.key = some consolidationStateKey := by simpa using hMatch.1.1.1.1.1.1.1.1.1.2
    obtain ⟨w, hW, rfl⟩ := (h.only r hR).resolve_left fun hOld => hStart.other r hOld ⟨hScope, hKey⟩
    have hLe : stateAddress ops least ≤ stateAddress ops w := List.le_of_mem_argmin hW hLeast
    exact hLe

theorem load_least {fromValue : Json → Except String ConsolidationState} (now : Instant)
    (hStart : Unwritten ops scope writes start)
    (hInline : ∀ w ∈ writes, (ops.codec.toVec (stateJson ops w.1)).length ≤ inlinePayloadMaxBytes)
    (hDecodes : ∀ w ∈ writes, fromValue (stateJson ops w.1) = .ok w.1)
    (hLeast : minByKey (stateAddress ops) writes = some least) :
    ∃ store, persistAll ops scope start writes = .ok store ∧
      loadConsolidationState ops fromValue store scope now = .ok least.1 := by
  obtain ⟨store, hRun, hWritten⟩ := persistAll_written hStart
  have hIn := mem_of_minByKey hLeast
  refine ⟨store, hRun, ?_⟩
  rw [loadConsolidationState]
  simp only [head?_states hStart hWritten hLeast, stateRecord, contentRefOf,
    if_pos (hInline least hIn), hDecodes least hIn]
  rfl

/-- **A load returns the state persisted last**, exactly when the first write under the least content
address is of that state. -/
theorem load_persisted_iff {ops : MemoryOps} {fromValue : Json → Except String ConsolidationState}
    {scope : ScopeAddress} {start : InMemoryMemoryStore}
    {writes : List (ConsolidationState × MemoryProvenance)} {last : ConsolidationState}
    {provenance : MemoryProvenance} (now : Instant)
    (hStart : Unwritten ops scope (writes ++ [(last, provenance)]) start)
    (hInline : ∀ w ∈ writes ++ [(last, provenance)],
      (ops.codec.toVec (stateJson ops w.1)).length ≤ inlinePayloadMaxBytes)
    (hDecodes : ∀ w ∈ writes ++ [(last, provenance)], fromValue (stateJson ops w.1) = .ok w.1) :
    (∃ store, persistAll ops scope start (writes ++ [(last, provenance)]) = .ok store ∧
        loadConsolidationState ops fromValue store scope now = .ok last) ↔
      (minByKey (stateAddress ops) (writes ++ [(last, provenance)])).map Prod.fst = some last := by
  cases hLeast : minByKey (stateAddress ops) (writes ++ [(last, provenance)]) with
  | none => simp [minByKey_eq_none] at hLeast
  | some least =>
    obtain ⟨store, hRun, hLoad⟩ := load_least now hStart hInline hDecodes hLeast
    rw [hRun]
    constructor
    · rintro ⟨_, ⟨⟩, hLast⟩
      rw [hLoad] at hLast
      rw [Option.map_some, Except.ok.inj hLast]
    · intro hSame
      refine ⟨store, rfl, ?_⟩
      rw [hLoad, Option.some.inj hSame]

end Load

/-- A decoder for states whose instant is one digit. -/
def plainState : Json → Except String ConsolidationState
  | .obj [(_, .num (.posInt mark)), (_, .str stamp), (_, .num (.posInt turns))] =>
    match stamp.toList with
    | [digit] => .ok ⟨mark, digit.toNat - 48, turns⟩
    | _ => .error "invalid timestamp"
  | _ => .error "missing field"

def passAt (mark : UInt64) (now : Instant) : ConsolidationState × MemoryProvenance :=
  (⟨mark, now, 0⟩, ⟨.distiller "nightly", {}, now⟩)

-- The content hash goes into the address as a list of characters: texts are slow to evaluate.
theorem passAt_addresses :
    stateAddress plainMemory (passAt 10 2) < stateAddress plainMemory (passAt 9 1) ∧
      ¬ stateAddress plainMemory (passAt 9 2) < stateAddress plainMemory (passAt 5 1) := by
  have hInline : ∀ w ∈ [passAt 10 2, passAt 9 1, passAt 9 2, passAt 5 1],
      contentRefOf plainCodec (stateJson plainMemory w.1) = .inline (stateJson plainMemory w.1) := by
    decide +kernel
  have hOrder : ¬ "provenance" < "content" := by decide
  have hVec : plainCodec.toVec = Json.compact := rfl
  have hHash : plainCodec.sha256Hex = hexText := rfl
  have hCodec : plainMemory.codec = plainCodec := rfl
  simp only [List.forall_mem_cons] at hInline
  simp only [stateAddress, deriveMemoryId, hCodec, hInline, contentHash, hVec, hHash, Json.object,
    List.foldl, Json.insertField, hOrder, reduceIte, String.reduceEq, Json.compactFields,
    Json.compact, Json.quote, hexText, String.lt_iff, String.toList_ofList]
  decide +kernel

theorem unwritten_empty (writes : List (ConsolidationState × MemoryProvenance)) :
    Unwritten plainMemory ⟨.agent, "helper"⟩ writes .empty := by
  have hEmpty : (Index.empty : InMemoryMemoryStore).values = [] := by decide
  constructor <;> simp [hEmpty]

theorem load_persisted_ten :
    Unwritten plainMemory ⟨.agent, "helper"⟩ [passAt 9 1, passAt 10 2] .empty ∧
      ∃ store, persistAll plainMemory ⟨.agent, "helper"⟩ .empty [passAt 9 1, passAt 10 2] = .ok store ∧
        loadConsolidationState plainMemory plainState store ⟨.agent, "helper"⟩ 3 = .ok (passAt 10 2).1 := by
  refine ⟨unwritten_empty _, ?_⟩
  refine (load_persisted_iff 3 (unwritten_empty ([passAt 9 1] ++ [passAt 10 2]))
    (by decide +kernel) (by decide +kernel)).mpr ?_
  rw [minByKey, List.argmin_concat]
  exact congrArg (Option.map Prod.fst) (if_pos passAt_addresses.1)

/-- The second pass ends at 9; a load still gives the mark of the first. -/
theorem load_returns_first :
    ((persistAll plainMemory ⟨.agent, "helper"⟩ .empty [passAt 5 1, passAt 9 2]).bind fun store =>
      loadConsolidationState plainMemory plainState store ⟨.agent, "helper"⟩ 3) =
        .ok (passAt 5 1).1 := by
  obtain ⟨store, hRun, hLoad⟩ := load_least 3 (unwritten_empty ([passAt 5 1] ++ [passAt 9 2]))
    (by decide +kernel) (show ∀ w ∈ _, plainState _ = _ by decide +kernel)
    ((List.argmin_concat _ _ _).trans (if_neg passAt_addresses.2))
  rw [← List.singleton_append, hRun]
  exact hLoad

end RustyRuntime
