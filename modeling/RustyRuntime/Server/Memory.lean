import RustyRuntime.Memory.Query
import RustyRuntime.Journal.Basic
import RustyRuntime.Library.TreeMap
import RustyRuntime.Server.Tenant

/-!
# Memory on the server

The memory index of the store and the write route `POST /memory` with its scope gate. All records
of a tenant form one namespace: the gate decides whose scope a caller may write to, the links of a
record reach every record of the namespace.

The index holds a body above the inline limit by its content address; that the bytes are
spilled and read back, and the journal entries of the writer, are left out.

Main results:

* **When a write leaves another person's memory alone** (`write_spares_person_iff`): its record
  is stored already, the retrieval serves superseded records, or the record names none of that
  person's records that the retrieval would serve.
* A person's write that removes another person's note from retrieval (`write_hides_other`).
-/

namespace RustyRuntime

open Library

/-- The foreign functions of the memory surfaces. -/
structure MemoryOps where
  recallOps : RecallOps
  codec : Codec
  /-- `looks_like_secret`: the kind of credential a text carries. -/
  looksLikeSecret : String → Option String
  /-- The `Display` text of an `f64`. -/
  displayFloat : Rat → String

/-! ## Content addresses -/

/-- `content_ref_of`: inline up to the payload threshold, a reference above it. -/
def contentRefOf (codec : Codec) (content : Json) : PayloadRef :=
  let bytes := codec.toVec content
  if bytes.length ≤ inlinePayloadMaxBytes then .inline content
  else .artifact ⟨codec.sha256Hex bytes, bytes.length.toUInt64⟩

def authorJson : ProvenanceAuthor → Json
  | .agent agentId => .object [("type", .str "agent"), ("agent_id", .str agentId)]
  | .human humanId => .object [("type", .str "human"), ("human_id", .str humanId)]
  | .distiller name => .object [("type", .str "distiller"), ("name", .str name)]
  | .system => .object [("type", .str "system")]

def textField (name : String) : Option String → List (String × Json)
  | none => []
  | some value => [(name, .str value)]

def textsField (name : String) : List String → List (String × Json)
  | [] => []
  | values => [(name, .arr (values.map .str))]

def evidenceJson (evidence : MemoryEvidence) : Json :=
  .object (textField "run_id" evidence.runId ++ textsField "event_ids" evidence.eventIds ++
    textField "correction_id" evidence.correctionId ++
    textField "candidate_id" evidence.candidateId ++
    textsField "source_memory_ids" evidence.sourceMemoryIds)

def provenanceJson (codec : Codec) (provenance : MemoryProvenance) : Json :=
  .object ([("author", authorJson provenance.author)] ++
    (if provenance.evidence = {} then [] else [("evidence", evidenceJson provenance.evidence)]) ++
    [("written_at", .str (codec.timestamp provenance.writtenAt))])

def deriveMemoryId (codec : Codec) (content : PayloadRef) (provenance : MemoryProvenance) :
    String :=
  codec.sha256Hex (codec.toVec (.object [("content", .str (contentHash codec content)),
    ("provenance", provenanceJson codec provenance)]))

def MemoryRecord.new (ops : MemoryOps) (kind : MemoryKind) (scope : ScopeAddress)
    (provenance : MemoryProvenance) (confidence : Rat) (validity : ValidityWindow)
    (createdAt : Instant) (content : Json) : Result MemoryRecord :=
  if 0 < confidence ∧ confidence ≤ 1 then
    let contentRef := contentRefOf ops.codec content
    .ok { memoryId := deriveMemoryId ops.codec contentRef provenance, kind, scope, key := none
          tags := [], priority := 0, provenance, confidence, validity, createdAt
          expiresAt := none, supersedes := none, candidacy := none, content := contentRef }
  else .error (.invalidUpdate
    (s!"memory confidence must be in (0, 1], got {ops.displayFloat confidence} — confidence is " ++
     "a writer-declared claim, and a value outside the interval is not a claim at all"))

variable {ops : MemoryOps} {scope : ScopeAddress} {confidence : Rat} {content : Json}
  {payload : WriteMemoryPayload} {now : Instant} {memories memories' : Memories} {created : Bool}
  {agents : String → Option (List StateScope)} {ctx : TenantContext}

theorem new_eq_ok {kind : MemoryKind} {provenance : MemoryProvenance} {validity : ValidityWindow}
    {createdAt : Instant} {record : MemoryRecord}
    (h : MemoryRecord.new ops kind scope provenance confidence validity createdAt content =
      .ok record) :
    record.memoryId = deriveMemoryId ops.codec (contentRefOf ops.codec content) provenance ∧
      record.kind = kind ∧ record.scope = scope ∧ record.provenance = provenance := by
  unfold MemoryRecord.new at h
  split at h
  · cases h
    exact ⟨rfl, rfl, rfl, rfl⟩
  · cases h

/-! ## The index -/

/-- Internal id to record. -/
abbrev Memories := Std.ExtTreeMap String MemoryRecord

mutual

/-- `secret_in`: the first credential in any text of a value. -/
def secretIn (looks : String → Option String) : Json → Option String
  | .str s => looks s
  | .arr items => secretInItems looks items
  | .obj fields => secretInFields looks fields
  | _ => none

def secretInItems (looks : String → Option String) : List Json → Option String
  | [] => none
  | item :: rest => (secretIn looks item).or (secretInItems looks rest)

def secretInFields (looks : String → Option String) : List (String × Json) → Option String
  | [] => none
  | (_, value) :: rest => (secretIn looks value).or (secretInFields looks rest)

end

/-- `put_memory`: whether the record is new, and the index after it. -/
def putMemory (ops : MemoryOps) (memories : Memories) (tenant : String) (record : MemoryRecord)
    (content : Json) : Except String (Bool × Memories) :=
  match secretIn ops.looksLikeSecret content with
  | some what => .error
    s!"not kept: the note carries {what}; credentials live in connections, never in memory"
  | none =>
    let internalId := scopeId tenant record.memoryId
    if memories.contains internalId then .ok (false, memories)
    else .ok (true, memories.insert internalId record)

def ownedRecords (tenant : String) (entries : List (String × MemoryRecord)) : List MemoryRecord :=
  (entries.filter fun entry => (stripOwned tenant entry.1).isSome).map Prod.snd

def memoryNamespace (memories : Memories) (tenant : String) : List MemoryRecord :=
  ownedRecords tenant memories.toList

def queryMemory (ops : RecallOps) (memories : Memories) (tenant : String) (q : MemoryQuery)
    (now : Instant) : List MemoryRecord :=
  applyQuery ops (memoryNamespace memories tenant) q now

/-! ## The write route -/

inductive StateScope where
  | privateState
  | team
  | user
  | tenant
  deriving DecidableEq, Repr

def validateLabel (what value : String) (maxLen : Nat) : Except String Unit :=
  if (trim value).isEmpty || decide (maxLen < value.utf8ByteSize) then
    .error s!"`{what}` must be non-empty and <= {maxLen} chars"
  else .ok ()

def notYourMemory (id : String) (ctx : TenantContext) : ApiError :=
  .forbidden (s!"user-scoped memory `{id}` is not yours (you are `{ctx.principal.id}`) — a " ++
    "person's memory is their own; an administrator may act on another's")

/-- `check_memory_scope_gate`; `agents` gives the state scopes that the manifest of a
registered agent declares. -/
def checkMemoryScopeGate (agents : String → Option (List StateScope)) (ctx : TenantContext)
    (scope : ScopeAddress) (allowRun : Bool) : Except ApiError Unit := do
  (validateLabel "scope.id" scope.id 256).mapError .badRequest
  match scope.scope with
  | .run =>
    if !allowRun then
      throw (.badRequest ("`run`-scoped memory is runtime-only: the runtime writes it on a " ++
        "run's behalf — the API accepts `agent`, `team`, `user`, and `tenant` scopes"))
  | .agent =>
    match agents (ctx.scope scope.id) with
    | none => throw (.notFound s!"agent `{scope.id}` not found")
    | some scopes =>
      if !scopes.contains .privateState then
        throw (.forbidden (s!"agent `{scope.id}` does not declare the `private` state scope in " ++
          "its manifest — agent-scoped memory is the agent's own, and the manifest is what " ++
          "grants it"))
  | .tenant =>
    if scope.id ≠ ctx.tenant then
      throw (.forbidden (s!"tenant-scoped memory id `{scope.id}` is not the caller's tenant " ++
        s!"`{ctx.tenant}` — tenant isolation is not a scope a caller can cross"))
  | .user => if !ctx.mayActFor scope.id then throw (notYourMemory scope.id ctx)
  | .team => pure ()

/-- The body of `POST /memory`; the run to journal the write into is left out. -/
structure WriteMemoryPayload where
  kind : MemoryKind
  scope : ScopeAddress
  content : Json
  author : ProvenanceAuthor
  key : Option String := none
  tags : List String := []
  priority : Int := 0
  evidence : Option MemoryEvidence := none
  confidence : Option Rat := none
  writtenAt : Option Instant := none
  validFrom : Option Instant := none
  validUntil : Option Instant := none
  expiresAt : Option Instant := none
  supersedes : Option String := none

namespace WriteMemoryPayload

variable (payload : WriteMemoryPayload)

def provenance (now : Instant) : MemoryProvenance :=
  ⟨payload.author, payload.evidence.getD {}, payload.writtenAt.getD now⟩

/-- The content address the record gets. -/
def memoryId (codec : Codec) (payload : WriteMemoryPayload) (now : Instant) : String :=
  deriveMemoryId codec (contentRefOf codec payload.content) (payload.provenance now)

def named : List String :=
  payload.supersedes.toList ++
    if payload.kind = .summary then (payload.evidence.getD {}).sourceMemoryIds else []

def checkText (ops : MemoryOps) (payload : WriteMemoryPayload) : Except ApiError Unit :=
  match ((payload.content.get "text").bind Json.asStr).bind ops.looksLikeSecret with
  | some what => .error (.unprocessable
    s!"the note carries {what}; credentials live in connections, never in memory")
  | none => .ok ()

def checkKey : Except ApiError Unit :=
  match payload.key with
  | some key => (validateLabel "key" key 256).mapError .badRequest
  | none => .ok ()

def declaredConfidence : Except ApiError Rat :=
  match payload.confidence with
  | some confidence => .ok confidence
  | none =>
    if payload.author.isHuman then .ok 1
    else .error (.badRequest ("`confidence` is required for non-human authors — " ++
      "human-authored records default to 1.0 (the claim is the person's); every other author " ++
      "must declare its confidence explicitly"))

/-- The record; what the payload does not set keeps the value `new` gives it. -/
def record (ops : MemoryOps) (payload : WriteMemoryPayload) (confidence : Rat) (now : Instant) :
    Result MemoryRecord := do
  let fresh ← MemoryRecord.new ops payload.kind payload.scope (payload.provenance now) confidence
    ⟨payload.validFrom.getD now, payload.validUntil⟩ (payload.writtenAt.getD now) payload.content
  return { fresh with
    key := payload.key, tags := payload.tags, priority := payload.priority
    expiresAt := payload.expiresAt, supersedes := payload.supersedes }

end WriteMemoryPayload

/-- `write_memory`: whether the record was created, the stored record and the index. -/
def writeMemory (ops : MemoryOps) (agents : String → Option (List StateScope))
    (memories : Memories) (ctx : TenantContext) (payload : WriteMemoryPayload) (now : Instant) :
    Except ApiError (Bool × MemoryRecord × Memories) := do
  checkMemoryScopeGate agents ctx payload.scope false
  payload.checkText ops
  let confidence ← payload.declaredConfidence
  payload.checkKey
  let record ← (payload.record ops confidence now).mapError fun e => .badRequest e.display
  let (created, memories) ← (putMemory ops memories ctx.tenant record payload.content).mapError
    .internal
  match memories[scopeId ctx.tenant record.memoryId]? with
  | none => throw (.internal "memory record missing immediately after write")
  | some stored => return (created, stored, memories)

/-! ## What a write does -/

theorem record_eq_ok {record : MemoryRecord} (h : payload.record ops confidence now = .ok record) :
    record.memoryId = payload.memoryId ops.codec now ∧ record.scope = payload.scope ∧
      record.named = payload.named := by
  simp only [WriteMemoryPayload.record, bind, Except.bind, pure, Except.pure] at h
  split at h
  · cases h
  · rename_i fresh hFresh
    cases h
    obtain ⟨hId, hKind, hScope, hProvenance⟩ := new_eq_ok hFresh
    refine ⟨hId, hScope, ?_⟩
    simp only [MemoryRecord.named, WriteMemoryPayload.named, hKind, hProvenance]
    rfl

theorem putMemory_eq_ok {tenant : String} {record : MemoryRecord}
    (h : putMemory ops memories tenant record content = .ok (created, memories')) :
    memories' = if memories.contains (scopeId tenant record.memoryId) then memories
      else memories.insert (scopeId tenant record.memoryId) record := by
  unfold putMemory at h
  split at h
  · cases h
  · by_cases hHeld : memories.contains (scopeId tenant record.memoryId)
    · simp only [hHeld, if_true] at h ⊢
      cases h
      rfl
    · simp only [hHeld] at h ⊢
      cases h
      rfl

/-- What an accepted write does: the gate let its scope through, and the record is stored
unless its content address is. -/
theorem writeMemory_eq_ok {stored : MemoryRecord}
    (h : writeMemory ops agents memories ctx payload now = .ok (created, stored, memories')) :
    checkMemoryScopeGate agents ctx payload.scope false = .ok () ∧
      ∃ record : MemoryRecord, record.memoryId = payload.memoryId ops.codec now ∧
        record.scope = payload.scope ∧ record.named = payload.named ∧
        memories' =
          if memories.contains (scopeId ctx.tenant (payload.memoryId ops.codec now)) then memories
          else memories.insert (scopeId ctx.tenant (payload.memoryId ops.codec now)) record := by
  unfold writeMemory at h
  simp only [bind_eq_ok, mapError_eq_ok, Prod.exists] at h
  obtain ⟨_, hGate, _, -, confidence, -, _, -, record, hRecord, _, _, hPut, hStored⟩ := h
  obtain ⟨hId, hScope, hNamed⟩ := record_eq_ok hRecord
  refine ⟨hGate, record, hId, hScope, hNamed, ?_⟩
  rw [← hId, ← putMemory_eq_ok hPut]
  split at hStored
  · cases hStored
  · cases hStored
    rfl

/-! ## Whose memory a write changes -/

theorem scope_ne_of_gate {other : String} (hBound : ctx.personBound)
    (hOther : other ≠ ctx.principal.id)
    (hGate : checkMemoryScopeGate agents ctx scope false = .ok ()) : scope ≠ ⟨.user, other⟩ := by
  rintro rfl
  have hMay : ctx.mayActFor other = false := by
    simp [TenantContext.mayActFor, hBound, hOther]
  simp only [checkMemoryScopeGate, bind_eq_ok, hMay] at hGate
  obtain ⟨_, -, hRefused⟩ := hGate
  cases hRefused

theorem unserved_of_scope {ops : RecallOps} {q : MemoryQuery} {record : MemoryRecord}
    (hQuery : q.scope = some scope) (hScope : record.scope ≠ scope) (superseded : Bool) :
    q.matches ops record superseded now = false := by
  simp [MemoryQuery.matches, hQuery, hScope]

theorem exists_memoryNamespace_insert {tenant id : String}
    (hOwned : (stripOwned tenant (scopeId tenant id)).isSome)
    (hNew : memories.contains (scopeId tenant id) = false) (record : MemoryRecord) :
    ∃ left right, memoryNamespace memories tenant = left ++ right ∧
      memoryNamespace (memories.insert (scopeId tenant id) record) tenant =
        left ++ record :: right := by
  have hAbsent : memories[scopeId tenant id]? = none := by
    rw [Std.ExtTreeMap.getElem?_eq_none]
    rwa [← Std.ExtTreeMap.contains_iff_mem, Bool.not_eq_true]
  obtain ⟨left, right, hBefore, hAfter⟩ := exists_toList_insert hAbsent record
  refine ⟨ownedRecords tenant left, ownedRecords tenant right, ?_, ?_⟩
  · simp only [memoryNamespace, hBefore, ownedRecords, List.filter_append, List.map_append]
  · simp only [memoryNamespace, hAfter, ownedRecords, List.filter_append, List.filter_cons,
      hOwned, if_true, List.map_append, List.map_cons]

/-- **When a write leaves another person's memory alone.** -/
theorem write_spares_person_iff {ops : MemoryOps} {agents : String → Option (List StateScope)}
    {memories memories' : Memories} {ctx : TenantContext} {payload : WriteMemoryPayload}
    {written now : Instant} {created : Bool} {stored : MemoryRecord} {other : String}
    {q : MemoryQuery} (hHex : ∀ bytes, '/' ∉ (ops.codec.sha256Hex bytes).toList)
    (hBound : ctx.personBound = true) (hOther : other ≠ ctx.principal.id)
    (hWrite : writeMemory ops agents memories ctx payload written =
      .ok (created, stored, memories'))
    (hQuery : q.scope = some ⟨.user, other⟩) :
    queryMemory ops.recallOps memories' ctx.tenant q now =
        queryMemory ops.recallOps memories ctx.tenant q now ↔
      memories.contains (scopeId ctx.tenant (payload.memoryId ops.codec written)) = true ∨
        SparesOthers ops.recallOps (memoryNamespace memories ctx.tenant) payload.named q now := by
  obtain ⟨hGate, record, hId, hScope, hNamed, hAfter⟩ := writeMemory_eq_ok hWrite
  by_cases hHeld :
      memories.contains (scopeId ctx.tenant (payload.memoryId ops.codec written)) = true
  · rw [if_pos hHeld] at hAfter
    subst hAfter
    exact iff_of_true rfl (.inl hHeld)
  · rw [if_neg hHeld] at hAfter
    subst hAfter
    have hOwned : (stripOwned ctx.tenant
        (scopeId ctx.tenant (payload.memoryId ops.codec written))).isSome = true := by
      have hSlash : '/' ∉ (payload.memoryId ops.codec written).toList := hHex _
      rw [stripOwned_scopeId fun _ => hSlash]
      rfl
    obtain ⟨left, right, hBefore, hNow⟩ :=
      exists_memoryNamespace_insert hOwned (Bool.eq_false_iff.mpr hHeld) record
    have hForeign : record.scope ≠ ⟨.user, other⟩ := by
      rw [hScope]
      exact scope_ne_of_gate hBound hOther hGate
    rw [queryMemory, queryMemory, hBefore, hNow,
      filter_superseded_insert_iff (unserved_of_scope hQuery hForeign), hNamed]
    exact (or_iff_right hHeld).symm

def plainMemory : MemoryOps := ⟨asciiRecall, plainCodec, fun _ => none, toString⟩

/-- A person without the administrator role. -/
def eve : TenantContext := ⟨defaultTenant, ⟨"eve", "Eve", .user, [.builder]⟩⟩

def eveWrites (supersedes : Option String) : WriteMemoryPayload where
  kind := .fact
  scope := ⟨.user, "eve"⟩
  content := .obj [("text", .str "hello")]
  author := .human "eve"
  supersedes := supersedes

def danasNotes : Memories := (∅ : Memories).insert "note-1" adoptedNote

def danasQuery : MemoryQuery := { scope := some ⟨.user, "dana"⟩ }

theorem write_spares_person_linkless :
    ∃ created stored memories',
      writeMemory plainMemory (fun _ => none) danasNotes eve (eveWrites none) 7 =
        .ok (created, stored, memories') ∧
      queryMemory plainMemory.recallOps memories' eve.tenant danasQuery 9 =
        queryMemory plainMemory.recallOps danasNotes eve.tenant danasQuery 9 := by
  cases hWrite : writeMemory plainMemory (fun _ => none) danasNotes eve (eveWrites none) 7 with
  | error e =>
    have hAccepted : (writeMemory plainMemory (fun _ => none) danasNotes eve (eveWrites none)
        7).isOk = true := by decide +kernel
    rw [hWrite] at hAccepted
    cases hAccepted
  | ok result =>
    obtain ⟨created, stored, memories'⟩ := result
    refine ⟨created, stored, memories', rfl, ?_⟩
    have hOther : "dana" ≠ eve.principal.id := by decide
    refine (write_spares_person_iff slash_notMem_hexText (by decide) hOther hWrite
      rfl).mpr (.inr ?_)
    decide +kernel

/-- Eve's own note names Dana's as the one it replaces, and Dana's is no longer retrieved. -/
theorem write_hides_other :
    eve.personBound = true ∧ (eveWrites (some "note-1")).scope = ⟨.user, eve.principal.id⟩ ∧
      queryMemory plainMemory.recallOps danasNotes eve.tenant danasQuery 9 = [adoptedNote] ∧
      (writeMemory plainMemory (fun _ => none) danasNotes eve (eveWrites (some "note-1")) 7).map
        (fun result => queryMemory plainMemory.recallOps result.2.2 eve.tenant danasQuery 9) =
          .ok [] := by
  decide +kernel

end RustyRuntime
