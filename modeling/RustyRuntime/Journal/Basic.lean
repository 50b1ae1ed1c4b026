import RustyRuntime.Journal.Event
import RustyRuntime.Library.HashChain

/-!
# The run journal

`Journal` of `journal.rs`: an append-only list of events with a running head hash and a map
of the payloads too large to inline. The clock is outside: `record` takes the timestamp it
reads. Serializing a value cannot fail in the source's own account of it, and `Codec.toVec`
is total.

A snapshot carries the payloads inline, or by reference into an artifact store. The store is
the file store of the source, one blob under each content address, verified when it is read.
`verifySnapshot` is the stricter check of `replay.rs`.
-/

namespace RustyRuntime

/-! ## Recording -/

/-- `INLINE_PAYLOAD_MAX_BYTES`. -/
def inlinePayloadMaxBytes : Nat := 4096

/-- Everything about an event except what the journal assigns. -/
structure EventDraft where
  kind : RunEventKind
  effect : Effect
  nodeId : Option String := none
  input : Option Json := none
  output : Option Json := none
  latencyMs : Option UInt64 := none
  tokens : Option Usage := none
  costUsd : Option Rat := none
  status : EventStatus := .ok
  parent : Option String := none

abbrev Artifacts := Std.ExtTreeMap String Json

structure Journal where
  runId : String
  threadId : String
  events : List RunEvent
  artifacts : Artifacts
  headHash : String

variable (codec : Codec)

def contentAddress (value : Json) : String := codec.sha256Hex (codec.toVec value)

/-- `content_hash` of a payload. -/
def contentHash : PayloadRef → String
  | .inline value => codec.sha256Hex (codec.toVec value.canonicalizeValue)
  | .artifact reference => reference.sha256

def storePayload (artifacts : Artifacts) (value : Json) : PayloadRef × Artifacts :=
  let bytes := codec.toVec value
  if bytes.length ≤ inlinePayloadMaxBytes then (.inline value, artifacts)
  else
    let reference := ⟨codec.sha256Hex bytes, UInt64.ofNat bytes.length⟩
    (.artifact reference, artifacts.insertIfNew reference.sha256 value)

/-- `store_payload` on a payload that may be absent. -/
def storeOptional (artifacts : Artifacts) : Option Json → Option PayloadRef × Artifacts
  | none => (none, artifacts)
  | some value =>
    let (payload, artifacts) := storePayload codec artifacts value
    (some payload, artifacts)

/-- The payload half of `canonicalized_for_hash`. -/
def canonicalizedPayload : Option PayloadRef → Option PayloadRef
  | some (.inline value) => some (.inline value.canonicalizeValue)
  | other => other

def canonicalizedForHash (e : RunEvent) : RunEvent :=
  { e with input := canonicalizedPayload e.input, output := canonicalizedPayload e.output }

/-- The bytes the chain hashes for an event already in canonical form. -/
def linkBytes (prev : String) (e : RunEvent) : Bytes :=
  Json.utf8 prev ++ codec.toVec (eventJson codec e)

def chainedHash (prev : String) (e : RunEvent) : String :=
  codec.sha256Hex (linkBytes codec prev (canonicalizedForHash e))

def recomputeHeadHash (events : List RunEvent) : String :=
  events.foldl (chainedHash codec) (codec.sha256Hex [])

namespace Journal

def new (codec : Codec) (runId threadId : String) : Journal :=
  ⟨runId, threadId, [], ∅, codec.sha256Hex []⟩

/-- `Journal::record` at the time `now`: the id of the event, and the journal with it. -/
def record (codec : Codec) (j : Journal) (draft : EventDraft) (now : Int) : String × Journal :=
  let seq := UInt64.ofNat j.events.length
  let id := s!"{j.runId}:{seq}"
  let (input, artifacts) := storeOptional codec j.artifacts draft.input
  let (output, artifacts) := storeOptional codec artifacts draft.output
  let event : RunEvent :=
    { id, runId := j.runId, threadId := j.threadId, nodeId := draft.nodeId, seq
      kind := draft.kind, effect := draft.effect, input, output, latencyMs := draft.latencyMs
      tokens := draft.tokens, costUsd := draft.costUsd, status := draft.status
      parent := draft.parent, recordedAt := now }
  (id, { j with
    events := j.events ++ [event], artifacts, headHash := chainedHash codec j.headHash event })

def headRef (j : Journal) : JournalRef := ⟨j.events.length, j.headHash⟩

def resolve (j : Journal) : PayloadRef → Option Json
  | .inline value => some value
  | .artifact reference => j.artifacts[reference.sha256]?

end Journal

/-! ## Snapshots -/

structure JournalSnapshot where
  runId : String
  threadId : String
  events : List RunEvent
  artifacts : Artifacts
  artifactRefs : Std.ExtTreeMap String ArtifactRef
  headHash : String

/-- `FileArtifactStore`: address to bytes. -/
structure ArtifactStore where
  blobs : Std.ExtTreeMap String Bytes

namespace ArtifactStore

/-- A blob that is already there is taken to be these bytes. -/
def put (codec : Codec) (store : ArtifactStore) (bytes : Bytes) : ArtifactRef × ArtifactStore :=
  let reference := ⟨codec.sha256Hex bytes, UInt64.ofNat bytes.length⟩
  (reference, ⟨store.blobs.insertIfNew reference.sha256 bytes⟩)

def get (codec : Codec) (store : ArtifactStore) (sha256 : String) : Result Bytes :=
  match store.blobs[sha256]? with
  | none => .error (.serialization
      s!"read artifact `{sha256}`: No such file or directory (os error 2)")
  | some bytes =>
    let actual := codec.sha256Hex bytes
    if actual = sha256 then .ok bytes
    else .error (.serialization
      (s!"artifact integrity failure: `{sha256}` re-hashes to `{actual}`; " ++
       "the stored bytes are corrupt"))

end ArtifactStore

namespace Journal

def snapshot (j : Journal) : JournalSnapshot :=
  ⟨j.runId, j.threadId, j.events, j.artifacts, ∅, j.headHash⟩

variable (codec : Codec)

/-- One artifact of `snapshot_externalized`. -/
def externalizeOne (acc : Std.ExtTreeMap String ArtifactRef × ArtifactStore)
    (entry : String × Json) : Std.ExtTreeMap String ArtifactRef × ArtifactStore :=
  let (reference, store) := acc.2.put codec (codec.toVec entry.2)
  (acc.1.insert entry.1 reference, store)

/-- `Journal::snapshot_externalized`, with the store it leaves behind. -/
def snapshotExternalized (j : Journal) (store : ArtifactStore) : JournalSnapshot × ArtifactStore :=
  let (refs, store) := j.artifacts.toList.foldl (externalizeOne codec) (∅, store)
  ({ j.snapshot with artifacts := ∅, artifactRefs := refs }, store)

def fromSnapshot (s : JournalSnapshot) : Result Journal :=
  if ¬ s.artifactRefs.isEmpty then
    .error (.serialization
      ("journal snapshot references an external artifact store; " ++
       "load it with Journal::from_snapshot_with_store"))
  else
    let headHash := recomputeHeadHash codec s.events
    if headHash ≠ s.headHash then
      .error (.serialization
        (s!"journal snapshot head hash mismatch: events recompute to {headHash}, snapshot " ++
         s!"claims {s.headHash}"))
    else .ok ⟨s.runId, s.threadId, s.events, s.artifacts, headHash⟩

/-- One reference of `from_snapshot_with_store`: fetched, parsed and embedded again. -/
def fetchOne (store : ArtifactStore) (artifacts : Artifacts) (entry : String × ArtifactRef) :
    Result Artifacts :=
  match store.get codec entry.2.sha256 with
  | .error e => .error e
  | .ok bytes =>
    match codec.fromSlice bytes with
    | none => .error (.serialization s!"artifact `{entry.1}` is not valid JSON")
    | some value => .ok (artifacts.insert entry.1 value)

def fromSnapshotWithStore (s : JournalSnapshot) (store : ArtifactStore) : Result Journal :=
  match s.artifactRefs.toList.foldlM (fetchOne codec store) s.artifacts with
  | .error e => .error e
  | .ok artifacts => fromSnapshot codec { s with artifacts, artifactRefs := ∅ }

end Journal

/-! ## The check of the replay path -/

def RunEvent.payloads (e : RunEvent) : List PayloadRef := e.input.toList ++ e.output.toList

/-- The artifact loop of `verify_snapshot`. -/
def verifyArtifact (codec : Codec) (entry : String × Json) : Result Unit :=
  let actual := contentAddress codec entry.2
  if actual = entry.1 then .ok ()
  else .error (.replay
    (s!"journal snapshot artifact integrity failure: artifact stored under {entry.1} hashes to " ++
     s!"{actual} — the snapshot was tampered with or corrupted"))

/-- The reference loop of `verify_snapshot`, for one payload of one event. -/
def verifyReference (artifacts : Artifacts) (e : RunEvent) : PayloadRef → Result Unit
  | .inline _ => .ok ()
  | .artifact reference =>
    if artifacts.contains reference.sha256 then .ok ()
    else .error (.replay
      (s!"journal snapshot is truncated: event {e.id} references artifact {reference.sha256} " ++
       "which is absent from the artifact map"))

/-- `verify_snapshot` of `replay.rs`. -/
def verifySnapshot (codec : Codec) (s : JournalSnapshot) : Result Unit := do
  let _ ← Journal.fromSnapshot codec s
  s.artifacts.toList.forM (verifyArtifact codec)
  s.events.forM fun e => e.payloads.forM (verifyReference s.artifacts e)

end RustyRuntime
