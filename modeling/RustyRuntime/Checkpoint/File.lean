import RustyRuntime.Checkpoint.Memory
import RustyRuntime.Library.Text

/-!
# The JSON-file backend

`JsonFileCheckpointer` of `checkpoint.rs`. A thread directory holds one file per checkpoint
id and the `latest` pointer; the process holds the cached chain heads. Writes go through
`encodeDelta`, reads fold the chains back.

* A file holds the checkpoint that was serialized into it, or bytes that do not parse: file
  reads return what was written and `serde_json` round-trips.
* Ids and thread ids are plain file names, so a path is its thread and its id.
* Directory entries and hash-map keys come in no particular order in the source. Every use
  of them is sorted or a maximum, and the model takes them in key order.
* A missing thread directory reads as an empty one.

Loops that follow base links carry a fuel argument that bounds their turns.
-/

namespace RustyRuntime

/-- What one `{id}.json` file holds. -/
inductive FileContent where
  | checkpoint (c : Checkpoint)
  | corrupt (reason : String)

/-- `{dir}/{thread_id}/`. -/
structure ThreadDir where
  files : Std.ExtTreeMap String FileContent
  latest : Option String

/-- The configuration of the backend and the serializer it measures states with. -/
structure FileConfig where
  dir : String
  policy : DeltaPolicy
  codec : Codec

/-- The disk, and the in-process head cache. -/
structure JsonFileCheckpointer where
  dirs : Std.ExtTreeMap String ThreadDir
  heads : Std.ExtTreeMap String DeltaHead

/-! ## Folding a whole thread -/

/-- The inner loop of `materialize_all`: from `current` up its base chain to a full root or
to a checkpoint that is already materialized. The links come back root first. -/
def walkChain (byId memo : Std.ExtTreeMap String Checkpoint) :
    Nat → List String → List Checkpoint → Checkpoint → Option (Checkpoint × List Checkpoint)
  | 0, _, _, _ => none
  | fuel + 1, visiting, links, current =>
    if current.id ∈ visiting then none
    else
      match memo[current.id]? with
      | some materialized => some (materialized, links)
      | none =>
        match current.base with
        | none => some (current, links)
        | some baseId =>
          match byId[baseId]? with
          | none => none
          | some base => walkChain byId memo fuel (current.id :: visiting) (current :: links) base

/-- Folding the collected links, each of them remembered. -/
def foldLinks (tip : Checkpoint) (memo : Std.ExtTreeMap String Checkpoint) :
    List Checkpoint → Checkpoint × Std.ExtTreeMap String Checkpoint
  | [] => (tip, memo)
  | link :: rest =>
    let tip := foldDelta tip link
    foldLinks tip (memo.insert link.id tip) rest

/-- One turn of the outer loop of `materialize_all`. -/
def materializeStart (byId : Std.ExtTreeMap String Checkpoint)
    (acc : Std.ExtTreeMap String Checkpoint × List Checkpoint) (start : Checkpoint) :
    Std.ExtTreeMap String Checkpoint × List Checkpoint :=
  match acc.1[start.id]? with
  | some materialized => (acc.1, acc.2 ++ [materialized])
  | none =>
    match walkChain byId acc.1 (byId.size + 1) [] [] start with
    -- a cycle or a missing base: the chain is skipped with a warning
    | none => acc
    | some (root, links) =>
      let (tip, memo) := foldLinks root acc.1 links
      (memo, acc.2 ++ [tip])

def indexById (raw : List Checkpoint) : Std.ExtTreeMap String Checkpoint :=
  Library.insertAll (raw.map fun c => (c.id, c)) ∅

def materializeAll (raw : List Checkpoint) : List Checkpoint :=
  let byId := indexById raw
  ((byId.toList.map Prod.snd).foldl (materializeStart byId) (∅, [])).2

/-! ## Reading files -/

def ensureSupportedFormat (header : CheckpointHeader) (what : String) : Result Unit :=
  if currentFormatVersion < header.formatVersion then
    .error (.checkpoint
      (s!"{what} was written in checkpoint format version {header.formatVersion}, but this " ++
       s!"build supports version {currentFormatVersion} — upgrade the runtime to read it; newer " ++
       "checkpoint bytes are never silently reinterpreted"))
  else .ok ()

/-- How a direct checkpoint-file read failed. -/
inductive ReadFailure where
  | corrupt (e : RustyError)
  | unsupported (e : RustyError)

def ReadFailure.intoError : ReadFailure → RustyError
  | .corrupt e => e
  | .unsupported e => e

namespace JsonFileCheckpointer

variable (cfg : FileConfig) (store : JsonFileCheckpointer) (thread : String)

def new : JsonFileCheckpointer := ⟨∅, ∅⟩

/-- A process restart: the disk stays, the head cache is empty. -/
def restart : JsonFileCheckpointer := { store with heads := ∅ }

def threadDir : ThreadDir :=
  store.dirs[thread]?.getD ⟨∅, none⟩

def checkpointPath (thread id : String) : String := s!"{cfg.dir}/{thread}/{id}.json"

def readCheckpoint (id : String) : Except ReadFailure Checkpoint :=
  let path := checkpointPath cfg thread id
  match (store.threadDir thread).files[id]? with
  | none => .error (.corrupt (.checkpoint
      s!"failed to read checkpoint file `{path}`: No such file or directory (os error 2)"))
  | some (.corrupt reason) => .error (.corrupt (.checkpoint
      s!"corrupt checkpoint file `{path}`: {reason}"))
  | some (.checkpoint c) =>
    match ensureSupportedFormat c.header s!"checkpoint `{c.id}` (file `{path}`)" with
    | .error e => .error (.unsupported e)
    | .ok () => .ok c

/-- One directory entry of a scan: a corrupt file is skipped, a newer format is refused. -/
def scanEntry (found : List Checkpoint) (id : String) : Result (List Checkpoint) :=
  match readCheckpoint cfg store thread id with
  | .ok c => .ok (found ++ [c])
  | .error (.unsupported e) => .error e
  | .error (.corrupt _) => .ok found

/-- `scan_thread_raw`. The file `.json` of an empty id has no extension and is not read. -/
def scanThreadRaw : Result (List Checkpoint) :=
  ((store.threadDir thread).files.keys.filter (· ≠ "")).foldlM (scanEntry cfg store thread) []

/-- `max_by` on `(created_at, id)`, the last of equal maxima. -/
def newest (raw : List Checkpoint) : Option Checkpoint :=
  (Library.sortByKey (fun c => toLex (c.createdAt, c.id)) raw).getLast?

def readLatestRaw : Result (Option Checkpoint) :=
  let fallback := (scanThreadRaw cfg store thread).map newest
  match (store.threadDir thread).latest with
  | none => fallback
  | some pointer =>
    if Library.trim pointer = "" then fallback
    else
      match readCheckpoint cfg store thread (Library.trim pointer) with
      | .ok c => .ok (some c)
      | .error (.unsupported e) => .error e
      | .error (.corrupt _) => fallback

/-! ## Chains and the head cache -/

/-- The largest `usize`, where `saturating_mul` stops. -/
def usizeMax : Nat := 2 ^ 64 - 1

def foldBound : Nat := max (min (cfg.policy.maxChainLen.toNat * 4) usizeMax) 128

/-- The loop of `load_chain`. The list holds the newest link last, root first, so the
`reverse` at the end of the source is already done. -/
def loadChainFrom :
    Nat → List String → Checkpoint → List Checkpoint → Result (List Checkpoint)
  | 0, _, _, _ => .error (.checkpoint "unreachable: the fold bound stops the loop before")
  | fuel + 1, visited, top, above =>
    match top.base with
    | none => .ok (top :: above)
    | some baseId =>
      if baseId ∈ visited then
        .error (.checkpoint
          s!"checkpoint delta chain in thread `{thread}` has a cycle at `{baseId}`")
      else if foldBound cfg < above.length + 1 then
        let bound := foldBound cfg
        .error (.checkpoint
          (s!"checkpoint delta chain in thread `{thread}` exceeds {bound} links; " ++
           s!"refusing to fold (write bound is {cfg.policy.maxChainLen})"))
      else
        match readCheckpoint cfg store thread baseId with
        | .error failure => .error failure.intoError
        | .ok base => loadChainFrom fuel (baseId :: visited) base (top :: above)

def loadChain (tip : Checkpoint) : Result (List Checkpoint) :=
  loadChainFrom cfg store thread (foldBound cfg + 2) [] tip []

/-- `head_of`, with the cache entry a cold read leaves behind. -/
def headOf : Result (Option DeltaHead) × JsonFileCheckpointer :=
  match store.heads[thread]? with
  | some head => (.ok (some head), store)
  | none =>
    match readLatestRaw cfg store thread with
    | .error e => (.error e, store)
    | .ok none => (.ok none, store)
    | .ok (some raw) =>
      match loadChain cfg store thread raw with
      | .error e => (.error e, store)
      | .ok chain =>
        match foldChain chain with
        | .error e => (.error e, store)
        | .ok checkpoint =>
          let head := ⟨checkpoint, chain.length - 1⟩
          (.ok (some head), { store with heads := store.heads.insert thread head })

/-! ## The checkpointer -/

/-- The writes of `put_internal`: the file, the pointer, and the cached head, which is the
checkpoint as it was put. -/
def write (c : Checkpoint) (encoding : DeltaEncoding) : JsonFileCheckpointer :=
  let dir := store.threadDir c.threadId
  { dirs := store.dirs.insert c.threadId
      ⟨dir.files.insert c.id (.checkpoint encoding.checkpoint), some c.id⟩
    heads := store.heads.insert c.threadId ⟨c, encoding.chainLen⟩ }

def putInternal (c : Checkpoint) (forceFull : Bool) :
    Result Unit × JsonFileCheckpointer :=
  if (store.threadDir c.threadId).files.contains c.id then (.error (duplicateIdError c), store)
  else if forceFull then (.ok (), store.write c (.full c))
  else
    match headOf cfg store c.threadId with
    | (.error e, store) => (.error e, store)
    | (.ok head, store) =>
      (.ok (), store.write c (encodeDelta cfg.codec c head cfg.policy))

def put (c : Checkpoint) : Result Unit × JsonFileCheckpointer :=
  putInternal cfg store c false

/-- A raw checkpoint through its chain, as `get_latest` and `get_by_id` fold it. -/
def foldRaw (raw : Checkpoint) : Result (Option Checkpoint) :=
  if raw.base = none then .ok (some raw)
  else
    match loadChain cfg store thread raw with
    | .error e => .error e
    | .ok chain => (foldChain chain).map some

def getLatest : Result (Option Checkpoint) :=
  match readLatestRaw cfg store thread with
  | .error e => .error e
  | .ok none => .ok none
  | .ok (some raw) => foldRaw cfg store thread raw

def list : Result (List Checkpoint) :=
  (scanThreadRaw cfg store thread).map fun raw => sortHistory (materializeAll raw)

def getById (id : String) : Result (Option Checkpoint) :=
  match readCheckpoint cfg store thread id with
  | .ok raw => foldRaw cfg store thread raw
  | .error (.unsupported e) => .error e
  -- absent or unreadable: what the scan would have answered
  | .error (.corrupt _) => (list cfg store thread).map (·.find? (fun c => c.id = id))

/-- The override of `fork_thread`: copies are full snapshots. -/
def forkThread (src dst : String)
    (atCheckpointId : Option String) : Result Nat × JsonFileCheckpointer :=
  forkThreadWith (list cfg) (fun store c => putInternal cfg store { c with base := none } true)
    store src dst atCheckpointId

end JsonFileCheckpointer

end RustyRuntime
