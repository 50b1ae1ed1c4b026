import RustyRuntime.Llm
import RustyRuntime.Replay.Source

/-!
# Recording and replaying a program's calls

`RecordingChatModel`, `RecordingTool` and their replaying counterparts, the approval gate a
gated tool journals through, and the logical clock all of them read. A `Program` is a
deterministic program that makes model and tool calls: it goes on with the answer it gets.
`record` runs it on the recording wrappers, `replay` on the replaying ones.

A clock is the sequence of its readings; `LogicalClock.reading` is that of the source's logical
clock. The wrapped models and tools answer anything they like: `Inner` gives what the `n`-th
call of the recorded run returns and which approvals it journals on the way. The streaming
call is not modelled.
-/

namespace RustyRuntime

/-! ## The logical clock -/

/-- `LogicalClockState`. -/
structure LogicalClock where
  nowMs : UInt64
  tickMs : UInt64

namespace LogicalClock

/-- The clock after one read: `saturating_add` of the tick. -/
def tick (c : LogicalClock) : LogicalClock :=
  { c with nowMs := UInt64.ofNat (min (c.nowMs.toNat + c.tickMs.toNat) (2 ^ 64 - 1)) }

/-- What a read returns, in nanoseconds: `from_timestamp_millis`, with the epoch for a time past
the last one the date type represents. -/
def instant (lastMs : Nat) (c : LogicalClock) : Int :=
  let millis := min c.nowMs.toNat (2 ^ 63 - 1)
  if millis ≤ lastMs then millis * 1000000 else 0

/-- The `n`-th read of a fresh clock. -/
def reading (lastMs : Nat) (c : LogicalClock) (n : Nat) : Int := (tick^[n] c).instant lastMs

end LogicalClock

/-! ## A journal with its clock -/

/-- A journal, and how often its clock has been read. -/
structure Session where
  journal : Journal
  reads : Nat

namespace Session

variable (codec : Codec) (clock : Nat → Int)

def fresh (runId threadId : String) : Session := ⟨.new codec runId threadId, 0⟩

def now (s : Session) : Int × Session := (clock s.reads, { s with reads := s.reads + 1 })

/-- `Journal::record`, which reads the clock for the timestamp. -/
def record (s : Session) (draft : EventDraft) : String × Session :=
  let (now, s) := s.now clock
  let (id, journal) := s.journal.record codec draft now
  (id, { s with journal })

end Session

/-! ## The approval gate -/

structure ApprovalRequest where
  kind : String
  effectId : Option String
  detail : Option Json

inductive ApprovalDecision where
  | approvedOnce (approvedBy : String)
  | rejected (decidedBy : String) (reason : Option String)
  | cancelled (reason : Option String)
  | unavailable (reason : Option String)

/-- A use of a gate: its causal anchor, what it asks and what is decided. -/
structure Approval where
  anchor : Option String
  request : ApprovalRequest
  decision : ApprovalDecision

section

variable (codec : Codec) (text : Json → String) (seq : UInt64) (value : Json)

def approvalRequestJson (r : ApprovalRequest) : Json :=
  Json.sparse [("kind", some (.str r.kind)), ("effect_id", r.effectId.map .str),
    ("detail", r.detail)]

/-- `ApprovalDecision`, internally tagged. -/
def approvalDecisionJson : ApprovalDecision → Json
  | .approvedOnce approvedBy =>
    Json.sparse [("decision", some (.str "approved_once")), ("approved_by", some (.str approvedBy))]
  | .rejected decidedBy reason =>
    Json.sparse [("decision", some (.str "rejected")), ("decided_by", some (.str decidedBy)),
      ("reason", reason.map .str)]
  | .cancelled reason =>
    Json.sparse [("decision", some (.str "cancelled")), ("reason", reason.map .str)]
  | .unavailable reason =>
    Json.sparse [("decision", some (.str "unavailable")), ("reason", reason.map .str)]

/-- `ApprovalOutcome`. -/
def approvalOutcomeJson (a : Approval) : Json :=
  Json.sparse [("kind", some (.str a.request.kind)), ("effect_id", a.request.effectId.map .str),
    ("decision", some (approvalDecisionJson a.decision))]

def askedDraft (a : Approval) : EventDraft :=
  { kind := .approvalAsked, effect := .pure, input := some (approvalRequestJson a.request)
    parent := a.anchor }

def decidedDraft (a : Approval) (askedId : String) : EventDraft :=
  { kind := .approvalDecided, effect := .pure, output := some (approvalOutcomeJson a)
    parent := some askedId }

/-- `ApprovalGate::decide`. -/
def gateDecide (clock : Nat → Int) (s : Session) (a : Approval) : Session :=
  let (askedId, s) := s.record codec clock (askedDraft a)
  (s.record codec clock (decidedDraft a askedId)).2

/-! ## Canonical shapes -/

/-- What a chat call is made with, the ambient call parameters included. -/
structure ChatRequest where
  messages : List ChatMessage
  tools : List Json
  params : Option Json := none

def modelCallRequest (r : ChatRequest) : Json :=
  Json.sparse [("messages", some (.arr (r.messages.map messageJson))),
    ("tools", some (.arr r.tools)), ("params", r.params)]

def modelCallResponse (r : ChatResponse) : Json :=
  Json.object [("message", messageJson r.message), ("model", optionJson .str r.model),
    ("usage", optionJson usageValue r.usage)]

def toolCallRequest (name : String) (arguments : Json) : Json :=
  Json.object [("tool", .str name), ("arguments", arguments)]

/-- The output of a failed call. -/
def failureJson (e : RustyError) : Json := Json.object [("error", .str e.display)]

/-- A value read by serde, `text` being what serde says of one it refuses. -/
def decoded {α : Type} (read : Json → Option α) (value : Json) : Result α :=
  match read value with
  | some a => .ok a
  | none => .error (.serialization (text value))

/-- A key that `chat_response_from_recorded` asks for. -/
def recordedKey (key : String) : Result Json :=
  match value.get key with
  | some v => .ok v
  | none => .error (.replay
      (s!"recorded model call at seq {seq} is malformed: output payload has no `{key}` key"))

def chatResponseFromRecorded : Result ChatResponse := do
  let message ← decoded text (decodeMessage codec) (← recordedKey seq value "message")
  let model ← decoded text (Json.readOption Json.asStr) (← recordedKey seq value "model")
  let usage ← decoded text (Json.readOption decodeUsage) (← recordedKey seq value "usage")
  return { message, model, usage }

end

/-! ## The recording wrappers -/

/-- What a wrapped call did: the approvals it journaled, and its result. -/
structure Answer (α : Type) where
  approvals : List Approval
  result : Result α

/-- The wrapped model as the wrapper sees it, and where the wrapper stands in the run. -/
structure ChatSite where
  parent : String
  nodeId : Option String
  effect : Effect
  pricing : Option (Usage → Rat)

structure ToolSite where
  name : String
  parent : String
  nodeId : Option String
  effect : Effect

/-- The latency of a call in milliseconds. -/
def latencyMs (started ended : Int) : UInt64 := UInt64.ofNat ((ended - started).tdiv 1000000).toNat

/-- The draft `journal_outcome` records. -/
def ChatSite.outcomeDraft (site : ChatSite) (latency : UInt64) (input : Json) :
    Result ChatResponse → EventDraft
  | .ok response =>
    { kind := .modelCall, effect := site.effect, nodeId := site.nodeId, input := some input
      output := some (modelCallResponse response), latencyMs := some latency
      tokens := response.usage
      costUsd := response.usage.bind fun usage => site.pricing.map fun price => price usage
      parent := some site.parent }
  | .error e =>
    { kind := .modelCall, effect := site.effect, nodeId := site.nodeId, input := some input
      output := some (failureJson e), latencyMs := some latency, status := .error
      parent := some site.parent }

def ToolSite.outcomeDraft (site : ToolSite) (latency : UInt64) (args : Json) :
    Result Json → EventDraft
  | .ok value =>
    { kind := .toolCall, effect := site.effect, nodeId := site.nodeId
      input := some (toolCallRequest site.name args), output := some value
      latencyMs := some latency, parent := some site.parent }
  | .error e =>
    { kind := .toolCall, effect := site.effect, nodeId := site.nodeId
      input := some (toolCallRequest site.name args), output := some (failureJson e)
      latencyMs := some latency, status := .error, parent := some site.parent }

section Wrappers

variable (codec : Codec) (clock : Nat → Int)

variable (text : Json → String) (site : ChatSite) (request : ChatRequest)

/-- The body both recording wrappers share: a clock read, the wrapped call with the approvals it
journals, a second clock read, and the outcome recorded. -/
def recordCall (s : Session) (approvals : List Approval) (outcome : UInt64 → EventDraft) :
    Session :=
  let (started, s) := s.now clock
  let s := approvals.foldl (gateDecide codec clock) s
  let (ended, s) := s.now clock
  (s.record codec clock (outcome (latencyMs started ended))).2

/-- `RecordingChatModel::chat`. -/
def recordingChat (answer : Answer ChatResponse) (s : Session) : Result ChatResponse × Session :=
  (answer.result, recordCall codec clock s answer.approvals fun latency =>
    site.outcomeDraft latency (modelCallRequest request) answer.result)

/-- `RecordingTool::call`. -/
def recordingCall (site : ToolSite) (args : Json) (answer : Answer Json) (s : Session) :
    Result Json × Session :=
  (answer.result, recordCall codec clock s answer.approvals fun latency =>
    site.outcomeDraft latency args answer.result)

/-! ## The replaying wrappers -/

/-- A replayed run: its journal, the cursor, and the calls the cursor refused. -/
structure Replay where
  session : Session
  source : ReplaySource
  refused : List RustyError

def rejournalRecorded (s : Session) (e : ServedEvent) : Session :=
  (s.record codec clock { e.recordedDraft with parent := e.event.parent }).2

/-- The body both replaying wrappers share: serve, journal the nested evidence again, read the
clock twice, and journal the effect under the wrapper's parent. -/
def replayCall (kind : RunEventKind) (request : Json) (parent : String) (r : Replay) :
    Result ServedEffect × Replay :=
  match r.source.serve codec kind request with
  | .error e => (.error e, { r with refused := r.refused ++ [e] })
  | .ok (served, source) =>
    let s := served.nested.foldl (rejournalRecorded codec clock) r.session
    let (_, s) := s.now clock
    let (_, s) := s.now clock
    let (_, s) := s.record codec clock { served.recordedDraft with parent := some parent }
    (.ok served, { r with session := s, source })

def recordedErrorText (output : Option Json) : String :=
  ((output.bind (Json.get "error")).bind Json.asStr).getD "<no recorded error payload>"

/-- What `ReplayingChatModel::chat` makes of a served effect. -/
def servedResponse (served : ServedEffect) : Result ChatResponse :=
  match served.event.status with
  | .ok =>
    match served.output with
    | some output => chatResponseFromRecorded codec text served.event.seq output
    | none => .error (.replay
        (s!"recorded model call at seq {served.event.seq} succeeded but carries no output " ++
         "payload"))
  | .error => .error (.llm
      (s!"replayed model call at seq {served.event.seq} failed as recorded: " ++
       recordedErrorText served.output))
  | .interrupted => .error (.replay
      (s!"recorded model call at seq {served.event.seq} has status `interrupted`, which model " ++
       "calls never produce — the journal is inconsistent"))

/-- What `ReplayingTool::call` makes of a served effect. -/
def servedValue (served : ServedEffect) : Result Json :=
  match served.event.status with
  | .ok =>
    match served.output with
    | some output => .ok output
    | none => .error (.replay
        (s!"recorded tool call at seq {served.event.seq} succeeded but carries no output " ++
         "payload"))
  | .error => .error (.tool
      (s!"replayed tool call at seq {served.event.seq} failed as recorded: " ++
       recordedErrorText served.output))
  | .interrupted => .error (.replay
      (s!"recorded tool call at seq {served.event.seq} has status `interrupted`, which tool " ++
       "calls never produce — the journal is inconsistent"))

/-- `ReplayingChatModel::chat`. -/
def replayingChat (r : Replay) : Result ChatResponse × Replay :=
  let (served, r) := replayCall codec clock .modelCall (modelCallRequest request) site.parent r
  (served.bind (servedResponse codec text), r)

/-- `ReplayingTool::call`. -/
def replayingCall (site : ToolSite) (args : Json) (r : Replay) : Result Json × Replay :=
  let (served, r) := replayCall codec clock .toolCall (toolCallRequest site.name args)
    site.parent r
  (served.bind servedValue, r)

end Wrappers

/-! ## Programs -/

inductive Program (α : Type) where
  | done (a : α)
  | chat (site : ChatSite) (request : ChatRequest) (next : Result ChatResponse → Program α)
  | call (site : ToolSite) (args : Json) (next : Result Json → Program α)

/-- What the `n`-th call of the recorded run does. -/
structure Inner where
  chat : Nat → Answer ChatResponse
  call : Nat → Answer Json

namespace Program

variable {α : Type} (codec : Codec) (clock : Nat → Int)

/-- The program on the recording wrappers, from its `n`-th call on. -/
def record (inner : Inner) : Program α → Nat → Session → α × Session
  | .done a, _, s => (a, s)
  | .chat site request next, n, s =>
    let (result, s) := recordingChat codec clock site request (inner.chat n) s
    (next result).record inner (n + 1) s
  | .call site args next, n, s =>
    let (result, s) := recordingCall codec clock site args (inner.call n) s
    (next result).record inner (n + 1) s

def replay (text : Json → String) : Program α → Replay → α × Replay
  | .done a, r => (a, r)
  | .chat site request next, r =>
    let (result, r) := replayingChat codec clock text site request r
    (next result).replay text r
  | .call site args next, r =>
    let (result, r) := replayingCall codec clock site args r
    (next result).replay text r

end Program

def Replay.over (codec : Codec) (snapshot : JournalSnapshot) : Replay :=
  ⟨.fresh codec snapshot.runId snapshot.threadId, .new snapshot, []⟩

end RustyRuntime
