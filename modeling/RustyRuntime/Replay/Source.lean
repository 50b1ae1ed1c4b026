import RustyRuntime.Journal.Records

/-!
# The serving cursor of exact replay

`ReplaySource` of `replay.rs`: the recorded effects of a snapshot in order, each with the gate
evidence journaled inside it, and a cursor. `serve` answers a request from the effect at the
cursor when the kind and the request's hash agree, and refuses it otherwise.

The source keeps the effects and their nested evidence in two parallel vectors; here they are
one list of pairs.
-/

namespace RustyRuntime

/-! ## Kinds of events -/

/-- Membership in `SERVABLE_KINDS`. -/
def isServable : RunEventKind → Bool
  | .modelCall | .toolCall | .remoteCall | .wasmCall => true
  | _ => false

/-- Membership in `NESTED_EVIDENCE_KINDS`. -/
def isNestedEvidence : RunEventKind → Bool
  | .approvalAsked | .approvalDecided => true
  | _ => false

theorem isServable_of_isNestedEvidence {kind : RunEventKind} (h : isNestedEvidence kind) :
    isServable kind = false := by
  unfold isNestedEvidence at h
  split at h
  · rfl
  · rfl
  · cases h

/-- The `Debug` text of a kind: its variant name. -/
def RunEventKind.debug (kind : RunEventKind) : String :=
  String.join ((kind.name.splitOn "_").map String.capitalize)

/-! ## Building the source -/

/-- The accumulators of the walk over the recorded events. -/
structure Scan where
  servable : List (RunEvent × List RunEvent)
  pending : List RunEvent
  stray : List UInt64

def Scan.event (s : Scan) (e : RunEvent) : Scan :=
  if isServable e.kind then { s with servable := s.servable ++ [(e, s.pending)], pending := [] }
  else if isNestedEvidence e.kind then { s with pending := s.pending ++ [e] }
  else { s with pending := [], stray := s.stray ++ s.pending.map (·.seq) }

structure ReplaySource where
  servable : List (RunEvent × List RunEvent)
  stray : List UInt64
  artifacts : Artifacts
  cursor : Nat

def ReplaySource.new (snapshot : JournalSnapshot) : ReplaySource :=
  let s := snapshot.events.foldl Scan.event ⟨[], [], []⟩
  ⟨s.servable, s.stray ++ s.pending.map (·.seq), snapshot.artifacts, 0⟩

theorem foldl_event_nested {events : List RunEvent}
    (hNested : ∀ e ∈ events, isNestedEvidence e.kind) (s : Scan) :
    events.foldl Scan.event s = { s with pending := s.pending ++ events } := by
  induction events generalizing s with
  | nil => simp
  | cons e rest ih =>
    obtain ⟨hE, hRest⟩ := List.forall_mem_cons.mp hNested
    have hStep : s.event e = { s with pending := s.pending ++ [e] } := by
      simp [Scan.event, isServable_of_isNestedEvidence hE, hE]
    rw [List.foldl_cons, hStep, ih hRest]
    simp

def Nests (effect : RunEvent × List RunEvent) : Prop :=
  isServable effect.1.kind ∧ ∀ e ∈ effect.2, isNestedEvidence e.kind

theorem foldl_event_effects {effects : List (RunEvent × List RunEvent)}
    (hNests : ∀ effect ∈ effects, Nests effect) (servable : List (RunEvent × List RunEvent))
    (stray : List UInt64) :
    (effects.flatMap fun effect => effect.2 ++ [effect.1]).foldl Scan.event ⟨servable, [], stray⟩ =
      ⟨servable ++ effects, [], stray⟩ := by
  induction effects generalizing servable with
  | nil => simp
  | cons effect rest ih =>
    obtain ⟨⟨hServable, hNested⟩, hRest⟩ := List.forall_mem_cons.mp hNests
    have hStep : Scan.event ⟨servable, effect.2, stray⟩ effect.1 =
        ⟨servable ++ [effect], [], stray⟩ := by
      simp [Scan.event, hServable]
    rw [List.flatMap_cons, List.foldl_append, List.foldl_append, foldl_event_nested hNested]
    simp only [List.nil_append, List.foldl_cons, List.foldl_nil, hStep]
    rw [ih hRest, List.append_assoc]
    rfl

/-! ## Serving -/

def requestHash (codec : Codec) (request : Json) : String := contentAddress codec request

def resolveRef (artifacts : Artifacts) : PayloadRef → Option Json
  | .inline value => some value
  | .artifact reference => artifacts[reference.sha256]?

/-- A recorded event with its payloads looked up. -/
structure ServedEvent where
  event : RunEvent
  input : Option Json
  output : Option Json

/-- `ServedEffect`. The nested evidence has none of its own. -/
structure ServedEffect extends ServedEvent where
  nested : List ServedEvent

def ServedEvent.recordedDraft (s : ServedEvent) : EventDraft :=
  { kind := s.event.kind, effect := s.event.effect, nodeId := s.event.nodeId, input := s.input
    output := s.output, latencyMs := s.event.latencyMs, tokens := s.event.tokens
    costUsd := s.event.costUsd, status := s.event.status }

namespace ReplaySource

section

variable (source : ReplaySource)

def served (e : RunEvent) : ServedEvent :=
  ⟨e, e.input.bind (resolveRef source.artifacts), e.output.bind (resolveRef source.artifacts)⟩

def serve (codec : Codec) (source : ReplaySource) (kind : RunEventKind) (request : Json) :
    Result (ServedEffect × ReplaySource) :=
  if ¬ isServable kind then
    .error (.replay
      (s!"{kind.debug} is not a servable effect kind; exact replay serves only " ++
       "[ModelCall, ToolCall, RemoteCall, WasmCall] — executor-derived events are reproduced " ++
       "by re-execution, not served"))
  else
    let issuedHash := requestHash codec request
    match source.servable[source.cursor]? with
    | none => .error (.replay
        (s!"replay exhaustion: the run issued a {kind.debug} call (request hash {issuedHash}), " ++
         "but the journal holds no further recorded effects to serve — the replayed run is " ++
         "doing more work than the recorded one"))
    | some (event, nested) =>
      if event.kind ≠ kind then
        .error (.replay
          (s!"replay order violation at recorded seq {event.seq}: the run issued a " ++
           s!"{kind.debug} call, but the next unserved recorded effect is " ++
           s!"{event.kind.debug} — exact replay requires effects in journaled sequence order"))
      else
        match event.input.bind (resolveRef source.artifacts) with
        | none => .error (.replay
            (s!"recorded {event.kind.debug} at seq {event.seq} has no input payload to match " ++
             "against"))
        | some recordedInput =>
          let recordedHash := requestHash codec recordedInput
          if recordedHash ≠ issuedHash then
            .error (.replay
              (s!"replay divergence at recorded seq {event.seq} ({event.kind.debug}): the run " ++
               s!"issued a request whose canonical hash is {issuedHash}, but the journaled " ++
               s!"request hashes to {recordedHash} — the replayed run has diverged from its " ++
               "evidence"))
          else
            .ok (⟨source.served event, nested.map source.served⟩,
              { source with cursor := source.cursor + 1 })

def isExhausted : Bool := source.cursor = source.servable.length

/-- The effects still to serve. -/
def rest : List (RunEvent × List RunEvent) :=
  source.servable.drop source.cursor

theorem getElem?_cursor : source.servable[source.cursor]? = source.rest.head? := by
  rw [rest, List.head?_drop]

end

variable {source : ReplaySource} {effect : RunEvent × List RunEvent}
  {more : List (RunEvent × List RunEvent)}

theorem rest_next (hRest : source.rest = effect :: more) :
    ({ source with cursor := source.cursor + 1 } : ReplaySource).rest = more := by
  have hTail := congrArg List.tail hRest
  rwa [rest, List.tail_drop] at hTail

theorem exists_serve_exhausted (codec : Codec) (hRest : source.rest = []) (kind : RunEventKind)
    (request : Json) : ∃ e, source.serve codec kind request = .error e := by
  unfold serve
  rw [getElem?_cursor, hRest]
  split
  · exact ⟨_, rfl⟩
  · exact ⟨_, rfl⟩

/-- **What the cursor serves.** A request of the recorded kind and hash gets the recorded
effect, and every other request is refused. -/
theorem serve_eq (codec : Codec) {input : Json} (hRest : source.rest = effect :: more)
    (hServable : isServable effect.1.kind)
    (hInput : effect.1.input.bind (resolveRef source.artifacts) = some input) (kind : RunEventKind)
    (request : Json) :
    if effect.1.kind = kind ∧ requestHash codec input = requestHash codec request then
      source.serve codec kind request =
        .ok (⟨source.served effect.1, effect.2.map source.served⟩,
          { source with cursor := source.cursor + 1 })
    else ∃ e, source.serve codec kind request = .error e := by
  have hCursor : source.servable[source.cursor]? = some effect := by
    rw [getElem?_cursor, hRest]
    rfl
  by_cases hKind : effect.1.kind = kind
  · subst hKind
    by_cases hHash : requestHash codec input = requestHash codec request
    · rw [if_pos ⟨rfl, hHash⟩]
      simp [serve, hServable, hCursor, hInput, hHash]
    · rw [if_neg (fun h => hHash h.2)]
      simp [serve, hServable, hCursor, hInput, hHash]
  · rw [if_neg (fun h => hKind h.1)]
    by_cases hAsked : isServable kind
    · simp [serve, hAsked, hCursor, hKind]
    · simp [serve, hAsked]

end ReplaySource

end RustyRuntime
