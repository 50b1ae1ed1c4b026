import RustyRuntime.Journal.Recorder

/-!
# The durable inbox

`Inbox` of `inbox.rs`. Sends wait in a pending buffer; the executor settles them into one of
three queues and journals each intake, and drains the queues at its own points. A checkpoint
stamps the queues, not the pending sends, and a resume seeds the inbox from the stamp only if
it has never accepted a send.

A clone of the handle shares the inbox, so the model is the state behind the lock and each
function is one locked operation. A replaying inbox takes its intakes and cancellations from
a recorded schedule.
-/

namespace RustyRuntime

/-! ## Data -/

inductive InboxTarget where
  | nextStep
  | nextTurn
  deriving DecidableEq, Repr

inductive CancelCause where
  | user
  | parent
  | hook
  | disposed
  deriving DecidableEq, Repr

def CancelCause.name : CancelCause → String
  | user => "user"
  | parent => "parent"
  | hook => "hook"
  | disposed => "disposed"

inductive ConsumptionPoint where
  | stepBoundary
  | turnStart
  | turnExtension
  deriving DecidableEq, Repr

def ConsumptionPoint.name : ConsumptionPoint → String
  | stepBoundary => "step_boundary"
  | turnStart => "turn_start"
  | turnExtension => "turn_extension"

/-- The wire name of a queue. -/
def InboxKind.name : InboxKind → String
  | steering => "steering"
  | followUp => "follow_up"
  | injected => "injected"

/-- The `Debug` name of a queue, as the refusals print it. -/
def InboxKind.debug : InboxKind → String
  | steering => "Steering"
  | followUp => "FollowUp"
  | injected => "Injected"

def InboxMessage.toValue (m : InboxMessage) : Json :=
  .object [("seq", .num (.posInt (UInt64.ofNat m.seq))), ("kind", .str m.kind.name),
    ("sender", .str m.sender), ("content", m.content)]

/-- What a `keep_inbox: false` cancellation dropped. -/
structure DroppedMessages where
  steering : Nat := 0
  followups : Nat := 0
  staged : Nat := 0
  pending : Nat := 0
  deriving DecidableEq, Repr

structure InboxBounds where
  maxPending : Nat := 1024
  maxSteering : Nat := 256
  maxFollowups : Nat := 256
  maxStaged : Nat := 256
  deriving DecidableEq, Repr

/-- One point of a recorded schedule, with the journal position it was recorded at. -/
inductive ScheduledPoint where
  | intake (seq : Nat) (message : InboxMessage)
  | cancel (seq : Nat) (cause : CancelCause) (keepInbox : Bool)
  deriving DecidableEq

inductive IntakeSource where
  | live
  | replay (points : List ScheduledPoint)
  deriving DecidableEq

structure Inbox where
  pending : List InboxMessage := []
  steering : List InboxMessage := []
  followups : List InboxMessage := []
  staged : List InboxMessage := []
  nextSeq : Nat := 0
  cancel : Option (CancelCause × Bool) := none
  source : IntakeSource := .live
  bounds : InboxBounds := {}
  deriving DecidableEq

namespace Inbox

/-! ## Sending -/

def kindOf : InboxTarget → Bool → InboxKind
  | .nextStep, true => .steering
  | .nextStep, false => .injected
  | .nextTurn, _ => .followUp

section

variable (inbox : Inbox)

def queue : InboxKind → List InboxMessage
  | .steering => inbox.steering
  | .followUp => inbox.followups
  | .injected => inbox.staged

def bound : InboxKind → Nat
  | .steering => inbox.bounds.maxSteering
  | .followUp => inbox.bounds.maxFollowups
  | .injected => inbox.bounds.maxStaged

def send (sender : String) (target : InboxTarget) (wakeup : Bool) (content : Json) :
    Result Nat × Inbox :=
  let kind := kindOf target wakeup
  match inbox.source with
  | .replay _ => (.error (.replay
      ("cannot send into a replaying inbox: replay evidence is a pure function of " ++
       "the recorded journal — build the run's inbox with Inbox::replaying and leave " ++
       "it untouched")), inbox)
  | .live =>
    let occupied := (inbox.pending.filter (·.kind = kind)).length + (inbox.queue kind).length
    if inbox.bound kind ≤ occupied then
      (.error (.graph (s!"inbox {kind.debug} queue is full ({inbox.bound kind} messages); " ++
        "the send was refused, nothing was dropped")), inbox)
    else if inbox.bounds.maxPending ≤ inbox.pending.length then
      (.error (.graph (s!"inbox has {inbox.pending.length} unsettled sends (bound " ++
        s!"{inbox.bounds.maxPending}); the send was refused")), inbox)
    else
      let message : InboxMessage := ⟨inbox.nextSeq, kind, sender, content⟩
      (.ok inbox.nextSeq,
        { inbox with nextSeq := inbox.nextSeq + 1, pending := inbox.pending ++ [message] })

/-- `Inbox::cancel`: the first request latches. -/
def requestCancel (cause : CancelCause) (keepInbox : Bool) : Inbox :=
  if inbox.cancel.isNone then { inbox with cancel := some (cause, keepInbox) } else inbox

/-! ## Checkpoints -/

def snapshot : Option InboxSnapshot :=
  if inbox.nextSeq = 0 then none
  else some ⟨inbox.steering, inbox.followups, inbox.staged, inbox.nextSeq, []⟩

def isFresh : Bool := inbox.nextSeq = 0 && inbox.pending.isEmpty

def seed (stamp : InboxSnapshot) : Inbox :=
  if inbox.isFresh then
    { inbox with
      steering := stamp.steering, followups := stamp.followups, staged := stamp.staged
      nextSeq := stamp.nextSeq }
  else inbox

/-! ## Settling and draining -/

/-- A message enters its queue. -/
def enqueue (m : InboxMessage) : Inbox :=
  match m.kind with
  | .steering => { inbox with steering := inbox.steering ++ [m] }
  | .followUp => { inbox with followups := inbox.followups ++ [m] }
  | .injected => { inbox with staged := inbox.staged ++ [m] }

end

structure Settling where
  inbox : Inbox
  recorder : Recorder
  lastEvent : Option String := none

/-- One round of the loop of `Inbox::settle`. -/
def settleOne (codec : Codec) (parent : Option String) (s : Settling) (m : InboxMessage) :
    Settling :=
  let (event, recorder) := s.recorder.record codec
    { kind := .inboxIntake, effect := .pure, output := some m.toValue
      parent := s.lastEvent.or parent }
  ⟨s.inbox.enqueue m, recorder, some event⟩

/-- The replay loop: an intake is released once the journal has reached its position. -/
def settleScheduled (codec : Codec) (parent : Option String) :
    List ScheduledPoint → Settling → Settling
  | .intake seq m :: rest, s =>
    if seq ≤ s.recorder.journal.events.length then
      settleScheduled codec parent rest (settleOne codec parent s m)
    else { s with inbox := { s.inbox with source := .replay (.intake seq m :: rest) } }
  | points, s => { s with inbox := { s.inbox with source := .replay points } }

def settle (codec : Codec) (inbox : Inbox) (recorder : Recorder) (parent : Option String) :
    Settling :=
  match inbox.source with
  | .live => inbox.pending.foldl (settleOne codec parent) ⟨{ inbox with pending := [] }, recorder, none⟩
  | .replay points => settleScheduled codec parent points ⟨inbox, recorder, none⟩

variable (inbox : Inbox)

def takeCancel (journalLen : Nat) : Option (CancelCause × Bool) × Inbox :=
  match inbox.source with
  | .live => (inbox.cancel, { inbox with cancel := none })
  | .replay (.cancel seq cause keepInbox :: rest) =>
    if seq ≤ journalLen then (some (cause, keepInbox), { inbox with source := .replay rest })
    else (none, inbox)
  | .replay _ => (none, inbox)

def drainSteering : List InboxMessage × Inbox :=
  (inbox.steering, { inbox with steering := [] })

def drainFollowups : List InboxMessage × Inbox :=
  (inbox.followups, { inbox with followups := [] })

def drainStaged : List InboxMessage × Inbox :=
  (inbox.staged, { inbox with staged := [] })

def clear : DroppedMessages × Inbox :=
  (⟨inbox.steering.length, inbox.followups.length, inbox.staged.length, inbox.pending.length⟩,
   { inbox with steering := [], followups := [], staged := [], pending := [] })

end Inbox

/-! ## Journaled payloads -/

/-- `InboxConsumption` as it is journaled. -/
def consumptionValue (point : ConsumptionPoint) (step : Nat) (messages : List InboxMessage) :
    Json :=
  .object [("point", .str point.name), ("step", .num (.posInt (UInt64.ofNat step))),
    ("messages", .arr (messages.map InboxMessage.toValue))]

/-- `RunCancellation` as it is journaled. -/
def cancellationValue (cause : CancelCause) (keepInbox : Bool) (dropped : DroppedMessages) :
    Json :=
  let count (n : Nat) : Json := .num (.posInt (UInt64.ofNat n))
  .object [("cause", .str cause.name), ("keep_inbox", .bool keepInbox),
    ("dropped", .object [("steering", count dropped.steering),
      ("followups", count dropped.followups), ("staged", count dropped.staged),
      ("pending", count dropped.pending)])]

end RustyRuntime
