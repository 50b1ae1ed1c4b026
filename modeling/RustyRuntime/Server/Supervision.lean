import RustyRuntime.Journal.Snapshot
import RustyRuntime.Server.TaskLife
import RustyRuntime.Server.Tenant

/-!
# Supervision

`supervision.rs`: what a failure trigger of a supervised agent does. `supervise` decides from
the policy, the attempts and the escalation latch; an escalation writes the agent record with
the latch set, then the supervision journal, then the notice, as a task in the supervisor's
mailbox or a dead letter.

A latched agent only counts further failures. So a notice that a crash cut off after the
latch was written is not delivered by later triggers (`suppressed_next`), and an episode has
its notice exactly when the escalating step made all of its writes, or none
(`notice_once_iff`).

The store here is the file backend with the agents and the journals beside the queue; the
message contracts of a manifest are kept as the kinds it accepts. Ordinals are not bounded.
-/

namespace RustyRuntime

open Library

/-! ## Agents -/

inductive RestartPolicy where
  | permanent
  | transient
  | temporary
  deriving DecidableEq, Repr

def RestartPolicy.name : RestartPolicy → String
  | .permanent => "permanent"
  | .transient => "transient"
  | .temporary => "temporary"

inductive SupervisionTrigger where
  | turnFailed
  | deadlineBreached
  | manualRestart
  deriving DecidableEq, Repr

def SupervisionTrigger.name : SupervisionTrigger → String
  | .turnFailed => "turn_failed"
  | .deadlineBreached => "deadline_breached"
  | .manualRestart => "manual_restart"

def ErrorClass.name : ErrorClass → String
  | .transient => "transient"
  | .rateLimited => "rate_limited"
  | .timeout => "timeout"
  | .invalidInput => "invalid_input"
  | .dependencyFailure => "dependency_failure"
  | .resourceExhausted => "resource_exhausted"
  | .cancelled => "cancelled"
  | .unknown => "unknown"

structure SupervisionAttempt where
  ordinal : Nat
  trigger : SupervisionTrigger
  errorClass : Option ErrorClass
  message : String
  taskId : Option String
  time : Instant
  deriving DecidableEq

structure SupervisionPolicy where
  restart : RestartPolicy
  intensity : Nat
  periodMs : Nat
  supervisor : Option String
  deriving DecidableEq

def SupervisionPolicy.allowsRestartAfter (policy : SupervisionPolicy)
    (errorClass : Option ErrorClass) : Bool :=
  match policy.restart with
  | .permanent => true
  | .transient => errorClass.any (· ≠ .cancelled)
  | .temporary => false

structure AgentSupervision where
  attempts : List SupervisionAttempt := []
  escalated : Bool := false
  deadlineBreached : Bool := false
  suppressedFailures : Nat := 0
  deriving DecidableEq

def AgentSupervision.nextOrdinal (s : AgentSupervision) : Nat := s.attempts.length + 1

structure CapabilityManifest where
  accepts : List String := []
  supervision : Option SupervisionPolicy := none
  /-- The deadline of the budget, if one is set. -/
  budgetDeadline : Option Instant := none
  deriving DecidableEq

def CapabilityManifest.acceptsKind (manifest : CapabilityManifest) (kind : String) : Bool :=
  manifest.accepts.contains kind

/-- `AgentRecord`, under its tenant-scoped id. -/
structure AgentRecord where
  agentId : String
  manifest : CapabilityManifest
  supervision : AgentSupervision := {}
  deriving DecidableEq

/-- `ESCALATION_MESSAGE_KIND`. -/
def escalationMessageKind : String := "escalated"

/-- `AgentId::mailbox_recipient`, and also `AgentId::thread_id`. -/
def mailboxRecipient (agentId : String) : String := s!"agent:{agentId}"

/-! ## The store -/

structure ServerStore where
  queue : JsonFileStore := {}
  agents : Index AgentRecord.agentId := .empty
  journals : Index JournalSnapshot.runId := .empty

abbrev ServerM := Durable ServerStore String

namespace ServerStore

def putAgent (store : ServerStore) (record : AgentRecord) : ServerStore :=
  { store with agents := store.agents.insert record }

def putJournal (store : ServerStore) (snapshot : JournalSnapshot) : ServerStore :=
  { store with journals := store.journals.insert snapshot }

def putTask (store : ServerStore) (task : TaskRecord) : ServerStore :=
  { store with queue := store.queue.putTask task }

end ServerStore

def onQueue {α : Type} (m : StoreM α) : ServerM α := fun writes store =>
  let (answer, left, queue) := m writes store.queue
  (answer, left, { store with queue })

def updateAgent (record : AgentRecord) : ServerM Bool := do
  let store ← .get
  if (store.agents.get? record.agentId).isNone then return false
  else
    .write "persist agent" (·.putAgent record)
    return true

def putJournal (snapshot : JournalSnapshot) : ServerM Unit :=
  .write "persist journal" (·.putJournal snapshot)

namespace Supervision

/-! ## The decision -/

/-- What the runtime observed about the agent. -/
inductive Trigger where
  | turnFailed (errorClass : ErrorClass) (message taskId : String)
  | deadlineBreached
  | manualRestart (reason : String)
  deriving DecidableEq

namespace Trigger

def kind : Trigger → SupervisionTrigger
  | .turnFailed .. => .turnFailed
  | .deadlineBreached => .deadlineBreached
  | .manualRestart _ => .manualRestart

def errorClass : Trigger → Option ErrorClass
  | .turnFailed errorClass _ _ => some errorClass
  | .deadlineBreached | .manualRestart _ => none

def message : Trigger → String
  | .turnFailed _ message _ => message
  | .deadlineBreached => "agent deadline breached (cancellation by clock)"
  | .manualRestart reason => reason

def taskId : Trigger → Option String
  | .turnFailed _ _ taskId => some taskId
  | .deadlineBreached | .manualRestart _ => none

def isManual (trigger : Trigger) : Bool := trigger.kind = .manualRestart

def attempt (trigger : Trigger) (ordinal : Nat) (now : Instant) : SupervisionAttempt :=
  ⟨ordinal, trigger.kind, trigger.errorClass, trigger.message, trigger.taskId, now⟩

end Trigger

inductive Decision where
  | unsupervised
  | suppressed
  | restart (ordinal : Nat)
  | escalate
  deriving DecidableEq, Repr

def decide (policy : Option SupervisionPolicy) (attempts : List SupervisionAttempt)
    (escalated : Bool) (trigger : Trigger) (now : Instant) : Decision :=
  if trigger.isManual then .restart (attempts.length + 1)
  else
    match policy with
    | none => .unsupervised
    | some policy =>
      if escalated then .suppressed
      else if !policy.allowsRestartAfter trigger.errorClass then .escalate
      else
        let windowStart := now - milliseconds policy.periodMs
        let recentFailures := attempts.countP fun a =>
          windowStart ≤ a.time && a.trigger ≠ .manualRestart
        if recentFailures < policy.intensity then .restart (attempts.length + 1) else .escalate

/-! ## Evidence -/

def natJson (n : Nat) : Json := u64Json (UInt64.ofNat n)

def policyJson (policy : SupervisionPolicy) : Json :=
  .object ([("restart", .str policy.restart.name), ("intensity", natJson policy.intensity),
      ("period_ms", natJson policy.periodMs)] ++
    (policy.supervisor.map fun id => ("supervisor", .str id)).toList)

def attemptJson (codec : Codec) (a : SupervisionAttempt) : Json :=
  .object ([("ordinal", natJson a.ordinal), ("trigger", .str a.trigger.name)] ++
    (a.errorClass.map fun c => ("error_class", .str c.name)).toList ++
    [("message", .str a.message)] ++ (a.taskId.map fun id => ("task_id", .str id)).toList ++
    [("at", .str (codec.timestamp a.time))])

def supervisionJournalRunId (tenant agentExternal : String) : String :=
  s!"agent-supervision:{tenant}:{agentExternal}"

def supervisionPayload (codec : Codec) (policy : Option SupervisionPolicy) (trigger : Trigger)
    (decision : String) (ordinal : Nat) (attempts : List SupervisionAttempt) : Json :=
  .object [("decision", .str decision), ("policy", optionJson policyJson policy),
    ("trigger", .str trigger.kind.name),
    ("error_class", optionJson (fun c => .str c.name) trigger.errorClass),
    ("message", .str trigger.message), ("task_id", optionJson .str trigger.taskId),
    ("restart_ordinal", natJson ordinal), ("attempts", .arr (attempts.map (attemptJson codec)))]

/-- The supervision journal of an agent, as `journal_event` loads or starts it. -/
def loadJournal (codec : Codec) (store : ServerStore) (tenant agentExternal : String) :
    Except String Journal :=
  let runId := supervisionJournalRunId tenant agentExternal
  match store.journals.get? runId with
  | some snapshot => (Journal.fromSnapshot codec snapshot).mapError fun e =>
      s!"supervision journal for agent `{agentExternal}` failed its integrity check: {e.display}"
  | none => .ok (.new codec runId (mailboxRecipient agentExternal))

/-- `journal_event`, at the time its clock reads. -/
def journalEvent (codec : Codec) (tenant agentExternal : String) (output : Json) (now : Instant) :
    ServerM String := do
  let store ← .get
  match loadJournal codec store tenant agentExternal with
  | .error e => .fail e
  | .ok journal =>
    let (eventId, journal) := journal.record codec
      { kind := .supervisionEvent, effect := .pure, output := some output } now
    putJournal journal.snapshot
    return eventId

/-! ## The notice -/

section Notice

variable (codec : Codec) (store : ServerStore) (tenant agentExternal : String)
  (policy : SupervisionPolicy) (attempts : List SupervisionAttempt) (taskId : String) (now : Instant)

def noticeJson : Json :=
  .object [("agent_id", .str agentExternal), ("policy", policyJson policy),
    ("attempts", .arr (attempts.map (attemptJson codec))),
    ("escalated_at", .str (codec.timestamp now))]

def escalationKey (ordinal : Nat) : String :=
  s!"escalation:{agentExternal}:{ordinal}"

/-- The supervisor whose mailbox takes the notice, if there is one. -/
def acceptingSupervisor : Option String :=
  policy.supervisor.filter fun supervisor =>
    (store.agents.get? (scopeId tenant supervisor)).any
      (·.manifest.acceptsKind escalationMessageKind)

def noticeTask : TaskRecord :=
  let task : NewTask :=
    { taskId, tenant, kind := escalationMessageKind
      payload := noticeJson codec agentExternal policy attempts now
      idempotencyKey := some
        (escalationKey agentExternal ((attempts.getLast?.map (·.ordinal)).getD 0)) }
  match acceptingSupervisor store tenant policy with
  | some supervisor => .new { task with recipient := some (mailboxRecipient supervisor) } now
  | none => .deadLettered task
      "escalation dead-lettered: no supervisor declared, or none accepting `escalated`" now

/-- `deliver_escalation`. `enqueue_task` and `dead_letter_task` both deduplicate and insert; the
answer says whether the notice was deduplicated. -/
def deliverEscalation : ServerM (TaskRecord × Bool) := do
  let store ← .get
  onQueue (enqueueLocked (noticeTask codec store tenant agentExternal policy attempts taskId now))

end Notice

/-! ## One step -/

def restarted (agent : AgentRecord) (trigger : Trigger) (ordinal : Nat) (now : Instant) :
    AgentRecord :=
  let attempts := agent.supervision.attempts ++ [trigger.attempt ordinal now]
  { agent with
    supervision :=
      if trigger.isManual then { attempts }
      else { agent.supervision with attempts } }

def escalating (agent : AgentRecord) (trigger : Trigger) (now : Instant) : AgentRecord :=
  { agent with
    supervision :=
      { agent.supervision with
        attempts := agent.supervision.attempts ++
          [trigger.attempt agent.supervision.nextOrdinal now]
        escalated := true } }

def suppressedOnce (agent : AgentRecord) : AgentRecord :=
  { agent with
    supervision :=
      { agent.supervision with
        suppressedFailures := agent.supervision.suppressedFailures + 1 } }

/-- `supervise`, with the id it draws for the notice and the time the journal reads. -/
def supervise (codec : Codec) (tenant agentExternal : String) (agent : AgentRecord)
    (trigger : Trigger) (now : Instant) (taskId : String) (journalNow : Instant) :
    ServerM Decision := do
  let decision := decide agent.manifest.supervision agent.supervision.attempts
    agent.supervision.escalated trigger now
  match decision, agent.manifest.supervision with
  | .suppressed, _ =>
    let _ ← updateAgent (suppressedOnce agent)
    return decision
  | .restart ordinal, policy =>
    let agent := restarted agent trigger ordinal now
    let _ ← updateAgent agent
    let _ ← journalEvent codec tenant agentExternal
      (supervisionPayload codec policy trigger "restart" ordinal agent.supervision.attempts)
      journalNow
    return decision
  | .escalate, some policy =>
    let ordinal := agent.supervision.nextOrdinal
    let agent := escalating agent trigger now
    let _ ← updateAgent agent
    let _ ← journalEvent codec tenant agentExternal
      (supervisionPayload codec (some policy) trigger "escalate" ordinal
        agent.supervision.attempts) journalNow
    let _ ← deliverEscalation codec tenant agentExternal policy agent.supervision.attempts taskId
      now
    return decision
  -- there is no escalation without a policy
  | .unsupervised, _ | .escalate, none => return decision

/-! ## Sequences of triggers -/

/-- A trigger as it is handled: when, with the task id and the journal time drawn for it, and
the number of durable writes it makes before a crash. -/
structure Step where
  trigger : Trigger
  now : Instant
  taskId : String
  journalNow : Instant
  writes : Nat

section Steps

variable (codec : Codec) (tenant agentExternal : String)

def next (s : ServerStore) (step : Step) : ServerStore :=
  match s.agents.get? (scopeId tenant agentExternal) with
  | none => s
  | some agent =>
    (supervise codec tenant agentExternal agent step.trigger step.now step.taskId
      step.journalNow).state step.writes s

def Sound (s : ServerStore) : Prop :=
  ∃ journal, loadJournal codec s tenant agentExternal = .ok journal

end Steps

def Latched (tenant agentExternal : String) (s : ServerStore) : Prop :=
  ∃ agent, s.agents.get? (scopeId tenant agentExternal) = some agent ∧
    agent.supervision.escalated = true

def UnderKey (tenant key : String) (task : TaskRecord) : Prop :=
  task.tenant = tenant ∧ task.idempotencyKey = some key

def Delivered (tenant key : String) (notice : TaskRecord) (s : ServerStore) : Prop :=
  ∀ task, task ∈ s.queue.tasks.values ∧ UnderKey tenant key task ↔ task = notice

def decision (agent : AgentRecord) (step : Step) : Decision :=
  decide agent.manifest.supervision agent.supervision.attempts agent.supervision.escalated
    step.trigger step.now

/-! ### The writes of a step -/

section Writes

variable {codec : Codec} {tenant agentExternal : String} {s : ServerStore}

variable {α : Type} {policy : SupervisionPolicy} {tasks : Index TaskRecord.taskId}

theorem updateAgent_bind {old record : AgentRecord} {id : String}
    (hOld : s.agents.get? id = some old) (hId : record.agentId = id) (f : Bool → ServerM α)
    (writes : Nat) :
    (updateAgent record >>= f) writes s =
      match writes with
      | 0 => (.error "persist agent", 0, s)
      | writes + 1 => f true writes (s.putAgent record) := by
  subst hId
  cases writes with
  | zero | succ writes => simp [updateAgent, Durable.bind_apply, hOld, Durable.get, Durable.write]

variable {journal : Journal}

theorem journalEvent_bind (hLoad : loadJournal codec s tenant agentExternal = .ok journal)
    (output : Json) (now : Instant) (f : String → ServerM α) (writes : Nat) :
    (journalEvent codec tenant agentExternal output now >>= f) writes s =
      let recorded := journal.record codec
        { kind := .supervisionEvent, effect := .pure, output := some output } now
      match writes with
      | 0 => (.error "persist journal", 0, s)
      | writes + 1 => f recorded.1 writes (s.putJournal recorded.2.snapshot) := by
  cases writes with
  | zero | succ writes =>
    simp [journalEvent, Durable.bind_apply, Durable.get, hLoad, putJournal, Durable.write]

theorem loadJournal_ok (hLoad : loadJournal codec s tenant agentExternal = .ok journal) :
    journal.headHash = recomputeHeadHash codec journal.events ∧
      journal.runId = supervisionJournalRunId tenant agentExternal := by
  unfold loadJournal at hLoad
  cases hFound : s.journals.get? (supervisionJournalRunId tenant agentExternal) with
  | none =>
    simp only [hFound] at hLoad
    cases hLoad
    exact ⟨rfl, rfl⟩
  | some snapshot =>
    simp only [hFound] at hLoad
    have hRunId : snapshot.runId = _ := Index.key_of_get? hFound
    obtain ⟨-, hHead, rfl⟩ := fromSnapshot_eq_ok_iff.mp (mapError_eq_ok.mp hLoad)
    exact ⟨hHead.symm, hRunId⟩

theorem sound_putJournal (hLoad : loadJournal codec s tenant agentExternal = .ok journal)
    (draft : EventDraft) (now : Instant) :
    Sound codec tenant agentExternal
      (s.putJournal (journal.record codec draft now).2.snapshot) := by
  obtain ⟨hHead, hRunId⟩ := loadJournal_ok hLoad
  refine ⟨(journal.record codec draft now).2, ?_⟩
  have hFound : (s.putJournal (journal.record codec draft now).2.snapshot).journals.get?
      (supervisionJournalRunId tenant agentExternal) =
        some (journal.record codec draft now).2.snapshot := by
    rw [← hRunId]
    exact Index.get?_insert_self _ (journal.record codec draft now).2.snapshot
  unfold loadJournal
  simp only [hFound]
  refine mapError_eq_ok.mpr (fromSnapshot_eq_ok_iff.mpr ⟨rfl, ?_, rfl⟩)
  show recomputeHeadHash codec (journal.events ++ [_]) = chainedHash codec journal.headHash _
  rw [recomputeHeadHash_append, hHead]

variable {agent : AgentRecord} {journal : Journal} {step : Step}
  (hAgent : s.agents.get? (scopeId tenant agentExternal) = some agent)
  (hLoad : loadJournal codec s tenant agentExternal = .ok journal)
  (hPolicy : agent.manifest.supervision = some policy) (hDecision : decision agent step = .escalate)

include hAgent in
theorem get?_putAgent (record : AgentRecord) (hId : record.agentId = agent.agentId) :
    (s.agents.insert record).get? (scopeId tenant agentExternal) = some record := by
  rw [← Index.key_of_get? hAgent, ← hId]
  exact Index.get?_insert_self s.agents record

include hAgent hLoad in
theorem state_update_event (record : AgentRecord) (hId : record.agentId = agent.agentId)
    (output : Json) (now : Instant) (f : String → ServerM α) (writes : Nat) :
    (updateAgent record >>= fun _ =>
        journalEvent codec tenant agentExternal output now >>= f).state writes s =
      let recorded := journal.record codec
        { kind := .supervisionEvent, effect := .pure, output := some output } now
      match writes with
      | 0 => s
      | 1 => s.putAgent record
      | writes + 2 => (f recorded.1).state writes
          ((s.putAgent record).putJournal recorded.2.snapshot) := by
  have hKey : record.agentId = scopeId tenant agentExternal :=
    hId.trans (Index.key_of_get? hAgent)
  have hLoad' : loadJournal codec (s.putAgent record) tenant agentExternal = .ok journal := hLoad
  unfold Durable.state
  match writes with
  | 0 => rw [updateAgent_bind hAgent hKey]
  | 1 | writes + 2 =>
    rw [updateAgent_bind hAgent hKey]
    simp only
    rw [journalEvent_bind hLoad']

theorem state_deliver (policy : SupervisionPolicy) (attempts : List SupervisionAttempt)
    (taskId : String) (now : Instant) (a : α) (writes : Nat) :
    (deliverEscalation codec tenant agentExternal policy attempts taskId now >>= fun _ =>
        pure a).state writes s =
      let notice := noticeTask codec s tenant agentExternal policy attempts taskId now
      if (s.queue.deduplicated notice).isSome ∨ writes = 0 then s else s.putTask notice := by
  set notice := noticeTask codec s tenant agentExternal policy attempts taskId now
  have hDeliver : (deliverEscalation codec tenant agentExternal policy attempts taskId now >>=
      fun _ => pure a).state writes s =
        { s with queue := (enqueueLocked notice).state writes s.queue } :=
    Durable.state_bind_pure _ (fun _ => a) writes s
  rw [hDeliver]
  simp only [Durable.state, enqueueLocked, Durable.get_bind]
  cases hKnown : s.queue.deduplicated notice with
  | some existing => simp
  | none =>
    cases writes with
    | zero | succ writes => rfl

def journaled (codec : Codec) (journal : Journal) (policy : SupervisionPolicy)
    (agent : AgentRecord) (step : Step) (s : ServerStore) : ServerStore :=
  let record := escalating agent step.trigger step.now
  let output := supervisionPayload codec (some policy) step.trigger "escalate"
    agent.supervision.nextOrdinal record.supervision.attempts
  let draft : EventDraft := { kind := .supervisionEvent, effect := .pure, output := some output }
  (s.putAgent record).putJournal (journal.record codec draft step.journalNow).2.snapshot

include hAgent hLoad hPolicy hDecision in
/-- **The writes of an escalation**: the record, the journal, the notice. -/
theorem next_escalate :
    next codec tenant agentExternal s step =
      let record := escalating agent step.trigger step.now
      let s' := journaled codec journal policy agent step s
      let notice := noticeTask codec s' tenant agentExternal policy record.supervision.attempts
        step.taskId step.now
      match step.writes with
      | 0 => s
      | 1 => s.putAgent record
      | writes + 2 =>
        if (s'.queue.deduplicated notice).isSome ∨ writes = 0 then s' else s'.putTask notice := by
  have hDecides : decide (some policy) agent.supervision.attempts agent.supervision.escalated
      step.trigger step.now = .escalate := by
    rw [← hPolicy]
    exact hDecision
  simp only [next, hAgent, supervise, hPolicy, hDecides]
  rw [state_update_event hAgent hLoad (escalating agent step.trigger step.now) rfl]
  match step.writes with
  | 0 | 1 => rfl
  | writes + 2 => exact state_deliver _ _ _ _ _ writes

include hAgent in
theorem next_suppressed (hDecision : decision agent step = .suppressed) :
    next codec tenant agentExternal s step = s ∨
      next codec tenant agentExternal s step = s.putAgent (suppressedOnce agent) := by
  have hId : agent.agentId = scopeId tenant agentExternal := Index.key_of_get? hAgent
  have hKey : (suppressedOnce agent).agentId = scopeId tenant agentExternal := hId
  unfold decision at hDecision
  simp only [next, hAgent, supervise, hDecision, Durable.state]
  cases step.writes with
  | zero =>
    left
    rw [updateAgent_bind hAgent hKey]
  | succ writes =>
    right
    rw [updateAgent_bind hAgent hKey]
    rfl

theorem sound_next (hSound : Sound codec tenant agentExternal s) (step : Step) :
    Sound codec tenant agentExternal (next codec tenant agentExternal s step) := by
  obtain ⟨journal, hLoad⟩ := hSound
  cases hAgent : s.agents.get? (scopeId tenant agentExternal) with
  | none =>
    simp only [next, hAgent]
    exact ⟨journal, hLoad⟩
  | some agent =>
    cases hDecision : decision agent step with
    | unsupervised =>
      unfold decision at hDecision
      simp only [next, hAgent, supervise, hDecision]
      exact ⟨journal, hLoad⟩
    | suppressed =>
      rcases next_suppressed hAgent hDecision with hSame | hCounted
      · rw [hSame]
        exact ⟨journal, hLoad⟩
      · rw [hCounted]
        exact ⟨journal, hLoad⟩
    | restart ordinal =>
      unfold decision at hDecision
      simp only [next, hAgent, supervise, hDecision]
      rw [state_update_event hAgent hLoad (restarted agent step.trigger ordinal step.now) rfl]
      match step.writes with
      | 0 | 1 => exact ⟨journal, hLoad⟩
      | writes + 2 => exact sound_putJournal (s := s.putAgent _) hLoad _ _
    | escalate =>
      cases hPolicy : agent.manifest.supervision with
      | none =>
        rw [decision, hPolicy] at hDecision
        simp only [next, hAgent, supervise, hDecision, hPolicy]
        exact ⟨journal, hLoad⟩
      | some policy =>
        rw [next_escalate hAgent hLoad hPolicy hDecision]
        match step.writes with
        | 0 | 1 => exact ⟨journal, hLoad⟩
        | writes + 2 =>
          have hJournaled : Sound codec tenant agentExternal
              (journaled codec journal policy agent step s) :=
            sound_putJournal (s := s.putAgent _) hLoad _ _
          simp only
          split
          · exact hJournaled
          · exact hJournaled

theorem sound_run (hSound : Sound codec tenant agentExternal s) (steps : List Step) :
    Sound codec tenant agentExternal (run (next codec tenant agentExternal) s steps) := by
  have hStep : ∀ (s : ServerStore) (step : Step), Sound codec tenant agentExternal s → True →
      Sound codec tenant agentExternal (next codec tenant agentExternal s step) :=
    fun s step h _ => sound_next h step
  exact run_invariant hStep hSound (admissible_of_forall (fun _ _ _ => trivial) s)

/-! ### The rest of an episode -/

structure Held (tenant agentExternal : String) (tasks : Index TaskRecord.taskId)
    (s : ServerStore) : Prop where
  latched : ∃ agent, s.agents.get? (scopeId tenant agentExternal) = some agent ∧
    agent.supervision.escalated = true ∧ agent.manifest.supervision.isSome
  tasks_eq : s.queue.tasks = tasks

theorem suppressed_next (hHeld : Held tenant agentExternal tasks s)
    (hFailure : step.trigger.isManual = false) :
    Held tenant agentExternal tasks (next codec tenant agentExternal s step) := by
  obtain ⟨⟨agent, hAgent, hEscalated, hPolicy⟩, hTasks⟩ := hHeld
  obtain ⟨policy, hSome⟩ := Option.isSome_iff_exists.mp hPolicy
  have hDecision : decision agent step = .suppressed := by
    simp only [decision, decide, hFailure, hSome, hEscalated, Bool.false_eq_true, if_false, if_true]
  rcases next_suppressed hAgent hDecision with hSame | hCounted
  · rw [hSame]
    exact ⟨⟨agent, hAgent, hEscalated, hPolicy⟩, hTasks⟩
  · rw [hCounted]
    exact ⟨⟨_, get?_putAgent hAgent (suppressedOnce agent) rfl, hEscalated, hPolicy⟩, hTasks⟩

theorem suppressed_run (hHeld : Held tenant agentExternal tasks s) {steps : List Step}
    (hFailures : ∀ step ∈ steps, step.trigger.isManual = false) :
    Held tenant agentExternal tasks (run (next codec tenant agentExternal) s steps) := by
  induction steps generalizing s with
  | nil => exact hHeld
  | cons step rest ih =>
    exact ih (suppressed_next hHeld (hFailures step List.mem_cons_self))
      fun other hOther => hFailures other (List.mem_cons_of_mem _ hOther)

/-! ### The notice -/

include hAgent in
theorem acceptingSupervisor_journaled (policy : SupervisionPolicy) :
    acceptingSupervisor (journaled codec journal policy agent step s) tenant policy =
      acceptingSupervisor s tenant policy := by
  have hId : agent.agentId = scopeId tenant agentExternal := Index.key_of_get? hAgent
  unfold acceptingSupervisor
  congr 1
  funext supervisor
  show ((s.agents.insert (escalating agent step.trigger step.now)).get?
    (scopeId tenant supervisor)).any _ = _
  rw [Index.get?_insert]
  split
  · rename_i hSelf
    have hSupervisor : s.agents.get? (scopeId tenant supervisor) = some agent := by
      rw [← hSelf]
      exact hId.symm ▸ hAgent
    rw [hSupervisor]
    rfl
  · rfl

include hAgent in
theorem noticeTask_journaled (policy : SupervisionPolicy) (attempts : List SupervisionAttempt)
    (taskId : String) (now : Instant) :
    noticeTask codec (journaled codec journal policy agent step s) tenant agentExternal policy
        attempts taskId now =
      noticeTask codec s tenant agentExternal policy attempts taskId now := by
  unfold noticeTask
  rw [acceptingSupervisor_journaled hAgent policy]

theorem noticeTask_fields (policy : SupervisionPolicy) (attempts : List SupervisionAttempt)
    (taskId : String) (now : Instant) :
    let notice := noticeTask codec s tenant agentExternal policy attempts taskId now
    notice.taskId = taskId ∧ notice.tenant = tenant ∧
      notice.idempotencyKey = some
        (escalationKey agentExternal ((attempts.getLast?.map (·.ordinal)).getD 0)) := by
  unfold noticeTask
  split <;> exact ⟨rfl, rfl, rfl⟩

theorem ordinal_escalating (agent : AgentRecord) (step : Step) :
    (((escalating agent step.trigger step.now).supervision.attempts.getLast?.map
      (·.ordinal)).getD 0) = agent.supervision.nextOrdinal := by
  simp [escalating, Trigger.attempt]

theorem not_escalated_of_escalate (hDecision : decision agent step = .escalate) :
    agent.supervision.escalated = false := by
  cases hLatch : agent.supervision.escalated with
  | false => rfl
  | true =>
    simp only [decision, decide, hLatch, if_true] at hDecision
    (repeat' split at hDecision) <;> cases hDecision

include hAgent hLoad hPolicy hDecision in
theorem held_of_writes (hWrites : step.writes ≠ 0) :
    Held tenant agentExternal (next codec tenant agentExternal s step).queue.tasks
      (next codec tenant agentExternal s step) := by
  have hFound := get?_putAgent hAgent (escalating agent step.trigger step.now) rfl
  have hSome : (escalating agent step.trigger step.now).manifest.supervision.isSome :=
    Option.isSome_iff_exists.mpr ⟨policy, hPolicy⟩
  refine ⟨⟨escalating agent step.trigger step.now, ?_, rfl, hSome⟩, rfl⟩
  rw [next_escalate hAgent hLoad hPolicy hDecision]
  match hEq : step.writes with
  | 0 => exact absurd hEq hWrites
  | 1 => exact hFound
  | writes + 2 =>
    simp only
    split <;> exact hFound

include hAgent hLoad hPolicy hDecision in
/-- What is in the queue after an escalation: the notice was added, unless the step was cut
before it or another task has its key. -/
theorem tasks_escalate :
    let notice := noticeTask codec s tenant agentExternal policy
      (escalating agent step.trigger step.now).supervision.attempts step.taskId step.now
    (next codec tenant agentExternal s step).queue.tasks =
      if 3 ≤ step.writes ∧ (s.queue.deduplicated notice).isNone then s.queue.tasks.insert notice
      else s.queue.tasks := by
  intro notice
  rw [next_escalate hAgent hLoad hPolicy hDecision]
  simp only [noticeTask_journaled hAgent]
  match step.writes with
  | 0 | 1 => rfl
  | writes + 2 =>
    show (if (s.queue.deduplicated notice).isSome ∨ writes = 0 then _ else _ :
      ServerStore).queue.tasks = _
    cases hKnown : s.queue.deduplicated notice with
    | some existing => simp [journaled, ServerStore.putAgent, ServerStore.putJournal]
    | none =>
      cases writes with
      | zero => simp [journaled, ServerStore.putAgent, ServerStore.putJournal]
      | succ writes =>
        rfl

theorem deduplicated_isNone_iff {store : JsonFileStore} {notice : TaskRecord} {key : String}
    (hKey : notice.idempotencyKey = some key) :
    (store.deduplicated notice).isNone ↔
      ∀ task ∈ store.tasks.values, ¬UnderKey notice.tenant key task := by
  rw [← Option.not_isSome, Bool.not_eq_true', ← Bool.not_eq_true, deduplicated_isSome]
  constructor
  · rintro hNone task hTask ⟨hTenant, hSame⟩
    exact hNone ⟨key, task, hKey, Index.mem_values_iff.mp hTask, hTenant, hSame⟩
  · rintro hNone ⟨other, task, hOther, hTask, hTenant, hSame⟩
    rw [hKey] at hOther
    cases hOther
    exact hNone task (Index.mem_values_iff.mpr hTask) ⟨hTenant, hSame⟩

end Writes

/-- **An episode has exactly one notice** if and only if the step that decided to escalate made
none of its writes, or all three and no other task had the notice's key. Whatever failures
follow, later triggers do not make up for a notice that was cut off. -/
theorem notice_once_iff {codec : Codec} {tenant agentExternal : String} {init : ServerStore}
    (hInit : Sound codec tenant agentExternal init) (before later : List Step) (step : Step)
    (agent : AgentRecord) (policy : SupervisionPolicy) :
    let s := run (next codec tenant agentExternal) init before
    let key := escalationKey agentExternal agent.supervision.nextOrdinal
    let notice := noticeTask codec s tenant agentExternal policy
      (escalating agent step.trigger step.now).supervision.attempts step.taskId step.now
    s.agents.get? (scopeId tenant agentExternal) = some agent →
    agent.manifest.supervision = some policy →
    decision agent step = .escalate →
    s.queue.tasks.get? step.taskId = none →
    (∀ other ∈ later, other.trigger.isManual = false) →
    ((Latched tenant agentExternal (next codec tenant agentExternal s step) →
      Delivered tenant key notice (run (next codec tenant agentExternal)
        (next codec tenant agentExternal s step) later)) ↔
      step.writes = 0 ∨
        3 ≤ step.writes ∧ ∀ task ∈ s.queue.tasks.values, ¬UnderKey tenant key task) := by
  intro s key notice hAgent hPolicy hDecision hFresh hLater
  obtain ⟨journal, hLoad⟩ := sound_run hInit before
  obtain ⟨hTaskId, hTenant, hKey⟩ : notice.taskId = step.taskId ∧ notice.tenant = tenant ∧
      notice.idempotencyKey = some (escalationKey agentExternal
        (((escalating agent step.trigger step.now).supervision.attempts.getLast?.map
          (·.ordinal)).getD 0)) :=
    noticeTask_fields policy _ step.taskId step.now
  rw [ordinal_escalating] at hKey
  have hTasks := tasks_escalate hAgent hLoad hPolicy hDecision
  have hUnused : (s.queue.deduplicated notice).isNone ↔
      ∀ task ∈ s.queue.tasks.values, ¬UnderKey tenant key task := by
    rw [← hTenant]
    exact deduplicated_isNone_iff hKey
  by_cases hWrites : step.writes = 0
  · refine iff_of_true ?_ (.inl hWrites)
    rintro ⟨found, hFound, hEscalated⟩
    rw [next_escalate hAgent hLoad hPolicy hDecision, hWrites] at hFound
    have hSame : some found = some agent := hFound.symm.trans hAgent
    cases hSame
    rw [not_escalated_of_escalate hDecision] at hEscalated
    cases hEscalated
  · have hHeld := held_of_writes hAgent hLoad hPolicy hDecision hWrites
    have hLatched : Latched tenant agentExternal (next codec tenant agentExternal s step) := by
      obtain ⟨found, hFound, hEscalated, -⟩ := hHeld.latched
      exact ⟨found, hFound, hEscalated⟩
    have hRest : (run (next codec tenant agentExternal)
        (next codec tenant agentExternal s step) later).queue.tasks = _ :=
      (suppressed_run hHeld hLater).tasks_eq
    rw [or_iff_right hWrites, forall_prop_of_true hLatched, ← hUnused]
    unfold Delivered
    rw [hRest, hTasks]
    constructor
    · intro hOnce
      by_contra hCut
      rw [if_neg hCut] at hOnce
      have hIn := ((hOnce notice).mpr rfl).1
      rw [Index.mem_values_iff, hTaskId, hFresh] at hIn
      cases hIn
    · intro hAll task
      rw [if_pos hAll, Index.mem_values_insert]
      constructor
      · rintro ⟨rfl | ⟨-, hOld⟩, hUnder⟩
        · rfl
        · exact absurd hUnder (hUnused.mp hAll.2 task hOld)
      · rintro rfl
        exact ⟨.inl rfl, hTenant, hKey⟩

/-- A root agent that escalates its first failure. -/
def worker : AgentRecord :=
  { agentId := "worker", manifest := { supervision := some ⟨.temporary, 0, 60000, none⟩ } }

def workerStore : ServerStore := { agents := Index.empty.insert worker }

def failure (taskId : String) (writes : Nat) : Step :=
  ⟨.turnFailed .transient "boom" "turn", 0, taskId, 0, writes⟩

theorem notice_once_worker :
    Delivered defaultTenant (escalationKey "worker" 1)
      (noticeTask plainCodec workerStore defaultTenant "worker" ⟨.temporary, 0, 60000, none⟩
        (escalating worker (failure "notice" 3).trigger 0).supervision.attempts "notice" 0)
      (run (next plainCodec defaultTenant "worker")
        (next plainCodec defaultTenant "worker" workerStore (failure "notice" 3))
        [failure "other" 3]) := by
  have hSound : Sound plainCodec defaultTenant "worker" workerStore := ⟨_, rfl⟩
  have hIff := notice_once_iff hSound [] [failure "other" 3] (failure "notice" 3) worker
    ⟨.temporary, 0, 60000, none⟩ (by decide +kernel) rfl (by decide +kernel) (by decide +kernel)
    (by decide +kernel)
  have hLatched : Latched defaultTenant "worker"
      (next plainCodec defaultTenant "worker" workerStore (failure "notice" 3)) :=
    ⟨escalating worker (failure "notice" 3).trigger 0, by decide +kernel, rfl⟩
  refine hIff.mpr (.inr ⟨by decide, fun task hTask => ?_⟩) hLatched
  have hIn : task ∈ workerStore.queue.tasks.values := hTask
  cases hIn

/-- A crash between the latch and the notice: the next failure is handled to its end, and there
is no notice. -/
theorem notice_cut_off :
    let s := run (next plainCodec defaultTenant "worker") workerStore
      [failure "notice" 1, failure "other" 3]
    decision worker (failure "notice" 1) = .escalate ∧
      (s.agents.get? "worker").map (fun agent =>
        (agent.supervision.escalated, agent.supervision.suppressedFailures)) = some (true, 1) ∧
      s.queue.tasks.values = [] := by
  decide +kernel

end Supervision

end RustyRuntime
