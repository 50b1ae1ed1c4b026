import RustyRuntime.Llm
import RustyRuntime.Server.Coordination.Decide
import RustyRuntime.Server.Coordination.Ids
import RustyRuntime.Server.StageBarrier
import RustyRuntime.Server.Supervision

/-!
# Driving a coordination

`drive` of `coordination.rs`. It loads the coordination's journal, reads off it what has been
journaled (`scan`), and adds what is missing: the start, the submission of members up to the
window, the settlement of members that have become terminal, and, once `decide_settle` has a
plan, the settlement of the rest and the end. The journal and the rows of the submitted tasks are
written together at the end, then the record.

Up to the settlement the drive only reads, so that part is a function of the store (`preparePass`).
The journal's clock is read once for each event: `clock` gives the reading for each sequence
number. The serde form of a contract is a parameter of the server.
-/

namespace RustyRuntime

open Library

/-! ## Quotas -/

structure TaskQuota where
  maxQueued : Option Nat := none
  maxInFlight : Option Nat := none
  maxDlq : Option Nat := none

def TaskQuota.isUnlimited (quota : TaskQuota) : Bool :=
  quota.maxQueued.isNone && quota.maxInFlight.isNone && quota.maxDlq.isNone

structure TaskUsage where
  queued : Nat
  inFlight : Nat
  dlq : Nat

def JsonFileStore.taskUsage (store : JsonFileStore) (tenant : String) : TaskUsage where
  queued :=
    store.tasks.values.countP (fun t => t.tenant = tenant &&
      (t.status = .queued || t.status = .failed && t.nextAttemptAt.isSome)) +
      store.outbox.values.countP (fun row => row.tenant = tenant && row.publishedAt.isNone)
  inFlight := store.tasks.values.countP (fun t => t.tenant = tenant && t.status = .leased)
  dlq := store.tasks.values.countP (fun t => t.tenant = tenant && t.status = .dead)

def submissionFitsQuota (store : JsonFileStore) (quota : TaskQuota) (tenant : String)
    (pending : Nat) : Bool :=
  quota.isUnlimited ||
    (quota.maxQueued.all ((store.taskUsage tenant).queued + pending + 1 ≤ ·) &&
      quota.maxInFlight.all ((store.taskUsage tenant).inFlight < ·))

/-! ## What is written down -/

/-- `COORDINATION_RESULT_KIND`. -/
def coordinationResultKind : String := "coordination_result"

def coordinationJournalRunId (tenant coordinationExternal : String) : String :=
  s!"coordination:{tenant}:{coordinationExternal}"

def CoordinationKind.name : CoordinationKind → String
  | .delegate => "delegate"
  | .fanOut => "fan_out"
  | .race => "race"
  | .quorum => "quorum"

def MemberSettlement.name : MemberSettlement → String
  | .completed => "completed"
  | .failed => "failed"
  | .dead => "dead"
  | .cancelled => "cancelled"

def CoordinationStatus.name : CoordinationStatus → String
  | .completed => "completed"
  | .failed => "failed"
  | .cancelled => "cancelled"
  | .unreachable => "unreachable"

def costJson (cost : Rat) : Json := .num (.float cost)

def resolverJson : QuorumResolver → Json
  | .majorityEqual => .object [("resolver", .str "majority_equal")]
  | .firstK => .object [("resolver", .str "first_k")]
  | .custom name => .object [("resolver", .str "custom"), ("name", .str name)]

def resolverRecordJson (r : QuorumResolverRecord) : Json :=
  .sparse [("resolver", some (resolverJson r.resolver)),
    ("inputs", if r.inputs.isEmpty then none else some (.arr r.inputs)), ("output", r.output),
    ("decided", some (.bool r.decided))]

def dispositionJson (d : MemberDisposition) : Json :=
  .sparse [("member", some (.str d.member)), ("task_id", some (.str d.taskId)),
    ("settlement", some (.str d.settlement.name)), ("result", d.result.map payloadJson),
    ("error_class", d.errorClass.map fun c => .str c.name), ("error", d.error.map .str),
    ("tokens", d.tokens.map usageJson), ("cost_usd", d.costUsd.map costJson)]

def outcomeJson (outcome : CoordinationOutcome) : Json :=
  .sparse [("coordination_id", some (.str outcome.coordinationId)),
    ("pattern", some (.str outcome.pattern.name)), ("status", some (.str outcome.status.name)),
    ("result", outcome.result.map payloadJson),
    ("members", if outcome.members.isEmpty then none
      else some (.arr (outcome.members.map dispositionJson))),
    ("wasted_tokens", outcome.wastedTokens.map fun n => u64Json (.ofNat n)),
    ("wasted_cost_usd", outcome.wastedCostUsd.map costJson),
    ("resolver", outcome.resolver.map resolverRecordJson)]

variable (coordinationExternal : String)

/-- The output of a settlement observation. -/
def settlementJson (d : MemberDisposition) : Json :=
  .object [("coordination_id", .str coordinationExternal), ("member", .str d.member),
    ("task_id", .str d.taskId), ("settlement", .str d.settlement.name),
    ("result", optionJson payloadJson d.result),
    ("error_class", optionJson (fun c => .str c.name) d.errorClass),
    ("error", optionJson .str d.error), ("tokens", optionJson usageJson d.tokens),
    ("cost_usd", optionJson costJson d.costUsd)]

/-- The output of a submission. -/
def sendJson (m : MemberRecord) (kind recipient : String) : Json :=
  .object [("coordination_id", .str coordinationExternal), ("member", .str m.member),
    ("task_id", .str m.taskId), ("agent_id", .str m.agentId),
    ("manifest_version", .str m.manifestVersion), ("kind", .str kind),
    ("recipient", .str recipient)]

/-- `CoordinationMessage`, the payload of a member's task. -/
def memberMessageJson (m : MemberRecord) (contract : CoordinationContract)
    (delegation : Delegation) : Json :=
  .sparse [("coordination_id", some (.str coordinationExternal)),
    ("member", some (.str m.member)), ("pattern", some (.str contract.kind.name)),
    ("input", some (payloadJson delegation.input)),
    ("context", match contract with
      | .delegate c => c.context
      | _ => none)]

/-! ## The store -/

structure CoordinationStore where
  server : ServerStore := {}
  coordinations : Index CoordinationRecord.coordinationId := .empty

abbrev CoordinationM := Durable CoordinationStore String

def onServer {α : Type} (m : ServerM α) : CoordinationM α := fun writes store =>
  let (answer, left, server) := m writes store.server
  (answer, left, { store with server })

/-- A computation whose failure is passed over. -/
def ignoring {α : Type} (m : CoordinationM α) : CoordinationM Unit := fun writes store =>
  let (_, left, store) := m writes store
  (.ok (), left, store)

def updateCoordination (record : CoordinationRecord) : CoordinationM Bool := do
  let store ← .get
  if (store.coordinations.get? record.coordinationId).isNone then return false
  else
    .write "persist coordination" fun store =>
      { store with coordinations := store.coordinations.insert record }
    return true

/-- A row that is there, published or not, is passed over. -/
def enqueueRow (rowNow : Instant) (record : TaskRecord) : CoordinationM Unit :=
  onServer (onQueue do
    let store ← .get
    if (store.outbox.get? record.taskId).isSome then return ()
    else persistRow (.new record rowNow))

def journalAndEnqueue (snapshot : JournalSnapshot) (tasks : List TaskRecord) (rowNow : Instant) :
    CoordinationM Unit := do
  Durable.each (enqueueRow rowNow) tasks
  onServer (putJournal snapshot)

/-- The part of the server's configuration that a drive reads. -/
structure CoordinationServer where
  codec : Codec
  contractJson : CoordinationContract → Json
  quota : TaskQuota := {}

/-- The times that a drive reads: its own, the journal's for each event, and that of the rows. -/
structure DriveTimes where
  now : Instant
  clock : Nat → Instant
  rowNow : Instant

/-! ## The latch book -/

structure LatchBook where
  startId : Option String := none
  sendIds : Std.ExtTreeMap String String := ∅
  settlementDone : Finset String := ∅
  endDone : Bool := false

def memberNamed (output : Json) : Option String := (output.get "member").bind Json.asStr

def Journal.memberOf (j : Journal) (e : RunEvent) : Option String :=
  (e.output.bind j.resolve).bind memberNamed

def scanEvent (j : Journal) (book : LatchBook) (e : RunEvent) : LatchBook :=
  match e.kind with
  | .coordinationStart => { book with startId := some e.id }
  | .mailboxSend =>
    match j.memberOf e with
    | some member => { book with sendIds := book.sendIds.insert member e.id }
    | none => book
  | .mailboxReceive =>
    match j.memberOf e with
    | some member => { book with settlementDone := insert member book.settlementDone }
    | none => book
  | .coordinationEnd => { book with endDone := true }
  | _ => book

def Journal.scan (j : Journal) : LatchBook := j.events.foldl (scanEvent j) {}

/-! ## Before the settlement -/

/-- What a drive has in hand. -/
structure Pass where
  journal : Journal
  record : CoordinationRecord
  states : List MemberState
  pending : List TaskRecord := []
  settlementDone : Finset String
  startId : String
  dirty : Bool

def CoordinationRecord.external (record : CoordinationRecord) (tenant : String) : String :=
  (stripStart s!"{tenant}/" record.coordinationId).getD record.coordinationId

section

variable (server : CoordinationServer) (times : DriveTimes) (tenant : String)

section

variable (store : CoordinationStore) (record : CoordinationRecord)

def recordEvent (journal : Journal) (draft : EventDraft) : String × Journal :=
  journal.record server.codec draft (times.clock journal.events.length)

def loadJournal : Except String Journal :=
  let runId := coordinationJournalRunId tenant (record.external tenant)
  match store.server.journals.get? runId with
  | some snapshot => (Journal.fromSnapshot server.codec snapshot).mapError fun e =>
      s!"coordination journal `{runId}` failed its integrity check: {e.display}"
  | none => .ok (.new server.codec runId runId)

def startDraft : EventDraft :=
  { kind := .coordinationStart
    effect := .pure
    output := some (.object [("coordination_id", .str (record.external tenant)),
      ("delegator", optionJson .str record.delegator), ("parent", optionJson .str record.parent),
      ("contract", server.contractJson record.contract)])
    parent := record.parent }

def startEvent (book : LatchBook) (journal : Journal) : String × Journal :=
  match book.startId with
  | some id => (id, journal)
  | none => recordEvent server times journal (startDraft server tenant record)

def latched (queue : JsonFileStore) (book : LatchBook) (m : MemberRecord) : MemberRecord :=
  { m with
    submitted := (queue.getTask tenant m.taskId).isSome || book.sendIds.contains m.member }

/-- The loop state of the submissions. -/
structure Submission where
  journal : Journal
  pending : List TaskRecord
  dirty : Bool

def earlierDeadline : Option Instant → Option Instant → Option Instant
  | some a, some b => some (min a b)
  | a, b => a.or b

def submitMember (startId : String) (m : MemberRecord) (s : Submission) :
    Except String Submission :=
  match record.contract.members.find? (·.member = m.member) with
  | none => .error "member names come from the contract"
  | some delegation =>
    match store.server.agents.get? (scopeId tenant m.agentId) with
    | none => .error
        s!"coordination member `{m.member}` target agent `{m.agentId}` is no longer registered"
    | some agent =>
      let recipient := mailboxRecipient m.agentId
      let (sendId, journal) := recordEvent server times s.journal
        { kind := .mailboxSend
          effect := .pure
          output := some (sendJson (record.external tenant) m delegation.kind recipient)
          parent := some startId }
      let task : NewTask :=
        { taskId := m.taskId
          tenant
          kind := delegation.kind
          payload := memberMessageJson (record.external tenant) m record.contract delegation
          recipient := some recipient
          idempotencyKey := some (memberIdempotencyKey (record.external tenant) m.member)
          effect := some delegation.effect
          deadline := earlierDeadline delegation.deadline agent.manifest.budgetDeadline
          parent := some sendId }
      .ok ⟨journal, s.pending ++ [.new task times.now], true⟩

/-- The members in their order; the first that is over quota ends the loop. -/
def submitMembers (store : CoordinationStore) (record : CoordinationRecord) (startId : String)
    (window : Nat) :
    List MemberRecord → Nat → Submission → Except String (List MemberRecord × Submission)
  | [], _, s => .ok ([], s)
  | m :: rest, inFlight, s =>
    if m.submitted || window ≤ inFlight then do
      let (rest, s) ← submitMembers store record startId window rest inFlight s
      return (m :: rest, s)
    else if !submissionFitsQuota store.server.queue server.quota tenant s.pending.length then
      .ok (m :: rest, s)
    else do
      let s ← submitMember server times tenant store record startId m s
      let (rest, s) ← submitMembers store record startId window rest (inFlight + 1) s
      return ({ m with submitted := true } :: rest, s)

/-- `u32::MAX` where the contract has no window. -/
def CoordinationContract.window : CoordinationContract → Nat
  | .fanOut c => c.maxInFlight
  | .delegate _ | .race _ | .quorum _ => 4294967295

def receiveDraft (external parent : String) (d : MemberDisposition) : EventDraft :=
  { kind := .mailboxReceive
    effect := .pure
    status := if d.settlement = .completed then .ok else .error
    output := some (settlementJson external d)
    parent := some parent }

def observeMember (external startId : String) (book : LatchBook)
    (s : Journal × Finset String × Bool) (m : MemberRecord × MemberState) :
    Journal × Finset String × Bool :=
  let (journal, settlementDone, dirty) := s
  match m.2.disposition with
  | none => (journal, settlementDone, dirty)
  | some d =>
    if m.1.member ∈ settlementDone then (journal, settlementDone, dirty)
    else
      let parent := (book.sendIds[m.1.member]?).getD startId
      ((recordEvent server times journal (receiveDraft external parent d)).2,
        insert m.1.member settlementDone, true)

/-- The pass up to the settle decision. -/
def preparePass (journal : Journal) : Except String Pass := do
  let book := journal.scan
  let external := record.external tenant
  let (startId, journal) := startEvent server times tenant record book journal
  let members := record.members.map (latched tenant store.server.queue book)
  let states := members.map (memberState (store.server.queue.getTask tenant))
  let dirty := book.startId.isNone
  if book.endDone then
    return { journal, record := { record with members }, states
             settlementDone := book.settlementDone, startId, dirty }
  else
    let inFlight := (members.zip states).countP fun (m, state) =>
      m.submitted && state.disposition.isNone
    let (members, s) ← submitMembers server times tenant store record startId
      record.contract.window members inFlight ⟨journal, [], dirty⟩
    let (journal, settlementDone, dirty) := (members.zip states).foldl
      (observeMember server times external startId book) (s.journal, book.settlementDone, s.dirty)
    return { journal, record := { record with members }, states, pending := s.pending
             settlementDone, startId, dirty }

/-! ## Settling -/

def cancelledDisposition (m : MemberRecord) : MemberDisposition :=
  { member := m.member
    taskId := m.taskId
    settlement := .cancelled
    error := if m.submitted then none
      else some "never submitted: the pattern settled before this member's window opened" }

def SettlePlan.cancels (plan : SettlePlan) (m : MemberRecord × MemberState) : Bool :=
  m.1.member ∉ plan.contributing && m.2.disposition.isNone

def settleMember (external startId : String) (plan : SettlePlan)
    (s : Journal × Finset String × List MemberDisposition) (m : MemberRecord × MemberState) :
    Journal × Finset String × List MemberDisposition :=
  let (journal, settlementDone, dispositions) := s
  if plan.cancels m then
    let d := cancelledDisposition m.1
    if m.1.member ∈ settlementDone then (journal, settlementDone, dispositions ++ [d])
    else
      ((recordEvent server times journal (receiveDraft external startId d)).2,
        insert m.1.member settlementDone, dispositions ++ [d])
  else
    let d := m.2.disposition.getD
      { member := m.1.member, taskId := m.1.taskId, settlement := .cancelled }
    (journal, settlementDone, dispositions ++ [d])

def settledOutcome (external : String) (record : CoordinationRecord) (plan : SettlePlan)
    (dispositions : List MemberDisposition) : CoordinationOutcome :=
  let wasted := dispositions.filter (·.member ∉ plan.contributing)
  let wastedTokens := (wasted.filterMap (·.tokens)).foldl (fun n u => n + u.totalTokens.toNat) 0
  let wastedCost := (wasted.filterMap (·.costUsd)).sum
  { coordinationId := external
    pattern := record.contract.kind
    status := plan.status
    result := plan.result
    members := dispositions
    wastedTokens := if 0 < wastedTokens then some wastedTokens else none
    wastedCostUsd := if 0 < wastedCost then some wastedCost else none
    resolver := plan.resolver }

def deadLetterOf (external endId : String) (outcome : CoordinationOutcome) : TaskRecord :=
  .deadLettered
    { taskId := raceDlqTaskId tenant external
      tenant
      kind := coordinationResultKind
      payload := outcomeJson outcome
      idempotencyKey := some (raceDlqIdempotencyKey external)
      parent := some endId }
    "race dead-lettered: every candidate failed; the outcome carries the evidence" times.now

def outcomeTask (external endId delegator : String) (agent : AgentRecord)
    (outcome : CoordinationOutcome) : TaskRecord :=
  .new
    { taskId := outcomeTaskId tenant external
      tenant
      kind := coordinationResultKind
      payload := outcomeJson outcome
      recipient := some (mailboxRecipient delegator)
      idempotencyKey := some (outcomeIdempotencyKey external)
      deadline := agent.manifest.budgetDeadline
      parent := some endId } times.now

def outcomeTasks (external endId : String) (delegator : Option String)
    (outcome : CoordinationOutcome) : Except String (List TaskRecord) :=
  match delegator with
  | none => .ok []
  | some delegator =>
    match store.server.agents.get? (scopeId tenant delegator) with
    | none => .error s!"coordination delegator `{delegator}` is no longer registered"
    | some agent => .ok [outcomeTask times tenant external endId delegator agent outcome]

end

def settledPass (pass : Pass) (plan : SettlePlan) : String × CoordinationOutcome × Pass :=
  let external := pass.record.external tenant
  let (journal, settlementDone, dispositions) := (pass.record.members.zip pass.states).foldl
    (settleMember server times external pass.startId plan) (pass.journal, pass.settlementDone, [])
  let outcome := settledOutcome external pass.record plan dispositions
  let (endId, journal) := recordEvent server times journal
    { kind := .coordinationEnd
      effect := .pure
      output := some (outcomeJson outcome)
      parent := some pass.startId }
  (endId, outcome,
    { pass with
      journal
      settlementDone
      record := { pass.record with settled := true, outcome := some outcome }
      dirty := true })

/-- The settled pass with the message among its tasks. -/
def deliverOutcome (pass : Pass) (endId : String) (outcome : CoordinationOutcome) :
    CoordinationM Pass := do
  let store ← .get
  match outcomeTasks times tenant store (pass.record.external tenant) endId pass.record.delegator
    outcome with
  | .error e => .fail e
  | .ok tasks =>
    return { pass with
      pending := pass.pending ++ tasks
      record := { pass.record with dlqWritten := true, outcomeDelivered := true } }

def settle (pass : Pass) (plan : SettlePlan) : CoordinationM Pass := do
  let external := pass.record.external tenant
  Durable.each (fun m : MemberRecord × MemberState =>
      ignoring (onServer (onQueue (cancelTask tenant m.1.taskId times.now))))
    ((pass.record.members.zip pass.states).filter fun m => plan.cancels m && m.1.submitted)
  let (endId, outcome, pass) := settledPass server times tenant pass plan
  if plan.needsDlq then
    let _ ← onServer (onQueue (enqueueLocked (deadLetterOf times tenant external endId outcome)))
  deliverOutcome times tenant pass endId outcome

/-! ## The drive -/

structure DriveOutcome where
  record : CoordinationRecord
  dispositions : List MemberDisposition

def commitPass (pass : Pass) : CoordinationM DriveOutcome := do
  if pass.dirty || !pass.pending.isEmpty then
    journalAndEnqueue pass.journal.snapshot pass.pending times.rowNow
  let record := { pass.record with updatedAt := times.now }
  let _ ← updateCoordination record
  return ⟨record, match record.outcome with
    | some outcome => outcome.members
    | none => terminal pass.states⟩

def currentDispositions (store : CoordinationStore) (record : CoordinationRecord) :
    List MemberDisposition :=
  terminal (record.members.map (memberState (store.server.queue.getTask tenant)))

def drive (record : CoordinationRecord) : CoordinationM DriveOutcome := do
  let store ← .get
  if record.settled && record.outcomeDelivered && record.dlqWritten then
    return ⟨record, match record.outcome with
      | some outcome => outcome.members
      | none => currentDispositions tenant store record⟩
  else
    match loadJournal server tenant store record with
    | .error e => .fail e
    | .ok journal =>
      match preparePass server times tenant store record journal with
      | .error e => .fail e
      | .ok pass =>
        if journal.scan.endDone then commitPass times pass
        else
          match decideSettle pass.record pass.states with
          | none => commitPass times pass
          | some plan => do
            let pass ← settle server times tenant pass plan
            commitPass times pass

end

end RustyRuntime
