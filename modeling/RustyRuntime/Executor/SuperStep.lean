import RustyRuntime.Graph
import RustyRuntime.Inbox
import RustyRuntime.Checkpoint.Memory

/-!
# One super-step

`execute_super_step` of `executor.rs`: plan, compute, barrier, merge, route, checkpoint. The
state of a run is passed explicitly. `Env` is what outlives an error: the recorder, the inbox
behind its handle and the checkpointer's store. The shared `State` is the `&mut` argument of
the source, so a step returns it with its result.

Concurrency is the argument `join`: given the spawned invocations it lists what the tasks
returned, in the order in which they finish. The nodes of a graph are one such `join`
(`Graph.runTasks`); the results about the barrier hold for all.

Streaming events and tracing are left out. The entries of a node's `extra` map that come
straight from the configuration are one list.
-/

namespace RustyRuntime

variable {σ : Type}

/-! ## Runs and their surroundings -/

/-- The `Checkpointer` trait, as far as a run uses it. -/
structure Checkpointer (σ : Type) where
  put : σ → Checkpoint → Result Unit × σ
  getLatest : σ → String → Result (Option Checkpoint)
  getById : σ → String → String → Result (Option Checkpoint)

def memoryCheckpointer : Checkpointer InMemoryCheckpointer where
  put := InMemoryCheckpointer.put
  getLatest := InMemoryCheckpointer.getLatest
  getById := InMemoryCheckpointer.getById

structure Executor (σ : Type) where
  codec : Codec
  checkpointer : Option (Checkpointer σ)

/-- `RunConfig`. The budget is the text of the first limit that the journal crosses, the
token is what each boundary observes, the declaration depends on the effective policy. -/
structure RunConfig where
  threadId : String
  maxSteps : Nat := 1000
  resume : Option Json := none
  checkpointId : Option String := none
  policyVersion : Option PolicyVersion := none
  extra : List (String × Json) := []
  budgetCrossed : List RunEvent → Option String := fun _ => none
  cancelled : Nat → Bool := fun _ => false
  declaration : Option (PolicyVersion → Json) := none

/-- What outlives an error of the run. -/
structure Env (σ : Type) where
  recorder : Recorder
  inbox : Option Inbox
  stored : σ

/-- One scheduled node invocation; `scopedInput` is the `scoped` of the source. -/
structure ActiveTask where
  name : String
  scopedInput : Option Json := none
  deriving DecidableEq

inductive ExecutionOutcome where
  | done (state : State)
  | interrupted (value : Json) (state : State) (checkpointId : String)
  deriving DecidableEq

def ExecutionOutcome.state : ExecutionOutcome → State
  | done state => state
  | interrupted _ state _ => state

inductive StepTransition where
  | next (tasks : List ActiveTask) (routeEvent : String) (extension : List InboxMessage)
  | finish (outcome : ExecutionOutcome)
  deriving DecidableEq

def StepTransition.tasks : StepTransition → List ActiveTask
  | next tasks _ _ => tasks
  | finish _ => []

/-- The loop variables a super-step reads. -/
structure StepInput where
  state : State
  active : List ActiveTask
  step : Nat
  pendingResume : Option Json := none
  stepParent : Option String := none
  delivery : List InboxMessage := []

/-- The result of a super-step, the state behind the `&mut`, the surroundings, and the
checkpoint that the step handed to the checkpointer. -/
structure StepOutput (σ : Type) where
  result : Result StepTransition
  state : State
  env : Env σ
  checkpoint : Option Checkpoint := none

def taskNames (active : List ActiveTask) : List String := active.map ActiveTask.name

def natJson (n : Nat) : Json := .num (.posInt (UInt64.ofNat n))

def strings (names : List String) : Json := .arr (names.map Json.str)

/-- Append an event and keep its id. -/
def Env.record (codec : Codec) (env : Env σ) (draft : EventDraft) : String × Env σ :=
  let (event, recorder) := env.recorder.record codec draft
  (event, { env with recorder })

/-! ## Plan and compute -/

/-- `PARENT_EVENT_KEY`. -/
def parentEventKey : String := "rusty.parent_event"

/-- `INBOX_DELIVERY_KEY`. -/
def inboxDeliveryKey : String := "rusty.inbox_delivery"

/-- A spawned task: the context its node runs on, and what the journal needs of it. -/
structure Invocation where
  index : Nat
  name : String
  context : NodeContext
  effect : Effect
  inputEvent : String

/-- The private copy of the snapshot, with the scoped state of a `Send` over it. -/
def scopedState (snapshot : State) (task : ActiveTask) : Result State :=
  match task.scopedInput with
  | none => .ok snapshot
  | some (.obj fields) => .ok (fields.foldl (fun s field => s.insert field.1 field.2) snapshot)
  | some other => .error (.invalidUpdate
      (s!"Send scoped state for node `{task.name}` must be a JSON object, " ++
       s!"got {other.text}"))

/-- `NodeConfig::extra` of an invocation. -/
def nodeExtra (config : RunConfig) (delivery : List InboxMessage) (inputEvent : String) :
    Std.ExtTreeMap String Json :=
  let extra := Library.insertAll config.extra
    ((∅ : Std.ExtTreeMap String Json).insert parentEventKey (.str inputEvent))
  if delivery.isEmpty then extra
  else extra.insert inboxDeliveryKey (.arr (delivery.map InboxMessage.toValue))

/-- The body of the spawn loop. -/
def spawnOne (codec : Codec) (graph : Graph) (config : RunConfig) (input : StepInput)
    (startEvent : String) (index : Nat) (task : ActiveTask) (env : Env σ) :
    Result Invocation × Env σ :=
  match graph.node task.name with
  | none => (.error (.graph s!"routing activated unknown node `{task.name}`"), env)
  | some node =>
    match scopedState input.state task with
    | .error e => (.error e, env)
    | .ok state =>
      let (inputEvent, env) := env.record codec
        { kind := .nodeInput, effect := node.effect, nodeId := some task.name
          input := some state.toValue, parent := some startEvent }
      (.ok
        { index, name := task.name, effect := node.effect, inputEvent
          context := ⟨state,
            { threadId := config.threadId, step := input.step, resume := input.pendingResume
              extra := nodeExtra config input.delivery inputEvent }⟩ }, env)

def spawnAll (codec : Codec) (graph : Graph) (config : RunConfig) (input : StepInput)
    (startEvent : String) : Nat → List ActiveTask → Env σ → Result (List Invocation) × Env σ
  | _, [], env => (.ok [], env)
  | index, task :: rest, env =>
    match spawnOne codec graph config input startEvent index task env with
    | (.error e, env) => (.error e, env)
    | (.ok invocation, env) =>
      match spawnAll codec graph config input startEvent (index + 1) rest env with
      | (.error e, env) => (.error e, env)
      | (.ok invocations, env) => (.ok (invocation :: invocations), env)

/-! ## Barrier -/

/-- What a task that returned hands to the barrier. -/
structure Finished where
  index : Nat
  name : String
  outcome : Result NodeOutput
  latencyMs : UInt64
  deriving DecidableEq

inductive Joined where
  | returned (task : Finished)
  | panicked (text : String)
  deriving DecidableEq

/-- The node outputs of a barrier, in finish order. -/
structure Barrier where
  writes : List (Nat × String × Updates) := []
  commands : List Command := []
  ranNodes : List String := []
  completed : List (Nat × String × UInt64 × Json) := []

inductive BarrierEnd where
  | completed (barrier : Barrier)
  | interrupted (task : Finished) (value : Json)
  | failed (task : Finished) (error : RustyError)
  | panicked (text : String)

def Command.toValue (command : Command) : Json :=
  .object (("goto", strings command.goto) ::
    (command.resume.map fun value => ("resume", value)).toList)

/-- The journaled output of an invocation. -/
def NodeOutput.toValue (output : NodeOutput) : Json :=
  .object [("updates", .object output.updates.entries),
    ("command", (output.command.map Command.toValue).getD .null)]

def NodeOutput.routing (output : NodeOutput) : Option Command :=
  output.command.filter (!·.goto.isEmpty)

def Barrier.push (b : Barrier) (task : Finished) (output : NodeOutput) : Barrier where
  writes := b.writes ++ [(task.index, task.name, output.updates)]
  commands := b.commands ++ output.routing.toList
  ranNodes := b.ranNodes ++ [task.name]
  completed := b.completed ++ [(task.index, task.name, task.latencyMs, output.toValue)]

def joinAll : List Joined → Barrier → BarrierEnd
  | [], b => .completed b
  | .panicked text :: _, _ => .panicked text
  | .returned task :: rest, b =>
    match task.outcome with
    | .ok output => joinAll rest (b.push task output)
    | .error (.interrupt value) => .interrupted task value
    | .error e => .failed task e

/-- `invocation_effects[index]`. -/
def effectAt (invocations : List Invocation) (index : Nat) : Effect :=
  invocations[index]?.elim .pure Invocation.effect

/-- `input_events[index]`. -/
def inputEventAt (invocations : List Invocation) (index : Nat) : Option String :=
  invocations[index]?.map Invocation.inputEvent

/-! ## Checkpoints of a run -/

variable (ex : Executor σ)

/-- `put`, then the `CheckpointWritten` event with its further fields. -/
def persist (checkpoint : Checkpoint) (fields : List (String × Json)) (parent : Option String)
    (env : Env σ) : Result Unit × Env σ :=
  match ex.checkpointer with
  | none => (.ok (), env)
  | some checkpointer =>
    match checkpointer.put env.stored checkpoint with
    | (.error e, stored) => (.error e, { env with stored })
    | (.ok (), stored) =>
      let (_, env) := { env with stored }.record ex.codec
        { kind := .checkpointWritten, effect := .idempotent
          output := some (.object (("checkpoint_id", .str checkpoint.id) ::
            ("step", natJson checkpoint.step) :: fields))
          parent }
      (.ok (), env)

def inboxStamp (inbox : Option Inbox) (pendingDelivery : List InboxMessage) :
    Option InboxSnapshot :=
  inbox.bind fun inbox => inbox.snapshot.map fun stamp => { stamp with pendingDelivery }

/-- The interrupt path: the whole active set is scheduled again on the state before the step,
with the delivery of the step. -/
def suspend (config : RunConfig) (input : StepInput) (invocations : List Invocation)
    (task : Finished) (value : Json) (env : Env σ) : StepOutput σ :=
  let (interruptEvent, env) := env.record ex.codec
    { kind := .interrupt, effect := effectAt invocations task.index, nodeId := some task.name
      input := some value, status := .interrupted
      parent := inputEventAt invocations task.index }
  let (checkpoint, recorder) := env.recorder.mintCheckpoint config.threadId input.step
    input.state (taskNames input.active) (inboxStamp env.inbox input.delivery)
  let written := if ex.checkpointer.isSome then some checkpoint else none
  match persist ex checkpoint [("suspension", .bool true)] (some interruptEvent)
      { env with recorder } with
  | (.error e, env) => ⟨.error e, input.state, env, written⟩
  | (.ok (), env) =>
    ⟨.ok (.finish (.interrupted value input.state checkpoint.id)), input.state, env, written⟩

/-! ## Merge -/

def Barrier.orderedWrites (b : Barrier) : Writes :=
  (Library.sortByKey Prod.fst b.writes).map Prod.snd

def Barrier.orderedOutputs (b : Barrier) : List (Nat × String × UInt64 × Json) :=
  Library.sortByKey Prod.fst b.completed

def journalOutput (codec : Codec) (invocations : List Invocation)
    (acc : Option String × Env σ) (entry : Nat × String × UInt64 × Json) :
    Option String × Env σ :=
  let (index, name, latencyMs, output) := entry
  let (event, env) := acc.2.record codec
    { kind := .nodeOutput, effect := effectAt invocations index, nodeId := some name
      output := some output, latencyMs := some latencyMs
      parent := inputEventAt invocations index }
  (some event, env)

/-- The values that the merge left in the written channels. -/
def mergedUpdates (writes : Writes) (merged : State) : Json :=
  .object ((writes.flatMap fun write => write.2.keys).eraseDups.filterMap fun channel =>
    (merged.get channel).map fun value => (channel, value))

/-! ## Route -/

/-- The next active set, and the names in it that were not sent. -/
structure Plan where
  planned : List String := []
  next : List ActiveTask := []

namespace Plan

/-- `planned.insert` guards the push of a plain target; a `Send` is always its own task. -/
def add (plan : Plan) (task : ActiveTask) : Plan :=
  match task.scopedInput with
  | some _ => { plan with next := plan.next ++ [task] }
  | none =>
    if task.name ∈ plan.planned then plan
    else ⟨plan.planned ++ [task.name], plan.next ++ [task]⟩

end Plan

variable (graph : Graph)

variable (spec : StateSpec) (config : RunConfig) (input : StepInput)

def planGoto (plan : Plan) (target : String) : Result Plan :=
  if graph.hasNode target then .ok (plan.add ⟨target, none⟩)
  else .error (.graph s!"Command::goto references unknown node `{target}`")

/-- One fan-out instruction of a router. -/
def planSend (name : String) (plan : Plan) (send : Send) : Result Plan :=
  if graph.hasNode send.node then .ok (plan.add ⟨send.node, some send.state⟩)
  else .error (.graph s!"Route::Send from `{name}` targets unknown node `{send.node}`")

def planEdge (merged : State) (name : String) (plan : Plan) : Edge → Result Plan
  | .direct _ target => .ok (plan.add ⟨target, none⟩)
  | .conditional _ router =>
    match router merged with
    | .error e => .error e
    | .ok (.node target) =>
      if graph.hasNode target then .ok (plan.add ⟨target, none⟩)
      else .error (.graph
        s!"conditional router from `{name}` returned unknown node `{target}`")
    | .ok (.send sends) => sends.foldlM (planSend graph name) plan
    | .ok .finish => .ok plan

/-- The route phase: `Command::goto` overrides the edges, and each node that ran has its edge
set evaluated once. -/
def route (merged : State) (b : Barrier) : Result (List ActiveTask) :=
  let plan : Result Plan :=
    if b.commands.isEmpty then
      b.ranNodes.eraseDups.foldlM
        (fun plan name => (graph.outgoingEdges name).foldlM (planEdge graph merged name) plan) {}
    else b.commands.foldlM (fun plan command => command.goto.foldlM (planGoto graph) plan) {}
  plan.map Plan.next

/-! ## Turn extension and boundary checkpoint -/

/-- The next active set after the follow-ups, the batch they carry, and the event that the
routing decision follows. -/
structure TurnEnd (σ : Type) where
  next : List ActiveTask
  extension : List InboxMessage
  routeParent : String
  env : Env σ

/-- A turn that would end goes on when follow-ups are queued. -/
def extendTurn (codec : Codec) (graph : Graph) (step : Nat) (next : List ActiveTask)
    (endEvent : String) (env : Env σ) : TurnEnd σ :=
  match next, env.inbox with
  | [], some inbox =>
    let settled := inbox.settle codec env.recorder (some endEvent)
    let routeParent := settled.lastEvent.getD endEvent
    let env := { env with recorder := settled.recorder }
    let (followups, inbox) := settled.inbox.drainFollowups
    if followups.isEmpty then ⟨[], [], routeParent, { env with inbox := some inbox }⟩
    else
      let (staged, inbox) := inbox.drainStaged
      let extension := followups ++ staged
      let (routeParent, env) := { env with inbox := some inbox }.record codec
        { kind := .inboxConsumed, effect := .pure
          output := some (consumptionValue .turnExtension step extension)
          parent := some routeParent }
      ⟨[⟨graph.entryPoint, none⟩], extension, routeParent, env⟩
  | next, _ => ⟨next, [], endEvent, env⟩

/-- The journaled routing decision. -/
def routingValue (next : List ActiveTask) (commands : List Command) : Json :=
  .object [("next", .arr (next.map fun task =>
      .object [("node", .str task.name), ("scoped", task.scopedInput.getD .null)])),
    ("goto", strings (commands.flatMap Command.goto))]

def transition (next : List ActiveTask) (merged : State) (routeEvent : String)
    (extension : List InboxMessage) : StepTransition :=
  if next.isEmpty then .finish (.done merged) else .next next routeEvent extension

def closeStep (step : Nat) (merged : State) (commands : List Command) (next : List ActiveTask)
    (endEvent : String) (env : Env σ) : StepOutput σ :=
  let turn := extendTurn ex.codec graph step next endEvent env
  let (routeEvent, env) := turn.env.record ex.codec
    { kind := .routingDecision, effect := .pure
      output := some (routingValue turn.next commands), parent := some turn.routeParent }
  let after := transition turn.next merged routeEvent turn.extension
  if ex.checkpointer.isNone then ⟨.ok after, merged, env, none⟩
  else
    let (checkpoint, recorder) := env.recorder.mintCheckpoint config.threadId step merged
      (taskNames turn.next) (inboxStamp env.inbox turn.extension)
    match persist ex checkpoint [("suspension", .bool false)] (some routeEvent)
        { env with recorder } with
    | (.error e, env) => ⟨.error e, merged, env, some checkpoint⟩
    | (.ok (), env) => ⟨.ok after, merged, env, some checkpoint⟩

/-! ## The step -/

/-- A barrier that every task reached: journal, merge, route, close. -/
def commit (invocations : List Invocation) (startEvent : String) (b : Barrier) (env : Env σ) :
    StepOutput σ :=
  let (lastOutput, env) :=
    b.orderedOutputs.foldl (journalOutput ex.codec invocations) (none, env)
  match spec.applySuperStep input.state b.orderedWrites with
  | (.error e, state) => ⟨.error e, state, env, none⟩
  | (.ok (), merged) =>
    let (endEvent, env) := env.record ex.codec
      { kind := .superStepEnd, effect := .pure
        output := some (mergedUpdates b.orderedWrites merged)
        parent := some (lastOutput.getD startEvent) }
    match route graph merged b with
    | .error e => ⟨.error e, merged, env, none⟩
    | .ok next => closeStep ex graph config input.step merged b.commands next endEvent env

def startStep (env : Env σ) : String × Result (List Invocation) × Env σ :=
  let (startEvent, env) := env.record ex.codec
    { kind := .superStepStart, effect := .pure
      input := some (.object [("step", natJson input.step),
        ("active_nodes", strings (taskNames input.active))])
      parent := input.stepParent }
  (startEvent, spawnAll ex.codec graph config input startEvent 0 input.active env)

/-- A step whose barrier a task failed. -/
def abort (invocations : List Invocation) (task : Finished) (error : RustyError) (env : Env σ) :
    StepOutput σ :=
  let (_, env) := env.record ex.codec
    { kind := .nodeOutput, effect := effectAt invocations task.index
      nodeId := some task.name, status := .error
      output := some (.object [("error", .str error.display)])
      latencyMs := some task.latencyMs, parent := inputEventAt invocations task.index }
  ⟨.error (.node s!"node `{task.name}` failed at super-step {input.step}: {error.display}"),
    input.state, env, none⟩

def executeSuperStep (join : List Invocation → List Joined) (input : StepInput) (env : Env σ) :
    StepOutput σ :=
  let (startEvent, spawned, env) := startStep ex graph config input env
  match spawned with
  | .error e => ⟨.error e, input.state, env, none⟩
  | .ok invocations =>
    match joinAll (join invocations) {} with
    | .panicked text => ⟨.error (.node
        s!"node task failed to join (panic or cancellation): {text}"), input.state, env, none⟩
    | .failed task e => abort ex input invocations task e env
    | .interrupted task value => suspend ex config input invocations task value env
    | .completed b => commit ex graph spec config input invocations startEvent b env

/-- The task set of a graph whose nodes are functions of their context, joined in index
order with the given latencies. -/
def Graph.runTasks (latency : Invocation → UInt64) (invocations : List Invocation) : List Joined :=
  invocations.filterMap fun invocation => (graph.node invocation.name).map fun node =>
    .returned ⟨invocation.index, invocation.name, node.run invocation.context,
      latency invocation⟩

end RustyRuntime
