import RustyRuntime.Executor.SuperStep

/-!
# The run loop

`run_inner` of `executor.rs`. A run starts fresh or from a checkpoint (`begin`), and then
repeats: boundary (ceilings, inbox, cancellation), super-step, transition. `iterate` is one
round. Every round but the last raises `stepsRun`, and the ceiling ends the run at
`maxSteps`, so `maxSteps + 1` rounds are always enough (`isSome_run`).
-/

namespace RustyRuntime

variable {σ : Type}

structure LoopState (σ : Type) where
  state : State
  active : List ActiveTask
  step : Nat := 0
  pendingResume : Option Json := none
  stepParent : Option String := none
  carriedDelivery : List InboxMessage := []
  turnStart : Bool := true
  stepsRun : Nat := 0
  env : Env σ

/-- A round goes on with the next loop state, or ends the run. -/
inductive Iteration (σ : Type) where
  | continue (loop : LoopState σ)
  | finished (result : Result ExecutionOutcome) (env : Env σ)

/-! ## Ceilings -/

section Boundary

variable (ex : Executor σ) (config : RunConfig) (loop : LoopState σ)

/-- `check_spend`: the text of the crossed limit. -/
def checkSpend (env : Env σ) : Option String :=
  (config.budgetCrossed env.recorder.journal.events).map
    (· ++ " — the run stops here; its last checkpoint stands")

def ceiling : Option (String × Json) :=
  if config.maxSteps ≤ loop.stepsRun then
    some ("step_ceiling", .object [("reason", .str "step_ceiling"),
      ("limit", natJson config.maxSteps), ("steps_run", natJson loop.stepsRun),
      ("note", .str ("the run stopped at its step ceiling with the work it had done; " ++
        "resume the thread to carry on, raising RunConfig::max_steps when " ++
        "the task genuinely needs more steps"))])
  else (checkSpend config loop.env).map fun crossed =>
    ("budget_ceiling", .object [("reason", .str "budget_ceiling"), ("crossed", .str crossed),
      ("steps_run", natJson loop.stepsRun),
      ("note", .str ("the run stopped at its spend ceiling with the work it had " ++
        "done; resume the thread to carry on, raising the budget when " ++
        "the task genuinely needs more"))])

def checkpointLoop (stamp : Option InboxSnapshot) (fields : List (String × Json))
    (parent : Option String) (env : Env σ) : Result String × Env σ :=
  if ex.checkpointer.isNone then (.ok "", env)
  else
    let (checkpoint, recorder) := env.recorder.mintCheckpoint config.threadId loop.step
      loop.state (taskNames loop.active) stamp
    match persist ex checkpoint fields parent { env with recorder } with
    | (.error e, env) => (.error e, env)
    | (.ok (), env) => (.ok checkpoint.id, env)

def haltAtCeiling (reason : String) (halt : Json) : Iteration σ :=
  match checkpointLoop ex config loop (loop.env.inbox.bind Inbox.snapshot)
      [("suspension", .bool true), ("halted", .str reason)] none loop.env with
  | (.error e, env) => .finished (.error e) env
  | (.ok checkpointId, env) =>
    .finished (.ok (.interrupted (.object [("rusty.halted", halt)]) loop.state checkpointId)) env

/-! ## Cancellation -/

def cancelledError (what : String) (stepsRun : Nat) : RustyError :=
  .cancelled (s!"cancelled {what}after {stepsRun} super-step(s); the boundary checkpoint of " ++
    s!"thread `{config.threadId}` is intact, so re-running the thread resumes from there")

/-- A typed cancellation: the queues are kept or cleared, and the boundary checkpoint is
written again. -/
def cancelRun (inbox : Inbox) (cause : CancelCause) (keepInbox : Bool) (parent : Option String)
    (recorder : Recorder) : Iteration σ :=
  let (dropped, inbox) := if keepInbox then ({}, inbox) else inbox.clear
  let (cancelEvent, env) := { loop.env with inbox := some inbox, recorder }.record ex.codec
    { kind := .runCancelled, effect := .pure
      output := some (cancellationValue cause keepInbox dropped), parent }
  let stamp := if keepInbox then inboxStamp (some inbox) loop.carriedDelivery
    else inbox.snapshot
  match checkpointLoop ex config loop stamp
      [("suspension", .bool false), ("cancellation", .bool true)] (some cancelEvent) env with
  | (.error e, env) => .finished (.error e) env
  | (.ok _, env) =>
    .finished (.error (cancelledError config s!"({cause.name}) " loop.stepsRun)) env

/-! ## The boundary -/

def drainBoundary (inbox : Inbox) (beginsTurn : Bool) : List InboxMessage × Inbox :=
  let (steering, inbox) := inbox.drainSteering
  if beginsTurn || !steering.isEmpty then
    let (staged, inbox) := inbox.drainStaged
    (steering ++ staged, inbox)
  else (steering, inbox)

/-- The delivery of the coming step: the carried batch, then what the boundary drains. The
loop state it returns has given the carried batch away. -/
def deliver (inbox : Inbox) (parent : Option String) (recorder : Recorder) :
    List InboxMessage × LoopState σ :=
  let beginsTurn := loop.turnStart || !loop.carriedDelivery.isEmpty
  let (boundary, inbox) := drainBoundary inbox beginsTurn
  let env := { loop.env with inbox := some inbox, recorder }
  let env := if boundary.isEmpty then env else (env.record ex.codec
    { kind := .inboxConsumed, effect := .pure, parent
      output := some (consumptionValue (if beginsTurn then .turnStart else .stepBoundary)
        loop.step boundary) }).2
  (loop.carriedDelivery ++ boundary, { loop with carriedDelivery := [], turnStart := false, env })

/-- What a boundary decides: the run ends there, or a step gets a delivery. -/
inductive AtBoundary (σ : Type) where
  | stop (iteration : Iteration σ)
  | go (delivery : List InboxMessage) (loop : LoopState σ)

def boundaryInbox : AtBoundary σ :=
  match loop.env.inbox with
  | none => .go [] loop
  | some inbox =>
    let settled := inbox.settle ex.codec loop.env.recorder loop.stepParent
    let parent := settled.lastEvent.or loop.stepParent
    let (cancel, inbox) := settled.inbox.takeCancel settled.recorder.journal.events.length
    match cancel with
    | some (cause, keepInbox) =>
      .stop (cancelRun ex config loop inbox cause keepInbox parent settled.recorder)
    | none =>
      let (delivery, loop) := deliver ex loop inbox parent settled.recorder
      .go delivery loop

def atBoundary : AtBoundary σ :=
  match ceiling config loop with
  | some (reason, halt) => .stop (haltAtCeiling ex config loop reason halt)
  | none =>
    match boundaryInbox ex config loop with
    | .stop iteration => .stop iteration
    | .go delivery loop =>
      if config.cancelled loop.stepsRun then
        .stop (.finished (.error (cancelledError config "" loop.stepsRun)) loop.env)
      else .go delivery loop

/-! ## Rounds -/

def LoopState.stepInput (delivery : List InboxMessage) : StepInput :=
  { state := loop.state, active := loop.active, step := loop.step
    pendingResume := loop.pendingResume, stepParent := loop.stepParent, delivery }

def afterStep (out : StepOutput σ) : Iteration σ :=
  match out.result with
  | .error e => .finished (.error e) out.env
  | .ok transition =>
    match checkSpend config out.env with
    | some crossed => .finished (.error (.budget crossed)) out.env
    | none =>
      match transition with
      | .finish outcome => .finished (.ok outcome) out.env
      | .next tasks routeEvent extension => .continue
          { loop with
            state := out.state, active := tasks, step := loop.step + 1
            stepsRun := loop.stepsRun + 1, pendingResume := none
            stepParent := some routeEvent, env := out.env
            carriedDelivery := if extension.isEmpty then loop.carriedDelivery else extension
            turnStart := loop.turnStart || !extension.isEmpty }

end Boundary

section

variable (ex : Executor σ) (graph : Graph) (spec : StateSpec) (config : RunConfig)

def iterate (join : List Invocation → List Joined) (loop : LoopState σ) : Iteration σ :=
  match atBoundary ex config loop with
  | .stop iteration => iteration
  | .go delivery loop => afterStep config loop
      (executeSuperStep ex graph spec config join (loop.stepInput delivery) loop.env)

/-- The super-step loop, for a number of rounds; `join n` is the task set of round `n`. -/
def runLoop (ex : Executor σ) (graph : Graph) (spec : StateSpec) (config : RunConfig)
    (join : Nat → List Invocation → List Joined) :
    Nat → LoopState σ → Option (Result ExecutionOutcome × Env σ)
  | 0, _ => none
  | rounds + 1, loop =>
    match iterate ex graph spec config (join loop.stepsRun) loop with
    | .finished result env => some (result, env)
    | .continue loop => runLoop ex graph spec config join rounds loop

/-! ## Start and resume -/

def lookupCheckpoint (checkpointer : Checkpointer σ) (config : RunConfig) (stored : σ) :
    Result Checkpoint :=
  match config.checkpointId with
  | some id =>
    match checkpointer.getById stored config.threadId id with
    | .error e => .error e
    | .ok (some checkpoint) => .ok checkpoint
    | .ok none => .error (.checkpoint
        s!"cannot replay thread `{config.threadId}`: checkpoint `{id}` not found")
  | none =>
    match checkpointer.getLatest stored config.threadId with
    | .error e => .error e
    | .ok (some checkpoint) => .ok checkpoint
    | .ok none => .error (.checkpoint
        s!"cannot resume thread `{config.threadId}`: no checkpoint found")

def restoredDelivery (inbox : Option Inbox) (stamp : Option InboxSnapshot) :
    List InboxMessage :=
  match inbox, stamp with
  | some inbox, some stamp => if inbox.isFresh then stamp.pendingDelivery else []
  | _, _ => []

/-- The inbox of a resumed run. -/
def restoredInbox (inbox : Option Inbox) (stamp : Option InboxSnapshot) : Option Inbox :=
  match stamp with
  | some stamp => inbox.map (·.seed stamp)
  | none => inbox

def resumeLoop (checkpoint : Checkpoint) (env : Env σ) : LoopState σ :=
  let policyVersion := config.policyVersion.getD checkpoint.header.policyVersion
  let (resumeEvent, env) := { env with
      recorder := { env.recorder with policyVersion } }.record ex.codec
    { kind := .resume, effect := .pure
      input := some (.object [("checkpoint_id", .str checkpoint.id),
        ("step", natJson checkpoint.step), ("resume", config.resume.getD .null)]) }
  { state := checkpoint.state, step := checkpoint.step
    active := checkpoint.nextNodes.map fun name => ⟨name, none⟩
    pendingResume := config.resume, stepParent := some resumeEvent
    carriedDelivery := restoredDelivery env.inbox checkpoint.header.inbox
    env := { env with inbox := restoredInbox env.inbox checkpoint.header.inbox } }

/-- The `RunConfigDeclared` event, for a run that declares anything. -/
def declare (loop : LoopState σ) : LoopState σ :=
  match config.declaration with
  | none => loop
  | some declaration => { loop with env := (loop.env.record ex.codec
      { kind := .runConfigDeclared, effect := .pure
        output := some (declaration loop.env.recorder.policyVersion) }).2 }

def begin (initialState : State) (env : Env σ) : Iteration σ :=
  if config.checkpointId.isSome || config.resume.isSome then
    match ex.checkpointer with
    | none => .finished (.error (.checkpoint
        ("RunConfig.checkpoint_id/resume is set but no checkpointer is configured " ++
         "on the executor"))) env
    | some checkpointer =>
      match lookupCheckpoint checkpointer config env.stored with
      | .error e => .finished (.error e) env
      | .ok checkpoint =>
        let loop := resumeLoop ex config checkpoint env
        if loop.active.isEmpty then .finished (.ok (.done loop.state)) loop.env
        else .continue (declare ex config loop)
  else .continue (declare ex config
    { state := initialState, active := [⟨graph.entryPoint, none⟩], env })

def Executor.run (join : Nat → List Invocation → List Joined) (initialState : State) (env : Env σ) :
    Option (Result ExecutionOutcome × Env σ) :=
  match begin ex graph config initialState env with
  | .finished result env => some (result, env)
  | .continue loop => runLoop ex graph spec config join (config.maxSteps + 1) loop

end

/-! ## Every run ends -/

structure LoopState.SameWork (before after : LoopState σ) : Prop where
  state : after.state = before.state
  active : after.active = before.active
  step : after.step = before.step
  stepsRun : after.stepsRun = before.stepsRun

section Rounds

variable {ex : Executor σ} {graph : Graph} {spec : StateSpec} {config : RunConfig}
  {loop loop' : LoopState σ} {delivery : List InboxMessage}

theorem sameWork_of_boundaryInbox (h : boundaryInbox ex config loop = .go delivery loop') :
    loop.SameWork loop' := by
  unfold boundaryInbox at h
  split at h
  · cases h
    exact ⟨rfl, rfl, rfl, rfl⟩
  · dsimp only at h
    split at h <;> cases h
    exact ⟨rfl, rfl, rfl, rfl⟩

theorem sameWork_of_atBoundary (h : atBoundary ex config loop = .go delivery loop') :
    loop.stepsRun < config.maxSteps ∧ loop.SameWork loop' := by
  revert h
  fun_cases atBoundary ex config loop with
  | case4 hCeiling _ _ hInbox =>
    rintro ⟨⟩
    refine ⟨?_, sameWork_of_boundaryInbox hInbox⟩
    by_contra hNot
    simp [ceiling, Nat.le_of_not_lt hNot] at hCeiling
  | _ => exact nofun

/-- An iteration that ends the run before its work is done. -/
def Iteration.Stops (iteration : Iteration σ) : Prop :=
  ∃ result env, iteration = .finished result env ∧ ∀ state, result ≠ .ok (.done state)

theorem stops_of_haltAtCeiling (reason : String) (halt : Json) :
    (haltAtCeiling ex config loop reason halt).Stops := by
  unfold haltAtCeiling
  split
  · exact ⟨_, _, rfl, by simp⟩
  · exact ⟨_, _, rfl, by simp⟩

theorem stops_of_cancelRun (inbox : Inbox) (cause : CancelCause) (keepInbox : Bool)
    (parent : Option String) (recorder : Recorder) :
    (cancelRun ex config loop inbox cause keepInbox parent recorder).Stops := by
  unfold cancelRun
  dsimp only
  split
  · exact ⟨_, _, rfl, by simp⟩
  · exact ⟨_, _, rfl, by simp⟩

theorem stops_of_atBoundary {iteration : Iteration σ}
    (h : atBoundary ex config loop = .stop iteration) : iteration.Stops := by
  revert h
  fun_cases atBoundary ex config loop with
  | case1 =>
    rintro ⟨⟩
    exact stops_of_haltAtCeiling _ _
  | case2 _ _ hInbox =>
    rintro ⟨⟩
    revert hInbox
    fun_cases boundaryInbox ex config loop <;> intro hInbox <;> cases hInbox
    exact stops_of_cancelRun _ _ _ _ _
  | case3 =>
    rintro ⟨⟩
    exact ⟨_, _, rfl, by simp⟩
  | case4 => exact nofun

theorem stepsRun_of_iterate {join : List Invocation → List Joined}
    (h : iterate ex graph spec config join loop = .continue loop') :
    loop.stepsRun < config.maxSteps ∧ loop'.stepsRun = loop.stepsRun + 1 := by
  unfold iterate at h
  split at h
  · next hStop =>
    obtain ⟨result, env, rfl, -⟩ := stops_of_atBoundary hStop
    cases h
  · next delivery before hGo =>
    obtain ⟨hBelow, hWork⟩ := sameWork_of_atBoundary hGo
    unfold afterStep at h
    (repeat' split at h) <;> cases h
    all_goals exact ⟨hBelow, congrArg (· + 1) hWork.stepsRun⟩

/-- **Every run ends.** The step ceiling bounds the rounds of a run. -/
theorem isSome_runLoop (join : Nat → List Invocation → List Joined) {rounds : Nat}
    (hRounds : 0 < rounds) (hEnough : config.maxSteps < loop.stepsRun + rounds) :
    (runLoop ex graph spec config join rounds loop).isSome := by
  induction rounds generalizing loop with
  | zero => omega
  | succ rounds ih =>
    unfold runLoop
    cases hRound : iterate ex graph spec config (join loop.stepsRun) loop with
    | finished result env => rfl
    | «continue» next =>
      obtain ⟨hBelow, hNext⟩ := stepsRun_of_iterate hRound
      exact ih (by omega) (by omega)

theorem isSome_run (join : Nat → List Invocation → List Joined) (initialState : State)
    (env : Env σ) : (ex.run graph spec config join initialState env).isSome := by
  unfold Executor.run
  split
  · rfl
  · exact isSome_runLoop join (Nat.succ_pos _) (by omega)

end Rounds

end RustyRuntime
