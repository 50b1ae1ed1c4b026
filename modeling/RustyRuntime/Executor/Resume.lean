import RustyRuntime.Executor.Commit

/-!
# Resuming a run

A run is looked at through its `history`: the invocations it makes, with their step numbers
and input states, and the result it ends with. A boundary checkpoint is resumed to the state
and the node names of the next active set, so two things differ from the run that goes on.
The step number is the one of the step that wrote the checkpoint, and the scoped inputs of
`Send` tasks are gone. Hence only the checkpoint of a run that has ended resumes to the same
history (`resume_exact_iff`).
-/

namespace RustyRuntime

variable {σ : Type}

/-! ## Histories -/

/-- An invocation as its node sees it. -/
structure Call where
  step : Nat
  node : String
  input : State
  deriving DecidableEq

def Invocation.call (invocation : Invocation) : Call :=
  ⟨invocation.context.config.step, invocation.name, invocation.context.state⟩

/-- The invocations of a step; a spawn loop that fails runs none to its barrier. -/
def stepCalls (ex : Executor σ) (graph : Graph) (config : RunConfig) (input : StepInput)
    (env : Env σ) : List Call :=
  match (startStep ex graph config input env).2.1 with
  | .ok invocations => invocations.map Invocation.call
  | .error _ => []

def history (ex : Executor σ) (graph : Graph) (spec : StateSpec) (config : RunConfig)
    (join : Nat → List Invocation → List Joined) :
    Nat → Iteration σ → List Call × Option (Result ExecutionOutcome)
  | _, .finished result _ => ([], some result)
  | 0, .continue _ => ([], none)
  | rounds + 1, .continue loop =>
    match atBoundary ex config loop with
    | .stop iteration => history ex graph spec config join rounds iteration
    | .go delivery before =>
      let input := before.stepInput delivery
      let rest := history ex graph spec config join rounds (afterStep config before
        (executeSuperStep ex graph spec config (join loop.stepsRun) input before.env))
      (stepCalls ex graph config input before.env ++ rest.1, rest.2)

/-- The whole history of a run, or of what is left of it: the step ceiling bounds its rounds. -/
def runHistory (ex : Executor σ) (graph : Graph) (spec : StateSpec) (config : RunConfig)
    (join : Nat → List Invocation → List Joined) (iteration : Iteration σ) :
    List Call × Option (Result ExecutionOutcome) :=
  history ex graph spec config join (config.maxSteps + 1) iteration

section History

variable {ex : Executor σ} {graph : Graph} {spec : StateSpec} {config : RunConfig}
  {join : Nat → List Invocation → List Joined}

theorem history_finished (rounds : Nat) (result : Result ExecutionOutcome) (env : Env σ) :
    history ex graph spec config join rounds (.finished result env) = ([], some result) := by
  cases rounds <;> rfl

variable {input : StepInput} {env : Env σ} {invocations : List Invocation}
  {loop before : LoopState σ} {rounds : Nat} {tasks : List Invocation → List Joined}
  {delivery : List InboxMessage} {final : State} {checkpointer : Checkpointer σ}
  {checkpoint : Checkpoint}

theorem stepCalls_of_spawned (h : (startStep ex graph config input env).2.1 = .ok invocations) :
    stepCalls ex graph config input env = invocations.map Invocation.call := by
  simp only [stepCalls, h]

theorem runs_of_startStep (h : (startStep ex graph config input env).2.1 = .ok invocations) :
    List.Forall₂ (fun entry invocation => Runs input entry.2 entry.1 invocation)
      input.active.zipIdx invocations := by
  have hAll : spawnAll ex.codec graph config input _ 0 input.active _ = (.ok invocations, _) :=
    Prod.ext h rfl
  exact (runs_of_spawnAll hAll).2

variable (ex graph spec config join) in
/-- The history of a loop with work to do starts with an invocation at its step number,
unless it makes none, and then it does not end with its work done. -/
theorem history_head (rounds : Nat) (hActive : loop.active ≠ []) :
    (∃ call rest, (history ex graph spec config join rounds (.continue loop)).1 = call :: rest ∧
        call.step = loop.step) ∨
      (history ex graph spec config join rounds (.continue loop)).1 = [] ∧
        ∀ state, (history ex graph spec config join rounds (.continue loop)).2 ≠
          some (.ok (.done state)) := by
  cases rounds with
  | zero => exact .inr ⟨rfl, by simp [history]⟩
  | succ rounds =>
    unfold history
    cases hBoundary : atBoundary ex config loop with
    | stop iteration =>
      obtain ⟨result, env, rfl, hNot⟩ := stops_of_atBoundary hBoundary
      dsimp only
      rw [history_finished]
      exact .inr ⟨rfl, by simpa using hNot⟩
    | go delivery before =>
      obtain ⟨-, hWork⟩ := sameWork_of_atBoundary hBoundary
      dsimp only
      cases hSpawn : (startStep ex graph config (before.stepInput delivery) before.env).2.1 with
      | error e =>
        have hFails : ∃ env', afterStep config before (executeSuperStep ex graph spec config
            (join loop.stepsRun) (before.stepInput delivery) before.env) =
              .finished (.error e) env' := by
          simp [afterStep, executeSuperStep, hSpawn]
        obtain ⟨env', hFails⟩ := hFails
        rw [hFails, history_finished]
        exact .inr ⟨by simp [stepCalls, hSpawn], by simp⟩
      | ok invocations =>
        have hRuns := runs_of_startStep hSpawn
        have hTasks : (before.stepInput delivery).active ≠ [] := by
          simpa [LoopState.stepInput, hWork.active] using hActive
        cases invocations with
        | nil =>
          have hLength := hRuns.length_eq
          simp only [List.length_zipIdx, List.length_nil] at hLength
          exact absurd (List.length_eq_zero_iff.mp hLength) hTasks
        | cons invocation others =>
          obtain ⟨task, rest, hRun, -, hEntries⟩ := List.forall₂_cons_right_iff.mp hRuns
          refine .inl ⟨invocation.call, _, by rw [stepCalls_of_spawned hSpawn]; rfl, ?_⟩
          exact hRun.step.trans hWork.step

/-! ## Boundary checkpoints -/

def GoesOn (config : RunConfig) (before : LoopState σ) (merged : State) (turn : TurnEnd σ)
    (out : StepOutput σ) : Prop :=
  (turn.next = [] ∧ ∃ env, afterStep config before out = .finished (.ok (.done merged)) env) ∨
    turn.next ≠ [] ∧ ∃ after, afterStep config before out = .continue after ∧
      after.state = merged ∧ after.active = turn.next ∧ after.step = before.step + 1 ∧
      after.env.inbox = turn.env.inbox

theorem closed_of_done {out : StepOutput σ}
    (hOut : executeSuperStep ex graph spec config tasks (before.stepInput delivery) before.env = out)
    (hDone : (history ex graph spec config join rounds (afterStep config before out)).2 =
      some (.ok (.done final))) :
    ∃ invocations merged next endEvent env',
      (startStep ex graph config (before.stepInput delivery) before.env).2.1 = .ok invocations ∧
      spec.applySuperStep before.state
        (Barrier.ofOutputs (outputs (tasks invocations))).orderedWrites = (.ok (), merged) ∧
      route graph merged (Barrier.ofOutputs (outputs (tasks invocations))) = .ok next ∧
      before.env.SameStores env' ∧
      out = closeStep ex graph config before.step merged
        (Barrier.ofOutputs (outputs (tasks invocations))).commands next endEvent env' ∧
      GoesOn config before merged (extendTurn ex.codec graph before.step next endEvent env') out := by
  have hCase := stepCase ex graph spec config tasks (before.stepInput delivery) before.env
  rw [hOut] at hCase
  -- with any other result the run would have ended otherwise
  have hNotError (e : RustyError) : out.result ≠ .error e := by
    intro h
    simp [afterStep, h, history_finished] at hDone
  have hSpend : checkSpend config out.env = none := by
    cases hResult : out.result with
    | error e => exact absurd hResult (hNotError e)
    | ok t =>
      cases hCrossed : checkSpend config out.env with
      | none => rfl
      | some crossed => simp [afterStep, hResult, hCrossed, history_finished] at hDone
  cases hCase with
  | failed => exact absurd rfl (hNotError _)
  | suspended =>
    rcases (discarded_suspend ..).1 with ⟨e, hError⟩ | ⟨value, id, hInterrupted⟩
    · exact absurd hError (hNotError e)
    · simp [afterStep, hInterrupted, hSpend, history_finished] at hDone
  | @closed invocations merged next endEvent env' hSpawn hAll hMerge hRoute hSame =>
    refine ⟨invocations, merged, next, endEvent, env', hSpawn, hMerge, hRoute, hSame, rfl, ?_⟩
    simp only [LoopState.stepInput] at hSpend hNotError ⊢
    cases hResult : StepOutput.result _ with
    | error e => exact absurd hResult (hNotError e)
    | ok t =>
      obtain ⟨routeEvent, rfl⟩ := result_closeStep hResult
      by_cases hEmpty : (extendTurn ex.codec graph before.step next endEvent env').next = []
      · refine .inl ⟨hEmpty, ?_⟩
        simp only [afterStep, hResult, hSpend, transition, hEmpty]
        exact ⟨_, rfl⟩
      · refine .inr ⟨hEmpty, ?_⟩
        simp only [afterStep, hResult, hSpend, transition, List.isEmpty_iff, hEmpty, if_false]
        exact ⟨_, rfl, state_closeStep.1, rfl, rfl, state_closeStep.2⟩

theorem declare_loop (ex : Executor σ) (config : RunConfig) (loop : LoopState σ) :
    (declare ex config loop).active = loop.active ∧ (declare ex config loop).step = loop.step ∧
      (declare ex config loop).state = loop.state ∧
      (declare ex config loop).env.inbox = loop.env.inbox := by
  unfold declare
  split <;> exact ⟨rfl, rfl, rfl, rfl⟩

theorem begin_of_lookup (hResume : config.checkpointId.isSome || config.resume.isSome)
    (hStore : ex.checkpointer = some checkpointer)
    (hLookup : lookupCheckpoint checkpointer config env.stored = .ok checkpoint) (graph : Graph)
    (initial : State) :
    if checkpoint.nextNodes = [] then
      ∃ env', begin ex graph config initial env = .finished (.ok (.done checkpoint.state)) env'
    else ∃ loop, begin ex graph config initial env = .continue loop ∧
      loop.state = checkpoint.state ∧ loop.step = checkpoint.step ∧
      loop.active = (checkpoint.nextNodes.map fun name => ⟨name, none⟩) ∧
      loop.env.inbox = restoredInbox env.inbox checkpoint.header.inbox := by
  unfold begin
  rw [if_pos hResume, hStore]
  dsimp only
  rw [hLookup]
  dsimp only
  split
  · next hEmpty =>
    rw [if_pos (by simp [resumeLoop, hEmpty])]
    exact ⟨_, rfl⟩
  · next hSome =>
    rw [if_neg (by simpa [resumeLoop] using hSome)]
    obtain ⟨hActive, hStep, hState, hInbox⟩ := declare_loop ex config
      (resumeLoop ex config checkpoint env)
    exact ⟨_, rfl, hState, hStep, hActive, hInbox⟩

/-- How a run and the run that resumes its boundary checkpoint stand to each other: both have
ended, or the resumed loop has the same nodes on the same state, without scoped inputs and
one step number behind. -/
structure Resumed (env' : Env σ) (loop after resumed : LoopState σ) : Prop where
  state : resumed.state = after.state
  active : resumed.active = (taskNames after.active).map fun name => ⟨name, none⟩
  work : after.active ≠ []
  step : after.step = resumed.step + 1
  inbox : loop.env.inbox = none → after.env.inbox = none
  inboxResumed : env'.inbox = none → resumed.env.inbox = none

theorem resumed_of_done {config' : RunConfig} {env' : Env σ}
    (hGo : atBoundary ex config loop = .go delivery before)
    (hWritten : (executeSuperStep ex graph spec config tasks (before.stepInput delivery)
      before.env).checkpoint = some checkpoint) (hDone : (history ex graph spec config join rounds
      (iterate ex graph spec config tasks loop)).2 = some (.ok (.done final)))
    (hResume : config'.checkpointId.isSome || config'.resume.isSome)
    (hStore : ex.checkpointer = some checkpointer)
    (hLookup : lookupCheckpoint checkpointer config' env'.stored = .ok checkpoint) (initial : State) :
    (checkpoint.nextNodes = [] ∧ ∃ env₁ env₂,
      iterate ex graph spec config tasks loop = .finished (.ok (.done checkpoint.state)) env₁ ∧
      begin ex graph config' initial env' = .finished (.ok (.done checkpoint.state)) env₂) ∨
    (checkpoint.nextNodes ≠ [] ∧ ∃ after resumed,
      iterate ex graph spec config tasks loop = .continue after ∧
      begin ex graph config' initial env' = .continue resumed ∧
      Resumed env' before after resumed) := by
  have hRound : iterate ex graph spec config tasks loop = afterStep config before
      (executeSuperStep ex graph spec config tasks (before.stepInput delivery) before.env) := by
    simp only [iterate, hGo]
  rw [hRound] at hDone ⊢
  obtain ⟨invocations, merged, next, endEvent, env, -, -, -, hStores, hClose, hOn⟩ :=
    closed_of_done rfl hDone
  obtain ⟨hNodes, hStep, hState⟩ : checkpoint.nextNodes = taskNames (extendTurn ex.codec graph
      before.step next endEvent env).next ∧ checkpoint.step = before.step ∧
      checkpoint.state = merged := by
    rw [hClose, checkpoint_closeStep hStore] at hWritten
    cases hWritten
    exact ⟨rfl, rfl, rfl⟩
  have hBegin := begin_of_lookup hResume hStore hLookup graph initial
  rcases hOn with ⟨hEmpty, env₁, hEnd⟩ |
    ⟨hSome, after, hNext, hAfter, hActive, hNumber, hInbox⟩
  · have hNone : checkpoint.nextNodes = [] := by rw [hNodes, hEmpty]; rfl
    rw [if_pos hNone] at hBegin
    obtain ⟨env₂, hBegin⟩ := hBegin
    exact .inl ⟨hNone, env₁, env₂, hState ▸ hEnd, hBegin⟩
  · have hNotNone : checkpoint.nextNodes ≠ [] := by
      rw [hNodes]
      exact fun h => hSome (List.map_eq_nil_iff.mp h)
    rw [if_neg hNotNone] at hBegin
    obtain ⟨resumed, hBegin, hState', hStep', hActive', hInbox'⟩ := hBegin
    refine .inr ⟨hNotNone, after, resumed, hNext, hBegin, ?_, ?_, ?_, ?_, ?_, ?_⟩
    · rw [hState', hState, hAfter]
    · rw [hActive', hNodes, hActive]
    · rwa [hActive]
    · omega
    · intro hNone
      rw [hInbox, extendTurn_of_no_inbox _ _ _ _ _ (hStores.inbox.trans hNone)]
      exact hStores.inbox.trans hNone
    · intro hNone
      rw [hInbox', hNone]
      unfold restoredInbox
      split <;> rfl

end History

/-! ## Resumed histories -/

/-- `plan` sends one item to `work`, which writes the item it is given. -/
def sendGraph : Graph :=
  (((({ : GraphBuilder }.addNode "plan" ⟨.pure, fun _ => .ok {}⟩).addNode "work"
      ⟨.pure, fun context => .ok { updates :=
        ⟨[("seen", (context.state.get "item").getD .null)], by simp⟩ }⟩).addConditionalEdges "plan"
      fun _ => .ok (.send [⟨"work", .obj [("item", .str "x")]⟩])).setEntryPoint "plan").freeze
    "plan" (by decide +kernel)

def sendSpec : StateSpec := StateSpec.new.channel "seen" .overwrite

def sendJoin : Nat → List Invocation → List Joined := fun _ => sendGraph.runTasks fun _ => 1

def sendStart : LoopState InMemoryCheckpointer where
  state := .new
  active := [⟨"plan", none⟩]
  env := sampleEnv writerCodec

/-- The loop after the first round of the run. -/
def sendSecond : LoopState InMemoryCheckpointer :=
  match iterate sampleExecutor sendGraph sendSpec { threadId := "t" } (sendJoin 0) sendStart with
  | .continue loop => loop
  | .finished _ _ => sendStart

/-- A new process with the store that the run left behind. -/
def sendResumed : Env InMemoryCheckpointer :=
  let env := sampleEnv writerCodec
  { env with
    stored := ((sampleExecutor.run sendGraph sendSpec { threadId := "t" } sendJoin .new env).map
      fun ended => ended.2.stored).getD .new
    recorder := { env.recorder with rng := fun n => s!"d{n}" } }

theorem atBoundary_of_clear {ex : Executor σ} {config : RunConfig} {loop : LoopState σ}
    (hInbox : loop.env.inbox = none) (hBelow : loop.stepsRun < config.maxSteps)
    (hSpend : checkSpend config loop.env = none) (hToken : config.cancelled loop.stepsRun = false) :
    atBoundary ex config loop = .go [] loop := by
  have hCeiling : ceiling config loop = none := by
    simp [ceiling, Nat.not_le.mpr hBelow, hSpend]
  simp [atBoundary, boundaryInbox, hCeiling, hInbox, hToken]

/-- **Resuming a boundary checkpoint.** In a run that ends with its work done, a round has
written a boundary checkpoint. The run that resumes it makes the same invocations at the same
step numbers as the rest of that run, and ends in the same state, exactly if the checkpoint
leaves nothing to run. -/
theorem resume_exact_iff {ex : Executor σ} {graph : Graph} {spec : StateSpec}
    {config : RunConfig} {join : Nat → List Invocation → List Joined} {loop before : LoopState σ} {delivery : List InboxMessage}
    {checkpoint : Checkpoint} {final : State} {config' : RunConfig}
    {checkpointer : Checkpointer σ} {env' : Env σ} {initial : State}
    (hGo : atBoundary ex config loop = .go delivery before)
    (hWritten : (executeSuperStep ex graph spec config (join loop.stepsRun)
      (before.stepInput delivery) before.env).checkpoint = some checkpoint)
    (hDone : (runHistory ex graph spec config join
      (iterate ex graph spec config (join loop.stepsRun) loop)).2 = some (.ok (.done final)))
    (hResume : config'.checkpointId.isSome || config'.resume.isSome)
    (hStore : ex.checkpointer = some checkpointer)
    (hLookup : lookupCheckpoint checkpointer config' env'.stored = .ok checkpoint) :
    runHistory ex graph spec config' join (begin ex graph config' initial env') =
        runHistory ex graph spec config join
          (iterate ex graph spec config (join loop.stepsRun) loop) ↔
      checkpoint.nextNodes = [] := by
  unfold runHistory at hDone ⊢
  rcases resumed_of_done hGo hWritten hDone hResume hStore hLookup initial with
    ⟨hNone, env₁, env₂, hEnd, hBegin⟩ | ⟨hSome, after, resumed, hNext, hBegin, hResumed⟩
  · rw [hBegin, hEnd, history_finished, history_finished]
    exact ⟨fun _ => hNone, fun _ => rfl⟩
  · refine ⟨fun hSame => ?_, fun hEmpty => absurd hEmpty hSome⟩
    rw [hBegin, hNext] at hSame
    rw [hNext] at hDone
    have hWork : resumed.active ≠ [] := by
      rw [hResumed.active]
      simpa [taskNames] using hResumed.work
    have hStep := hResumed.step
    -- the run goes on at the next step number, the resume at the number of the checkpoint
    rcases history_head ex graph spec config join _ hResumed.work with
      ⟨call, rest, hCalls, hAt⟩ | ⟨-, hNot⟩
    · rcases history_head ex graph spec config' join _ hWork with
        ⟨call', rest', hCalls', hAt'⟩ | ⟨hNone, -⟩
      · have hHead : call'.step = call.step := by
          rw [hSame, hCalls] at hCalls'
          exact congrArg Call.step (List.cons.inj hCalls').1.symm
        omega
      · rw [hSame, hCalls] at hNone
        cases hNone
    · exact absurd hDone (hNot final)

/-- The last boundary of the fan-out run. -/
theorem resume_exact_iff_send :
    runHistory sampleExecutor sendGraph sendSpec { threadId := "t", checkpointId := some "c1" }
        sendJoin (begin sampleExecutor sendGraph { threadId := "t", checkpointId := some "c1" }
          .new sendResumed) =
      runHistory sampleExecutor sendGraph sendSpec { threadId := "t" } sendJoin
        (iterate sampleExecutor sendGraph sendSpec { threadId := "t" }
          (sendJoin sendSecond.stepsRun) sendSecond) := by
  have hGo : atBoundary sampleExecutor { threadId := "t" } sendSecond = .go [] sendSecond :=
    atBoundary_of_clear (by decide +kernel) (by decide +kernel) (by decide +kernel) rfl
  have hDone : (runHistory sampleExecutor sendGraph sendSpec { threadId := "t" } sendJoin
      (iterate sampleExecutor sendGraph sendSpec { threadId := "t" } (sendJoin sendSecond.stepsRun)
        sendSecond)).2 = some (.ok (.done (State.new.insert "seen" (.str "x")))) := by
    decide +kernel
  have hStored : (executeSuperStep sampleExecutor sendGraph sendSpec { threadId := "t" }
      (sendJoin sendSecond.stepsRun) (sendSecond.stepInput []) sendSecond.env).checkpoint =
      (lookupCheckpoint memoryCheckpointer { threadId := "t", checkpointId := some "c1" }
        sendResumed.stored).toOption := by
    decide +kernel
  have hNone : (lookupCheckpoint memoryCheckpointer
      { threadId := "t", checkpointId := some "c1" } sendResumed.stored).toOption.map
        Checkpoint.nextNodes = some [] := by
    decide +kernel
  cases hLookup : lookupCheckpoint memoryCheckpointer
      { threadId := "t", checkpointId := some "c1" } sendResumed.stored with
  | error e =>
    rw [hLookup] at hNone
    cases hNone
  | ok checkpoint =>
    rw [hLookup] at hStored hNone
    exact (resume_exact_iff hGo hStored hDone rfl rfl hLookup).mpr (Option.some.inj hNone)

/-- The rest of the run gives `work` its item at step 1; the run that resumes the boundary
checkpoint of step 0 gives it nothing, at step 0, and ends in another state. -/
theorem resume_drops_scope :
    runHistory sampleExecutor sendGraph sendSpec { threadId := "t" } sendJoin
        (iterate sampleExecutor sendGraph sendSpec { threadId := "t" } (sendJoin 0) sendStart) =
      ([⟨1, "work", State.new.insert "item" (.str "x")⟩],
        some (.ok (.done (State.new.insert "seen" (.str "x"))))) ∧
    runHistory sampleExecutor sendGraph sendSpec { threadId := "t", checkpointId := some "c0" }
        sendJoin (begin sampleExecutor sendGraph { threadId := "t", checkpointId := some "c0" }
          .new sendResumed) =
      ([⟨0, "work", .new⟩], some (.ok (.done (State.new.insert "seen" .null)))) := by
  decide +kernel

end RustyRuntime
