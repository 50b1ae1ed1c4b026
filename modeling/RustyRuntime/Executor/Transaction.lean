import RustyRuntime.Executor.Run

/-!
# A super-step is a transaction

The barrier collects outputs only when every task returned one (`joinAll_eq_completed_iff`),
and nothing after it is reached otherwise. A step with a failed or interrupted task, a
refused merge or a failed route ends the run (`faulty_step_invisible`): the outcome, if there
is one, has the state from before the step, and the only checkpoint that may have been
written is the one of an interrupt, with that state and the whole active set.

After a refused route the state behind the `&mut` is the merged one. It is dropped with the
run, which returns the error.
-/

namespace RustyRuntime

variable {σ : Type}

/-! ## The barrier -/

def Joined.output? : Joined → Option (Finished × NodeOutput)
  | .returned task => task.outcome.toOption.map fun output => (task, output)
  | .panicked _ => none

/-- Every task returned an output. -/
def AllOutputs (joined : List Joined) : Prop := ∀ j ∈ joined, j.output?.isSome

instance (joined : List Joined) : Decidable (AllOutputs joined) :=
  inferInstanceAs (Decidable (∀ j ∈ joined, j.output?.isSome))

def outputs (joined : List Joined) : List (Finished × NodeOutput) := joined.filterMap Joined.output?

def Barrier.ofOutputs (outs : List (Finished × NodeOutput)) : Barrier where
  writes := outs.map fun out => (out.1.index, out.1.name, out.2.updates)
  commands := outs.filterMap fun out => out.2.routing
  ranNodes := outs.map fun out => out.1.name
  completed := outs.map fun out => (out.1.index, out.1.name, out.1.latencyMs, out.2.toValue)

theorem Barrier.push_ofOutputs (outs : List (Finished × NodeOutput)) (task : Finished)
    (output : NodeOutput) :
    (ofOutputs outs).push task output = ofOutputs (outs ++ [(task, output)]) := by
  cases hRouting : output.routing <;> simp [ofOutputs, push, hRouting]

variable {joined : List Joined} {b : Barrier} {codec : Codec} {graph : Graph} {config : RunConfig}
  {input : StepInput} {startEvent : String} {index : Nat} {task : ActiveTask} {env env' : Env σ}
  {tasks : List ActiveTask} {invocations : List Invocation} {ex : Executor σ} {spec : StateSpec}

theorem joinAll_of_allOutputs (h : AllOutputs joined) (outs : List (Finished × NodeOutput)) :
    joinAll joined (.ofOutputs outs) = .completed (.ofOutputs (outs ++ outputs joined)) := by
  induction joined generalizing outs with
  | nil => simp [joinAll, outputs]
  | cons j rest ih =>
    obtain ⟨hJ, hRest⟩ := List.forall_mem_cons.mp h
    cases j with
    | panicked text => cases hJ
    | returned task =>
      cases hOutcome : task.outcome with
      | error e => simp [Joined.output?, hOutcome, Except.toOption] at hJ
      | ok output =>
        have hOutput : Joined.output? (.returned task) = some (task, output) := by
          simp [Joined.output?, hOutcome, Except.toOption]
        simp only [joinAll, hOutcome]
        rw [Barrier.push_ofOutputs, ih hRest]
        simp [outputs, hOutput]

theorem joinAll_of_not_allOutputs (h : ¬ AllOutputs joined) (b b' : Barrier) :
    joinAll joined b ≠ .completed b' := by
  induction joined generalizing b with
  | nil => exact absurd (by simp [AllOutputs]) h
  | cons j rest ih =>
    cases j with
    | panicked text => simp [joinAll]
    | returned task =>
      cases hOutcome : task.outcome with
      | ok output =>
        simp only [joinAll, hOutcome]
        refine ih (fun hRest => h (List.forall_mem_cons.mpr ⟨?_, hRest⟩)) _
        simp [Joined.output?, hOutcome, Except.toOption]
      | error e =>
        cases e <;> simp [joinAll, hOutcome]

theorem joinAll_eq_completed_iff :
    joinAll joined {} = .completed b ↔ AllOutputs joined ∧ b = .ofOutputs (outputs joined) := by
  by_cases h : AllOutputs joined
  · have hJoin := joinAll_of_allOutputs h []
    constructor
    · intro hB
      cases hB.symm.trans hJoin
      exact ⟨h, rfl⟩
    · rintro ⟨-, rfl⟩
      exact hJoin
  · exact ⟨fun hB => absurd hB (joinAll_of_not_allOutputs h _ _), fun hB => absurd hB.1 h⟩

/-! ## Spawned tasks -/

def Spawnable (graph : Graph) (snapshot : State) (task : ActiveTask) : Prop :=
  (graph.node task.name).isSome ∧ (scopedState snapshot task).isOk

instance (graph : Graph) (snapshot : State) (task : ActiveTask) :
    Decidable (Spawnable graph snapshot task) :=
  inferInstanceAs (Decidable (_ ∧ _))

structure Runs (input : StepInput) (index : Nat) (task : ActiveTask) (invocation : Invocation) :
    Prop where
  index : invocation.index = index
  name : invocation.name = task.name
  state : scopedState input.state task = .ok invocation.context.state
  step : invocation.context.config.step = input.step

theorem runs_of_spawnOne {invocation : Invocation}
    (h : spawnOne codec graph config input startEvent index task env = (.ok invocation, env')) :
    Spawnable graph input.state task ∧ Runs input index task invocation := by
  unfold spawnOne at h
  split at h
  · cases h
  · next node hNode =>
    split at h
    · cases h
    · next state hState =>
      cases h
      exact ⟨⟨by simp [hNode], by simp [hState, Except.isOk, Except.toBool]⟩,
        ⟨rfl, rfl, hState, rfl⟩⟩

theorem exists_spawnOne (codec : Codec) (config : RunConfig) (startEvent : String) (index : Nat)
    (h : Spawnable graph input.state task) (env : Env σ) :
    ∃ invocation env', spawnOne codec graph config input startEvent index task env =
      (.ok invocation, env') := by
  obtain ⟨node, hNode⟩ := Option.isSome_iff_exists.mp h.1
  cases hState : scopedState input.state task with
  | error e =>
    have hOk := h.2
    simp [hState, Except.isOk, Except.toBool] at hOk
  | ok state =>
    simp only [spawnOne, hNode, hState]
    exact ⟨_, _, rfl⟩

/-- The tasks that run in a step: one for each task of the active set, in its order. -/
theorem runs_of_spawnAll
    (h : spawnAll codec graph config input startEvent index tasks env = (.ok invocations, env')) :
    (∀ task ∈ tasks, Spawnable graph input.state task) ∧
      List.Forall₂ (fun entry invocation => Runs input entry.2 entry.1 invocation)
        (tasks.zipIdx index) invocations := by
  induction tasks generalizing index env invocations with
  | nil =>
    cases h
    exact ⟨by simp, List.Forall₂.nil⟩
  | cons task rest ih =>
    simp only [spawnAll] at h
    rcases hOne : spawnOne codec graph config input startEvent index task env with
      ⟨_ | invocation, envOne⟩
    · rw [hOne] at h
      cases h
    · rw [hOne] at h
      dsimp only at h
      rcases hAll : spawnAll codec graph config input startEvent (index + 1) rest envOne with
        ⟨_ | others, envAll⟩
      · rw [hAll] at h
        cases h
      · rw [hAll] at h
        cases h
        obtain ⟨hSpawnable, hRuns⟩ := runs_of_spawnOne hOne
        obtain ⟨hRest, hOthers⟩ := ih hAll
        exact ⟨List.forall_mem_cons.mpr ⟨hSpawnable, hRest⟩, List.Forall₂.cons hRuns hOthers⟩

variable (codec : Codec)

theorem exists_spawnAll (config : RunConfig) (startEvent : String) (index : Nat)
    (h : ∀ task ∈ tasks, Spawnable graph input.state task) (env : Env σ) :
    ∃ invocations env', spawnAll codec graph config input startEvent index tasks env =
      (.ok invocations, env') := by
  induction tasks generalizing index env with
  | nil => exact ⟨[], env, rfl⟩
  | cons task rest ih =>
    obtain ⟨hTask, hRest⟩ := List.forall_mem_cons.mp h
    obtain ⟨invocation, envOne, hOne⟩ := exists_spawnOne codec config startEvent index hTask env
    obtain ⟨others, envAll, hAll⟩ := ih (index + 1) hRest envOne
    exact ⟨invocation :: others, envAll, by simp only [spawnAll, hOne, hAll]⟩

section

variable (ex : Executor σ) (graph : Graph) (config : RunConfig) (input : StepInput)
  (startEvent : String) (index : Nat) (env : Env σ)

theorem exists_startStep (h : ∀ task ∈ input.active, Spawnable graph input.state task)
    (env : Env σ) : ∃ invocations, (startStep ex graph config input env).2.1 = .ok invocations := by
  obtain ⟨invocations, env', hAll⟩ := exists_spawnAll ex.codec config
    (startStep ex graph config input env).1 0 h
    (env.record ex.codec _).2
  exact ⟨invocations, congrArg Prod.fst hAll⟩

/-! ## Steps that do not commit -/

/-- A task fails or interrupts, the merge is refused, or the route fails. -/
def StepFaults (spec : StateSpec) (state : State) (joined : List Joined) : Prop :=
  let b := Barrier.ofOutputs (outputs joined)
  ¬ AllOutputs joined ∨
    (∃ e after, spec.applySuperStep state b.orderedWrites = (.error e, after)) ∨
    ∃ merged e, spec.applySuperStep state b.orderedWrites = (.ok (), merged) ∧
      route graph merged b = .error e

/-- What a put leaves in the store: nothing new, or one checkpoint with these contents. -/
def StoredAtMost (before after : σ) (contents : Checkpoint → Prop) : Prop :=
  after = before ∨ ∃ checkpointer checkpoint, ex.checkpointer = some checkpointer ∧
    after = (checkpointer.put before checkpoint).2 ∧ contents checkpoint

/-- Recording leaves the store, the inbox and the id source alone. -/
structure Env.SameStores (before after : Env σ) : Prop where
  stored : after.stored = before.stored
  inbox : after.inbox = before.inbox
  rng : after.recorder.rng = before.recorder.rng
  draws : after.recorder.draws = before.recorder.draws

theorem Env.SameStores.refl : env.SameStores env :=
  ⟨rfl, rfl, rfl, rfl⟩

theorem Env.sameStores_record (draft : EventDraft) : env.SameStores (env.record codec draft).2 :=
  ⟨rfl, rfl, rfl, rfl⟩

theorem Env.SameStores.trans {a b c : Env σ} (h : a.SameStores b) (h' : b.SameStores c) :
    a.SameStores c :=
  ⟨h'.stored.trans h.stored, h'.inbox.trans h.inbox, h'.rng.trans h.rng, h'.draws.trans h.draws⟩

theorem sameStores_spawnOne (task : ActiveTask) (env : Env σ) :
    env.SameStores (spawnOne codec graph config input startEvent index task env).2 := by
  unfold spawnOne
  split
  · exact .refl env
  · split <;> exact ⟨rfl, rfl, rfl, rfl⟩

theorem sameStores_spawnAll (tasks : List ActiveTask) (env : Env σ) :
    env.SameStores (spawnAll codec graph config input startEvent index tasks env).2 := by
  induction tasks generalizing index env with
  | nil => exact .refl env
  | cons task rest ih =>
    have hOne := sameStores_spawnOne codec graph config input startEvent index task env
    simp only [spawnAll]
    generalize spawnOne codec graph config input startEvent index task env = one at hOne ⊢
    obtain ⟨_ | invocation, env'⟩ := one
    · exact hOne
    · have hRest := ih (index + 1) env'
      dsimp only
      generalize spawnAll codec graph config input startEvent (index + 1) rest env' = all
        at hRest ⊢
      obtain ⟨_ | invocations, env''⟩ := all
      · exact hOne.trans hRest
      · exact hOne.trans hRest

theorem sameStores_startStep : env.SameStores (startStep ex graph config input env).2.2 :=
  (env.sameStores_record ex.codec _).trans (sameStores_spawnAll ..)

end

theorem sameStores_journalOutputs (invocations : List Invocation)
    (entries : List (Nat × String × UInt64 × Json)) (acc : Option String × Env σ) :
    acc.2.SameStores (entries.foldl (journalOutput codec invocations) acc).2 := by
  induction entries generalizing acc with
  | nil => exact .refl acc.2
  | cons entry rest ih =>
    have hOne : acc.2.SameStores (journalOutput codec invocations acc entry).2 :=
      acc.2.sameStores_record codec _
    exact hOne.trans (ih _)

theorem storedAtMost_of_persist {checkpoint : Checkpoint} {fields : List (String × Json)}
    {parent : Option String} {out : Result Unit × Env σ}
    (h : persist ex checkpoint fields parent env = out) {contents : Checkpoint → Prop}
    (hContents : contents checkpoint) : StoredAtMost ex env.stored out.2.stored contents := by
  subst h
  unfold persist
  cases hStore : ex.checkpointer with
  | none => exact .inl rfl
  | some checkpointer =>
    dsimp only
    refine .inr ⟨checkpointer, checkpoint, hStore, ?_, hContents⟩
    rcases hPut : checkpointer.put env.stored checkpoint with ⟨_ | _, stored⟩ <;> rfl

/-- The contents of an interrupt's checkpoint: the state before the step and its whole active
set, at its step number. -/
def SchedulesAgain (input : StepInput) (checkpoint : Checkpoint) : Prop :=
  checkpoint.state = input.state ∧ checkpoint.nextNodes = taskNames input.active ∧
    checkpoint.step = input.step

def Discarded (ex : Executor σ) (input : StepInput) (before : σ) (out : StepOutput σ) : Prop :=
  ((∃ e, out.result = .error e) ∨
      ∃ value id, out.result = .ok (.finish (.interrupted value input.state id))) ∧
    StoredAtMost ex before out.env.stored (SchedulesAgain input)

theorem discarded_error {before : σ} (e : RustyError) (state : State)
    (hStored : env.stored = before) (checkpoint : Option Checkpoint) :
    Discarded ex input before ⟨.error e, state, env, checkpoint⟩ :=
  ⟨.inl ⟨e, rfl⟩, .inl hStored⟩

theorem discarded_suspend (ex : Executor σ) (config : RunConfig) (input : StepInput)
    (invocations : List Invocation) (task : Finished) (value : Json) (env : Env σ) :
    Discarded ex input env.stored (suspend ex config input invocations task value env) := by
  unfold suspend
  dsimp only
  split
  · next e env' hPersist =>
    exact ⟨.inl ⟨e, rfl⟩, storedAtMost_of_persist hPersist ⟨rfl, rfl, rfl⟩⟩
  · next env' hPersist =>
    exact ⟨.inr ⟨value, _, rfl⟩, storedAtMost_of_persist hPersist ⟨rfl, rfl, rfl⟩⟩

theorem discarded_commit
    (h : (∃ e after, spec.applySuperStep input.state b.orderedWrites = (.error e, after)) ∨
      ∃ merged e, spec.applySuperStep input.state b.orderedWrites = (.ok (), merged) ∧
      route graph merged b = .error e) :
    Discarded ex input env.stored
      (commit ex graph spec config input invocations startEvent b env) := by
  have hOutputs := sameStores_journalOutputs ex.codec invocations b.orderedOutputs (none, env)
  unfold commit
  rcases h with ⟨e, after, hMerge⟩ | ⟨merged, e, hMerge, hRoute⟩
  · simp only [hMerge]
    exact discarded_error e after hOutputs.stored none
  · simp only [hMerge, hRoute]
    exact discarded_error e merged hOutputs.stored none

/-- **A faulty step is discarded.** -/
theorem discarded_of_faults {join : List Invocation → List Joined}
    (hSpawn : (startStep ex graph config input env).2.1 = .ok invocations)
    (hFault : StepFaults graph spec input.state (join invocations)) :
    Discarded ex input env.stored (executeSuperStep ex graph spec config join input env) := by
  have hStart := sameStores_startStep ex graph config input env
  unfold executeSuperStep
  generalize startStep ex graph config input env = started at hSpawn hStart ⊢
  obtain ⟨startEvent, spawned, env'⟩ := started
  subst hSpawn
  rw [← hStart.stored]
  dsimp only
  cases hJoin : joinAll (join invocations) {} with
  | panicked text | failed task e => exact discarded_error _ _ rfl none
  | interrupted task value => exact discarded_suspend ex config input invocations task value env'
  | completed b =>
    obtain ⟨hAll, rfl⟩ := joinAll_eq_completed_iff.mp hJoin
    rcases hFault with hNot | hCommit
    · exact absurd hAll hNot
    · exact discarded_commit hCommit

/-! ## A step with an interrupt -/

def sampleUpdate : NodeOutput := { updates := ⟨[("log", .str "w")], by simp⟩ }

/-- `write` writes a channel, `ask` interrupts. -/
def askGraph : Graph :=
  ((({ : GraphBuilder }.addNode "write" ⟨.pure, fun _ => .ok sampleUpdate⟩).addNode "ask"
      ⟨.pure, fun _ => .error (.interrupt (.str "approve?"))⟩).setEntryPoint "write").freeze
    "write" (by decide +kernel)

def sampleEnv : Env InMemoryCheckpointer where
  recorder :=
    { journal := .new codec "r" "t", clock := fun n => n, rng := fun n => s!"c{n}"
      graphVersion := "unversioned", graphHash := "", policyVersion := {}, manifest := none }
  inbox := none
  stored := .new

def sampleExecutor : Executor InMemoryCheckpointer := ⟨writerCodec, some memoryCheckpointer⟩

def askLoop : LoopState InMemoryCheckpointer where
  state := .new
  active := [⟨"write", none⟩, ⟨"ask", none⟩]
  env := sampleEnv writerCodec

/-- `write` finishes first, and its output is discarded with the step. -/
def askJoined : List Joined :=
  [.returned ⟨0, "write", .ok sampleUpdate, 1⟩,
   .returned ⟨1, "ask", .error (.interrupt (.str "approve?")), 1⟩]

/-- **No write of a faulty step is visible.** The run ends with the step. An outcome has the
state from before the step, and at most one checkpoint is written, which has that state and
schedules the whole active set again. -/
theorem faulty_step_invisible {ex : Executor σ} {graph : Graph} {spec : StateSpec}
    {config : RunConfig} {join : List Invocation → List Joined} {loop : LoopState σ}
    {delivery : List InboxMessage} {invocations : List Invocation}
    (hSpawn : (startStep ex graph config (loop.stepInput delivery) loop.env).2.1 = .ok invocations)
    (hFault : StepFaults graph spec loop.state (join invocations)) :
    ∃ result env, afterStep config loop (executeSuperStep ex graph spec config join
        (loop.stepInput delivery) loop.env) = .finished result env ∧
      (∀ outcome, result = .ok outcome → outcome.state = loop.state) ∧
      StoredAtMost ex loop.env.stored env.stored fun checkpoint =>
        checkpoint.state = loop.state ∧ checkpoint.nextNodes = taskNames loop.active ∧
          checkpoint.step = loop.step := by
  obtain ⟨hResult, hStored⟩ := discarded_of_faults hSpawn hFault
  generalize executeSuperStep ex graph spec config join (loop.stepInput delivery) loop.env = out
    at hResult hStored ⊢
  rcases hResult with ⟨e, hError⟩ | ⟨value, id, hInterrupted⟩
  · refine ⟨.error e, out.env, by simp [afterStep, hError], ?_, hStored⟩
    rintro outcome ⟨⟩
  · cases hSpend : checkSpend config out.env with
    | some crossed =>
      refine ⟨.error (.budget crossed), out.env, by simp [afterStep, hInterrupted, hSpend], ?_,
        hStored⟩
      rintro outcome ⟨⟩
    | none =>
      refine ⟨.ok (.interrupted value loop.state id), out.env, ?_, ?_, hStored⟩
      · simp only [afterStep, hInterrupted, hSpend]
        rfl
      · rintro outcome ⟨⟩
        rfl

theorem faulty_step_invisible_ask :
    ∃ result env, afterStep { threadId := "t" } askLoop (executeSuperStep sampleExecutor askGraph
        (StateSpec.new.channel "log" .overwrite) { threadId := "t" } (fun _ => askJoined)
        (askLoop.stepInput []) askLoop.env) = .finished result env ∧
      (∀ outcome, result = .ok outcome → outcome.state = .new) ∧
      StoredAtMost sampleExecutor .new env.stored fun checkpoint =>
        checkpoint.state = .new ∧ checkpoint.nextNodes = ["write", "ask"] ∧
          checkpoint.step = 0 := by
  obtain ⟨invocations, hSpawn⟩ := exists_startStep sampleExecutor askGraph { threadId := "t" }
    (askLoop.stepInput []) (by decide) askLoop.env
  exact faulty_step_invisible hSpawn (.inl (by decide))

end RustyRuntime
