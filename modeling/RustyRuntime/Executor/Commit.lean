import RustyRuntime.Executor.Transaction

/-!
# What a super-step can do

`stepCase` says it once for all later results. A step fails and leaves the
store, the inbox and the id source as they were; or a task interrupts, and the step writes
the checkpoint of the interrupt; or all tasks return outputs that merge and route, and the
step closes with its boundary checkpoint. The lemmas on `closeStep` and `suspend` say what
is in those checkpoints.
-/

namespace RustyRuntime

variable {σ : Type}

/-! ## The commit path -/

def mergeEnd (codec : Codec) (invocations : List Invocation) (startEvent : String)
    (merged : State) (b : Barrier) (env : Env σ) : String × Env σ :=
  let (lastOutput, env) := b.orderedOutputs.foldl (journalOutput codec invocations) (none, env)
  env.record codec
    { kind := .superStepEnd, effect := .pure
      output := some (mergedUpdates b.orderedWrites merged)
      parent := some (lastOutput.getD startEvent) }

theorem sameStores_mergeEnd (codec : Codec) (invocations : List Invocation)
    (startEvent : String) (merged : State) (b : Barrier) (env : Env σ) :
    env.SameStores (mergeEnd codec invocations startEvent merged b env).2 :=
  (sameStores_journalOutputs codec invocations b.orderedOutputs (none, env)).trans
    (Env.sameStores_record codec _ _)

section Commit

variable {ex : Executor σ} {graph : Graph} {spec : StateSpec} {config : RunConfig}
  {input : StepInput} {invocations : List Invocation} {startEvent : String} {b : Barrier}
  {env : Env σ}

theorem commit_of_refused {e : RustyError} {after : State}
    (hMerge : spec.applySuperStep input.state b.orderedWrites = (.error e, after)) :
    commit ex graph spec config input invocations startEvent b env = ⟨.error e, after,
      (b.orderedOutputs.foldl (journalOutput ex.codec invocations) (none, env)).2, none⟩ := by
  simp only [commit, hMerge]

theorem commit_of_merged {merged : State}
    (hMerge : spec.applySuperStep input.state b.orderedWrites = (.ok (), merged)) :
    commit ex graph spec config input invocations startEvent b env =
      let (endEvent, env) := mergeEnd ex.codec invocations startEvent merged b env
      match route graph merged b with
      | .error e => ⟨.error e, merged, env, none⟩
      | .ok next => closeStep ex graph config input.step merged b.commands next endEvent env := by
  simp only [commit, hMerge]
  rfl

end Commit

/-! ## Checkpoints that a run writes -/

section Persist

variable {ex : Executor σ} {checkpointer : Checkpointer σ}

theorem persist_spec (hStore : ex.checkpointer = some checkpointer) {checkpoint : Checkpoint}
    {fields : List (String × Json)} {parent : Option String} {env : Env σ}
    {out : Result Unit × Env σ} (h : persist ex checkpoint fields parent env = out) :
    (checkpointer.put env.stored checkpoint).1 = out.1 ∧
      out.2.stored = (checkpointer.put env.stored checkpoint).2 ∧ out.2.inbox = env.inbox := by
  subst h
  unfold persist
  rw [hStore]
  dsimp only
  rcases checkpointer.put env.stored checkpoint with ⟨e | ⟨⟩, stored⟩ <;> exact ⟨rfl, rfl, rfl⟩

def decided (codec : Codec) (turn : TurnEnd σ) (commands : List Command) : String × Env σ :=
  turn.env.record codec
    { kind := .routingDecision, effect := .pure
      output := some (routingValue turn.next commands), parent := some turn.routeParent }

def boundaryCheckpoint (codec : Codec) (config : RunConfig) (step : Nat) (merged : State)
    (turn : TurnEnd σ) (commands : List Command) : Checkpoint :=
  ((decided codec turn commands).2.recorder.mintCheckpoint config.threadId step merged
    (taskNames turn.next) (inboxStamp turn.env.inbox turn.extension)).1

theorem closeStep_eq (hStore : ex.checkpointer = some checkpointer) (graph : Graph)
    (config : RunConfig) (step : Nat) (merged : State) (commands : List Command)
    (next : List ActiveTask) (endEvent : String) (env : Env σ) :
    let turn := extendTurn ex.codec graph step next endEvent env
    let checkpoint := boundaryCheckpoint ex.codec config step merged turn commands
    let put := checkpointer.put turn.env.stored checkpoint
    ∃ env', closeStep ex graph config step merged commands next endEvent env =
        ⟨put.1.map fun _ => transition turn.next merged (decided ex.codec turn commands).1
          turn.extension, merged, env', some checkpoint⟩ ∧
      env'.stored = put.2 ∧ env'.inbox = turn.env.inbox := by
  intro turn checkpoint put
  unfold closeStep
  dsimp only
  rw [hStore, if_neg (by simp)]
  split <;>
  · next env' hPersist =>
    obtain ⟨hPut, hStored, hInbox⟩ := persist_spec hStore hPersist
    have hResult : put.1 = _ := hPut
    exact ⟨env', by rw [hResult]; rfl, hStored, hInbox⟩

theorem closeStep_eq_of_none (hStore : ex.checkpointer = none) (graph : Graph)
    (config : RunConfig) (step : Nat) (merged : State) (commands : List Command)
    (next : List ActiveTask) (endEvent : String) (env : Env σ) :
    let turn := extendTurn ex.codec graph step next endEvent env
    closeStep ex graph config step merged commands next endEvent env =
      ⟨.ok (transition turn.next merged (decided ex.codec turn commands).1 turn.extension), merged,
        (decided ex.codec turn commands).2, none⟩ := by
  unfold closeStep
  rw [hStore]
  rfl

def suspensionCheckpoint (codec : Codec) (config : RunConfig) (input : StepInput)
    (invocations : List Invocation) (task : Finished) (value : Json) (env : Env σ) : Checkpoint :=
  let (_, env) := env.record codec
    { kind := .interrupt, effect := effectAt invocations task.index, nodeId := some task.name
      input := some value, status := .interrupted
      parent := inputEventAt invocations task.index }
  (env.recorder.mintCheckpoint config.threadId input.step input.state (taskNames input.active)
    (inboxStamp env.inbox input.delivery)).1

theorem suspend_eq (hStore : ex.checkpointer = some checkpointer) (config : RunConfig)
    (input : StepInput) (invocations : List Invocation) (task : Finished) (value : Json)
    (env : Env σ) :
    let checkpoint := suspensionCheckpoint ex.codec config input invocations task value env
    let put := checkpointer.put env.stored checkpoint
    ∃ env', suspend ex config input invocations task value env =
        ⟨put.1.map fun _ => .finish (.interrupted value input.state checkpoint.id), input.state,
          env', some checkpoint⟩ ∧
      env'.stored = put.2 ∧ env'.inbox = env.inbox := by
  intro checkpoint put
  unfold suspend
  dsimp only
  rw [hStore]
  split <;>
  · next env' hPersist =>
    obtain ⟨hPut, hStored, hInbox⟩ := persist_spec hStore hPersist
    have hResult : put.1 = _ := hPut
    exact ⟨env', by rw [hResult]; rfl, hStored, hInbox⟩

end Persist

section Close

variable {ex : Executor σ} {graph : Graph} {config : RunConfig} {step : Nat} {merged : State}
  {commands : List Command} {next : List ActiveTask} {endEvent : String} {env : Env σ}

theorem checkpoint_closeStep {checkpointer : Checkpointer σ}
    (hStore : ex.checkpointer = some checkpointer) :
    (closeStep ex graph config step merged commands next endEvent env).checkpoint =
      some (boundaryCheckpoint ex.codec config step merged
        (extendTurn ex.codec graph step next endEvent env) commands) := by
  obtain ⟨env', hClose, -⟩ := closeStep_eq hStore graph config step merged commands next endEvent env
  rw [hClose]

theorem state_closeStep :
    (closeStep ex graph config step merged commands next endEvent env).state = merged ∧
      (closeStep ex graph config step merged commands next endEvent env).env.inbox =
        (extendTurn ex.codec graph step next endEvent env).env.inbox := by
  cases hStore : ex.checkpointer with
  | none =>
    rw [closeStep_eq_of_none hStore]
    exact ⟨rfl, rfl⟩
  | some checkpointer =>
    obtain ⟨env', hClose, -, hInbox⟩ :=
      closeStep_eq hStore graph config step merged commands next endEvent env
    rw [hClose]
    exact ⟨rfl, hInbox⟩

theorem result_closeStep {t : StepTransition}
    (h : (closeStep ex graph config step merged commands next endEvent env).result = .ok t) :
    ∃ routeEvent, t = transition (extendTurn ex.codec graph step next endEvent env).next merged
      routeEvent (extendTurn ex.codec graph step next endEvent env).extension := by
  cases hStore : ex.checkpointer with
  | none =>
    rw [closeStep_eq_of_none hStore] at h
    cases h
    exact ⟨_, rfl⟩
  | some checkpointer =>
    obtain ⟨env', hClose, -⟩ :=
      closeStep_eq hStore graph config step merged commands next endEvent env
    rw [hClose] at h
    generalize (checkpointer.put _ _).1 = put at h
    cases put with
    | error e => cases h
    | ok =>
      cases h
      exact ⟨_, rfl⟩

theorem tasks_transition (next : List ActiveTask) (merged : State) (routeEvent : String)
    (extension : List InboxMessage) :
    (transition next merged routeEvent extension).tasks = next := by
  cases next <;> rfl

theorem extendTurn_of_ne_nil (codec : Codec) (graph : Graph) (step : Nat) (h : next ≠ [])
    (endEvent : String) (env : Env σ) :
    extendTurn codec graph step next endEvent env = ⟨next, [], endEvent, env⟩ := by
  cases next with
  | nil => exact absurd rfl h
  | cons task rest => rfl

theorem extendTurn_of_no_inbox (codec : Codec) (graph : Graph) (step : Nat)
    (next : List ActiveTask) (endEvent : String) (hInbox : env.inbox = none) :
    extendTurn codec graph step next endEvent env = ⟨next, [], endEvent, env⟩ := by
  unfold extendTurn
  rw [hInbox]
  cases next <;> rfl

end Close

/-! ## The cases of a step -/

section Cases

variable (ex : Executor σ) (graph : Graph) (spec : StateSpec) (config : RunConfig)
  (join : List Invocation → List Joined) (input : StepInput) (env : Env σ)

/-- Every task is spawned, and then one interrupts or all return outputs that merge and
route. -/
def StepSound : Prop :=
  ∃ invocations, (startStep ex graph config input env).2.1 = .ok invocations ∧
    ((∃ task value, joinAll (join invocations) {} = .interrupted task value) ∨
      ¬ StepFaults graph spec input.state (join invocations))

inductive StepCase : StepOutput σ → Prop
  | failed {e : RustyError} {state : State} {env' : Env σ} (hSame : env.SameStores env')
      (hFault : ¬ StepSound ex graph spec config join input env) :
      StepCase ⟨.error e, state, env', none⟩
  | suspended {invocations : List Invocation} {task : Finished} {value : Json} {env' : Env σ}
      (hSpawn : (startStep ex graph config input env).2.1 = .ok invocations)
      (hJoin : joinAll (join invocations) {} = .interrupted task value)
      (hSame : env.SameStores env') :
      StepCase (suspend ex config input invocations task value env')
  | closed {invocations : List Invocation} {merged : State} {next : List ActiveTask}
      {endEvent : String} {env' : Env σ}
      (hSpawn : (startStep ex graph config input env).2.1 = .ok invocations)
      (hAll : AllOutputs (join invocations))
      (hMerge : spec.applySuperStep input.state
        (Barrier.ofOutputs (outputs (join invocations))).orderedWrites = (.ok (), merged))
      (hRoute : route graph merged (Barrier.ofOutputs (outputs (join invocations))) = .ok next)
      (hSame : env.SameStores env') :
      StepCase (closeStep ex graph config input.step merged
        (Barrier.ofOutputs (outputs (join invocations))).commands next endEvent env')

/-- **The cases of a super-step.** -/
theorem stepCase :
    StepCase ex graph spec config join input env
      (executeSuperStep ex graph spec config join input env) := by
  have hStart := sameStores_startStep ex graph config input env
  -- a step is sound only if its spawn loop succeeded, with these invocations
  have hSound {invocations : List Invocation}
      (hSpawn : (startStep ex graph config input env).2.1 = .ok invocations)
      (h : StepSound ex graph spec config join input env) :
      (∃ task value, joinAll (join invocations) {} = .interrupted task value) ∨
        ¬ StepFaults graph spec input.state (join invocations) := by
    obtain ⟨invocations', hSpawn', hRest⟩ := h
    cases hSpawn.symm.trans hSpawn'
    exact hRest
  unfold executeSuperStep
  cases hSpawn : (startStep ex graph config input env).2.1 with
  | error e =>
    simp only [hSpawn]
    refine .failed hStart ?_
    rintro ⟨invocations, hSpawn', -⟩
    cases hSpawn.symm.trans hSpawn'
  | ok invocations =>
    simp only [hSpawn]
    -- a join that neither interrupts nor completes is a fault
    have hBroken (h : StepSound ex graph spec config join input env) :
        (∃ task value, joinAll (join invocations) {} = .interrupted task value) ∨
          ∃ b, joinAll (join invocations) {} = .completed b :=
      (hSound hSpawn h).imp id fun hClean =>
        ⟨_, joinAll_eq_completed_iff.mpr ⟨by_contra fun hNot => hClean (.inl hNot), rfl⟩⟩
    cases hJoin : joinAll (join invocations) {} with
    | panicked text =>
      refine .failed hStart fun h => ?_
      simp [hJoin] at hBroken
      exact hBroken h
    | failed task e =>
      refine .failed (hStart.trans (Env.sameStores_record ex.codec _ _)) fun h => ?_
      simp [hJoin] at hBroken
      exact hBroken h
    | interrupted task value => exact .suspended hSpawn hJoin hStart
    | completed b =>
      obtain ⟨hAll, rfl⟩ := joinAll_eq_completed_iff.mp hJoin
      have hNot (h : StepSound ex graph spec config join input env) :
          ¬ StepFaults graph spec input.state (join invocations) := by
        rcases hSound hSpawn h with ⟨task, value, hInterrupt⟩ | hClean
        · cases hJoin.symm.trans hInterrupt
        · exact hClean
      dsimp only
      rcases hMerge : spec.applySuperStep input.state
          (Barrier.ofOutputs (outputs (join invocations))).orderedWrites with ⟨e | ⟨⟩, merged⟩
      · rw [commit_of_refused hMerge]
        have hOutputs := sameStores_journalOutputs ex.codec invocations
          (Barrier.ofOutputs (outputs (join invocations))).orderedOutputs
          (none, (startStep ex graph config input env).2.2)
        exact .failed (hStart.trans hOutputs) fun h => hNot h (.inr (.inl ⟨e, merged, hMerge⟩))
      · have hEnd := sameStores_mergeEnd ex.codec invocations
          (startStep ex graph config input env).1 merged
          (Barrier.ofOutputs (outputs (join invocations)))
          (startStep ex graph config input env).2.2
        rw [commit_of_merged hMerge]
        cases hRoute : route graph merged (Barrier.ofOutputs (outputs (join invocations))) with
        | error e =>
          exact .failed (hStart.trans hEnd)
            fun h => hNot h (.inr (.inr ⟨merged, e, hMerge, hRoute⟩))
        | ok next => exact .closed hSpawn hAll hMerge hRoute (hStart.trans hEnd)

end Cases

end RustyRuntime
