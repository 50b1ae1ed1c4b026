import RustyRuntime.Library.FirstSeen
import RustyRuntime.Executor.Commit

/-!
# Steps in any finish order

The barrier collects writes, outputs, commands and node names as the tasks finish. Writes and
outputs are sorted by the index of their invocation before they are used, so the merged state
and the journaled outputs do not depend on the finish order (`Barrier.orderedWrites_eq`).
Commands and node names are used as they came. The route phase walks over them and keeps the
first occurrence of each plain target (`toOption_route`), so the next active set, and with it
the boundary checkpoint, is the same in every finish order only where the targets of the
nodes that ran may be interchanged (`orderIndependent_iff`).
-/

namespace RustyRuntime

open Library (firstSeen Interchange)

variable {σ : Type}

/-! ## What the route phase plans -/

/-- The name under which a repeated target is dropped. A `Send` is always its own task. -/
def ActiveTask.planKey (task : ActiveTask) : Option String :=
  match task.scopedInput with
  | none => some task.name
  | some _ => none

theorem Plan.next_foldl_add (tasks : List ActiveTask) (plan : Plan) :
    (tasks.foldl Plan.add plan).next =
      plan.next ++ firstSeen ActiveTask.planKey plan.planned tasks := by
  induction tasks generalizing plan with
  | nil => simp [firstSeen]
  | cons task rest ih =>
    rw [List.foldl_cons, ih]
    cases hScoped : task.scopedInput with
    | some state => simp [Plan.add, firstSeen, ActiveTask.planKey, hScoped]
    | none =>
      by_cases hPlanned : task.name ∈ plan.planned
      · simp [Plan.add, firstSeen, ActiveTask.planKey, hScoped, hPlanned]
      · simp [Plan.add, firstSeen, ActiveTask.planKey, hScoped, hPlanned]

def planned (tasks : List ActiveTask) : List ActiveTask := (tasks.foldl Plan.add {}).next

theorem planned_eq (tasks : List ActiveTask) :
    planned tasks = firstSeen ActiveTask.planKey [] tasks := by
  rw [planned, Plan.next_foldl_add, List.nil_append]

def Command.tasks (command : Command) : List ActiveTask :=
  command.goto.map fun target => ⟨target, none⟩

def Edge.tasks (merged : State) : Edge → List ActiveTask
  | .direct _ target => [⟨target, none⟩]
  | .conditional _ router =>
    match router merged with
    | .ok (.node target) => [⟨target, none⟩]
    | .ok (.send sends) => sends.map fun send => ⟨send.node, some send.state⟩
    | _ => []

section

variable (graph : Graph) (merged : State)

/-- The router of an edge, if it has one, answers with known nodes. -/
def Edge.routes : Edge → Bool
  | .direct _ _ => true
  | .conditional _ router =>
    match router merged with
    | .ok (.node target) => graph.hasNode target
    | .ok (.send sends) => sends.all fun send => graph.hasNode send.node
    | .ok .finish => true
    | .error _ => false

/-- The targets of a node that ran. -/
def targets (name : String) : List ActiveTask :=
  (graph.outgoingEdges name).flatMap (Edge.tasks merged)

def Barrier.tasks (b : Barrier) : List (List ActiveTask) :=
  if b.commands.isEmpty then b.ranNodes.eraseDups.map (targets graph merged)
  else b.commands.map Command.tasks

/-- Every target that the route phase meets is known. -/
def Routable (b : Barrier) : Prop :=
  if b.commands.isEmpty then
    ∀ name ∈ b.ranNodes.eraseDups, ∀ edge ∈ graph.outgoingEdges name, edge.routes graph merged
  else ∀ command ∈ b.commands, ∀ target ∈ command.goto, graph.hasNode target

instance (graph : Graph) (merged : State) (b : Barrier) : Decidable (Routable graph merged b) := by
  unfold Routable
  infer_instance

theorem toOption_planEdge (name : String) (plan : Plan) (edge : Edge) :
    (planEdge graph merged name plan edge).toOption =
      if edge.routes graph merged then some ((edge.tasks merged).foldl Plan.add plan)
      else none := by
  cases edge with
  | direct source target => rfl
  | conditional source router =>
    obtain ⟨answer, hRouter⟩ : ∃ answer, router merged = answer := ⟨_, rfl⟩
    simp only [planEdge, Edge.routes, Edge.tasks, hRouter]
    rcases answer with e | (target | sends | _)
    · rfl
    · by_cases hKnown : graph.hasNode target <;> simp [hKnown, Except.toOption]
    · have hSend (plan : Plan) (send : Send) : (planSend graph name plan send).toOption =
          if graph.hasNode send.node then some (plan.add ⟨send.node, some send.state⟩)
          else none := by
        unfold planSend
        split <;> rfl
      simp only [Result.toOption_foldlM hSend, List.all_eq_true, List.foldl_map]
    · rfl

/-- **The route phase.** It succeeds when all targets are known, and then keeps the first
occurrence of each plain target. -/
theorem toOption_route (b : Barrier) :
    (route graph merged b).toOption =
      if Routable graph merged b then some (planned (b.tasks graph merged).flatten) else none := by
  have hMap (plan : Result Plan) :
      (plan.map Plan.next).toOption = plan.toOption.map Plan.next := by
    cases plan <;> rfl
  unfold route Routable Barrier.tasks
  rw [hMap]
  by_cases hCommands : b.commands.isEmpty
  · simp only [hCommands, if_true]
    have hNode (plan : Plan) (name : String) :=
      Result.toOption_foldlM (toOption_planEdge graph merged name) (graph.outgoingEdges name) plan
    rw [Result.toOption_foldlM hNode]
    split
    · simp only [Option.map_some, planned, targets, List.foldl_flatten, List.foldl_map,
        List.foldl_flatMap]
    · rfl
  · simp only [hCommands]
    have hGoto (plan : Plan) (target : String) : (planGoto graph plan target).toOption =
        if graph.hasNode target then some (plan.add ⟨target, none⟩) else none := by
      unfold planGoto
      split <;> rfl
    have hCommand (plan : Plan) (command : Command) :=
      Result.toOption_foldlM hGoto command.goto plan
    rw [if_neg (by simp), Result.toOption_foldlM hCommand]
    simp only [Bool.false_eq_true, if_false]
    split
    · simp only [Option.map_some, planned, Command.tasks, List.foldl_flatten, List.foldl_map]
    · rfl

/-! ## Targets in either order -/

/-- Only plain targets, or only `Send`s. -/
def Uniform (tasks : List ActiveTask) : Prop :=
  (∀ task ∈ tasks, task.scopedInput = none) ∨ ∀ task ∈ tasks, task.scopedInput ≠ none

theorem Edge.uniform_tasks (edge : Edge) : Uniform (edge.tasks merged) := by
  cases edge with
  | direct source target => exact .inl (by simp [Edge.tasks])
  | conditional source router =>
    simp only [Edge.tasks]
    split
    · exact .inl (by simp)
    · exact .inr (by simp)
    · exact .inl (by simp)

theorem uniform_targets (name : String) : Uniform (targets graph merged name) := by
  have hSources : ∀ edge ∈ graph.outgoingEdges name, edge ∈ graph.edges ∧ edge.source = name := by
    simp [Graph.outgoingEdges]
  by_cases hRouted : name ∈ graph.edges.filterMap Edge.routed?
  · -- no static edge starts here, and a second router would be a repeated source
    have hRouters : ∀ edge ∈ graph.outgoingEdges name, edge.routed? = some name := by
      intro edge hEdge
      obtain ⟨hMem, hSource⟩ := hSources edge hEdge
      cases edge with
      | direct source target =>
        have hEnds : (source, target) ∈ graph.edges.filterMap Edge.ends? :=
          List.mem_filterMap.mpr ⟨_, hMem, rfl⟩
        have hStart : source = name := hSource
        exact absurd (hStart ▸ hRouted) (graph.unmixed _ hEnds)
      | conditional source router => exact congrArg some hSource
    have hNodup : ((graph.outgoingEdges name).filterMap Edge.routed?).Nodup :=
      graph.nodupRouted.sublist (List.filter_sublist.filterMap _)
    unfold targets
    match hOut : graph.outgoingEdges name with
    | [] => exact .inl (by simp)
    | [edge] => simpa using edge.uniform_tasks merged
    | first :: second :: rest =>
      rw [hOut] at hNodup hRouters
      simp [hRouters first (by simp), hRouters second (by simp)] at hNodup
  · left
    intro task hTask
    obtain ⟨edge, hEdge, hIn⟩ := List.mem_flatMap.mp hTask
    obtain ⟨hMem, hSource⟩ := hSources edge hEdge
    cases edge with
    | direct source target =>
      rw [List.mem_singleton.mp hIn]
    | conditional source router =>
      have hRouter : Edge.routed? (.conditional source router) = some name :=
        congrArg some hSource
      exact absurd (List.mem_filterMap.mpr ⟨_, hMem, hRouter⟩) hRouted

end

/-- Two lists of targets whose order does not show: plain targets where one list begins with
the other, or lists that commute. -/
def Compatible (first second : List ActiveTask) : Prop :=
  (∀ task ∈ first ++ second, task.scopedInput = none) ∧
      (planned first <+: planned second ∨ planned second <+: planned first) ∨
    first ++ second = second ++ first

instance (first second : List ActiveTask) : Decidable (Compatible first second) := by
  unfold Compatible
  infer_instance

variable {task : ActiveTask} {order joined : List Joined} {input : StepInput}
  {invocations : List Invocation} {ex : Executor σ} {graph : Graph} {config : RunConfig}
  {env : Env σ}

theorem isSome_planKey (h : task.scopedInput = none) : task.planKey.isSome := by
  simp [ActiveTask.planKey, h]

theorem planKey_eq_none (h : task.scopedInput ≠ none) : task.planKey = none := by
  obtain ⟨state, hState⟩ := Option.ne_none_iff_exists'.mp h
  simp [ActiveTask.planKey, hState]

theorem interchange_iff_compatible {first second : List ActiveTask} (hFirst : Uniform first)
    (hSecond : Uniform second) :
    Interchange ActiveTask.planKey first second ↔ Compatible first second := by
  constructor
  · intro h
    rcases hFirst with hPlain | hSent <;> rcases hSecond with hPlain' | hSent'
    · have hPrefix := (Library.interchange_iff_of_keyed
        (fun task hTask => isSome_planKey (hPlain task hTask))
        (fun task hTask => isSome_planKey (hPlain' task hTask))).mp h
      simp only [← planned_eq] at hPrefix
      refine .inl ⟨?_, hPrefix⟩
      simpa [or_imp, forall_and] using And.intro hPlain hPlain'
    · rcases h.eq_nil (fun task hTask => isSome_planKey (hPlain task hTask))
        (fun task hTask => planKey_eq_none (hSent' task hTask)) with rfl | rfl <;>
      exact .inr (by simp)
    · rcases h.symm.eq_nil (fun task hTask => isSome_planKey (hPlain' task hTask))
        (fun task hTask => planKey_eq_none (hSent task hTask)) with rfl | rfl <;>
      exact .inr (by simp)
    · exact .inr ((Library.interchange_iff_of_unkeyed
        (fun task hTask => planKey_eq_none (hSent task hTask))
        (fun task hTask => planKey_eq_none (hSent' task hTask))).mp h)
  · rintro (⟨hPlain, hPrefix⟩ | hCommute)
    · have hKeyed : ∀ task ∈ first ++ second, task.planKey.isSome :=
        fun task hTask => isSome_planKey (hPlain task hTask)
      simp only [planned_eq] at hPrefix
      exact (Library.interchange_iff_of_keyed
        (fun task hTask => hKeyed task (List.mem_append_left _ hTask))
        (fun task hTask => hKeyed task (List.mem_append_right _ hTask))).mpr hPrefix
    · exact congrArg _ hCommute

/-! ## The barrier of a finish order -/

/-- What the barrier collects in this finish order. -/
def barrierOf (joined : List Joined) : Barrier := .ofOutputs (outputs joined)

def JoinsAll (invocations : List Invocation) (joined : List Joined) : Prop :=
  AllOutputs joined ∧ ((outputs joined).map fun out => (out.1.index, out.1.name)).Perm
    (invocations.map fun invocation => (invocation.index, invocation.name))

theorem AllOutputs.of_perm (hPerm : order.Perm joined) (h : AllOutputs joined) : AllOutputs order :=
  fun j hJ => h j (hPerm.subset hJ)

theorem outputs_perm (hPerm : order.Perm joined) : (outputs order).Perm (outputs joined) :=
  hPerm.filterMap _

theorem map_index_of_runs {entries : List (ActiveTask × Nat)}
    (h : List.Forall₂ (fun entry invocation => Runs input entry.2 entry.1 invocation) entries
      invocations) :
    invocations.map (fun invocation => (invocation.index, invocation.name)) =
      entries.map fun entry => (entry.2, entry.1.name) := by
  induction h with
  | nil => rfl
  | cons hRun _ ih => rw [List.map_cons, List.map_cons, hRun.index, hRun.name, ih]

theorem map_index_of_startStep (h : (startStep ex graph config input env).2.1 = .ok invocations) :
    invocations.map (fun invocation => (invocation.index, invocation.name)) =
      input.active.zipIdx.map fun entry => (entry.2, entry.1.name) := by
  have hAll : spawnAll ex.codec graph config input _ 0 input.active _ = (.ok invocations, _) :=
    Prod.ext h rfl
  exact map_index_of_runs (runs_of_spawnAll hAll).2

theorem JoinsAll.nodup_index (hSpawn : (startStep ex graph config input env).2.1 = .ok invocations)
    (h : JoinsAll invocations joined) : ((outputs joined).map fun out => out.1.index).Nodup := by
  have hIndices := h.2.map Prod.fst
  rw [map_index_of_startStep hSpawn] at hIndices
  simp only [List.map_map] at hIndices
  refine hIndices.nodup_iff.mpr ?_
  have hRange : input.active.zipIdx.map Prod.snd = _ := List.zipIdx_map_snd 0 input.active
  exact hRange ▸ List.nodup_range'

theorem sortByKey_outputs_eq {α : Type} {outs outs' : List (Finished × NodeOutput)}
    (hNodup : (outs.map fun out => out.1.index).Nodup) (hPerm : outs.Perm outs')
    (key : α → Nat) (entry : Finished × NodeOutput → α)
    (hKey : ∀ out, key (entry out) = out.1.index) :
    Library.sortByKey key (outs.map entry) = Library.sortByKey key (outs'.map entry) := by
  refine Library.sortByKey_eq_of_perm ?_ (hPerm.map entry)
  intro x hX y hY hSame
  obtain ⟨out, hOut, rfl⟩ := List.mem_map.mp hX
  obtain ⟨out', hOut', rfl⟩ := List.mem_map.mp hY
  rw [hKey, hKey] at hSame
  rw [List.inj_on_of_nodup_map hNodup hOut hOut' hSame]

section Order

variable {order joined : List Joined}

theorem Barrier.orderedWrites_eq (hNodup : ((outputs joined).map fun out => out.1.index).Nodup)
    (hPerm : order.Perm joined) :
    (barrierOf order).orderedWrites = (barrierOf joined).orderedWrites := by
  unfold Barrier.orderedWrites barrierOf Barrier.ofOutputs
  rw [sortByKey_outputs_eq hNodup (outputs_perm hPerm.symm) Prod.fst _ fun _ => rfl]

theorem Barrier.orderedOutputs_eq (hNodup : ((outputs joined).map fun out => out.1.index).Nodup)
    (hPerm : order.Perm joined) :
    (barrierOf order).orderedOutputs = (barrierOf joined).orderedOutputs := by
  unfold Barrier.orderedOutputs barrierOf Barrier.ofOutputs
  rw [sortByKey_outputs_eq hNodup (outputs_perm hPerm.symm) Prod.fst _ fun _ => rfl]

section

variable (hPerm : order.Perm joined)
include hPerm

theorem commands_perm : (barrierOf order).commands.Perm (barrierOf joined).commands :=
  (outputs_perm hPerm).filterMap _

theorem isEmpty_commands_eq :
    (barrierOf order).commands.isEmpty = (barrierOf joined).commands.isEmpty := by
  rw [Bool.eq_iff_iff, List.isEmpty_iff_length_eq_zero, List.isEmpty_iff_length_eq_zero,
    (commands_perm hPerm).length_eq]

theorem names_perm :
    (barrierOf order).ranNodes.eraseDups.Perm (barrierOf joined).ranNodes.eraseDups := by
  simp only [Library.eraseDups_eq_firstSeen]
  exact Library.firstSeen_some_perm ((outputs_perm hPerm).map _) []

theorem tasks_perm (graph : Graph) (merged : State) :
    ((barrierOf order).tasks graph merged).Perm ((barrierOf joined).tasks graph merged) := by
  unfold Barrier.tasks
  rw [isEmpty_commands_eq hPerm]
  split
  · exact (names_perm hPerm).map _
  · exact (commands_perm hPerm).map _

theorem routable_iff (graph : Graph) (merged : State) :
    Routable graph merged (barrierOf order) ↔ Routable graph merged (barrierOf joined) := by
  unfold Routable
  rw [isEmpty_commands_eq hPerm]
  split
  · simp only [(names_perm hPerm).mem_iff]
  · simp only [(commands_perm hPerm).mem_iff]

end

theorem exists_order_of_commands {commands : List Command}
    (h : commands.Perm (barrierOf joined).commands) :
    ∃ order : List Joined, order.Perm joined ∧ (barrierOf order).commands = commands := by
  obtain ⟨outs, hOuts, rfl⟩ := Library.exists_perm_filterMap h
  obtain ⟨order, hOrder, rfl⟩ := Library.exists_perm_filterMap hOuts
  exact ⟨order, hOrder, rfl⟩

theorem exists_order_of_names {names : List String}
    (h : names.Perm (barrierOf joined).ranNodes.eraseDups) :
    ∃ order : List Joined, order.Perm joined ∧ (barrierOf order).ranNodes.eraseDups = names := by
  simp only [Library.eraseDups_eq_firstSeen] at h ⊢
  obtain ⟨ran, hRan, rfl⟩ := Library.exists_perm_firstSeen_some h
  obtain ⟨outs, hOuts, rfl⟩ := Library.exists_perm_map hRan
  obtain ⟨order, hOrder, rfl⟩ := Library.exists_perm_filterMap hOuts
  exact ⟨order, hOrder, rfl⟩

end Order

/-! ## What a step shows -/

structure StepView where
  state : State
  next : Option (List ActiveTask)
  outputs : List RunEvent
  checkpoint : Option Checkpoint

def StepOutput.view (out : StepOutput σ) : StepView where
  state := out.state
  next := out.result.toOption.map StepTransition.tasks
  outputs := out.env.recorder.journal.events.filter (·.kind = .nodeOutput)
  checkpoint := out.checkpoint

def StepOutput.Stored (out : StepOutput σ) : Prop := out.checkpoint.isSome → out.result.isOk

section Commit

variable {ex : Executor σ} {graph : Graph} {spec : StateSpec} {config : RunConfig}
  {input : StepInput} {invocations : List Invocation} {startEvent : String} {b b' : Barrier}
  {env : Env σ}

theorem mergeEnd_congr (hWrites : b'.orderedWrites = b.orderedWrites)
    (hOutputs : b'.orderedOutputs = b.orderedOutputs) (merged : State) :
    mergeEnd ex.codec invocations startEvent merged b' env =
      mergeEnd ex.codec invocations startEvent merged b env := by
  unfold mergeEnd
  rw [hWrites, hOutputs]

variable {merged : State}

theorem route_eq_ok_of_routable (h : Routable graph merged b) :
    route graph merged b = .ok (planned (b.tasks graph merged).flatten) := by
  have hRoute := toOption_route graph merged b
  rw [if_pos h] at hRoute
  cases hResult : route graph merged b with
  | error e =>
    rw [hResult] at hRoute
    cases hRoute
  | ok next =>
    rw [hResult] at hRoute
    exact congrArg _ (Option.some.inj hRoute)

theorem route_eq_error_of_not_routable (h : ¬ Routable graph merged b) :
    ∃ e, route graph merged b = .error e := by
  have hRoute := toOption_route graph merged b
  rw [if_neg h] at hRoute
  cases hResult : route graph merged b with
  | error e => exact ⟨e, rfl⟩
  | ok next =>
    rw [hResult] at hRoute
    cases hRoute

theorem closeStep_congr (step : Nat) (merged : State) {commands commands' : List Command}
    (h : commands'.flatMap Command.goto = commands.flatMap Command.goto)
    (next : List ActiveTask) (endEvent : String) :
    closeStep ex graph config step merged commands' next endEvent env =
      closeStep ex graph config step merged commands next endEvent env := by
  unfold closeStep routingValue
  rw [h]

theorem isSome_checkpoint_closeStep (hWriter : ex.checkpointer.isSome) (step : Nat)
    (merged : State) (commands : List Command) (next : List ActiveTask) (endEvent : String) :
    (closeStep ex graph config step merged commands next endEvent env).checkpoint.isSome := by
  obtain ⟨checkpointer, hStore⟩ := Option.isSome_iff_exists.mp hWriter
  rw [checkpoint_closeStep hStore]
  rfl

theorem next_view_closeStep {step : Nat} {commands : List Command} {next : List ActiveTask}
    {endEvent : String}
    (hOk : (closeStep ex graph config step merged commands next endEvent env).result.isOk) :
    (closeStep ex graph config step merged commands next endEvent env).view.next =
      some (extendTurn ex.codec graph step next endEvent env).next := by
  cases hResult : (closeStep ex graph config step merged commands next endEvent env).result with
  | error e =>
    rw [hResult] at hOk
    cases hOk
  | ok transition =>
    obtain ⟨routeEvent, rfl⟩ := result_closeStep hResult
    simp only [StepOutput.view, hResult, Except.toOption, Option.map_some, tasks_transition]

end Commit

/-! ## The same step in every finish order -/

/-- The targets of all commands, as the routing decision journals them. -/
def Barrier.gotos (b : Barrier) : List String := b.commands.flatMap Command.goto

section Order

variable {order joined : List Joined}

theorem gotos_perm_iff :
    (∀ order, order.Perm joined → (barrierOf order).gotos = (barrierOf joined).gotos) ↔
      (barrierOf joined).commands.Pairwise fun c c' => c.goto ++ c'.goto = c'.goto ++ c.goto := by
  -- gotos are never dropped: every element of these lists is without a key
  have hKeep (gotos : List String) : firstSeen (fun _ => (none : Option String)) [] gotos = gotos :=
    Library.firstSeen_of_unkeyed (by simp) []
  have hIff : (∀ lists : List (List String), _ → firstSeen (fun _ => (none : Option String)) [] _ =
      _) ↔ _ := Library.firstSeen_flatten_perm_iff ((barrierOf joined).commands.map Command.goto)
  simp only [hKeep, List.pairwise_map, Interchange] at hIff
  rw [← hIff]
  constructor
  · intro h lists hLists
    obtain ⟨commands, hCommands, rfl⟩ := Library.exists_perm_map hLists.symm
    obtain ⟨order, hOrder, rfl⟩ := exists_order_of_commands hCommands
    exact (h order hOrder).symm
  · intro h order hOrder
    exact (h _ ((commands_perm hOrder).symm.map _)).symm

variable (graph : Graph) (merged : State)

theorem planned_perm_iff (hNone : (barrierOf joined).commands.isEmpty) :
    (∀ order, order.Perm joined → planned ((barrierOf order).tasks graph merged).flatten =
        planned ((barrierOf joined).tasks graph merged).flatten) ↔
      (barrierOf joined).ranNodes.eraseDups.Pairwise fun n m =>
        Compatible (targets graph merged n) (targets graph merged m) := by
  have hTasks {order : List Joined} (hPerm : order.Perm joined) :
      (barrierOf order).tasks graph merged =
        (barrierOf order).ranNodes.eraseDups.map (targets graph merged) := by
    rw [Barrier.tasks, isEmpty_commands_eq hPerm, if_pos hNone]
  have hIff : (∀ lists : List (List ActiveTask), _ → firstSeen ActiveTask.planKey [] _ = _) ↔ _ :=
    Library.firstSeen_flatten_perm_iff
      ((barrierOf joined).ranNodes.eraseDups.map (targets graph merged))
  simp only [← planned_eq, List.pairwise_map, interchange_iff_compatible
    (uniform_targets graph merged _) (uniform_targets graph merged _)] at hIff
  rw [← hIff]
  constructor
  · intro h lists hLists
    obtain ⟨names, hNames, rfl⟩ := Library.exists_perm_map hLists.symm
    obtain ⟨order, hOrder, rfl⟩ := exists_order_of_names hNames
    rw [← hTasks hOrder, ← hTasks (List.Perm.refl joined)]
    exact (h order hOrder).symm
  · intro h order hOrder
    rw [hTasks hOrder, hTasks (List.Perm.refl joined)]
    exact (h _ ((names_perm hOrder).symm.map _)).symm

theorem flatten_tasks_of_commands {b : Barrier} (hSome : b.commands.isEmpty = false) :
    (b.tasks graph merged).flatten = b.gotos.map fun target => ⟨target, none⟩ := by
  rw [Barrier.tasks, if_neg (by simp [hSome]), Barrier.gotos, List.map_flatMap,
    ← List.flatMap_def]
  rfl

theorem planned_eq_nil_of_perm (hPerm : order.Perm joined)
    (h : planned ((barrierOf order).tasks graph merged).flatten = []) :
    planned ((barrierOf joined).tasks graph merged).flatten = [] := by
  rw [planned_eq] at h
  have hEmpty := Library.firstSeen_flatten_eq_nil h
  have hFlat : ((barrierOf joined).tasks graph merged).flatten = [] := by
    rw [List.flatten_eq_nil_iff]
    intro tasks hTasks
    exact hEmpty tasks ((tasks_perm hPerm graph merged).mem_iff.mpr hTasks)
  rw [hFlat]
  rfl

end Order

/-- The condition under which the finish order of a step does not show. A step whose merge or
route is refused shows no routing at all. Otherwise the lists of targets must be
interchangeable: those of the commands, or those of the nodes that ran. -/
def OrderFree (graph : Graph) (spec : StateSpec) (state : State) (b : Barrier) : Prop :=
  match spec.applySuperStep state b.orderedWrites with
  | (.error _, _) => True
  | (.ok (), merged) => Routable graph merged b →
    if b.commands.isEmpty then
      b.ranNodes.eraseDups.Pairwise fun n m =>
        Compatible (targets graph merged n) (targets graph merged m)
    else b.commands.Pairwise fun c c' => c.goto ++ c'.goto = c'.goto ++ c.goto

instance (graph : Graph) (spec : StateSpec) (state : State) (b : Barrier) :
    Decidable (OrderFree graph spec state b) := by
  unfold OrderFree
  split <;> infer_instance

section Step

variable {ex : Executor σ} {graph : Graph} {spec : StateSpec} {config : RunConfig}
  {input : StepInput} {env : Env σ} {invocations : List Invocation} {order joined : List Joined}

variable (ex graph spec config input env) in
def stepIn (order : List Joined) : StepOutput σ :=
  executeSuperStep ex graph spec config (fun _ => order) input env

variable (hSpawn : (startStep ex graph config input env).2.1 = .ok invocations)

include hSpawn

theorem stepIn_eq_commit (hAll : AllOutputs order) :
    stepIn ex graph spec config input env order =
      commit ex graph spec config input invocations (startStep ex graph config input env).1
        (barrierOf order) (startStep ex graph config input env).2.2 := by
  unfold stepIn executeSuperStep
  generalize startStep ex graph config input env = started at hSpawn ⊢
  obtain ⟨startEvent, spawned, env'⟩ := started
  subst hSpawn
  have hJoin : joinAll order {} = .completed (barrierOf order) :=
    joinAll_eq_completed_iff.mpr ⟨hAll, rfl⟩
  simp only [hJoin]

theorem stepIn_eq_closeStep {merged : State} (hJoins : JoinsAll invocations joined)
    (hMerge : spec.applySuperStep input.state (barrierOf joined).orderedWrites = (.ok (), merged))
    (hRoutable : Routable graph merged (barrierOf joined)) :
    ∃ endEvent env', ∀ order, order.Perm joined →
      stepIn ex graph spec config input env order =
        closeStep ex graph config input.step merged (barrierOf order).commands
          (planned ((barrierOf order).tasks graph merged).flatten) endEvent env' := by
  have hNodup := JoinsAll.nodup_index hSpawn hJoins
  generalize hEnd : mergeEnd ex.codec invocations (startStep ex graph config input env).1 merged
    (barrierOf joined) (startStep ex graph config input env).2.2 = ended
  refine ⟨ended.1, ended.2, fun order hPerm => ?_⟩
  have hWrites := Barrier.orderedWrites_eq hNodup hPerm
  rw [stepIn_eq_commit hSpawn (hJoins.1.of_perm hPerm), commit_of_merged (hWrites ▸ hMerge),
    mergeEnd_congr hWrites (Barrier.orderedOutputs_eq hNodup hPerm), hEnd,
    route_eq_ok_of_routable ((routable_iff hPerm graph merged).mpr hRoutable)]

variable (ex graph spec config input env) in
/-- The step shows the same in every finish order of its tasks. -/
def OrderIndependent (joined : List Joined) : Prop :=
  ∀ order, order.Perm joined → (stepIn ex graph spec config input env order).view =
    (stepIn ex graph spec config input env joined).view

variable (ex graph spec config input env) in
/-- Two finish orders whose checkpoints refer to the same journal head have journaled the
same targets of their commands. -/
def GotosPinned (joined : List Joined) : Prop :=
  ∀ order, order.Perm joined → ∀ checkpoint checkpoint',
    (stepIn ex graph spec config input env order).checkpoint = some checkpoint →
    (stepIn ex graph spec config input env joined).checkpoint = some checkpoint' →
    checkpoint.journalRef = checkpoint'.journalRef →
    (barrierOf order).gotos = (barrierOf joined).gotos

theorem orderIndependent_of_orderFree (hJoins : JoinsAll invocations joined)
    (hFree : OrderFree graph spec input.state (barrierOf joined)) :
    OrderIndependent ex graph spec config input env joined := by
  have hNodup := JoinsAll.nodup_index hSpawn hJoins
  intro order hPerm
  have hWrites := Barrier.orderedWrites_eq hNodup hPerm
  have hOutputs := Barrier.orderedOutputs_eq hNodup hPerm
  unfold OrderFree at hFree
  split at hFree
  · next e after hMerge =>
    rw [stepIn_eq_commit hSpawn (hJoins.1.of_perm hPerm), stepIn_eq_commit hSpawn hJoins.1,
      commit_of_refused hMerge, commit_of_refused (hWrites ▸ hMerge), hOutputs]
  · next merged hMerge =>
    by_cases hRoutable : Routable graph merged (barrierOf joined)
    · obtain ⟨endEvent, env', hStep⟩ := stepIn_eq_closeStep hSpawn hJoins hMerge hRoutable
      have hPairs := hFree hRoutable
      rw [hStep order hPerm, hStep joined (List.Perm.refl joined)]
      by_cases hNone : (barrierOf joined).commands.isEmpty
      · rw [if_pos hNone] at hPairs
        have hNone' := hNone
        rw [← isEmpty_commands_eq hPerm] at hNone'
        rw [(planned_perm_iff graph merged hNone).mpr hPairs order hPerm,
          List.isEmpty_iff.mp hNone, List.isEmpty_iff.mp hNone']
      · rw [if_neg hNone] at hPairs
        rw [Bool.not_eq_true] at hNone
        have hGotos := gotos_perm_iff.mpr hPairs order hPerm
        rw [closeStep_congr _ _ hGotos, flatten_tasks_of_commands graph merged hNone,
          flatten_tasks_of_commands graph merged (isEmpty_commands_eq hPerm ▸ hNone), hGotos]
    · -- the error names the first unknown target in finish order, and nothing else differs
      obtain ⟨e, hRoute⟩ := route_eq_error_of_not_routable hRoutable
      obtain ⟨e', hRoute'⟩ := route_eq_error_of_not_routable
        (mt (routable_iff hPerm graph merged).mp hRoutable)
      rw [stepIn_eq_commit hSpawn (hJoins.1.of_perm hPerm), stepIn_eq_commit hSpawn hJoins.1,
        commit_of_merged hMerge, commit_of_merged (hWrites ▸ hMerge),
        mergeEnd_congr hWrites hOutputs, hRoute, hRoute']
      rfl

theorem orderFree_of_orderIndependent (hJoins : JoinsAll invocations joined)
    (hWriter : ex.checkpointer.isSome)
    (hStored : ∀ order, order.Perm joined → (stepIn ex graph spec config input env order).Stored)
    (hPinned : GotosPinned ex graph spec config input env joined)
    (hSame : OrderIndependent ex graph spec config input env joined) :
    OrderFree graph spec input.state (barrierOf joined) := by
  have hRefl := List.Perm.refl joined
  unfold OrderFree
  split
  · trivial
  · next merged hMerge =>
    intro hRoutable
    obtain ⟨endEvent, env', hStep⟩ := stepIn_eq_closeStep hSpawn hJoins hMerge hRoutable
    have hWritten (order : List Joined) (hPerm : order.Perm joined) :
        (stepIn ex graph spec config input env order).checkpoint.isSome := by
      rw [hStep order hPerm]
      exact isSome_checkpoint_closeStep hWriter _ _ _ _ _
    have hNext (order : List Joined) (hPerm : order.Perm joined) :
        (stepIn ex graph spec config input env order).view.next = some (extendTurn ex.codec graph
          input.step (planned ((barrierOf order).tasks graph merged).flatten) endEvent env').next := by
      have hOk := hStored order hPerm (hWritten order hPerm)
      rw [hStep order hPerm] at hOk ⊢
      exact next_view_closeStep hOk
    split
    · next hNone =>
      refine (planned_perm_iff graph merged hNone).mp fun order hPerm => ?_
      have hTurn := congrArg StepView.next (hSame order hPerm)
      rw [hNext order hPerm, hNext joined hRefl, Option.some.injEq] at hTurn
      -- follow-ups extend only a turn without targets, which no order has or all have
      by_cases hEmpty : planned ((barrierOf order).tasks graph merged).flatten = []
      · rw [hEmpty, planned_eq_nil_of_perm graph merged hPerm hEmpty]
      · rw [extendTurn_of_ne_nil _ _ _ hEmpty, extendTurn_of_ne_nil _ _ _
          (mt (planned_eq_nil_of_perm graph merged hPerm.symm) hEmpty)] at hTurn
        exact hTurn
    · refine gotos_perm_iff.mp fun order hPerm => ?_
      have hCheckpoint : (stepIn ex graph spec config input env order).checkpoint =
          (stepIn ex graph spec config input env joined).checkpoint :=
        congrArg StepView.checkpoint (hSame order hPerm)
      obtain ⟨checkpoint, hSome⟩ := Option.isSome_iff_exists.mp (hWritten joined hRefl)
      exact hPinned order hPerm checkpoint checkpoint (hCheckpoint.trans hSome) hSome rfl

end Step

/-- `a` and `b` run side by side; `a` activates `c`, and `b` activates the given node. -/
def pairBuilder (target : String) : GraphBuilder :=
  ((["a", "b", "c", "d"].foldl (fun b name => b.addNode name ⟨.pure, fun _ => .ok {}⟩)
    { : GraphBuilder }).addEdge "a" "c" |>.addEdge "b" target).setEntryPoint "a"

def meetGraph : Graph := (pairBuilder "c").freeze "a" (by decide +kernel)

def forkGraph : Graph := (pairBuilder "d").freeze "a" (by decide +kernel)

def pairInput : StepInput := { state := .new, active := [⟨"a", none⟩, ⟨"b", none⟩], step := 0 }

def pairJoined : List Joined :=
  [.returned ⟨0, "a", .ok {}, 1⟩, .returned ⟨1, "b", .ok {}, 1⟩]

theorem pair_joinsAll (hSpawn : (startStep sampleExecutor graph { threadId := "t" } pairInput
      (sampleEnv writerCodec)).2.1 = .ok invocations) : JoinsAll invocations pairJoined := by
  refine ⟨by decide, ?_⟩
  rw [map_index_of_startStep hSpawn]
  decide

/-- **Finish order.** A step in which every task returned an output shows the same merged
state, next active set, journaled outputs and boundary checkpoint in every finish order
exactly if the targets of its commands, or of the nodes that ran, are interchangeable. -/
theorem orderIndependent_iff {ex : Executor σ} {graph : Graph} {spec : StateSpec}
    {config : RunConfig} {input : StepInput} {env : Env σ} {invocations : List Invocation}
    {joined : List Joined}
    (hSpawn : (startStep ex graph config input env).2.1 = .ok invocations)
    (hJoins : JoinsAll invocations joined) (hWriter : ex.checkpointer.isSome)
    (hStored : ∀ order, order.Perm joined → (stepIn ex graph spec config input env order).Stored)
    (hPinned : GotosPinned ex graph spec config input env joined) :
    OrderIndependent ex graph spec config input env joined ↔
      OrderFree graph spec input.state (barrierOf joined) :=
  ⟨orderFree_of_orderIndependent hSpawn hJoins hWriter hStored hPinned,
    orderIndependent_of_orderFree hSpawn hJoins⟩

theorem pair_orders (h : order.Perm pairJoined) :
    order = pairJoined ∨ order = pairJoined.reverse := by
  have hOrders : ∀ order ∈ pairJoined.permutations',
      order = pairJoined ∨ order = pairJoined.reverse := by decide +kernel
  exact hOrders order (List.mem_permutations'.mpr h)

theorem orderIndependent_iff_meet :
    OrderIndependent sampleExecutor meetGraph .new { threadId := "t" } pairInput
      (sampleEnv writerCodec) pairJoined := by
  obtain ⟨invocations, hSpawn⟩ := exists_startStep sampleExecutor meetGraph { threadId := "t" }
    pairInput (by decide +kernel) (sampleEnv writerCodec)
  have hStored : ∀ order, order.Perm pairJoined → (stepIn sampleExecutor meetGraph .new
      { threadId := "t" } pairInput (sampleEnv writerCodec) order).Stored := by
    intro order hPerm
    rcases pair_orders hPerm with rfl | rfl <;> exact fun _ => by decide +kernel
  refine (orderIndependent_iff hSpawn (pair_joinsAll hSpawn) rfl hStored ?_).mpr ?_
  · intro order hPerm checkpoint checkpoint' _ _ _
    have hNone : (barrierOf order).commands = [] := (commands_perm hPerm).eq_nil
    rw [Barrier.gotos, hNone]
    rfl
  · decide +kernel

/-- `a` and `b` succeed and write nothing, and the next active set and the checkpoint follow
the order in which they finish. -/
theorem not_orderIndependent_fork :
    let step := stepIn sampleExecutor forkGraph .new { threadId := "t" } pairInput
      (sampleEnv writerCodec)
    (∃ invocations, (startStep sampleExecutor forkGraph { threadId := "t" } pairInput
        (sampleEnv writerCodec)).2.1 = .ok invocations ∧ JoinsAll invocations pairJoined) ∧
      (step pairJoined).view.next = some [⟨"c", none⟩, ⟨"d", none⟩] ∧
      (step pairJoined.reverse).view.next = some [⟨"d", none⟩, ⟨"c", none⟩] ∧
      (step pairJoined).checkpoint.map Checkpoint.nextNodes = some ["c", "d"] ∧
      (step pairJoined.reverse).checkpoint.map Checkpoint.nextNodes = some ["d", "c"] ∧
      ¬ OrderIndependent sampleExecutor forkGraph .new { threadId := "t" } pairInput
        (sampleEnv writerCodec) pairJoined := by
  intro step
  have hFirst : (step pairJoined).view.next = some [⟨"c", none⟩, ⟨"d", none⟩] := by
    decide +kernel
  have hSecond : (step pairJoined.reverse).view.next = some [⟨"d", none⟩, ⟨"c", none⟩] := by
    decide +kernel
  obtain ⟨invocations, hSpawn⟩ := exists_startStep sampleExecutor forkGraph { threadId := "t" }
    pairInput (by decide +kernel) (sampleEnv writerCodec)
  refine ⟨⟨invocations, hSpawn, pair_joinsAll hSpawn⟩, hFirst, hSecond, by decide +kernel,
    by decide +kernel, fun hSame => ?_⟩
  have hNext := congrArg StepView.next (hSame pairJoined.reverse (List.reverse_perm _))
  exact absurd (hSecond.symm.trans (hNext.trans hFirst)) (by decide)

end RustyRuntime
