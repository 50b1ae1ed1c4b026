import RustyRuntime.Server.TaskLife
import RustyRuntime.Library.Separator

/-!
# The stage barrier

The children of a parent task stand in stages. When a child settles through its route, the
hook looks at the siblings: if the stage of the child and all lower ones have closed, it
enqueues a wake for the agent of the parent. The wake is a task of the queue, with an id and
an idempotency key of its own, and it is itself a child of the parent, in stage 0.

The hook runs after the settlement is durable, and a crash or a failed write between the two
loses it. `QueueOp.route` is an operation with its hook; the number of writes says how far it
gets.
-/

namespace RustyRuntime

open Library Library.Durable

/-! ## The wake -/

def stageBarrierWakeKind : String := "stage_barrier_wake"

def wakeTaskId (tenant parentId : String) (stage : UInt32) : String :=
  s!"{tenant}--barrier--{parentId}--{stage}"

def wakeIdempotencyKey (parentId : String) (stage : UInt32) : String :=
  s!"stage-barrier:{parentId}:{stage}"

/-- `str::strip_prefix`. -/
def stripStart (start s : String) : Option String :=
  if start.toList.isPrefixOf s.toList then some (.ofList (s.toList.drop start.length)) else none

def wakeTask (tenant : String) (parent : TaskRecord) (recipient agentId : String)
    (stage : UInt32) : NewTask where
  taskId := wakeTaskId tenant parent.taskId stage
  tenant := tenant
  kind := stageBarrierWakeKind
  payload := .object [("parent_task_id", .str parent.taskId),
    ("stage", u64Json stage.toUInt64), ("agent_id", .str agentId)]
  pool := defaultPool
  recipient := some recipient
  maxAttempts := 1
  idempotencyKey := some (wakeIdempotencyKey parent.taskId stage)
  effect := some .pure
  parentTaskId := some parent.taskId
  stage := 0
  statusCategory := .todo

/-- The tasks that name the parent, the oldest first. -/
def JsonFileStore.listChildTasks (store : JsonFileStore) (tenant parentTaskId : String) :
    List TaskRecord :=
  sortByKey TaskRecord.age <|
    store.tasks.values.filter fun t => t.tenant = tenant && t.parentTaskId = some parentTaskId

/-- The wake that is due once `settledTask` has settled; `none` is an early return of
`maybe_wake_stage_barrier`. -/
def JsonFileStore.dueWake (store : JsonFileStore) (tenant : String) (settledTask : TaskRecord)
    (parentId : String) : Option NewTask := do
  let parent ← store.getTask tenant parentId
  if parent.statusCategory = .backlog then none
  else
    let recipient ← parent.recipient
    let agentId ← stripStart "agent:" recipient
    let siblings := store.listChildTasks tenant parentId
    let stageTasks := siblings.filter fun t => t.stage = settledTask.stage
    if stageTasks.any fun t => !t.statusCategory.isTerminal then none
    else if siblings.any fun t =>
      t.stage < settledTask.stage && !t.statusCategory.isTerminal then none
    else some (wakeTask tenant parent recipient agentId settledTask.stage)

def maybeWakeStageBarrier (tenant : String) (settledTask : TaskRecord) (parentId : String)
    (now : Instant) : StoreM Unit := do
  let store ← .get
  match store.dueWake tenant settledTask parentId with
  | none => return ()
  | some wake =>
    let _ ← enqueueLocked (.new wake now)
    return ()

/-- The half of `on_task_settled` that concerns the barrier. Its error is only logged. -/
def onTaskSettled (tenant : String) (task : TaskRecord) (now : Instant) : StoreM Unit :=
  match task.parentTaskId with
  | none => return ()
  | some parentId => maybeWakeStageBarrier tenant task parentId now

/-! ## Routes -/

/-- An operation as its route performs it: a completion, a final failure and an immediate
cancellation call the hook. -/
def QueueOp.route (now : Instant) : QueueOp → StoreM Unit
  | .complete tenant taskId workerId report => do
    match ← completeTask tenant taskId workerId report now with
    | .applied task => onTaskSettled tenant task now
    | _ => return ()
  | .fail tenant taskId workerId policy payload => do
    match ← reportFailure tenant taskId workerId policy payload now with
    | .applied task => if task.isTerminal then onTaskSettled tenant task now else return ()
    | _ => return ()
  | .cancel tenant taskId => do
    match ← cancelTask tenant taskId now with
    | .applied task => if task.isTerminal then onTaskSettled tenant task now else return ()
    | _ => return ()
  | op => do
    let _ ← op.run now
    return ()

def QueueOp.settles : QueueOp → Option (String × String)
  | .complete tenant taskId _ _ => some (tenant, taskId)
  | .fail tenant taskId _ _ _ => some (tenant, taskId)
  | .cancel tenant taskId => some (tenant, taskId)
  | _ => none

variable {op : QueueOp} {t : TaskRecord} {stage : UInt32} {wake : NewTask}

theorem route_of_settles_eq_none (h : op.settles = none) (now : Instant) (writes : Nat)
    (store : JsonFileStore) :
    (op.route now).state writes store = (op.run now).state writes store := by
  cases op with
  | complete | fail | cancel => cases h
  | _ => exact state_bind_pure _ _ writes store

theorem state_of_not_applied {m : StoreM MutationOutcome} {k : TaskRecord → StoreM Unit}
    {writes left : Nat} {store : JsonFileStore} {out : Except String MutationOutcome}
    (hRun : m writes store = (out, left, store)) (hNot : ∀ task, out ≠ .ok (.applied task)) :
    (do match ← m with
        | .applied task => k task
        | _ => return () : StoreM Unit).state writes store = store := by
  rw [state, bind_apply, hRun]
  cases out with
  | error e => rfl
  | ok outcome =>
    cases outcome with
    | applied task => exact absurd rfl (hNot task)
    | leaseLost | unknown => rfl

theorem TaskRecord.isTerminal_fail (t : TaskRecord) (report : FailureReport) (now : Instant) :
    (t.fail report now).isTerminal ∨ (t.fail report now).isTerminal = false ∧
      (t.fail report now).statusCategory = t.statusCategory := by
  unfold TaskRecord.isTerminal
  rcases t.fail_cases report now with ⟨afterMs, -, hStatus, hNext, hSame⟩ | ⟨-, hStatus, -, -⟩ |
    ⟨-, hNext, -, hStatus⟩
  · exact .inr ⟨by simp [hStatus, hNext], hSame⟩
  · exact .inl (by simp [hStatus])
  · refine .inl ?_
    rw [hStatus, hNext]
    split_ifs <;> rfl

theorem route_cases {tenant taskId : String} (h : op.settles = some (tenant, taskId))
    (now : Instant) (writes : Nat) (store : JsonFileStore) :
    (op.route now).state writes store = store ∨
      ∃ t t' left, store.tasks.get? taskId = some t ∧ t.tenant = tenant ∧ writes = left + 1 ∧
        TaskChange now store op t t' ∧
        (t'.statusCategory = t.statusCategory ∧
            (op.route now).state writes store = store.putTask t' ∨
          (op.route now).state writes store =
            (onTaskSettled tenant t' now).state left (store.putTask t')) := by
  cases op with
  | complete tenant taskId workerId report =>
    cases h
    rcases mutateTask_run tenant taskId workerId (·.complete report now) writes store with
      ⟨out, left, hRun, hNot⟩ | ⟨t, left, hIn, hTenant, hLease, hWrites, hRun⟩
    · exact .inl (state_of_not_applied hRun hNot)
    · cases Index.key_of_get? hIn
      cases hTenant
      refine .inr ⟨t, _, left, hIn, rfl, hWrites, .completed hLease, .inr ?_⟩
      rw [QueueOp.route, state, bind_apply, completeTask, hRun]
      rfl
  | fail tenant taskId workerId policy payload =>
    cases h
    obtain ⟨report, hFail, hResolved⟩ : ∃ report : FailureReport,
        reportFailure tenant taskId workerId policy payload now writes store =
          mutateTask tenant taskId workerId (·.fail report now) writes store ∧
        ∀ t, store.getTask tenant taskId = some t →
          report.retry = resolveRetryParameters policy report.errorClass t.maxAttempts := by
      rw [reportFailure, get_bind]
      refine ⟨_, rfl, fun t hGet => ?_⟩
      simp only [hGet]
    rcases mutateTask_run tenant taskId workerId (·.fail report now) writes store with
      ⟨out, left, hRun, hNot⟩ | ⟨t, left, hIn, hTenant, hLease, hWrites, hRun⟩
    · exact .inl (state_of_not_applied (hFail.trans hRun) hNot)
    · cases Index.key_of_get? hIn
      cases hTenant
      have hRetry : report.retry =
          resolveRetryParameters policy report.errorClass t.maxAttempts := by
        apply hResolved
        simp [JsonFileStore.getTask, hIn, Option.filter]
      refine .inr ⟨t, _, left, hIn, rfl, hWrites, .failed hLease hRetry, ?_⟩
      rw [QueueOp.route, state, bind_apply, hFail, hRun]
      rcases t.isTerminal_fail report now with hTerminal | ⟨hOpen, hSame⟩
      · simp only [hTerminal, ↓reduceIte]
        exact .inr rfl
      · simp only [hOpen]
        exact .inl ⟨hSame, rfl⟩
  | cancel tenant taskId =>
    cases h
    rcases cancelTask_run tenant taskId now writes store with
      ⟨out, left, hRun, hNot⟩ | ⟨t, transition, t', left, hIn, hTenant, hCancel, hWrites, hRun⟩
    · refine .inl ?_
      rw [QueueOp.route, state, bind_apply, hRun]
      cases out with
      | error e => rfl
      | ok outcome =>
        cases outcome with
        | applied task => exact absurd rfl (hNot task)
        | terminal | unknown => rfl
    · cases Index.key_of_get? hIn
      have hFor : QueueOp.cancels (.cancel tenant t.taskId) t := by
        simp [QueueOp.cancels, hTenant]
      refine .inr ⟨t, t', left, hIn, hTenant, hWrites, .cancelled hFor hCancel, ?_⟩
      rw [QueueOp.route, state, bind_apply, hRun]
      obtain ⟨-, ⟨-, hLeased, rfl⟩ | ⟨-, -, rfl⟩⟩ := TaskRecord.cancel_eq_some hCancel
      · refine .inl ⟨rfl, ?_⟩
        simp only [TaskRecord.isTerminal, hLeased]
        rfl
      · exact .inr rfl
  | _ => cases h

/-! ## The hook -/

variable {store : JsonFileStore} {tenant parentId : String} {settledTask : TaskRecord}

theorem getTask_eq_some {taskId : String} :
    store.getTask tenant taskId = some t ↔ store.tasks.get? taskId = some t ∧ t.tenant = tenant := by
  simp [JsonFileStore.getTask, Option.filter_eq_some_iff]

theorem mem_listChildTasks :
    t ∈ store.listChildTasks tenant parentId ↔ store.tasks.get? t.taskId = some t ∧
      t.tenant = tenant ∧ t.parentTaskId = some parentId := by
  rw [JsonFileStore.listChildTasks, mem_sortByKey, List.mem_filter, Index.mem_values_iff]
  simp

/-- The parent can be woken: it is stored, not parked, and assigned to an agent. -/
def JsonFileStore.awake (store : JsonFileStore) (tenant parentId : String) : Bool :=
  (store.getTask tenant parentId).any fun parent =>
    parent.statusCategory ≠ .backlog && (parent.recipient.bind (stripStart "agent:")).isSome

def JsonFileStore.ClosedTo (store : JsonFileStore) (tenant parentId : String) (stage : UInt32) :
    Prop :=
  ∀ t, store.tasks.get? t.taskId = some t → t.tenant = tenant → t.parentTaskId = some parentId →
    t.stage ≤ stage → t.statusCategory.isTerminal

structure IsWakeTask (tenant parentId : String) (stage : UInt32) (t : TaskRecord) : Prop where
  taskId : t.taskId = wakeTaskId tenant parentId stage
  tenant : t.tenant = tenant
  kind : t.kind = stageBarrierWakeKind
  idempotencyKey : t.idempotencyKey = some (wakeIdempotencyKey parentId stage)
  parentTaskId : t.parentTaskId = some parentId

theorem IsWakeTask.of_sameTask {t' : TaskRecord} (h : IsWakeTask tenant parentId stage t)
    (hSame : t.SameTask t') :
    IsWakeTask tenant parentId stage t' where
  taskId := hSame.taskId.trans h.taskId
  tenant := hSame.tenant.trans h.tenant
  kind := hSame.kind.trans h.kind
  idempotencyKey := hSame.idempotencyKey.trans h.idempotencyKey
  parentTaskId := hSame.parentTaskId.trans h.parentTaskId

theorem closedTo_iff :
    store.ClosedTo tenant parentId stage ↔
      (((store.listChildTasks tenant parentId).filter fun t => t.stage = stage).any fun t =>
          !t.statusCategory.isTerminal) = false ∧
        ((store.listChildTasks tenant parentId).any fun t =>
          t.stage < stage && !t.statusCategory.isTerminal) = false := by
  simp only [JsonFileStore.ClosedTo, List.any_eq_false, List.mem_filter, mem_listChildTasks,
    Bool.and_eq_true, decide_eq_true_eq, Bool.not_eq_true', Bool.not_eq_false]
  constructor
  · intro h
    refine ⟨fun t ⟨⟨hIn, hTenant, hParent⟩, hStage⟩ => ?_,
      fun t ⟨hIn, hTenant, hParent⟩ ⟨hStage, hOpen⟩ => ?_⟩
    · exact h t hIn hTenant hParent (by rw [hStage]; exact UInt32.le_refl _)
    · rw [h t hIn hTenant hParent (UInt32.le_of_lt hStage)] at hOpen
      cases hOpen
  · rintro ⟨hAt, hBelow⟩ t hIn hTenant hParent hStage
    by_cases hSame : t.stage = stage
    · exact hAt t ⟨⟨hIn, hTenant, hParent⟩, hSame⟩
    · have hLt : t.stage < stage := UInt32.lt_of_le_of_ne hStage hSame
      cases hOpen : t.statusCategory.isTerminal with
      | true => rfl
      | false => exact absurd ⟨hLt, hOpen⟩ (hBelow t ⟨hIn, hTenant, hParent⟩)

/-- **What the hook decides.** -/
theorem dueWake_eq_some :
    store.dueWake tenant settledTask parentId = some wake ↔
      ∃ parent recipient agentId, store.getTask tenant parentId = some parent ∧
        parent.statusCategory ≠ .backlog ∧ parent.recipient = some recipient ∧
        stripStart "agent:" recipient = some agentId ∧
        store.ClosedTo tenant parentId settledTask.stage ∧
        wakeTask tenant parent recipient agentId settledTask.stage = wake := by
  simp only [closedTo_iff, JsonFileStore.dueWake, Option.bind_eq_bind, Option.bind_eq_some_iff,
    Option.ite_none_left_eq_some, Bool.not_eq_true, Option.some.injEq]
  constructor
  · rintro ⟨parent, hParent, hParked, recipient, hRecipient, agentId, hAgent, hAt, hBelow, hWake⟩
    exact ⟨parent, recipient, agentId, hParent, hParked, hRecipient, hAgent, ⟨hAt, hBelow⟩, hWake⟩
  · rintro ⟨parent, recipient, agentId, hParent, hParked, hRecipient, hAgent, ⟨hAt, hBelow⟩, hWake⟩
    exact ⟨parent, hParent, hParked, recipient, hRecipient, agentId, hAgent, hAt, hBelow, hWake⟩

theorem dueWake_isSome (hAwake : store.awake tenant parentId)
    (hClosed : store.ClosedTo tenant parentId settledTask.stage) :
    ∃ wake, store.dueWake tenant settledTask parentId = some wake := by
  rw [JsonFileStore.awake, Option.any_eq_true] at hAwake
  obtain ⟨parent, hParent, hAwake⟩ := hAwake
  simp only [ne_eq, Bool.and_eq_true, decide_eq_true_eq, Option.isSome_iff_exists,
    Option.bind_eq_some_iff] at hAwake
  obtain ⟨hParked, agentId, recipient, hRecipient, hAgent⟩ := hAwake
  exact ⟨_, dueWake_eq_some.mpr
    ⟨parent, recipient, agentId, hParent, hParked, hRecipient, hAgent, hClosed, rfl⟩⟩

theorem dueWake_spec (h : store.dueWake tenant settledTask parentId = some wake) (now : Instant) :
    IsWakeTask tenant parentId settledTask.stage (.new wake now) ∧
      store.ClosedTo tenant parentId settledTask.stage := by
  obtain ⟨parent, recipient, agentId, hParent, -, -, -, hClosed, rfl⟩ := dueWake_eq_some.mp h
  have hId : parent.taskId = parentId := Index.key_of_get? (getTask_eq_some.mp hParent).1
  cases hId
  exact ⟨⟨rfl, rfl, rfl, rfl, rfl⟩, hClosed⟩

theorem onTaskSettled_state (tenant : String) (task : TaskRecord) (now : Instant) (writes : Nat)
    (store : JsonFileStore) :
    (onTaskSettled tenant task now).state writes store =
      match task.parentTaskId.bind (store.dueWake tenant task) with
      | none => store
      | some wake => (enqueueLocked (.new wake now)).state writes store := by
  unfold onTaskSettled
  cases task.parentTaskId with
  | none => rfl
  | some parentId =>
    simp only [Option.bind_some, maybeWakeStageBarrier, state, get_bind]
    cases store.dueWake tenant task parentId with
    | none => rfl
    | some wake => exact state_bind_pure _ _ writes store

theorem onTaskSettled_cases (tenant : String) (task : TaskRecord) (now : Instant) (writes : Nat)
    (store : JsonFileStore) :
    (onTaskSettled tenant task now).state writes store = store ∨
      ∃ parentId wake, task.parentTaskId = some parentId ∧
        store.dueWake tenant task parentId = some wake ∧
        store.deduplicated (.new wake now) = none ∧
        (onTaskSettled tenant task now).state writes store = store.putTask (.new wake now) := by
  rw [onTaskSettled_state]
  cases hWake : task.parentTaskId.bind (store.dueWake tenant task) with
  | none => exact .inl rfl
  | some wake =>
    obtain ⟨parentId, hParent, hWake⟩ := Option.bind_eq_some_iff.mp hWake
    rcases enqueueLocked_cases (.new wake now) writes store with hSame | ⟨hNew, -, hPut⟩
    · exact .inl hSame
    · exact .inr ⟨parentId, wake, hParent, hWake, hNew, hPut⟩

theorem onTaskSettled_wakes {task : TaskRecord} (now : Instant) (left : Nat)
    (hParent : task.parentTaskId = some parentId)
    (hWake : store.dueWake tenant task parentId = some wake) :
    ∃ t, ((onTaskSettled tenant task now).state (left + 1) store).tasks.get? t.taskId = some t ∧
      t.tenant = tenant ∧
      t.idempotencyKey = some (wakeIdempotencyKey parentId task.stage) := by
  have hSpec := (dueWake_spec hWake now).1
  rw [onTaskSettled_state, hParent, Option.bind_some, hWake]
  rcases enqueueLocked_holds (.new wake now) left store with hKnown | hIn
  · obtain ⟨key, t, hKey, hIn, hTenant, hSame⟩ := deduplicated_isSome.mp hKnown
    refine ⟨t, hIn, hTenant.trans hSpec.tenant, ?_⟩
    rw [hSame, ← hKey, hSpec.idempotencyKey]
  · exact ⟨_, hIn, hSpec.tenant, hSpec.idempotencyKey⟩

end RustyRuntime
