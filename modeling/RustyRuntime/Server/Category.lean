import RustyRuntime.Server.TaskLife
import RustyRuntime.Server.Tenant

/-!
# The category of a task

The stage barrier reads `status_category`, a second status that each transition sets by hand. It
should be open (backlog, todo, in progress, in review) while the task is, `done` on a completed task
and `cancelled` on one that ended otherwise (`TaskRecord.Agrees`). The transitions keep this. The
two ways into the queue do not establish it: an enqueuer chooses the category, and a dead letter is
stored with that of a new task.

**Every history in which tasks enter with an open category, and dead letters with `cancelled`, keeps
the two in agreement** (`categories_agree`).
-/

namespace RustyRuntime

open Library

/-- The category of an enqueue payload, as `build_task_record` reads it. -/
def parseStatusCategory : Option String → Except ApiError StatusCategory
  | some "backlog" => .ok .backlog
  | some "todo" | none => .ok .todo
  | some "in_progress" => .ok .inProgress
  | some "in_review" => .ok .inReview
  | some "done" => .ok .done
  | some "cancelled" => .ok .cancelled
  | some other => .error (.badRequest (s!"unknown `status_category` `{other}` (expected " ++
      "backlog|todo|in_progress|in_review|done|cancelled)"))

/-- The category says of the task what its status says. -/
def TaskRecord.Agrees (t : TaskRecord) : Prop :=
  (t.statusCategory.isTerminal = false ↔ t.isTerminal = false) ∧
    (t.statusCategory = .done ↔ t.status = .completed) ∧
    (t.statusCategory = .cancelled ↔ t.isTerminal = true ∧ t.status ≠ .completed)

instance (t : TaskRecord) : Decidable t.Agrees := inferInstanceAs (Decidable (_ ∧ _))

/-- A task enters with an open category, a dead letter with that of a task that has ended. -/
def QueueOp.keepsCategory : QueueOp → Bool
  | .enqueue task => !task.statusCategory.isTerminal
  | .outboxEnqueue task => !task.statusCategory.isTerminal
  | .deadLetter task _ => task.statusCategory = .cancelled
  | _ => true

section Transitions

variable {t t' record : TaskRecord} {now : Instant} {op : QueueOp} {store store' : JsonFileStore}

theorem agrees_of_open (hOpen : t.isTerminal = false)
    (hCategory : t.statusCategory.isTerminal = false) : t.Agrees := by
  have hStatus : t.status ≠ .completed := by
    intro hDone
    simp [TaskRecord.isTerminal, hDone] at hOpen
  refine ⟨by simp [hOpen, hCategory], ?_, ?_⟩
  · cases hIs : t.statusCategory <;> simp_all [StatusCategory.isTerminal]
  · cases hIs : t.statusCategory <;> simp_all [StatusCategory.isTerminal]

theorem agrees_of_cancelled (hEnd : t.isTerminal = true) (hStatus : t.status ≠ .completed)
    (hCategory : t.statusCategory = .cancelled) : t.Agrees := by
  simp [TaskRecord.Agrees, hEnd, hStatus, hCategory, StatusCategory.isTerminal]

theorem agrees_applyCancellation : (t.applyCancellation now).Agrees :=
  agrees_of_cancelled rfl (by simp [TaskRecord.applyCancellation]) rfl

theorem not_isTerminal_of_leased (h : t.status = .leased) : t.isTerminal = false := by
  simp [TaskRecord.isTerminal, h]

/-- **Every transition keeps the agreement.** -/
theorem TaskChange.agrees (h : TaskChange now store op t t') (hAgrees : t.Agrees) : t'.Agrees := by
  have hOpen := hAgrees.1.mpr
  cases h with
  | finalized => exact agrees_applyCancellation
  | claimed hCandidate =>
    have hAt := (claimable_spec (claimCandidate_spec hCandidate).2).2.2
    exact agrees_of_open rfl (hOpen (not_isTerminal_of_claimableAt hAt))
  | mailboxClaimed _ hCandidate =>
    have hAt := (mailboxCandidate_spec hCandidate).2.2.2
    exact agrees_of_open rfl (hOpen (not_isTerminal_of_claimableAt hAt))
  | renewed hLease =>
    have hLeased := not_isTerminal_of_leased (TaskRecord.leasedTo_iff.mp hLease).1
    exact agrees_of_open hLeased (hOpen hLeased)
  | completed =>
    simp [TaskRecord.Agrees, TaskRecord.complete, TaskRecord.isTerminal, StatusCategory.isTerminal]
  | @failed workerId policy payload report _ hLease _ =>
    have hLeased := not_isTerminal_of_leased (TaskRecord.leasedTo_iff.mp hLease).1
    rcases t.fail_cases report now with ⟨afterMs, -, hStatus, hNext, hCategory⟩ |
      ⟨-, hStatus, -, hCategory⟩ | ⟨-, hNext, hCategory, hStatus⟩
    · refine agrees_of_open ?_ (hCategory ▸ hOpen hLeased)
      simp [TaskRecord.isTerminal, hStatus, hNext]
    · refine agrees_of_cancelled ?_ (by simp [hStatus]) hCategory
      simp [TaskRecord.isTerminal, hStatus]
    · have hEnded : (t.fail report now).status = .cancelled ∨ (t.fail report now).status = .failed := by
        rw [hStatus]
        split <;> simp
      rcases hEnded with hEnd | hEnd
      · exact agrees_of_cancelled (by simp [TaskRecord.isTerminal, hEnd]) (by simp [hEnd]) hCategory
      · exact agrees_of_cancelled (by simp [TaskRecord.isTerminal, hEnd, hNext]) (by simp [hEnd])
          hCategory
  | cancelled _ hCancel =>
    obtain ⟨hEnds, ⟨-, -, rfl⟩ | ⟨-, -, rfl⟩⟩ := TaskRecord.cancel_eq_some hCancel
    · exact agrees_of_open hEnds (hOpen hEnds)
    · exact agrees_applyCancellation
  | redriven hRedrive =>
    obtain ⟨-, rfl⟩ := TaskRecord.redrive_eq_some hRedrive
    exact agrees_of_open rfl rfl

theorem agrees_of_enqueues (h : op.enqueues now = some record) (hKeeps : op.keepsCategory) :
    record.Agrees := by
  cases op <;> simp only [QueueOp.enqueues, reduceCtorEq, Option.some.injEq] at h
  · subst h
    exact agrees_of_open rfl (Bool.not_eq_true' _ ▸ hKeeps)
  · subst h
    exact agrees_of_cancelled rfl (by simp [TaskRecord.deadLettered]) (of_decide_eq_true hKeeps)

/-! ## Histories -/

/-- Every task agrees, and every row of the outbox will when it is published. -/
structure Categorized (store : JsonFileStore) : Prop where
  tasks : ∀ t ∈ store.tasks.values, t.Agrees
  rows : ∀ row ∈ store.outbox.values, row.task.Agrees

theorem Categorized.putTask (h : Categorized store) (hRecord : record.Agrees) :
    Categorized (store.putTask record) where
  tasks t hT := by
    rcases Index.mem_values_insert.mp hT with rfl | ⟨-, hOld⟩
    · exact hRecord
    · exact h.tasks t hOld
  rows := h.rows

theorem Categorized.putRow (h : Categorized store) {row : OutboxRecord} (hRow : row.task.Agrees) :
    Categorized (store.putRow row) where
  tasks := h.tasks
  rows other hOther := by
    rcases Index.mem_values_insert.mp hOther with rfl | ⟨-, hOld⟩
    · exact hRow
    · exact h.rows other hOld

theorem StoreStep.categorized (hStep : StoreStep now op store store') (hKeeps : op.keepsCategory)
    (h : Categorized store) : Categorized store' := by
  cases hStep with
  | enqueued hOp => exact h.putTask (agrees_of_enqueues hOp hKeeps)
  | relayed hRow => exact h.putTask (h.rows _ (Index.mem_values_iff.mpr hRow))
  | changed hIn hChange =>
    exact h.putTask (hChange.agrees (h.tasks _ (Index.mem_values_iff.mpr hIn)))
  | rowAdded => exact h.putRow (agrees_of_open rfl (Bool.not_eq_true' _ ▸ hKeeps))
  | @rowMarked _ _ row hRow => exact h.putRow (h.rows row (Index.mem_values_iff.mpr hRow))
  | leaseChanged => exact ⟨h.tasks, h.rows⟩

theorem categorized_steps (hSteps : StoreSteps now op store store')
    (hKeeps : op.keepsCategory) (h : Categorized store) : Categorized store' := by
  induction hSteps with
  | refl => exact h
  | tail _ hStep ih => exact hStep.categorized hKeeps ih

end Transitions

/-- **Status and category agree** after every history, whatever its writes, in which no operation
brings in a task with the wrong category. -/
theorem categories_agree (history : List QueueEvent)
    (hKeeps : ∀ event ∈ history, event.op.keepsCategory) :
    ∀ t ∈ (run JsonFileStore.next {} history).tasks.values, t.Agrees := by
  have hStart : Categorized {} :=
    ⟨fun t hT => (by cases Index.mem_values_iff.mp hT), fun row hRow => by
      cases Index.mem_values_iff.mp hRow⟩
  have hRun : Categorized (run JsonFileStore.next {} history) :=
    run_invariant (fun store event h hKeeps => categorized_steps (store.steps_next event) hKeeps h)
      hStart (admissible_of_forall (fun event hIn _ => hKeeps event hIn) _)
  exact hRun.tasks

theorem categories_agree_job :
    jobTask.statusCategory = .todo ∧ ∀ t ∈ (run JsonFileStore.next {}
      [⟨0, .enqueue jobTask, 1⟩, jobClaim, jobCompletion]).tasks.values, t.Agrees :=
  ⟨rfl, categories_agree _ (by decide)⟩

/-- A task that is enqueued as done is queued, and a dead letter is still to do. -/
theorem category_misleads :
    parseStatusCategory (some "done") = .ok .done ∧
      (∃ t ∈ (run JsonFileStore.next {}
          [⟨0, .enqueue { jobTask with statusCategory := .done }, 1⟩]).tasks.values, ¬ t.Agrees) ∧
      ∃ t ∈ (run JsonFileStore.next {} [⟨0, .deadLetter jobTask "lost", 1⟩]).tasks.values,
        ¬ t.Agrees := by
  decide

end RustyRuntime
