import RustyRuntime.Server.FileStore

/-!
# What one write of the queue can do

Every operation of the file backend is a sequence of writes, and each write is one of a few
changes: a record is enqueued, an outbox row is added, relayed or marked, a record makes one
transition of its life cycle, or an activation lease changes. `StoreStep` lists them with the
guards under which the code makes them, and `reaches_run` says that an operation, cut off
after any number of writes, has moved the store along them. Whatever holds along every step
thus holds at every point of every history, crash points included.
-/

namespace RustyRuntime

open Library Library.Durable

/-! ## Steps -/

/-- The tenant whose due cancellations an operation finalizes. -/
def QueueOp.claimsFor : QueueOp → Option String
  | .claim tenant _ _ _ => some tenant
  | .claimAgent tenant _ _ => some tenant
  | _ => none

def QueueOp.cancels : QueueOp → TaskRecord → Bool
  | .cancel tenant taskId, t => t.tenant = tenant && t.taskId = taskId
  | .cancelRun tenant runId, t => t.tenant = tenant && t.runId = some runId
  | .cancelAgent tenant recipient, t => t.tenant = tenant && t.recipient = some recipient
  | _, _ => false

/-- The record that an operation hands to `enqueue_locked`. -/
def QueueOp.enqueues (now : Instant) : QueueOp → Option TaskRecord
  | .enqueue task => some (.new task now)
  | .deadLetter task lastError => some (.deadLettered task lastError now)
  | _ => none

/-- The operations on the activation leases. -/
def QueueOp.isActivation : QueueOp → Bool
  | .claimActivation _ _ _ => true
  | .renewActivation _ _ _ _ => true
  | .releaseActivation _ _ _ => true
  | _ => false

inductive TaskChange (now : Instant) (store : JsonFileStore) :
    QueueOp → TaskRecord → TaskRecord → Prop
  | finalized {op t} (hFor : op.claimsFor = some t.tenant) (hDue : t.cancellationDue now) :
      TaskChange now store op t (t.applyCancellation now)
  | claimed {tenant workerId scope leaseMs t}
      (hCandidate : store.claimCandidate tenant scope now = some t) :
      TaskChange now store (.claim tenant workerId scope leaseMs) t
        (t.claim workerId (policyLeaseMs scope t.kind leaseMs) now)
  | mailboxClaimed {tenant scope leaseMs t}
      (hTurn : store.turnInFlight tenant scope.recipient now = false)
      (hCandidate : store.mailboxCandidate tenant scope.recipient now = some t) :
      TaskChange now store (.claimAgent tenant scope leaseMs) t (t.claim scope.owner leaseMs now)
  | renewed {workerId leaseMs t} (hLease : t.leasedTo workerId) :
      TaskChange now store (.heartbeat t.tenant t.taskId workerId leaseMs) t
        (t.renewLease leaseMs now)
  | completed {workerId report t} (hLease : t.leasedTo workerId) :
      TaskChange now store (.complete t.tenant t.taskId workerId report) t (t.complete report now)
  | failed {workerId policy payload report t} (hLease : t.leasedTo workerId)
      (hRetry : report.retry = resolveRetryParameters policy report.errorClass t.maxAttempts) :
      TaskChange now store (.fail t.tenant t.taskId workerId policy payload) t (t.fail report now)
  | cancelled {op t transition t'} (hFor : op.cancels t)
      (hCancel : t.cancel now = some (transition, t')) : TaskChange now store op t t'
  | redriven {t t'} (hRedrive : t.redrive now = some t') :
      TaskChange now store (.redrive t.tenant t.taskId) t t'

/-- The record, or one with its key, is in the queue. -/
def JsonFileStore.HoldsTask (store : JsonFileStore) (record : TaskRecord) : Prop :=
  (store.deduplicated record).isSome ∨ store.tasks.get? record.taskId = some record

/-- One write of an operation. -/
inductive StoreStep (now : Instant) : QueueOp → JsonFileStore → JsonFileStore → Prop
  | enqueued {op store record} (hOp : op.enqueues now = some record)
      (hNew : store.deduplicated record = none) : StoreStep now op store (store.putTask record)
  | relayed {limit store row} (hRow : store.outbox.get? row.outboxId = some row)
      (hPending : row.publishedAt = none) (hNew : store.deduplicated row.task = none) :
      StoreStep now (.publish limit) store (store.putTask row.task)
  | changed {op store t t'} (hIn : store.tasks.get? t.taskId = some t)
      (hChange : TaskChange now store op t t') : StoreStep now op store (store.putTask t')
  | rowAdded {task store} (hNew : store.outbox.get? task.taskId = none) :
      StoreStep now (.outboxEnqueue task) store (store.putRow (.new (.new task now) now))
  | rowMarked {limit store row} (hRow : store.outbox.get? row.outboxId = some row)
      (hPending : row.publishedAt = none) (hHolds : store.HoldsTask row.task) :
      StoreStep now (.publish limit) store (store.putRow { row with publishedAt := some now })
  | leaseChanged {op store agentLeases} (hOp : op.isActivation) :
      StoreStep now op store { store with agentLeases }

abbrev StoreSteps (now : Instant) (op : QueueOp) := Relation.ReflTransGen (StoreStep now op)

/-! ## Candidates -/

theorem mem_of_oldest {ts : List TaskRecord} {t : TaskRecord} (h : oldest ts = some t) : t ∈ ts :=
  mem_of_minByKey h

variable {store : JsonFileStore} {tenant : String} {now : Instant} {t : TaskRecord}

variable {scope : ClaimScope} {step : JsonFileStore → JsonFileStore → Prop} {row : OutboxRecord}
  {select : TaskRecord → Bool} {id : String} {rest : List String} {writes writes' : Nat}
  {swept store' : JsonFileStore} {op : QueueOp} {record : TaskRecord}

theorem claimCandidate_spec (h : store.claimCandidate tenant scope now = some t) :
    store.tasks.get? t.taskId = some t ∧ store.claimable tenant scope now t := by
  obtain ⟨hIn, hClaimable⟩ := List.mem_filter.mp (mem_of_oldest h)
  exact ⟨Index.mem_values_iff.mp hIn, hClaimable⟩

theorem mailboxCandidate_spec {recipient : String}
    (h : store.mailboxCandidate tenant recipient now = some t) :
    store.tasks.get? t.taskId = some t ∧ t.tenant = tenant ∧ t.recipient = some recipient ∧
      t.claimableAt now := by
  obtain ⟨hIn, hClaimable⟩ := List.mem_filter.mp (mem_of_oldest h)
  simp only [Bool.and_eq_true, decide_eq_true_eq] at hClaimable
  exact ⟨Index.mem_values_iff.mp hIn, hClaimable.1.1, hClaimable.1.2, hClaimable.2⟩

theorem claimable_spec (h : store.claimable tenant scope now t) :
    t.tenant = tenant ∧ t.recipient = none ∧ t.claimableAt now := by
  simp only [JsonFileStore.claimable, Bool.and_eq_true, decide_eq_true_eq,
    Option.isNone_iff_eq_none] at h
  exact ⟨h.1.1.1.1.1, h.1.1.1.1.2, h.1.1.2⟩

/-! ## Operations as sequences of steps -/

theorem reaches_persistTask {task : TaskRecord} (h : step store (store.putTask task)) :
    Reaches step (persistTask task) store :=
  reaches_write h

theorem reaches_persistRow (h : step store (store.putRow row)) :
    Reaches step (persistRow row) store :=
  reaches_write h

/-- The records that a loop over ids still has to visit. -/
def Selected (select : TaskRecord → Bool) (ids : List String) (store : JsonFileStore) : Prop :=
  ids.Nodup ∧ ∀ id ∈ ids, ∃ t, store.tasks.get? id = some t ∧ select t

theorem selected_ids (store : JsonFileStore) (select : TaskRecord → Bool) :
    Selected select ((store.tasks.values.filter select).map TaskRecord.taskId) store := by
  refine ⟨?_, fun id hId => ?_⟩
  · exact (Index.nodup_keys_values store.tasks).sublist (List.filter_sublist.map _)
  · obtain ⟨t, hIn, rfl⟩ := List.mem_map.mp hId
    obtain ⟨hIn, hSelect⟩ := List.mem_filter.mp hIn
    exact ⟨t, Index.mem_values_iff.mp hIn, hSelect⟩

theorem Selected.tail (h : Selected select (id :: rest) store) : Selected select rest store :=
  ⟨(List.nodup_cons.mp h.1).2, fun other hOther => h.2 other (List.mem_cons_of_mem _ hOther)⟩

theorem Selected.tail_putTask (h : Selected select (id :: rest) store) {t' : TaskRecord}
    (hId : t'.taskId = id) : Selected select rest (store.putTask t') := by
  refine ⟨h.tail.1, fun other hOther => ?_⟩
  have hNe : t'.taskId ≠ other := by
    rintro rfl
    exact (List.nodup_cons.mp h.1).1 (hId ▸ hOther)
  simpa only [JsonFileStore.putTask, Index.get?_insert_of_ne _ hNe] using h.tail.2 other hOther

section

variable (tenant : String) (now : Instant) (store : JsonFileStore)

def Finalizes (store store' : JsonFileStore) : Prop :=
  ∃ t, store.tasks.get? t.taskId = some t ∧ t.tenant = tenant ∧ t.cancellationDue now ∧
    store' = store.putTask (t.applyCancellation now)

theorem reaches_finalizeDueLocked :
    Reaches (Finalizes tenant now) (finalizeDueLocked tenant now) store := by
  refine reaches_each (Selected fun t => t.tenant = tenant && t.cancellationDue now) ?_
    (selected_ids store _)
  intro id rest store hLeft
  obtain ⟨t, hIn, hDue⟩ := hLeft.2 id List.mem_cons_self
  have hId : t.taskId = id := Index.key_of_get? hIn
  simp only [Bool.and_eq_true, decide_eq_true_eq] at hDue
  have hStep : Finalizes tenant now store (store.putTask (t.applyCancellation now)) :=
    ⟨t, hId ▸ hIn, hDue.1, hDue.2, rfl⟩
  constructor
  · refine reaches_get_bind ?_
    simp only [hIn]
    exact reaches_persistTask hStep
  · intro writes writes' store' hRun
    simp only [finalizeOne, get_bind, hIn] at hRun
    cases writes with
    | zero => cases hRun
    | succ writes =>
      cases hRun
      exact hLeft.tail_putTask hId

/-- What the sweep makes of a record. -/
def TaskRecord.settleDue (t : TaskRecord) : TaskRecord :=
  if t.tenant = tenant ∧ t.cancellationDue now then t.applyCancellation now else t

/-- The store after a whole sweep: every due record is cancelled, nothing else has changed. -/
structure Swept (tenant : String) (now : Instant) (store swept : JsonFileStore) : Prop where
  tasks : ∀ id, swept.tasks.get? id = (store.tasks.get? id).map (·.settleDue tenant now)
  outbox : swept.outbox = store.outbox
  agentLeases : swept.agentLeases = store.agentLeases

/-- Part of the way through a sweep: the records of the rest are still as they were. -/
structure Sweeping (tenant : String) (now : Instant) (start : JsonFileStore) (rest : List String)
    (store : JsonFileStore) : Prop where
  left : Selected (fun t => t.tenant = tenant && t.cancellationDue now) rest store
  tasks : ∀ id, store.tasks.get? id =
    if id ∈ rest then start.tasks.get? id else (start.tasks.get? id).map (·.settleDue tenant now)
  outbox : store.outbox = start.outbox
  agentLeases : store.agentLeases = start.agentLeases

theorem sweeping_start :
    Sweeping tenant now store ((store.tasks.values.filter fun t =>
      t.tenant = tenant && t.cancellationDue now).map TaskRecord.taskId) store where
  left := selected_ids store _
  tasks id := by
    split
    · rfl
    · next hOther =>
      cases hIn : store.tasks.get? id with
      | none => rfl
      | some t =>
        have hNot : ¬ (t.tenant = tenant ∧ t.cancellationDue now) := by
          intro hDue
          apply hOther
          rw [← Index.key_of_get? hIn]
          refine List.mem_map_of_mem (List.mem_filter.mpr ⟨Index.mem_values_of_get? hIn, ?_⟩)
          simp [hDue.1, hDue.2]
        rw [Option.map_some, TaskRecord.settleDue, if_neg hNot]
  outbox := rfl
  agentLeases := rfl

end

theorem Sweeping.round {start : JsonFileStore} (h : Sweeping tenant now start (id :: rest) store)
    (hIn : store.tasks.get? id = some t) (hDue : t.tenant = tenant ∧ t.cancellationDue now) :
    Sweeping tenant now start rest (store.putTask (t.applyCancellation now)) := by
  have hId : (t.applyCancellation now).taskId = id := by
    rw [← Index.key_of_get? hIn]
    rfl
  have hStart : start.tasks.get? id = some t := by
    rw [← hIn, h.tasks id, if_pos List.mem_cons_self]
  refine ⟨h.left.tail_putTask hId, fun other => ?_, h.outbox, h.agentLeases⟩
  rw [JsonFileStore.putTask, Index.get?_insert, hId]
  by_cases hOther : id = other
  · subst hOther
    rw [if_pos rfl, if_neg (List.nodup_cons.mp h.left.1).1, hStart, Option.map_some,
      TaskRecord.settleDue, if_pos hDue]
  · rw [if_neg hOther, h.tasks other]
    simp only [List.mem_cons, Ne.symm hOther, false_or]

theorem finalizeDueLocked_ok
    (h : finalizeDueLocked tenant now writes store = (.ok (), writes', swept)) :
    Swept tenant now store swept := by
  have hEnd := each_ok (Sweeping tenant now store) ?_ (sweeping_start tenant now store) h
  · exact ⟨fun id => by simpa using hEnd.tasks id, hEnd.outbox, hEnd.agentLeases⟩
  · intro id rest store hLeft writes writes' store' hRun
    obtain ⟨t, hIn, hDue⟩ := hLeft.left.2 id List.mem_cons_self
    simp only [Bool.and_eq_true, decide_eq_true_eq] at hDue
    simp only [finalizeOne, get_bind, hIn] at hRun
    cases writes with
    | zero => cases hRun
    | succ writes =>
      cases hRun
      exact hLeft.round hIn hDue

/-- The two outcomes of a claim: the sweep alone, or the sweep and then the lease of the
candidate. -/
theorem claimTask_cases (tenant workerId : String) (scope : ClaimScope) (leaseMs : Nat)
    (now : Instant) (writes : Nat) (store : JsonFileStore) :
    ∃ swept, Relation.ReflTransGen (Finalizes tenant now) store swept ∧
      ((claimTask tenant workerId scope leaseMs now).state writes store = swept ∧
          (∀ t, (claimTask tenant workerId scope leaseMs now).answer writes store ≠ .ok (some t)) ∨
        ∃ t, Swept tenant now store swept ∧ swept.claimCandidate tenant scope now = some t ∧
          (claimTask tenant workerId scope leaseMs now).state writes store =
            swept.putTask (t.claim workerId (policyLeaseMs scope t.kind leaseMs) now) ∧
          (claimTask tenant workerId scope leaseMs now).answer writes store =
            .ok (some (t.claim workerId (policyLeaseMs scope t.kind leaseMs) now))) := by
  have hSweep := reaches_finalizeDueLocked tenant now store writes
  simp only [state, answer, claimTask, bind_apply] at hSweep ⊢
  generalize hRun : finalizeDueLocked tenant now writes store = out at hSweep ⊢
  obtain ⟨outcome, writes, swept⟩ := out
  refine ⟨swept, hSweep, ?_⟩
  cases outcome with
  | error e => exact .inl ⟨rfl, by simp⟩
  | ok _ =>
    have hAll := finalizeDueLocked_ok hRun
    simp only [Durable.get]
    cases hCandidate : swept.claimCandidate tenant scope now with
    | none => exact .inl ⟨rfl, by simp⟩
    | some t =>
      cases writes with
      | zero => exact .inl ⟨rfl, fun t h => by cases h⟩
      | succ writes => exact .inr ⟨t, hAll, rfl, rfl, rfl⟩

/-- The same for the mailbox of an agent; the activation is checked before the sweep. -/
theorem claimAgentTask_cases (tenant : String) (scope : MailboxClaimScope) (leaseMs : Nat)
    (now : Instant) (writes : Nat) (store : JsonFileStore) :
    ∃ swept, Relation.ReflTransGen (Finalizes tenant now) store swept ∧
      ((claimAgentTask tenant scope leaseMs now).state writes store = swept ∧
          (∀ t, (claimAgentTask tenant scope leaseMs now).answer writes store ≠ .ok (.claimed t)) ∨
        ∃ t, (store.agentLeases.get? scope.agentId).any (·.heldBy scope.owner scope.fencing now) ∧
          Swept tenant now store swept ∧
          swept.turnInFlight tenant scope.recipient now = false ∧
          swept.mailboxCandidate tenant scope.recipient now = some t ∧
          (claimAgentTask tenant scope leaseMs now).state writes store =
            swept.putTask (t.claim scope.owner leaseMs now) ∧
          (claimAgentTask tenant scope leaseMs now).answer writes store =
            .ok (.claimed (t.claim scope.owner leaseMs now))) := by
  have hSweep := reaches_finalizeDueLocked tenant now store writes
  simp only [state, answer, claimAgentTask, get_bind]
  cases hLease : store.agentLeases.get? scope.agentId with
  | none => exact ⟨store, .refl, .inl ⟨rfl, by simp⟩⟩
  | some lease =>
    simp only [Option.any_some]
    cases hHeld : lease.heldBy scope.owner scope.fencing now with
    | false => exact ⟨store, .refl, .inl ⟨rfl, by simp⟩⟩
    | true =>
      simp only [Bool.not_true, Bool.false_eq_true, ↓reduceIte]
      simp only [state, bind_apply] at hSweep ⊢
      generalize hRun : finalizeDueLocked tenant now writes store = out at hSweep ⊢
      obtain ⟨outcome, writes, swept⟩ := out
      refine ⟨swept, hSweep, ?_⟩
      cases outcome with
      | error e => exact .inl ⟨rfl, by simp⟩
      | ok _ =>
        have hAll := finalizeDueLocked_ok hRun
        simp only [Durable.get]
        cases hTurn : swept.turnInFlight tenant scope.recipient now with
        | true => exact .inl ⟨rfl, by simp⟩
        | false =>
          simp only [Bool.false_eq_true, ↓reduceIte]
          cases hCandidate : swept.mailboxCandidate tenant scope.recipient now with
          | none => exact .inl ⟨rfl, by simp⟩
          | some t =>
            cases writes with
            | zero => exact .inl ⟨rfl, fun t h => by cases h⟩
            | succ writes => exact .inr ⟨t, trivial, hAll, trivial, rfl, rfl, rfl⟩

theorem Finalizes.steps (op : QueueOp) (hFor : op.claimsFor = some tenant)
    (h : Relation.ReflTransGen (Finalizes tenant now) store swept) :
    StoreSteps now op store swept := by
  have hStep : Finalizes tenant now ≤ StoreStep now op := by
    rintro _ _ ⟨t, hIn, rfl, hDue, rfl⟩
    exact .changed hIn (.finalized hFor hDue)
  exact Relation.ReflTransGen.mono hStep _ _ h

section

variable (tenant taskId workerId : String) (mutate : TaskRecord → TaskRecord) (writes : Nat)
  (store : JsonFileStore)

/-- A guarded mutation is refused or fails, or it replaces the record that the worker holds. -/
theorem mutateTask_run :
    (∃ out left, mutateTask tenant taskId workerId mutate writes store = (out, left, store) ∧
        ∀ task, out ≠ .ok (.applied task)) ∨
      ∃ t left, store.tasks.get? taskId = some t ∧ t.tenant = tenant ∧ t.leasedTo workerId ∧
        writes = left + 1 ∧ mutateTask tenant taskId workerId mutate writes store =
          (.ok (.applied (mutate t)), left, store.putTask (mutate t)) := by
  simp only [mutateTask, get_bind]
  cases hIn : store.tasks.get? taskId with
  | none => exact .inl ⟨_, _, rfl, by simp⟩
  | some t =>
    by_cases hTenant : t.tenant = tenant
    · cases hLease : t.leasedTo workerId with
      | false =>
        simp only [hTenant, hLease, ne_eq, not_true_eq_false, ↓reduceIte]
        exact .inl ⟨_, _, rfl, by simp⟩
      | true =>
        simp only [hTenant, hLease, ne_eq, not_true_eq_false, ↓reduceIte]
        cases writes with
        | zero => exact .inl ⟨_, _, rfl, by simp⟩
        | succ left => exact .inr ⟨t, left, rfl, hTenant, hLease, rfl, rfl⟩
    · simp only [ne_eq, hTenant, not_false_eq_true, ↓reduceIte]
      exact .inl ⟨_, _, rfl, by simp⟩

theorem mutateTask_cases :
    (mutateTask tenant taskId workerId mutate).state writes store = store ∨
      ∃ t, store.tasks.get? taskId = some t ∧ t.tenant = tenant ∧ t.leasedTo workerId ∧
        (mutateTask tenant taskId workerId mutate).state writes store =
          store.putTask (mutate t) := by
  unfold Durable.state
  rcases mutateTask_run tenant taskId workerId mutate writes store with
    ⟨out, left, hRun, -⟩ | ⟨t, left, hIn, hTenant, hLease, -, hRun⟩
  · exact .inl (by rw [hRun])
  · exact .inr ⟨t, hIn, hTenant, hLease, by rw [hRun]⟩

/-- A cancellation is refused or fails, or it replaces the record by the cancelled one. -/
theorem cancelTask_run (tenant taskId : String) (now : Instant) (writes : Nat)
    (store : JsonFileStore) :
    (∃ out left, cancelTask tenant taskId now writes store = (out, left, store) ∧
        ∀ task, out ≠ .ok (.applied task)) ∨
      ∃ t transition t' left, store.tasks.get? taskId = some t ∧ t.tenant = tenant ∧
        t.cancel now = some (transition, t') ∧ writes = left + 1 ∧
        cancelTask tenant taskId now writes store =
          (.ok (.applied t'), left, store.putTask t') := by
  simp only [cancelTask, get_bind]
  cases hIn : store.tasks.get? taskId with
  | none => exact .inl ⟨_, _, rfl, by simp⟩
  | some t =>
    by_cases hTenant : t.tenant = tenant
    · simp only [hTenant, ne_eq, not_true_eq_false, ↓reduceIte]
      cases hCancel : t.cancel now with
      | none => exact .inl ⟨_, _, rfl, by simp⟩
      | some landed =>
        obtain ⟨transition, t'⟩ := landed
        cases writes with
        | zero => exact .inl ⟨_, _, rfl, by simp⟩
        | succ left => exact .inr ⟨t, transition, t', left, rfl, hTenant, hCancel, rfl, rfl⟩
    · simp only [ne_eq, hTenant, not_false_eq_true, ↓reduceIte]
      exact .inl ⟨_, _, rfl, by simp⟩

end

theorem reaches_mutateTask {taskId workerId : String} {mutate : TaskRecord → TaskRecord}
    (hChange : ∀ t, store.tasks.get? taskId = some t → t.tenant = tenant → t.leasedTo workerId →
      TaskChange now store op t (mutate t)) :
    Reaches (StoreStep now op) (mutateTask tenant taskId workerId mutate) store := by
  intro writes
  rcases mutateTask_cases tenant taskId workerId mutate writes store with
    hState | ⟨t, hIn, hTenant, hLease, hState⟩
  · rw [hState]
  · have hId : t.taskId = taskId := Index.key_of_get? hIn
    rw [hState]
    exact .single (.changed (hId ▸ hIn) (hChange t hIn hTenant hLease))

theorem reaches_enqueueLocked
    (hStep : store.deduplicated record = none → StoreStep now op store (store.putTask record)) :
    Reaches (StoreStep now op) (enqueueLocked record) store := by
  refine reaches_get_bind ?_
  split
  · exact reaches_pure _
  · next hNew =>
    exact (reaches_persistTask (hStep hNew)).bind_pure _

theorem enqueueLocked_cases (record : TaskRecord) (writes : Nat) (store : JsonFileStore) :
    (enqueueLocked record).state writes store = store ∨
      store.deduplicated record = none ∧ 0 < writes ∧
        (enqueueLocked record).state writes store = store.putTask record := by
  simp only [state, enqueueLocked, get_bind]
  cases store.deduplicated record with
  | some existing => exact .inl rfl
  | none =>
    cases writes with
    | zero => exact .inl rfl
    | succ left => exact .inr ⟨rfl, Nat.succ_pos left, rfl⟩

/-- After an enqueue the queue holds the task, and nothing but the task index has changed. -/
theorem enqueueLocked_spec {out : TaskRecord × Bool}
    (h : enqueueLocked record writes store = (.ok out, writes', store')) :
    store'.HoldsTask record ∧ store'.outbox = store.outbox := by
  simp only [enqueueLocked, get_bind] at h
  cases hKnown : store.deduplicated record with
  | some existing =>
    simp only [hKnown] at h
    cases h
    exact ⟨.inl (by rw [hKnown]; rfl), rfl⟩
  | none =>
    simp only [hKnown] at h
    cases writes with
    | zero => cases h
    | succ writes =>
      cases h
      exact ⟨.inr (Index.get?_insert_self _ _), rfl⟩

theorem enqueueLocked_holds (record : TaskRecord) (left : Nat) (store : JsonFileStore) :
    ((enqueueLocked record).state (left + 1) store).HoldsTask record := by
  simp only [state, enqueueLocked, get_bind]
  cases hKnown : store.deduplicated record with
  | some existing => exact .inl (by simp [hKnown])
  | none => exact .inr (Index.get?_insert_self _ _)

def Unpublished (rows : List OutboxRecord) (store : JsonFileStore) : Prop :=
  (rows.map OutboxRecord.outboxId).Nodup ∧
    ∀ row ∈ rows, store.outbox.get? row.outboxId = some row ∧ row.publishedAt = none

theorem unpublished_pendingRows (store : JsonFileStore) (limit : Nat) :
    Unpublished (store.pendingRows limit) store := by
  constructor
  · have hPerm := sortByKey_perm (fun row : OutboxRecord => toLex (row.createdAt, row.outboxId))
      (store.outbox.values.filter (·.publishedAt.isNone))
    have hAll : ((store.outbox.values.filter (·.publishedAt.isNone)).map
        OutboxRecord.outboxId).Nodup :=
      (Index.nodup_keys_values store.outbox).sublist (List.filter_sublist.map _)
    exact ((hPerm.map _).nodup_iff.mpr hAll).sublist ((List.take_sublist _ _).map _)
  · intro row hRow
    have hIn := (mem_sortByKey _).mp (List.mem_of_mem_take hRow)
    obtain ⟨hIn, hPending⟩ := List.mem_filter.mp hIn
    exact ⟨Index.mem_values_iff.mp hIn, Option.isNone_iff_eq_none.mp hPending⟩

theorem Unpublished.tail {rest : List OutboxRecord} (h : Unpublished (row :: rest) store)
    (hOutbox : ∀ id, id ≠ row.outboxId → store'.outbox.get? id = store.outbox.get? id) :
    Unpublished rest store' := by
  refine ⟨(List.nodup_cons.mp h.1).2, fun other hOther => ?_⟩
  have hNe : other.outboxId ≠ row.outboxId := by
    intro hEq
    exact (List.nodup_cons.mp h.1).1 (hEq ▸ List.mem_map_of_mem hOther)
  rw [hOutbox _ hNe]
  exact h.2 other (List.mem_cons_of_mem _ hOther)

theorem publishRow_round {rest : List OutboxRecord} {limit : Nat}
    (h : Unpublished (row :: rest) store) :
    Reaches (StoreStep now (.publish limit)) (publishRow now row) store ∧
      ∀ writes task writes' store', publishRow now row writes store = (.ok task, writes', store') →
        Unpublished rest store' := by
  obtain ⟨hRow, hPending⟩ := h.2 row List.mem_cons_self
  constructor
  · refine (reaches_enqueueLocked (.relayed hRow hPending)).bind ?_
    rintro writes ⟨task, _⟩ writes' store' hRun
    obtain ⟨hHolds, hOutbox⟩ := enqueueLocked_spec hRun
    exact (reaches_persistRow (.rowMarked (hOutbox ▸ hRow) hPending hHolds)).bind_pure _
  · intro writes task writes' store' hRun
    simp only [publishRow, bind_apply] at hRun
    generalize hEnqueue : enqueueLocked row.task writes store = out at hRun
    obtain ⟨outcome, writes, middle⟩ := out
    cases outcome with
    | error e => cases hRun
    | ok out =>
      cases writes with
      | zero => cases hRun
      | succ writes =>
        cases hRun
        refine h.tail fun id hNe => ?_
        have hNe' : OutboxRecord.outboxId { row with publishedAt := some now } ≠ id := hNe.symm
        have hOutbox := (enqueueLocked_spec hEnqueue).2
        exact (Index.get?_insert_of_ne _ hNe').trans (by rw [hOutbox])

theorem reaches_cancelSelected (select : TaskRecord → Bool) (hSelect : ∀ t, select t → op.cancels t) :
    Reaches (StoreStep now op) (cancelSelected select now) store := by
  refine reaches_get_bind ?_
  refine Reaches.bind_pure (reaches_collect (Selected select) ?_ (selected_ids store select)) _
  · intro id rest store hLeft
    obtain ⟨t, hIn, hSelected⟩ := hLeft.2 id List.mem_cons_self
    have hId : t.taskId = id := Index.key_of_get? hIn
    constructor
    · refine reaches_get_bind ?_
      simp only [hIn]
      split
      · exact reaches_pure _
      · next transition t' hCancel =>
        have hStep : TaskChange now store op t t' := .cancelled (hSelect t hSelected) hCancel
        exact (reaches_persistTask (.changed (hId ▸ hIn) hStep)).bind_pure _
    · intro writes out writes' store' hRun
      simp only [get_bind, hIn] at hRun
      cases hCancel : t.cancel now with
      | none =>
        simp only [hCancel] at hRun
        cases hRun
        exact hLeft.tail
      | some landed =>
        obtain ⟨transition, t'⟩ := landed
        simp only [hCancel] at hRun
        cases writes with
        | zero => cases hRun
        | succ writes =>
          cases hRun
          have hSame : t'.taskId = t.taskId := by
            rcases (TaskRecord.cancel_eq_some hCancel).2 with ⟨-, -, rfl⟩ | ⟨-, -, rfl⟩ <;> rfl
          exact hLeft.tail_putTask (hSame.trans hId)

theorem reaches_claimTask (tenant workerId : String) (scope : ClaimScope) (leaseMs : Nat) :
    Reaches (StoreStep now (.claim tenant workerId scope leaseMs))
      (claimTask tenant workerId scope leaseMs now) store := by
  intro writes
  obtain ⟨swept, hSwept, hCases⟩ :=
    claimTask_cases tenant workerId scope leaseMs now writes store
  have hSteps := Finalizes.steps (.claim tenant workerId scope leaseMs) rfl hSwept
  rcases hCases with ⟨hState, -⟩ | ⟨t, -, hCandidate, hState, -⟩
  · rw [hState]
    exact hSteps
  · rw [hState]
    exact hSteps.tail (.changed (claimCandidate_spec hCandidate).1 (.claimed hCandidate))

theorem reaches_claimAgentTask (tenant : String) (scope : MailboxClaimScope) (leaseMs : Nat) :
    Reaches (StoreStep now (.claimAgent tenant scope leaseMs))
      (claimAgentTask tenant scope leaseMs now) store := by
  intro writes
  obtain ⟨swept, hSwept, hCases⟩ := claimAgentTask_cases tenant scope leaseMs now writes store
  have hSteps := Finalizes.steps (.claimAgent tenant scope leaseMs) rfl hSwept
  rcases hCases with ⟨hState, -⟩ | ⟨t, -, -, hTurn, hCandidate, hState, -⟩
  · rw [hState]
    exact hSteps
  · rw [hState]
    exact hSteps.tail
      (.changed (mailboxCandidate_spec hCandidate).1 (.mailboxClaimed hTurn hCandidate))

theorem reaches_reportFailure (tenant taskId workerId : String) (policy : RetryPolicyParameters)
    (payload : FailurePayload) :
    Reaches (StoreStep now (.fail tenant taskId workerId policy payload))
      (reportFailure tenant taskId workerId policy payload now) store := by
  refine reaches_get_bind (reaches_mutateTask ?_)
  intro t hIn hTenant hLease
  cases Index.key_of_get? hIn
  cases hTenant
  have hGet : store.getTask t.tenant t.taskId = some t := by
    simp [JsonFileStore.getTask, hIn, Option.filter]
  refine .failed hLease ?_
  simp only [hGet]

theorem reaches_cancelTask (tenant taskId : String) :
    Reaches (StoreStep now (.cancel tenant taskId)) (cancelTask tenant taskId now) store := by
  intro writes
  unfold Durable.state
  rcases cancelTask_run tenant taskId now writes store with
    ⟨out, left, hRun, -⟩ | ⟨t, transition, t', left, hIn, hTenant, hCancel, -, hRun⟩
  · rw [hRun]
  · cases Index.key_of_get? hIn
    have hFor : QueueOp.cancels (.cancel tenant t.taskId) t := by
      simp [QueueOp.cancels, hTenant]
    rw [hRun]
    exact .single (.changed hIn (.cancelled hFor hCancel))

theorem reaches_redriveTask (tenant taskId : String) :
    Reaches (StoreStep now (.redrive tenant taskId)) (redriveTask tenant taskId now) store := by
  refine reaches_get_bind ?_
  split
  · exact reaches_pure _
  · next t hIn =>
    cases Index.key_of_get? hIn
    split
    · exact reaches_pure _
    · next hTenant =>
      cases not_not.mp hTenant
      split
      · exact reaches_pure _
      · next t' hRedrive =>
        exact (reaches_persistTask (.changed hIn (.redriven hRedrive))).bind_pure _

theorem reaches_outboxEnqueue (task : NewTask) :
    Reaches (StoreStep now (.outboxEnqueue task)) (outboxEnqueue (.new task now) now) store := by
  refine reaches_get_bind ?_
  split
  · exact reaches_pure _
  · next hNew =>
    exact (reaches_persistRow (.rowAdded hNew)).bind_pure _

theorem reaches_outboxPublishPending (limit : Nat) :
    Reaches (StoreStep now (.publish limit)) (outboxPublishPending limit now) store := by
  refine reaches_collect Unpublished ?_ (unpublished_pendingRows store limit)
  intro row rest store hLeft
  exact publishRow_round hLeft

variable (agentId owner : String)

theorem claimActivation_cases (leaseMs : Nat) (now : Instant) (writes : Nat)
    (store : JsonFileStore) :
    ((claimActivation agentId owner leaseMs now).state writes store = store ∧
        ∀ lease, (claimActivation agentId owner leaseMs now).answer writes store ≠
          .ok (.claimed lease)) ∨
      ∃ lease : ActivationLease, lease.agentId = agentId ∧ lease.owner = owner ∧
        lease.fencing = (store.agentLeases.get? agentId).elim 1 (·.fencing + 1) ∧
        (claimActivation agentId owner leaseMs now).state writes store = store.putLease lease ∧
        (claimActivation agentId owner leaseMs now).answer writes store = .ok (.claimed lease) := by
  simp only [state, answer, claimActivation, get_bind]
  cases hLease : store.agentLeases.get? agentId with
  | none =>
    cases writes with
    | zero => exact .inl ⟨rfl, fun _ h => by cases h⟩
    | succ writes => exact .inr ⟨_, rfl, rfl, rfl, rfl, rfl⟩
  | some current =>
    by_cases hLive : now < current.expiresAt
    · simp only [hLive, ↓reduceIte]
      exact .inl ⟨rfl, by simp⟩
    · simp only [hLive, ↓reduceIte]
      cases writes with
      | zero => exact .inl ⟨rfl, fun _ h => by cases h⟩
      | succ writes => exact .inr ⟨_, rfl, rfl, rfl, rfl, rfl⟩

theorem renewActivation_cases (fencing leaseMs : Nat) (now : Instant) (writes : Nat)
    (store : JsonFileStore) :
    (renewActivation agentId owner fencing leaseMs now).state writes store = store ∨
      ∃ lease expiresAt, store.agentLeases.get? agentId = some lease ∧
        (renewActivation agentId owner fencing leaseMs now).state writes store =
          store.putLease { lease with expiresAt } := by
  simp only [state, renewActivation, get_bind]
  cases hLease : store.agentLeases.get? agentId with
  | none => exact .inl rfl
  | some lease =>
    cases hHeld : lease.heldBy owner fencing now with
    | false =>
      simp only [hHeld]
      exact .inl rfl
    | true =>
      simp only [hHeld]
      cases writes with
      | zero => exact .inl rfl
      | succ writes => exact .inr ⟨lease, _, rfl, rfl⟩

theorem releaseActivation_cases (fencing : Nat) (now : Instant) (writes : Nat)
    (store : JsonFileStore) :
    ((releaseActivation agentId owner fencing now).state writes store = store ∧
        ∀ lease, (releaseActivation agentId owner fencing now).answer writes store ≠
          .ok (.applied lease)) ∨
      ∃ lease, store.agentLeases.get? agentId = some lease ∧ lease.heldBy owner fencing now ∧
        (releaseActivation agentId owner fencing now).state writes store =
          { store with agentLeases := store.agentLeases.erase agentId } := by
  simp only [state, answer, releaseActivation, get_bind]
  cases hLease : store.agentLeases.get? agentId with
  | none => exact .inl ⟨rfl, by simp⟩
  | some lease =>
    cases hHeld : lease.heldBy owner fencing now with
    | false =>
      simp only [hHeld]
      exact .inl ⟨rfl, by simp⟩
    | true =>
      refine .inr ⟨lease, rfl, hHeld, ?_⟩
      simp only [hHeld]
      cases writes <;> rfl

/-- **Every operation is a sequence of steps**, wherever its writes stop. -/
theorem reaches_run (op : QueueOp) (now : Instant) (store : JsonFileStore) :
    Reaches (StoreStep now op) (op.run now) store := by
  cases op with
  | enqueue task | deadLetter task lastError =>
    exact (reaches_enqueueLocked (.enqueued rfl)).bind_pure _
  | outboxEnqueue task =>
    exact (reaches_outboxEnqueue task).bind_pure _
  | publish limit =>
    exact (reaches_outboxPublishPending limit).bind_pure _
  | claim tenant workerId scope leaseMs =>
    exact reaches_claimTask tenant workerId scope leaseMs
  | claimAgent tenant scope leaseMs =>
    exact (reaches_claimAgentTask tenant scope leaseMs).bind_pure _
  | heartbeat tenant taskId workerId leaseMs =>
    refine (reaches_mutateTask ?_).bind_pure _
    intro t hIn hTenant hLease
    cases Index.key_of_get? hIn
    cases hTenant
    exact .renewed hLease
  | complete tenant taskId workerId report =>
    refine (reaches_mutateTask ?_).bind_pure _
    intro t hIn hTenant hLease
    cases Index.key_of_get? hIn
    cases hTenant
    exact .completed hLease
  | fail tenant taskId workerId policy payload =>
    exact (reaches_reportFailure tenant taskId workerId policy payload).bind_pure _
  | cancel tenant taskId =>
    exact (reaches_cancelTask tenant taskId).bind_pure _
  | redrive tenant taskId =>
    exact (reaches_redriveTask tenant taskId).bind_pure _
  | cancelRun tenant runId | cancelAgent tenant recipient =>
    exact (reaches_cancelSelected _ (fun _ h => h)).bind_pure _
  | claimActivation agentId owner leaseMs =>
    intro writes
    rw [QueueOp.run, state_bind_pure]
    rcases claimActivation_cases agentId owner leaseMs now writes store with
      ⟨hState, -⟩ | ⟨lease, -, -, -, hState, -⟩ <;> rw [hState]
    exact .single (.leaseChanged rfl)
  | renewActivation agentId owner fencing leaseMs =>
    intro writes
    rw [QueueOp.run, state_bind_pure]
    rcases renewActivation_cases agentId owner fencing leaseMs now writes store with
      hState | ⟨lease, expiresAt, -, hState⟩ <;> rw [hState]
    exact .single (.leaseChanged rfl)
  | releaseActivation agentId owner fencing =>
    intro writes
    rw [QueueOp.run, state_bind_pure]
    rcases releaseActivation_cases agentId owner fencing now writes store with
      ⟨hState, -⟩ | ⟨lease, -, -, hState⟩ <;> rw [hState]
    exact .single (.leaseChanged rfl)

/-! ## Answers -/

theorem answer_of_claimsFor_eq_none (h : op.claimsFor = none) (now : Instant) (writes : Nat)
    (store : JsonFileStore) (task : TaskRecord) :
    (op.run now).answer writes store ≠ .ok (some task) := by
  have hMap {α : Type} (m : StoreM α) :
      (m >>= fun _ => (pure none : StoreM (Option TaskRecord))).answer writes store ≠
        .ok (some task) := by
    rw [answer_bind_pure]
    cases m.answer writes store <;> simp [Except.map]
  cases op with
  | claim | claimAgent => cases h
  | _ => exact hMap _

theorem claim_cases (hFor : op.claimsFor = some tenant) (now : Instant) (writes : Nat)
    (store : JsonFileStore) :
    ∃ swept, Relation.ReflTransGen (Finalizes tenant now) store swept ∧
      ((op.run now).state writes store = swept ∧
          (∀ task, (op.run now).answer writes store ≠ .ok (some task)) ∨
        ∃ t workerId leaseMs, Swept tenant now store swept ∧
          swept.tasks.get? t.taskId = some t ∧ t.tenant = tenant ∧ t.claimableAt now ∧
          (op.run now).state writes store = swept.putTask (t.claim workerId leaseMs now) ∧
          (op.run now).answer writes store = .ok (some (t.claim workerId leaseMs now))) := by
  cases op with
  | claim tenant' workerId scope leaseMs =>
    cases hFor
    obtain ⟨swept, hSteps, hCases⟩ :=
      claimTask_cases tenant workerId scope leaseMs now writes store
    refine ⟨swept, hSteps, ?_⟩
    rcases hCases with hIdle | ⟨t, hSwept, hCandidate, hState, hAnswer⟩
    · exact .inl hIdle
    · obtain ⟨hIn, hClaimable⟩ := claimCandidate_spec hCandidate
      obtain ⟨hTenant, -, hAt⟩ := claimable_spec hClaimable
      exact .inr ⟨t, workerId, _, hSwept, hIn, hTenant, hAt, hState, hAnswer⟩
  | claimAgent tenant' scope leaseMs =>
    cases hFor
    obtain ⟨swept, hSteps, hCases⟩ := claimAgentTask_cases tenant scope leaseMs now writes store
    refine ⟨swept, hSteps, ?_⟩
    rw [QueueOp.run, state_bind_pure, answer_bind_pure]
    rcases hCases with ⟨hState, hAnswer⟩ | ⟨t, -, hSwept, -, hCandidate, hState, hAnswer⟩
    · refine .inl ⟨hState, fun task hTask => ?_⟩
      cases hOutcome : (claimAgentTask tenant scope leaseMs now).answer writes store with
      | error e =>
        rw [hOutcome] at hTask
        cases hTask
      | ok outcome =>
        rw [hOutcome] at hTask
        cases outcome with
        | claimed t => exact hAnswer t hOutcome
        | empty | activationLost => cases hTask
    · obtain ⟨hIn, hTenant, -, hAt⟩ := mailboxCandidate_spec hCandidate
      refine .inr ⟨t, scope.owner, leaseMs, hSwept, hIn, hTenant, hAt, hState, ?_⟩
      rw [hAnswer]
      rfl
  | _ => cases hFor

end RustyRuntime
