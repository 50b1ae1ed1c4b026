import RustyRuntime.Server.Sweep

/-!
# Re-driving dead tasks

A re-drive puts a dead task back into the queue as it stands, so that the next claim hands it
out as one more attempt. It leaves the cancellation flag of the record. A task that was asked to
stop while it was leased, and then failed for the last time, is dead with the flag set; the sweep
of the next claim takes the re-driven record for a cancellation nobody answered and ends it.

Main results:

* **When a re-driven task is handed out** (`redriven_handed_out_iff`): exactly if it was not asked
  to stop before it died, and its attempts can still be counted.
* A task that was asked to stop is cancelled by the claim after its re-drive
  (`redriven_cancelled`).
-/

namespace RustyRuntime

open Library Library.Durable

/-- The turn of a task: a claim that takes it if nothing asks it to stop. The claim is for its
pool and version or for its mailbox, there is room for it, its deadline has not passed, and
whatever else the claim may hand out is younger. -/
def QueueOp.reachesTask (now : Instant) (store : JsonFileStore) (t : TaskRecord) : QueueOp → Bool
  | .claim tenant _ scope _ =>
    t.tenant = tenant && t.recipient.isNone && scope.pools.contains t.pool &&
      t.matchesWorkerVersion scope.workerVersion && t.deadline.all (now < ·) &&
      !store.saturated tenant scope now t.pool &&
      (store.tasks.values.filter (store.eligible tenant scope now)).all fun other =>
        other.taskId = t.taskId || decide (t.age < other.age)
  | .claimAgent tenant scope _ =>
    t.tenant = tenant && t.recipient = some scope.recipient && t.deadline.all (now < ·) &&
      (store.agentLeases.get? scope.agentId).any (·.heldBy scope.owner scope.fencing now) &&
      !store.turnInFlight tenant scope.recipient now &&
      (store.tasks.values.filter (·.deliverable tenant scope.recipient now)).all fun other =>
        other.taskId = t.taskId || decide (t.age < other.age)
  | _ => false

def QueueOp.HandsOut (now : Instant) (writes : Nat) (store : JsonFileStore) (t : TaskRecord)
    (op : QueueOp) : Prop :=
  ∃ leased, (op.run now).answer writes store = .ok (some leased) ∧ leased.taskId = t.taskId ∧
    leased.attempt.toNat = t.attempt.toNat + 1

variable {store : JsonFileStore} {now : Instant} {t t' : TaskRecord}

variable {p : TaskRecord → Bool}

/-- The task is picked from those that a filter admits exactly if the filter admits it, when it
is their turn. -/
theorem oldest_eq_some_iff (hIn : store.tasks.get? t.taskId = some t)
    (hTurn : (store.tasks.values.filter p).all fun other =>
      other.taskId = t.taskId || decide (t.age < other.age)) :
    oldest (store.tasks.values.filter p) = some t ↔ p t := by
  have hKey : Set.InjOn TaskRecord.age {s | s ∈ store.tasks.values.filter p} :=
    (age_injOn store).mono fun s hS => (List.mem_filter.mp hS).1
  rw [oldest, minByKey_eq_iff hKey]
  constructor
  · exact fun h => (List.mem_filter.mp h.1).2
  · intro hP
    refine ⟨List.mem_filter.mpr ⟨Index.mem_values_iff.mpr hIn, hP⟩, fun other hOther => ?_⟩
    have hYounger := List.all_eq_true.mp hTurn other hOther
    simp only [Bool.or_eq_true, decide_eq_true_eq] at hYounger
    rcases hYounger with hSame | hLt
    · have hOther' := Index.mem_values_iff.mp (List.mem_filter.mp hOther).1
      rw [hSame, hIn] at hOther'
      rw [Option.some.inj hOther']
    · exact hLt.le

theorem oldest_mem (hIn : store.tasks.get? t.taskId = some t) {c : TaskRecord}
    (h : oldest (store.tasks.values.filter p) = some c) (hId : c.taskId = t.taskId) : c = t := by
  have hC := Index.mem_values_iff.mp (List.mem_filter.mp (mem_of_oldest h)).1
  rw [hId, hIn] at hC
  exact (Option.some.inj hC).symm

theorem toNat_saturatingSucc_eq_iff (n : UInt32) :
    (saturatingSucc n).toNat = n.toNat + 1 ↔ n ≠ 4294967295 := by
  constructor
  · rintro h rfl
    exact absurd h (by decide)
  · intro hNe
    have hBound : n.toNat < 4294967296 := n.toNat_lt
    have hNat : n.toNat ≠ 4294967295 := fun hEq => hNe (UInt32.toNat_inj.mp hEq)
    have hLt : n < 4294967295 := by
      change n.toNat < 4294967295
      omega
    exact toNat_saturatingSucc_of_lt hLt

theorem cancellationDue_of_queued (hQueued : t.status = .queued)
    (hDeadline : t.deadline.all (now < ·)) : t.cancellationDue now = t.cancelRequested := by
  have hNot : t.deadline.any (· ≤ now) = false := by
    cases hSome : t.deadline with
    | none => rfl
    | some deadline => simpa [hSome] using hDeadline
  simp [TaskRecord.cancellationDue, TaskRecord.claimableAt, hQueued, hNot]

section Turn

variable {op : QueueOp} {writes : Nat}

theorem handsOut_of_answer {p : TaskRecord → Bool} {lease : TaskRecord → TaskRecord}
    (hIn : store.tasks.get? t.taskId = some t)
    (hAnswer : (op.run now).answer writes store =
      .ok ((oldest (store.tasks.values.filter p)).map lease))
    (hLease : ∀ s, (lease s).taskId = s.taskId ∧ (lease s).attempt = saturatingSucc s.attempt)
    (hTurn : (store.tasks.values.filter p).all fun other =>
      other.taskId = t.taskId || decide (t.age < other.age)) :
    op.HandsOut now writes store t ↔ p t ∧ t.attempt ≠ 4294967295 := by
  rw [← toNat_saturatingSucc_eq_iff]
  constructor
  · rintro ⟨leased, hOk, hId, hCount⟩
    rw [hAnswer, Except.ok.injEq, Option.map_eq_some_iff] at hOk
    obtain ⟨c, hOldest, rfl⟩ := hOk
    obtain rfl := oldest_mem hIn hOldest ((hLease c).1.symm.trans hId)
    exact ⟨(oldest_eq_some_iff hIn hTurn).mp hOldest, (hLease c).2 ▸ hCount⟩
  · rintro ⟨hP, hCount⟩
    have hOldest := (oldest_eq_some_iff hIn hTurn).mpr hP
    refine ⟨lease t, ?_, (hLease t).1, (hLease t).2 ▸ hCount⟩
    rw [hAnswer, hOldest, Option.map_some]

/-- A queued task in its turn is handed out exactly if nobody asked it to stop and its attempts
can be counted on. -/
theorem handsOut_iff (hIn : store.tasks.get? t.taskId = some t) (hQueued : t.status = .queued)
    (hReaches : op.reachesTask now store t) (hWrites : store.tasks.values.length < writes) :
    op.HandsOut now writes store t ↔ t.cancelRequested = false ∧ t.attempt ≠ 4294967295 := by
  have hAt : t.claimableAt now := by simp [TaskRecord.claimableAt, hQueued]
  cases op with
  | claim tenant workerId scope leaseMs =>
    simp only [QueueOp.reachesTask, Bool.and_eq_true, decide_eq_true_eq, Bool.not_eq_true']
      at hReaches
    obtain ⟨⟨⟨⟨⟨⟨hTenant, hRecipient⟩, hPool⟩, hVersion⟩, hDeadline⟩, hRoom⟩, hTurn⟩ := hReaches
    have hEligible : store.eligible tenant scope now t ↔ t.cancelRequested = false := by
      simp only [JsonFileStore.eligible, TaskRecord.inScope, hTenant, hRecipient, hPool, hVersion,
        hAt, hRoom, cancellationDue_of_queued hQueued hDeadline, decide_true, Bool.true_and,
        Bool.not_false, Bool.and_true, Bool.not_eq_true']
    have hAnswer : (QueueOp.run now (.claim tenant workerId scope leaseMs)).answer writes store =
        _ := claimTask_answer hWrites workerId leaseMs
    rw [← hEligible]
    exact handsOut_of_answer hIn hAnswer (fun _ => ⟨rfl, rfl⟩) hTurn
  | claimAgent tenant scope leaseMs =>
    simp only [QueueOp.reachesTask, Bool.and_eq_true, decide_eq_true_eq, Bool.not_eq_true']
      at hReaches
    obtain ⟨⟨⟨⟨⟨hTenant, hRecipient⟩, hDeadline⟩, hHeld⟩, hQuiet⟩, hTurn⟩ := hReaches
    have hDeliverable : t.deliverable tenant scope.recipient now ↔ t.cancelRequested = false := by
      simp [TaskRecord.deliverable, hTenant, hRecipient, hAt,
        cancellationDue_of_queued hQueued hDeadline]
    rw [← hDeliverable]
    have hAnswer : (QueueOp.run now (.claimAgent tenant scope leaseMs)).answer writes store =
        .ok ((store.nextMessage tenant scope.recipient now).map
          fun s => s.claim scope.owner leaseMs now) := by
      rw [QueueOp.run, answer_bind_pure, claimAgentTask_answer hWrites leaseMs hHeld hQuiet]
      cases store.nextMessage tenant scope.recipient now <;> rfl
    exact handsOut_of_answer hIn hAnswer (fun _ => ⟨rfl, rfl⟩) hTurn
  | _ => cases hReaches

end Turn

theorem get?_redrive {tenant taskId : String} (writes : Nat)
    (hTask : store.getTask tenant taskId = some t) (hRedrive : t.redrive now = some t') :
    (store.next ⟨now, .redrive tenant taskId, writes + 1⟩).tasks.get? taskId = some t' := by
  obtain ⟨hIn, hTenant⟩ := Option.filter_eq_some_iff.mp hTask
  have hId : t'.taskId = taskId := by
    obtain ⟨-, rfl⟩ := TaskRecord.redrive_eq_some hRedrive
    exact (Index.key_of_get? hIn : t.taskId = taskId)
  have hState : store.next ⟨now, .redrive tenant taskId, writes + 1⟩ =
      (redriveTask tenant taskId now).state (writes + 1) store := state_bind_pure _ _ _ _
  rw [decide_eq_true_eq] at hTenant
  rw [hState]
  simp only [state, redriveTask, get_bind, hIn, hTenant, ne_eq, not_true_eq_false, if_false,
    hRedrive]
  rw [← hId]
  exact Index.get?_insert_self store.tasks t'

/-- **When a re-driven task is handed out** by the next claim that reaches it. -/
theorem redriven_handed_out_iff (history more : List QueueEvent) {tenant taskId : String}
    {redrivenAt : Instant} {writes : Nat} {redriven : JsonFileStore}
    (hTask : (run JsonFileStore.next {} history).getTask tenant taskId = some t)
    (hRedrive : t.redrive redrivenAt = some t')
    (hRedriven : redriven =
      (run JsonFileStore.next {} history).next ⟨redrivenAt, .redrive tenant taskId, writes + 1⟩)
    (hStore : store = run JsonFileStore.next redriven more)
    (hKept : store.tasks.get? taskId = redriven.tasks.get? taskId) (claim : QueueEvent)
    (hReaches : claim.op.reachesTask claim.now store t')
    (hWrites : store.tasks.values.length < claim.writes) :
    claim.op.HandsOut claim.now claim.writes store t ↔
      t.cancelRequested = false ∧ t.attempt ≠ 4294967295 := by
  have hStored := get?_redrive writes hTask hRedrive
  rw [← hRedriven, ← hKept] at hStored
  have hId : t'.taskId = taskId := Index.key_of_get? hStored
  rw [← hId] at hStored
  have hQueued : t'.status = .queued := by
    obtain ⟨-, rfl⟩ := TaskRecord.redrive_eq_some hRedrive
    rfl
  have hIff := handsOut_iff hStored hQueued hReaches hWrites
  obtain ⟨-, rfl⟩ := TaskRecord.redrive_eq_some hRedrive
  exact hIff

/-- A task of one attempt, leased, what happens to it meanwhile, and its failure; it is then
dead. -/
def diedHistory (meanwhile : List QueueEvent) : List QueueEvent :=
  ⟨0, .enqueue { jobTask with maxAttempts := 1 }, 1⟩ :: jobClaim :: meanwhile ++
    [⟨3, .fail "acme" "job" "worker-1" .staticV0
      { errorClass := .transient, message := "no", retryable := true }, 1⟩]

def diedJob (meanwhile : List QueueEvent) : JsonFileStore :=
  run JsonFileStore.next {} (diedHistory meanwhile)

def redriveJob : QueueEvent := ⟨4, .redrive "acme" "job", 1⟩

def reclaimJob : QueueEvent := ⟨5, .claim "acme" "worker-2" { pools := [defaultPool] } 1000, 2⟩

def deadJob : TaskRecord := ((diedJob []).getTask "acme" "job").getD (.new jobTask 0)

theorem redriven_handed_out :
    deadJob.status = .dead ∧ reclaimJob.op.HandsOut reclaimJob.now reclaimJob.writes
      ((diedJob []).next redriveJob) deadJob := by
  have hTask : (diedJob []).getTask "acme" "job" = some deadJob := by decide
  have hRedrive : deadJob.redrive 4 = some ((deadJob.redrive 4).getD deadJob) := by decide
  have hRedriven : (diedJob []).next redriveJob =
      (run JsonFileStore.next {} (diedHistory [])).next ⟨4, .redrive "acme" "job", 0 + 1⟩ := rfl
  have hIff := redriven_handed_out_iff (diedHistory []) [] hTask hRedrive hRedriven rfl rfl
    reclaimJob (by decide) (by decide)
  exact ⟨by decide, hIff.mpr ⟨by decide, by decide⟩⟩

/-- Asked to stop while it ran, the task is dead with the flag; the claim that reaches it after
its re-drive hands out nothing and cancels it. -/
theorem redriven_cancelled :
    (diedJob [⟨2, .cancel "acme" "job", 1⟩]).statusOf "job" = some .dead ∧
      (((diedJob [⟨2, .cancel "acme" "job", 1⟩]).next redriveJob).getTask "acme" "job").any
        (fun t => t.status = .queued && reclaimJob.op.reachesTask reclaimJob.now
          ((diedJob [⟨2, .cancel "acme" "job", 1⟩]).next redriveJob) t) ∧
      (reclaimJob.op.run reclaimJob.now).answer reclaimJob.writes
        ((diedJob [⟨2, .cancel "acme" "job", 1⟩]).next redriveJob) = .ok none ∧
      (((diedJob [⟨2, .cancel "acme" "job", 1⟩]).next redriveJob).next reclaimJob).statusOf "job" =
        some .cancelled := by
  decide

end RustyRuntime
