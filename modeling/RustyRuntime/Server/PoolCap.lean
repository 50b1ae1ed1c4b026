import RustyRuntime.Server.Mailbox
import RustyRuntime.Server.Sweep

/-!
# Pool limits

A pool claim counts the unexpired leases of the tenant in each pool and passes over a pool that
is at its limit. The count is made at claims only. A heartbeat asks who owns the lease and not
whether it has expired, so a late one brings a lease back that the count had dropped; and the
claims of a mailbox hand out messages of a pool without counting it.

Main results:

* **Within the limits.** If a lease is only renewed while it is unexpired or its pool has room,
  and a message is only claimed while its pool has room, no pool ever has more unexpired leases
  than its limit (`within_of_keepsLimits`).
* A late heartbeat takes a pool over its limit (`late_heartbeat_over_limit`).
-/

namespace RustyRuntime

open Library Library.Durable

/-! ## Limits -/

section

variable (store : JsonFileStore) (limits : Std.ExtTreeMap String Nat) (now : Instant)

/-- The pool has no room for another lease. -/
def JsonFileStore.full (tenant : String) (now : Instant) (pool : String) : Bool :=
  limits[pool]?.any (· ≤ store.liveLeases tenant pool now)

def JsonFileStore.Within : Prop :=
  ∀ tenant pool limit, limits[pool]? = some limit → store.liveLeases tenant pool now ≤ limit

def QueueOp.LimitedBy : QueueOp → Prop
  | .claim _ _ scope _ => scope.poolLimits = limits
  | _ => True

def JsonFileStore.keepsLimits : QueueOp → Bool
  | .heartbeat tenant taskId workerId _ =>
    (store.getTask tenant taskId).all fun t =>
      !t.leasedTo workerId || t.isLive now || !store.full limits tenant now t.pool
  | .claimAgent tenant scope _ =>
    (store.nextMessage tenant scope.recipient now).all fun t =>
      !store.full limits tenant now t.pool
  | _ => true

/-- An operation with the limits of the history that meets the condition. -/
abbrev KeepsLimits (run : MailboxRun) (event : DelayedOp) : Prop :=
  event.op.LimitedBy limits ∧ run.store.keepsLimits limits (run.clock + event.delay) event.op

end

/-! ## Counting leases -/

/-- The filter of `liveLeases`. -/
def TaskRecord.holdsIn (tenant pool : String) (now : Instant) (t : TaskRecord) : Bool :=
  t.tenant = tenant && t.pool = pool && t.isLive now

variable {store store' : JsonFileStore} {limits : Std.ExtTreeMap String Nat} {now : Instant}
  {t t' : TaskRecord} {op : QueueOp}

theorem liveLeases_putTask (store : JsonFileStore) (t' : TaskRecord) (tenant pool : String)
    (now : Instant) :
    (store.putTask t').liveLeases tenant pool now =
      (store.tasks.values.filter fun s => t'.taskId ≠ s.taskId).countP
          (TaskRecord.holdsIn tenant pool now) +
        if t'.holdsIn tenant pool now then 1 else 0 := by
  have hPerm := Index.values_insert_perm store.tasks t'
  exact (hPerm.countP_eq _).trans List.countP_cons

theorem liveLeases_putTask_le (store : JsonFileStore) (t' : TaskRecord) (tenant pool : String)
    (now : Instant) :
    (store.putTask t').liveLeases tenant pool now ≤
      store.liveLeases tenant pool now + if t'.holdsIn tenant pool now then 1 else 0 := by
  rw [liveLeases_putTask]
  exact Nat.add_le_add_right (List.filter_sublist.countP_le) _

variable {tenant pool : String}

theorem liveLeases_putTask_of_live (hIn : store.tasks.get? t.taskId = some t)
    (hId : t'.taskId = t.taskId) (hLive : t.holdsIn tenant pool now) :
    (store.putTask t').liveLeases tenant pool now ≤ store.liveLeases tenant pool now := by
  have hFewer : (store.tasks.values.filter fun s => t'.taskId ≠ s.taskId).countP
      (TaskRecord.holdsIn tenant pool now) < store.liveLeases tenant pool now := by
    have hSplit := List.countP_eq_countP_filter_add store.tasks.values
      (TaskRecord.holdsIn tenant pool now) (fun s => t'.taskId ≠ s.taskId)
    have hOne : 0 < (store.tasks.values.filter fun s => !decide (t'.taskId ≠ s.taskId)).countP
        (TaskRecord.holdsIn tenant pool now) := by
      refine List.countP_pos_iff.mpr ⟨t, List.mem_filter.mpr ⟨Index.mem_values_iff.mpr hIn, ?_⟩,
        hLive⟩
      simp [hId]
    have hAll : store.liveLeases tenant pool now =
      store.tasks.values.countP (TaskRecord.holdsIn tenant pool now) := rfl
    omega
  rw [liveLeases_putTask]
  split <;> omega

theorem JsonFileStore.Within.mono {later : Instant} (hLe : now ≤ later)
    (h : store.Within limits now) : store.Within limits later := by
  intro tenant pool limit hLimit
  refine le_trans (List.countP_mono_left fun t _ hLive => ?_) (h tenant pool limit hLimit)
  simp only [Bool.and_eq_true, decide_eq_true_eq] at hLive ⊢
  exact ⟨hLive.1, TaskRecord.isLive_mono hLe hLive.2⟩

/-! ## Steps -/

theorem holdsIn_iff :
    t.holdsIn tenant pool now ↔ t.tenant = tenant ∧ t.pool = pool ∧ t.isLive now := by
  simp [TaskRecord.holdsIn, and_assoc]

theorem full_eq_false (h : store.full limits tenant now pool = false) {limit : Nat}
    (hLimit : limits[pool]? = some limit) : store.liveLeases tenant pool now < limit := by
  simpa [JsonFileStore.full, hLimit] using h

theorem JsonFileStore.Within.putTask (h : store.Within limits now)
    (hRoom : t'.isLive now → store.full limits t'.tenant now t'.pool = false) :
    (store.putTask t').Within limits now := by
  intro tenant pool limit hLimit
  have hBefore := h tenant pool limit hLimit
  have hAfter := liveLeases_putTask_le store t' tenant pool now
  split at hAfter
  · next hHolds =>
    obtain ⟨rfl, rfl, hLive⟩ := holdsIn_iff.mp hHolds
    have hLess := full_eq_false (hRoom hLive) hLimit
    omega
  · omega

theorem JsonFileStore.Within.putTask_of_live (h : store.Within limits now)
    (hIn : store.tasks.get? t.taskId = some t) (hSame : t.SameTask t')
    (hLive : t'.isLive now → t.isLive now) : (store.putTask t').Within limits now := by
  intro tenant pool limit hLimit
  have hBefore := h tenant pool limit hLimit
  by_cases hHolds : t'.holdsIn tenant pool now
  · obtain ⟨hTenant, hPool, hLive'⟩ := holdsIn_iff.mp hHolds
    have hHeld : t.holdsIn tenant pool now :=
      holdsIn_iff.mpr ⟨hSame.tenant ▸ hTenant, hSame.pool ▸ hPool, hLive hLive'⟩
    exact (liveLeases_putTask_of_live hIn hSame.taskId hHeld).trans hBefore
  · have hAfter := liveLeases_putTask_le store t' tenant pool now
    rw [if_neg hHolds] at hAfter
    exact hAfter.trans hBefore

section Change

variable (hLimited : op.LimitedBy limits)
  (hClaim : ∀ tenant scope leaseMs, op ≠ .claimAgent tenant scope leaseMs)
  (hBeat : ∀ tenant taskId workerId leaseMs, op ≠ .heartbeat tenant taskId workerId leaseMs)

include hLimited hClaim hBeat

theorem JsonFileStore.Within.changed (h : store.Within limits now)
    (hIn : store.tasks.get? t.taskId = some t) (hForm : t.WellFormed)
    (hChange : TaskChange now store op t t') : (store.putTask t').Within limits now := by
  have hSame := (hChange.progress hForm).1.same
  rcases hChange.live_cases with hKept | ⟨tenant, workerId, scope, leaseMs, rfl, hCandidate⟩ |
    ⟨tenant, scope, leaseMs, hOp, -⟩ | ⟨tenant, taskId, workerId, leaseMs, hOp⟩
  · exact h.putTask_of_live hIn hSame hKept
  · have hClaimable := (claimCandidate_spec hCandidate).2
    obtain ⟨hTenant, -, -⟩ := claimable_spec hClaimable
    simp only [JsonFileStore.claimable, Bool.and_eq_true, Bool.not_eq_true'] at hClaimable
    have hSaturated := hClaimable.1.2
    rw [JsonFileStore.saturated, show scope.poolLimits = limits from hLimited] at hSaturated
    refine h.putTask fun _ => ?_
    rw [hSame.tenant, hSame.pool, hTenant]
    exact hSaturated
  · exact absurd hOp (hClaim _ _ _)
  · exact absurd hOp (hBeat _ _ _ _)

/-- **The step lemma**, for everything but heartbeats and mailbox claims. -/
theorem StoreStep.within (hStep : StoreStep now op store store') (hForm : StoreForm store)
    (h : store.Within limits now) : store'.Within limits now := by
  cases hStep with
  | enqueued hEnters =>
    exact h.putTask fun hLive => absurd hLive (not_isLive_of_status (enqueues_not_leased hEnters))
  | relayed hRow =>
    refine h.putTask fun hLive => absurd hLive (not_isLive_of_status ?_)
    simp [(hForm.rows _ _ hRow).status]
  | changed hIn hChange =>
    exact h.changed hLimited hClaim hBeat hIn (hForm.tasks _ _ hIn) hChange
  | rowAdded | rowMarked | leaseChanged => exact h

theorem within_steps (hSteps : StoreSteps now op store store') (hForm : StoreForm store)
    (h : store.Within limits now) : store'.Within limits now := by
  induction hSteps with
  | refl => exact h
  | tail hSteps hStep ih =>
    exact hStep.within hLimited hClaim hBeat (storeForm_steps hSteps hForm) ih

end Change

theorem JsonFileStore.Within.heartbeat (h : store.Within limits now) {taskId workerId : String}
    {leaseMs writes : Nat}
    (hKeeps : store.keepsLimits limits now (.heartbeat tenant taskId workerId leaseMs)) :
    (store.next ⟨now, .heartbeat tenant taskId workerId leaseMs, writes⟩).Within limits now := by
  rcases heartbeat_cases store now tenant taskId workerId leaseMs writes with
    hSame | ⟨t, hIn, hGet, hTenant, hLease, hSameTask, hRenewed⟩
  · rw [hSame]
    exact h
  · rw [hRenewed]
    by_cases hLive : t.isLive now
    · exact h.putTask_of_live hIn hSameTask fun _ => hLive
    · refine h.putTask fun _ => ?_
      simp only [JsonFileStore.keepsLimits, hGet, Option.all_some, hLease, hLive, Bool.not_true,
        Bool.false_or, Bool.not_eq_true'] at hKeeps
      rw [hSameTask.tenant, hSameTask.pool, hTenant]
      exact hKeeps

/-! ## The sweep of a claim -/

section Sweep

variable {tenant : String} {swept : JsonFileStore}

theorem Swept.full_eq (h : Swept tenant now store swept) (tenant' pool : String) :
    swept.full limits tenant' now pool = store.full limits tenant' now pool := by
  rw [JsonFileStore.full, h.liveLeases_eq, JsonFileStore.full]

theorem within_finalizes (hSteps : Relation.ReflTransGen (Finalizes tenant now) store swept)
    (h : store.Within limits now) : swept.Within limits now := by
  induction hSteps with
  | refl => exact h
  | tail _ hStep ih =>
    obtain ⟨t, hIn, -, -, rfl⟩ := hStep
    refine ih.putTask_of_live hIn (t.sameTask_applyCancellation now) fun hLive => ?_
    exact absurd hLive (not_isLive_of_status (by simp [TaskRecord.applyCancellation]))

theorem JsonFileStore.Within.claimAgent (h : store.Within limits now) {scope : MailboxClaimScope}
    {leaseMs writes : Nat} (hKeeps : store.keepsLimits limits now (.claimAgent tenant scope leaseMs)) :
    (store.next ⟨now, .claimAgent tenant scope leaseMs, writes⟩).Within limits now := by
  have hState : store.next ⟨now, .claimAgent tenant scope leaseMs, writes⟩ =
      (claimAgentTask tenant scope leaseMs now).state writes store := state_bind_pure _ _ _ _
  rw [hState]
  obtain ⟨swept, hSteps, hCases⟩ := claimAgentTask_cases tenant scope leaseMs now writes store
  have hSweptWithin := within_finalizes hSteps h
  rcases hCases with ⟨hIdle, -⟩ | ⟨t, -, hSwept, -, hCandidate, hClaimed, -⟩
  · rw [hIdle]
    exact hSweptWithin
  · obtain ⟨-, hTenant, -⟩ := mailboxCandidate_spec hCandidate
    rw [hSwept.mailboxCandidate_eq] at hCandidate
    simp only [JsonFileStore.keepsLimits, hCandidate, Option.all_some, Bool.not_eq_true']
      at hKeeps
    rw [hClaimed]
    refine hSweptWithin.putTask fun _ => ?_
    rw [hSwept.full_eq]
    exact hTenant ▸ hKeeps

end Sweep

/-! ## Whole histories -/

theorem within_next {event : QueueEvent} (hForm : StoreForm store)
    (h : store.Within limits event.now) (hLimited : event.op.LimitedBy limits)
    (hKeeps : store.keepsLimits limits event.now event.op) :
    (store.next event).Within limits event.now := by
  obtain ⟨now, op, writes⟩ := event
  by_cases hClaim : ∃ tenant scope leaseMs, op = .claimAgent tenant scope leaseMs
  · obtain ⟨tenant, scope, leaseMs, rfl⟩ := hClaim
    exact h.claimAgent hKeeps
  by_cases hBeat : ∃ tenant taskId workerId leaseMs, op = .heartbeat tenant taskId workerId leaseMs
  · obtain ⟨tenant, taskId, workerId, leaseMs, rfl⟩ := hBeat
    exact h.heartbeat hKeeps
  refine within_steps hLimited ?_ ?_ (store.steps_next ⟨now, op, writes⟩) hForm h
  · intro tenant scope leaseMs hEq
    exact hClaim ⟨tenant, scope, leaseMs, hEq⟩
  · intro tenant taskId workerId leaseMs hEq
    exact hBeat ⟨tenant, taskId, workerId, leaseMs, hEq⟩

/-- What a history keeps. -/
structure MailboxRun.Limited (limits : Std.ExtTreeMap String Nat) (run : MailboxRun) : Prop where
  form : StoreForm run.store
  within : run.store.Within limits run.clock

theorem limited_next {run : MailboxRun} {event : DelayedOp} (h : run.Limited limits)
    (hKeeps : KeepsLimits limits run event) : (run.next event).Limited limits := by
  refine ⟨storeForm_next _ h.form, ?_⟩
  have hLater : run.clock ≤ run.clock + event.delay :=
    Int.le_add_of_nonneg_right (Int.natCast_nonneg event.delay)
  exact within_next h.form (h.within.mono hLater) hKeeps.1 hKeeps.2

theorem limited_start : ({} : MailboxRun).Limited limits :=
  ⟨storeForm_empty, fun _ _ _ _ => Nat.zero_le _⟩

/-- **Within the limits**, from the end of every history on whose heartbeats and mailbox claims
meet the condition. -/
theorem within_of_keepsLimits (limits : Std.ExtTreeMap String Nat) (history : List DelayedOp)
    (hHistory : Admissible MailboxRun.next (KeepsLimits limits) {} history) (now : Instant)
    (hNow : (run MailboxRun.next {} history).clock ≤ now) :
    (run MailboxRun.next {} history).store.Within limits now :=
  (run_invariant (fun _ _ h hKeeps => limited_next h hKeeps) limited_start hHistory).within.mono
    hNow

def oneLease : Std.ExtTreeMap String Nat := .insert ∅ defaultPool 1

def limitedClaim (delay : Nat) (workerId : String) (leaseMs : Nat) : DelayedOp :=
  ⟨delay, .claim "acme" workerId ⟨[defaultPool], oneLease, none, fun _ => none⟩ leaseMs, 1⟩

/-- Two jobs; the lease of the first runs out after a millisecond, and the second is claimed. -/
def jobsHistory : List DelayedOp :=
  [⟨0, .enqueue jobTask, 1⟩, limitedClaim 0 "w1" 1, ⟨0, .enqueue { jobTask with taskId := "a" }, 1⟩,
    limitedClaim 2000000 "w2" 1000]

theorem within_jobs :
    (run MailboxRun.next {} jobsHistory).store.liveLeases "acme" defaultPool 2000000 = 1 ∧
      (run MailboxRun.next {} jobsHistory).store.Within oneLease 2000000 :=
  ⟨by decide, within_of_keepsLimits oneLease jobsHistory
    ⟨⟨trivial, by decide⟩, ⟨rfl, by decide⟩, ⟨trivial, by decide⟩,
      ⟨rfl, by decide⟩, trivial⟩ 2000000 (by decide)⟩

/-- The first worker renews its lease late, and the pool of one lease has two. -/
theorem late_heartbeat_over_limit :
    ¬ (run MailboxRun.next {}
        (jobsHistory ++ [⟨0, .heartbeat "acme" "job" "w1" 1000, 1⟩])).store.Within
      oneLease 2000000 := by
  intro h
  have hTwo : (run MailboxRun.next {}
      (jobsHistory ++ [⟨0, .heartbeat "acme" "job" "w1" 1000, 1⟩])).store.liveLeases "acme"
        defaultPool 2000000 = 2 := by decide
  have hOne := h "acme" defaultPool 1 (by decide)
  omega

end RustyRuntime
