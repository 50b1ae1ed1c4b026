import RustyRuntime.Server.TaskLife

/-!
# One message at a time

The messages of an agent are tasks with a recipient, and a host takes them one at a time: a
mailbox claim finds nothing while another message of the recipient is under a live lease.
Here a history has a clock, which operations advance by any delay, and `Exclusive` says that
from the present on no two messages of one recipient are both under unexpired leases.

A heartbeat asks only who owns the lease. A worker whose lease has expired can therefore renew
it while the next message is already being worked on.

Main results:

* **Exclusion.** If a message is only renewed while its lease is unexpired or no other message
  of its recipient is being worked on, leases never overlap (`exclusive_of_renewsInTurn`).
* A late heartbeat revives an expired message beside the next one (`late_heartbeat_overlaps`).
-/

namespace RustyRuntime

open Library Library.Durable

/-! ## Histories with a clock -/

structure MailboxRun where
  clock : Instant := 0
  store : JsonFileStore := {}

/-- An operation after a delay. -/
structure DelayedOp where
  delay : Nat
  op : QueueOp
  writes : Nat

def DelayedOp.eventAt (event : DelayedOp) (clock : Instant) : QueueEvent :=
  ⟨clock + event.delay, event.op, event.writes⟩

def MailboxRun.next (run : MailboxRun) (event : DelayedOp) : MailboxRun where
  clock := run.clock + event.delay
  store := run.store.next (event.eventAt run.clock)

structure SameMailbox (t s : TaskRecord) : Prop where
  tenant : s.tenant = t.tenant
  recipient : s.recipient = t.recipient
  message : t.recipient ≠ none

/-- At most one message of every recipient is under an unexpired lease. -/
def JsonFileStore.ExclusiveAt (store : JsonFileStore) (now : Instant) : Prop :=
  ∀ t ∈ store.tasks.values, ∀ s ∈ store.tasks.values,
    SameMailbox t s → t.isLive now → s.isLive now → t = s

/-- The same from the present on, until the next operation. -/
def MailboxRun.Exclusive (run : MailboxRun) : Prop :=
  ∀ now, run.clock ≤ now → run.store.ExclusiveAt now

/-- The condition on a heartbeat: the message still holds its lease, or its recipient has no
other one being worked on. -/
def JsonFileStore.renewsInTurn (store : JsonFileStore) (now : Instant) : QueueOp → Bool
  | .heartbeat tenant taskId _ _ =>
    (store.getTask tenant taskId).all fun t => t.recipient.all fun recipient =>
      t.isLive now || !store.turnInFlight tenant recipient now
  | _ => true

abbrev RenewsInTurn (run : MailboxRun) (event : DelayedOp) : Prop :=
  run.store.renewsInTurn (run.clock + event.delay) event.op

/-! ## Live leases -/

variable {t t' : TaskRecord} {store' : JsonFileStore} {now later : Instant}

theorem TaskRecord.isLive_iff :
    t.isLive now ↔ t.status = .leased ∧ ∃ lease, t.lease = some lease ∧ now < lease.expiresAt := by
  simp [isLive, Option.any_eq_true]

theorem TaskRecord.isLive_mono (hLe : now ≤ later) (h : t.isLive later) : t.isLive now := by
  obtain ⟨hStatus, lease, hLease, hLive⟩ := isLive_iff.mp h
  exact isLive_iff.mpr ⟨hStatus, lease, hLease, lt_of_le_of_lt hLe hLive⟩

theorem JsonFileStore.ExclusiveAt.mono {store : JsonFileStore} (hLe : now ≤ later)
    (h : store.ExclusiveAt now) : store.ExclusiveAt later := by
  intro t hT s hS hSame hLiveT hLiveS
  exact h t hT s hS hSame (TaskRecord.isLive_mono hLe hLiveT) (TaskRecord.isLive_mono hLe hLiveS)

theorem turnInFlight_eq_false {store : JsonFileStore} {tenant recipient : String}
    (h : store.turnInFlight tenant recipient now = false) (hIn : t ∈ store.tasks.values)
    (hTenant : t.tenant = tenant) (hRecipient : t.recipient = some recipient) : ¬ t.isLive now := by
  intro hLive
  have hNone := List.any_eq_false.mp h t hIn
  simp [hTenant, hRecipient, hLive] at hNone

variable {store : JsonFileStore} {now : Instant} {op : QueueOp}

theorem JsonFileStore.ExclusiveAt.putTask (h : store.ExclusiveAt now)
    (hAlone : t'.isLive now → ∀ s ∈ store.tasks.values, t'.taskId ≠ s.taskId →
      SameMailbox t' s → ¬ s.isLive now) : (store.putTask t').ExclusiveAt now := by
  intro t hT s hS hSame hLiveT hLiveS
  rcases Index.mem_values_insert.mp hT with rfl | ⟨hNeT, hOldT⟩
  · rcases Index.mem_values_insert.mp hS with rfl | ⟨hNeS, hOldS⟩
    · rfl
    · exact absurd hLiveS (hAlone hLiveT s hOldS hNeS hSame)
  · rcases Index.mem_values_insert.mp hS with rfl | ⟨hNeS, hOldS⟩
    · have hSame' : SameMailbox s t :=
        ⟨hSame.tenant.symm, hSame.recipient.symm, hSame.recipient ▸ hSame.message⟩
      exact absurd hLiveT (hAlone hLiveS t hOldT hNeT hSame')
    · exact h t hOldT s hOldS hSame hLiveT hLiveS

theorem JsonFileStore.ExclusiveAt.putTask_of_live (h : store.ExclusiveAt now)
    (hIn : store.tasks.get? t.taskId = some t) (hSame : t.SameTask t')
    (hLive : t'.isLive now → t.isLive now) : (store.putTask t').ExclusiveAt now := by
  refine h.putTask fun hLive' s hS hNe hMailbox hLiveS => ?_
  have hMailbox' : SameMailbox t s := by
    refine ⟨hMailbox.tenant.trans hSame.tenant, hMailbox.recipient.trans hSame.recipient, ?_⟩
    rw [← hSame.recipient]
    exact hMailbox.message
  have hEq := h t (Index.mem_values_iff.mpr hIn) s hS hMailbox' (hLive hLive') hLiveS
  apply hNe
  rw [hSame.taskId, hEq]

/-! ## Steps -/

theorem not_isLive_of_status (h : t.status ≠ .leased) : ¬ t.isLive now :=
  fun hLive => h (TaskRecord.isLive_iff.mp hLive).1

/-- A lease is live after a change only if it was before, or the change hands it out or renews
it. -/
theorem TaskChange.live_cases (hChange : TaskChange now store op t t') :
    (t'.isLive now → t.isLive now) ∨
      (∃ tenant workerId scope leaseMs, op = .claim tenant workerId scope leaseMs ∧
        store.claimCandidate tenant scope now = some t) ∨
      (∃ tenant scope leaseMs, op = .claimAgent tenant scope leaseMs ∧
        store.turnInFlight tenant scope.recipient now = false ∧
        store.mailboxCandidate tenant scope.recipient now = some t) ∨
      ∃ tenant taskId workerId leaseMs, op = .heartbeat tenant taskId workerId leaseMs := by
  have hEnded {after : TaskRecord} (hStatus : after.status ≠ .leased) :
      after.isLive now → t.isLive now :=
    fun hLive => absurd hLive (not_isLive_of_status hStatus)
  cases hChange with
  | finalized => exact .inl (hEnded (by simp [TaskRecord.applyCancellation]))
  | claimed hCandidate => exact .inr (.inl ⟨_, _, _, _, rfl, hCandidate⟩)
  | mailboxClaimed hTurn hCandidate =>
    exact .inr (.inr (.inl ⟨_, _, _, rfl, hTurn, hCandidate⟩))
  | renewed => exact .inr (.inr (.inr ⟨_, _, _, _, rfl⟩))
  | completed => exact .inl (hEnded (by simp [TaskRecord.complete]))
  | @failed workerId policy payload report _ hLease hRetry =>
    refine .inl fun hLive => ?_
    obtain ⟨-, lease, hSome, -⟩ := TaskRecord.isLive_iff.mp hLive
    cases hSome
  | cancelled hFor hCancel =>
    obtain ⟨-, ⟨-, hStatus, rfl⟩ | ⟨-, -, rfl⟩⟩ := TaskRecord.cancel_eq_some hCancel
    · exact .inl fun hLive => hLive
    · exact .inl (hEnded (by simp [TaskRecord.applyCancellation]))
  | redriven hRedrive =>
    obtain ⟨-, rfl⟩ := TaskRecord.redrive_eq_some hRedrive
    exact .inl (hEnded (by simp))

variable (hOp : ∀ tenant taskId workerId leaseMs, op ≠ .heartbeat tenant taskId workerId leaseMs)

include hOp in
theorem JsonFileStore.ExclusiveAt.changed {t t' : TaskRecord} (h : store.ExclusiveAt now)
    (hIn : store.tasks.get? t.taskId = some t) (hForm : t.WellFormed)
    (hChange : TaskChange now store op t t') : (store.putTask t').ExclusiveAt now := by
  have hSame := (hChange.progress hForm).1.same
  rcases hChange.live_cases with hKept | ⟨tenant, workerId, scope, leaseMs, -, hCandidate⟩ |
    ⟨tenant, scope, leaseMs, -, hTurn, hCandidate⟩ | ⟨tenant, taskId, workerId, leaseMs, hBeat⟩
  · exact h.putTask_of_live hIn hSame hKept
  · -- A pool claim takes no message.
    obtain ⟨-, hRecipient, -⟩ := claimable_spec (claimCandidate_spec hCandidate).2
    refine h.putTask fun _ s _ _ hMailbox => ?_
    exact absurd (hSame.recipient.trans hRecipient) hMailbox.message
  · obtain ⟨-, hTenant, hRecipient, -⟩ := mailboxCandidate_spec hCandidate
    refine h.putTask fun _ s hS _ hMailbox => ?_
    exact turnInFlight_eq_false hTurn hS ((hMailbox.tenant.trans hSame.tenant).trans hTenant)
      ((hMailbox.recipient.trans hSame.recipient).trans hRecipient)
  · exact absurd hBeat (hOp _ _ _ _)

theorem enqueues_not_leased {record : TaskRecord} (h : op.enqueues now = some record) :
    record.status ≠ .leased := by
  cases op <;> simp only [QueueOp.enqueues, reduceCtorEq, Option.some.injEq] at h
  · subst h
    simp [TaskRecord.new]
  · subst h
    simp [TaskRecord.deadLettered]

include hOp in
/-- **The step lemma**, for everything but heartbeats. -/
theorem StoreStep.exclusiveAt (hStep : StoreStep now op store store')
    (hForm : StoreForm store) (h : store.ExclusiveAt now) : store'.ExclusiveAt now := by
  cases hStep with
  | enqueued hEnters =>
    exact h.putTask fun hLive => absurd hLive (not_isLive_of_status (enqueues_not_leased hEnters))
  | relayed hRow =>
    refine h.putTask fun hLive => absurd hLive (not_isLive_of_status ?_)
    simp [(hForm.rows _ _ hRow).status]
  | changed hIn hChange => exact h.changed hOp hIn (hForm.tasks _ _ hIn) hChange
  | rowAdded | rowMarked | leaseChanged => exact h

theorem heartbeat_cases (store : JsonFileStore) (now : Instant) (tenant taskId workerId : String)
    (leaseMs writes : Nat) :
    store.next ⟨now, .heartbeat tenant taskId workerId leaseMs, writes⟩ = store ∨
      ∃ t, store.tasks.get? t.taskId = some t ∧ store.getTask tenant taskId = some t ∧
        t.tenant = tenant ∧ t.leasedTo workerId ∧ t.SameTask (t.renewLease leaseMs now) ∧
        store.next ⟨now, .heartbeat tenant taskId workerId leaseMs, writes⟩ =
          store.putTask (t.renewLease leaseMs now) := by
  have hState : store.next ⟨now, .heartbeat tenant taskId workerId leaseMs, writes⟩ =
      (heartbeatTask tenant taskId workerId leaseMs now).state writes store :=
    state_bind_pure _ _ _ _
  rw [hState]
  refine (mutateTask_cases tenant taskId workerId (·.renewLease leaseMs now) writes store).imp_right ?_
  rintro ⟨t, hIn, hTenant, hLease, hRenewed⟩
  have hId : t.taskId = taskId := Index.key_of_get? hIn
  refine ⟨t, hId ▸ hIn, ?_, hTenant, hLease, by constructor <;> rfl, hRenewed⟩
  simp [JsonFileStore.getTask, hIn, hTenant, Option.filter]

theorem JsonFileStore.ExclusiveAt.heartbeat (h : store.ExclusiveAt now)
    {tenant taskId workerId : String} {leaseMs writes : Nat}
    (hTurn : store.renewsInTurn now (.heartbeat tenant taskId workerId leaseMs)) :
    (store.next ⟨now, .heartbeat tenant taskId workerId leaseMs, writes⟩).ExclusiveAt now := by
  rcases heartbeat_cases store now tenant taskId workerId leaseMs writes with
    hSame | ⟨t, hIn, hGet, hTenant, -, hSameTask, hRenewed⟩
  · rw [hSame]
    exact h
  · rw [hRenewed]
    by_cases hLive : t.isLive now
    · exact h.putTask_of_live hIn hSameTask fun _ => hLive
    · refine h.putTask fun _ s hS _ hMailbox => ?_
      cases hRecipient : t.recipient with
      | none => exact absurd hRecipient hMailbox.message
      | some recipient =>
        simp only [JsonFileStore.renewsInTurn, hGet, hRecipient, Option.all_some, hLive,
          Bool.false_or, Bool.not_eq_true'] at hTurn
        exact turnInFlight_eq_false hTurn hS (hMailbox.tenant.trans hTenant)
          (hMailbox.recipient.trans hRecipient)

include hOp in
theorem exclusiveAt_steps (hSteps : StoreSteps now op store store')
    (hForm : StoreForm store) (h : store.ExclusiveAt now) : store'.ExclusiveAt now := by
  induction hSteps with
  | refl => exact h
  | tail hSteps hStep ih => exact hStep.exclusiveAt hOp (storeForm_steps hSteps hForm) ih

/-! ## Whole histories -/

theorem exclusiveAt_next {event : QueueEvent} (hForm : StoreForm store)
    (h : store.ExclusiveAt event.now) (hTurn : store.renewsInTurn event.now event.op) :
    (store.next event).ExclusiveAt event.now := by
  obtain ⟨now, op, writes⟩ := event
  by_cases hOp : ∃ tenant taskId workerId leaseMs, op = .heartbeat tenant taskId workerId leaseMs
  · obtain ⟨tenant, taskId, workerId, leaseMs, rfl⟩ := hOp
    exact h.heartbeat hTurn
  · refine exclusiveAt_steps ?_ (store.steps_next ⟨now, op, writes⟩) hForm h
    intro tenant taskId workerId leaseMs hEq
    exact hOp ⟨tenant, taskId, workerId, leaseMs, hEq⟩

/-- What a history keeps. -/
structure MailboxRun.Sound (run : MailboxRun) : Prop where
  form : StoreForm run.store
  exclusive : run.store.ExclusiveAt run.clock

theorem sound_next {run : MailboxRun} {event : DelayedOp} (h : run.Sound)
    (hTurn : RenewsInTurn run event) : (run.next event).Sound := by
  refine ⟨storeForm_next _ h.form, ?_⟩
  have hLater : run.clock ≤ run.clock + event.delay :=
    Int.le_add_of_nonneg_right (Int.natCast_nonneg event.delay)
  exact exclusiveAt_next h.form (h.exclusive.mono hLater) hTurn

theorem sound_start : ({} : MailboxRun).Sound := by
  refine ⟨storeForm_empty, ?_⟩
  intro t hT
  cases hT

/-- **Exclusion**, after every history whose heartbeats come in turn. -/
theorem exclusive_of_renewsInTurn (history : List DelayedOp)
    (hHistory : Admissible MailboxRun.next RenewsInTurn {} history) :
    (run MailboxRun.next {} history).Exclusive := by
  have hSound : (run MailboxRun.next {} history).Sound :=
    run_invariant (fun _ _ h hTurn => sound_next h hTurn) sound_start hHistory
  exact fun now hLater => hSound.exclusive.mono hLater

def letter (taskId : String) : NewTask :=
  { taskId, tenant := "acme", kind := "message", recipient := some "agent:bot" }

def mailbox : MailboxClaimScope := ⟨"acme--bot", "agent:bot", "host-1", 1⟩

/-- Two letters; the lease of the first one runs out after a millisecond. -/
def lettersHistory : List DelayedOp :=
  [⟨0, .claimActivation "acme--bot" "host-1" 60000, 1⟩, ⟨0, .enqueue (letter "b"), 1⟩,
    ⟨0, .claimAgent "acme" mailbox 1, 1⟩, ⟨0, .enqueue (letter "a"), 1⟩,
    ⟨2000000, .claimAgent "acme" mailbox 1000, 1⟩]

theorem exclusive_letters :
    (run MailboxRun.next {} lettersHistory).Exclusive :=
  exclusive_of_renewsInTurn lettersHistory ⟨by decide, by decide,
    by decide, by decide, by decide, trivial⟩

/-- The host that took the first letter renews its lease after the second one was claimed. -/
theorem late_heartbeat_overlaps :
    ¬ (run MailboxRun.next {}
      (lettersHistory ++ [⟨0, .heartbeat "acme" "b" "host-1" 1000, 1⟩])).Exclusive := by
  intro h
  have hLive : ∀ id ∈ ["a", "b"], ((run MailboxRun.next {}
      (lettersHistory ++ [⟨0, .heartbeat "acme" "b" "host-1" 1000, 1⟩])).store.tasks.get? id).any
      (fun t => t.tenant = "acme" && t.recipient = some "agent:bot" &&
        t.isLive 2000000) := by decide
  obtain ⟨a, hA, hLiveA⟩ := (Option.any_eq_true _ _).mp (hLive "a" (by simp))
  obtain ⟨b, hB, hLiveB⟩ := (Option.any_eq_true _ _).mp (hLive "b" (by simp))
  simp only [Bool.and_eq_true, decide_eq_true_eq] at hLiveA hLiveB
  have hClock : (run MailboxRun.next {}
      (lettersHistory ++ [⟨0, .heartbeat "acme" "b" "host-1" 1000, 1⟩])).clock = 2000000 := by
    decide
  have hMailbox : SameMailbox a b :=
    ⟨hLiveB.1.1.trans hLiveA.1.1.symm, hLiveB.1.2.trans hLiveA.1.2.symm, by simp [hLiveA.1.2]⟩
  have hEq := h 2000000 (le_of_eq hClock) a (Index.mem_values_of_get? hA) b
    (Index.mem_values_of_get? hB) hMailbox hLiveA.2 hLiveB.2
  have hIds : ("a" : String) = "b" := by
    rw [← Index.key_of_get? hA, ← Index.key_of_get? hB, hEq]
  exact absurd hIds (by decide)

end RustyRuntime
