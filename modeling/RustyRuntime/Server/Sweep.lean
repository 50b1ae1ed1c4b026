import RustyRuntime.Server.TaskLife

/-!
# Claims and their sweep

Every claim of the file backend first finalizes what is due and then picks a candidate from
what is left. Here both are said of the store before the claim: the sweep frees no lease and
gives none (`Swept.isLive`, `Swept.liveLeases_eq`), and the candidate is the oldest of the tasks
that the claim admits and that are not due (`claimTask_answer`, `claimAgentTask_answer`).
-/

namespace RustyRuntime

open Library Library.Durable

/-! ## What a claim may hand out -/

section Conditions

variable (store : JsonFileStore) (tenant : String) (scope : ClaimScope) (now : Instant)

/-- What a pool claim asks of a record besides its status and the load of its pool. -/
def TaskRecord.inScope (t : TaskRecord) : Bool :=
  t.tenant = tenant && t.recipient.isNone && scope.pools.contains t.pool &&
    t.matchesWorkerVersion scope.workerVersion && !t.cancellationDue now

/-- The records that the file backend may hand out. -/
def JsonFileStore.eligible (t : TaskRecord) : Bool :=
  t.inScope tenant scope now && t.claimableAt now && !store.saturated tenant scope now t.pool

end Conditions

/-- The messages that a mailbox claim may hand out. -/
def TaskRecord.deliverable (tenant recipient : String) (now : Instant) (t : TaskRecord) : Bool :=
  t.tenant = tenant && t.recipient = some recipient && t.claimableAt now && !t.cancellationDue now

def JsonFileStore.nextMessage (store : JsonFileStore) (tenant recipient : String)
    (now : Instant) : Option TaskRecord :=
  oldest (store.tasks.values.filter (·.deliverable tenant recipient now))

/-! ## The sweep -/

variable {store swept : JsonFileStore} {tenant : String} {scope : ClaimScope} {now : Instant}
  {t : TaskRecord}

theorem cancellationDue_of_isLive (h : t.isLive now) : t.cancellationDue now = false := by
  simp only [TaskRecord.isLive, Bool.and_eq_true, decide_eq_true_eq, Option.any_eq_true] at h
  obtain ⟨hStatus, lease, hLease, hLive⟩ := h
  simp [TaskRecord.cancellationDue, TaskRecord.claimableAt, hStatus, hLease, hLive]

theorem isLive_settleDue (tenant : String) (now : Instant) (t : TaskRecord) :
    (t.settleDue tenant now).isLive now = t.isLive now := by
  unfold TaskRecord.settleDue
  split
  · next hDue =>
    have hNot : t.isLive now = false := by
      by_contra hLive
      have hNever := cancellationDue_of_isLive (Bool.not_eq_false _ ▸ hLive)
      rw [hDue.2] at hNever
      cases hNever
    rw [hNot]
    simp [TaskRecord.isLive, TaskRecord.applyCancellation]
  · rfl

theorem sameTask_settleDue (tenant : String) (now : Instant) (t : TaskRecord) :
    t.SameTask (t.settleDue tenant now) := by
  unfold TaskRecord.settleDue
  split
  · exact t.sameTask_applyCancellation now
  · exact .refl t

theorem Swept.values_perm (h : Swept tenant now store swept) :
    swept.tasks.values.Perm (store.tasks.values.map (·.settleDue tenant now)) := by
  have hNodup : (store.tasks.values.map (·.settleDue tenant now)).Nodup := by
    refine List.Nodup.of_map TaskRecord.taskId ?_
    rw [List.map_map]
    have hSame : TaskRecord.taskId ∘ (·.settleDue tenant now) = TaskRecord.taskId :=
      funext fun t => (sameTask_settleDue tenant now t).taskId
    rw [hSame]
    exact Index.nodup_keys_values store.tasks
  refine (List.perm_ext_iff_of_nodup (Index.nodup_values _) hNodup).mpr fun t => ?_
  rw [Index.mem_values_iff, h.tasks, List.mem_map]
  constructor
  · intro hGet
    obtain ⟨before, hBefore, hEq⟩ := Option.map_eq_some_iff.mp hGet
    exact ⟨before, Index.mem_values_of_get? hBefore, hEq⟩
  · rintro ⟨before, hBefore, rfl⟩
    rw [(sameTask_settleDue tenant now before).taskId, Index.mem_values_iff.mp hBefore,
      Option.map_some]

theorem Swept.liveLeases_eq (h : Swept tenant now store swept) (tenant' pool : String) :
    swept.liveLeases tenant' pool now = store.liveLeases tenant' pool now := by
  unfold JsonFileStore.liveLeases
  rw [h.values_perm.countP_eq, List.countP_map]
  refine List.countP_congr fun t _ => ?_
  have hSame := sameTask_settleDue tenant now t
  simp [isLive_settleDue, hSame.tenant, hSame.pool]

theorem Swept.turnInFlight_eq (h : Swept tenant now store swept) (tenant' recipient : String) :
    swept.turnInFlight tenant' recipient now = store.turnInFlight tenant' recipient now := by
  unfold JsonFileStore.turnInFlight
  rw [h.values_perm.any_eq, List.any_map]
  refine List.any_congr rfl fun t => ?_
  have hSame := sameTask_settleDue tenant now t
  simp [isLive_settleDue, hSame.tenant, hSame.recipient]

/-! ## Candidates -/

theorem age_injOn (store : JsonFileStore) :
    Set.InjOn TaskRecord.age {t | t ∈ store.tasks.values} := by
  intro a hA b hB hAge
  have hIds : a.taskId = b.taskId := congrArg (fun age => (ofLex age).2) hAge
  have hGetA := Index.mem_values_iff.mp hA
  rw [hIds, Index.mem_values_iff.mp hB] at hGetA
  exact (Option.some.inj hGetA).symm

theorem filter_map_of_kept {α β : Type} {f g : α → β} {p : β → Bool} {q : α → Bool}
    (hFilter : ∀ x, p (f x) = q x) (hMap : ∀ x, q x → f x = g x) (xs : List α) :
    (xs.map f).filter p = (xs.filter q).map g := by
  have hSame : p ∘ f = q := funext hFilter
  rw [List.filter_map, hSame]
  exact List.map_congr_left fun x hX => hMap x (List.mem_filter.mp hX).2

theorem Swept.oldest_eq (h : Swept tenant now store swept) {p q : TaskRecord → Bool}
    (hAdmits : ∀ t, p (t.settleDue tenant now) = q t)
    (hDue : ∀ t, q t → t.cancellationDue now = false) :
    oldest (swept.tasks.values.filter p) = oldest (store.tasks.values.filter q) := by
  have hKept (t : TaskRecord) (hQ : q t) : t.settleDue tenant now = id t := by
    refine if_neg fun hBoth => ?_
    rw [hDue t hQ] at hBoth
    cases hBoth.2
  have hRows : (swept.tasks.values.filter p).Perm (store.tasks.values.filter q) := by
    refine (h.values_perm.filter _).trans (List.Perm.of_eq ?_)
    rw [filter_map_of_kept hAdmits hKept, List.map_id]
  refine minByKey_eq_of_perm ((age_injOn swept).mono fun t hT => ?_) hRows
  exact (List.mem_filter.mp hT).1

theorem Swept.claimCandidate_eq (h : Swept tenant now store swept) (scope : ClaimScope) :
    swept.claimCandidate tenant scope now =
      oldest (store.tasks.values.filter (store.eligible tenant scope now)) := by
  refine h.oldest_eq (fun t => ?_) fun t hEligible => ?_
  · unfold JsonFileStore.claimable JsonFileStore.eligible JsonFileStore.saturated
      TaskRecord.inScope TaskRecord.settleDue
    by_cases hDue : t.tenant = tenant ∧ t.cancellationDue now
    · simp [hDue.1, hDue.2, TaskRecord.applyCancellation, TaskRecord.claimableAt]
    · rw [if_neg hDue, h.liveLeases_eq, Bool.eq_iff_iff]
      simp only [Bool.and_eq_true, decide_eq_true_eq, Bool.not_eq_true']
      constructor
      · rintro ⟨⟨⟨⟨⟨hTenant, hRecipient⟩, hPool⟩, hAt⟩, hFree⟩, hVersion⟩
        have hNotDue : t.cancellationDue now = false := by simpa [hTenant] using hDue
        exact ⟨⟨⟨⟨⟨⟨hTenant, hRecipient⟩, hPool⟩, hVersion⟩, hNotDue⟩, hAt⟩, hFree⟩
      · rintro ⟨⟨⟨⟨⟨⟨hTenant, hRecipient⟩, hPool⟩, hVersion⟩, -⟩, hAt⟩, hFree⟩
        exact ⟨⟨⟨⟨⟨hTenant, hRecipient⟩, hPool⟩, hAt⟩, hFree⟩, hVersion⟩
  · simp only [JsonFileStore.eligible, TaskRecord.inScope, Bool.and_eq_true,
      Bool.not_eq_true'] at hEligible
    exact hEligible.1.1.2

theorem Swept.mailboxCandidate_eq (h : Swept tenant now store swept) (recipient : String) :
    swept.mailboxCandidate tenant recipient now = store.nextMessage tenant recipient now := by
  refine h.oldest_eq (fun t => ?_) fun t hDeliverable => ?_
  · unfold TaskRecord.deliverable TaskRecord.settleDue
    by_cases hDue : t.tenant = tenant ∧ t.cancellationDue now
    · simp [hDue.1, hDue.2, TaskRecord.applyCancellation, TaskRecord.claimableAt]
    · rw [if_neg hDue, Bool.eq_iff_iff]
      simp only [Bool.and_eq_true, decide_eq_true_eq, Bool.not_eq_true']
      constructor
      · rintro ⟨⟨hTenant, hRecipient⟩, hAt⟩
        exact ⟨⟨⟨hTenant, hRecipient⟩, hAt⟩, by simpa [hTenant] using hDue⟩
      · exact fun hAll => hAll.1
  · simp only [TaskRecord.deliverable, Bool.and_eq_true, Bool.not_eq_true'] at hDeliverable
    exact hDeliverable.2

/-! ## Answers -/

variable {writes : Nat}

theorem finalizeDueLocked_total (tenant : String) (now : Instant)
    (hWrites : store.tasks.values.length ≤ writes) :
    ∃ left swept, finalizeDueLocked tenant now writes store = (.ok (), left, swept) ∧
      writes ≤ left + store.tasks.values.length := by
  have hRound (id : String) (store : JsonFileStore) (writes : Nat) : ∃ left store',
      finalizeOne now id (writes + 1) store = (.ok (), left, store') ∧ writes ≤ left := by
    rw [finalizeOne, get_bind]
    cases store.tasks.get? id with
    | none => exact ⟨writes + 1, store, rfl, Nat.le_succ _⟩
    | some t => exact ⟨writes, store.putTask (t.applyCancellation now), rfl, Nat.le_refl _⟩
  have hDue : ((store.tasks.values.filter fun t =>
      t.tenant = tenant && t.cancellationDue now).map TaskRecord.taskId).length ≤
        store.tasks.values.length := by
    rw [List.length_map]
    exact List.length_filter_le _ _
  obtain ⟨left, swept, hRun, hUsed⟩ := each_total hRound _ store writes (le_trans hDue hWrites)
  exact ⟨left, swept, hRun, by omega⟩

/-- With a write for each task and one for the lease, the claim of the file backend leases its
candidate. -/
theorem claimTask_answer (hWrites : store.tasks.values.length < writes) (workerId : String)
    (leaseMs : Nat) :
    (claimTask tenant workerId scope leaseMs now).answer writes store =
      .ok ((oldest (store.tasks.values.filter (store.eligible tenant scope now))).map fun t =>
        t.claim workerId (policyLeaseMs scope t.kind leaseMs) now) := by
  obtain ⟨left, swept, hSweep, hUsed⟩ := finalizeDueLocked_total tenant now hWrites.le
  have hCandidate := (finalizeDueLocked_ok hSweep).claimCandidate_eq scope
  simp only [answer, claimTask, bind_apply, hSweep, Durable.get]
  rw [hCandidate]
  cases oldest (store.tasks.values.filter (store.eligible tenant scope now)) with
  | none => rfl
  | some t =>
    obtain ⟨left, rfl⟩ : ∃ n, left = n + 1 := ⟨left - 1, by omega⟩
    rfl

theorem claimAgentTask_answer {scope : MailboxClaimScope}
    (hWrites : store.tasks.values.length < writes) (leaseMs : Nat)
    (hHeld : (store.agentLeases.get? scope.agentId).any (·.heldBy scope.owner scope.fencing now))
    (hTurn : store.turnInFlight tenant scope.recipient now = false) :
    (claimAgentTask tenant scope leaseMs now).answer writes store =
      .ok ((store.nextMessage tenant scope.recipient now).elim .empty fun t =>
        .claimed (t.claim scope.owner leaseMs now)) := by
  obtain ⟨left, swept, hSweep, hUsed⟩ := finalizeDueLocked_total tenant now hWrites.le
  have hSwept := finalizeDueLocked_ok hSweep
  have hCandidate := hSwept.mailboxCandidate_eq scope.recipient
  have hQuiet := (hSwept.turnInFlight_eq tenant scope.recipient).trans hTurn
  obtain ⟨lease, hLease, hHeld⟩ := (Option.any_eq_true _ _).mp hHeld
  simp only [answer, claimAgentTask, hLease, hHeld, Bool.not_true, Bool.false_eq_true, ↓reduceIte,
    bind_apply, hSweep, Durable.get, hQuiet, hCandidate]
  cases store.nextMessage tenant scope.recipient now with
  | none => rfl
  | some t =>
    obtain ⟨left, rfl⟩ : ∃ n, left = n + 1 := ⟨left - 1, by omega⟩
    rfl

end RustyRuntime
