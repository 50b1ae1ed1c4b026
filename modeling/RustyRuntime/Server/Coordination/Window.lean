import RustyRuntime.Server.Coordination.Members

/-!
# What drives keep

A coordination as `submit_coordination` creates it is driven any number of times. Between drives
the queue does anything that spares the members' tasks, so that they are claimed, finish, fail and
are cancelled in any order. No write of a drive fails; a drive may still answer with an error, if
an agent is no longer registered.

Main results, for every such run:

* **Every event of the journal is the start, the end, or the submission or settlement of a member,
  and none of them is there twice**, and **a fan-out never has more members submitted and not
  terminal than its window allows** (`drives_sound`).

The invariant (`Coordinated`) says that a task or a row under a member's id has its submission in
the journal. The rows and the journal are written one after the other, so this is where a failed
write would break it.
-/

namespace RustyRuntime

open Library Library.Durable

/-! ## The submitted record -/

/-- `RESERVED_MEMBER_NAMES`. -/
def reservedMemberNames : List String := ["outcome", "race-dlq"]

def validateMemberName (d : Delegation) : Except ApiError Unit :=
  match validateMemberLabel "member" d.member with
  | .error e => .error (.badRequest e)
  | .ok () =>
    if d.member ∈ reservedMemberNames then
      .error (.badRequest (s!"member name `{d.member}` is reserved " ++
        "(it would collide with the pattern's own derived tasks)"))
    else .ok ()

/-- The checks that `submit_coordination` makes on the contract and the names in it. -/
def validateSubmission (coordinationId : String) (contract : CoordinationContract) :
    Except ApiError Unit := do
  contract.validate.mapError (.badRequest ·.message)
  validateClientId "coordination_id" coordinationId
  contract.members.forM validateMemberName

/-- The record that `submit_coordination` creates. -/
def CoordinationRecord.submitted (tenant coordinationId : String)
    (delegator parent : Option String) (contract : CoordinationContract) (now : Instant) :
    CoordinationRecord where
  coordinationId := scopeId tenant coordinationId
  delegator
  parent
  contract
  members := contract.members.map fun d =>
    { member := d.member
      agentId := d.agentId
      manifestVersion := d.manifestVersion
      taskId := memberTaskId tenant coordinationId d.member }
  createdAt := now
  updatedAt := now

def CoordinationRecord.roster (record : CoordinationRecord) : List (String × String) :=
  record.members.map fun m => (m.member, m.taskId)

def ownedTasks (external : String) (roster : List (String × String)) : List (String × String) :=
  roster.map fun p => (p.2, memberIdempotencyKey external p.1)

/-- The roster of a coordination that was accepted. -/
structure Enrolled (tenant external : String) (roster : List (String × String)) : Prop where
  names : (roster.map Prod.fst).Nodup
  taskIds : ∀ p ∈ roster, p.2 = memberTaskId tenant external p.1
  unreserved : ∀ p ∈ roster, p.1 ∉ reservedMemberNames

section Names

variable {tenant external : String} {roster : List (String × String)}

theorem memberTaskId_inj {m m' : String}
    (h : memberTaskId tenant external m = memberTaskId tenant external m') : m = m' := by
  have hList : ∀ m : String, (memberTaskId tenant external m).toList =
      (tenant.toList ++ '-' :: '-' :: external.toList ++ ['-', '-']) ++ m.toList := by
    simp [memberTaskId, toString]
  rw [← String.toList_inj, hList, hList, List.append_cancel_left_eq] at h
  exact String.toList_inj.mp h

theorem Enrolled.eq_of_taskId (h : Enrolled tenant external roster) {p q : String × String}
    (hP : p ∈ roster) (hQ : q ∈ roster) (hSame : p.2 = q.2) : p = q := by
  have hName : p.1 = q.1 := by
    rw [h.taskIds p hP, h.taskIds q hQ] at hSame
    exact memberTaskId_inj hSame
  exact Prod.ext hName hSame

theorem Enrolled.notMem_owned (h : Enrolled tenant external roster) {name : String}
    (hName : name ∈ reservedMemberNames) :
    memberTaskId tenant external name ∉ (ownedTasks external roster).map Prod.fst := by
  rw [ownedTasks, List.map_map]
  intro hIn
  obtain ⟨p, hP, hSame⟩ := List.mem_map.mp hIn
  rw [Function.comp_apply, h.taskIds p hP] at hSame
  exact h.unreserved p hP (memberTaskId_inj hSame ▸ hName)

theorem outcomeTaskId_eq : outcomeTaskId tenant external =
    memberTaskId tenant external "outcome" :=
  (MemberRef.names_outcome ⟨tenant, external, ""⟩).1.symm

theorem raceDlqTaskId_eq : raceDlqTaskId tenant external =
    memberTaskId tenant external "race-dlq" :=
  (MemberRef.names_raceDlq ⟨tenant, external, ""⟩).1.symm

theorem external_of_scopeId {record : CoordinationRecord} {id : String}
    (hId : record.coordinationId = scopeId tenant id) (hSlash : '/' ∉ id.toList) :
    record.external tenant = id := by
  have hStart : (s!"{tenant}/" : String).toList = tenant.toList ++ ['/'] := by simp [toString]
  unfold CoordinationRecord.external
  rw [hId, scopeId]
  split
  · have hNone : stripStart s!"{tenant}/" id = none := by
      rw [stripStart, if_neg]
      rw [List.isPrefixOf_iff_prefix, hStart]
      intro hPrefix
      exact hSlash (hPrefix.subset (by simp))
    rw [hNone]
    rfl
  · have hSome : stripStart s!"{tenant}/" s!"{tenant}/{id}" = some id := by
      have hWhole : (s!"{tenant}/{id}" : String).toList =
          (s!"{tenant}/" : String).toList ++ id.toList := by simp [toString]
      rw [stripStart, if_pos, hWhole, ← String.length_toList, List.drop_left, String.ofList_toList]
      rw [List.isPrefixOf_iff_prefix, hWhole]
      exact List.prefix_append _ _
    rw [hSome]
    rfl

end Names

theorem validateMemberName_ok {d : Delegation} (h : validateMemberName d = .ok ()) :
    d.member ∉ reservedMemberNames := by
  unfold validateMemberName at h
  split at h
  · cases h
  · split at h
    · cases h
    · next hFree => exact hFree

variable {tenant : String} {start : CoordinationRecord} {now : Instant} {α : Type} {m : StoreM α}
  {store : CoordinationStore}

theorem enrolled_submitted {coordinationId : String} {contract : CoordinationContract}
    (h : validateSubmission coordinationId contract = .ok ()) {delegator parent : Option String}
    (hStart : start = .submitted tenant coordinationId delegator parent contract now) :
    Enrolled tenant (start.external tenant) start.roster := by
  obtain ⟨⟨⟩, hContract, hRest⟩ := bind_eq_ok.mp h
  obtain ⟨⟨⟩, hClient, hMembers⟩ := bind_eq_ok.mp hRest
  have hValid := validate_ok (mapError_eq_ok.mp hContract)
  have hExternal : start.external tenant = coordinationId := by
    refine external_of_scopeId ?_ (slash_notMem_of_validateClientId hClient)
    rw [hStart]
    rfl
  have hRoster : start.roster = contract.members.map fun d =>
      (d.member, memberTaskId tenant coordinationId d.member) := by
    rw [hStart, CoordinationRecord.roster, CoordinationRecord.submitted, List.map_map]
    rfl
  rw [hExternal, hRoster]
  refine ⟨?_, fun p hP => ?_, fun p hP => ?_⟩
  · rw [List.map_map]
    exact hValid.nodup
  · obtain ⟨d, -, rfl⟩ := List.mem_map.mp hP
    rfl
  · obtain ⟨d, hD, rfl⟩ := List.mem_map.mp hP
    exact validateMemberName_ok (forM_eq_ok_iff.mp hMembers d hD)

/-! ## Members in flight -/

def inFlight (tenant : String) (queue : JsonFileStore) (j : Journal)
    (record : CoordinationRecord) : Nat :=
  (record.members.map (latched tenant queue j.scan)).countP fun m =>
    m.submitted && (memberState (queue.getTask tenant) m).disposition.isNone

def openMembers (queue : JsonFileStore) (marks : List Mark) (roster : List (String × String)) :
    Nat :=
  roster.countP fun p => decide (.sent p.1 ∈ marks) && !queue.finished p.2

section Count

variable {tenant external : String} {queue queue' : JsonFileStore} {marks marks' : List Mark}
  {roster : List (String × String)}

theorem mem_ownedTasks {p : String × String} (h : p ∈ roster) :
    (p.2, memberIdempotencyKey external p.1) ∈ ownedTasks external roster :=
  List.mem_map_of_mem h

theorem inFlight_eq {j : Journal} {record : CoordinationRecord}
    (hHolds : Holds tenant (ownedTasks external record.roster) queue)
    (hSent : ∀ p ∈ record.roster, queue.Present p.2 → .sent p.1 ∈ j.marks) :
    inFlight tenant queue j record = openMembers queue j.marks record.roster := by
  rw [inFlight, openMembers, CoordinationRecord.roster, List.countP_map, List.countP_map]
  refine List.countP_congr fun m hM => ?_
  have hIn : (m.member, m.taskId) ∈ record.roster := List.mem_map_of_mem hM
  have hTask : queue.getTask tenant m.taskId = queue.tasks.get? m.taskId :=
    hHolds.getTask (mem_ownedTasks hIn)
  have hSubmitted : (latched tenant queue j.scan m).submitted ↔ .sent m.member ∈ j.marks := by
    simp only [latched, hTask, Bool.or_eq_true, (scan_spec j).sent m.member]
    exact ⟨fun h => h.elim (fun hSome => hSent _ hIn (.inl hSome)) id, .inr⟩
  have hOpen : (memberState (queue.getTask tenant) (latched tenant queue j.scan m)).disposition.isNone
      = !queue.finished m.taskId := by
    simp only [memberState, latched, hTask, JsonFileStore.finished]
    cases queue.tasks.get? m.taskId with
    | none => rfl
    | some t =>
      simp only [Option.bind_some, dispositionOf, Option.any_some]
      cases t.settlement <;> rfl
  simp only [Function.comp_apply, Bool.and_eq_true, hSubmitted, hOpen, decide_eq_true_eq]

theorem countP_le_add {α : Type} {p q r : α → Bool} {xs : List α}
    (h : ∀ a ∈ xs, p a → q a ∨ r a) : xs.countP p ≤ xs.countP q + xs.countP r := by
  rw [List.countP_eq_countP_filter_add xs p q]
  refine Nat.add_le_add ?_ ?_
  · rw [List.countP_eq_length_filter (p := q)]
    exact List.countP_le_length
  · rw [List.countP_filter]
    refine List.countP_mono_left fun a hA hOnly => ?_
    simp only [Bool.and_eq_true, Bool.not_eq_true'] at hOnly
    exact (h a hA hOnly.1).resolve_left (by simp [hOnly.2])

theorem openMembers_le_add {names : List String} (hNodup : (roster.map Prod.fst).Nodup)
    (hMarks : ∀ name, .sent name ∈ marks' → .sent name ∈ marks ∨ name ∈ names) :
    openMembers queue marks' roster ≤ openMembers queue marks roster + names.length := by
  have hNew : roster.countP (fun p => decide (p.1 ∈ names)) ≤ names.length := by
    have hMap : roster.countP (fun p => decide (p.1 ∈ names)) =
        ((roster.map Prod.fst).filter (· ∈ names)).length := by
      rw [← List.countP_eq_length_filter, List.countP_map]
      rfl
    rw [hMap]
    refine (List.Nodup.subperm (hNodup.filter _) fun name hName => ?_).length_le
    simpa using (List.mem_filter.mp hName).2
  refine (countP_le_add fun p _ hOpen => ?_).trans (Nat.add_le_add_left hNew _)
  simp only [Bool.and_eq_true, decide_eq_true_eq] at hOpen ⊢
  exact (hMarks p.1 hOpen.1).imp (fun hOld => ⟨hOld, hOpen.2⟩) id

theorem Advances.openMembers_le (h : Advances tenant (ownedTasks external roster) queue queue') :
    openMembers queue' marks roster ≤ openMembers queue marks roster := by
  refine List.countP_mono_left fun p hP hOpen => ?_
  simp only [Bool.and_eq_true, Bool.not_eq_true'] at hOpen ⊢
  refine ⟨hOpen.1, ?_⟩
  rw [Bool.eq_false_iff]
  intro hFinished
  have hStill := h.finished _ (mem_ownedTasks hP) hFinished
  rw [hOpen.2] at hStill
  cases hStill

end Count

/-! ## Computations on the queue -/

def CoordinationStore.withQueue (store : CoordinationStore) (queue : JsonFileStore) :
    CoordinationStore :=
  { store with server := { store.server with queue } }

/-- The store but for its queue, which has the property. -/
def CoordinationStore.UpToQueue (store : CoordinationStore) (p : JsonFileStore → Prop)
    (store' : CoordinationStore) : Prop :=
  ∃ queue, p queue ∧ store' = store.withQueue queue

theorem ensures_onQueue {cut : JsonFileStore → Prop} {post : α → JsonFileStore → Prop}
    (h : Ensures m store.server.queue cut post) :
    Ensures (onServer (onQueue m)) store (store.UpToQueue cut)
      fun a => store.UpToQueue (post a) := by
  intro writes answer writes' store' hRun
  simp only [onServer, onQueue] at hRun
  generalize hQueue : m writes store.server.queue = out at hRun
  obtain ⟨answer', left, queue⟩ := out
  cases hRun
  obtain ⟨hCut, hPost⟩ := h _ _ _ _ hQueue
  exact ⟨⟨queue, hCut, rfl⟩, fun a hA => ⟨queue, hPost a hA, rfl⟩⟩

variable {cut final : CoordinationStore → Prop}

theorem ensures_ignoring {m : CoordinationM α} {post : α → CoordinationStore → Prop}
    (h : Ensures m store cut post) : Ensures (ignoring m) store cut fun _ _ => True := by
  intro writes answer writes' store' hRun
  simp only [ignoring] at hRun
  generalize hM : m writes store = out at hRun
  cases hRun
  exact ⟨(h _ _ _ _ hM).1, fun _ _ => trivial⟩

theorem failsDry_onServer {m : ServerM α} (h : FailsDry m) : FailsDry (onServer m) := by
  intro writes store e writes' store' hRun
  simp only [onServer] at hRun
  generalize hM : m writes store.server = out at hRun
  obtain ⟨answer, left, server⟩ := out
  cases hRun
  exact h _ _ _ _ _ hM

theorem failsDry_onQueue (h : FailsDry m) : FailsDry (onQueue m) := by
  intro writes store e writes' store' hRun
  simp only [onQueue] at hRun
  generalize hM : m writes store.queue = out at hRun
  obtain ⟨answer, left, queue⟩ := out
  cases hRun
  exact h _ _ _ _ _ hM

theorem ensures_of_reaches {op : QueueOp} {owned : List (String × String)}
    (hSpares : op.sparesTasks (owned.map Prod.fst)) (hHolds : Holds tenant owned store.server.queue)
    (h : Reaches (StoreStep now op) m store.server.queue) :
    Ensures (onServer (onQueue m)) store
      (store.UpToQueue (Advances tenant owned store.server.queue)) fun _ _ => True := by
  have hQueue : Ensures m store.server.queue
      (Advances tenant owned store.server.queue) fun _ _ => True := by
    intro writes answer writes' queue hRun
    have hSteps := h writes
    rw [Durable.state, hRun] at hSteps
    exact ⟨advances_steps hSteps hSpares hHolds, fun _ _ => trivial⟩
  exact (ensures_onQueue hQueue).mono (fun _ hCut => hCut) fun _ _ _ _ => trivial

/-! ## The invariant -/

/-- What holds of a coordination between drives: its record has the contract and the roster it was
submitted with, its journal is sound, whatever the queue holds under a member's id was submitted
in the journal, and the window is kept. -/
structure Coordinated (server : CoordinationServer) (tenant : String) (start : CoordinationRecord)
    (store : CoordinationStore) (record : CoordinationRecord) (j : Journal) : Prop where
  stored : store.coordinations.get? start.coordinationId = some record
  contract : record.contract = start.contract
  roster : record.roster = start.roster
  loaded : loadJournal server tenant store record = .ok j
  runId : j.runId = coordinationJournalRunId tenant (start.external tenant)
  sound : SoundJournal server.codec j
  holds : Holds tenant (ownedTasks (start.external tenant) start.roster) store.server.queue
  sent : ∀ p ∈ start.roster, store.server.queue.Present p.2 → .sent p.1 ∈ j.marks
  window : ∀ c, start.contract = .fanOut c →
    openMembers store.server.queue j.marks start.roster ≤ c.maxInFlight

/-- The coordination's record and journal, whatever they are by now, are as they should be. -/
def IsCoordinated (server : CoordinationServer) (tenant : String) (start : CoordinationRecord)
    (store : CoordinationStore) : Prop :=
  ∃ record j, Coordinated server tenant start store record j

section Drive

variable {server : CoordinationServer} {times : DriveTimes} {tenant : String}
  {start record : CoordinationRecord} {store : CoordinationStore} {j : Journal}

namespace Coordinated

theorem coordinationId (h : Coordinated server tenant start store record j) :
    record.coordinationId = start.coordinationId := Index.key_of_get? h.stored

theorem external (h : Coordinated server tenant start store record j) :
    record.external tenant = start.external tenant := by
  simp only [CoordinationRecord.external, h.coordinationId]

theorem advance (h : Coordinated server tenant start store record j) {queue : JsonFileStore}
    (hQueue : Advances tenant (ownedTasks (start.external tenant) start.roster)
      store.server.queue queue) :
    Coordinated server tenant start (store.withQueue queue) record j where
  stored := h.stored
  contract := h.contract
  roster := h.roster
  loaded := h.loaded
  runId := h.runId
  sound := h.sound
  holds := hQueue.holds
  sent p hP hPresent := h.sent p hP (hQueue.present _ (mem_ownedTasks hP) hPresent)
  window c hC := hQueue.openMembers_le.trans (h.window c hC)

end Coordinated

structure Committable (server : CoordinationServer) (times : DriveTimes) (tenant : String)
    (start : CoordinationRecord) (store : CoordinationStore) (j : Journal) (pass : Pass) :
    Prop where
  coordinationId : pass.record.coordinationId = start.coordinationId
  contract : pass.record.contract = start.contract
  roster : pass.record.roster = start.roster
  recording : ∃ added, Recording server.codec j added pass.journal
  pending : ∀ t ∈ pass.pending, (∃ task, t = .new task times.now) ∧
    ∀ p ∈ start.roster, t.taskId = p.2 → t.tenant = tenant ∧
      t.idempotencyKey = some (memberIdempotencyKey (start.external tenant) p.1) ∧
      .sent p.1 ∈ pass.journal.marks
  window : ∀ c, start.contract = .fanOut c →
    openMembers store.server.queue pass.journal.marks start.roster ≤ c.maxInFlight

/-! ## The commit -/

structure RowsAdded (tenant : String) (owned : List (String × String)) (tasks : List TaskRecord)
    (queue queue' : JsonFileStore) : Prop where
  sameTasks : queue'.tasks = queue.tasks
  holds : Holds tenant owned queue'
  present : ∀ id, queue'.Present id → queue.Present id ∨ ∃ t ∈ tasks, t.taskId = id

variable {owned : List (String × String)} {tasks : List TaskRecord} {queue : JsonFileStore}
  {pass : Pass} {submitted : List MemberRecord}

theorem ensures_enqueueRow {t : TaskRecord} (hT : t ∈ tasks)
    (hNew : ∃ task, t = .new task times.now)
    (hOwn : ∀ p ∈ owned, t.taskId = p.1 → t.tenant = tenant ∧ t.idempotencyKey = some p.2)
    (h : RowsAdded tenant owned tasks queue store.server.queue) :
    Ensures (enqueueRow times.rowNow t) store
      (store.UpToQueue (RowsAdded tenant owned tasks queue)) fun _ _ => True := by
  have hQueue : Ensures (do
      let store ← .get
      if (store.outbox.get? t.taskId).isSome then return ()
      else persistRow (.new t times.rowNow) : StoreM Unit) store.server.queue
      (RowsAdded tenant owned tasks queue) fun _ _ => True := by
    refine ensures_get_bind ?_
    split
    · exact ensures_pure h trivial
    · refine ensures_write _ h ⟨h.sameTasks, ?_, fun id hPresent => ?_⟩ trivial
      · obtain ⟨task, rfl⟩ := hNew
        exact h.holds.putRow ⟨rfl, rfl, TaskRecord.wellFormed_new _ _, rfl, rfl⟩ hOwn
      · rcases present_putRow hPresent with hOld | hRow
        · exact h.present id hOld
        · exact .inr ⟨t, hT, hRow⟩
  exact (ensures_onQueue hQueue).mono (fun _ hCut => hCut) fun _ _ _ _ => trivial

/-- **The rows and the journal.** -/
theorem ensures_journalAndEnqueue (snapshot : JournalSnapshot)
    (hHolds : Holds tenant owned store.server.queue)
    (hTasks : ∀ t ∈ tasks, (∃ task, t = .new task times.now) ∧
      ∀ p ∈ owned, t.taskId = p.1 → t.tenant = tenant ∧ t.idempotencyKey = some p.2) :
    Ensures (journalAndEnqueue snapshot tasks times.rowNow) store (fun _ => True)
      fun _ store' => ∃ queue, RowsAdded tenant owned tasks store.server.queue queue ∧
        store' = { store with server := { store.server with
          queue, journals := store.server.journals.insert snapshot } } := by
  have hRows : Ensures (Durable.each (enqueueRow times.rowNow) tasks) store
      (store.UpToQueue (RowsAdded tenant owned tasks store.server.queue)) fun _ _ => True := by
    refine ensures_each ?_ ⟨_, ⟨rfl, hHolds, fun _ hPresent => .inl hPresent⟩, rfl⟩
    rintro t hT _ ⟨queue, hQueue, rfl⟩
    exact ensures_enqueueRow hT (hTasks t hT).1 (hTasks t hT).2 hQueue
  have hEnd := hRows.mono (fun _ _ => trivial) fun _ _ hCut _ => hCut
  refine hEnd.bind ?_
  rintro _ _ - ⟨queue, hQueue, rfl⟩ writes answer writes' store' hRun
  refine ⟨trivial, ?_⟩
  rintro ⟨⟩ rfl
  cases writes with
  | zero => cases hRun
  | succ writes =>
    cases hRun
    exact ⟨queue, hQueue, rfl⟩

theorem failsDry_commitPass (pass : Pass) : FailsDry (commitPass times pass) := by
  have hRow : ∀ t, FailsDry (enqueueRow times.rowNow t) := by
    intro t
    refine failsDry_onServer (failsDry_onQueue (failsDry_get_bind fun queue => ?_))
    split
    · exact failsDry_pure _
    · exact failsDry_write _ _
  have hUpdate : ∀ record, FailsDry (updateCoordination record) := by
    intro record
    refine failsDry_get_bind fun store => ?_
    split
    · exact failsDry_pure _
    · exact (failsDry_write _ _).bind fun _ => failsDry_pure _
  have hRest (record : CoordinationRecord) (out : DriveOutcome) : FailsDry (do
      let _ ← updateCoordination record
      return out : CoordinationM DriveOutcome) :=
    (hUpdate record).bind fun _ => failsDry_pure _
  unfold commitPass
  split
  · exact ((failsDry_each hRow _).bind fun _ => failsDry_onServer (failsDry_write _ _)).bind
      fun _ => hRest _ _
  · exact hRest _ _

theorem ensures_updateCoordination {α : Type} (record : CoordinationRecord)
    (hStored : (store.coordinations.get? record.coordinationId).isSome) (a : α)
    (hFinal : final { store with coordinations := store.coordinations.insert record }) :
    Ensures (do
      let _ ← updateCoordination record
      return a : CoordinationM α) store (fun _ => True) fun _ store' => final store' := by
  have hUpdate : Ensures (updateCoordination record) store (fun _ => True)
      fun _ store' => final store' := by
    refine ensures_get_bind ?_
    rw [if_neg (by simpa using Option.isSome_iff_ne_none.mp hStored)]
    have hWrite : Ensures (Durable.write "persist coordination" fun store : CoordinationStore =>
        { store with coordinations := store.coordinations.insert record }) store (fun _ => True)
        fun _ store' => final store' := ensures_write _ trivial trivial hFinal
    exact hWrite.bind fun _ _ _ hDone => ensures_pure trivial hDone
  exact hUpdate.bind fun _ _ _ hDone => ensures_pure trivial hDone

theorem loadJournal_saved (hHead : j.headHash = recomputeHeadHash server.codec j.events)
    (hRunId : j.runId = coordinationJournalRunId tenant (record.external tenant))
    (hSaved : store.server.journals.get? j.runId = some j.snapshot) :
    loadJournal server tenant store record = .ok j := by
  unfold loadJournal
  simp only [← hRunId, hSaved]
  exact mapError_eq_ok.mpr (fromSnapshot_eq_ok_iff.mpr ⟨rfl, hHead.symm, rfl⟩)

theorem Committable.external (h : Committable server times tenant start store j pass) :
    pass.record.external tenant = start.external tenant := by
  simp only [CoordinationRecord.external, h.coordinationId]

/-- **A commit keeps the invariant.** -/
theorem leaves_commitPass (h : Coordinated server tenant start store record j)
    (hPass : Committable server times tenant start store j pass) :
    Leaves (commitPass times pass) store (IsCoordinated server tenant start) := by
  let done := { pass.record with updatedAt := times.now }
  have hExternal : done.external tenant = start.external tenant := hPass.external
  have hPut : (store.coordinations.insert done).get? start.coordinationId = some done := by
    rw [← hPass.coordinationId]
    exact Index.get?_insert_self _ done
  have hStored : (store.coordinations.get? pass.record.coordinationId).isSome := by
    rw [hPass.coordinationId, h.stored]
    rfl
  refine (failsDry_commitPass pass).leaves ?_
  unfold commitPass
  split
  · -- the rows and the journal are written
    obtain ⟨added, hRec⟩ := hPass.recording
    have hTasks : ∀ t ∈ pass.pending, (∃ task, t = .new task times.now) ∧
        ∀ p ∈ ownedTasks (start.external tenant) start.roster, t.taskId = p.1 →
          t.tenant = tenant ∧ t.idempotencyKey = some p.2 := by
      intro t hT
      refine ⟨(hPass.pending t hT).1, fun p hP hId => ?_⟩
      obtain ⟨member, hMember, rfl⟩ := List.mem_map.mp hP
      have hOwn := (hPass.pending t hT).2 member hMember hId
      exact ⟨hOwn.1, hOwn.2.1⟩
    refine (ensures_journalAndEnqueue pass.journal.snapshot h.holds hTasks).bind ?_
    rintro _ _ - ⟨queue, hQueue, rfl⟩
    refine ensures_updateCoordination _ (by exact hStored) _
      (?_ : IsCoordinated server tenant start _)
    refine ⟨done, pass.journal, ?_⟩
    have hRunId : pass.journal.runId = coordinationJournalRunId tenant (start.external tenant) :=
      hRec.runId.trans h.runId
    exact
      { stored := hPut
        contract := hPass.contract
        roster := hPass.roster
        loaded := by
          refine loadJournal_saved hRec.sound.recorded.head ?_ (Index.get?_insert_self _
            pass.journal.snapshot)
          rw [hRunId, hExternal]
        runId := hRunId
        sound := hRec.sound
        holds := hQueue.holds
        sent := fun p hP hPresent => by
          rcases hQueue.present _ hPresent with hOld | ⟨t, hT, hId⟩
          · rw [hRec.marks]
            exact List.mem_append_left _ (h.sent p hP hOld)
          · exact ((hPass.pending t hT).2 p hP hId).2.2
        window := fun c hC => by
          have hSame : openMembers queue pass.journal.marks start.roster =
              openMembers store.server.queue pass.journal.marks start.roster := by
            simp only [openMembers, JsonFileStore.finished, hQueue.sameTasks]
          exact hSame.trans_le (hPass.window c hC) }
  · refine ensures_updateCoordination _ (by exact hStored) _
      (?_ : IsCoordinated server tenant start _)
    have hLoaded : loadJournal server tenant store done = .ok j := by
      rw [← h.loaded]
      simp only [loadJournal, hExternal, h.external]
    exact ⟨done, j, { h with
      stored := hPut, contract := hPass.contract, roster := hPass.roster, loaded := hLoaded }⟩

/-! ## The pass -/

theorem exists_of_forall₂ {α β : Type} {r : α → β → Prop} {xs : List α} {ys : List β}
    (h : List.Forall₂ r xs ys) {b : β} (hB : b ∈ ys) : ∃ a ∈ xs, r a b := by
  obtain ⟨i, hI, rfl⟩ := List.mem_iff_getElem.mp hB
  have hI' : i < xs.length := h.length_eq ▸ hI
  exact ⟨xs[i], List.getElem_mem hI', h.get hI' hI⟩

/-- **The preparation of a drive stays within the window.** -/
theorem committable_of_prepared (h : Coordinated server tenant start store record j)
    (hEnrolled : Enrolled tenant (start.external tenant) start.roster)
    (hPrep : Prepared server times tenant store record j pass submitted) :
    Committable server times tenant start store j pass := by
  obtain ⟨started, observed, hStarted, hObserved, hRec⟩ := hPrep.recording
  obtain ⟨members, hKept⟩ := hPrep.kept
  have hMember : ∀ m ∈ submitted, (m.member, m.taskId) ∈ start.roster := by
    intro m hM
    obtain ⟨old, hOld, rfl⟩ := List.mem_map.mp (hPrep.sublist.subset hM)
    rw [← h.roster]
    exact List.mem_map.mpr ⟨old, hOld, rfl⟩
  have hSent : ∀ m ∈ submitted, .sent m.member ∈ pass.journal.marks := by
    intro m hM
    rw [hRec.marks]
    simp only [List.mem_append, List.mem_map]
    exact .inr (.inl (.inr ⟨m, hM, rfl⟩))
  refine ⟨?_, ?_, ?_, ⟨_, hRec⟩, fun t hT => ?_, fun c hC => ?_⟩
  · rw [hKept]
    exact h.coordinationId
  · rw [hKept]
    exact h.contract
  · exact hPrep.roster.trans h.roster
  · obtain ⟨m, hM, hTask⟩ := exists_of_forall₂ hPrep.pending hT
    refine ⟨hTask.new, fun p hP hId => ?_⟩
    have hSame : (m.member, m.taskId) = p :=
      hEnrolled.eq_of_taskId (hMember m hM) hP (hTask.taskId ▸ hId)
    rw [← hSame, ← h.external]
    exact ⟨hTask.tenant, hTask.key, hSent m hM⟩
  · have hWindow := hPrep.window
    have hCount : inFlight tenant store.server.queue j record =
        openMembers store.server.queue j.marks start.roster := by
      have hHolds := h.holds
      have hPresent := h.sent
      rw [← h.roster] at hHolds hPresent ⊢
      exact inFlight_eq hHolds hPresent
    rw [← inFlight, hCount, h.contract, hC, CoordinationContract.window] at hWindow
    have hOld := h.window c hC
    have hNew : openMembers store.server.queue pass.journal.marks start.roster ≤
        openMembers store.server.queue j.marks start.roster +
          (submitted.map (·.member)).length := by
      refine openMembers_le_add hEnrolled.names fun name hName => ?_
      rw [hRec.marks] at hName
      simp only [List.mem_append, List.mem_map, Mark.sent.injEq] at hName
      rcases hName with hOld | (hStart | ⟨m, hM, rfl⟩) | hReceived
      · exact .inl hOld
      · cases hStarted _ hStart
      · exact .inr (List.mem_map_of_mem hM)
      · obtain ⟨_, hMark⟩ := hObserved _ hReceived
        cases hMark
    rw [List.length_map] at hNew
    omega

theorem outcomeTasks_ok {external endId : String} {delegator : Option String}
    {outcome : CoordinationOutcome}
    (h : outcomeTasks times tenant store external endId delegator outcome = .ok tasks) :
    ∀ t ∈ tasks, (∃ task, t = .new task times.now) ∧ t.taskId = outcomeTaskId tenant external := by
  unfold outcomeTasks at h
  split at h
  · cases h
    simp
  · split at h
    · cases h
    · cases h
      simp only [List.mem_singleton, forall_eq]
      exact ⟨⟨_, rfl⟩, rfl⟩

structure Settled (times : DriveTimes) (tenant : String) (pass pass' : Pass) : Prop where
  coordinationId : pass'.record.coordinationId = pass.record.coordinationId
  contract : pass'.record.contract = pass.record.contract
  members : pass'.record.members = pass.record.members
  pending : ∀ t ∈ pass'.pending, t ∈ pass.pending ∨ (∃ task, t = .new task times.now) ∧
    t.taskId = outcomeTaskId tenant (pass.record.external tenant)

theorem ensures_deliverOutcome (pass : Pass) (endId : String) (outcome : CoordinationOutcome)
    (hCut : cut store) :
    Ensures (deliverOutcome times tenant pass endId outcome) store cut fun pass' _ =>
      pass'.journal = pass.journal ∧ Settled times tenant pass pass' := by
  refine ensures_get_bind ?_
  generalize hTasks : outcomeTasks times tenant store (pass.record.external tenant) endId
    pass.record.delegator outcome = result
  cases result with
  | error e => exact ensures_fail e hCut
  | ok tasks =>
    refine ensures_pure hCut ⟨rfl, rfl, rfl, rfl, fun t hT => ?_⟩
    rcases List.mem_append.mp hT with hOld | hNew
    · exact .inl hOld
    · exact .inr (outcomeTasks_ok hTasks t hNew)

/-- **A settlement** only advances the members' tasks before the commit. -/
theorem ensures_settle (hHolds : Holds tenant owned store.server.queue) (pass : Pass)
    (plan : SettlePlan)
    (hApart : raceDlqTaskId tenant (pass.record.external tenant) ∉ owned.map Prod.fst) :
    Ensures (settle server times tenant pass plan) store
      (store.UpToQueue (Advances tenant owned store.server.queue))
      fun pass' _ => pass'.journal = (settledPass server times tenant pass plan).2.2.journal ∧
        Settled times tenant pass pass' := by
  have hCancels : Ensures (Durable.each (fun m : MemberRecord × MemberState =>
      ignoring (onServer (onQueue (cancelTask tenant m.1.taskId times.now))))
      ((pass.record.members.zip pass.states).filter fun m => plan.cancels m && m.1.submitted))
      store (store.UpToQueue (Advances tenant owned store.server.queue)) fun _ _ => True := by
    refine ensures_each ?_ ⟨_, .refl hHolds, rfl⟩
    rintro m - _ ⟨queue, hQueue, rfl⟩
    have hSpares : (QueueOp.cancel tenant m.1.taskId).sparesTasks (owned.map Prod.fst) := rfl
    refine (ensures_ignoring (ensures_of_reaches hSpares hQueue.holds
      (reaches_cancelTask tenant m.1.taskId))).mono ?_ fun _ _ _ hDone => hDone
    rintro _ ⟨queue', hQueue', rfl⟩
    exact ⟨queue', hQueue.trans hQueue', rfl⟩
  have hDeliver : ∀ {store'}, store.UpToQueue (Advances tenant owned store.server.queue) store' →
      ∀ endId outcome, Ensures (deliverOutcome times tenant
        (settledPass server times tenant pass plan).2.2 endId outcome) store'
      (store.UpToQueue (Advances tenant owned store.server.queue))
      fun pass' _ => pass'.journal = (settledPass server times tenant pass plan).2.2.journal ∧
        Settled times tenant pass pass' := by
    intro store' hCut endId outcome
    refine (ensures_deliverOutcome _ endId outcome hCut).mono (fun _ h => h) ?_
    rintro pass' _ - ⟨hJournal, hSettled⟩
    exact ⟨hJournal, hSettled.coordinationId, hSettled.contract, hSettled.members,
      hSettled.pending⟩
  refine hCancels.bind ?_
  rintro _ _ ⟨queue, hQueue, rfl⟩ -
  simp only
  split
  · -- the dead letter of a race
    have hSteps : ∀ endId outcome, Reaches (StoreStep times.now (.deadLetter _ _))
        (enqueueLocked (deadLetterOf times tenant (pass.record.external tenant) endId outcome))
        queue := fun _ _ => reaches_enqueueLocked (.enqueued rfl)
    refine ((ensures_of_reaches ?_ hQueue.holds (hSteps _ _)).mono ?_
      fun _ _ _ hDone => hDone).bind fun _ store' hCut _ => hDeliver hCut _ _
    · exact decide_eq_true hApart
    · rintro _ ⟨queue', hQueue', rfl⟩
      exact ⟨queue', hQueue.trans hQueue', rfl⟩
  · exact hDeliver ⟨queue, hQueue, rfl⟩ _ _

theorem Prepared.notMem_ended (h : Prepared server times tenant store record j pass submitted)
    (hOpen : j.scan.endDone = false) : .ended ∉ pass.journal.marks := by
  obtain ⟨started, observed, hStarted, hObserved, hRec⟩ := h.recording
  rw [hRec.marks]
  simp only [List.mem_append, List.mem_map, reduceCtorEq, and_false, exists_false, or_false]
  rintro (hOld | hStart | hReceived)
  · have hEnded := (scan_spec j).ended.mpr hOld
    rw [hOpen] at hEnded
    cases hEnded
  · cases hStarted _ hStart
  · obtain ⟨_, hMark⟩ := hObserved _ hReceived
    cases hMark

variable (hNames : NamesSound server.codec)
  (hEnrolled : Enrolled tenant (start.external tenant) start.roster)

include hNames hEnrolled

theorem Committable.settle {pass' : Pass}
    (h : Committable server times tenant start store j pass)
    (hDone : Observed pass.settlementDone pass.journal) (hOpen : .ended ∉ pass.journal.marks)
    {plan : SettlePlan} (hJournal : pass'.journal =
      (settledPass server times tenant pass plan).2.2.journal)
    (hSettled : Settled times tenant pass pass')
    (hQueue : Advances tenant (ownedTasks (start.external tenant) start.roster)
      store.server.queue queue) :
    Committable server times tenant start (store.withQueue queue) j pass' := by
  obtain ⟨added, hRec⟩ := h.recording
  obtain ⟨names, hEnd⟩ := settledPass_spec hNames hRec.sound hDone hOpen times tenant plan
  rw [← hJournal] at hEnd
  have hSent : ∀ name, .sent name ∈ pass'.journal.marks ↔ .sent name ∈ pass.journal.marks := by
    rw [hEnd.marks]
    simp
  refine ⟨hSettled.coordinationId.trans h.coordinationId, hSettled.contract.trans h.contract, ?_,
    ⟨_, hRec.trans hEnd⟩, fun t hT => ?_, fun c hC => ?_⟩
  · rw [← h.roster, CoordinationRecord.roster, hSettled.members]
    rfl
  · rcases hSettled.pending t hT with hOld | ⟨hNew, hId⟩
    · obtain ⟨hNew, hOwn⟩ := h.pending t hOld
      refine ⟨hNew, fun p hP hSame => ?_⟩
      rw [hSent]
      exact hOwn p hP hSame
    · refine ⟨hNew, fun p hP hSame => ?_⟩
      -- The outcome message is no member's task.
      have hReserved : outcomeTaskId tenant (start.external tenant) ∉
          (ownedTasks (start.external tenant) start.roster).map Prod.fst := by
        rw [outcomeTaskId_eq]
        exact hEnrolled.notMem_owned (by decide)
      refine absurd ?_ hReserved
      rw [← h.external, ← hId, hSame]
      exact List.mem_map_of_mem (mem_ownedTasks hP)
  · have hSame : openMembers queue pass'.journal.marks start.roster =
        openMembers queue pass.journal.marks start.roster := by
      simp only [openMembers, hSent]
    exact hSame.trans_le (hQueue.openMembers_le.trans (h.window c hC))

variable (h : Coordinated server tenant start store record j)
include h

theorem leaves_settle (hPass : Committable server times tenant start store j pass)
    (hDone : Observed pass.settlementDone pass.journal) (hOpen : .ended ∉ pass.journal.marks)
    (plan : SettlePlan) :
    Leaves (do
      let pass ← settle server times tenant pass plan
      commitPass times pass) store (IsCoordinated server tenant start) := by
  have hApart : raceDlqTaskId tenant (pass.record.external tenant) ∉
      (ownedTasks (start.external tenant) start.roster).map Prod.fst := by
    rw [hPass.external, raceDlqTaskId_eq]
    exact hEnrolled.notMem_owned (by decide)
  have hSettle : Ensures (settle server times tenant pass plan) store
      (IsCoordinated server tenant start) fun pass' store' =>
        Coordinated server tenant start store' record j ∧
          Committable server times tenant start store' j pass' := by
    refine (ensures_settle h.holds pass plan hApart).mono ?_ ?_
    · rintro _ ⟨queue, hQueue, rfl⟩
      exact ⟨record, j, h.advance hQueue⟩
    · rintro pass' _ ⟨queue, hQueue, rfl⟩ ⟨hJournal, hSettled⟩
      exact ⟨h.advance hQueue,
        hPass.settle hNames hEnrolled hDone hOpen hJournal hSettled hQueue⟩
  exact hSettle.leaves_bind fun pass' store' hReady => leaves_commitPass hReady.1 hReady.2

/-- **A drive keeps the invariant** unless one of its writes fails. -/
theorem leaves_drive :
    Leaves (drive server times tenant record) store (IsCoordinated server tenant start) := by
  have hNow : IsCoordinated server tenant start store := ⟨record, j, h⟩
  have hMembers : (record.members.map (·.member)).Nodup := by
    have hRoster := hEnrolled.names
    rw [← h.roster, CoordinationRecord.roster, List.map_map] at hRoster
    exact hRoster
  refine leaves_get_bind ?_
  split
  · exact leaves_pure _ hNow
  · rw [h.loaded]
    simp only
    generalize hPrepare : preparePass server times tenant store record j = prepared
    cases prepared with
    | error e => exact leaves_fail e hNow
    | ok pass =>
      obtain ⟨submitted, hPrep⟩ := preparePass_spec hNames h.sound hMembers hPrepare
      have hPass := committable_of_prepared h hEnrolled hPrep
      simp only
      split
      · exact leaves_commitPass h hPass
      · next hOpen =>
        have hEnded := hPrep.notMem_ended (by simpa using hOpen)
        split
        · exact leaves_commitPass h hPass
        · next plan hPlan => exact leaves_settle hNames hEnrolled h hPass hPrep.observed hEnded plan

end Drive

/-! ## Runs -/

inductive CoordinationMove where
  | drive (times : DriveTimes) (writes : Nat)
  | queue (event : QueueEvent)

def CoordinationStore.next (server : CoordinationServer) (tenant coordinationId : String)
    (store : CoordinationStore) : CoordinationMove → CoordinationStore
  | .drive times writes =>
    match store.coordinations.get? coordinationId with
    | some record => (drive server times tenant record).state writes store
    | none => store
  | .queue event => store.withQueue (store.server.queue.next event)

def CoordinationStore.allows (server : CoordinationServer) (tenant : String)
    (start : CoordinationRecord) (store : CoordinationStore) : CoordinationMove → Bool
  | .drive times writes => (store.coordinations.get? start.coordinationId).all fun record =>
      (drive server times tenant record writes store).2.1 ≠ 0
  | .queue event => event.op.sparesTasks (start.members.map (·.taskId))

/-- The record has just been created: there is no journal yet, and nothing under the members'
task ids. -/
structure JustSubmitted (tenant : String) (record : CoordinationRecord)
    (store : CoordinationStore) : Prop where
  stored : store.coordinations.get? record.coordinationId = some record
  unjournaled : store.server.journals.get?
    (coordinationJournalRunId tenant (record.external tenant)) = none
  form : StoreForm store.server.queue
  free : ∀ m ∈ record.members, ¬ store.server.queue.Present m.taskId

theorem JustSubmitted.isCoordinated (h : JustSubmitted tenant start store)
    (server : CoordinationServer) : IsCoordinated server tenant start store := by
  have hFree : ∀ p ∈ start.roster, ¬ store.server.queue.Present p.2 := by
    intro p hP
    obtain ⟨m, hM, rfl⟩ := List.mem_map.mp hP
    exact h.free m hM
  let runId := coordinationJournalRunId tenant (start.external tenant)
  refine ⟨start, .new server.codec runId runId, h.stored, rfl, rfl, ?_, rfl,
    soundJournal_new _ _ _, ⟨h.form, ?_, ?_⟩,
    fun p hP hPresent => absurd hPresent (hFree p hP), fun c _ => ?_⟩
  · simp only [loadJournal, h.unjournaled]
    rfl
  · intro p hP t hT
    obtain ⟨member, hMember, rfl⟩ := List.mem_map.mp hP
    exact absurd (.inl (by rw [hT]; rfl)) (hFree member hMember)
  · intro p hP row hRow
    obtain ⟨member, hMember, rfl⟩ := List.mem_map.mp hP
    exact absurd (.inr (by rw [hRow]; rfl)) (hFree member hMember)
  · have hNone : openMembers store.server.queue
        (Journal.new server.codec runId runId).marks start.roster = 0 := by
      rw [openMembers, List.countP_eq_zero]
      intro p _ hOpen
      simp [Journal.marks, Journal.new] at hOpen
    rw [hNone]
    exact Nat.zero_le _

theorem IsCoordinated.next {server : CoordinationServer} (hNames : NamesSound server.codec)
    (hEnrolled : Enrolled tenant (start.external tenant) start.roster) {move : CoordinationMove}
    (h : IsCoordinated server tenant start store) (hMove : store.allows server tenant start move) :
    IsCoordinated server tenant start (store.next server tenant start.coordinationId move) := by
  obtain ⟨record, j, hNow⟩ := h
  cases move with
  | drive times writes =>
    simp only [CoordinationStore.allows, hNow.stored, Option.all_some, decide_eq_true_eq] at hMove
    simp only [CoordinationStore.next, hNow.stored]
    exact leaves_drive hNames hEnrolled hNow writes hMove
  | queue event =>
    have hIds : (ownedTasks (start.external tenant) start.roster).map Prod.fst =
        start.members.map (·.taskId) := by
      simp only [ownedTasks, CoordinationRecord.roster, List.map_map]
      rfl
    refine ⟨record, j, hNow.advance (advances_next ?_ hNow.holds)⟩
    rw [hIds]
    exact hMove

/-- **The journal and the window over every run.** The journal that is loaded has one event for
each of its marks and no mark twice, and a fan-out has at most `max_in_flight` members that are
submitted and not terminal. -/
theorem drives_sound (server : CoordinationServer) (hNames : NamesSound server.codec)
    (tenant coordinationId : String) (delegator parent : Option String)
    (contract : CoordinationContract) (created : Instant)
    (hAccepted : validateSubmission coordinationId contract = .ok ()) (start : CoordinationRecord)
    (hStart : start = .submitted tenant coordinationId delegator parent contract created)
    (store : CoordinationStore) (hStore : JustSubmitted tenant start store)
    (moves : List CoordinationMove)
    (hMoves : Admissible (CoordinationStore.next server tenant start.coordinationId)
      (fun store move => store.allows server tenant start move) store moves) (after : CoordinationStore)
    (hAfter : after = run (CoordinationStore.next server tenant start.coordinationId) store moves) :
    ∃ record j, after.coordinations.get? start.coordinationId = some record ∧
      record.contract = contract ∧
      record.members.map (·.member) = contract.members.map (·.member) ∧
      loadJournal server tenant after record = .ok j ∧
      j.marks.length = j.events.length ∧ j.marks.Nodup ∧
      ∀ c, contract = .fanOut c → inFlight tenant after.server.queue j record ≤ c.maxInFlight := by
  have hEnrolled := enrolled_submitted hAccepted hStart
  have hNext : ∀ store move, IsCoordinated server tenant start store →
      store.allows server tenant start move →
        IsCoordinated server tenant start (store.next server tenant start.coordinationId move) :=
    fun _ _ h hMove => h.next hNames hEnrolled hMove
  obtain ⟨record, j, hEnd⟩ := run_invariant hNext (hStore.isCoordinated server) hMoves
  rw [← hAfter] at hEnd
  have hContract : start.contract = contract := by rw [hStart]; rfl
  refine ⟨record, j, hEnd.stored, hEnd.contract.trans hContract, ?_, hEnd.loaded,
    hEnd.sound.marked, hEnd.sound.once, fun c hC => ?_⟩
  · have hRoster := congrArg (List.map Prod.fst) hEnd.roster
    rw [hStart, CoordinationRecord.roster, CoordinationRecord.roster, List.map_map,
      CoordinationRecord.submitted, List.map_map, List.map_map] at hRoster
    exact hRoster
  · have hHolds := hEnd.holds
    have hSent := hEnd.sent
    have hWindow := hEnd.window c (hContract.trans hC)
    rw [← hEnd.roster] at hHolds hSent hWindow
    rw [inFlight_eq hHolds hSent]
    exact hWindow

/-- A codec whose addresses tell the members apart that outputs name. -/
def namingCodec : Codec :=
  { plainCodec with
    toVec := fun value =>
      match memberNamed value with
      | some name => 1 :: name.toByteArray.data.toList
      | none => [] }

theorem namesSound_namingCodec : NamesSound namingCodec := by
  intro a b hSame
  have hBytes : namingCodec.toVec a = namingCodec.toVec b := hexText_injective hSame
  simp only [namingCodec] at hBytes
  cases hA : memberNamed a with
  | none =>
    cases hB : memberNamed b with
    | none => rfl
    | some name => simp [hA, hB] at hBytes
  | some name =>
    cases hB : memberNamed b with
    | none => simp [hA, hB] at hBytes
    | some other =>
      simp only [hA, hB, List.cons.injEq, true_and, Array.toList_inj] at hBytes
      rw [String.toByteArray_inj.mp (ByteArray.ext hBytes)]

def draftContract : FanOutContract where
  members := ["a", "b"].map fun member =>
    { member, agentId := "writer", manifestVersion := "1", kind := "draft", input := .inline .null }
  maxInFlight := 1
  onMemberFailure := .partialResult

def draftServer : CoordinationServer := { codec := namingCodec, contractJson := fun _ => .null }

def draftRecord : CoordinationRecord :=
  .submitted defaultTenant "c" none none (.fanOut draftContract) 0

def draftStore : CoordinationStore where
  server := { agents := Index.empty.insert { agentId := "writer", manifest := {} } }
  coordinations := Index.empty.insert draftRecord

def driveAt (now : Instant) : CoordinationMove := .drive ⟨now, fun _ => now, now⟩ 9

/-- The first member is submitted and relayed, its task is cancelled, and the second is
submitted. -/
def draftMoves : List CoordinationMove :=
  [driveAt 1, .queue ⟨2, .publish 10, 9⟩,
   .queue ⟨3, .cancel defaultTenant (memberTaskId defaultTenant "c" "a"), 9⟩, driveAt 4]

def draftAfter : CoordinationStore :=
  run (CoordinationStore.next draftServer defaultTenant "c") draftStore draftMoves

theorem drives_sound_draft :
    (loadJournal draftServer defaultTenant draftAfter draftRecord).map (·.marks) =
        .ok [.start, .sent "a", .sent "b", .received "a"] ∧
      ∃ record j, draftAfter.coordinations.get? "c" = some record ∧
        record.contract = .fanOut draftContract ∧
        record.members.map (·.member) = ["a", "b"] ∧
        loadJournal draftServer defaultTenant draftAfter record = .ok j ∧
        j.marks.length = j.events.length ∧ j.marks.Nodup ∧
        inFlight defaultTenant draftAfter.server.queue j record ≤ 1 := by
  refine ⟨by decide +kernel, ?_⟩
  have hStore : JustSubmitted defaultTenant draftRecord draftStore := by
    refine ⟨Index.get?_insert_self _ draftRecord, rfl, storeForm_empty, fun m _ hPresent => ?_⟩
    rcases hPresent with hTask | hRow
    · cases hTask
    · cases hRow
  obtain ⟨record, j, hStored, hContract, hMembers, hLoaded, hMarked, hOnce, hWindow⟩ :=
    drives_sound draftServer namesSound_namingCodec defaultTenant "c" none none
      (.fanOut draftContract) 0 (by decide +kernel) draftRecord rfl draftStore hStore draftMoves
      (by decide +kernel) draftAfter rfl
  exact ⟨record, j, hStored, hContract, hMembers, hLoaded, hMarked, hOnce,
    hWindow draftContract rfl⟩

end RustyRuntime
