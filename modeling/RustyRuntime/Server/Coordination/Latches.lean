import RustyRuntime.Journal.Records
import RustyRuntime.Server.Coordination.Drive

/-!
# The journal as the latch book

The journal of a coordination is read for four things: that it has started, which members have
been submitted, which have been observed as settled, and that it has ended. `Mark` is what an
event says of them, and `scan` finds exactly the marks that are in the journal (`scan_spec`).

A pass records an event only if its mark is missing, so that no mark is in the journal twice
(`preparePass_spec`, `settledPass_spec`). The member of an event is read from its output; an
output that is too large to be inline is read through its content address, and that two outputs
with the same address name the same member (`NamesSound`) is what the argument needs of the hash.
-/

namespace RustyRuntime

open Library

/-! ## Marks -/

/-- What an event says of a coordination. -/
inductive Mark where
  | start
  | sent (member : String)
  | received (member : String)
  | ended
  deriving DecidableEq

def markOf (kind : RunEventKind) (member : Option String) : Option Mark :=
  match kind with
  | .coordinationStart => some .start
  | .mailboxSend => member.map .sent
  | .mailboxReceive => member.map .received
  | .coordinationEnd => some .ended
  | _ => none

def Journal.marks (j : Journal) : List Mark :=
  j.events.filterMap fun e => markOf e.kind (j.memberOf e)

def EventDraft.mark (draft : EventDraft) : Option Mark :=
  markOf draft.kind (draft.output.bind memberNamed)

def NamesSound (codec : Codec) : Prop :=
  ∀ a b, contentAddress codec a = contentAddress codec b → memberNamed a = memberNamed b

structure SoundJournal (codec : Codec) (j : Journal) : Prop where
  recorded : Recorded codec j
  complete : Complete j
  marked : j.marks.length = j.events.length
  once : j.marks.Nodup

section Record

variable {codec : Codec} {j : Journal} {draft : EventDraft} {now : Int}

variable {artifacts : Artifacts}

theorem getElem?_storeOptional {address : String} (h : address ∈ artifacts) (value : Option Json) :
    (storeOptional codec artifacts value).2[address]? = artifacts[address]? := by
  cases value with
  | none => rfl
  | some v =>
    simp only [storeOptional, storePayload]
    split
    · rfl
    · rw [Std.ExtTreeMap.getElem?_insertIfNew, if_neg]
      rintro ⟨hSame, hNew⟩
      rw [Std.LawfulEqCmp.eq_of_compare hSame] at hNew
      exact hNew h

theorem memberOf_record (h : Complete j) {e : RunEvent} (hE : e ∈ j.events) :
    (j.record codec draft now).2.memberOf e = j.memberOf e := by
  unfold Journal.memberOf
  cases hOutput : e.output with
  | none => rfl
  | some payload =>
    cases payload with
    | inline value => rfl
    | artifact reference =>
      have hIn : reference.sha256 ∈ j.artifacts := by
        refine h e hE reference ?_
        simp [RunEvent.payloads, hOutput]
      simp only [Option.bind_some, Journal.resolve, Journal.record]
      rw [getElem?_storeOptional (mem_storeOptional hIn draft.input),
        getElem?_storeOptional hIn]

variable (hNames : NamesSound codec)
include hNames

theorem memberNamed_storeOptional (hAddressed : Addressed codec artifacts) (value : Option Json) :
    (((storeOptional codec artifacts value).1.bind fun payload =>
      match payload with
      | .inline value => some value
      | .artifact reference =>
        (storeOptional codec artifacts value).2[reference.sha256]?).bind memberNamed) =
      value.bind memberNamed := by
  cases value with
  | none => rfl
  | some v =>
    simp only [storeOptional, storePayload]
    split
    · rfl
    · simp only [Option.bind_some]
      rw [Std.ExtTreeMap.getElem?_insertIfNew]
      split
      · rfl
      · next hOld =>
        have hIn : codec.sha256Hex (codec.toVec v) ∈ artifacts := by
          by_contra hNew
          exact hOld ⟨Std.ReflCmp.compare_self, hNew⟩
        obtain ⟨found, hFound⟩ := Option.isSome_iff_exists.mp
          (Std.ExtTreeMap.isSome_getElem?_iff_mem.mpr hIn)
        rw [hFound, Option.bind_some]
        exact hNames found v (hAddressed _ found hFound)

/-- **Recording adds the draft's mark.** -/
theorem marks_record (hRecorded : Recorded codec j) (hComplete : Complete j) :
    (j.record codec draft now).2.marks = j.marks ++ draft.mark.toList := by
  have hEvents : (j.record codec draft now).2.events = j.events ++
      [(j.record codec draft now).2.events.getLast (by simp [Journal.record])] := by
    simp [Journal.record]
  rw [Journal.marks, hEvents, List.filterMap_append]
  congr 1
  · refine List.filterMap_congr fun e hE => ?_
    rw [memberOf_record hComplete hE]
  · have hMember := memberNamed_storeOptional hNames
      (addressed_storeOptional hRecorded.addressed draft.input) draft.output
    have hMark : markOf draft.kind ((j.record codec draft now).2.memberOf
        ((j.record codec draft now).2.events.getLast (by simp [Journal.record]))) =
        draft.mark := by
      rw [EventDraft.mark, ← hMember]
      simp only [Journal.record, List.getLast_append_singleton]
      rfl
    have hKind : ((j.record codec draft now).2.events.getLast
        (by simp [Journal.record])).kind = draft.kind := by
      simp [Journal.record]
    simp only [List.filterMap_cons, hKind, hMark, List.filterMap_nil]
    cases draft.mark <;> rfl

theorem SoundJournal.record (h : SoundJournal codec j) {mark : Mark}
    (hMark : draft.mark = some mark) (hNew : mark ∉ j.marks) :
    SoundJournal codec (j.record codec draft now).2 where
  recorded := recorded_record h.recorded draft now
  complete := complete_record h.complete draft now
  marked := by
    rw [marks_record hNames h.recorded h.complete, hMark]
    simp [Journal.record, h.marked]
  once := by
    rw [marks_record hNames h.recorded h.complete, hMark]
    refine List.nodup_append.mpr ⟨h.once, List.nodup_singleton _, ?_⟩
    rintro a hA b hB rfl
    rw [List.mem_singleton.mp hB] at hA
    exact hNew hA

end Record

theorem soundJournal_new (codec : Codec) (runId threadId : String) :
    SoundJournal codec (.new codec runId threadId) where
  recorded := recorded_new codec runId threadId
  complete e hE := by cases hE
  marked := rfl
  once := List.nodup_nil

/-! ## Scanning -/

structure LatchBook.Of (marks : List Mark) (book : LatchBook) : Prop where
  start : book.startId.isSome ↔ .start ∈ marks
  sent : ∀ name, book.sendIds.contains name ↔ .sent name ∈ marks
  received : ∀ name, name ∈ book.settlementDone ↔ .received name ∈ marks
  ended : book.endDone ↔ .ended ∈ marks

theorem LatchBook.Of.scanEvent {marks : List Mark} {book : LatchBook} (h : book.Of marks)
    (j : Journal) (e : RunEvent) :
    (scanEvent j book e).Of (marks ++ (markOf e.kind (j.memberOf e)).toList) := by
  have hStart := h.start
  have hSent := h.sent
  have hReceived := h.received
  have hEnded := h.ended
  unfold RustyRuntime.scanEvent markOf
  cases e.kind with
  | coordinationStart => exact ⟨by simp, by simpa using hSent, by simpa using hReceived,
      by simpa using hEnded⟩
  | mailboxSend =>
    cases j.memberOf e with
    | none => simpa using h
    | some member =>
      refine ⟨by simpa using hStart, fun name => ?_, by simpa using hReceived,
        by simpa using hEnded⟩
      have hOld := hSent name
      simp only [Std.ExtTreeMap.contains_insert, Bool.or_eq_true, Option.map_some,
        Option.toList_some, List.mem_append, List.mem_singleton, Mark.sent.injEq, hOld,
        beq_iff_eq, Std.compare_eq_iff_eq]
      constructor
      · rintro (rfl | hIn)
        · exact .inr rfl
        · exact .inl hIn
      · rintro (hIn | rfl)
        · exact .inr hIn
        · exact .inl rfl
  | mailboxReceive =>
    cases j.memberOf e with
    | none => simpa using h
    | some member =>
      refine ⟨by simpa using hStart, by simpa using hSent, fun name => ?_, by simpa using hEnded⟩
      have hOld := hReceived name
      simp only [Finset.mem_insert, hOld, Option.map_some, Option.toList_some, List.mem_append,
        List.mem_singleton, Mark.received.injEq]
      exact or_comm
  | coordinationEnd => exact ⟨by simpa using hStart, by simpa using hSent, by simpa using hReceived,
      by simp⟩
  | _ => simpa using h

/-- **The scan finds the marks of the journal.** -/
theorem scan_spec (j : Journal) : j.scan.Of j.marks := by
  have hPart : ∀ events : List RunEvent, (events.foldl (scanEvent j) {}).Of
      (events.filterMap fun e => markOf e.kind (j.memberOf e)) := by
    intro events
    induction events using List.reverseRecOn with
    | nil => exact ⟨by simp, by simp, by simp, by simp⟩
    | append_singleton front e ih =>
      rw [List.foldl_append, List.filterMap_append]
      have hStep := ih.scanEvent j e
      exact hStep
  exact hPart j.events

/-! ## Recordings -/

/-- `j'` is `j` with the given marks recorded, each of which was missing. -/
structure Recording (codec : Codec) (j : Journal) (added : List Mark) (j' : Journal) : Prop where
  sound : SoundJournal codec j'
  runId : j'.runId = j.runId
  marks : j'.marks = j.marks ++ added

namespace Recording

variable {codec : Codec} {j j' j'' : Journal} {added more : List Mark}

theorem refl (h : SoundJournal codec j) : Recording codec j [] j := ⟨h, rfl, by simp⟩

theorem trans (h : Recording codec j added j') (h' : Recording codec j' more j'') :
    Recording codec j (added ++ more) j'' :=
  ⟨h'.sound, h'.runId.trans h.runId, by rw [h'.marks, h.marks, List.append_assoc]⟩

theorem one (hNames : NamesSound codec) (h : SoundJournal codec j) {draft : EventDraft}
    {mark : Mark} (hMark : draft.mark = some mark) (hNew : mark ∉ j.marks) (now : Int) :
    Recording codec j [mark] (j.record codec draft now).2 where
  sound := h.record hNames hMark hNew
  runId := runId_record codec j draft now
  marks := by
    rw [marks_record hNames h.recorded h.complete, hMark]
    rfl

end Recording

section Passes

variable {server : CoordinationServer} {times : DriveTimes} {tenant : String}
  {store : CoordinationStore} {record : CoordinationRecord} {j : Journal} {startId : String}

theorem memberNamed_sendJson (external kind recipient : String) (m : MemberRecord) :
    memberNamed (sendJson external m kind recipient) = some m.member := by
  simp [memberNamed, sendJson, Json.object, Json.get, Json.lookupField_insertField, Json.asStr]

theorem memberNamed_settlementJson (external : String) (d : MemberDisposition) :
    memberNamed (settlementJson external d) = some d.member := by
  simp [memberNamed, settlementJson, Json.object, Json.get, Json.lookupField_insertField,
    Json.asStr]

theorem mark_receiveDraft (external parent : String) (d : MemberDisposition) :
    (receiveDraft external parent d).mark = some (.received d.member) := by
  simp [EventDraft.mark, receiveDraft, markOf, memberNamed_settlementJson]

structure MemberTask (tenant external : String) (now : Instant) (m : MemberRecord)
    (t : TaskRecord) : Prop where
  new : ∃ task, t = .new task now
  taskId : t.taskId = m.taskId
  tenant : t.tenant = tenant
  key : t.idempotencyKey = some (memberIdempotencyKey external m.member)

variable {s s' : Submission} {members members' : List MemberRecord} {codec : Codec}
  {done : Finset String} {name : String} {α β : Type} {pass : Pass}

theorem submitMember_spec (hNames : NamesSound server.codec) {m : MemberRecord}
    (hSound : SoundJournal server.codec s.journal) (hNew : .sent m.member ∉ s.journal.marks)
    (h : submitMember server times tenant store record startId m s = .ok s') :
    Recording server.codec s.journal [.sent m.member] s'.journal ∧
      ∃ t, MemberTask tenant (record.external tenant) times.now m t ∧
        s'.pending = s.pending ++ [t] := by
  unfold submitMember at h
  split at h
  · cases h
  · split at h
    · cases h
    · cases h
      refine ⟨.one hNames hSound ?_ hNew _, ?_⟩
      · simp [EventDraft.mark, markOf, memberNamed_sendJson]
      · exact ⟨_, ⟨⟨_, rfl⟩, rfl, rfl, rfl⟩, rfl⟩

/-- **The submissions.** Some of the members that are not submitted get their send and their
task, in order and within the window. -/
theorem submitMembers_spec (hNames : NamesSound server.codec) {window inFlight : Nat}
    (hSound : SoundJournal server.codec s.journal) (hNodup : (members.map (·.member)).Nodup)
    (hNew : ∀ m ∈ members, m.submitted = false → .sent m.member ∉ s.journal.marks)
    (h : submitMembers server times tenant store record startId window members inFlight s =
      .ok (members', s')) :
    ∃ added : List MemberRecord, added.Sublist members ∧
      Recording server.codec s.journal (added.map (.sent ·.member)) s'.journal ∧
      inFlight + added.length ≤ max inFlight window ∧
      (∃ tasks, List.Forall₂ (MemberTask tenant (record.external tenant) times.now) added tasks ∧
        s'.pending = s.pending ++ tasks) ∧
      members'.map (fun m => (m.member, m.taskId)) =
        members.map (fun m => (m.member, m.taskId)) := by
  induction members generalizing inFlight s members' with
  | nil =>
    cases h
    exact ⟨[], .slnil, .refl hSound, le_max_left _ _, ⟨[], .nil, by simp⟩, rfl⟩
  | cons m rest ih =>
    rw [List.map_cons, List.nodup_cons] at hNodup
    rw [submitMembers] at h
    split at h
    · -- submitted already, or the window is full
      obtain ⟨⟨rest', s''⟩, hRest, hDone⟩ := bind_eq_ok.mp h
      cases hDone
      obtain ⟨added, hSub, hRec, hWindow, hPending, hStatic⟩ := ih hSound hNodup.2
        (fun other hOther => hNew other (List.mem_cons_of_mem _ hOther)) hRest
      refine ⟨added, hSub.cons m, hRec, hWindow, hPending, ?_⟩
      rw [List.map_cons, List.map_cons, hStatic]
    · next hDue =>
      simp only [Bool.or_eq_true, decide_eq_true_eq, not_or, Bool.not_eq_true, not_le] at hDue
      split at h
      · -- over quota
        cases h
        exact ⟨[], List.nil_sublist _, .refl hSound, le_max_left _ _, ⟨[], .nil, by simp⟩, rfl⟩
      · obtain ⟨mid, hMid, hThen⟩ := bind_eq_ok.mp h
        obtain ⟨⟨rest', s''⟩, hRest, hDone⟩ := bind_eq_ok.mp hThen
        cases hDone
        obtain ⟨hOne, t, hTask, hFirst⟩ := submitMember_spec hNames hSound
          (hNew m List.mem_cons_self hDue.1) hMid
        have hNew' : ∀ other ∈ rest, other.submitted = false →
            .sent other.member ∉ mid.journal.marks := by
          intro other hOther hOpen hIn
          rw [hOne.marks, List.mem_append, List.mem_singleton, Mark.sent.injEq] at hIn
          rcases hIn with hOld | hSame
          · exact hNew other (List.mem_cons_of_mem _ hOther) hOpen hOld
          · exact hNodup.1 (hSame ▸ List.mem_map_of_mem hOther)
        obtain ⟨added, hSub, hRec, hWindow, ⟨tasks, hTasks, hPending⟩, hStatic⟩ :=
          ih hOne.sound hNodup.2 hNew' hRest
        refine ⟨m :: added, hSub.cons_cons m, ?_, ?_, ⟨t :: tasks, .cons hTask hTasks, ?_⟩, ?_⟩
        · exact hOne.trans hRec
        · rw [List.length_cons]
          omega
        · rw [hPending, hFirst, List.append_assoc]
          rfl
        · rw [List.map_cons, List.map_cons, hStatic]

/-- What the loops over settlements keep: the set of observed members is that of the journal. -/
def Observed (done : Finset String) (j : Journal) : Prop :=
  ∀ name, name ∈ done ↔ .received name ∈ j.marks

theorem Observed.insert {j' : Journal} (h : Observed done j)
    (hRec : Recording codec j [.received name] j') : Observed (Insert.insert name done) j' := by
  intro other
  rw [Finset.mem_insert, hRec.marks, List.mem_append, List.mem_singleton, Mark.received.injEq,
    h other]
  exact or_comm

def Aligned (m : MemberRecord × MemberState) : Prop :=
  ∀ d, m.2.disposition = some d → d.member = m.1.member

/-- The observations of some members, each of which was missing. -/
def Observes (codec : Codec) (j : Journal) (j' : Journal) (done' : Finset String) : Prop :=
  ∃ names : List String, Recording codec j (names.map .received) j' ∧ Observed done' j'

theorem Observes.refl (hSound : SoundJournal codec j) (hDone : Observed done j) :
    Observes codec j j done :=
  ⟨[], .refl hSound, hDone⟩

theorem Observes.one (hNames : NamesSound server.codec) {d : MemberDisposition}
    (hSound : SoundJournal server.codec j) (hDone : Observed done j) (hName : d.member = name)
    (hOpen : name ∉ done) (times : DriveTimes) (external parent : String) :
    Observes server.codec j (recordEvent server times j (receiveDraft external parent d)).2
      (insert name done) := by
  have hMark : (receiveDraft external parent d).mark = some (.received name) := by
    rw [mark_receiveDraft, hName]
  have hRec := Recording.one hNames hSound hMark (fun hIn => hOpen ((hDone _).mpr hIn))
    (times.clock j.events.length)
  exact ⟨[name], hRec, hDone.insert hRec⟩

/-- **The rule for loops that observe.** A loop whose rounds add observations adds
observations. -/
theorem observes_foldl {f : Journal × Finset String × β → α → Journal × Finset String × β}
    {xs : List α} (hRound : ∀ a ∈ xs, ∀ j done b, SoundJournal codec j → Observed done j →
      Observes codec j (f (j, done, b) a).1 (f (j, done, b) a).2.1) (b : β)
    (hSound : SoundJournal codec j) (hDone : Observed done j) :
    Observes codec j (xs.foldl f (j, done, b)).1 (xs.foldl f (j, done, b)).2.1 := by
  induction xs generalizing j done b with
  | nil => exact .refl hSound hDone
  | cons a rest ih =>
    obtain ⟨names, hRec, hObserved⟩ := hRound a List.mem_cons_self j done b hSound hDone
    obtain ⟨more, hRest, hFinal⟩ := ih
      (fun other hOther => hRound other (List.mem_cons_of_mem _ hOther)) _ hRec.sound hObserved
    refine ⟨names ++ more, ?_, hFinal⟩
    rw [List.map_append]
    exact hRec.trans hRest

theorem observeMember_spec (hNames : NamesSound server.codec) (times : DriveTimes)
    (external startId : String) (book : LatchBook) (dirty : Bool) {m : MemberRecord × MemberState}
    (hSound : SoundJournal server.codec j) (hDone : Observed done j) (hAligned : Aligned m) :
    Observes server.codec j
      (observeMember server times external startId book (j, done, dirty) m).1
      (observeMember server times external startId book (j, done, dirty) m).2.1 := by
  unfold observeMember
  cases hD : m.2.disposition with
  | none => exact .refl hSound hDone
  | some d =>
    simp only
    split
    · exact .refl hSound hDone
    · next hOpen => exact .one hNames hSound hDone (hAligned d hD) hOpen times external _

theorem settleMember_spec (hNames : NamesSound server.codec) (times : DriveTimes)
    (external startId : String) (plan : SettlePlan) (dispositions : List MemberDisposition)
    (m : MemberRecord × MemberState) (hSound : SoundJournal server.codec j)
    (hDone : Observed done j) :
    Observes server.codec j
      (settleMember server times external startId plan (j, done, dispositions) m).1
      (settleMember server times external startId plan (j, done, dispositions) m).2.1 := by
  unfold settleMember
  simp only
  split
  · split
    · exact .refl hSound hDone
    · next hOpen => exact .one hNames hSound hDone rfl hOpen times external startId
  · exact .refl hSound hDone

/-! ## A pass -/

/-- Members with the same names and task ids as those whose states are given are aligned with
them. -/
theorem aligned_zip {tasks : String → Option TaskRecord}
    (hStatic : members'.map (fun m => (m.member, m.taskId)) =
      members.map (fun m => (m.member, m.taskId))) :
    ∀ m ∈ members'.zip (members.map (memberState tasks)), Aligned m := by
  induction members generalizing members' with
  | nil =>
    intro m hM
    simp at hM
  | cons first rest ih =>
    cases members' with
    | nil => cases hStatic
    | cons first' rest' =>
      rw [List.map_cons, List.map_cons, List.cons.injEq] at hStatic
      intro m hM
      rw [List.map_cons, List.zip_cons_cons, List.mem_cons] at hM
      rcases hM with rfl | hRest
      · intro d hD
        obtain ⟨t, -, hT⟩ := Option.bind_eq_some_iff.mp hD
        rw [(dispositionOf_eq_some hT).1]
        exact (Prod.mk.inj hStatic.1).1.symm
      · exact ih hStatic.2 m hRest

structure Prepared (server : CoordinationServer) (times : DriveTimes) (tenant : String)
    (store : CoordinationStore) (record : CoordinationRecord) (j : Journal) (pass : Pass)
    (submitted : List MemberRecord) : Prop where
  recording : ∃ started observed : List Mark, (∀ mark ∈ started, mark = .start) ∧
    (∀ mark ∈ observed, ∃ name, mark = .received name) ∧
    Recording server.codec j (started ++ submitted.map (.sent ·.member) ++ observed) pass.journal
  sublist : submitted.Sublist (record.members.map (latched tenant store.server.queue j.scan))
  window : (record.members.map (latched tenant store.server.queue j.scan)).countP (fun m =>
      m.submitted && (memberState (store.server.queue.getTask tenant) m).disposition.isNone) +
      submitted.length ≤ max ((record.members.map
        (latched tenant store.server.queue j.scan)).countP fun m =>
      m.submitted && (memberState (store.server.queue.getTask tenant) m).disposition.isNone)
      record.contract.window
  pending : List.Forall₂ (MemberTask tenant (record.external tenant) times.now) submitted
    pass.pending
  observed : Observed pass.settlementDone pass.journal
  aligned : ∀ m ∈ pass.record.members.zip pass.states, Aligned m
  roster : pass.record.members.map (fun m => (m.member, m.taskId)) =
    record.members.map (fun m => (m.member, m.taskId))
  kept : ∃ members, pass.record = { record with members }

theorem static_latched (queue : JsonFileStore) (book : LatchBook) (members : List MemberRecord) :
    (members.map (latched tenant queue book)).map (fun m => (m.member, m.taskId)) =
      members.map (fun m => (m.member, m.taskId)) := by
  rw [List.map_map]
  rfl

variable (hNames : NamesSound server.codec)
include hNames

theorem startEvent_spec (times : DriveTimes) (tenant : String) (record : CoordinationRecord)
    (hSound : SoundJournal server.codec j) :
    ∃ started : List Mark, (∀ mark ∈ started, mark = .start) ∧
      Recording server.codec j started (startEvent server times tenant record j.scan j).2 := by
  unfold startEvent
  cases hStart : j.scan.startId with
  | some id => exact ⟨[], by simp, .refl hSound⟩
  | none =>
    refine ⟨[.start], by simp, .one hNames hSound rfl ?_ _⟩
    intro hIn
    have hSome := (scan_spec j).start.mpr hIn
    rw [hStart] at hSome
    cases hSome

theorem preparePass_spec (hSound : SoundJournal server.codec j)
    (hNodup : (record.members.map (·.member)).Nodup)
    (h : preparePass server times tenant store record j = .ok pass) :
    ∃ submitted, Prepared server times tenant store record j pass submitted := by
  obtain ⟨started, hStarted, hRec⟩ := startEvent_spec hNames times tenant record hSound
  simp only [preparePass] at h
  generalize startEvent server times tenant record j.scan j = begin at h hRec
  obtain ⟨startId, begun⟩ := begin
  have hBegun : Observed j.scan.settlementDone begun := by
    intro name
    rw [(scan_spec j).received name, hRec.marks, List.mem_append]
    refine ⟨.inl, fun hIn => hIn.resolve_right fun hStart => ?_⟩
    cases hStarted _ hStart
  split at h
  · -- the coordination has ended
    cases h
    refine ⟨[], ⟨started, [], hStarted, by simp, by simpa using hRec⟩, List.nil_sublist _,
      le_max_left _ _, .nil, hBegun, ?_, static_latched _ _ _, _, rfl⟩
    exact aligned_zip rfl
  · obtain ⟨⟨members, s⟩, hSubmit, hDone⟩ := bind_eq_ok.mp h
    cases hDone
    have hNodup' : ((record.members.map (latched tenant store.server.queue j.scan)).map
        (·.member)).Nodup := by
      rw [List.map_map]
      exact hNodup
    have hNew : ∀ m ∈ record.members.map (latched tenant store.server.queue j.scan),
        m.submitted = false → .sent m.member ∉ begun.marks := by
      intro m hM hOpen hIn
      obtain ⟨old, -, rfl⟩ := List.mem_map.mp hM
      rw [hRec.marks, List.mem_append] at hIn
      have hOld : Mark.sent old.member ∈ j.marks := by
        refine hIn.resolve_right fun hStart => ?_
        cases hStarted _ hStart
      have hSent := ((scan_spec j).sent old.member).mpr hOld
      simp [latched, hSent] at hOpen
    obtain ⟨submitted, hSub, hSends, hWindow, ⟨tasks, hTasks, hPending⟩, hStatic⟩ :=
      submitMembers_spec hNames hRec.sound hNodup' hNew hSubmit
    have hSent : Observed j.scan.settlementDone s.journal := by
      intro name
      rw [hBegun name, hSends.marks, List.mem_append]
      refine ⟨.inl, fun hIn => hIn.resolve_right fun hOne => ?_⟩
      obtain ⟨m, -, hM⟩ := List.mem_map.mp hOne
      cases hM
    have hAligned : ∀ m ∈ members.zip ((record.members.map
        (latched tenant store.server.queue j.scan)).map
          (memberState (store.server.queue.getTask tenant))), Aligned m := aligned_zip hStatic
    obtain ⟨names, hReceives, hFinal⟩ := observes_foldl
      (fun m hM _ _ dirty hSound hDone => observeMember_spec hNames times _ _ _ dirty hSound hDone
        (hAligned m hM)) s.dirty hSends.sound hSent
    refine ⟨submitted, ⟨started, names.map .received, hStarted, ?_, ?_⟩, hSub, ?_, ?_, hFinal,
      hAligned, ?_, _, rfl⟩
    · intro mark hMark
      obtain ⟨name, -, rfl⟩ := List.mem_map.mp hMark
      exact ⟨name, rfl⟩
    · exact (hRec.trans hSends).trans hReceives
    · rw [← List.map_prod_left_eq_zip, List.countP_map] at hWindow
      exact hWindow
    · rw [hPending]
      exact hTasks
    · exact hStatic.trans (static_latched _ _ _)

/-- **A settlement adds observations and the end.** The rest of the pass is as it was, but for
what is said of the settlement in the record. -/
theorem settledPass_spec (hSound : SoundJournal server.codec pass.journal)
    (hDone : Observed pass.settlementDone pass.journal) (hOpen : .ended ∉ pass.journal.marks)
    (times : DriveTimes) (tenant : String) (plan : SettlePlan) :
    ∃ names : List String, Recording server.codec pass.journal (names.map .received ++ [.ended])
      (settledPass server times tenant pass plan).2.2.journal := by
  obtain ⟨names, hReceives, -⟩ := observes_foldl
    (fun m (_ : m ∈ pass.record.members.zip pass.states) _ _ dispositions hSound hDone =>
      settleMember_spec hNames times _ _ plan dispositions m hSound hDone) [] hSound hDone
  refine ⟨names, hReceives.trans (.one hNames hReceives.sound rfl ?_ _)⟩
  rw [hReceives.marks, List.mem_append, not_or]
  refine ⟨hOpen, fun hIn => ?_⟩
  obtain ⟨name, -, hName⟩ := List.mem_map.mp hIn
  cases hName

end Passes

end RustyRuntime
