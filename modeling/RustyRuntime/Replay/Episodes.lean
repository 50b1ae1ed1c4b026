import RustyRuntime.Replay.Wrappers

/-!
# The episodes of a recorded run

An `Episode` is what one call of a recorded run journals: the approvals made inside it and the
event of the call. The recorded run journals its episodes one after the other
(`Program.journal_record`), and the cursor over its snapshot holds them in that order
(`Program.source_record`).

A replaying wrapper serves an episode back when it is asked for the same kind and request, and
journals its drafts again at other readings of the clock (`replayCall_eq`).
-/

namespace RustyRuntime

/-! ## Records in sequence -/

/-- Drafts with the readings of the clock at which they are recorded one after the other. -/
def stamp (clock : Nat → Int) : Nat → List EventDraft → List (EventDraft × Int)
  | _, [] => []
  | reads, draft :: rest => (draft, clock reads) :: stamp clock (reads + 1) rest

section

variable (clock : Nat → Int) (reads : Nat) (drafts : List EventDraft)

theorem length_stamp : (stamp clock reads drafts).length = drafts.length := by
  induction drafts generalizing reads with
  | nil => rfl
  | cons draft rest ih => simp [stamp, ih]

theorem map_fst_stamp : (stamp clock reads drafts).map Prod.fst = drafts := by
  induction drafts generalizing reads with
  | nil => rfl
  | cons draft rest ih => simp [stamp, ih]

theorem stamp_eq_iff :
    stamp clock reads drafts = stamp clock (reads + 1) drafts ↔
      ∀ i < drafts.length, clock (reads + i) = clock (reads + i + 1) := by
  induction drafts generalizing reads with
  | nil => simp [stamp]
  | cons draft rest ih =>
    simp only [stamp, List.cons.injEq, Prod.mk.injEq, true_and, ih, List.length_cons]
    constructor
    · rintro ⟨hHead, hRest⟩ i hI
      cases i with
      | zero => exact hHead
      | succ k =>
        have hK := hRest k (by omega)
        rwa [Nat.add_right_comm, Nat.add_assoc reads k 1] at hK
    · intro h
      refine ⟨h 0 (by omega), fun i hI => ?_⟩
      have hNext := h (i + 1) (by omega)
      rwa [← Nat.add_assoc, Nat.add_right_comm reads i 1] at hNext

end

section Sessions

variable (codec : Codec) (clock : Nat → Int)

theorem foldl_record (drafts : List EventDraft) (s : Session) :
    drafts.foldl (fun s draft => (s.record codec clock draft).2) s =
      ⟨s.journal.recordAll codec (stamp clock s.reads drafts), s.reads + drafts.length⟩ := by
  induction drafts generalizing s with
  | nil => rfl
  | cons draft rest ih =>
    rw [List.foldl_cons, ih, List.length_cons]
    simp only [Session.record, Session.now, stamp, Journal.recordAll, List.foldl_cons,
      Session.mk.injEq, true_and]
    omega

/-- What the gates of a call record, the first at position `pos` of the run. -/
def approvalDrafts (runId : String) : Nat → List Approval → List EventDraft
  | _, [] => []
  | pos, a :: rest =>
    askedDraft a :: decidedDraft a s!"{runId}:{UInt64.ofNat pos}" ::
      approvalDrafts runId (pos + 2) rest

theorem length_approvalDrafts (runId : String) (pos : Nat) (approvals : List Approval) :
    (approvalDrafts runId pos approvals).length = 2 * approvals.length := by
  induction approvals generalizing pos with
  | nil => rfl
  | cons a rest ih =>
    simp only [approvalDrafts, List.length_cons, ih]
    omega

theorem isNestedEvidence_approvalDrafts {runId : String} {pos : Nat} {approvals : List Approval}
    {draft : EventDraft} (hMem : draft ∈ approvalDrafts runId pos approvals) :
    isNestedEvidence draft.kind := by
  induction approvals generalizing pos with
  | nil => cases hMem
  | cons a rest ih =>
    rcases List.mem_cons.mp hMem with rfl | hRest
    · rfl
    · rcases List.mem_cons.mp hRest with rfl | hMore
      · rfl
      · exact ih hMore

theorem foldl_gateDecide (approvals : List Approval) (s : Session) :
    approvals.foldl (gateDecide codec clock) s =
      ⟨s.journal.recordAll codec (stamp clock s.reads
        (approvalDrafts s.journal.runId s.journal.events.length approvals)),
        s.reads + 2 * approvals.length⟩ := by
  induction approvals generalizing s with
  | nil => rfl
  | cons a rest ih =>
    rw [List.foldl_cons, ih]
    simp only [gateDecide, Session.record, Session.now, events_record, runId_record,
      List.length_append, List.length_cons, List.length_nil, approvalDrafts, stamp,
      Journal.recordAll, List.foldl_cons, Session.mk.injEq]
    exact ⟨rfl, by omega⟩

end Sessions

/-! ## Episodes -/

/-- What one call of the recorded run journals, from position `pos` on. -/
structure Episode where
  pos : Nat
  nested : List (EventDraft × Int)
  call : EventDraft × Int

namespace Episode

def records (e : Episode) : List (EventDraft × Int) := e.nested ++ [e.call]

/-- The event of the call, and the evidence journaled inside it. -/
def effect (codec : Codec) (runId threadId : String) (e : Episode) : RunEvent × List RunEvent :=
  (eventOf codec runId threadId (e.pos + e.nested.length) e.call.1 e.call.2,
    eventsFrom codec runId threadId e.pos e.nested)

/-- The episode of a call that starts after `reads` clock reads. -/
def ofCall (clock : Nat → Int) (runId : String) (pos reads : Nat) (approvals : List Approval)
    (outcome : UInt64 → EventDraft) : Episode where
  pos := pos
  nested := stamp clock (reads + 1) (approvalDrafts runId pos approvals)
  call := (outcome (latencyMs (clock reads) (clock (reads + 2 * approvals.length + 1))),
    clock (reads + 2 * approvals.length + 2))

def replayed (clock : Nat → Int) (reads : Nat) (parent : String) (e : Episode) :
    List (EventDraft × Int) :=
  stamp clock reads (e.nested.map Prod.fst) ++
    [({ e.call.1 with parent := some parent }, clock (reads + e.nested.length + 2))]

variable {codec : Codec} {clock : Nat → Int} {runId threadId : String} {pos reads : Nat}
  {approvals : List Approval} {outcome : UInt64 → EventDraft}

theorem length_nested_ofCall :
    (ofCall clock runId pos reads approvals outcome).nested.length = 2 * approvals.length := by
  rw [ofCall, length_stamp, length_approvalDrafts]

theorem length_records_ofCall :
    (ofCall clock runId pos reads approvals outcome).records.length = 2 * approvals.length + 1 := by
  rw [records, List.length_append, length_nested_ofCall]
  rfl

theorem eventsFrom_records (e : Episode) :
    eventsFrom codec runId threadId e.pos e.records =
      (e.effect codec runId threadId).2 ++ [(e.effect codec runId threadId).1] := by
  rw [records, eventsFrom_append]
  rfl

/-- Stamped one reading earlier and under its own parent, the episode is what was recorded. -/
theorem replayed_eq_records {parent : String}
    (hParent : ∀ latency, (outcome latency).parent = some parent)
    (hSteady : ∀ i < 2 * approvals.length, clock (reads + i) = clock (reads + i + 1)) :
    (ofCall clock runId pos reads approvals outcome).replayed clock reads parent =
      (ofCall clock runId pos reads approvals outcome).records := by
  rw [replayed, length_nested_ofCall]
  simp only [records, ofCall, map_fst_stamp]
  rw [(stamp_eq_iff clock reads _).mpr (by rwa [length_approvalDrafts]), ← hParent]

theorem of_eventsFrom_replayed {parent parent' : String}
    (hParent : ∀ latency, (outcome latency).parent = some parent)
    (hEvents : eventsFrom codec runId threadId pos
        ((ofCall clock runId pos reads approvals outcome).replayed clock reads parent') =
      eventsFrom codec runId threadId pos
        (ofCall clock runId pos reads approvals outcome).records) :
    (∀ i < 2 * approvals.length, clock (reads + i) = clock (reads + i + 1)) ∧
      parent' = parent := by
  rw [replayed, records, eventsFrom_append, eventsFrom_append, length_nested_ofCall,
    length_stamp, List.length_map] at hEvents
  obtain ⟨hNested, hCall⟩ := List.append_inj hEvents (by simp [length_eventsFrom, length_stamp])
  have hStamps := eventsFrom_injective (map_fst_stamp clock reads _) hNested
  constructor
  · simp only [ofCall, map_fst_stamp] at hStamps
    rwa [stamp_eq_iff, length_approvalDrafts] at hStamps
  · simp only [eventsFrom, List.cons.injEq, and_true] at hCall
    have hSame : some parent' = some parent :=
      (congrArg RunEvent.parent hCall).trans (hParent _)
    exact Option.some.inj hSame

end Episode

/-! ## The recorded run -/

section Runs

variable {codec : Codec} {clock : Nat → Int} {inner : Inner} {α : Type}

theorem recordCall_eq (s : Session) (approvals : List Approval) (outcome : UInt64 → EventDraft) :
    recordCall codec clock s approvals outcome =
      ⟨s.journal.recordAll codec (Episode.ofCall clock s.journal.runId s.journal.events.length
        s.reads approvals outcome).records, s.reads + 2 * approvals.length + 3⟩ := by
  simp only [recordCall, Session.now, foldl_gateDecide, Session.record, Episode.records,
    Episode.ofCall, recordAll_append, Session.mk.injEq]
  refine ⟨?_, by omega⟩
  have hEnded : s.reads + 1 + 2 * approvals.length = s.reads + 2 * approvals.length + 1 := by omega
  rw [hEnded]
  rfl

/-- What the calls of the recorded run journal, from the `n`-th on. -/
def Program.episodes (clock : Nat → Int) (inner : Inner) (runId : String) :
    Program α → Nat → Nat → Nat → List Episode
  | .done _, _, _, _ => []
  | .chat site request next, n, pos, reads =>
    let answer := inner.chat n
    Episode.ofCall clock runId pos reads answer.approvals (fun latency =>
        site.outcomeDraft latency (modelCallRequest request) answer.result) ::
      (next answer.result).episodes clock inner runId (n + 1)
        (pos + 2 * answer.approvals.length + 1) (reads + 2 * answer.approvals.length + 3)
  | .call site args next, n, pos, reads =>
    let answer := inner.call n
    Episode.ofCall clock runId pos reads answer.approvals (fun latency =>
        site.outcomeDraft latency args answer.result) ::
      (next answer.result).episodes clock inner runId (n + 1)
        (pos + 2 * answer.approvals.length + 1) (reads + 2 * answer.approvals.length + 3)

/-- Everything the recorded run journals, with its timestamps. -/
def Program.records (clock : Nat → Int) (inner : Inner) (runId : String) (p : Program α) :
    List (EventDraft × Int) :=
  (p.episodes clock inner runId 0 0 0).flatMap Episode.records

section

variable (s : Session) (approvals : List Approval) (outcome : UInt64 → EventDraft)

theorem length_events_recordCall : (recordCall codec clock s approvals outcome).journal.events.length =
      s.journal.events.length + 2 * approvals.length + 1 := by
  rw [recordCall_eq, events_recordAll, List.length_append, length_eventsFrom,
    Episode.length_records_ofCall]
  rfl

theorem runId_recordCall :
    (recordCall codec clock s approvals outcome).journal.runId = s.journal.runId := by
  rw [recordCall_eq, runId_recordAll]

theorem threadId_recordCall :
    (recordCall codec clock s approvals outcome).journal.threadId = s.journal.threadId := by
  rw [recordCall_eq, threadId_recordAll]

theorem reads_recordCall : (recordCall codec clock s approvals outcome).reads =
    s.reads + 2 * approvals.length + 3 := by
  rw [recordCall_eq]

end

/-- **The recorded run journals its episodes.** -/
theorem Program.journal_record (p : Program α) (n : Nat) (s : Session) :
    (p.record codec clock inner n s).2.journal = s.journal.recordAll codec
      ((p.episodes clock inner s.journal.runId n s.journal.events.length s.reads).flatMap
        Episode.records) := by
  induction p generalizing n s with
  | done a => rfl
  | chat site request next ih =>
    simp only [Program.record, recordingChat, Program.episodes, List.flatMap_cons,
      recordAll_append]
    rw [ih, length_events_recordCall, runId_recordCall, recordCall_eq]
  | call site args next ih =>
    simp only [Program.record, recordingCall, Program.episodes, List.flatMap_cons,
      recordAll_append]
    rw [ih, length_events_recordCall, runId_recordCall, recordCall_eq]

structure Outcomes (kind : RunEventKind) (request : Json) (parent : String)
    (outcome : UInt64 → EventDraft) : Prop where
  servable : isServable kind
  kind_eq : ∀ latency, (outcome latency).kind = kind
  input_eq : ∀ latency, (outcome latency).input = some request
  parent_eq : ∀ latency, (outcome latency).parent = some parent

theorem outcomes_chat (site : ChatSite) (request : Json) (result : Result ChatResponse) :
    Outcomes .modelCall request site.parent
      fun latency => site.outcomeDraft latency request result := by
  cases result with
  | ok response | error e => exact ⟨rfl, fun _ => rfl, fun _ => rfl, fun _ => rfl⟩

theorem outcomes_call (site : ToolSite) (args : Json) (result : Result Json) :
    Outcomes .toolCall (toolCallRequest site.name args) site.parent
      fun latency => site.outcomeDraft latency args result := by
  cases result with
  | ok value | error e => exact ⟨rfl, fun _ => rfl, fun _ => rfl, fun _ => rfl⟩

variable {runId threadId parent : String} {kind : RunEventKind} {request : Json}
  {outcome : UInt64 → EventDraft} {source : ReplaySource}
  {records more nested : List (EventDraft × Int)}

theorem kind_mem_eventsFrom {n : Nat} {e : RunEvent}
    (hMem : e ∈ eventsFrom codec runId threadId n records) :
    ∃ draft ∈ records.map Prod.fst, e.kind = draft.kind := by
  induction records generalizing n with
  | nil => cases hMem
  | cons r rest ih =>
    rcases List.mem_cons.mp hMem with rfl | hRest
    · exact ⟨r.1, List.mem_cons_self, rfl⟩
    · obtain ⟨draft, hDraft, hKind⟩ := ih hRest
      exact ⟨draft, List.mem_cons_of_mem _ hDraft, hKind⟩

theorem nests_ofCall (hOutcomes : Outcomes kind request parent outcome) (threadId : String)
    (pos reads : Nat) (approvals : List Approval) :
    Nests ((Episode.ofCall clock runId pos reads approvals outcome).effect codec runId
      threadId) := by
  constructor
  · change isServable (outcome _).kind
    rw [hOutcomes.kind_eq]
    exact hOutcomes.servable
  · intro e hE
    obtain ⟨draft, hDraft, hKind⟩ := kind_mem_eventsFrom hE
    simp only [Episode.ofCall, map_fst_stamp] at hDraft
    rw [hKind]
    exact isNestedEvidence_approvalDrafts hDraft

section

variable (codec : Codec) (runId threadId : String) (p : Program α) (n pos reads : Nat)

theorem Program.nests_episodes :
    ∀ e ∈ p.episodes clock inner runId n pos reads, Nests (e.effect codec runId threadId) := by
  induction p generalizing n pos reads with
  | done a =>
    intro e hE
    cases hE
  | chat site request next ih =>
    refine List.forall_mem_cons.mpr ⟨?_, ih _ _ _ _⟩
    exact nests_ofCall (outcomes_chat site _ _) threadId pos reads _
  | call site args next ih =>
    refine List.forall_mem_cons.mpr ⟨?_, ih _ _ _ _⟩
    exact nests_ofCall (outcomes_call site args _) threadId pos reads _

theorem Program.eventsFrom_episodes :
    eventsFrom codec runId threadId pos
        ((p.episodes clock inner runId n pos reads).flatMap Episode.records) =
      ((p.episodes clock inner runId n pos reads).map (Episode.effect codec runId threadId)).flatMap
        fun effect => effect.2 ++ [effect.1] := by
  induction p generalizing n pos reads with
  | done a => rfl
  | chat site request next ih | call site args next ih =>
    simp only [Program.episodes, List.flatMap_cons, List.map_cons, eventsFrom_append,
      Episode.length_records_ofCall, ← Nat.add_assoc, ih]
    congr 1
    exact Episode.eventsFrom_records (Episode.ofCall clock runId pos reads _ _)

/-- **The cursor over a recorded run** holds its calls, and strays nothing. -/
theorem Program.source_record (codec : Codec) (runId threadId : String) (p : Program α) :
    let j := (p.record codec clock inner 0 (.fresh codec runId threadId)).2.journal
    ReplaySource.new j.snapshot =
      ⟨(p.episodes clock inner runId 0 0 0).map (Episode.effect codec runId threadId), [],
        j.artifacts, 0⟩ := by
  intro j
  have hEvents : j.events = ((p.episodes clock inner runId 0 0 0).map
      (Episode.effect codec runId threadId)).flatMap fun effect => effect.2 ++ [effect.1] := by
    rw [← p.eventsFrom_episodes]
    change (p.record codec clock inner 0 (.fresh codec runId threadId)).2.journal.events = _
    rw [p.journal_record, events_recordAll]
    rfl
  have hNests : ∀ effect ∈ (p.episodes clock inner runId 0 0 0).map
      (Episode.effect codec runId threadId), Nests effect := by
    intro effect hEffect
    obtain ⟨e, hE, rfl⟩ := List.mem_map.mp hEffect
    exact p.nests_episodes codec runId threadId 0 0 0 e hE
  simp only [ReplaySource.new, Journal.snapshot, hEvents, foldl_event_effects hNests]
  rfl

/-! ## One call of the replay -/

/-- The payloads of records are found behind their references. -/
def Resolves (artifacts : Artifacts) (records : List (EventDraft × Int)) : Prop :=
  ∀ v ∈ payloads records, resolveRef artifacts (payloadOf codec v) = some v

end

theorem resolves_append {artifacts : Artifacts} :
    Resolves codec artifacts (records ++ more) ↔
      Resolves codec artifacts records ∧ Resolves codec artifacts more := by
  simp only [Resolves, payloads, List.flatMap_append, List.mem_append, or_imp, forall_and]

theorem served_eventOf {draft : EventDraft} {now : Int}
    (hResolves : Resolves codec source.artifacts [(draft, now)]) (runId threadId : String) (n : Nat) :
    source.served (eventOf codec runId threadId n draft now) =
      ⟨eventOf codec runId threadId n draft now, draft.input, draft.output⟩ := by
  have hOption : ∀ value : Option Json, (∀ v ∈ value, v ∈ payloads [(draft, now)]) →
      (value.map (payloadOf codec)).bind (resolveRef source.artifacts) = value := by
    intro value hValue
    cases value with
    | none => rfl
    | some v => exact hResolves v (hValue v rfl)
  have hInput := hOption draft.input (by simp [payloads]; tauto)
  have hOutput := hOption draft.output (by simp [payloads]; tauto)
  simp only [ReplaySource.served, eventOf, hInput, hOutput]

theorem map_recordedDraft (hResolves : Resolves codec source.artifacts nested)
    (runId threadId : String) (pos : Nat) :
    ((eventsFrom codec runId threadId pos nested).map source.served).map
        (fun e => { e.recordedDraft with parent := e.event.parent }) = nested.map Prod.fst := by
  induction nested generalizing pos with
  | nil => rfl
  | cons r rest ih =>
    obtain ⟨hHere, hRest⟩ := resolves_append.mp (show Resolves codec _ ([r] ++ rest) from hResolves)
    simp only [eventsFrom, List.map_cons, served_eventOf hHere, ih hRest]
    rfl

theorem foldl_rejournalRecorded (nested : List ServedEvent) (s : Session) :
    nested.foldl (rejournalRecorded codec clock) s =
      let drafts := nested.map fun e => { e.recordedDraft with parent := e.event.parent }
      ⟨s.journal.recordAll codec (stamp clock s.reads drafts), s.reads + drafts.length⟩ := by
  rw [← foldl_record, List.foldl_map]
  rfl

/-- **One call of the replay.** A request of the recorded kind and hash is served: the drafts of
the episode are journaled again, and the answer carries the recorded status and output. Any
other request is refused. -/
theorem replayCall_eq (hOutcomes : Outcomes kind request parent outcome) {pos : Nat}
    {approvals : List Approval} {r : Replay} {episode : Episode}
    (hEpisode : episode = Episode.ofCall clock runId pos r.session.reads approvals outcome)
    {more : List (RunEvent × List RunEvent)}
    (hRest : r.source.rest = episode.effect codec runId threadId :: more)
    (hResolves : Resolves codec r.source.artifacts episode.records) (kind' : RunEventKind)
    (request' : Json) (parent' : String) :
    if kind = kind' ∧ requestHash codec request = requestHash codec request' then
      ∃ served : ServedEffect,
        served.event = (episode.effect codec runId threadId).1 ∧
        served.output = episode.call.1.output ∧
        replayCall codec clock kind' request' parent' r = (.ok served,
          ⟨⟨r.session.journal.recordAll codec (episode.replayed clock r.session.reads parent'),
            r.session.reads + 2 * approvals.length + 3⟩,
            { r.source with cursor := r.source.cursor + 1 }, r.refused⟩)
    else ∃ e, replayCall codec clock kind' request' parent' r =
      (.error e, { r with refused := r.refused ++ [e] }) := by
  obtain ⟨hNested, hCall⟩ := resolves_append.mp hResolves
  have hLength : episode.nested.length = 2 * approvals.length := by
    rw [hEpisode, Episode.length_nested_ofCall]
  have hKind : (episode.effect codec runId threadId).1.kind = kind := by
    rw [hEpisode]
    exact hOutcomes.kind_eq _
  have hCallServed : r.source.served (episode.effect codec runId threadId).1 =
      ⟨(episode.effect codec runId threadId).1, episode.call.1.input, episode.call.1.output⟩ :=
    served_eventOf hCall runId threadId _
  have hInput : (episode.effect codec runId threadId).1.input.bind
      (resolveRef r.source.artifacts) = some request := by
    have hOutcome : episode.call.1.input = some request := by
      rw [hEpisode]
      exact hOutcomes.input_eq _
    exact (congrArg ServedEvent.input hCallServed).trans hOutcome
  have hServe := r.source.serve_eq codec hRest (hKind ▸ hOutcomes.servable) hInput kind' request'
  rw [hKind] at hServe
  split at hServe
  · next hMatch =>
    rw [if_pos hMatch]
    refine ⟨⟨r.source.served (episode.effect codec runId threadId).1,
      (episode.effect codec runId threadId).2.map r.source.served⟩, rfl, ?_, ?_⟩
    · exact congrArg ServedEvent.output hCallServed
    · have hDrafts : ((episode.effect codec runId threadId).2.map r.source.served).map
          (fun e => { e.recordedDraft with parent := e.event.parent }) =
            episode.nested.map Prod.fst := map_recordedDraft hNested runId threadId episode.pos
      simp only [replayCall, hServe, foldl_rejournalRecorded, hDrafts, hCallServed, Session.now,
        Session.record, Episode.replayed, recordAll_append, List.length_map, hLength]
      rfl
  · next hMatch =>
    obtain ⟨e, hError⟩ := hServe
    rw [if_neg hMatch]
    refine ⟨e, ?_⟩
    simp only [replayCall, hError]

end Runs

end RustyRuntime
