import RustyRuntime.Replay.Episodes

/-!
# When a replay reproduces the recorded run

`replay_reproduces_iff` compares a program on the recording wrappers with the same program on
the replaying wrappers, over the recorded snapshot and with an equal fresh clock. Every call is
served and the events are the same, timestamps included, exactly when

* the approvals journaled inside a call would be stamped the same one clock reading earlier
  (`Steady`): the recording wrapper reads the clock before the call, the replaying one only
  after it has journaled the approvals again;
* the program makes the same calls when it is shown the replayed answers in place of the
  recorded ones (`Program.calls`): a failed call is replayed as an error of another text.

The two runs are compared call by call (`Program.reproduces_iff`).
-/

namespace RustyRuntime

/-! ## The condition -/

structure CallMade where
  kind : RunEventKind
  parent : String
  hash : String
  deriving DecidableEq

/-- How a program gets to see the answer that is recorded at a position. -/
structure Shown where
  chat : UInt64 → Result ChatResponse → Result ChatResponse
  call : UInt64 → Result Json → Result Json

def asRecorded : Shown := ⟨fun _ result => result, fun _ result => result⟩

/-- The answers of the replaying wrappers. -/
def asReplayed (codec : Codec) (text : Json → String) : Shown where
  chat seq result := match result with
    | .ok response => chatResponseFromRecorded codec text seq (modelCallResponse response)
    | .error e => .error (.llm
        (s!"replayed model call at seq {seq} failed as recorded: " ++ e.display))
  call seq result := match result with
    | .ok value => .ok value
    | .error e => .error (.tool
        (s!"replayed tool call at seq {seq} failed as recorded: " ++ e.display))

/-- `reads` clock reads have been made before the first of the calls, and each call journals
so many approvals. -/
def Steady (clock : Nat → Int) : Nat → List Nat → Prop
  | _, [] => True
  | reads, approvals :: rest =>
    (∀ i < 2 * approvals, clock (reads + i) = clock (reads + i + 1)) ∧
      Steady clock (reads + 2 * approvals + 3) rest

instance decidableSteady (clock : Nat → Int) :
    (reads : Nat) → (counts : List Nat) → Decidable (Steady clock reads counts)
  | _, [] => isTrue trivial
  | reads, approvals :: rest =>
    @instDecidableAnd _ _ _ (decidableSteady clock (reads + 2 * approvals + 3) rest)

namespace Program

variable {α : Type}

/-- The calls the program makes from its `n`-th on, when the answers are shown to it in a given
way and `pos` events have been journaled. -/
def calls (codec : Codec) (inner : Inner) (shown : Shown) : Program α → Nat → Nat → List CallMade
  | .done _, _, _ => []
  | .chat site request next, n, pos =>
    let seq := pos + 2 * (inner.chat n).approvals.length
    ⟨.modelCall, site.parent, requestHash codec (modelCallRequest request)⟩ ::
      (next (shown.chat (UInt64.ofNat seq) (inner.chat n).result)).calls codec inner shown
        (n + 1) (seq + 1)
  | .call site args next, n, pos =>
    let seq := pos + 2 * (inner.call n).approvals.length
    ⟨.toolCall, site.parent, requestHash codec (toolCallRequest site.name args)⟩ ::
      (next (shown.call (UInt64.ofNat seq) (inner.call n).result)).calls codec inner shown
        (n + 1) (seq + 1)

/-- How many approvals each call of the recorded run journals. -/
def approvalCounts (inner : Inner) : Program α → Nat → List Nat
  | .done _, _ => []
  | .chat _ _ next, n =>
    (inner.chat n).approvals.length :: (next (inner.chat n).result).approvalCounts inner (n + 1)
  | .call _ _ next, n =>
    (inner.call n).approvals.length :: (next (inner.call n).result).approvalCounts inner (n + 1)

end Program

section Runs

variable {codec : Codec} {clock : Nat → Int} {inner : Inner} {α : Type}

/-! ## The answers -/

theorem recordedErrorText_failureJson (e : RustyError) :
    recordedErrorText (some (failureJson e)) = e.display := by
  simp [recordedErrorText, failureJson, Json.object, Json.insertField, Json.get, Json.lookupField,
    Json.asStr]

variable {latency : UInt64} {served : ServedEffect} {runId threadId : String} {now : Int}
  {r : Replay}

theorem servedResponse_eq {site : ChatSite} {request : Json} {result : Result ChatResponse}
    {n : Nat} (hEvent : served.event =
      eventOf codec runId threadId n (site.outcomeDraft latency request result) now)
    (hOutput : served.output = (site.outcomeDraft latency request result).output)
    (text : Json → String) :
    servedResponse codec text served = (asReplayed codec text).chat (UInt64.ofNat n) result := by
  cases result with
  | ok response => simp [servedResponse, hEvent, hOutput, ChatSite.outcomeDraft, eventOf, asReplayed]
  | error e =>
    simp [servedResponse, hEvent, hOutput, ChatSite.outcomeDraft, eventOf, asReplayed,
      recordedErrorText_failureJson]

theorem servedValue_eq {site : ToolSite} {args : Json} {result : Result Json} {n : Nat}
    (hEvent : served.event =
      eventOf codec runId threadId n (site.outcomeDraft latency args result) now)
    (hOutput : served.output = (site.outcomeDraft latency args result).output)
    (text : Json → String) :
    servedValue served = (asReplayed codec text).call (UInt64.ofNat n) result := by
  cases result with
  | ok value => simp [servedValue, hEvent, hOutput, ToolSite.outcomeDraft, eventOf, asReplayed]
  | error e =>
    simp [servedValue, hEvent, hOutput, ToolSite.outcomeDraft, eventOf, asReplayed,
      recordedErrorText_failureJson]

/-! ## The two runs in step -/

def Extends (codec : Codec) (r later : Replay) : Prop :=
  (∃ records, later.session.journal = r.session.journal.recordAll codec records) ∧
    ∃ refused, later.refused = r.refused ++ refused

theorem Extends.refl (r : Replay) : Extends codec r r :=
  ⟨⟨[], rfl⟩, [], (List.append_nil _).symm⟩

theorem Extends.trans {later last : Replay} (h : Extends codec r later)
    (hLast : Extends codec later last) : Extends codec r last := by
  obtain ⟨⟨records, hRecords⟩, refused, hRefused⟩ := h
  obtain ⟨⟨more, hMore⟩, others, hOthers⟩ := hLast
  refine ⟨⟨records ++ more, ?_⟩, refused ++ others, ?_⟩
  · rw [hMore, hRecords, recordAll_append]
  · rw [hOthers, hRefused, List.append_assoc]

theorem extends_replayCall (kind : RunEventKind) (request : Json) (parent : String) (r : Replay) :
    Extends codec r (replayCall codec clock kind request parent r).2 := by
  unfold replayCall
  split
  · next e hError => exact ⟨⟨[], rfl⟩, [e], rfl⟩
  · next served source hServe =>
    rw [foldl_rejournalRecorded]
    exact ⟨⟨_, (recordAll_append codec r.session.journal _
      [({ served.recordedDraft with parent := some parent }, clock _)]).symm⟩, [],
      (List.append_nil _).symm⟩

theorem Program.extends_replay (text : Json → String) (q : Program α) (r : Replay) :
    Extends codec r (q.replay codec clock text r).2 := by
  induction q generalizing r with
  | done a => exact .refl r
  | chat site request next ih | call site args next ih =>
    exact (extends_replayCall _ _ _ r).trans (ih _ _)

section Call

/- A call of the recorded run with its episode, which the cursor of the replay has reached; and
the call the replay makes, `go` being the rest of its run. -/
variable {kind : RunEventKind} {request : Json} {parent : String} {outcome : UInt64 → EventDraft}
  {approvals : List Approval} {r : Replay} {episode : Episode}
  {more : List (RunEvent × List RunEvent)} {kind' : RunEventKind} {request' : Json}
  {parent' : String} (hOutcomes : Outcomes kind request parent outcome)
  (hEpisode : episode = Episode.ofCall clock r.session.journal.runId
    r.session.journal.events.length r.session.reads approvals outcome)
  (hRest : r.source.rest =
    episode.effect codec r.session.journal.runId r.session.journal.threadId :: more)
  (hResolves : Resolves codec r.source.artifacts episode.records)

include hOutcomes hEpisode hRest hResolves

/-- **The same call, journaled at steady stamps, is replayed as it was recorded.** -/
theorem replayCall_of_same
    (hSteady : ∀ i < 2 * approvals.length,
      clock (r.session.reads + i) = clock (r.session.reads + i + 1))
    (hSame : (⟨kind, parent, requestHash codec request⟩ : CallMade) =
      ⟨kind', parent', requestHash codec request'⟩) :
    ∃ served : ServedEffect,
      served.event =
        (episode.effect codec r.session.journal.runId r.session.journal.threadId).1 ∧
      served.output = episode.call.1.output ∧
      replayCall codec clock kind' request' parent' r = (.ok served,
        ⟨recordCall codec clock r.session approvals outcome,
          { r.source with cursor := r.source.cursor + 1 }, r.refused⟩) := by
  simp only [CallMade.mk.injEq] at hSame
  obtain ⟨hKind, rfl, hHash⟩ := hSame
  have hStep := replayCall_eq hOutcomes hEpisode hRest hResolves kind' request' parent
  rw [if_pos ⟨hKind, hHash⟩] at hStep
  obtain ⟨served, hEvent, hOutput, hCall⟩ := hStep
  refine ⟨served, hEvent, hOutput, ?_⟩
  rw [hCall, recordCall_eq, hEpisode, Episode.replayed_eq_records hOutcomes.parent_eq hSteady]

variable {go : Result ServedEffect × Replay → Replay} (hGo : ∀ x, Extends codec x.2 (go x))
  {last : Journal} (hLast : ∃ records, last =
    (recordCall codec clock r.session approvals outcome).journal.recordAll codec records)

include hGo hLast

/-- **Nothing else reproduces a recorded call.** -/
theorem same_of_reproduced
    (hRefused : (go (replayCall codec clock kind' request' parent' r)).refused = [])
    (hEvents : (go (replayCall codec clock kind' request' parent' r)).session.journal.events =
      last.events) :
    (∀ i < 2 * approvals.length,
      clock (r.session.reads + i) = clock (r.session.reads + i + 1)) ∧
    (⟨kind, parent, requestHash codec request⟩ : CallMade) =
      ⟨kind', parent', requestHash codec request'⟩ := by
  have hStep := replayCall_eq hOutcomes hEpisode hRest hResolves kind' request' parent'
  by_cases hMatch : kind = kind' ∧ requestHash codec request = requestHash codec request'
  · rw [if_pos hMatch] at hStep
    obtain ⟨served, -, -, hCall⟩ := hStep
    rw [hCall] at hEvents
    obtain ⟨records, rfl⟩ := hLast
    obtain ⟨⟨records', hRecords'⟩, -⟩ := hGo (.ok served, _)
    -- the events of this call stand at the same positions of both journals
    rw [hRecords', recordCall_eq, hEpisode] at hEvents
    simp only [events_recordAll, List.append_assoc, List.append_cancel_left_eq] at hEvents
    obtain ⟨hHead, -⟩ := List.append_inj hEvents (by
      simp [length_eventsFrom, Episode.replayed, Episode.records, length_stamp])
    obtain ⟨hSteady, hParent⟩ := Episode.of_eventsFrom_replayed hOutcomes.parent_eq hHead
    refine ⟨hSteady, ?_⟩
    rw [hMatch.1, hMatch.2, hParent]
  · rw [if_neg hMatch] at hStep
    obtain ⟨e, hCall⟩ := hStep
    obtain ⟨-, refused, hMore⟩ := hGo (.error e, { r with refused := r.refused ++ [e] })
    rw [hCall, hMore] at hRefused
    simp at hRefused

/-- **One call in step.** `steady` and `calls` compare what is left after it. -/
theorem reproduced_iff {steady calls : Prop}
    (hNext : ∀ served : ServedEffect,
      served.event =
        (episode.effect codec r.session.journal.runId r.session.journal.threadId).1 →
      served.output = episode.call.1.output →
      let after := go (.ok served, ⟨recordCall codec clock r.session approvals outcome,
        { r.source with cursor := r.source.cursor + 1 }, r.refused⟩)
      (after.refused = [] ∧ after.session.journal.events = last.events) ↔ steady ∧ calls) :
    ((go (replayCall codec clock kind' request' parent' r)).refused = [] ∧
      (go (replayCall codec clock kind' request' parent' r)).session.journal.events =
        last.events) ↔
      ((∀ i < 2 * approvals.length,
        clock (r.session.reads + i) = clock (r.session.reads + i + 1)) ∧ steady) ∧
      (⟨kind, parent, requestHash codec request⟩ : CallMade) =
        ⟨kind', parent', requestHash codec request'⟩ ∧ calls := by
  by_cases hSame : (∀ i < 2 * approvals.length,
        clock (r.session.reads + i) = clock (r.session.reads + i + 1)) ∧
      (⟨kind, parent, requestHash codec request⟩ : CallMade) =
        ⟨kind', parent', requestHash codec request'⟩
  · obtain ⟨served, hEvent, hOutput, hCall⟩ :=
      replayCall_of_same hOutcomes hEpisode hRest hResolves hSame.1 hSame.2
    rw [hCall, and_iff_right hSame.1, and_iff_right hSame.2]
    exact hNext served hEvent hOutput
  · refine iff_of_false (fun h => hSame ?_) (fun h => hSame ⟨h.1.1, h.2.1⟩)
    exact same_of_reproduced hOutcomes hEpisode hRest hResolves hGo hLast h.1 h.2

end Call

theorem events_ne_of_call {s : Session} {approvals : List Approval}
    {outcome : UInt64 → EventDraft} {last : Journal}
    (hLast : ∃ records, last =
      (recordCall codec clock s approvals outcome).journal.recordAll codec records) :
    s.journal.events ≠ last.events := by
  intro hEvents
  obtain ⟨records, rfl⟩ := hLast
  have hLength := congrArg List.length hEvents
  rw [events_recordAll, List.length_append, length_events_recordCall] at hLength
  omega

theorem refused_of_exhausted (hRest : r.source.rest = []) (kind : RunEventKind) (request : Json)
    (parent : String) {go : Result ServedEffect × Replay → Replay}
    (hGo : ∀ x, Extends codec x.2 (go x)) :
    (go (replayCall codec clock kind request parent r)).refused ≠ [] := by
  obtain ⟨e, hError⟩ := ReplaySource.exists_serve_exhausted codec hRest kind request
  obtain ⟨-, refused, hMore⟩ := hGo (replayCall codec clock kind request parent r)
  rw [hMore]
  simp [replayCall, hError]

/-- **The two runs in step.** `p` is the rest of the recorded run and `q` the rest of the
replayed one; the induction is on `p`. -/
theorem Program.reproduces_iff (text : Json → String) (p q : Program α) (n : Nat) {pos reads : Nat}
    (hRunId : r.session.journal.runId = runId) (hThreadId : r.session.journal.threadId = threadId)
    (hPos : r.session.journal.events.length = pos) (hReads : r.session.reads = reads)
    (hRefused : r.refused = []) (hRest : r.source.rest =
      (p.episodes clock inner runId n pos reads).map (Episode.effect codec runId threadId))
    (hResolves : Resolves codec r.source.artifacts
      ((p.episodes clock inner runId n pos reads).flatMap Episode.records)) :
    ((q.replay codec clock text r).2.refused = [] ∧
      (q.replay codec clock text r).2.session.journal.events =
        (p.record codec clock inner n r.session).2.journal.events) ↔
      Steady clock reads (p.approvalCounts inner n) ∧
      p.calls codec inner asRecorded n pos =
        q.calls codec inner (asReplayed codec text) n pos := by
  induction p generalizing q n r pos reads with
  | done a =>
    cases q with
    | done b => simp [replay, record, hRefused, Steady, approvalCounts, calls]
    | chat site request next | call site args next =>
      refine iff_of_false (fun h => ?_) (fun h => by cases h.2)
      exact refused_of_exhausted hRest _ _ _ (fun x => (next _).extends_replay text x.2) h.1
  | chat site request next ih =>
    subst hRunId hThreadId hPos hReads
    have hOutcomes := outcomes_chat site (modelCallRequest request) (inner.chat n).result
    rw [episodes, List.flatMap_cons, resolves_append] at hResolves
    have hLast : ∃ records, (record codec clock inner (.chat site request next) n r.session).2.journal =
        (recordCall codec clock r.session (inner.chat n).approvals fun latency =>
          site.outcomeDraft latency (modelCallRequest request)
            (inner.chat n).result).journal.recordAll codec records :=
      ⟨_, (next (inner.chat n).result).journal_record (n + 1) _⟩
    cases q with
    | done b => exact iff_of_false (fun h => events_ne_of_call hLast h.2) (fun h => by cases h.2)
    | chat site' request' next' =>
      simp only [approvalCounts, Steady, calls, List.cons.injEq]
      refine reproduced_iff hOutcomes rfl hRest hResolves.1
        (fun x => (next' (x.1.bind (servedResponse codec text))).extends_replay text x.2) hLast ?_
      intro served hEvent hOutput
      have hAnswer := servedResponse_eq hEvent hOutput text
      rw [Episode.length_nested_ofCall] at hAnswer
      simp only [Except.bind, hAnswer]
      exact ih _ _ (n + 1) (runId_recordCall r.session _ _) (threadId_recordCall r.session _ _)
        (length_events_recordCall r.session _ _) (reads_recordCall r.session _ _) hRefused
        (ReplaySource.rest_next hRest) hResolves.2
    | call site' args' next' =>
      refine iff_of_false (fun h => ?_) (fun h => by cases h.2)
      have hSame := (same_of_reproduced hOutcomes rfl hRest hResolves.1
        (fun x => (next' (x.1.bind servedValue)).extends_replay text x.2) hLast h.1 h.2).2
      cases hSame
  | call site args next ih =>
    subst hRunId hThreadId hPos hReads
    have hOutcomes := outcomes_call site args (inner.call n).result
    rw [episodes, List.flatMap_cons, resolves_append] at hResolves
    have hLast : ∃ records, (record codec clock inner (.call site args next) n r.session).2.journal =
        (recordCall codec clock r.session (inner.call n).approvals fun latency =>
          site.outcomeDraft latency args (inner.call n).result).journal.recordAll codec records :=
      ⟨_, (next (inner.call n).result).journal_record (n + 1) _⟩
    cases q with
    | done b => exact iff_of_false (fun h => events_ne_of_call hLast h.2) (fun h => by cases h.2)
    | chat site' request' next' =>
      refine iff_of_false (fun h => ?_) (fun h => by cases h.2)
      have hSame := (same_of_reproduced hOutcomes rfl hRest hResolves.1
        (fun x => (next' (x.1.bind (servedResponse codec text))).extends_replay text x.2) hLast
        h.1 h.2).2
      cases hSame
    | call site' args' next' =>
      simp only [approvalCounts, Steady, calls, List.cons.injEq]
      refine reproduced_iff hOutcomes rfl hRest hResolves.1
        (fun x => (next' (x.1.bind servedValue)).extends_replay text x.2) hLast ?_
      intro served hEvent hOutput
      have hAnswer := servedValue_eq hEvent hOutput text
      rw [Episode.length_nested_ofCall] at hAnswer
      simp only [Except.bind, hAnswer]
      exact ih _ _ (n + 1) (runId_recordCall r.session _ _) (threadId_recordCall r.session _ _)
        (length_events_recordCall r.session _ _) (reads_recordCall r.session _ _) hRefused
        (ReplaySource.rest_next hRest) hResolves.2

end Runs

/-! ## The comparison -/

theorem resolveRef_artifacts (j : Journal) (payload : PayloadRef) :
    resolveRef j.artifacts payload = j.resolve payload := by
  cases payload with
  | inline value | artifact reference => rfl

/-- **When a replay reproduces the recorded run.** -/
theorem replay_reproduces_iff {α : Type} (codec : Codec) (text : Json → String) (lastMs : Nat)
    (start : LogicalClock) (inner : Inner) (program : Program α) (runId threadId : String)
    (hFree : CollisionFree codec (program.records (start.reading lastMs) inner runId)) :
    let clock := start.reading lastMs
    let recorded := (program.record codec clock inner 0 (.fresh codec runId threadId)).2.journal
    let replayed := (program.replay codec clock text (.over codec recorded.snapshot)).2
    (replayed.refused = [] ∧ replayed.session.journal.events = recorded.events) ↔
      Steady clock 0 (program.approvalCounts inner 0) ∧
      program.calls codec inner asRecorded 0 0 =
        program.calls codec inner (asReplayed codec text) 0 0 := by
  intro clock recorded replayed
  have hJournal : recorded = (Journal.new codec runId threadId).recordAll codec
      (program.records clock inner runId) := program.journal_record 0 (.fresh codec runId threadId)
  have hSource : ReplaySource.new recorded.snapshot = _ :=
    program.source_record codec runId threadId
  have hOver : Replay.over codec recorded.snapshot =
      ⟨.fresh codec runId threadId, .new recorded.snapshot, []⟩ := by
    simp only [Replay.over, Journal.snapshot, hJournal, runId_recordAll, threadId_recordAll]
    rfl
  have hResolves : Resolves codec recorded.artifacts (program.records clock inner runId) := by
    intro v hV
    rw [resolveRef_artifacts, hJournal]
    exact resolve_recordAll runId threadId hFree hV
  change ((program.replay codec clock text (.over codec recorded.snapshot)).2.refused = [] ∧
    (program.replay codec clock text (.over codec recorded.snapshot)).2.session.journal.events =
      recorded.events) ↔ _
  rw [hOver, hSource]
  exact program.reproduces_iff text program 0 rfl rfl rfl rfl rfl rfl hResolves

/-! A tool that searches, and a model that is told what the search gave. -/

def searchSite : ToolSite := ⟨"search", "run-1:0", none, .readOnly⟩

def chatSite : ChatSite := ⟨"run-1:0", none, .readOnly, none⟩

/-- The program goes on with the text of what it got, a failure included. -/
def searchThenChat : Program Unit :=
  .call searchSite (.str "weather") fun result =>
    let content := match result with
      | .ok value => value.text
      | .error e => e.display
    .chat chatSite { messages := [{ role := .user, content := some content }], tools := [] }
      fun _ => .done ()

/-- The answers of a run whose first call is given and whose model says `ok`. -/
def answering (first : Answer Json) : Inner where
  chat _ := ⟨[], .ok { message := { role := .assistant, content := some "ok" } }⟩
  call _ := first

def approvedSearch : Answer Json where
  approvals := [⟨none, ⟨"search", none, none⟩, .approvedOnce "ops"⟩]
  result := .ok (.str "sunny")

/-- A clock that starts at zero and advances by a millisecond. -/
def tickingClock : LogicalClock := ⟨0, 1⟩

theorem replay_reproduces_search :
    CollisionFree plainCodec (searchThenChat.records (tickingClock.reading (10 ^ 15))
      (answering ⟨[], .ok (.str "sunny")⟩) "run-1") ∧
    let clock := tickingClock.reading (10 ^ 15)
    let inner := answering ⟨[], .ok (.str "sunny")⟩
    let recorded := (searchThenChat.record plainCodec clock inner 0
      (.fresh plainCodec "run-1" "thread-1")).2.journal
    let replayed := (searchThenChat.replay plainCodec clock (fun _ => "")
      (.over plainCodec recorded.snapshot)).2
    replayed.refused = [] ∧ replayed.session.journal.events = recorded.events := by
  have hFree : CollisionFree plainCodec (searchThenChat.records (tickingClock.reading (10 ^ 15))
      (answering ⟨[], .ok (.str "sunny")⟩) "run-1") := by
    unfold CollisionFree
    decide +kernel
  refine ⟨hFree, ?_⟩
  exact (replay_reproduces_iff plainCodec (fun _ => "") (10 ^ 15) tickingClock
    (answering ⟨[], .ok (.str "sunny")⟩) searchThenChat "run-1" "thread-1" hFree).mpr
    ⟨by decide +kernel, by decide +kernel⟩

/-- A search that fails is replayed as another error, so the request that quotes it is refused;
and an approval journaled inside the search is stamped one reading earlier. -/
theorem replay_diverges :
    (let clock := tickingClock.reading (10 ^ 15)
     let inner := answering ⟨[], .error (.tool "timeout")⟩
     let recorded := (searchThenChat.record plainCodec clock inner 0
       (.fresh plainCodec "run-1" "thread-1")).2.journal
     let replayed := (searchThenChat.replay plainCodec clock (fun _ => "")
       (.over plainCodec recorded.snapshot)).2
     replayed.refused.length = 1) ∧
    (let clock := tickingClock.reading (10 ^ 15)
     let inner := answering approvedSearch
     let recorded := (searchThenChat.record plainCodec clock inner 0
       (.fresh plainCodec "run-1" "thread-1")).2.journal
     let replayed := (searchThenChat.replay plainCodec clock (fun _ => "")
       (.over plainCodec recorded.snapshot)).2
     replayed.refused = [] ∧
       (recorded.events.map fun e => e.recordedAt / 1000000) = [1, 2, 4, 7] ∧
       (replayed.session.journal.events.map fun e => e.recordedAt / 1000000) = [0, 1, 4, 7]) := by
  decide +kernel

end RustyRuntime
