import RustyRuntime.React.Conversation

/-!
# What the failure policy keeps over a conversation

The policy judges each call of a request by the thread before the request. Two rules are meant
to hold over all turns: a call fails at most `FAILURE_BOUND` times, and a write whose outcome
is unknown is not sent again before something was read.

**The bound on failures** (`failures_bounded`) holds when no request repeats an id or asks for
one call more often than it has failures left: the copies in one request do not see each
other (`three_failures_in_one_request`).

**Lost writes** (`lostWrites_guarded`) are not sent again when, besides, no request has a write
twice or repeats one that the repair answered, and a read that is not run does not stand in
for one. The policy does not read the notice of the repair
(`repaired_write_sent_again`).
-/

namespace RustyRuntime

open Library

/-! ## Answers that no tool gave -/

variable {box : Toolbox} {messages : List ChatMessage} {calls : List ToolCall} {text : String}
  {agent : Agent} {c c' : Conversation} {move : Move} {answers : List CallAnswer}
  {entries : List Entry} {content : Option String}

theorem StandsIn.realFailure (h : StandsIn box messages calls text) :
    realFailure box.json text = false := by
  cases h with
  | refusal _ hPolicy =>
    obtain ⟨hKind, hClass⟩ := failurePolicy_eq_some hPolicy
    exact realFailure_errorText hKind hClass
  | notice _ hPlain _ => rw [RustyRuntime.realFailure, hPlain, Bool.false_and]

theorem StandsIn.parse (h : StandsIn box messages calls text) {f : ToolFailure}
    (hParse : ToolFailure.parse box.json text = some f) :
    f.failureClass = "bounded" ∨ f.failureClass = "reconcile_first" := by
  cases h with
  | refusal _ hPolicy =>
    obtain ⟨hKind, hClass⟩ := failurePolicy_eq_some hPolicy
    rw [parse_errorText hKind] at hParse
    cases hParse
    exact hClass
  | notice hNone _ _ =>
    rw [hNone] at hParse
    cases hParse

theorem notice_plain (json : FailureText) (r : RepairedCall) :
    ToolFailure.parse json r.notice = none ∧ isErrorText r.notice = false := by
  obtain ⟨rest, hRead⟩ := opening_unrecordedReadNotice
  obtain ⟨rest', hWrite⟩ := opening_unknownOutcomeNotice
  rw [RepairedCall.notice]
  split
  · exact parse_of_plain json hRead (by decide) (by decide)
  · exact parse_of_plain json hWrite (by decide) (by decide)

theorem map_call_noticeAnswers (repeatable : String → Bool) (calls : List ToolCall) :
    (noticeAnswers repeatable calls).map (·.call) = calls := by
  rw [noticeAnswers, List.map_map]
  exact List.map_id _

theorem mem_noticeAnswers {repeatable : String → Bool} {a : CallAnswer}
    (h : a ∈ noticeAnswers repeatable calls) :
    a.call ∈ calls ∧ a.ran = false ∧ ∃ r : RepairedCall, a.text = r.notice := by
  obtain ⟨call, hCall, rfl⟩ := List.mem_map.mp h
  exact ⟨hCall, rfl, _, rfl⟩

/-! ## Requests with distinct ids -/

/-- What every condition below asks of a request. -/
def DistinctCalls (calls : List ToolCall) : Prop := (calls.map (·.id)).Nodup

instance (calls : List ToolCall) : Decidable (DistinctCalls calls) :=
  inferInstanceAs (Decidable (List.Nodup _))

theorem distinctIds_of_step {asks : List Entry → List ToolCall → Prop}
    (hAsks : ∀ {entries calls}, asks entries calls → DistinctCalls calls) (hTracks : Tracks asks c)
    (hIds : ∀ e ∈ c.entries, e.DistinctIds) (hStep : Step agent c move c') :
    ∀ e ∈ c'.entries, e.DistinctIds := by
  cases hStep with
  | idle => exact hIds
  | said => exact List.forall_mem_append.mpr ⟨hIds, List.forall_mem_singleton.mpr trivial⟩
  | asked => exact hIds
  | answered _ hThread _ hSound =>
    refine List.forall_mem_append.mpr ⟨hIds, List.forall_mem_singleton.mpr ?_⟩
    rw [Entry.DistinctIds, Round.calls, hSound.calls_eq]
    exact hAsks (asks_of_tracks hTracks hThread)
  | repaired _ hThread =>
    refine List.forall_mem_append.mpr ⟨hIds, List.forall_mem_singleton.mpr ?_⟩
    rw [Entry.DistinctIds, Round.calls, map_call_noticeAnswers]
    exact hAsks (asks_of_tracks hTracks hThread)

/-! ## Two tools -/

def twoTools : Agent where
  json := markedText
  codec := plainCodec
  effectOf tool := if tool = "read" then some .readOnly else some .nonIdempotent
  repeatable tool := tool = "read"

def writeCall (id : String) : ToolCall := ⟨id, "write", .null⟩

def readCall (id : String) : ToolCall := ⟨id, "read", .null⟩

def toolAnswers (texts : List String) : ToolsWorld := { answer := fun k => texts.getD k "" }

/-! ## The bound on failures -/

section Failures

variable (json : FailureText) (entries : List Entry)

/-- How often a call was run and failed. -/
def ranFailures (call : ToolCall) : Nat :=
  (entries.flatMap Entry.answers).countP fun a =>
    a.ran && call.identical a.call && realFailure json a.text

/-- Only a call that was run fails. -/
def FailuresRan : Prop :=
  ∀ a ∈ entries.flatMap Entry.answers, a.ran = false → realFailure json a.text = false

variable {json}

theorem failures_concat {e : Entry} (hIds : e.DistinctIds) (call : ToolCall) :
    failures json (render (entries ++ [e])) call =
      failures json (render entries) call +
        e.answers.countP fun a => call.identical a.call && realFailure json a.text := by
  rw [failures, attempts_concat entries hIds, List.countP_append, Entry.attempts,
    List.countP_map]
  rfl

theorem failures_request (content : Option String) (calls : List ToolCall) (call : ToolCall) :
    failures json (render entries ++ [requestMessage content calls]) call =
      failures json (render entries) call := by
  have hNone : (calls.map fun tc => (⟨(render entries).length, tc, none⟩ : Attempt)).countP
      (fun a => call.identical a.call && a.result.any (realFailure json)) = 0 := by
    simp [List.countP_map, Function.comp_def]
  rw [failures, attempts_request, List.countP_append, hNone, Nat.add_zero]
  rfl

theorem ranFailures_concat (e : Entry) (call : ToolCall) :
    ranFailures json (entries ++ [e]) call =
      ranFailures json entries call + e.answers.countP fun a =>
        a.ran && call.identical a.call && realFailure json a.text := by
  rw [ranFailures, List.flatMap_append, List.countP_append, List.flatMap_singleton, ← ranFailures]

theorem failures_render {entries : List Entry} (hIds : ∀ e ∈ entries, e.DistinctIds)
    (hRan : FailuresRan json entries) (call : ToolCall) :
    failures json (render entries) call = ranFailures json entries call := by
  induction entries using List.reverseRecOn with
  | nil => rfl
  | append_singleton entries e ih =>
    rw [List.forall_mem_append, List.forall_mem_singleton] at hIds
    rw [FailuresRan, List.flatMap_append, List.forall_mem_append, List.flatMap_singleton] at hRan
    rw [failures_concat entries hIds.2, ranFailures_concat, ih hIds.1 hRan.1]
    refine congrArg _ (List.countP_congr fun a hIn => ?_)
    cases hFlag : a.ran with
    | true => simp
    | false => simp [hRan.2 a hIn hFlag]

end Failures

variable (json : FailureText)

variable (box : Toolbox) (thread : List ChatMessage)

/-- A request with distinct ids that asks for no call more often than it has failures left. -/
def Measured (calls : List ToolCall) : Prop :=
  DistinctCalls calls ∧ ∀ call ∈ calls, failures json thread call < failureBound →
    failures json thread call + calls.countP call.identical ≤ failureBound

instance (json : FailureText) (thread : List ChatMessage) (calls : List ToolCall) :
    Decidable (Measured json thread calls) := inferInstanceAs (Decidable (_ ∧ _))

/-- The condition on a move of the loop. -/
def MeasuredMove (agent : Agent) (c : Conversation) : Move → Prop
  | .ask _ calls => Measured agent.json c.thread calls
  | _ => True

instance (agent : Agent) (c : Conversation) (move : Move) :
    Decidable (MeasuredMove agent c move) := by
  cases move <;> unfold MeasuredMove <;> infer_instance

/-- What the loop keeps when its requests are measured. -/
structure FailuresInv (agent : Agent) (c : Conversation) : Prop where
  tracks : Tracks (fun entries calls => Measured agent.json (render entries) calls) c
  ids : ∀ e ∈ c.entries, e.DistinctIds
  ran : FailuresRan agent.json c.entries
  bound : ∀ call, ranFailures agent.json c.entries call ≤ failureBound

theorem failuresRan_of_step (hRan : FailuresRan agent.json c.entries) (hStep : Step agent c move c') :
    FailuresRan agent.json c'.entries := by
  have hExtend {e : Entry} (hNew : ∀ a ∈ e.answers, a.ran = false →
      realFailure agent.json a.text = false) :
      FailuresRan agent.json (c.extend e).entries := by
    rw [FailuresRan, Conversation.extend, List.flatMap_append, List.flatMap_singleton]
    exact List.forall_mem_append.mpr ⟨hRan, hNew⟩
  cases hStep with
  | idle => exact hRan
  | said => exact hExtend fun a hIn => by cases hIn
  | asked => exact hRan
  | answered _ _ _ hSound => exact hExtend fun a hIn hFlag => (hSound.standsIn a hIn hFlag).realFailure
  | repaired =>
    refine hExtend fun a hIn _ => ?_
    obtain ⟨-, -, r, hText⟩ := mem_noticeAnswers hIn
    rw [realFailure, hText, (notice_plain agent.json r).2, Bool.false_and]

theorem countP_answers_le (hCalls : answers.map (·.call) = calls) (json : FailureText)
    (call : ToolCall) :
    (answers.countP fun a => a.ran && call.identical a.call && realFailure json a.text) ≤
      calls.countP call.identical := by
  rw [← hCalls, List.countP_map]
  refine List.countP_mono_left fun a _ hAll => ?_
  simp only [Bool.and_eq_true] at hAll
  exact hAll.1.2

theorem failuresInv_step (h : FailuresInv agent c) (hMove : MeasuredMove agent c move)
    (hStep : Step agent c move c') : FailuresInv agent c' where
  tracks := by
    refine tracks_of_step h.tracks hStep ?_
    rintro content calls rfl hThread
    rw [← hThread]
    exact hMove
  ids := distinctIds_of_step (fun hAsks => hAsks.1) h.tracks h.ids hStep
  ran := failuresRan_of_step h.ran hStep
  bound := by
    cases hStep with
    | idle => exact h.bound
    | said =>
      intro call
      rw [Conversation.extend, ranFailures_concat]
      exact h.bound call
    | asked => exact h.bound
    | @answered _ _ calls answers _ hThread _ hSound =>
      intro call
      rw [Conversation.extend, ranFailures_concat, Entry.answers]
      by_cases hAny : ∃ a ∈ answers, a.ran ∧ call.identical a.call
      · -- the call passed the policy, so the copies asked for are within the bound
        obtain ⟨a, hIn, hFlag, hSame⟩ := hAny
        have hPolicy := (failurePolicy_eq_none (hSound.policy_of_ran a hIn hFlag)).1
        have hAsked : a.call ∈ calls := by
          rw [← hSound.calls_eq]
          exact List.mem_map_of_mem hIn
        have hLeft := (asks_of_tracks h.tracks hThread).2 a.call hAsked
        rw [hThread, failures_request] at hPolicy
        have hCopies := countP_answers_le hSound.calls_eq agent.json a.call
        have hTotal := hLeft hPolicy
        rw [failures_render h.ids h.ran] at hTotal
        simp only [ToolCall.identical_congr hSame, ranFailures] at hCopies hTotal ⊢
        omega
      · have hNone : (answers.countP fun a =>
            a.ran && call.identical a.call && realFailure agent.json a.text) = 0 := by
          rw [List.countP_eq_zero]
          intro a hIn hAll
          simp only [Bool.and_eq_true] at hAll
          exact hAny ⟨a, hIn, hAll.1⟩
        rw [hNone]
        exact h.bound call
    | repaired =>
      intro call
      have hNone (calls : List ToolCall) : ((noticeAnswers agent.repeatable calls).countP fun a =>
          a.ran && call.identical a.call && realFailure agent.json a.text) = 0 := by
        rw [List.countP_eq_zero]
        intro a hIn hAll
        obtain ⟨-, hFlag, -⟩ := mem_noticeAnswers hIn
        simp [hFlag] at hAll
      rw [Conversation.extend, ranFailures_concat, Entry.answers, hNone]
      exact h.bound call

/-- **The bound on failures.** In a run of measured requests no call is run and fails more
often than the bound, over all turns. -/
theorem failures_bounded (agent : Agent) (moves : List Move)
    (hMoves : Admissible agent.next (MeasuredMove agent) {} moves) (call : ToolCall) :
    ranFailures agent.json (run agent.next {} moves).entries call ≤ failureBound := by
  have hInit : FailuresInv agent {} :=
    ⟨.settled rfl, nofun, nofun, fun _ => Nat.zero_le _⟩
  have hInv := run_invariant (fun c move h hMove =>
    failuresInv_step h hMove (step_of_tracks h.tracks move)) hInit hMoves
  exact hInv.bound call

/-- Two failures, and the next turn asks once more. -/
def thirdTry : List Move :=
  [.say .user (some "go"), .ask none [writeCall "a", writeCall "b"],
    .tools (toolAnswers ["ERROR: no", "ERROR: no"]), .say .user (some "again"),
    .ask none [writeCall "c"], .tools (toolAnswers ["ERROR: no"])]

theorem failures_bounded_thirdTry :
    Admissible twoTools.next (MeasuredMove twoTools) {} thirdTry ∧
      ranFailures markedText (run twoTools.next {} thirdTry).entries (writeCall "a") = 2 ∧
      ranFailures markedText (run twoTools.next {} thirdTry).entries (writeCall "a") ≤
        failureBound := by
  have hMoves : Admissible twoTools.next (MeasuredMove twoTools) {} thirdTry := by decide
  exact ⟨hMoves, by decide, failures_bounded twoTools thirdTry hMoves _⟩

def threeCopies : List Move :=
  [.say .user (some "go"), .ask none [writeCall "a", writeCall "b", writeCall "c"],
    .tools (toolAnswers ["ERROR: no", "ERROR: no", "ERROR: no"])]

theorem three_failures_in_one_request :
    failureBound < ranFailures markedText (run twoTools.next {} threeCopies).entries
      (writeCall "a") := by
  decide

/-! ## Lost writes -/

def lostOutcome (text : String) : Bool :=
  (ToolFailure.parse json text).any fun f => f.failureClass = "unknown_outcome" && !f.retrySafe

theorem lostOutcome_iff {json : FailureText} :
    lostOutcome json text ↔ ∃ f, ToolFailure.parse json text = some f ∧
      f.failureClass = "unknown_outcome" ∧ f.retrySafe = false := by
  simp only [lostOutcome, Option.any_eq_true, Bool.and_eq_true, decide_eq_true_eq,
    Bool.not_eq_true']

def Round.leavesUnknown (r : Round) (a : CallAnswer) : Prop :=
  (a.ran = true ∧ lostOutcome json a.text = true) ∨
    (r.repaired = true ∧ a.text = unknownOutcomeNotice)

def Round.hasRead (effectOf : String → Option Effect) (r : Round) : Prop :=
  ∃ a ∈ r.answers, a.ran = true ∧ isRead effectOf a.call.name = true ∧
    isErrorText a.text = false

/-- Between a write whose outcome is unknown and the same write run again, something was
read. -/
def LostWritesGuarded (agent : Agent) (entries : List Entry) : Prop :=
  ∀ before between after u d lost again,
    entries = before ++ .round u :: (between ++ .round d :: after) →
    lost ∈ u.answers → isRead agent.effectOf lost.call.name = false →
    u.leavesUnknown agent.json lost →
    again ∈ d.answers → again.ran = true → lost.call.identical again.call = true →
    ∃ r, .round r ∈ between ∧ r.hasRead agent.effectOf

def Toolbox.holdsLostWrite : Bool :=
  (attempts thread).any fun a =>
    !isRead box.effectOf a.call.name && a.result.any (lostOutcome box.json)

def openCalls : List ToolCall :=
  (thread.getLast?.map (·.toolCalls)).getD []

/-- A request with distinct ids, each write in it once, and none that the repair answered. -/
def Toolbox.Prudent (calls : List ToolCall) : Prop :=
  DistinctCalls calls ∧ ∀ call ∈ calls, isRead box.effectOf call.name = false →
    calls.countP call.identical ≤ 1 ∧ ∀ a ∈ attempts thread, call.identical a.call = true →
      a.result ≠ some unknownOutcomeNotice

/-- The condition on a move: prudent requests and, while a write is lost, no read that is
answered without being run. -/
def PrudentMove (agent : Agent) (c : Conversation) : Move → Prop
  | .say _ _ => True
  | .ask _ calls => agent.Prudent c.thread calls
  | .tools world => agent.holdsLostWrite c.thread = true → ∀ call ∈ openCalls c.thread,
      isRead agent.effectOf call.name = true →
        ¬ agent.noticed c.thread (openCalls c.thread) world call
  | .repair => agent.holdsLostWrite c.thread = true → ∀ call ∈ openCalls c.thread,
      isRead agent.effectOf call.name = false

instance (box : Toolbox) (messages : List ChatMessage) (calls : List ToolCall) (world : ToolsWorld)
    (call : ToolCall) : Decidable (box.noticed messages calls world call) :=
  inferInstanceAs (Decidable (_ ∨ _))

instance (box : Toolbox) (thread : List ChatMessage) (calls : List ToolCall) :
    Decidable (box.Prudent thread calls) := inferInstanceAs (Decidable (_ ∧ _))

instance (agent : Agent) (c : Conversation) (move : Move) :
    Decidable (PrudentMove agent c move) := by
  cases move <;> unfold PrudentMove <;> infer_instance

theorem openCalls_request (entries : List Entry) (content : Option String)
    (calls : List ToolCall) :
    openCalls (render entries ++ [requestMessage content calls]) = calls := by
  rw [openCalls, List.getLast?_concat]
  rfl

theorem mem_attempts_request {a : Attempt}
    (h : a ∈ attempts (render entries ++ [requestMessage content calls]))
    (hText : a.result = some text) : a ∈ attempts (render entries) := by
  rw [attempts_request, List.mem_append] at h
  rcases h with h | h
  · exact h
  · obtain ⟨tc, -, rfl⟩ := List.mem_map.mp h
    cases hText

theorem holdsLostWrite_request (entries : List Entry) (content : Option String)
    (calls : List ToolCall) :
    box.holdsLostWrite (render entries ++ [requestMessage content calls]) =
      box.holdsLostWrite (render entries) := by
  rw [Toolbox.holdsLostWrite, attempts_request, List.any_append, ← Toolbox.holdsLostWrite]
  simp [List.any_map, Function.comp_def]

/-- What the loop keeps when its moves are prudent. -/
structure LostInv (agent : Agent) (c : Conversation) : Prop where
  tracks : Tracks (fun entries calls => agent.Prudent (render entries) calls) c
  ids : ∀ e ∈ c.entries, e.DistinctIds
  /-- A write is asked for once in a request. -/
  once : ∀ r, .round r ∈ c.entries → ∀ a ∈ r.answers, ∀ b ∈ r.answers,
    isRead agent.effectOf a.call.name = false → a.call.identical b.call = true → a = b
  /-- Only a tool answers that the outcome is unknown. -/
  unknownRan : ∀ r, .round r ∈ c.entries → ∀ a ∈ r.answers, ∀ f,
    ToolFailure.parse agent.json a.text = some f → f.failureClass = "unknown_outcome" →
      a.ran = true
  /-- After a lost write, a read without an error was run. -/
  readsRan : ∀ before r after, c.entries = before ++ .round r :: after →
    agent.holdsLostWrite (render before) = true → ∀ a ∈ r.answers,
      isRead agent.effectOf a.call.name = true → isErrorText a.text = false → a.ran = true
  guarded : LostWritesGuarded agent c.entries

theorem eq_of_countP_le_one {α : Type} {p : α → Bool} {l : List α} (h : l.countP p ≤ 1) {a b : α}
    (hA : a ∈ l) (hPA : p a) (hB : b ∈ l) (hPB : p b) : a = b := by
  rw [List.countP_eq_length_filter] at h
  have hInA := List.mem_filter.mpr ⟨hA, hPA⟩
  have hInB := List.mem_filter.mpr ⟨hB, hPB⟩
  cases hFilter : l.filter p with
  | nil =>
    rw [hFilter] at hInA
    cases hInA
  | cons first rest =>
    rw [hFilter, List.length_cons] at h
    have hRest : rest = [] := List.length_eq_zero_iff.mp (by omega)
    rw [hFilter, hRest, List.mem_singleton] at hInA hInB
    rw [hInA, hInB]

theorem once_of_prudent {thread : List ChatMessage} (hPrudent : agent.Prudent thread calls)
    (hCalls : answers.map (·.call) = calls) :
    ∀ a ∈ answers, ∀ b ∈ answers, isRead agent.effectOf a.call.name = false →
      a.call.identical b.call → a = b := by
  intro a hA b hB hWrite hSame
  have hAsked : a.call ∈ calls := hCalls ▸ List.mem_map_of_mem hA
  have hOnce := (hPrudent.2 a.call hAsked hWrite).1
  rw [← hCalls, List.countP_map] at hOnce
  have hSelf : a.call.identical a.call := ToolCall.identical_iff.mpr ⟨rfl, rfl⟩
  exact eq_of_countP_le_one hOnce hA hSelf hB hSame

/-- **The argument.** A write that passed the policy although its outcome was unknown has a
read in between. -/
theorem read_before_repeat (h : LostInv agent c)
    (hThread : c.thread = render c.entries ++ [requestMessage content calls]) {world : ToolsWorld}
    (hSound : AnswersSound agent.toToolbox c.thread calls world answers)
    {before between : List Entry} {u : Round} (hSplit : c.entries = before ++ .round u :: between)
    {lost again : CallAnswer} (hLost : lost ∈ u.answers)
    (hWrite : isRead agent.effectOf lost.call.name = false)
    (hUnknown : u.leavesUnknown agent.json lost) (hAgain : again ∈ answers)
    (hRan : again.ran) (hSame : lost.call.identical again.call) :
    ∃ r, .round r ∈ between ∧ r.hasRead agent.effectOf := by
  have hAttempt : ⟨(render before).length, lost.call, some lost.text⟩ ∈
      attempts (render c.entries) :=
    (mem_attempts_render h.ids).mpr ⟨before, u, between, lost, hSplit, hLost, rfl⟩
  have hWrite' : isRead agent.effectOf again.call.name = false := by
    rw [(ToolCall.identical_iff.mp hSame).1]
    exact hWrite
  have hSymm := ToolCall.identical_symm hSame
  rcases hUnknown with ⟨-, hText⟩ | ⟨-, hNotice⟩
  · obtain ⟨f, hParse, hClass, hSafe⟩ := lostOutcome_iff.mp hText
    have hFound : Unknown agent.json again.call
        ⟨(render before).length, lost.call, some lost.text⟩ false :=
      ⟨hSymm, lost.text, f, rfl, hParse, hClass, hSafe⟩
    have hIn : ⟨(render before).length, lost.call, some lost.text⟩ ∈ attempts c.thread := by
      rw [hThread, attempts_request]
      exact List.mem_append_left _ hAttempt
    -- the attempt the policy looked at
    obtain ⟨a, hA, safe, hUncertain, hLe, hSame', text', f', hText', hParse', hClass', hSafe'⟩ :=
      exists_uncertain hIn hFound
    rw [hThread] at hA
    obtain ⟨before', r, after', answer, hSplit', hAnswer, rfl⟩ :=
      (mem_attempts_render h.ids).mp (mem_attempts_request hA hText')
    cases hText'
    have hLater := eq_or_later_of_le hSplit hSplit' hLe
    cases safe with
    | false =>
      have hRead := (failurePolicy_eq_none (hSound.policy_of_ran again hAgain hRan)).2 hWrite' _
        hUncertain
      obtain ⟨b, hB, hAfter, hReads, text, hResult, hPlain⟩ := readSince_iff.mp hRead
      rw [hThread] at hB
      obtain ⟨before'', r', after'', read, hSplit'', hIn'', rfl⟩ :=
        (mem_attempts_render h.ids).mp (mem_attempts_request hB hResult)
      cases hResult
      simp only at hAfter hLe
      rcases eq_or_later_of_le hSplit hSplit'' (by omega) with ⟨rfl, -, -⟩ | ⟨mid, rfl, rfl⟩
      · omega
      · have hHolds : agent.holdsLostWrite (render (before ++ .round u :: mid)) := by
          have hIds : ∀ e ∈ before ++ .round u :: mid, e.DistinctIds := by
            intro e hE
            refine h.ids e ?_
            rw [hSplit'']
            exact List.mem_append_left _ hE
          rw [Toolbox.holdsLostWrite, List.any_eq_true]
          refine ⟨_, (mem_attempts_render hIds).mpr
            ⟨before, u, mid, lost, rfl, hLost, rfl⟩, ?_⟩
          simp [hWrite, hText]
        exact ⟨r', by simp, read, hIn'', h.readsRan _ r' after'' hSplit'' hHolds read hIn''
          hReads hPlain, hReads, hPlain⟩
    | true =>
      rcases hLater with ⟨rfl, hEq, -⟩ | ⟨mid, rfl, rfl⟩
      · -- the same request: a write is in it once
        cases hEq
        have hOne : lost = answer := h.once u (by rw [hSplit]; simp) lost hLost answer hAnswer
          hWrite (ToolCall.identical_trans hSame hSame')
        subst hOne
        rw [hParse] at hParse'
        cases hParse'
        rw [hSafe] at hSafe'
        cases hSafe'
      · -- a later request ran it, after a read
        have hRan' : answer.ran :=
          h.unknownRan r (by rw [hSplit']; simp) answer hAnswer f' hParse' hClass'
        obtain ⟨r', hR', hRead⟩ := h.guarded before mid after' u r lost answer hSplit hLost
          hWrite (.inl ⟨h.unknownRan u (by rw [hSplit]; simp) lost hLost f hParse hClass, hText⟩)
          hAnswer hRan' (ToolCall.identical_trans hSame hSame')
        exact ⟨r', List.mem_append_left _ hR', hRead⟩
  · have hAsked : again.call ∈ calls := by
      rw [← hSound.calls_eq]
      exact List.mem_map_of_mem hAgain
    refine absurd ?_ (((asks_of_tracks h.tracks hThread).2 again.call hAsked hWrite').2 _ hAttempt
      hSymm)
    rw [hNotice]

theorem guarded_concat {e : Entry} (hOld : LostWritesGuarded agent entries)
    (hNew : ∀ before between u lost again, entries = before ++ .round u :: between →
      lost ∈ u.answers → isRead agent.effectOf lost.call.name = false →
      u.leavesUnknown agent.json lost → again ∈ e.answers → again.ran →
      lost.call.identical again.call → ∃ r, .round r ∈ between ∧ r.hasRead agent.effectOf) :
    LostWritesGuarded agent (entries ++ [e]) := by
  intro before between after u d lost again hSplit hLost hWrite hUnknown hAgain hRan hSame
  rw [← List.cons_append, ← List.append_assoc] at hSplit
  rcases concat_eq_split hSplit with ⟨hEntries, rfl, -⟩ | ⟨front, hEntries, -⟩
  · exact hNew before between u lost again hEntries.symm hLost hWrite hUnknown hAgain hRan hSame
  · rw [List.append_assoc, List.cons_append] at hEntries
    exact hOld before between front u d lost again hEntries hLost hWrite hUnknown hAgain hRan hSame

theorem LostInv.extend (h : LostInv agent c) {e : Entry} (hIds : e.DistinctIds)
    (hOnce : ∀ a ∈ e.answers, ∀ b ∈ e.answers, isRead agent.effectOf a.call.name = false →
      a.call.identical b.call → a = b)
    (hUnknown : ∀ a ∈ e.answers, ∀ f, ToolFailure.parse agent.json a.text = some f →
      f.failureClass = "unknown_outcome" → a.ran)
    (hReads : agent.holdsLostWrite (render c.entries) → ∀ a ∈ e.answers,
      isRead agent.effectOf a.call.name → isErrorText a.text = false → a.ran)
    (hGuarded : LostWritesGuarded agent (c.entries ++ [e])) : LostInv agent (c.extend e) where
  tracks := .settled rfl
  ids := List.forall_mem_append.mpr ⟨h.ids, List.forall_mem_singleton.mpr hIds⟩
  once := by
    intro r hIn
    rcases List.mem_append.mp hIn with hIn | hIn
    · exact h.once r hIn
    · cases List.mem_singleton.mp hIn
      exact hOnce
  unknownRan := by
    intro r hIn
    rcases List.mem_append.mp hIn with hIn | hIn
    · exact h.unknownRan r hIn
    · cases List.mem_singleton.mp hIn
      exact hUnknown
  readsRan := by
    intro before r after hSplit
    rcases concat_eq_split hSplit with ⟨rfl, rfl, -⟩ | ⟨front, hEntries, -⟩
    · exact hReads
    · exact h.readsRan before r front hEntries
  guarded := hGuarded

theorem lostInv_step (h : LostInv agent c) (hMove : PrudentMove agent c move)
    (hStep : Step agent c move c') : LostInv agent c' := by
  have hTracks : Tracks (fun entries calls => agent.Prudent (render entries) calls) c' := by
    refine tracks_of_step h.tracks hStep ?_
    rintro content calls rfl hThread
    rw [← hThread]
    exact hMove
  cases hStep with
  | idle => exact h
  | said =>
    refine h.extend trivial ?_ ?_ ?_ (guarded_concat h.guarded ?_)
    · intro a hIn
      cases hIn
    · intro a hIn
      cases hIn
    · intro _ a hIn
      cases hIn
    · intro before between u lost again _ _ _ _ hIn
      cases hIn
  | asked =>
    exact ⟨hTracks, h.ids, h.once, h.unknownRan, h.readsRan, h.guarded⟩
  | @answered world content calls answers _ hThread _ hSound =>
    have hPrudent := asks_of_tracks h.tracks hThread
    rw [PrudentMove, hThread, openCalls_request, holdsLostWrite_request, ← hThread] at hMove
    refine h.extend ?_ (once_of_prudent hPrudent hSound.calls_eq) ?_ ?_
      (guarded_concat h.guarded ?_)
    · rw [Entry.DistinctIds, Round.calls, hSound.calls_eq]
      exact hPrudent.1
    · intro a hIn f hParse hClass
      by_contra hFlag
      have hOwn := (hSound.standsIn a hIn (by simpa using hFlag)).parse hParse
      rw [hClass] at hOwn
      exact absurd hOwn (by decide)
    · intro hHolds a hIn hRead hPlain
      by_contra hFlag
      have hAsked : a.call ∈ calls := hSound.calls_eq ▸ List.mem_map_of_mem hIn
      exact hMove hHolds a.call hAsked hRead (hSound.noticed a hIn (by simpa using hFlag) hPlain)
    · intro before between u lost again hSplit hLost hWrite hUnknown hAgain hRan hSame
      exact read_before_repeat h hThread hSound hSplit hLost hWrite hUnknown hAgain hRan hSame
  | @repaired content calls _ hThread =>
    have hPrudent := asks_of_tracks h.tracks hThread
    rw [PrudentMove, hThread, openCalls_request, holdsLostWrite_request] at hMove
    have hCalls := map_call_noticeAnswers agent.repeatable calls
    refine h.extend ?_ (once_of_prudent hPrudent hCalls) ?_ ?_ (guarded_concat h.guarded ?_)
    · rw [Entry.DistinctIds, Round.calls, hCalls]
      exact hPrudent.1
    · intro a hIn f hParse
      obtain ⟨-, -, r, hText⟩ := mem_noticeAnswers hIn
      rw [hText, (notice_plain agent.json r).1] at hParse
      cases hParse
    · intro hHolds a hIn hRead
      rw [hMove hHolds a.call (mem_noticeAnswers hIn).1] at hRead
      cases hRead
    · intro before between u lost again _ _ _ _ hIn hRan
      rw [(mem_noticeAnswers hIn).2.1] at hRan
      cases hRan

/-- **Lost writes.** In a run of prudent moves a write whose outcome is unknown is not run
again before a read-only tool was run and answered. -/
theorem lostWrites_guarded (agent : Agent) (moves : List Move)
    (hMoves : Admissible agent.next (PrudentMove agent) {} moves) :
    LostWritesGuarded agent (run agent.next {} moves).entries := by
  have hInit : LostInv agent {} := by
    refine ⟨.settled rfl, nofun, nofun,
      nofun, ?_, ?_⟩
    · intro before r after hSplit
      cases before <;> cases hSplit
    · intro before between after u d lost again hSplit
      cases before <;> cases hSplit
  have hInv := run_invariant (fun c move h hMove =>
    lostInv_step h hMove (step_of_tracks h.tracks move)) hInit hMoves
  exact hInv.guarded

/-- A write is lost, something is read, and the write is sent again. -/
def readThenWrite : List Move :=
  [.say .user (some "go"), .ask none [writeCall "a"],
    .tools (toolAnswers ["ERROR: \x7bku;;;tf\x7d"]), .ask none [readCall "b"],
    .tools (toolAnswers ["nothing there"]), .ask none [writeCall "c"], .tools (toolAnswers ["done"])]

theorem lostWrites_guarded_readThenWrite :
    Admissible twoTools.next (PrudentMove twoTools) {} readThenWrite ∧
      lostOutcome markedText "ERROR: \x7bku;;;tf\x7d" = true ∧
      (run twoTools.next {} readThenWrite).entries.map (·.answers.map (·.ran)) =
        [[], [true], [true], [true]] ∧
      LostWritesGuarded twoTools (run twoTools.next {} readThenWrite).entries := by
  have hMoves : Admissible twoTools.next (PrudentMove twoTools) {} readThenWrite := by
    decide
  exact ⟨hMoves, by decide +kernel, by decide +kernel,
    lostWrites_guarded twoTools readThenWrite hMoves⟩

/-! ## The notice that the policy does not read -/

section Repaired

variable (agent : Agent) (call again : ToolCall)

/-- The run ends before a call is answered, and the next turn asks for it again. -/
def repairedTurn : List Move :=
  [.say .user (some "go"), .ask none [call], .repair, .say .user (some "again"),
    .ask none [again]]

def repairedThread : List ChatMessage :=
  [Speaker.user.message (some "go"), requestMessage none [call],
    (repairedCall agent.repeatable call).message, Speaker.user.message (some "again"),
    requestMessage none [again]]

theorem run_repairedTurn :
    run agent.next {} (repairedTurn call again) =
      ⟨repairedThread agent call again, [.said .user (some "go"),
        .round ⟨none, noticeAnswers agent.repeatable [call], true⟩,
        .said .user (some "again")]⟩ := rfl

variable {agent call again}

theorem policy_repairedThread : agent.policy (repairedThread agent call again) again = none := by
  have hAttempts : attempts (repairedThread agent call again) =
      [⟨1, call, some (repairedCall agent.repeatable call).notice⟩, ⟨4, again, none⟩] := by
    simp [repairedThread, attempts, attemptsFrom, Speaker.message, requestMessage,
      RepairedCall.message, ChatMessage.toolResult, resultOf, repairedCall]
  obtain ⟨hParse, hPlain⟩ := notice_plain agent.json (repairedCall agent.repeatable call)
  have hCount : failures agent.json (repairedThread agent call again) again = 0 := by
    simp [failures, hAttempts, realFailure, hPlain]
  have hNone : uncertain agent.json (repairedThread agent call again) again = none := by
    simp [uncertain, unknownAttempts, hAttempts, hParse, latest]
  simp [Toolbox.policy, failurePolicy, hCount, hNone, failureBound]

theorem toolsNode_repairedThread (hWrite : isRead agent.effectOf again.name = false)
    (text : String) :
    agent.toolsNode (repairedThread agent call again) (toolAnswers [text]) =
      .answered [⟨again, text, true⟩] := by
  have hLast : (repairedThread agent call again).getLast? =
      some (requestMessage none [again]) := rfl
  have hReads : agent.allReads [again] = false := by simp [Toolbox.allReads, hWrite]
  -- the user has spoken since the first request
  have hRepeats : identicalRequestsThisTurn agent.json (repairedThread agent call again) false = 0 :=
    rfl
  have hPolicy := @policy_repairedThread agent call again
  have hDispatch : agent.dispatch (repairedThread agent call again) [again] (toolAnswers [text]) =
      .answered [⟨again, text, true⟩] := by
    simp [Toolbox.dispatch, hPolicy, withRefusal, toolAnswers, deniedCalls, answerCalls]
  unfold Toolbox.toolsNode
  simp only [hLast]
  simp [requestMessage, ChatMessage.hasToolCalls, hReads, hRepeats, hPolicy, hDispatch,
    stuckTurnLimit]

theorem not_guarded_of_repaired (hWrite : isRead agent.effectOf call.name = false)
    (hRepeatable : agent.repeatable call.name = false) (hSame : call.identical again)
    (text : String) :
    ¬ LostWritesGuarded agent (run agent.next {}
      (repairedTurn call again ++ [.tools (toolAnswers [text])])).entries := by
  intro h
  have hWrite' : isRead agent.effectOf again.name = false := by
    rw [(ToolCall.identical_iff.mp hSame).1]
    exact hWrite
  have hEntries : (run agent.next {} (repairedTurn call again ++
      [.tools (toolAnswers [text])])).entries =
      [.said .user (some "go")] ++ .round ⟨none, noticeAnswers agent.repeatable [call], true⟩ ::
        ([.said .user (some "again")] ++ .round ⟨none, [⟨again, text, true⟩], false⟩ :: []) := by
    rw [run_append, run_repairedTurn, run, List.foldl_cons, List.foldl_nil, Agent.next,
      toolsNode_repairedThread hWrite' text]
    rfl
  have hNotice : (repairedCall agent.repeatable call).notice = unknownOutcomeNotice := by
    simp [repairedCall, RepairedCall.notice, hRepeatable]
  obtain ⟨r, hR, -⟩ := h _ _ _ _ _ _ _ hEntries List.mem_cons_self hWrite (.inr ⟨rfl, hNotice⟩)
    List.mem_cons_self rfl hSame
  cases List.mem_singleton.mp hR

end Repaired

theorem repaired_write_sent_again :
    ¬ LostWritesGuarded twoTools (run twoTools.next {}
      (repairedTurn (writeCall "a") (writeCall "b") ++ [.tools (toolAnswers ["done"])])).entries :=
  not_guarded_of_repaired (by decide) (by decide) (by decide) "done"

end RustyRuntime
