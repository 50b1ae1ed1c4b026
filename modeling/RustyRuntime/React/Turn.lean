import RustyRuntime.React.Policy

/-!
# Repeated requests within a turn

The tools node ends a run that asks for the same batch three times in a turn. Requests that
count are those with a result: one whose calls all failed is left to the bound on failures,
and so is a write that the policy refused for reconciliation.

**The bound on requests** (`requests_bounded`): five requests for one batch, with no failed
read in between, when no call is refused for reconciliation, tools report failures as errors,
and a batch of reads is not asked for again after a write failed.

Without the first condition there is no bound at all (`lost_write_requested_forever`): the
refusal of a lost write counts as a failure of the request, but not of the call.
-/

namespace RustyRuntime

open Library

/-! ## Requests for the same batch -/

/-- A call without its id. -/
def ToolCall.ask (call : ToolCall) : String × Json := (call.name, call.arguments)

/-- The same calls, in any order. -/
def SameBatch (calls other : List ToolCall) : Prop :=
  (calls.map ToolCall.ask).Perm (other.map ToolCall.ask)

instance (calls other : List ToolCall) : Decidable (SameBatch calls other) :=
  inferInstanceAs (Decidable (List.Perm _ _))

variable {calls other : List ToolCall} {call : ToolCall} {agent : Agent} {c : Conversation}
  {box : Toolbox} {messages : List ChatMessage} {text : String}

theorem SameBatch.exists_identical (h : SameBatch calls other) (hIn : call ∈ other) :
    ∃ c ∈ calls, call.identical c := by
  obtain ⟨c, hC, hAsk⟩ := List.mem_map.mp (h.mem_iff.mpr (List.mem_map_of_mem hIn))
  obtain ⟨hName, hArguments⟩ := Prod.mk.inj hAsk
  exact ⟨c, hC, ToolCall.identical_iff.mpr ⟨hName, hArguments⟩⟩

theorem SameBatch.callSignature_eq (h : SameBatch calls other) :
    callSignature calls = callSignature other := by
  have hSplit (list : List ToolCall) :
      (list.map fun call => s!"{call.name}({canonicalText call.arguments})") =
        (list.map ToolCall.ask).map fun ask => s!"{ask.1}({canonicalText ask.2})" := by
    rw [List.map_map]
    rfl
  rw [callSignature, callSignature, hSplit, hSplit]
  have hLe (a b : String) : (decide (a ≤ b) || decide (b ≤ a)) := by
    rcases String.le_total a b with hAB | hBA
    · simp [hAB]
    · simp [hBA]
  have hTrans (a b c : String) (hAB : decide (a ≤ b)) (hBC : decide (b ≤ c)) :
      decide (a ≤ c) := by
    rw [decide_eq_true_eq] at hAB hBC ⊢
    exact String.le_trans hAB hBC
  refine ((List.mergeSort_perm _ _).trans ((h.map _).trans
    (List.mergeSort_perm _ _).symm)).eq_of_pairwise ?_ (List.pairwise_mergeSort hTrans hLe _)
    (List.pairwise_mergeSort hTrans hLe _)
  intro a b _ _ hAB hBA
  rw [decide_eq_true_eq] at hAB hBA
  exact String.le_antisymm hAB hBA

namespace Entry

def asksFor (calls : List ToolCall) : Entry → Bool
  | said _ _ => false
  | round r => SameBatch r.calls calls

def quiet (box : Toolbox) : Entry → Bool
  | said speaker _ => speaker ≠ .user
  | round r => !r.repaired && r.answers.all fun a =>
      !(isRead box.effectOf a.call.name && worldFailed box.json a.text)

end Entry

def Conversation.requests (c : Conversation) (part : List Entry) (calls : List ToolCall) : Nat :=
  part.countP (·.asksFor calls) +
    if c.isOpen && decide (SameBatch (openCalls c.thread) calls) then 1 else 0

/-- No batch is asked for more often within a turn, with no failed read in between. -/
def RequestsWithin (bound : Nat) (agent : Agent) (c : Conversation) : Prop :=
  ∀ before part calls, c.entries = before ++ part →
    (∀ e ∈ part, e.quiet agent.toToolbox = true) → c.requests part calls ≤ bound

/-! ## What the node counts -/

section Counting

variable {json : FailureText}

def Round.failed (json : FailureText) (r : Round) : Bool :=
  r.answers.all fun a => (ToolFailure.parse json a.text).any fun f => f.failureClass ≠ "bounded"

def Round.unrecorded (r : Round) : Bool := r.answers.all fun a => a.text = unrecordedReadNotice

def Entry.counts (json : FailureText) (signature : List String) : Entry → Bool
  | said _ _ => false
  | round r => !r.calls.isEmpty && callSignature r.calls = signature && !r.failed json &&
      !r.unrecorded

variable (signature : List String)

theorem countRequests_append_le (front messages : List ChatMessage) :
    countRequests json signature messages ≤ countRequests json signature (front ++ messages) := by
  induction front with
  | nil => exact Nat.le_refl _
  | cons m front ih =>
    rw [List.cons_append, countRequests]
    omega

theorem countRequests_answers (answers : List CallAnswer) (messages : List ChatMessage) :
    countRequests json signature (answerMessages answers ++ messages) =
      countRequests json signature messages := by
  rw [answerMessages, resultMessages, List.map_map]
  induction answers with
  | nil => rfl
  | cons a rest ih =>
    rw [List.map_cons, List.cons_append, countRequests, ih]
    exact Nat.zero_add _

theorem resultOf_round {r : Round} (hIds : (r.calls.map (·.id)).Nodup)
    (messages : List ChatMessage) {a : CallAnswer} (hIn : a ∈ r.answers) :
    resultOf (requestMessage r.content r.calls :: (answerMessages r.answers ++ messages))
      a.call.id = some a.text := by
  have hSkip (rest : List ChatMessage) :
      resultOf (requestMessage r.content r.calls :: rest) a.call.id = resultOf rest a.call.id := by
    simp [resultOf, requestMessage]
  have hOwn : resultOf (answerMessages r.answers) a.call.id = some a.text := by
    have hDistinct : ((r.answers.map fun a => (a.call, a.text)).map (·.1.id)).Nodup := by
      rw [List.map_map]
      rw [Round.calls, List.map_map] at hIds
      exact hIds
    have hPair : (a.call, a.text) ∈ r.answers.map fun a => (a.call, a.text) :=
      List.mem_map_of_mem hIn
    exact resultOf_resultMessages hDistinct hPair
  rw [hSkip, resultOf_append_of_isSome (by rw [hOwn]; rfl), hOwn]

theorem countRequests_round {r : Round} (hIds : (r.calls.map (·.id)).Nodup)
    (messages : List ChatMessage) :
    countRequests json signature ((Entry.round r).messages ++ messages) =
      (if (Entry.round r).counts json signature then 1 else 0) +
        countRequests json signature messages := by
  have hResult {a : CallAnswer} (hIn : a ∈ r.answers) := resultOf_round hIds messages hIn
  have hFailed : allFailed json (requestMessage r.content r.calls)
      (answerMessages r.answers ++ messages) = r.failed json := by
    have hCalls : (requestMessage r.content r.calls).toolCalls = r.answers.map (·.call) := rfl
    rw [allFailed, hCalls, List.all_map, Round.failed, Bool.eq_iff_iff, List.all_eq_true,
      List.all_eq_true]
    refine forall₂_congr fun a hIn => ?_
    rw [Function.comp_apply, hResult hIn, Option.bind_some]
  have hUnrecorded : allUnrecorded (requestMessage r.content r.calls)
      (answerMessages r.answers ++ messages) = r.unrecorded := by
    have hCalls : (requestMessage r.content r.calls).toolCalls = r.answers.map (·.call) := rfl
    rw [allUnrecorded, hCalls, List.all_map, Round.unrecorded, Bool.eq_iff_iff, List.all_eq_true,
      List.all_eq_true]
    refine forall₂_congr fun a hIn => ?_
    rw [Function.comp_apply, hResult hIn, decide_eq_true_eq, decide_eq_true_eq, Option.some.injEq]
  have hRequest : requestsBatch signature (requestMessage r.content r.calls) =
      (!r.calls.isEmpty && decide (callSignature r.calls = signature)) := rfl
  rw [Entry.messages, List.cons_append, countRequests, countRequests_answers, hFailed,
    hUnrecorded, hRequest, Entry.counts]

variable {entries : List Entry}

/-- **The node counts rounds.** -/
theorem countRequests_render (hIds : ∀ e ∈ entries, e.DistinctIds) :
    countRequests json signature (render entries) = entries.countP (·.counts json signature) := by
  induction entries with
  | nil => rfl
  | cons e rest ih =>
    obtain ⟨hHead, hRest⟩ := List.forall_mem_cons.mp hIds
    rw [render_cons, List.countP_cons, ← ih hRest, Nat.add_comm]
    cases e with
    | said speaker content =>
      rw [Entry.messages, List.cons_append, List.nil_append, countRequests]
      have hNone : requestsBatch signature (speaker.message content) = false := by
        simp [requestsBatch, Speaker.message]
      rw [hNone]
      rfl
    | round r => exact countRequests_round signature hHead _

theorem rtakeWhile_append {α : Type} {p : α → Bool} {front rest : List α}
    (h : ∀ x ∈ rest, p x) :
    (front ++ rest).rtakeWhile p = front.rtakeWhile p ++ rest := by
  rw [List.rtakeWhile, List.reverse_append,
    List.takeWhile_append_of_pos (fun x hIn => h x (List.mem_reverse.mp hIn)),
    List.reverse_append, List.reverse_reverse]
  rfl

theorem countP_le_identicalRequests {before part : List Entry} {content : Option String}
    {calls : List ToolCall} {rereadable : Bool} (hIds : ∀ e ∈ part, e.DistinctIds)
    (hPart : ∀ m ∈ render part, startsOver json rereadable m = false) :
    part.countP (·.counts json (callSignature calls)) ≤
      identicalRequestsThisTurn json (render (before ++ part) ++ [requestMessage content calls])
        rereadable := by
  have hWindow : ((render (before ++ part)).rtakeWhile fun m => !startsOver json rereadable m) =
      ((render before).rtakeWhile fun m => !startsOver json rereadable m) ++ render part := by
    rw [render_append]
    exact rtakeWhile_append fun m hIn => by rw [hPart m hIn]; rfl
  rw [identicalRequestsThisTurn, List.getLast?_concat]
  simp only [List.dropLast_concat]
  rw [hWindow, ← countRequests_render _ hIds]
  exact countRequests_append_le _ _ _

theorem identicalRequests_le_countP (content : Option String) (calls : List ToolCall)
    (rereadable : Bool) (hIds : ∀ e ∈ entries, e.DistinctIds) :
    identicalRequestsThisTurn json (render entries ++ [requestMessage content calls]) rereadable ≤
      entries.countP (·.counts json (callSignature calls)) := by
  obtain ⟨front, hFront⟩ := List.rtakeWhile_suffix
    (fun m => !startsOver json rereadable m) (render entries)
  have hLe : countRequests json (callSignature calls) _ ≤ _ := countRequests_append_le _ front
    ((render entries).rtakeWhile fun m => !startsOver json rereadable m)
  rw [hFront, countRequests_render _ hIds] at hLe
  rw [identicalRequestsThisTurn, List.getLast?_concat]
  simp only [List.dropLast_concat]
  exact hLe

end Counting

/-! ## The condition -/

def Candid (json : FailureText) (text : String) : Prop :=
  ((ToolFailure.parse json text).isSome = true → realFailure json text = true) ∧
    text ≠ unrecordedReadNotice

instance (json : FailureText) (text : String) : Decidable (Candid json text) :=
  inferInstanceAs (Decidable (_ ∧ _))

/-- Since the batch was asked for in this turn, no write failed. -/
def Toolbox.WritesHeld (box : Toolbox) (entries : List Entry) (calls : List ToolCall) : Prop :=
  ∀ part ∈ entries.tails, part.head?.any (·.asksFor calls) = true →
    (∀ e ∈ part, e.quiet box = true) → ∀ e ∈ part, ∀ a ∈ e.answers,
      isRead box.effectOf a.call.name = false → worldFailed box.json a.text = false

instance (box : Toolbox) (entries : List Entry) (calls : List ToolCall) :
    Decidable (box.WritesHeld entries calls) := by
  unfold Toolbox.WritesHeld
  infer_instance

def SteadyMove (agent : Agent) (c : Conversation) : Move → Prop
  | .ask _ calls => DistinctCalls calls
  | .tools world =>
    (∀ i < (openCalls c.thread).length, Candid agent.json (world.answer i)) ∧
      (∀ call ∈ openCalls c.thread, ∀ f ∈ agent.policy c.thread call,
        f.failureClass ≠ "reconcile_first") ∧
      (agent.allReads (openCalls c.thread) = true →
        agent.WritesHeld c.entries (openCalls c.thread))
  | _ => True

instance (agent : Agent) (c : Conversation) : (move : Move) → Decidable (SteadyMove agent c move)
  | .ask _ calls => inferInstanceAs (Decidable (DistinctCalls calls))
  | .tools _ => by unfold SteadyMove; infer_instance
  | .say _ _ | .repair => .isTrue trivial

/-! ## The bound on requests -/

def failedRounds (json : FailureText) (entries : List Entry) (call : ToolCall) : Nat :=
  entries.countP fun e => e.answers.any fun a =>
    a.ran && call.identical a.call && realFailure json a.text

theorem failedRounds_le_failures {json : FailureText} {entries : List Entry}
    (hIds : ∀ e ∈ entries, e.DistinctIds) (call : ToolCall) :
    failedRounds json entries call ≤ failures json (render entries) call := by
  induction entries using List.reverseRecOn with
  | nil => exact Nat.zero_le _
  | append_singleton entries e ih =>
    rw [List.forall_mem_append, List.forall_mem_singleton] at hIds
    rw [failedRounds, List.countP_append, ← failedRounds, failures_concat entries hIds.2,
      List.countP_singleton]
    have hOld := ih hIds.1
    split
    · rename_i hAny
      obtain ⟨a, hIn, hAll⟩ := List.any_eq_true.mp hAny
      simp only [Bool.and_eq_true] at hAll
      have hPos : 0 < e.answers.countP fun a =>
          call.identical a.call && realFailure json a.text :=
        List.countP_pos_iff.mpr ⟨a, hIn, by simp [hAll]⟩
      omega
    · omega

/-- What the loop keeps when its moves are steady. -/
structure TurnInv (agent : Agent) (c : Conversation) : Prop where
  tracks : Tracks (fun _ calls => DistinctCalls calls) c
  ids : ∀ e ∈ c.entries, e.DistinctIds
  asked : ∀ r, .round r ∈ c.entries → r.calls ≠ []
  /-- A round that does not count failed for real. -/
  candid : ∀ r, .round r ∈ c.entries → r.repaired = false → ∀ a ∈ r.answers,
    (((ToolFailure.parse agent.json a.text).any fun f => f.failureClass ≠ "bounded") = true →
      a.ran = true ∧ realFailure agent.json a.text = true) ∧ a.text ≠ unrecordedReadNotice
  failed : ∀ call, failedRounds agent.json c.entries call ≤ failureBound
  counted : ∀ before part calls, c.entries = before ++ part →
    (∀ e ∈ part, e.quiet agent.toToolbox = true) →
      (part.countP fun e => e.asksFor calls && e.counts agent.json (callSignature calls)) ≤ 2

theorem failed_of_not_counts (h : TurnInv agent c) {e : Entry} (hIn : e ∈ c.entries)
    (hQuiet : e.quiet agent.toToolbox) (hAsks : e.asksFor calls)
    (hCounts : e.counts agent.json (callSignature calls) = false) (hCall : call ∈ calls) :
    (e.answers.any fun a => a.ran && call.identical a.call && realFailure agent.json a.text) =
      true := by
  cases e with
  | said speaker content => cases hAsks
  | round r =>
    have hSame : SameBatch r.calls calls := of_decide_eq_true hAsks
    rw [Entry.quiet, Bool.and_eq_true, Bool.not_eq_true'] at hQuiet
    have hCandid := h.candid r hIn hQuiet.1
    obtain ⟨c', hC', hIdentical⟩ := hSame.exists_identical hCall
    obtain ⟨a, hA, rfl⟩ := List.mem_map.mp hC'
    have hEmpty : r.calls.isEmpty = false := by
      rw [List.isEmpty_eq_false_iff]
      exact h.asked r hIn
    have hRecorded : r.unrecorded = false := by
      rw [Round.unrecorded, List.all_eq_false]
      exact ⟨a, hA, by simpa using (hCandid a hA).2⟩
    have hFailed : r.failed agent.json := by
      rw [Entry.counts, hEmpty, hSame.callSignature_eq, hRecorded] at hCounts
      simpa using hCounts
    obtain ⟨hRan, hReal⟩ := (hCandid a hA).1 (List.all_eq_true.mp hFailed a hA)
    exact List.any_eq_true.mpr ⟨a, hA, by rw [hRan, hIdentical, hReal]; rfl⟩

/-- The bound follows from the invariant: two requests that count, two that failed, and the
open one. -/
theorem requestsWithin_of_turnInv (h : TurnInv agent c) :
    RequestsWithin (stuckTurnLimit + failureBound) agent c := by
  intro before part calls hSplit hQuiet
  have hOpen : (if c.isOpen && decide (SameBatch (openCalls c.thread) calls) then 1 else 0) ≤ 1 := by
    split <;> omega
  have hCounted := h.counted before part calls hSplit hQuiet
  have hPart : ∀ e ∈ part, e ∈ c.entries := by
    intro e hIn
    rw [hSplit]
    exact List.mem_append_right _ hIn
  have hRest : (part.countP fun e => e.asksFor calls &&
      !e.counts agent.json (callSignature calls)) ≤ failureBound := by
    cases calls with
    | nil =>
      -- a round has calls
      have hNone : (part.countP fun e => e.asksFor [] &&
          !e.counts agent.json (callSignature [])) = 0 := by
        rw [List.countP_eq_zero]
        intro e hIn hBoth
        rw [Bool.and_eq_true] at hBoth
        cases e with
        | said speaker content => cases hBoth.1
        | round r =>
          have hSame : SameBatch r.calls [] := of_decide_eq_true hBoth.1
          exact h.asked r (hPart _ hIn) (List.map_eq_nil_iff.mp hSame.eq_nil)
      omega
    | cons call rest =>
      calc (part.countP fun e => e.asksFor (call :: rest) &&
              !e.counts agent.json (callSignature (call :: rest)))
          ≤ failedRounds agent.json part call := by
            refine List.countP_mono_left fun e hIn hBoth => ?_
            rw [Bool.and_eq_true, Bool.not_eq_true'] at hBoth
            exact failed_of_not_counts h (hPart e hIn) (hQuiet e hIn) hBoth.1 hBoth.2
              List.mem_cons_self
        _ ≤ failedRounds agent.json c.entries call := by
            rw [hSplit, failedRounds, failedRounds, List.countP_append]
            omega
        _ ≤ failureBound := h.failed call
  have hAll : part.countP (·.asksFor calls) =
      (part.countP fun e => e.asksFor calls && e.counts agent.json (callSignature calls)) +
        part.countP fun e => e.asksFor calls && !e.counts agent.json (callSignature calls) := by
    rw [List.countP_eq_countP_filter_add part _
      (fun e : Entry => e.counts agent.json (callSignature calls)), List.countP_filter,
      List.countP_filter]
  rw [Conversation.requests, hAll]
  simp only [stuckTurnLimit, failureBound] at *
  omega

theorem StandsIn.ne_unrecordedReadNotice (h : StandsIn box messages calls text) :
    text ≠ unrecordedReadNotice := by
  cases h with
  | refusal _ _ =>
    intro hSame
    obtain ⟨rest, hNotice⟩ := opening_unrecordedReadNotice
    have hPlain := (parse_of_plain box.json hNotice (by decide) (by decide)).2
    rw [← hSame, isErrorText_errorText] at hPlain
    cases hPlain
  | notice _ _ hOther => exact hOther

theorem StandsIn.bounded (h : StandsIn box messages calls text)
    (hReconcile : ∀ call ∈ calls, ∀ f ∈ box.policy messages call,
      f.failureClass ≠ "reconcile_first") {f : ToolFailure}
    (hParse : ToolFailure.parse box.json text = some f) : f.failureClass = "bounded" := by
  cases h with
  | @refusal call _ hCall hPolicy =>
    obtain ⟨hKind, hClass⟩ := failurePolicy_eq_some hPolicy
    rw [parse_errorText hKind] at hParse
    cases hParse
    exact hClass.resolve_right (hReconcile call hCall _ hPolicy)
  | notice hNone _ _ =>
    rw [hNone] at hParse
    cases hParse

theorem not_startsOver {part : List Entry} {rereadable : Bool}
    (hQuiet : ∀ e ∈ part, e.quiet agent.toToolbox)
    (hWrites : rereadable → ∀ e ∈ part, ∀ a ∈ e.answers,
      isRead agent.effectOf a.call.name = false → worldFailed agent.json a.text = false) :
    ∀ m ∈ render part, startsOver agent.json rereadable m = false := by
  intro m hIn
  obtain ⟨e, hE, hM⟩ := List.mem_flatMap.mp hIn
  have hCalm := hQuiet e hE
  cases e with
  | said speaker content =>
    cases List.mem_singleton.mp hM
    cases speaker with
    | user => cases hCalm
    | system | assistant => simp [startsOver, Speaker.message, Speaker.role]
  | round r =>
    rw [Entry.messages, List.mem_cons] at hM
    rcases hM with rfl | hM
    · simp [startsOver, requestMessage]
    · obtain ⟨pair, hPair, rfl⟩ := List.mem_map.mp hM
      obtain ⟨a, hA, rfl⟩ := List.mem_map.mp hPair
      rw [Entry.quiet, Bool.and_eq_true, List.all_eq_true] at hCalm
      have hRead := hCalm.2 a hA
      cases rereadable with
      | false => simp [startsOver, ChatMessage.toolResult]
      | true =>
        have hHeld : worldFailed agent.json a.text = false := by
          cases hKind : isRead agent.effectOf a.call.name with
          | true => simpa [hKind] using hRead
          | false => exact hWrites rfl _ hE a hA hKind
        simp [startsOver, ChatMessage.toolResult, hHeld]

theorem SameBatch.asksFor_eq (h : SameBatch calls other) (e : Entry) :
    e.asksFor calls = e.asksFor other := by
  cases e with
  | said speaker content => rfl
  | round r =>
    rw [Entry.asksFor, Entry.asksFor, decide_eq_decide]
    exact ⟨fun hSame => hSame.trans h, fun hSame => hSame.trans (List.Perm.symm h)⟩

/-- The part from the first request for the batch on. -/
theorem exists_first_request (calls : List ToolCall) (part : List Entry) :
    ∃ front since, part = front ++ since ∧ (∀ e ∈ front, e.asksFor calls = false) ∧
      (since ≠ [] → since.head?.any (·.asksFor calls)) := by
  refine ⟨part.takeWhile (!·.asksFor calls), part.dropWhile (!·.asksFor calls),
    List.takeWhile_append_dropWhile.symm, fun e hIn => ?_, fun hSome => ?_⟩
  · simpa using List.mem_takeWhile_imp hIn
  · have hFirst := List.head?_dropWhile_not (fun e : Entry => !e.asksFor calls) part
    obtain ⟨first, rest, hRest⟩ := List.exists_cons_of_ne_nil hSome
    rw [hRest] at hFirst ⊢
    simpa using hFirst

theorem counted_before (h : TurnInv agent c) {content : Option String}
    (hThread : c.thread = render c.entries ++ [requestMessage content calls])
    (hRepeats : identicalRequestsThisTurn agent.json c.thread (agent.allReads calls) + 1 <
      stuckTurnLimit) (hWrites : agent.allReads calls → agent.WritesHeld c.entries calls)
    {before part : List Entry} (hSplit : c.entries = before ++ part)
    (hQuiet : ∀ e ∈ part, e.quiet agent.toToolbox) :
    (part.countP fun e => e.asksFor calls && e.counts agent.json (callSignature calls)) ≤ 1 := by
  obtain ⟨front, since, rfl, hFront, hFirst⟩ := exists_first_request calls part
  have hSince : since ∈ c.entries.tails := by
    rw [List.mem_tails, hSplit, ← List.append_assoc]
    exact List.suffix_append _ _
  have hCalm : ∀ e ∈ since, e.quiet agent.toToolbox :=
    fun e hIn => hQuiet e (List.mem_append_right _ hIn)
  have hBefore : (front.countP fun e =>
      e.asksFor calls && e.counts agent.json (callSignature calls)) = 0 := by
    rw [List.countP_eq_zero]
    intro e hIn
    simp [hFront e hIn]
  have hHeld : agent.allReads calls → ∀ e ∈ since, ∀ a ∈ e.answers,
      isRead agent.effectOf a.call.name = false → worldFailed agent.json a.text = false :=
    fun hReads e hIn => hWrites hReads _ hSince (hFirst (List.ne_nil_of_mem hIn)) hCalm e hIn
  have hIds : ∀ e ∈ since, e.DistinctIds := by
    intro e hIn
    refine h.ids e ?_
    simp [hSplit, hIn]
  have hWindow : _ ≤ identicalRequestsThisTurn agent.json
      (render (before ++ front ++ since) ++ [requestMessage content calls])
      (agent.allReads calls) :=
    countP_le_identicalRequests hIds (not_startsOver hCalm hHeld)
  rw [List.append_assoc before, ← hSplit, ← hThread] at hWindow
  rw [List.countP_append, hBefore, Nat.zero_add]
  have hLe : (since.countP fun e => e.asksFor calls && e.counts agent.json (callSignature calls)) ≤
      since.countP (·.counts agent.json (callSignature calls)) := by
    refine List.countP_mono_left fun e _ hBoth => ?_
    rw [Bool.and_eq_true] at hBoth
    exact hBoth.2
  simp only [stuckTurnLimit] at hRepeats
  omega

theorem TurnInv.extend (h : TurnInv agent c) {e : Entry} (hIds : e.DistinctIds)
    (hAsked : ∀ r, e = .round r → r.calls ≠ [])
    (hCandid : ∀ r, e = .round r → r.repaired = false → ∀ a ∈ r.answers,
      (((ToolFailure.parse agent.json a.text).any fun f => f.failureClass ≠ "bounded") →
      a.ran ∧ realFailure agent.json a.text) ∧ a.text ≠ unrecordedReadNotice)
    (hFailed : ∀ call, (e.answers.any fun a =>
      a.ran && call.identical a.call && realFailure agent.json a.text) →
      failedRounds agent.json c.entries call < failureBound)
    (hCounted : ∀ before part calls, c.entries = before ++ part →
      (∀ e ∈ part, e.quiet agent.toToolbox) → e.quiet agent.toToolbox →
      e.asksFor calls → (part.countP fun e =>
      e.asksFor calls && e.counts agent.json (callSignature calls)) ≤ 1) :
    TurnInv agent (c.extend e) where
  tracks := .settled rfl
  ids := List.forall_mem_append.mpr ⟨h.ids, List.forall_mem_singleton.mpr hIds⟩
  asked := by
    intro r hIn
    rcases List.mem_append.mp hIn with hIn | hIn
    · exact h.asked r hIn
    · exact hAsked r (List.mem_singleton.mp hIn).symm
  candid := by
    intro r hIn
    rcases List.mem_append.mp hIn with hIn | hIn
    · exact h.candid r hIn
    · exact hCandid r (List.mem_singleton.mp hIn).symm
  failed := by
    intro call
    rw [Conversation.extend, failedRounds, List.countP_append, ← failedRounds,
      List.countP_singleton]
    split
    · exact hFailed call ‹_›
    · exact h.failed call
  counted := by
    intro before part calls hSplit hQuiet
    rcases part.eq_nil_or_concat with rfl | ⟨front, last, rfl⟩
    · exact Nat.zero_le _
    · rw [List.concat_eq_append] at hSplit hQuiet ⊢
      rw [Conversation.extend, ← List.append_assoc] at hSplit
      obtain ⟨hFront, hLast⟩ := List.append_inj' hSplit rfl
      cases hLast
      rw [List.forall_mem_append, List.forall_mem_singleton] at hQuiet
      rw [List.countP_append, List.countP_singleton]
      split
      · rename_i hBoth
        rw [Bool.and_eq_true] at hBoth
        have hOld := hCounted before front calls hFront hQuiet.1 hQuiet.2 hBoth.1
        omega
      · exact h.counted before front calls hFront hQuiet.1

theorem turnInv_step {c' : Conversation} {move : Move} (h : TurnInv agent c)
    (hMove : SteadyMove agent c move) (hStep : Step agent c move c') : TurnInv agent c' := by
  have hTracks : Tracks (fun _ calls => DistinctCalls calls) c' := by
    refine tracks_of_step h.tracks hStep ?_
    rintro content calls rfl -
    exact hMove
  cases hStep with
  | idle => exact h
  | said =>
    refine h.extend trivial ?_ ?_ ?_ ?_
    · rintro r ⟨⟩
    · rintro r ⟨⟩
    · intro call hAny
      cases hAny
    · intro before part calls _ _ _ hAsks
      cases hAsks
  | asked => exact ⟨hTracks, h.ids, h.asked, h.candid, h.failed, h.counted⟩
  | @answered world content calls answers hCalls hThread hRepeats hSound =>
    have hDistinct := asks_of_tracks h.tracks hThread
    rw [SteadyMove, hThread, openCalls_request, ← hThread] at hMove
    obtain ⟨hTexts, hReconcile, hWrites⟩ := hMove
    have hAsked : (⟨content, answers, false⟩ : Round).calls = calls := hSound.calls_eq
    refine h.extend ?_ ?_ ?_ ?_ ?_
    · rw [Entry.DistinctIds, hAsked]
      exact hDistinct
    · rintro r ⟨⟩
      rw [hAsked]
      exact hCalls
    · rintro r ⟨⟩ - a hIn
      cases hFlag : a.ran with
      | true =>
        obtain ⟨i, hLt, hText⟩ := hSound.text_of_ran a hIn hFlag
        obtain ⟨hReal, hOther⟩ := hTexts i hLt
        rw [← hText] at hReal hOther
        refine ⟨fun hAny => ⟨rfl, hReal ?_⟩, hOther⟩
        obtain ⟨f, hParse, -⟩ := (Option.any_eq_true _ _).mp hAny
        rw [hParse]
        rfl
      | false =>
        have hOwn := hSound.standsIn a hIn hFlag
        refine ⟨fun hAny => ?_, hOwn.ne_unrecordedReadNotice⟩
        obtain ⟨f, hParse, hClass⟩ := (Option.any_eq_true _ _).mp hAny
        exact absurd (hOwn.bounded hReconcile hParse) (of_decide_eq_true hClass)
    · intro call hAny
      obtain ⟨a, hIn, hAll⟩ := List.any_eq_true.mp hAny
      simp only [Bool.and_eq_true] at hAll
      obtain ⟨⟨hRan, hSame⟩, -⟩ := hAll
      have hPolicy := (failurePolicy_eq_none (hSound.policy_of_ran a hIn hRan)).1
      rw [hThread, failures_request, ← failures_congr hSame] at hPolicy
      exact Nat.lt_of_le_of_lt (failedRounds_le_failures h.ids call) hPolicy
    · intro before part batch hSplit hQuiet _ hAsks
      have hSame : SameBatch calls batch := by
        rw [Entry.asksFor, hAsked] at hAsks
        exact of_decide_eq_true hAsks
      have hBound := counted_before h hThread hRepeats hWrites hSplit hQuiet
      simpa only [hSame.asksFor_eq, hSame.callSignature_eq] using hBound
  | @repaired content calls hCalls hThread =>
    have hDistinct := asks_of_tracks h.tracks hThread
    have hAsked : (⟨content, noticeAnswers agent.repeatable calls, true⟩ : Round).calls = calls :=
      map_call_noticeAnswers agent.repeatable calls
    refine h.extend ?_ ?_ ?_ ?_ ?_
    · rw [Entry.DistinctIds, hAsked]
      exact hDistinct
    · rintro r ⟨⟩
      rw [hAsked]
      exact hCalls
    · rintro r ⟨⟩ hFlag
      cases hFlag
    · intro call hAny
      obtain ⟨a, hIn, hAll⟩ := List.any_eq_true.mp hAny
      simp [(mem_noticeAnswers hIn).2.1] at hAll
    · intro before part batch _ _ hQuiet
      cases hQuiet

/-- **The bound on requests.** In a run of steady moves no turn asks for the same batch more
than five times without a failed read in between. -/
theorem requests_bounded (agent : Agent) (moves : List Move)
    (hMoves : Admissible agent.next (SteadyMove agent) {} moves) :
    RequestsWithin (stuckTurnLimit + failureBound) agent (run agent.next {} moves) := by
  have hInit : TurnInv agent {} := by
    refine ⟨.settled rfl, nofun, nofun,
      nofun, fun _ => Nat.zero_le _, ?_⟩
    intro before part calls hSplit
    obtain ⟨-, rfl⟩ := List.append_eq_nil_iff.mp hSplit.symm
    exact fun _ => Nat.zero_le _
  have hInv := run_invariant (fun c move h hMove =>
    turnInv_step h hMove (step_of_tracks h.tracks move)) hInit hMoves
  exact requestsWithin_of_turnInv hInv

/-- A write that answered is asked for twice more; the third request would end the run. -/
def threeRequests : List Move :=
  [.say .user (some "go"), .ask none [writeCall "a"], .tools (toolAnswers ["done"]),
    .ask none [writeCall "b"], .tools (toolAnswers []), .ask none [writeCall "c"]]

theorem requests_bounded_threeRequests :
    Admissible twoTools.next (SteadyMove twoTools) {} threeRequests ∧
      (run twoTools.next {} threeRequests).requests
        (run twoTools.next {} threeRequests).entries.tail [writeCall "d"] = 3 ∧
      RequestsWithin (stuckTurnLimit + failureBound) twoTools
        (run twoTools.next {} threeRequests) := by
  have hMoves : Admissible twoTools.next (SteadyMove twoTools) {} threeRequests := by
    decide
  exact ⟨hMoves, by decide +kernel, requests_bounded twoTools threeRequests hMoves⟩

/-! ## A lost write -/

section Lost

variable (agent : Agent) (call : ToolCall) (lost : ToolFailure)

/-- The write whose answer was lost. -/
def lostRound : Round := ⟨none, [⟨call, lost.errorText agent.json, true⟩], false⟩

def refusedRound : Round := ⟨none, [⟨call, (reconcileRefusal call).errorText agent.json, false⟩], false⟩

def lostEntries (n : Nat) : List Entry :=
  [.said .user (some "go"), .round (lostRound agent call lost)] ++
    List.replicate n (.round (refusedRound agent call))

/-- One turn in which the model asks for the write again and again. -/
def lostMoves (n : Nat) : List Move :=
  [.say .user (some "go"), .ask none [call], .tools (toolAnswers [lost.errorText agent.json])] ++
    (List.replicate n [.ask none [call], .tools (toolAnswers [])]).flatten

variable {agent call lost}

theorem mem_lostEntries {n : Nat} {r : Round} (h : .round r ∈ lostEntries agent call lost n) :
    r = lostRound agent call lost ∨ r = refusedRound agent call := by
  rw [lostEntries, List.mem_append] at h
  rcases h with h | h
  · rcases List.mem_cons.mp h with h | h
    · cases h
    · cases List.mem_singleton.mp h
      exact .inl rfl
  · cases List.eq_of_mem_replicate h
    exact .inr rfl

theorem distinctIds_lostEntries (n : Nat) :
    ∀ e ∈ lostEntries agent call lost n, e.DistinctIds := by
  intro e hIn
  cases e with
  | said speaker content => trivial
  | round r =>
    rcases mem_lostEntries hIn with rfl | rfl
    · exact List.nodup_singleton _
    · exact List.nodup_singleton _

theorem parse_refusal : ToolFailure.parse agent.json ((reconcileRefusal call).errorText agent.json) =
    some (reconcileRefusal call) := parse_errorText rfl

theorem failureClass_refusal : (reconcileRefusal call).failureClass = "reconcile_first" := rfl

theorem lostEntries_succ (n : Nat) :
    lostEntries agent call lost (n + 1) =
      lostEntries agent call lost n ++ [.round (refusedRound agent call)] := by
  rw [lostEntries, List.replicate_succ', ← List.append_assoc]
  rfl

/-- The model asks for the write. -/
abbrev firstAsk (call : ToolCall) : List ChatMessage :=
  [Speaker.user.message (some "go"), requestMessage none [call]]

theorem toolsNode_first (text : String) (hWrite : isRead agent.effectOf call.name = false) :
    agent.toolsNode (firstAsk call) (toolAnswers [text]) = .answered [⟨call, text, true⟩] := by
  have hAttempts : attempts (firstAsk call) = [⟨1, call, none⟩] := by
    simp [attempts, attemptsFrom, Speaker.message, requestMessage, resultOf]
  have hPolicy : agent.policy (firstAsk call) call = none := by
    simp [Toolbox.policy, failurePolicy, failures, uncertain, unknownAttempts, latest, hAttempts,
      failureBound]
  have hReads : agent.allReads [call] = false := by simp [Toolbox.allReads, hWrite]
  have hRepeats : identicalRequestsThisTurn agent.json (firstAsk call) false = 0 := rfl
  have hDispatch : agent.dispatch (firstAsk call) [call] (toolAnswers [text]) =
      .answered [⟨call, text, true⟩] := by
    simp [Toolbox.dispatch, hPolicy, withRefusal, toolAnswers, deniedCalls, answerCalls]
  unfold Toolbox.toolsNode
  simp only [firstAsk, requestMessage, ChatMessage.hasToolCalls] at hPolicy hRepeats hDispatch ⊢
  simp [hReads, hRepeats, hPolicy, hDispatch, stuckTurnLimit]

variable (hKind : lost.kind = ToolFailure.kindName) (hClass : lost.failureClass = "unknown_outcome")

include hKind hClass

theorem countP_lostEntries (n : Nat) (signature : List String) :
    (lostEntries agent call lost n).countP (·.counts agent.json signature) = 0 := by
  rw [List.countP_eq_zero]
  intro e hIn
  cases e with
  | said speaker content => exact Bool.false_ne_true
  | round r =>
    have hFailed : r.failed agent.json := by
      rcases mem_lostEntries hIn with rfl | rfl
      · simp [Round.failed, lostRound, parse_errorText hKind, hClass]
      · simp [Round.failed, refusedRound, parse_refusal, failureClass_refusal]
    simp [Entry.counts, hFailed]

theorem failures_lostEntries (n : Nat) :
    failures agent.json (render (lostEntries agent call lost n)) call = 1 := by
  have hSelf : call.identical call := ToolCall.identical_iff.mpr ⟨rfl, rfl⟩
  induction n with
  | zero =>
    have hReal : realFailure agent.json (lost.errorText agent.json) := by
      simp [realFailure, isErrorText_errorText, parse_errorText hKind, hClass]
    have hStart : lostEntries agent call lost 0 =
        [.said .user (some "go")] ++ [.round (lostRound agent call lost)] := rfl
    have hIds : (Entry.round (lostRound agent call lost)).DistinctIds := List.nodup_singleton _
    rw [hStart, failures_concat _ hIds]
    simp [Entry.answers, lostRound, hSelf, hReal, failures, attempts, attemptsFrom, render,
      Entry.messages, Speaker.message]
  | succ n ih =>
    have hIds : (Entry.round (refusedRound agent call)).DistinctIds := List.nodup_singleton _
    have hNot : realFailure agent.json ((reconcileRefusal call).errorText agent.json) = false :=
      realFailure_errorText rfl (.inr rfl)
    rw [lostEntries_succ, failures_concat _ hIds, ih]
    simp [Entry.answers, refusedRound, hNot]

variable (hSafe : lost.retrySafe = false) (hWrite : isRead agent.effectOf call.name = false)

include hSafe hWrite

theorem policy_lostEntries (n : Nat) :
    agent.policy (render (lostEntries agent call lost n) ++ [requestMessage none [call]]) call =
      some (reconcileRefusal call) := by
  have hIds := @distinctIds_lostEntries agent call lost n
  have hSelf : call.identical call := ToolCall.identical_iff.mpr ⟨rfl, rfl⟩
  have hIn : ⟨1, call, some (lost.errorText agent.json)⟩ ∈
      attempts (render (lostEntries agent call lost n) ++ [requestMessage none [call]]) := by
    rw [attempts_request]
    exact List.mem_append_left _ ((mem_attempts_render hIds).mpr
      ⟨[.said .user (some "go")], lostRound agent call lost, _, _, rfl, List.mem_cons_self, rfl⟩)
  obtain ⟨a, hA, safe, hUncertain, -, -, text, f, hText, hParse, hUnknown, hSafe'⟩ :=
    exists_uncertain hIn ⟨hSelf, _, lost, rfl, parse_errorText hKind, hClass, hSafe⟩
  -- the attempt the policy finds is the lost one: the refusals are of another class
  have hFalse : safe = false := by
    obtain ⟨before, r, after, answer, hSplit, hAnswer, rfl⟩ :=
      (mem_attempts_render hIds).mp (mem_attempts_request hA hText)
    cases hText
    rcases mem_lostEntries (by rw [hSplit]; simp : .round r ∈ lostEntries agent call lost n) with
      rfl | rfl
    · cases List.mem_singleton.mp hAnswer
      rw [parse_errorText hKind] at hParse
      cases hParse
      rw [← hSafe', hSafe]
    · cases List.mem_singleton.mp hAnswer
      rw [parse_refusal] at hParse
      cases hParse
      rw [failureClass_refusal] at hUnknown
      exact absurd hUnknown (by decide)
  have hNoRead : readSince agent.effectOf
      (render (lostEntries agent call lost n) ++ [requestMessage none [call]]) a.position =
        false := by
    rw [Bool.eq_false_iff]
    intro hRead
    obtain ⟨b, hB, -, hReads, text', hText', -⟩ := readSince_iff.mp hRead
    obtain ⟨before, r, after, answer, hSplit, hAnswer, rfl⟩ :=
      (mem_attempts_render hIds).mp (mem_attempts_request hB hText')
    rcases mem_lostEntries (by rw [hSplit]; simp : .round r ∈ lostEntries agent call lost n) with
      rfl | rfl <;>
    · cases List.mem_singleton.mp hAnswer
      rw [hWrite] at hReads
      cases hReads
  rw [hFalse] at hUncertain
  rw [Toolbox.policy, failurePolicy, failures_request, failures_lostEntries hKind hClass,
    if_neg (by decide), hWrite, if_neg Bool.false_ne_true, hUncertain]
  simp only [hNoRead]
  rfl

theorem toolsNode_lostEntries (n : Nat) (world : ToolsWorld) :
    agent.toolsNode (render (lostEntries agent call lost n) ++ [requestMessage none [call]]) world =
      .answered (refusedRound agent call).answers := by
  have hPolicy := policy_lostEntries hKind hClass hSafe hWrite n
  have hRepeats : identicalRequestsThisTurn agent.json
      (render (lostEntries agent call lost n) ++ [requestMessage none [call]])
      (agent.allReads [call]) = 0 := by
    have hLe : identicalRequestsThisTurn agent.json _ _ ≤ _ :=
      identicalRequests_le_countP none [call] (agent.allReads [call])
        (@distinctIds_lostEntries agent call lost n)
    rw [countP_lostEntries hKind hClass] at hLe
    exact Nat.le_zero.mp hLe
  unfold Toolbox.toolsNode
  simp [requestMessage, ChatMessage.hasToolCalls, refusedRound] at hPolicy hRepeats ⊢
  simp [hPolicy, hRepeats, stuckTurnLimit]

theorem run_lostMoves (n : Nat) :
    run agent.next {} (lostMoves agent call lost n) =
      ⟨render (lostEntries agent call lost n), lostEntries agent call lost n⟩ := by
  induction n with
  | zero =>
    have hStart : run agent.next {} (lostMoves agent call lost 0) =
        agent.next ⟨firstAsk call, [.said .user (some "go")]⟩
          (.tools (toolAnswers [lost.errorText agent.json])) := rfl
    rw [hStart, Agent.next, toolsNode_first _ hWrite]
    rfl
  | succ n ih =>
    have hMoves : lostMoves agent call lost (n + 1) =
        lostMoves agent call lost n ++ [.ask none [call], .tools (toolAnswers [])] := by
      rw [lostMoves, List.replicate_succ', List.flatten_append, ← List.append_assoc]
      rfl
    have hAsk : agent.next ⟨render (lostEntries agent call lost n), lostEntries agent call lost n⟩
        (.ask none [call]) = ⟨render (lostEntries agent call lost n) ++
          [requestMessage none [call]], lostEntries agent call lost n⟩ := by
      rw [Agent.next, isOpen_of_settled rfl]
      rfl
    rw [hMoves, run_append, ih, run, List.foldl_cons, List.foldl_cons, List.foldl_nil, hAsk,
      Agent.next, List.getLast?_concat, toolsNode_lostEntries hKind hClass hSafe hWrite,
      lostEntries_succ, render_concat]
    exact congrArg₂ Conversation.mk (List.append_assoc _ _ _) rfl

theorem requests_lostMoves {bound : Nat}
    (h : RequestsWithin bound agent (run agent.next {} (lostMoves agent call lost bound))) :
    False := by
  rw [run_lostMoves hKind hClass hSafe hWrite] at h
  have hQuiet : ∀ e ∈ .round (lostRound agent call lost) ::
      List.replicate bound (.round (refusedRound agent call)),
      Entry.quiet agent.toToolbox e := by
    intro e hIn
    rcases List.mem_cons.mp hIn with rfl | hIn
    · simp [Entry.quiet, lostRound, hWrite]
    · cases List.eq_of_mem_replicate hIn
      simp [Entry.quiet, refusedRound, hWrite]
  have hBound := h [.said .user (some "go")] (.round (lostRound agent call lost) ::
    List.replicate bound (.round (refusedRound agent call))) [call] rfl hQuiet
  have hLost : Entry.asksFor [call] (.round (lostRound agent call lost)) :=
    decide_eq_true (List.Perm.refl _)
  have hRefused : Entry.asksFor [call] (.round (refusedRound agent call)) :=
    decide_eq_true (List.Perm.refl _)
  rw [Conversation.requests, List.countP_cons, List.countP_replicate, if_pos hRefused,
    if_pos hLost] at hBound
  omega

end Lost

theorem lost_write_requested_forever :
    ¬ ∃ bound, ∀ moves, RequestsWithin bound twoTools (run twoTools.next {} moves) := by
  rintro ⟨bound, hBound⟩
  have hRun := hBound (lostMoves twoTools (writeCall "a")
    (.new "unknown_outcome" "write" "the answer was lost" true false "read it back") bound)
  exact requests_lostMoves rfl rfl rfl (by decide) hRun

end RustyRuntime
