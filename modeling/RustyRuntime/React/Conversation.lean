import RustyRuntime.React.ToolsNode
import RustyRuntime.Library.Run

/-!
# Conversations of the tool loop

The thread as the loop grows it: messages of the user, the system and the model, requests of
the model for tool calls, the answers of the tools node, and the repair of a gap that a crash
or a failed step left behind. A move that the loop cannot make in a state leaves it alone.

Beside the thread a conversation keeps its `entries`, which no decision reads: each request
with its answers, and for each answer whether the call was run.

**The thread is what the entries write** (`step_of_tracks`, `tracks_of_step`), with at most one
request after them. `attempts_concat` and `mem_attempts_render` say what the failure policy
finds in such a thread.
-/

namespace RustyRuntime

open Library

/-! ## The loop -/

/-- The tools node and what the turn-start repair knows about the tools. -/
structure Agent extends Toolbox where
  /-- The manifest declares that a tool may be called again freely. -/
  repeatable : String → Bool

inductive Speaker where
  | user
  | system
  | assistant
  deriving DecidableEq

def Speaker.role : Speaker → Llm.Role
  | .user => .user
  | .system => .system
  | .assistant => .assistant

/-- A message without calls. -/
def Speaker.message (speaker : Speaker) (content : Option String) : ChatMessage :=
  { role := speaker.role, content := content }

def requestMessage (content : Option String) (calls : List ToolCall) : ChatMessage :=
  { role := .assistant, content := content, toolCalls := calls }

def answerMessages (answers : List CallAnswer) : List ChatMessage :=
  resultMessages (answers.map fun a => (a.call, a.text))

/-- A request with its answers; the repair answers without running anything. -/
structure Round where
  content : Option String
  answers : List CallAnswer
  repaired : Bool := false
  deriving DecidableEq

def Round.calls (r : Round) : List ToolCall := r.answers.map (·.call)

inductive Entry where
  | said (speaker : Speaker) (content : Option String)
  | round (r : Round)
  deriving DecidableEq

namespace Entry

def messages : Entry → List ChatMessage
  | said speaker content => [speaker.message content]
  | round r => requestMessage r.content r.calls :: answerMessages r.answers

def answers : Entry → List CallAnswer
  | said _ _ => []
  | round r => r.answers

end Entry

def render (entries : List Entry) : List ChatMessage := entries.flatMap Entry.messages

structure Conversation where
  thread : List ChatMessage := []
  /-- What happened, for the properties; the loop does not read it. -/
  entries : List Entry := []

/-- The thread ends with a request. -/
def Conversation.isOpen (c : Conversation) : Bool :=
  c.thread.getLast?.any ChatMessage.hasToolCalls

variable (repeatable : String → Bool)

def noticeAnswers (calls : List ToolCall) : List CallAnswer :=
  calls.map fun call => ⟨call, (repairedCall repeatable call).notice, false⟩

inductive Move where
  | say (speaker : Speaker) (content : Option String)
  | ask (content : Option String) (calls : List ToolCall)
  | tools (world : ToolsWorld)
  | repair

def Agent.next (agent : Agent) (c : Conversation) : Move → Conversation
  | .say speaker content =>
    if c.isOpen then c
    else ⟨c.thread ++ [speaker.message content], c.entries ++ [.said speaker content]⟩
  | .ask content calls =>
    if c.isOpen || calls.isEmpty then c
    else { c with thread := c.thread ++ [requestMessage content calls] }
  | .tools world =>
    match c.thread.getLast?, agent.toolsNode c.thread world with
    | some last, .answered answers =>
      ⟨c.thread ++ answerMessages answers, c.entries ++ [.round ⟨last.content, answers, false⟩]⟩
    -- a pause or a failure leaves the request open
    | _, _ => c
  | .repair =>
    match c.thread.getLast?,
        repairUnpairedToolCalls agent.repeatable (c.thread.length + 1) c.thread with
    | some last, some (thread, _) =>
      ⟨thread, if last.hasToolCalls then
        c.entries ++ [.round ⟨last.content, noticeAnswers agent.repeatable last.toolCalls, true⟩]
        else c.entries⟩
    | _, _ => c

/-! ## What the entries write -/

@[simp] theorem render_nil : render [] = [] := rfl

theorem render_cons (e : Entry) (entries : List Entry) :
    render (e :: entries) = e.messages ++ render entries := rfl

theorem render_append (entries more : List Entry) :
    render (entries ++ more) = render entries ++ render more := List.flatMap_append

section

variable (entries : List Entry)

theorem render_concat (e : Entry) : render (entries ++ [e]) = render entries ++ e.messages := by
  rw [render_append, render_cons, render_nil, List.append_nil]

theorem Entry.length_messages_pos (e : Entry) : 0 < e.messages.length := by
  cases e with
  | said speaker content => exact Nat.zero_lt_one
  | round r => exact Nat.succ_pos _

theorem Entry.getLast?_messages (e : Entry) :
    ∃ m, e.messages.getLast? = some m ∧ m.hasToolCalls = false := by
  cases e with
  | said speaker content => exact ⟨_, rfl, rfl⟩
  | round r =>
    rcases r.answers.eq_nil_or_concat with hNone | ⟨front, last, hLast⟩
    · refine ⟨requestMessage r.content r.calls, ?_, ?_⟩
      · simp [messages, answerMessages, resultMessages, hNone]
      · simp [requestMessage, ChatMessage.hasToolCalls, Round.calls, hNone]
    · refine ⟨.toolResult last.call.id last.text, ?_, rfl⟩
      rw [messages, answerMessages, resultMessages, hLast, List.concat_eq_append, List.map_map,
        List.map_append, ← List.cons_append]
      exact List.getLast?_concat

theorem getLast?_render_hasToolCalls :
    (render entries).getLast?.any ChatMessage.hasToolCalls = false := by
  rcases entries.eq_nil_or_concat with rfl | ⟨front, e, rfl⟩
  · rfl
  · obtain ⟨m, hLast, hNone⟩ := e.getLast?_messages
    rw [List.concat_eq_append, render_concat, List.getLast?_append, hLast, Option.some_or,
      Option.any_some, hNone]

theorem Entry.unanswered_assistantRuns (e : Entry) :
    ∀ entry ∈ assistantRuns e.messages, unanswered entry.1.toolCalls entry.2 = [] := by
  cases e with
  | said speaker content =>
    intro entry hIn
    cases speaker with
    | assistant =>
      rcases List.mem_singleton.mp hIn with rfl
      rfl
    | user | system => cases hIn
  | round r =>
    have hRun : toolRun (answerMessages r.answers) = answerMessages r.answers := by
      refine List.takeWhile_eq_self_iff.mpr fun m hIn => ?_
      obtain ⟨answer, -, rfl⟩ := List.mem_map.mp hIn
      rfl
    have hNone : assistantRuns (answerMessages r.answers) = [] := by
      induction r.answers with
      | nil => rfl
      | cons a rest ih => exact ih
    have hRole : (requestMessage r.content r.calls).role = .assistant := rfl
    intro entry hIn
    rw [messages, assistantRuns, if_pos hRole, hNone, hRun] at hIn
    rcases List.mem_singleton.mp hIn with rfl
    rw [List.eq_nil_iff_forall_not_mem]
    intro call hCall
    obtain ⟨hAsked, hNoResult⟩ := mem_unanswered.mp hCall
    obtain ⟨a, hA, rfl⟩ := List.mem_map.mp hAsked
    exact hNoResult (.toolResult a.call.id a.text)
      (List.mem_map.mpr ⟨(a.call, a.text), List.mem_map_of_mem hA, rfl⟩) rfl

theorem pairRest_render (rest : List ChatMessage) :
    pairRest repeatable [] (render entries ++ rest) =
      (render entries).map .keep ++ pairRest repeatable [] rest := by
  induction entries with
  | nil => rfl
  | cons e entries ih =>
    rw [render_cons, List.append_assoc,
      pairRest_append (nil_unanswered _) e.unanswered_assistantRuns, ih, List.map_append,
      List.append_assoc]

theorem repair_render :
    repairUnpairedToolCalls repeatable ((render entries).length + 1) (render entries) =
      some (render entries, []) := by
  have hScript := pairRest_render repeatable entries []
  rw [List.append_nil] at hScript
  rw [repairUnpairedToolCalls_eq _ (Nat.lt_succ_self _), hScript, pairRest, notices_nil,
    List.append_nil, message_keep, inserted_keep]

theorem repair_request (content : Option String) (calls : List ToolCall) (hCalls : calls ≠ []) :
    ∃ answered,
      repairUnpairedToolCalls repeatable
          ((render entries ++ [requestMessage content calls]).length + 1)
          (render entries ++ [requestMessage content calls]) =
        some (render entries ++ requestMessage content calls ::
          answerMessages (noticeAnswers repeatable calls), answered) := by
  have hBatch : isBatch (requestMessage content calls) := by
    simp [isBatch, requestMessage, ChatMessage.hasToolCalls, hCalls]
  have hScript : pairRest repeatable [] [requestMessage content calls] =
      .keep (requestMessage content calls) :: notices repeatable calls := by
    have hRole : (requestMessage content calls).role ≠ .tool := Llm.Role.noConfusion
    rw [pairRest, if_neg hRole, if_pos hBatch, pairRest]
    rfl
  refine ⟨calls.map (repairedCall repeatable), ?_⟩
  rw [repairUnpairedToolCalls_eq _ (Nat.lt_succ_self _), pairRest_render, hScript,
    List.map_append, message_keep, message_cons, message_notices, List.filterMap_append,
    inserted_keep, inserted_cons, inserted_notices, List.nil_append]
  simp only [answerMessages, resultMessages, noticeAnswers, List.map_map]
  rfl

end

/-! ## The steps -/

/-- A conversation whose thread is what its entries write, with at most one request after
them, and that one as `asks` wants it. -/
inductive Tracks (asks : List Entry → List ToolCall → Prop) (c : Conversation) : Prop where
  | settled (hThread : c.thread = render c.entries)
  | waiting {content : Option String} {calls : List ToolCall} (hCalls : calls ≠ [])
      (hThread : c.thread = render c.entries ++ [requestMessage content calls])
      (hAsks : asks c.entries calls)

def Conversation.extend (c : Conversation) (e : Entry) : Conversation :=
  ⟨render (c.entries ++ [e]), c.entries ++ [e]⟩

inductive Step (agent : Agent) (c : Conversation) : Move → Conversation → Prop where
  | idle {move : Move} : Step agent c move c
  | said {speaker : Speaker} {content : Option String} (hThread : c.thread = render c.entries) :
      Step agent c (.say speaker content) (c.extend (.said speaker content))
  | asked {content : Option String} {calls : List ToolCall} (hCalls : calls ≠ [])
      (hThread : c.thread = render c.entries) :
      Step agent c (.ask content calls)
        { c with thread := render c.entries ++ [requestMessage content calls] }
  | answered {world : ToolsWorld} {content : Option String} {calls : List ToolCall}
      {answers : List CallAnswer} (hCalls : calls ≠ [])
      (hThread : c.thread = render c.entries ++ [requestMessage content calls])
      (hRepeats : identicalRequestsThisTurn agent.json c.thread (agent.allReads calls) + 1 <
        stuckTurnLimit)
      (hSound : AnswersSound agent.toToolbox c.thread calls world answers) :
      Step agent c (.tools world) (c.extend (.round ⟨content, answers, false⟩))
  | repaired {content : Option String} {calls : List ToolCall} (hCalls : calls ≠ [])
      (hThread : c.thread = render c.entries ++ [requestMessage content calls]) :
      Step agent c .repair
        (c.extend (.round ⟨content, noticeAnswers agent.repeatable calls, true⟩))

variable {c : Conversation} {content : Option String} {calls : List ToolCall} {agent : Agent}
  {asks : List Entry → List ToolCall → Prop} {entries before after : List Entry}

theorem isOpen_of_settled (h : c.thread = render c.entries) : c.isOpen = false := by
  rw [Conversation.isOpen, h, getLast?_render_hasToolCalls]

theorem isOpen_of_waiting (hCalls : calls ≠ [])
    (h : c.thread = render c.entries ++ [requestMessage content calls]) : c.isOpen := by
  rw [Conversation.isOpen, h, List.getLast?_concat]
  simp [requestMessage, ChatMessage.hasToolCalls, hCalls]

/-- **Every move of the loop is one of the steps.** -/
theorem step_of_tracks (h : Tracks asks c) (move : Move) :
    Step agent c move (agent.next c move) := by
  cases h with
  | settled hThread =>
    have hClosed := isOpen_of_settled hThread
    cases move with
    | say speaker content =>
      have hNext : agent.next c (.say speaker content) =
          c.extend (.said speaker content) := by
        rw [Agent.next, hClosed, if_neg Bool.false_ne_true, hThread, Conversation.extend,
          render_concat]
        rfl
      rw [hNext]
      exact .said hThread
    | ask content calls =>
      rw [Agent.next, hClosed, Bool.false_or]
      split
      · exact .idle
      · rename_i hCalls
        rw [hThread]
        exact .asked (fun hNone => hCalls (by rw [hNone]; rfl)) hThread
    | tools world =>
      rw [Agent.next]
      split
      · rename_i last answers hLast hAnswered
        obtain ⟨last', hLast', hCalls, -⟩ := toolsNode_answered hAnswered
        rw [Conversation.isOpen, hLast', Option.any_some, hCalls] at hClosed
        cases hClosed
      · exact .idle
    | repair =>
      rw [Agent.next]
      split
      · rename_i last thread _ hLast hRepair
        rw [Conversation.isOpen, hLast, Option.any_some] at hClosed
        rw [hThread, repair_render] at hRepair
        cases hRepair
        rw [hClosed, if_neg Bool.false_ne_true, ← hThread]
        exact .idle
      · exact .idle
  | @waiting content calls hCalls hThread =>
    have hOpen := isOpen_of_waiting hCalls hThread
    have hLast : c.thread.getLast? = some (requestMessage content calls) := by
      rw [hThread, List.getLast?_concat]
    cases move with
    | say speaker content =>
      rw [Agent.next, hOpen, if_pos rfl]
      exact .idle
    | ask content calls =>
      rw [Agent.next, hOpen, Bool.true_or, if_pos rfl]
      exact .idle
    | tools world =>
      rw [Agent.next, hLast]
      split
      · rename_i last answers hSame hAnswered
        cases hSame
        obtain ⟨last', hLast', -, hRepeats, hSound⟩ := toolsNode_answered hAnswered
        rw [hLast] at hLast'
        cases hLast'
        have hEntries : c.thread ++ answerMessages answers =
            render (c.entries ++ [.round ⟨content, answers, false⟩]) := by
          rw [hThread, render_concat, Entry.messages, Round.calls, hSound.calls_eq,
            List.append_assoc]
          rfl
        rw [hEntries]
        exact .answered hCalls hThread hRepeats hSound
      · exact .idle
    | repair =>
      obtain ⟨answered, hRepair⟩ := repair_request agent.repeatable c.entries content calls hCalls
      have hAsks : (requestMessage content calls).hasToolCalls := by
        simp [requestMessage, ChatMessage.hasToolCalls, hCalls]
      have hNext : agent.next c .repair =
          c.extend (.round ⟨content, noticeAnswers agent.repeatable calls, true⟩) := by
        rw [Agent.next, hLast, hThread, hRepair]
        simp only [hAsks, if_true]
        rw [Conversation.extend, render_concat, Entry.messages, Round.calls, noticeAnswers,
          List.map_map]
        exact congrArg₂ Conversation.mk (by rw [Function.comp_def, List.map_id']) rfl
      rw [hNext]
      exact .repaired hCalls hThread

theorem asks_of_tracks (h : Tracks asks c)
    (hThread : c.thread = render c.entries ++ [requestMessage content calls]) :
    asks c.entries calls := by
  cases h with
  | settled hSettled =>
    have hLength := congrArg List.length (hSettled.symm.trans hThread)
    rw [List.length_append, List.length_singleton] at hLength
    omega
  | @waiting _ asked _ hWaiting hAsks =>
    have hSame := List.append_cancel_left (hWaiting.symm.trans hThread)
    have hCalls : asked = calls := congrArg ChatMessage.toolCalls (List.cons.inj hSame).1
    rw [← hCalls]
    exact hAsks

theorem tracks_of_step {c' : Conversation} {move : Move} (h : Tracks asks c)
    (hStep : Step agent c move c')
    (hAsk : ∀ content calls, move = .ask content calls → c.thread = render c.entries →
      asks c.entries calls) : Tracks asks c' := by
  cases hStep with
  | idle => exact h
  | said => exact .settled rfl
  | asked hCalls hThread => exact .waiting hCalls rfl (hAsk _ _ rfl hThread)
  | answered | repaired => exact .settled rfl

/-! ## What the policy finds in the thread -/

def Entry.DistinctIds : Entry → Prop
  | said _ _ => True
  | round r => (r.calls.map (·.id)).Nodup

def Entry.attempts (position : Nat) (e : Entry) : List Attempt :=
  e.answers.map fun a => ⟨position, a.call, some a.text⟩

theorem requested_calls (r : Round) :
    (r.answers.map fun a => (a.call, a.text)).map Prod.fst = r.calls := by
  rw [List.map_map]
  rfl

theorem answered_render (entries : List Entry) : Answered (render entries) := by
  induction entries using List.reverseRecOn with
  | nil =>
    intro a hIn
    cases hIn
  | append_singleton entries e ih =>
    rw [render_concat]
    cases e with
    | said speaker content =>
      intro a hIn
      rw [attempts_append ih, attemptsFrom_of_no_calls (by simp [Entry.messages, Speaker.message]),
        List.append_nil] at hIn
      exact ih a hIn
    | round r => exact answered_of_results ih rfl (requested_calls r)

/-- **What one more entry adds to the calls the policy reads.** -/
theorem attempts_concat (entries : List Entry) {e : Entry} (hIds : e.DistinctIds) :
    attempts (render (entries ++ [e])) =
      attempts (render entries) ++ e.attempts (render entries).length := by
  rw [render_concat]
  cases e with
  | said speaker content =>
    rw [attempts_append (answered_render entries),
      attemptsFrom_of_no_calls (by simp [Entry.messages, Speaker.message])]
    rfl
  | round r =>
    have hAdded := attempts_answered (m := requestMessage r.content r.calls)
      (answered_render entries) rfl (requested_calls r) hIds
    rw [Entry.messages, answerMessages, hAdded, List.map_map]
    rfl

theorem attempts_request (entries : List Entry) (content : Option String)
    (calls : List ToolCall) :
    attempts (render entries ++ [requestMessage content calls]) =
      attempts (render entries) ++ calls.map fun tc => ⟨(render entries).length, tc, none⟩ :=
  attempts_requested (answered_render entries) rfl

theorem mem_attempts_render (hIds : ∀ e ∈ entries, e.DistinctIds) {a : Attempt} :
    a ∈ attempts (render entries) ↔
      ∃ before r after answer, entries = before ++ .round r :: after ∧ answer ∈ r.answers ∧
        a = ⟨(render before).length, answer.call, some answer.text⟩ := by
  induction entries using List.reverseRecOn with
  | nil =>
    constructor
    · intro hIn
      cases hIn
    · rintro ⟨before, r, after, answer, hSplit, -⟩
      cases before <;> cases hSplit
  | append_singleton entries e ih =>
    rw [List.forall_mem_append, List.forall_mem_singleton] at hIds
    rw [attempts_concat entries hIds.2, List.mem_append, ih hIds.1, Entry.attempts, List.mem_map]
    constructor
    · rintro (⟨before, r, after, answer, rfl, hIn, rfl⟩ | ⟨answer, hIn, rfl⟩)
      · exact ⟨before, r, after ++ [e], answer, by simp, hIn, rfl⟩
      · cases e with
        | said speaker content => cases hIn
        | round r => exact ⟨entries, r, [], answer, rfl, hIn, rfl⟩
    · rintro ⟨before, r, after, answer, hSplit, hIn, rfl⟩
      rcases concat_eq_split hSplit with ⟨rfl, rfl, -⟩ | ⟨front, rfl, -⟩
      · exact .inr ⟨answer, hIn, rfl⟩
      · exact .inl ⟨before, r, front, answer, rfl, hIn, rfl⟩

theorem length_render_lt (before : List Entry) (e : Entry) (mid : List Entry) :
    (render before).length < (render (before ++ e :: mid)).length := by
  have hPos := e.length_messages_pos
  rw [render_append, render_cons, List.length_append, List.length_append]
  omega

theorem eq_or_later_of_le {before' after' : List Entry} {e e' : Entry}
    (h : entries = before ++ e :: after) (h' : entries = before' ++ e' :: after')
    (hLe : (render before).length ≤ (render before').length) :
    (before' = before ∧ e' = e ∧ after' = after) ∨
      ∃ mid, before' = before ++ e :: mid ∧ after = mid ++ e' :: after' := by
  rw [h] at h'
  rcases List.append_eq_append_iff.mp h' with ⟨mid, hBefore, hAfter⟩ | ⟨mid, hBefore, hAfter⟩
  · cases mid with
    | nil =>
      rw [List.append_nil] at hBefore
      cases hAfter
      exact .inl ⟨hBefore, rfl, rfl⟩
    | cons first mid =>
      cases hAfter
      exact .inr ⟨mid, hBefore, rfl⟩
  · cases mid with
    | nil =>
      rw [List.append_nil] at hBefore
      cases hAfter
      exact .inl ⟨hBefore.symm, rfl, rfl⟩
    | cons first mid =>
      have hLt := length_render_lt before' first mid
      rw [← hBefore] at hLt
      omega

end RustyRuntime
