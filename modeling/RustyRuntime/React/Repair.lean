import RustyRuntime.Llm
import RustyRuntime.Library.Text

/-!
# Pairing tool calls with results

`repair_unpaired_tool_calls` of `react.rs`. A run that stops between the calls of an assistant
message and their results leaves a gap in the thread. The repair walks the thread by index and
puts a notice in the place of each missing result, right after the results that are there, into
the list it is walking.

What it does is said over the edit script of the thread (`pairRest`): the messages of the
thread, with the answered calls in between.

**The repair** (`repair_pairs`): it ends, each call of every assistant message has a result in
the run of tool messages after it, a call that had one gets no second, taking the notices out
gives the thread back, the returned list names the notices in order, and a repaired thread is
left alone.
-/

namespace RustyRuntime

namespace ChatMessage

def toolResult (toolCallId content : String) : ChatMessage :=
  { role := .tool, content := some content, toolCallId := some toolCallId }

def hasToolCalls (m : ChatMessage) : Bool := !m.toolCalls.isEmpty

end ChatMessage

/-- `UNRECORDED_READ_NOTICE`. -/
def unrecordedReadNotice : String :=
  "NO RESULT RECORDED" ++
  " — the run ended before this call's result was recorded. The call changes nothing, so make " ++
  "it again if the result is still needed."

/-- `UNKNOWN_OUTCOME_NOTICE`. -/
def unknownOutcomeNotice : String :=
  "OUTCOME UNKNOWN" ++
  " — the run ended before this call's result was recorded, and this call changes things, so it " ++
  "may have taken effect. It was not repeated. Check the current state of what it touches " ++
  "before acting again."

theorem opening_unrecordedReadNotice :
    ∃ rest, unrecordedReadNotice.toList = ['N', 'O', ' '] ++ rest := by
  iterate 2 refine Library.exists_opening_append ?_ _
  exact ⟨"RESULT RECORDED".toList, by decide⟩

theorem opening_unknownOutcomeNotice :
    ∃ rest, unknownOutcomeNotice.toList = ['O'] ++ rest := by
  iterate 3 refine Library.exists_opening_append ?_ _
  exact ⟨"UTCOME UNKNOWN".toList, by decide⟩

structure RepairedCall where
  toolCallId : String
  tool : String
  repeatable : Bool
  deriving DecidableEq

namespace RepairedCall

def notice (r : RepairedCall) : String :=
  if r.repeatable then unrecordedReadNotice else unknownOutcomeNotice

def message (r : RepairedCall) : ChatMessage := .toolResult r.toolCallId r.notice

end RepairedCall

/-! ## The loop of the source -/

section Repair

variable (repeatable : String → Bool)

def repairedCall (call : ToolCall) : RepairedCall := ⟨call.id, call.name, repeatable call.name⟩

def isBatch (m : ChatMessage) : Bool := m.role = .assistant && m.hasToolCalls

def toolRun (messages : List ChatMessage) : List ChatMessage :=
  messages.takeWhile fun m => m.role = .tool

/-- One call of the inner loop: the thread, the end of the results, and what was answered. -/
def insertNotice (answered : List String) (state : List ChatMessage × Nat × List RepairedCall)
    (call : ToolCall) : List ChatMessage × Nat × List RepairedCall :=
  if answered.contains call.id then state
  else
    let answer := repairedCall repeatable call
    (state.1.insertIdx state.2.1 answer.message, state.2.1 + 1, state.2.2 ++ [answer])

/-- The outer loop, `none` when it runs out of rounds. -/
def repairFrom : Nat → List ChatMessage → Nat → List RepairedCall →
    Option (List ChatMessage × List RepairedCall)
  | 0, _, _, _ => none
  | rounds + 1, messages, index, repaired =>
    match messages[index]? with
    | none => some (messages, repaired)
    | some m =>
      if isBatch m then
        let run := toolRun (messages.drop (index + 1))
        let (messages, stop, repaired) :=
          m.toolCalls.foldl (insertNotice repeatable (run.filterMap (·.toolCallId)))
            (messages, index + 1 + run.length, repaired)
        repairFrom rounds messages stop repaired
      else repairFrom rounds messages (index + 1) repaired

def repairUnpairedToolCalls (rounds : Nat) (messages : List ChatMessage) :
    Option (List ChatMessage × List RepairedCall) :=
  repairFrom repeatable rounds messages 0 []

/-! ## The edit script -/

def unanswered (calls : List ToolCall) (run : List ChatMessage) : List ToolCall :=
  calls.filter fun call => !(run.filterMap (·.toolCallId)).contains call.id

/-- An entry of the edit script. -/
inductive Edit where
  | keep (m : ChatMessage)
  | insert (r : RepairedCall)

namespace Edit

/-- The message of the repaired thread. -/
def message : Edit → ChatMessage
  | .keep m => m
  | .insert r => r.message

def kept : Edit → Option ChatMessage
  | .keep m => some m
  | .insert _ => none

def inserted : Edit → Option RepairedCall
  | .keep _ => none
  | .insert r => some r

end Edit

def notices (calls : List ToolCall) : List Edit :=
  calls.map fun call => .insert (repairedCall repeatable call)

/-- The script of a thread. `pending` are the calls of the batch the walk is in that have had
no result so far. -/
def pairRest : List ToolCall → List ChatMessage → List Edit
  | pending, [] => notices repeatable pending
  | pending, m :: rest =>
    if m.role = .tool then .keep m :: pairRest (unanswered pending [m]) rest
    else notices repeatable pending ++
      .keep m :: pairRest (if isBatch m then m.toolCalls else []) rest

variable {repeatable}

@[simp] theorem notices_nil : notices repeatable [] = [] := rfl

section

variable (messages : List ChatMessage) (calls : List ToolCall) (m : ChatMessage)
  (run : List ChatMessage) (script : List Edit)

theorem kept_cons : (.keep m :: script).filterMap Edit.kept = m :: script.filterMap Edit.kept := rfl

theorem inserted_cons :
    (.keep m :: script).filterMap Edit.inserted = script.filterMap Edit.inserted := rfl

theorem message_cons : (.keep m :: script).map Edit.message = m :: script.map Edit.message := rfl

@[simp] theorem kept_notices : (notices repeatable calls).filterMap Edit.kept = [] := by
  simp [notices, List.filterMap_map, Edit.kept]

@[simp] theorem inserted_notices :
    (notices repeatable calls).filterMap Edit.inserted = calls.map (repairedCall repeatable) := by
  simp [notices, List.filterMap_map, Function.comp_def, Edit.inserted]

@[simp] theorem message_notices :
    (notices repeatable calls).map Edit.message =
      (calls.map (repairedCall repeatable)).map RepairedCall.message := by
  simp [notices, Edit.message]

@[simp] theorem inserted_keep : (messages.map Edit.keep).filterMap Edit.inserted = [] := by
  simp [List.filterMap_map, Edit.inserted]

@[simp] theorem message_keep : (messages.map Edit.keep).map Edit.message = messages := by
  rw [List.map_map]
  exact List.map_id _

@[simp] theorem unanswered_nil : unanswered calls [] = calls := by
  simp [unanswered]

@[simp] theorem nil_unanswered : unanswered [] run = [] := rfl

theorem unanswered_cons : unanswered (unanswered calls [m]) run = unanswered calls (m :: run) := by
  rw [unanswered, unanswered, unanswered, List.filter_filter]
  cases hId : m.toolCallId with
  | none => simp [hId]
  | some id => simp [hId, Bool.and_comm]

end

variable {m : ChatMessage} {calls : List ToolCall} {run messages : List ChatMessage}

theorem toolRun_cons_tool (hTool : m.role = .tool) (rest : List ChatMessage) :
    toolRun (m :: rest) = m :: toolRun rest := by
  simp [toolRun, hTool]

theorem toolRun_cons_other (hOther : m.role ≠ .tool) (rest : List ChatMessage) :
    toolRun (m :: rest) = [] := by
  simp [toolRun, hOther]

/-! ## The loop writes the script -/

theorem insertIdx_length (before after : List ChatMessage) (m : ChatMessage) :
    (before ++ after).insertIdx before.length m = (before ++ [m]) ++ after := by
  induction before with
  | nil => rfl
  | cons first before ih => simp [ih]

theorem foldl_insertNotice (run : List ChatMessage) (calls : List ToolCall)
    (before after : List ChatMessage) (repaired : List RepairedCall) :
    calls.foldl (insertNotice repeatable (run.filterMap (·.toolCallId)))
        (before ++ after, before.length, repaired) =
      let answers := (unanswered calls run).map (repairedCall repeatable)
      (before ++ answers.map RepairedCall.message ++ after,
        (before ++ answers.map RepairedCall.message).length, repaired ++ answers) := by
  induction calls generalizing before repaired with
  | nil => simp
  | cons call rest ih =>
    rw [List.foldl_cons, insertNotice]
    by_cases hHeld : (run.filterMap (·.toolCallId)).contains call.id = true
    · have hSkip : unanswered (call :: rest) run = unanswered rest run := by
        rw [unanswered, List.filter_cons_of_neg (by rw [hHeld]; decide), ← unanswered]
      rw [if_pos hHeld, ih, hSkip]
    · have hTake : unanswered (call :: rest) run = call :: unanswered rest run := by
        rw [Bool.not_eq_true] at hHeld
        rw [unanswered, List.filter_cons_of_pos (by rw [hHeld]; decide), ← unanswered]
      have hNext := ih (before ++ [(repairedCall repeatable call).message])
      rw [if_neg hHeld, hTake]
      simp only [insertIdx_length]
      rw [List.length_append, List.length_singleton] at hNext
      rw [hNext]
      simp

def afterRun (messages : List ChatMessage) : List ChatMessage :=
  messages.dropWhile fun m => m.role = .tool

theorem toolRun_append_afterRun (messages : List ChatMessage) :
    toolRun messages ++ afterRun messages = messages :=
  List.takeWhile_append_dropWhile

variable (pending : List ToolCall)

theorem pairRest_run (rest : List ChatMessage) :
    pairRest repeatable pending rest =
      (toolRun rest).map .keep ++ notices repeatable (unanswered pending (toolRun rest)) ++
        pairRest repeatable [] (afterRun rest) := by
  induction rest generalizing pending with
  | nil => simp [pairRest, toolRun, afterRun]
  | cons m rest ih =>
    by_cases hTool : m.role = .tool
    · have hAfter : afterRun (m :: rest) = afterRun rest := by simp [afterRun, hTool]
      rw [pairRest, if_pos hTool, ih, toolRun_cons_tool hTool, unanswered_cons, hAfter]
      rfl
    · have hAfter : afterRun (m :: rest) = m :: rest := by simp [afterRun, hTool]
      rw [toolRun_cons_other hTool, hAfter]
      simp [pairRest, hTool]

theorem repairFrom_eq (rounds : Nat) (before rest : List ChatMessage)
    (repaired : List RepairedCall) (hRounds : rest.length < rounds) :
    repairFrom repeatable rounds (before ++ rest) before.length repaired =
      some (before ++ (pairRest repeatable [] rest).map Edit.message,
        repaired ++ (pairRest repeatable [] rest).filterMap Edit.inserted) := by
  induction rounds generalizing before rest repaired with
  | zero => omega
  | succ rounds ih =>
    cases rest with
    | nil => simp [repairFrom, pairRest]
    | cons m rest =>
      rw [List.length_cons] at hRounds
      have hHead : (before ++ m :: rest)[before.length]? = some m := by simp
      have hStep : before ++ m :: rest = (before ++ [m]) ++ rest := by simp
      have hLength : before.length + 1 = (before ++ [m]).length := by simp
      rw [repairFrom, hHead]
      by_cases hBatch : isBatch m = true
      · have hRole : m.role ≠ .tool := by
          rw [isBatch, Bool.and_eq_true, decide_eq_true_eq] at hBatch
          rw [hBatch.1]
          decide
        have hDrop : (before ++ m :: rest).drop (before.length + 1) = rest := by
          rw [hStep, hLength, List.drop_left]
        -- the results that are there, then what the next round walks
        have hSplit : before ++ m :: rest = (before ++ m :: toolRun rest) ++ afterRun rest := by
          rw [List.append_assoc, List.cons_append, toolRun_append_afterRun]
        have hStop : before.length + 1 + (toolRun rest).length =
            (before ++ m :: toolRun rest).length := by
          simp only [List.length_append, List.length_cons]
          omega
        have hShort : (afterRun rest).length < rounds := by
          have hLe := List.length_dropWhile_le (fun m : ChatMessage => m.role = .tool) rest
          rw [← afterRun] at hLe
          omega
        simp only [hBatch, if_true, hDrop]
        rw [hSplit, hStop, foldl_insertNotice]
        rw [ih _ _ _ hShort, pairRest, if_neg hRole, if_pos hBatch, pairRest_run m.toolCalls]
        rw [notices_nil, List.nil_append, message_cons, inserted_cons, List.map_append,
          List.map_append, message_keep, message_notices, List.filterMap_append,
          List.filterMap_append, inserted_keep, inserted_notices, List.nil_append]
        simp only [List.append_assoc, List.cons_append]
      · have hNext := ih (before ++ [m]) rest repaired (by omega)
        simp only [hBatch, Bool.false_eq_true, if_false]
        have hEntry : pairRest repeatable [] (m :: rest) =
            .keep m :: pairRest repeatable [] rest := by
          by_cases hTool : m.role = .tool
          · rw [pairRest, if_pos hTool, nil_unanswered]
          · rw [pairRest, if_neg hTool, if_neg hBatch]
            rfl
        rw [hStep, hLength, hNext, hEntry, message_cons, inserted_cons, List.append_assoc,
          List.singleton_append]

section

variable (messages : List ChatMessage)

theorem repairUnpairedToolCalls_eq {rounds : Nat} (hRounds : messages.length < rounds) :
    repairUnpairedToolCalls repeatable rounds messages =
      some ((pairRest repeatable [] messages).map Edit.message,
        (pairRest repeatable [] messages).filterMap Edit.inserted) :=
  repairFrom_eq rounds [] messages [] hRounds

/-! ## What the script says -/

def assistantRuns : List ChatMessage → List (ChatMessage × List ChatMessage)
  | [] => []
  | m :: rest =>
    if m.role = .assistant then (m, toolRun rest) :: assistantRuns rest else assistantRuns rest

def resultsFor (id : String) (run : List ChatMessage) : List ChatMessage :=
  run.filter fun m => m.toolCallId = some id

theorem kept_pairRest : (pairRest repeatable pending messages).filterMap Edit.kept = messages := by
  induction messages generalizing pending with
  | nil => exact kept_notices pending
  | cons m rest ih =>
    rw [pairRest]
    split
    · rw [kept_cons, ih]
    · rw [List.filterMap_append, kept_notices, kept_cons, ih, List.nil_append]

theorem toolRun_pairRest :
    toolRun ((pairRest repeatable pending messages).map Edit.message) =
      toolRun messages ++
        ((unanswered pending (toolRun messages)).map (repairedCall repeatable)).map
          RepairedCall.message := by
  have hNotices (calls : List ToolCall) (rest : List ChatMessage) :
      toolRun ((calls.map (repairedCall repeatable)).map RepairedCall.message ++ rest) =
        (calls.map (repairedCall repeatable)).map RepairedCall.message ++ toolRun rest := by
    refine List.takeWhile_append_of_pos fun m hIn => ?_
    obtain ⟨r, -, rfl⟩ := List.mem_map.mp hIn
    rfl
  induction messages generalizing pending with
  | nil =>
    rw [pairRest, message_notices, ← List.append_nil (List.map _ _), hNotices]
    simp [toolRun]
  | cons m rest ih =>
    rw [pairRest]
    by_cases hTool : m.role = .tool
    · rw [if_pos hTool, message_cons, toolRun_cons_tool hTool, ih,
        toolRun_cons_tool hTool, unanswered_cons, List.cons_append]
    · rw [if_neg hTool, List.map_append, message_notices, hNotices, message_cons,
        toolRun_cons_other hTool, toolRun_cons_other hTool, unanswered_nil, List.append_nil,
        List.nil_append]

theorem assistantRuns_pairRest :
    assistantRuns ((pairRest repeatable pending messages).map Edit.message) =
      (assistantRuns messages).map fun (m, run) =>
        (m, run ++ ((unanswered m.toolCalls run).map (repairedCall repeatable)).map
          RepairedCall.message) := by
  have hNotices (calls : List ToolCall) (rest : List ChatMessage) :
      assistantRuns ((calls.map (repairedCall repeatable)).map RepairedCall.message ++ rest) =
        assistantRuns rest := by
    induction calls with
    | nil => rfl
    | cons call calls ih => exact ih
  induction messages generalizing pending with
  | nil =>
    have hNone := hNotices pending []
    rw [List.append_nil] at hNone
    rw [pairRest, message_notices, hNone]
    rfl
  | cons m rest ih =>
    rw [pairRest]
    by_cases hTool : m.role = .tool
    · have hRole : m.role ≠ .assistant := by
        rw [hTool]
        decide
      rw [if_pos hTool, message_cons, assistantRuns, if_neg hRole, ih,
        assistantRuns, if_neg hRole]
    · rw [if_neg hTool, List.map_append, message_notices, hNotices, message_cons,
        assistantRuns, assistantRuns]
      by_cases hRole : m.role = .assistant
      · have hCalls : (if isBatch m then m.toolCalls else []) = m.toolCalls := by
          cases hNone : m.toolCalls with
          | nil => simp
          | cons call calls => simp [isBatch, hRole, ChatMessage.hasToolCalls, hNone]
        rw [if_pos hRole, if_pos hRole, hCalls, ih, toolRun_pairRest, List.map_cons]
      · rw [if_neg hRole, if_neg hRole, ih]

end

theorem mem_unanswered {call : ToolCall} :
    call ∈ unanswered calls run ↔ call ∈ calls ∧ ∀ r ∈ run, r.toolCallId ≠ some call.id := by
  simp [unanswered]

theorem pairRest_append {pending : List ToolCall} {rest : List ChatMessage}
    (hPending : unanswered pending (toolRun messages) = [])
    (hRuns : ∀ entry ∈ assistantRuns messages, unanswered entry.1.toolCalls entry.2 = []) :
    pairRest repeatable pending (messages ++ rest) =
      messages.map .keep ++ pairRest repeatable [] rest := by
  induction messages generalizing pending with
  | nil =>
    rw [toolRun, List.takeWhile_nil, unanswered_nil] at hPending
    rw [hPending]
    rfl
  | cons m before ih =>
    have hBefore : ∀ entry ∈ assistantRuns before, unanswered entry.1.toolCalls entry.2 = [] := by
      intro entry hIn
      refine hRuns entry ?_
      rw [assistantRuns]
      split
      · exact List.mem_cons_of_mem _ hIn
      · exact hIn
    rw [List.cons_append, pairRest, List.map_cons, List.cons_append]
    by_cases hTool : m.role = .tool
    · rw [toolRun_cons_tool hTool, ← unanswered_cons] at hPending
      rw [if_pos hTool, ih hPending hBefore]
    · rw [toolRun_cons_other hTool, unanswered_nil] at hPending
      rw [if_neg hTool, hPending]
      have hCalls : unanswered (if isBatch m then m.toolCalls else []) (toolRun before) = [] := by
        split
        · rename_i hBatch
          rw [isBatch, Bool.and_eq_true, decide_eq_true_eq] at hBatch
          refine hRuns (m, toolRun before) ?_
          rw [assistantRuns, if_pos hBatch.1]
          exact List.mem_cons_self
        · rfl
      rw [ih hCalls hBefore]
      rfl

theorem pairRest_eq_keep
    (hRuns : ∀ entry ∈ assistantRuns messages, unanswered entry.1.toolCalls entry.2 = []) :
    pairRest repeatable [] messages = messages.map .keep := by
  have hScript : pairRest repeatable [] (messages ++ []) = _ :=
    pairRest_append (nil_unanswered _) hRuns
  rw [List.append_nil] at hScript
  rw [hScript]
  exact List.append_nil _

theorem unanswered_append_notices (calls : List ToolCall) (run : List ChatMessage) :
    unanswered calls
      (run ++ ((unanswered calls run).map (repairedCall repeatable)).map RepairedCall.message) =
        [] := by
  rw [List.eq_nil_iff_forall_not_mem]
  intro call hIn
  obtain ⟨hCall, hNone⟩ := mem_unanswered.mp hIn
  have hOpen : call ∈ unanswered calls run :=
    mem_unanswered.mpr ⟨hCall, fun r hR => hNone r (List.mem_append_left _ hR)⟩
  have hNotice : (repairedCall repeatable call).message ∈
      run ++ ((unanswered calls run).map (repairedCall repeatable)).map RepairedCall.message :=
    List.mem_append_right _ (List.mem_map_of_mem (List.mem_map_of_mem hOpen))
  exact hNone _ hNotice rfl

theorem resultsFor_append_notices {r : ChatMessage} {id : String} (hIn : r ∈ run)
    (hId : r.toolCallId = some id) :
    resultsFor id
        (run ++ ((unanswered calls run).map (repairedCall repeatable)).map RepairedCall.message) =
      resultsFor id run := by
  have hNone : resultsFor id
      (((unanswered calls run).map (repairedCall repeatable)).map RepairedCall.message) = [] := by
    rw [resultsFor, List.filter_eq_nil_iff]
    intro m hNotice hSame
    rw [decide_eq_true_eq] at hSame
    obtain ⟨answer, hAnswer, rfl⟩ := List.mem_map.mp hNotice
    obtain ⟨call, hCall, rfl⟩ := List.mem_map.mp hAnswer
    have hCallId : some call.id = some id := hSame
    exact (mem_unanswered.mp hCall).2 r hIn (hId.trans hCallId.symm)
  rw [resultsFor, List.filter_append, ← resultsFor, ← resultsFor, hNone, List.append_nil]

end Repair

/-- **The repair.** For every thread there is an edit script such that

* the loop ends with the thread the script writes and with its inserted calls, in order,
* without the inserted notices the script is the thread,
* each call of every assistant message has a result in the run of tool messages after it,
* a call that had a result there has the same results as before, and
* repairing once more changes nothing. -/
theorem repair_pairs (repeatable : String → Bool) (messages : List ChatMessage) :
    ∃ script : List Edit,
      (∀ rounds, messages.length < rounds →
        repairUnpairedToolCalls repeatable rounds messages =
          some (script.map Edit.message, script.filterMap Edit.inserted)) ∧
      script.filterMap Edit.kept = messages ∧
      (∀ entry ∈ assistantRuns (script.map Edit.message), ∀ call ∈ entry.1.toolCalls,
        ∃ r ∈ entry.2, r.toolCallId = some call.id) ∧
      List.Forall₂ (fun before after => after.1 = before.1 ∧
          ∀ call ∈ before.1.toolCalls, (∃ r ∈ before.2, r.toolCallId = some call.id) →
            resultsFor call.id after.2 = resultsFor call.id before.2)
        (assistantRuns messages) (assistantRuns (script.map Edit.message)) ∧
      ∀ again rounds, (script.map Edit.message).length < rounds →
        repairUnpairedToolCalls again rounds (script.map Edit.message) =
          some (script.map Edit.message, []) := by
  have hRuns : assistantRuns ((pairRest repeatable [] messages).map Edit.message) = _ :=
    assistantRuns_pairRest [] messages
  have hClosed : ∀ entry ∈ assistantRuns ((pairRest repeatable [] messages).map Edit.message),
      unanswered entry.1.toolCalls entry.2 = [] := by
    intro entry hIn
    rw [hRuns] at hIn
    obtain ⟨before, -, rfl⟩ := List.mem_map.mp hIn
    exact unanswered_append_notices _ _
  refine ⟨pairRest repeatable [] messages, fun rounds => repairUnpairedToolCalls_eq messages,
    kept_pairRest [] messages, ?_, ?_, ?_⟩
  · intro entry hIn call hCall
    by_contra hNone
    push Not at hNone
    have hOpen := mem_unanswered.mpr ⟨hCall, hNone⟩
    rw [hClosed entry hIn] at hOpen
    cases hOpen
  · rw [hRuns, List.forall₂_map_right_iff, List.forall₂_same]
    intro entry _
    refine ⟨rfl, ?_⟩
    rintro call - ⟨r, hR, hId⟩
    exact resultsFor_append_notices hR hId
  · intro again rounds hRounds
    rw [repairUnpairedToolCalls_eq _ hRounds, pairRest_eq_keep hClosed,
      message_keep, inserted_keep]

end RustyRuntime
