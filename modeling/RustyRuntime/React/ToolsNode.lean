import RustyRuntime.Tool.Failure

/-!
# The tools node

The node of the prebuilt agent that answers the calls of the last message (`react.rs`). Before
it dispatches anything it decides from the thread: a batch asked for a third time in the turn
ends the run, calls that the failure policy refuses are answered by it, reads that keep
answering nothing new and repeated batches are answered by a notice. What is left is
dispatched, one result for each call in order.

The world of a dispatch is a parameter: the resume value of an approval, whether a call needs
one, what may fail while the executor is set up, and the texts the tools answer with. The
records on the repair ledger are left out; the thread does not depend on them.

`toolsNode_answered` is the spec: who is answered, that what was run passed the policy, and
what stands in the place of a result that was not.
-/

namespace RustyRuntime

open Library

/-! ## The loop's own words -/

/-- `STUCK_TURN_LIMIT`. -/
def stuckTurnLimit : Nat := 3

/-- `NO_NEW_FACT_LIMIT`. -/
def noNewFactLimit : Nat := 3

/-- `NO_NEW_FACT_NOTICE`. -/
def noNewFactNotice : String :=
  "NOTHING NEW" ++
  " — not run. The last reads answered nothing this conversation had not already seen: " ++
  "each result was empty, or the same answer an earlier read already gave under another " ++
  "phrasing. Reading again the same way will not help. Change the approach — a different query, " ++
  "source or tool — or answer with what you have and say what you need. One more read that " ++
  "answers nothing new ends the run."

/-- `REPEATED_CALL_NOTICE`. -/
def repeatedCallNotice : String :=
  "REPEATED CALL" ++
  " — not run. This exact call, with these exact arguments, already ran in this turn and its " ++
  "result is above. Use that result, or change the arguments or the approach. One " ++
  "more identical request ends the run."

/-- `DENIED_NOTICE`. -/
def deniedNotice : String := "DENIED: a person declined this action"

/-- `denied_calls`: the calls a resume value declines, each with its notice. -/
def deniedCalls (resume : Option Json) : List (String × String) :=
  match resume with
  | none => []
  | some value =>
    if (value.get "kind").bind Json.asStr ≠ some "approval" ||
        (value.get "decision").bind Json.asStr ≠ some "deny" then []
    else
      let who := ((value.get "by").bind Json.asStr).getD "a person"
      let reason := ((((value.get "reason").bind Json.asStr).filter fun r =>
        !(trim r).isEmpty).map fun r => s!": {r}").getD ""
      let notice := s!"{deniedNotice} ({who}{reason}). Do not retry it or work around it; say " ++
        "what you would have done and finish."
      match value.get "call_ids" with
      | some (.arr ids) => (ids.filterMap Json.asStr).map fun id => (id, notice)
      | _ => []

/-! ## Repeated batches -/

def canonicalText (value : Json) : String := value.canonicalizeValue.text

def callSignature (calls : List ToolCall) : List String :=
  (calls.map fun call => s!"{call.name}({canonicalText call.arguments})").mergeSort (· ≤ ·)

section Decisions

variable (json : FailureText)

def worldFailed (content : String) : Bool := realFailure json content

/-- Where the count of identical requests starts over: a user's message and, for reads, a call
that the system failed. -/
def startsOver (rereadable : Bool) (m : ChatMessage) : Bool :=
  m.role = .user || (rereadable && m.role = .tool && m.content.any (worldFailed json))

/-- Every call of a request failed for real or was refused for reconciliation. -/
def allFailed (m : ChatMessage) (rest : List ChatMessage) : Bool :=
  m.toolCalls.all fun tc =>
    ((resultOf (m :: rest) tc.id).bind (ToolFailure.parse json)).any fun f =>
      f.failureClass ≠ "bounded"

/-- The run ended before any call of a request was answered. -/
def allUnrecorded (m : ChatMessage) (rest : List ChatMessage) : Bool :=
  m.toolCalls.all fun tc => resultOf (m :: rest) tc.id = some unrecordedReadNotice

def requestsBatch (signature : List String) (m : ChatMessage) : Bool :=
  m.role = .assistant && !m.toolCalls.isEmpty && callSignature m.toolCalls = signature

def countRequests (signature : List String) : List ChatMessage → Nat
  | [] => 0
  | m :: rest =>
    (if requestsBatch signature m && !allFailed json m rest && !allUnrecorded m rest then 1
      else 0) + countRequests signature rest

variable (messages : List ChatMessage)

def identicalRequestsThisTurn (rereadable : Bool) : Nat :=
  match messages.getLast? with
  | none => 0
  | some last =>
    countRequests json (callSignature last.toolCalls)
      (messages.dropLast.rtakeWhile fun m => !startsOver json rereadable m)

/-! ## Reads that answer nothing new -/

def eqIgnoreAsciiCase (s t : String) : Bool := s.toLower = t.toLower

def Number.isZero : Number → Bool
  | .posInt n => n = 0
  | .negInt n => n = 0
  | .float x => x = 0

mutual

/-- `empty` of `fact_body`. -/
def isEmptyAnswer : Json → Bool
  | .null => true
  | .bool b => !b
  | .num n => n.isZero
  | .str s => (trim s).isEmpty || eqIgnoreAsciiCase (trim s) "no result"
  | .arr items => items.isEmpty
  | .obj fields => areEmptyAnswers fields

def areEmptyAnswers : List (String × Json) → Bool
  | [] => true
  | (_, value) :: rest => isEmptyAnswer value && areEmptyAnswers rest

end

/-- `ECHO_KEYS`. -/
def echoKeys : List String := ["asked", "query", "for", "limit", "scope", "table", "fields"]

def factBody (codec : Codec) (content : String) : Option String :=
  let trimmed := trim content
  if trimmed.isEmpty || eqIgnoreAsciiCase trimmed "no result" ||
      eqIgnoreAsciiCase trimmed "no results" || trimmed = "null" then none
  else
    match codec.fromSlice (Json.utf8 trimmed) with
    | none => some trimmed
    | some value =>
      let answered := match value with
        | .obj fields => .obj (fields.filter fun field => !echoKeys.contains field.1)
        | other => other
      if isEmptyAnswer answered then none else some (canonicalText answered)

/-- The results that answer each request, in order. -/
def resultBatches : List (List String) :=
  messages.foldl (fun batches m =>
    if isBatch m then batches ++ [[]]
    else if m.role = .tool then
      match batches.getLast?, m.content with
      | some batch, some content => batches.dropLast ++ [batch ++ [content]]
      | _, _ => batches
    else batches) []

def isResult (content : String) : Bool :=
  !isErrorText content && content ≠ repeatedCallNotice && content ≠ noNewFactNotice

/-- Whether each batch answered nothing new; `none` when it has no results. -/
def staleBatches (codec : Codec) : List String → List (List String) → List (Option Bool)
  | _, [] => []
  | seen, batch :: rest =>
    let results := batch.filter isResult
    if results.isEmpty then none :: staleBatches codec seen rest
    else
      let facts := results.filterMap (factBody codec)
      some (facts.all seen.contains) :: staleBatches codec (seen ++ facts) rest

/-- The stale batches at the head, those without results skipped. -/
def staleStreak : List (Option Bool) → Nat
  | [] => 0
  | some true :: rest => staleStreak rest + 1
  | some false :: _ => 0
  | none :: rest => staleStreak rest

def staleResultsInARow (codec : Codec) (messages : List ChatMessage) : Nat :=
  let turnBatches := (messages.rtakeWhile fun m => m.role ≠ .user).countP isBatch
  let thisTurn := ((staleBatches codec [] (resultBatches messages)).reverse).take turnBatches
  let staleThisTurn := thisTurn.countP (· = some true)
  if noNewFactLimit * 2 ≤ staleThisTurn then max (staleStreak thisTurn) staleThisTurn
  else staleStreak thisTurn

/-- `refused_for_nothing_new_since_last_fact`; the loop stops at the first notice from the
end, whatever lies in between. -/
def refusedForNothingNew : Bool :=
  messages.any fun m => m.role = .tool && m.content = some noNewFactNotice

end Decisions

/-! ## The node -/

/-- What the node is built over. -/
structure Toolbox where
  json : FailureText
  codec : Codec
  /-- The effect of each registered tool. -/
  effectOf : String → Option Effect

/-- What the world adds to one run of the node. -/
structure ToolsWorld where
  resume : Option Json := none
  /-- Setting up the executor for this invocation. -/
  prepare : Result Unit := .ok ()
  /-- The gate asks for an approval before this call. -/
  needsApproval : ToolCall → Bool := fun _ => false
  /-- The text of the result of each dispatched call, in order. -/
  answer : Nat → String

structure CallAnswer where
  call : ToolCall
  text : String
  ran : Bool
  deriving DecidableEq

inductive ToolsStep where
  | failed (error : RustyError)
  | paused (needed : List ToolCall)
  | answered (answers : List CallAnswer)

def withRefusal (json : FailureText) (denied : List (String × String))
    (entry : ToolCall × Option ToolFailure) : List (String × String) :=
  match entry.2 with
  | none => denied
  | some f =>
    if (denied.lookup entry.1.id).isSome then denied
    else denied ++ [(entry.1.id, f.errorText json)]

/-- The calls that are not denied get the results of the batch in order. -/
def answerCalls (denied : List (String × String)) (answer : Nat → String) :
    Nat → List ToolCall → List CallAnswer
  | _, [] => []
  | k, call :: rest =>
    match denied.lookup call.id with
    | some notice => ⟨call, notice, false⟩ :: answerCalls denied answer k rest
    | none => ⟨call, answer k, true⟩ :: answerCalls denied answer (k + 1) rest

namespace Toolbox

variable (box : Toolbox) (messages : List ChatMessage)

def policy (call : ToolCall) : Option ToolFailure :=
  failurePolicy box.json box.effectOf messages call

def allReads (calls : List ToolCall) : Bool := calls.all fun call => isRead box.effectOf call.name

/-- The part of the node that runs tools. -/
def dispatch (calls : List ToolCall) (world : ToolsWorld) : ToolsStep :=
  match world.prepare with
  | .error e => .failed e
  | .ok _ =>
    let denied := (calls.map fun call => (call, box.policy messages call)).foldl
      (withRefusal box.json) (deniedCalls world.resume)
    let needed := (calls.filter world.needsApproval).filter fun call =>
      (denied.lookup call.id).isNone
    if needed.isEmpty then .answered (answerCalls denied world.answer 0 calls)
    else .paused needed

def refuseAll (notice : String) (calls : List ToolCall) : ToolsStep :=
  .answered (calls.map fun call => ⟨call, notice, false⟩)

def toolsNode (world : ToolsWorld) : ToolsStep :=
  match messages.getLast? with
  | none => .failed (.node "node `tools` ran with an empty `messages` channel")
  | some last =>
    if !last.hasToolCalls then
      .failed (.node "node `tools` expected the last message to carry tool calls")
    else
      let calls := last.toolCalls
      let names := ", ".intercalate (calls.map (·.name))
      let repeats := identicalRequestsThisTurn box.json messages (box.allReads calls)
      let stale := staleResultsInARow box.codec messages
      if stuckTurnLimit ≤ repeats + 1 then
        .failed (.node (s!"no progress: {names} requested {repeats + 1} times in this turn with " ++
          "identical arguments — the run stops rather than loop"))
      else if calls.all fun call => (box.policy messages call).isSome then
        .answered (calls.map fun call =>
          ⟨call, ((box.policy messages call).map (·.errorText box.json)).getD "", false⟩)
      else if box.allReads calls && decide (noNewFactLimit ≤ stale) then
        if refusedForNothingNew messages then
          .failed (.node (s!"no progress: {stale} reads in a row answered nothing new ({names} " ++
            "last) — the run stops rather than loop"))
        else refuseAll noNewFactNotice calls
      else if 1 ≤ repeats then refuseAll repeatedCallNotice calls
      else box.dispatch messages calls world

end Toolbox

/-! ## What the node answers -/

/-- A text that stands in the place of a result: a refusal of the policy for a call of the
batch, or words of the loop. -/
inductive StandsIn (box : Toolbox) (messages : List ChatMessage) (calls : List ToolCall) :
    String → Prop where
  | refusal {call : ToolCall} {f : ToolFailure} (hCall : call ∈ calls)
      (hPolicy : box.policy messages call = some f) :
      StandsIn box messages calls (f.errorText box.json)
  | notice {text : String} (hParse : ToolFailure.parse box.json text = none)
      (hPlain : isErrorText text = false) (hOther : text ≠ unrecordedReadNotice) :
      StandsIn box messages calls text

variable {box : Toolbox} {messages : List ChatMessage} {calls : List ToolCall} {text id : String}
  {rest : List Char} {json : FailureText} {denied : List (String × String)}
  {refusals : List (ToolCall × Option ToolFailure)} {world : ToolsWorld} {answers : List CallAnswer}

theorem standsIn_of_head {c : Char} (hText : text.toList = c :: rest)
    (hInk : isWhitespace c = false) (hPlain : c ∉ ['E', 't', '\x7b', '['])
    (hOther : text ≠ unrecordedReadNotice) : StandsIn box messages calls text :=
  .notice (parse_of_plain box.json hText hInk hPlain).1 (parse_of_plain box.json hText hInk hPlain).2
    hOther

theorem ne_unrecordedReadNotice {c : Char} (hText : text.toList = c :: rest) (hHead : c ≠ 'N') :
    text ≠ unrecordedReadNotice := by
  rintro rfl
  obtain ⟨rest', hNotice⟩ := opening_unrecordedReadNotice
  rw [hText] at hNotice
  exact hHead (List.cons.inj hNotice).1

section

variable (box : Toolbox) (messages : List ChatMessage)

theorem standsIn_noNewFactNotice (calls : List ToolCall) :
    StandsIn box messages calls noNewFactNotice := by
  have hText : ∃ rest, noNewFactNotice.toList = ['N', 'O', 'T'] ++ rest := by
    iterate 5 refine exists_opening_append ?_ _
    exact ⟨"HING NEW".toList, by decide⟩
  obtain ⟨rest, hRest⟩ := hText
  refine standsIn_of_head hRest (by decide) (by decide) ?_
  intro hSame
  obtain ⟨rest', hNotice⟩ := opening_unrecordedReadNotice
  rw [← hSame, hRest] at hNotice
  cases hNotice

theorem standsIn_repeatedCallNotice (calls : List ToolCall) :
    StandsIn box messages calls repeatedCallNotice := by
  have hText : ∃ rest, repeatedCallNotice.toList = ['R'] ++ rest := by
    iterate 3 refine exists_opening_append ?_ _
    exact ⟨"EPEATED CALL".toList, by decide⟩
  obtain ⟨rest, hRest⟩ := hText
  exact standsIn_of_head hRest (by decide) (by decide) (ne_unrecordedReadNotice hRest (by decide))

theorem head_deniedCalls {resume : Option Json} {entry : String × String}
    (h : entry ∈ deniedCalls resume) : ∃ rest, entry.2.toList = 'D' :: rest := by
  unfold deniedCalls at h
  split at h
  · cases h
  · split at h
    · cases h
    · simp only at h
      split at h
      · obtain ⟨id, -, rfl⟩ := List.mem_map.mp h
        exact ⟨_, by simp only [String.toList_append, deniedNotice]; rfl⟩
      · cases h

theorem mem_of_lookup {entries : List (String × String)} (h : entries.lookup id = some text) :
    (id, text) ∈ entries := by
  obtain ⟨before, after, rfl, -⟩ := List.lookup_eq_some_iff.mp h
  exact List.mem_append_right _ List.mem_cons_self

theorem lookup_withRefusal {entry : ToolCall × Option ToolFailure} :
    (withRefusal json denied entry).lookup id =
      (denied.lookup id).or
        (if id = entry.1.id then entry.2.map (·.errorText json) else none) := by
  obtain ⟨call, refusal⟩ := entry
  cases refusal with
  | none => simp [withRefusal]
  | some f =>
    by_cases hId : id = call.id
    · subst hId
      cases hHeld : denied.lookup call.id with
      | none => simp [withRefusal, hHeld, List.lookup_append]
      | some text => simp [withRefusal, hHeld]
    · have hMiss : List.lookup id [(call.id, f.errorText json)] = none := by
        simp [List.lookup, beq_eq_false_iff_ne.mpr hId]
      simp only [withRefusal]
      rw [if_neg hId, Option.or_none]
      split
      · rfl
      · rw [List.lookup_append, hMiss, Option.or_none]

theorem denied_of_lookup (h : (refusals.foldl (withRefusal json) denied).lookup id = some text) :
    denied.lookup id = some text ∨
      ∃ call f, (call, some f) ∈ refusals ∧ text = f.errorText json := by
  induction refusals generalizing denied with
  | nil => exact .inl h
  | cons entry rest ih =>
    rcases ih h with hOld | ⟨call, f, hIn, hText⟩
    · rw [lookup_withRefusal, Option.or_eq_some_iff] at hOld
      rcases hOld with hOld | ⟨-, hNew⟩
      · exact .inl hOld
      · split at hNew
        · obtain ⟨f, hF, rfl⟩ := Option.map_eq_some_iff.mp hNew
          exact .inr ⟨entry.1, f, by rw [← hF]; exact List.mem_cons_self, rfl⟩
        · cases hNew
    · exact .inr ⟨call, f, List.mem_cons_of_mem _ hIn, hText⟩

theorem not_refused_of_lookup (h : (refusals.foldl (withRefusal json) denied).lookup id = none) :
    denied.lookup id = none ∧ ∀ call f, (call, some f) ∈ refusals → call.id ≠ id := by
  induction refusals generalizing denied with
  | nil => exact ⟨h, nofun⟩
  | cons entry rest ih =>
    obtain ⟨hHead, hRest⟩ := ih h
    rw [lookup_withRefusal, Option.or_eq_none_iff] at hHead
    refine ⟨hHead.1, fun call f hIn hId => ?_⟩
    rcases List.mem_cons.mp hIn with rfl | hIn
    · rw [if_pos hId.symm] at hHead
      cases hHead.2
    · exact hRest call f hIn hId

theorem map_call_answerCalls (denied : List (String × String)) (answer : Nat → String) (k : Nat)
    (calls : List ToolCall) : (answerCalls denied answer k calls).map (·.call) = calls := by
  induction calls generalizing k with
  | nil => rfl
  | cons call rest ih =>
    rw [answerCalls]
    split
    · rw [List.map_cons, ih]
    · rw [List.map_cons, ih]

theorem mem_answerCalls {answer : Nat → String} {k : Nat} {a : CallAnswer}
    (h : a ∈ answerCalls denied answer k calls) :
    a.call ∈ calls ∧
      (a.ran → denied.lookup a.call.id = none ∧
        ∃ i, i < k + calls.length ∧ a.text = answer i) ∧
      (a.ran = false → denied.lookup a.call.id = some a.text) := by
  induction calls generalizing k with
  | nil => cases h
  | cons call rest ih =>
    rw [answerCalls] at h
    rw [List.length_cons]
    split at h
    · rename_i notice hDenied
      rcases List.mem_cons.mp h with rfl | h
      · exact ⟨List.mem_cons_self, nofun, fun _ => hDenied⟩
      · obtain ⟨hCall, hRan, hNot⟩ := ih h
        refine ⟨List.mem_cons_of_mem _ hCall, fun hFlag => ?_, hNot⟩
        obtain ⟨hFree, i, hLt, hText⟩ := hRan hFlag
        exact ⟨hFree, i, by omega, hText⟩
    · rename_i hFree
      rcases List.mem_cons.mp h with rfl | h
      · exact ⟨List.mem_cons_self, fun _ => ⟨hFree, k, by omega, rfl⟩, nofun⟩
      · obtain ⟨hCall, hRan, hNot⟩ := ih h
        refine ⟨List.mem_cons_of_mem _ hCall, fun hFlag => ?_, hNot⟩
        obtain ⟨hFree, i, hLt, hText⟩ := hRan hFlag
        exact ⟨hFree, i, by omega, hText⟩

/-- What keeps a call from being run without an error. -/
def Toolbox.noticed (calls : List ToolCall) (world : ToolsWorld) (call : ToolCall) : Prop :=
  1 ≤ identicalRequestsThisTurn box.json messages (box.allReads calls) ∨
    (box.allReads calls = true ∧ noNewFactLimit ≤ staleResultsInARow box.codec messages) ∨
    ((deniedCalls world.resume).lookup call.id).isSome

end

/-- What holds of every answer of the node. -/
structure AnswersSound (box : Toolbox) (messages : List ChatMessage) (calls : List ToolCall)
    (world : ToolsWorld) (answers : List CallAnswer) : Prop where
  calls_eq : answers.map (·.call) = calls
  /-- What was run passed the policy. -/
  policy_of_ran : ∀ a ∈ answers, a.ran = true → box.policy messages a.call = none
  /-- What was run is answered by the world. -/
  text_of_ran : ∀ a ∈ answers, a.ran = true → ∃ i, i < calls.length ∧ a.text = world.answer i
  /-- What was not run is answered by the loop. -/
  standsIn : ∀ a ∈ answers, a.ran = false → StandsIn box messages calls a.text
  /-- An answer of the loop that is no error has a cause in the thread or in the decline. -/
  noticed : ∀ a ∈ answers, a.ran = false → isErrorText a.text = false →
    box.noticed messages calls world a.call

theorem dispatch_answered (h : box.dispatch messages calls world = .answered answers) :
    AnswersSound box messages calls world answers := by
  unfold Toolbox.dispatch at h
  split at h
  · cases h
  · simp only at h
    split at h
    · cases h
      refine ⟨map_call_answerCalls _ _ _ _, ?_, ?_, ?_, ?_⟩
      · intro a hIn hRan
        obtain ⟨hCall, hFree, -⟩ := mem_answerCalls hIn
        have hNone := (not_refused_of_lookup (hFree hRan).1).2
        cases hPolicy : box.policy messages a.call with
        | none => rfl
        | some f =>
          have hRefused : (a.call, some f) ∈
              calls.map fun call => (call, box.policy messages call) :=
            List.mem_map.mpr ⟨a.call, hCall, by rw [hPolicy]⟩
          exact absurd rfl (hNone a.call f hRefused)
      · intro a hIn hRan
        obtain ⟨i, hLt, hText⟩ := ((mem_answerCalls hIn).2.1 hRan).2
        exact ⟨i, by omega, hText⟩
      · intro a hIn hRan
        obtain ⟨-, -, hDenied⟩ := mem_answerCalls hIn
        rcases denied_of_lookup (hDenied hRan) with hDeclined | ⟨call, f, hIn, hText⟩
        · obtain ⟨rest, hRest⟩ := head_deniedCalls (mem_of_lookup hDeclined)
          exact standsIn_of_head hRest (by decide) (by decide)
            (ne_unrecordedReadNotice hRest (by decide))
        · obtain ⟨other, hOther, hEq⟩ := List.mem_map.mp hIn
          obtain ⟨rfl, hPolicy⟩ := Prod.mk.inj hEq
          rw [hText]
          exact .refusal hOther hPolicy
      · intro a hIn hRan hPlain
        obtain ⟨-, -, hDenied⟩ := mem_answerCalls hIn
        rcases denied_of_lookup (hDenied hRan) with hDeclined | ⟨call, f, -, hText⟩
        · exact .inr (.inr (by rw [hDeclined]; rfl))
        · rw [hText, isErrorText_errorText] at hPlain
          cases hPlain
    · cases h

theorem answersSound_of_notRun {text : ToolCall → String}
    (hText : ∀ call ∈ calls, StandsIn box messages calls (text call))
    (hCause : ∀ call ∈ calls, isErrorText (text call) = false →
      box.noticed messages calls world call) :
    AnswersSound box messages calls world (calls.map fun call => ⟨call, text call, false⟩) := by
  refine ⟨by rw [List.map_map]; exact List.map_id _, ?_, ?_, ?_, ?_⟩
  · intro a hIn hRan
    obtain ⟨call, -, rfl⟩ := List.mem_map.mp hIn
    cases hRan
  · intro a hIn hRan
    obtain ⟨call, -, rfl⟩ := List.mem_map.mp hIn
    cases hRan
  · intro a hIn _
    obtain ⟨call, hCall, rfl⟩ := List.mem_map.mp hIn
    exact hText call hCall
  · intro a hIn _
    obtain ⟨call, hCall, rfl⟩ := List.mem_map.mp hIn
    exact hCause call hCall

/-- **What the node answers.** -/
theorem toolsNode_answered (h : box.toolsNode messages world = .answered answers) :
    ∃ last, messages.getLast? = some last ∧ last.hasToolCalls ∧
      identicalRequestsThisTurn box.json messages (box.allReads last.toolCalls) + 1 <
        stuckTurnLimit ∧
      AnswersSound box messages last.toolCalls world answers := by
  unfold Toolbox.toolsNode at h
  split at h
  · cases h
  rename_i last hLast
  refine ⟨last, hLast, ?_⟩
  split at h
  · cases h
  rename_i hCalls
  rw [Bool.not_eq_true', Bool.not_eq_false] at hCalls
  refine ⟨hCalls, ?_⟩
  simp only at h
  split at h
  · cases h
  rename_i hStuck
  refine ⟨Nat.lt_of_not_le hStuck, ?_⟩
  split at h
  · rename_i hAll
    cases h
    have hRefused : ∀ call ∈ last.toolCalls, ∃ f, box.policy messages call = some f := by
      intro call hIn
      exact Option.isSome_iff_exists.mp (List.all_eq_true.mp hAll call hIn)
    refine answersSound_of_notRun ?_ ?_
    · intro call hCall
      obtain ⟨f, hPolicy⟩ := hRefused call hCall
      simp only [hPolicy, Option.map_some, Option.getD_some]
      exact .refusal hCall hPolicy
    · intro call hCall hPlain
      obtain ⟨f, hPolicy⟩ := hRefused call hCall
      simp only [hPolicy, Option.map_some, Option.getD_some, isErrorText_errorText] at hPlain
      cases hPlain
  · split at h
    · rename_i hStale
      rw [Bool.and_eq_true, decide_eq_true_eq] at hStale
      split at h
      · cases h
      · cases h
        exact answersSound_of_notRun (fun _ _ => standsIn_noNewFactNotice _ _ _)
          (fun _ _ _ => .inr (.inl hStale))
    · split at h
      · rename_i hRepeat
        cases h
        exact answersSound_of_notRun (fun _ _ => standsIn_repeatedCallNotice _ _ _)
          (fun _ _ _ => .inl hRepeat)
      · exact dispatch_answered h

end RustyRuntime
