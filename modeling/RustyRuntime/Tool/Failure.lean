import RustyRuntime.React.Repair

/-!
# Typed tool failures and the failure policy

`tool.rs`: a failure that the model can act on, the text it travels in, and `failure_policy`,
which answers a call from the thread instead of dispatching it. A call that failed twice is
refused as `bounded`; a write whose earlier attempt may have happened is refused as
`reconcile_first` until a read-only tool has answered.

The policy pairs every call of the thread with the first later message that carries its id
(`attempts`). The two lemmas later proofs rest on are `attempts_answered`, what a batch of
results adds to the pairs, and `attempts_requested`, what a request adds.
-/

namespace RustyRuntime

open Library

/-! ## Failures as text -/

structure ToolFailure where
  kind : String
  failureClass : String
  tool : String
  detail : String
  sent : Bool
  retrySafe : Bool
  next : String
  deriving DecidableEq

namespace ToolFailure

/-- `ToolFailure::KIND`. -/
def kindName : String := "tool_failure"

def new (failureClass tool detail : String) (sent retrySafe : Bool) (next : String) :
    ToolFailure :=
  ⟨kindName, failureClass, tool, detail, sent, retrySafe, next⟩

end ToolFailure

/-- The text of a failure, as `serde_json` writes and reads it. -/
structure FailureText where
  /-- `serde_json::to_string`. -/
  write : ToolFailure → String
  /-- `serde_json::from_str`. -/
  read : String → Option ToolFailure
  read_write : ∀ f, read (write f) = some f
  /-- A struct is written as an object. -/
  write_object : ∀ f, ∃ body, (write f).toList = '\x7b' :: body ++ ['\x7d']
  /-- Only an object or an array reads as a struct. -/
  opens : ∀ {s f c rest}, read s = some f → s.toList = c :: rest → isWhitespace c = false →
    c = '\x7b' ∨ c = '['

variable (json : FailureText)

namespace ToolFailure

/-- `ToolFailure::parse`, with or without the words the batch executor puts in front. -/
def parse (content : String) : Option ToolFailure :=
  let text := ((stripPrefix "ERROR:" (trim content)).map trim).getD (trim content)
  let text := ((stripPrefix "tool error:" text).map trim).getD text
  (json.read text).filter fun f => f.kind = kindName

/-- The result that carries a refusal. -/
def errorText (f : ToolFailure) : String := "ERROR: " ++ json.write f

end ToolFailure

def isErrorText (content : String) : Bool := startsWith "ERROR:" (trimStart content)

/-- `real_failure` of the policy: the tool ran and failed. -/
def realFailure (content : String) : Bool :=
  isErrorText content && !(ToolFailure.parse json content).any fun f =>
    f.failureClass = "bounded" || f.failureClass = "reconcile_first"

/-! ## The policy -/

/-- `FAILURE_BOUND`. -/
def failureBound : Nat := 2

/-- A tool that only reads; one the registry does not know counts as a write. -/
def isRead (effectOf : String → Option Effect) (tool : String) : Bool :=
  effectOf tool = some .readOnly || effectOf tool = some .pure

def ToolCall.identical (call other : ToolCall) : Bool :=
  other.name = call.name && other.arguments = call.arguments

/-- A call of the thread: where it was requested, and the text that answers it. -/
structure Attempt where
  position : Nat
  call : ToolCall
  result : Option String
  deriving DecidableEq

def resultOf (messages : List ChatMessage) (id : String) : Option String :=
  (messages.find? fun m => m.toolCallId = some id).bind (·.content)

def attemptsFrom : Nat → List ChatMessage → List Attempt
  | _, [] => []
  | i, m :: rest =>
    (m.toolCalls.map fun tc => ⟨i, tc, resultOf (m :: rest) tc.id⟩) ++ attemptsFrom (i + 1) rest

section

variable (history : List ChatMessage)

def attempts : List Attempt := attemptsFrom 0 history

/-- How often a call failed in the thread. -/
def failures (call : ToolCall) : Nat :=
  (attempts history).countP fun a => call.identical a.call && a.result.any (realFailure json)

/-- `max_by_key` on the position: the last of the greatest. -/
def latest (found : List (Nat × Bool)) : Option (Nat × Bool) :=
  found.foldl (fun best x =>
    match best with
    | none => some x
    | some b => if b.1 ≤ x.1 then some x else some b) none

def unknownAttempts (call : ToolCall) : List (Nat × Bool) :=
  (attempts history).filterMap fun a =>
    match a.result.bind (ToolFailure.parse json) with
    | none => none
    | some f =>
      if call.identical a.call && f.failureClass = "unknown_outcome" then
        some (a.position, f.retrySafe)
      else none

def uncertain (call : ToolCall) : Option (Nat × Bool) :=
  latest (unknownAttempts json history call)

end

section

variable (effectOf : String → Option Effect) (history : List ChatMessage) (call : ToolCall)

/-- A read-only tool has answered a request after a position. -/
def readSince (since : Nat) : Bool :=
  (attempts history).any fun a => decide (since < a.position) && isRead effectOf a.call.name &&
    a.result.any fun content => !isErrorText content

def boundedRefusal (count : Nat) : ToolFailure :=
  .new "bounded" call.name s!"this exact call already failed {count} times in this conversation"
    false false
    ("change the arguments or the approach, or say what you need — the same call again is not " ++
     "tried")

def reconcileRefusal : ToolFailure :=
  .new "reconcile_first" call.name
    "an identical write was sent earlier and its answer was lost — it may have happened"
    false false
    ("read the record back with a read-only tool first; send the write again only if it is not " ++
     "there")

/-- `failure_policy`; `none` means dispatch. -/
def failurePolicy : Option ToolFailure :=
  if failureBound ≤ failures json history call then
    some (boundedRefusal call (failures json history call))
  else if isRead effectOf call.name then none
  else
    match uncertain json history call with
    | none => none
    -- the source asks whether it was sent again since, and dispatches in both cases
    | some (_, true) => none
    | some (since, false) =>
      if readSince effectOf history since then none else some (reconcileRefusal call)

end

/-! ## What a text reads as -/

variable {json}

variable {f : ToolFailure} {effectOf : String → Option Effect} {history messages : List ChatMessage}
  {call other : ToolCall} {answers : List (ToolCall × String)} {answer : ToolCall × String}
  {m : ChatMessage} {safe : Bool}

theorem parse_errorText (hKind : f.kind = ToolFailure.kindName) :
    ToolFailure.parse json (f.errorText json) = some f := by
  obtain ⟨body, hBody⟩ := json.write_object f
  have hWhite : isWhitespace '\x7d' = false := by decide
  have hText : (f.errorText json).toList =
      'E' :: ("RROR: ".toList ++ ('\x7b' :: body ++ ['\x7d'])) := by
    rw [ToolFailure.errorText, String.toList_append, hBody]
    rfl
  have hEnd (front : List Char) :
      (front ++ ['\x7d']).rdropWhile isWhitespace = front ++ ['\x7d'] :=
    List.rdropWhile_concat_neg _ _ _ (by rw [hWhite]; decide)
  -- nothing to trim at either end, so the words in front come off and leave the object
  have hTrim : trim (f.errorText json) = "ERROR:" ++ (" " ++ json.write f) := by
    rw [← String.toList_inj, toList_trim_of_head hText (by decide), ← List.append_assoc, hEnd]
    simp [hBody]
  have hInner : trim (" " ++ json.write f) = json.write f := by
    have hSpace : (" " ++ json.write f).toList.dropWhile isWhitespace =
        '\x7b' :: body ++ ['\x7d'] := by
      rw [String.toList_append, hBody]
      rfl
    rw [← String.toList_inj, trim, trimMatches, String.toList_ofList, hSpace, hEnd, hBody]
  have hOuter : stripPrefix "ERROR:" (trim (f.errorText json)) = some (" " ++ json.write f) :=
    stripPrefix_eq_some_iff.mpr hTrim
  have hBare : stripPrefix "tool error:" (json.write f) = none := by
    rw [Option.eq_none_iff_forall_not_mem]
    intro rest hRest
    have hSame := congrArg String.toList (stripPrefix_eq_some_iff.mp hRest)
    rw [hBody, String.toList_append] at hSame
    cases hSame
  simp only [ToolFailure.parse, hOuter, Option.map_some, Option.getD_some, hInner, hBare,
    Option.map_none, Option.getD_none, json.read_write, Option.filter, hKind, decide_true]
  rfl

theorem failurePolicy_eq_some (h : failurePolicy json effectOf history call = some f) :
    f.kind = ToolFailure.kindName ∧
      (f.failureClass = "bounded" ∨ f.failureClass = "reconcile_first") := by
  revert h
  fun_cases failurePolicy json effectOf history call with
  | case1 =>
    rintro ⟨⟩
    exact ⟨rfl, .inl rfl⟩
  | case6 =>
    rintro ⟨⟩
    exact ⟨rfl, .inr rfl⟩
  | _ => exact nofun

theorem isErrorText_errorText (f : ToolFailure) : isErrorText (f.errorText json) := by
  have hText : (f.errorText json).toList = "ERROR:".toList ++ (' ' :: (json.write f).toList) := by
    rw [ToolFailure.errorText, String.toList_append]
    rfl
  have hStart : (trimStart (f.errorText json)).toList =
      "ERROR:".toList ++ (' ' :: (json.write f).toList) := by
    rw [trimStart, String.toList_ofList, hText]
    rfl
  rw [isErrorText, startsWith, hStart, List.isPrefixOf_iff_prefix]
  exact List.prefix_append _ _

theorem stripPrefix_of_head {stem s : String} {c d : Char} {rest tail : List Char}
    (hStem : stem.toList = d :: tail) (hText : s.toList = c :: rest) (hNe : c ≠ d) :
    stripPrefix stem s = none := by
  rw [Option.eq_none_iff_forall_not_mem]
  intro after hAfter
  have hSame := congrArg String.toList (stripPrefix_eq_some_iff.mp hAfter)
  rw [hText, String.toList_append, hStem, List.cons_append] at hSame
  exact hNe (List.cons.inj hSame).1

theorem parse_of_plain (json : FailureText) {s : String} {c : Char} {rest : List Char}
    (hText : s.toList = c :: rest) (hInk : isWhitespace c = false)
    (hPlain : c ∉ ['E', 't', '\x7b', '[']) :
    ToolFailure.parse json s = none ∧ isErrorText s = false := by
  simp only [List.mem_cons, List.not_mem_nil, or_false, not_or] at hPlain
  obtain ⟨hError, hTool, hBrace, hBracket⟩ := hPlain
  have hTrim := toList_trim_of_head hText hInk
  constructor
  · have hRead : json.read (trim s) = none := by
      rw [Option.eq_none_iff_forall_not_mem]
      intro f hF
      rcases json.opens hF hTrim hInk with h | h
      · exact hBrace h
      · exact hBracket h
    have hOuter : stripPrefix "ERROR:" (trim s) = none := stripPrefix_of_head rfl hTrim hError
    have hInner : stripPrefix "tool error:" (trim s) = none := stripPrefix_of_head rfl hTrim hTool
    simp only [ToolFailure.parse, hOuter, hInner, Option.map_none, Option.getD_none, hRead]
    rfl
  · have hStart : (trimStart s).toList = c :: rest := by
      rw [trimStart, String.toList_ofList, hText,
        List.dropWhile_cons_of_neg (by rw [hInk]; decide)]
    have hNe : ('E' == c) = false := by simpa using fun h : 'E' = c => hError h.symm
    have hStem : "ERROR:".toList = 'E' :: "RROR:".toList := rfl
    rw [isErrorText, startsWith, hStart, hStem, List.isPrefixOf_cons_cons, hNe, Bool.false_and]

/-! ## The calls of a growing thread -/

def Answered (messages : List ChatMessage) : Prop :=
  ∀ a ∈ attempts messages, a.result.isSome

theorem resultOf_append_of_isSome {id : String} (h : (resultOf messages id).isSome)
    (more : List ChatMessage) : resultOf (messages ++ more) id = resultOf messages id := by
  unfold resultOf at h ⊢
  cases hFind : messages.find? (fun m => m.toolCallId = some id) with
  | none => simp [hFind] at h
  | some m => rw [List.find?_append, hFind, Option.some_or]

theorem attemptsFrom_append {i : Nat} (h : ∀ a ∈ attemptsFrom i messages, a.result.isSome)
    (more : List ChatMessage) :
    attemptsFrom i (messages ++ more) =
      attemptsFrom i messages ++ attemptsFrom (i + messages.length) more := by
  induction messages generalizing i with
  | nil => rfl
  | cons m rest ih =>
    rw [attemptsFrom, List.forall_mem_append] at h
    have hSame : (m.toolCalls.map fun tc => (⟨i, tc, resultOf (m :: rest ++ more) tc.id⟩ : Attempt)) =
        m.toolCalls.map fun tc => ⟨i, tc, resultOf (m :: rest) tc.id⟩ := by
      refine List.map_congr_left fun tc hIn => ?_
      rw [resultOf_append_of_isSome (h.1 _ (List.mem_map_of_mem hIn))]
    rw [List.cons_append, attemptsFrom, ← List.cons_append, hSame, ih h.2, attemptsFrom,
      List.append_assoc, List.length_cons, Nat.add_right_comm, Nat.add_assoc]

theorem attempts_append (h : Answered messages) (more : List ChatMessage) :
    attempts (messages ++ more) = attempts messages ++ attemptsFrom messages.length more := by
  rw [attempts, attemptsFrom_append h, Nat.zero_add]
  rfl

theorem attemptsFrom_of_no_calls (h : ∀ m ∈ messages, m.toolCalls = []) (i : Nat) :
    attemptsFrom i messages = [] := by
  induction messages generalizing i with
  | nil => rfl
  | cons m rest ih =>
    obtain ⟨hHead, hRest⟩ := List.forall_mem_cons.mp h
    rw [attemptsFrom, hHead, ih hRest]
    rfl

def resultMessages (answers : List (ToolCall × String)) : List ChatMessage :=
  answers.map fun answer => .toolResult answer.1.id answer.2

theorem toolCalls_resultMessages (answers : List (ToolCall × String)) :
    ∀ m ∈ resultMessages answers, m.toolCalls = [] := by
  intro m hIn
  obtain ⟨answer, -, rfl⟩ := List.mem_map.mp hIn
  rfl

theorem resultOf_resultMessages (hIds : (answers.map (·.1.id)).Nodup) (hIn : answer ∈ answers) :
    resultOf (resultMessages answers) answer.1.id = some answer.2 := by
  induction answers with
  | nil => cases hIn
  | cons first rest ih =>
    rw [List.map_cons, List.nodup_cons] at hIds
    rcases List.mem_cons.mp hIn with rfl | hIn
    · simp [resultOf, resultMessages, ChatMessage.toolResult]
    · have hNe : first.1.id ≠ answer.1.id := fun h => hIds.1 (h ▸ List.mem_map_of_mem hIn)
      rw [← ih hIds.2 hIn]
      simp [resultOf, resultMessages, ChatMessage.toolResult, hNe]

theorem isSome_resultOf_resultMessages (hIn : answer ∈ answers) :
    (resultOf (resultMessages answers) answer.1.id).isSome := by
  induction answers with
  | nil => cases hIn
  | cons first rest ih =>
    by_cases hId : first.1.id = answer.1.id
    · simp [resultOf, resultMessages, ChatMessage.toolResult, hId]
    · rcases List.mem_cons.mp hIn with rfl | hIn
      · exact absurd rfl hId
      · have hRest := ih hIn
        simp only [resultOf, resultMessages, List.map_cons] at hRest ⊢
        rw [List.find?_cons_of_neg (by simpa [ChatMessage.toolResult] using hId)]
        exact hRest

theorem attempts_requested (h : Answered messages) (hPlain : m.toolCallId = none) :
    attempts (messages ++ [m]) =
      attempts messages ++ m.toolCalls.map fun tc => ⟨messages.length, tc, none⟩ := by
  rw [attempts_append h, attemptsFrom, attemptsFrom, List.append_nil]
  simp [resultOf, hPlain]

theorem attempts_answered (h : Answered messages) (hPlain : m.toolCallId = none)
    (hCalls : answers.map Prod.fst = m.toolCalls) (hIds : (m.toolCalls.map (·.id)).Nodup) :
    attempts (messages ++ m :: resultMessages answers) =
      attempts messages ++ answers.map fun answer => ⟨messages.length, answer.1, some answer.2⟩ := by
  rw [attempts_append h, attemptsFrom, attemptsFrom_of_no_calls (toolCalls_resultMessages _),
    List.append_nil, ← hCalls, List.map_map]
  refine congrArg _ (List.map_congr_left fun answer hIn => ?_)
  rw [← hCalls, List.map_map] at hIds
  have hSkip : resultOf (m :: resultMessages answers) answer.1.id =
      resultOf (resultMessages answers) answer.1.id := by
    simp [resultOf, hPlain]
  rw [Function.comp_apply, hSkip, resultOf_resultMessages hIds hIn]

theorem answered_of_results (h : Answered messages) (hPlain : m.toolCallId = none)
    (hCalls : answers.map Prod.fst = m.toolCalls) :
    Answered (messages ++ m :: resultMessages answers) := by
  intro a hIn
  rw [attempts_append h, attemptsFrom, attemptsFrom_of_no_calls (toolCalls_resultMessages _),
    List.append_nil, List.mem_append, List.mem_map] at hIn
  rcases hIn with hIn | ⟨tc, hTc, rfl⟩
  · exact h a hIn
  · rw [← hCalls, List.mem_map] at hTc
    obtain ⟨answer, hAnswer, rfl⟩ := hTc
    have hSkip : resultOf (m :: resultMessages answers) answer.1.id =
        resultOf (resultMessages answers) answer.1.id := by
      simp [resultOf, hPlain]
    rw [hSkip]
    exact isSome_resultOf_resultMessages hAnswer

/-! ## What the policy decides -/

theorem ToolCall.identical_iff :
    call.identical other ↔ other.name = call.name ∧ other.arguments = call.arguments := by
  simp [identical]

section

variable (h : call.identical other)
include h

theorem ToolCall.identical_symm : other.identical call := by
  rw [identical_iff] at h ⊢
  exact ⟨h.1.symm, h.2.symm⟩

theorem ToolCall.identical_trans {third : ToolCall} (h' : other.identical third) :
    call.identical third := by
  rw [identical_iff] at h h' ⊢
  exact ⟨h'.1.trans h.1, h'.2.trans h.2⟩

theorem ToolCall.identical_congr (third : ToolCall) :
    call.identical third = other.identical third := by
  rw [Bool.eq_iff_iff]
  exact ⟨identical_trans (identical_symm h), identical_trans h⟩

theorem failures_congr (history : List ChatMessage) :
    failures json history call = failures json history other := by
  simp only [failures, ToolCall.identical_congr h]

end

theorem exists_latest {found : List (Nat × Bool)} (h : found ≠ []) :
    ∃ b ∈ found, latest found = some b ∧ ∀ x ∈ found, x.1 ≤ b.1 := by
  induction found using List.reverseRecOn with
  | nil => exact absurd rfl h
  | append_singleton front x ih =>
    by_cases hFront : front = []
    · subst hFront
      exact ⟨x, List.mem_singleton_self x, rfl, by simp⟩
    · obtain ⟨b, hIn, hLatest, hAll⟩ := ih hFront
      have hStep : latest (front ++ [x]) = if b.1 ≤ x.1 then some x else some b := by
        rw [latest, List.foldl_append, ← latest, hLatest]
        rfl
      simp only [hStep, List.forall_mem_append, List.forall_mem_singleton]
      by_cases hLe : b.1 ≤ x.1
      · refine ⟨x, by simp, if_pos hLe, fun y hY => ?_, Nat.le_refl _⟩
        exact (hAll y hY).trans hLe
      · exact ⟨b, List.mem_append_left _ hIn, if_neg hLe, hAll, by omega⟩

structure Unknown (json : FailureText) (call : ToolCall) (a : Attempt) (safe : Bool) : Prop where
  identical : call.identical a.call = true
  text : ∃ text f, a.result = some text ∧ ToolFailure.parse json text = some f ∧
    f.failureClass = "unknown_outcome" ∧ f.retrySafe = safe

theorem mem_unknownAttempts {position : Nat} :
    (position, safe) ∈ unknownAttempts json history call ↔
      ∃ a ∈ attempts history, a.position = position ∧ Unknown json call a safe := by
  rw [unknownAttempts, List.mem_filterMap]
  refine exists_congr fun a => and_congr_right fun _ => ?_
  constructor
  · intro h
    split at h
    · cases h
    · rename_i f hF
      obtain ⟨text, hText, hParse⟩ := Option.bind_eq_some_iff.mp hF
      split at h
      · rename_i hBoth
        rw [Bool.and_eq_true, decide_eq_true_eq] at hBoth
        cases h
        exact ⟨rfl, hBoth.1, text, f, hText, hParse, hBoth.2, rfl⟩
      · cases h
  · rintro ⟨hPosition, hSame, text, f, hText, hParse, hClass, hSafe⟩
    simp only [hText, Option.bind_some, hParse, hSame, hClass, decide_true, Bool.and_self, if_true,
      hPosition, hSafe]

theorem exists_uncertain {a : Attempt} (hIn : a ∈ attempts history)
    (hUnknown : Unknown json call a safe) :
    ∃ a' ∈ attempts history, ∃ safe', uncertain json history call = some (a'.position, safe') ∧
      a.position ≤ a'.position ∧ Unknown json call a' safe' := by
  have hFound := mem_unknownAttempts.mpr ⟨a, hIn, rfl, hUnknown⟩
  obtain ⟨best, hBest, hLatest, hAll⟩ := exists_latest (List.ne_nil_of_mem hFound)
  obtain ⟨a', hA', hPosition, hUnknown'⟩ := mem_unknownAttempts.mp hBest
  refine ⟨a', hA', best.2, ?_, ?_, hUnknown'⟩
  · rw [hPosition]
    exact hLatest
  · rw [hPosition]
    exact hAll _ hFound

theorem readSince_iff {since : Nat} :
    readSince effectOf history since ↔
      ∃ a ∈ attempts history, since < a.position ∧ isRead effectOf a.call.name ∧
        ∃ text, a.result = some text ∧ isErrorText text = false := by
  simp only [readSince, List.any_eq_true, Bool.and_eq_true, decide_eq_true_eq,
    Option.any_eq_true, Bool.not_eq_true', and_assoc]

theorem failurePolicy_eq_none (h : failurePolicy json effectOf history call = none) :
    failures json history call < failureBound ∧
      (isRead effectOf call.name = false → ∀ since,
        uncertain json history call = some (since, false) →
          readSince effectOf history since) := by
  unfold failurePolicy at h
  split at h
  · cases h
  rename_i hBound
  refine ⟨Nat.lt_of_not_le hBound, fun hWrite since hSince => ?_⟩
  rw [hWrite, if_neg Bool.false_ne_true, hSince] at h
  simp only at h
  split at h
  · assumption
  · cases h

theorem realFailure_errorText (hKind : f.kind = ToolFailure.kindName)
    (hClass : f.failureClass = "bounded" ∨ f.failureClass = "reconcile_first") :
    realFailure json (f.errorText json) = false := by
  rw [realFailure, parse_errorText hKind, Option.any_some]
  rcases hClass with hClass | hClass
  · simp [hClass]
  · simp [hClass]

/-! ## A text form that computes -/

namespace MarkedText

/-- The runtime's own words are one letter; elsewhere each character is marked. -/
def field (s : String) : List Char :=
  if s = ToolFailure.kindName then ['k']
  else if s = "unknown_outcome" then ['u']
  else (s.toList.flatMap fun c => [':', c]) ++ [';']

def takeMarked : List Char → Option (String × List Char)
  | ';' :: rest => some ("", rest)
  | ':' :: c :: rest => (takeMarked rest).map fun r => (String.ofList (c :: r.1.toList), r.2)
  | _ => none

def takeField : List Char → Option (String × List Char)
  | 'k' :: rest => some (ToolFailure.kindName, rest)
  | 'u' :: rest => some ("unknown_outcome", rest)
  | chars => takeMarked chars

def flag (b : Bool) : Char := if b then 't' else 'f'

theorem takeMarked_marked (chars rest : List Char) :
    takeMarked ((chars.flatMap fun c => [':', c]) ++ [';'] ++ rest) =
      some (String.ofList chars, rest) := by
  induction chars with
  | nil => rfl
  | cons c chars ih =>
    rw [List.flatMap_cons, List.append_assoc, List.append_assoc, List.cons_append,
      List.cons_append, List.nil_append, ← List.append_assoc, takeMarked, ih, Option.map_some,
      String.toList_ofList]

theorem takeField_field (s : String) (rest : List Char) :
    takeField (field s ++ rest) = some (s, rest) := by
  unfold field
  split
  · rename_i hKind
    rw [hKind]
    rfl
  · split
    · rename_i hUnknown
      rw [hUnknown]
      rfl
    · have hMarked := takeMarked_marked s.toList rest
      rw [String.ofList_toList] at hMarked
      rw [← hMarked]
      cases s.toList with
      | nil | cons c chars => rfl

def body (f : ToolFailure) : List Char :=
  field f.kind ++ (field f.failureClass ++ (field f.tool ++ (field f.detail ++
    (field f.next ++ [flag f.sent, flag f.retrySafe]))))

def readBody (chars : List Char) : Option ToolFailure := do
  let (kind, rest) ← takeField chars
  let (failureClass, rest) ← takeField rest
  let (tool, rest) ← takeField rest
  let (detail, rest) ← takeField rest
  let (next, rest) ← takeField rest
  match rest with
  | sent :: retrySafe :: _ =>
    some ⟨kind, failureClass, tool, detail, sent = 't', retrySafe = 't', next⟩
  | _ => none

def readText (s : String) : Option ToolFailure :=
  match s.toList with
  | '\x7b' :: rest => readBody rest
  | _ => none

theorem readBody_body (f : ToolFailure) : readBody (body f ++ ['\x7d']) = some f := by
  simp only [readBody, body, List.append_assoc, takeField_field, Option.bind_eq_bind,
    Option.bind_some, List.cons_append]
  obtain ⟨kind, failureClass, tool, detail, sent, retrySafe, next⟩ := f
  cases sent <;> cases retrySafe <;> rfl

end MarkedText

open MarkedText in
def markedText : FailureText where
  write f := String.ofList ('\x7b' :: body f ++ ['\x7d'])
  read := readText
  read_write f := by
    rw [readText, String.toList_ofList, List.cons_append]
    exact readBody_body f
  write_object f := ⟨body f, String.toList_ofList⟩
  opens := by
    intro s f c rest hRead hText _
    rw [readText, hText] at hRead
    split at hRead
    · rename_i hHead
      exact .inl (List.cons.inj hHead).1
    · cases hRead

end RustyRuntime
