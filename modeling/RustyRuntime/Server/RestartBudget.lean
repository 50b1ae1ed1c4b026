import RustyRuntime.Server.Supervision

/-!
# The restart budget

What `supervise` decides over a whole sequence of triggers of one agent: the window of `decide`
slides over a history in which restarts, escalations and manual restarts are mixed.

**The budget holds** (`restarts_bounded`): no window of the period has more automatic restarts than
the intensity, an escalation is followed by suppressed failures until a manual restart, and the
attempts of the record are numbered from one without gaps.
-/

namespace RustyRuntime.Supervision

open Library

structure Watched where
  store : ServerStore
  log : List (Decision × Step) := []

def Watched.next (codec : Codec) (tenant agentExternal : String) (w : Watched) (step : Step) :
    Watched where
  store := Supervision.next codec tenant agentExternal w.store step
  log := w.log ++ ((w.store.agents.get? (scopeId tenant agentExternal)).map fun agent =>
    (decision agent step, step)).toList

/-- Time does not go back, and the record is written. -/
def Watched.allowed (w : Watched) (step : Step) : Prop :=
  (∀ d ∈ w.log, d.2.now ≤ step.now) ∧ step.writes ≠ 0

instance (w : Watched) (step : Step) : Decidable (w.allowed step) :=
  inferInstanceAs (Decidable (_ ∧ _))

def Decision.isRestart : Decision → Bool
  | .restart _ => true
  | _ => false

/-- An automatic restart within a time. -/
def restartsIn (first last : Instant) (d : Decision × Step) : Bool :=
  d.1.isRestart && !d.2.trigger.isManual && (first ≤ d.2.now && d.2.now ≤ last)

def Escalated (log : List (Decision × Step)) : Prop :=
  ∃ before d since, log = before ++ d :: since ∧ d.1 = .escalate ∧
    ∀ m ∈ since, m.2.trigger.isManual = false

/-- Once an escalation is decided, failures are suppressed until a manual restart. -/
def Quiet (log : List (Decision × Step)) : Prop :=
  ∀ before d after, log = before ++ d :: after → Escalated before →
    d.2.trigger.isManual = false → d.1 = .suppressed

/-! ## One step -/

section Step

variable {codec : Codec} {tenant agentExternal : String} {s : ServerStore} {agent : AgentRecord}
  {policy : SupervisionPolicy} {step : Step}

/-- The record that `supervise` writes. -/
def supervised (agent : AgentRecord) (step : Step) : AgentRecord :=
  match decision agent step with
  | .unsupervised => agent
  | .suppressed => suppressedOnce agent
  | .restart ordinal => restarted agent step.trigger ordinal step.now
  | .escalate => escalating agent step.trigger step.now

theorem get?_next (hSound : Sound codec tenant agentExternal s)
    (hAgent : s.agents.get? (scopeId tenant agentExternal) = some agent)
    (hPolicy : agent.manifest.supervision = some policy) (hWrites : step.writes ≠ 0) :
    (next codec tenant agentExternal s step).agents.get? (scopeId tenant agentExternal) =
      some (supervised agent step) := by
  obtain ⟨journal, hLoad⟩ := hSound
  obtain ⟨writes, hWrites⟩ := Nat.exists_eq_succ_of_ne_zero hWrites
  have hPut := get?_putAgent hAgent
  rw [supervised]
  cases hDecision : decision agent step with
  | unsupervised =>
    unfold decision at hDecision
    simp only [next, hAgent, supervise, hDecision]
    exact hAgent
  | suppressed =>
    have hId : agent.agentId = scopeId tenant agentExternal := Index.key_of_get? hAgent
    unfold decision at hDecision
    simp only [next, hAgent, supervise, hDecision, Durable.state, hWrites]
    rw [updateAgent_bind hAgent (show (suppressedOnce agent).agentId = _ from hId)]
    exact hPut (suppressedOnce agent) rfl
  | restart ordinal =>
    unfold decision at hDecision
    simp only [next, hAgent, supervise, hDecision]
    rw [state_update_event hAgent hLoad (restarted agent step.trigger ordinal step.now) rfl, hWrites]
    cases writes with
    | zero | succ writes => exact hPut _ rfl
  | escalate =>
    rw [next_escalate hAgent hLoad hPolicy hDecision, hWrites]
    cases writes with
    | zero => exact hPut _ rfl
    | succ writes =>
      simp only
      split <;> exact hPut (escalating agent step.trigger step.now) rfl

abbrev failuresSince (agent : AgentRecord) (first : Instant) : Nat :=
  agent.supervision.attempts.countP fun a => first ≤ a.time && a.trigger ≠ .manualRestart

theorem decision_of_escalated (hPolicy : agent.manifest.supervision = some policy)
    (hLatch : agent.supervision.escalated = true) (hAuto : step.trigger.isManual = false) :
    decision agent step = .suppressed := by
  simp [decision, decide, hAuto, hPolicy, hLatch]

theorem room_of_restart (hPolicy : agent.manifest.supervision = some policy)
    (hAuto : step.trigger.isManual = false) (h : (decision agent step).isRestart = true) :
    failuresSince agent (step.now - milliseconds policy.periodMs) < policy.intensity := by
  unfold decision decide at h
  rw [hAuto, hPolicy] at h
  simp only [Bool.false_eq_true, if_false] at h
  (repeat' split at h) <;> first | assumption | cases h

end Step

/-! ## The history of an agent -/

structure Charged (codec : Codec) (tenant agentExternal : String) (policy : SupervisionPolicy)
    (w : Watched) : Prop where
  sound : Sound codec tenant agentExternal w.store
  record : ∃ agent, w.store.agents.get? (scopeId tenant agentExternal) = some agent ∧
    agent.manifest.supervision = some policy ∧
    (Escalated w.log → agent.supervision.escalated = true) ∧
    agent.supervision.attempts.map (·.ordinal) =
      List.range' 1 agent.supervision.attempts.length ∧
    ∀ first last, w.log.countP (restartsIn first last) ≤
      agent.supervision.attempts.countP fun a => first ≤ a.time && a.trigger ≠ .manualRestart
  quiet : Quiet w.log
  within : ∀ first, w.log.countP (restartsIn first (first + milliseconds policy.periodMs)) ≤
    policy.intensity

section History

variable {codec : Codec} {tenant agentExternal : String} {policy : SupervisionPolicy} {w : Watched}
  {step : Step} {log : List (Decision × Step)} {d : Decision × Step}

theorem escalated_append (h : Escalated (log ++ [d])) :
    d.1 = .escalate ∨ Escalated log ∧ d.2.trigger.isManual = false := by
  obtain ⟨before, e, since, hSplit, hEscalate, hSince⟩ := h
  rcases concat_eq_split hSplit with ⟨-, rfl, -⟩ | ⟨front, rfl, rfl⟩
  · exact .inl hEscalate
  · refine .inr ⟨⟨before, e, front, rfl, hEscalate, fun m hM => hSince m ?_⟩, hSince d (by simp)⟩
    exact List.mem_append_left _ hM

theorem Quiet.append (h : Quiet log)
    (hLast : Escalated log → d.2.trigger.isManual = false → d.1 = .suppressed) :
    Quiet (log ++ [d]) := by
  intro before e after hSplit hEscalated hAuto
  rcases concat_eq_split hSplit with ⟨rfl, rfl, -⟩ | ⟨front, rfl, -⟩
  · exact hLast hEscalated hAuto
  · exact h before e front rfl hEscalated hAuto

theorem ordinal_of_restart {agent : AgentRecord} {ordinal : Nat}
    (h : decision agent step = .restart ordinal) : ordinal = agent.supervision.nextOrdinal := by
  unfold decision at h
  revert h
  fun_cases decide agent.manifest.supervision agent.supervision.attempts
    agent.supervision.escalated step.trigger step.now with
  | case1 | case5 =>
    rintro ⟨⟩
    rfl
  | _ => exact nofun

variable (agent : AgentRecord)

theorem attempts_supervised (step : Step) :
    (supervised agent step).supervision.attempts = agent.supervision.attempts ++
        [step.trigger.attempt agent.supervision.nextOrdinal step.now] ∨
      (supervised agent step).supervision.attempts = agent.supervision.attempts ∧
        (decision agent step).isRestart = false := by
  rw [supervised]
  cases hDecision : decision agent step with
  | unsupervised | suppressed => exact .inr ⟨rfl, rfl⟩
  | escalate => exact .inl rfl
  | restart ordinal =>
    rw [ordinal_of_restart hDecision]
    refine .inl ?_
    simp only [restarted]
    split <;> rfl

theorem manifest_supervised (step : Step) : (supervised agent step).manifest = agent.manifest := by
  rw [supervised]
  split <;> rfl

theorem countP_supervised (first last : Instant) :
    ([(decision agent step, step)].countP (restartsIn first last)) + failuresSince agent first ≤
      failuresSince (supervised agent step) first := by
  rw [List.countP_singleton, failuresSince, failuresSince]
  rcases attempts_supervised agent step with hMore | ⟨hSame, hOther⟩
  · rw [hMore, List.countP_append, List.countP_singleton, Nat.add_comm]
    refine Nat.add_le_add_left ?_ _
    split
    · rename_i hIn
      simp only [restartsIn, Bool.and_eq_true, Bool.not_eq_true'] at hIn
      have hKind : step.trigger.kind ≠ .manualRestart := of_decide_eq_false hIn.1.2
      rw [if_pos (by simp [Trigger.attempt, hKind, of_decide_eq_true hIn.2.1])]
    · exact Nat.zero_le _
  · rw [hSame, restartsIn, hOther]
    simp

theorem ordinals_supervised {agent : AgentRecord}
    (h : agent.supervision.attempts.map (·.ordinal) =
      List.range' 1 agent.supervision.attempts.length) :
    (supervised agent step).supervision.attempts.map (·.ordinal) =
      List.range' 1 (supervised agent step).supervision.attempts.length := by
  rcases attempts_supervised agent step with hMore | ⟨hSame, -⟩
  · rw [hMore, List.map_append, h, List.length_append, List.length_singleton, List.range'_concat]
    simp [Trigger.attempt, AgentSupervision.nextOrdinal, Nat.add_comm]
  · rw [hSame, h]

theorem charged_next (h : Charged codec tenant agentExternal policy w) (hStep : w.allowed step) :
    Charged codec tenant agentExternal policy (w.next codec tenant agentExternal step) := by
  obtain ⟨agent, hAgent, hPolicy, hLatch, hOrdinals, hCounts⟩ := h.record
  have hLog : (w.next codec tenant agentExternal step).log =
      w.log ++ [(decision agent step, step)] := by
    rw [Watched.next, hAgent]
    rfl
  have hSuppressed : Escalated w.log → step.trigger.isManual = false →
      decision agent step = .suppressed :=
    fun hEscalated hAuto => decision_of_escalated hPolicy (hLatch hEscalated) hAuto
  refine ⟨sound_next h.sound step,
    ⟨supervised agent step, get?_next h.sound hAgent hPolicy hStep.2, ?_, fun hEscalated => ?_,
      ordinals_supervised hOrdinals, fun first last => ?_⟩, ?_, fun first => ?_⟩
  · rw [← hPolicy, manifest_supervised]
  · rw [hLog] at hEscalated
    rcases escalated_append hEscalated with hNow | ⟨hBefore, hAuto⟩
    · rw [supervised, show decision agent step = .escalate from hNow]
      rfl
    · rw [supervised, hSuppressed hBefore hAuto]
      exact hLatch hBefore
  · rw [hLog, List.countP_append]
    have hCount := hCounts first last
    have hNew := @countP_supervised step agent first last
    unfold failuresSince at hNew
    omega
  · rw [hLog]
    exact h.quiet.append hSuppressed
  · rw [hLog, List.countP_append, List.countP_singleton]
    split
    · -- what the window holds so far is among the failures that were counted
      rename_i hIn
      simp only [restartsIn, Bool.and_eq_true, Bool.not_eq_true', decide_eq_true_eq] at hIn
      have hRoom := room_of_restart hPolicy hIn.1.2 hIn.1.1
      have hBefore := hCounts first (first + milliseconds policy.periodMs)
      have hSub : failuresSince agent first ≤
          failuresSince agent (step.now - milliseconds policy.periodMs) := by
        refine List.countP_mono_left fun a _ hA => ?_
        simp only [Bool.and_eq_true, decide_eq_true_eq] at hA ⊢
        exact ⟨(sub_le_iff_le_add.mpr hIn.2.2).trans hA.1, hA.2⟩
      unfold failuresSince at hSub hRoom
      omega
    · exact h.within first

end History

/-- **The budget holds** over every sequence of triggers. -/
theorem restarts_bounded {codec : Codec} {tenant agentExternal : String} {init : ServerStore}
    (hInit : Sound codec tenant agentExternal init) {agent : AgentRecord}
    (hAgent : init.agents.get? (scopeId tenant agentExternal) = some agent)
    (hFresh : agent.supervision = {}) {policy : SupervisionPolicy}
    (hPolicy : agent.manifest.supervision = some policy) (steps : List Step)
    (hSteps : Admissible (Watched.next codec tenant agentExternal) Watched.allowed ⟨init, []⟩
      steps) :
    let w := run (Watched.next codec tenant agentExternal) ⟨init, []⟩ steps
    (∀ first, w.log.countP (restartsIn first (first + milliseconds policy.periodMs)) ≤
        policy.intensity) ∧
      Quiet w.log ∧
      ∃ record, w.store.agents.get? (scopeId tenant agentExternal) = some record ∧
        record.supervision.attempts.map (·.ordinal) =
          List.range' 1 record.supervision.attempts.length := by
  intro w
  have hStart : Charged codec tenant agentExternal policy ⟨init, []⟩ := by
    refine ⟨hInit, ⟨agent, hAgent, hPolicy, ?_, ?_, fun _ _ => Nat.zero_le _⟩, ?_,
      fun _ => Nat.zero_le _⟩
    · rintro ⟨before, d, since, hSplit, -⟩
      simp at hSplit
    · rw [hFresh]
      rfl
    · intro before d after hSplit
      simp at hSplit
  have hEnd := run_invariant (fun _ _ h hStep => charged_next h hStep) hStart hSteps
  obtain ⟨record, hRecord, -, -, hOrdinals, -⟩ := hEnd.record
  exact ⟨hEnd.within, hEnd.quiet, record, hRecord, hOrdinals⟩

/-- One restart a minute is allowed. -/
def oncePerMinute : SupervisionPolicy := ⟨.permanent, 1, 60000, none⟩

def patientStore : ServerStore :=
  { agents := Index.empty.insert
      { agentId := "worker", manifest := { supervision := some oncePerMinute } } }

/-- Each step is cut off after it has written the record. -/
theorem restarts_bounded_patient :
    (∀ first, (run (Watched.next plainCodec defaultTenant "worker") ⟨patientStore, []⟩
      [failure "a" 1, failure "b" 1, failure "c" 1]).log.countP
        (restartsIn first (first + milliseconds oncePerMinute.periodMs)) ≤
          oncePerMinute.intensity) ∧
      (run (Watched.next plainCodec defaultTenant "worker") ⟨patientStore, []⟩
        [failure "a" 1, failure "b" 1, failure "c" 1]).log.map Prod.fst =
          [.restart 1, .escalate, .suppressed] := by
  have hSound : Sound plainCodec defaultTenant "worker" patientStore := ⟨_, rfl⟩
  have hAgent : patientStore.agents.get? (scopeId defaultTenant "worker") =
      some { agentId := "worker", manifest := { supervision := some oncePerMinute } } := by
    decide +kernel
  have hAll := restarts_bounded hSound hAgent rfl rfl [failure "a" 1, failure "b" 1, failure "c" 1]
    (by decide +kernel)
  refine ⟨hAll.1, ?_⟩
  decide +kernel

end RustyRuntime.Supervision
