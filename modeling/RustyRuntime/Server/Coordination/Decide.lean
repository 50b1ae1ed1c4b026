import RustyRuntime.Server.Coordination.Contract

/-!
# The settle decision

`decide_settle` looks at the members of a coordination and the tasks that the queue has for them,
and says whether the pattern is over and with which outcome. A race goes to the earliest
completion and a quorum accepts the first `k` completions; both compare the times at which the
task records were last written, and completions of the same time stand in the order of the member
list.

The decision finds the task of a disposition by the member's name. With distinct names it finds
the member's own (`find?_memberState`), so what the decision sees is one completion for each
member that has completed (`completions_observed`).
-/

namespace RustyRuntime

open Library

/-! ## Records -/

structure MemberRecord where
  member : String
  agentId : String
  manifestVersion : String
  taskId : String
  submitted : Bool := false
  deriving DecidableEq

inductive MemberSettlement where
  | completed
  | failed
  | dead
  | cancelled
  deriving DecidableEq

structure MemberDisposition where
  member : String
  taskId : String
  settlement : MemberSettlement
  result : Option PayloadRef := none
  errorClass : Option ErrorClass := none
  error : Option String := none
  tokens : Option Usage := none
  costUsd : Option Rat := none
  deriving DecidableEq

inductive CoordinationStatus where
  | completed
  | failed
  | cancelled
  | unreachable
  deriving DecidableEq

structure QuorumResolverRecord where
  resolver : QuorumResolver
  inputs : List Json
  output : Option Json
  decided : Bool
  deriving DecidableEq

structure CoordinationOutcome where
  coordinationId : String
  pattern : CoordinationKind
  status : CoordinationStatus
  result : Option PayloadRef
  members : List MemberDisposition
  wastedTokens : Option Nat
  wastedCostUsd : Option Rat
  resolver : Option QuorumResolverRecord

structure CoordinationRecord where
  coordinationId : String
  delegator : Option String := none
  parent : Option String := none
  contract : CoordinationContract
  members : List MemberRecord
  settled : Bool := false
  outcome : Option CoordinationOutcome := none
  outcomeDelivered : Bool := false
  dlqWritten : Bool := false
  createdAt : Instant
  updatedAt : Instant

structure MemberState where
  task : Option TaskRecord
  disposition : Option MemberDisposition

structure SettlePlan where
  status : CoordinationStatus
  result : Option PayloadRef := none
  resolver : Option QuorumResolverRecord := none
  contributing : Finset String := ∅
  needsDlq : Bool := false
  deriving DecidableEq

def TaskRecord.settlement (task : TaskRecord) : Option MemberSettlement :=
  match task.status with
  | .completed => some .completed
  | .cancelled => some .cancelled
  | .dead => some .dead
  | .failed => if task.nextAttemptAt.isNone then some .failed else none
  | .queued | .leased => none

def dispositionOf (member : MemberRecord) (task : TaskRecord) : Option MemberDisposition :=
  task.settlement.map fun settlement =>
    { member := member.member
      taskId := member.taskId
      settlement
      result := task.result.map .inline
      errorClass := task.errorClass
      error := task.lastError
      tokens := task.tokens
      costUsd := task.costUsd }

/-! ## The decision -/

variable (states : List MemberState)

def terminal : List MemberDisposition :=
  states.filterMap (·.disposition)

def completedOf : List MemberDisposition :=
  (terminal states).filter (·.settlement = .completed)

/-- The completed members with the time at which their task record was last written. -/
def completions : List (Instant × MemberDisposition) :=
  (completedOf states).filterMap fun d =>
    ((states.find? fun state => state.disposition.any (·.member = d.member)).bind
      (·.task)).map fun task => (task.updatedAt, d)

section

variable (record : CoordinationRecord) (tasks : String → Option TaskRecord)

def MemberDisposition.output (d : MemberDisposition) : Option (String × Json) :=
  match d.result with
  | some (.inline value) => some (d.taskId, value)
  | _ => none

def namesOf (ds : List MemberDisposition) : Finset String := (ds.map (·.member)).toFinset

def decideDelegate : Option SettlePlan := do
  let disposition ← (← states.head?).disposition
  match disposition.settlement with
  | .completed =>
    some { status := .completed, result := disposition.result,
           contributing := namesOf [disposition] }
  | .cancelled => some { status := .cancelled }
  | .failed | .dead => some { status := .failed }

def decideFanOut (contract : FanOutContract) (allTerminal : Bool) (states : List MemberState) :
    Option SettlePlan :=
  let failed := (terminal states).any fun d => d.settlement = .failed || d.settlement = .dead
  if contract.onMemberFailure = .failFast && failed then some { status := .failed }
  else if !allTerminal then none
  else
    let results := (completedOf states).filterMap (·.output)
    some { status := .completed, result := some (.inline (.arr (mergeFanOut results))),
           contributing := namesOf (completedOf states) }

def decideRace (allTerminal : Bool) (states : List MemberState) : Option SettlePlan :=
  match minByKey Prod.fst (completions states) with
  | some (_, winner) =>
    some { status := .completed, result := winner.result, contributing := namesOf [winner] }
  | none => if allTerminal then some { status := .failed, needsDlq := true } else none

def QuorumOutcome.recorded : QuorumOutcome → Option Json × Bool × Option PayloadRef
  | .decided output => (some output, true, some (.inline output))
  | .firstK outputs => (some (.arr outputs), true, some (.inline (.arr outputs)))
  | .noMajority _ => (none, false, none)

def acceptPlan (contract : QuorumContract) (accepted : List (Instant × MemberDisposition)) :
    Option SettlePlan :=
  let inputs := accepted.filterMap fun (_, d) => d.output
  match resolveQuorum contract.resolver inputs with
  | .error _ => none
  | .ok outcome =>
    let (output, decided, result) := outcome.recorded
    some
      { status := .completed
        result
        resolver := some ⟨contract.resolver, inputs.map Prod.snd, output, decided⟩
        contributing := namesOf (accepted.map Prod.snd) }

def decideQuorum (contract : QuorumContract) (members : Nat) (states : List MemberState) :
    Option SettlePlan :=
  let k := contract.threshold
  let accepted := sortByKey Prod.fst (completions states)
  if k ≤ accepted.length then acceptPlan contract (accepted.take k)
  else
    let impossible := (terminal states).countP (·.settlement ≠ .completed)
    if members - impossible < k then some { status := .unreachable } else none

def decideSettle (states : List MemberState) : Option SettlePlan :=
  let allSubmitted := record.members.all (·.submitted)
  let allTerminal := allSubmitted && (terminal states).length = record.members.length
  match record.contract with
  | .delegate _ => decideDelegate states
  | .fanOut contract => decideFanOut contract allTerminal states
  | .race _ => decideRace allTerminal states
  | .quorum contract => decideQuorum contract record.members.length states

/-! ## What a drive passes to it -/

def memberState (m : MemberRecord) : MemberState :=
  ⟨tasks m.taskId, (tasks m.taskId).bind (dispositionOf m)⟩

structure CoordinationRecord.Driven (record : CoordinationRecord)
    (tasks : String → Option TaskRecord) : Prop where
  valid : record.contract.validate = .ok ()
  names : record.members.map (·.member) = record.contract.members.map (·.member)
  taskIds : (record.members.map (·.taskId)).Nodup
  submitted : ∀ m ∈ record.members, (tasks m.taskId).isSome → m.submitted

def CoordinationRecord.decision : Option SettlePlan :=
  decideSettle record (record.members.map (memberState tasks))

def completion (m : MemberRecord) : Option (Instant × MemberDisposition) :=
  (tasks m.taskId).bind fun t => (dispositionOf m t).bind fun d =>
    if d.settlement = .completed then some (t.updatedAt, d) else none

end

variable {tasks : String → Option TaskRecord} {record : CoordinationRecord}
  {members : List MemberRecord} {m : MemberRecord} {t : TaskRecord} {d : MemberDisposition}

theorem dispositionOf_eq_some : dispositionOf m t = some d →
    d.member = m.member ∧ d.taskId = m.taskId ∧ d.result = t.result.map .inline ∧
      t.settlement = some d.settlement := by
  intro h
  obtain ⟨settlement, hSettlement, rfl⟩ := Option.map_eq_some_iff.mp h
  exact ⟨rfl, rfl, rfl, hSettlement⟩

theorem settlement_eq_completed : t.settlement = some .completed ↔ t.status = .completed := by
  unfold TaskRecord.settlement
  cases t.status with
  | failed =>
    simp only
    split <;> simp
  | _ => simp

theorem completion_eq_some {at' : Instant} : completion tasks m = some (at', d) ↔
    ∃ t, tasks m.taskId = some t ∧ t.status = .completed ∧ dispositionOf m t = some d ∧
      t.updatedAt = at' := by
  simp only [completion, Option.bind_eq_some_iff]
  constructor
  · rintro ⟨t, hTask, d', hD, hIf⟩
    split at hIf
    · next hCompleted =>
      cases hIf
      exact ⟨t, hTask, settlement_eq_completed.mp (hCompleted ▸ (dispositionOf_eq_some hD).2.2.2),
        hD, rfl⟩
    · cases hIf
  · rintro ⟨t, hTask, hStatus, hD, rfl⟩
    refine ⟨t, hTask, d, hD, ?_⟩
    have hSettled := (dispositionOf_eq_some hD).2.2.2
    rw [settlement_eq_completed.mpr hStatus] at hSettled
    rw [if_pos (Option.some.inj hSettled).symm]

theorem member_of_completion {c : Instant × MemberDisposition}
    (h : completion tasks m = some c) : c.2.member = m.member ∧ c.2.taskId = m.taskId := by
  obtain ⟨t, -, -, hD, -⟩ := completion_eq_some.mp h
  exact ⟨(dispositionOf_eq_some hD).1, (dispositionOf_eq_some hD).2.1⟩

theorem find?_memberState (hNodup : (members.map (·.member)).Nodup) (hM : m ∈ members)
    (hD : (memberState tasks m).disposition = some d) :
    (members.map (memberState tasks)).find?
      (fun state => state.disposition.any (·.member = d.member)) = some (memberState tasks m) := by
  have hName : ∀ other d', (memberState tasks other).disposition = some d' →
      d'.member = other.member := by
    intro other d' hD'
    obtain ⟨t, -, hT⟩ := Option.bind_eq_some_iff.mp hD'
    exact (dispositionOf_eq_some hT).1
  rw [List.find?_map, Option.map_eq_some_iff]
  refine ⟨m, ?_, rfl⟩
  have hFound : (members.find? ((fun state => state.disposition.any (·.member = d.member)) ∘
      memberState tasks)).isSome := by
    rw [List.find?_isSome]
    exact ⟨m, hM, by simp [hD]⟩
  obtain ⟨other, hOther⟩ := Option.isSome_iff_exists.mp hFound
  rw [hOther]
  have hHas := List.find?_some hOther
  simp only [Function.comp_apply, Option.any_eq_true, decide_eq_true_eq] at hHas
  obtain ⟨d', hD', hSame⟩ := hHas
  have hEq : other.member = m.member := by
    rw [← hName other d' hD', hSame, hName m d hD]
  rw [List.inj_on_of_nodup_map hNodup (List.mem_of_find?_eq_some hOther) hM hEq]

theorem terminal_observed : terminal (members.map (memberState tasks)) =
    members.filterMap fun m => (tasks m.taskId).bind (dispositionOf m) := by
  rw [terminal, List.filterMap_map]
  rfl

theorem completions_observed (hNodup : (members.map (·.member)).Nodup) :
    completions (members.map (memberState tasks)) = members.filterMap (completion tasks) := by
  rw [completions, completedOf, terminal_observed, List.filter_filterMap, List.filterMap_filterMap]
  refine List.filterMap_congr fun m hM => ?_
  cases hTask : tasks m.taskId with
  | none => simp [completion, hTask]
  | some t =>
    cases hD : dispositionOf m t with
    | none => simp [completion, hTask, hD]
    | some d =>
      have hState : (memberState tasks m).disposition = some d := by
        simp [memberState, hTask, hD]
      by_cases hCompleted : d.settlement = .completed
      · have hKept : (some d).filter (fun d => decide (d.settlement = .completed)) = some d := by
          simp [Option.filter, hCompleted]
        simp only [Option.bind_some, hD, hKept, find?_memberState hNodup hM hState]
        simp [completion, memberState, hTask, hD, hCompleted]
      · simp [completion, hTask, hD, hCompleted]

end RustyRuntime
