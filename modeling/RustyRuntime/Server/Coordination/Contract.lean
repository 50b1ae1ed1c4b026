import RustyRuntime.Library.FirstByKey
import RustyRuntime.Server.Task

/-!
# Coordination contracts

The typed patterns that an agent can submit: delegate, fan-out, race and quorum, with the checks
that a submission passes (`validate`), the merge of a fan-out and the resolution of a quorum's
accepted outputs. The merge and the resolution sort by task id first, so neither depends on the
order in which members finished.

Main results:

* What a valid contract has: at least one member, no two members of one name, a window of at
  least one, a threshold within the member count and a resolver that decides (`validate_ok`).
* **A vote is decided exactly by a strict majority of the outputs it is given**
  (`resolveQuorum_decided_iff`).
-/

namespace RustyRuntime

open Library

/-! ## Contracts -/

structure Delegation where
  member : String
  agentId : String
  manifestVersion : String
  kind : String
  input : PayloadRef
  effect : Effect := .nonIdempotent
  deadline : Option Instant := none
  deriving DecidableEq

/-- `DelegateContract`; the context grant is kept as the JSON it serializes to. -/
structure DelegateContract where
  delegate : Delegation
  context : Option Json := none

inductive MemberFailurePolicy where
  | failFast
  | partialResult
  deriving DecidableEq

structure FanOutContract where
  members : List Delegation
  maxInFlight : Nat
  onMemberFailure : MemberFailurePolicy

structure RaceContract where
  candidates : List Delegation

inductive QuorumResolver where
  | majorityEqual
  | firstK
  | custom (name : String)
  deriving DecidableEq

structure QuorumContract where
  members : List Delegation
  threshold : Nat
  resolver : QuorumResolver

inductive CoordinationKind where
  | delegate
  | fanOut
  | race
  | quorum
  deriving DecidableEq

inductive CoordinationContract where
  | delegate (contract : DelegateContract)
  | fanOut (contract : FanOutContract)
  | race (contract : RaceContract)
  | quorum (contract : QuorumContract)

/-! ## Validation -/

inductive CoordinationViolation where
  | raceEffectNotFreelyRepeatable (member effect : String)
  | emptyMembers (pattern : String)
  | duplicateMember (pattern member : String)
  | maxInFlightZero
  | quorumThresholdOutOfRange (threshold members : Nat)
  | customResolverUnsupported (name : String)
  deriving DecidableEq

/-- The `Display` text of a violation. -/
def CoordinationViolation.message : CoordinationViolation → String
  | .raceEffectNotFreelyRepeatable member effect =>
    s!"race candidate '{member}' declares effect '{effect}', which is not freely repeatable: " ++
      "a race loser may be cancelled at any point, so every candidate must be safe to abandon"
  | .emptyMembers pattern => s!"{pattern} declares no members"
  | .duplicateMember pattern member =>
    s!"{pattern} declares member '{member}' twice; member names label task ids and dispositions " ++
      "and must be unique within a pattern"
  | .maxInFlightZero =>
    "fan-out max_in_flight must be at least 1: the window is the backpressure guarantee, and a " ++
      "zero window can never make progress"
  | .quorumThresholdOutOfRange threshold members =>
    s!"quorum threshold {threshold} is out of range 1..={members}: the threshold is a hard floor " ++
      "and is never silently clamped"
  | .customResolverUnsupported name =>
    s!"custom quorum resolver '{name}' is not supported in wave 3: resolvers are majority_equal " ++
      "and first_k; the custom wire shape is pinned for a later resolver registry"

def duplicateMemberFrom (earlier : List String) : List Delegation → Option String
  | [] => none
  | d :: rest =>
    if d.member ∈ earlier then some d.member else duplicateMemberFrom (d.member :: earlier) rest

def duplicateMember (members : List Delegation) : Option String := duplicateMemberFrom [] members

def validateMembers (pattern : String) (members : List Delegation) :
    Except CoordinationViolation Unit :=
  if members.isEmpty then .error (.emptyMembers pattern)
  else match duplicateMember members with
    | some member => .error (.duplicateMember pattern member)
    | none => .ok ()

def RaceContract.validate (contract : RaceContract) : Except CoordinationViolation Unit := do
  validateMembers "race" contract.candidates
  match contract.candidates.find? (!·.effect.isFreelyRepeatable) with
  | some candidate =>
    throw (.raceEffectNotFreelyRepeatable candidate.member candidate.effect.name)
  | none => return ()

def FanOutContract.validate (contract : FanOutContract) : Except CoordinationViolation Unit := do
  validateMembers "fan_out" contract.members
  if contract.maxInFlight = 0 then throw .maxInFlightZero

def QuorumContract.validate (contract : QuorumContract) : Except CoordinationViolation Unit := do
  validateMembers "quorum" contract.members
  if contract.threshold = 0 ∨ contract.members.length < contract.threshold then
    throw (.quorumThresholdOutOfRange contract.threshold contract.members.length)
  match contract.resolver with
  | .custom name => throw (.customResolverUnsupported name)
  | _ => return ()

namespace CoordinationContract

def kind : CoordinationContract → CoordinationKind
  | .delegate _ => .delegate
  | .fanOut _ => .fanOut
  | .race _ => .race
  | .quorum _ => .quorum

def members : CoordinationContract → List Delegation
  | .delegate c => [c.delegate]
  | .fanOut c => c.members
  | .race c => c.candidates
  | .quorum c => c.members

def validate : CoordinationContract → Except CoordinationViolation Unit
  | .delegate _ => .ok ()
  | .fanOut c => c.validate
  | .race c => c.validate
  | .quorum c => c.validate

end CoordinationContract

variable {members : List Delegation} {tallies : List QuorumTally} {output : Json}

theorem duplicateMemberFrom_eq_none {earlier : List String}
    (h : duplicateMemberFrom earlier members = none) :
    (members.map (·.member)).Nodup ∧ ∀ d ∈ members, d.member ∉ earlier := by
  induction members generalizing earlier with
  | nil => simp
  | cons d rest ih =>
    rw [duplicateMemberFrom] at h
    split at h
    · cases h
    · next hNew =>
      obtain ⟨hNodup, hRest⟩ := ih h
      refine ⟨?_, ?_⟩
      · rw [List.map_cons, List.nodup_cons]
        refine ⟨?_, hNodup⟩
        rintro hIn
        obtain ⟨other, hOther, hSame⟩ := List.mem_map.mp hIn
        exact hRest other hOther (hSame ▸ List.mem_cons_self)
      · intro other hOther hIn
        rcases List.mem_cons.mp hOther with rfl | hOther
        · exact hNew hIn
        · exact hRest other hOther (List.mem_cons_of_mem _ hIn)

theorem validateMembers_eq_ok {pattern : String} (h : validateMembers pattern members = .ok ()) :
    members ≠ [] ∧ (members.map (·.member)).Nodup := by
  unfold validateMembers at h
  split at h
  · cases h
  · next hNe =>
    split at h
    · cases h
    · next hNone =>
      exact ⟨by simpa using hNe, (duplicateMemberFrom_eq_none hNone).1⟩

/-- What a contract that passes its checks has. -/
structure CoordinationContract.Valid (contract : CoordinationContract) : Prop where
  nonempty : contract.members ≠ []
  nodup : (contract.members.map (·.member)).Nodup
  window : ∀ c, contract = .fanOut c → 0 < c.maxInFlight
  threshold : ∀ c, contract = .quorum c → 0 < c.threshold ∧ c.threshold ≤ c.members.length
  resolver : ∀ c, contract = .quorum c → ∀ name, c.resolver ≠ .custom name

theorem validate_ok {contract : CoordinationContract} (h : contract.validate = .ok ()) :
    contract.Valid := by
  cases contract with
  | delegate c => exact ⟨by simp [CoordinationContract.members],
      by simp [CoordinationContract.members], nofun, nofun, nofun⟩
  | fanOut c =>
    obtain ⟨⟨⟩, hMembers, hRest⟩ := bind_eq_ok.mp h
    obtain ⟨hNe, hNodup⟩ := validateMembers_eq_ok hMembers
    refine ⟨hNe, hNodup, ?_, nofun, nofun⟩
    rintro _ ⟨⟩
    by_contra hZero
    rw [if_pos (by omega)] at hRest
    cases hRest
  | race c =>
    obtain ⟨⟨⟩, hMembers, -⟩ := bind_eq_ok.mp h
    obtain ⟨hNe, hNodup⟩ := validateMembers_eq_ok hMembers
    exact ⟨hNe, hNodup, nofun, nofun, nofun⟩
  | quorum c =>
    obtain ⟨⟨⟩, hMembers, hRest⟩ := bind_eq_ok.mp h
    obtain ⟨hNe, hNodup⟩ := validateMembers_eq_ok hMembers
    by_cases hRange : c.threshold = 0 ∨ c.members.length < c.threshold
    · rw [if_pos hRange] at hRest
      cases hRest
    · rw [if_neg hRange] at hRest
      refine ⟨hNe, hNodup, nofun, ?_, ?_⟩
      · rintro _ ⟨⟩
        omega
      · rintro _ ⟨⟩ name hCustom
        rw [hCustom] at hRest
        cases hRest

/-! ## Merging and voting -/

structure QuorumTally where
  output : Json
  votes : Nat
  deriving DecidableEq

inductive QuorumOutcome where
  | decided (output : Json)
  | firstK (outputs : List Json)
  | noMajority (tallies : List QuorumTally)
  deriving DecidableEq

def addVote : List QuorumTally → Json → List QuorumTally
  | [], output => [⟨output, 1⟩]
  | t :: rest, output =>
    if t.output = output then { t with votes := t.votes + 1 } :: rest
    else t :: addVote rest output

def sortTallies (tallies : List QuorumTally) : List QuorumTally :=
  sortByKey (fun t => toLex (OrderDual.toDual t.votes, t.output.text)) tallies

def resolveQuorum (resolver : QuorumResolver) (accepted : List (String × Json)) :
    Except CoordinationViolation QuorumOutcome :=
  let accepted := sortByKey Prod.fst accepted
  match resolver with
  | .firstK => .ok (.firstK (accepted.map Prod.snd))
  | .majorityEqual =>
    let tallies := sortTallies ((accepted.map Prod.snd).foldl addVote [])
    match tallies.head? with
    | some winner =>
      if accepted.length < winner.votes * 2 then .ok (.decided winner.output)
      else .ok (.noMajority tallies)
    | none => .ok (.noMajority tallies)
  | .custom name => .error (.customResolverUnsupported name)

def mergeFanOut (results : List (String × Json)) : List Json :=
  (sortByKey Prod.fst results).map Prod.snd

structure TalliesOf (outputs : List Json) (tallies : List QuorumTally) : Prop where
  nodup : (tallies.map (·.output)).Nodup
  votes : ∀ t ∈ tallies, t.votes = outputs.count t.output
  complete : ∀ output ∈ outputs, ∃ t ∈ tallies, t.output = output

theorem outputs_addVote (tallies : List QuorumTally) (output : Json) :
    (addVote tallies output).map (·.output) =
      if output ∈ tallies.map (·.output) then tallies.map (·.output)
      else tallies.map (·.output) ++ [output] := by
  induction tallies with
  | nil => rfl
  | cons t rest ih =>
    rw [addVote]
    by_cases hSame : t.output = output
    · simp [hSame]
    · rw [if_neg hSame, List.map_cons, ih]
      by_cases hIn : output ∈ rest.map (·.output)
      · simp [hIn]
      · have hNe : ¬ output = t.output := fun hEq => hSame hEq.symm
        simp [hIn, hNe]

theorem votes_addVote {t : QuorumTally} (hNodup : (tallies.map (·.output)).Nodup)
    (hT : t ∈ addVote tallies output) :
    (∃ s ∈ tallies, s.output = t.output ∧
      t.votes = s.votes + if t.output = output then 1 else 0) ∨
      t = ⟨output, 1⟩ ∧ output ∉ tallies.map (·.output) := by
  induction tallies with
  | nil =>
    rw [addVote, List.mem_singleton] at hT
    exact .inr ⟨hT, List.not_mem_nil⟩
  | cons s rest ih =>
    rw [List.map_cons, List.nodup_cons] at hNodup
    rw [addVote] at hT
    by_cases hSame : s.output = output
    · rw [if_pos hSame] at hT
      rcases List.mem_cons.mp hT with rfl | hRest
      · exact .inl ⟨s, List.mem_cons_self, rfl, by simp [hSame]⟩
      · have hOther : t.output ≠ output := by
          rintro hEq
          exact hNodup.1 (hSame.trans hEq.symm ▸ List.mem_map_of_mem hRest)
        exact .inl ⟨t, List.mem_cons_of_mem _ hRest, rfl, by simp [hOther]⟩
    · rw [if_neg hSame] at hT
      rcases List.mem_cons.mp hT with rfl | hRest
      · exact .inl ⟨t, List.mem_cons_self, rfl, by simp [hSame]⟩
      · rcases ih hNodup.2 hRest with ⟨u, hU, hEq, hVotes⟩ | ⟨rfl, hNew⟩
        · exact .inl ⟨u, List.mem_cons_of_mem _ hU, hEq, hVotes⟩
        · refine .inr ⟨rfl, ?_⟩
          rw [List.map_cons, List.mem_cons, not_or]
          exact ⟨fun hEq => hSame hEq.symm, hNew⟩

theorem TalliesOf.addVote {outputs : List Json} (h : TalliesOf outputs tallies) (output : Json) :
    TalliesOf (outputs ++ [output]) (addVote tallies output) where
  nodup := by
    rw [outputs_addVote]
    split
    · exact h.nodup
    · next hNew =>
      exact List.nodup_append.mpr ⟨h.nodup, List.nodup_singleton _, by
        rintro a hA b hB rfl
        exact hNew (List.mem_singleton.mp hB ▸ hA)⟩
  votes t hT := by
    rcases votes_addVote h.nodup hT with ⟨s, hS, hEq, hVotes⟩ | ⟨rfl, hNew⟩
    · rw [hVotes, h.votes s hS, hEq]
      by_cases hSame : t.output = output
      · simp [hSame]
      · have hNe : ¬ output = t.output := fun hEq => hSame hEq.symm
        simp [hSame, hNe]
    · have hZero : outputs.count output = 0 := by
        rw [List.count_eq_zero]
        intro hIn
        obtain ⟨t, hT, hEq⟩ := h.complete output hIn
        exact hNew (hEq ▸ List.mem_map_of_mem hT)
      simp [hZero]
  complete other hOther := by
    have hIn : other ∈ (RustyRuntime.addVote tallies output).map (·.output) := by
      rw [outputs_addVote]
      rcases List.mem_append.mp hOther with hOld | hLast
      · obtain ⟨t, hT, rfl⟩ := h.complete other hOld
        split
        · exact List.mem_map_of_mem hT
        · exact List.mem_append_left _ (List.mem_map_of_mem hT)
      · rw [List.mem_singleton.mp hLast]
        split
        · next hKnown => exact hKnown
        · exact List.mem_append_right _ (List.mem_singleton.mpr rfl)
    obtain ⟨t, hT, hEq⟩ := List.mem_map.mp hIn
    exact ⟨t, hT, hEq⟩

theorem talliesOf_foldl (outputs : List Json) : TalliesOf outputs (outputs.foldl addVote []) := by
  induction outputs using List.reverseRecOn with
  | nil => exact ⟨List.nodup_nil, nofun, nofun⟩
  | append_singleton front last ih =>
    rw [List.foldl_append]
    exact ih.addVote last

theorem count_add_count_le (outputs : List Json) {a b : Json} (h : a ≠ b) :
    outputs.count a + outputs.count b ≤ outputs.length := by
  induction outputs with
  | nil => simp
  | cons c rest ih =>
    rw [List.count_cons, List.count_cons, List.length_cons]
    by_cases hA : c = a
    · have hB : ¬ c = b := fun hB => h (hA.symm.trans hB)
      simp only [hA, beq_self_eq_true, if_true, beq_iff_eq, h, if_false]
      omega
    · simp only [beq_iff_eq, hA, if_false]
      split <;> omega

/-- **A vote is decided exactly by a strict majority of the outputs it is given.** -/
theorem resolveQuorum_decided_iff {accepted : List (String × Json)} :
    resolveQuorum .majorityEqual accepted = .ok (.decided output) ↔
      accepted.length < 2 * (accepted.map Prod.snd).count output := by
  have hPerm := sortByKey_perm Prod.fst accepted
  rw [← hPerm.length_eq, ← (hPerm.map Prod.snd).count_eq]
  simp only [resolveQuorum]
  generalize sortByKey Prod.fst accepted = sorted
  have hTallies := talliesOf_foldl (sorted.map Prod.snd)
  -- the first tally has the most votes
  have hMost : ∀ winner, (sortTallies ((sorted.map Prod.snd).foldl addVote [])).head? =
      some winner → winner ∈ (sorted.map Prod.snd).foldl addVote [] ∧
        ∀ t ∈ (sorted.map Prod.snd).foldl addVote [], t.votes ≤ winner.votes := by
    intro winner hHead
    rw [sortTallies, ← minByKey_eq_head?] at hHead
    refine ⟨mem_of_minByKey hHead, fun t hT => ?_⟩
    have hLe := List.le_of_mem_argmin hT hHead
    rcases Prod.Lex.toLex_le_toLex.mp hLe with hLt | ⟨hEq, -⟩
    · exact (OrderDual.toDual_lt_toDual.mp hLt).le
    · exact (OrderDual.toDual_inj.mp hEq).ge
  constructor
  · intro hDecided
    split at hDecided
    · next winner hHead =>
      split at hDecided
      · next hMajority =>
        cases hDecided
        rw [← hTallies.votes winner (hMost winner hHead).1]
        omega
      · cases hDecided
    · cases hDecided
  · intro hMajority
    have hIn : output ∈ sorted.map Prod.snd := by
      by_contra hOut
      rw [List.count_eq_zero.mpr hOut] at hMajority
      omega
    obtain ⟨t, hT, rfl⟩ := hTallies.complete output hIn
    split
    · next winner hHead =>
      obtain ⟨hWinner, hMax⟩ := hMost winner hHead
      have hVotes := hTallies.votes winner hWinner
      have hLe := hMax t hT
      rw [hTallies.votes t hT] at hLe
      rw [if_pos (by omega)]
      by_cases hSame : winner.output = t.output
      · rw [hSame]
      · have hShare := count_add_count_le (sorted.map Prod.snd) hSame
        rw [List.length_map] at hShare
        omega
    · next hNone =>
      rw [sortTallies, ← minByKey_eq_head?, minByKey_eq_none] at hNone
      rw [hNone] at hT
      cases hT

end RustyRuntime
