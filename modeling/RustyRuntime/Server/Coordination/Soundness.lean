import RustyRuntime.Library.FirstSeen
import RustyRuntime.Server.Coordination.Decide
import RustyRuntime.Server.Coordination.Ids
import RustyRuntime.Server.TaskLife

/-!
# Soundness of the settle decision

Main results:

* **When a decision is sound** (`decision_sound_iff`): it is made once all members are terminal,
  keeps to the threshold, follows a majority of the accepted members, calls a threshold
  unreachable exactly when it is, names the earliest completion, and is the same for every order
  of the members, if and only if no tie decides and no accepted member without a result turns a
  minority into a majority.
* The order of the members matters only through completions of the same time (`orderFree_iff`).
* A tie that decides a race, and a majority of one among three
  (`decided_by_tie_and_by_minority`).
-/

namespace RustyRuntime

open Library

variable {tasks : String → Option TaskRecord} {record : CoordinationRecord}
  {members : List MemberRecord} {m : MemberRecord} {d : MemberDisposition}

/-! ## Soundness -/

inductive CoordinationContract.Reordered : CoordinationContract → CoordinationContract → Prop
  | delegate (c : DelegateContract) : Reordered (.delegate c) (.delegate c)
  | fanOut (c : FanOutContract) {members : List Delegation} (h : members.Perm c.members) :
    Reordered (.fanOut c) (.fanOut { c with members })
  | race (c : RaceContract) {candidates : List Delegation} (h : candidates.Perm c.candidates) :
    Reordered (.race c) (.race { c with candidates })
  | quorum (c : QuorumContract) {members : List Delegation} (h : members.Perm c.members) :
    Reordered (.quorum c) (.quorum { c with members })

structure CoordinationRecord.Reordered (record record' : CoordinationRecord) : Prop where
  contract : record.contract.Reordered record'.contract
  members : record'.members.Perm record.members
  names : record'.members.map (·.member) = record'.contract.members.map (·.member)

section

variable (record : CoordinationRecord) (tasks : String → Option TaskRecord)

def canComplete (m : MemberRecord) : Bool :=
  ((tasks m.taskId).bind (dispositionOf m)).all (·.settlement = .completed)

structure SoundDecision (record : CoordinationRecord) (tasks : String → Option TaskRecord) :
    Prop where
  settles : (∀ m ∈ record.members, (memberState tasks m).disposition.isSome) →
    (record.decision tasks).isSome
  floor : ∀ c, record.contract = .quorum c → ∀ plan, record.decision tasks = some plan →
    plan.status = .completed → c.threshold ≤ (record.members.filterMap (completion tasks)).length
  majority : ∀ plan vote, record.decision tasks = some plan → plan.resolver = some vote →
    vote.resolver = .majorityEqual → vote.decided → ∃ output, vote.output = some output ∧
      ∃ voters ⊆ plan.contributing, plan.contributing.card < 2 * voters.card ∧
        ∀ name ∈ voters, ∃ m ∈ record.members, m.member = name ∧
          (tasks m.taskId).bind (·.result) = some output
  unreachable : ∀ c, record.contract = .quorum c →
    ((∃ plan, record.decision tasks = some plan ∧ plan.status = .unreachable) ↔
      record.members.countP (canComplete tasks) < c.threshold)
  earliest : ∀ c, record.contract = .race c → ∀ m ∈ record.members,
    (completion tasks m).isSome → ∃ winner ∈ record.members, ∃ c, completion tasks winner = some c ∧
      record.decision tasks = some { status := .completed, result := c.2.result,
                                     contributing := {winner.member} } ∧
        ∀ other ∈ record.members, ∀ c', completion tasks other = some c' → c.1 ≤ c'.1
  orderFree : ∀ record', record.Reordered record' →
    record'.decision tasks = record.decision tasks

/-- The value that a completion contributes. -/
def valueOf (c : Instant × MemberDisposition) : Option Json := c.2.output.map Prod.snd

/-- No completions of the same time decide: the earliest completion of a race is the only one of
its time, and the first `k` of a quorum are settled by their times, up to values that agree. -/
def CoordinationRecord.TieFree : Prop :=
  match record.contract with
  | .race _ => Decided 1 Prod.fst (fun _ => (none : Option Json))
      (record.members.filterMap (completion tasks))
  | .quorum c => c.threshold ≤ (record.members.filterMap (completion tasks)).length →
      Decided c.threshold Prod.fst valueOf (record.members.filterMap (completion tasks))
  | _ => True

/-- The values of the accepted completions of a quorum. -/
def CoordinationRecord.ballots (k : Nat) : List Json :=
  (firstByKey k Prod.fst (record.members.filterMap (completion tasks))).filterMap valueOf

def CoordinationRecord.ClearVote : Prop :=
  ∀ c, record.contract = .quorum c → c.resolver = .majorityEqual →
    c.threshold ≤ (record.members.filterMap (completion tasks)).length →
      ∀ value, (record.ballots tasks c.threshold).length <
          2 * (record.ballots tasks c.threshold).count value →
        c.threshold < 2 * (record.ballots tasks c.threshold).count value

end

/-! ## The decision of each pattern -/

theorem nodup_map_filterMap {α β γ : Type} {f : α → Option β} {g : β → γ} {h : α → γ}
    (hName : ∀ a b, f a = some b → g b = h a) {xs : List α} (hNodup : (xs.map h).Nodup) :
    ((xs.filterMap f).map g).Nodup := by
  refine hNodup.sublist ?_
  induction xs with
  | nil => exact List.Sublist.slnil
  | cons a rest ih =>
    have hRest := ih (List.nodup_cons.mp hNodup).2
    cases hA : f a with
    | none =>
      rw [List.filterMap_cons_none hA]
      exact hRest.cons _
    | some b =>
      rw [List.filterMap_cons_some hA, List.map_cons, hName a b hA]
      exact hRest.cons_cons _

theorem CoordinationRecord.Driven.nodup (h : record.Driven tasks) :
    (record.members.map (·.member)).Nodup := by
  rw [h.names]
  exact (validate_ok h.valid).nodup

theorem nodup_names_completions (hNodup : (members.map (·.member)).Nodup) :
    ((members.filterMap (completion tasks)).map (·.2.member)).Nodup :=
  nodup_map_filterMap (fun _ _ hC => (member_of_completion hC).1) hNodup

theorem completion_injOn (hNodup : (members.map (·.member)).Nodup)
    {a b : Instant × MemberDisposition} (hA : a ∈ members.filterMap (completion tasks))
    (hB : b ∈ members.filterMap (completion tasks)) (hSame : a.2.member = b.2.member) : a = b :=
  List.inj_on_of_nodup_map (nodup_names_completions hNodup) hA hB hSame

theorem length_terminal (h : ∀ m ∈ members, (memberState tasks m).disposition.isSome) :
    (terminal (members.map (memberState tasks))).length = members.length := by
  rw [terminal_observed]
  exact List.filterMap_length_eq_length.mpr h

theorem decision_race (hNodup : (record.members.map (·.member)).Nodup) {c : RaceContract}
    (hC : record.contract = .race c) :
    record.decision tasks =
      match minByKey Prod.fst (record.members.filterMap (completion tasks)) with
      | some (_, winner) => some { status := .completed, result := winner.result,
                                   contributing := {winner.member} }
      | none =>
        if record.members.all (·.submitted) &&
            (terminal (record.members.map (memberState tasks))).length = record.members.length
        then some { status := .failed, needsDlq := true } else none := by
  simp only [CoordinationRecord.decision, decideSettle, hC, decideRace, completions_observed hNodup]
  rfl

variable {c : QuorumContract} {plan : SettlePlan} {others : List MemberRecord}
  {record' : CoordinationRecord} {vote : QuorumResolverRecord}

theorem decision_quorum (hNodup : (record.members.map (·.member)).Nodup)
    (hC : record.contract = .quorum c) :
    record.decision tasks =
      if c.threshold ≤ (record.members.filterMap (completion tasks)).length then
        acceptPlan c (firstByKey c.threshold Prod.fst
          (record.members.filterMap (completion tasks)))
      else if record.members.countP (canComplete tasks) < c.threshold then
        some { status := .unreachable }
      else none := by
  have hLeft : record.members.length - (terminal (record.members.map (memberState tasks))).countP
      (·.settlement ≠ .completed) = record.members.countP (canComplete tasks) := by
    rw [terminal_observed, List.countP_filterMap]
    have hSplit := List.length_eq_countP_add_countP (canComplete tasks) (l := record.members)
    have hLost : record.members.countP (fun m => (((tasks m.taskId).bind (dispositionOf m)).map
        (fun d => decide (d.settlement ≠ .completed))).getD false) =
        record.members.countP (fun m => ¬ canComplete tasks m) := by
      refine List.countP_congr fun m _ => ?_
      cases hD : (tasks m.taskId).bind (dispositionOf m) with
      | none | some d => simp [canComplete, hD]
    omega
  simp only [CoordinationRecord.decision, decideSettle, hC, decideQuorum,
    completions_observed hNodup, hLeft, (sortByKey_perm _ _).length_eq]
  rfl

theorem decision_fanOut {c : FanOutContract} (hC : record.contract = .fanOut c) :
    record.decision tasks =
      decideFanOut c (record.members.all (·.submitted) &&
        (terminal (record.members.map (memberState tasks))).length = record.members.length)
        (record.members.map (memberState tasks)) := by
  simp only [CoordinationRecord.decision, decideSettle, hC]

/-! ## Accepting a quorum -/

theorem resolveQuorum_isOk {resolver : QuorumResolver} (h : ∀ name, resolver ≠ .custom name)
    (inputs : List (String × Json)) : ∃ outcome, resolveQuorum resolver inputs = .ok outcome := by
  cases resolver with
  | majorityEqual =>
    simp only [resolveQuorum]
    (repeat' split) <;> exact ⟨_, rfl⟩
  | firstK => exact ⟨_, rfl⟩
  | custom name => exact (h name rfl).elim

theorem resolveQuorum_perm (resolver : QuorumResolver) {first second : List (String × Json)}
    (hNodup : (first.map Prod.fst).Nodup) (hPerm : first.Perm second) :
    resolveQuorum resolver first = resolveQuorum resolver second := by
  have hSorted : sortByKey Prod.fst first = sortByKey Prod.fst second :=
    sortByKey_eq_of_perm (fun a hA b hB hSame => List.inj_on_of_nodup_map hNodup hA hB hSame) hPerm
  simp only [resolveQuorum, hSorted]

theorem values_eq_filterMap (accepted : List (Instant × MemberDisposition)) :
    (accepted.filterMap fun (_, d) => d.output).map Prod.snd = accepted.filterMap valueOf := by
  rw [List.map_filterMap]
  rfl

theorem taskId_of_output {value : String × Json} (h : d.output = some value) :
    value.1 = d.taskId := by
  unfold MemberDisposition.output at h
  split at h
  · cases h
    rfl
  · cases h

theorem nodup_taskIds (hIds : (members.map (·.taskId)).Nodup) (k : Nat) :
    (((firstByKey k Prod.fst (members.filterMap (completion tasks))).filterMap
      fun (_, d) => d.output).map Prod.fst).Nodup := by
  refine nodup_map_filterMap (h := fun c => c.2.taskId) (fun _ _ hC => taskId_of_output hC) ?_
  have hAll : ((members.filterMap (completion tasks)).map (·.2.taskId)).Nodup :=
    nodup_map_filterMap (fun _ _ hC => (member_of_completion hC).2) hIds
  refine List.Nodup.sublist ?_ (((sortByKey_perm Prod.fst _).map _).nodup_iff.mpr hAll)
  exact (List.take_sublist k _).map _

theorem mem_namesOf {ds : List MemberDisposition} {name : String} :
    name ∈ namesOf ds ↔ ∃ d ∈ ds, d.member = name := by
  simp [namesOf]

theorem acceptPlan_eq_some {accepted : List (Instant × MemberDisposition)}
    (h : acceptPlan c accepted = some plan) :
    plan.status = .completed ∧ plan.contributing = namesOf (accepted.map Prod.snd) ∧
      ∃ outcome, resolveQuorum c.resolver (accepted.filterMap fun (_, d) => d.output) =
          .ok outcome ∧
        plan.resolver = some ⟨c.resolver, accepted.filterMap valueOf, outcome.recorded.1,
          outcome.recorded.2.1⟩ := by
  simp only [acceptPlan] at h
  split at h
  · cases h
  · next outcome hOutcome =>
    cases h
    refine ⟨rfl, rfl, outcome, hOutcome, ?_⟩
    rw [values_eq_filterMap]

theorem acceptPlan_isSome (hResolver : ∀ name, c.resolver ≠ .custom name)
    (accepted : List (Instant × MemberDisposition)) : (acceptPlan c accepted).isSome := by
  obtain ⟨outcome, hOutcome⟩ := resolveQuorum_isOk hResolver
    (accepted.filterMap fun (_, d) => d.output)
  simp [acceptPlan, hOutcome]

theorem acceptPlan_congr {first second : List (Instant × MemberDisposition)}
    (hNodup : ((first.filterMap fun (_, d) => d.output).map Prod.fst).Nodup)
    (hPerm : first.Perm second) (hValues : first.filterMap valueOf = second.filterMap valueOf) :
    acceptPlan c first = acceptPlan c second := by
  have hResolved := resolveQuorum_perm c.resolver hNodup (hPerm.filterMap _)
  have hNames : namesOf (first.map Prod.snd) = namesOf (second.map Prod.snd) := by
    ext name
    simp only [mem_namesOf, (hPerm.map Prod.snd).mem_iff]
  simp only [acceptPlan, hResolved, values_eq_filterMap, hValues, hNames]

theorem mem_of_mem_namesOf {k : Nat} (hNodup : (members.map (·.member)).Nodup)
    {c : Instant × MemberDisposition} (hC : c ∈ members.filterMap (completion tasks))
    (hPerm : others.Perm members) (hName : c.2.member ∈ namesOf ((firstByKey k Prod.fst
      (others.filterMap (completion tasks))).map Prod.snd)) :
    c ∈ firstByKey k Prod.fst (others.filterMap (completion tasks)) := by
  obtain ⟨d, hD, hSame⟩ := mem_namesOf.mp hName
  obtain ⟨c', hC', rfl⟩ := List.mem_map.mp hD
  have hIn : c' ∈ members.filterMap (completion tasks) :=
    (hPerm.filterMap _).mem_iff.mp (mem_of_mem_firstByKey hC')
  rw [completion_injOn hNodup hC hIn hSame.symm]
  exact hC'

/-! ## Reordering -/

section Reorder

variable (hNames : record.members.map (·.member) = record.contract.members.map (·.member))
  (hPerm : members.Perm record.members)

include hNames hPerm

/-- An order of the members is an order of the delegations that they come from. -/
theorem exists_delegations : ∃ delegations : List Delegation,
    delegations.Perm record.contract.members ∧
      delegations.map (·.member) = members.map (·.member) := by
  have hOrder := hPerm.map (·.member)
  rw [hNames] at hOrder
  exact exists_perm_map hOrder

theorem exists_reordered_quorum (hC : record.contract = .quorum c) :
    ∃ record' c', record.Reordered record' ∧ record'.members = members ∧
      record'.contract = .quorum c' ∧ c'.threshold = c.threshold ∧ c'.resolver = c.resolver := by
  obtain ⟨delegations, hDelegations, hSame⟩ := exists_delegations hNames hPerm
  rw [hC] at hDelegations
  refine ⟨{ record with members, contract := .quorum { c with members := delegations } },
    { c with members := delegations }, ⟨?_, hPerm, hSame.symm⟩, rfl, rfl, rfl, rfl⟩
  rw [hC]
  exact .quorum c hDelegations

theorem exists_reordered_race {c : RaceContract} (hC : record.contract = .race c) :
    ∃ record' c', record.Reordered record' ∧ record'.members = members ∧
      record'.contract = .race c' := by
  obtain ⟨delegations, hDelegations, hSame⟩ := exists_delegations hNames hPerm
  rw [hC] at hDelegations
  refine ⟨{ record with members, contract := .race { c with candidates := delegations } },
    { c with candidates := delegations }, ⟨?_, hPerm, hSame.symm⟩, rfl, rfl⟩
  rw [hC]
  exact .race c hDelegations

end Reorder

namespace CoordinationContract.Reordered

variable {contract : CoordinationContract}

theorem of_quorum (h : Reordered (.quorum c) contract) :
    ∃ members', contract = .quorum { c with members := members' } := by
  cases h
  exact ⟨_, rfl⟩

theorem of_race {c : RaceContract} (h : Reordered (.race c) contract) :
    ∃ c', contract = .race c' := by
  cases h
  exact ⟨_, rfl⟩

theorem of_delegate {c : DelegateContract} (h : Reordered (.delegate c) contract) :
    contract = .delegate c := by
  cases h
  rfl

theorem of_fanOut {c : FanOutContract} (h : Reordered (.fanOut c) contract) :
    ∃ members', contract = .fanOut { c with members := members' } := by
  cases h
  exact ⟨_, rfl⟩

end CoordinationContract.Reordered

theorem orderFree_quorum_iff (h : record.Driven tasks) (hC : record.contract = .quorum c) :
    (∀ record', record.Reordered record' → record'.decision tasks = record.decision tasks) ↔
      (c.threshold ≤ (record.members.filterMap (completion tasks)).length →
        Decided c.threshold Prod.fst valueOf (record.members.filterMap (completion tasks))) := by
  have hNodup := h.nodup
  have hResolver := (validate_ok h.valid).resolver c hC
  have hCompletions : (record.members.filterMap (completion tasks)).Nodup :=
    (nodup_names_completions hNodup).of_map _
  constructor
  · intro hFree hReached
    refine (firstByKey_orderFree_iff hCompletions).mp fun ys hYs => ?_
    obtain ⟨others, hOthers, rfl⟩ := exists_perm_filterMap hYs
    obtain ⟨record', c', hRe, rfl, hC', hThreshold, hSame⟩ :=
      exists_reordered_quorum h.names hOthers hC
    have hNodup' : (record'.members.map (·.member)).Nodup :=
      (hOthers.map _).nodup_iff.mpr hNodup
    have hEq := hFree record' hRe
    have hReached' : c.threshold ≤ (record'.members.filterMap (completion tasks)).length := by
      rw [hYs.length_eq]
      exact hReached
    rw [decision_quorum hNodup' hC', decision_quorum hNodup hC, hThreshold, if_pos hReached',
      if_pos hReached] at hEq
    obtain ⟨plan, hPlan⟩ := Option.isSome_iff_exists.mp (acceptPlan_isSome hResolver
      (firstByKey c.threshold Prod.fst (record.members.filterMap (completion tasks))))
    rw [hPlan] at hEq
    obtain ⟨-, hNames, outcome, -, hVote⟩ := acceptPlan_eq_some hPlan
    obtain ⟨-, hNames', outcome', -, hVote'⟩ := acceptPlan_eq_some hEq
    rw [hNames] at hNames'
    rw [hVote, Option.some_inj, QuorumResolverRecord.mk.injEq] at hVote'
    refine ⟨fun x => ⟨fun hX => ?_, fun hX => ?_⟩, hVote'.2.1.symm⟩
    · refine mem_of_mem_namesOf hNodup (hYs.mem_iff.mp (mem_of_mem_firstByKey hX)) (.refl _) ?_
      rw [hNames']
      exact mem_namesOf.mpr ⟨x.2, List.mem_map_of_mem hX, rfl⟩
    · refine mem_of_mem_namesOf hNodup (mem_of_mem_firstByKey hX) hOthers ?_
      rw [← hNames']
      exact mem_namesOf.mpr ⟨x.2, List.mem_map_of_mem hX, rfl⟩
  · intro hTie record' hRe
    obtain ⟨members', hC'⟩ := (hC ▸ hRe.contract).of_quorum
    have hNodup' : (record'.members.map (·.member)).Nodup :=
      (hRe.members.map _).nodup_iff.mpr hNodup
    have hPerm := hRe.members.filterMap (completion tasks)
    rw [decision_quorum hNodup' hC', decision_quorum hNodup hC, hPerm.length_eq,
      hRe.members.countP_eq]
    by_cases hReached : c.threshold ≤ (record.members.filterMap (completion tasks)).length
    · rw [if_pos hReached, if_pos hReached]
      have hIds : (record'.members.map (·.taskId)).Nodup :=
        (hRe.members.map _).nodup_iff.mpr h.taskIds
      exact acceptPlan_congr (nodup_taskIds hIds _)
        (firstByKey_perm (hTie hReached) hCompletions hPerm)
        (filterMap_firstByKey_eq (hTie hReached) hCompletions hPerm)
    · rw [if_neg hReached, if_neg hReached]

theorem firstByKey_one {α κ : Type} [LinearOrder κ] (key : α → κ) (xs : List α) :
    firstByKey 1 key xs = (minByKey key xs).toList := by
  rw [firstByKey, minByKey_eq_head?]
  cases sortByKey key xs <;> rfl

theorem allTerminal_perm (hPerm : others.Perm members) :
    (others.all (·.submitted) && decide ((terminal (others.map (memberState tasks))).length =
      others.length)) =
      (members.all (·.submitted) && decide ((terminal (members.map (memberState tasks))).length =
        members.length)) := by
  rw [terminal_observed, terminal_observed, (hPerm.filterMap _).length_eq, hPerm.length_eq,
    hPerm.all_eq]

theorem orderFree_race_iff (h : record.Driven tasks) {c : RaceContract}
    (hC : record.contract = .race c) :
    (∀ record', record.Reordered record' → record'.decision tasks = record.decision tasks) ↔
      Decided 1 Prod.fst (fun _ => (none : Option Json))
        (record.members.filterMap (completion tasks)) := by
  have hNodup := h.nodup
  have hCompletions : (record.members.filterMap (completion tasks)).Nodup :=
    (nodup_names_completions hNodup).of_map _
  constructor
  · intro hFree
    refine (firstByKey_orderFree_iff hCompletions).mp fun ys hYs => ?_
    obtain ⟨others, hOthers, rfl⟩ := exists_perm_filterMap hYs
    obtain ⟨record', c', hRe, rfl, hC'⟩ := exists_reordered_race h.names hOthers hC
    have hNodup' : (record'.members.map (·.member)).Nodup :=
      (hOthers.map _).nodup_iff.mpr hNodup
    have hEq := hFree record' hRe
    rw [decision_race hNodup' hC', decision_race hNodup hC] at hEq
    have hSame : minByKey Prod.fst (record'.members.filterMap (completion tasks)) =
        minByKey Prod.fst (record.members.filterMap (completion tasks)) := by
      cases hWinner : minByKey Prod.fst (record.members.filterMap (completion tasks)) with
      | none =>
        rw [minByKey_eq_none] at hWinner ⊢
        rw [hWinner] at hYs
        exact hYs.eq_nil
      | some winner =>
        rw [hWinner] at hEq
        split at hEq
        · next time other hOther =>
          simp only [Option.some.injEq, SettlePlan.mk.injEq, Finset.singleton_inj] at hEq
          rw [hOther, completion_injOn hNodup (hYs.mem_iff.mp (mem_of_minByKey hOther))
            (mem_of_minByKey hWinner) hEq.2.2.2.1]
        · split at hEq <;> cases hEq
    refine ⟨fun x => ?_, by simp⟩
    rw [firstByKey_one, firstByKey_one, hSame]
  · intro hTie record' hRe
    obtain ⟨c', hC'⟩ := (hC ▸ hRe.contract).of_race
    have hNodup' : (record'.members.map (·.member)).Nodup :=
      (hRe.members.map _).nodup_iff.mpr hNodup
    have hWinner : minByKey Prod.fst (record'.members.filterMap (completion tasks)) =
        minByKey Prod.fst (record.members.filterMap (completion tasks)) := by
      have hPerm := firstByKey_perm hTie hCompletions (hRe.members.filterMap (completion tasks))
      rw [firstByKey_one, firstByKey_one] at hPerm
      revert hPerm
      cases minByKey Prod.fst (record'.members.filterMap (completion tasks)) <;>
        cases minByKey Prod.fst (record.members.filterMap (completion tasks)) <;> simp
    rw [decision_race hNodup' hC', decision_race hNodup hC, hWinner, allTerminal_perm hRe.members]

theorem orderFree_delegate (h : record.Driven tasks) {c : DelegateContract}
    (hC : record.contract = .delegate c) (hRe : record.Reordered record') :
    record'.decision tasks = record.decision tasks := by
  have hContract := (hC ▸ hRe.contract).of_delegate
  have hMembers : record'.members = record.members := by
    have hOne := congrArg List.length h.names
    rw [hC, List.length_map] at hOne
    obtain ⟨m, hM⟩ := List.length_eq_one_iff.mp hOne
    have hPerm := hRe.members
    rw [hM] at hPerm ⊢
    exact List.perm_singleton.mp hPerm
  simp only [CoordinationRecord.decision, decideSettle, hContract, hC, hMembers]

theorem orderFree_fanOut (h : record.Driven tasks) {c : FanOutContract}
    (hC : record.contract = .fanOut c) (hRe : record.Reordered record') :
    record'.decision tasks = record.decision tasks := by
  obtain ⟨members', hC'⟩ := (hC ▸ hRe.contract).of_fanOut
  have hTerminal : (terminal (record'.members.map (memberState tasks))).Perm
      (terminal (record.members.map (memberState tasks))) := by
    rw [terminal_observed, terminal_observed]
    exact hRe.members.filterMap _
  have hCompleted := hTerminal.filter (fun d => decide (d.settlement = .completed))
  have hMerged : mergeFanOut ((completedOf (record'.members.map (memberState tasks))).filterMap
      (·.output)) =
      mergeFanOut ((completedOf (record.members.map (memberState tasks))).filterMap
        (·.output)) := by
    refine congrArg (List.map Prod.snd) (sortByKey_eq_of_perm ?_ (hCompleted.filterMap _))
    have hIds : (record'.members.map (·.taskId)).Nodup :=
      (hRe.members.map _).nodup_iff.mpr h.taskIds
    have hNodup : (((completedOf (record'.members.map (memberState tasks))).filterMap
        (·.output)).map Prod.fst).Nodup := by
      refine nodup_map_filterMap (fun _ _ hC => taskId_of_output hC) ?_
      refine List.Nodup.sublist (List.filter_sublist.map _) ?_
      rw [terminal_observed]
      refine nodup_map_filterMap (fun m d hD => ?_) hIds
      obtain ⟨t, -, hT⟩ := Option.bind_eq_some_iff.mp hD
      exact (dispositionOf_eq_some hT).2.1
    exact fun a hA b hB hSame => List.inj_on_of_nodup_map hNodup hA hB hSame
  have hNames : namesOf (completedOf (record'.members.map (memberState tasks))) =
      namesOf (completedOf (record.members.map (memberState tasks))) := by
    ext name
    simp only [mem_namesOf, completedOf, hCompleted.mem_iff]
  rw [decision_fanOut hC', decision_fanOut hC, allTerminal_perm hRe.members]
  simp only [decideFanOut, hMerged, hNames, hTerminal.any_eq]

theorem orderFree_iff (h : record.Driven tasks) :
    (∀ record', record.Reordered record' → record'.decision tasks = record.decision tasks) ↔
      record.TieFree tasks := by
  unfold CoordinationRecord.TieFree
  cases hC : record.contract with
  | delegate c => exact ⟨fun _ => trivial, fun _ _ hRe => orderFree_delegate h hC hRe⟩
  | fanOut c => exact ⟨fun _ => trivial, fun _ _ hRe => orderFree_fanOut h hC hRe⟩
  | race c => exact orderFree_race_iff h hC
  | quorum c => exact orderFree_quorum_iff h hC

/-! ## Majorities -/

theorem recorded_of_majority {inputs : List (String × Json)} {outcome : QuorumOutcome}
    (h : resolveQuorum .majorityEqual inputs = .ok outcome) (hDecided : outcome.recorded.2.1) :
    ∃ output, outcome = .decided output ∧ outcome.recorded.1 = some output := by
  cases outcome with
  | decided output => exact ⟨output, rfl, rfl⟩
  | noMajority tallies => cases hDecided
  | firstK outputs =>
    simp only [resolveQuorum] at h
    (repeat' split at h) <;> cases h

def votersFor (accepted : List (Instant × MemberDisposition)) (value : Json) : Finset String :=
  namesOf ((accepted.filter (valueOf · = some value)).map Prod.snd)

section Votes

variable {value : Json} {accepted : List (Instant × MemberDisposition)}

theorem card_namesOf (hNames : (accepted.map (·.2.member)).Nodup) :
    (namesOf (accepted.map Prod.snd)).card = accepted.length := by
  rw [namesOf, List.map_map]
  exact (List.toFinset_card_of_nodup hNames).trans (List.length_map _)

theorem card_votersFor (hNames : (accepted.map (·.2.member)).Nodup) :
    (votersFor accepted value).card = (accepted.filterMap valueOf).count value := by
  rw [votersFor, card_namesOf (hNames.sublist (List.filter_sublist.map _)),
    ← List.countP_eq_length_filter, List.count_filterMap]
  refine List.countP_congr fun c _ => ?_
  simp

theorem nodup_names_firstByKey (hNodup : (members.map (·.member)).Nodup) (k : Nat) :
    ((firstByKey k Prod.fst (members.filterMap (completion tasks))).map (·.2.member)).Nodup := by
  refine List.Nodup.sublist ((List.take_sublist k _).map _) ?_
  exact ((sortByKey_perm Prod.fst _).map _).nodup_iff.mpr (nodup_names_completions hNodup)

theorem result_of_completion {c : Instant × MemberDisposition} (hC : completion tasks m = some c) :
    (tasks m.taskId).bind (·.result) = valueOf c := by
  obtain ⟨t, hTask, -, hD, -⟩ := completion_eq_some.mp hC
  have hResult := (dispositionOf_eq_some hD).2.2.1
  rw [hTask, Option.bind_some, valueOf, MemberDisposition.output, hResult]
  cases t.result <;> rfl

theorem mem_votersFor (hNodup : (members.map (·.member)).Nodup)
    (hOf : accepted ⊆ members.filterMap (completion tasks)) {name : String} :
    name ∈ votersFor accepted value ↔ name ∈ namesOf (accepted.map Prod.snd) ∧
      ∃ m ∈ members, m.member = name ∧ (tasks m.taskId).bind (·.result) = some value := by
  rw [votersFor, mem_namesOf, mem_namesOf]
  constructor
  · rintro ⟨d, hD, rfl⟩
    obtain ⟨c, hC, rfl⟩ := List.mem_map.mp hD
    obtain ⟨hAccepted, hValue⟩ := List.mem_filter.mp hC
    obtain ⟨m, hM, hCompletion⟩ := List.mem_filterMap.mp (hOf hAccepted)
    refine ⟨⟨c.2, List.mem_map_of_mem hAccepted, rfl⟩, m, hM,
      (member_of_completion hCompletion).1.symm, ?_⟩
    rw [result_of_completion hCompletion]
    simpa using hValue
  · rintro ⟨⟨d, hD, rfl⟩, m, hM, hName, hResult⟩
    obtain ⟨c, hC, rfl⟩ := List.mem_map.mp hD
    obtain ⟨m', hM', hCompletion⟩ := List.mem_filterMap.mp (hOf hC)
    have hSame : m' = m := List.inj_on_of_nodup_map hNodup hM' hM
      ((member_of_completion hCompletion).1.symm.trans hName.symm)
    subst hSame
    rw [result_of_completion hCompletion] at hResult
    exact ⟨c.2, List.mem_map_of_mem (List.mem_filter.mpr ⟨hC, by simpa using hResult⟩), rfl⟩

end Votes

theorem contract_of_vote (h : record.decision tasks = some plan) (hVote : plan.resolver = some vote) :
    ∃ c, record.contract = .quorum c := by
  cases hC : record.contract with
  | quorum c => exact ⟨c, rfl⟩
  | delegate c =>
    simp only [CoordinationRecord.decision, decideSettle, hC, decideDelegate,
      Option.bind_eq_bind, Option.bind_eq_some_iff] at h
    obtain ⟨-, -, d, -, hPlan⟩ := h
    split at hPlan <;> cases hPlan <;> cases hVote
  | fanOut c =>
    rw [decision_fanOut hC] at h
    simp only [decideFanOut] at h
    (repeat' split at h) <;> cases h <;> cases hVote
  | race c =>
    simp only [CoordinationRecord.decision, decideSettle, hC, decideRace] at h
    (repeat' split at h) <;> cases h <;> cases hVote

theorem majority_of_clearVote (h : record.Driven tasks) (hClear : record.ClearVote tasks)
    (hPlan : record.decision tasks = some plan) (hVote : plan.resolver = some vote)
    (hMajority : vote.resolver = .majorityEqual) (hDecided : vote.decided) :
    ∃ output, vote.output = some output ∧
      ∃ voters ⊆ plan.contributing, plan.contributing.card < 2 * voters.card ∧
        ∀ name ∈ voters, ∃ m ∈ record.members, m.member = name ∧
          (tasks m.taskId).bind (·.result) = some output := by
  obtain ⟨c, hC⟩ := contract_of_vote hPlan hVote
  rw [decision_quorum h.nodup hC] at hPlan
  split at hPlan
  · next hReached =>
    obtain ⟨-, hNames, outcome, hOutcome, hRecorded⟩ := acceptPlan_eq_some hPlan
    rw [hVote] at hRecorded
    cases hRecorded
    have hResolver : c.resolver = .majorityEqual := hMajority
    rw [hResolver] at hOutcome
    obtain ⟨output, rfl, hOutput⟩ := recorded_of_majority hOutcome hDecided
    have hStrict := resolveQuorum_decided_iff.mp hOutcome
    rw [← List.length_map (f := Prod.snd), values_eq_filterMap] at hStrict
    have hMost := hClear c hC hMajority hReached output hStrict
    have hOnce := @nodup_names_firstByKey tasks _ h.nodup c.threshold
    refine ⟨output, rfl, votersFor (firstByKey c.threshold Prod.fst
      (record.members.filterMap (completion tasks))) output, ?_, ?_, ?_⟩
    · intro name hName
      rw [hNames]
      exact ((mem_votersFor h.nodup fun _ => mem_of_mem_firstByKey).mp hName).1
    · rw [hNames, card_namesOf hOnce, card_votersFor hOnce, length_firstByKey,
        min_eq_left hReached]
      exact hMost
    · intro name hName
      exact ((mem_votersFor h.nodup fun _ => mem_of_mem_firstByKey).mp hName).2
  · split at hPlan <;> cases hPlan
    cases hVote

theorem clearVote_of_sound (h : record.Driven tasks) (hSound : SoundDecision record tasks) :
    record.ClearVote tasks := by
  intro c hC hMajority hReached value hValue
  obtain ⟨plan, hPlan⟩ := Option.isSome_iff_exists.mp (acceptPlan_isSome
    ((validate_ok h.valid).resolver c hC)
    (firstByKey c.threshold Prod.fst (record.members.filterMap (completion tasks))))
  have hDecision : record.decision tasks = some plan := by
    rw [decision_quorum h.nodup hC, if_pos hReached, hPlan]
  obtain ⟨-, hNames, outcome, hOutcome, hRecorded⟩ := acceptPlan_eq_some hPlan
  rw [hMajority, resolveQuorum_decided_iff.mpr] at hOutcome
  rotate_left
  · rw [← List.length_map (f := Prod.snd), values_eq_filterMap]
    exact hValue
  cases hOutcome
  obtain ⟨output, hOutput, voters, hVoters, hCard, hAgree⟩ :=
    hSound.majority plan _ hDecision hRecorded hMajority rfl
  cases hOutput
  have hSub : voters ⊆ votersFor (firstByKey c.threshold Prod.fst
      (record.members.filterMap (completion tasks))) value := by
    intro name hName
    exact (mem_votersFor h.nodup fun _ => mem_of_mem_firstByKey).mpr
      ⟨hNames ▸ hVoters hName, hAgree name hName⟩
  have hLe := Finset.card_le_card hSub
  have hOnce := @nodup_names_firstByKey tasks _ h.nodup c.threshold
  rw [hNames, card_namesOf hOnce, length_firstByKey, min_eq_left hReached] at hCard
  rw [card_votersFor hOnce, ← CoordinationRecord.ballots] at hLe
  omega

/-! ## Every decision -/

theorem submitted_of_terminal (h : record.Driven tasks)
    (hAll : ∀ m ∈ record.members, (memberState tasks m).disposition.isSome) :
    record.members.all (·.submitted) = true := by
  rw [List.all_eq_true]
  intro m hM
  refine h.submitted m hM ?_
  obtain ⟨d, hD⟩ := Option.isSome_iff_exists.mp (hAll m hM)
  obtain ⟨t, hT, -⟩ := Option.bind_eq_some_iff.mp hD
  rw [hT]
  rfl

theorem length_completions_le :
    (members.filterMap (completion tasks)).length ≤ members.countP (canComplete tasks) := by
  rw [List.length_filterMap_eq_countP]
  refine List.countP_mono_left fun m _ hM => ?_
  obtain ⟨c, hC⟩ := Option.isSome_iff_exists.mp hM
  obtain ⟨t, hTask, hStatus, hD, -⟩ := completion_eq_some.mp hC
  have hSettled := (dispositionOf_eq_some hD).2.2.2
  rw [settlement_eq_completed.mpr hStatus] at hSettled
  simp [canComplete, hTask, hD, ← Option.some.inj hSettled]

theorem countP_canComplete_le
    (hAll : ∀ m ∈ members, (memberState tasks m).disposition.isSome) :
    members.countP (canComplete tasks) ≤ (members.filterMap (completion tasks)).length := by
  rw [List.length_filterMap_eq_countP]
  refine List.countP_mono_left fun m hM hCan => ?_
  obtain ⟨d, hD⟩ := Option.isSome_iff_exists.mp (hAll m hM)
  obtain ⟨t, hTask, hT⟩ := Option.bind_eq_some_iff.mp hD
  have hCompleted : d.settlement = .completed := by simpa [canComplete, hTask, hT] using hCan
  simp [completion, hTask, hT, hCompleted]

theorem decision_isSome (h : record.Driven tasks)
    (hAll : ∀ m ∈ record.members, (memberState tasks m).disposition.isSome) :
    (record.decision tasks).isSome := by
  have hSubmitted := submitted_of_terminal h hAll
  have hLength := length_terminal hAll
  cases hC : record.contract with
  | delegate c =>
    have hNe : record.members ≠ [] := by
      intro hNil
      have hNames := h.names
      rw [hNil, hC] at hNames
      cases hNames
    obtain ⟨m, rest, hMembers⟩ := List.exists_cons_of_ne_nil hNe
    obtain ⟨d, hD⟩ := Option.isSome_iff_exists.mp (hAll m (by simp [hMembers]))
    simp only [CoordinationRecord.decision, decideSettle, hC, decideDelegate, hMembers,
      List.map_cons, List.head?_cons, Option.bind_eq_bind, Option.bind_some, hD]
    cases d.settlement <;> rfl
  | fanOut c =>
    rw [decision_fanOut hC, hSubmitted, hLength]
    simp only [decideFanOut, decide_true, Bool.and_self, Bool.not_true]
    split <;> rfl
  | race c =>
    rw [decision_race h.nodup hC, hSubmitted, hLength]
    cases minByKey Prod.fst (record.members.filterMap (completion tasks)) with
    | none => simp
    | some winner => rfl
  | quorum c =>
    rw [decision_quorum h.nodup hC]
    split
    · exact acceptPlan_isSome ((validate_ok h.valid).resolver c hC) _
    · next hBelow =>
      have hLe := countP_canComplete_le hAll
      rw [if_pos (by omega)]
      rfl

theorem threshold_le_of_completed (h : record.Driven tasks) (hC : record.contract = .quorum c)
    (hPlan : record.decision tasks = some plan) (hStatus : plan.status = .completed) :
    c.threshold ≤ (record.members.filterMap (completion tasks)).length := by
  rw [decision_quorum h.nodup hC] at hPlan
  split at hPlan
  · next hReached => exact hReached
  · split at hPlan <;> cases hPlan
    cases hStatus

theorem unreachable_iff (h : record.Driven tasks) (hC : record.contract = .quorum c) :
    (∃ plan, record.decision tasks = some plan ∧ plan.status = .unreachable) ↔
      record.members.countP (canComplete tasks) < c.threshold := by
  have hLe : (record.members.filterMap (completion tasks)).length ≤
      record.members.countP (canComplete tasks) := length_completions_le
  rw [decision_quorum h.nodup hC]
  split
  · next hReached =>
    constructor
    · rintro ⟨plan, hPlan, hStatus⟩
      rw [(acceptPlan_eq_some hPlan).1] at hStatus
      cases hStatus
    · intro hLt
      omega
  · split
    · next hLt => exact ⟨fun _ => hLt, fun _ => ⟨_, rfl, rfl⟩⟩
    · next hLt =>
      constructor
      · rintro ⟨plan, hPlan, -⟩
        cases hPlan
      · intro hLt'
        exact (hLt hLt').elim

theorem earliest_wins (h : record.Driven tasks) {c : RaceContract}
    (hC : record.contract = .race c) (hM : m ∈ record.members)
    (hCompleted : (completion tasks m).isSome) :
    ∃ winner ∈ record.members, ∃ c, completion tasks winner = some c ∧
      record.decision tasks = some { status := .completed, result := c.2.result,
                                     contributing := {winner.member} } ∧
        ∀ other ∈ record.members, ∀ c', completion tasks other = some c' → c.1 ≤ c'.1 := by
  obtain ⟨own, hOwn⟩ := Option.isSome_iff_exists.mp hCompleted
  have hIn : own ∈ record.members.filterMap (completion tasks) :=
    List.mem_filterMap.mpr ⟨m, hM, hOwn⟩
  cases hWinner : minByKey Prod.fst (record.members.filterMap (completion tasks)) with
  | none =>
    rw [minByKey_eq_none] at hWinner
    rw [hWinner] at hIn
    cases hIn
  | some first =>
    obtain ⟨winner, hMember, hCompletion⟩ := List.mem_filterMap.mp (mem_of_minByKey hWinner)
    refine ⟨winner, hMember, first, hCompletion, ?_, fun other hOther c' hC' => ?_⟩
    · rw [decision_race h.nodup hC, hWinner]
      simp only [(member_of_completion hCompletion).1]
    · exact List.le_of_mem_argmin (List.mem_filterMap.mpr ⟨other, hOther, hC'⟩) hWinner

/-- **When a decision is sound.** -/
theorem decision_sound_iff (h : record.Driven tasks) :
    SoundDecision record tasks ↔ record.TieFree tasks ∧ record.ClearVote tasks := by
  constructor
  · intro hSound
    exact ⟨(orderFree_iff h).mp hSound.orderFree, clearVote_of_sound h hSound⟩
  · rintro ⟨hTie, hClear⟩
    exact
      { settles := decision_isSome h
        floor := fun c hC plan hPlan => threshold_le_of_completed h hC hPlan
        majority := fun plan vote hPlan hVote => majority_of_clearVote h hClear hPlan hVote
        unreachable := fun c hC => unreachable_iff h hC
        earliest := fun c hC m hM => earliest_wins h hC hM
        orderFree := (orderFree_iff h).mpr hTie }

/-! ## Coordinations of one agent -/

variable (names : List String) (tasks : String → Option TaskRecord)

def sampleDelegation (member : String) : Delegation :=
  { member, agentId := "worker", manifestVersion := "worker/1", kind := "work",
    input := .inline .null, effect := .readOnly }

def sampleRecord (contract : CoordinationContract) : CoordinationRecord :=
  { coordinationId := "acme/c"
    contract
    members := contract.members.map fun d =>
      ⟨d.member, d.agentId, d.manifestVersion, memberTaskId "acme" "c" d.member, true⟩
    createdAt := 0
    updatedAt := 0 }

def sampleRace : CoordinationRecord :=
  sampleRecord (.race ⟨names.map sampleDelegation⟩)

def sampleVote : CoordinationRecord :=
  sampleRecord (.quorum ⟨names.map sampleDelegation, names.length, .majorityEqual⟩)

def sampleTasks (done : List (String × Instant × Option Json)) (id : String) :
    Option TaskRecord :=
  (done.find? fun (member, _) => memberTaskId "acme" "c" member = id).map fun (_, time, result) =>
    { (TaskRecord.new { jobTask with taskId := id } 0).complete ⟨.null, none, {}⟩ time with result }

theorem driven_sampleRace : (sampleRace ["a", "b"]).Driven tasks :=
  ⟨rfl, rfl, by decide, fun m hM _ => by
    obtain ⟨d, -, rfl⟩ := List.mem_map.mp hM
    rfl⟩

theorem driven_sampleVote : (sampleVote ["a", "b", "c"]).Driven tasks :=
  ⟨rfl, rfl, by decide, fun m hM _ => by
    obtain ⟨d, -, rfl⟩ := List.mem_map.mp hM
    rfl⟩

theorem decision_sound_race :
    (sampleRace ["a", "b"]).decision (sampleTasks [("b", 5, some .null)]) =
        some { status := .completed, result := some (.inline .null), contributing := {"b"} } ∧
      SoundDecision (sampleRace ["a", "b"]) (sampleTasks [("b", 5, some .null)]) := by
  refine ⟨by decide, (decision_sound_iff (driven_sampleRace _)).mpr ⟨⟨?_, ?_⟩, nofun⟩⟩
  · decide
  · intro x _ y _ _ _ a b hA
    cases hA

/-- Two completions of one time: the candidate that is declared first wins. Three completions of
which one has a result: that result is the majority. -/
theorem decided_by_tie_and_by_minority :
    ¬ SoundDecision (sampleRace ["a", "b"])
        (sampleTasks [("a", 5, some .null), ("b", 5, some .null)]) ∧
      ¬ SoundDecision (sampleVote ["a", "b", "c"])
        (sampleTasks [("a", 1, none), ("b", 2, none), ("c", 3, some (.str "x"))]) := by
  constructor
  · intro hSound
    have hSame := hSound.orderFree (sampleRace ["b", "a"])
      ⟨.race _ (List.Perm.swap _ _ _), List.Perm.swap _ _ _, rfl⟩
    revert hSame
    decide
  · intro hSound
    have hMost := clearVote_of_sound (driven_sampleVote _) hSound _ rfl rfl (by decide)
      (.str "x") (by decide)
    revert hMost
    decide

end RustyRuntime
