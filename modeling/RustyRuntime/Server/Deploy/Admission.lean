import RustyRuntime.Server.Deploy.Handlers

/-!
# What admission binds

A run is bound to the revision that serves, or to the canary. In an environment with a gate that
also requires approval, promotions pass the gate and then need a token for the revision; a canary
passes the gate only, since approval governs promotions; and a rollback takes what the chain says
served before.

**What was asked of a bound revision** (`bound_vetted`): the gate of the environment has allowed
every revision that any run can be bound to, and the decision is on the chain; for the revision
that serves, a token scoped to its promotion was presented as well. It holds in every run, also
with crashes. A canary is served without a token (`canary_without_token`).
-/

namespace RustyRuntime

open Library

def GateAllowed (gate : GateDeclaration) (scope : DeployScope) (chain : List ChainEvent)
    (revisionId : RevisionId) : Prop :=
  ∃ record, .gate record ∈ chain ∧ (record.tenant, record.environment) = scope ∧
    record.revisionId = revisionId ∧ record.policy = gate.policy ∧
    record.datasetVersion = gate.datasetVersion ∧ record.outcome = .allow ∧
    record.checks.all (·.passed) = true

def Approved (codec : Codec) (scope : DeployScope)
    (presented : List (DeployScope × RevisionId × ApprovalToken)) (revisionId : RevisionId) :
    Prop :=
  ∃ token, (scope, revisionId, token) ∈ presented ∧
    token.admits (revisionPromotionEffectId codec scope.2 revisionId) = true

/-! ## Vetted revisions

`vetted` is asked of the revisions that serve, `gated` of canaries. -/

section Vetted

variable (vetted gated : RevisionId → Prop)

structure PointerOk (pointer : DeploymentPointer) : Prop where
  active : ∀ r ∈ pointer.active, vetted r
  canary : ∀ c ∈ pointer.canary, gated c.revisionId

def ActOk : DeploymentAct → Prop
  | .promotion act => vetted act.revisionId ∧ ∀ r ∈ act.previous, vetted r
  | .rollback act => ∀ r ∈ act.toId, vetted r
  | _ => True

def MoveOk : MoveRequest → Prop
  | .promote revisionId _ => vetted revisionId
  | .declare canary _ => gated canary.revisionId
  | _ => True

def ChainOk (scope : DeployScope) (chain : List ChainEvent) : Prop :=
  ∀ event ∈ chain, ∀ act ∈ event.actIn scope, ActOk vetted act

variable {vetted gated}

variable {scope : DeployScope} {events : List ChainEvent}

theorem rollbackTarget_ok (h : ChainOk vetted scope events) {fromId : RevisionId}
    {toId : Option RevisionId} (hTarget : rollbackTarget events scope.1 scope.2 fromId = some toId) :
    ∀ r ∈ toId, vetted r := by
  -- every entry of both stacks is one that may serve
  let Fine (stack : List (Option RevisionId)) : Prop := ∀ entry ∈ stack, ∀ r ∈ entry, vetted r
  let Sound (replay : RollbackReplay) : Prop :=
    Fine replay.stack ∧ ∀ stack ∈ replay.installedStack, Fine stack
  have hFold :
      Sound (events.foldl (RollbackReplay.step scope.1 scope.2 fromId) ⟨none, [], none⟩) := by
    refine List.foldlRecOn (motive := Sound) events _ ⟨nofun, nofun⟩ ?_
    intro state hState event hIn
    have hNext {stack : List (Option RevisionId)} (hFine : Fine stack) {c : Prop} [Decidable c] :
        Fine stack ∧ ∀ other ∈ if c then some stack else state.installedStack, Fine other := by
      refine ⟨hFine, fun other hOther => ?_⟩
      split at hOther
      · cases hOther
        exact hFine
      · exact hState.2 other hOther
    unfold RollbackReplay.step
    split
    · rename_i promotion
      split
      · rename_i hScope
        have hAct : ActOk vetted (.promotion promotion) :=
          h _ hIn _ (if_pos (Prod.ext hScope.1 hScope.2))
        refine hNext fun entry hEntry => ?_
        rcases List.mem_cons.mp hEntry with rfl | hOld
        · exact hAct.2
        · exact hState.1 entry hOld
      · exact hState
    · split
      · exact hNext fun entry hEntry => hState.1 entry (List.mem_of_mem_tail hEntry)
      · exact hState
    · exact hState
  unfold rollbackTarget at hTarget
  simp only at hTarget
  split at hTarget
  · exact hFold.1 toId (List.mem_of_mem_head? hTarget)
  · obtain ⟨stack, hSome, hHead⟩ := Option.bind_eq_some_iff.mp hTarget
    exact hFold.2 stack hSome toId (List.mem_of_mem_head? hHead)

theorem build_ok {now : Instant} {base next : DeploymentPointer} {move : MoveRequest}
    {act : DeploymentAct} {converged : Bool} (hBase : PointerOk vetted gated base)
    (hEvents : ChainOk vetted scope events) (hMove : MoveOk vetted gated move)
    (h : move.build scope now base events = .ok (act, next, converged)) :
    ActOk vetted act ∧ PointerOk vetted gated next := by
  revert h
  fun_cases MoveRequest.build scope now base events move with
  | case1 =>
    rintro ⟨⟩
    refine ⟨⟨hMove, hBase.active⟩, ?_, nofun⟩
    rintro r ⟨⟩
    exact hMove
  | case4 cause author fromId hActive toId hTarget =>
    rintro ⟨⟩
    have hTo := rollbackTarget_ok hEvents hTarget
    refine ⟨hTo, ?_, ?_⟩
    · intro r hR
      rw [DeploymentPointer.rolledBack, hActive, if_pos rfl] at hR
      exact hTo r hR
    · intro c hC
      simp only [DeploymentPointer.rolledBack] at hC
      split at hC
      · cases hC
      · exact hBase.canary c hC
  | case5 =>
    rintro ⟨⟩
    refine ⟨trivial, hBase.active, ?_⟩
    rintro c ⟨⟩
    exact hMove
  | case7 =>
    rintro ⟨⟩
    exact ⟨trivial, hBase.active, nofun⟩
  | _ => exact nofun

end Vetted

/-! ## The invariant -/

section Plane

variable (env : DeployEnv) (scope : DeployScope) (environment : Environment)
  (gate : GateDeclaration)

def DeployPlane.Gated (plane : DeployPlane) (revisionId : RevisionId) : Prop :=
  GateAllowed gate scope plane.store.chain revisionId

def DeployPlane.Vetted (plane : DeployPlane) (revisionId : RevisionId) : Prop :=
  plane.Gated scope gate revisionId ∧ Approved env.codec scope plane.presented revisionId

def HandlerOk (plane : DeployPlane) : Handler → Prop
  | .gating s request declared gate' => s = scope →
    declared = environment ∧ gate' = gate ∧ request.token scope ⊆ plane.presented
  | .evaluating s request declared gate' _ => s = scope →
    declared = environment ∧ gate' = gate ∧ request.token scope ⊆ plane.presented
  | .reading s move _ => s = scope →
    MoveOk (plane.Vetted env scope gate) (plane.Gated scope gate) move
  | .building s move _ base => s = scope →
    MoveOk (plane.Vetted env scope gate) (plane.Gated scope gate) move ∧
      PointerOk (plane.Vetted env scope gate) (plane.Gated scope gate) base
  | .committing s move _ _ act next => act.scope = s ∧ (s = scope →
    MoveOk (plane.Vetted env scope gate) (plane.Gated scope gate) move ∧
      ActOk (plane.Vetted env scope gate) act ∧
      PointerOk (plane.Vetted env scope gate) (plane.Gated scope gate) next)
  | _ => True

structure Guarded (plane : DeployPlane) : Prop where
  pointer : PointerOk (plane.Vetted env scope gate) (plane.Gated scope gate)
    (plane.store.pointers scope)
  chain : ChainOk (plane.Vetted env scope gate) scope plane.store.chain
  handlers : ∀ handler ∈ plane.handlers, HandlerOk env scope environment gate plane handler

variable {env scope environment gate}

structure MoreEvidence (plane plane' : DeployPlane) : Prop where
  chain : plane.store.chain ⊆ plane'.store.chain
  presented : plane.presented ⊆ plane'.presented

variable {plane plane' : DeployPlane}

variable {r : RevisionId} {act : DeploymentAct} {move : MoveRequest} {handler : Handler}
  {request : DeployRequest} {s : DeployScope} {declared : Environment} {gate' : GateDeclaration}
  {payloadBytes : DeploymentAct → Nat} {store : DeployStore}

section

variable (h : MoreEvidence plane plane')

include h

theorem MoreEvidence.gated (hR : plane.Gated scope gate r) : plane'.Gated scope gate r := by
  obtain ⟨record, hIn, hRecord⟩ := hR
  exact ⟨record, h.chain hIn, hRecord⟩

theorem MoreEvidence.vetted (hR : plane.Vetted env scope gate r) :
    plane'.Vetted env scope gate r := by
  obtain ⟨hGated, token, hIn, hAdmits⟩ := hR
  exact ⟨h.gated hGated, token, h.presented hIn, hAdmits⟩

theorem MoreEvidence.pointerOk {pointer : DeploymentPointer}
    (hPointer : PointerOk (plane.Vetted env scope gate) (plane.Gated scope gate) pointer) :
    PointerOk (plane'.Vetted env scope gate) (plane'.Gated scope gate) pointer :=
  ⟨fun r hR => h.vetted (hPointer.active r hR), fun c hC => h.gated (hPointer.canary c hC)⟩

theorem MoreEvidence.actOk (hAct : ActOk (plane.Vetted env scope gate) act) :
    ActOk (plane'.Vetted env scope gate) act := by
  cases act with
  | promotion act => exact ⟨h.vetted hAct.1, fun r hR => h.vetted (hAct.2 r hR)⟩
  | rollback act => exact fun r hR => h.vetted (hAct r hR)
  | canaryDeclare act | canaryClear act => trivial

theorem MoreEvidence.moveOk
    (hMove : MoveOk (plane.Vetted env scope gate) (plane.Gated scope gate) move) :
    MoveOk (plane'.Vetted env scope gate) (plane'.Gated scope gate) move := by
  cases move with
  | promote revisionId author => exact h.vetted hMove
  | rollback cause author => trivial
  | declare canary author => exact h.gated hMove
  | clear author => trivial

theorem MoreEvidence.chainOk {chain : List ChainEvent}
    (hChain : ChainOk (plane.Vetted env scope gate) scope chain) :
    ChainOk (plane'.Vetted env scope gate) scope chain :=
  fun event hIn act hAct => h.actOk (hChain event hIn act hAct)

theorem MoreEvidence.handlerOk (hHandler : HandlerOk env scope environment gate plane handler) :
    HandlerOk env scope environment gate plane' handler := by
  cases handler with
  | gating s request declared gate' | evaluating s request declared gate' baseline =>
    intro hScope
    obtain ⟨hDeclared, hGate, hToken⟩ := hHandler hScope
    exact ⟨hDeclared, hGate, fun x hX => h.presented (hToken hX)⟩
  | looking s author => trivial
  | reading s move attempt => exact fun hScope => h.moveOk (hHandler hScope)
  | building s move attempt base =>
    intro hScope
    obtain ⟨hMove, hBase⟩ := hHandler hScope
    exact ⟨h.moveOk hMove, h.pointerOk hBase⟩
  | committing s move attempt base act next =>
    refine ⟨hHandler.1, fun hScope => ?_⟩
    obtain ⟨hMove, hAct, hNext⟩ := hHandler.2 hScope
    exact ⟨h.moveOk hMove, h.actOk hAct, h.pointerOk hNext⟩
  | done answer => trivial

end

theorem Guarded.advance (h : Guarded env scope environment gate plane) {i : Nat}
    (hHandler : HandlerOk env scope environment gate plane handler) :
    Guarded env scope environment gate (plane.advance i handler) := by
  have hSame : MoreEvidence plane (plane.advance i handler) := ⟨fun _ hX => hX, fun _ hX => hX⟩
  refine ⟨hSame.pointerOk h.pointer, hSame.chainOk h.chain, fun x hX => ?_⟩
  rcases List.mem_or_eq_of_mem_set hX with hOld | rfl
  · exact hSame.handlerOk (h.handlers x hOld)
  · exact hSame.handlerOk hHandler

theorem afterGate_ok (hApproval : environment.approvalRequired)
    (hToken : request.token scope ⊆ plane.presented)
    (hGated : ∀ r ∈ request.gated, plane.Gated scope gate r)
    (h : env.afterGate scope environment request = .ok move) :
    MoveOk (plane.Vetted env scope gate) (plane.Gated scope gate) move := by
  unfold DeployEnv.afterGate at h
  split at h
  · rename_i revisionId author approval
    simp only [hApproval, Bool.true_and] at h
    split at h
    · cases h
    · rename_i hAdmitted
      cases h
      rw [Bool.not_eq_true, Bool.not_eq_false'] at hAdmitted
      obtain ⟨token, rfl, hAdmits⟩ := (Option.any_eq_true _ _).mp hAdmitted
      exact ⟨hGated _ rfl, token, hToken List.mem_cons_self, hAdmits⟩
  · cases h
    trivial
  · rename_i revisionId fraction author
    split at h
    · rename_i canary hCanary
      cases h
      unfold CanaryDeployment.new at hCanary
      split at hCanary
      · cases hCanary
        exact hGated _ rfl
      · cases hCanary
    · cases h
  · cases h
    trivial

theorem arrive_ok (hEnv : env.environments scope = some environment)
    (hGate : environment.gate = some gate) (lookup : RevisionLookup)
    (hToken : request.token s ⊆ plane.presented) :
    HandlerOk env scope environment gate plane (env.arrive s request lookup) := by
  unfold DeployEnv.arrive
  split
  · trivial
  · rename_i declared hDeclared
    have hWaits {gate' : GateDeclaration} (hGate' : declared.gate = some gate') :
        HandlerOk env scope environment gate plane (.gating s request declared gate') := by
      rintro rfl
      cases hDeclared.symm.trans hEnv
      exact ⟨rfl, Option.some.inj (hGate'.symm.trans hGate), hToken⟩
    have hOpen (hNone : declared.gate = none) (move : MoveRequest) :
        HandlerOk env scope environment gate plane (.reading s move 0) := by
      rintro rfl
      cases hDeclared.symm.trans hEnv
      rw [hGate] at hNone
      cases hNone
    cases request with
    | rollback cause author =>
      simp only
      split
      · trivial
      · exact fun _ => trivial
    | clearCanary author => trivial
    | promote revisionId author approval | declareCanary revisionId fraction author =>
      cases lookup with
      | missing => trivial
      | tampered message => trivial
      | found =>
        simp only
        split
        · rename_i hSome
          exact hWaits hSome
        · rename_i hNone
          split
          · exact hOpen hNone _
          · trivial

theorem gateBaseline_ok (pointer : DeploymentPointer) (lookup : RevisionLookup)
    (h : HandlerOk env scope environment gate plane (.gating s request declared gate')) :
    HandlerOk env scope environment gate plane
      (env.gateBaseline s request declared gate' pointer lookup) := by
  fun_cases DeployEnv.gateBaseline env s request declared gate' pointer lookup <;> trivial

theorem gateDecision_ok (hApproval : environment.approvalRequired)
    {baseline : Option RevisionId} {evaluation : Except String GateEvaluation} {now : Instant}
    {decision : Option GateDecisionRecord} (h : HandlerOk env scope environment gate plane
      (.evaluating s request declared gate' baseline))
    (hDecided : env.gateDecision s request declared gate' baseline evaluation now =
      (decision, handler)) (hChain : ∀ record ∈ decision, .gate record ∈ plane.store.chain) :
    HandlerOk env scope environment gate plane handler := by
  unfold DeployEnv.gateDecision at hDecided
  split at hDecided
  · cases hDecided
    trivial
  · rename_i evaluation
    split at hDecided
    · cases hDecided
      trivial
    · rename_i hAnswers
      split at hDecided
      · cases hDecided
        trivial
      · rename_i hAllowed
        rw [not_or, not_not, not_not] at hAnswers
        rw [Bool.not_eq_true, Bool.not_eq_false', GateEvaluation.allowed, Bool.and_eq_true,
          decide_eq_true_iff] at hAllowed
        split at hDecided
        · rename_i move hMove
          cases hDecided
          rintro rfl
          obtain ⟨rfl, rfl, hToken⟩ := h rfl
          refine afterGate_ok hApproval hToken ?_ hMove
          intro r hR
          refine ⟨_, hChain _ rfl, rfl, ?_, hAnswers.1, hAnswers.2, hAllowed.1, hAllowed.2⟩
          rw [Option.mem_def.mp hR]
          rfl
        · cases hDecided
          trivial

theorem buildMove_ok {attempt : Nat} {base : DeploymentPointer} (now : Instant)
    (hPlane : Guarded env scope environment gate plane)
    (h : HandlerOk env scope environment gate plane (.building s move attempt base)) :
    HandlerOk env scope environment gate plane
      (DeployEnv.buildMove s move attempt base plane.store.chain now) := by
  unfold DeployEnv.buildMove
  split
  · trivial
  · rename_i act next converged hBuild
    split
    · trivial
    · refine ⟨(apply_of_build hBuild).1, ?_⟩
      rintro rfl
      obtain ⟨hMove, hBase⟩ := h rfl
      exact ⟨hMove, build_ok hBase hPlane.chain hMove hBuild⟩

theorem mem_journal {event : ChainEvent} (h : event ∈ store.journal payloadBytes act) :
    event ∈ store.chain ∨ ∃ inline, event = .act act inline := by
  unfold DeployStore.journal at h
  split at h
  · exact .inl h
  · rcases List.mem_append.mp h with hOld | hNew
    · exact .inl hOld
    · exact .inr ⟨_, List.mem_singleton.mp hNew⟩

theorem subset_journal (payloadBytes : DeploymentAct → Nat) (store : DeployStore)
    (act : DeploymentAct) : store.chain ⊆ store.journal payloadBytes act := by
  unfold DeployStore.journal
  split
  · exact List.Subset.refl _
  · exact List.subset_append_left _ _

theorem chainOk_journal {vetted : RevisionId → Prop} (h : ChainOk vetted scope store.chain)
    (hAct : act.scope = scope → ActOk vetted act) :
    ChainOk vetted scope (store.journal payloadBytes act) := by
  intro event hEvent recorded hRecorded
  rcases mem_journal hEvent with hOld | ⟨inline, rfl⟩
  · exact h event hOld recorded hRecorded
  · simp only [ChainEvent.actIn, Option.mem_def] at hRecorded
    split at hRecorded
    · rename_i hScope
      cases hRecorded
      exact hAct hScope
    · cases hRecorded

theorem guarded_step (hEnv : env.environments scope = some environment)
    (hGate : environment.gate = some gate) (hApproval : environment.approvalRequired)
    {action : DeployAction} (h : Guarded env scope environment gate plane) :
    Guarded env scope environment gate (env.step plane action) := by
  have hMem {i : Nat} {handler : Handler} (hAt : plane.handlers[i]? = some handler) :
      HandlerOk env scope environment gate plane handler :=
    h.handlers handler (List.mem_of_getElem? hAt)
  have hChange := change_step env plane action
  generalize env.step plane action = plane' at hChange ⊢
  cases hChange with
  | idle => exact h
  | request s request lookup =>
    have hMore : MoreEvidence plane
        { plane with
          presented := plane.presented ++ request.token s } :=
      ⟨List.Subset.refl _, List.subset_append_left _ _⟩
    refine ⟨hMore.pointerOk h.pointer, hMore.chainOk h.chain, fun handler hIn => ?_⟩
    rcases List.mem_append.mp hIn with hOld | hNew
    · exact hMore.handlerOk (h.handlers handler hOld)
    · rw [List.mem_singleton.mp hNew]
      exact arrive_ok hEnv hGate lookup (List.subset_append_right _ _)
  | gateBaseline lookup hHandler => exact h.advance (gateBaseline_ok _ lookup (hMem hHandler))
  | @gateDecision i s request declared gate' baseline evaluation now hHandler decision handler
      hDecided =>
    have hMore : MoreEvidence plane { plane with store := { plane.store with
        chain := plane.store.chain ++ (decision.map ChainEvent.gate).toList } } :=
      ⟨List.subset_append_left _ _, List.Subset.refl _⟩
    refine Guarded.advance ⟨hMore.pointerOk h.pointer, ?_,
      fun x hX => hMore.handlerOk (h.handlers x hX)⟩ ?_
    · intro event hEvent act hAct
      rcases List.mem_append.mp hEvent with hOld | hNew
      · exact hMore.actOk (h.chain event hOld act hAct)
      · -- a decision is no act
        obtain ⟨record, -, rfl⟩ := Option.map_eq_some_iff.mp (Option.mem_toList.mp hNew)
        cases hAct
    · refine gateDecision_ok hApproval (hMore.handlerOk (hMem hHandler)) hDecided ?_
      rintro record ⟨⟩
      exact List.mem_append_right _ List.mem_cons_self
  | look hHandler =>
    apply h.advance
    split
    · trivial
    · exact fun _ => trivial
  | @readPointer i s move attempt hHandler =>
    apply h.advance
    rintro rfl
    exact ⟨hMem hHandler rfl, h.pointer⟩
  | readChain now hHandler => exact h.advance (buildMove_ok now h (hMem hHandler))
  | @commit i s move attempt base act next hHandler hLive =>
    obtain ⟨rfl, hOk⟩ := hMem hHandler
    have hMore : MoreEvidence plane { plane with store :=
        ⟨Function.update plane.store.pointers act.scope next,
          plane.store.journal env.payloadBytes act⟩ } :=
      ⟨subset_journal _ _ _, List.Subset.refl _⟩
    refine Guarded.advance ⟨?_, ?_, fun x hX => hMore.handlerOk (h.handlers x hX)⟩ trivial
    · by_cases hScope : scope = act.scope
      · subst hScope
        simp only [Function.update_self]
        exact hMore.pointerOk (hOk rfl).2.2
      · simp only [Function.update_of_ne hScope]
        exact hMore.pointerOk h.pointer
    · exact hMore.chainOk (chainOk_journal h.chain fun hScope => (hOk hScope).2.1)
  | @conflict i s move attempt base act next hHandler live =>
    apply h.advance
    rw [afterCommit]
    split
    · exact fun hScope => ((hMem hHandler).2 hScope).1
    · trivial
  | @crash i s move attempt base act next hHandler =>
    obtain ⟨rfl, hOk⟩ := hMem hHandler
    rw [DeployStore.transitionCrashed]
    split
    · have hMore : MoreEvidence plane { plane with handlers := [] } :=
        ⟨List.Subset.refl _, List.Subset.refl _⟩
      exact ⟨hMore.pointerOk h.pointer, hMore.chainOk h.chain, fun x hX => by cases hX⟩
    · have hMore : MoreEvidence plane { plane with
          store := { plane.store with chain := plane.store.journal env.payloadBytes act }
          handlers := [] } := ⟨subset_journal _ _ _, List.Subset.refl _⟩
      refine ⟨hMore.pointerOk h.pointer, hMore.chainOk ?_, fun x hX => by cases hX⟩
      exact chainOk_journal h.chain fun hScope => (hOk hScope).2.1

theorem guarded_empty : Guarded env scope environment gate .empty :=
  ⟨⟨fun _ hIn => (by cases hIn), fun _ hIn => (by cases hIn)⟩, fun _ hIn => (by cases hIn),
    fun _ hIn => by cases hIn⟩

theorem guarded_run (hEnv : env.environments scope = some environment)
    (hGate : environment.gate = some gate) (hApproval : environment.approvalRequired)
    (actions : List DeployAction) :
    Guarded env scope environment gate (run env.step .empty actions) :=
  run_invariant (fun _ _ hInv _ => guarded_step hEnv hGate hApproval hInv) guarded_empty
    (admissible_of_forall (fun _ _ _ => trivial) _)

end Plane

theorem deploymentAdmission_slot {drawn : String → Rat → Bool} {pointer : DeploymentPointer}
    {runId : String} {revisionId : RevisionId} {slot : PointerBinding}
    (h : deploymentAdmission drawn pointer runId = some (revisionId, slot)) :
    (slot = .active ∧ pointer.active = some revisionId) ∨
      (slot = .canary ∧ ∃ canary ∈ pointer.canary, canary.revisionId = revisionId) := by
  have hActive (hBound : pointer.active.map (fun r => (r, PointerBinding.active)) =
      some (revisionId, slot)) : slot = .active ∧ pointer.active = some revisionId := by
    obtain ⟨r, hR, hPair⟩ := Option.map_eq_some_iff.mp hBound
    cases hPair
    exact ⟨rfl, hR⟩
  unfold deploymentAdmission at h
  split at h
  · rename_i canary hCanary
    split at h
    · cases h
      exact .inr ⟨rfl, canary, hCanary, rfl⟩
    · exact .inl (hActive h)
  · exact .inl (hActive h)

/-- **What was asked of a bound revision.** -/
theorem bound_vetted {env : DeployEnv} {scope : DeployScope} {environment : Environment}
    {gate : GateDeclaration} (hEnv : env.environments scope = some environment)
    (hGate : environment.gate = some gate) (hApproval : environment.approvalRequired = true)
    (actions : List DeployAction) {drawn : String → Rat → Bool} {runId : String}
    {revisionId : RevisionId} {slot : PointerBinding}
    (hBound : deploymentAdmission drawn ((run env.step .empty actions).store.pointers scope) runId =
      some (revisionId, slot)) :
    GateAllowed gate scope (run env.step .empty actions).store.chain revisionId ∧
      (slot = .active →
        Approved env.codec scope (run env.step .empty actions).presented revisionId) := by
  have hPointer := (guarded_run hEnv hGate hApproval actions).pointer
  rcases deploymentAdmission_slot hBound with ⟨rfl, hActive⟩ | ⟨rfl, canary, hCanary, rfl⟩
  · obtain ⟨hGated, hApproved⟩ := hPointer.active revisionId hActive
    exact ⟨hGated, fun _ => hApproved⟩
  · exact ⟨hPointer.canary canary hCanary, fun hSlot => by cases hSlot⟩

/-- One environment with a gate, where promotions need a token. -/
def guardedEnv : DeployEnv :=
  ⟨plainCodec, toString, fun _ => 100, fun _ => some ⟨some ⟨"p", "d"⟩, true⟩, true⟩

/-- The steps of one request that passes the gate, with none of another between them. -/
def gatedServed (i : Nat) (request : DeployRequest) : List DeployAction :=
  [.request devScope request .found, .gateBaseline i .found,
    .gateDecision i (.ok ⟨"p", "d", .allow, []⟩) 0, .readPointer i, .readChain i 0, .commit i]

def approvedPromotion : DeployRequest :=
  .promote "a" (.human "h") (some ⟨revisionPromotionEffectId plainCodec "dev" "a", "h"⟩)

theorem bound_vetted_promotion :
    deploymentAdmission (fun _ _ => false)
        ((run guardedEnv.step .empty (gatedServed 0 approvedPromotion)).store.pointers devScope)
        "run" = some ("a", .active) ∧
      GateAllowed ⟨"p", "d"⟩ devScope
        (run guardedEnv.step .empty (gatedServed 0 approvedPromotion)).store.chain "a" ∧
      Approved plainCodec devScope
        (run guardedEnv.step .empty (gatedServed 0 approvedPromotion)).presented "a" := by
  have hBound : deploymentAdmission (fun _ _ => false)
      ((run guardedEnv.step .empty (gatedServed 0 approvedPromotion)).store.pointers devScope)
      "run" = some ("a", .active) := by decide +kernel
  have hVetted := bound_vetted rfl rfl rfl _ hBound
  exact ⟨hBound, hVetted.1, hVetted.2 rfl⟩

/-- A canary that takes every run, in an environment where no token was ever presented. -/
theorem canary_without_token :
    deploymentAdmission (fun _ _ => false)
        ((run guardedEnv.step .empty
          (gatedServed 0 (.declareCanary "a" 1 (.human "h")))).store.pointers devScope)
        "run" = some ("a", .canary) ∧
      ¬ Approved plainCodec devScope
        (run guardedEnv.step .empty
          (gatedServed 0 (.declareCanary "a" 1 (.human "h")))).presented "a" := by
  refine ⟨by decide +kernel, ?_⟩
  rintro ⟨token, hIn, -⟩
  have hNone : (run guardedEnv.step .empty
      (gatedServed 0 (.declareCanary "a" 1 (.human "h")))).presented = [] := rfl
  rw [hNone] at hIn
  cases hIn

end RustyRuntime
