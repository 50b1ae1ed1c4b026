import RustyRuntime.Effects
import RustyRuntime.Library.Run
import RustyRuntime.Server.Deploy.Chain

/-!
# The deployment routes

The four routes that move a pointer, as handlers that take their steps in any order: a gate runs
and journals its decision, the pointer is read, the chain is read and the act built on both, and
the act is committed under the locks. A commit that lost a race starts over once.

`replay` is the pointer that the journaled acts give, one after the other.

**When the pointer is what the chain says** (`pointer_eq_replay`): in every run without crashes
in which a rollback commits on the canary slot it was built on, and an act that is taken for
journaled already is one that changes nothing. Both are needed. A canary that is declared again
after a promotion cleared it is not journaled (`redeclared_canary_unjournaled`), since the
promotion is not of the canary's family.
-/

namespace RustyRuntime

open Library

/-! ## Requests -/

/-- What the routes read of `Environment`. -/
structure Environment where
  gate : Option GateDeclaration
  approvalRequired : Bool

/-- The payloads of the routes. -/
inductive DeployRequest where
  | promote (revisionId : RevisionId) (author : ProvenanceAuthor) (approval : Option ApprovalToken)
  | rollback (cause : String) (author : ProvenanceAuthor)
  | declareCanary (revisionId : RevisionId) (fraction : Rat) (author : ProvenanceAuthor)
  | clearCanary (author : ProvenanceAuthor)
  deriving DecidableEq

/-- What the store has under the id of a revision: nothing, a record that fails its own address,
or the revision. -/
inductive RevisionLookup where
  | missing
  | tampered (message : String)
  | found
  deriving DecidableEq

/-- What the routes are configured with. -/
structure DeployEnv where
  codec : Codec
  displayFloat : Rat → String
  /-- The length of the payload of an act, serialized. -/
  payloadBytes : DeploymentAct → Nat
  environments : DeployScope → Option Environment
  gateEvaluator : Bool

def ApprovalToken.admits (token : ApprovalToken) (effectId : String) : Bool :=
  token.effectId = effectId

def revisionPromotionEffectId (codec : Codec) (environment : String) (revisionId : RevisionId) :
    String :=
  deriveEffectId codec (deploymentSurface environment) "revision_promotion" revisionId
    (some ("promotion:" ++ revisionId))

namespace DeployEnv

variable (env : DeployEnv)

/-- What is left of a route after the gate: the token of a promotion, the fraction of a canary. -/
def afterGate (scope : DeployScope) (environment : Environment) :
    DeployRequest → Except ApiError MoveRequest
  | .promote revisionId author approval =>
    let effectId := revisionPromotionEffectId env.codec scope.2 revisionId
    if environment.approvalRequired && !approval.any (·.admits effectId) then
      let name := scope.2
      .error (.forbidden (s!"environment `{name}` requires an approval token scoped to revision " ++
        s!"`{revisionId}`'s promotion effect id — a token minted for any other revision admits " ++
        "nothing here"))
    else .ok (.promote revisionId author)
  | .rollback cause author => .ok (.rollback cause author)
  | .declareCanary revisionId fraction author =>
    match CanaryDeployment.new env.displayFloat revisionId fraction with
    | .ok canary => .ok (.declare canary author)
    | .error message => .error (.unprocessable message)
  | .clearCanary author => .ok (.clear author)

end DeployEnv

/-- The revision that a gate is run for. -/
def DeployRequest.gated : DeployRequest → Option RevisionId
  | .promote revisionId _ _ => some revisionId
  | .declareCanary revisionId _ _ => some revisionId
  | .rollback _ _ => none
  | .clearCanary _ => none

def DeployRequest.token (scope : DeployScope) :
    DeployRequest → List (DeployScope × RevisionId × ApprovalToken)
  | .promote revisionId _ (some token) => [(scope, revisionId, token)]
  | _ => []

/-! ## Handlers -/

inductive Handler where
  /-- A gate is to be run. -/
  | gating (scope : DeployScope) (request : DeployRequest) (environment : Environment)
      (gate : GateDeclaration)
  /-- The gate is evaluated against the revision that served. -/
  | evaluating (scope : DeployScope) (request : DeployRequest) (environment : Environment)
      (gate : GateDeclaration) (baseline : Option RevisionId)
  /-- The first look of a clearance at the slot. -/
  | looking (scope : DeployScope) (author : ProvenanceAuthor)
  | reading (scope : DeployScope) (move : MoveRequest) (attempt : Nat)
  | building (scope : DeployScope) (move : MoveRequest) (attempt : Nat) (base : DeploymentPointer)
  | committing (scope : DeployScope) (move : MoveRequest) (attempt : Nat)
      (base : DeploymentPointer) (act : DeploymentAct) (next : DeploymentPointer)
  | done (answer : MoveAnswer)

structure DeployPlane where
  store : DeployStore
  handlers : List Handler
  presented : List (DeployScope × RevisionId × ApprovalToken)

def DeployPlane.empty : DeployPlane := ⟨.empty, [], []⟩

inductive DeployAction where
  /-- A request comes in; the store answers for its revision. -/
  | request (scope : DeployScope) (request : DeployRequest) (lookup : RevisionLookup)
  /-- The gate looks up its baseline. -/
  | gateBaseline (handler : Nat) (lookup : RevisionLookup)
  | gateDecision (handler : Nat) (evaluation : Except String GateEvaluation) (now : Instant)
  | look (handler : Nat)
  | readPointer (handler : Nat)
  | readChain (handler : Nat) (now : Instant)
  | commit (handler : Nat)
  /-- The process stops between the two writes of a commit. -/
  | crash (handler : Nat)

namespace DeployEnv

variable (env : DeployEnv) (scope : DeployScope) (request : DeployRequest)

/-- A route up to its gate. -/
def arrive (lookup : RevisionLookup) : Handler :=
  let name := scope.2
  match env.environments scope with
  | none => .done (.refused (.notFound
      s!"environment `{name}` is not declared — declare it before deploying to it"))
  | some environment =>
    match request with
    | .rollback cause author =>
      if trim cause = "" then
        .done (.refused (.badRequest
          "a rollback names its cause — the operator's note, the incident id"))
      else .reading scope (.rollback cause author) 0
    | .clearCanary author => .looking scope author
    | .promote revisionId _ _ | .declareCanary revisionId _ _ =>
      match lookup with
      | .missing => .done (.refused (.notFound s!"revision `{revisionId}` not found"))
      | .tampered message => .done (.refused (.unprocessable message))
      | .found =>
        match environment.gate with
        | some gate => .gating scope request environment gate
        | none =>
          match env.afterGate scope environment request with
          | .ok move => .reading scope move 0
          | .error e => .done (.refused e)

/-- `run_gate` up to the evaluation. -/
def gateBaseline (environment : Environment) (gate : GateDeclaration) (pointer : DeploymentPointer)
    (lookup : RevisionLookup) : Handler :=
  let name := scope.2
  let policy := gate.policy
  if !env.gateEvaluator then
    .done (.refused (.conflict (s!"environment `{name}` declares gate `{policy}` but no revision " ++
      "gate evaluator is configured — a gate that cannot run is a gate that did not pass")))
  else
    match pointer.active with
    | none => .evaluating scope request environment gate none
    | some active =>
      match lookup with
      | .missing => .done (.refused (.unprocessable (s!"the deployment pointer for `{name}` names " ++
          s!"revision `{active}`, which the store does not hold — the gate has no trustworthy " ++
          "baseline; refused")))
      | .tampered message => .done (.refused (.unprocessable message))
      | .found => .evaluating scope request environment gate (some active)

def GateVerdict.debug : GateVerdict → String
  | .allow => "Allow"
  | .block => "Block"

/-- `run_gate` from the evaluation on: the decision that is journaled, if any, and the handler
after it. -/
def gateDecision (environment : Environment) (gate : GateDeclaration) (baseline : Option RevisionId)
    (evaluation : Except String GateEvaluation) (now : Instant) :
    Option GateDecisionRecord × Handler :=
  let name := scope.2
  let policy := gate.policy
  let revisionId := request.gated.getD ""
  match evaluation with
  | .error e => (none, .done (.refused (.unprocessable (s!"gate `{policy}` could not evaluate " ++
      s!"revision `{revisionId}`: {e} — an unevaluated gate fails closed"))))
  | .ok evaluation =>
    if evaluation.policy ≠ gate.policy ∨ evaluation.datasetVersion ≠ gate.datasetVersion then
      let answered := evaluation.policy
      let dataset := evaluation.datasetVersion
      let declared := gate.datasetVersion
      (none, .done (.refused (.unprocessable (s!"the gate evaluator answered for policy " ++
        s!"`{answered}` / dataset `{dataset}`, not the declared `{policy}` / `{declared}` — an " ++
        "evaluation that cannot say what it evaluated is not evidence about this promotion"))))
    else
      let record : GateDecisionRecord := ⟨scope.1, scope.2, revisionId, baseline,
        evaluation.policy, evaluation.datasetVersion, evaluation.outcome, evaluation.checks, now⟩
      if !evaluation.allowed then
        let verdict := GateVerdict.debug evaluation.outcome
        let failures := "; ".intercalate
          ((evaluation.checks.filter fun check => !check.passed).map (·.detail))
        (some record, .done (.refused (.unprocessable (s!"gate `{policy}` refused revision " ++
          s!"`{revisionId}` for `{name}` (verdict {verdict}): {failures} — the decision is " ++
          "journaled on the deployment chain"))))
      else
        match env.afterGate scope environment request with
        | .ok move => (some record, .reading scope move 0)
        | .error e => (some record, .done (.refused e))

def buildMove (move : MoveRequest) (attempt : Nat) (base : DeploymentPointer)
    (events : List ChainEvent) (now : Instant) : Handler :=
  match move.build scope now base events with
  | .error e => .done (.refused e)
  | .ok (act, next, converged) =>
    if converged then .done (.converged base) else .committing scope move attempt base act next

end DeployEnv

def afterCommit (scope : DeployScope) (move : MoveRequest) (attempt : Nat)
    (next : DeploymentPointer) : DeploymentMove → Handler
  | .applied journaled => .done (.applied journaled next)
  | .conflict live =>
    if attempt = 0 then .reading scope move 1 else .done (.refused (movedUnder scope live))

def DeployPlane.advance (plane : DeployPlane) (i : Nat) (handler : Handler) : DeployPlane :=
  { plane with handlers := plane.handlers.set i handler }

def DeployEnv.step (env : DeployEnv) (plane : DeployPlane) : DeployAction → DeployPlane
  | .request scope request lookup =>
    { plane with
      handlers := plane.handlers ++ [env.arrive scope request lookup]
      presented := plane.presented ++ request.token scope }
  | .gateBaseline i lookup =>
    match plane.handlers[i]? with
    | some (.gating scope request environment gate) =>
      plane.advance i
        (env.gateBaseline scope request environment gate (plane.store.pointers scope) lookup)
    | _ => plane
  | .gateDecision i evaluation now =>
    match plane.handlers[i]? with
    | some (.evaluating scope request environment gate baseline) =>
      let decided := env.gateDecision scope request environment gate baseline evaluation now
      let chain := plane.store.chain ++ (decided.1.map ChainEvent.gate).toList
      { plane with store := { plane.store with chain := chain } }.advance i decided.2
    | _ => plane
  | .look i =>
    match plane.handlers[i]? with
    | some (.looking scope author) =>
      let pointer := plane.store.pointers scope
      plane.advance i
        (if pointer.canary = none then .done (.converged pointer)
        else .reading scope (.clear author) 0)
    | _ => plane
  | .readPointer i =>
    match plane.handlers[i]? with
    | some (.reading scope move attempt) =>
      plane.advance i (.building scope move attempt (plane.store.pointers scope))
    | _ => plane
  | .readChain i now =>
    match plane.handlers[i]? with
    | some (.building scope move attempt base) =>
      plane.advance i (DeployEnv.buildMove scope move attempt base plane.store.chain now)
    | _ => plane
  | .commit i =>
    match plane.handlers[i]? with
    | some (.committing scope move attempt base act next) =>
      let moved := plane.store.transition env.payloadBytes base.active next act
      { plane with store := moved.1 }.advance i (afterCommit scope move attempt next moved.2)
    | _ => plane
  | .crash i =>
    match plane.handlers[i]? with
    | some (.committing _ _ _ base act _) =>
      { plane with
        store := plane.store.transitionCrashed env.payloadBytes base.active act
        handlers := [] }
    | _ => plane

/-- What a step can do. -/
inductive DeployEnv.Change (env : DeployEnv) (plane : DeployPlane) : DeployAction → DeployPlane → Prop
  | idle (action : DeployAction) : env.Change plane action plane
  | request (scope : DeployScope) (request : DeployRequest) (lookup : RevisionLookup) :
    env.Change plane (.request scope request lookup)
      { plane with
        handlers := plane.handlers ++ [env.arrive scope request lookup]
        presented := plane.presented ++ request.token scope }
  | gateBaseline {i : Nat} {scope : DeployScope} {request : DeployRequest}
      {environment : Environment} {gate : GateDeclaration} (lookup : RevisionLookup)
      (hHandler : plane.handlers[i]? = some (.gating scope request environment gate)) :
    env.Change plane (.gateBaseline i lookup) (plane.advance i
      (env.gateBaseline scope request environment gate (plane.store.pointers scope) lookup))
  | gateDecision {i : Nat} {scope : DeployScope} {request : DeployRequest}
      {environment : Environment} {gate : GateDeclaration} {baseline : Option RevisionId}
      (evaluation : Except String GateEvaluation) (now : Instant)
      (hHandler : plane.handlers[i]? = some (.evaluating scope request environment gate baseline))
      {decision : Option GateDecisionRecord} {handler : Handler}
      (hDecided : env.gateDecision scope request environment gate baseline evaluation now =
        (decision, handler)) :
    env.Change plane (.gateDecision i evaluation now)
      ({ plane with store := { plane.store with
          chain := plane.store.chain ++ (decision.map ChainEvent.gate).toList } }.advance i handler)
  | look {i : Nat} {scope : DeployScope} {author : ProvenanceAuthor}
      (hHandler : plane.handlers[i]? = some (.looking scope author)) :
    env.Change plane (.look i) (plane.advance i
      (if (plane.store.pointers scope).canary = none then
        .done (.converged (plane.store.pointers scope))
      else .reading scope (.clear author) 0))
  | readPointer {i : Nat} {scope : DeployScope} {move : MoveRequest} {attempt : Nat}
      (hHandler : plane.handlers[i]? = some (.reading scope move attempt)) :
    env.Change plane (.readPointer i)
      (plane.advance i (.building scope move attempt (plane.store.pointers scope)))
  | readChain {i : Nat} {scope : DeployScope} {move : MoveRequest} {attempt : Nat}
      {base : DeploymentPointer} (now : Instant)
      (hHandler : plane.handlers[i]? = some (.building scope move attempt base)) :
    env.Change plane (.readChain i now) (plane.advance i
      (DeployEnv.buildMove scope move attempt base plane.store.chain now))
  | commit {i : Nat} {scope : DeployScope} {move : MoveRequest} {attempt : Nat}
      {base : DeploymentPointer} {act : DeploymentAct} {next : DeploymentPointer}
      (hHandler : plane.handlers[i]? = some (.committing scope move attempt base act next))
      (hLive : (plane.store.pointers act.scope).active = base.active) :
    env.Change plane (.commit i)
      ({ plane with store :=
          ⟨Function.update plane.store.pointers act.scope next,
            plane.store.journal env.payloadBytes act⟩ }.advance i
        (.done (.applied (!act.isLastForEnvironment plane.store.chain) next)))
  | conflict {i : Nat} {scope : DeployScope} {move : MoveRequest} {attempt : Nat}
      {base : DeploymentPointer} {act : DeploymentAct} {next : DeploymentPointer}
      (hHandler : plane.handlers[i]? = some (.committing scope move attempt base act next))
      (live : Option RevisionId) :
    env.Change plane (.commit i) (plane.advance i (afterCommit scope move attempt next
      (.conflict live)))
  | crash {i : Nat} {scope : DeployScope} {move : MoveRequest} {attempt : Nat}
      {base : DeploymentPointer} {act : DeploymentAct} {next : DeploymentPointer}
      (hHandler : plane.handlers[i]? = some (.committing scope move attempt base act next)) :
    env.Change plane (.crash i)
      { plane with
        store := plane.store.transitionCrashed env.payloadBytes base.active act
        handlers := [] }

section

variable (scope : DeployScope) (chain : List ChainEvent)

theorem change_step (env : DeployEnv) (plane : DeployPlane) (action : DeployAction) :
    env.Change plane action (env.step plane action) := by
  fun_cases DeployEnv.step env plane action with
  | case1 scope request lookup => exact .request scope request lookup
  | case2 i lookup scope request environment gate hHandler => exact .gateBaseline lookup hHandler
  | case4 i evaluation now scope request environment gate baseline hHandler =>
    exact .gateDecision evaluation now hHandler rfl
  | case6 i scope author hHandler => exact .look hHandler
  | case8 i scope move attempt hHandler => exact .readPointer hHandler
  | case10 i now scope move attempt base hHandler => exact .readChain now hHandler
  | case12 i scope move attempt base act next hHandler moved =>
    by_cases hLive : (plane.store.pointers act.scope).active = base.active
    · simp only [moved, DeployStore.transition, hLive, ne_eq, not_true, if_false]
      exact .commit hHandler hLive
    · simp only [moved, DeployStore.transition, hLive, ne_eq, not_false_eq_true, if_true]
      exact .conflict hHandler _
  | case14 i scope move attempt base act next hHandler => exact .crash hHandler
  | _ => exact .idle _

/-! ## Replay -/

def ChainEvent.actIn : ChainEvent → Option DeploymentAct
  | .act recorded _ => if recorded.scope = scope then some recorded else none
  | .gate _ => none

def replay : DeploymentPointer :=
  (chain.filterMap (·.actIn scope)).foldl DeploymentAct.apply (.new (deploymentSurface scope.2))

theorem replay_append (event : ChainEvent) :
    replay scope (chain ++ [event]) =
      (event.actIn scope).elim (replay scope chain) (DeploymentAct.apply (replay scope chain)) := by
  rw [replay, List.filterMap_append, List.foldl_append, ← replay]
  cases hAct : event.actIn scope <;> simp [hAct]

theorem surface_replay : (replay scope chain).surface = deploymentSurface scope.2 := by
  induction chain using List.reverseRecOn with
  | nil => rfl
  | append_singleton chain event ih =>
    rw [replay_append]
    cases event.actIn scope with
    | none => exact ih
    | some act => exact (DeploymentAct.surface_apply _ act).trans ih

end

/-! ## The pointer and the chain -/

/-- What a handler holds fits together. -/
def Handler.WellBuilt : Handler → Prop
  | .building scope _ _ base => base.surface = deploymentSurface scope.2
  | .committing scope _ _ base act next =>
    base.surface = deploymentSurface scope.2 ∧ act.scope = scope ∧ act.apply base = next
  | _ => True

/-- The pointers are what the chain says, and every handler holds what fits together. -/
structure Coherent (plane : DeployPlane) : Prop where
  pointer : ∀ scope, plane.store.pointers scope = replay scope plane.store.chain
  built : ∀ handler ∈ plane.handlers, handler.WellBuilt

def DeploymentAct.isRollback : DeploymentAct → Bool
  | .rollback _ => true
  | _ => false

/-- An action that keeps the pointers on the chain: nothing crashes, a rollback that commits
meets the canary slot it was built on, and an act that is not journaled again changes nothing. -/
def DeployPlane.steady (plane : DeployPlane) : DeployAction → Bool
  | .commit i =>
    match plane.handlers[i]? with
    | some (.committing scope _ _ base act _) =>
      let live := plane.store.pointers scope
      decide (live.active = base.active →
        (act.isRollback = true → base.canary = live.canary) ∧
          (act.isLastForEnvironment plane.store.chain = true → act.apply live = live))
    | _ => true
  | .crash _ => false
  | _ => true

variable {handler : Handler} {env : DeployEnv} {scope : DeployScope}

theorem wellBuilt_set {handlers : List Handler} (h : ∀ handler ∈ handlers, handler.WellBuilt)
    {i : Nat} (hNew : handler.WellBuilt) : ∀ x ∈ handlers.set i handler, x.WellBuilt := by
  intro x hX
  rcases List.mem_or_eq_of_mem_set hX with hOld | rfl
  · exact h x hOld
  · exact hNew

theorem wellBuilt_arrive (env : DeployEnv) (scope : DeployScope) (request : DeployRequest)
    (lookup : RevisionLookup) : (env.arrive scope request lookup).WellBuilt := by
  unfold DeployEnv.arrive
  repeat' split
  all_goals trivial

theorem wellBuilt_gateBaseline (env : DeployEnv) (scope : DeployScope) (request : DeployRequest)
    (environment : Environment) (gate : GateDeclaration) (pointer : DeploymentPointer)
    (lookup : RevisionLookup) :
    (env.gateBaseline scope request environment gate pointer lookup).WellBuilt := by
  unfold DeployEnv.gateBaseline
  repeat' split
  all_goals trivial

theorem wellBuilt_gateDecision {request : DeployRequest} {environment : Environment}
    {gate : GateDeclaration} {baseline : Option RevisionId}
    {evaluation : Except String GateEvaluation} {now : Instant}
    {decision : Option GateDecisionRecord}
    (h : env.gateDecision scope request environment gate baseline evaluation now =
      (decision, handler)) : handler.WellBuilt := by
  have hHandler : handler =
      (env.gateDecision scope request environment gate baseline evaluation now).2 := by rw [h]
  rw [hHandler]
  unfold DeployEnv.gateDecision
  repeat' split
  all_goals trivial

theorem wellBuilt_buildMove {move : MoveRequest} {attempt : Nat} {base : DeploymentPointer}
    (hBase : base.surface = deploymentSurface scope.2) (events : List ChainEvent) (now : Instant) :
    (DeployEnv.buildMove scope move attempt base events now).WellBuilt := by
  unfold DeployEnv.buildMove
  split
  · trivial
  · rename_i act next converged hBuild
    split
    · trivial
    · obtain ⟨hScope, hNext⟩ := apply_of_build hBuild
      exact ⟨hBase, hScope, hNext⟩

theorem replay_journal (payloadBytes : DeploymentAct → Nat) (store : DeployStore)
    (act : DeploymentAct) (scope : DeployScope) :
    replay scope (store.journal payloadBytes act) =
      if act.scope = scope ∧ act.isLastForEnvironment store.chain = false then
        act.apply (replay scope store.chain)
      else replay scope store.chain := by
  unfold DeployStore.journal
  cases hLast : act.isLastForEnvironment store.chain with
  | true => simp
  | false =>
    rw [if_neg Bool.false_ne_true, replay_append]
    by_cases hScope : act.scope = scope <;> simp [ChainEvent.actIn, hScope]

theorem pointer_commit {payloadBytes : DeploymentAct → Nat} {store : DeployStore}
    (hPointer : ∀ scope, store.pointers scope = replay scope store.chain)
    {base next : DeploymentPointer} {act : DeploymentAct}
    (hSurface : base.surface = deploymentSurface act.scope.2) (hNext : act.apply base = next)
    (hLive : (store.pointers act.scope).active = base.active)
    (hCanary : act.isRollback → base.canary = (store.pointers act.scope).canary)
    (hInForce : act.isLastForEnvironment store.chain →
      act.apply (store.pointers act.scope) = store.pointers act.scope) (scope : DeployScope) :
    Function.update store.pointers act.scope next scope =
      replay scope (store.journal payloadBytes act) := by
  rw [replay_journal]
  by_cases hScope : act.scope = scope
  · subst hScope
    -- the act gives on the live pointer what it gave on the one it was built on
    have hSame : act.apply base = act.apply (store.pointers act.scope) := by
      refine DeploymentAct.apply_congr ?_ hLive.symm ?_
      · rw [hSurface, hPointer, surface_replay]
      · rintro r rfl
        exact hCanary rfl
    rw [Function.update_self, ← hNext, hSame]
    cases hLast : act.isLastForEnvironment store.chain with
    | true =>
      rw [if_neg (by simp), hInForce hLast]
      exact hPointer _
    | false => rw [if_pos ⟨rfl, rfl⟩, hPointer]
  · rw [if_neg (fun h => hScope h.1), Function.update_of_ne (Ne.symm hScope)]
    exact hPointer scope

theorem coherent_step {plane : DeployPlane} {action : DeployAction} (h : Coherent plane)
    (hSteady : plane.steady action) : Coherent (env.step plane action) := by
  have hMem {i : Nat} {handler : Handler} (hAt : plane.handlers[i]? = some handler) :
      handler.WellBuilt := h.built handler (List.mem_of_getElem? hAt)
  have hKept {i : Nat} {handler : Handler} (hNew : handler.WellBuilt) :
      Coherent (plane.advance i handler) := ⟨h.pointer, wellBuilt_set h.built hNew⟩
  have hChange := change_step env plane action
  generalize env.step plane action = plane' at hChange ⊢
  cases hChange with
  | idle => exact h
  | request scope request lookup =>
    refine ⟨h.pointer, fun handler hIn => ?_⟩
    rcases List.mem_append.mp hIn with hOld | hNew
    · exact h.built handler hOld
    · rw [List.mem_singleton.mp hNew]
      exact wellBuilt_arrive env scope request lookup
  | gateBaseline lookup hHandler => exact hKept (wellBuilt_gateBaseline ..)
  | @gateDecision i scope request environment gate baseline evaluation now hHandler decision
      handler hDecided =>
    refine ⟨fun scope => ?_, wellBuilt_set h.built (wellBuilt_gateDecision hDecided)⟩
    cases decision with
    | none => simpa [DeployPlane.advance] using h.pointer scope
    | some record =>
      have hGate : replay scope (plane.store.chain ++ [.gate record]) =
          replay scope plane.store.chain := replay_append ..
      exact (h.pointer scope).trans hGate.symm
  | look hHandler =>
    apply hKept
    split <;> trivial
  | @readPointer i scope move attempt hHandler =>
    apply hKept
    show (plane.store.pointers scope).surface = deploymentSurface scope.2
    rw [h.pointer, surface_replay]
  | @readChain i scope move attempt base now hHandler =>
    exact hKept (wellBuilt_buildMove (hMem hHandler) _ _)
  | @commit i scope move attempt base act next hHandler hLive =>
    obtain ⟨hSurface, hScope, hNext⟩ := hMem hHandler
    subst hScope
    have hConditions := hSteady
    simp only [DeployPlane.steady, hHandler, decide_eq_true_iff] at hConditions
    obtain ⟨hCanary, hInForce⟩ := hConditions hLive
    exact ⟨pointer_commit h.pointer hSurface hNext hLive hCanary hInForce,
      wellBuilt_set h.built trivial⟩
  | conflict hHandler live =>
    apply hKept
    rw [afterCommit]
    split <;> trivial
  | crash hHandler => cases hSteady

theorem coherent_empty : Coherent .empty := ⟨fun _ => rfl, fun _ hIn => by cases hIn⟩

/-- **When the pointer is what the chain says.** -/
theorem pointer_eq_replay {env : DeployEnv} {actions : List DeployAction}
    (h : Admissible env.step (fun plane action => plane.steady action = true) .empty actions)
    (scope : DeployScope) :
    (run env.step .empty actions).store.pointers scope =
      replay scope (run env.step .empty actions).store.chain :=
  (run_invariant (fun _ _ hInv hSteady => coherent_step hInv hSteady) coherent_empty h).pointer
    scope

/-- Environments without a gate, and payloads that stay in their events. -/
def openEnv : DeployEnv :=
  ⟨plainCodec, toString, fun _ => 100, fun _ => some ⟨none, false⟩, false⟩

def devScope : DeployScope := ("t", "dev")

/-- The steps of one request, with none of another between them. -/
def served (i : Nat) (request : DeployRequest) : List DeployAction :=
  [.request devScope request .found, .readPointer i, .readChain i 0, .commit i]

def canaryRun : List DeployAction :=
  served 0 (.promote "a" (.human "h") none) ++ served 1 (.declareCanary "b" 1 (.human "h")) ++
    served 2 (.rollback "x" (.human "h"))

theorem pointer_eq_replay_canary :
    (run openEnv.step .empty canaryRun).store.pointers devScope =
        replay devScope (run openEnv.step .empty canaryRun).store.chain ∧
      (run openEnv.step .empty canaryRun).store.pointers devScope =
        ⟨"deployment:dev", none, some ⟨"b", 1⟩⟩ :=
  ⟨pointer_eq_replay (by decide) devScope, by decide⟩

def redeclareRun : List DeployAction :=
  served 0 (.declareCanary "c" 1 (.human "h")) ++ served 1 (.promote "r" (.human "h") none) ++
    served 2 (.declareCanary "c" 1 (.human "h"))

/-- The second declaration binds the canary, and the chain does not have it. -/
theorem redeclared_canary_unjournaled :
    (run openEnv.step .empty redeclareRun).store.pointers devScope =
        ⟨"deployment:dev", some "r", some ⟨"c", 1⟩⟩ ∧
      replay devScope (run openEnv.step .empty redeclareRun).store.chain =
        ⟨"deployment:dev", some "r", none⟩ ∧
      (run openEnv.step .empty redeclareRun).store.pointers devScope ≠
        replay devScope (run openEnv.step .empty redeclareRun).store.chain := by
  decide

end RustyRuntime
