import RustyRuntime.Deploy
import RustyRuntime.Journal.Basic
import RustyRuntime.Server.Tenant

/-!
# The deployment chain

`DeploymentControl` of the server's `deploy.rs` and `transition_deployment` of the file store:
acts of all environments are journaled on one chain, and an act moves the pointer of its
environment if that still serves the revision the act was built on.

Two scans read the chain back. `isLastForEnvironment` looks for the last act of the same family,
so that an act which was journaled already is not journaled twice; `rollbackTarget` replays
promotions and rollbacks as a stack. Both pass over an event whose payload was too large to stay
in the event.
-/

namespace RustyRuntime

open Library

/-! ## Events -/

structure GateDeclaration where
  policy : String
  datasetVersion : String
  deriving DecidableEq

inductive GateVerdict where
  | allow
  | block
  deriving DecidableEq, Repr

/-- What the server reads of `GateCheckRecord`. -/
structure GateCheckRecord where
  passed : Bool
  detail : String
  deriving DecidableEq

structure GateEvaluation where
  policy : String
  datasetVersion : String
  outcome : GateVerdict
  checks : List GateCheckRecord
  deriving DecidableEq

def GateEvaluation.allowed (evaluation : GateEvaluation) : Bool :=
  evaluation.outcome = .allow && evaluation.checks.all (·.passed)

structure GateDecisionRecord where
  tenant : String
  environment : String
  revisionId : RevisionId
  baselineRevisionId : Option RevisionId
  policy : String
  datasetVersion : String
  outcome : GateVerdict
  checks : List GateCheckRecord
  decidedAt : Instant
  deriving DecidableEq

inductive ChainEvent where
  | act (act : DeploymentAct) (inline : Bool)
  | gate (record : GateDecisionRecord)
  deriving DecidableEq

/-! ## The last act -/

namespace DeploymentAct

/-- `in_family`: moves of the serving revision, and acts on the canary. -/
def movesActive : DeploymentAct → Bool
  | .promotion _ => true
  | .rollback _ => true
  | .canaryDeclare _ => false
  | .canaryClear _ => false

/-- The same act but for its time and its cause. -/
def same : DeploymentAct → DeploymentAct → Bool
  | .promotion act, .promotion r =>
    r.revisionId = act.revisionId && r.previous = act.previous && r.author = act.author
  | .rollback act, .rollback r => r.fromId = act.fromId && r.toId = act.toId && r.author = act.author
  | .canaryDeclare act, .canaryDeclare r =>
    r.revisionId = act.revisionId && r.fraction = act.fraction && r.author = act.author
  | .canaryClear act, .canaryClear r =>
    r.clearedRevisionId = act.clearedRevisionId && r.author = act.author
  | _, _ => false

/-- What the scan makes of an event: nothing, or whether it is the act. -/
def compareEvent (act : DeploymentAct) : ChainEvent → Option Bool
  | .act recorded true =>
    if act.movesActive = recorded.movesActive ∧ recorded.scope = act.scope then
      some (act.same recorded)
    else none
  | _ => none

def isLastForEnvironment (act : DeploymentAct) (events : List ChainEvent) : Bool :=
  (events.reverse.findSome? act.compareEvent).getD false

end DeploymentAct

/-! ## What a rollback restores -/

/-- The state of the replay: what serves, the stack with its top first, and the stack as it stood
when `from` was last installed. -/
structure RollbackReplay where
  active : Option RevisionId
  stack : List (Option RevisionId)
  installedStack : Option (List (Option RevisionId))
  deriving DecidableEq

def RollbackReplay.step (tenant environment : String) (fromId : RevisionId)
    (replay : RollbackReplay) : ChainEvent → RollbackReplay
  | .act (.promotion promotion) true =>
    if promotion.tenant = tenant ∧ promotion.environment = environment then
      let stack := promotion.previous :: replay.stack
      ⟨some promotion.revisionId, stack,
        if promotion.revisionId = fromId then some stack else replay.installedStack⟩
    else replay
  | .act (.rollback rollback) true =>
    if rollback.tenant = tenant ∧ rollback.environment = environment then
      let stack := replay.stack.tail
      ⟨rollback.toId, stack,
        if rollback.toId = some fromId then some stack else replay.installedStack⟩
    else replay
  | _ => replay

def rollbackTarget (events : List ChainEvent) (tenant environment : String)
    (fromId : RevisionId) : Option (Option RevisionId) :=
  let replay := events.foldl (RollbackReplay.step tenant environment fromId) ⟨none, [], none⟩
  if replay.active = some fromId then replay.stack.head?
  else replay.installedStack.bind List.head?

/-! ## Moves -/

/-- The tenant and the environment. -/
abbrev DeployScope := String × String

/-- What `move_pointer` is called with. -/
inductive MoveRequest where
  | promote (revisionId : RevisionId) (author : ProvenanceAuthor)
  | rollback (cause : String) (author : ProvenanceAuthor)
  | declare (canary : CanaryDeployment) (author : ProvenanceAuthor)
  | clear (author : ProvenanceAuthor)
  deriving DecidableEq

/-- The closures `build`: the act, the pointer after it, and whether the pointer is there
already. -/
def MoveRequest.build (scope : DeployScope) (now : Instant) (base : DeploymentPointer)
    (events : List ChainEvent) :
    MoveRequest → Except ApiError (DeploymentAct × DeploymentPointer × Bool)
  | .promote revisionId author =>
    let act : RevisionPromotion := ⟨scope.1, scope.2, revisionId, base.active, author, now⟩
    .ok (.promotion act, base.promoted act, base.active = some revisionId)
  | .rollback cause author =>
    match base.active with
    | none =>
      let name := scope.2
      .error (.conflict
        s!"environment `{name}` serves nothing — there is no serving revision to roll back")
    | some fromId =>
      match rollbackTarget events scope.1 scope.2 fromId with
      | none =>
        let name := scope.2
        .error (.conflict (s!"revision `{fromId}` never served in `{name}` per the deployment " ++
          "chain — there is no journaled history to restore to"))
      | some toId =>
        let act : RevisionRollback := ⟨scope.1, scope.2, fromId, toId, cause, author, now⟩
        .ok (.rollback act, base.rolledBack act, base.active = toId)
  | .declare canary author =>
    let act : CanaryDeclaration :=
      ⟨scope.1, scope.2, canary.revisionId, canary.fraction, author, now⟩
    .ok (.canaryDeclare act, base.canaried act, base.canary = some canary)
  | .clear author =>
    match base.canary with
    | none =>
      let name := scope.2
      .error (.conflict (s!"environment `{name}` has no canary to clear — the slot moved under " ++
        "this act; re-read and retry"))
    | some canary =>
      let act : CanaryClearance := ⟨scope.1, scope.2, canary.revisionId, author, now⟩
      .ok (.canaryClear act, base.clearedCanary, false)

theorem apply_of_build {scope : DeployScope} {now : Instant} {base next : DeploymentPointer}
    {events : List ChainEvent} {request : MoveRequest} {act : DeploymentAct} {converged : Bool}
    (h : request.build scope now base events = .ok (act, next, converged)) :
    act.scope = scope ∧ act.apply base = next := by
  unfold MoveRequest.build at h
  (repeat' split at h) <;> cases h <;> exact ⟨rfl, rfl⟩

/-- The stored pointers and the chain; an environment without a pointer has a new one. -/
structure DeployStore where
  pointers : DeployScope → DeploymentPointer
  chain : List ChainEvent

def DeployStore.empty : DeployStore :=
  ⟨fun scope => .new (deploymentSurface scope.2), []⟩

inductive DeploymentMove where
  | applied (journaled : Bool)
  | conflict (live : Option RevisionId)
  deriving DecidableEq

namespace DeployStore

variable (payloadBytes : DeploymentAct → Nat) (store : DeployStore)

def journal (act : DeploymentAct) : List ChainEvent :=
  if act.isLastForEnvironment store.chain then store.chain
  else store.chain ++ [.act act (payloadBytes act ≤ inlinePayloadMaxBytes)]

/-- `transition` with `transition_deployment`, under both locks. -/
def transition (expect : Option RevisionId) (next : DeploymentPointer) (act : DeploymentAct) :
    DeployStore × DeploymentMove :=
  let live := (store.pointers act.scope).active
  if live ≠ expect then (store, .conflict live)
  else
    (⟨Function.update store.pointers act.scope next, store.journal payloadBytes act⟩,
      .applied !act.isLastForEnvironment store.chain)

/-- The transition of the file store when it stops between its two writes. -/
def transitionCrashed (expect : Option RevisionId) (act : DeploymentAct) : DeployStore :=
  if (store.pointers act.scope).active ≠ expect then store
  else { store with chain := store.journal payloadBytes act }

end DeployStore

/-- What a route answers: `200` with `applied: false`, `201` or `200` with the pointer, or an
error. -/
inductive MoveAnswer where
  | converged (pointer : DeploymentPointer)
  | applied (journaled : Bool) (pointer : DeploymentPointer)
  | refused (error : ApiError)
  deriving DecidableEq

/-- The `409` after the second lost race. -/
def movedUnder (scope : DeployScope) (live : Option RevisionId) : ApiError :=
  let name := scope.2
  let serving := live.getD "nothing"
  .conflict (s!"environment `{name}` moved under this act — the live pointer serves `{serving}`; " ++
    "re-read and retry (never a lost move)")

end RustyRuntime
