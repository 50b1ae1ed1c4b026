import RustyRuntime.Memory.Query

/-!
# Deployment pointers

`deploy.rs` of the core crate: the pointer of an environment, with a revision that serves and a
canary that serves a fraction of new runs, the four acts that move it, and the revision that a
run is bound to at admission.

Every act gives the pointer after it from the pointer before it (`DeploymentAct.apply`). Only a
rollback reads the canary slot it meets: the others give the same pointer for two pointers that
serve the same revision (`apply_congr`).
-/

namespace RustyRuntime

open Library

abbrev RevisionId := String

/-! ## The pointer -/

structure CanaryDeployment where
  revisionId : RevisionId
  fraction : Rat
  deriving DecidableEq

/-- `CanaryDeployment::new`, with the message of the refusal. -/
def CanaryDeployment.new (displayFloat : Rat → String) (revisionId : RevisionId)
    (fraction : Rat) : Except String CanaryDeployment :=
  if 0 < fraction ∧ fraction ≤ 1 then .ok ⟨revisionId, fraction⟩
  else
    let shown := displayFloat fraction
    .error (s!"canary fraction {shown} is outside (0, 1] — zero binds nothing (a cleared slot " ++
      "says that), and above one is not a fraction")

structure DeploymentPointer where
  surface : String
  active : Option RevisionId
  canary : Option CanaryDeployment
  deriving DecidableEq

def DeploymentPointer.new (surface : String) : DeploymentPointer := ⟨surface, none, none⟩

def deploymentSurface (environment : String) : String := "deployment:" ++ environment

/-! ## The acts -/

structure RevisionPromotion where
  tenant : String
  environment : String
  revisionId : RevisionId
  previous : Option RevisionId
  author : ProvenanceAuthor
  promotedAt : Instant
  deriving DecidableEq

/-- `fromId` and `toId` are `from` and `to`. -/
structure RevisionRollback where
  tenant : String
  environment : String
  fromId : RevisionId
  toId : Option RevisionId
  cause : String
  author : ProvenanceAuthor
  rolledBackAt : Instant
  deriving DecidableEq

structure CanaryDeclaration where
  tenant : String
  environment : String
  revisionId : RevisionId
  fraction : Rat
  author : ProvenanceAuthor
  declaredAt : Instant
  deriving DecidableEq

structure CanaryClearance where
  tenant : String
  environment : String
  clearedRevisionId : RevisionId
  author : ProvenanceAuthor
  clearedAt : Instant
  deriving DecidableEq

namespace DeploymentPointer

variable (pointer : DeploymentPointer)

def promoted (promotion : RevisionPromotion) : DeploymentPointer :=
  { pointer with active := some promotion.revisionId, canary := none }

def rolledBack (rollback : RevisionRollback) : DeploymentPointer :=
  { pointer with
    active := if pointer.active = some rollback.fromId then rollback.toId else pointer.active
    canary := if pointer.canary.any (·.revisionId = rollback.fromId) then none
      else pointer.canary }

def canaried (declaration : CanaryDeclaration) : DeploymentPointer :=
  { pointer with canary := some ⟨declaration.revisionId, declaration.fraction⟩ }

def clearedCanary : DeploymentPointer :=
  { pointer with canary := none }

end DeploymentPointer

inductive DeploymentAct where
  | promotion (act : RevisionPromotion)
  | rollback (act : RevisionRollback)
  | canaryDeclare (act : CanaryDeclaration)
  | canaryClear (act : CanaryClearance)
  deriving DecidableEq

namespace DeploymentAct

def scope : DeploymentAct → String × String
  | .promotion act => (act.tenant, act.environment)
  | .rollback act => (act.tenant, act.environment)
  | .canaryDeclare act => (act.tenant, act.environment)
  | .canaryClear act => (act.tenant, act.environment)

def apply (pointer : DeploymentPointer) : DeploymentAct → DeploymentPointer
  | .promotion act => pointer.promoted act
  | .rollback act => pointer.rolledBack act
  | .canaryDeclare act => pointer.canaried act
  | .canaryClear _ => pointer.clearedCanary

@[simp] theorem surface_apply (pointer : DeploymentPointer) (act : DeploymentAct) :
    (act.apply pointer).surface = pointer.surface := by
  cases act <;> rfl

theorem apply_congr {base live : DeploymentPointer} {act : DeploymentAct}
    (hSurface : base.surface = live.surface) (hActive : base.active = live.active)
    (hCanary : ∀ r, act = .rollback r → base.canary = live.canary) :
    act.apply base = act.apply live := by
  obtain ⟨surface, active, canary⟩ := base
  obtain ⟨surface', active', canary'⟩ := live
  obtain rfl : surface = surface' := hSurface
  obtain rfl : active = active' := hActive
  cases act with
  | promotion act => rfl
  | rollback act =>
    obtain rfl : canary = canary' := hCanary act rfl
    rfl
  | canaryDeclare act | canaryClear act => rfl

end DeploymentAct

/-! ## Admission -/

inductive PointerBinding where
  | active
  | canary
  deriving DecidableEq, Repr

/-- `CANARY_DRAW_DOMAIN`. -/
def canaryDrawDomain : String := "rusty/canary-draw/v1"

/-- `canary_admits`; `drawn` says whether the digest of a text, as a draw, falls below a
fraction. -/
def canaryAdmits (drawn : String → Rat → Bool) (canary : CanaryDeployment) (surface runId : String) :
    Bool :=
  decide (1 ≤ canary.fraction) ||
    drawn ("\n".intercalate [canaryDrawDomain, surface, canary.revisionId, runId]) canary.fraction

/-- `deployment_admission`: the canary if the draw of the run admits it, else what serves. -/
def deploymentAdmission (drawn : String → Rat → Bool) (pointer : DeploymentPointer)
    (runId : String) : Option (RevisionId × PointerBinding) :=
  let active := pointer.active.map fun revisionId => (revisionId, PointerBinding.active)
  match pointer.canary with
  | some canary =>
    if canaryAdmits drawn canary pointer.surface runId then some (canary.revisionId, .canary)
    else active
  | none => active

end RustyRuntime
