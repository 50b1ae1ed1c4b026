import Mathlib
import RustyRuntime.Json
import RustyRuntime.Library.Separator
import RustyRuntime.Library.Text

/-!
# Tenants, principals and internal ids

`auth.rs`: who is calling, and the internal ids under which a tenant's resources are stored.
A named tenant joins its name and the id by a slash, the default tenant takes the id as it is.
Tenant names are those `with_tenant_key` lets a configuration have, and ids chosen by a client
pass `validateClientId` before something is created under them.

The granted scopes of a caller are left out: the functions here do not read them.
-/

namespace RustyRuntime

open Library

/-! ## Errors -/

/-- `ApiError`: the status with the kind and the message of the body. -/
structure ApiError where
  status : Nat
  kind : String
  message : String
  deriving DecidableEq, Repr

namespace ApiError

def badRequest (message : String) : ApiError := ⟨400, "bad_request", message⟩

def forbidden (message : String) : ApiError := ⟨403, "forbidden", message⟩

def notFound (message : String) : ApiError := ⟨404, "not_found", message⟩

def conflict (message : String) : ApiError := ⟨409, "conflict", message⟩

def unprocessable (message : String) : ApiError := ⟨422, "unprocessable", message⟩

def internal (message : String) : ApiError := ⟨500, "internal_error", message⟩

end ApiError

/-! ## Callers -/

inductive PrincipalKind where
  | user
  | service
  deriving DecidableEq, Repr

def PrincipalKind.name : PrincipalKind → String
  | .user => "user"
  | .service => "service"

inductive Role where
  | admin
  | builder
  | operator
  | auditor
  deriving DecidableEq, Repr

structure Principal where
  id : String
  name : String
  kind : PrincipalKind
  roles : List Role
  deriving DecidableEq

structure TenantContext where
  tenant : String
  principal : Principal
  deriving DecidableEq

/-! ## Internal ids -/

def defaultTenant : String := "default"

/-- `RESERVED_NAMES`. -/
def reservedNames : List String :=
  ["accepted_runs", "agent_leases", "agents", "artifacts", "assistants", "capsules",
   "capsule_policies", "connections", "connectors", "coordinations", "crons", "deployments",
   "env-secrets", "gaps", "hunts", "induction", "journals", "keys", "knowledge", "learn",
   "memory", "memory_artifacts", "outbox", "pending_runs", "policy", "receipts", "registry",
   "skills", "store", "tasks", "threads", "trigger_events", "triggers", "latest"]

/-- The tenant names that `with_tenant_key` does not panic on. -/
def validTenant (tenant : String) : Bool :=
  !tenant.isEmpty && decide (tenant.utf8ByteSize ≤ 64) &&
    (tenant.toList.all fun c => c.isAlphanum || c = '_' || c = '-' || c = '.') &&
    !reservedNames.contains tenant

def scopeId (tenant id : String) : String :=
  if tenant = defaultTenant then id else s!"{tenant}/{id}"

/-- `str::split_once` at a character. -/
def splitOnce (c : Char) (s : String) : Option (String × String) :=
  (splitFirst c s.toList).map fun parts => (String.ofList parts.1, String.ofList parts.2)

/-- `strip_owned`: the external id, if the internal one is the tenant's. -/
def stripOwned (tenant internalId : String) : Option String :=
  if tenant = defaultTenant then
    if internalId.toList.contains '/' then none else some internalId
  else (stripPrefix tenant internalId).bind (stripPrefix "/")

def tenantOfInternal (internalId : String) : String :=
  match splitOnce '/' internalId with
  | some (tenant, _) => tenant
  | none => defaultTenant

namespace TenantContext

variable (ctx : TenantContext)

def scope (id : String) : String := scopeId ctx.tenant id

/-- `attribution`, the stamp on what the caller creates. -/
def attribution : Json :=
  .object [("principal_id", .str ctx.principal.id), ("name", .str ctx.principal.name),
    ("kind", .str ctx.principal.kind.name)]

def personBound : Bool :=
  ctx.principal.kind = .user && !ctx.principal.roles.contains .admin

def mayActFor (subject : String) : Bool :=
  !ctx.personBound || subject = ctx.principal.id

def mayReadFor (subject : String) : Bool :=
  ctx.mayActFor subject || ctx.principal.roles.contains .auditor

end TenantContext

def validateClientId (kind id : String) : Except ApiError Unit :=
  if !id.isEmpty && decide (id.utf8ByteSize ≤ 256) && !id.toList.contains '/' &&
      !id.toList.contains '\\' && !(id.toList.all (· = '.')) && !reservedNames.contains id then
    .ok ()
  else .error (.badRequest
    (s!"invalid {kind} `{id}` (must be non-empty, <= 256 chars, no path separators, " ++
     "not a reserved name)"))

variable {kind other id tenant : String}

theorem validateClientId_kind (h : validateClientId kind id = .ok ()) :
    validateClientId other id = .ok () := by
  unfold validateClientId at h ⊢
  split at h
  · rename_i hOk
    rw [if_pos hOk]
  · cases h

/-! ## Which ids meet -/

theorem slash_notMem_of_validTenant (h : validTenant tenant) : '/' ∉ tenant.toList := by
  intro hIn
  simp only [validTenant, Bool.and_eq_true] at h
  exact absurd (List.all_eq_true.mp h.1.2 '/' hIn) (by decide)

theorem slash_notMem_of_validateClientId (h : validateClientId kind id = .ok ()) :
    '/' ∉ id.toList := by
  unfold validateClientId at h
  split at h
  · rename_i hOk
    simp only [Bool.and_eq_true, Bool.not_eq_true', List.contains_eq_mem,
      decide_eq_false_iff_not] at hOk
    exact hOk.1.1.1.2
  · cases h

theorem scopeId_default (id : String) : scopeId defaultTenant id = id := if_pos rfl

theorem toList_scopeId (h : tenant ≠ defaultTenant) (id : String) :
    (scopeId tenant id).toList = tenant.toList ++ '/' :: id.toList := by
  simp [scopeId, h, toString]

theorem splitOnce_eq_some_iff {c : Char} {s before after : String} :
    splitOnce c s = some (before, after) ↔
      s.toList = before.toList ++ c :: after.toList ∧ c ∉ before.toList := by
  rw [← splitFirst_eq_some_iff, splitOnce]
  simp only [Option.map_eq_some_iff, Prod.exists, Prod.mk.injEq]
  constructor
  · rintro ⟨left, right, hSplit, rfl, rfl⟩
    rw [String.toList_ofList, String.toList_ofList]
    exact hSplit
  · intro hSplit
    exact ⟨before.toList, after.toList, hSplit, String.ofList_toList, String.ofList_toList⟩

theorem splitOnce_scopeId (hTenant : validTenant tenant) (hNamed : tenant ≠ defaultTenant)
    (id : String) : splitOnce '/' (scopeId tenant id) = some (tenant, id) :=
  splitOnce_eq_some_iff.mpr ⟨toList_scopeId hNamed id, slash_notMem_of_validTenant hTenant⟩

theorem scopeId_ne_of_named (hTenant : validTenant tenant)
    (hOther : validTenant other) (hNamed : tenant ≠ defaultTenant)
    (hOtherNamed : other ≠ defaultTenant) (hNe : other ≠ tenant) (id thread : String) :
    scopeId tenant id ≠ scopeId other thread := by
  intro h
  have hSplit := splitOnce_scopeId hTenant hNamed id
  rw [h, splitOnce_scopeId hOther hOtherNamed] at hSplit
  exact hNe (congrArg Prod.fst (Option.some.inj hSplit))

theorem scopeId_ne_of_default {thread : String} (hNamed : tenant ≠ defaultTenant)
    (hThread : validateClientId kind thread = .ok ()) (id : String) :
    scopeId tenant id ≠ scopeId defaultTenant thread := by
  intro h
  rw [scopeId_default] at h
  apply slash_notMem_of_validateClientId hThread
  rw [← h, toList_scopeId hNamed]
  simp

/-- A tenant owns its internal ids; those of the default tenant must have no slash. -/
theorem stripOwned_scopeId (h : tenant = defaultTenant → '/' ∉ id.toList) :
    stripOwned tenant (scopeId tenant id) = some id := by
  unfold stripOwned
  by_cases hNamed : tenant = defaultTenant
  · rw [if_pos hNamed, hNamed, scopeId_default, if_neg]
    rw [List.contains_iff_mem]
    exact h hNamed
  · have hHead : stripPrefix tenant (scopeId tenant id) = some ("/" ++ id) := by
      rw [stripPrefix_eq_some_iff]
      simp [scopeId, hNamed, toString, String.append_assoc]
    rw [if_neg hNamed, hHead]
    exact stripPrefix_eq_some_iff.mpr rfl

theorem tenantOfInternal_scopeId (hTenant : validTenant tenant)
    (hId : validateClientId kind id = .ok ()) : tenantOfInternal (scopeId tenant id) = tenant := by
  unfold tenantOfInternal
  by_cases hNamed : tenant = defaultTenant
  · subst hNamed
    rw [scopeId_default]
    cases hSplit : splitOnce '/' id with
    | none => rfl
    | some parts =>
      have hSlash : '/' ∈ id.toList := by
        rw [(splitOnce_eq_some_iff.mp hSplit).1]
        simp
      exact absurd hSlash (slash_notMem_of_validateClientId hId)
  · rw [splitOnce_scopeId hTenant hNamed]

end RustyRuntime
