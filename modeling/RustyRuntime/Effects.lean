import RustyRuntime.Journal.Basic
import RustyRuntime.Library.Separator

/-!
# Effect ids and admission

`effects.rs`: the id of an effect occurrence is the digest of its scope, kind, input hash and
idempotency key, joined by newlines, with a dash for a missing key. An irreversible call is
admitted by spending the approval token that was minted for its id; clones of a context share
the ledger of tokens, so that any interleaving of their calls is one sequence on the ledger.

Main results:

* **When two occurrences are told apart** (`occurrences_apart_iff`): when their lines differ, or
  their fields hold the same numbers of newlines and both have a key or neither has. Exactly
  then their ids differ, and a token minted for the one never admits the other.
* Whatever the calls, a token admits at most one of them (`spent_at_most_once`).
* The id of an occurrence without a key is that of the one with the key `-`, and its token
  admits the other call (`dash_key_spends_token`).
-/

namespace RustyRuntime

open Library

/-! ## Effect ids -/

/-- `EFFECT_ID_DOMAIN`. -/
def effectIdDomain : String := "rusty/effect-id/v1"

def deriveEffectId (codec : Codec) (scope kind inputHash : String)
    (idempotencyKey : Option String) : String :=
  codec.sha256Hex (Json.utf8 ("\n".intercalate
    [effectIdDomain, scope, kind, inputHash, idempotencyKey.getD "-"]))

/-- What an effect id is derived from. -/
structure Occurrence where
  scope : String
  kind : String
  inputHash : String
  idempotencyKey : Option String
  deriving DecidableEq

namespace Occurrence

def effectId (codec : Codec) (o : Occurrence) : String :=
  deriveEffectId codec o.scope o.kind o.inputHash o.idempotencyKey

/-- The fields of the hashed text after the domain. -/
def fields (o : Occurrence) : List (List Char) :=
  [o.scope.toList, o.kind.toList, o.inputHash.toList, (o.idempotencyKey.getD "-").toList]

def lines (o : Occurrence) : List (List Char) := pieces '\n' o.fields

def newlines (o : Occurrence) : List Nat := o.fields.map (List.count '\n')

end Occurrence

/-- Two occurrences with the same lines have them in the same fields, and a dash is a key in
both or a missing one in both. -/
def Unambiguous (p q : Occurrence) : Prop :=
  p.lines = q.lines →
    p.newlines = q.newlines ∧ p.idempotencyKey.isSome = q.idempotencyKey.isSome

instance (p q : Occurrence) : Decidable (Unambiguous p q) :=
  inferInstanceAs (Decidable (_ → _))

variable {p q : Occurrence} {codec : Codec}

theorem eq_of_fields (hFields : p.fields = q.fields)
    (hKeyed : p.idempotencyKey.isSome = q.idempotencyKey.isSome) : p = q := by
  obtain ⟨scope, kind, inputHash, key⟩ := p
  obtain ⟨scope', kind', inputHash', key'⟩ := q
  simp only [Occurrence.fields, List.cons.injEq, String.toList_inj, and_true] at hFields
  obtain ⟨rfl, rfl, rfl, hKey⟩ := hFields
  cases key with
  | none =>
    cases key' with
    | none => rfl
    | some k' => cases hKeyed
  | some k =>
    cases key' with
    | none => cases hKeyed
    | some k' =>
      rw [Option.getD_some, Option.getD_some] at hKey
      rw [hKey]

theorem effectId_eq_iff (hHash : Function.Injective codec.sha256Hex) :
    p.effectId codec = q.effectId codec ↔ p.lines = q.lines := by
  have hText : ∀ o : Occurrence, ("\n".intercalate [effectIdDomain, o.scope, o.kind, o.inputHash,
      o.idempotencyKey.getD "-"]).toList =
        ['\n'].intercalate (effectIdDomain.toList :: o.fields) := by
    intro o
    rw [String.toList_intercalate]
    rfl
  have hPieces : ∀ o : Occurrence, pieces '\n' (effectIdDomain.toList :: o.fields) =
      effectIdDomain.toList.splitOn '\n' ++ o.lines := fun _ => rfl
  have hBytes : Function.Injective Json.utf8 := fun _ _ => Json.utf8_injective
  rw [Occurrence.effectId, Occurrence.effectId, deriveEffectId, deriveEffectId, hHash.eq_iff,
    hBytes.eq_iff, ← String.toList_inj, hText, hText,
    intercalate_eq_iff (by simp) (by simp), hPieces, hPieces, List.append_cancel_left_eq]

theorem effectId_apart_iff (hHash : Function.Injective codec.sha256Hex) :
    (p ≠ q → p.effectId codec ≠ q.effectId codec) ↔ Unambiguous p q := by
  rw [Unambiguous, ← effectId_eq_iff hHash, not_imp_not]
  constructor
  · intro h hSame
    rw [h hSame]
    exact ⟨rfl, rfl⟩
  · intro h hSame
    obtain ⟨hNewlines, hKeyed⟩ := h hSame
    exact eq_of_fields (eq_of_pieces ((effectId_eq_iff hHash).mp hSame) hNewlines) hKeyed

/-! ## Admission -/

structure EffectRequest where
  kind : String
  effect : Effect
  inputHash : String
  idempotencyKey : Option String
  deriving DecidableEq

/-- `EffectRequest::new`, over the canonical form of the input. -/
def EffectRequest.new (codec : Codec) (kind : String) (effect : Effect) (input : Json)
    (idempotencyKey : Option String) : EffectRequest :=
  ⟨kind, effect, contentHash codec (.inline input), idempotencyKey⟩

def EffectRequest.occurrence (request : EffectRequest) (scope : String) : Occurrence :=
  ⟨scope, request.kind, request.inputHash, request.idempotencyKey⟩

structure ApprovalToken where
  effectId : String
  approvedBy : String
  deriving DecidableEq

/-- The `Debug` text of a class. -/
def effectDebug : Effect → String
  | .pure => "Pure"
  | .readOnly => "ReadOnly"
  | .idempotent => "Idempotent"
  | .compensatable => "Compensatable"
  | .nonIdempotent => "NonIdempotent"

/-- The refusals of `admit`, of `EffectViolation`. -/
inductive EffectViolation where
  | missingIdempotencyKey (kind : String)
  | missingCompensation (kind : String)
  | missingApproval (kind effectId : String)
  | shadowRefused (kind : String) (effect : Effect) (effectId : String)
  deriving DecidableEq

def EffectViolation.display : EffectViolation → String
  | .missingIdempotencyKey kind => s!"idempotent effect kind `{kind}` has no idempotency key: " ++
      "a stable key is what the idempotency declaration means at the wire"
  | .missingCompensation kind => s!"compensatable effect kind `{kind}` has no registered " ++
      "rollback handler: register one in a CompensationRegistry before executing it"
  | .missingApproval kind effectId => s!"irreversible effect kind `{kind}` ({effectId}) " ++
      "requires an explicit approval token scoped to its effect id"
  | .shadowRefused kind effect effectId => s!"shadow admission refused {effectDebug effect} " ++
      s!"effect kind `{kind}` ({effectId}): a shadow admits Pure and ReadOnly effects only — " ++
      "the candidate's effects never reach the world"

section Admission

-- a rollback handler is a closure, of any type
variable {H : Type}

/-- A clone of an admission context, without the ledger it shares with the others. -/
structure AdmissionClone (H : Type) where
  scope : String
  compensations : Std.ExtTreeMap String H
  isShadow : Bool

structure EffectPermit (H : Type) where
  effectId : String
  compensation : Option H
  approval : Option ApprovalToken

abbrev Ledger := Std.ExtTreeMap String ApprovalToken

section

variable (tokens : List ApprovalToken) (codec : Codec) (clone : AdmissionClone H)

/-- `with_approvals`: of two tokens for one id the later one is kept. -/
def withApprovals : Ledger :=
  tokens.foldl (fun ledger token => ledger.insert token.effectId token) ∅

def approvalRequired (ledger : Ledger) (request : EffectRequest) : Option String :=
  let effectId := (request.occurrence clone.scope).effectId codec
  if request.effect = .nonIdempotent && !clone.isShadow && !ledger.contains effectId then
    some effectId
  else none

/-- `admit` of the permit minter. -/
def admitRequest (ledger : Ledger) (request : EffectRequest) :
    Except EffectViolation (EffectPermit H) × Ledger :=
  let effectId := (request.occurrence clone.scope).effectId codec
  if clone.isShadow && !(request.effect = .pure || request.effect = .readOnly) then
    (.error (.shadowRefused request.kind request.effect effectId), ledger)
  else match request.effect with
  | .pure | .readOnly => (.ok ⟨effectId, none, none⟩, ledger)
  | .idempotent =>
    if request.idempotencyKey.isNone then
      (.error (.missingIdempotencyKey request.kind), ledger)
    else (.ok ⟨effectId, none, none⟩, ledger)
  | .compensatable =>
    match clone.compensations[request.kind]? with
    | some handler => (.ok ⟨effectId, some handler, none⟩, ledger)
    | none => (.error (.missingCompensation request.kind), ledger)
  | .nonIdempotent =>
    match ledger[effectId]? with
    | some token => (.ok ⟨effectId, none, some token⟩, ledger.erase effectId)
    | none => (.error (.missingApproval request.kind effectId), ledger)

def spent (outcome : Except EffectViolation (EffectPermit H)) : Option ApprovalToken :=
  outcome.toOption.bind (·.approval)

abbrev Admission (H : Type) := AdmissionClone H × EffectRequest

def Admission.occurrence (call : Admission H) : Occurrence := call.2.occurrence call.1.scope

/-- The calls in the order in which they take the lock, each with its outcome. -/
def admissions (codec : Codec) : Ledger → List (Admission H) →
    List (Admission H × Except EffectViolation (EffectPermit H))
  | _, [] => []
  | ledger, call :: rest =>
    let (outcome, ledger) := admitRequest codec call.1 ledger call.2
    (call, outcome) :: admissions codec ledger rest

/-! ## What a call spends -/

theorem admit_cases (ledger : Ledger) (request : EffectRequest) :
    (spent (admitRequest codec clone ledger request).1 = none ∧
      (admitRequest codec clone ledger request).2 = ledger) ∨
    ∃ token, ledger[(request.occurrence clone.scope).effectId codec]? = some token ∧
      spent (admitRequest codec clone ledger request).1 = some token ∧
      (admitRequest codec clone ledger request).2 =
        ledger.erase ((request.occurrence clone.scope).effectId codec) := by
  unfold admitRequest
  dsimp only
  split
  · exact .inl ⟨rfl, rfl⟩
  · cases request.effect with
    | pure | readOnly => exact .inl ⟨rfl, rfl⟩
    | idempotent | compensatable =>
      dsimp only
      split
      · exact .inl ⟨rfl, rfl⟩
      · exact .inl ⟨rfl, rfl⟩
    | nonIdempotent =>
      cases hToken : ledger[(request.occurrence clone.scope).effectId codec]? with
      | some token => exact .inr ⟨token, rfl, rfl, rfl⟩
      | none => exact .inl ⟨rfl, rfl⟩

def Ledger.Keyed (ledger : Ledger) : Prop :=
  ∀ (id : String) (token : ApprovalToken), ledger[id]? = some token → token.effectId = id

theorem keyed_withApprovals : (withApprovals tokens).Keyed := by
  have hAll : ∀ (ledger : Ledger), ledger.Keyed →
      (tokens.foldl (fun ledger token => ledger.insert token.effectId token) ledger).Keyed := by
    induction tokens with
    | nil => exact fun _ hKeyed => hKeyed
    | cons token rest ih =>
      intro ledger hKeyed
      apply ih
      intro id found hFound
      rw [Std.ExtTreeMap.getElem?_insert] at hFound
      split at hFound
      · rename_i hId
        cases hFound
        exact Std.LawfulEqCmp.eq_of_compare hId
      · exact hKeyed id found hFound
  apply hAll
  intro id token hFound
  simp at hFound

end

variable {ledger : Ledger} {codec : Codec} {calls : List (Admission H)}

theorem keyed_erase (hKeyed : ledger.Keyed) (id : String) : Ledger.Keyed (ledger.erase id) := by
  intro other token hFound
  rw [Std.ExtTreeMap.getElem?_erase] at hFound
  split at hFound
  · cases hFound
  · exact hKeyed other token hFound

theorem keyed_admitRequest {clone : AdmissionClone H} {request : EffectRequest}
    (hKeyed : ledger.Keyed) : (admitRequest codec clone ledger request).2.Keyed := by
  rcases admit_cases codec clone ledger request with ⟨-, hSame⟩ | ⟨token, -, -, hErased⟩
  · rw [hSame]
    exact hKeyed
  · rw [hErased]
    exact keyed_erase hKeyed _

theorem effectId_of_spent (hKeyed : ledger.Keyed) {call : Admission H}
    {outcome : Except EffectViolation (EffectPermit H)}
    (hIn : (call, outcome) ∈ admissions codec ledger calls) {token : ApprovalToken}
    (hSpent : spent outcome = some token) : token.effectId = call.occurrence.effectId codec := by
  induction calls generalizing ledger with
  | nil => cases hIn
  | cons first rest ih =>
    rw [admissions, List.mem_cons] at hIn
    rcases hIn with hFirst | hRest
    · cases hFirst
      rcases admit_cases codec call.1 ledger call.2 with ⟨hNone, -⟩ | ⟨found, hFound, hTaken, -⟩
      · rw [hNone] at hSpent
        cases hSpent
      · rw [hTaken] at hSpent
        cases hSpent
        exact hKeyed _ _ hFound
    · exact ih (keyed_admitRequest hKeyed) hRest

/-- The call spends a token minted for the id. -/
def spends (id : String) (step : Admission H × Except EffectViolation (EffectPermit H)) : Bool :=
  (spent step.2).any (·.effectId = id)

theorem contains_admit (codec : Codec) (hKeyed : ledger.Keyed) (call : Admission H) (id : String) :
    (spends id (call, (admitRequest codec call.1 ledger call.2).1) →
      ledger.contains id ∧ (admitRequest codec call.1 ledger call.2).2.contains id = false) ∧
    ((admitRequest codec call.1 ledger call.2).2.contains id →
      ledger.contains id) := by
  rcases admit_cases codec call.1 ledger call.2 with
    ⟨hNone, hSame⟩ | ⟨token, hFound, hSpent, hErased⟩
  · rw [hSame]
    refine ⟨fun hSpends => ?_, fun hHeld => hHeld⟩
    simp [spends, hNone] at hSpends
  · have hId := hKeyed _ _ hFound
    rw [hErased]
    constructor
    · intro hSpends
      simp only [spends, hSpent, Option.any_some, decide_eq_true_eq] at hSpends
      rw [← hSpends, hId]
      refine ⟨?_, by simp⟩
      rw [Std.ExtTreeMap.contains_iff_mem, Std.ExtTreeMap.mem_iff_isSome_getElem?, hFound]
      rfl
    · intro hHeld
      simp only [Std.ExtTreeMap.contains_erase, Bool.and_eq_true] at hHeld
      exact hHeld.2

theorem countP_spends_le (id : String) (hKeyed : ledger.Keyed) :
    (admissions codec ledger calls).countP (spends id) ≤ if ledger.contains id then 1 else 0 := by
  induction calls generalizing ledger with
  | nil => simp [admissions]
  | cons call rest ih =>
    rw [admissions, List.countP_cons]
    have hNext : (admitRequest codec call.1 ledger call.2).2.Keyed := keyed_admitRequest hKeyed
    have hRest := ih hNext
    obtain ⟨hTaken, hKept⟩ := contains_admit codec hKeyed call id
    by_cases hSpends : spends id (call, (admitRequest codec call.1 ledger call.2).1)
    · obtain ⟨hHeld, hGone⟩ := hTaken hSpends
      rw [hGone] at hRest
      rw [if_pos hSpends, if_pos hHeld]
      simp only [Bool.false_eq_true, if_false] at hRest
      omega
    · rw [if_neg hSpends]
      by_cases hAfter : (admitRequest codec call.1 ledger call.2).2.contains id
      · rw [if_pos hAfter] at hRest
        rw [if_pos (hKept hAfter)]
        exact hRest
      · rw [if_neg hAfter] at hRest
        omega

/-! ## Tokens and the calls they admit -/

/-- **A token admits at most one call**, whatever the tokens and the calls. -/
theorem spent_at_most_once (codec : Codec) (tokens : List ApprovalToken)
    (calls : List (Admission H)) (id : String) :
    (admissions codec (withApprovals tokens) calls).countP (spends id) ≤ 1 := by
  refine (countP_spends_le id (keyed_withApprovals tokens)).trans ?_
  split <;> omega

/-- What approval is for, on two occurrences: their ids differ, and over any sequence of calls
of clones that share any tokens, a token minted for the first admits at most one call, and
none for the second. -/
structure ApartFor (H : Type) (codec : Codec) (p q : Occurrence) : Prop where
  ids : p ≠ q → p.effectId codec ≠ q.effectId codec
  once : ∀ (tokens : List ApprovalToken) (calls : List (Admission H)),
    (admissions codec (withApprovals tokens) calls).countP (spends (p.effectId codec)) ≤ 1
  own : ∀ (tokens : List ApprovalToken) (calls : List (Admission H)),
    ∀ step ∈ admissions codec (withApprovals tokens) calls,
      spends (p.effectId codec) step = true → step.1.occurrence = q → p = q

/-- **When two occurrences are told apart.** -/
theorem occurrences_apart_iff {codec : Codec} (hHash : Function.Injective codec.sha256Hex)
    (p q : Occurrence) : ApartFor H codec p q ↔ Unambiguous p q := by
  rw [← effectId_apart_iff hHash]
  constructor
  · exact ApartFor.ids
  · intro hIds
    refine ⟨hIds, fun tokens calls => spent_at_most_once codec tokens calls _, ?_⟩
    rintro tokens calls ⟨call, outcome⟩ hIn hSpends rfl
    by_contra hNe
    apply hIds hNe
    cases hSpent : spent outcome with
    | none => simp [spends, hSpent] at hSpends
    | some token =>
      simp only [spends, hSpent, Option.any_some, decide_eq_true_eq] at hSpends
      rw [← hSpends]
      exact effectId_of_spent (keyed_withApprovals tokens) hIn hSpent

end Admission

/-- A charge without a key. -/
def keylessCharge : Occurrence := ⟨"run-1", "charge_card", "c0ffee", none⟩

/-- The same charge under the key `-`. -/
def dashCharge : Occurrence := { keylessCharge with idempotencyKey := some "-" }

def chargeRequest (o : Occurrence) : EffectRequest :=
  ⟨o.kind, .nonIdempotent, o.inputHash, o.idempotencyKey⟩

theorem occurrences_apart_keys :
    ApartFor Unit plainCodec keylessCharge { keylessCharge with idempotencyKey := some "key-1" } :=
  (occurrences_apart_iff hexText_injective _ _).mpr (by decide)

/-- The token that was minted for the charge without a key admits the one with the key `-`, and
a newline moves the border between scope and kind. -/
theorem dash_key_spends_token :
    keylessCharge ≠ dashCharge ∧
      keylessCharge.effectId plainCodec = dashCharge.effectId plainCodec ∧
    (admissions plainCodec (withApprovals [⟨keylessCharge.effectId plainCodec, "ops"⟩])
        [((⟨"run-1", ∅, false⟩ : AdmissionClone Unit), chargeRequest dashCharge)]).map
      (fun step => (step.1.occurrence, spent step.2)) =
      [(dashCharge, some ⟨keylessCharge.effectId plainCodec, "ops"⟩)] ∧
    deriveEffectId plainCodec "run" "a\nb" "c0ffee" none =
      deriveEffectId plainCodec "run\na" "b" "c0ffee" none ∧
    ¬ ApartFor Unit plainCodec keylessCharge dashCharge := by
  have hIds : keylessCharge.effectId plainCodec = dashCharge.effectId plainCodec := by
    decide
  exact ⟨by decide, hIds, by decide, by decide,
    fun hApart => hApart.ids (by decide) hIds⟩

end RustyRuntime
