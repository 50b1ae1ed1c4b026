import RustyRuntime.Library.IpAddr

/-!
# DNS preflight of an egress endpoint

`preflight_egress` of `egress.rs`: every address a host resolved to is checked before the
connection is made to the first one. Without pins an address in a range that the check knows
as private, loopback or link-local is refused; with pins every address must be one of them.

`offLimits` is what the ranges are, in both families and in every form in which a second-family
address carries a first-family one. The check of the source misses part of it.

Main results:

* **When preflight keeps its word** (`preflight_safe_iff`): there are pins, or the check refuses
  the list anyway, or no address is in the part of the ranges that the check does not know
  (`uncovered`).
* Loopback in its mapped form is allowed (`mapped_loopback_allowed`).
-/

namespace RustyRuntime

open Library

/-! ## The code -/

/-- What preflight reads of `EgressEndpoint`. -/
structure EgressEndpoint where
  host : String
  allowedIps : List String

/-- The reasons of `EgressDenialReason` that the functions of `egress.rs` give. -/
inductive EgressDenialReason where
  | noMatchingPolicy
  | noMatchingRule
  | componentNotGranted
  | preflightFailed
  | ipNotPinned
  | pathNotCanonical
  deriving DecidableEq, Repr

inductive PreflightResult where
  | allowed (ip : String)
  | denied (reason : EgressDenialReason) (detail : String)
  deriving DecidableEq, Repr

namespace Ipv4

def isLoopback : BitVec 32 → Bool := Block.contains ⟨octets 127 0 0 0, 8⟩

def isPrivate (a : BitVec 32) : Bool :=
  Block.contains ⟨octets 10 0 0 0, 8⟩ a || Block.contains ⟨octets 172 16 0 0, 12⟩ a ||
    Block.contains ⟨octets 192 168 0 0, 16⟩ a

def isLinkLocal : BitVec 32 → Bool := Block.contains ⟨octets 169 254 0 0, 16⟩

def isMulticast : BitVec 32 → Bool := Block.contains ⟨octets 224 0 0 0, 4⟩

def isBroadcast : BitVec 32 → Bool := Block.contains ⟨octets 255 255 255 255, 32⟩

def isDocumentation (a : BitVec 32) : Bool :=
  Block.contains ⟨octets 192 0 2 0, 24⟩ a || Block.contains ⟨octets 198 51 100 0, 24⟩ a ||
    Block.contains ⟨octets 203 0 113 0, 24⟩ a

def isUnspecified : BitVec 32 → Bool := Block.contains ⟨octets 0 0 0 0, 32⟩

end Ipv4

namespace Ipv6

def isLoopback : BitVec 128 → Bool := Block.contains ⟨groups [0, 0, 0, 0, 0, 0, 0, 1], 128⟩

def isMulticast : BitVec 128 → Bool := Block.contains ⟨groups [0xff00, 0, 0, 0, 0, 0, 0, 0], 8⟩

/-- `is_v6_link_local`. -/
def isLinkLocal : BitVec 128 → Bool := Block.contains ⟨groups [0xfe80, 0, 0, 0, 0, 0, 0, 0], 10⟩

def isUnspecified : BitVec 128 → Bool := Block.contains ⟨0, 128⟩

def isUniqueLocal : BitVec 128 → Bool := Block.contains ⟨groups [0xfc00, 0, 0, 0, 0, 0, 0, 0], 7⟩

end Ipv6

def isPrivateOrLoopbackOrLinkLocal : IpAddr → Bool
  | .v4 a => Ipv4.isLoopback a || Ipv4.isPrivate a || Ipv4.isLinkLocal a || Ipv4.isMulticast a ||
      Ipv4.isBroadcast a || Ipv4.isDocumentation a
  | .v6 a => Ipv6.isLoopback a || Ipv6.isMulticast a || Ipv6.isLinkLocal a

/-- The round of the loop for one resolved address: a denial, or nothing. -/
def preflightOne (endpoint : EgressEndpoint) (ipStr : String) : Option PreflightResult :=
  let outside := PreflightResult.denied .ipNotPinned
    s!"{endpoint.host} resolved to {ipStr} which is outside the allowed_ips pin set"
  match parseIp ipStr with
  | none => some (.denied .preflightFailed s!"{endpoint.host} resolved to invalid IP {ipStr}")
  | some ip =>
    if isPrivateOrLoopbackOrLinkLocal ip && endpoint.allowedIps.isEmpty then
      some (.denied .preflightFailed (s!"{endpoint.host} resolved to " ++
        s!"private/loopback/link-local {ipStr} with no allowed_ips pin"))
    else if isPrivateOrLoopbackOrLinkLocal ip && !endpoint.allowedIps.contains ipStr then
      some outside
    else if !endpoint.allowedIps.isEmpty && !endpoint.allowedIps.contains ipStr then some outside
    else none

def preflightEgress (endpoint : EgressEndpoint) (resolvedIps : List String) : PreflightResult :=
  match resolvedIps with
  | [] => .denied .preflightFailed s!"{endpoint.host} resolved to no addresses"
  | first :: _ => (resolvedIps.findSome? (preflightOne endpoint)).getD (.allowed first)

/-! ## What the ranges are -/

/-- The first-family address that a second-family one carries: mapped (`::ffff:0:0/96`),
compatible (`::/96`), translated (`64:ff9b::/96`) or tunnelled (`2002::/16`). -/
def embeddedV4 (a : BitVec 128) : Option (BitVec 32) :=
  if Block.contains ⟨groups [0, 0, 0, 0, 0, 0xffff, 0, 0], 96⟩ a || Block.contains ⟨0, 96⟩ a ||
      Block.contains ⟨groups [0x64, 0xff9b, 0, 0, 0, 0, 0, 0], 96⟩ a then
    some (a.toNat : BitVec 32)
  else if Block.contains ⟨groups [0x2002, 0, 0, 0, 0, 0, 0, 0], 16⟩ a then
    some (a.toNat >>> 80 : BitVec 32)
  else none

def offLimitsV4 (a : BitVec 32) : Bool :=
  Ipv4.isPrivate a || Ipv4.isLoopback a || Ipv4.isLinkLocal a || Ipv4.isUnspecified a

def offLimits : IpAddr → Bool
  | .v4 a => offLimitsV4 a
  | .v6 a => Ipv6.isLoopback a || Ipv6.isLinkLocal a || Ipv6.isUniqueLocal a ||
      Ipv6.isUnspecified a || (embeddedV4 a).any offLimitsV4

/-- The part of the ranges that the check of the source does not know. -/
def uncovered : IpAddr → Bool
  | .v4 a => Ipv4.isUnspecified a
  | .v6 a => Ipv6.isUniqueLocal a || Ipv6.isUnspecified a || (embeddedV4 a).any offLimitsV4

theorem offLimits_eq_uncovered {ip : IpAddr} (h : isPrivateOrLoopbackOrLinkLocal ip = false) :
    offLimits ip = uncovered ip := by
  cases ip with
  | v4 a =>
    simp only [isPrivateOrLoopbackOrLinkLocal, Bool.or_eq_false_iff] at h
    obtain ⟨⟨⟨⟨⟨hLoopback, hPrivate⟩, hLinkLocal⟩, -⟩, -⟩, -⟩ := h
    simp only [offLimits, uncovered, offLimitsV4, hLoopback, hPrivate, hLinkLocal, Bool.false_or]
  | v6 a =>
    simp only [isPrivateOrLoopbackOrLinkLocal, Bool.or_eq_false_iff] at h
    obtain ⟨⟨hLoopback, -⟩, hLinkLocal⟩ := h
    simp only [offLimits, uncovered, hLoopback, hLinkLocal, Bool.false_or]

/-! ## What preflight allows -/

variable {endpoint : EgressEndpoint} {ipStr ip : String}

/-- An address passes its round with pins when it is one, without when the check finds
nothing. -/
theorem preflightOne_eq_none_iff :
    preflightOne endpoint ipStr = none ↔ ∃ ip, parseIp ipStr = some ip ∧
      if endpoint.allowedIps = [] then isPrivateOrLoopbackOrLinkLocal ip = false
      else ipStr ∈ endpoint.allowedIps := by
  unfold preflightOne
  cases hParse : parseIp ipStr with
  | none => simp
  | some ip =>
    by_cases hPins : endpoint.allowedIps = []
    · cases hFlag : isPrivateOrLoopbackOrLinkLocal ip <;> simp [hPins, hFlag]
    · by_cases hPinned : ipStr ∈ endpoint.allowedIps
      · simp [hPins, hPinned]
      · cases hFlag : isPrivateOrLoopbackOrLinkLocal ip <;> simp [hPins, hPinned]

theorem preflightOne_ne_allowed : preflightOne endpoint ipStr ≠ some (.allowed ip) := by
  unfold preflightOne
  cases parseIp ipStr with
  | none => simp
  | some a =>
    split
    · simp
    · split
      · simp
      · split <;> simp

theorem preflightEgress_eq_allowed_iff {ips : List String} :
    preflightEgress endpoint ips = .allowed ip ↔
      ips.head? = some ip ∧ ∀ ipStr ∈ ips, preflightOne endpoint ipStr = none := by
  cases ips with
  | nil => simp [preflightEgress]
  | cons first rest =>
    rw [preflightEgress, ← List.findSome?_eq_none_iff]
    cases hFound : (first :: rest).findSome? (preflightOne endpoint) with
    | none => simp
    | some result =>
      obtain ⟨ipStr, -, hOne⟩ := List.exists_of_findSome?_eq_some hFound
      simp only [Option.getD_some, reduceCtorEq, and_false, iff_false]
      rintro rfl
      exact preflightOne_ne_allowed hOne

/-- What preflight is for: a connection is allowed only if each resolved address is pinned or
outside every range, and with pins only if each is pinned. -/
def PreflightSafe (endpoint : EgressEndpoint) (ips : List String) : Prop :=
  ∀ ip, preflightEgress endpoint ips = .allowed ip →
    (∀ ipStr ∈ ips, ipStr ∈ endpoint.allowedIps ∨
      ∃ address, parseIp ipStr = some address ∧ offLimits address = false) ∧
    (endpoint.allowedIps ≠ [] → ∀ ipStr ∈ ips, ipStr ∈ endpoint.allowedIps)

/-- **When preflight keeps its word.** -/
theorem preflight_safe_iff (endpoint : EgressEndpoint) (ips : List String) :
    PreflightSafe endpoint ips ↔
      endpoint.allowedIps ≠ [] ∨
      (∃ ipStr ∈ ips, (parseIp ipStr).all isPrivateOrLoopbackOrLinkLocal = true) ∨
      ∀ ipStr ∈ ips, (parseIp ipStr).all (fun address => !uncovered address) = true := by
  constructor
  · intro hSafe
    by_contra hNot
    simp only [not_or, not_not, not_exists, not_and, not_forall] at hNot
    obtain ⟨hPins, hUnflagged, ipStr, hIn, hGap⟩ := hNot
    -- without pins and with nothing to refuse, the list is allowed, the gap included
    have hPass : ∀ s ∈ ips, preflightOne endpoint s = none := by
      intro s hS
      have hFlag := hUnflagged s hS
      simp only [preflightOne_eq_none_iff, if_pos hPins]
      cases hParse : parseIp s with
      | none => simp [hParse] at hFlag
      | some address =>
        refine ⟨address, rfl, ?_⟩
        rw [hParse, Option.all_some, Bool.not_eq_true] at hFlag
        exact hFlag
    obtain ⟨first, hFirst⟩ : ∃ first, ips.head? = some first := by
      cases ips with
      | nil => cases hIn
      | cons first rest => exact ⟨first, rfl⟩
    obtain ⟨hOutside, -⟩ :=
      hSafe first (preflightEgress_eq_allowed_iff.mpr ⟨hFirst, hPass⟩)
    rcases hOutside ipStr hIn with hPinned | ⟨address, hParse, hOff⟩
    · rw [hPins] at hPinned
      cases hPinned
    · have hFlag := hUnflagged ipStr hIn
      rw [hParse, Option.all_some, Bool.not_eq_true] at hFlag
      rw [offLimits_eq_uncovered hFlag] at hOff
      apply hGap
      rw [hParse, Option.all_some, hOff]
      rfl
  · intro hCond ip hAllowed
    obtain ⟨-, hPass⟩ := preflightEgress_eq_allowed_iff.mp hAllowed
    by_cases hPins : endpoint.allowedIps = []
    · refine ⟨fun ipStr hIn => .inr ?_, fun hSome => absurd hPins hSome⟩
      have hRound : ∀ s ∈ ips, ∃ address, parseIp s = some address ∧
          isPrivateOrLoopbackOrLinkLocal address = false := by
        intro s hS
        have hNone := preflightOne_eq_none_iff.mp (hPass s hS)
        simpa only [if_pos hPins] using hNone
      obtain ⟨address, hParse, hFlag⟩ := hRound ipStr hIn
      refine ⟨address, hParse, ?_⟩
      rw [offLimits_eq_uncovered hFlag]
      rcases hCond with hSome | ⟨s, hS, hRefused⟩ | hNoGap
      · exact absurd hPins hSome
      · obtain ⟨other, hOther, hPassed⟩ := hRound s hS
        rw [hOther, Option.all_some, hPassed] at hRefused
        cases hRefused
      · have hGap := hNoGap ipStr hIn
        rw [hParse, Option.all_some, Bool.not_eq_true'] at hGap
        exact hGap
    · have hAll : ∀ ipStr ∈ ips, ipStr ∈ endpoint.allowedIps := by
        intro ipStr hIn
        obtain ⟨_, -, hPinned⟩ := preflightOne_eq_none_iff.mp (hPass ipStr hIn)
        rwa [if_neg hPins] at hPinned
      exact ⟨fun ipStr hIn => .inl (hAll ipStr hIn), fun _ => hAll⟩

/-- Without pins, the loopback address in its mapped form, a unique-local address and the
unspecified addresses are allowed. -/
theorem mapped_loopback_allowed :
    let endpoint : EgressEndpoint := ⟨"internal.example", []⟩
    (∀ ip ∈ ["::ffff:127.0.0.1", "fd00::1", "0.0.0.0", "::"],
      preflightEgress endpoint [ip] = .allowed ip ∧ (parseIp ip).all offLimits = true) ∧
    ¬ PreflightSafe endpoint ["::ffff:127.0.0.1"] := by
  have hAllowed : preflightEgress ⟨"internal.example", []⟩ ["::ffff:127.0.0.1"] =
      .allowed "::ffff:127.0.0.1" := by decide
  refine ⟨by decide, fun hSafe => ?_⟩
  rcases (hSafe _ hAllowed).1 _ List.mem_cons_self with hPinned | ⟨address, hParse, hOff⟩
  · cases hPinned
  · have hMapped : parseIp "::ffff:127.0.0.1" = some (.v6 0xffff7f000001) := by decide
    cases hParse
    exact absurd hOff (by decide)

end RustyRuntime
