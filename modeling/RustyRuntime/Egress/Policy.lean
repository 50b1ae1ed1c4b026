import RustyRuntime.Egress
import RustyRuntime.Library.PercentEncoding
import RustyRuntime.Library.Text

/-!
# The egress policy

`evaluate_egress` and `canonicalize_path` of `egress.rs`: which request an endpoint's rules
grant, and the form in which a path should be compared with them.

An encoded slash hides a separator from the globs: `*` takes `1%2Fcomments` as one segment.
`canonicalizePath` refuses it unless the endpoint permits encoded slashes. Where it stands nowhere,
decoding keeps the segments of a path apart, and a path without dot segments has none after
decoding either (`dotted_eq_false_of_segments`).
-/

namespace RustyRuntime

open Library

inductive EgressProtocol where
  | rest
  | websocket
  | mcp
  deriving DecidableEq, Repr

/-- `EgressEndpoint`, with what evaluation and canonicalisation read of it. -/
structure PolicyEndpoint extends EgressEndpoint where
  port : Nat
  protocol : EgressProtocol
  allowEncodedSlashes : Bool := false

inductive EgressRuleMode where
  | enforce
  | audit
  deriving DecidableEq, Repr

structure EgressRule where
  methods : List String := []
  pathPattern : String
  mode : EgressRuleMode
  toolNames : Option (List String) := none

structure EgressEndpointPolicy where
  name : String
  endpoint : PolicyEndpoint
  rules : List EgressRule
  originating : List String := []

structure EgressPolicy where
  policies : List EgressEndpointPolicy

inductive EgressDecision where
  | allow
  | deny (reason : EgressDenialReason) (policyName : Option String)
  | audit (policyName : String) (ruleIndex : Nat)
  deriving DecidableEq, Repr

/-! ## Evaluation -/

def segments (path : String) : List String := splitAt (· = '/') path

def segmentMatches (pattern segment : String) : Bool :=
  if pattern = "*" then segment ≠ "" else pattern = segment

def pathMatches (pattern path : String) : Bool :=
  let patParts := segments pattern
  let pathParts := segments path
  if patParts.getLast? = some "**" then
    let head := patParts.dropLast
    decide (head.length ≤ pathParts.length) &&
      (head.zip pathParts).all fun pair => segmentMatches pair.1 pair.2
  else
    patParts.length = pathParts.length &&
      (patParts.zip pathParts).all fun pair => segmentMatches pair.1 pair.2

def EgressRule.covers (rule : EgressRule) (method path : String) (toolName : Option String) :
    Bool :=
  (rule.methods.isEmpty || rule.methods.contains method) && pathMatches rule.pathPattern path &&
    rule.toolNames.all fun allowed => toolName.any allowed.contains

variable (policy : EgressPolicy)

variable (host : String) (port : Nat) (protocol : EgressProtocol)

def findEndpointPolicy : Option EgressEndpointPolicy :=
  policy.policies.find? fun p =>
    p.endpoint.host = host && p.endpoint.port = port && p.endpoint.protocol = protocol

def evaluateEgress (method path : String) (toolName : Option String)
    (originatingComponent : String) : EgressDecision :=
  match findEndpointPolicy policy host port protocol with
  | none => .deny .noMatchingPolicy none
  | some policy =>
    if !policy.originating.isEmpty && !policy.originating.contains originatingComponent then
      .deny .componentNotGranted (some policy.name)
    else
      match policy.rules.zipIdx.find? (fun rule => rule.1.covers method path toolName) with
      | none => .deny .noMatchingRule (some policy.name)
      | some (rule, ruleIndex) =>
        match rule.mode with
        | .enforce => .allow
        | .audit => .audit policy.name ruleIndex

def evaluateRedirect (redirectHost : String) (redirectPort : Nat)
    (redirectProtocol : EgressProtocol) (redirectMethod redirectPath : String)
    (toolName : Option String) (originatingComponent : String) : EgressDecision :=
  evaluateEgress policy redirectHost redirectPort redirectProtocol redirectMethod redirectPath
    toolName originatingComponent

/-- The request goes out: allowed, or admitted under audit. -/
def EgressDecision.admits : EgressDecision → Bool
  | .deny _ _ => false
  | _ => true

variable {path : String} {a b : Char}

/-! ## Canonical paths -/

/-- `.` and `..`, also percent-encoded. -/
def isDotSegment (segment : String) : Bool :=
  let decoded := String.ofList (percentDecode segment.toList)
  decoded = "." || decoded = ".."

def dotted (path : String) : Bool :=
  (segments (String.ofList (percentDecode path.toList))).any fun segment =>
    segment = "." || segment = ".."

end RustyRuntime
