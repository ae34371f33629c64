import XboxProxy.Http
import XboxProxy.Selector.Calls

/-!
# Requests to the upstream (`src/proxy.rs`)

The connector, the attempts `proxy_handler` makes, and what the selector is told about them.
Requests run concurrently: the writes other tasks make between two accesses to the selector
are given with the clocks and the answers of the upstream, as the surroundings of an attempt.
-/

namespace XboxProxy
open Misc

/-- `http::Request`; `B` is the type of its body. -/
structure Request (B : Type) where
  method : Method
  uri : Uri
  headers : HeaderMap
  body : B

/-- `http::Response`; `S` is the type of its body. -/
structure Response (S : Type) where
  status : UInt16
  headers : HeaderMap
  body : S

/-- How a request to the upstream ends. -/
inductive Outcome (S : Type) where
  | responded (r : Response S)
  /-- The client reports an error, the connector's ones included. -/
  | failed (e : String)
  /-- `UPSTREAM_HEADER_TIMEOUT` passes first. -/
  | timedOut

/-- What an attempt meets. -/
structure AttemptEnv (F S : Type) where
  beforeBestIp : List (Selector.Write F)
  bestIpNow : Nat
  /-- The error of `Request::builder`. -/
  buildError : Option String
  beforeConnect : List (Selector.Write F)
  /-- The clock of the connector, if the client opens a connection. -/
  connectNow : Option Nat
  outcome : Outcome S
  ttfbMs : Nat
  beforeMark : List (Selector.Write F)
  markNow : Nat

/-- An attempt that was made: the state `best_ip` read, what it returned, the request, its
result, and the address `mark_failure` was called with. -/
structure Attempt (F B S : Type) where
  seen : Selector F
  requestedIp : Option IpAddr
  request : Request (Option B)
  result : Except String (Response S)
  markedIp : Option IpAddr

/-- The variables of the attempts (`proxy.rs:387-392`), the selector as it was last seen and
the attempts made so far. -/
structure Progress (F B S : Type) where
  selector : Selector F
  resp : Option (Response S)
  ttfbMs : Nat
  upstreamIp : Option IpAddr
  upstreamStatus : Option UInt16
  lastErr : Option String
  attempts : List (Attempt F B S)

section
variable {F B S : Type} [Float64 F]

/-- `UpstreamConnector::call` (`proxy.rs:90-108`): the address it connects to. -/
def connectorAddr (s : Selector F) (current : Option IpAddr) (uri : Uri) (now : Nat) :
    Except String SocketAddr :=
  let host := uri.host.getD ""
  let port := (s.upstreamPort host).getD (uri.portU16.getD 80)
  s.resolve current host port now

/-- `CURRENT_IP` after `request_with_ip` (`proxy.rs:160-175`): the connector overwrites it
with the address it has connected to. -/
def chosenIp (s : Selector F) (pre : Option IpAddr) (uri : Uri) (connectNow : Option Nat) :
    Option IpAddr :=
  match connectNow with
  | none => pre
  | some now =>
    match connectorAddr s pre uri now with
    | .ok addr => some addr.ip
    | .error _ => pre

/-- The result of `request_upstream` (`proxy.rs:41-51`). -/
def Outcome.result : Outcome S → Except String (Response S)
  | responded r => .ok r
  | failed e => .error e
  | timedOut => .error "upstream response header timeout"

/-- `build_req` (`proxy.rs:373-382`); `none` is the empty body. -/
def buildReq (method : Method) (uri : Uri) (fwd : HeaderMap) (buildError : Option String)
    (body : Option B) : Except String (Request (Option B)) :=
  match buildError with
  | some e => .error e
  | none => .ok { method, uri, headers := fwd, body }

/-- `mark_failure`, when an address was requested (`proxy.rs:440-442`, `490-492`). -/
def markFailed (s : Selector F) (hostName : String) (ip : Option IpAddr) (now : Nat) :
    Selector F :=
  match ip with
  | some ip => s.markFailure hostName ip now
  | none => s

/-- One call of `request_upstream` and what follows from its result (`proxy.rs:411-443`,
`463-493`). -/
def sendAttempt (hostName : String) (upReq : Request (Option B)) (ip : Option IpAddr)
    (env : AttemptEnv F S) (p : Progress F B S) : Progress F B S :=
  let connecting := p.selector.meanwhile env.beforeConnect
  match env.outcome.result with
  | .ok r =>
    { selector := connecting
      resp := some r
      ttfbMs := env.ttfbMs
      upstreamIp := chosenIp connecting ip upReq.uri env.connectNow
      upstreamStatus := some r.status
      lastErr := p.lastErr
      attempts := p.attempts ++ [⟨p.selector, ip, upReq, .ok r, none⟩] }
  | .error e =>
    { p with
      selector := markFailed (connecting.meanwhile env.beforeMark) hostName ip env.markNow
      lastErr := some e
      attempts := p.attempts ++ [⟨p.selector, ip, upReq, .error e, ip⟩] }

/-- The attempts of a retryable request (`proxy.rs:394-445`): up to one for each of `envs`,
until there is a response or a request cannot be built. -/
def tryAttempts (hostName : String) (build : Option String → Except String (Request (Option B))) :
    List (AttemptEnv F S) → Progress F B S → Progress F B S
  | [], p => p
  | env :: envs, p =>
    let p := { p with selector := p.selector.meanwhile env.beforeBestIp }
    let ip := p.selector.bestIp hostName env.bestIpNow
    match build env.buildError with
    | .error e => { p with lastErr := some e }
    | .ok upReq =>
      let p := sendAttempt hostName upReq ip env p
      if p.resp.isSome then p else tryAttempts hostName build envs p

/-- The attempt of a request that is not retried (`proxy.rs:446-494`), or the message the
handler returns at once. -/
def tryOnce (hostName : String) (build : Option String → Except String (Request (Option B)))
    (env : AttemptEnv F S) (p : Progress F B S) : Progress F B S × Option String :=
  let p := { p with selector := p.selector.meanwhile env.beforeBestIp }
  let ip := p.selector.bestIp hostName env.bestIpNow
  match build env.buildError with
  | .error e => (p, some s!"upstream request build failed: {e}")
  | .ok upReq => (sendAttempt hostName upReq ip env p, none)

end

/-- The variables before the first attempt. -/
def Progress.start {F : Type} (B S : Type) (selector : Selector F) : Progress F B S where
  selector
  resp := none
  ttfbMs := 0
  upstreamIp := none
  upstreamStatus := none
  lastErr := none
  attempts := []

end XboxProxy
