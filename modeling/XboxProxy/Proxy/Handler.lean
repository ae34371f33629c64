import XboxProxy.Proxy.Attempts
import XboxProxy.Proxy.Headers
import XboxProxy.Proxy.Record

/-!
# The proxy handler (`src/proxy.rs`)

`proxy_handler` from the `Host` header to the reply. `parse` is `str::parse::<Uri>`. The
traffic other requests leave in the metrics store is not shown.
-/

namespace XboxProxy
open Misc

/-- The part of `AppState` the handler uses. -/
structure AppState (F : Type) where
  selector : Selector F
  metrics : MetricsStore F

/-- The body of a reply: a text of the proxy, or the upstream's body in a `CountingStream`. -/
inductive ReplyBody (S : Type) where
  | text (msg : String)
  | stream (inner : S) (state : RecordState)

/-- The clocks the handler reads, the surroundings of its attempts, and the error of
`Response::builder`. -/
structure HandlerEnv (F S : Type) where
  beginNow : Nat
  attempt : Nat → AttemptEnv F S
  recordNow : Nat
  elapsed : Elapsed F
  responseError : Option String
  endNow : Nat

/-- The reply, the state the handler leaves and the attempts it made. -/
structure Handled (F B S : Type) where
  reply : Response (ReplyBody S)
  state : AppState F
  attempts : List (Attempt F B S)

/-- `host_name_from_header` (`proxy.rs:141-155`). -/
def hostNameFromHeader (parse : String → Option Uri) (hostHeader : String) : Option String := do
  let uri ← parse ("http://" ++ hostHeader ++ "/")
  if uri.path ≠ "/" ∨ uri.query.isSome then none
  else
    let authority ← uri.authority
    if authority.toList.contains '@' then none
    else
      let host ← uri.host
      let host := trimEndMatches '.' (trimEndMatches ']' (trimStartMatches '[' host))
      if host = "" then none else some (toAsciiLowercase host)

/-- The host a request is for, or the text of the reply to it (`proxy.rs:308-315`). -/
def requestHost (parse : String → Option Uri) (headers : HeaderMap) : Except String String :=
  match (headers.get .host).bind HeaderValue.toStr with
  | none => .error "missing Host header"
  | some h =>
    match hostNameFromHeader parse (trim h) with
    | none => .error "invalid Host header"
    | some host => .ok host

/-- The client's path and query, `/` without one (`proxy.rs:317-321`). -/
def Uri.clientPath (uri : Uri) : PathAndQuery := uri.pathAndQuery.getD ⟨"/", by decide⟩

/-- `text/plain; charset=utf-8`. -/
def plainText : HeaderValue :=
  (HeaderValue.fromStr "text/plain; charset=utf-8").getD .empty

section
variable {F B S : Type}

/-- A reply of the proxy itself. -/
def textReply (status : UInt16) (msg : String) : Response (ReplyBody S) where
  status
  headers := Multimap.empty.append .contentType plainText
  body := .text msg

def badRequest (msg : String) : Response (ReplyBody S) := textReply 400 msg

def notFound : Response (ReplyBody S) := textReply 404 "host is not managed by xboxproxy"

def serviceUnavailable (msg : String) : Response (ReplyBody S) := textReply 502 msg

/-- `matches!(method, Method::GET | Method::HEAD)`. -/
def Method.retryable (method : Method) : Bool := method == .get || method == .head

variable [Float64 F]

/-- The attempts of a request (`proxy.rs:384-494`), or the message the handler returns at
once. -/
def sendUpstream (selector : Selector F) (hostName : String) (uri : Uri) (fwd : HeaderMap)
    (req : Request B) (env : HandlerEnv F S) : Progress F B S × Option String :=
  if req.method.retryable then
    let build := fun buildError => buildReq req.method uri fwd buildError none
    (tryAttempts hostName build ((List.range 3).map env.attempt) (.start B S selector), none)
  else
    let body := if req.method.retryable then none else some req.body
    let build := fun buildError => buildReq req.method uri fwd buildError body
    tryOnce hostName build (env.attempt 0) (.start B S selector)

/-- The reply to a request whose attempts are over (`proxy.rs:496-555`). A response that
cannot be built drops the stream, which finalizes its record. -/
def finishRequest (metrics : MetricsStore F) (requestMeta : RequestMeta) (p : Progress F B S)
    (env : HandlerEnv F S) : Response (ReplyBody S) × MetricsStore F :=
  let recordState : RecordState :=
    { requestMeta, bytes := 0, recorded := false, error := p.lastErr }
  match p.resp with
  | some r =>
    match env.responseError with
    | none =>
      ({ status := r.status
         headers := relayHeaders r.headers
         body := .stream r.body recordState }, metrics)
    | some e =>
      (serviceUnavailable s!"response build failed: {e}",
        (finalize metrics recordState env.recordNow env.elapsed).1)
  | none =>
    let msg :=
      match p.lastErr with
      | some e => s!"upstream unreachable: {e}"
      | none => "upstream unreachable"
    (serviceUnavailable msg, (finalize metrics recordState env.recordNow env.elapsed).1)

/-- The handler from the upstream host on (`proxy.rs:328-555`). -/
def serveManaged (parse : String → Option Uri) (state : AppState F) (clientIp hostName : String)
    (req : Request B) (env : HandlerEnv F S) : Handled F B S :=
  let upstreamHost := (state.selector.upstreamHostFor hostName).getD hostName
  match parse ("http://" ++ upstreamHost ++ req.uri.clientPath.asStr) with
  | none => { reply := badRequest "invalid request URI", state, attempts := [] }
  | some uri =>
    let fwd := forwardHeaders req.method req.headers clientIp
    match sendUpstream state.selector hostName uri fwd req env with
    | (p, some msg) =>
      { reply := serviceUnavailable msg
        state := { state with selector := p.selector }
        attempts := p.attempts }
    | (p, none) =>
      let requestMeta : RequestMeta :=
        { clientIp
          host := hostName
          path := req.uri.clientPath.asStr
          method := req.method.asStr
          status := p.upstreamStatus.getD 502
          upstreamIp := p.upstreamIp.map IpAddr.toString
          passthrough := false
          ttfbMs := p.ttfbMs }
      let (reply, metrics) := finishRequest state.metrics requestMeta p env
      { reply, state := { selector := p.selector, metrics }, attempts := p.attempts }

/-- `proxy_handler` (`proxy.rs:300-555`); the activity guard is dropped when it returns. -/
def proxyHandler (parse : String → Option Uri) (state : AppState F) (clientAddr : SocketAddr)
    (req : Request B) (env : HandlerEnv F S) : Handled F B S :=
  let clientIp := clientAddr.ip.toString
  match requestHost parse req.headers with
  | .error msg => { reply := badRequest msg, state, attempts := [] }
  | .ok hostName =>
    if (state.selector.hostFor hostName).isSome then
      let opened := { state with metrics := state.metrics.beginRequest env.beginNow }
      let served := serveManaged parse opened clientIp hostName req env
      { served with
        state := { served.state with metrics := served.state.metrics.dropGuard env.endNow } }
    else { reply := notFound, state, attempts := [] }

/-- A handler that has made attempts has served a managed host. -/
theorem served_of_made {parse : String → Option Uri} {state : AppState F}
    {clientAddr : SocketAddr} {req : Request B} {env : HandlerEnv F S} {a : Attempt F B S}
    (made : a ∈ (proxyHandler parse state clientAddr req env).attempts) :
    ∃ hostName, requestHost parse req.headers = .ok hostName ∧
      (state.selector.hostFor hostName).isSome ∧
      ∃ served, served = serveManaged parse
          { state with metrics := state.metrics.beginRequest env.beginNow }
          clientAddr.ip.toString hostName req env ∧
        a ∈ served.attempts ∧
        (proxyHandler parse state clientAddr req env).reply = served.reply := by
  unfold proxyHandler at made ⊢
  simp only at made ⊢
  cases asked : requestHost parse req.headers with
  | error msg =>
    rw [asked] at made
    cases made
  | ok hostName =>
    rw [asked] at made
    simp only at made ⊢
    split at made
    · rename_i managed
      rw [if_pos managed]
      exact ⟨hostName, rfl, managed, _, rfl, made, rfl⟩
    · cases made

end
end XboxProxy
