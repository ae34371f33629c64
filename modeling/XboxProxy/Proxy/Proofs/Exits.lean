import XboxProxy.Proxy.Proofs.OneGroup
import XboxProxy.Proxy.Stream

/-!
# The exits of the handler

From the accepted host on, `proxy_handler` leaves by several exits: before the attempts, between
them, and behind them with a reply of its own or the upstream's. What the upstream answers is
read off the surroundings of the attempts; what a reply sends to the database, off its body.
-/

namespace XboxProxy
open Misc

section Answer
variable {F B S : Type}

/-- What a request is answered with that is sent once for each of `envs` at most. -/
def upstreamAnswer : List (AttemptEnv F S) → Option (Response S)
  | [] => none
  | env :: envs =>
    match env.buildError, env.outcome.result with
    | some _, _ => none
    | none, .ok r => some r
    | none, .error _ => upstreamAnswer envs

/-- The answer of the upstream to a request of a client. -/
def HandlerEnv.answer (env : HandlerEnv F S) (method : Method) : Option (Response S) :=
  upstreamAnswer ((List.range (if method.retryable then 3 else 1)).map env.attempt)

/-- The response and its status, as the attempts leave them. -/
structure Progress.Answered (p : Progress F B S) (answer : Option (Response S)) : Prop where
  resp : p.resp = answer
  upstreamStatus : p.upstreamStatus = answer.map (·.status)

variable [Float64 F] {method : Method} {uri : Uri} {fwd : HeaderMap} {body : Option B}

theorem answered_tryAttempts (hostName : String) (envs : List (AttemptEnv F S))
    {p : Progress F B S} (start : p.Answered none) :
    (tryAttempts hostName (fun e => buildReq method uri fwd e body) envs p).Answered
      (upstreamAnswer envs) := by
  induction envs generalizing p with
  | nil => exact start
  | cons env envs ih =>
    cases built : env.buildError with
    | some e =>
      simp only [tryAttempts, upstreamAnswer, buildReq, built]
      exact ⟨start.resp, start.upstreamStatus⟩
    | none =>
      cases result : env.outcome.result with
      | ok r =>
        simp only [tryAttempts, upstreamAnswer, buildReq, built, sendAttempt, result]
        exact ⟨rfl, rfl⟩
      | error e =>
        simp only [tryAttempts, upstreamAnswer, buildReq, built, sendAttempt, result, start.resp]
        exact ih ⟨rfl, start.upstreamStatus⟩

theorem answered_tryOnce (hostName : String) {env : AttemptEnv F S} {p : Progress F B S}
    (start : p.Answered none) (built : env.buildError = none) :
    ∃ p', tryOnce hostName (fun e => buildReq method uri fwd e body) env p = (p', none) ∧
      p'.Answered (upstreamAnswer [env]) := by
  cases result : env.outcome.result with
  | ok r =>
    simp only [tryOnce, upstreamAnswer, buildReq, built, sendAttempt, result]
    exact ⟨_, rfl, rfl, rfl⟩
  | error e =>
    simp only [tryOnce, upstreamAnswer, buildReq, built, sendAttempt, result]
    exact ⟨_, rfl, start.resp, start.upstreamStatus⟩

/-- Unless a request that is not retried cannot be built, the attempts come to an end. -/
theorem answered_sendUpstream (s : Selector F) (hostName : String) (uri : Uri) (fwd : HeaderMap)
    (req : Request B) (env : HandlerEnv F S)
    (built : req.method.retryable ∨ (env.attempt 0).buildError = none) :
    ∃ p, sendUpstream s hostName uri fwd req env = (p, none) ∧
      p.Answered (env.answer req.method) := by
  have start : (Progress.start B S s).Answered none := ⟨rfl, rfl⟩
  unfold sendUpstream HandlerEnv.answer
  by_cases retryable : req.method.retryable
  · simp only [if_pos retryable]
    exact ⟨_, rfl, answered_tryAttempts hostName _ start⟩
  · simp only [if_neg retryable]
    exact answered_tryOnce hostName start (built.resolve_left retryable)

theorem sendUpstream_unbuilt (s : Selector F) (hostName : String) (uri : Uri) (fwd : HeaderMap)
    (req : Request B) (env : HandlerEnv F S)
    (unbuilt : ¬ (req.method.retryable ∨ (env.attempt 0).buildError = none)) :
    ∃ p msg, sendUpstream s hostName uri fwd req env = (p, some msg) := by
  obtain ⟨once, failed⟩ := not_or.mp unbuilt
  obtain ⟨e, built⟩ := Option.ne_none_iff_exists'.mp failed
  unfold sendUpstream
  rw [if_neg once]
  simp only [tryOnce, buildReq, built]
  exact ⟨_, _, rfl⟩

/-- Attempts that have come to an end could be built and leave the answer. -/
theorem answered_of_sent {s : Selector F} {hostName : String} {req : Request B}
    {env : HandlerEnv F S} {p : Progress F B S}
    (sent : sendUpstream s hostName uri fwd req env = (p, none)) :
    (req.method.retryable ∨ (env.attempt 0).buildError = none) ∧
      p.Answered (env.answer req.method) := by
  have built : req.method.retryable ∨ (env.attempt 0).buildError = none := by
    by_contra unbuilt
    obtain ⟨p', msg, early⟩ := sendUpstream_unbuilt s hostName uri fwd req env unbuilt
    cases sent.symm.trans early
  obtain ⟨p', sent', answered⟩ := answered_sendUpstream s hostName uri fwd req env built
  obtain rfl : p = p' := congrArg Prod.fst (sent.symm.trans sent')
  exact ⟨built, answered⟩

end Answer

/-! ## Bodies -/

section Body
variable {F E S : Type} [Float64 F]

/-- What a reply sends to the database while its body is polled and then dropped. -/
def ReplyBody.life (display : E → String) (env : DropEnv F) (polls : List (InnerPoll F E)) :
    ReplyBody S → MetricsStore F → MetricsStore F
  | .text _, metrics => metrics
  | .stream _ state, metrics => (CountingStream.life display env polls metrics state).2.1

/-- The text of the error a reply's body ends with. -/
def ReplyBody.errorText (display : E → String) (polls : List (InnerPoll F E)) :
    ReplyBody S → Option String
  | .text _ => none
  | .stream _ _ => (firstEnd polls).bind (·.errorText display)

/-- Where the record of a request is once its attempts are over: sent, or with the body. -/
theorem finishRequest_cases (metrics : MetricsStore F) (requestMeta : RequestMeta)
    {B : Type} (p : Progress F B S) (env : HandlerEnv F S) :
    (∃ msg rec, (finishRequest metrics requestMeta p env).1.body = .text msg ∧
      (finishRequest metrics requestMeta p env).2 = metrics.recordRequest rec ∧
      rec.requestMeta = requestMeta ∧ rec.error = p.lastErr) ∨
    ∃ inner, (finishRequest metrics requestMeta p env).1.body =
        .stream inner ⟨requestMeta, 0, false, p.lastErr⟩ ∧
      (finishRequest metrics requestMeta p env).2 = metrics := by
  obtain ⟨rec, sent, -, copied, -, error⟩ :=
    finalize_of_fresh ⟨requestMeta, 0, false, p.lastErr⟩ rfl metrics env.recordNow env.elapsed
  unfold finishRequest
  cases p.resp with
  | none => exact .inl ⟨_, rec, rfl, congrArg Prod.fst sent, copied, error⟩
  | some r =>
    cases env.responseError with
    | some e => exact .inl ⟨_, rec, rfl, congrArg Prod.fst sent, copied, error⟩
    | none => exact .inr ⟨r.body, rfl, rfl⟩

/-- The reply and its body send one record: what the attempts have left, with the error of the
body if it ends with one. -/
theorem finishRequest_records (display : E → String) (dropEnv : DropEnv F)
    (polls : List (InnerPoll F E)) (metrics : MetricsStore F) (requestMeta : RequestMeta)
    {B : Type} (p : Progress F B S) (env : HandlerEnv F S) (now : Nat) :
    ∃ rec, ((finishRequest metrics requestMeta p env).1.body.life display dropEnv polls
        ((finishRequest metrics requestMeta p env).2.dropGuard now)).dbTx =
          metrics.dbTx ++ [.insertRequest rec] ∧
      rec.requestMeta = requestMeta ∧
      rec.error = ((finishRequest metrics requestMeta p env).1.body.errorText display polls).or
        p.lastErr := by
  rcases finishRequest_cases metrics requestMeta p env with
    ⟨msg, rec, body, sent, copied, error⟩ | ⟨inner, body, sent⟩
  · refine ⟨rec, ?_, copied, ?_⟩
    · rw [body, sent]
      rfl
    · rw [body, error]
      rfl
  · obtain ⟨rec, later, -, copied, -, error⟩ := CountingStream.life_of_fresh display dropEnv
      (metrics.dropGuard now) ⟨requestMeta, 0, false, p.lastErr⟩ rfl (by simp) polls
    refine ⟨rec, ?_, copied, ?_⟩
    · rw [body, sent, ReplyBody.life, later]
      rfl
    · rw [body, error]
      rfl

/-- The record has the status of the reply unless a response of the upstream cannot be built. -/
theorem status_finishRequest_iff (metrics : MetricsStore F) {requestMeta : RequestMeta}
    {B : Type} {p : Progress F B S} (env : HandlerEnv F S) {answer : Option (Response S)}
    (answered : p.Answered answer) (status : requestMeta.status = p.upstreamStatus.getD 502) :
    requestMeta.status = (finishRequest metrics requestMeta p env).1.status ↔
      env.responseError = none ∨ ∀ r, answer = some r → r.status = 502 := by
  rw [status, answered.upstreamStatus]
  unfold finishRequest
  rw [answered.resp]
  cases answer with
  | none => simp [serviceUnavailable, textReply]
  | some r => cases env.responseError <;> simp [serviceUnavailable, textReply]

end Body

/-! ## The exits -/

section Exits
variable {F B S : Type} [Float64 F] {parse : String → Option Uri} (state : AppState F)
  {clientIp hostName : String} {req : Request B} {env : HandlerEnv F S} {uri : Uri}

/-- The exit before the attempts. -/
theorem serveManaged_unparsed (parsed : parse ("http://" ++
      (state.selector.upstreamHostFor hostName).getD hostName ++ req.uri.clientPath.asStr) = none) :
    serveManaged parse state clientIp hostName req env =
      { reply := badRequest "invalid request URI", state, attempts := [] } := by
  unfold serveManaged
  simp only [parsed]

/-- The exit of a request that is not retried and cannot be built. -/
theorem serveManaged_unbuilt (parsed : parse ("http://" ++
      (state.selector.upstreamHostFor hostName).getD hostName ++ req.uri.clientPath.asStr) =
        some uri) {p : Progress F B S} {msg : String}
    (sent : sendUpstream state.selector hostName uri
      (forwardHeaders req.method req.headers clientIp) req env = (p, some msg)) :
    serveManaged parse state clientIp hostName req env =
      { reply := serviceUnavailable msg
        state := { state with selector := p.selector }
        attempts := p.attempts } := by
  unfold serveManaged
  simp only [parsed, sent]

/-- What the record of a request has of its attempts. -/
structure Progress.Summary (p : Progress F B S) (requestMeta : RequestMeta) : Prop where
  status : requestMeta.status = p.upstreamStatus.getD 502
  upstreamIp : requestMeta.upstreamIp = p.upstreamIp.map IpAddr.toString
  ttfbMs : requestMeta.ttfbMs = p.ttfbMs

/-- The exits behind the attempts. -/
theorem serveManaged_finished (parsed : parse ("http://" ++
      (state.selector.upstreamHostFor hostName).getD hostName ++ req.uri.clientPath.asStr) =
        some uri) {p : Progress F B S}
    (sent : sendUpstream state.selector hostName uri
      (forwardHeaders req.method req.headers clientIp) req env = (p, none)) :
    ∃ requestMeta, p.Summary requestMeta ∧
      serveManaged parse state clientIp hostName req env =
        { reply := (finishRequest state.metrics requestMeta p env).1
          state :=
            { selector := p.selector
              metrics := (finishRequest state.metrics requestMeta p env).2 }
          attempts := p.attempts } := by
  unfold serveManaged
  simp only [parsed, sent]
  exact ⟨_, ⟨rfl, rfl, rfl⟩, rfl⟩

/-- A managed request is served between the two ends of the activity guard. -/
theorem proxyHandler_managed (clientAddr : SocketAddr)
    (accepted : requestHost parse req.headers = .ok hostName)
    (managed : (state.selector.hostFor hostName).isSome) {served : Handled F B S}
    (serves : serveManaged parse
      { state with metrics := state.metrics.beginRequest env.beginNow }
      clientAddr.ip.toString hostName req env = served) :
    proxyHandler parse state clientAddr req env =
      { served with
        state := { served.state with metrics := served.state.metrics.dropGuard env.endNow } } := by
  unfold proxyHandler
  simp only [accepted, if_pos managed, serves]

/-- A managed request whose attempts are over: the reply, and what the reply and its body send
to the database. -/
theorem proxyHandler_finished {E : Type} (clientAddr : SocketAddr)
    (accepted : requestHost parse req.headers = .ok hostName)
    (managed : (state.selector.hostFor hostName).isSome)
    (parsed : parse ("http://" ++ (state.selector.upstreamHostFor hostName).getD hostName ++
      req.uri.clientPath.asStr) = some uri) {p : Progress F B S}
    (sent : sendUpstream state.selector hostName uri
      (forwardHeaders req.method req.headers clientAddr.ip.toString) req env = (p, none))
    (display : E → String) (dropEnv : DropEnv F) (polls : List (InnerPoll F E)) :
    ∃ metrics requestMeta rec, p.Summary requestMeta ∧
      (proxyHandler parse state clientAddr req env).reply =
        (finishRequest metrics requestMeta p env).1 ∧
      (proxyHandler parse state clientAddr req env).state.selector = p.selector ∧
      (proxyHandler parse state clientAddr req env).attempts = p.attempts ∧
      ((proxyHandler parse state clientAddr req env).reply.body.life display dropEnv polls
        (proxyHandler parse state clientAddr req env).state.metrics).dbTx =
          state.metrics.dbTx ++ [.insertRequest rec] ∧
      rec.requestMeta = requestMeta ∧
      rec.error = ((finishRequest metrics requestMeta p env).1.body.errorText display polls).or
        p.lastErr := by
  let opened : AppState F := { state with metrics := state.metrics.beginRequest env.beginNow }
  obtain ⟨requestMeta, summary, served⟩ := serveManaged_finished opened parsed sent
  obtain ⟨rec, recorded, copied, error⟩ :=
    finishRequest_records display dropEnv polls opened.metrics requestMeta p env env.endNow
  refine ⟨opened.metrics, requestMeta, rec, summary, ?_⟩
  rw [proxyHandler_managed state clientAddr accepted managed served]
  exact ⟨rfl, rfl, rfl, recorded, copied, error⟩

/-- A managed request that records something has made its attempts. -/
theorem sent_of_recorded {E : Type} (clientAddr : SocketAddr)
    (accepted : requestHost parse req.headers = .ok hostName)
    (managed : (state.selector.hostFor hostName).isSome) {display : E → String}
    {dropEnv : DropEnv F} {polls : List (InnerPoll F E)} {rec : RequestRecord F}
    (recorded : ((proxyHandler parse state clientAddr req env).reply.body.life display dropEnv
      polls (proxyHandler parse state clientAddr req env).state.metrics).dbTx =
        state.metrics.dbTx ++ [.insertRequest rec]) :
    ∃ uri p, parse ("http://" ++ (state.selector.upstreamHostFor hostName).getD hostName ++
        req.uri.clientPath.asStr) = some uri ∧
      sendUpstream state.selector hostName uri
        (forwardHeaders req.method req.headers clientAddr.ip.toString) req env = (p, none) := by
  let opened : AppState F := { state with metrics := state.metrics.beginRequest env.beginNow }
  have unsent : state.metrics.dbTx ≠ state.metrics.dbTx ++ [.insertRequest rec] := by
    intro same
    simpa using congrArg List.length same
  cases parsed : parse ("http://" ++ (opened.selector.upstreamHostFor hostName).getD hostName ++
      req.uri.clientPath.asStr) with
  | none =>
    rw [proxyHandler_managed state clientAddr accepted managed
      (serveManaged_unparsed opened parsed)] at recorded
    exact absurd recorded unsent
  | some uri =>
    rcases sent : sendUpstream opened.selector hostName uri
      (forwardHeaders req.method req.headers clientAddr.ip.toString) req env with ⟨p, _ | msg⟩
    · exact ⟨uri, p, rfl, sent⟩
    · rw [proxyHandler_managed state clientAddr accepted managed
        (serveManaged_unbuilt opened parsed sent)] at recorded
      exact absurd recorded unsent

end Exits

end XboxProxy
