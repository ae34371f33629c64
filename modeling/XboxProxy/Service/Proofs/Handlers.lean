import XboxProxy.Proxy.Proofs.Exits
import XboxProxy.Service

/-!
# A handler is one step of the service

What a request comes to is decided by its host, by the URIs that can be parsed and by the first
attempt that is answered. The verdict fixes the reply, what the service does with the record,
and whether the request counts as traffic; the handler, with its loop and its guard, does what
the verdict says.
-/

namespace XboxProxy
open Misc

/-- The body a handler hands to the server. -/
def Handled.downloads {F B S : Type} (handled : Handled F B S) : List Download :=
  match handled.reply.body with
  | .text _ => []
  | .stream _ state => [⟨state, false⟩]

/-! ## What the attempts come to -/

/-- The response of the first attempt that is answered, with the time to its first byte, and the
last error before it. -/
structure Trial (S : Type) where
  answer : Option (Response S × Nat)
  lastErr : Option String

section
variable {F B E S : Type}

/-- A request is sent once for each of `envs` at most; `lastErr` is the error so far. -/
def trial : List (AttemptEnv F S) → Option String → Trial S
  | [], lastErr => ⟨none, lastErr⟩
  | env :: envs, lastErr =>
    match env.buildError, env.outcome.result with
    | some e, _ => ⟨none, some e⟩
    | none, .ok r => ⟨some (r, env.ttfbMs), lastErr⟩
    | none, .error e => trial envs (some e)

/-- The trial of a request of a client. -/
def HandlerEnv.trial (env : HandlerEnv F S) (method : Method) : Trial S :=
  XboxProxy.trial ((List.range (if method.retryable then 3 else 1)).map env.attempt) none

/-- The attempts end as the trial says, and an answer comes from the address asked for. -/
structure Progress.Ends (p : Progress F B S) (t : Trial S) : Prop where
  resp : p.resp = t.answer.map Prod.fst
  ttfbMs : p.ttfbMs = (t.answer.map Prod.snd).getD 0
  upstreamStatus : p.upstreamStatus = t.answer.map (·.1.status)
  lastErr : p.lastErr = t.lastErr
  unanswered : t.answer = none → p.upstreamIp = none
  upstreamIp : t.answer.isSome → ∃ a, p.attempts.getLast? = some a ∧
    ∀ ip, a.requestedIp = some ip → p.upstreamIp = some ip

/-- An address that was asked for is the one connected to. -/
theorem chosenIp_of_requested [Float64 F] (s : Selector F) (ip : IpAddr) (uri : Uri)
    (connectNow : Option Nat) : chosenIp s (some ip) uri connectNow = some ip := by
  cases connectNow <;> rfl

variable [Float64 F] {method : Method} {uri : Uri} {fwd : HeaderMap} {body : Option B}

/-- One attempt that could be built. -/
theorem ends_sendAttempt (hostName : String) (upReq : Request (Option B)) (ip : Option IpAddr)
    (env : AttemptEnv F S) {p : Progress F B S} {lastErr : Option String}
    (start : p.Ends ⟨none, lastErr⟩) :
    (sendAttempt hostName upReq ip env p).Ends
      (match env.outcome.result with
      | .ok r => ⟨some (r, env.ttfbMs), lastErr⟩
      | .error e => ⟨none, some e⟩) := by
  unfold sendAttempt
  cases env.outcome.result with
  | ok r =>
    refine ⟨rfl, rfl, rfl, start.lastErr, fun none => (by cases none),
      fun _ => ⟨_, List.getLast?_concat, fun ip' asked => ?_⟩⟩
    simp only at asked
    rw [asked]
    exact chosenIp_of_requested _ _ _ _
  | error e =>
    exact ⟨start.resp, start.ttfbMs, start.upstreamStatus, rfl, start.unanswered,
      fun answered => by cases answered⟩

theorem ends_tryAttempts (hostName : String) (envs : List (AttemptEnv F S))
    {p : Progress F B S} {lastErr : Option String} (start : p.Ends ⟨none, lastErr⟩) :
    (tryAttempts hostName (fun e => buildReq method uri fwd e body) envs p).Ends
      (trial envs lastErr) := by
  induction envs generalizing p lastErr with
  | nil => exact start
  | cons env envs ih =>
    have before : ({ p with selector := p.selector.meanwhile env.beforeBestIp } :
        Progress F B S).Ends ⟨none, lastErr⟩ :=
      ⟨start.resp, start.ttfbMs, start.upstreamStatus, start.lastErr, start.unanswered,
        start.upstreamIp⟩
    cases built : env.buildError with
    | some e =>
      simp only [tryAttempts, trial, buildReq, built]
      exact ⟨start.resp, start.ttfbMs, start.upstreamStatus, rfl, start.unanswered,
        fun answered => by cases answered⟩
    | none =>
      have after := ends_sendAttempt hostName ⟨method, uri, fwd, body⟩
        ((p.selector.meanwhile env.beforeBestIp).bestIp hostName env.bestIpNow) env
        before
      simp only [tryAttempts, trial, buildReq, built]
      cases result : env.outcome.result with
      | ok r =>
        rw [result] at after
        rw [if_pos (by rw [after.resp]; rfl)]
        exact after
      | error e =>
        rw [result] at after
        rw [if_neg (by rw [after.resp]; exact Bool.false_ne_true)]
        exact ih after

/-- The error of building a request that is not retried. -/
def HandlerEnv.buildFailure (env : HandlerEnv F S) (method : Method) : Option String :=
  if method.retryable then none else (env.attempt 0).buildError

omit [Float64 F] in
theorem ends_start (s : Selector F) : (Progress.start B S s).Ends ⟨none, none⟩ :=
  ⟨rfl, rfl, rfl, rfl, fun _ => rfl, fun answered => by cases answered⟩

/-- A request that can be built is sent, and its attempts end as its trial says. -/
theorem ends_sendUpstream (s : Selector F) (hostName : String) (uri : Uri) (fwd : HeaderMap)
    (req : Request B) {env : HandlerEnv F S} (built : env.buildFailure req.method = none) :
    ∃ p, sendUpstream s hostName uri fwd req env = (p, none) ∧ p.Ends (env.trial req.method) := by
  unfold sendUpstream HandlerEnv.trial
  unfold HandlerEnv.buildFailure at built
  by_cases retryable : req.method.retryable
  · simp only [if_pos retryable]
    exact ⟨_, rfl, ends_tryAttempts hostName _ (ends_start s)⟩
  · rw [if_neg retryable] at built
    simp only [if_neg retryable, tryOnce, built, buildReq]
    refine ⟨_, rfl, ?_⟩
    have once := ends_sendAttempt hostName ⟨req.method, uri, fwd, some req.body⟩
      ((s.meanwhile (env.attempt 0).beforeBestIp).bestIp hostName (env.attempt 0).bestIpNow)
      (env.attempt 0) (ends_start (B := B) (S := S)
        (s.meanwhile (env.attempt 0).beforeBestIp))
    simp only [List.range_one, List.map_cons, List.map_nil, trial, built]
    cases result : (env.attempt 0).outcome.result with
    | ok r =>
      rw [result] at once
      exact once
    | error e =>
      rw [result] at once
      exact once

theorem sendUpstream_buildFailure (s : Selector F) (hostName : String) (uri : Uri)
    (fwd : HeaderMap) (req : Request B) {env : HandlerEnv F S} {e : String}
    (failure : env.buildFailure req.method = some e) :
    ∃ p, sendUpstream s hostName uri fwd req env =
      (p, some s!"upstream request build failed: {e}") := by
  unfold HandlerEnv.buildFailure at failure
  by_cases retryable : req.method.retryable
  · rw [if_pos retryable] at failure
    cases failure
  · rw [if_neg retryable] at failure
    unfold sendUpstream
    simp only [if_neg retryable, tryOnce, failure, buildReq]
    exact ⟨_, rfl⟩

/-! ## The verdict -/

/-- What a request comes to. -/
inductive Verdict (S : Type) where
  /-- The proxy answers a request that it does not count as traffic. -/
  | refused (status : UInt16) (msg : String)
  /-- The proxy answers without a record. -/
  | aborted (status : UInt16) (msg : String)
  /-- The proxy answers, and records the request itself. -/
  | failed (requestMeta : RequestMeta) (lastErr : Option String) (msg : String)
  /-- The response is relayed; the body records the request when it ends. -/
  | served (requestMeta : RequestMeta) (lastErr : Option String) (r : Response S)

def Verdict.reply : Verdict S → Response (ReplyBody S)
  | refused status msg => textReply status msg
  | aborted status msg => textReply status msg
  | failed _ _ msg => textReply 502 msg
  | served requestMeta lastErr r =>
    ⟨r.status, relayHeaders r.headers, .stream r.body (.fresh requestMeta lastErr)⟩

/-- What the service does. -/
def Verdict.actions (env : HandlerEnv F S) : Verdict S → List (ServiceAction F E)
  | refused _ _ => []
  | aborted _ _ => []
  | failed requestMeta lastErr _ => [.fail requestMeta lastErr env.recordNow env.elapsed]
  | served requestMeta lastErr _ => [.reply requestMeta lastErr]

/-- What is recorded of the request, now or when its body ends. -/
def Verdict.requestMeta : Verdict S → Option RequestMeta
  | refused _ _ => none
  | aborted _ _ => none
  | failed requestMeta _ _ => some requestMeta
  | served requestMeta _ _ => some requestMeta

/-- When there was traffic last. -/
def Verdict.lastActivity (env : HandlerEnv F S) (before : Nat) : Verdict S → Nat
  | refused _ _ => before
  | _ => env.endNow

/-- The record of a request that an answer from `ip` has decided, or no answer. -/
def trialMeta (clientIp hostName : String) (req : Request B) (t : Trial S) (ip : Option IpAddr) :
    RequestMeta where
  clientIp
  host := hostName
  path := req.uri.clientPath.asStr
  method := req.method.asStr
  status := (t.answer.map (·.1.status)).getD 502
  upstreamIp := ip.map IpAddr.toString
  passthrough := false
  ttfbMs := (t.answer.map Prod.snd).getD 0

/-- The verdict on a request whose attempts are over. -/
def trialVerdict (requestMeta : RequestMeta) (env : HandlerEnv F S) (t : Trial S) : Verdict S :=
  match t.answer, env.responseError with
  | some (r, _), none => .served requestMeta t.lastErr r
  | some _, some e => .failed requestMeta t.lastErr s!"response build failed: {e}"
  | none, _ =>
    .failed requestMeta t.lastErr
      (match t.lastErr with
      | some e => s!"upstream unreachable: {e}"
      | none => "upstream unreachable")

/-- The verdict on a request for a managed host. -/
def managedVerdict (parse : String → Option Uri) (selector : Selector F)
    (clientIp hostName : String) (req : Request B) (env : HandlerEnv F S) (ip : Option IpAddr) :
    Verdict S :=
  if (parse ("http://" ++ (selector.upstreamHostFor hostName).getD hostName ++
      req.uri.clientPath.asStr)).isNone then .aborted 400 "invalid request URI"
  else
    match env.buildFailure req.method with
    | some e => .aborted 502 s!"upstream request build failed: {e}"
    | none =>
      trialVerdict (trialMeta clientIp hostName req (env.trial req.method) ip) env
        (env.trial req.method)

/-- The verdict on a request; `ip` is the address an answer comes from. -/
def verdict (parse : String → Option Uri) (selector : Selector F) (clientAddr : SocketAddr)
    (req : Request B) (env : HandlerEnv F S) (ip : Option IpAddr) : Verdict S :=
  match requestHost parse req.headers with
  | .error msg => .refused 400 msg
  | .ok hostName =>
    if (selector.hostFor hostName).isSome then
      managedVerdict parse selector clientAddr.ip.toString hostName req env ip
    else .refused 404 "host is not managed by xboxproxy"

/-! ## The handler does what the verdict says -/

/-- A handler replies what the verdict says, and leaves the metrics and the bodies as the steps of
the verdict do, but for the time of the last traffic. -/
structure Handled.Refines (handled : Handled F B S) (display : E → String) (s : Service F)
    (env : HandlerEnv F S) (v : Verdict S) : Prop where
  reply : handled.reply = v.reply
  steps : ∃ t, run (Service.step display) s (v.actions env) = some t ∧
    handled.state.metrics =
      { t.metrics with lastActivity := v.lastActivity env s.metrics.lastActivity } ∧
    t.downloads = s.downloads ++ handled.downloads ∧ t.writer = s.writer

/-- Without an answer `ip` is no address. An answer that goes on record has ended the attempts,
and `ip` is the address the last of them has asked for. -/
structure Handled.AnsweredBy (handled : Handled F B S) (env : HandlerEnv F S) (method : Method)
    (v : Verdict S) (ip : Option IpAddr) : Prop where
  unanswered : (env.trial method).answer = none → ip = none
  answered : v.requestMeta.isSome → (env.trial method).answer.isSome →
    ∃ a, handled.attempts.getLast? = some a ∧ ∀ i, a.requestedIp = some i → ip = some i

theorem finalize_beginRequest (metrics : MetricsStore F) (beginNow : Nat) (state : RecordState)
    (now : Nat) (elapsed : Elapsed F) (endNow : Nat) (fresh : state.recorded = false) :
    (finalize (metrics.beginRequest beginNow) state now elapsed).1.dropGuard endNow =
      { (finalize metrics state now elapsed).1 with lastActivity := endNow } := by
  simp [finalize, fresh, MetricsStore.recordRequest, MetricsStore.beginRequest,
    MetricsStore.dropGuard]

/-- What the code behind the attempts does. -/
theorem refines_finishRequest (display : E → String) (s : Service F) (requestMeta : RequestMeta)
    {p : Progress F B S} {t : Trial S} (ends : p.Ends t) (env : HandlerEnv F S) :
    ({ reply := (finishRequest (s.metrics.beginRequest env.beginNow) requestMeta p env).1
       state :=
         { selector := p.selector
           metrics := (finishRequest (s.metrics.beginRequest env.beginNow) requestMeta p
             env).2.dropGuard env.endNow }
       attempts := p.attempts } : Handled F B S).Refines display s env
      (trialVerdict requestMeta env t) := by
  unfold finishRequest trialVerdict
  rw [ends.resp, ends.lastErr]
  rcases t.answer with _ | ⟨r, ttfb⟩
  · refine ⟨rfl, _, rfl, ?_, (List.append_nil _).symm, rfl⟩
    exact finalize_beginRequest s.metrics env.beginNow _ env.recordNow env.elapsed env.endNow rfl
  · cases env.responseError with
    | none =>
      refine ⟨rfl, _, rfl, ?_, rfl, rfl⟩
      simp [MetricsStore.beginRequest, MetricsStore.dropGuard, Verdict.lastActivity]
    | some e =>
      refine ⟨rfl, _, rfl, ?_, (List.append_nil _).symm, rfl⟩
      exact finalize_beginRequest s.metrics env.beginNow _ env.recordNow env.elapsed env.endNow rfl

/-- A handler that has counted the request and answers with a text. -/
theorem refines_aborted (display : E → String) (s : Service F) (selector : Selector F)
    (attempts : List (Attempt F B S)) (env : HandlerEnv F S) (status : UInt16) (msg : String) :
    ({ reply := textReply status msg
       state :=
         { selector
           metrics := (s.metrics.beginRequest env.beginNow).dropGuard env.endNow }
       attempts } : Handled F B S).Refines display s env (.aborted status msg) := by
  refine ⟨rfl, s, rfl, ?_, (List.append_nil _).symm, rfl⟩
  simp [MetricsStore.beginRequest, MetricsStore.dropGuard, Verdict.lastActivity]

variable (parse : String → Option Uri)

/-- The handler behind attempts that are over. -/
theorem serveManaged_ended {parse : String → Option Uri} (state : AppState F)
    {clientIp hostName : String} {req : Request B} {env : HandlerEnv F S} {uri : Uri}
    (parsed : parse ("http://" ++ (state.selector.upstreamHostFor hostName).getD hostName ++
      req.uri.clientPath.asStr) = some uri) {p : Progress F B S} {t : Trial S}
    (sent : sendUpstream state.selector hostName uri
      (forwardHeaders req.method req.headers clientIp) req env = (p, none)) (ends : p.Ends t) :
    serveManaged parse state clientIp hostName req env =
      { reply := (finishRequest state.metrics (trialMeta clientIp hostName req t p.upstreamIp) p
          env).1
        state :=
          { selector := p.selector
            metrics := (finishRequest state.metrics
              (trialMeta clientIp hostName req t p.upstreamIp) p env).2 }
        attempts := p.attempts } := by
  have copied : trialMeta clientIp hostName req t p.upstreamIp =
      ⟨clientIp, hostName, req.uri.clientPath.asStr, req.method.asStr, p.upstreamStatus.getD 502,
        p.upstreamIp.map IpAddr.toString, false, p.ttfbMs⟩ := by
    rw [trialMeta, ends.upstreamStatus, ends.ttfbMs]
  unfold serveManaged
  simp only [parsed, sent, copied]

theorem serveManaged_refines (display : E → String) (s : Service F) (selector : Selector F)
    (clientIp hostName : String) (req : Request B) (env : HandlerEnv F S) :
    let served := serveManaged parse ⟨selector, s.metrics.beginRequest env.beginNow⟩ clientIp
      hostName req env
    ∃ ip, let v := managedVerdict parse selector clientIp hostName req env ip
      served.AnsweredBy env req.method v ip ∧
      ({ served with
        state := { served.state with metrics := served.state.metrics.dropGuard env.endNow } } :
          Handled F B S).Refines display s env v := by
  intro served
  unfold managedVerdict
  cases parsed : parse ("http://" ++ (selector.upstreamHostFor hostName).getD hostName ++
      req.uri.clientPath.asStr) with
  | none =>
    have exits : served = _ :=
      serveManaged_unparsed ⟨selector, s.metrics.beginRequest env.beginNow⟩ parsed
    rw [exits]
    exact ⟨none, ⟨fun _ => rfl, fun recorded => absurd recorded Bool.false_ne_true⟩,
      refines_aborted display s selector [] env 400 "invalid request URI"⟩
  | some uri =>
    simp only [Option.isNone_some, Bool.false_eq_true, if_false]
    cases failure : env.buildFailure req.method with
    | some e =>
      obtain ⟨p, sent⟩ := sendUpstream_buildFailure selector hostName uri
        (forwardHeaders req.method req.headers clientIp) req failure
      have exits := serveManaged_unbuilt ⟨selector, s.metrics.beginRequest env.beginNow⟩ parsed sent
      rw [show served = _ from exits]
      exact ⟨none, ⟨fun _ => rfl, fun recorded => absurd recorded Bool.false_ne_true⟩,
        refines_aborted display s p.selector p.attempts env 502 _⟩
    | none =>
      obtain ⟨p, sent, ends⟩ := ends_sendUpstream selector hostName uri
        (forwardHeaders req.method req.headers clientIp) req failure
      have exits := serveManaged_ended ⟨selector, s.metrics.beginRequest env.beginNow⟩ parsed sent
        ends
      rw [show served = _ from exits]
      exact ⟨p.upstreamIp, ⟨ends.unanswered, fun _ => ends.upstreamIp⟩,
        refines_finishRequest display s _ ends env⟩

/-- Whatever a request is and whatever its attempts meet, the handler replies what the verdict
says, with an answer from the address it asked for last, and does to the metrics and the bodies
of the server what the steps of the verdict do; apart from them it leaves the end of the
request as the last traffic. -/
theorem proxyHandler_refines (display : E → String) (s : Service F) (selector : Selector F)
    (clientAddr : SocketAddr) (req : Request B) (env : HandlerEnv F S) :
    let handled := proxyHandler parse ⟨selector, s.metrics⟩ clientAddr req env
    ∃ ip, let v := verdict parse selector clientAddr req env ip
      handled.AnsweredBy env req.method v ip ∧ handled.Refines display s env v := by
  intro handled
  have refused (status : UInt16) (msg : String) :
      let handled : Handled F B S := ⟨textReply status msg, ⟨selector, s.metrics⟩, []⟩
      ∃ ip, handled.AnsweredBy env req.method (.refused status msg) ip ∧
        handled.Refines display s env (.refused status msg) :=
    ⟨none, ⟨fun _ => rfl, fun recorded => absurd recorded Bool.false_ne_true⟩, rfl, s, rfl, rfl,
      (List.append_nil _).symm, rfl⟩
  unfold handled proxyHandler verdict
  cases requestHost parse req.headers with
  | error msg => exact refused 400 msg
  | ok hostName =>
    simp only
    by_cases managed : (selector.hostFor hostName).isSome
    · simp only [if_pos managed]
      obtain ⟨ip, answered, refines⟩ :=
        serveManaged_refines parse display s selector clientAddr.ip.toString hostName req env
      exact ⟨ip, ⟨answered.unanswered, answered.answered⟩, refines⟩
    · simp only [if_neg managed]
      exact refused 404 _

end
end XboxProxy
