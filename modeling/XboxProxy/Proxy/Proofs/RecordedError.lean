import XboxProxy.Proxy.Proofs.RecordOnce

/-!
# The error of a record

`last_err` is written by every failed attempt and by none that is answered, and the record
starts from it. So the error of a first failed attempt stays in the record of a request that a
later attempt has served.
-/

namespace XboxProxy
open Misc

section Error
variable {F B E S : Type}

/-- The error the relayed body ends with. -/
def HandlerEnv.relayError (env : HandlerEnv F S) (method : Method) (display : E → String)
    (polls : List (InnerPoll F E)) : Option String :=
  match env.answer method, env.responseError with
  | some _, none => (firstEnd polls).bind (·.errorText display)
  | _, _ => none

/-- No attempt is answered, or the body that is relayed ends in an error. -/
def HandlerEnv.RequestFailed (env : HandlerEnv F S) (method : Method) (display : E → String)
    (polls : List (InnerPoll F E)) : Prop :=
  env.answer method = none ∨ (env.relayError method display polls).isSome

/-- The first attempt fails, a later one is answered and relayed to its end. -/
structure HandlerEnv.ServedLate (env : HandlerEnv F S) (method : Method) (display : E → String)
    (polls : List (InnerPoll F E)) : Prop where
  first : upstreamAnswer [env.attempt 0] = none
  later : (env.answer method).isSome
  relayed : env.relayError method display polls = none

theorem upstreamAnswer_cons_of_none {env : AttemptEnv F S} {envs : List (AttemptEnv F S)}
    (unanswered : upstreamAnswer (env :: envs) = none) : upstreamAnswer [env] = none := by
  unfold upstreamAnswer at unanswered ⊢
  split at unanswered
  · rfl
  · cases unanswered
  · rfl

/-- The attempts of a request begin with the first. -/
theorem exists_later_attempts (env : HandlerEnv F S) (method : Method) :
    ∃ later, env.answer method = upstreamAnswer (env.attempt 0 :: later) := by
  unfold HandlerEnv.answer
  split
  · exact ⟨[env.attempt 1, env.attempt 2], rfl⟩
  · exact ⟨[], rfl⟩

variable [Float64 F] {method : Method} {uri : Uri} {fwd : HeaderMap} {body : Option B}

/-- No attempt clears `last_err`. -/
theorem lastErr_tryAttempts (hostName : String) (envs : List (AttemptEnv F S))
    {p : Progress F B S} (failed : p.lastErr.isSome) :
    (tryAttempts hostName (fun e => buildReq method uri fwd e body) envs p).lastErr.isSome := by
  induction envs generalizing p with
  | nil => exact failed
  | cons env envs ih =>
    cases built : env.buildError with
    | some e => simp [tryAttempts, buildReq, built]
    | none =>
      cases result : env.outcome.result with
      | ok r =>
        simp only [tryAttempts, buildReq, built, sendAttempt, result]
        exact failed
      | error e =>
        simp only [tryAttempts, buildReq, built, sendAttempt, result]
        split
        · rfl
        · exact ih rfl

/-- It is empty in the end exactly if the first attempt is answered. -/
theorem lastErr_tryAttempts_cons (hostName : String) (env : AttemptEnv F S)
    (envs : List (AttemptEnv F S)) {p : Progress F B S} (start : p.lastErr = none) :
    (tryAttempts hostName (fun e => buildReq method uri fwd e body)
      (env :: envs) p).lastErr.isSome ↔ upstreamAnswer [env] = none := by
  cases built : env.buildError with
  | some e => simp [tryAttempts, upstreamAnswer, buildReq, built]
  | none =>
    cases result : env.outcome.result with
    | ok r => simp [tryAttempts, upstreamAnswer, buildReq, built, sendAttempt, result, start]
    | error e =>
      have unanswered : upstreamAnswer [env] = none := by simp [upstreamAnswer, built, result]
      simp only [tryAttempts, buildReq, built, sendAttempt, result, unanswered, iff_true]
      split
      · rfl
      · exact lastErr_tryAttempts hostName envs rfl

theorem lastErr_sendUpstream {s : Selector F} {hostName : String} {req : Request B}
    {env : HandlerEnv F S} {p : Progress F B S}
    (sent : sendUpstream s hostName uri fwd req env = (p, none)) :
    p.lastErr.isSome ↔ upstreamAnswer [env.attempt 0] = none := by
  obtain ⟨built, -⟩ := answered_of_sent sent
  unfold sendUpstream at sent
  by_cases retryable : req.method.retryable
  · rw [if_pos retryable] at sent
    obtain rfl := congrArg Prod.fst sent
    exact lastErr_tryAttempts_cons hostName (env.attempt 0) _ rfl
  · have built := built.resolve_left retryable
    rw [if_neg retryable] at sent
    obtain rfl := congrArg Prod.fst sent
    cases result : (env.attempt 0).outcome.result <;>
      simp [tryOnce, upstreamAnswer, buildReq, built, sendAttempt, result, Progress.start]

/-- The error of the body of a reply is the one of the body that is relayed. -/
theorem errorText_finishRequest (metrics : MetricsStore F) (requestMeta : RequestMeta)
    {p : Progress F B S} (env : HandlerEnv F S) (answered : p.Answered (env.answer method))
    (display : E → String) (polls : List (InnerPoll F E)) :
    (finishRequest metrics requestMeta p env).1.body.errorText display polls =
      env.relayError method display polls := by
  unfold finishRequest HandlerEnv.relayError
  rw [answered.resp]
  cases env.answer method <;> cases env.responseError <;> rfl

/-- What the error of a record means. -/
theorem error_of_built {parse : String → Option Uri} (state : AppState F) {hostName : String}
    (clientAddr : SocketAddr) {req : Request B} {env : HandlerEnv F S}
    (accepted : requestHost parse req.headers = .ok hostName)
    (managed : (state.selector.hostFor hostName).isSome)
    (rebuilt : (parse ("http://" ++ (state.selector.upstreamHostFor hostName).getD hostName ++
      req.uri.clientPath.asStr)).isSome)
    (built : req.method.retryable ∨ (env.attempt 0).buildError = none)
    (display : E → String) (dropEnv : DropEnv F) (polls : List (InnerPoll F E)) :
    ∃ rec, ((proxyHandler parse state clientAddr req env).reply.body.life display dropEnv
        polls (proxyHandler parse state clientAddr req env).state.metrics).dbTx =
          state.metrics.dbTx ++ [.insertRequest rec] ∧
      (rec.error.isSome ↔ (env.relayError req.method display polls).isSome ∨
        upstreamAnswer [env.attempt 0] = none) := by
  obtain ⟨uri, parsed⟩ := Option.isSome_iff_exists.mp rebuilt
  obtain ⟨p, sent, answered⟩ := answered_sendUpstream state.selector hostName uri
    (forwardHeaders req.method req.headers clientAddr.ip.toString) req env built
  obtain ⟨metrics, requestMeta, rec, -, -, -, -, recorded, -, error⟩ :=
    proxyHandler_finished state clientAddr accepted managed parsed sent display dropEnv polls
  rw [errorText_finishRequest metrics requestMeta env answered display polls] at error
  refine ⟨rec, recorded, ?_⟩
  rw [error, Option.isSome_or, Bool.or_eq_true, lastErr_sendUpstream sent]

/-- The record of a managed request has an error exactly if the request has failed, unless it
is one that was served late: that one is recorded with the error of a failed attempt. -/
theorem recordedError_iff (parse : String → Option Uri) (state : AppState F)
    (clientAddr : SocketAddr) (req : Request B) (env : HandlerEnv F S) (hostName : String)
    (accepted : requestHost parse req.headers = .ok hostName)
    (managed : (state.selector.hostFor hostName).isSome) (display : E → String)
    (dropEnv : DropEnv F) (polls : List (InnerPoll F E)) (rec : RequestRecord F)
    (recorded : ((proxyHandler parse state clientAddr req env).reply.body.life display dropEnv
      polls (proxyHandler parse state clientAddr req env).state.metrics).dbTx =
        state.metrics.dbTx ++ [.insertRequest rec]) :
    (rec.error.isSome ↔ env.RequestFailed req.method display polls) ↔
      ¬ env.ServedLate req.method display polls := by
  obtain ⟨uri, p, parsed, sent⟩ := sent_of_recorded state clientAddr accepted managed recorded
  obtain ⟨rec', recorded', kept⟩ := error_of_built state clientAddr accepted managed
    (by rw [parsed]; rfl) (answered_of_sent sent).1 display dropEnv polls
  obtain rfl : rec = rec' := by simpa using recorded.symm.trans recorded'
  rw [kept]
  constructor
  · rintro means ⟨firstFailed, later, relayed⟩
    rcases means.mp (.inr firstFailed) with unanswered | broken
    · rw [unanswered] at later
      cases later
    · rw [relayed] at broken
      cases broken
  · intro timely
    constructor
    · rintro (broken | firstFailed)
      · exact .inr broken
      · by_contra served
        obtain ⟨later, whole⟩ := not_or.mp served
        exact timely ⟨firstFailed, Option.isSome_iff_ne_none.mpr later, by simpa using whole⟩
    · rintro (unanswered | broken)
      · obtain ⟨later, all⟩ := exists_later_attempts env req.method
        rw [all] at unanswered
        exact .inr (upstreamAnswer_cons_of_none unanswered)
      · exact .inl broken

end Error

/-- Three bytes and the end. -/
def wholeBody : List (InnerPoll ℚ String) :=
  [⟨.ready (some (.ok [1, 2, 3])), 1002, ⟨950, 19 / 20⟩⟩, ⟨.ready none, 1003, ⟨1000, 1⟩⟩]

/-- What the client of the unit tests' host gets, after a first attempt that fails. -/
def lateRun : Handled ℚ Unit Unit :=
  proxyHandler splitUri cdnState ⟨.v4 10 0 0 2, 50000⟩ cdnGet assetEnv

theorem lateRun_recorded : ∃ rec, (lateRun.reply.body.life id ⟨1004, ⟨1100, 11 / 10⟩⟩ wholeBody
      lateRun.state.metrics).dbTx = [.insertRequest rec] ∧ rec.error.isSome := by
  obtain ⟨rec, recorded, error⟩ := error_of_built cdnState ⟨.v4 10 0 0 2, 50000⟩
    (show requestHost splitUri cdnGet.headers = .ok "cdn.example.com" by decide +kernel)
    (by decide +kernel) (by decide +kernel) (.inl rfl) id ⟨1004, ⟨1100, 11 / 10⟩⟩ wholeBody
  exact ⟨rec, recorded, error.mpr (.inr rfl)⟩

theorem recordedError_iff_lateRun :
    ∃ rec, (lateRun.reply.body.life id ⟨1004, ⟨1100, 11 / 10⟩⟩ wholeBody
        lateRun.state.metrics).dbTx = [.insertRequest rec] ∧
      ((rec.error.isSome ↔ assetEnv.RequestFailed .get id wholeBody) ↔
        ¬ assetEnv.ServedLate .get id wholeBody) := by
  obtain ⟨rec, recorded, -⟩ := lateRun_recorded
  exact ⟨rec, recorded, recordedError_iff splitUri cdnState ⟨.v4 10 0 0 2, 50000⟩
    cdnGet assetEnv "cdn.example.com" (by decide +kernel) (by decide +kernel) id
    ⟨1004, ⟨1100, 11 / 10⟩⟩ wholeBody rec recorded⟩

/-- A request that has been served in full is recorded with an error. -/
theorem error_of_lateRun :
    lateRun.reply.status = 200 ∧ ¬ assetEnv.RequestFailed .get id wholeBody ∧
      ∃ rec, (lateRun.reply.body.life id ⟨1004, ⟨1100, 11 / 10⟩⟩ wholeBody
        lateRun.state.metrics).dbTx = [.insertRequest rec] ∧ rec.error.isSome := by
  refine ⟨by decide +kernel, ?_, lateRun_recorded⟩
  rintro (unanswered | broken)
  · cases unanswered
  · cases broken

end XboxProxy
