import XboxProxy.Proxy.Proofs.RecordOnce
import XboxProxy.Selector.Proofs.Choice

/-!
# The attempt loop

A request makes its attempts one after the other until one is answered. Each failed one marks
the address it asked for, once; the reply and the record are those of the answered one, or 502.
-/

namespace XboxProxy
open Misc

section Tries
variable {F B S : Type} [Float64 F]

/-- The writes to the selector around an attempt: those of other tasks, and `mark_failure` for
the address of an attempt that failed. -/
def Attempt.writes (hostName : String) (env : AttemptEnv F S) (a : Attempt F B S) :
    List (Selector.Write F) :=
  env.beforeBestIp ++ env.beforeConnect ++
    match a.result with
    | .ok _ => []
    | .error _ =>
      env.beforeMark ++
        (a.requestedIp.map fun ip => .updateResult hostName ip none none false env.markNow).toList

/-- The attempt that is made in given surroundings. -/
structure Attempt.Met (hostName : String) (upReq : Request (Option B)) (s : Selector F)
    (env : AttemptEnv F S) (a : Attempt F B S) : Prop where
  seen : a.seen = s.meanwhile env.beforeBestIp
  requested : a.requestedIp = a.seen.bestIp hostName env.bestIpNow
  request : a.request = upReq
  result : a.result = env.outcome.result

/-- A run of attempts from one state of the selector to another: failed ones, and at the end
one that is answered, or none if the surroundings run out. -/
inductive Tries (hostName : String) (upReq : Request (Option B)) :
    Selector F → List (AttemptEnv F S) → List (Attempt F B S) → Selector F → Prop
  | out (s : Selector F) : Tries hostName upReq s [] [] s
  | answered {s : Selector F} {env : AttemptEnv F S} {a : Attempt F B S} {r : Response S}
      (envs : List (AttemptEnv F S)) : a.Met hostName upReq s env → a.result = .ok r →
      Tries hostName upReq s (env :: envs) [a] (s.meanwhile (a.writes hostName env))
  | failed {s t : Selector F} {env : AttemptEnv F S} {envs : List (AttemptEnv F S)}
      {a : Attempt F B S} {made : List (Attempt F B S)} {e : String} :
      a.Met hostName upReq s env → a.result = .error e →
      Tries hostName upReq (s.meanwhile (a.writes hostName env)) envs made t →
      Tries hostName upReq s (env :: envs) (a :: made) t

/-- The attempt has failed. -/
def Attempt.Failed (a : Attempt F B S) : Prop := ∃ e, a.result = .error e

namespace Tries
variable {hostName : String} {upReq : Request (Option B)} {s t : Selector F}
  {envs : List (AttemptEnv F S)} {made : List (Attempt F B S)}

theorem length_le (tries : Tries hostName upReq s envs made t) : made.length ≤ envs.length := by
  induction tries with
  | out s => rfl
  | answered envs met ok => simp
  | failed met error rest ih => simpa using ih

theorem ne_nil (tries : Tries hostName upReq s envs made t) (some : envs ≠ []) : made ≠ [] := by
  cases tries with
  | out s => exact absurd rfl some
  | answered envs met ok => simp
  | failed met error rest => simp

/-- When all attempts fail, none is left out. -/
theorem exhausted (tries : Tries hostName upReq s envs made t) (all : ∀ a ∈ made, a.Failed) :
    made.length = envs.length := by
  induction tries with
  | out s => rfl
  | @answered _ _ a _ envs met ok =>
    obtain ⟨e, error⟩ := all a (by simp)
    rw [ok] at error
    cases error
  | failed met error rest ih =>
    have same := ih fun b member => all b (List.mem_cons_of_mem _ member)
    rw [List.length_cons, List.length_cons, same]

/-- The answered attempt is the last one. -/
theorem stops (tries : Tries hostName upReq s envs made t) {i : Nat} {a : Attempt F B S}
    {r : Response S} (found : made[i]? = some a) (ok : a.result = .ok r) :
    i + 1 = made.length := by
  induction tries generalizing i with
  | out s => simp at found
  | answered envs met ok' =>
    cases i with
    | zero => rfl
    | succ i => simp at found
  | failed met error rest ih =>
    cases i with
    | zero =>
      obtain rfl := Option.some.inj found
      rw [error] at ok
      cases ok
    | succ i => rw [List.length_cons, ih found]

theorem outcomes (tries : Tries hostName upReq s envs made t) :
    made.map (·.result) = (envs.map (·.outcome.result)).take made.length := by
  induction tries with
  | out s => rfl
  | answered envs met ok => simp [met.result]
  | failed met error rest ih => simp [met.result, ih]

/-- Each attempt is made in a reachable state, with the request of the loop. -/
theorem of_mem {defs : List HostDef} {penalty : Nat} (tries : Tries hostName upReq s envs made t)
    (reachable : Selector.Reachable defs penalty s) : ∀ a ∈ made,
      Selector.Reachable defs penalty a.seen ∧ a.request = upReq ∧
        ∃ now, a.requestedIp = a.seen.bestIp hostName now := by
  have here : ∀ {s : Selector F} {env : AttemptEnv F S} {a : Attempt F B S},
      Selector.Reachable defs penalty s → a.Met hostName upReq s env →
      Selector.Reachable defs penalty a.seen ∧ a.request = upReq ∧
        ∃ now, a.requestedIp = a.seen.bestIp hostName now := by
    intro s env a reachable met
    refine ⟨?_, met.request, env.bestIpNow, met.requested⟩
    rw [met.seen]
    exact reachable.meanwhile _
  induction tries with
  | out s => simp
  | answered envs met ok =>
    intro a member
    rw [List.mem_singleton.mp member]
    exact here reachable met
  | failed met error rest ih =>
    intro a member
    rcases List.mem_cons.mp member with rfl | later
    · exact here reachable met
    · exact ih (reachable.meanwhile _) a later

/-- Nothing else is written to the selector. -/
theorem selector_eq (tries : Tries hostName upReq s envs made t) :
    t = s.meanwhile (List.zipWith (Attempt.writes hostName) envs made).flatten := by
  induction tries with
  | out s => rfl
  | answered envs met ok => simp
  | failed met error rest ih =>
    rw [ih]
    simp [Selector.meanwhile]

end Tries

/-! ## The loop -/

/-- The connector goes where it is told to. -/
theorem chosenIp_some (s : Selector F) (ip : IpAddr) (uri : Uri) (connectNow : Option Nat) :
    chosenIp s (some ip) uri connectNow = some ip := by
  cases connectNow <;> rfl

omit [Float64 F] in
/-- After an answered attempt only other tasks have written. -/
theorem meanwhile_writes_of_ok {hostName : String} {s : Selector F} {env : AttemptEnv F S}
    {a : Attempt F B S} (seen : a.seen = s.meanwhile env.beforeBestIp) {r : Response S}
    (ok : a.result = .ok r) :
    s.meanwhile (a.writes hostName env) = a.seen.meanwhile env.beforeConnect := by
  unfold Attempt.writes
  rw [ok, seen]
  simp [Selector.meanwhile]

omit [Float64 F] in
/-- After a failed one, `mark_failure` has been called. -/
theorem meanwhile_writes_of_error {hostName : String} {s : Selector F} {env : AttemptEnv F S}
    {a : Attempt F B S} (seen : a.seen = s.meanwhile env.beforeBestIp) {e : String}
    (error : a.result = .error e) :
    s.meanwhile (a.writes hostName env) =
      markFailed ((a.seen.meanwhile env.beforeConnect).meanwhile env.beforeMark) hostName
        a.requestedIp env.markNow := by
  unfold Attempt.writes
  rw [error, seen]
  cases a.requestedIp <;> simp [Selector.meanwhile] <;> rfl

/-- What the variables of the loop say of the attempts made. -/
structure Progress.Tells (p : Progress F B S) (envs : List (AttemptEnv F S))
    (made : List (Attempt F B S)) : Prop where
  answered : ∀ (i : Nat) (env : AttemptEnv F S) (a : Attempt F B S) (r : Response S),
    envs[i]? = some env → made[i]? = some a → a.result = .ok r →
    p.resp = some r ∧ p.upstreamStatus = some r.status ∧ p.ttfbMs = env.ttfbMs ∧
      ∀ ip, a.requestedIp = some ip → p.upstreamIp = some ip
  failed : (∀ a ∈ made, a.Failed) →
    p.resp = none ∧ p.upstreamStatus = none ∧ p.upstreamIp = none

/-- Attempts that can all be built run as they should. -/
theorem run_tryAttempts (hostName : String) (method : Method) (uri : Uri) (fwd : HeaderMap)
    (body : Option B) (envs : List (AttemptEnv F S))
    (built : ∀ env ∈ envs, env.buildError = none) {p : Progress F B S}
    (blank : p.resp = none ∧ p.upstreamStatus = none ∧ p.upstreamIp = none) :
    ∃ made,
      (tryAttempts hostName (fun e => buildReq method uri fwd e body) envs p).attempts =
        p.attempts ++ made ∧
      Tries hostName ⟨method, uri, fwd, body⟩ p.selector envs made
        (tryAttempts hostName (fun e => buildReq method uri fwd e body) envs p).selector ∧
      (tryAttempts hostName (fun e => buildReq method uri fwd e body) envs p).Tells envs made := by
  induction envs generalizing p with
  | nil => exact ⟨[], by simp [tryAttempts], .out _, by simp, fun _ => blank⟩
  | cons env envs ih =>
    have here : env.buildError = none := built env (by simp)
    let upReq : Request (Option B) := ⟨method, uri, fwd, body⟩
    let seen := p.selector.meanwhile env.beforeBestIp
    let ip := seen.bestIp hostName env.bestIpNow
    cases result : env.outcome.result with
    | ok r =>
      let a : Attempt F B S := ⟨seen, ip, upReq, .ok r, none⟩
      have met : a.Met hostName upReq p.selector env := ⟨rfl, rfl, rfl, result.symm⟩
      have run := Tries.answered envs met rfl
      rw [meanwhile_writes_of_ok met.seen rfl] at run
      simp only [tryAttempts, buildReq, here, sendAttempt, result]
      refine ⟨[a], rfl, run, ?_, ?_⟩
      · intro i env' a' r' inEnvs inMade ok
        cases i with
        | zero =>
          obtain rfl := Option.some.inj inEnvs
          obtain rfl := Option.some.inj inMade
          obtain rfl := Except.ok.inj ok
          refine ⟨rfl, rfl, rfl, fun ip' requested => ?_⟩
          have same : ip = some ip' := requested
          show chosenIp _ ip _ _ = _
          rw [same, chosenIp_some]
        | succ i => simp at inMade
      · intro all
        obtain ⟨e, error⟩ := all a (by simp)
        cases error
    | error e =>
      let a : Attempt F B S := ⟨seen, ip, upReq, .error e, ip⟩
      have met : a.Met hostName upReq p.selector env := ⟨rfl, rfl, rfl, result.symm⟩
      let after : Progress F B S :=
        { p with
          selector := markFailed ((seen.meanwhile env.beforeConnect).meanwhile env.beforeMark)
            hostName ip env.markNow
          lastErr := some e
          attempts := p.attempts ++ [a] }
      obtain ⟨made, attempts, run, tells⟩ :=
        @ih (fun env' member => built env' (List.mem_cons_of_mem _ member)) after blank
      have marked : p.selector.meanwhile (a.writes hostName env) = after.selector :=
        meanwhile_writes_of_error met.seen rfl
      have step : tryAttempts hostName (fun e => buildReq method uri fwd e body) (env :: envs) p =
          tryAttempts hostName (fun e => buildReq method uri fwd e body) envs after := by
        have unanswered : ¬ after.resp.isSome := by
          rw [show after.resp = none from blank.1]
          simp
        simp only [tryAttempts, buildReq, here, sendAttempt, result]
        exact if_neg unanswered
      rw [step]
      refine ⟨a :: made, ?_, ?_, ?_, ?_⟩
      · rw [attempts, List.append_assoc]
        rfl
      · rw [← marked] at run
        exact .failed met rfl run
      · intro i env' a' r' inEnvs inMade ok
        cases i with
        | zero =>
          obtain rfl := Option.some.inj inMade
          cases ok
        | succ i => exact tells.answered i env' a' r' inEnvs inMade ok
      · intro all
        exact tells.failed fun b member => all b (List.mem_cons_of_mem _ member)

/-- A single attempt is a loop of one. -/
theorem tryOnce_eq (hostName : String) (method : Method) (uri : Uri) (fwd : HeaderMap)
    (body : Option B) {env : AttemptEnv F S} (built : env.buildError = none)
    (p : Progress F B S) :
    tryOnce hostName (fun e => buildReq method uri fwd e body) env p =
      (tryAttempts hostName (fun e => buildReq method uri fwd e body) [env] p, none) := by
  simp only [tryOnce, tryAttempts, buildReq, built, ite_self]

/-- The surroundings of the attempts of a request: three for a retryable one, else one. -/
def HandlerEnv.attempts (env : HandlerEnv F S) (method : Method) : List (AttemptEnv F S) :=
  (List.range (if method.retryable then 3 else 1)).map env.attempt

theorem run_sendUpstream (s : Selector F) (hostName : String) (uri : Uri) (fwd : HeaderMap)
    (req : Request B) (env : HandlerEnv F S) (built : ∀ i, (env.attempt i).buildError = none) :
    ∃ p, sendUpstream s hostName uri fwd req env = (p, none) ∧
      Tries hostName ⟨req.method, uri, fwd, if req.method.retryable then none else some req.body⟩
        s (env.attempts req.method) p.attempts p.selector ∧
      p.Tells (env.attempts req.method) p.attempts := by
  let body := if req.method.retryable then none else some req.body
  have built' : ∀ e ∈ env.attempts req.method, e.buildError = none := by
    intro e member
    obtain ⟨i, -, rfl⟩ := List.mem_map.mp member
    exact built i
  let start := Progress.start B S s
  let p := tryAttempts hostName (fun e => buildReq req.method uri fwd e body)
    (env.attempts req.method) start
  obtain ⟨made, attempts, run, tells⟩ := run_tryAttempts hostName req.method uri fwd body
    (env.attempts req.method) built' (show start.resp = none ∧ _ from ⟨rfl, rfl, rfl⟩)
  have same : p.attempts = made := attempts
  subst same
  refine ⟨p, ?_, run, tells⟩
  unfold sendUpstream
  by_cases retryable : req.method.retryable
  · have all : env.attempts req.method = (List.range 3).map env.attempt := by
      unfold HandlerEnv.attempts
      rw [if_pos retryable]
    simp only [p, body, all, if_pos retryable]
    rfl
  · have one : env.attempts req.method = [env.attempt 0] := by
      unfold HandlerEnv.attempts
      rw [if_neg retryable]
      rfl
    simp only [p, body, one, if_neg retryable]
    exact tryOnce_eq hostName req.method uri fwd (some req.body) (built 0) start

/-- All attempts of a managed host have asked for an address, in a group that has some. -/
theorem Tries.requested_isSome {hostName : String} {upReq : Request (Option B)} {s t : Selector F}
    {envs : List (AttemptEnv F S)} {made : List (Attempt F B S)} {defs : List HostDef}
    {penalty : Nat} (tries : Tries hostName upReq s envs made t)
    (reachable : Selector.Reachable defs penalty s) (managed : (s.hostFor hostName).isSome)
    (nonempty : ∀ d ∈ defs, d.ips ≠ []) {a : Attempt F B S} (member : a ∈ made) :
    a.requestedIp.isSome := by
  obtain ⟨seenReachable, -, now, requested⟩ := tries.of_mem reachable a member
  have same : a.seen.hostFor hostName = s.hostFor hostName :=
    (seenReachable.sameGroups.trans reachable.sameGroups.symm).hostFor hostName
  rw [← same] at managed
  obtain ⟨-, -, c, -, -, -, chosen⟩ := seenReachable.chosen nonempty managed now
  rw [requested, chosen]
  rfl

/-- What a request that has been sent upstream leaves: its reply, its record `rec`, and the
selector it has found in the state `s`. -/
structure AttemptContract (defs : List HostDef) (s : Selector F) (hostName : String)
    (req : Request B) (env : HandlerEnv F S) (run : Handled F B S) (rec : RequestRecord F) :
    Prop where
  tried : run.attempts ≠ []
  count : run.attempts.length ≤ if req.method.retryable then 3 else 1
  body : ∀ a ∈ run.attempts, a.request.body = if req.method.retryable then none else some req.body
  outcomes : run.attempts.map (·.result) =
    ((env.attempts req.method).map (·.outcome.result)).take run.attempts.length
  stops : ∀ (i : Nat) a r, run.attempts[i]? = some a → a.result = .ok r →
    i + 1 = run.attempts.length
  exhausts : (∀ a ∈ run.attempts, a.Failed) →
    run.attempts.length = if req.method.retryable then 3 else 1
  marks : run.state.selector = s.meanwhile
    (List.zipWith (Attempt.writes hostName) (env.attempts req.method) run.attempts).flatten
  requested : (∀ d ∈ defs, d.ips ≠ []) → ∀ a ∈ run.attempts, a.requestedIp.isSome
  status : rec.status = run.reply.status
  answered : ∀ (i : Nat) a r, run.attempts[i]? = some a → a.result = .ok r →
    run.reply.status = r.status ∧ rec.ttfbMs = (env.attempt i).ttfbMs ∧
      ∀ ip, a.requestedIp = some ip → rec.upstreamIp = some ip.toString
  unreachable : (∀ a ∈ run.attempts, a.Failed) → run.reply.status = 502 ∧ rec.upstreamIp = none
  badGateway : run.reply.status = 502 ↔ (∀ a ∈ run.attempts, a.Failed) ∨
    ∃ a ∈ run.attempts, ∃ r, a.result = .ok r ∧ r.status = 502

/-- The builders of `http` do not fail on parts that are valid already. -/
structure HandlerEnv.Builds (env : HandlerEnv F S) : Prop where
  request : ∀ i, (env.attempt i).buildError = none
  response : env.responseError = none

theorem status_finishRequest (metrics : MetricsStore F) (requestMeta : RequestMeta)
    (p : Progress F B S) {env : HandlerEnv F S} (replied : env.responseError = none) :
    (finishRequest metrics requestMeta p env).1.status = (p.resp.map (·.status)).getD 502 := by
  unfold finishRequest
  cases p.resp with
  | none => rfl
  | some r => simp only [replied, Option.map_some, Option.getD_some]

omit [Float64 F] in
theorem getElem?_attempts {env : HandlerEnv F S} {method : Method} {i : Nat}
    (bound : i < (env.attempts method).length) :
    (env.attempts method)[i]? = some (env.attempt i) := by
  rw [List.getElem?_eq_getElem bound]
  simp [HandlerEnv.attempts]

omit [Float64 F] in
theorem length_attempts (env : HandlerEnv F S) (method : Method) :
    (env.attempts method).length = if method.retryable then 3 else 1 := by
  simp [HandlerEnv.attempts]

omit [Float64 F] in
/-- A status that is the response's, and 502 without one. -/
theorem eq_502_iff {attempts : List (Attempt F B S)} {status : UInt16}
    (answered : ∀ a ∈ attempts, ∀ r, a.result = .ok r → status = r.status)
    (unreachable : (∀ a ∈ attempts, a.Failed) → status = 502) :
    status = 502 ↔ (∀ a ∈ attempts, a.Failed) ∨
      ∃ a ∈ attempts, ∃ r, a.result = .ok r ∧ r.status = 502 := by
  constructor
  · intro bad
    by_cases all : ∀ a ∈ attempts, a.Failed
    · exact .inl all
    · right
      obtain ⟨a, member, unfailed⟩ : ∃ a ∈ attempts, ¬ a.Failed := by simpa using all
      cases result : a.result with
      | ok r => exact ⟨a, member, r, result, (answered a member r result).symm.trans bad⟩
      | error e => exact absurd ⟨e, result⟩ unfailed
  · rintro (failed | ⟨a, member, r, ok, bad⟩)
    · exact unreachable failed
    · exact (answered a member r ok).trans bad

/-- A managed request whose rebuilt URI parses keeps the contract, whatever becomes of its
attempts and of the body of its reply. -/
theorem attemptContract_of_parsed {parse : String → Option Uri} {defs : List HostDef}
    {penalty : Nat} {state : AppState F}
    (reachable : Selector.Reachable defs penalty state.selector) (clientAddr : SocketAddr)
    {req : Request B} {env : HandlerEnv F S} (builds : env.Builds) {hostName : String}
    (accepted : requestHost parse req.headers = .ok hostName)
    (managed : (state.selector.hostFor hostName).isSome) {uri : Uri}
    (parsed : parse ("http://" ++ (state.selector.upstreamHostFor hostName).getD hostName ++
      req.uri.clientPath.asStr) = some uri)
    {E : Type} (display : E → String) (dropEnv : DropEnv F) (polls : List (InnerPoll F E)) :
    ∃ rec, ((proxyHandler parse state clientAddr req env).reply.body.life display dropEnv polls
        (proxyHandler parse state clientAddr req env).state.metrics).dbTx =
          state.metrics.dbTx ++ [.insertRequest rec] ∧
      AttemptContract defs state.selector hostName req env
        (proxyHandler parse state clientAddr req env) rec := by
  obtain ⟨p, sent, tries, tells⟩ := run_sendUpstream state.selector hostName uri
    (forwardHeaders req.method req.headers clientAddr.ip.toString) req env builds.request
  obtain ⟨metrics, requestMeta, rec, summary, reply, selector, attempts, recorded, copied, -⟩ :=
    proxyHandler_finished state clientAddr accepted managed parsed sent display dropEnv polls
  have replyStatus : (proxyHandler parse state clientAddr req env).reply.status =
      (p.resp.map (·.status)).getD 502 := by
    rw [reply, status_finishRequest metrics requestMeta p builds.response]
  obtain ⟨-, agree⟩ := answered_of_sent sent
  have recStatus : rec.status = p.upstreamStatus.getD 502 :=
    (congrArg RequestMeta.status copied).trans summary.status
  have recIp : rec.upstreamIp = p.upstreamIp.map IpAddr.toString :=
    (congrArg RequestMeta.upstreamIp copied).trans summary.upstreamIp
  have recTtfb : rec.ttfbMs = p.ttfbMs :=
    (congrArg RequestMeta.ttfbMs copied).trans summary.ttfbMs
  refine ⟨rec, recorded, ?_⟩
  generalize proxyHandler parse state clientAddr req env = run at attempts selector replyStatus ⊢
  rw [← attempts] at tries tells
  rw [← selector] at tries
  have answered : ∀ (i : Nat) a r, run.attempts[i]? = some a → a.result = .ok r →
      run.reply.status = r.status ∧ rec.ttfbMs = (env.attempt i).ttfbMs ∧
        ∀ ip, a.requestedIp = some ip → rec.upstreamIp = some ip.toString := by
    intro i a r found ok
    obtain ⟨bound, -⟩ := List.getElem?_eq_some_iff.mp found
    obtain ⟨resp, -, ttfbMs, ip⟩ := tells.answered i (env.attempt i) a r
      (getElem?_attempts (bound.trans_le tries.length_le)) found ok
    refine ⟨by rw [replyStatus, resp]; rfl, by rw [recTtfb, ttfbMs], ?_⟩
    intro addr requested
    rw [recIp, ip addr requested]
    rfl
  have unreachable : (∀ a ∈ run.attempts, a.Failed) →
      run.reply.status = 502 ∧ rec.upstreamIp = none := by
    intro all
    obtain ⟨resp, -, ip⟩ := tells.failed all
    exact ⟨by rw [replyStatus, resp]; rfl, by rw [recIp, ip]; rfl⟩
  have total := length_attempts env req.method
  have nonempty : env.attempts req.method ≠ [] := by
    apply List.ne_nil_of_length_pos
    rw [total]
    split <;> decide
  exact {
    tried := tries.ne_nil nonempty
    count := total ▸ tries.length_le
    body := by
      intro a member
      rw [(tries.of_mem reachable a member).2.1]
    outcomes := tries.outcomes
    stops := fun i a r found ok => tries.stops found ok
    exhausts := fun all => (tries.exhausted all).trans total
    marks := tries.selector_eq
    requested := fun given a member => tries.requested_isSome reachable managed given member
    status := by rw [recStatus, replyStatus, agree.resp, agree.upstreamStatus]
    answered
    unreachable
    badGateway := by
      refine eq_502_iff ?_ fun all => (unreachable all).1
      intro a member r ok
      obtain ⟨i, found⟩ := List.mem_iff_getElem?.mp member
      exact (answered i a r found ok).1 }

/-- In every reachable state a managed request is refused without an attempt if its rebuilt URI
does not parse, and else keeps the contract. -/
theorem proxyHandler_attempts (parse : String → Option Uri) (defs : List HostDef) (penalty : Nat)
    (state : AppState F) (reachable : Selector.Reachable defs penalty state.selector)
    (clientAddr : SocketAddr) (req : Request B) (env : HandlerEnv F S) (builds : env.Builds)
    (hostName : String) (accepted : requestHost parse req.headers = .ok hostName)
    (managed : (state.selector.hostFor hostName).isSome)
    {E : Type} (display : E → String) (dropEnv : DropEnv F) (polls : List (InnerPoll F E)) :
    let raw := "http://" ++ (state.selector.upstreamHostFor hostName).getD hostName ++
      req.uri.clientPath.asStr
    let run := proxyHandler parse state clientAddr req env
    let sent := (run.reply.body.life display dropEnv polls run.state.metrics).dbTx
    ((parse raw).isSome → ∃ rec, sent = state.metrics.dbTx ++ [.insertRequest rec] ∧
      AttemptContract defs state.selector hostName req env run rec) ∧
    (parse raw = none → run.reply.status = 400 ∧ run.attempts = [] ∧
      run.state.selector = state.selector ∧ sent = state.metrics.dbTx) := by
  intro raw run sent
  constructor
  · intro rebuilt
    obtain ⟨uri, parsed⟩ := Option.isSome_iff_exists.mp rebuilt
    exact attemptContract_of_parsed reachable clientAddr builds accepted managed parsed display
      dropEnv polls
  · intro unparsed
    have refused : run = _ := proxyHandler_managed state clientAddr accepted managed
      (serveManaged_unparsed _ unparsed)
    have unsent : sent = state.metrics.dbTx := by
      simp only [sent, refused]
      rfl
    rw [refused, unsent]
    exact ⟨rfl, rfl, rfl, rfl⟩

end Tries

/-- The first attempt of the unit tests' host fails, the second is answered. -/
theorem proxyHandler_attempts_cdn :
    ∃ rec, ((proxyHandler splitUri cdnState ⟨.v4 10 0 0 2, 50000⟩ cdnGet
        assetEnv).reply.body.life (E := String) id ⟨1002, ⟨1000, 1⟩⟩ []
        (proxyHandler splitUri cdnState ⟨.v4 10 0 0 2, 50000⟩ cdnGet
          assetEnv).state.metrics).dbTx = [.insertRequest rec] ∧
      AttemptContract [testDef [.v4 1 1 1 1]] cdnState.selector "cdn.example.com" cdnGet assetEnv
        (proxyHandler splitUri cdnState ⟨.v4 10 0 0 2, 50000⟩ cdnGet assetEnv) rec :=
  (proxyHandler_attempts splitUri [testDef [.v4 1 1 1 1]] 60 cdnState .new ⟨.v4 10 0 0 2, 50000⟩
    cdnGet assetEnv ⟨fun _ => rfl, rfl⟩ "cdn.example.com" (by decide +kernel)
    (by decide +kernel) id ⟨1002, ⟨1000, 1⟩⟩ []).1 (by decide +kernel)

/-- The first attempt fails, and the upstream answers the second with a 502 of its own. -/
def gatewayEnv : HandlerEnv ℚ Unit where
  beginNow := 1000
  attempt i :=
    { assetEnv.attempt i with
      outcome := if i = 0 then .failed "connection refused" else .responded ⟨502, .empty, ()⟩ }
  recordNow := 1001
  elapsed := ⟨900, 9 / 10⟩
  responseError := none
  endNow := 1001

/-- What the group's one address sees of it. -/
def gatewayRun : Handled ℚ Unit Unit :=
  proxyHandler splitUri cdnState ⟨.v4 10 0 0 2, 50000⟩ cdnGet gatewayEnv

/-- The longest path a client can send, posted. -/
def longPost : Request Unit := { cdnRequest longPath with method := .post }

/-- The reply is a 502 although an attempt was answered, by an address that an earlier attempt
had marked; and a request that is not retried may not be sent at all. -/
theorem gateway_of_answered :
    (gatewayRun.reply.status = 502 ∧
      gatewayRun.attempts.map (fun a => (a.requestedIp, a.result.toOption.map (·.status))) =
        [(some (.v4 1 1 1 1), none), (some (.v4 1 1 1 1), some 502)] ∧
      gatewayRun.state.selector.hosts.map (fun h => h.candidates.map fun c => (c.ip, c.fails)) =
        [[(.v4 1 1 1 1, 1)]]) ∧
    longPost.method.retryable = false ∧
      requestHost boundedSplitUri longPost.headers = .ok "cdn.example.com" ∧
      (cdnState.selector.hostFor "cdn.example.com").isSome ∧
      (proxyHandler boundedSplitUri cdnState ⟨.v4 10 0 0 2, 50000⟩ longPost
        assetEnv).reply.status = 400 ∧
      (proxyHandler boundedSplitUri cdnState ⟨.v4 10 0 0 2, 50000⟩ longPost
        assetEnv).attempts = [] := by
  refine ⟨⟨by decide +kernel, by decide +kernel, by decide +kernel⟩, by decide, ?_⟩
  obtain ⟨accepted, managed, refused, unsent, -⟩ :=
    @refused_of_long longPost rfl utf8ByteSize_cdn_longPath assetEnv
  exact ⟨accepted, managed, refused, unsent⟩

end XboxProxy
