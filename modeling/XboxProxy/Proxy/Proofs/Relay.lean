import XboxProxy.Proxy.Proofs.RecordOnce

/-!
# What a client is sent back

An attempt that is answered ends the loop, so its response is the one that is relayed: status
and body as they are, and of the headers those that are not meant for one hop.
-/

namespace XboxProxy
open Misc

section Relay
variable {F B S : Type} [Float64 F]

/-- An answered attempt is the one whose response is relayed. -/
def Progress.Latest (p : Progress F B S) : Prop :=
  ∀ a ∈ p.attempts, ∀ r, a.result = .ok r → p.resp = some r

/-- Sending adds one attempt. -/
theorem mem_attempts_sendAttempt {hostName : String} {upReq : Request (Option B)}
    {ip : Option IpAddr} {env : AttemptEnv F S} {p : Progress F B S} {a : Attempt F B S}
    (member : a ∈ (sendAttempt hostName upReq ip env p).attempts) :
    a ∈ p.attempts ∨ a.result = env.outcome.result := by
  unfold sendAttempt at member
  cases result : env.outcome.result <;>
  · simp only [result] at member
    rcases List.mem_append.mp member with earlier | this
    · exact .inl earlier
    · obtain rfl := List.mem_singleton.mp this
      exact .inr rfl

theorem Progress.Latest.sendAttempt {p : Progress F B S} (latest : p.Latest)
    (unanswered : p.resp = none) (hostName : String) (upReq : Request (Option B))
    (ip : Option IpAddr) (env : AttemptEnv F S) :
    (sendAttempt hostName upReq ip env p).Latest := by
  intro a member r ok
  rcases mem_attempts_sendAttempt member with earlier | this
  · cases unanswered.symm.trans (latest a earlier r ok)
  · have answered : env.outcome.result = .ok r := this.symm.trans ok
    unfold XboxProxy.sendAttempt
    simp only [answered]

theorem Progress.Latest.tryAttempts
    {build : Option String → Except String (Request (Option B))} (hostName : String)
    (envs : List (AttemptEnv F S)) {p : Progress F B S} (latest : p.Latest)
    (unanswered : p.resp = none) : (tryAttempts hostName build envs p).Latest := by
  induction envs generalizing p with
  | nil => exact latest
  | cons env envs ih =>
    let seen : Progress F B S := { p with selector := p.selector.meanwhile env.beforeBestIp }
    have latestSeen : seen.Latest := latest
    simp only [XboxProxy.tryAttempts]
    split
    · exact latest
    · rename_i upReq _
      have sent := latestSeen.sendAttempt unanswered hostName upReq
        (seen.selector.bestIp hostName env.bestIpNow) env
      split
      · exact sent
      · rename_i still
        exact ih sent (by simpa using still)

/-- The attempts of a request that come to an end. -/
theorem latest_sendUpstream {s : Selector F} {hostName : String} {uri : Uri} {fwd : HeaderMap}
    {req : Request B} {env : HandlerEnv F S} {p : Progress F B S} {msg : Option String}
    (sent : sendUpstream s hostName uri fwd req env = (p, msg)) :
    p.Latest ∧ (msg.isSome → p.attempts = []) := by
  have start : (Progress.start B S s).Latest := by simp [Progress.Latest, Progress.start]
  unfold sendUpstream at sent
  split at sent
  · cases sent
    exact ⟨start.tryAttempts hostName _ rfl, nofun⟩
  · unfold tryOnce at sent
    simp only at sent
    split at sent
    · cases sent
      exact ⟨start, fun _ => rfl⟩
    · cases sent
      refine ⟨?_, nofun⟩
      exact Progress.Latest.sendAttempt (p := { Progress.start B S s with
        selector := s.meanwhile (env.attempt 0).beforeBestIp }) start rfl _ _ _ _

/-- A handler that has made attempts replies by the last exit. -/
theorem serveManaged_of_attempt {parse : String → Option Uri} {state : AppState F}
    {clientIp hostName : String} {req : Request B} {env : HandlerEnv F S} {a : Attempt F B S}
    (made : a ∈ (serveManaged parse state clientIp hostName req env).attempts) :
    ∃ metrics requestMeta p, p.Latest ∧ a ∈ p.attempts ∧
      (serveManaged parse state clientIp hostName req env).reply =
        (finishRequest metrics requestMeta p env).1 := by
  cases parsed : parse ("http://" ++ (state.selector.upstreamHostFor hostName).getD hostName ++
      req.uri.clientPath.asStr) with
  | none =>
    rw [serveManaged_unparsed state parsed] at made
    cases made
  | some uri =>
    rcases sent : sendUpstream state.selector hostName uri
      (forwardHeaders req.method req.headers clientIp) req env with ⟨p, _ | msg⟩
    · obtain ⟨requestMeta, -, served⟩ := serveManaged_finished state parsed sent
      rw [served] at made ⊢
      exact ⟨state.metrics, requestMeta, p, (latest_sendUpstream sent).1, made, rfl⟩
    · rw [serveManaged_unbuilt state parsed sent] at made
      have none : p.attempts = [] := (latest_sendUpstream sent).2 rfl
      have made : a ∈ p.attempts := made
      rw [none] at made
      cases made

theorem proxyHandler_of_attempt {parse : String → Option Uri} {state : AppState F}
    {clientAddr : SocketAddr} {req : Request B} {env : HandlerEnv F S} {a : Attempt F B S}
    (made : a ∈ (proxyHandler parse state clientAddr req env).attempts) :
    ∃ metrics requestMeta p, p.Latest ∧ a ∈ p.attempts ∧
      (proxyHandler parse state clientAddr req env).reply =
        (finishRequest metrics requestMeta p env).1 := by
  obtain ⟨hostName, -, -, served, rfl, made, reply⟩ := served_of_made made
  rw [reply]
  exact serveManaged_of_attempt made

/-- The reply passes `r` on: its status, of its headers all those that are neither hop-by-hop
nor named by a `Connection` header, with all their values in order, and its body. -/
structure Response.Relayed (r : Response S) (reply : Response (ReplyBody S)) : Prop where
  status : reply.status = r.status
  kept : ∀ name : HeaderName, isHopByHop name.asStr = false →
    name.asStr ∉ connectionTokens r.headers → reply.headers.getAll name = r.headers.getAll name
  stripped : ∀ name : HeaderName,
    isHopByHop name.asStr = true ∨ name.asStr ∈ connectionTokens r.headers →
    reply.headers.getAll name = []
  body : ∃ recordState, reply.body = .stream r.body recordState ∧
    ∀ {E : Type} (display : E → String) (dropEnv : DropEnv F) (polls : List (InnerPoll F E))
      (metrics : MetricsStore F),
      (CountingStream.life display dropEnv polls metrics recordState).1 = polls.map (·.answer)

/-- Whatever has gone before it, an answered attempt is relayed. -/
theorem proxyHandler_relays (parse : String → Option Uri) (state : AppState F)
    (clientAddr : SocketAddr) (req : Request B) (env : HandlerEnv F S)
    (replied : env.responseError = none) (a : Attempt F B S)
    (made : a ∈ (proxyHandler parse state clientAddr req env).attempts) (r : Response S)
    (answered : a.result = .ok r) :
    r.Relayed (F := F) (proxyHandler parse state clientAddr req env).reply := by
  obtain ⟨metrics, requestMeta, p, latest, inAttempts, reply⟩ := proxyHandler_of_attempt made
  have resp : p.resp = some r := latest a inAttempts r answered
  rw [reply]
  unfold finishRequest
  simp only [resp, replied]
  refine ⟨rfl, ?_, ?_, ?_⟩
  · intro name endToEnd unlisted
    apply getAll_relayHeaders
    simp [shouldStripHeader, endToEnd, unlisted]
  · intro name listed
    apply getAll_relayHeaders_of_stripped
    simpa [shouldStripHeader] using listed
  · exact ⟨_, rfl, fun display dropEnv polls metrics =>
      CountingStream.life_answers polls metrics _⟩

end Relay

/-- An answer with two cookies, a header that its `Connection` header names, and one that is
hop-by-hop. -/
def cdnResponse : Response Unit where
  status := 206
  headers :=
    ((((Multimap.empty.append ⟨"set-cookie", by decide⟩ ⟨[118], rfl⟩).append
      .connection ⟨[120, 45, 104, 111, 112], rfl⟩).append ⟨"x-hop", by decide⟩ ⟨[50], rfl⟩).append
      .transferEncoding ⟨[99, 104, 117, 110, 107, 101, 100], rfl⟩).append
      ⟨"set-cookie", by decide⟩ ⟨[119], rfl⟩
  body := ()

/-- The second attempt is answered so. -/
def cookieEnv : HandlerEnv ℚ Unit :=
  { assetEnv with
    attempt := fun i =>
      { assetEnv.attempt i with
        outcome := if i = 0 then .failed "connection refused" else .responded cdnResponse } }

theorem proxyHandler_relays_cdn :
    let reply := (proxyHandler splitUri cdnState ⟨.v4 10 0 0 2, 50000⟩ cdnGet cookieEnv).reply
    cdnResponse.Relayed (F := ℚ) reply ∧
      reply.headers.getAll ⟨"set-cookie", by decide⟩ = [⟨[118], rfl⟩, ⟨[119], rfl⟩] ∧
      reply.headers.getAll ⟨"x-hop", by decide⟩ = [] ∧
      reply.headers.getAll .transferEncoding = [] := by
  intro reply
  have second : ((proxyHandler splitUri cdnState ⟨.v4 10 0 0 2, 50000⟩ cdnGet
      cookieEnv).attempts[1]?).map (·.result) = some (.ok cdnResponse) := rfl
  obtain ⟨a, made, answered⟩ := Option.map_eq_some_iff.mp second
  have relayed := proxyHandler_relays splitUri cdnState ⟨.v4 10 0 0 2, 50000⟩ cdnGet cookieEnv rfl
    a (List.mem_of_getElem? made) cdnResponse answered
  refine ⟨relayed, ?_, ?_, ?_⟩
  · exact (relayed.kept _ (by decide) (by decide)).trans (by decide)
  · exact relayed.stripped _ (.inr (by decide))
  · exact relayed.stripped _ (.inl (by decide))

end XboxProxy
