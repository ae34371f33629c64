import XboxProxy.Proxy.Proofs.AttemptLoop

/-!
# No address is tried twice

An attempt that fails stamps the candidate it asked for, and `best_ip` passes over stamped
candidates while another is left. So the attempts of one request, if they take no longer than
the penalty and the group is not pinned meanwhile, ask for different addresses; whatever else
the other requests and the speed tester report.
-/

namespace XboxProxy
open Misc

section
variable {F B S : Type}

/-- A write that leaves the candidate list of group `g` alone and reports no failure in it from
before `first`. -/
def Selector.Write.Calm (s : Selector F) (g first : Nat) : Selector.Write F → Prop
  | .updateResult host _ _ _ success now => s.indexOf host = some g → success = true ∨ first ≤ now
  | .pinnedIp .. => True
  | .candidates name _ => s.indexOf name ≠ some g

/-- The surroundings of an attempt between `first` and `last`. -/
structure AttemptEnv.Calm (env : AttemptEnv F S) (s : Selector F) (g first last : Nat) : Prop where
  beforeBestIp : ∀ w ∈ env.beforeBestIp, w.Calm s g first
  beforeConnect : ∀ w ∈ env.beforeConnect, w.Calm s g first
  beforeMark : ∀ w ∈ env.beforeMark, w.Calm s g first
  bestIpNow : env.bestIpNow ≤ last
  markNow : first ≤ env.markNow

/-- When the attempt chooses, its group has a candidate without a recent failure. Up to a clock
equal to the penalty there is none: no failure counts as one at the clock 0. -/
def Attempt.Healthy (a : Attempt F B S) (env : AttemptEnv F S) (g penalty : Nat) : Prop :=
  ∃ h c, a.seen.hosts[g]? = some h ∧ c ∈ h.candidates ∧ c.Unpenalised env.bestIpNow penalty

namespace Selector

/-- The candidates of group `g` with one of the addresses have failed since `first`. -/
def FailedSince (s : Selector F) (g first : Nat) (ips : List IpAddr) : Prop :=
  ∀ h, s.hosts[g]? = some h → ∀ c ∈ h.candidates, c.ip ∈ ips → first ≤ c.lastFailTs

theorem recordResult_lastFailTs (penalty : Nat) (latencyMs : Option Nat) (speedKbps : Option F)
    (success : Bool) (now : Nat) (c : CandidateState F) :
    (recordResult penalty latencyMs speedKbps success now c).lastFailTs =
      if success then c.lastFailTs else now := by
  cases success <;> rfl

theorem recordResult_ip (penalty : Nat) (latencyMs : Option Nat) (speedKbps : Option F)
    (success : Bool) (now : Nat) (c : CandidateState F) :
    (recordResult penalty latencyMs speedKbps success now c).ip = c.ip := by
  cases success <;> rfl

variable {s t : Selector F} {g first : Nat} {ips : List IpAddr}

/-- Later failures do not shorten the time an address sits out. -/
theorem FailedSince.updateResult (failed : s.FailedSince g first ips) {host : String}
    {success : Bool} {now : Nat} (later : s.indexOf host = some g → success = true ∨ first ≤ now)
    (ip : IpAddr) (latencyMs : Option Nat) (speedKbps : Option F) :
    (s.updateResult host ip latencyMs speedKbps success now).FailedSince g first ips := by
  intro after group c member listed
  by_cases routed : s.indexOf host = some g
  · rw [getElem?_updateResult routed] at group
    obtain ⟨h, found, rfl⟩ := Option.map_eq_some_iff.mp group
    rcases mem_of_mem_modifyFirst member with old | ⟨b, old, -, rfl⟩
    · exact failed h found c old listed
    · rw [recordResult_ip] at listed
      have before := failed h found b old listed
      rw [recordResult_lastFailTs]
      rcases later routed with ok | after
      · rwa [if_pos ok]
      · cases success
        · exact after
        · exact before
  · rw [getElem?_updateResult_of_ne routed] at group
    exact failed after group c member listed

theorem FailedSince.write (failed : t.FailedSince g first ips) (same : SameGroups t s)
    {w : Write F} (calm : w.Calm s g first) : (t.write w).FailedSince g first ips := by
  cases w with
  | updateResult host ip latencyMs speedKbps success now =>
    refine failed.updateResult ?_ ip latencyMs speedKbps
    rw [same.indexOf]
    exact calm
  | pinnedIp name ip =>
    simp only [Selector.write]
    split
    · intro h group c member listed
      rw [writePinnedIp, getElem?_modifyGroup] at group
      split at group
      · obtain ⟨before, found, rfl⟩ := Option.map_eq_some_iff.mp group
        exact failed before found c member listed
      · exact failed h group c member listed
    · exact failed
  | candidates name ip =>
    simp only [Selector.write]
    split
    · rename_i i ips' target
      have elsewhere : i ≠ g := by
        rintro rfl
        apply calm
        rw [← same.indexOf]
        exact pinTarget_index target
      intro h group
      rw [writeCandidates, getElem?_modifyGroup, if_neg elsewhere] at group
      exact failed h group
    · exact failed

theorem sameGroups_write (s : Selector F) (w : Write F) : SameGroups (s.write w) s := by
  cases w with
  | updateResult host ip latencyMs speedKbps success now =>
    exact sameGroups_updateResult s host ip latencyMs speedKbps success now
  | pinnedIp name ip =>
    simp only [Selector.write]
    split
    · exact sameGroups_writePinnedIp s _ _
    · exact .refl s
  | candidates name ip =>
    simp only [Selector.write]
    split
    · exact sameGroups_writeCandidates s _ _
    · exact .refl s

theorem sameGroups_meanwhile (s : Selector F) (others : List (Write F)) :
    SameGroups (s.meanwhile others) s := by
  induction others generalizing s with
  | nil => exact .refl s
  | cons w others ih => exact (ih (s.write w)).trans (sameGroups_write s w)

theorem FailedSince.meanwhile (failed : t.FailedSince g first ips) (same : SameGroups t s)
    {others : List (Write F)} (calm : ∀ w ∈ others, w.Calm s g first) :
    (t.meanwhile others).FailedSince g first ips := by
  induction others generalizing t with
  | nil => exact failed
  | cons w others ih =>
    exact ih (failed.write same (calm w List.mem_cons_self))
      ((sameGroups_write t w).trans same) fun w' member => calm w' (List.mem_cons_of_mem w member)

/-- The failure an attempt reports stamps its address. -/
theorem FailedSince.markFailure (failed : s.FailedSince g first ips) {host : String}
    (routed : s.indexOf host = some g)
    (distinct : ∀ h, s.hosts[g]? = some h → (h.candidates.map (·.ip)).Nodup) {now : Nat}
    (later : first ≤ now) (ip : IpAddr) :
    (s.markFailure host ip now).FailedSince g first (ip :: ips) := by
  intro after group c member listed
  rw [Selector.markFailure, getElem?_updateResult routed] at group
  obtain ⟨h, found, rfl⟩ := Option.map_eq_some_iff.mp group
  rw [modifyFirst_eq_map ip (distinct h found), List.mem_map] at member
  obtain ⟨b, old, rfl⟩ := member
  by_cases here : b.ip = ip
  · rw [if_pos here]
    exact later
  · rw [if_neg here] at listed ⊢
    exact failed h found b old ((List.mem_cons.mp listed).resolve_left here)

/-- While a candidate without a recent failure is left, `best_ip` passes over the addresses
that have failed since. -/
theorem FailedSince.bestIp [Float64 F] (failed : s.FailedSince g first ips) {host : String}
    (routed : s.indexOf host = some g) {h : HostStateInner F} (group : s.hosts[g]? = some h)
    {now : Nat} (soon : now ≤ first + s.failurePenalty) {c : CandidateState F}
    (listed : c ∈ h.candidates) (healthy : c.Unpenalised now s.failurePenalty) :
    ∃ ip, s.bestIp host now = some ip ∧ ip ∉ ips := by
  obtain ⟨best, chosen⟩ := Option.isSome_iff_exists.mp
    (isSome_chosen (List.ne_nil_of_mem listed) now s.failurePenalty)
  refine ⟨best.ip, by rw [bestIp_eq routed group, chosen]; rfl, fun stamped => ?_⟩
  obtain ⟨member, eligible, -⟩ := bestCandidate_spec chosen
  have recent := failed h group best member stamped
  rcases eligible with up | none
  · omega
  · exact none c listed healthy

end Selector

variable [Float64 F]

/-- The attempts of a run ask for different addresses, none of which has failed before. -/
theorem Tries.avoids {hostName : String} {upReq : Request (Option B)} {s t s₀ : Selector F}
    {envs : List (AttemptEnv F S)} {made : List (Attempt F B S)} {defs : List HostDef}
    {g first last : Nat} {ips : List IpAddr} (tries : Tries hostName upReq s envs made t)
    (reachable : Selector.Reachable defs s₀.failurePenalty s) (same : Selector.SameGroups s s₀)
    (distinct : ∀ d ∈ defs, d.ips.Nodup) (routed : s₀.indexOf hostName = some g)
    (calm : ∀ env ∈ envs, env.Calm s₀ g first last) (short : last ≤ first + s₀.failurePenalty)
    (healthy : ∀ (i : Nat) env a, envs[i]? = some env → made[i]? = some a →
      a.Healthy env g s₀.failurePenalty)
    (failed : s.FailedSince g first ips) :
    (∀ a ∈ made, ∀ ip ∈ ips, a.requestedIp ≠ some ip) ∧ (made.map (·.requestedIp)).Nodup := by
  have chooses : ∀ {s : Selector F} {env : AttemptEnv F S} {a : Attempt F B S},
      a.Met hostName upReq s env → Selector.SameGroups s s₀ → env.Calm s₀ g first last →
      a.Healthy env g s₀.failurePenalty → ∀ {ips}, s.FailedSince g first ips →
      a.seen.FailedSince g first ips ∧ ∃ ip, a.requestedIp = some ip ∧ ip ∉ ips := by
    intro s env a met same calm healthy ips failed
    obtain ⟨h, c, group, listed, up⟩ := healthy
    have seen : a.seen.FailedSince g first ips := by
      rw [met.seen]
      exact failed.meanwhile same calm.beforeBestIp
    have seenSame : Selector.SameGroups a.seen s₀ := by
      rw [met.seen]
      exact (Selector.sameGroups_meanwhile s _).trans same
    rw [← seenSame.penalty] at up short
    have asks := seen.bestIp ((seenSame.indexOf hostName).trans routed) group
      (calm.bestIpNow.trans short) listed up
    exact ⟨seen, met.requested ▸ asks⟩
  induction tries generalizing ips with
  | out s => simp
  | @answered s env a r envs met ok =>
    obtain ⟨-, ip, asked, fresh⟩ := chooses met same (calm env List.mem_cons_self)
      (healthy 0 env a rfl rfl) failed
    refine ⟨fun b member => ?_, by simp⟩
    obtain rfl := List.mem_singleton.mp member
    rw [asked]
    intro ip' stamped equal
    exact fresh (Option.some.inj equal ▸ stamped)
  | @failed s t env envs a made e met error rest ih =>
    have calmHere := calm env List.mem_cons_self
    obtain ⟨seen, ip, asked, fresh⟩ := chooses met same calmHere (healthy 0 env a rfl rfl) failed
    have seenSame : Selector.SameGroups a.seen s₀ := by
      rw [met.seen]
      exact (Selector.sameGroups_meanwhile s _).trans same
    have connected := seen.meanwhile seenSame calmHere.beforeConnect
    have connectedSame := (Selector.sameGroups_meanwhile a.seen env.beforeConnect).trans seenSame
    have marking := connected.meanwhile connectedSame calmHere.beforeMark
    have markingSame := (Selector.sameGroups_meanwhile _ env.beforeMark).trans connectedSame
    have markingReachable : Selector.Reachable defs s₀.failurePenalty
        ((a.seen.meanwhile env.beforeConnect).meanwhile env.beforeMark) := by
      rw [met.seen]
      exact ((reachable.meanwhile _).meanwhile _).meanwhile _
    have next : s.meanwhile (a.writes hostName env) = _ :=
      meanwhile_writes_of_error met.seen error
    rw [asked] at next
    have stamped : (s.meanwhile (a.writes hostName env)).FailedSince g first (ip :: ips) := by
      rw [next]
      exact marking.markFailure ((markingSame.indexOf hostName).trans routed)
        (fun h group => markingReachable.nodup distinct group) calmHere.markNow ip
    obtain ⟨avoids, nodup⟩ := ih (reachable.meanwhile _)
      ((Selector.sameGroups_meanwhile s _).trans same)
      (fun env' member => calm env' (List.mem_cons_of_mem env member))
      (fun i env' a' found made' => healthy (i + 1) env' a' found made') stamped
    constructor
    · intro b member ip' listed
      rcases List.mem_cons.mp member with rfl | later
      · rw [asked]
        intro equal
        exact fresh (Option.some.inj equal ▸ listed)
      · exact avoids b later ip' (List.mem_cons_of_mem ip listed)
    · rw [List.map_cons, List.nodup_cons]
      refine ⟨fun repeated => ?_, nodup⟩
      obtain ⟨b, later, equal⟩ := List.mem_map.mp repeated
      exact avoids b later ip List.mem_cons_self (equal.trans asked)

/-- A request asks for each address at most once, when its attempts take no longer than the
penalty, its group's candidate list is not written meanwhile, and each attempt finds a
candidate without a recent failure. -/
theorem requestedIps_nodup (parse : String → Option Uri) (defs : List HostDef)
    (state : AppState F)
    (reachable : Selector.Reachable defs state.selector.failurePenalty state.selector)
    (distinct : ∀ d ∈ defs, d.ips.Nodup) (clientAddr : SocketAddr) (req : Request B)
    (env : HandlerEnv F S) (built : ∀ i, (env.attempt i).buildError = none) (hostName : String)
    (accepted : requestHost parse req.headers = .ok hostName) (g : Nat)
    (routed : state.selector.indexOf hostName = some g) (first last : Nat)
    (calm : ∀ i < 3, (env.attempt i).Calm state.selector g first last)
    (short : last ≤ first + state.selector.failurePenalty)
    (healthy : ∀ (i : Nat) (a : Attempt F B S),
      (proxyHandler parse state clientAddr req env).attempts[i]? = some a →
        a.Healthy (env.attempt i) g state.selector.failurePenalty) :
    ((proxyHandler parse state clientAddr req env).attempts.map (·.requestedIp)).Nodup := by
  by_cases managed : (state.selector.hostFor hostName).isSome
  case neg =>
    unfold proxyHandler
    simp only [accepted, if_neg managed]
    exact List.nodup_nil
  let opened : AppState F := { state with metrics := state.metrics.beginRequest env.beginNow }
  cases parsed : parse ("http://" ++ (opened.selector.upstreamHostFor hostName).getD hostName ++
      req.uri.clientPath.asStr) with
  | none =>
    rw [proxyHandler_managed state clientAddr accepted managed
      (serveManaged_unparsed opened parsed)]
    exact List.nodup_nil
  | some uri =>
    obtain ⟨p, sent, tries, -⟩ := run_sendUpstream state.selector hostName uri
      (forwardHeaders req.method req.headers clientAddr.ip.toString) req env built
    obtain ⟨requestMeta, -, served⟩ := serveManaged_finished opened parsed sent
    rw [proxyHandler_managed state clientAddr accepted managed served] at healthy ⊢
    have none : state.selector.FailedSince g first [] := fun _ _ _ _ listed =>
      absurd listed List.not_mem_nil
    refine (tries.avoids reachable (.refl _) distinct routed (fun e member => ?_) short
      (fun i e a surroundings made => ?_) none).2
    · obtain ⟨i, early, rfl⟩ := List.mem_map.mp member
      rw [List.mem_range] at early
      exact calm i (early.trans_le (by split <;> decide))
    · obtain ⟨bound, -⟩ := List.getElem?_eq_some_iff.mp surroundings
      obtain rfl : env.attempt i = e :=
        Option.some.inj ((getElem?_attempts bound).symm.trans surroundings)
      exact healthy i a made

end

/-- All attempts fail within two seconds, while another request succeeds on one address and a
third fails on another. -/
def failingEnv : HandlerEnv ℚ Unit where
  beginNow := 1000
  attempt i :=
    { beforeBestIp :=
        [.updateResult "cdn.example.com" (.v4 1 1 1 1) none none false 1000,
          .updateResult "cdn.example.com" (.v4 4 4 4 4) none none true 1001]
      bestIpNow := 1000 + i, buildError := none, beforeConnect := [], connectNow := some 1000
      outcome := .failed "connection refused"
      ttfbMs := 12, beforeMark := [.pinnedIp "t" none], markNow := 1000 + i }
  recordNow := 1002
  elapsed := ⟨1900, 19 / 10⟩
  responseError := none
  endNow := 1002

def fourDef : HostDef := testDef [.v4 1 1 1 1, .v4 2 2 2 2, .v4 3 3 3 3, .v4 4 4 4 4]

def failingRun : Handled ℚ Unit Unit :=
  proxyHandler splitUri ⟨.new [fourDef] 60, .new⟩ ⟨.v4 10 0 0 2, 50000⟩ cdnGet failingEnv

example : failingRun.attempts.map (·.requestedIp) =
    [some (.v4 4 4 4 4), some (.v4 3 3 3 3), some (.v4 2 2 2 2)] := by decide +kernel

theorem healthy_failingRun : ∀ i < 3, ∀ a ∈ failingRun.attempts[i]?, ∃ h ∈ a.seen.hosts[0]?,
    ∃ c ∈ h.candidates, c.Unpenalised (1000 + i) 60 := by
  decide +kernel

theorem requestedIps_nodup_failing : (failingRun.attempts.map (·.requestedIp)).Nodup := by
  refine requestedIps_nodup splitUri [fourDef] ⟨.new [fourDef] 60, .new⟩ .new (by decide)
    ⟨.v4 10 0 0 2, 50000⟩ cdnGet failingEnv (fun _ => rfl) "cdn.example.com" (by decide +kernel) 0
    (by decide +kernel) 1000 1060 (fun i early => ?_) (by decide) fun i a made => ?_
  · constructor
    · intro w member
      simp only [failingEnv, List.mem_cons, List.not_mem_nil, or_false] at member
      rcases member with rfl | rfl <;> intro _ <;> simp
    · intro w member
      cases member
    · intro w member
      obtain rfl := List.mem_singleton.mp member
      trivial
    · show 1000 + i ≤ 1060
      omega
    · show 1000 ≤ 1000 + i
      omega
  · have early : i < 3 := by
      have bound := (List.getElem?_eq_some_iff.mp made).1
      have three : failingRun.attempts.length = 3 := by decide +kernel
      exact three ▸ bound
    obtain ⟨h, group, c, listed, up⟩ := healthy_failingRun i early a made
    exact ⟨h, c, group, listed, up⟩

end XboxProxy
