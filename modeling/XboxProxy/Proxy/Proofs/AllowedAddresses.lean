import XboxProxy.Proxy.Proofs.DistinctAttempts
import XboxProxy.Proxy.Proofs.OneGroup
import XboxProxy.Speedtest.Proofs.AfterPass

/-!
# Addresses the program connects to

A policy says which addresses a group may be served from. If it allows the listed addresses
and the accepted pins, then every attempt of a request and every test of a pass keeps to it,
whatever other tasks write at the same time.
-/

namespace XboxProxy
open Misc

namespace Selector

variable {F : Type} {allowed : Nat → IpAddr → Prop}

/-- A pin that is written is allowed for the group it is written to. -/
def Write.Respects (allowed : Nat → IpAddr → Prop) (s : Selector F) : Write F → Prop
  | .candidates name (some ip) => ∀ g, s.indexOf name = some g → allowed g ip
  | _ => True

/-- Every group has allowed addresses only, and would be restored to such. -/
structure Within (allowed : Nat → IpAddr → Prop) (s : Selector F) : Prop where
  candidates : ∀ g h, s.hosts[g]? = some h → ∀ c ∈ h.candidates, allowed g c.ip
  bundled : ∀ g h, s.hosts[g]? = some h → ∀ ip ∈ h.bundledIps, allowed g ip

theorem Within.new {defs : List HostDef}
    (listed : ∀ g d, defs[g]? = some d → ∀ ip ∈ d.ips, allowed g ip) (penalty : Nat) :
    (Selector.new (F := F) defs penalty).Within allowed := by
  constructor <;> intro g h group <;> rw [getElem?_new] at group <;>
    obtain ⟨d, found, rfl⟩ := Option.map_eq_some_iff.mp group
  · intro c member
    obtain ⟨ip, here, rfl⟩ := List.mem_map.mp member
    exact listed g d found ip here
  · exact listed g d found

/-- A change of one group that keeps what it would be restored to. -/
theorem Within.modifyGroup {s : Selector F} (within : s.Within allowed) {i : Nat}
    {f : HostStateInner F → HostStateInner F} (fixed : ∀ h, (f h).bundledIps = h.bundledIps)
    (candidates : ∀ h, s.hosts[i]? = some h → ∀ c ∈ (f h).candidates, allowed i c.ip) :
    (s.modifyGroup i f).Within allowed := by
  constructor <;> intro g after group <;> rw [getElem?_modifyGroup] at group <;>
    split at group <;> rename_i here
  · subst here
    obtain ⟨h, found, rfl⟩ := Option.map_eq_some_iff.mp group
    exact candidates h found
  · exact within.candidates g after group
  · obtain ⟨h, found, rfl⟩ := Option.map_eq_some_iff.mp group
    rw [fixed]
    exact within.bundled g h found
  · exact within.bundled g after group

theorem Within.updateResult {s : Selector F} (within : s.Within allowed) (host : String)
    (ip : IpAddr) (latencyMs : Option Nat) (speedKbps : Option F) (success : Bool) (now : Nat) :
    (s.updateResult host ip latencyMs speedKbps success now).Within allowed := by
  constructor <;> intro g after group <;>
    obtain ⟨h, found, fixed, -, ips⟩ := of_getElem?_updateResult group
  · intro c member
    have here : c.ip ∈ h.candidates.map (·.ip) := ips ▸ List.mem_map_of_mem member
    obtain ⟨b, old, same⟩ := List.mem_map.mp here
    exact same ▸ within.candidates g h found b old
  · have same : after.bundledIps = h.bundledIps := congrArg Prod.snd fixed
    rw [same]
    exact within.bundled g h found

/-- Writes that respect the policy keep to it. -/
theorem Within.write {s t : Selector F} (within : t.Within allowed) (same : SameGroups t s)
    {w : Write F} (respects : w.Respects allowed s) : (t.write w).Within allowed := by
  cases w with
  | updateResult host ip latencyMs speedKbps success now =>
    exact within.updateResult host ip latencyMs speedKbps success now
  | pinnedIp name ip =>
    simp only [Selector.write]
    split
    · exact within.modifyGroup (fun _ => rfl) fun h found => within.candidates _ h found
    · exact within
  | candidates name ip =>
    simp only [Selector.write]
    split
    case h_2 => exact within
    rename_i i ips target
    have routed := pinTarget_index target
    refine within.modifyGroup (fun _ => rfl) fun h found c member => ?_
    obtain ⟨address, listed, rfl⟩ := List.mem_map.mp member
    rw [pinTarget_ips target found] at listed
    cases ip with
    | none => exact within.bundled i h found address listed
    | some ip =>
      rw [List.mem_singleton.mp listed]
      exact respects i ((same.indexOf name).symm.trans routed)

theorem Within.meanwhile {s t : Selector F} (within : t.Within allowed) (same : SameGroups t s)
    {others : List (Write F)} (respects : ∀ w ∈ others, w.Respects allowed s) :
    (t.meanwhile others).Within allowed := by
  induction others generalizing t with
  | nil => exact within
  | cons w others ih =>
    exact ih (within.write same (respects w List.mem_cons_self))
      ((sameGroups_write t w).trans same) fun w' member =>
        respects w' (List.mem_cons_of_mem w member)

/-! ## The states a handler sees -/

/-- `t` is what writes with `ok` lead to from `s`. -/
def LeadsBy (ok : Write F → Prop) (s t : Selector F) : Prop :=
  ∃ log, (∀ w ∈ log, ok w) ∧ t = s.meanwhile log

variable {ok : Write F → Prop} {s t : Selector F}

theorem LeadsBy.refl (s : Selector F) : LeadsBy ok s s := ⟨[], by simp, rfl⟩

theorem LeadsBy.meanwhile (leads : LeadsBy ok s t) (others : List (Write F))
    (all : ∀ w ∈ others, ok w) : LeadsBy ok s (t.meanwhile others) := by
  obtain ⟨log, kept, rfl⟩ := leads
  refine ⟨log ++ others, fun w member => ?_, (List.foldl_append ..).symm⟩
  rcases List.mem_append.mp member with before | here
  · exact kept w before
  · exact all w here

end Selector

/-- The writes other tasks make around an attempt. -/
def AttemptEnv.others {F S : Type} (env : AttemptEnv F S) : List (Selector.Write F) :=
  env.beforeBestIp ++ env.beforeConnect ++ env.beforeMark

section Seen
variable {F B S : Type} [Float64 F] {ok : Selector.Write F → Prop} {s : Selector F}

/-- The selector and the states the attempts have seen come from writes with `ok`. -/
structure Progress.LeadsBy (ok : Selector.Write F → Prop) (s : Selector F) (p : Progress F B S) :
    Prop where
  selector : Selector.LeadsBy ok s p.selector
  seen : ∀ a ∈ p.attempts, Selector.LeadsBy ok s a.seen

omit [Float64 F] in
theorem leadsBy_markFailed {t : Selector F} (leads : Selector.LeadsBy ok s t)
    (marks : ∀ host ip now, ok (.updateResult host ip none none false now)) (hostName : String)
    (ip : Option IpAddr) (now : Nat) : Selector.LeadsBy ok s (markFailed t hostName ip now) := by
  cases ip with
  | none => exact leads
  | some ip =>
    exact leads.meanwhile [.updateResult hostName ip none none false now]
      (by simpa using marks hostName ip now)

theorem Progress.LeadsBy.sendAttempt {p : Progress F B S} (leads : p.LeadsBy ok s)
    (marks : ∀ host ip now, ok (.updateResult host ip none none false now))
    {env : AttemptEnv F S} (others : ∀ w ∈ env.others, ok w) (hostName : String)
    (upReq : Request (Option B)) (ip : Option IpAddr) :
    (XboxProxy.sendAttempt hostName upReq ip env p).LeadsBy ok s := by
  have connecting := leads.selector.meanwhile env.beforeConnect fun w member =>
    others w (by simp [AttemptEnv.others, member])
  have seen : ∀ (result : Except String (Response S)) (marked : Option IpAddr),
      ∀ a ∈ p.attempts ++ [⟨p.selector, ip, upReq, result, marked⟩],
        Selector.LeadsBy ok s a.seen := by
    intro result marked a member
    rcases List.mem_append.mp member with before | last
    · exact leads.seen a before
    · rw [List.mem_singleton.mp last]
      exact leads.selector
  unfold XboxProxy.sendAttempt
  cases env.outcome.result with
  | ok r => exact ⟨connecting, seen _ _⟩
  | error e =>
    refine ⟨leadsBy_markFailed (connecting.meanwhile _ fun w member => ?_) marks hostName ip
      env.markNow, seen _ _⟩
    exact others w (by simp [AttemptEnv.others, member])

omit [Float64 F] in
theorem Progress.LeadsBy.beforeBestIp {p : Progress F B S} (leads : p.LeadsBy ok s)
    {env : AttemptEnv F S} (others : ∀ w ∈ env.others, ok w) :
    { p with selector := p.selector.meanwhile env.beforeBestIp }.LeadsBy ok s where
  selector := leads.selector.meanwhile _ fun w member =>
    others w (by simp [AttemptEnv.others, member])
  seen := leads.seen

theorem Progress.LeadsBy.tryAttempts
    (marks : ∀ host ip now, ok (.updateResult host ip none none false now)) (hostName : String)
    (build : Option String → Except String (Request (Option B))) {envs : List (AttemptEnv F S)}
    (others : ∀ env ∈ envs, ∀ w ∈ env.others, ok w) {p : Progress F B S} (leads : p.LeadsBy ok s) :
    (XboxProxy.tryAttempts hostName build envs p).LeadsBy ok s := by
  induction envs generalizing p with
  | nil => exact leads
  | cons env envs ih =>
    have before := leads.beforeBestIp (others env List.mem_cons_self)
    unfold XboxProxy.tryAttempts
    simp only
    cases build env.buildError with
    | error e => exact ⟨before.selector, before.seen⟩
    | ok upReq =>
      have after := before.sendAttempt marks (others env List.mem_cons_self) hostName upReq
        ((p.selector.meanwhile env.beforeBestIp).bestIp hostName env.bestIpNow)
      simp only
      split
      · exact after
      · exact ih (fun env' member => others env' (List.mem_cons_of_mem env member)) after

theorem leadsBy_sendUpstream
    (marks : ∀ host ip now, ok (.updateResult host ip none none false now)) (s : Selector F)
    (hostName : String) (uri : Uri) (fwd : HeaderMap) (req : Request B) {env : HandlerEnv F S}
    (others : ∀ i < 3, ∀ w ∈ (env.attempt i).others, ok w) :
    (sendUpstream s hostName uri fwd req env).1.LeadsBy ok s := by
  have start : (Progress.start B S s).LeadsBy ok s := ⟨.refl s, fun a member => by cases member⟩
  unfold sendUpstream
  split
  · refine start.tryAttempts marks hostName _ fun e member => ?_
    obtain ⟨i, bound, rfl⟩ := List.mem_map.mp member
    exact others i (List.mem_range.mp bound)
  · have before := start.beforeBestIp (others 0 (by decide))
    unfold tryOnce
    simp only
    split
    · exact before
    · exact before.sendAttempt marks (others 0 (by decide)) hostName _ _

/-- Every state an attempt sees is one that the writes of other tasks and failure marks have
led to since the request came in. -/
theorem seen_of_made {parse : String → Option Uri} {state : AppState F}
    (marks : ∀ host ip now, ok (.updateResult host ip none none false now))
    {clientAddr : SocketAddr} {req : Request B} {env : HandlerEnv F S}
    (others : ∀ i < 3, ∀ w ∈ (env.attempt i).others, ok w) {a : Attempt F B S}
    (made : a ∈ (proxyHandler parse state clientAddr req env).attempts) :
    Selector.LeadsBy ok state.selector a.seen := by
  obtain ⟨hostName, -, -, served, rfl, inServed, -⟩ := served_of_made made
  unfold serveManaged at inServed
  simp only at inServed
  split at inServed
  · cases inServed
  · rename_i uri _
    have leads := leadsBy_sendUpstream marks state.selector hostName uri
      (forwardHeaders req.method req.headers clientAddr.ip.toString) req others
    split at inServed <;> rename_i p _ sent <;> rw [sent] at leads <;> exact leads.seen a inServed

end Seen

/-! ## The policy is kept -/

/-- An attempt for a request that names a host of group `g` asks for, and connects to, an
address that is allowed for `g`. -/
structure Attempt.Allowed {F B S : Type} [Float64 F] (allowed : Nat → IpAddr → Prop)
    (parse : String → Option Uri) (req : Request B) (a : Attempt F B S) (ip : IpAddr) : Prop where
  group : ∃ host r, requestHost parse req.headers = .ok host ∧ bundledTable.matching host = [r] ∧
    allowed r.group ip
  requested : a.requestedIp = some ip
  connects : ∀ (s : Selector F) now addr,
    connectorAddr s a.requestedIp a.request.uri now = .ok addr → addr.ip = ip

section Policy
variable {F B S : Type} [Float64 F] {allowed : Nat → IpAddr → Prop}

/-- An attempt that looks at groups within the policy keeps to it. -/
theorem Attempt.OneGroup.keeps {parse : String → Option Uri} {defs : List HostDef}
    {penalty : Nat} {req : Request B} {a : Attempt F B S} {host : String} {r : Route}
    (oneGroup : a.OneGroup parse defs penalty req host r) (nonempty : ∀ d ∈ defs, d.ips ≠ [])
    (within : a.seen.Within allowed) : ∃ ip, a.Allowed allowed parse req ip := by
  obtain ⟨h, leads, asks⟩ := oneGroup.candidate
  rcases asks with ⟨c, listed, requested⟩ | ⟨none, -⟩
  · refine ⟨c.ip, ⟨⟨host, r, oneGroup.asked, oneGroup.row, ?_⟩, requested, ?_⟩⟩
    · exact within.candidates r.group h leads.group c listed
    · intro s now addr connects
      rw [requested] at connects
      cases connects
      rfl
  · exact absurd none (oneGroup.reachable.nonempty nonempty leads.group)

omit [Float64 F] in
/-- A pass over groups within the policy keeps to it. -/
theorem allowed_of_measured {inputs : PassInputs F} {s : Selector F} (within : s.Within allowed)
    (named : s.NamesRouted) (schedule : PassSchedule) (maxConcurrency : Nat) (forced : Bool)
    (urlOverride : Option String) (m : MetricsStore F) {t : SpeedTask}
    (measured : t ∈ (runPass inputs schedule maxConcurrency forced urlOverride s m).measured) :
    ∃ g, s.indexOf t.hostDef.name = some g ∧ allowed g t.ip := by
  have listed := (covers_listing inputs schedule maxConcurrency forced urlOverride s m).listed t
    measured
  obtain ⟨g, h, group, live, routed⟩ := routed_of_mem_listing named listed
  have address := ip_of_mem_listing listed
  rw [live] at address
  obtain ⟨c, candidate, ip⟩ := List.mem_map.mp address
  exact ⟨g, routed, ip ▸ within.candidates g h group c candidate⟩

/-- In the program, after any writes and whatever is written meanwhile: if the listed addresses
and the pins are allowed for their groups, then every attempt of every request and every test
of every pass goes to an address allowed for its group. -/
theorem addresses_allowed {xboxCn1 xboxCn2 : String} {pinCn1 pinCn2 : EnvVar}
    {loaded : LoadedEndpoints} (ok : load xboxCn1 xboxCn2 pinCn1 pinCn2 = .ok loaded)
    (penalty : Nat) (allowed : Nat → IpAddr → Prop)
    (listed : ∀ g d, loaded.hosts[g]? = some d → ∀ ip ∈ d.ips, allowed g ip)
    (writes : List (Selector.Write F))
    (pins : ∀ w ∈ writes, w.Respects allowed (Selector.new loaded.hosts penalty)) :
    let s := (Selector.new loaded.hosts penalty).meanwhile writes
    (∀ parse, SplitsHttp parse → ∀ m clientAddr (req : Request B) (env : HandlerEnv F S),
      req.uri.clientPath.asStr.toList.head? = some '/' →
      (∀ i < 3, ∀ w ∈ (env.attempt i).others,
        w.Respects allowed (Selector.new loaded.hosts penalty)) →
      ∀ a ∈ (proxyHandler parse ⟨s, m⟩ clientAddr req env).attempts,
        ∃ ip, a.Allowed allowed parse req ip) ∧
    ∀ inputs schedule maxConcurrency forced urlOverride m,
      ∀ t ∈ (runPass inputs schedule maxConcurrency forced urlOverride s m).measured,
        ∃ g, s.indexOf t.hostDef.name = some g ∧ allowed g t.ip := by
  intro s
  have reachable : Selector.Reachable loaded.hosts penalty s :=
    Selector.Reachable.new.meanwhile writes
  have within : s.Within allowed :=
    (Selector.Within.new listed penalty).meanwhile (.refl _) pins
  refine ⟨?_, ?_⟩
  · intro parse splits m clientAddr req env slash others a made
    obtain ⟨host, r, oneGroup⟩ :=
      oneGroup_of_made splits (routes_load ok) (show Selector.Reachable loaded.hosts penalty
        (AppState.mk s m).selector from reachable) slash made
    obtain ⟨log, respects, seen⟩ := seen_of_made (fun _ _ _ => trivial) others made
    refine oneGroup.keeps (fun d member => (wellFormed_load ok d member).1) ?_
    rw [seen]
    exact within.meanwhile reachable.sameGroups respects
  · intro inputs schedule maxConcurrency forced urlOverride m t measured
    exact allowed_of_measured within (namesRouted_load ok reachable) schedule maxConcurrency forced
      urlOverride m measured

end Policy

/-- Between the failed first attempt and the second one the group is pinned. -/
def pinnedMidway : HandlerEnv ℚ Unit :=
  { assetEnv with
    attempt := fun i =>
      { assetEnv.attempt i with
        beforeBestIp :=
          if i = 0 then []
          else [.pinnedIp "xbox-assets" (some (.v4 9 9 9 9)),
            .candidates "xbox-assets" (some (.v4 9 9 9 9))] } }

theorem addresses_allowed_pinnedMidway :
    ∃ loaded, load "114.105.125.22" "60.167.226.211" (.ok none) (.ok none) = .ok loaded ∧
      ∀ a ∈ (proxyHandler splitUri ⟨.new loaded.hosts 60, .new⟩ ⟨.v4 192 168 0 2, 50000⟩
          assetRequest pinnedMidway).attempts,
        a.requestedIp = some (.v4 114 105 125 22) ∨ a.requestedIp = some (.v4 9 9 9 9) := by
  obtain ⟨loaded, ok, hosts, routes⟩ : ∃ loaded,
      load "114.105.125.22" "60.167.226.211" (.ok none) (.ok none) = .ok loaded ∧
      loaded.hosts.map (·.ips) = [[.v4 114 105 125 22], [.v4 60 167 226 211]] ∧
      (Selector.new (F := ℚ) loaded.hosts 60).indexOf "xbox-assets" = some 0 :=
    ⟨_, rfl, by decide +kernel, by decide +kernel⟩
  let allowed : Nat → IpAddr → Prop := fun g ip =>
    g = 0 ∧ (ip = .v4 114 105 125 22 ∨ ip = .v4 9 9 9 9) ∨ g = 1 ∧ ip = .v4 60 167 226 211
  refine ⟨loaded, ok, fun a made => ?_⟩
  have listed : ∀ g d, loaded.hosts[g]? = some d → ∀ ip ∈ d.ips, allowed g ip := by
    intro g d found ip member
    have ips : (loaded.hosts.map (·.ips))[g]? = some d.ips := by rw [List.getElem?_map, found]; rfl
    rw [hosts] at ips
    rcases g with _ | _ | g
    · rw [← Option.some.inj ips] at member
      exact .inl ⟨rfl, .inl (List.mem_singleton.mp member)⟩
    · rw [← Option.some.inj ips] at member
      exact .inr ⟨rfl, List.mem_singleton.mp member⟩
    · cases ips
  have others : ∀ i < 3, ∀ w ∈ (pinnedMidway.attempt i).others,
      w.Respects allowed (Selector.new loaded.hosts 60) := by
    intro i _ w member
    have pins : w = .pinnedIp "xbox-assets" (some (.v4 9 9 9 9)) ∨
        w = .candidates "xbox-assets" (some (.v4 9 9 9 9)) := by
      by_cases first : i = 0
      · simp [pinnedMidway, assetEnv, AttemptEnv.others, first] at member
      · simpa [pinnedMidway, assetEnv, AttemptEnv.others, first] using member
    rcases pins with rfl | rfl
    · trivial
    · intro g routed
      rw [routes] at routed
      exact .inl ⟨(Option.some.inj routed).symm, .inr rfl⟩
  obtain ⟨ip, ⟨host, r, asked, row, kept⟩, requested, -⟩ :=
    (addresses_allowed (F := ℚ) (B := Unit) (S := Unit) ok 60 allowed listed [] (by simp)).1
      splitUri splitsHttp_splitUri .new ⟨.v4 192 168 0 2, 50000⟩ assetRequest pinnedMidway
      (by decide) others a made
  obtain rfl : "d1.xboxlive.com" = host := by
    have asks : requestHost splitUri assetRequest.headers = .ok "d1.xboxlive.com" := by
      decide +kernel
    exact Except.ok.inj (asks.symm.trans asked)
  have first : (bundledTable.matching "d1.xboxlive.com").map (·.group) = [0] := by decide +kernel
  rw [row, List.map_singleton, List.singleton_inj] at first
  rw [requested]
  rcases kept with ⟨-, rfl | rfl⟩ | ⟨second, -⟩
  · exact .inl rfl
  · exact .inr rfl
  · omega

end XboxProxy
