import XboxProxy.Endpoints
import XboxProxy.Proxy.Handler
import XboxProxy.Selector.Proofs.BestBadge

/-!
# One group for each request

Everything `proxy_handler` asks the selector on behalf of a request, under the client's host
or under the host it was rewritten to, concerns the group of the one row the client's host
falls under; without such a row nothing happens. The parser of URIs is only assumed to split
a string where the proxy put it together.
-/

namespace XboxProxy
open Misc

/-- A character that does not end an authority. -/
def inAuthority (c : Char) : Bool := c ≠ '/' && c ≠ '?' && c ≠ '#'

/-- The parser splits `http://` URIs at the first slash after the authority. -/
def SplitsHttp (parse : String → Option Uri) : Prop :=
  ∀ (authority : String) (pq : PathAndQuery) (uri : Uri),
    authority.toList.all inAuthority → pq.asStr.toList.head? = some '/' →
    parse ("http://" ++ authority ++ pq.asStr) = some uri →
    uri = ⟨some "http", some authority, some pq⟩

/-- The upstream hosts of the table are bare names. -/
theorem plain_bundledTable : ∀ r ∈ bundledTable.routes,
    authorityHost r.upstream = r.upstream ∧ r.upstream.toList.all inAuthority = true := by
  decide +kernel

section Attempts
variable {F B S : Type} {defs : List HostDef} {penalty : Nat} {hostName : String} {uri : Uri}

/-- An attempt that asks for what `best_ip` returned for the client's host and goes to `uri`. -/
structure Attempt.Routed [Float64 F] (defs : List HostDef) (penalty : Nat) (hostName : String)
    (uri : Uri) (a : Attempt F B S) : Prop where
  reachable : Selector.Reachable defs penalty a.seen
  requested : ∃ now, a.requestedIp = a.seen.bestIp hostName now
  sentTo : a.request.uri = uri

/-- All attempts so far are routed, and the selector is in a reachable state. -/
structure Progress.Routed [Float64 F] (defs : List HostDef) (penalty : Nat) (hostName : String)
    (uri : Uri) (p : Progress F B S) : Prop where
  reachable : Selector.Reachable defs penalty p.selector
  attempts : ∀ a ∈ p.attempts, a.Routed defs penalty hostName uri

theorem Progress.Routed.start [Float64 F] {s : Selector F}
    (reachable : Selector.Reachable defs penalty s) :
    (Progress.start B S s).Routed defs penalty hostName uri where
  reachable := reachable
  attempts := by
    intro a member
    cases member

theorem Progress.Routed.meanwhile [Float64 F] {p : Progress F B S}
    (routed : p.Routed defs penalty hostName uri) (others : List (Selector.Write F)) :
    { p with selector := p.selector.meanwhile others }.Routed defs penalty hostName uri where
  reachable := routed.reachable.meanwhile others
  attempts := routed.attempts

theorem reachable_markFailed {s : Selector F} (reachable : Selector.Reachable defs penalty s)
    (hostName : String) (ip : Option IpAddr) (now : Nat) :
    Selector.Reachable defs penalty (markFailed s hostName ip now) := by
  cases ip with
  | none => exact reachable
  | some ip => exact .updateResult hostName ip none none false now reachable

/-- A list with one more attempt. -/
theorem routed_append [Float64 F] {attempts : List (Attempt F B S)}
    (routed : ∀ a ∈ attempts, a.Routed defs penalty hostName uri) {a : Attempt F B S}
    (last : a.Routed defs penalty hostName uri) :
    ∀ b ∈ attempts ++ [a], b.Routed defs penalty hostName uri := by
  intro b member
  rcases List.mem_append.mp member with earlier | here
  · exact routed b earlier
  · rw [List.mem_singleton.mp here]
    exact last

variable [Float64 F]

theorem Progress.Routed.sendAttempt {p : Progress F B S}
    (routed : p.Routed defs penalty hostName uri) {upReq : Request (Option B)}
    (sentTo : upReq.uri = uri) {ip : Option IpAddr}
    (requested : ∃ now, ip = p.selector.bestIp hostName now) (env : AttemptEnv F S) :
    (XboxProxy.sendAttempt hostName upReq ip env p).Routed defs penalty hostName uri := by
  have connecting := routed.reachable.meanwhile env.beforeConnect
  unfold XboxProxy.sendAttempt
  cases env.outcome.result with
  | ok r =>
    exact ⟨connecting, routed_append routed.attempts ⟨routed.reachable, requested, sentTo⟩⟩
  | error e =>
    refine ⟨reachable_markFailed (connecting.meanwhile env.beforeMark) hostName ip env.markNow, ?_⟩
    exact routed_append routed.attempts ⟨routed.reachable, requested, sentTo⟩

theorem Progress.Routed.tryAttempts
    {build : Option String → Except String (Request (Option B))}
    (sentTo : ∀ e upReq, build e = .ok upReq → upReq.uri = uri) (envs : List (AttemptEnv F S))
    {p : Progress F B S} (routed : p.Routed defs penalty hostName uri) :
    (XboxProxy.tryAttempts hostName build envs p).Routed defs penalty hostName uri := by
  induction envs generalizing p with
  | nil => exact routed
  | cons env envs ih =>
    have before := routed.meanwhile env.beforeBestIp
    unfold XboxProxy.tryAttempts
    simp only
    cases built : build env.buildError with
    | error e => exact ⟨before.reachable, before.attempts⟩
    | ok upReq =>
      have after := before.sendAttempt (sentTo _ upReq built) ⟨env.bestIpNow, rfl⟩ env
      simp only
      split
      · exact after
      · exact ih after

theorem Progress.Routed.tryOnce {build : Option String → Except String (Request (Option B))}
    (sentTo : ∀ e upReq, build e = .ok upReq → upReq.uri = uri) (env : AttemptEnv F S)
    {p : Progress F B S} (routed : p.Routed defs penalty hostName uri) :
    (XboxProxy.tryOnce hostName build env p).1.Routed defs penalty hostName uri := by
  have before := routed.meanwhile env.beforeBestIp
  unfold XboxProxy.tryOnce
  simp only
  cases built : build env.buildError with
  | error e => exact before
  | ok upReq => exact before.sendAttempt (sentTo _ upReq built) ⟨env.bestIpNow, rfl⟩ env

omit [Float64 F] in
theorem uri_buildReq {method : Method} {fwd : HeaderMap} {body : Option B} {e : Option String}
    {upReq : Request (Option B)} (built : buildReq method uri fwd e body = .ok upReq) :
    upReq.uri = uri := by
  cases e with
  | some msg => cases built
  | none =>
    cases built
    rfl

theorem routed_sendUpstream {s : Selector F} (reachable : Selector.Reachable defs penalty s)
    (hostName : String) (uri : Uri) (fwd : HeaderMap) (req : Request B) (env : HandlerEnv F S) :
    (sendUpstream s hostName uri fwd req env).1.Routed defs penalty hostName uri := by
  have start : (Progress.start B S s).Routed defs penalty hostName uri := .start reachable
  unfold sendUpstream
  split
  · exact start.tryAttempts (fun _ _ built => uri_buildReq built) _
  · exact start.tryOnce (fun _ _ built => uri_buildReq built) _

/-- The attempts for a managed host go to its upstream host. -/
theorem routed_serveManaged {parse : String → Option Uri} {state : AppState F}
    (reachable : Selector.Reachable defs penalty state.selector) {clientIp hostName : String}
    {req : Request B} {env : HandlerEnv F S} {a : Attempt F B S}
    (made : a ∈ (serveManaged parse state clientIp hostName req env).attempts) :
    ∃ uri, parse ("http://" ++ (state.selector.upstreamHostFor hostName).getD hostName ++
        req.uri.clientPath.asStr) = some uri ∧ a.Routed defs penalty hostName uri := by
  unfold serveManaged at made
  simp only at made
  cases parsed : parse ("http://" ++ (state.selector.upstreamHostFor hostName).getD hostName ++
      req.uri.clientPath.asStr) with
  | none =>
    rw [parsed] at made
    cases made
  | some uri =>
    rw [parsed] at made
    refine ⟨uri, rfl, ?_⟩
    have routed := routed_sendUpstream reachable hostName uri
      (forwardHeaders req.method req.headers clientIp) req env
    simp only at made
    split at made <;> rename_i p _ sent <;> rw [sent] at routed <;> exact routed.attempts a made

end Attempts

section Managed
variable {F B S : Type} [Float64 F] {parse : String → Option Uri} {defs : List HostDef}
  {penalty : Nat}

/-- In `s`, what the proxy asks for on behalf of `host` concerns the group of row `r`, which is
in state `h`. -/
structure Selector.LeadsTo (s : Selector F) (host : String) (r : Route) (h : HostStateInner F) :
    Prop where
  group : s.hosts[r.group]? = some h
  hostFor : s.hostFor host = some h.hostDef
  upstreamHostFor : s.upstreamHostFor host = some r.upstream
  bestIp : ∀ now, s.bestIp host now =
    (bestCandidate h.candidates now s.failurePenalty).map (·.ip)
  markFailure : ∀ ip now g, g ≠ r.group → (s.markFailure host ip now).hosts[g]? = s.hosts[g]?
  upstreamIndex : s.indexOf r.upstream = some r.group
  upstreamPort : s.upstreamPort r.upstream = some h.hostDef.upstreamPort

omit [Float64 F] in
theorem table_of_reachable (bundled : defs.map HostDef.routes = bundledTable) {s : Selector F}
    (reachable : Selector.Reachable defs penalty s) : s.table = bundledTable := by
  rw [reachable.sameGroups.table, Selector.table_new, bundled]

omit [Float64 F] in
/-- A managed host falls under one row. -/
theorem exists_row_of_hostFor {s : Selector F} (sameTable : s.table = bundledTable)
    {host : String} (managed : (s.hostFor host).isSome) :
    ∃ r ∈ bundledTable.matching host, bundledTable.matching host = [r] := by
  obtain ⟨d, found⟩ := Option.isSome_iff_exists.mp managed
  obtain ⟨r, member, -⟩ := Selector.of_hostFor found
  rw [sameTable] at member
  exact ⟨r, member, unambiguous_bundledTable.matching_eq member⟩

omit [Float64 F] in
/-- All searches for a host under a row lead to the group of the row. -/
theorem routed_of_row {s : Selector F} (sameTable : s.table = bundledTable) {host : String}
    {r : Route} (row : r ∈ bundledTable.matching host) :
    ∃ h, s.hosts[r.group]? = some h ∧ s.hostFor host = some h.hostDef ∧
      s.upstreamHostFor host = some r.upstream ∧ s.indexOf host = some r.group ∧
      s.indexOf r.upstream = some r.group ∧
      s.upstreamPort r.upstream = some h.hostDef.upstreamPort := by
  have clear : Unambiguous s.table := by
    rw [sameTable]
    exact unambiguous_bundledTable
  have managed : s.hostFor host ≠ none := by
    rw [Ne, ← Selector.matching_eq_nil_iff, sameTable]
    exact List.ne_nil_of_mem row
  obtain ⟨d, found⟩ := Option.ne_none_iff_exists'.mp managed
  obtain ⟨r', h, only, group, rfl, rewrites, index, back, port⟩ :=
    Selector.routed_of_hostFor clear found
  obtain rfl : r = r' := by
    rw [sameTable] at only
    rw [only] at row
    exact List.mem_singleton.mp row
  exact ⟨h, group, found, rewrites, index, back, port⟩

theorem leadsTo_of_reachable (bundled : defs.map HostDef.routes = bundledTable) {s : Selector F}
    (reachable : Selector.Reachable defs penalty s) {host : String} {r : Route}
    (row : r ∈ bundledTable.matching host) : ∃ h, s.LeadsTo host r h := by
  obtain ⟨h, group, found, rewrites, index, back, port⟩ :=
    routed_of_row (table_of_reachable bundled reachable) row
  refine ⟨h, group, found, rewrites, ?_, ?_, back, port⟩
  · intro now
    exact Selector.bestIp_eq index group now
  · intro ip now g other
    apply Selector.getElem?_updateResult_of_ne
    rw [index, Ne, Option.some.injEq]
    exact other.symm

/-- Connecting to the upstream host of the row uses the port of its group, and the requested
address when there is one. -/
theorem Selector.LeadsTo.connectorAddr {s : Selector F} {host : String} {r : Route}
    {h : HostStateInner F} (leads : s.LeadsTo host r h)
    (named : authorityHost r.upstream = r.upstream) {uri : Uri}
    (authority : uri.authority = some r.upstream) {current : Option IpAddr} {now : Nat}
    {addr : SocketAddr} (connects : XboxProxy.connectorAddr s current uri now = .ok addr) :
    addr.port = h.hostDef.upstreamPort ∧ ∀ ip, current = some ip → addr.ip = ip := by
  have host : uri.host.getD "" = r.upstream := by
    simp [Uri.host, authority, named]
  unfold XboxProxy.connectorAddr Selector.resolve at connects
  simp only [host, leads.upstreamPort, Option.getD_some] at connects
  cases current with
  | some ip =>
    cases connects
    exact ⟨rfl, by rintro _ ⟨⟩; rfl⟩
  | none =>
    simp only at connects
    split at connects
    · split at connects
      · cases connects
        exact ⟨rfl, by rintro _ ⟨⟩⟩
      · cases connects
    · cases connects

/-- An attempt asks for a current candidate of the group, unless the group has none. -/
theorem Selector.LeadsTo.requested {s : Selector F} {host : String} {r : Route}
    {h : HostStateInner F} (leads : s.LeadsTo host r h) (now : Nat) :
    (∃ c ∈ h.candidates, s.bestIp host now = some c.ip) ∨
      h.candidates = [] ∧ s.bestIp host now = none := by
  rw [leads.bestIp]
  by_cases nonempty : h.candidates = []
  · right
    rw [nonempty]
    exact ⟨rfl, rfl⟩
  · left
    obtain ⟨c, chosen⟩ :=
      Option.isSome_iff_exists.mp (Selector.isSome_chosen nonempty now s.failurePenalty)
    exact ⟨c, Selector.mem_of_bestCandidate chosen, by rw [chosen]; rfl⟩

/-- What holds of an attempt made for a request: the client's host falls under one row `r` of
the bundled table, the request goes to the upstream host of `r` with the client's path and
query, the address asked for is a current candidate of the group of `r`, and whatever the
selector has gone through, lookups under either host concern that group. -/
structure Attempt.OneGroup (parse : String → Option Uri) (defs : List HostDef) (penalty : Nat)
    (req : Request B) (a : Attempt F B S) (host : String) (r : Route) : Prop where
  asked : requestHost parse req.headers = .ok host
  row : bundledTable.matching host = [r]
  uri : a.request.uri = ⟨some "http", some r.upstream, some req.uri.clientPath⟩
  reachable : Selector.Reachable defs penalty a.seen
  candidate : ∃ h, a.seen.LeadsTo host r h ∧
    ((∃ c ∈ h.candidates, a.requestedIp = some c.ip) ∨ h.candidates = [] ∧ a.requestedIp = none)
  connects : ∀ s : Selector F, Selector.Reachable defs penalty s → ∃ h, s.LeadsTo host r h ∧
    ∀ current now addr, connectorAddr s current a.request.uri now = .ok addr →
      addr.port = h.hostDef.upstreamPort ∧ ∀ ip, current = some ip → addr.ip = ip

/-- An attempt that goes to where a managed host is rewritten to is made for its one group. -/
theorem Attempt.Routed.oneGroup (splits : SplitsHttp parse)
    (bundled : defs.map HostDef.routes = bundledTable) {s : Selector F}
    (reachable : Selector.Reachable defs penalty s) {req : Request B} {host : String}
    (asked : requestHost parse req.headers = .ok host) (managed : (s.hostFor host).isSome)
    (slash : req.uri.clientPath.asStr.toList.head? = some '/') {uri : Uri}
    (parsed : parse ("http://" ++ (s.upstreamHostFor host).getD host ++
      req.uri.clientPath.asStr) = some uri) {a : Attempt F B S}
    (routed : a.Routed defs penalty host uri) : ∃ r, a.OneGroup parse defs penalty req host r := by
  have sameTable := table_of_reachable bundled reachable
  obtain ⟨r, row, only⟩ := exists_row_of_hostFor sameTable managed
  obtain ⟨h, -, -, rewrites, -⟩ := routed_of_row sameTable row
  obtain ⟨named, bare⟩ := plain_bundledTable r (mem_matching.mp row).1
  have sentTo : a.request.uri = ⟨some "http", some r.upstream, some req.uri.clientPath⟩ := by
    rw [routed.sentTo]
    rw [rewrites, Option.getD_some] at parsed
    exact splits r.upstream req.uri.clientPath uri bare slash parsed
  refine ⟨r, asked, only, sentTo, routed.reachable, ?_, ?_⟩
  · obtain ⟨h, leads⟩ := leadsTo_of_reachable bundled routed.reachable row
    obtain ⟨now, requested⟩ := routed.requested
    refine ⟨h, leads, ?_⟩
    rw [requested]
    exact leads.requested now
  · intro s reachable
    obtain ⟨h, leads⟩ := leadsTo_of_reachable bundled reachable row
    refine ⟨h, leads, ?_⟩
    intro current now addr connects
    exact leads.connectorAddr named (by rw [sentTo]) connects

/-- An attempt is made for the one group of the host a client asks for. -/
theorem oneGroup_of_made (splits : SplitsHttp parse)
    (bundled : defs.map HostDef.routes = bundledTable) {state : AppState F}
    (reachable : Selector.Reachable defs penalty state.selector) {clientAddr : SocketAddr}
    {req : Request B} (slash : req.uri.clientPath.asStr.toList.head? = some '/')
    {env : HandlerEnv F S} {a : Attempt F B S}
    (made : a ∈ (proxyHandler parse state clientAddr req env).attempts) :
    ∃ host r, a.OneGroup parse defs penalty req host r := by
  obtain ⟨host, asked, managed, served, rfl, made, -⟩ := served_of_made made
  let opened := { state with metrics := state.metrics.beginRequest env.beginNow }
  have openedReachable : Selector.Reachable defs penalty opened.selector := reachable
  obtain ⟨uri, parsed, routed⟩ := routed_serveManaged openedReachable made
  exact ⟨host, routed.oneGroup splits bundled reachable asked managed slash parsed⟩

/-- A request is sent upstream only for a host under exactly one row of the bundled table, and
then everything concerns the group of that row; for any other host nothing is sent and
nothing changes. -/
theorem proxyHandler_oneGroup (splits : SplitsHttp parse)
    (bundled : defs.map HostDef.routes = bundledTable) (state : AppState F)
    (reachable : Selector.Reachable defs penalty state.selector) (clientAddr : SocketAddr)
    (req : Request B) (slash : req.uri.clientPath.asStr.toList.head? = some '/')
    (env : HandlerEnv F S) :
    (∀ a ∈ (proxyHandler parse state clientAddr req env).attempts,
      ∃ host r, a.OneGroup parse defs penalty req host r) ∧
    ((∀ host, requestHost parse req.headers = .ok host → bundledTable.matching host = []) →
      (proxyHandler parse state clientAddr req env).attempts = [] ∧
      (proxyHandler parse state clientAddr req env).state = state) := by
  refine ⟨fun a made => oneGroup_of_made splits bundled reachable slash made, ?_⟩
  intro unmatched
  unfold proxyHandler
  simp only
  cases asked : requestHost parse req.headers with
  | error msg => exact ⟨rfl, rfl⟩
  | ok host =>
    have unmanaged := unmatched host asked
    rw [← table_of_reachable bundled reachable, Selector.matching_eq_nil_iff] at unmanaged
    simp [unmanaged]

end Managed

/-- A parser of plain `http://` URIs. -/
def splitUri (raw : String) : Option Uri :=
  match raw.toList with
  | 'h' :: 't' :: 't' :: 'p' :: ':' :: '/' :: '/' :: rest =>
    if rest.takeWhile inAuthority = [] then none
    else
      some
        { scheme := some "http"
          authority := some (String.ofList (rest.takeWhile inAuthority))
          pathAndQuery := some
            { asStr := String.ofList ((rest.dropWhile inAuthority).takeWhile (· ≠ '#'))
              noFragment := by
                rw [String.toList_ofList]
                intro member
                simpa using List.mem_takeWhile_imp member } }
  | _ => none

theorem splitsHttp_splitUri : SplitsHttp splitUri := by
  intro authority pq uri bare slash parsed
  have inside : ∀ c ∈ authority.toList, inAuthority c = true := List.all_eq_true.mp bare
  obtain ⟨rest, path⟩ : ∃ rest, pq.asStr.toList = '/' :: rest := by
    cases chars : pq.asStr.toList with
    | nil => simp [chars] at slash
    | cons c rest =>
      obtain rfl : c = '/' := by simpa [chars] using slash
      exact ⟨rest, rfl⟩
  have outside : inAuthority '/' = false := by decide
  have taken : (authority.toList ++ pq.asStr.toList).takeWhile inAuthority = authority.toList := by
    rw [List.takeWhile_append_of_pos inside, path, List.takeWhile_cons_of_neg (by simp [outside]),
      List.append_nil]
  have dropped : (authority.toList ++ pq.asStr.toList).dropWhile inAuthority =
      pq.asStr.toList := by
    rw [List.dropWhile_append_of_pos inside, path, List.dropWhile_cons_of_neg (by simp [outside])]
  have whole : pq.asStr.toList.takeWhile (· ≠ '#') = pq.asStr.toList := by
    rw [List.takeWhile_eq_self_iff]
    intro c member
    have other : c ≠ '#' := by
      rintro rfl
      exact pq.noFragment member
    simpa using other
  have chars : ("http://" ++ authority ++ pq.asStr).toList =
      'h' :: 't' :: 't' :: 'p' :: ':' :: '/' :: '/' :: (authority.toList ++ pq.asStr.toList) := by
    simp
  unfold splitUri at parsed
  simp only [chars, taken, dropped, whole, String.ofList_toList] at parsed
  split at parsed
  · cases parsed
  · cases parsed
    rfl

/-- The bundled groups with one address each. -/
def assetDefs : List HostDef :=
  (endpoints "" "").map fun spec => spec.hostDef [.v4 114 105 125 22]

/-- A client asks for a file of a managed host. -/
def assetRequest : Request Unit where
  method := .get
  uri := ⟨none, none, some ⟨"/file?a=1", by decide⟩⟩
  headers := Multimap.empty.append .host
    ((HeaderValue.fromStr "D1.XboxLive.com:80").getD .empty)
  body := ()

/-- The first attempt fails and the second is answered. -/
def assetEnv : HandlerEnv ℚ Unit where
  beginNow := 1000
  attempt i :=
    { beforeBestIp := [], bestIpNow := 1000, buildError := none, beforeConnect := []
      connectNow := some 1000
      outcome := if i = 0 then .failed "connection refused" else .responded ⟨200, .empty, ()⟩
      ttfbMs := 12, beforeMark := [], markNow := 1000 }
  recordNow := 1001
  elapsed := ⟨900, 9 / 10⟩
  responseError := none
  endNow := 1001

def assetRun : Handled ℚ Unit Unit :=
  proxyHandler splitUri ⟨.new assetDefs 60, .new⟩ ⟨.v4 192 168 0 2, 50000⟩ assetRequest assetEnv

theorem proxyHandler_oneGroup_asset :
    assetRun.attempts.map (·.request.uri.authority) =
        [some "assets1.xboxlive.cn", some "assets1.xboxlive.cn"] ∧
      ∀ a ∈ assetRun.attempts, ∃ host r, a.OneGroup splitUri assetDefs 60 assetRequest host r :=
  ⟨by decide +kernel,
    (proxyHandler_oneGroup splitsHttp_splitUri (by rfl) ⟨.new assetDefs 60, .new⟩ .new
      ⟨.v4 192 168 0 2, 50000⟩ assetRequest (by decide) assetEnv).1⟩

end XboxProxy
