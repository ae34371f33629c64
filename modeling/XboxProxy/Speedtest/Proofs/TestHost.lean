import XboxProxy.Proxy.Proofs.HopByHop
import XboxProxy.Selector.Proofs.HostMatching
import XboxProxy.Speedtest.Measure
import XboxProxy.Speedtest.Proofs.TestUrls

/-!
# The host a measurement asks for

A measurement asks a candidate for the host of the test URL. The proxy asks it for the upstream
host of the row the client's host falls under. They ask for the same where a row leads to
itself.
-/

namespace XboxProxy
open Misc

section Measured
variable {cfg : MeasureConfig} {uri : Uri} {draw : UInt64} {request : Request Unit}

theorem host_measureRequest (sent : measureRequest cfg uri draw = some request) :
    (request.headers.get .host).bind HeaderValue.toStr = some (uri.host.getD "") := by
  simp only [measureRequest, Option.bind_eq_bind, Option.bind_eq_some_iff, Option.pure_def,
    Option.some.injEq] at sent
  obtain ⟨-, -, host, made, range, -, userAgent, -, rfl⟩ := sent
  have others : HeaderName.range ≠ .host ∧ HeaderName.userAgent ≠ .host := by decide
  simp only [Multimap.get, Multimap.getAll_append, if_neg others.1, if_neg others.2, if_pos]
  exact toStr_of_fromStr made

end Measured

/-- The upstream hosts that are rewritten to themselves. -/
def ownUpstreams : List String :=
  ["assets1.xboxlive.cn", "assets2.xboxlive.cn", "dlassets.xboxlive.cn", "dlassets2.xboxlive.cn"]

/-- The upstream hosts of the table lead to themselves. -/
theorem ownUpstreams_bundledTable :
    (∀ r ∈ bundledTable.routes, r.upstream ∈ ownUpstreams) ∧
      ∀ host ∈ ownUpstreams, ∀ r ∈ bundledTable.matching host, r.upstream = host := by
  decide

section Sent
variable {F : Type}

/-- The measurement asks for the host the proxy would ask for. -/
def SendsProxyHost (s : Selector F) (host : String) (request : Request Unit) : Prop :=
  (request.headers.get .host).bind HeaderValue.toStr = s.upstreamHostFor host

variable [Float64 F]

/-- What the proxy sends upstream for a client's request to `host` goes to `upstream`. -/
def ProxiedTo (parse : String → Option Uri) (s : Selector F) (host upstream : String) : Prop :=
  ∀ (B S : Type) (metrics : MetricsStore F) (clientAddr : SocketAddr) (req : Request B)
    (env : HandlerEnv F S) (hostName : String), requestHost parse req.headers = .ok hostName →
    normalizeHost hostName = normalizeHost host →
    req.uri.clientPath.asStr.toList.head? = some '/' →
    ∀ a ∈ (proxyHandler parse ⟨s, metrics⟩ clientAddr req env).attempts,
      a.request.uri.host = some upstream

theorem proxiedTo_upstreamHostFor {parse : String → Option Uri} (splits : SplitsHttp parse)
    {defs : List HostDef} (bundled : defs.map HostDef.routes = bundledTable) {penalty : Nat}
    {s : Selector F} (reachable : s.Reachable defs penalty) {host upstream : String}
    (rewrites : s.upstreamHostFor host = some upstream) : ProxiedTo parse s host upstream := by
  intro B S metrics clientAddr req env hostName asked same slash a made
  have sent : Selector.Reachable defs penalty (AppState.mk s metrics).selector := reachable
  obtain ⟨hostName', r, group⟩ := oneGroup_of_made splits bundled sent slash made
  obtain rfl : hostName = hostName' := Except.ok.inj (asked.symm.trans group.asked)
  have row : r ∈ bundledTable.matching hostName := by
    rw [group.row]
    exact List.mem_singleton_self r
  obtain ⟨h, leads⟩ := leadsTo_of_reachable bundled reachable row
  have upstreamEq : s.upstreamHostFor host = s.upstreamHostFor hostName := by
    unfold Selector.upstreamHostFor
    rw [same]
  rw [upstreamEq, leads.upstreamHostFor] at rewrites
  obtain rfl := Option.some.inj rewrites
  have plain := (plain_bundledTable r (mem_matching.mp row).1).1
  rw [group.uri]
  exact congrArg some plain

/-- A measurement asks for the host the proxy would ask for if the first row the host of the URL
falls under leads to that host itself; with the bundled groups, if the host is one of four. It is
the upstream host of that row that the proxy goes to for a client. -/
theorem sendsProxyHost_iff (s : Selector F) (uri : Uri) (host : String)
    (named : uri.host = some host) (managed : (s.hostFor host).isSome) (cfg : MeasureConfig)
    (draw : UInt64) (request : Request Unit) (sent : measureRequest cfg uri draw = some request) :
    (SendsProxyHost s host request ↔ ∃ d row, s.hostFor host = some d ∧
      FirstWhere (UnderRow host) d.domainMap row ∧ row.2 = host) ∧
    ∀ (defs : List HostDef) (penalty : Nat), defs.map HostDef.routes = bundledTable →
      s.Reachable defs penalty →
      (SendsProxyHost s host request ↔ host ∈ ownUpstreams) ∧
      ∃ upstream, s.upstreamHostFor host = some upstream ∧
        ∀ parse, SplitsHttp parse → ProxiedTo parse s host upstream := by
  have asks : SendsProxyHost s host request ↔ s.upstreamHostFor host = some host := by
    unfold SendsProxyHost
    rw [host_measureRequest sent, named, Option.getD_some, eq_comm]
  rw [asks]
  refine ⟨Selector.upstreamHostFor_eq_some_iff, ?_⟩
  intro defs penalty bundled reachable
  have sameTable := table_of_reachable bundled reachable
  obtain ⟨r, row, -⟩ := exists_row_of_hostFor sameTable managed
  obtain ⟨h, -, -, rewrites, -⟩ := routed_of_row sameTable row
  refine ⟨?_, r.upstream, rewrites, fun parse splits =>
    proxiedTo_upstreamHostFor splits bundled reachable rewrites⟩
  rw [rewrites, Option.some.injEq]
  constructor
  · rintro rfl
    exact ownUpstreams_bundledTable.1 r (mem_matching.mp row).1
  · intro own
    exact ownUpstreams_bundledTable.2 host own r row

end Sent

/-- A test URL under a domain that is rewritten to another. -/
def d1Url : Uri := ⟨some "http", some "d1.xboxlive.cn", some ⟨"/x", by decide⟩⟩

theorem measureRequest_d1Url : (measureRequest ⟨4, 500⟩ d1Url 7).isSome := by decide

theorem sendsProxyHost_iff_d1Url :
    ∃ request, measureRequest ⟨4, 500⟩ d1Url 7 = some request ∧
      (SendsProxyHost (Selector.new (F := ℚ) assetDefs 60) "d1.xboxlive.cn" request ↔
        "d1.xboxlive.cn" ∈ ownUpstreams) := by
  obtain ⟨request, sent⟩ := Option.isSome_iff_exists.mp measureRequest_d1Url
  refine ⟨request, sent, ?_⟩
  exact ((sendsProxyHost_iff (Selector.new (F := ℚ) assetDefs 60) d1Url "d1.xboxlive.cn"
    (by decide) (by decide) ⟨4, 500⟩ 7 request sent).2 assetDefs 60 (by rfl)
    .new).1

/-- The pass takes the URL, and asks for a host the proxy never asks for. -/
theorem not_sendsProxyHost_d1Url :
    splitUri "http://d1.xboxlive.cn/x" = some d1Url ∧
      (targetDefs splitUri (Selector.new (F := ℚ) assetDefs 60)
        (some "http://d1.xboxlive.cn/x")).isSome ∧
      ((measureRequest ⟨4, 500⟩ d1Url 7).bind fun request =>
        (request.headers.get .host).bind HeaderValue.toStr) = some "d1.xboxlive.cn" ∧
      (Selector.new (F := ℚ) assetDefs 60).upstreamHostFor "d1.xboxlive.cn" =
        some "assets1.xboxlive.cn" := by
  decide

end XboxProxy
