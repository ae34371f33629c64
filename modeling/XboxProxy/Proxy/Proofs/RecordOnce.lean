import XboxProxy.Proxy.Proofs.Exits

/-!
# One record for each answered request

The exits behind the attempts lead to `finalize` once, in the handler or in the body it
returns; the two before them reply without a record.
-/

namespace XboxProxy
open Misc

section Records
variable {F B E S : Type} [Float64 F]

/-- The request gets as far as the attempts and its reply can be built: the URI sent upstream
parses, a request that is not retried can be built, and so can the response, unless the
upstream answered with the status of the proxy's own reply. -/
structure Recordable (parse : String → Option Uri) (s : Selector F) (hostName : String)
    (req : Request B) (env : HandlerEnv F S) : Prop where
  rebuilt : (parse ("http://" ++ (s.upstreamHostFor hostName).getD hostName ++
    req.uri.clientPath.asStr)).isSome
  built : req.method.retryable ∨ (env.attempt 0).buildError = none
  replied : env.responseError = none ∨ ∀ r, env.answer req.method = some r → r.status = 502

/-- A managed request sends exactly one record, with the status of its reply, if and only if
it is recordable; however the body of the reply is polled before it is dropped. -/
theorem recordedOnce_iff (parse : String → Option Uri) (state : AppState F)
    (clientAddr : SocketAddr) (req : Request B) (env : HandlerEnv F S) (hostName : String)
    (accepted : requestHost parse req.headers = .ok hostName)
    (managed : (state.selector.hostFor hostName).isSome) (display : E → String)
    (dropEnv : DropEnv F) (polls : List (InnerPoll F E)) :
    (∃ rec, ((proxyHandler parse state clientAddr req env).reply.body.life display dropEnv polls
        (proxyHandler parse state clientAddr req env).state.metrics).dbTx =
          state.metrics.dbTx ++ [.insertRequest rec] ∧
      rec.status = (proxyHandler parse state clientAddr req env).reply.status) ↔
    Recordable parse state.selector hostName req env := by
  constructor
  · rintro ⟨rec, recorded, status⟩
    obtain ⟨uri, p, parsed, sent⟩ := sent_of_recorded state clientAddr accepted managed recorded
    obtain ⟨built, answered⟩ := answered_of_sent sent
    obtain ⟨metrics, requestMeta, rec', summary, reply, -, -, recorded', copied, -⟩ :=
      proxyHandler_finished state clientAddr accepted managed parsed sent display dropEnv polls
    obtain rfl : rec = rec' := by simpa using recorded.symm.trans recorded'
    have recStatus : rec.status = requestMeta.status := congrArg RequestMeta.status copied
    rw [recStatus, reply] at status
    exact ⟨by rw [parsed]; rfl, built,
      (status_finishRequest_iff metrics env answered summary.status).mp status⟩
  · rintro ⟨rebuilt, built, replied⟩
    obtain ⟨uri, parsed⟩ := Option.isSome_iff_exists.mp rebuilt
    obtain ⟨p, sent, answered⟩ :=
      answered_sendUpstream state.selector hostName uri
        (forwardHeaders req.method req.headers clientAddr.ip.toString) req env built
    obtain ⟨metrics, requestMeta, rec, summary, reply, -, -, recorded, copied, -⟩ :=
      proxyHandler_finished state clientAddr accepted managed parsed sent display dropEnv polls
    have recStatus : rec.status = requestMeta.status := congrArg RequestMeta.status copied
    refine ⟨rec, recorded, ?_⟩
    rw [recStatus, reply]
    exact (status_finishRequest_iff metrics env answered summary.status).mpr replied

end Records

/-- A parser of plain `http://` URIs with the length limit of the crate. -/
def boundedSplitUri (raw : String) : Option Uri :=
  if raw.utf8ByteSize ≤ 65534 then splitUri raw else none

theorem boundedSplitUri_of_long {raw : String} (long : 65534 < raw.utf8ByteSize) :
    boundedSplitUri raw = none :=
  if_neg (by omega)

/-- A path of `n` letters. -/
def letterPath (n : Nat) : PathAndQuery where
  asStr := String.ofList ('/' :: List.replicate n 'a')
  noFragment := by
    rw [String.toList_ofList, List.mem_cons, List.mem_replicate]
    simp

theorem utf8ByteSize_letterPath (n : Nat) : (letterPath n).asStr.utf8ByteSize = n + 1 := by
  have letters : String.utf8Len (List.replicate n 'a') = n := by
    induction n with
    | zero => rfl
    | succ n ih =>
      rw [List.replicate_succ, String.utf8Len_cons, ih]
      rfl
  unfold letterPath
  rw [String.utf8ByteSize_ofList, String.utf8Len_cons, letters]
  rfl

/-- The longest path the server accepts from a client. -/
def longPath : PathAndQuery := letterPath 65533

theorem utf8ByteSize_longPath : longPath.asStr.utf8ByteSize = 65534 :=
  utf8ByteSize_letterPath 65533

def cdnHeaders : HeaderMap :=
  Multimap.empty.append .host ((HeaderValue.fromStr "cdn.example.com").getD .empty)

/-- A client of the unit tests' host asks for a path. -/
def cdnRequest (path : PathAndQuery) : Request Unit where
  method := .get
  uri := ⟨none, none, some path⟩
  headers := cdnHeaders
  body := ()

def cdnGet : Request Unit := cdnRequest ⟨"/a", by decide⟩

def cdnState : AppState ℚ := ⟨.new [testDef [.v4 1 1 1 1]] 60, .new⟩

theorem recordedOnce_iff_cdn :
    (∃ rec, ((proxyHandler splitUri cdnState ⟨.v4 10 0 0 2, 50000⟩ (cdnRequest ⟨"/a", by decide⟩)
        assetEnv).reply.body.life (E := String) id ⟨1002, ⟨1000, 1⟩⟩ []
        (proxyHandler splitUri cdnState ⟨.v4 10 0 0 2, 50000⟩ (cdnRequest ⟨"/a", by decide⟩)
          assetEnv).state.metrics).dbTx = [.insertRequest rec] ∧
      rec.status = (proxyHandler splitUri cdnState ⟨.v4 10 0 0 2, 50000⟩
        (cdnRequest ⟨"/a", by decide⟩) assetEnv).reply.status) ↔
    Recordable splitUri cdnState.selector "cdn.example.com" (cdnRequest ⟨"/a", by decide⟩)
      assetEnv :=
  recordedOnce_iff splitUri cdnState ⟨.v4 10 0 0 2, 50000⟩ (cdnRequest ⟨"/a", by decide⟩)
    assetEnv "cdn.example.com" (by decide +kernel) (by decide +kernel) id ⟨1002, ⟨1000, 1⟩⟩ []

/-- A request whose path the host name makes too long is refused: nothing is sent upstream and
nothing is recorded. -/
theorem refused_of_long {req : Request Unit} (headers : req.headers = cdnHeaders)
    (long : 65534 < ("http://" ++ "cdn.example.com" ++ req.uri.clientPath.asStr).utf8ByteSize)
    (env : HandlerEnv ℚ Unit) :
    requestHost boundedSplitUri req.headers = .ok "cdn.example.com" ∧
      (cdnState.selector.hostFor "cdn.example.com").isSome ∧
      (proxyHandler boundedSplitUri cdnState ⟨.v4 10 0 0 2, 50000⟩ req env).reply.status = 400 ∧
      (proxyHandler boundedSplitUri cdnState ⟨.v4 10 0 0 2, 50000⟩ req env).attempts = [] ∧
      (proxyHandler boundedSplitUri cdnState ⟨.v4 10 0 0 2, 50000⟩ req env).state.metrics.dbTx =
        [] := by
  have host : requestHost boundedSplitUri cdnHeaders = .ok "cdn.example.com" := by decide +kernel
  have accepted : requestHost boundedSplitUri req.headers = .ok "cdn.example.com" := by
    rw [headers, host]
  have managed : (cdnState.selector.hostFor "cdn.example.com").isSome := by decide +kernel
  have rewritten : cdnState.selector.upstreamHostFor "cdn.example.com" =
      some "cdn.example.com" := by decide +kernel
  have unparsed : boundedSplitUri ("http://" ++
      (cdnState.selector.upstreamHostFor "cdn.example.com").getD "cdn.example.com" ++
      req.uri.clientPath.asStr) = none := by
    rw [rewritten]
    exact boundedSplitUri_of_long long
  refine ⟨accepted, managed, ?_⟩
  rw [proxyHandler_managed cdnState ⟨.v4 10 0 0 2, 50000⟩ accepted managed
    (serveManaged_unparsed _ unparsed)]
  exact ⟨rfl, rfl, rfl⟩

theorem utf8ByteSize_cdn_longPath :
    65534 < ("http://" ++ "cdn.example.com" ++ longPath.asStr).utf8ByteSize := by
  have authority : ("http://" ++ "cdn.example.com").utf8ByteSize = 22 := by decide +kernel
  rw [String.utf8ByteSize_append, utf8ByteSize_longPath, authority]
  omega

/-- The server accepts the longest path from the client, and the request is answered without
a record. -/
theorem unrecorded_longPath :
    longPath.asStr.utf8ByteSize ≤ 65534 ∧
      requestHost boundedSplitUri (cdnRequest longPath).headers = .ok "cdn.example.com" ∧
      (cdnState.selector.hostFor "cdn.example.com").isSome ∧
      (proxyHandler boundedSplitUri cdnState ⟨.v4 10 0 0 2, 50000⟩ (cdnRequest longPath)
        assetEnv).reply.status = 400 ∧
      (proxyHandler boundedSplitUri cdnState ⟨.v4 10 0 0 2, 50000⟩ (cdnRequest longPath)
        assetEnv).state.metrics.dbTx = [] := by
  obtain ⟨accepted, managed, refused, -, unrecorded⟩ :=
    @refused_of_long (cdnRequest longPath) rfl utf8ByteSize_cdn_longPath assetEnv
  exact ⟨utf8ByteSize_longPath.le, accepted, managed, refused, unrecorded⟩

end XboxProxy
