import XboxProxy.Http

/-!
# Forwarding headers (`src/proxy.rs`)

The header maps the proxy sends upstream and back. Both leave out the hop-by-hop headers and
those a `Connection` header names; the request is copied with `insert`, the response with
`append`.
-/

namespace XboxProxy
open Misc

/-- `is_hop_by_hop` (`proxy.rs:111-124`). -/
def isHopByHop (name : String) : Bool :=
  ["connection", "keep-alive", "proxy-authenticate", "proxy-authorization", "proxy-connection",
    "te", "trailer", "transfer-encoding", "upgrade"].contains (toAsciiLowercase name)

/-- `connection_tokens` (`proxy.rs:126-135`); only membership in it is asked for. -/
def connectionTokens (headers : HeaderMap) : List String :=
  ((((headers.getAll .connection).filterMap HeaderValue.toStr).flatMap (split ',')).map
    fun name => toAsciiLowercase (trim name)).filter (· ≠ "")

/-- `should_strip_header` (`proxy.rs:137-139`). -/
def shouldStripHeader (name : HeaderName) (connection : List String) : Bool :=
  isHopByHop name.asStr || connection.contains name.asStr

/-- A header the request loop skips (`proxy.rs:344-350`). -/
def skipsRequestHeader (method : Method) (connection : List String) (name : HeaderName) : Bool :=
  shouldStripHeader name connection || name == .host ||
    ((method == .get || method == .head) &&
      (name == .contentLength || name == .transferEncoding))

/-- The headers sent upstream (`proxy.rs:341-359`). -/
def forwardHeaders (method : Method) (headers : HeaderMap) (clientIp : String) : HeaderMap :=
  let requestConnection := connectionTokens headers
  let kept := headers.iter.filter fun e => !skipsRequestHeader method requestConnection e.1
  let fwd := Multimap.empty.insertAll kept
  let fwdClientIp := (HeaderValue.fromStr clientIp).getD .empty
  (fwd.insert .xForwardedFor fwdClientIp).insert .xRealIp fwdClientIp

/-- The headers sent back to the client (`proxy.rs:531-537`). -/
def relayHeaders (headers : HeaderMap) : HeaderMap :=
  let responseConnection := connectionTokens headers
  let kept := headers.iter.filter fun e => !shouldStripHeader e.1 responseConnection
  Multimap.empty.appendAll kept

/-! ## What is left of a header -/

section Forward
variable {method : Method} {headers : HeaderMap} {clientIp : String} {n : HeaderName}

/-- Of a header that is forwarded, the last value is sent. -/
theorem getAll_forwardHeaders
    (kept : skipsRequestHeader method (connectionTokens headers) n = false)
    (forwarded : n ≠ .xForwardedFor) (real : n ≠ .xRealIp) :
    (forwardHeaders method headers clientIp).getAll n =
      ((headers.getAll n).getLast?).toList := by
  have copied := Multimap.pairsOf_filter
    (fun k => !skipsRequestHeader method (connectionTokens headers) k) (k := n) (by simp [kept])
    headers.iter
  unfold forwardHeaders
  simp only
  rw [Multimap.getAll_insert, if_neg (Ne.symm real), Multimap.getAll_insert,
    if_neg (Ne.symm forwarded), Multimap.getAll_insertAll, copied, Multimap.pairsOf_iter]
  cases (headers.getAll n).getLast? <;> rfl

/-- Keeping the last element keeps a list of at most one. -/
theorem getLast?_toList_eq_iff {α : Type} (l : List α) :
    l.getLast?.toList = l ↔ l.length ≤ 1 := by
  constructor
  · intro same
    rw [← same]
    cases l.getLast? <;> simp
  · intro short
    match l, short with
    | [], _ => rfl
    | [x], _ => rfl

/-- The headers the request loop passes on. -/
theorem skipsRequestHeader_of_endToEnd (endToEnd : isHopByHop n.asStr = false)
    (unlisted : n.asStr ∉ connectionTokens headers) (host : n ≠ .host)
    (length : method = .get ∨ method = .head → n ≠ .contentLength) :
    skipsRequestHeader method (connectionTokens headers) n = false := by
  have encoding : n ≠ .transferEncoding := by
    rintro rfl
    revert endToEnd
    decide
  have unstripped : shouldStripHeader n (connectionTokens headers) = false := by
    simp [shouldStripHeader, endToEnd, unlisted]
  by_cases bodiless : method = .get ∨ method = .head
  · simp [skipsRequestHeader, unstripped, host, length bodiless, encoding]
  · rw [not_or] at bodiless
    simp [skipsRequestHeader, unstripped, host, bodiless.1, bodiless.2]

/-- The response path keeps every value of a header it relays. -/
theorem getAll_relayHeaders
    (kept : shouldStripHeader n (connectionTokens headers) = false) :
    (relayHeaders headers).getAll n = headers.getAll n := by
  have copied := Multimap.pairsOf_filter
    (fun k => !shouldStripHeader k (connectionTokens headers)) (k := n) (by simp [kept])
    headers.iter
  unfold relayHeaders
  simp only
  rw [Multimap.getAll_appendAll, copied, Multimap.pairsOf_iter]
  rfl

/-- A header that goes through to the upstream arrives with the values the client sent if
and only if the client sent at most one. -/
theorem getAll_forwardHeaders_eq_iff (method : Method) (headers : HeaderMap) (clientIp : String)
    (n : HeaderName) (endToEnd : isHopByHop n.asStr = false)
    (unlisted : n.asStr ∉ connectionTokens headers) (host : n ≠ .host)
    (forwarded : n ≠ .xForwardedFor) (real : n ≠ .xRealIp)
    (length : method = .get ∨ method = .head → n ≠ .contentLength) :
    (forwardHeaders method headers clientIp).getAll n = headers.getAll n ↔
      (headers.getAll n).length ≤ 1 := by
  have kept := skipsRequestHeader_of_endToEnd endToEnd unlisted host length
  rw [getAll_forwardHeaders kept forwarded real, getLast?_toList_eq_iff]

/-- What the request loop skips does not reach the upstream, the two headers the proxy sets
itself excepted. -/
theorem getAll_forwardHeaders_of_skipped
    (skipped : skipsRequestHeader method (connectionTokens headers) n = true)
    (forwarded : n ≠ .xForwardedFor) (real : n ≠ .xRealIp) :
    (forwardHeaders method headers clientIp).getAll n = [] := by
  have copied := Multimap.pairsOf_filter_of_not
    (fun k => !skipsRequestHeader method (connectionTokens headers) k) (k := n) (by simp [skipped])
    headers.iter
  unfold forwardHeaders
  simp only
  rw [Multimap.getAll_insert, if_neg (Ne.symm real), Multimap.getAll_insert,
    if_neg (Ne.symm forwarded), Multimap.getAll_insertAll, copied]
  rfl

theorem getAll_relayHeaders_of_stripped
    (stripped : shouldStripHeader n (connectionTokens headers) = true) :
    (relayHeaders headers).getAll n = [] := by
  have copied := Multimap.pairsOf_filter_of_not
    (fun k => !shouldStripHeader k (connectionTokens headers)) (k := n) (by simp [stripped])
    headers.iter
  unfold relayHeaders
  simp only
  rw [Multimap.getAll_appendAll, copied]
  rfl

end Forward

/-- A client that sends one `cookie` header twice. -/
def twoCookies : HeaderMap :=
  (Multimap.empty.append ⟨"cookie", by decide⟩ ⟨[97], rfl⟩).append ⟨"cookie", by decide⟩ ⟨[98], rfl⟩

theorem getAll_forwardHeaders_eq_iff_cookie :
    (forwardHeaders .get twoCookies "192.168.0.2").getAll ⟨"cookie", by decide⟩ =
        twoCookies.getAll ⟨"cookie", by decide⟩ ↔
      (twoCookies.getAll ⟨"cookie", by decide⟩).length ≤ 1 :=
  getAll_forwardHeaders_eq_iff .get twoCookies "192.168.0.2" ⟨"cookie", by decide⟩ (by decide)
    (by decide) (by decide) (by decide) (by decide) (by decide)

/-- Of two `cookie` values the request loop sends the second. -/
theorem getAll_forwardHeaders_ne_twoCookies :
    twoCookies.getAll ⟨"cookie", by decide⟩ = [⟨[97], rfl⟩, ⟨[98], rfl⟩] ∧
      (forwardHeaders .get twoCookies "192.168.0.2").getAll ⟨"cookie", by decide⟩ =
        [⟨[98], rfl⟩] := by
  decide

end XboxProxy
