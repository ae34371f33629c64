import XboxProxy.Misc.Multimap
import XboxProxy.Misc.Str

/-!
# The `http` crate

What the program uses of URIs, methods and header maps. The parser of URIs is a parameter
wherever one is needed.
-/

namespace XboxProxy
open Misc

/-- `http::uri::PathAndQuery`; parsing cuts a fragment off. -/
structure PathAndQuery where
  asStr : String
  noFragment : '#' ∉ asStr.toList
  deriving DecidableEq

/-- `http::Uri`: what a successful parse yields. -/
structure Uri where
  scheme : Option String
  authority : Option String
  pathAndQuery : Option PathAndQuery
  deriving DecidableEq

/-- `Authority::host`: no user info and no port; a bracketed address keeps its brackets. -/
def authorityHost (authority : String) : String :=
  let hostPort := authority.toList.rtakeWhile (· ≠ '@')
  if hostPort.head? = some '[' then
    String.ofList (hostPort.takeWhile (· ≠ ']') ++ [']'])
  else String.ofList (hostPort.takeWhile (· ≠ ':'))

/-- `str::parse::<u16>`: decimal digits, after a `+` or not. -/
def parseU16 (chars : List Char) : Option UInt16 :=
  let digits := if chars.head? = some '+' then chars.tail else chars
  if !digits.isEmpty && digits.all Char.isDigit then
    let value := Nat.ofDigitChars 10 digits 0
    if value < 2 ^ 16 then some (UInt16.ofNat value) else none
  else none

/-- `Authority::port_u16`: what follows the last colon. -/
def authorityPort (authority : String) : Option UInt16 :=
  let chars := authority.toList
  if chars.contains ':' then parseU16 (chars.rtakeWhile (· ≠ ':')) else none

/-- `Uri::host`. -/
def Uri.host (u : Uri) : Option String := u.authority.map authorityHost

/-- `Uri::port_u16`. -/
def Uri.portU16 (u : Uri) : Option UInt16 := u.authority.bind authorityPort

/-- `Uri::path`: empty without a path and query, `/` for an empty path. -/
def Uri.path (u : Uri) : String :=
  match u.pathAndQuery with
  | none => ""
  | some pq =>
    let path := pq.asStr.toList.takeWhile (· ≠ '?')
    if path.isEmpty then "/" else String.ofList path

/-- `Uri::query`. -/
def Uri.query (u : Uri) : Option String :=
  match u.pathAndQuery with
  | none => none
  | some pq =>
    match pq.asStr.toList.dropWhile (· ≠ '?') with
    | [] => none
    | _ :: query => some (String.ofList query)

/-- `http::Method`. -/
inductive Method where
  | options | get | post | put | delete | head | trace | connect | patch
  | extension (name : String)
  deriving DecidableEq

/-- `Method::as_str`. -/
def Method.asStr : Method → String
  | options => "OPTIONS"
  | get => "GET"
  | post => "POST"
  | put => "PUT"
  | delete => "DELETE"
  | head => "HEAD"
  | trace => "TRACE"
  | connect => "CONNECT"
  | patch => "PATCH"
  | extension name => name

/-! ## Headers -/

/-- `http::HeaderName`, always in lower case. -/
structure HeaderName where
  asStr : String
  lower : toAsciiLowercase asStr = asStr
  deriving DecidableEq

/-- The bytes a header value may have. -/
def isHeaderByte (b : UInt8) : Bool := (32 ≤ b && b != 127) || b == 9

/-- The bytes `HeaderValue::to_str` and `from_str` accept. -/
def isVisibleAscii (n : Nat) : Bool := (32 ≤ n && n < 127) || n == 9

/-- `http::HeaderValue`. -/
structure HeaderValue where
  bytes : List UInt8
  valid : bytes.all isHeaderByte
  deriving DecidableEq

/-- `HeaderValue::from_static("")`. -/
def HeaderValue.empty : HeaderValue := ⟨[], rfl⟩

/-- `HeaderValue::to_str`. -/
def HeaderValue.toStr (v : HeaderValue) : Option String :=
  if v.bytes.all (isVisibleAscii ·.toNat) then
    some (String.ofList (v.bytes.map fun b => Char.ofNat b.toNat))
  else none

theorem isHeaderByte_of_visible {n : Nat} (visible : isVisibleAscii n = true) :
    isHeaderByte (UInt8.ofNat n) = true := by
  simp only [isVisibleAscii, Bool.or_eq_true, Bool.and_eq_true, decide_eq_true_eq, beq_iff_eq]
    at visible
  have bound : n < 256 := by omega
  simp only [isHeaderByte, Bool.or_eq_true, Bool.and_eq_true, decide_eq_true_eq, bne_iff_ne,
    beq_iff_eq, ne_eq, UInt8.le_iff_toNat_le, ← UInt8.toNat_inj, UInt8.toNat_ofNat',
    UInt8.reduceToNat]
  omega

/-- `HeaderValue::from_str`, of texts in ASCII; it also takes the bytes of other characters,
which the hosts, ranges and addresses it is called with do not have. -/
def HeaderValue.fromStr (s : String) : Option HeaderValue :=
  if visible : s.toList.all (isVisibleAscii ·.toNat) then
    some ⟨s.toList.map fun c => UInt8.ofNat c.toNat, by
      simp only [List.all_eq_true, List.mem_map, forall_exists_index, and_imp,
        forall_apply_eq_imp_iff₂] at visible ⊢
      exact fun c member => isHeaderByte_of_visible (visible c member)⟩
  else none

/-- `http::HeaderMap`. -/
abbrev HeaderMap := Multimap HeaderName HeaderValue

namespace HeaderName

def host : HeaderName := ⟨"host", by decide⟩
def connection : HeaderName := ⟨"connection", by decide⟩
def contentType : HeaderName := ⟨"content-type", by decide⟩
def contentLength : HeaderName := ⟨"content-length", by decide⟩
def transferEncoding : HeaderName := ⟨"transfer-encoding", by decide⟩
def xForwardedFor : HeaderName := ⟨"x-forwarded-for", by decide⟩
def xRealIp : HeaderName := ⟨"x-real-ip", by decide⟩

end HeaderName

end XboxProxy
