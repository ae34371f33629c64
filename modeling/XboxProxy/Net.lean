import XboxProxy.Misc.Str

/-!
# Addresses (`std::net::IpAddr`)

The address type of the program with the two conversions it relies on: `Display`, whose text
is stored in records and sent in headers, and `FromStr`, by which the bundled lists and the
dashboard read addresses.
-/

namespace XboxProxy
open Misc

/-- `std::net::IpAddr`: four octets, or eight 16-bit segments. -/
inductive IpAddr where
  | v4 (a b c d : UInt8)
  | v6 (segments : Vector UInt16 8)
  deriving DecidableEq

namespace IpAddr

/-- The digits of `n` in lower-case hexadecimal (`{:x}`). -/
def hex (n : UInt16) : String := String.ofList (Nat.toDigits 16 n.toNat)

/-- The longest run of zero segments, the first of equal ones, as start and length. -/
def zeroes (segments : List UInt16) : Nat × Nat :=
  let step := fun (acc : (Nat × Nat) × (Nat × Nat)) (entry : UInt16 × Nat) =>
    let (longest, current) := acc
    if entry.1 = 0 then
      let current := (if current.2 = 0 then entry.2 else current.1, current.2 + 1)
      (if longest.2 < current.2 then current else longest, current)
    else (longest, (0, 0))
  (segments.zipIdx.foldl step ((0, 0), (0, 0))).1

/-- `Display` for `IpAddr`. -/
def toString : IpAddr → String
  | v4 a b c d => s!"{a}.{b}.{c}.{d}"
  | v6 segments =>
    let groups := segments.toList
    match groups with
    | [0, 0, 0, 0, 0, 0xffff, hi, lo] =>
      s!"::ffff:{hi.toNat / 256}.{hi.toNat % 256}.{lo.toNat / 256}.{lo.toNat % 256}"
    | _ =>
      let (start, len) := zeroes groups
      if 1 < len then
        ":".intercalate ((groups.take start).map hex) ++ "::" ++
          ":".intercalate ((groups.drop (start + len)).map hex)
      else ":".intercalate (groups.map hex)

/-- One octet of a dotted address: at most three digits, no leading zero, below 256. -/
def parseOctet (digits : List Char) : Option UInt8 :=
  if digits ≠ [] ∧ digits.length ≤ 3 ∧ digits.all Char.isDigit ∧
      (digits.length = 1 ∨ digits.head? ≠ some '0') then
    let n := digits.foldl (fun n c => 10 * n + (c.toNat - '0'.toNat)) 0
    if n < 256 then some n.toUInt8 else none
  else none

/-- `Ipv4Addr::from_str`. -/
def parseV4 (s : String) : Option IpAddr :=
  match (s.toList.splitOn '.').map parseOctet with
  | [some a, some b, some c, some d] => some (v4 a b c d)
  | _ => none

/-- One group of an IPv6 address: one to four hexadecimal digits. -/
def parseGroup (digits : List Char) : Option UInt16 :=
  let value : Char → Option Nat := fun c =>
    if '0' ≤ c ∧ c ≤ '9' then some (c.toNat - '0'.toNat)
    else if 'a' ≤ c ∧ c ≤ 'f' then some (c.toNat - 'a'.toNat + 10)
    else if 'A' ≤ c ∧ c ≤ 'F' then some (c.toNat - 'A'.toNat + 10)
    else none
  if digits ≠ [] ∧ digits.length ≤ 4 then
    (digits.foldlM (fun n c => (value c).map (16 * n + ·)) 0).map Nat.toUInt16
  else none

/-- The groups between two separators, the last of which may be a dotted IPv4 address. -/
def parseGroups : List (List Char) → Option (List UInt16)
  | [] => some []
  | [last] =>
    match parseGroup last with
    | some g => some [g]
    | none =>
      match parseV4 (String.ofList last) with
      | some (v4 a b c d) =>
        some [256 * a.toUInt16 + b.toUInt16, 256 * c.toUInt16 + d.toUInt16]
      | _ => none
  | g :: gs => do
    let first ← parseGroup g
    let rest ← parseGroups gs
    some (first :: rest)

/-- The groups of a part of the address that may be empty. -/
def parseSide (part : List Char) : Option (List UInt16) :=
  if part = [] then some [] else parseGroups (part.splitOn ':')

/-- The address of exactly eight segments. -/
def ofSegments (segments : List UInt16) : Option IpAddr :=
  if h : segments.length = 8 then some (v6 ⟨segments.toArray, by simpa using h⟩) else none

/-- The pieces before and after the first `::`. -/
def splitDoubleColon : List Char → Option (List Char × List Char)
  | ':' :: ':' :: rest => some ([], rest)
  | c :: rest => (splitDoubleColon rest).map fun (front, back) => (c :: front, back)
  | [] => none

/-- `Ipv6Addr::from_str`: eight groups, or fewer with one `::` for the missing zeroes. An
IPv4 tail may end the address but not stand before the `::`. -/
def parseV6 (s : String) : Option IpAddr :=
  match splitDoubleColon s.toList with
  | none => (parseGroups (s.toList.splitOn ':')).bind ofSegments
  | some (front, back) => do
    let head ← parseSide front
    let tail ← parseSide back
    if '.' ∈ front ∨ 8 ≤ head.length + tail.length then none
    else ofSegments (head ++ List.replicate (8 - head.length - tail.length) 0 ++ tail)

/-- `IpAddr::from_str`. -/
def parse (s : String) : Option IpAddr :=
  (parseV4 s).orElse fun _ => parseV6 s

example : parse "114.105.125.22" = some (v4 114 105 125 22) := by decide
example : parse "XboxCn1" = none := by decide
example : (parse "2001:db8::1").map toString = some "2001:db8::1" := by decide

end IpAddr
end XboxProxy
