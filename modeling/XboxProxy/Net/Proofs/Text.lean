import XboxProxy.Misc.Labels
import XboxProxy.Misc.Numeral
import XboxProxy.Net

/-!
# The text of an address

`FromStr` undoes `Display` for every address, with the zeroes that `::` leaves out and the
dotted tail of a mapped address among them; for IPv4 the text of an address is also the only
one that parses to it.
-/

namespace XboxProxy
open Misc

namespace IpAddr

/-! ## IPv4 -/

theorem toNat_toUInt8 {n : Nat} (small : n < 256) : n.toUInt8.toNat = n := by
  simp [Nat.mod_eq_of_lt small]

/-- An octet is read from its decimal text and from no other. -/
theorem parseOctet_eq_some_iff {digits : List Char} {x : UInt8} :
    parseOctet digits = some x ↔ digits = Nat.toDigits 10 x.toNat := by
  have value : ∀ digits : List Char,
      digits.foldl (fun n c => 10 * n + (c.toNat - '0'.toNat)) 0 =
        Nat.ofDigitChars 10 digits 0 := fun digits => Nat.ofDigitChars_eq_foldl.symm
  unfold parseOctet
  simp only [value]
  constructor
  · intro parsed
    split at parsed
    · rename_i shape
      obtain ⟨nonempty, -, decimal, leading⟩ := shape
      split at parsed
      · rename_i small
        obtain rfl : (Nat.ofDigitChars 10 digits 0).toUInt8 = x := by simpa using parsed
        rw [toNat_toUInt8 small]
        exact (toDigits_ofDigitChars nonempty (by simpa using decimal) leading).symm
      · cases parsed
    · cases parsed
  · rintro rfl
    have small : x.toNat < 256 := x.toNat_lt
    have short : (Nat.toDigits 10 x.toNat).length ≤ 3 :=
      (Nat.length_toDigits_le_iff (by omega) (by omega)).mpr (by omega)
    have decimal : (Nat.toDigits 10 x.toNat).all Char.isDigit := by
      rw [List.all_eq_true]
      intro c member
      exact Nat.isDigit_of_mem_toDigits (by omega) (by omega) member
    rw [if_pos ⟨Nat.toDigits_ne_nil, short, decimal, head?_toDigits (by omega) x.toNat⟩,
      Nat.ofDigitChars_ten_toDigits, if_pos small]
    simp

/-- The octets of a dotted address, as text. -/
def octets (a b c d : UInt8) : List (List Char) :=
  [a, b, c, d].map fun x => Nat.toDigits 10 x.toNat

theorem toList_toString_v4 (a b c d : UInt8) :
    (v4 a b c d).toString.toList = ['.'].intercalate (octets a b c d) := by
  have text : ∀ x : UInt8, (ToString.toString x).toList = Nat.toDigits 10 x.toNat := by
    intro x
    change (Nat.repr x.toNat).toList = _
    rw [Nat.toList_repr]
  have dot : (ToString.toString ".").toList = ['.'] := rfl
  simp [toString, octets, text, dot, List.intercalate_cons_of_ne_nil]

theorem not_mem_octets {a b c d : UInt8} {digits : List Char} (member : digits ∈ octets a b c d)
    {k : Char} (delimiter : k.isDigit = false) : k ∉ digits := by
  obtain ⟨x, -, rfl⟩ := List.mem_map.mp member
  intro inside
  have := Nat.isDigit_of_mem_toDigits (by omega) (by omega) inside
  rw [delimiter] at this
  cases this

/-- The IPv4 parser takes the text of an address and nothing else. -/
theorem parseV4_eq_some_iff {s : String} {ip : IpAddr} :
    parseV4 s = some ip ↔ ∃ a b c d, ip = v4 a b c d ∧ s = ip.toString := by
  unfold parseV4
  constructor
  · intro parsed
    split at parsed
    · rename_i a b c d pieces
      obtain rfl : v4 a b c d = ip := by simpa using parsed
      refine ⟨a, b, c, d, rfl, ?_⟩
      -- the four pieces are the four texts
      obtain ⟨p, q, r, t, split, hp, hq, hr, ht⟩ : ∃ p q r t, s.toList.splitOn '.' = [p, q, r, t] ∧
          parseOctet p = some a ∧ parseOctet q = some b ∧ parseOctet r = some c ∧
          parseOctet t = some d := by
        simp only [List.map_eq_cons_iff, List.map_eq_nil_iff] at pieces
        obtain ⟨p, _, hsplit, hp, q, _, rfl, hq, r, _, rfl, hr, t, _, rfl, ht, rfl⟩ := pieces
        exact ⟨p, q, r, t, hsplit, hp, hq, hr, ht⟩
      rw [parseOctet_eq_some_iff] at hp hq hr ht
      rw [← String.toList_inj, toList_toString_v4, octets, List.map_cons, List.map_cons,
        List.map_cons, List.map_cons, List.map_nil, ← hp, ← hq, ← hr, ← ht, ← split,
        List.intercalate_splitOn]
    · cases parsed
  · rintro ⟨a, b, c, d, rfl, rfl⟩
    have pieces : ((v4 a b c d).toString.toList.splitOn '.') = octets a b c d := by
      rw [toList_toString_v4]
      exact List.splitOn_intercalate '.' (fun l member => not_mem_octets member rfl)
        (by simp [octets])
    have octet : ∀ x : UInt8, parseOctet (Nat.toDigits 10 x.toNat) = some x := fun x =>
      parseOctet_eq_some_iff.mpr rfl
    simp [pieces, octets, octet]

theorem parseV4_toString (a b c d : UInt8) : parseV4 (v4 a b c d).toString = some (v4 a b c d) :=
  parseV4_eq_some_iff.mpr ⟨a, b, c, d, rfl, rfl⟩

theorem mem_toString_v4 {a b c d : UInt8} {k : Char} (member : k ∈ (v4 a b c d).toString.toList) :
    k = '.' ∨ k.isDigit := by
  rw [toList_toString_v4] at member
  rcases mem_intercalate member with dot | ⟨digits, octet, inside⟩
  · exact Or.inl dot
  · obtain ⟨x, -, rfl⟩ := List.mem_map.mp octet
    exact Or.inr (Nat.isDigit_of_mem_toDigits (by omega) (by omega) inside)

/-- What the IPv4 parser takes holds no colon. -/
theorem colonless_of_parseV4 {s : String} {ip : IpAddr} (parsed : parseV4 s = some ip) :
    ':' ∉ s.toList := by
  obtain ⟨a, b, c, d, rfl, rfl⟩ := parseV4_eq_some_iff.mp parsed
  intro inside
  rcases mem_toString_v4 inside with dot | digit
  · exact absurd dot (by decide)
  · exact absurd digit (by decide)

/-! ## The groups of an IPv6 address -/

theorem toList_hex (g : UInt16) : (hex g).toList = Nat.toDigits 16 g.toNat := by
  rw [hex, String.toList_ofList]

theorem not_mem_hex (g : UInt16) : ':' ∉ (hex g).toList ∧ '.' ∉ (hex g).toList := by
  have apart : ∀ d < 16, d.digitChar ≠ ':' ∧ d.digitChar ≠ '.' := by decide
  rw [toList_hex]
  constructor
  · intro inside
    obtain ⟨d, small, colon⟩ := exists_of_mem_toDigits (by omega) inside
    exact (apart d small).1 colon.symm
  · intro inside
    obtain ⟨d, small, dot⟩ := exists_of_mem_toDigits (by omega) inside
    exact (apart d small).2 dot.symm

theorem hex_ne_nil (g : UInt16) : (hex g).toList ≠ [] := by
  rw [toList_hex]
  exact Nat.toDigits_ne_nil

/-- A group is read back from its hexadecimal text. -/
theorem parseGroup_hex (g : UInt16) : parseGroup (hex g).toList = some g := by
  have short : (hex g).toList.length ≤ 4 := by
    rw [toList_hex]
    have small := g.toNat_lt
    exact (Nat.length_toDigits_le_iff (by omega) (by omega)).mpr (by omega)
  unfold parseGroup
  simp only
  rw [if_pos ⟨hex_ne_nil g, short⟩, toList_hex, foldlM_toDigits (by omega)]
  · simp
  · decide

/-- The text of consecutive groups. -/
def groupsText (groups : List UInt16) : List Char :=
  [':'].intercalate (groups.map fun g => (hex g).toList)

theorem toList_intercalate_hex (groups : List UInt16) :
    (":".intercalate (groups.map hex)).toList = groupsText groups := by
  rw [String.toList_intercalate, List.map_map]
  rfl

theorem splitOn_groupsText {groups : List UInt16} (nonempty : groups ≠ []) :
    (groupsText groups).splitOn ':' = groups.map fun g => (hex g).toList := by
  apply List.splitOn_intercalate
  · intro text member
    obtain ⟨g, -, rfl⟩ := List.mem_map.mp member
    exact (not_mem_hex g).1
  · simpa using nonempty

theorem parseGroups_hex (groups : List UInt16) :
    parseGroups (groups.map fun g => (hex g).toList) = some groups := by
  induction groups with
  | nil => rfl
  | cons g groups ih =>
    cases groups with
    | nil => simp [parseGroups, parseGroup_hex]
    | cons g' groups =>
      rw [List.map_cons] at ih
      rw [List.map_cons, List.map_cons, parseGroups, ih, parseGroup_hex]
      · rfl
      · simp

theorem groupsText_cons (g : UInt16) (groups : List UInt16) :
    ∃ rest, groupsText (g :: groups) = (hex g).toList ++ rest := by
  cases groups with
  | nil => exact ⟨[], by simp [groupsText]⟩
  | cons g' groups =>
    exact ⟨':' :: groupsText (g' :: groups), by simp [groupsText, List.intercalate_cons_cons]⟩

theorem groupsText_cons_ne_nil (g : UInt16) (groups : List UInt16) :
    groupsText (g :: groups) ≠ [] := by
  obtain ⟨rest, text⟩ := groupsText_cons g groups
  simp [text, hex_ne_nil g]

/-- A side of the address is read back, the empty one included. -/
theorem parseSide_groupsText (groups : List UInt16) :
    parseSide (groupsText groups) = some groups := by
  unfold parseSide
  cases groups with
  | nil => rfl
  | cons g groups =>
    rw [if_neg (groupsText_cons_ne_nil g groups), splitOn_groupsText (by simp), parseGroups_hex]

theorem dotless_groupsText (groups : List UInt16) : '.' ∉ groupsText groups := by
  intro inside
  rcases mem_intercalate inside with colon | ⟨text, member, inside⟩
  · exact absurd colon (by decide)
  · obtain ⟨g, -, rfl⟩ := List.mem_map.mp member
    exact (not_mem_hex g).2 inside

/-! ## The `::` -/

theorem splitDoubleColon_append {piece rest : List Char} (colonless : ':' ∉ piece) :
    splitDoubleColon (piece ++ rest) =
      (splitDoubleColon rest).map fun parts => (piece ++ parts.1, parts.2) := by
  induction piece with
  | nil => simp
  | cons c piece ih =>
    have head : c ≠ ':' := fun same => colonless (by simp [same])
    have tail := ih fun inside => colonless (by simp [inside])
    rw [List.cons_append, splitDoubleColon, tail, Option.map_map]
    · rfl
    · intro rest colon
      exact absurd colon head

theorem splitDoubleColon_colon {c : Char} {rest : List Char} (single : c ≠ ':') :
    splitDoubleColon (':' :: c :: rest) =
      (splitDoubleColon (c :: rest)).map fun parts => (':' :: parts.1, parts.2) := by
  rw [splitDoubleColon]
  intro rest same
  simp_all

/-- No `::` stands inside consecutive groups. -/
theorem splitDoubleColon_groupsText (groups : List UInt16) (rest : List Char) :
    splitDoubleColon (groupsText groups ++ rest) =
      (splitDoubleColon rest).map fun parts => (groupsText groups ++ parts.1, parts.2) := by
  induction groups with
  | nil => simp [groupsText]
  | cons g groups ih =>
    cases groups with
    | nil =>
      have text : groupsText [g] = (hex g).toList := by simp [groupsText]
      rw [text]
      exact splitDoubleColon_append (not_mem_hex g).1
    | cons g' groups =>
      have text : groupsText (g :: g' :: groups) =
          (hex g).toList ++ ':' :: groupsText (g' :: groups) := by
        simp [groupsText, List.intercalate_cons_cons]
      -- a group stands behind every single colon
      obtain ⟨c, tail, cons, single⟩ :
          ∃ c tail, groupsText (g' :: groups) = c :: tail ∧ c ≠ ':' := by
        obtain ⟨c, tail, digits⟩ := List.exists_cons_of_ne_nil (hex_ne_nil g')
        obtain ⟨rest', starts⟩ := groupsText_cons g' groups
        exact ⟨c, tail ++ rest', by rw [starts, digits, List.cons_append],
          fun same => (not_mem_hex g').1 (by simp [digits, same])⟩
      rw [text, List.append_assoc, splitDoubleColon_append (not_mem_hex g).1, List.cons_append,
        cons, List.cons_append, splitDoubleColon_colon single, ← List.cons_append, ← cons, ih,
        Option.map_map, Option.map_map]
      congr 1
      funext parts
      simp

/-! ## The zeroes `::` stands for -/

/-- A loop over the entries of a list with their positions. -/
theorem foldl_zipIdx_invariant {α β : Type} {motive : Nat → β → Prop} {f : β → α × Nat → β}
    {init : β} (l : List α) (start : motive 0 init)
    (step : ∀ i a acc, l[i]? = some a → motive i acc → motive (i + 1) (f acc (a, i))) :
    motive l.length (l.zipIdx.foldl f init) := by
  induction l using List.reverseRecOn with
  | nil => exact start
  | append_singleton front a ih =>
    have before := ih fun i b acc entry =>
      step i b acc (by rw [List.getElem?_append_left (List.getElem?_eq_some_iff.mp entry).1, entry])
    rw [List.zipIdx_append, List.foldl_append, List.length_append, List.length_singleton]
    have last : (front ++ [a])[front.length]? = some a := by simp
    simpa using step front.length a _ last before

/-- The segments at `run.1`, `run.1 + 1` and so on, `run.2` of them, are zeroes. -/
def ZeroRun (segments : List UInt16) (run : Nat × Nat) : Prop :=
  ∀ k, run.1 ≤ k → k < run.1 + run.2 → segments[k]? = some 0

/-- What `zeroes` finds is a run of zeroes. -/
theorem zeroRun_zeroes (segments : List UInt16) : ZeroRun segments (zeroes segments) := by
  unfold zeroes
  -- the current run ends where the loop stands
  refine (foldl_zipIdx_invariant (motive := fun i (acc : (Nat × Nat) × (Nat × Nat)) =>
    ZeroRun segments acc.1 ∧ ZeroRun segments acc.2 ∧ (acc.2.2 = 0 ∨ acc.2.1 + acc.2.2 = i))
    segments ?_ ?_).1
  · simp [ZeroRun]
  · rintro i x ⟨longest, current⟩ entry ⟨hlongest, hcurrent, ends⟩
    simp only at hlongest hcurrent ends ⊢
    split
    · rename_i zero
      subst zero
      have grown : ZeroRun segments (if current.2 = 0 then i else current.1, current.2 + 1) := by
        intro k lower upper
        simp only at lower upper
        rcases Nat.lt_or_ge k i with earlier | here
        · split at lower
          · omega
          · exact hcurrent k lower (by split at upper <;> omega)
        · obtain rfl : k = i := by split at upper <;> omega
          exact entry
      refine ⟨?_, grown, Or.inr ?_⟩
      · split
        · exact grown
        · exact hlongest
      · simp only
        split <;> omega
    · exact ⟨hlongest, by simp [ZeroRun], Or.inl rfl⟩

/-- Putting the zeroes back where a run was cut out gives the segments. -/
theorem take_replicate_drop {segments : List UInt16} {run : Nat × Nat} (positive : 0 < run.2)
    (zeros : ZeroRun segments run) :
    run.1 + run.2 ≤ segments.length ∧
      segments.take run.1 ++ List.replicate run.2 0 ++ segments.drop (run.1 + run.2) =
        segments := by
  have bound : run.1 + run.2 ≤ segments.length := by
    have last := zeros (run.1 + run.2 - 1) (by omega) (by omega)
    have := (List.getElem?_eq_some_iff.mp last).1
    omega
  refine ⟨bound, ?_⟩
  have middle : (segments.drop run.1).take run.2 = List.replicate run.2 0 := by
    rw [List.eq_replicate_iff]
    refine ⟨by rw [List.length_take, List.length_drop]; omega, ?_⟩
    intro x member
    obtain ⟨k, inside, rfl⟩ := List.getElem_of_mem member
    have entry := zeros (run.1 + k) (by omega) (by rw [List.length_take] at inside; omega)
    rw [List.getElem_take, List.getElem_drop]
    exact (List.getElem?_eq_some_iff.mp entry).2
  rw [← middle, List.append_assoc, ← List.drop_drop, List.take_append_drop, List.take_append_drop]

/-! ## The round trip -/

theorem ofSegments_toList (segments : Vector UInt16 8) :
    ofSegments segments.toList = some (v6 segments) := by
  unfold ofSegments
  rw [dif_pos (by simp)]
  simp [Vector.toList]

/-- Eight groups without a `::`. -/
theorem parseV6_groups {s : String} {groups : List UInt16} (nonempty : groups ≠ [])
    (text : s.toList = groupsText groups) : parseV6 s = ofSegments groups := by
  have undivided : splitDoubleColon s.toList = none := by
    have split := splitDoubleColon_groupsText groups []
    rw [List.append_nil] at split
    rw [text, split]
    rfl
  unfold parseV6
  simp only [undivided]
  rw [text, splitOn_groupsText nonempty, parseGroups_hex, Option.bind_some]

/-- Fewer than eight groups around a `::`. -/
theorem parseV6_compressed {s : String} (front back : List UInt16)
    (fewer : front.length + back.length < 8)
    (text : s.toList = groupsText front ++ ':' :: ':' :: groupsText back) :
    parseV6 s = ofSegments
      (front ++ List.replicate (8 - front.length - back.length) 0 ++ back) := by
  have divided : splitDoubleColon s.toList = some (groupsText front, groupsText back) := by
    rw [text, splitDoubleColon_groupsText]
    simp [splitDoubleColon]
  unfold parseV6
  simp only [divided, parseSide_groupsText, Option.bind_eq_bind, Option.bind_some]
  rw [if_neg]
  rintro (dotted | long)
  · exact dotless_groupsText front dotted
  · omega

/-- An IPv4 address behind `::ffff:`. -/
theorem parseV6_mapped {s : String} {a b c d : UInt8}
    (text : s.toList = "::ffff:".toList ++ (v4 a b c d).toString.toList) :
    parseV6 s = ofSegments [0, 0, 0, 0, 0, 0xffff, 256 * a.toUInt16 + b.toUInt16,
      256 * c.toUInt16 + d.toUInt16] := by
  have tail := parseV4_toString a b c d
  have colonless := colonless_of_parseV4 tail
  have dotted : 4 < (v4 a b c d).toString.toList.length := by
    rw [toList_toString_v4]
    have positive : ∀ x : UInt8, 0 < (Nat.toDigits 10 x.toNat).length := fun x =>
      Nat.length_toDigits_pos
    have := positive a
    have := positive b
    have := positive c
    have := positive d
    simp [octets, List.intercalate_cons_cons]
    omega
  have divided : splitDoubleColon s.toList =
      some ([], "ffff".toList ++ ':' :: (v4 a b c d).toString.toList) := by
    rw [text]
    rfl
  have pieces : ("ffff".toList ++ ':' :: (v4 a b c d).toString.toList).splitOn ':' =
      ["ffff".toList, (v4 a b c d).toString.toList] := by
    rw [List.splitOn_append_cons_self, List.splitOn_eq_singleton colonless]
    rfl
  have groups : parseGroups ["ffff".toList, (v4 a b c d).toString.toList] =
      some [0xffff, 256 * a.toUInt16 + b.toUInt16, 256 * c.toUInt16 + d.toUInt16] := by
    have first : parseGroup "ffff".toList = some 0xffff := by decide
    have notGroup : parseGroup (v4 a b c d).toString.toList = none := by
      unfold parseGroup
      simp only
      rw [if_neg]
      rintro ⟨-, short⟩
      omega
    rw [parseGroups, first, parseGroups, notGroup, String.ofList_toList, tail]
    · rfl
    · simp
  unfold parseV6
  simp only [divided, Option.bind_eq_bind]
  rw [parseSide, parseSide, if_pos rfl, if_neg (by simp), pieces, groups]
  rfl

/-- The text of an IPv6 address holds a colon. -/
theorem parseV4_of_colon {s : String} (colon : ':' ∈ s.toList) : parseV4 s = none := by
  cases parsed : parseV4 s with
  | none => rfl
  | some ip => exact absurd colon (colonless_of_parseV4 parsed)

theorem parse_of_colon {s : String} (colon : ':' ∈ s.toList) : parse s = parseV6 s := by
  rw [parse, parseV4_of_colon colon]
  rfl

/-- The halves of a segment, as octets. -/
theorem segment_of_octets (g : UInt16) :
    256 * (g.toNat / 256).toUInt8.toUInt16 + (g.toNat % 256).toUInt8.toUInt16 = g := by
  have small := g.toNat_lt
  have high := toNat_toUInt8 (n := g.toNat / 256) (by omega)
  have low := toNat_toUInt8 (n := g.toNat % 256) (by omega)
  apply UInt16.toNat_inj.mp
  have base : (256 : UInt16).toNat = 256 := rfl
  rw [UInt16.toNat_add, UInt16.toNat_mul, UInt8.toNat_toUInt16, UInt8.toNat_toUInt16, high, low,
    base]
  omega

theorem toString_octet {n : Nat} (small : n < 256) :
    ToString.toString n = ToString.toString n.toUInt8 := by
  change n.repr = n.toUInt8.toNat.repr
  rw [toNat_toUInt8 small]

/-- The text of a mapped address ends in the text of the address it maps. -/
theorem toString_mapped (hi lo : UInt16) :
    s!"::ffff:{hi.toNat / 256}.{hi.toNat % 256}.{lo.toNat / 256}.{lo.toNat % 256}" =
      "::ffff:" ++ (v4 (hi.toNat / 256).toUInt8 (hi.toNat % 256).toUInt8
        (lo.toNat / 256).toUInt8 (lo.toNat % 256).toUInt8).toString := by
  have high := hi.toNat_lt
  have low := lo.toNat_lt
  have octet : ∀ n < 256, ToString.toString n = ToString.toString n.toUInt8 := fun _ => toString_octet
  rw [octet (hi.toNat / 256) (by omega), octet (hi.toNat % 256) (by omega),
    octet (lo.toNat / 256) (by omega), octet (lo.toNat % 256) (by omega)]
  simp [toString, String.append_assoc]
  rfl

theorem parse_uncompressed (segments : Vector UInt16 8) :
    parse (":".intercalate (segments.toList.map hex)) = some (v6 segments) := by
  obtain ⟨g, g', groups, shape⟩ : ∃ g g' groups, segments.toList = g :: g' :: groups := by
    have length := segments.length_toList
    match segments.toList, length with
    | g :: g' :: groups, _ => exact ⟨g, g', groups, rfl⟩
  have colon : ':' ∈ (":".intercalate (segments.toList.map hex)).toList := by
    rw [toList_intercalate_hex, shape]
    simp [groupsText, List.intercalate_cons_cons]
  rw [parse_of_colon colon, parseV6_groups (by simp [shape]) (toList_intercalate_hex _),
    ofSegments_toList]

/-- Any run of zeroes may be the one that is left out. -/
theorem parse_compressed {segments : Vector UInt16 8} {run : Nat × Nat} (positive : 0 < run.2)
    (zeros : ZeroRun segments.toList run) :
    parse (":".intercalate ((segments.toList.take run.1).map hex) ++ "::" ++
      ":".intercalate ((segments.toList.drop (run.1 + run.2)).map hex)) = some (v6 segments) := by
  obtain ⟨bound, restored⟩ := take_replicate_drop positive zeros
  rw [Vector.length_toList] at bound
  have front : (segments.toList.take run.1).length = run.1 := by
    rw [List.length_take, Vector.length_toList]
    omega
  have back : (segments.toList.drop (run.1 + run.2)).length = 8 - (run.1 + run.2) := by
    rw [List.length_drop, Vector.length_toList]
  have missing : 8 - run.1 - (8 - (run.1 + run.2)) = run.2 := by omega
  rw [parse_of_colon (by simp), parseV6_compressed (segments.toList.take run.1)
    (segments.toList.drop (run.1 + run.2)), front, back, missing, restored, ofSegments_toList]
  · rw [front, back]
    omega
  · simp [← toList_intercalate_hex]

/-- Every address is read back from its text. -/
theorem parse_toString (ip : IpAddr) : parse ip.toString = some ip := by
  cases ip with
  | v4 a b c d =>
    rw [parse, parseV4_toString]
    rfl
  | v6 segments =>
    rw [toString]
    simp only
    split
    · rename_i hi lo mapped
      rw [toString_mapped, parse_of_colon (by simp),
        parseV6_mapped (by rw [String.toList_append]), segment_of_octets, segment_of_octets,
        ← mapped, ofSegments_toList]
    · split
      · exact parse_compressed (by omega) (zeroRun_zeroes segments.toList)
      · exact parse_uncompressed segments

/-- Two addresses never have the same text. -/
theorem toString_injective {ip ip' : IpAddr} (same : ip.toString = ip'.toString) : ip = ip' := by
  have parsed := parse_toString ip
  rw [same, parse_toString] at parsed
  exact (Option.some.inj parsed).symm

/-! ## Its characters -/

/-- A character an address is written with. -/
def TextChar (k : Char) : Prop := k = '.' ∨ k = ':' ∨ ∃ d < 16, k = d.digitChar

theorem textChar_groupsText {groups : List UInt16} {k : Char} (member : k ∈ groupsText groups) :
    TextChar k := by
  rcases mem_intercalate member with colon | ⟨text, listed, inside⟩
  · exact Or.inr (Or.inl colon)
  · obtain ⟨g, -, rfl⟩ := List.mem_map.mp listed
    rw [toList_hex] at inside
    exact Or.inr (Or.inr (exists_of_mem_toDigits (by omega) inside))

theorem textChar_toString_v4 {a b c d : UInt8} {k : Char}
    (member : k ∈ (v4 a b c d).toString.toList) : TextChar k := by
  rw [toList_toString_v4] at member
  rcases mem_intercalate member with dot | ⟨digits, octet, inside⟩
  · exact Or.inl dot
  · obtain ⟨x, -, rfl⟩ := List.mem_map.mp octet
    obtain ⟨d, small, digit⟩ := exists_of_mem_toDigits (by omega) inside
    exact Or.inr (Or.inr ⟨d, by omega, digit⟩)

theorem textChar_toString {ip : IpAddr} {k : Char} (member : k ∈ ip.toString.toList) :
    TextChar k := by
  cases ip with
  | v4 a b c d => exact textChar_toString_v4 member
  | v6 segments =>
    rw [toString] at member
    simp only at member
    split at member
    · rw [toString_mapped, String.toList_append] at member
      rcases List.mem_append.mp member with mapped | tail
      · have chars : "::ffff:".toList = [':', ':', 'f', 'f', 'f', 'f', ':'] := rfl
        rw [chars] at mapped
        by_cases colon : k = ':'
        · exact Or.inr (Or.inl colon)
        · have digit : k = 'f' := by simpa [colon] using mapped
          exact Or.inr (Or.inr ⟨15, by omega, digit⟩)
      · exact textChar_toString_v4 tail
    · split at member
      · simp only [String.toList_append, toList_intercalate_hex, List.mem_append] at member
        rcases member with (front | colons) | back
        · exact textChar_groupsText front
        · exact Or.inr (Or.inl (by simpa using colons))
        · exact textChar_groupsText back
      · rw [toList_intercalate_hex] at member
        exact textChar_groupsText member

end IpAddr
end XboxProxy
