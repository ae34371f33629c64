import Mathlib

/-!
# String operations of the Rust standard library

The `str` methods the program calls, on the characters of a `String`, with the facts about
them the development uses. `DotSuffix d h` is the test `h == d || h.ends_with(".d")` by
which a host name is compared with a domain; two domains that both pass it for one host
are themselves related by it.
-/

namespace XboxProxy.Misc

/-- `str::trim_end_matches` for one character. -/
def trimEndMatches (c : Char) (s : String) : String :=
  String.ofList (s.toList.rdropWhile (· == c))

/-- `str::trim_start_matches` for one character. -/
def trimStartMatches (c : Char) (s : String) : String :=
  String.ofList (s.toList.dropWhile (· == c))

/-- `str::to_ascii_lowercase`. -/
def toAsciiLowercase (s : String) : String :=
  String.ofList (s.toList.map Char.toLower)

/-- `str::eq_ignore_ascii_case`. -/
def eqIgnoreAsciiCase (s t : String) : Bool :=
  toAsciiLowercase s == toAsciiLowercase t

/-- `str::ends_with` for a string pattern. -/
def endsWith (s t : String) : Bool :=
  decide (t.toList <:+ s.toList)

/-- Unicode `White_Space`, the class `str::trim` removes. -/
def isWhitespace (c : Char) : Bool :=
  (0x9 ≤ c.toNat && c.toNat ≤ 0xd) || c.toNat == 0x20 || c.toNat == 0x85 || c.toNat == 0xa0 ||
    c.toNat == 0x1680 || (0x2000 ≤ c.toNat && c.toNat ≤ 0x200a) || c.toNat == 0x2028 ||
    c.toNat == 0x2029 || c.toNat == 0x202f || c.toNat == 0x205f || c.toNat == 0x3000

/-- `str::trim`. -/
def trim (s : String) : String :=
  String.ofList ((s.toList.dropWhile isWhitespace).rdropWhile isWhitespace)

/-- `str::split` for one character. -/
def split (c : Char) (s : String) : List String :=
  (s.toList.splitOn c).map String.ofList

/-- `str::lines`: a carriage return is dropped only before a newline, and the empty piece
after a final newline is no line. -/
def lines (s : String) : List String :=
  let pieces := s.toList.splitOn '\n'
  let ended := pieces.dropLast.map fun l => if l.getLast? = some '\r' then l.dropLast else l
  let last := (pieces.getLast?.getD []).isEmpty
  (if last then ended else ended ++ [pieces.getLast?.getD []]).map String.ofList

@[simp] theorem toList_trimEndMatches (c : Char) (s : String) :
    (trimEndMatches c s).toList = s.toList.rdropWhile (· == c) := by
  simp [trimEndMatches]

@[simp] theorem toList_toAsciiLowercase (s : String) :
    (toAsciiLowercase s).toList = s.toList.map Char.toLower := by
  simp [toAsciiLowercase]

@[simp] theorem toAsciiLowercase_idem (s : String) :
    toAsciiLowercase (toAsciiLowercase s) = toAsciiLowercase s := by
  simp [← String.toList_inj, Function.comp_def]

/-- Lower case leaves digits, dots and other delimiters alone. -/
theorem toLower_eq_iff {c k : Char} (delimiter : k.toNat < 65) : c.toLower = k ↔ c = k := by
  unfold Char.toLower
  split
  · rename_i upper
    have low : 65 ≤ c.toNat := UInt32.le_iff_toNat_le.mp upper.1
    have high : c.toNat ≤ 90 := UInt32.le_iff_toNat_le.mp upper.2
    have lowered : (c.val + ('a'.val - 'A'.val)).toNat = c.toNat + 32 := by
      have offset : ('a'.val - 'A'.val).toNat = 32 := by decide
      rw [UInt32.toNat_add, Char.toNat_val]
      omega
    constructor
    · rintro rfl
      rw [← Char.toNat_val, lowered] at delimiter
      omega
    · rintro rfl
      omega
  · rfl

/-- The host comparison `h == d || h.ends_with(&format!(".{d}"))`. -/
def DotSuffix (d h : String) : Prop :=
  h = d ∨ endsWith h ("." ++ d)

instance (d h : String) : Decidable (DotSuffix d h) :=
  inferInstanceAs (Decidable (h = d ∨ endsWith h ("." ++ d)))

theorem dotSuffix_iff (d h : String) :
    DotSuffix d h ↔ h.toList = d.toList ∨ '.' :: d.toList <:+ h.toList := by
  simp [DotSuffix, endsWith, String.toList_inj]

theorem DotSuffix.refl (d : String) : DotSuffix d d := Or.inl rfl

theorem DotSuffix.toList_suffix {d h : String} (m : DotSuffix d h) : d.toList <:+ h.toList := by
  rcases (dotSuffix_iff d h).mp m with equal | suffix
  · rw [equal]
  · exact (List.suffix_cons '.' d.toList).trans suffix

/-- Of two domains that one host falls under, the shorter one covers the longer one. -/
theorem dotSuffix_of_length_le {d e h : String} (md : DotSuffix d h) (me : DotSuffix e h)
    (short : d.toList.length ≤ e.toList.length) : DotSuffix d e := by
  have suffix : d.toList <:+ e.toList :=
    List.suffix_of_suffix_length_le md.toList_suffix me.toList_suffix short
  rw [dotSuffix_iff]
  rcases Nat.lt_or_ge d.toList.length e.toList.length with shorter | same
  · rcases (dotSuffix_iff d h).mp md with equal | dotted
    · -- a host equal to `d` has no longer suffix
      have := me.toList_suffix.length_le
      rw [equal] at this
      omega
    · have longer : ('.' :: d.toList).length ≤ e.toList.length := by
        rw [List.length_cons]
        omega
      exact Or.inr (List.suffix_of_suffix_length_le dotted me.toList_suffix longer)
  · exact Or.inl (suffix.eq_of_length_le same).symm

/-- Two domains that one host falls under are nested. -/
theorem dotSuffix_nested {d e h : String} (md : DotSuffix d h) (me : DotSuffix e h) :
    DotSuffix d e ∨ DotSuffix e d := by
  rcases Nat.le_total d.toList.length e.toList.length with short | short
  · exact Or.inl (dotSuffix_of_length_le md me short)
  · exact Or.inr (dotSuffix_of_length_le me md short)

example : DotSuffix "cdn.example.com" "dl.cdn.example.com" := by decide
example : ¬ DotSuffix "cdn.example.com" "evilcdn.example.com" := by decide

end XboxProxy.Misc
