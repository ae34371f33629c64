import XboxProxy.Net
import XboxProxy.Proxy.Headers

/-!
# Hop-by-hop headers

What a `Connection` header lists is defined on the bytes of its values. `connection_tokens`
reads a value only if all of its bytes are visible ASCII, so a header that is listed beside
any other byte goes through. The two headers the proxy sets itself always carry the peer's
address.
-/

namespace XboxProxy
open Misc

/-! ## The peer's address as a header value -/

/-- A text that `HeaderValue::from_str` accepts. -/
def Visible (s : String) : Prop := s.toList.all (isVisibleAscii ·.toNat) = true

instance (s : String) : Decidable (Visible s) :=
  inferInstanceAs (Decidable (s.toList.all (isVisibleAscii ·.toNat) = true))

theorem Visible.append {s t : String} (hs : Visible s) (ht : Visible t) : Visible (s ++ t) := by
  unfold Visible at hs ht ⊢
  rw [String.toList_append, List.all_append, hs, ht]
  rfl

theorem visible_digitChar (d : Nat) : isVisibleAscii (Nat.digitChar d).toNat = true := by
  match d with
  | 0 | 1 | 2 | 3 | 4 | 5 | 6 | 7 | 8 | 9 | 10 | 11 | 12 | 13 | 14 | 15 => decide
  | d + 16 =>
    rw [Nat.digitChar_eq_star.mpr (Nat.le_add_left 16 d)]
    decide

theorem visible_toDigitsCore (b : Nat) {fuel n : Nat} {ds : List Char}
    (rest : ds.all (isVisibleAscii ·.toNat) = true) :
    (Nat.toDigitsCore b fuel n ds).all (isVisibleAscii ·.toNat) = true := by
  induction fuel generalizing n ds with
  | zero => exact rest
  | succ fuel ih =>
    have more : (Nat.digitChar (n % b) :: ds).all (isVisibleAscii ·.toNat) = true := by
      rw [List.all_cons, visible_digitChar, rest]
      rfl
    unfold Nat.toDigitsCore
    simp only
    split
    · exact more
    · exact ih more

theorem visible_toDigits (b n : Nat) : Visible (String.ofList (Nat.toDigits b n)) := by
  unfold Visible
  rw [String.toList_ofList]
  exact visible_toDigitsCore b rfl

theorem visible_toString_nat (n : Nat) : Visible (toString n) := by
  have digits : toString n = String.ofList (Nat.toDigits 10 n) := Nat.repr_eq_ofList_toDigits
  rw [digits]
  exact visible_toDigits 10 n

theorem visible_hexGroups (groups : List UInt16) :
    Visible (":".intercalate (groups.map IpAddr.hex)) := by
  induction groups with
  | nil => decide
  | cons g groups ih =>
    have first : Visible (IpAddr.hex g) := visible_toDigits 16 g.toNat
    cases groups with
    | nil => simpa using first
    | cons g' groups =>
      simp only [List.map_cons, String.intercalate_cons_cons]
      exact (first.append (by decide)).append ih

/-- The text of an address can be sent in a header. -/
theorem visible_toString (ip : IpAddr) : Visible ip.toString := by
  have dot : Visible (toString ".") := by decide
  cases ip with
  | v4 a b c d =>
    have octet : ∀ n : UInt8, Visible (toString n) := fun n => visible_toString_nat n.toNat
    unfold IpAddr.toString
    exact ((((((octet a).append dot).append (octet b)).append dot).append (octet c)).append
      dot).append (octet d)
  | v6 segments =>
    unfold IpAddr.toString
    simp only
    split
    · -- an embedded IPv4 address
      exact (((((((by decide : Visible _).append (visible_toString_nat _)).append dot).append
        (visible_toString_nat _)).append dot).append (visible_toString_nat _)).append dot).append
          (visible_toString_nat _)
    · split
      · exact ((visible_hexGroups _).append (by decide)).append (visible_hexGroups _)
      · exact visible_hexGroups _

theorem toStr_of_fromStr {s : String} {v : HeaderValue} (made : HeaderValue.fromStr s = some v) :
    v.toStr = some s := by
  unfold HeaderValue.fromStr at made
  split at made
  · rename_i visible
    obtain rfl := Option.some.inj made
    have small : ∀ c ∈ s.toList, c.toNat < 256 ∧ isVisibleAscii c.toNat = true := by
      intro c member
      have seen := List.all_eq_true.mp visible c member
      refine ⟨?_, seen⟩
      simp only [isVisibleAscii, Bool.or_eq_true, Bool.and_eq_true, decide_eq_true_eq,
        beq_iff_eq] at seen
      omega
    have back : ∀ c ∈ s.toList, (UInt8.ofNat c.toNat).toNat = c.toNat := by
      intro c member
      rw [UInt8.toNat_ofNat']
      exact Nat.mod_eq_of_lt (small c member).1
    unfold HeaderValue.toStr
    rw [if_pos]
    · have chars : s.toList.map ((fun b : UInt8 => Char.ofNat b.toNat) ∘
          fun c => UInt8.ofNat c.toNat) = s.toList := by
        conv_rhs => rw [← List.map_id s.toList]
        apply List.map_congr_left
        intro c member
        simp only [Function.comp_apply, back c member, Char.ofNat_toNat, id]
      rw [List.map_map, chars, String.ofList_toList]
    · rw [List.all_map, List.all_eq_true]
      intro c member
      simp only [Function.comp_apply, back c member]
      exact (small c member).2
  · cases made

/-- The value of both headers the proxy sets. -/
theorem fromStr_toString (ip : IpAddr) :
    ∃ v, HeaderValue.fromStr ip.toString = some v ∧ v.toStr = some ip.toString := by
  have made : (HeaderValue.fromStr ip.toString).isSome := by
    have visible : ip.toString.toList.all (isVisibleAscii ·.toNat) = true := visible_toString ip
    unfold HeaderValue.fromStr
    rw [dif_pos visible]
    rfl
  obtain ⟨v, made⟩ := Option.isSome_iff_exists.mp made
  exact ⟨v, made, toStr_of_fromStr made⟩

/-! ## What a `Connection` header lists -/

/-- The bytes of a value, each as the character of its number. -/
def HeaderValue.chars (v : HeaderValue) : List Char := v.bytes.map fun b => Char.ofNat b.toNat

/-- A space or a tab. -/
def isBlank (c : Char) : Bool := c.toNat == 0x20 || c.toNat == 0x9

def trimBlanks (l : List Char) : List Char := (l.dropWhile isBlank).rdropWhile isBlank

/-- An element of the value, without the blanks around it and in any case, is the name. Empty
elements list nothing. -/
def HeaderValue.Lists (v : HeaderValue) (name : HeaderName) : Prop :=
  name.asStr ≠ "" ∧
    ∃ element ∈ v.chars.splitOn ',', (trimBlanks element).map Char.toLower = name.asStr.toList

/-- The `Connection` headers of a message list the name. -/
def Listed (headers : HeaderMap) (name : HeaderName) : Prop :=
  ∃ v ∈ headers.getAll .connection, v.Lists name

/-- One of them does so in a value of visible ASCII. -/
def ListedReadably (headers : HeaderMap) (name : HeaderName) : Prop :=
  ∃ v ∈ headers.getAll .connection, v.toStr.isSome ∧ v.Lists name

theorem ListedReadably.listed {headers : HeaderMap} {name : HeaderName}
    (listed : ListedReadably headers name) : Listed headers name := by
  obtain ⟨v, member, -, lists⟩ := listed
  exact ⟨v, member, lists⟩

/-- The characters of a value that `to_str` accepts. -/
theorem visible_chars {v : HeaderValue} (readable : v.toStr.isSome) :
    v.toStr = some (String.ofList v.chars) ∧ ∀ c ∈ v.chars, isVisibleAscii c.toNat = true := by
  unfold HeaderValue.toStr at readable ⊢
  split at readable
  · rename_i visible
    rw [if_pos visible]
    refine ⟨rfl, ?_⟩
    intro c member
    obtain ⟨b, inBytes, rfl⟩ := List.mem_map.mp member
    have seen := List.all_eq_true.mp visible b inBytes
    have small : b.toNat < 256 := b.toNat_lt
    have same : (Char.ofNat b.toNat).toNat = b.toNat := by
      rw [Char.toNat_ofNat, if_pos (Or.inl (by omega))]
    rw [same]
    exact seen
  · cases readable

theorem mem_of_mem_splitOn {l : List Char} {sep : Char} {element : List Char}
    (member : element ∈ l.splitOn sep) : ∀ c ∈ element, c ∈ l := by
  induction l generalizing element with
  | nil =>
    obtain rfl : element = [] := by simpa using member
    simp
  | cons x xs ih =>
    rw [List.splitOn_cons_eq_if_modifyHead] at member
    obtain ⟨first, rest, pieces⟩ := List.exists_cons_of_ne_nil (List.splitOn_ne_nil sep xs)
    intro c inElement
    split at member
    · rcases List.mem_cons.mp member with rfl | later
      · cases inElement
      · exact List.mem_cons_of_mem x (ih later c inElement)
    · rw [pieces, List.modifyHead_cons] at member
      rw [pieces] at ih
      rcases List.mem_cons.mp member with rfl | later
      · rcases List.mem_cons.mp inElement with rfl | inFirst
        · exact List.mem_cons_self
        · exact List.mem_cons_of_mem x (ih List.mem_cons_self c inFirst)
      · exact List.mem_cons_of_mem x (ih (List.mem_cons_of_mem first later) c inElement)

theorem isWhitespace_eq_isBlank {c : Char} (visible : isVisibleAscii c.toNat = true) :
    isWhitespace c = isBlank c := by
  rw [Bool.eq_iff_iff]
  simp only [isVisibleAscii, Bool.or_eq_true, Bool.and_eq_true, decide_eq_true_eq, beq_iff_eq]
    at visible
  simp only [isWhitespace, isBlank, Bool.or_eq_true, Bool.and_eq_true, decide_eq_true_eq,
    beq_iff_eq]
  omega

theorem dropWhile_congr {α : Type} {p q : α → Bool} {l : List α} (same : ∀ x ∈ l, p x = q x) :
    l.dropWhile p = l.dropWhile q := by
  induction l with
  | nil => rfl
  | cons x xs ih =>
    have rest := ih fun y member => same y (List.mem_cons_of_mem x member)
    rw [List.dropWhile_cons, List.dropWhile_cons, same x List.mem_cons_self, rest]

/-- On a readable value `str::trim` removes the blanks. -/
theorem toList_trim {l : List Char} (visible : ∀ c ∈ l, isVisibleAscii c.toNat = true) :
    (trim (String.ofList l)).toList = trimBlanks l := by
  have blanks : ∀ c ∈ l, isWhitespace c = isBlank c := fun c member =>
    isWhitespace_eq_isBlank (visible c member)
  have front := dropWhile_congr blanks
  have back : ∀ c ∈ (l.dropWhile isBlank).reverse, isWhitespace c = isBlank c := by
    intro c member
    exact blanks c ((List.dropWhile_suffix isBlank).subset (List.mem_reverse.mp member))
  unfold trim trimBlanks List.rdropWhile
  rw [String.toList_ofList, String.toList_ofList, front, dropWhile_congr back]

/-- A piece of a readable value, as `connection_tokens` treats it. -/
theorem toList_token {v : HeaderValue} (readable : v.toStr.isSome) {element : List Char}
    (member : element ∈ v.chars.splitOn ',') :
    (toAsciiLowercase (trim (String.ofList element))).toList =
      (trimBlanks element).map Char.toLower := by
  rw [toList_toAsciiLowercase, toList_trim]
  intro c inElement
  exact (visible_chars readable).2 c (mem_of_mem_splitOn member c inElement)

/-- The tokens of `connection_tokens` are the names listed in readable values. -/
theorem mem_connectionTokens {headers : HeaderMap} {name : HeaderName} :
    name.asStr ∈ connectionTokens headers ↔ ListedReadably headers name := by
  unfold connectionTokens
  rw [List.mem_filter, List.mem_map]
  constructor
  · rintro ⟨⟨piece, inPieces, lowered⟩, nonempty⟩
    obtain ⟨text, inTexts, inSplit⟩ := List.mem_flatMap.mp inPieces
    obtain ⟨v, member, read⟩ := List.mem_filterMap.mp inTexts
    have readable : v.toStr.isSome := by
      rw [read]
      rfl
    obtain rfl : text = String.ofList v.chars := by
      rw [(visible_chars readable).1] at read
      exact (Option.some.inj read).symm
    rw [split, String.toList_ofList] at inSplit
    obtain ⟨element, inElements, rfl⟩ := List.mem_map.mp inSplit
    refine ⟨v, member, readable, by simpa using nonempty, element, inElements, ?_⟩
    rw [← lowered, toList_token readable inElements]
  · rintro ⟨v, member, readable, nonempty, element, inElements, same⟩
    refine ⟨⟨String.ofList element, List.mem_flatMap.mpr ⟨String.ofList v.chars, ?_, ?_⟩, ?_⟩, ?_⟩
    · exact List.mem_filterMap.mpr ⟨v, member, (visible_chars readable).1⟩
    · rw [split, String.toList_ofList]
      exact List.mem_map_of_mem inElements
    · rw [← String.toList_inj, toList_token readable inElements]
      exact same
    · simpa using nonempty

/-! ## What is forwarded -/

/-- A header that may not be forwarded with a message. -/
def HopByHop (headers : HeaderMap) (name : HeaderName) : Prop :=
  isHopByHop name.asStr = true ∨ Listed headers name

/-- The message with these headers has the header, which its `Connection` headers list in no
value that can be read. -/
def Unread (headers : HeaderMap) (name : HeaderName) : Prop :=
  headers.getAll name ≠ [] ∧ Listed headers name ∧ ¬ ListedReadably headers name

theorem shouldStripHeader_iff {headers : HeaderMap} {name : HeaderName} :
    shouldStripHeader name (connectionTokens headers) = true ↔
      isHopByHop name.asStr = true ∨ ListedReadably headers name := by
  rw [← mem_connectionTokens]
  simp [shouldStripHeader]

/-- A header the request loop leaves out for another reason than that it is listed. -/
def SkippedAnyway (method : Method) (name : HeaderName) : Prop :=
  isHopByHop name.asStr = true ∨ name = .host ∨
    ((method = .get ∨ method = .head) ∧ (name = .contentLength ∨ name = .transferEncoding))

theorem skipsRequestHeader_iff {method : Method} {headers : HeaderMap} {name : HeaderName} :
    skipsRequestHeader method (connectionTokens headers) name = true ↔
      SkippedAnyway method name ∨ ListedReadably headers name := by
  unfold skipsRequestHeader SkippedAnyway
  rw [Bool.or_eq_true, Bool.or_eq_true, shouldStripHeader_iff]
  simp only [beq_iff_eq, Bool.and_eq_true, Bool.or_eq_true]
  tauto

/-- Nothing that may not be forwarded is sent upstream, the two headers the proxy sets
excepted, if and only if every unread header of the request is left out anyway. -/
theorem forwardHeaders_clean_iff (method : Method) (headers : HeaderMap) (clientIp : String) :
    (∀ n, HopByHop headers n → n ≠ .xForwardedFor → n ≠ .xRealIp →
      (forwardHeaders method headers clientIp).getAll n = []) ↔
    ∀ n, Unread headers n → n ≠ .xForwardedFor → n ≠ .xRealIp → SkippedAnyway method n := by
  constructor
  · intro clean n unread forwarded real
    obtain ⟨present, listed, unreadable⟩ := unread
    have absent := clean n (.inr listed) forwarded real
    by_contra kept
    have passed : skipsRequestHeader method (connectionTokens headers) n = false := by
      rw [← Bool.not_eq_true, skipsRequestHeader_iff]
      exact not_or.mpr ⟨kept, unreadable⟩
    rw [getAll_forwardHeaders passed forwarded real] at absent
    have last := List.getLast?_eq_none_iff.mp (Option.toList_eq_nil_iff.mp absent)
    exact present last
  · intro harmless n hop forwarded real
    by_cases skipped : skipsRequestHeader method (connectionTokens headers) n = true
    · exact getAll_forwardHeaders_of_skipped skipped forwarded real
    · rw [skipsRequestHeader_iff, not_or] at skipped
      have listed : Listed headers n := hop.resolve_left fun h => skipped.1 (.inl h)
      have absent : headers.getAll n = [] := by
        by_contra present
        exact skipped.1 (harmless n ⟨present, listed, skipped.2⟩ forwarded real)
      have passed : skipsRequestHeader method (connectionTokens headers) n = false := by
        rw [← Bool.not_eq_true, skipsRequestHeader_iff]
        exact not_or.mpr skipped
      rw [getAll_forwardHeaders passed forwarded real, absent]
      rfl

/-- The same for the reply, where nothing is left out but what is listed and the list. -/
theorem relayHeaders_clean_iff (headers : HeaderMap) :
    (∀ n, HopByHop headers n → (relayHeaders headers).getAll n = []) ↔
    ∀ n, Unread headers n → isHopByHop n.asStr = true := by
  constructor
  · intro clean n unread
    obtain ⟨present, listed, unreadable⟩ := unread
    by_contra kept
    have passed : shouldStripHeader n (connectionTokens headers) = false := by
      rw [← Bool.not_eq_true, shouldStripHeader_iff]
      exact not_or.mpr ⟨kept, unreadable⟩
    have absent := clean n (.inr listed)
    rw [getAll_relayHeaders passed] at absent
    exact present absent
  · intro harmless n hop
    by_cases stripped : shouldStripHeader n (connectionTokens headers) = true
    · exact getAll_relayHeaders_of_stripped stripped
    · rw [shouldStripHeader_iff, not_or] at stripped
      have listed : Listed headers n := hop.resolve_left stripped.1
      have passed : shouldStripHeader n (connectionTokens headers) = false := by
        rw [← Bool.not_eq_true, shouldStripHeader_iff]
        exact not_or.mpr stripped
      rw [getAll_relayHeaders passed]
      by_contra present
      exact stripped.1 (harmless n ⟨present, listed, stripped.2⟩)

/-- The headers the proxy sets have one value each, the address of the peer. -/
theorem getAll_forwardHeaders_peer (method : Method) (headers : HeaderMap) (ip : IpAddr)
    (n : HeaderName) (own : n = .xForwardedFor ∨ n = .xRealIp) :
    ∃ v, (forwardHeaders method headers ip.toString).getAll n = [v] ∧
      v.toStr = some ip.toString := by
  obtain ⟨v, made, text⟩ := fromStr_toString ip
  refine ⟨v, ?_, text⟩
  unfold forwardHeaders
  simp only [made, Option.getD_some]
  rw [Multimap.getAll_insert, Multimap.getAll_insert]
  rcases own with rfl | rfl
  · rw [if_neg (by decide), if_pos rfl]
  · rw [if_pos rfl]

/-- Hop-by-hop headers stay behind, in both directions, if and only if every header that is
listed in no readable `Connection` value is left out anyway; and whatever the client sends or
lists, the upstream gets one `x-forwarded-for` and one `x-real-ip`, both the peer's address. -/
theorem clean_iff (method : Method) (request response : HeaderMap) (ip : IpAddr) :
    ((∀ n, HopByHop request n → n ≠ .xForwardedFor → n ≠ .xRealIp →
        (forwardHeaders method request ip.toString).getAll n = []) ↔
      ∀ n, Unread request n → n ≠ .xForwardedFor → n ≠ .xRealIp → SkippedAnyway method n) ∧
    ((∀ n, HopByHop response n → (relayHeaders response).getAll n = []) ↔
      ∀ n, Unread response n → isHopByHop n.asStr = true) ∧
    ∀ n, n = .xForwardedFor ∨ n = .xRealIp →
      ∃ v, (forwardHeaders method request ip.toString).getAll n = [v] ∧
        v.toStr = some ip.toString :=
  ⟨forwardHeaders_clean_iff method request ip.toString, relayHeaders_clean_iff response,
    getAll_forwardHeaders_peer method request ip⟩

/-- `connection: x-secret, \xE9` and the header it lists. -/
def unreadableConnection : HeaderMap :=
  (Multimap.empty.append .connection
    ⟨[120, 45, 115, 101, 99, 114, 101, 116, 44, 32, 233], rfl⟩).append
      ⟨"x-secret", by decide⟩ ⟨[49], rfl⟩

/-- The listed header goes through in both directions. -/
theorem leaks_unreadableConnection :
    HopByHop unreadableConnection ⟨"x-secret", by decide⟩ ∧
      (forwardHeaders .get unreadableConnection "10.0.0.2").getAll ⟨"x-secret", by decide⟩ =
        [⟨[49], rfl⟩] ∧
      (relayHeaders unreadableConnection).getAll ⟨"x-secret", by decide⟩ = [⟨[49], rfl⟩] := by
  refine ⟨.inr ⟨⟨[120, 45, 115, 101, 99, 114, 101, 116, 44, 32, 233], rfl⟩, ?_, ?_, ?_⟩, ?_, ?_⟩
  · decide
  · decide
  · exact ⟨"x-secret".toList, by decide, by decide⟩
  · decide
  · decide

end XboxProxy
