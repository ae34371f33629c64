import XboxProxy.Dashboard.Proofs.Pins
import XboxProxy.Misc.Lines

/-!
# What the program starts with

The address lists are read back from the lines they are written in, whatever stands behind the
addresses and on the other lines, and `load` succeeds exactly if both lists hold an address and
each pin variable is unset, blank or the text of an IPv4 address.
-/

namespace XboxProxy
open Misc

/-- The characters that end the token of a line (`endpoints.rs:104`). -/
def EndsToken (c : Char) : Prop := c = '\t' ∨ c = ' ' ∨ c = ';'

instance (c : Char) : Decidable (EndsToken c) := inferInstanceAs (Decidable (_ ∨ _))

/-- The first token of a line. -/
def firstToken (line : String) : String :=
  String.ofList (line.toList.takeWhile fun c => c ≠ '\t' ∧ c ≠ ' ' ∧ c ≠ ';')

/-- A line of an address list: an address with a note behind it, a line that starts with another
spelling of one, or a line whose first token is no address. -/
inductive IpLine where
  | address (ip : IpAddr) (note : String)
      (apart : ∀ c ∈ note.toList.head?, EndsToken c) (plain : PlainLine note)
  | spelled (text : String) (ip : IpAddr) (read : IpAddr.parse (firstToken text) = some ip)
      (plain : PlainLine text)
  | other (text : String) (none : IpAddr.parse (firstToken text) = none) (plain : PlainLine text)

namespace IpLine

def text : IpLine → String
  | address ip note _ _ => ip.toString ++ note
  | spelled text _ _ _ => text
  | other text _ _ => text

/-- The address a line lists. -/
def ip : IpLine → Option IpAddr
  | address ip _ _ _ => some ip
  | spelled _ ip _ _ => some ip
  | other _ _ _ => none

end IpLine

theorem not_endsToken_of_textChar {c : Char} (text : IpAddr.TextChar c) :
    (c ≠ '\t' ∧ c ≠ ' ' ∧ c ≠ ';') ∧ c ≠ '\n' ∧ c ≠ '\r' := by
  have digits : ∀ d < 16, (d.digitChar ≠ '\t' ∧ d.digitChar ≠ ' ' ∧ d.digitChar ≠ ';') ∧
      d.digitChar ≠ '\n' ∧ d.digitChar ≠ '\r' := by decide
  rcases text with rfl | rfl | ⟨d, small, rfl⟩
  · decide
  · decide
  · exact digits d small

theorem IpLine.plain_text (line : IpLine) : PlainLine line.text := by
  cases line with
  | spelled text ip read plain => exact plain
  | other text none plain => exact plain
  | address ip note apart plain =>
    constructor
    · rw [IpLine.text, String.toList_append, List.mem_append]
      rintro (inside | inside)
      · exact (not_endsToken_of_textChar (IpAddr.textChar_toString inside)).2.1 rfl
      · exact plain.1 inside
    · rw [IpLine.text, String.toList_append, List.mem_append]
      rintro (inside | inside)
      · exact (not_endsToken_of_textChar (IpAddr.textChar_toString inside)).2.2 rfl
      · exact plain.2 inside

/-- The loader reads from a line the address it lists. -/
theorem IpLine.parse_firstToken (line : IpLine) :
    IpAddr.parse (firstToken line.text) = line.ip := by
  cases line with
  | spelled text ip read plain => exact read
  | other text none plain => exact none
  | address ip note apart plain =>
    have token : (ip.toString ++ note).toList.takeWhile
        (fun c => decide (c ≠ '\t' ∧ c ≠ ' ' ∧ c ≠ ';')) = ip.toString.toList := by
      rw [String.toList_append, List.takeWhile_append_of_pos]
      · cases head : note.toList with
        | nil => simp
        | cons c rest =>
          have ends := apart c (by simp [head])
          rw [List.takeWhile_cons_of_neg, List.append_nil]
          rcases ends with rfl | rfl | rfl <;> simp
      · intro c member
        exact decide_eq_true (not_endsToken_of_textChar (IpAddr.textChar_toString member)).1
    rw [IpLine.text, firstToken, token, String.ofList_toList, IpAddr.parse_toString]
    rfl

/-- An address list as `include_str!` finds it: lines, and perhaps one more without its end. -/
structure IpFile where
  ended : List (IpLine × LineEnd)
  last : Option IpLine

namespace IpFile

def text (file : IpFile) : String :=
  linesText (file.ended.map fun line => (line.1.text, line.2)) ((file.last.map IpLine.text).getD "")

/-- The addresses listed, in their order. -/
def ips (file : IpFile) : List IpAddr :=
  (file.ended.map Prod.fst ++ file.last.toList).filterMap IpLine.ip

end IpFile

/-- An address list is read back. -/
theorem parseIpList_text (file : IpFile) : parseIpList file.text = file.ips := by
  have plain : ∀ line ∈ file.ended.map fun line => (line.1.text, line.2), PlainLine line.1 := by
    intro line member
    obtain ⟨line, -, rfl⟩ := List.mem_map.mp member
    exact line.1.plain_text
  have plainLast : PlainLine ((file.last.map IpLine.text).getD "") := by
    cases file.last with
    | none => decide
    | some line => exact line.plain_text
  have parsed : ∀ lines : List IpLine,
      (lines.map IpLine.text).filterMap (fun line => IpAddr.parse (firstToken line)) =
        lines.filterMap IpLine.ip := by
    intro lines
    rw [List.filterMap_map]
    congr 1
    funext line
    exact line.parse_firstToken
  have listed : parseIpList file.text =
      (lines file.text).filterMap fun line => IpAddr.parse (firstToken line) := rfl
  rw [listed, IpFile.text, lines_linesText plain plainLast, List.map_map, List.filterMap_append,
    IpFile.ips, List.filterMap_append, ← parsed, List.map_map]
  congr 1
  cases file.last with
  | none => rfl
  | some line =>
    have read := line.parse_firstToken
    simp only [Option.map_some, Option.getD_some, Option.toList_some]
    split
    · -- an empty last line is not yielded, and lists no address
      rename_i empty
      have nothing : IpAddr.parse (firstToken "") = none := by decide
      rw [empty, nothing] at read
      simp [← read]
    · exact parsed [line]

theorem retainUnseen_eq (seen ips : List IpAddr) :
    retainUnseen seen ips = (ips.filter (· ∉ seen)).eraseDups := by
  induction ips generalizing seen with
  | nil => rfl
  | cons ip ips ih =>
    unfold retainUnseen
    split
    · rename_i old
      rw [ih, List.filter_cons_of_neg (by simpa using old)]
    · rename_i unseen
      rw [ih, List.filter_cons_of_pos (by simpa using unseen), List.eraseDups_cons,
        List.filter_filter]
      congr 3
      funext other
      by_cases same : other = ip <;> simp [same]

/-- Duplicates go, the first of equal addresses stays. -/
theorem retainUnseen_eq_eraseDups (ips : List IpAddr) : retainUnseen [] ips = ips.eraseDups := by
  simp [retainUnseen_eq]

/-- What a pin variable stands for: nothing if it is unset or blank, and the IPv4 address it
holds the text of. -/
inductive EnvVar.Reads : EnvVar → Option IpAddr → Prop
  | unset : Reads (.ok none) none
  | blank {raw : String} : trim raw = "" → Reads (.ok (some raw)) none
  | address {raw : String} (a b c d : UInt8) : trim raw = (IpAddr.v4 a b c d).toString →
    Reads (.ok (some raw)) (some (.v4 a b c d))

theorem ipv4FromEnv_eq_ok_iff {name : String} {var : EnvVar} {pin : Option IpAddr} :
    ipv4FromEnv name var = .ok pin ↔ var.Reads pin := by
  constructor
  · intro read
    unfold ipv4FromEnv at read
    split at read
    · cases read
      exact .unset
    · cases read
    · rename_i raw
      simp only at read
      split at read
      · rename_i blank
        cases read
        exact .blank (String.isEmpty_iff.mp blank)
      · split at read
        · rename_i ip parsed
          cases read
          obtain ⟨a, b, c, d, rfl, text⟩ := IpAddr.parseV4_eq_some_iff.mp parsed
          exact .address a b c d text
        · cases read
  · intro reads
    cases reads with
    | unset => rfl
    | blank blank => simp [ipv4FromEnv, blank]
    | address a b c d text =>
      have nonempty := (Dashboard.trim_dottedQuad ⟨a, b, c, d, text⟩).2.2
      rw [text] at nonempty
      simp [ipv4FromEnv, text, nonempty, IpAddr.parseV4_toString]

/-- The addresses a group starts with. -/
def startIps (listed : List IpAddr) (pin : Option IpAddr) : List IpAddr :=
  pin.elim listed.eraseDups ([·])

theorem eraseDups_eq_nil_iff {listed : List IpAddr} : listed.eraseDups = [] ↔ listed = [] := by
  cases listed <;> simp [List.eraseDups_cons]

theorem loadSpec_eq (spec : EndpointSpec) : loadSpec spec =
    if parseIpList spec.ipList = [] then .error (.noCandidates spec.name)
    else .ok (spec.hostDef (parseIpList spec.ipList).eraseDups) := by
  unfold loadSpec
  simp only [retainUnseen_eq_eraseDups, List.isEmpty_iff, eraseDups_eq_nil_iff]

theorem loadBundled_endpoints (cn1 cn2 : IpFile) :
    loadBundled (endpoints cn1.text cn2.text) =
      if cn1.ips = [] then .error (.noCandidates "xbox-assets")
      else if cn2.ips = [] then .error (.noCandidates "xbox-content")
      else .ok (List.zipWith EndpointSpec.hostDef (endpoints cn1.text cn2.text)
        [cn1.ips.eraseDups, cn2.ips.eraseDups]) := by
  unfold loadBundled endpoints
  simp only [List.mapM_cons, List.mapM_nil, loadSpec_eq, parseIpList_text]
  by_cases none1 : cn1.ips = []
  · simp [none1, bind, Except.bind]
  · by_cases none2 : cn2.ips = []
    · simp [none1, none2, bind, Except.bind]
    · simp [none1, none2, bind, Except.bind, pure, Except.pure]

/-- The pins replace the addresses of their groups. -/
theorem pinGroup_endpoints (cn1 cn2 : String) (ips1 ips2 : List IpAddr)
    (pin1 pin2 : Option IpAddr) :
    let hosts := List.zipWith EndpointSpec.hostDef (endpoints cn1 cn2) [ips1, ips2]
    let hosts := pin1.elim hosts (pinGroup hosts "xbox-assets")
    pin2.elim hosts (pinGroup hosts "xbox-content") =
      List.zipWith EndpointSpec.hostDef (endpoints cn1 cn2)
        [pin1.elim ips1 ([·]), pin2.elim ips2 ([·])] := by
  cases pin1 <;> cases pin2 <;>
    simp [endpoints, pinGroup, modifyFirst, EndpointSpec.hostDef]

/-- The program starts exactly if both lists hold an address and every pin variable that is
set and not blank holds the text of an IPv4 address. It starts with the two bundled groups;
the addresses of a group are its pin, or the ones listed, each once and in the order of the
lists. It counts as pinned if there is a pin. -/
theorem load_eq_ok_iff (cn1 cn2 : IpFile) (var1 var2 : EnvVar) (loaded : LoadedEndpoints) :
    load cn1.text cn2.text var1 var2 = .ok loaded ↔
      cn1.ips ≠ [] ∧ cn2.ips ≠ [] ∧ ∃ pin1 pin2, var1.Reads pin1 ∧ var2.Reads pin2 ∧
        loaded =
          { hosts := List.zipWith EndpointSpec.hostDef (endpoints cn1.text cn2.text)
              [startIps cn1.ips pin1, startIps cn2.ips pin2]
            pinned := pin1.isSome || pin2.isSome } := by
  unfold load
  rw [loadBundled_endpoints]
  by_cases none1 : cn1.ips = []
  · simp [none1, bind, Except.bind]
  by_cases none2 : cn2.ips = []
  · simp [none1, none2, bind, Except.bind]
  simp only [none1, none2, if_false, bind, Except.bind, ne_eq, not_false_eq_true, true_and]
  cases read1 : ipv4FromEnv "XBOXPROXY_PIN_CN1" var1 with
  | error e =>
    constructor
    · intro ok
      cases ok
    · rintro ⟨pin1, pin2, reads1, -, -⟩
      cases read1.symm.trans (ipv4FromEnv_eq_ok_iff.mpr reads1)
  | ok pin1 =>
    cases read2 : ipv4FromEnv "XBOXPROXY_PIN_CN2" var2 with
    | error e =>
      constructor
      · intro ok
        cases ok
      · rintro ⟨pin1, pin2, -, reads2, -⟩
        cases read2.symm.trans (ipv4FromEnv_eq_ok_iff.mpr reads2)
    | ok pin2 =>
      simp only [pure, Except.pure, Except.ok.injEq]
      rw [pinGroup_endpoints]
      constructor
      · rintro rfl
        exact ⟨pin1, pin2, ipv4FromEnv_eq_ok_iff.mp read1, ipv4FromEnv_eq_ok_iff.mp read2, rfl⟩
      · rintro ⟨pin1', pin2', reads1, reads2, rfl⟩
        cases read1.symm.trans (ipv4FromEnv_eq_ok_iff.mpr reads1)
        cases read2.symm.trans (ipv4FromEnv_eq_ok_iff.mpr reads2)
        rfl

end XboxProxy
