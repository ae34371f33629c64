import XboxProxy.Proxy.Proofs.OneGroup
import XboxProxy.Selector.Proofs.HostMatching

/-!
# What a `Host` header may be

`host_name_from_header` puts the header into a URI and looks at path, query and authority of what
the parser makes of it. It does not see a fragment, which the parser drops, nor what an
authority may have besides a host and a port.
-/

namespace XboxProxy
open Misc

/-! ## Grammar -/

/-- A character of a host name. -/
def isHostChar (c : Char) : Bool := inAuthority c && c ≠ '@' && c ≠ '[' && c ≠ ']'

/-- Nothing, or a colon and digits. -/
inductive PortSuffix : List Char → Prop
  | none : PortSuffix []
  | digits {digits : List Char} : digits.all Char.isDigit = true → PortSuffix (':' :: digits)

/-- The string is the host `name`, in brackets or not, with or without a port. -/
inductive HostPort (name : List Char) : List Char → Prop
  | bare {port : List Char} : name.all (fun c => isHostChar c && c ≠ ':') = true →
      PortSuffix port → HostPort name (name ++ port)
  | bracketed {port : List Char} : name.all isHostChar = true → PortSuffix port →
      HostPort name ('[' :: name ++ ']' :: port)

/-- The header is a host or a host and a port, and `x` is the name of the host. -/
structure HeaderGrammar (header x : String) : Prop where
  hostPort : ∃ name, HostPort name header.toList ∧
    x = toAsciiLowercase (trimEndMatches '.' (String.ofList name))
  nonempty : x ≠ ""
  fixed : normalizeHost x = x

/-- How the parser takes an `http://` URI apart: the authority ends at the first `/`, `?` or `#`,
a fragment is dropped, and an empty path is `/`. -/
def SplitsAuthority (parse : String → Option Uri) : Prop :=
  ∀ (rest : String) (uri : Uri), parse ("http://" ++ rest) = some uri →
    let target := (rest.toList.dropWhile inAuthority).takeWhile (· ≠ '#')
    uri.authority = some (String.ofList (rest.toList.takeWhile inAuthority)) ∧
      uri.path = (if target.takeWhile (· ≠ '?') = [] then "/"
        else String.ofList (target.takeWhile (· ≠ '?'))) ∧
      (uri.query.isSome ↔ '?' ∈ target)

/-- The header as far as its authority goes, and what follows. -/
def authorityPart (header : String) : List Char := header.toList.takeWhile inAuthority

def extraPart (header : String) : List Char := header.toList.dropWhile inAuthority

/-- `host_name_from_header` takes the brackets and the trailing dots off the host. -/
def bareHost (host : String) : String :=
  trimEndMatches '.' (trimEndMatches ']' (trimStartMatches '[' host))

/-- What stands behind the authority is a fragment, and between them at most a slash. -/
def FragmentOnly (extra : List Char) : Prop := ['#'] <+: extra ∨ ['/', '#'] <+: extra

/-! ## The three checks -/

section Checks
variable {parse : String → Option Uri} {header : String}

theorem eq_delimiter {c : Char} (outside : inAuthority c = false) :
    c = '/' ∨ c = '?' ∨ c = '#' := by
  simpa [inAuthority, or_assoc, imp_iff_not_or] using outside

/-- A path is the root and no query follows if nothing does, up to the fragment. -/
theorem rootPath_iff (target : List Char) :
    ('/' :: target).takeWhile (· ≠ '?') = ['/'] ∧ '?' ∉ '/' :: target ↔ target = [] := by
  cases target with
  | nil => simp
  | cons c rest =>
    by_cases query : c = '?'
    · simp [query]
    · simp [query]

/-- A URI has the path `/` and no query if nothing but a fragment follows the authority. -/
theorem pathChecks_iff {extra : List Char} (starts : ∀ c ∈ extra.head?, inAuthority c = false) :
    ((((extra ++ ['/']).takeWhile (· ≠ '#')).takeWhile (· ≠ '?') = [] ∨
        ((extra ++ ['/']).takeWhile (· ≠ '#')).takeWhile (· ≠ '?') = ['/']) ∧
      '?' ∉ (extra ++ ['/']).takeWhile (· ≠ '#')) ↔ extra = [] ∨ FragmentOnly extra := by
  unfold FragmentOnly
  cases extra with
  | nil => simp
  | cons c rest =>
    rcases eq_delimiter (starts c rfl) with rfl | rfl | rfl
    · -- a slash: only a fragment may follow it
      have taken : ('/' :: rest ++ ['/']).takeWhile (· ≠ '#') =
          '/' :: (rest ++ ['/']).takeWhile (· ≠ '#') := by simp
      rw [taken]
      have root := rootPath_iff ((rest ++ ['/']).takeWhile (· ≠ '#'))
      have some : ('/' :: (rest ++ ['/']).takeWhile (· ≠ '#')).takeWhile (· ≠ '?') ≠ [] := by simp
      rw [or_iff_right some, root]
      cases rest with
      | nil => simp
      | cons d rest =>
        by_cases hash : d = '#'
        · simp [hash]
        · have other : '#' ≠ d := Ne.symm hash
          simp [hash, other]
    · simp
    · simp

theorem takeWhile_append_of_neg {α : Type} {p : α → Bool} {x : α} (stops : p x = false)
    (l rest : List α) : (l ++ x :: rest).takeWhile p = l.takeWhile p := by
  induction l with
  | nil => simp [stops]
  | cons y l ih => cases kept : p y <;> simp [kept, ih]

theorem dropWhile_concat_of_neg {α : Type} {p : α → Bool} {x : α} (stops : p x = false)
    (l : List α) : (l ++ [x]).dropWhile p = l.dropWhile p ++ [x] := by
  induction l with
  | nil => simp [stops]
  | cons y l ih => cases kept : p y <;> simp [kept, ih]

/-- The header passes the checks on the path if nothing or a fragment follows its authority. -/
theorem path_checks (splits : SplitsAuthority parse) {uri : Uri}
    (parsed : parse ("http://" ++ header ++ "/") = some uri) :
    uri.authority = some (String.ofList (authorityPart header)) ∧
      (¬ (uri.path ≠ "/" ∨ uri.query.isSome) ↔
        extraPart header = [] ∨ FragmentOnly (extraPart header)) := by
  have slash : inAuthority '/' = false := by decide
  have chars : (header ++ "/").toList = header.toList ++ ['/'] := by simp
  rw [String.append_assoc] at parsed
  obtain ⟨authority, path, query⟩ := splits (header ++ "/") uri parsed
  rw [chars, takeWhile_append_of_neg slash] at authority
  rw [chars, dropWhile_concat_of_neg slash] at path query
  refine ⟨authority, ?_⟩
  have starts : ∀ c ∈ (extraPart header).head?, inAuthority c = false := by
    intro c first
    have stopped := List.head?_dropWhile_not inAuthority header.toList
    unfold extraPart at first
    rwa [Option.mem_def.mp first] at stopped
  rw [← pathChecks_iff starts, not_or, not_not, query, path]
  refine and_congr_left fun _ => ?_
  unfold extraPart
  generalize ((header.toList.dropWhile inAuthority ++ ['/']).takeWhile (· ≠ '#')).takeWhile
    (· ≠ '?') = segment
  by_cases empty : segment = []
  · simp [empty]
  · have root : String.ofList segment = "/" ↔ segment = ['/'] := by
      rw [← String.toList_inj, String.toList_ofList]
      rfl
    rw [if_neg empty, or_iff_right empty, root]

/-- The header is taken for a host exactly if it parses, nothing but a fragment follows its
authority, no user stands in it, and its host has a name. -/
theorem hostNameFromHeader_eq_some_iff (splits : SplitsAuthority parse) {x : String} :
    hostNameFromHeader parse header = some x ↔
      (parse ("http://" ++ header ++ "/")).isSome ∧
        (extraPart header = [] ∨ FragmentOnly (extraPart header)) ∧
        '@' ∉ authorityPart header ∧
        bareHost (authorityHost (String.ofList (authorityPart header))) ≠ "" ∧
        x = toAsciiLowercase
          (bareHost (authorityHost (String.ofList (authorityPart header)))) := by
  unfold hostNameFromHeader
  cases parsed : parse ("http://" ++ header ++ "/") with
  | none => simp
  | some uri =>
    obtain ⟨authority, checks⟩ := path_checks splits parsed
    simp only [Option.bind_eq_bind, Option.bind_some, Option.isSome_some, true_and, authority,
      Uri.host, Option.map_some, String.toList_ofList]
    by_cases refused : uri.path ≠ "/" ∨ uri.query.isSome
    · have other := mt checks.mpr (not_not.mpr refused)
      simp [refused, other]
    · rw [if_neg refused]
      by_cases user : '@' ∈ authorityPart header
      · simp [user]
      · have anonymous : (authorityPart header).contains '@' = false := by simpa using user
        rw [anonymous, if_neg (by simp)]
        change (if bareHost (authorityHost (String.ofList (authorityPart header))) = "" then none
          else some (toAsciiLowercase
            (bareHost (authorityHost (String.ofList (authorityPart header)))))) = some x ↔ _
        rw [and_iff_right (checks.mp refused), and_iff_right user]
        generalize bareHost (authorityHost (String.ofList (authorityPart header))) = name
        by_cases named : name = ""
        · simp [named]
        · rw [if_neg named, and_iff_right named, Option.some.injEq, eq_comm]

end Checks

/-! ## Hosts -/

theorem HostPort.inAuthority {name chars : List Char} (grammar : HostPort name chars) :
    ∀ c ∈ chars, inAuthority c = true ∧ c ≠ '@' := by
  have digit : ∀ c : Char, c.isDigit = true → XboxProxy.inAuthority c = true ∧ c ≠ '@' := by
    intro c digit
    have other : ∀ d : Char, d.isDigit = false → c ≠ d := by
      rintro d plain rfl
      simp [plain] at digit
    simp [XboxProxy.inAuthority, other '/' rfl, other '?' rfl, other '#' rfl, other '@' rfl]
  have port : ∀ {port : List Char}, PortSuffix port → ∀ c ∈ port,
      XboxProxy.inAuthority c = true ∧ c ≠ '@' := by
    intro port suffix c member
    cases suffix with
    | none => cases member
    | digits all =>
      rcases List.mem_cons.mp member with rfl | member
      · decide
      · exact digit c (List.all_eq_true.mp all c member)
  have host : ∀ c, isHostChar c = true → XboxProxy.inAuthority c = true ∧ c ≠ '@' := by
    intro c plain
    simp only [isHostChar, Bool.and_eq_true, decide_eq_true_eq] at plain
    exact plain.1.1
  intro c member
  cases grammar with
  | bare named suffix =>
    rcases List.mem_append.mp member with member | member
    · have plain := List.all_eq_true.mp named c member
      rw [Bool.and_eq_true] at plain
      exact host c plain.1
    · exact port suffix c member
  | bracketed named suffix =>
    rcases List.mem_append.mp member with member | member
    · rcases List.mem_cons.mp member with rfl | member
      · decide
      · exact host c (List.all_eq_true.mp named c member)
    · rcases List.mem_cons.mp member with rfl | member
      · decide
      · exact port suffix c member

theorem isHostChar_ne {c : Char} (plain : isHostChar c = true) : c ≠ '[' ∧ c ≠ ']' := by
  simp only [isHostChar, Bool.and_eq_true, decide_eq_true_eq] at plain
  exact ⟨plain.1.2, plain.2⟩

/-- A name has no bracket to take off, before or behind it. -/
theorem dropWhile_name {name rest : List Char} (plain : name.all isHostChar = true)
    (follows : rest.head? ≠ some '[') :
    (name ++ rest).dropWhile (· == '[') = name ++ rest := by
  cases name with
  | nil =>
    cases rest with
    | nil => rfl
    | cons c rest => exact List.dropWhile_cons_of_neg (by simpa using follows)
  | cons c name =>
    have first := (isHostChar_ne (List.all_eq_true.mp plain c List.mem_cons_self)).1
    exact List.dropWhile_cons_of_neg (by simpa using first)

theorem rdropWhile_name {name : List Char} (plain : name.all isHostChar = true) :
    name.rdropWhile (· == ']') = name := by
  rw [List.rdropWhile_eq_self_iff]
  intro some closing
  have last := List.all_eq_true.mp plain _ (List.getLast_mem some)
  exact (isHostChar_ne last).2 (by simpa using closing)

/-- Of a host with or without a port the name is left. -/
theorem HostPort.bareHost_eq {name chars : List Char} (grammar : HostPort name chars) :
    bareHost (authorityHost (String.ofList chars)) = trimEndMatches '.' (String.ofList name) := by
  have anonymous : chars.rtakeWhile (· ≠ '@') = chars := by
    rw [List.rtakeWhile_eq_self_iff]
    intro c member
    simpa using (grammar.inAuthority c member).2
  unfold authorityHost
  simp only [String.toList_ofList, anonymous]
  cases grammar with
  | @bare port named suffix =>
    have plain : name.all isHostChar = true := by
      rw [List.all_eq_true] at named ⊢
      intro c member
      exact (Bool.and_eq_true_iff.mp (named c member)).1
    have start : port.head? ≠ some '[' := by cases suffix <;> simp
    have bare : (name ++ port).head? ≠ some '[' := by
      intro bracket
      cases name with
      | nil => exact start bracket
      | cons c name =>
        obtain rfl : c = '[' := by simpa using bracket
        exact (isHostChar_ne (List.all_eq_true.mp plain _ List.mem_cons_self)).1 rfl
    have host : (name ++ port).takeWhile (· ≠ ':') = name := by
      rw [List.takeWhile_append_of_pos]
      · cases suffix <;> simp
      · intro c member
        exact (Bool.and_eq_true_iff.mp (List.all_eq_true.mp named c member)).2
    have opened := dropWhile_name plain (show ([] : List Char).head? ≠ some '[' by simp)
    rw [List.append_nil] at opened
    rw [if_neg bare, host]
    simp only [bareHost, trimStartMatches, trimEndMatches, String.toList_ofList, opened,
      rdropWhile_name plain]
  | @bracketed port named suffix =>
    have opened := dropWhile_name named (show [']'].head? ≠ some '[' by simp)
    have host : ('[' :: name ++ ']' :: port).takeWhile (· ≠ ']') = '[' :: name := by
      rw [List.takeWhile_append_of_pos]
      · simp
      · intro c member
        rcases List.mem_cons.mp member with rfl | member
        · decide
        · simpa using (isHostChar_ne (List.all_eq_true.mp named c member)).2
    have first : ('[' :: name ++ ']' :: port).head? = some '[' := rfl
    rw [if_pos first, host]
    simp only [bareHost, trimStartMatches, trimEndMatches, String.toList_ofList, List.cons_append,
      List.dropWhile_cons, beq_self_eq_true, if_true, opened, List.rdropWhile_concat,
      rdropWhile_name named]

/-- A normalized host is normalized. -/
theorem normalizeHost_idem (host : String) :
    normalizeHost (normalizeHost host) = normalizeHost host := by
  have lower : toAsciiLowercase (normalizeHost host) = normalizeHost host := by
    simp [normalizeHost]
  rw [normalizeHost_eq_trim (normalizeHost host), lower, normalizeHost_eq_trim,
    ← String.toList_inj]
  simp only [toList_trimEndMatches]
  exact List.rdropWhile_idempotent _ _

/-! ## Acceptance -/

/-- The header passes all checks and is no host and port: a fragment follows its authority,
directly or behind a slash, or its authority has something else in it. -/
structure Smuggles (parse : String → Option Uri) (header : String) : Prop where
  parses : (parse ("http://" ++ header ++ "/")).isSome
  anonymous : '@' ∉ authorityPart header
  named : bareHost (authorityHost (String.ofList (authorityPart header))) ≠ ""
  extra : FragmentOnly (extraPart header) ∨
    extraPart header = [] ∧ ∀ name, ¬ HostPort name (authorityPart header)

theorem authorityPart_of_whole {header : String} (whole : extraPart header = []) :
    authorityPart header = header.toList := by
  have split := List.takeWhile_append_dropWhile (p := inAuthority) (l := header.toList)
  unfold extraPart at whole
  rwa [whole, List.append_nil] at split

theorem HostPort.whole {name : List Char} {header : String}
    (grammar : HostPort name header.toList) : extraPart header = [] := by
  unfold extraPart
  rw [List.dropWhile_eq_nil_iff]
  exact fun c member => (grammar.inAuthority c member).1

/-- What is accepted is a host or a host and a port, and the result its name, unless something is
smuggled in. -/
theorem headerGrammar_iff {parse : String → Option Uri} (splits : SplitsAuthority parse)
    (header : String) :
    (∀ x, hostNameFromHeader parse header = some x → HeaderGrammar header x) ↔
      ¬ Smuggles parse header := by
  constructor
  · rintro follows ⟨parses, anonymous, named, extra⟩
    have checks : extraPart header = [] ∨ FragmentOnly (extraPart header) := by
      rcases extra with fragment | ⟨whole, -⟩
      · exact .inr fragment
      · exact .inl whole
    have accepted :=
      (hostNameFromHeader_eq_some_iff splits).mpr ⟨parses, checks, anonymous, named, rfl⟩
    obtain ⟨⟨name, grammar, -⟩, -, -⟩ := follows _ accepted
    rcases extra with fragment | ⟨whole, malformed⟩
    · rw [grammar.whole] at fragment
      simp [FragmentOnly] at fragment
    · exact malformed name (authorityPart_of_whole whole ▸ grammar)
  · intro honest x accepted
    obtain ⟨parses, checks, anonymous, named, rfl⟩ :=
      (hostNameFromHeader_eq_some_iff splits).mp accepted
    have whole : extraPart header = [] := by
      rcases checks with whole | fragment
      · exact whole
      · exact absurd ⟨parses, anonymous, named, .inl fragment⟩ honest
    obtain ⟨name, grammar⟩ : ∃ name, HostPort name (authorityPart header) := by
      by_contra malformed
      exact honest ⟨parses, anonymous, named, .inr ⟨whole, not_exists.mp malformed⟩⟩
    rw [grammar.bareHost_eq] at named ⊢
    refine ⟨⟨name, authorityPart_of_whole whole ▸ grammar, rfl⟩, ?_, normalizeHost_idem _⟩
    intro empty
    apply named
    rw [← String.toList_inj, toList_toAsciiLowercase] at empty
    rw [← String.toList_inj]
    exact List.map_eq_nil_iff.mp empty

/-- The parser of plain URIs takes them apart so. -/
theorem splitsAuthority_splitUri : SplitsAuthority splitUri := by
  intro rest uri parsed
  have chars : ("http://" ++ rest).toList =
      'h' :: 't' :: 't' :: 'p' :: ':' :: '/' :: '/' :: rest.toList := by
    simp
  unfold splitUri at parsed
  simp only [chars] at parsed
  split at parsed
  · cases parsed
  · cases parsed
    refine ⟨rfl, ?_, ?_⟩
    · simp [Uri.path, List.isEmpty_iff]
    · unfold Uri.query
      simp only [String.toList_ofList]
      split
      · rename_i none
        have absent := List.dropWhile_eq_nil_iff.mp none
        refine iff_of_false (by simp) fun query => ?_
        simpa using absent '?' query
      · rename_i c query found
        refine iff_of_true rfl ?_
        have first := List.head?_dropWhile_not (· ≠ '?')
          ((rest.toList.dropWhile inAuthority).takeWhile (· ≠ '#'))
        rw [found] at first
        obtain rfl : c = '?' := by simpa using first
        exact (List.dropWhile_sublist _).mem (found ▸ List.mem_cons_self)

theorem headerGrammar_iff_cdn :
    (∀ x, hostNameFromHeader splitUri "cdn.example.com:80" = some x →
      HeaderGrammar "cdn.example.com:80" x) ↔ ¬ Smuggles splitUri "cdn.example.com:80" :=
  headerGrammar_iff splitsAuthority_splitUri "cdn.example.com:80"

/-- A header with a fragment in it is taken for its host. -/
theorem accepts_fragment :
    hostNameFromHeader splitUri "cdn.example.com#frag" = some "cdn.example.com" ∧
      ¬ HeaderGrammar "cdn.example.com#frag" "cdn.example.com" := by
  refine ⟨by decide +kernel, ?_⟩
  rintro ⟨⟨name, grammar, -⟩, -, -⟩
  have hash := (grammar.inAuthority '#' (by decide)).1
  exact absurd hash (by decide)

end XboxProxy
