import XboxProxy.Proxy.Proofs.HostHeader
import XboxProxy.Speedtest.Proofs.TestUrls

/-!
# Testing the URL of a request again

The dashboard offers the URL of a served request as a test URL, with `.xboxlive.com` replaced by
`.xboxlive.cn`. Every domain of the table has such a twin in its group, but two.
-/

namespace XboxProxy
open Misc

/-- The domains whose twin is not in the table. -/
def twinlessDomains : List String := ["xvcf1.xboxlive.com", "xvcf2.xboxlive.com"]

/-- The host is rewritten to one that is not managed. -/
def LeavesTable (host : String) : Prop :=
  ∃ d ∈ twinlessDomains, DotSuffix d (toAsciiLowercase host)

/-- What stands in an authority behind the user info. -/
def afterUserInfo (host : String) : List Char := (authorityPart host).rtakeWhile (· ≠ '@')

/-- What the parser takes for the host where a host string stands in a URL. -/
def hostPart (host : String) : String := authorityHost (String.ofList (authorityPart host))

/-- That reaches to the end of the string: no delimiter, port or bracket cuts it short. -/
def Uncut (host : String) : Prop :=
  host.toList.all inAuthority = true ∧ ':' ∉ afterUserInfo host ∧
    (afterUserInfo host).head? ≠ some '['

/-- A host string that the parser takes to its end must not leave the table. One that it cuts
short loses the ending that would be rewritten, and what is left must be in the group itself. -/
structure KeepsGroup {F : Type} (s : Selector F) (host : String) : Prop where
  whole : Uncut host → ¬ LeavesTable (hostPart host)
  cut : ¬ Uncut host → s.hostFor (hostPart host) = s.hostFor host

/-- The dashboard finds the group of the request for the URL it makes of it. -/
def Retestable {F : Type} (parse : String → Option Uri) (s : Selector F) (host path : String) :
    Prop :=
  ∃ d, s.hostFor host = some d ∧
    gateDef parse s (trim (speedtestUrlFromRequest host path)) = some d

/-! ## The rewrite -/

/-- No character of it ends an authority, a user info or a host. -/
def Clean (l : List Char) : Prop := ∀ c ∈ l, inAuthority c = true ∧ c ≠ '@' ∧ c ≠ ':' ∧ c ≠ '['

instance (l : List Char) : Decidable (Clean l) := List.decidableBAll _ l

theorem clean_endings : Clean ".xboxlive.com".toList ∧ Clean ".xboxlive.cn".toList := by
  decide

/-- Lower case makes no delimiters clean. -/
theorem clean_of_toLower {l : List Char} (lower : Clean (l.map Char.toLower)) : Clean l := by
  intro c member
  obtain ⟨authority, user, port, bracket⟩ := lower c.toLower (List.mem_map_of_mem member)
  refine ⟨?_, ?_, ?_, ?_⟩
  · by_contra ends
    have delimiter : c = '/' ∨ c = '?' ∨ c = '#' := by
      simp only [inAuthority, Bool.and_eq_true, decide_eq_true_eq] at ends
      tauto
    rcases delimiter with rfl | rfl | rfl <;> exact absurd authority (by decide)
  · rintro rfl
    exact user (by decide)
  · rintro rfl
    exact port (by decide)
  · rintro rfl
    exact bracket (by decide)

/-- The ending is exchanged, the rest is kept. -/
theorem toList_replaceXboxliveCom {host : String} {kept ending : List Char}
    (split : host.toList = kept ++ ending)
    (low : ending.map Char.toLower = ".xboxlive.com".toList) :
    (replaceXboxliveCom host).toList = kept ++ ".xboxlive.cn".toList := by
  have ends : endsWith (toAsciiLowercase host) ".xboxlive.com" = true := by
    simp only [endsWith, decide_eq_true_eq]
    rw [toList_toAsciiLowercase, split, List.map_append, low]
    exact List.suffix_append _ _
  have length : ending.length = ".xboxlive.com".toList.length := by
    rw [← low, List.length_map]
  unfold replaceXboxliveCom
  rw [if_pos ends, String.toList_append, String.toList_ofList, split, List.length_append, ← length,
    Nat.add_sub_cancel, List.take_left]

/-- No delimiter stands in the ending of a host that is rewritten. -/
theorem replaceXboxliveCom_of_ends {host : String}
    (ends : endsWith (toAsciiLowercase host) ".xboxlive.com" = true) :
    ∃ kept ending, host.toList = kept ++ ending ∧ Clean ending ∧
      ending.map Char.toLower = ".xboxlive.com".toList ∧
      (replaceXboxliveCom host).toList = kept ++ ".xboxlive.cn".toList := by
  obtain ⟨stem, lower⟩ : ".xboxlive.com".toList <:+ (toAsciiLowercase host).toList := by
    simpa [endsWith] using ends
  rw [toList_toAsciiLowercase] at lower
  obtain ⟨kept, ending, split, -, low⟩ := List.map_eq_append_iff.mp lower.symm
  exact ⟨kept, ending, split, clean_of_toLower (low ▸ clean_endings.1), low,
    toList_replaceXboxliveCom split low⟩

theorem afterUserInfo_of_inside {host : String} {kept ending : List Char}
    (split : host.toList = kept ++ ending) (clean : Clean ending)
    (inside : kept.all inAuthority = true) :
    afterUserInfo host = kept.rtakeWhile (· ≠ '@') ++ ending := by
  have whole : authorityPart host = kept ++ ending := by
    unfold authorityPart
    rw [split, List.takeWhile_eq_self_iff]
    intro c member
    rcases List.mem_append.mp member with front | back
    · exact List.all_eq_true.mp inside c front
    · exact (clean c back).1
  unfold afterUserInfo
  rw [whole]
  have back : ∀ c ∈ ending.reverse, decide (c ≠ '@') = true := by
    intro c member
    simpa using (clean c (List.mem_reverse.mp member)).2.1
  simp only [List.rtakeWhile, List.reverse_append, List.takeWhile_append_of_pos back,
    List.reverse_reverse]

theorem afterUserInfo_of_delimiter {host : String} {kept ending : List Char}
    (split : host.toList = kept ++ ending) (inside : kept.all inAuthority = false) :
    afterUserInfo host = (kept.takeWhile inAuthority).rtakeWhile (· ≠ '@') := by
  obtain ⟨c, member, delimiter⟩ := List.all_eq_false.mp inside
  obtain ⟨front, rest, rfl⟩ := List.append_of_mem member
  have stops : inAuthority c = false := by simpa using delimiter
  unfold afterUserInfo authorityPart
  rw [split, List.append_assoc, List.cons_append, takeWhile_append_of_neg stops,
    takeWhile_append_of_neg stops]

theorem hostPart_eq (host : String) :
    hostPart host =
      if (afterUserInfo host).head? = some '[' then
        String.ofList ((afterUserInfo host).takeWhile (· ≠ ']') ++ [']'])
      else String.ofList ((afterUserInfo host).takeWhile (· ≠ ':')) := by
  unfold hostPart authorityHost
  rw [String.toList_ofList]
  rfl

/-- Before what stands behind the user info there is nothing, or an `@`. -/
theorem eq_or_eq_append_afterUserInfo {host : String} (inside : host.toList.all inAuthority = true) :
    host.toList = afterUserInfo host ∨
      ∃ user, host.toList = user ++ '@' :: afterUserInfo host := by
  have whole : authorityPart host = host.toList :=
    List.takeWhile_eq_self_iff.mpr (List.all_eq_true.mp inside)
  have split : host.toList.rdropWhile (· ≠ '@') ++ afterUserInfo host = host.toList := by
    unfold afterUserInfo
    rw [whole, List.rdropWhile_append_rtakeWhile]
  have last := List.rdropWhile_last_not (· ≠ '@') host.toList
  generalize host.toList.rdropWhile (· ≠ '@') = front at split last
  rcases List.eq_nil_or_concat front with rfl | ⟨user, c, rfl⟩
  · exact .inl split.symm
  · obtain rfl : c = '@' := by simpa using last
    exact .inr ⟨user, by rw [← split]; simp⟩

/-- The host of a string that is not cut is all that stands behind the user info. -/
theorem hostPart_of_uncut {host : String} (uncut : Uncut host) :
    hostPart host = String.ofList (afterUserInfo host) := by
  obtain ⟨-, portless, bare⟩ := uncut
  rw [hostPart_eq, if_neg bare, List.takeWhile_eq_self_iff.mpr]
  intro c member
  have different : c ≠ ':' := by
    rintro rfl
    exact portless member
  simpa using different

/-- A domain without an `@` that a string falls under stands behind its last one. -/
theorem dotSuffix_behind {d h rest : String} {user : List Char}
    (split : h.toList = user ++ '@' :: rest.toList) (plain : '@' ∉ d.toList)
    (falls : DotSuffix d h) : DotSuffix d rest := by
  rw [dotSuffix_iff] at falls ⊢
  have undotted : '@' ∉ '.' :: d.toList := by simpa using plain
  rcases falls with equal | dotted
  · rw [split] at equal
    exact absurd (equal ▸ by simp) plain
  · rw [split] at dotted
    rcases List.suffix_or_suffix_of_suffix dotted (List.suffix_append user _) with inner | outer
    · rcases List.suffix_cons_iff.mp inner with same | behind
      · cases same
      · exact .inr behind
    · exact absurd (outer.subset List.mem_cons_self) undotted

/-- Trimming from behind stops at the last character that stays. -/
theorem rdropWhile_append_of_neg {α : Type} {p : α → Bool} {x : α} (stops : p x = false)
    (l rest : List α) : (l ++ x :: rest).rdropWhile p = l ++ x :: rest.rdropWhile p := by
  induction rest using List.reverseRecOn with
  | nil => rw [List.rdropWhile_concat_neg _ _ _ (by simp [stops]), List.rdropWhile_nil]
  | append_singleton rest y ih =>
    have regroup : l ++ x :: (rest ++ [y]) = (l ++ x :: rest) ++ [y] := by simp
    rw [regroup, List.rdropWhile_concat, List.rdropWhile_concat, ih]
    cases p y <;> simp

/-- Trimming a URL leaves its host, and a path behind it. -/
theorem trim_speedtestUrl (host : String) {path : String}
    (slash : path.toList.head? = some '/') :
    ∃ rest, trim (speedtestUrlFromRequest host path) =
      "http://" ++ (replaceXboxliveCom host ++ String.ofList ('/' :: rest)) := by
  obtain ⟨rest, chars⟩ := List.head?_eq_some_iff.mp slash
  have some : path ≠ "" := by
    rintro rfl
    cases slash
  have url : (speedtestUrlFromRequest host path).toList =
      "http://".toList ++ (replaceXboxliveCom host).toList ++ '/' :: rest := by
    unfold speedtestUrlFromRequest
    simp only [if_neg some, if_pos slash, String.toList_append]
    rw [chars]
  have start : (speedtestUrlFromRequest host path).toList.dropWhile isWhitespace =
      (speedtestUrlFromRequest host path).toList := by
    rw [url]
    rfl
  refine ⟨rest.rdropWhile isWhitespace, ?_⟩
  rw [← String.toList_inj, trim, String.toList_ofList, start, url,
    rdropWhile_append_of_neg (by decide)]
  simp

/-- A host that ends in a label has no dots to trim. -/
theorem toList_normalizeHost {host : String} {stem tail : List Char}
    (lower : (toAsciiLowercase host).toList = stem ++ tail)
    (label : tail.getLast? ≠ none ∧ tail.getLast? ≠ some '.') :
    (normalizeHost host).toList = stem ++ tail := by
  rw [normalizeHost_eq_trim, toList_trimEndMatches, lower, List.rdropWhile_eq_self_iff]
  intro some
  have last : (stem ++ tail).getLast? = tail.getLast? := by
    rw [List.getLast?_append]
    cases found : tail.getLast? with
    | none => exact absurd found label.1
    | some c => rfl
  intro dot
  apply label.2
  rw [← last, List.getLast?_eq_getLast_of_ne_nil some]
  simpa using dot

/-! ## The twins -/

/-- The domains of the table are normalized, and end in one of two ways. -/
theorem endings_bundledTable : ∀ r ∈ bundledTable.routes,
    (normalizeHost r.domain).toList = r.domain.toList ∧
      (".xboxlive.cn".toList <:+ r.domain.toList ∨ r.domain ∈ twinlessDomains ∨
        ∃ r' ∈ bundledTable.routes, r'.group = r.group ∧
          ∃ stem ∈ r.domain.toList.inits, r.domain.toList = stem ++ ".xboxlive.com".toList ∧
            (normalizeHost r'.domain).toList = stem ++ ".xboxlive.cn".toList) := by
  simp only [normalizeHost, toList_toAsciiLowercase, toList_trimEndMatches]
  decide

/-- No domain of the table is empty, ends in a bracket or has an `@` in it. -/
theorem delimiters_bundledTable : ∀ r ∈ bundledTable.routes,
    (normalizeHost r.domain).toList ≠ [] ∧ ¬ [']'] <:+ (normalizeHost r.domain).toList ∧
      '@' ∉ (normalizeHost r.domain).toList := by
  simp only [normalizeHost, toList_toAsciiLowercase, toList_trimEndMatches]
  decide

/-- The twinless domains are in the table, and what they are rewritten to covers no domain of
it and is covered by none. -/
theorem twinless_bundledTable : ∀ d ∈ twinlessDomains,
    ∃ stem ∈ d.toList.inits, d.toList = stem ++ ".xboxlive.com".toList ∧
      (∃ r ∈ bundledTable.routes, r.domain = d) ∧
      ∀ r ∈ bundledTable.routes,
        ¬ DotSuffix (normalizeHost r.domain) (String.ofList (stem ++ ".xboxlive.cn".toList)) ∧
        ¬ DotSuffix (String.ofList (stem ++ ".xboxlive.cn".toList)) (normalizeHost r.domain) := by
  simp only [dotSuffix_iff, normalizeHost, toList_toAsciiLowercase, toList_trimEndMatches,
    String.toList_ofList]
  decide

section Retest
variable {F : Type} {s : Selector F}

/-- Hosts under rows of one group are in one group. -/
theorem hostFor_eq_of_group (sameTable : s.table = bundledTable) {host host' : String}
    {r r' : Route} (row : r ∈ bundledTable.matching host)
    (row' : r' ∈ bundledTable.matching host') (sameGroup : r'.group = r.group) :
    s.hostFor host' = s.hostFor host := by
  obtain ⟨h, group, found, -⟩ := routed_of_row sameTable row
  obtain ⟨h', group', found', -⟩ := routed_of_row sameTable row'
  rw [sameGroup, group] at group'
  obtain rfl := Option.some.inj group'
  rw [found, found']

/-- The rewrite keeps a managed host in its group unless the host leaves the table. -/
theorem hostFor_replaceXboxliveCom (sameTable : s.table = bundledTable) {host : String}
    {d : HostDef} (managed : s.hostFor host = some d) :
    s.hostFor (replaceXboxliveCom host) = some d ↔ ¬ LeavesTable host := by
  have comEnds : ∀ d ∈ twinlessDomains, ".xboxlive.com".toList <:+ d.toList := by decide
  by_cases ends : endsWith (toAsciiLowercase host) ".xboxlive.com"
  · obtain ⟨kept, ending, split, -, low, rewritten⟩ := replaceXboxliveCom_of_ends ends
    let stem := kept.map Char.toLower
    have lower : (toAsciiLowercase host).toList = stem ++ ".xboxlive.com".toList := by
      rw [toList_toAsciiLowercase, split, List.map_append, low]
    have lower' : (toAsciiLowercase (replaceXboxliveCom host)).toList =
        stem ++ ".xboxlive.cn".toList := by
      rw [toList_toAsciiLowercase, rewritten, List.map_append]
      rfl
    have normal : (normalizeHost host).toList = stem ++ ".xboxlive.com".toList :=
      toList_normalizeHost lower (by decide)
    have normal' : (normalizeHost (replaceXboxliveCom host)).toList =
        stem ++ ".xboxlive.cn".toList := toList_normalizeHost lower' (by decide)
    have sameLower : toAsciiLowercase host = normalizeHost host := by
      rw [← String.toList_inj, lower, normal]
    obtain ⟨r, member, h, -⟩ := Selector.of_hostFor managed
    rw [sameTable] at member
    obtain ⟨row, falls⟩ := mem_matching.mp member
    obtain ⟨domain, cn | twinless | ⟨r', row', sameGroup, stem', -, com, cn⟩⟩ :=
      endings_bundledTable r row
    · -- the host ends in `.com`
      have under : (normalizeHost r.domain).toList <:+ (normalizeHost host).toList :=
        DotSuffix.toList_suffix falls
      rw [domain, normal] at under
      have both : ".xboxlive.cn".toList <:+ ".xboxlive.com".toList :=
        List.suffix_of_suffix_length_le (cn.trans under) (List.suffix_append stem _) (by decide)
      exact absurd both (by decide)
    · have leaves : LeavesTable host := by
        refine ⟨r.domain, twinless, ?_⟩
        rw [sameLower, ← String.toList_inj.mp domain]
        exact falls
      refine iff_of_false ?_ (not_not.mpr leaves)
      intro found
      obtain ⟨stem', -, com, -, apart⟩ := twinless_bundledTable r.domain twinless
      obtain ⟨other, member', -⟩ := Selector.of_hostFor found
      rw [sameTable] at member'
      obtain ⟨row', falls'⟩ := mem_matching.mp member'
      have twin : DotSuffix (String.ofList (stem' ++ ".xboxlive.cn".toList))
          (normalizeHost (replaceXboxliveCom host)) := by
        rw [dotSuffix_append_iff (String.toList_ofList) normal',
          ← dotSuffix_append_iff (domain.trans com) normal]
        exact falls
      rcases dotSuffix_nested falls' twin with nested | nested
      · exact (apart other row').1 nested
      · exact (apart other row').2 nested
    · have falls' : r'.Matches (replaceXboxliveCom host) := by
        unfold Route.Matches
        rw [dotSuffix_append_iff cn normal', ← dotSuffix_append_iff (domain.trans com) normal]
        exact falls
      have same := hostFor_eq_of_group sameTable member (mem_matching.mpr ⟨row', falls'⟩) sameGroup
      refine iff_of_true (same.trans managed) ?_
      rintro ⟨d', twinless, under⟩
      obtain ⟨stem'', -, com', ⟨r'', row'', rfl⟩, apart⟩ := twinless_bundledTable d' twinless
      have falls'' : r''.Matches host := by
        unfold Route.Matches
        rw [String.toList_inj.mp (endings_bundledTable r'' row'').1, ← sameLower]
        exact under
      obtain rfl := unambiguous_bundledTable.unique member (mem_matching.mpr ⟨row'', falls''⟩)
      obtain rfl : stem' = stem'' := List.append_left_injective _ (com.symm.trans com')
      apply (apart r' row').1
      rw [← cn, String.ofList_toList]
      exact .refl _
  · have kept : replaceXboxliveCom host = host := by
      unfold replaceXboxliveCom
      rw [if_neg ends]
    rw [kept, managed]
    refine iff_of_true rfl ?_
    rintro ⟨d, twinless, falls⟩
    apply ends
    simp only [endsWith, decide_eq_true_eq]
    exact (comEnds d twinless).trans falls.toList_suffix

/-! ## The part the parser takes -/

/-- No domain ends in a bracket. -/
theorem hostFor_of_bracket (sameTable : s.table = bundledTable) {host : String} {l : List Char}
    (bracket : host.toList = l ++ [']']) : s.hostFor host = none := by
  have normal : (normalizeHost host).toList = l.map Char.toLower ++ [']'] := by
    refine toList_normalizeHost ?_ (by decide)
    rw [toList_toAsciiLowercase, bracket, List.map_append]
    rfl
  by_contra managed
  obtain ⟨d, found⟩ := Option.ne_none_iff_exists'.mp managed
  obtain ⟨r, member, -⟩ := Selector.of_hostFor found
  rw [sameTable] at member
  obtain ⟨row, falls⟩ := mem_matching.mp member
  obtain ⟨some, ending, -⟩ := delimiters_bundledTable r row
  have under : (normalizeHost r.domain).toList <:+ l.map Char.toLower ++ [']'] :=
    normal ▸ DotSuffix.toList_suffix falls
  apply ending
  refine List.suffix_of_suffix_length_le (List.suffix_append _ _) under ?_
  exact List.length_pos_iff.mpr some

/-- Of a string that is cut the parser takes the same, rewritten or not; a bracket is never
managed. -/
theorem hostFor_hostPart_of_cut (sameTable : s.table = bundledTable) {host : String}
    (cut : ¬ Uncut host) :
    s.hostFor (hostPart (replaceXboxliveCom host)) = s.hostFor (hostPart host) := by
  by_cases ends : endsWith (toAsciiLowercase host) ".xboxlive.com"
  · obtain ⟨kept, ending, split, clean, -, rewritten⟩ := replaceXboxliveCom_of_ends ends
    cases inside : kept.all inAuthority with
    | false =>
      rw [hostPart_eq, hostPart_eq, afterUserInfo_of_delimiter split inside,
        afterUserInfo_of_delimiter rewritten inside]
    | true =>
      have before := afterUserInfo_of_inside split clean inside
      have after := afterUserInfo_of_inside rewritten clean_endings.2 inside
      generalize kept.rtakeWhile (· ≠ '@') = front at before after
      have inHost : host.toList.all inAuthority = true := by
        rw [split, List.all_append, inside, Bool.true_and, List.all_eq_true]
        exact fun c member => (clean c member).1
      by_cases bracket : (front ++ ending).head? = some '['
      · have unmanaged (rest : List Char) (bare : (front ++ rest).head? = some '[') {url : String}
            (found : afterUserInfo url = front ++ rest) : s.hostFor (hostPart url) = none := by
          rw [hostPart_eq, found, if_pos bare]
          exact hostFor_of_bracket sameTable (String.toList_ofList)
        rw [unmanaged _ bracket before, unmanaged _ ?_ after]
        cases front with
        | nil => exact absurd rfl (clean '[' (List.mem_of_mem_head? bracket)).2.2.2
        | cons c front => exact bracket
      · have port : ':' ∈ front ++ ending := by
          by_contra portless
          exact cut ⟨inHost, before ▸ portless, before ▸ bracket⟩
        have inFront : ':' ∈ front :=
          (List.mem_append.mp port).resolve_right fun back => (clean ':' back).2.2.1 rfl
        obtain ⟨name, digits, rfl⟩ := List.append_of_mem inFront
        have same (rest : List Char) : (name ++ ':' :: digits ++ rest).takeWhile (· ≠ ':') =
            name.takeWhile (· ≠ ':') := by
          rw [List.append_assoc, List.cons_append, takeWhile_append_of_neg (by decide)]
        have head (rest : List Char) : (name ++ ':' :: digits ++ rest).head? =
            (name ++ [':']).head? := by
          cases name <;> rfl
        rw [head] at bracket
        rw [hostPart_eq, hostPart_eq, before, after, head, head, if_neg bracket, if_neg bracket,
          same, same]
  · unfold replaceXboxliveCom
    rw [if_neg ends]

/-- A string that is not cut is rewritten behind its user info. -/
theorem hostPart_replaceXboxliveCom {host : String} (uncut : Uncut host) :
    hostPart (replaceXboxliveCom host) = replaceXboxliveCom (hostPart host) := by
  rw [hostPart_of_uncut uncut]
  by_cases ends : endsWith (toAsciiLowercase host) ".xboxlive.com"
  · obtain ⟨kept, ending, split, clean, low, rewritten⟩ := replaceXboxliveCom_of_ends ends
    have inside : kept.all inAuthority = true := by
      have both := uncut.1
      rw [split, List.all_append, Bool.and_eq_true] at both
      exact both.1
    have before := afterUserInfo_of_inside split clean inside
    have after := afterUserInfo_of_inside rewritten clean_endings.2 inside
    generalize kept.rtakeWhile (· ≠ '@') = front at before after
    obtain ⟨-, portless, bare⟩ := uncut
    rw [before] at portless bare
    have still : Uncut (replaceXboxliveCom host) := by
      refine ⟨?_, ?_, ?_⟩
      · rw [rewritten, List.all_append, inside, Bool.true_and, List.all_eq_true]
        exact fun c member => (clean_endings.2 c member).1
      · rw [after, List.mem_append, not_or]
        exact ⟨fun front => portless (List.mem_append_left _ front),
          fun back => (clean_endings.2 ':' back).2.2.1 rfl⟩
      · rw [after]
        cases front with
        | nil => decide
        | cons c front => exact bare
    rw [hostPart_of_uncut still, after, before, ← String.toList_inj, String.toList_ofList]
    exact (toList_replaceXboxliveCom String.toList_ofList low).symm
  · have behind : ¬ endsWith (toAsciiLowercase (String.ofList (afterUserInfo host)))
        ".xboxlive.com" = true := by
      intro ends'
      apply ends
      simp only [endsWith, decide_eq_true_eq, toList_toAsciiLowercase, String.toList_ofList]
        at ends' ⊢
      rcases eq_or_eq_append_afterUserInfo uncut.1 with same | ⟨user, split⟩
      · rwa [same]
      · rw [split, List.map_append, List.map_cons]
        exact (ends'.trans (List.suffix_cons _ _)).trans (List.suffix_append _ _)
    unfold replaceXboxliveCom
    rw [if_neg ends, if_neg behind, hostPart_of_uncut uncut]

/-- What stands behind the user info is managed as the whole is. -/
theorem hostFor_hostPart_of_uncut (sameTable : s.table = bundledTable) {host : String}
    (uncut : Uncut host) {d : HostDef} (managed : s.hostFor host = some d) :
    s.hostFor (hostPart host) = some d := by
  obtain ⟨r, member, -⟩ := Selector.of_hostFor managed
  rw [sameTable] at member
  obtain ⟨row, falls⟩ := mem_matching.mp member
  rw [← managed, hostPart_of_uncut uncut]
  refine hostFor_eq_of_group sameTable member (mem_matching.mpr ⟨row, ?_⟩) rfl
  rcases eq_or_eq_append_afterUserInfo uncut.1 with same | ⟨user, split⟩
  · rwa [← same, String.ofList_toList]
  · have normal : (normalizeHost host).toList = user.map Char.toLower ++
        '@' :: (normalizeHost (String.ofList (afterUserInfo host))).toList := by
      simp only [normalizeHost, toList_toAsciiLowercase, toList_trimEndMatches, split,
        String.toList_ofList]
      rw [rdropWhile_append_of_neg (by decide), List.map_append]
      rfl
    exact dotSuffix_behind normal (delimiters_bundledTable r row).2.2 falls

/-- The dashboard looks up the host that stands in the URL. -/
theorem gateDef_speedtestUrl {parse : String → Option Uri} (splits : SplitsAuthority parse)
    {host path : String} (slash : path.toList.head? = some '/') {uri : Uri}
    (parsed : parse (trim (speedtestUrlFromRequest host path)) = some uri) :
    gateDef parse s (trim (speedtestUrlFromRequest host path)) =
      s.hostFor (hostPart (replaceXboxliveCom host)) := by
  obtain ⟨rest, url⟩ := trim_speedtestUrl host slash
  have authority : uri.authority =
      some (String.ofList (authorityPart (replaceXboxliveCom host))) := by
    have found := (splits _ uri (url ▸ parsed)).1
    rwa [String.toList_append, String.toList_ofList, takeWhile_append_of_neg (by decide)] at found
  simp only [gateDef, parsed, Option.bind_some, Uri.host, authority, Option.map_some,
    Option.getD_some, hostPart]

/-- With the bundled groups, in every reachable state, a managed host can be tested again under
the path of a request exactly if the URL parses and its host stays in the group. -/
theorem retestable_iff {parse : String → Option Uri} (splits : SplitsAuthority parse)
    {defs : List HostDef} (bundled : defs.map HostDef.routes = bundledTable) {penalty : Nat}
    (s : Selector F) (reachable : s.Reachable defs penalty) (host : String)
    (managed : (s.hostFor host).isSome) (path : String)
    (slash : path.toList.head? = some '/') :
    Retestable parse s host path ↔
      (parse (trim (speedtestUrlFromRequest host path))).isSome ∧ KeepsGroup s host := by
  have sameTable := table_of_reachable bundled reachable
  obtain ⟨d, managed⟩ := Option.isSome_iff_exists.mp managed
  have keeps : s.hostFor (hostPart (replaceXboxliveCom host)) = some d ↔ KeepsGroup s host := by
    by_cases uncut : Uncut host
    · rw [hostPart_replaceXboxliveCom uncut,
        hostFor_replaceXboxliveCom sameTable (hostFor_hostPart_of_uncut sameTable uncut managed)]
      exact ⟨fun stays => ⟨fun _ => stays, fun cut => absurd uncut cut⟩,
        fun keeps => keeps.whole uncut⟩
    · rw [hostFor_hostPart_of_cut sameTable uncut, ← managed]
      exact ⟨fun same => ⟨fun whole => absurd whole uncut, fun _ => same⟩,
        fun keeps => keeps.cut uncut⟩
  unfold Retestable
  rw [← keeps]
  constructor
  · rintro ⟨d', managed', found⟩
    obtain rfl : d = d' := Option.some.inj (managed.symm.trans managed')
    obtain ⟨uri, parsed, -⟩ := Option.bind_eq_some_iff.mp found
    rw [gateDef_speedtestUrl splits slash parsed] at found
    exact ⟨by rw [parsed]; rfl, found⟩
  · rintro ⟨parses, found⟩
    obtain ⟨uri, parsed⟩ := Option.isSome_iff_exists.mp parses
    exact ⟨d, managed, by rw [gateDef_speedtestUrl splits slash parsed, found]⟩

end Retest

theorem retestable_iff_assets :
    Retestable splitUri (Selector.new (F := ℚ) assetDefs 60) "d1.xboxlive.com" "/a" ↔
      (splitUri (trim (speedtestUrlFromRequest "d1.xboxlive.com" "/a"))).isSome ∧
        KeepsGroup (Selector.new (F := ℚ) assetDefs 60) "d1.xboxlive.com" :=
  retestable_iff splitsAuthority_splitUri (by rfl) (.new assetDefs 60) .new "d1.xboxlive.com"
    (by decide) "/a" (by decide)

/-- A request the proxy serves and the dashboard refuses to test. -/
theorem not_retestable_xvcf1 :
    (((Selector.new (F := ℚ) assetDefs 60).hostFor "xvcf1.xboxlive.com").map (·.name)) =
        some "xbox-assets" ∧
      runSpeedtest splitUri (Selector.new (F := ℚ) assetDefs 60) false false
        (some (speedtestUrlFromRequest "xvcf1.xboxlive.com" "/a")) = .error "unknown_host" := by
  decide

end XboxProxy
