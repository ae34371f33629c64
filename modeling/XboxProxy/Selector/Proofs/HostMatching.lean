import XboxProxy.Misc.Labels
import XboxProxy.Selector.Routing

/-!
# Which hosts are managed

`host_for` and `upstream_host_for` compare a host with the rows of the domain maps by their
labels, return what the first row says, and do not see trailing dots or case.
-/

namespace XboxProxy
open Misc

/-- Trailing dots and case aside, the labels of the row's domain end the labels of the host. -/
def UnderRow (host : String) (row : String × String) : Prop :=
  labels (normalizeHost row.1) <:+ labels (normalizeHost host)

/-- The host falls under a row of the group. -/
def HostDef.Covers (host : String) (d : HostDef) : Prop := ∃ row ∈ d.domainMap, UnderRow host row

theorem rowMatches_iff_underRow {host : String} {row : String × String} :
    rowMatches (normalizeHost host) row = true ↔ UnderRow host row := by
  unfold rowMatches UnderRow
  rw [decide_eq_true_eq, dotSuffix_iff_labels]

/-- The search finds a row in the groups that cover the host. -/
theorem isSome_findSome?_rows {α : Type} {host : String} {d : HostDef} (f : String × String → α) :
    (d.domainMap.findSome? fun row =>
      if rowMatches (normalizeHost host) row then some (f row) else none).isSome ↔
        d.Covers host := by
  rw [List.findSome?_isSome_iff]
  unfold HostDef.Covers
  simp only [← rowMatches_iff_underRow, Option.isSome_ite]

/-! ## Spelling -/

/-- Dots are trimmed before or after the change of case. -/
theorem normalizeHost_eq_trim (host : String) :
    normalizeHost host = trimEndMatches '.' (toAsciiLowercase host) := by
  have dot : ∀ c : Char, (c.toLower == '.') = (c == '.') := by
    intro c
    rw [Bool.eq_iff_iff, beq_iff_eq, beq_iff_eq, toLower_eq_iff (by decide)]
  rw [← String.toList_inj]
  simp only [normalizeHost, toList_toAsciiLowercase, toList_trimEndMatches, List.rdropWhile,
    ← List.map_reverse, List.dropWhile_map, Function.comp_def, dot]

theorem rdropWhile_append_replicate {α : Type} [BEq α] [ReflBEq α] (l : List α) (x : α) (n : Nat) :
    (l ++ List.replicate n x).rdropWhile (· == x) = l.rdropWhile (· == x) := by
  induction n with
  | zero => rw [List.replicate_zero, List.append_nil]
  | succ n ih =>
    rw [List.replicate_succ', ← List.append_assoc, List.rdropWhile_concat_pos _ _ _ (by simp), ih]

/-- A host in another case and with dots after it is the same host. -/
theorem normalizeHost_respelled {host host' : String} {n : Nat}
    (respelled : toAsciiLowercase host' =
      toAsciiLowercase (host ++ String.ofList (List.replicate n '.'))) :
    normalizeHost host' = normalizeHost host := by
  rw [normalizeHost_eq_trim, normalizeHost_eq_trim, respelled, ← String.toList_inj]
  simp only [toList_trimEndMatches, toList_toAsciiLowercase, String.toList_append,
    String.toList_ofList, List.map_append, List.map_replicate]
  exact rdropWhile_append_replicate _ '.' n

/-! ## The searches -/

/-- The search of one group returns what its first row under the host says. -/
theorem findSome?_rows_eq_some_iff {α : Type} {host : String} {d : HostDef}
    {f : String × String → α} {x : α} :
    (d.domainMap.findSome? fun row =>
      if rowMatches (normalizeHost host) row then some (f row) else none) = some x ↔
        ∃ row, FirstWhere (UnderRow host) d.domainMap row ∧ f row = x := by
  have finds : ∀ row, (if rowMatches (normalizeHost host) row then some (f row) else none).isSome ↔
      UnderRow host row := by
    intro row
    rw [← rowMatches_iff_underRow, Option.isSome_ite]
  rw [findSome?_eq_some_iff_firstWhere finds]
  refine exists_congr fun row => and_congr_right fun first => ?_
  rw [if_pos (rowMatches_iff_underRow.mpr first.holds), Option.some.injEq]

namespace Selector
variable {F : Type} {s : Selector F} {host : String}

/-- `host_for` returns the first group that covers the host. -/
theorem hostFor_eq_some_iff {d : HostDef} :
    s.hostFor host = some d ↔ FirstWhere (HostDef.Covers host) (s.hosts.map (·.hostDef)) d := by
  rw [hostFor_eq_findSome?,
    findSome?_eq_some_iff_firstWhere fun d => isSome_findSome?_rows fun _ => d]
  constructor
  · rintro ⟨d', first, found⟩
    obtain ⟨row, -, rfl⟩ := findSome?_rows_eq_some_iff.mp found
    exact first
  · intro first
    obtain ⟨row, member, under⟩ := first.holds
    obtain ⟨row, firstRow⟩ := exists_firstWhere member under
    exact ⟨d, first, findSome?_rows_eq_some_iff.mpr ⟨row, firstRow, rfl⟩⟩

/-- `upstream_host_for` returns the upstream of the first such row of that group. -/
theorem upstreamHostFor_eq_some_iff {upstream : String} :
    s.upstreamHostFor host = some upstream ↔
      ∃ d row, s.hostFor host = some d ∧ FirstWhere (UnderRow host) d.domainMap row ∧
        row.2 = upstream := by
  rw [upstreamHostFor_eq_findSome?,
    findSome?_eq_some_iff_firstWhere fun d => isSome_findSome?_rows Prod.snd]
  simp only [findSome?_rows_eq_some_iff, hostFor_eq_some_iff, exists_and_left]

/-- A host is managed if its labels end with those of a domain. The group is the first one with
such a row, and the upstream host that of the first such row in it; trailing dots and case make
no difference. -/
theorem hostFor_iff_labels (s : Selector F) (host : String) :
    ((s.hostFor host).isSome ↔
      ∃ h ∈ s.hosts, ∃ row ∈ h.hostDef.domainMap, UnderRow host row) ∧
    (∀ d, s.hostFor host = some d ↔
      FirstWhere (HostDef.Covers host) (s.hosts.map (·.hostDef)) d) ∧
    (∀ upstream, s.upstreamHostFor host = some upstream ↔
      ∃ d row, s.hostFor host = some d ∧ FirstWhere (UnderRow host) d.domainMap row ∧
        row.2 = upstream) ∧
    ∀ host' n, toAsciiLowercase host' =
        toAsciiLowercase (host ++ String.ofList (List.replicate n '.')) →
      s.hostFor host' = s.hostFor host ∧ s.upstreamHostFor host' = s.upstreamHostFor host := by
  refine ⟨?_, fun d => hostFor_eq_some_iff, fun upstream => upstreamHostFor_eq_some_iff, ?_⟩
  · constructor
    · intro managed
      obtain ⟨d, found⟩ := Option.isSome_iff_exists.mp managed
      have first := hostFor_eq_some_iff.mp found
      obtain ⟨h, member, rfl⟩ := List.mem_map.mp first.mem
      exact ⟨h, member, first.holds⟩
    · rintro ⟨h, member, covers⟩
      have listed : h.hostDef ∈ s.hosts.map (·.hostDef) := List.mem_map_of_mem member
      have here : h.hostDef.Covers host := covers
      obtain ⟨d, first⟩ := exists_firstWhere listed here
      rw [hostFor_eq_some_iff.mpr first]
      rfl
  · intro host' n respelled
    have same := normalizeHost_respelled respelled
    unfold hostFor upstreamHostFor
    rw [same]
    exact ⟨rfl, rfl⟩

theorem hostFor_iff_labels_testDef :
    (new (F := Unit) [testDef []] 60).hostFor "DL.CDN.Example.com." =
      (new (F := Unit) [testDef []] 60).hostFor "dl.cdn.example.com" :=
  ((hostFor_iff_labels (new (F := Unit) [testDef []] 60) "dl.cdn.example.com").2.2.2
    "DL.CDN.Example.com." 1 (by decide)).1

end Selector
end XboxProxy
