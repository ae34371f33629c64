import XboxProxy.Selector.Calls

/-!
# Routing by the host tables

`host_for`, `upstream_host_for` and `index_of` are three first-match searches, and the third
also accepts the names of groups. On an unambiguous table they agree: a host falls under at
most one row of all groups, and the upstream host of a row is routed to the group of the row.
-/

namespace XboxProxy
open Misc

/-- The names and domain maps of the groups, in order: all that routing reads. -/
abbrev HostTable := List (String × List (String × String))

/-- What routing reads of a definition. -/
def HostDef.routes (d : HostDef) : String × List (String × String) := (d.name, d.domainMap)

/-- A row of a domain map and the group it belongs to. -/
structure Route where
  group : Nat
  domain : String
  upstream : String
  deriving DecidableEq

/-- The rows of all groups, in the order they are searched. -/
def HostTable.routes (table : HostTable) : List Route :=
  table.zipIdx.flatMap fun entry => entry.1.2.map fun row => ⟨entry.2, row.1, row.2⟩

/-- The host falls under the domain of the row. -/
def Route.Matches (r : Route) (host : String) : Prop :=
  DotSuffix (normalizeHost r.domain) (normalizeHost host)

instance (r : Route) (host : String) : Decidable (r.Matches host) :=
  inferInstanceAs (Decidable (DotSuffix _ _))

/-- The rows a host falls under. -/
def HostTable.matching (table : HostTable) (host : String) : List Route :=
  table.routes.filter fun r => decide (r.Matches host)

theorem mem_routes {table : HostTable} {r : Route} :
    r ∈ table.routes ↔ ∃ t, table[r.group]? = some t ∧ (r.domain, r.upstream) ∈ t.2 := by
  obtain ⟨g, domain, upstream⟩ := r
  simp only [HostTable.routes, List.mem_flatMap, List.mem_map, Prod.exists,
    List.mem_zipIdx_iff_getElem?, Route.mk.injEq]
  constructor
  · rintro ⟨name, rows, i, found, d, u, member, rfl, rfl, rfl⟩
    exact ⟨name, rows, found, member⟩
  · rintro ⟨name, rows, found, member⟩
    exact ⟨name, rows, g, found, domain, upstream, member, rfl, rfl, rfl⟩

theorem mem_matching {table : HostTable} {host : String} {r : Route} :
    r ∈ table.matching host ↔ r ∈ table.routes ∧ r.Matches host := by
  simp [HostTable.matching]

/-- A table on which the three searches agree. -/
structure Unambiguous (table : HostTable) : Prop where
  /-- No domain covers another. -/
  apart : table.routes.Pairwise fun r r' =>
    ¬ DotSuffix (normalizeHost r.domain) (normalizeHost r'.domain) ∧
      ¬ DotSuffix (normalizeHost r'.domain) (normalizeHost r.domain)
  /-- No domain covers the name of a group. -/
  unnamed : ∀ t ∈ table, ∀ r ∈ table.routes,
    ¬ DotSuffix (normalizeHost r.domain) (toAsciiLowercase t.1)
  /-- Every upstream host falls under a row of its own group. -/
  rewritten : ∀ r ∈ table.routes, ∃ r' ∈ table.routes, r'.group = r.group ∧ r'.Matches r.upstream

/-- A list in which no two elements may stand together has at most one. -/
theorem length_le_one_of_pairwise {α : Type} {l : List α} (never : l.Pairwise fun _ _ => False) :
    l.length ≤ 1 := by
  match l, never with
  | [], _ => simp
  | [x], _ => simp
  | x :: y :: rest, never =>
    exact absurd (List.rel_of_pairwise_cons never (List.mem_cons_self)) id

theorem Unambiguous.length_matching {table : HostTable} (clear : Unambiguous table)
    (host : String) : (table.matching host).length ≤ 1 := by
  apply length_le_one_of_pairwise
  have kept := clear.apart.filter fun r => decide (r.Matches host)
  refine kept.imp_of_mem ?_
  intro r r' first second apart
  have m := (mem_matching.mp first).2
  have m' := (mem_matching.mp second).2
  rcases dotSuffix_nested m m' with nested | nested
  · exact apart.1 nested
  · exact apart.2 nested

/-- The one row a host falls under. -/
theorem Unambiguous.matching_eq {table : HostTable} (clear : Unambiguous table) {host : String}
    {r : Route} (member : r ∈ table.matching host) : table.matching host = [r] := by
  have short := clear.length_matching host
  match found : table.matching host, member with
  | [x], member => rw [List.mem_singleton.mp member]
  | x :: y :: rest, _ => simp [found] at short

theorem Unambiguous.unique {table : HostTable} (clear : Unambiguous table) {host : String}
    {r r' : Route} (first : r ∈ table.matching host) (second : r' ∈ table.matching host) :
    r = r' := by
  rw [clear.matching_eq first] at second
  exact (List.mem_singleton.mp second).symm

namespace Selector

variable {F : Type}

/-- The table a selector routes by. -/
def table (s : Selector F) : HostTable := s.hosts.map (·.hostDef.routes)

theorem SameGroups.table {s t : Selector F} (same : SameGroups s t) : s.table = t.table := by
  have read : ∀ u : Selector F, u.table = (u.hosts.map (·.hostDef)).map HostDef.routes := by
    intro u
    simp [Selector.table, Function.comp_def]
  rw [read, read, same.hostDefs]

theorem table_new (defs : List HostDef) (penalty : Nat) :
    (Selector.new (F := F) defs penalty).table = defs.map HostDef.routes := by
  simp [Selector.table, Selector.new, Function.comp_def]

/-- A row of a group as a route of the table. -/
theorem mem_matching_table {s : Selector F} {g : Nat} {h : HostStateInner F}
    (group : s.hosts[g]? = some h) {row : String × String} (member : row ∈ h.hostDef.domainMap)
    {host : String} (falls : rowMatches (normalizeHost host) row = true) :
    ⟨g, row.1, row.2⟩ ∈ s.table.matching host := by
  rw [mem_matching, mem_routes]
  refine ⟨⟨h.hostDef.routes, by simp [Selector.table, group], member⟩, ?_⟩
  simpa [rowMatches, Route.Matches] using falls

/-- A route of the table as a row of a group. -/
theorem of_mem_matching_table {s : Selector F} {host : String} {r : Route}
    (member : r ∈ s.table.matching host) : ∃ h, s.hosts[r.group]? = some h ∧
      (r.domain, r.upstream) ∈ h.hostDef.domainMap ∧
      rowMatches (normalizeHost host) (r.domain, r.upstream) = true := by
  rw [mem_matching, mem_routes] at member
  obtain ⟨⟨t, found, row⟩, falls⟩ := member
  rw [Selector.table, List.getElem?_map] at found
  obtain ⟨h, group, rfl⟩ := Option.map_eq_some_iff.mp found
  refine ⟨h, group, row, ?_⟩
  simpa [rowMatches, Route.Matches] using falls

/-- What the first row says that the host falls under. -/
def searchRows {α : Type} (s : Selector F) (host : String)
    (f : HostStateInner F → String × String → α) : Option α :=
  s.hosts.findSome? fun h => h.hostDef.domainMap.findSome? fun row =>
    if rowMatches (normalizeHost host) row then some (f h row) else none

/-- What a search finds comes from a row of the table. -/
theorem of_searchRows {α : Type} {s : Selector F} {host : String}
    {f : HostStateInner F → String × String → α} {x : α} (found : s.searchRows host f = some x) :
    ∃ r ∈ s.table.matching host, ∃ h, s.hosts[r.group]? = some h ∧
      f h (r.domain, r.upstream) = x := by
  obtain ⟨h, member, found⟩ := List.exists_of_findSome?_eq_some found
  obtain ⟨row, inMap, found⟩ := List.exists_of_findSome?_eq_some found
  simp only [Option.ite_none_right_eq_some, Option.some.injEq] at found
  obtain ⟨g, group⟩ := List.mem_iff_getElem?.mp member
  exact ⟨_, mem_matching_table group inMap found.1, h, group, found.2⟩

/-- A search for a host under a row finds something. -/
theorem searchRows_ne_none {α : Type} {s : Selector F} {host : String} {r : Route}
    (member : r ∈ s.table.matching host) (f : HostStateInner F → String × String → α) :
    s.searchRows host f ≠ none := by
  intro nothing
  obtain ⟨h, group, row, falls⟩ := of_mem_matching_table member
  have none_here := List.findSome?_eq_none_iff.mp nothing h (List.mem_of_getElem? group)
  have none_row := List.findSome?_eq_none_iff.mp none_here _ row
  simp [falls] at none_row

/-- What `host_for` finds is the group of a row the host falls under. -/
theorem of_hostFor {s : Selector F} {host : String} {d : HostDef}
    (found : s.hostFor host = some d) :
    ∃ r ∈ s.table.matching host, ∃ h, s.hosts[r.group]? = some h ∧ h.hostDef = d := by
  have searched : s.searchRows host (fun h _ => h.hostDef) = some d := found
  exact of_searchRows searched

theorem of_upstreamHostFor {s : Selector F} {host upstream : String}
    (found : s.upstreamHostFor host = some upstream) :
    ∃ r ∈ s.table.matching host, r.upstream = upstream := by
  have searched : s.searchRows host (fun _ row => row.2) = some upstream := found
  obtain ⟨r, member, -, -, same⟩ := of_searchRows searched
  exact ⟨r, member, same⟩

/-- `host_for` fails only for a host that falls under no row. -/
theorem matching_eq_nil_iff {s : Selector F} {host : String} :
    s.table.matching host = [] ↔ s.hostFor host = none := by
  constructor
  · intro nothing
    cases found : s.hostFor host with
    | none => rfl
    | some d =>
      obtain ⟨r, member, -⟩ := of_hostFor found
      rw [nothing] at member
      cases member
  · intro unmanaged
    rw [List.eq_nil_iff_forall_not_mem]
    intro r member
    exact searchRows_ne_none member (fun h _ => h.hostDef) unmanaged

theorem upstreamHostFor_isSome {s : Selector F} {host : String} {r : Route}
    (member : r ∈ s.table.matching host) : ∃ upstream, s.upstreamHostFor host = some upstream :=
  Option.ne_none_iff_exists'.mp (searchRows_ne_none member fun _ row => row.2)

/-- A host that falls under a row is routed to the group of the row: its name is no group's. -/
theorem indexOf_of_mem_matching {s : Selector F} (clear : Unambiguous s.table) {host : String}
    {r : Route} (member : r ∈ s.table.matching host) : s.indexOf host = some r.group := by
  obtain ⟨h, group, row, falls⟩ := of_mem_matching_table member
  obtain ⟨bound, here⟩ := List.getElem?_eq_some_iff.mp group
  refine List.findIdx?_eq_some_iff_getElem.mpr ⟨bound, ?_, ?_⟩
  · rw [here, Bool.or_eq_true, List.any_eq_true]
    exact .inr ⟨_, row, falls⟩
  · intro j before
    have other : s.hosts[j]? = some s.hosts[j] := List.getElem?_eq_getElem _
    rw [Bool.or_eq_true, List.any_eq_true, not_or]
    constructor
    · rw [eqIgnoreAsciiCase, beq_iff_eq]
      intro named
      have lower : toAsciiLowercase (normalizeHost host) = normalizeHost host := by
        simp [normalizeHost]
      rw [lower] at named
      apply clear.unnamed s.hosts[j].hostDef.routes
        (List.mem_map_of_mem (List.getElem_mem _)) r (mem_matching.mp member).1
      rw [HostDef.routes, named]
      exact (mem_matching.mp member).2
    · rintro ⟨row', inMap, matched⟩
      have same := clear.unique member (mem_matching_table other inMap matched)
      have equal : r.group = j := congrArg Route.group same
      omega

/-- On an unambiguous table the three searches agree on a managed host, and lead from its
upstream host back to the same group. -/
theorem routed_of_hostFor {s : Selector F} (clear : Unambiguous s.table) {host : String}
    {d : HostDef} (managed : s.hostFor host = some d) :
    ∃ r h, s.table.matching host = [r] ∧ s.hosts[r.group]? = some h ∧ h.hostDef = d ∧
      s.upstreamHostFor host = some r.upstream ∧ s.indexOf host = some r.group ∧
      s.indexOf r.upstream = some r.group ∧ s.upstreamPort r.upstream = some d.upstreamPort := by
  obtain ⟨r, member, h, group, sameDef⟩ := of_hostFor managed
  obtain ⟨upstream, rewrites⟩ := upstreamHostFor_isSome member
  obtain ⟨r', member', sameUpstream⟩ := of_upstreamHostFor rewrites
  obtain rfl := clear.unique member member'
  obtain ⟨r'', route, sameGroup, falls⟩ := clear.rewritten r (mem_matching.mp member).1
  have back : s.indexOf r.upstream = some r.group := by
    rw [indexOf_of_mem_matching clear (mem_matching.mpr ⟨route, falls⟩), sameGroup]
  refine ⟨r, h, clear.matching_eq member, group, sameDef, by rw [rewrites, sameUpstream],
    indexOf_of_mem_matching clear member, back, ?_⟩
  simp [upstreamPort, innerFor, back, group, sameDef]

/-! ## Names as keys -/

/-- Every group is routed to by its own name. -/
def NamesRouted (s : Selector F) : Prop :=
  ∀ (g : Nat) (h : HostStateInner F), s.hosts[g]? = some h → s.indexOf h.hostDef.name = some g

/-- So it is when names have no trailing dots, differ by more than case and fall under no
domain. -/
theorem namesRouted_of_unambiguous {s : Selector F} (clear : Unambiguous s.table)
    (plain : ∀ t ∈ s.table, normalizeHost t.1 = toAsciiLowercase t.1)
    (apart : s.table.Pairwise fun t t' => toAsciiLowercase t.1 ≠ toAsciiLowercase t'.1) :
    s.NamesRouted := by
  intro g h group
  obtain ⟨bound, here⟩ := List.getElem?_eq_some_iff.mp group
  have listed : h.hostDef.routes ∈ s.table :=
    List.mem_map.mpr ⟨h, List.mem_of_getElem? group, rfl⟩
  have normal : normalizeHost h.hostDef.name = toAsciiLowercase h.hostDef.name :=
    plain h.hostDef.routes listed
  refine List.findIdx?_eq_some_iff_getElem.mpr ⟨bound, ?_, ?_⟩
  · rw [here, Bool.or_eq_true]
    left
    rw [eqIgnoreAsciiCase, beq_iff_eq, normal, toAsciiLowercase_idem]
  · intro j before
    have within : j < s.hosts.length := Nat.lt_trans before bound
    rw [Bool.or_eq_true, List.any_eq_true, not_or]
    constructor
    · rw [eqIgnoreAsciiCase, beq_iff_eq, normal, toAsciiLowercase_idem]
      have different := List.pairwise_iff_getElem.mp (List.pairwise_map.mp apart) j g within bound
        before
      rw [here] at different
      exact different
    · rintro ⟨row, inMap, matched⟩
      have other : s.hosts[j]? = some s.hosts[j] := List.getElem?_eq_getElem within
      have route := mem_matching.mp (mem_matching_table other inMap matched)
      apply clear.unnamed _ listed _ route.1
      have falls := route.2
      unfold Route.Matches at falls
      rwa [normal] at falls

end Selector
end XboxProxy
