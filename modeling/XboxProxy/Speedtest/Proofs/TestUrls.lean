import XboxProxy.Dashboard
import XboxProxy.Proxy.Proofs.OneGroup
import XboxProxy.Selector.Proofs.Choice
import XboxProxy.Speedtest.Pass

/-!
# Test URLs

The dashboard checks the host of a test URL with `host_for`, the pass selects a group by it with
`index_of`. They agree on every URL but those whose host is the name of a group.
-/

namespace XboxProxy
open Misc

/-- The group `run_speedtest` finds for a URL. -/
def gateDef {F : Type} (parse : String → Option Uri) (s : Selector F) (raw : String) :
    Option HostDef :=
  (parse raw).bind fun uri => s.hostFor (uri.host.getD "")

/-- A URL is passed on, without the spaces around it, if there is such a group. -/
theorem runSpeedtest_eq_ok_iff {F : Type} (parse : String → Option Uri) (s : Selector F)
    (url : String) (visible : trim url ≠ "") :
    runSpeedtest parse s false false (some url) = .ok (some (trim url)) ↔
      (gateDef parse s (trim url)).isSome := by
  have given : ((some url).map trim).filter (· ≠ "") = some (trim url) := by
    simp [Option.filter, visible]
  unfold runSpeedtest gateDef
  simp only [given]
  cases parse (trim url) with
  | none => simp
  | some uri => cases found : s.hostFor (uri.host.getD "") <;> simp [found]

/-- Trailing dots and case aside, the host of the URL is the name of a group. -/
def NamesGroup {F : Type} (parse : String → Option Uri) (s : Selector F) (raw : String) : Prop :=
  ∃ uri host, parse raw = some uri ∧ uri.host = some host ∧
    ∃ h ∈ s.hosts, toAsciiLowercase h.hostDef.name = normalizeHost host

namespace Selector
variable {F : Type} {s : Selector F}

/-- `index_of` finds the managed hosts and the names of the groups. -/
theorem indexOf_isSome_iff {host : String} :
    (s.indexOf host).isSome ↔
      (∃ h ∈ s.hosts, toAsciiLowercase h.hostDef.name = normalizeHost host) ∨
        (s.hostFor host).isSome := by
  have lower : toAsciiLowercase (normalizeHost host) = normalizeHost host := by
    simp [normalizeHost]
  constructor
  · intro found
    unfold indexOf at found
    rw [List.findIdx?_isSome, List.any_eq_true] at found
    obtain ⟨h, inHosts, found⟩ := found
    rcases Bool.or_eq_true_iff.mp found with named | covered
    · rw [eqIgnoreAsciiCase, lower, beq_iff_eq] at named
      exact .inl ⟨h, inHosts, named⟩
    · obtain ⟨row, inMap, falls⟩ := List.any_eq_true.mp covered
      obtain ⟨g, group⟩ := List.mem_iff_getElem?.mp inHosts
      right
      rw [Option.isSome_iff_ne_none, Ne, ← matching_eq_nil_iff]
      exact List.ne_nil_of_mem (mem_matching_table group inMap falls)
  · rintro (⟨h, inHosts, named⟩ | managed)
    · unfold indexOf
      rw [List.findIdx?_isSome, List.any_eq_true]
      refine ⟨h, inHosts, ?_⟩
      rw [eqIgnoreAsciiCase, lower, named, beq_self_eq_true, Bool.true_or]
    · exact indexOf_isSome_of_hostFor managed

/-- On an unambiguous table no host is both. -/
theorem hostFor_of_named (clear : Unambiguous s.table) {host : String} {h : HostStateInner F}
    (inHosts : h ∈ s.hosts) (named : toAsciiLowercase h.hostDef.name = normalizeHost host) :
    s.hostFor host = none := by
  rw [← matching_eq_nil_iff, List.eq_nil_iff_forall_not_mem]
  intro r member
  obtain ⟨row, falls⟩ := mem_matching.mp member
  apply clear.unnamed h.hostDef.routes (List.mem_map.mpr ⟨h, inHosts, rfl⟩) r row
  rw [HostDef.routes, named]
  exact falls

end Selector

section Gate
variable {F : Type} {parse : String → Option Uri} {s : Selector F} {raw : String}

theorem targetDefs_eq_some_iff {defs : List HostDef} {overrideUri : Option Uri} :
    targetDefs parse s (some raw) = some (defs, overrideUri) ↔
      ∃ uri host g h, parse raw = some uri ∧ uri.host = some host ∧ s.indexOf host = some g ∧
        s.hosts[g]? = some h ∧ defs = [Selector.liveDef h] ∧ overrideUri = some uri := by
  simp only [targetDefs, Selector.defForHost, Selector.innerFor, Option.bind_eq_bind,
    Option.bind_eq_some_iff, Option.map_eq_some_iff, Option.pure_def, Option.some.injEq,
    Prod.mk.injEq]
  constructor
  · rintro ⟨uri, parsed, host, named, _, ⟨h, ⟨g, routed, group⟩, rfl⟩, rfl, rfl⟩
    exact ⟨uri, host, g, h, parsed, named, routed, group, rfl, rfl⟩
  · rintro ⟨uri, host, g, h, parsed, named, routed, group, rfl, rfl⟩
    exact ⟨uri, parsed, host, named, _, ⟨h, ⟨g, routed, group⟩, rfl⟩, rfl, rfl⟩

/-- A URL selects a group if its host is managed or names a group. -/
theorem targetDefs_isSome_iff :
    (targetDefs parse s (some raw)).isSome ↔ NamesGroup parse s raw ∨
      ∃ uri host, parse raw = some uri ∧ uri.host = some host ∧ (s.hostFor host).isSome := by
  constructor
  · intro selected
    obtain ⟨⟨defs, overrideUri⟩, target⟩ := Option.isSome_iff_exists.mp selected
    obtain ⟨uri, host, g, -, parsed, named, routed, -⟩ := targetDefs_eq_some_iff.mp target
    have found : (s.indexOf host).isSome := by rw [routed]; rfl
    rcases Selector.indexOf_isSome_iff.mp found with group | managed
    · exact .inl ⟨uri, host, parsed, named, group⟩
    · exact .inr ⟨uri, host, parsed, named, managed⟩
  · intro selects
    obtain ⟨uri, host, parsed, named, found⟩ :
        ∃ uri host, parse raw = some uri ∧ uri.host = some host ∧ (s.indexOf host).isSome := by
      rcases selects with ⟨uri, host, parsed, named, group⟩ | ⟨uri, host, parsed, named, managed⟩
      · exact ⟨uri, host, parsed, named, Selector.indexOf_isSome_iff.mpr (.inl group)⟩
      · exact ⟨uri, host, parsed, named, Selector.indexOf_isSome_iff.mpr (.inr managed)⟩
    obtain ⟨g, routed⟩ := Option.isSome_iff_exists.mp found
    obtain ⟨h, group⟩ := Selector.exists_group routed
    rw [targetDefs_eq_some_iff.mpr ⟨uri, host, g, h, parsed, named, routed, group, rfl, rfl⟩]
    rfl

/-- The dashboard and the pass agree on a URL: both take it or neither does, and if they do it
selects the group the dashboard has found, with the addresses that are its candidates now. -/
structure GateAgrees (parse : String → Option Uri) (s : Selector F) (raw : String) : Prop where
  accepts : (gateDef parse s raw).isSome ↔ (targetDefs parse s (some raw)).isSome
  group : ∀ d defs overrideUri, gateDef parse s raw = some d →
    targetDefs parse s (some raw) = some (defs, overrideUri) →
    ∃ h ∈ s.hosts, h.hostDef = d ∧ defs = [{ d with ips := h.candidates.map (·.ip) }]

/-- A URL without a host is not accepted. -/
theorem gateDef_eq_some_iff (sameTable : s.table = bundledTable) {d : HostDef} :
    gateDef parse s raw = some d ↔
      ∃ uri host, parse raw = some uri ∧ uri.host = some host ∧ s.hostFor host = some d := by
  have nowhere : s.hostFor "" = none := by
    rw [← Selector.matching_eq_nil_iff, sameTable]
    decide
  unfold gateDef
  rw [Option.bind_eq_some_iff]
  constructor
  · rintro ⟨uri, parsed, found⟩
    cases named : uri.host with
    | none =>
      rw [named, Option.getD_none, nowhere] at found
      cases found
    | some host =>
      rw [named] at found
      exact ⟨uri, host, parsed, named, found⟩
  · rintro ⟨uri, host, parsed, named, found⟩
    exact ⟨uri, parsed, by rw [named]; exact found⟩

/-- With the bundled groups, in every reachable state, the two agree on every URL whose host
is not the name of a group, and on no other. -/
theorem gateAgrees_iff (parse : String → Option Uri) {defs : List HostDef}
    (bundled : defs.map HostDef.routes = bundledTable) {penalty : Nat} (s : Selector F)
    (reachable : s.Reachable defs penalty) (raw : String) :
    GateAgrees parse s raw ↔ ¬ NamesGroup parse s raw := by
  have sameTable := table_of_reachable bundled reachable
  have clear : Unambiguous s.table := by
    rw [sameTable]
    exact unambiguous_bundledTable
  constructor
  · rintro agrees ⟨uri, host, parsed, named, h, inHosts, sameName⟩
    have selected : (targetDefs parse s (some raw)).isSome :=
      targetDefs_isSome_iff.mpr (.inl ⟨uri, host, parsed, named, h, inHosts, sameName⟩)
    obtain ⟨d, accepted⟩ := Option.isSome_iff_exists.mp (agrees.accepts.mpr selected)
    obtain ⟨uri', host', parsed', named', found⟩ := (gateDef_eq_some_iff sameTable).mp accepted
    obtain rfl : uri = uri' := Option.some.inj (parsed.symm.trans parsed')
    obtain rfl : host = host' := Option.some.inj (named.symm.trans named')
    rw [Selector.hostFor_of_named clear inHosts sameName] at found
    cases found
  · intro unnamed
    constructor
    · rw [targetDefs_isSome_iff, or_iff_right unnamed]
      simp only [Option.isSome_iff_exists, gateDef_eq_some_iff sameTable]
      constructor
      · rintro ⟨d, uri, host, parsed, named, found⟩
        exact ⟨uri, host, parsed, named, d, found⟩
      · rintro ⟨uri, host, parsed, named, d, found⟩
        exact ⟨d, uri, host, parsed, named, found⟩
    · intro d selected overrideUri accepted target
      obtain ⟨uri, host, parsed, named, found⟩ := (gateDef_eq_some_iff sameTable).mp accepted
      obtain ⟨uri', host', g, h, parsed', named', routed, group, rfl, -⟩ :=
        targetDefs_eq_some_iff.mp target
      obtain rfl : uri = uri' := Option.some.inj (parsed.symm.trans parsed')
      obtain rfl : host = host' := Option.some.inj (named.symm.trans named')
      obtain ⟨r, row, -⟩ := exists_row_of_hostFor sameTable (by rw [found]; rfl)
      obtain ⟨h', group', found', -, routed', -⟩ := routed_of_row sameTable row
      obtain rfl : g = r.group := Option.some.inj (routed.symm.trans routed')
      obtain rfl : h = h' := Option.some.inj (group.symm.trans group')
      have sameDef : h.hostDef = d := Option.some.inj (found'.symm.trans found)
      refine ⟨h, List.mem_of_getElem? group, sameDef, ?_⟩
      rw [← sameDef]
      rfl

end Gate

theorem gateAgrees_iff_assets :
    GateAgrees splitUri (Selector.new (F := ℚ) assetDefs 60) "http://xbox-assets/x" ↔
      ¬ NamesGroup splitUri (Selector.new (F := ℚ) assetDefs 60) "http://xbox-assets/x" :=
  gateAgrees_iff splitUri (by rfl) (.new assetDefs 60) .new "http://xbox-assets/x"

/-- The name of a group is no managed host, and the pass takes it for one. -/
theorem gate_disagrees_on_name :
    gateDef splitUri (Selector.new (F := ℚ) assetDefs 60) "http://xbox-assets/x" = none ∧
      ((targetDefs splitUri (Selector.new (F := ℚ) assetDefs 60)
        (some "http://xbox-assets/x")).map fun t => t.1.map (·.name)) = some ["xbox-assets"] := by
  decide

end XboxProxy
