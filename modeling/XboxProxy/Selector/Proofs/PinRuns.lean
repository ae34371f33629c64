import XboxProxy.Selector.Proofs.History

/-!
# Pinning and restoring over sequential runs

The three views of a group agree after every sequence of calls executed one at a time: the
candidates, `pinned_ip`, and the definitions that `defs` and `def_for_host` report.
-/

namespace XboxProxy
open Misc

namespace Selector

variable {F : Type}

/-- A single candidate is chosen whatever has been recorded about it. -/
theorem bestCandidate_singleton [Float64 F] (c : CandidateState F) (now penalty : Nat) :
    bestCandidate [c] now penalty = some c := by
  unfold bestCandidate
  by_cases healthy : penalty < now - c.lastFailTs <;> simp [healthy, maxBy]

/-- A pinned group routes to its pin. -/
theorem bestIp_of_single [Float64 F] {s : Selector F} {host : String} {g : Nat}
    {h : HostStateInner F} {p : IpAddr} (routed : s.indexOf host = some g)
    (group : s.hosts[g]? = some h) (single : h.candidates.map (·.ip) = [p]) (now : Nat) :
    s.bestIp host now = some p := by
  obtain ⟨c, candidates, rfl⟩ : ∃ c, h.candidates = [c] ∧ c.ip = p := by
    cases list : h.candidates with
    | nil => simp [list] at single
    | cons c cs =>
      rw [list] at single
      simp only [List.map_cons, List.cons.injEq, List.map_eq_nil_iff] at single
      exact ⟨c, by rw [single.2], single.1⟩
  have inner : s.innerFor host = some h := by rw [innerFor, routed]; exact group
  simp [bestIp, inner, candidates, bestCandidate_singleton]

/-- A failed `set_pinned_ip` writes nothing. -/
theorem setPinnedIp_error {s : Selector F} {name : String} {ip : Option IpAddr}
    {e : SelectorError} (failed : (s.setPinnedIp name ip).1 = .error e) :
    (s.setPinnedIp name ip).2 = s := by
  unfold setPinnedIp at failed ⊢
  cases target : s.pinTarget name ip with
  | error e => rfl
  | ok pair => simp [target] at failed

theorem pinIps_ne_nil {ips : List IpAddr} (nonempty : ips ≠ []) (pin : Option IpAddr) :
    pinIps ips pin ≠ [] := by
  cases pin with
  | none => exact nonempty
  | some p => simp [pinIps]

theorem defForHost_of_indexOf {s : Selector F} {host : String} {g : Nat}
    (routed : s.indexOf host = some g) : s.defForHost host = s.defs[g]? := by
  unfold defForHost innerFor defs
  rw [routed, List.getElem?_map]
  rfl

/-- The definition a group reports, with the addresses the log leaves it. -/
theorem getElem?_defs_runCalls {defs : List HostDef} (distinct : ∀ d ∈ defs, d.ips.Nodup)
    (penalty : Nat) (calls : List (SelectorCall F)) {g : Nat} {d : HostDef}
    (hd : defs[g]? = some d) :
    ((new (F := F) defs penalty).runCalls calls).defs[g]? =
      some { d with ips := pinIps d.ips ((new (F := F) defs penalty).lastPin g calls).join } := by
  rw [Selector.defs, List.getElem?_map, runCalls_group distinct penalty calls hd]
  simp only [Option.map_some, liveDef, map_ip_groupAfter]
  rfl

/-- Pin and restore over whole runs: the addresses of a group are those of its last
successful pin, all views of the group report them, a pinned group routes to its pin, a
failed pin changes nothing and no call changes another group. -/
theorem pin_and_restore [Float64 F] (defs : List HostDef)
    (wellFormed : ∀ d ∈ defs, d.WellFormed) (penalty : Nat)
    (calls : List (SelectorCall F)) :
    let start : Selector F := new defs penalty
    let s := start.runCalls calls
    (∀ g d, defs[g]? = some d →
      let ips := pinIps d.ips (start.lastPin g calls).join
      ips ≠ [] ∧ ips.Nodup ∧
      (∃ h, s.hosts[g]? = some h ∧ h.pinnedIp = (start.lastPin g calls).join ∧
        h.candidates.map (·.ip) = ips) ∧
      s.defs[g]? = some { d with ips } ∧
      (∀ host, s.indexOf host = some g → s.defForHost host = some { d with ips }) ∧
      ∀ p, start.lastPin g calls = some (some p) →
        ∀ host now, s.indexOf host = some g → s.bestIp host now = some p) ∧
    (∀ name ip e, (s.setPinnedIp name ip).1 = .error e → (s.setPinnedIp name ip).2 = s) ∧
    ∀ c g, s.indexOf c.key ≠ some g → (s.call c).hosts[g]? = s.hosts[g]? := by
  intro start s
  refine ⟨?_, fun name ip e failed => setPinnedIp_error failed,
    fun c g elsewhere => getElem?_call_of_ne elsewhere⟩
  intro g d hd ips
  have distinct : ∀ d ∈ defs, d.ips.Nodup := fun d member => (wellFormed d member).2
  obtain ⟨nonempty, nodup⟩ := wellFormed d (List.mem_of_getElem? hd)
  have group := runCalls_group (F := F) distinct penalty calls hd
  have listed := getElem?_defs_runCalls (F := F) distinct penalty calls hd
  refine ⟨pinIps_ne_nil nonempty _, nodup_pinIps nodup _,
    ⟨_, group, rfl, map_ip_groupAfter ..⟩, listed, ?_, ?_⟩
  · intro host routed
    rw [defForHost_of_indexOf routed]
    exact listed
  · intro p pinned host now routed
    apply bestIp_of_single routed group
    rw [map_ip_groupAfter, pinned]
    rfl

/-- The run of the unit test `dashboard_pin_replaces_candidates_and_can_restore`, up to the
restore, with a late result of an address that is no longer listed. -/
theorem pin_and_restore_cdn :
    ((new (F := ℚ) [testDef [.v4 1 1 1 1, .v4 2 2 2 2]] 60).runCalls
        [.setPinnedIp "t" (some (.v4 9 9 9 9)),
          .markFailure "cdn.example.com" (.v4 1 1 1 1) 5]).bestIp "cdn.example.com" 6 =
      some (.v4 9 9 9 9) := by
  obtain ⟨groups, -⟩ := pin_and_restore (F := ℚ) [testDef [.v4 1 1 1 1, .v4 2 2 2 2]] (by decide) 60
    [.setPinnedIp "t" (some (.v4 9 9 9 9)), .markFailure "cdn.example.com" (.v4 1 1 1 1) 5]
  exact (groups 0 _ rfl).2.2.2.2.2 (.v4 9 9 9 9) (by rfl) "cdn.example.com" 6 (by rfl)

end Selector
end XboxProxy
