import XboxProxy.Selector.Concurrent
import XboxProxy.Selector.Proofs.PinRuns

/-!
# Pin coherence under overlapping calls

A group is coherent when its candidates are the addresses its `pinned_ip` stands for. Calls
that overlap on one group can leave it incoherent for good: the last to write `pinned_ip`
need not be the last to write `candidates`. The invariant below is kept by every other
interleaving.
-/

namespace XboxProxy
open Misc

/-- The candidates of the group are the ones its `pinned_ip` stands for. -/
def HostStateInner.Coherent {F : Type} (h : HostStateInner F) : Prop :=
  h.candidates.map (·.ip) = Selector.pinIps h.bundledIps h.pinnedIp

/-- The call has still to write the candidates of group `g`, and the list it brings is the
one `pinned_ip` stands for then. -/
def PinCall.Covers {F : Type} (c : PinCall) (g : Nat) (h : HostStateInner F) : Prop :=
  c.index = g ∧
    (c.stage = .pinnedIp ∨ c.stage = .candidates ∧ c.ips = Selector.pinIps h.bundledIps h.pinnedIp)

instance {F : Type} (c : PinCall) (g : Nat) (h : HostStateInner F) : Decidable (c.Covers g h) :=
  inferInstanceAs (Decidable (c.index = g ∧ (_ ∨ _)))

namespace Overlap
open Selector

variable {F : Type}

/-! ## Every interleaving -/

/-- The states of an interleaving are reachable, and every call brings the list of its own
target. -/
structure Tracked (defs : List HostDef) (penalty : Nat) (s : Overlap F) : Prop where
  reachable : Reachable defs penalty s.selector
  targets : ∀ c ∈ s.calls, ∃ name, s.selector.pinTarget name c.ip = .ok (c.index, c.ips)

theorem Tracked.start (defs : List HostDef) (penalty : Nat) :
    Tracked defs penalty (Overlap.start (F := F) defs penalty) :=
  ⟨.new, by simp [Overlap.start]⟩

/-- A step that changes the selector and the stage of one call keeps the targets. -/
theorem Tracked.targets_set {defs : List HostDef} {penalty : Nat} {s : Overlap F}
    (tracked : Tracked defs penalty s) {selector : Selector F}
    (same : SameGroups selector s.selector) {k : Nat} {c : PinCall} (found : s.calls[k]? = some c)
    (stage : PinStage) : ∀ b ∈ s.calls.set k { c with stage },
      ∃ name, selector.pinTarget name b.ip = .ok (b.index, b.ips) := by
  intro b member
  rcases List.mem_or_eq_of_mem_set member with member | rfl
  · obtain ⟨name, target⟩ := tracked.targets b member
    exact ⟨name, by rw [same.pinTarget]; exact target⟩
  · obtain ⟨name, target⟩ := tracked.targets c (List.mem_of_getElem? found)
    exact ⟨name, by rw [same.pinTarget]; exact target⟩

theorem Tracked.step {defs : List HostDef} {penalty : Nat} {s t : Overlap F}
    {a : OverlapAction F} (tracked : Tracked defs penalty s)
    (stepped : Overlap.step s a = some t) : Tracked defs penalty t := by
  obtain rfl | ⟨name, ip, index, ips, target, rfl⟩ | ⟨k, c, rfl, found, stage, rfl⟩ |
    ⟨k, c, rfl, found, stage, rfl⟩ | ⟨host, ip, latencyMs, speedKbps, success, now, rfl⟩ :=
    step_cases stepped
  · exact tracked
  · refine ⟨tracked.reachable, ?_⟩
    intro c member
    rcases List.mem_append.mp member with member | member
    · exact tracked.targets c member
    · obtain rfl := List.mem_singleton.mp member
      exact ⟨name, target⟩
  · exact ⟨.writePinnedIp _ _ tracked.reachable,
      tracked.targets_set (sameGroups_writePinnedIp _ _ _) found _⟩
  · obtain ⟨name, target⟩ := tracked.targets c (List.mem_of_getElem? found)
    exact ⟨.writeCandidates tracked.reachable target,
      tracked.targets_set (sameGroups_writeCandidates _ _ _) found _⟩
  · have same := sameGroups_updateResult s.selector host ip latencyMs speedKbps success now
    refine ⟨.updateResult _ _ _ _ _ _ tracked.reachable, ?_⟩
    intro c member
    obtain ⟨name, target⟩ := tracked.targets c member
    exact ⟨name, by rw [same.pinTarget]; exact target⟩

/-! ## Interleavings that write the candidates in order -/

/-- Every group is coherent, or some call in progress will make it so. -/
def Settled (s : Overlap F) : Prop :=
  ∀ g h, s.selector.hosts[g]? = some h → h.Coherent ∨ ∃ c ∈ s.calls, c.Covers g h

/-- The list that call `k` is about to write is the one the group's `pinned_ip` stands for,
or another call in progress on the group will write that one. -/
def InOrder (s : Overlap F) (k : Nat) (c : PinCall) : Prop :=
  ∀ h ∈ s.selector.hosts[c.index]?, c.ips = pinIps h.bundledIps h.pinnedIp ∨
    ∃ other ∈ s.calls.eraseIdx k, other.Covers c.index h

/-- A step that writes candidates writes them in order. -/
def WritesInOrder (s : Overlap F) : OverlapAction F → Prop
  | .resume k => ∀ c ∈ s.calls[k]?, c.stage = .candidates → s.InOrder k c
  | _ => True

instance (s : Overlap F) (k : Nat) (c : PinCall) : Decidable (s.InOrder k c) :=
  inferInstanceAs (Decidable (∀ h ∈ s.selector.hosts[c.index]?, _ ∨ _))

instance (s : Overlap F) : (a : OverlapAction F) → Decidable (s.WritesInOrder a)
  | .resume k =>
    inferInstanceAs (Decidable (∀ c ∈ s.calls[k]?, c.stage = .candidates → s.InOrder k c))
  | .setPinnedIp .. | .updateResult .. | .markFailure .. | .bestIp .. => .isTrue trivial

theorem settled_start (defs : List HostDef) (penalty : Nat) :
    Settled (start (F := F) defs penalty) := by
  intro g h group
  rw [start, getElem?_new] at group
  obtain ⟨d, -, rfl⟩ := Option.map_eq_some_iff.mp group
  left
  simp [HostStateInner.Coherent, pinIps, freshCandidates, Function.comp_def]

/-- A step of call `k` does not touch what covers the other groups. -/
theorem Settled.of_other {s : Overlap F} (settled : Settled s) {k : Nat} {c : PinCall}
    (found : s.calls[k]? = some c) {g : Nat} (elsewhere : c.index ≠ g) {h : HostStateInner F}
    (group : s.selector.hosts[g]? = some h) (stage : PinStage) :
    h.Coherent ∨ ∃ b ∈ s.calls.set k { c with stage }, b.Covers g h := by
  rcases settled g h group with coherent | ⟨b, member, covers⟩
  · exact .inl coherent
  · right
    rcases List.mem_cons.mp ((perm_cons_eraseIdx found).mem_iff.mp member) with rfl | other
    · exact absurd covers.1 elsewhere
    · exact ⟨b, (perm_set found _).mem_iff.mpr (List.mem_cons_of_mem _ other), covers⟩

theorem Settled.step {defs : List HostDef} {penalty : Nat} {s t : Overlap F}
    {a : OverlapAction F} (tracked : Tracked defs penalty s) (settled : Settled s)
    (inOrder : WritesInOrder s a) (stepped : Overlap.step s a = some t) : Settled t := by
  obtain rfl | ⟨name, ip, index, ips, target, rfl⟩ | ⟨k, c, rfl, found, stage, rfl⟩ |
    ⟨k, c, rfl, found, stage, rfl⟩ | ⟨host, ip, latencyMs, speedKbps, success, now, rfl⟩ :=
    step_cases stepped <;> intro g h group
  · exact settled g h group
  · rcases settled g h group with coherent | ⟨b, member, covers⟩
    · exact .inl coherent
    · exact .inr ⟨b, List.mem_append_left _ member, covers⟩
  · -- the call has now set the pin that its list is for
    simp only [writePinnedIp, getElem?_modifyGroup] at group
    by_cases here : c.index = g
    · rw [if_pos here] at group
      obtain ⟨before, before_eq, rfl⟩ := Option.map_eq_some_iff.mp group
      obtain ⟨name, target⟩ := tracked.targets c (List.mem_of_getElem? found)
      have bound := (List.getElem?_eq_some_iff.mp found).1
      have listed : c.ips = pinIps before.bundledIps c.ip := pinTarget_ips target (here ▸ before_eq)
      exact .inr ⟨{ c with stage := .candidates }, List.mem_set bound _, here, .inr ⟨rfl, listed⟩⟩
    · rw [if_neg here] at group
      exact settled.of_other found here group _
  · simp only [writeCandidates, getElem?_modifyGroup] at group
    by_cases here : c.index = g
    · rw [if_pos here] at group
      obtain ⟨before, before_eq, rfl⟩ := Option.map_eq_some_iff.mp group
      rcases inOrder c found stage before (here ▸ before_eq) with listed | ⟨b, other, covers⟩
      · left
        simpa [HostStateInner.Coherent, freshCandidates, Function.comp_def] using listed
      · right
        exact ⟨b, (perm_set found _).mem_iff.mpr (List.mem_cons_of_mem _ other), here ▸ covers⟩
    · rw [if_neg here] at group
      exact settled.of_other found here group _
  · obtain ⟨before, found, fixed, pinned, ips⟩ := of_getElem?_updateResult group
    have bundled : h.bundledIps = before.bundledIps := congrArg Prod.snd fixed
    rcases settled g before found with coherent | ⟨b, member, covers⟩
    · left
      rw [HostStateInner.Coherent, ips, bundled, pinned]
      exact coherent
    · right
      refine ⟨b, member, ?_⟩
      rw [PinCall.Covers, bundled, pinned]
      exact covers

theorem coherent_of_idle {s : Overlap F} (settled : Settled s) (idle : s.Idle) {g : Nat}
    {h : HostStateInner F} (group : s.selector.hosts[g]? = some h) : h.Coherent := by
  rcases settled g h group with coherent | ⟨c, member, covers⟩
  · exact coherent
  · have returned := idle c member
    simp [PinCall.Covers, returned] at covers

/-- In an interleaving whose calls write the candidates in order, whenever no
`set_pinned_ip` call is in progress every group has the candidates its `pinned_ip` stands
for, and a pinned group routes to its pin. -/
theorem coherent_of_writesInOrder [Float64 F] (defs : List HostDef) (penalty : Nat)
    (actions : List (OverlapAction F)) (t : Overlap F)
    (inOrder : AlongSteps step WritesInOrder (start defs penalty) actions)
    (reached : run step (start defs penalty) actions = some t) (idle : t.Idle) (g : Nat)
    (h : HostStateInner F) (group : t.selector.hosts[g]? = some h) :
    (h.pinnedIp = none → h.candidates.map (·.ip) = h.bundledIps) ∧
    ∀ p, h.pinnedIp = some p → h.candidates.map (·.ip) = [p] ∧
      ∀ host now, t.selector.indexOf host = some g → t.selector.bestIp host now = some p := by
  have both : Tracked defs penalty t ∧ Settled t := by
    apply run_invariant_of_alongSteps ?_ ⟨.start defs penalty, settled_start defs penalty⟩
      inOrder reached
    intro s a u inv allowed stepped
    exact ⟨inv.1.step stepped, inv.2.step inv.1 allowed stepped⟩
  have coherent : h.candidates.map (·.ip) = pinIps h.bundledIps h.pinnedIp :=
    coherent_of_idle both.2 idle group
  constructor
  · intro unpinned
    rw [coherent, unpinned]
    rfl
  · intro p pinned
    have single : h.candidates.map (·.ip) = [p] := by rw [coherent, pinned]; rfl
    exact ⟨single, fun host now routed => bestIp_of_single routed group single now⟩

/-- A pin and a restore that overlap in order: the pin writes the candidates while the
restore, which wrote `pinned_ip` last, still has its own candidates to write. -/
theorem coherent_of_writesInOrder_restore :
    ∃ t, run step (start (F := ℚ) [testDef [.v4 1 1 1 1, .v4 2 2 2 2]] 60)
        [.setPinnedIp "t" (some (.v4 9 9 9 9)), .setPinnedIp "t" none, .resume 0, .resume 1,
          .resume 0, .markFailure "t" (.v4 9 9 9 9) 5, .resume 1] = some t ∧
      ∀ h, t.selector.hosts[0]? = some h → h.pinnedIp = none →
        h.candidates.map (·.ip) = h.bundledIps := by
  refine ⟨_, rfl, fun h group => ?_⟩
  exact (coherent_of_writesInOrder (F := ℚ) [testDef [.v4 1 1 1 1, .v4 2 2 2 2]] 60
    [.setPinnedIp "t" (some (.v4 9 9 9 9)), .setPinnedIp "t" none, .resume 0, .resume 1,
      .resume 0, .markFailure "t" (.v4 9 9 9 9) 5, .resume 1] _
    (by decide) rfl (by unfold Idle; decide) 0 h group).1

/-- The interleaving that leaves a group incoherent: the restore runs between the two writes
of a pin, and the dashboard shows no pin while traffic goes to the pinned address. -/
theorem incoherent_of_interleaved_restore :
    ∃ t h, run step (start (F := ℚ) [testDef [.v4 1 1 1 1, .v4 2 2 2 2]] 60)
        [.setPinnedIp "t" (some (.v4 9 9 9 9)), .setPinnedIp "t" none, .resume 0, .resume 1,
          .resume 1, .resume 0] = some t ∧
      t.Idle ∧ t.selector.hosts[0]? = some h ∧ h.pinnedIp = none ∧
      h.candidates.map (·.ip) ≠ h.bundledIps := by
  refine ⟨_, _, rfl, ?_, rfl, rfl, ?_⟩
  · unfold Idle
    decide
  · decide

end Overlap
end XboxProxy
