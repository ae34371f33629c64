import XboxProxy.Selector

/-!
# Sequences of selector calls

The calls that change a selector and what each of them can do to a group. Routing
(`index_of`, `host_for`, `upstream_host_for`) reads the definitions only, which no call
changes, so a log of calls is routed the same way wherever it is read.
-/

namespace XboxProxy
open Misc

/-- A call of one of the methods that take a write lock, with the clock it reads. -/
inductive SelectorCall (F : Type) where
  | updateResult (host : String) (ip : IpAddr) (latencyMs : Option Nat) (speedKbps : Option F)
      (success : Bool) (now : Nat)
  | markFailure (host : String) (ip : IpAddr) (now : Nat)
  | setPinnedIp (name : String) (ip : Option IpAddr)

/-- The string `index_of` routes a call by. -/
def SelectorCall.key {F : Type} : SelectorCall F → String
  | .updateResult host .. => host
  | .markFailure host .. => host
  | .setPinnedIp name _ => name

/-- The part of a group that is fixed when the selector is built. -/
def HostStateInner.fixed {F : Type} (h : HostStateInner F) : HostDef × List IpAddr :=
  (h.hostDef, h.bundledIps)

namespace Selector

variable {F : Type}

/-- The state after a call; the result of `set_pinned_ip` is dropped. -/
def call (s : Selector F) : SelectorCall F → Selector F
  | .updateResult host ip latencyMs speedKbps success now =>
    s.updateResult host ip latencyMs speedKbps success now
  | .markFailure host ip now => s.markFailure host ip now
  | .setPinnedIp name ip => (s.setPinnedIp name ip).2

/-- The state after calls executed one at a time. -/
def runCalls (s : Selector F) (calls : List (SelectorCall F)) : Selector F :=
  calls.foldl call s

@[simp] theorem runCalls_nil (s : Selector F) : s.runCalls [] = s := rfl

@[simp] theorem runCalls_append (s : Selector F) (calls : List (SelectorCall F))
    (c : SelectorCall F) : s.runCalls (calls ++ [c]) = (s.runCalls calls).call c := by
  simp [runCalls]

/-- A write to one group leaves the others as they are. -/
theorem getElem?_modifyGroup (s : Selector F) (i j : Nat)
    (f : HostStateInner F → HostStateInner F) :
    (s.modifyGroup i f).hosts[j]? = if i = j then (s.hosts[j]?).map f else s.hosts[j]? := by
  unfold modifyGroup
  simp only [List.getElem?_modify]
  split
  · rfl
  · cases s.hosts[j]? <;> rfl

/-! ## What no call changes -/

/-- Two selectors with the same groups, up to pins and candidates. -/
structure SameGroups (s t : Selector F) : Prop where
  fixed : s.hosts.map HostStateInner.fixed = t.hosts.map HostStateInner.fixed
  penalty : s.failurePenalty = t.failurePenalty

theorem SameGroups.refl (s : Selector F) : SameGroups s s := ⟨rfl, rfl⟩

theorem SameGroups.symm {s t : Selector F} (same : SameGroups s t) : SameGroups t s :=
  ⟨same.fixed.symm, same.penalty.symm⟩

theorem SameGroups.trans {s t u : Selector F} (first : SameGroups s t) (second : SameGroups t u) :
    SameGroups s u :=
  ⟨first.fixed.trans second.fixed, first.penalty.trans second.penalty⟩

theorem SameGroups.hostDefs {s t : Selector F} (same : SameGroups s t) :
    s.hosts.map (·.hostDef) = t.hosts.map (·.hostDef) := by
  simpa [HostStateInner.fixed, Function.comp_def] using congrArg (List.map Prod.fst) same.fixed

theorem SameGroups.getElem? {s t : Selector F} (same : SameGroups s t) (i : Nat) :
    (s.hosts[i]?).map HostStateInner.fixed = (t.hosts[i]?).map HostStateInner.fixed := by
  simpa using congrArg (fun l => l[i]?) same.fixed

theorem sameGroups_modifyGroup {f : HostStateInner F → HostStateInner F}
    (keeps : ∀ h, (f h).fixed = h.fixed) (s : Selector F) (i : Nat) :
    SameGroups (s.modifyGroup i f) s := by
  refine ⟨?_, rfl⟩
  apply List.ext_getElem?
  intro j
  rw [List.getElem?_map, List.getElem?_map, getElem?_modifyGroup]
  split
  · cases s.hosts[j]? with
    | none => rfl
    | some h => simp [keeps]
  · rfl

theorem sameGroups_updateResult (s : Selector F) (host : String) (ip : IpAddr)
    (latencyMs : Option Nat) (speedKbps : Option F) (success : Bool) (now : Nat) :
    SameGroups (s.updateResult host ip latencyMs speedKbps success now) s := by
  unfold updateResult
  split
  · exact .refl s
  · apply sameGroups_modifyGroup
    intro h
    rfl

theorem sameGroups_writePinnedIp (s : Selector F) (i : Nat) (ip : Option IpAddr) :
    SameGroups (s.writePinnedIp i ip) s := by
  apply sameGroups_modifyGroup
  intro h
  rfl

theorem sameGroups_writeCandidates (s : Selector F) (i : Nat) (ips : List IpAddr) :
    SameGroups (s.writeCandidates i ips) s := by
  apply sameGroups_modifyGroup
  intro h
  rfl

theorem sameGroups_setPinnedIp (s : Selector F) (name : String) (ip : Option IpAddr) :
    SameGroups (s.setPinnedIp name ip).2 s := by
  unfold setPinnedIp
  split
  · exact .refl s
  · exact (sameGroups_writeCandidates _ _ _).trans (sameGroups_writePinnedIp s _ _)

theorem sameGroups_call (s : Selector F) (c : SelectorCall F) : SameGroups (s.call c) s := by
  cases c with
  | updateResult host ip latencyMs speedKbps success now =>
    exact sameGroups_updateResult s host ip latencyMs speedKbps success now
  | markFailure host ip now => exact sameGroups_updateResult s host ip none none false now
  | setPinnedIp name ip => exact sameGroups_setPinnedIp s name ip

theorem sameGroups_runCalls (s : Selector F) (calls : List (SelectorCall F)) :
    SameGroups (s.runCalls calls) s := by
  induction calls using List.reverseRecOn with
  | nil => exact .refl s
  | append_singleton calls c ih =>
    rw [runCalls_append]
    exact (sameGroups_call _ c).trans ih

/-! ## Lookups read the fixed part -/

theorem SameGroups.indexOf {s t : Selector F} (same : SameGroups s t) (host : String) :
    s.indexOf host = t.indexOf host := by
  have read : ∀ u : Selector F, u.indexOf host = (u.hosts.map (·.hostDef)).findIdx? fun d =>
      eqIgnoreAsciiCase d.name (normalizeHost host) ||
        d.domainMap.any (rowMatches (normalizeHost host)) := by
    intro u
    simp only [Selector.indexOf, List.findIdx?_map, Function.comp_def]
  rw [read, read, same.hostDefs]

theorem hostFor_eq_findSome? (s : Selector F) (host : String) :
    s.hostFor host = (s.hosts.map (·.hostDef)).findSome? fun d =>
      d.domainMap.findSome? fun row =>
        if rowMatches (normalizeHost host) row then some d else none := by
  simp only [Selector.hostFor, List.findSome?_map, Function.comp_def]

theorem upstreamHostFor_eq_findSome? (s : Selector F) (host : String) :
    s.upstreamHostFor host = (s.hosts.map (·.hostDef)).findSome? fun d =>
      d.domainMap.findSome? fun row =>
        if rowMatches (normalizeHost host) row then some row.2 else none := by
  simp only [Selector.upstreamHostFor, List.findSome?_map, Function.comp_def]

theorem SameGroups.hostFor {s t : Selector F} (same : SameGroups s t) (host : String) :
    s.hostFor host = t.hostFor host := by
  rw [hostFor_eq_findSome?, hostFor_eq_findSome?, same.hostDefs]

theorem SameGroups.upstreamHostFor {s t : Selector F} (same : SameGroups s t) (host : String) :
    s.upstreamHostFor host = t.upstreamHostFor host := by
  rw [upstreamHostFor_eq_findSome?, upstreamHostFor_eq_findSome?, same.hostDefs]

theorem SameGroups.pinTarget {s t : Selector F} (same : SameGroups s t) (name : String)
    (ip : Option IpAddr) : s.pinTarget name ip = t.pinTarget name ip := by
  unfold Selector.pinTarget
  rw [same.indexOf name]
  cases t.indexOf name with
  | none => rfl
  | some i =>
    have bundled : (s.hosts[i]?).map (·.bundledIps) = (t.hosts[i]?).map (·.bundledIps) := by
      simpa [Function.comp_def, HostStateInner.fixed] using
        congrArg (Option.map Prod.snd) (same.getElem? i)
    simp only [bundled]

theorem SameGroups.upstreamPort {s t : Selector F} (same : SameGroups s t) (host : String) :
    s.upstreamPort host = t.upstreamPort host := by
  unfold Selector.upstreamPort innerFor
  rw [same.indexOf host]
  cases t.indexOf host with
  | none => rfl
  | some i =>
    simpa [Function.comp_def, HostStateInner.fixed] using
      congrArg (Option.map fun p => p.1.upstreamPort) (same.getElem? i)

/-! ## What a call does to a group -/

theorem getElem?_updateResult_of_ne {s : Selector F} {host : String} {g : Nat}
    (elsewhere : s.indexOf host ≠ some g) (ip : IpAddr) (latencyMs : Option Nat)
    (speedKbps : Option F) (success : Bool) (now : Nat) :
    (s.updateResult host ip latencyMs speedKbps success now).hosts[g]? = s.hosts[g]? := by
  unfold updateResult
  cases routed : s.indexOf host with
  | none => rfl
  | some i =>
    have ne : i ≠ g := by
      rintro rfl
      exact elsewhere routed
    rw [getElem?_modifyGroup, if_neg ne]

theorem getElem?_updateResult {s : Selector F} {host : String} {g : Nat}
    (routed : s.indexOf host = some g) (ip : IpAddr) (latencyMs : Option Nat)
    (speedKbps : Option F) (success : Bool) (now : Nat) :
    (s.updateResult host ip latencyMs speedKbps success now).hosts[g]? =
      (s.hosts[g]?).map fun h =>
        { h with
          candidates := modifyFirst (fun c => c.ip == ip)
            (recordResult s.failurePenalty latencyMs speedKbps success now) h.candidates } := by
  unfold updateResult
  rw [routed, getElem?_modifyGroup, if_pos rfl]

theorem pinTarget_index {s : Selector F} {name : String} {ip : Option IpAddr} {i : Nat}
    {ips : List IpAddr} (target : s.pinTarget name ip = .ok (i, ips)) :
    s.indexOf name = some i := by
  unfold pinTarget at target
  cases routed : s.indexOf name with
  | none => simp [routed] at target
  | some j =>
    simp only [routed] at target
    split at target
    · simp at target
    · simp only [Except.ok.injEq, Prod.mk.injEq] at target
      rw [target.1]

theorem getElem?_setPinnedIp_of_ne {s : Selector F} {name : String} {g : Nat}
    (elsewhere : s.indexOf name ≠ some g) (ip : Option IpAddr) :
    (s.setPinnedIp name ip).2.hosts[g]? = s.hosts[g]? := by
  unfold setPinnedIp
  cases target : s.pinTarget name ip with
  | error e => rfl
  | ok pair =>
    obtain ⟨i, ips⟩ := pair
    have ne : i ≠ g := by
      rintro rfl
      exact elsewhere (pinTarget_index target)
    simp only [writeCandidates, writePinnedIp, getElem?_modifyGroup, if_neg ne]

theorem getElem?_setPinnedIp {s : Selector F} {name : String} {ip : Option IpAddr} {g : Nat}
    {ips : List IpAddr} (target : s.pinTarget name ip = .ok (g, ips)) :
    (s.setPinnedIp name ip).2.hosts[g]? =
      (s.hosts[g]?).map fun h =>
        { h with pinnedIp := ip, candidates := freshCandidates ips } := by
  unfold setPinnedIp
  rw [target]
  simp only [writeCandidates, writePinnedIp, getElem?_modifyGroup, if_pos]
  cases s.hosts[g]? <;> rfl

/-- What `update_result` leaves of any group: everything but the recorded results. -/
theorem of_getElem?_updateResult {s : Selector F} {host : String} {ip : IpAddr}
    {latencyMs : Option Nat} {speedKbps : Option F} {success : Bool} {now g : Nat}
    {after : HostStateInner F}
    (group : (s.updateResult host ip latencyMs speedKbps success now).hosts[g]? = some after) :
    ∃ h, s.hosts[g]? = some h ∧ after.fixed = h.fixed ∧ after.pinnedIp = h.pinnedIp ∧
      after.candidates.map (·.ip) = h.candidates.map (·.ip) := by
  by_cases routed : s.indexOf host = some g
  · rw [getElem?_updateResult routed] at group
    obtain ⟨h, found, rfl⟩ := Option.map_eq_some_iff.mp group
    refine ⟨h, found, rfl, rfl, ?_⟩
    apply map_modifyFirst
    intro c
    cases success <;> rfl
  · rw [getElem?_updateResult_of_ne routed] at group
    exact ⟨after, group, rfl, rfl, rfl⟩

/-- A call on one group never changes another group. -/
theorem getElem?_call_of_ne {s : Selector F} {c : SelectorCall F} {g : Nat}
    (elsewhere : s.indexOf c.key ≠ some g) : (s.call c).hosts[g]? = s.hosts[g]? := by
  cases c with
  | updateResult host ip latencyMs speedKbps success now =>
    exact getElem?_updateResult_of_ne elsewhere ip latencyMs speedKbps success now
  | markFailure host ip now => exact getElem?_updateResult_of_ne elsewhere ip none none false now
  | setPinnedIp name ip => exact getElem?_setPinnedIp_of_ne elsewhere ip

/-! ## Reachable states -/

/-- The states a selector can be in when any number of calls overlap: each acquisition of a
lock is one step, and the two writes of a `set_pinned_ip` are separate steps. -/
inductive Reachable (defs : List HostDef) (penalty : Nat) : Selector F → Prop
  | new : Reachable defs penalty (new defs penalty)
  | updateResult (host : String) (ip : IpAddr) (latencyMs : Option Nat) (speedKbps : Option F)
      (success : Bool) (now : Nat) {s : Selector F} : Reachable defs penalty s →
      Reachable defs penalty (s.updateResult host ip latencyMs speedKbps success now)
  | writePinnedIp (i : Nat) (ip : Option IpAddr) {s : Selector F} : Reachable defs penalty s →
      Reachable defs penalty (s.writePinnedIp i ip)
  | writeCandidates {name : String} {ip : Option IpAddr} {i : Nat} {ips : List IpAddr}
      {s : Selector F} : Reachable defs penalty s → s.pinTarget name ip = .ok (i, ips) →
      Reachable defs penalty (s.writeCandidates i ips)

theorem Reachable.call {defs : List HostDef} {penalty : Nat} {s : Selector F}
    (reachable : Reachable defs penalty s) (c : SelectorCall F) :
    Reachable defs penalty (s.call c) := by
  cases c with
  | updateResult host ip latencyMs speedKbps success now =>
    exact .updateResult host ip latencyMs speedKbps success now reachable
  | markFailure host ip now => exact .updateResult _ _ _ _ _ _ reachable
  | setPinnedIp name ip =>
    change Reachable defs penalty (s.setPinnedIp name ip).2
    unfold setPinnedIp
    cases target : s.pinTarget name ip with
    | error e => exact reachable
    | ok pair =>
      obtain ⟨i, ips⟩ := pair
      have between : (s.writePinnedIp i ip).pinTarget name ip = .ok (i, ips) := by
        rw [(sameGroups_writePinnedIp s i ip).pinTarget]
        exact target
      exact .writeCandidates (.writePinnedIp i ip reachable) between

theorem reachable_runCalls (defs : List HostDef) (penalty : Nat) (calls : List (SelectorCall F)) :
    Reachable defs penalty ((new defs penalty).runCalls calls) := by
  induction calls using List.reverseRecOn with
  | nil => exact .new
  | append_singleton calls c ih =>
    rw [runCalls_append]
    exact ih.call c

theorem Reachable.sameGroups {defs : List HostDef} {penalty : Nat} {s : Selector F}
    (reachable : Reachable defs penalty s) : SameGroups s (Selector.new defs penalty) := by
  induction reachable with
  | new => exact .refl _
  | updateResult host ip latencyMs speedKbps success now _ ih =>
    exact (sameGroups_updateResult _ host ip latencyMs speedKbps success now).trans ih
  | writePinnedIp i ip _ ih => exact (sameGroups_writePinnedIp _ i ip).trans ih
  | writeCandidates _ _ ih => exact (sameGroups_writeCandidates _ _ _).trans ih

/-- What another task writes when it takes a lock. -/
inductive Write (F : Type) where
  | updateResult (host : String) (ip : IpAddr) (latencyMs : Option Nat) (speedKbps : Option F)
      (success : Bool) (now : Nat)
  | pinnedIp (name : String) (ip : Option IpAddr)
  | candidates (name : String) (ip : Option IpAddr)

def write (s : Selector F) : Write F → Selector F
  | .updateResult host ip latencyMs speedKbps success now =>
    s.updateResult host ip latencyMs speedKbps success now
  | .pinnedIp name ip =>
    match s.pinTarget name ip with
    | .ok (i, _) => s.writePinnedIp i ip
    | .error _ => s
  | .candidates name ip =>
    match s.pinTarget name ip with
    | .ok (i, ips) => s.writeCandidates i ips
    | .error _ => s

theorem Reachable.write {defs : List HostDef} {penalty : Nat} {s : Selector F}
    (reachable : Reachable defs penalty s) (w : Write F) : Reachable defs penalty (s.write w) := by
  cases w with
  | updateResult host ip latencyMs speedKbps success now =>
    exact .updateResult host ip latencyMs speedKbps success now reachable
  | pinnedIp name ip =>
    simp only [Selector.write]
    split
    · exact .writePinnedIp _ _ reachable
    · exact reachable
  | candidates name ip =>
    simp only [Selector.write]
    split
    · rename_i target
      exact .writeCandidates reachable target
    · exact reachable

/-- The state after what other tasks write meanwhile. -/
def meanwhile (s : Selector F) (others : List (Write F)) : Selector F :=
  others.foldl Selector.write s

theorem Reachable.meanwhile {defs : List HostDef} {penalty : Nat} {s : Selector F}
    (reachable : Reachable defs penalty s) (others : List (Write F)) :
    Reachable defs penalty (s.meanwhile others) := by
  induction others generalizing s with
  | nil => exact reachable
  | cons w others ih => exact ih (reachable.write w)

theorem getElem?_new (defs : List HostDef) (penalty g : Nat) :
    (new (F := F) defs penalty).hosts[g]? = (defs[g]?).map fun d =>
      ⟨d, d.ips, none, freshCandidates d.ips⟩ := by
  simp [new]

/-- A group of a reachable state is the group of a definition. -/
theorem Reachable.fixed {defs : List HostDef} {penalty : Nat} {s : Selector F}
    (reachable : Reachable defs penalty s) {g : Nat} {h : HostStateInner F}
    (group : s.hosts[g]? = some h) : defs[g]? = some h.hostDef ∧ h.bundledIps = h.hostDef.ips := by
  have same := reachable.sameGroups.getElem? g
  rw [group, getElem?_new] at same
  cases hd : defs[g]? with
  | none => simp [hd] at same
  | some d =>
    simp only [hd, Option.map_some, Option.some.injEq, HostStateInner.fixed, Prod.mk.injEq] at same
    exact ⟨by rw [same.1], by rw [same.1, same.2]⟩

/-- A successful `pinTarget` names the addresses of the pin or the bundled ones. -/
theorem pinTarget_ips {s : Selector F} {name : String} {ip : Option IpAddr} {i : Nat}
    {ips : List IpAddr} (target : s.pinTarget name ip = .ok (i, ips)) {h : HostStateInner F}
    (group : s.hosts[i]? = some h) : ips = pinIps h.bundledIps ip := by
  have routed := pinTarget_index target
  unfold pinTarget at target
  rw [routed] at target
  simp only [group, Option.map_some, Option.getD_some] at target
  split at target
  · cases target
  · simp only [Except.ok.injEq, Prod.mk.injEq, true_and] at target
    exact target.symm

/-- The addresses of a group are always those of some pin, or the bundled ones. -/
theorem Reachable.ips {defs : List HostDef} {penalty : Nat} {s : Selector F}
    (reachable : Reachable defs penalty s) {g : Nat} {h : HostStateInner F}
    (group : s.hosts[g]? = some h) :
    ∃ pin, h.candidates.map (·.ip) = pinIps h.hostDef.ips pin := by
  induction reachable generalizing h with
  | new =>
    rw [getElem?_new] at group
    obtain ⟨d, -, rfl⟩ := Option.map_eq_some_iff.mp group
    exact ⟨none, by simp [freshCandidates, Function.comp_def, pinIps]⟩
  | @updateResult host ip latencyMs speedKbps success now s reachable ih =>
    obtain ⟨before, found, fixed, -, ips⟩ := of_getElem?_updateResult group
    have sameDef : h.hostDef = before.hostDef := congrArg Prod.fst fixed
    rw [ips, sameDef]
    exact ih found
  | @writePinnedIp i ip s reachable ih =>
    rw [Selector.writePinnedIp, getElem?_modifyGroup] at group
    split at group
    · obtain ⟨before, found, rfl⟩ := Option.map_eq_some_iff.mp group
      obtain ⟨pin, ips⟩ := ih found
      exact ⟨pin, ips⟩
    · exact ih group
  | @writeCandidates name ip i ips s reachable target ih =>
    rw [Selector.writeCandidates, getElem?_modifyGroup] at group
    split at group
    · rename_i here
      subst here
      obtain ⟨before, found, rfl⟩ := Option.map_eq_some_iff.mp group
      refine ⟨ip, ?_⟩
      rw [← (reachable.fixed found).2, ← pinTarget_ips target found]
      simp [freshCandidates, Function.comp_def]
    · exact ih group

theorem nodup_pinIps {ips : List IpAddr} (distinct : ips.Nodup) (pin : Option IpAddr) :
    (pinIps ips pin).Nodup := by
  cases pin with
  | none => exact distinct
  | some p => simp [pinIps]

theorem Reachable.nodup {defs : List HostDef} (distinct : ∀ d ∈ defs, d.ips.Nodup)
    {penalty : Nat} {s : Selector F} (reachable : Reachable defs penalty s) {g : Nat}
    {h : HostStateInner F} (group : s.hosts[g]? = some h) : (h.candidates.map (·.ip)).Nodup := by
  obtain ⟨pin, ips⟩ := reachable.ips group
  rw [ips]
  exact nodup_pinIps (distinct _ (List.mem_of_getElem? (reachable.fixed group).1)) pin

/-- The invariant rule for candidates: what a fresh candidate has and a result keeps, every
candidate of a reachable state has. -/
theorem Reachable.candidates {P : CandidateState F → Prop} {defs : List HostDef} {penalty : Nat}
    (fresh : ∀ ips, ∀ c ∈ freshCandidates ips, P c)
    (keeps : ∀ latencyMs speedKbps success now c, P c →
      P (recordResult penalty latencyMs speedKbps success now c))
    {s : Selector F} (reachable : Reachable defs penalty s) {g : Nat} {h : HostStateInner F}
    (group : s.hosts[g]? = some h) : ∀ c ∈ h.candidates, P c := by
  induction reachable generalizing h with
  | new =>
    rw [getElem?_new] at group
    obtain ⟨d, -, rfl⟩ := Option.map_eq_some_iff.mp group
    exact fresh d.ips
  | @updateResult host ip latencyMs speedKbps success now s reachable ih =>
    by_cases routed : s.indexOf host = some g
    · rw [getElem?_updateResult routed] at group
      obtain ⟨before, found, rfl⟩ := Option.map_eq_some_iff.mp group
      intro c member
      rcases mem_of_mem_modifyFirst member with old | ⟨b, old, -, rfl⟩
      · exact ih found c old
      · rw [reachable.sameGroups.penalty]
        exact keeps _ _ _ _ b (ih found b old)
    · rw [getElem?_updateResult_of_ne routed] at group
      exact ih group
  | @writePinnedIp i ip s reachable ih =>
    rw [Selector.writePinnedIp, getElem?_modifyGroup] at group
    split at group
    · obtain ⟨before, found, rfl⟩ := Option.map_eq_some_iff.mp group
      have kept := ih found
      exact kept
    · exact ih group
  | @writeCandidates name ip i ips s reachable target ih =>
    rw [Selector.writeCandidates, getElem?_modifyGroup] at group
    split at group
    · obtain ⟨before, -, rfl⟩ := Option.map_eq_some_iff.mp group
      exact fresh ips
    · exact ih group

end Selector
end XboxProxy
