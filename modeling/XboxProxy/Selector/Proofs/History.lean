import XboxProxy.Selector.Calls

/-!
# The state of a group as a function of the call log

`update_result` rewrites a candidate in place, keeps what a result does not carry and
derives the `down` flag. `runCalls_group` says what is left of a log of calls in a group:
the pin is the last successful one, and every candidate is the summary `ofHistory` of the
results that reached it since.
-/

namespace XboxProxy
open Misc

/-- A result as it reaches a candidate. -/
structure ResultEvent (F : Type) where
  latencyMs : Option Nat
  speedKbps : Option F
  success : Bool
  now : Nat

/-- The candidate a list of results leaves behind, oldest result first. -/
def CandidateState.ofHistory {F : Type} (ip : IpAddr) (events : List (ResultEvent F)) :
    CandidateState F where
  ip
  latencyMs := (events.filter (·.success)).reverse.findSome? (·.latencyMs)
  speedKbps := (events.filter (·.success)).reverse.findSome? (·.speedKbps)
  lastOkTs := ((events.filter (·.success)).getLast?.map (·.now)).getD 0
  lastFailTs := ((events.filter fun e => !e.success).getLast?.map (·.now)).getD 0
  fails := min (events.rtakeWhile fun e => !e.success).length u32Max
  down := (events.getLast?.map fun e => !e.success).getD false

namespace Selector

variable {F : Type}

/-- The pin a call sets on group `g`, if it succeeds there. -/
def pinOf (s : Selector F) (g : Nat) : SelectorCall F → Option (Option IpAddr)
  | .setPinnedIp name ip =>
    match s.pinTarget name ip with
    | .ok (i, _) => if i = g then some ip else none
    | .error _ => none
  | _ => none

/-- The result a call brings to the candidate `ip` of group `g`. -/
def eventFor (s : Selector F) (g : Nat) (ip : IpAddr) : SelectorCall F → Option (ResultEvent F)
  | .updateResult host ip' latencyMs speedKbps success now =>
    if s.indexOf host = some g ∧ ip' = ip then some ⟨latencyMs, speedKbps, success, now⟩ else none
  | .markFailure host ip' now =>
    if s.indexOf host = some g ∧ ip' = ip then some ⟨none, none, false, now⟩ else none
  | .setPinnedIp _ _ => none

/-- The last successful pin of group `g` in a log. -/
def lastPin (s : Selector F) (g : Nat) (calls : List (SelectorCall F)) : Option (Option IpAddr) :=
  calls.reverse.findSome? (s.pinOf g)

/-- The calls of a log that come after the last successful pin of group `g`. -/
def sinceLastPin (s : Selector F) (g : Nat) (calls : List (SelectorCall F)) :
    List (SelectorCall F) :=
  calls.rtakeWhile fun c => (s.pinOf g c).isNone

/-- The results that reached the candidate `ip` of group `g` since its last pin. -/
def historyOf (s : Selector F) (g : Nat) (ip : IpAddr) (calls : List (SelectorCall F)) :
    List (ResultEvent F) :=
  (s.sinceLastPin g calls).filterMap (s.eventFor g ip)

section Log
variable (s : Selector F) (g : Nat) (calls : List (SelectorCall F)) {c : SelectorCall F}

theorem lastPin_snoc : s.lastPin g (calls ++ [c]) = (s.pinOf g c).or (s.lastPin g calls) := by
  unfold lastPin
  rw [List.reverse_append, List.findSome?_append]
  cases h : s.pinOf g c <;> simp [h]

theorem sinceLastPin_snoc_pin {ip : Option IpAddr} (pins : s.pinOf g c = some ip) :
    s.sinceLastPin g (calls ++ [c]) = [] := by
  simp [sinceLastPin, pins]

/-- What a call that does not pin the group adds to anything read off the log. -/
theorem filterMap_sinceLastPin_snoc {α : Type} (noPin : s.pinOf g c = none)
    (f : SelectorCall F → Option α) :
    (s.sinceLastPin g (calls ++ [c])).filterMap f =
      (s.sinceLastPin g calls).filterMap f ++ (f c).toList := by
  unfold sinceLastPin
  rw [List.rtakeWhile_concat_pos _ _ _ (by simp [noPin]), List.filterMap_append]
  cases h : f c <;> simp [h]

theorem historyOf_snoc_pin {ip : Option IpAddr} (pins : s.pinOf g c = some ip) (a : IpAddr) :
    s.historyOf g a (calls ++ [c]) = [] := by
  rw [historyOf, sinceLastPin_snoc_pin s g calls pins, List.filterMap_nil]

theorem historyOf_snoc (noPin : s.pinOf g c = none) (a : IpAddr) :
    s.historyOf g a (calls ++ [c]) = s.historyOf g a calls ++ (s.eventFor g a c).toList :=
  filterMap_sinceLastPin_snoc s g calls noPin _

end Log

/-- What `set_pinned_ip` does to a group: nothing, or it writes the pin and its addresses. -/
theorem setPinnedIp_cases {s t : Selector F} (same : SameGroups t s) (g : Nat) (name : String)
    (ip : Option IpAddr) :
    (s.pinOf g (.setPinnedIp name ip) = none ∧
      (t.setPinnedIp name ip).2.hosts[g]? = t.hosts[g]?) ∨
    ∃ ips, s.pinTarget name ip = .ok (g, ips) ∧ s.pinOf g (.setPinnedIp name ip) = some ip ∧
      (t.setPinnedIp name ip).2.hosts[g]? =
        (t.hosts[g]?).map fun h =>
          { h with pinnedIp := ip, candidates := freshCandidates ips } := by
  cases target : s.pinTarget name ip with
  | error e =>
    refine .inl ⟨by simp [pinOf, target], ?_⟩
    rw [setPinnedIp, same.pinTarget name ip, target]
  | ok pair =>
    obtain ⟨i, ips⟩ := pair
    by_cases here : i = g
    · subst here
      refine .inr ⟨ips, rfl, by simp [pinOf, target], ?_⟩
      exact getElem?_setPinnedIp ((same.pinTarget name ip).trans target)
    · refine .inl ⟨by simp [pinOf, target, here], ?_⟩
      apply getElem?_setPinnedIp_of_ne
      rw [same.indexOf, pinTarget_index target]
      simpa using here

/-- One result: what `update_result` writes is what the longer history leaves behind. -/
theorem recordResult_ofHistory (penalty : Nat) (ip : IpAddr) (events : List (ResultEvent F))
    (e : ResultEvent F) :
    recordResult penalty e.latencyMs e.speedKbps e.success e.now
        (CandidateState.ofHistory ip events) =
      CandidateState.ofHistory ip (events ++ [e]) := by
  obtain ⟨latencyMs, speedKbps, success, now⟩ := e
  cases success with
  | true =>
    cases latencyMs <;> cases speedKbps <;>
      simp [recordResult, CandidateState.ofHistory, List.filter_append]
  | false =>
    have cap : min (min (events.rtakeWhile fun e => !e.success).length u32Max + 1) u32Max =
        min ((events.rtakeWhile fun e => !e.success).length + 1) u32Max := by omega
    have positive : 0 < min ((events.rtakeWhile fun e => !e.success).length + 1) u32Max := by
      simp [u32Max]
    simp [recordResult, CandidateState.ofHistory, List.filter_append, cap, positive]

theorem freshCandidates_eq_ofHistory (ips : List IpAddr) :
    freshCandidates (F := F) ips = ips.map fun ip => CandidateState.ofHistory ip [] := rfl

/-- The group a definition starts and the log `calls` leaves behind. -/
def groupAfter (s : Selector F) (g : Nat) (d : HostDef) (calls : List (SelectorCall F)) :
    HostStateInner F where
  hostDef := d
  bundledIps := d.ips
  pinnedIp := (s.lastPin g calls).join
  candidates := (pinIps d.ips (s.lastPin g calls).join).map fun ip =>
    CandidateState.ofHistory ip (s.historyOf g ip calls)

theorem map_ip_groupAfter (s : Selector F) (g : Nat) (d : HostDef)
    (calls : List (SelectorCall F)) :
    (s.groupAfter g d calls).candidates.map (·.ip) = pinIps d.ips (s.lastPin g calls).join := by
  simp [groupAfter, Function.comp_def, CandidateState.ofHistory]

/-- A call that neither pins a group nor brings a result to one of its candidates leaves
the summary of that group alone. -/
theorem groupAfter_snoc_of_none {s : Selector F} {g : Nat} {d : HostDef}
    {calls : List (SelectorCall F)} {c : SelectorCall F} (noPin : s.pinOf g c = none)
    (noEvent : ∀ ip ∈ pinIps d.ips (s.lastPin g calls).join, s.eventFor g ip c = none) :
    s.groupAfter g d (calls ++ [c]) = s.groupAfter g d calls := by
  have pin : s.lastPin g (calls ++ [c]) = s.lastPin g calls := by simp [lastPin_snoc, noPin]
  simp only [groupAfter, pin, HostStateInner.mk.injEq, true_and]
  apply List.map_congr_left
  intro ip member
  rw [historyOf_snoc _ _ _ noPin, noEvent ip member]
  simp

/-- The step of `update_result`. -/
theorem groupAfter_snoc_updateResult {s : Selector F} {g : Nat} {d : HostDef}
    (distinct : d.ips.Nodup) {calls : List (SelectorCall F)} {host : String}
    (routed : s.indexOf host = some g) (ip : IpAddr) (latencyMs : Option Nat)
    (speedKbps : Option F) (success : Bool) (now : Nat) :
    s.groupAfter g d (calls ++ [.updateResult host ip latencyMs speedKbps success now]) =
      { s.groupAfter g d calls with
        candidates := modifyFirst (fun c => c.ip == ip)
          (recordResult s.failurePenalty latencyMs speedKbps success now)
          (s.groupAfter g d calls).candidates } := by
  have noPin : s.pinOf g (.updateResult host ip latencyMs speedKbps success now) = none := rfl
  have pin := s.lastPin_snoc g calls (c := .updateResult host ip latencyMs speedKbps success now)
  rw [noPin, Option.none_or] at pin
  have unique : ((s.groupAfter g d calls).candidates.map (·.ip)).Nodup := by
    rw [map_ip_groupAfter]
    exact nodup_pinIps distinct _
  rw [modifyFirst_eq_map ip unique]
  simp only [groupAfter, pin, HostStateInner.mk.injEq, true_and, List.map_map]
  apply List.map_congr_left
  intro a _
  rw [historyOf_snoc _ _ _ noPin]
  by_cases same : ip = a
  · subst same
    have event : s.eventFor g ip (.updateResult host ip latencyMs speedKbps success now) =
        some ⟨latencyMs, speedKbps, success, now⟩ := by simp [eventFor, routed]
    rw [event]
    simpa [CandidateState.ofHistory] using
      (recordResult_ofHistory s.failurePenalty ip (s.historyOf g ip calls)
        ⟨latencyMs, speedKbps, success, now⟩).symm
  · have event : s.eventFor g a (.updateResult host ip latencyMs speedKbps success now) = none := by
      simp [eventFor, same]
    have other : ¬ (CandidateState.ofHistory a (s.historyOf g a calls)).ip = ip := by
      simpa [CandidateState.ofHistory] using Ne.symm same
    simp [event, other]

/-- The step of a pin that succeeds on the group. -/
theorem groupAfter_snoc_setPinnedIp {s : Selector F} {g : Nat} {d : HostDef}
    {calls : List (SelectorCall F)} {name : String} {ip : Option IpAddr} {ips : List IpAddr}
    (target : s.pinTarget name ip = .ok (g, ips)) (same : ips = pinIps d.ips ip) :
    s.groupAfter g d (calls ++ [.setPinnedIp name ip]) =
      { s.groupAfter g d calls with pinnedIp := ip, candidates := freshCandidates ips } := by
  have pins : s.pinOf g (.setPinnedIp name ip) = some ip := by simp [pinOf, target]
  have pin : s.lastPin g (calls ++ [.setPinnedIp name ip]) = some ip := by
    simp [lastPin_snoc, pins]
  simp only [groupAfter, pin, historyOf_snoc_pin _ _ _ pins, Option.join_some,
    freshCandidates_eq_ofHistory, same]

/-- `mark_failure` is the failing result without measurements. -/
theorem groupAfter_snoc_markFailure (s : Selector F) (g : Nat) (d : HostDef)
    (calls : List (SelectorCall F)) (host : String) (ip : IpAddr) (now : Nat) :
    s.groupAfter g d (calls ++ [.markFailure host ip now]) =
      s.groupAfter g d (calls ++ [.updateResult host ip none none false now]) := by
  have pin : s.lastPin g (calls ++ [.markFailure host ip now]) =
      s.lastPin g (calls ++ [.updateResult host ip none none false now]) := by
    rw [lastPin_snoc, lastPin_snoc]
    rfl
  have history : ∀ a, s.historyOf g a (calls ++ [.markFailure host ip now]) =
      s.historyOf g a (calls ++ [.updateResult host ip none none false now]) := by
    intro a
    rw [historyOf_snoc _ _ _ rfl, historyOf_snoc _ _ _ rfl]
    rfl
  simp only [groupAfter, pin, history]

section New
variable {defs : List HostDef} {g : Nat} {d : HostDef}

/-- The state a log leaves in every group of a selector built from distinct addresses. -/
theorem runCalls_group (distinct : ∀ d ∈ defs, d.ips.Nodup) (penalty : Nat)
    (calls : List (SelectorCall F)) (hd : defs[g]? = some d) :
    ((new defs penalty).runCalls calls).hosts[g]? =
      some ((new (F := F) defs penalty).groupAfter g d calls) := by
  have nodup : d.ips.Nodup := distinct d (List.mem_of_getElem? hd)
  set start : Selector F := new defs penalty with hstart
  induction calls using List.reverseRecOn with
  | nil =>
    rw [runCalls_nil, hstart, getElem?_new, hd]
    rfl
  | append_singleton calls c ih =>
    have same : SameGroups (start.runCalls calls) start := sameGroups_runCalls start calls
    -- the step of a result; `mark_failure` is one of them
    have result : ∀ host ip latencyMs speedKbps success now,
        ((start.runCalls calls).updateResult host ip latencyMs speedKbps success now).hosts[g]? =
          some (start.groupAfter g d
            (calls ++ [.updateResult host ip latencyMs speedKbps success now])) := by
      intro host ip latencyMs speedKbps success now
      by_cases routed : start.indexOf host = some g
      · rw [getElem?_updateResult (by rw [same.indexOf]; exact routed), ih, same.penalty,
          groupAfter_snoc_updateResult nodup routed]
        rfl
      · rw [getElem?_updateResult_of_ne (by rw [same.indexOf]; exact routed), ih,
          groupAfter_snoc_of_none rfl fun a _ => by simp [eventFor, routed]]
    rw [runCalls_append]
    cases c with
    | updateResult host ip latencyMs speedKbps success now =>
      exact result host ip latencyMs speedKbps success now
    | markFailure host ip now =>
      rw [groupAfter_snoc_markFailure]
      exact result host ip none none false now
    | setPinnedIp name ip =>
      change ((start.runCalls calls).setPinnedIp name ip).2.hosts[g]? = _
      rcases setPinnedIp_cases same g name ip with ⟨noPin, kept⟩ | ⟨ips, target, -, written⟩
      · rw [kept, ih, groupAfter_snoc_of_none noPin fun _ _ => rfl]
      · have group : start.hosts[g]? = some ⟨d, d.ips, none, freshCandidates d.ips⟩ := by
          rw [hstart, getElem?_new, hd]
          rfl
        have bundled : ips = pinIps d.ips ip := pinTarget_ips target group
        rw [written, ih, groupAfter_snoc_setPinnedIp target bundled]
        rfl

/-- After any log of calls, every candidate of every group is the summary of the results
that were routed to its group, carry its address and come after the last successful pin of
the group; a call that pins another group, or brings a result to another group or to an
address that is not listed, changes nothing in this one. -/
theorem candidateState_eq_ofHistory (defs : List HostDef) (distinct : ∀ d ∈ defs, d.ips.Nodup)
    (penalty : Nat) (calls : List (SelectorCall F)) (g : Nat) (d : HostDef)
    (hd : defs[g]? = some d) :
    ∃ h, ((new defs penalty).runCalls calls).hosts[g]? = some h ∧
      (∀ c ∈ h.candidates,
        c = CandidateState.ofHistory c.ip ((new (F := F) defs penalty).historyOf g c.ip calls)) ∧
      ∀ call, (new (F := F) defs penalty).pinOf g call = none →
        (∀ c ∈ h.candidates, (new (F := F) defs penalty).eventFor g c.ip call = none) →
        (((new defs penalty).runCalls calls).call call).hosts[g]? = some h := by
  refine ⟨_, runCalls_group distinct penalty calls hd, ?_, ?_⟩
  · intro c member
    obtain ⟨ip, -, rfl⟩ := List.mem_map.mp member
    rfl
  · intro call noPin noEvent
    rw [← runCalls_append, runCalls_group distinct penalty _ hd, groupAfter_snoc_of_none noPin]
    intro ip member
    exact noEvent _ (List.mem_map.mpr ⟨ip, member, rfl⟩)

/-- The group of the unit tests, after a failure and a success of its first address. -/
theorem candidateState_eq_ofHistory_cdn :
    ∃ h, ((new (F := ℚ) [testDef [.v4 1 1 1 1, .v4 2 2 2 2]] 60).runCalls
        [.markFailure "cdn.example.com" (.v4 1 1 1 1) 5,
          .updateResult "cdn.example.com" (.v4 1 1 1 1) (some 50) (some 1000) true 7]).hosts[0]? =
        some h ∧
      ∀ c ∈ h.candidates, c = CandidateState.ofHistory c.ip
        ((new [testDef [.v4 1 1 1 1, .v4 2 2 2 2]] 60).historyOf 0 c.ip
          [.markFailure "cdn.example.com" (.v4 1 1 1 1) 5,
            .updateResult "cdn.example.com" (.v4 1 1 1 1) (some 50) (some 1000) true 7]) := by
  obtain ⟨h, reached, history, -⟩ := candidateState_eq_ofHistory (F := ℚ)
    [testDef [.v4 1 1 1 1, .v4 2 2 2 2]] (by decide) 60
    [.markFailure "cdn.example.com" (.v4 1 1 1 1) 5,
      .updateResult "cdn.example.com" (.v4 1 1 1 1) (some 50) (some 1000) true 7] 0 _ rfl
  exact ⟨h, reached, history⟩

end New

/-! ## Failures -/

/-- The clock of a call that brings a failure to the candidate at `j` of group `g`, whose
addresses are `ips`; of equal addresses a result reaches the first. -/
def failureAt (s : Selector F) (g : Nat) (ips : List IpAddr) (j : Nat) :
    SelectorCall F → Option Nat
  | .updateResult host ip _ _ success now =>
    if s.indexOf host = some g ∧ ips.findIdx? (· == ip) = some j ∧ success = false then some now
    else none
  | .markFailure host ip now =>
    if s.indexOf host = some g ∧ ips.findIdx? (· == ip) = some j then some now else none
  | .setPinnedIp _ _ => none

/-- The clocks of the failures of a candidate since its group was last pinned, oldest first. -/
def failureClocks (s : Selector F) (g : Nat) (ips : List IpAddr) (j : Nat)
    (calls : List (SelectorCall F)) : List Nat :=
  (s.sinceLastPin g calls).filterMap (s.failureAt g ips j)

/-- Counted from its last failure, a candidate has failed in the last `penalty` seconds. -/
def FailedLately (s : Selector F) (g : Nat) (ips : List IpAddr) (j : Nat)
    (calls : List (SelectorCall F)) (now penalty : Nat) : Prop :=
  ∃ t, (s.failureClocks g ips j calls).getLast? = some t ∧ now - t ≤ penalty

section Failures
variable {s : Selector F} {g j : Nat} {ips : List IpAddr} {calls : List (SelectorCall F)}
  {c : SelectorCall F}

theorem failureClocks_snoc_pin {ip : Option IpAddr} (pins : s.pinOf g c = some ip) :
    s.failureClocks g ips j (calls ++ [c]) = [] := by
  rw [failureClocks, sinceLastPin_snoc_pin s g calls pins, List.filterMap_nil]

theorem failureClocks_snoc (noPin : s.pinOf g c = none) :
    s.failureClocks g ips j (calls ++ [c]) =
      s.failureClocks g ips j calls ++ (s.failureAt g ips j c).toList :=
  filterMap_sinceLastPin_snoc s g calls noPin _

/-- A call that neither pins the group nor brings the candidate a failure adds none. -/
theorem failureClocks_snoc_of_none (noPin : s.pinOf g c = none)
    (noFailure : s.failureAt g ips j c = none) :
    s.failureClocks g ips j (calls ++ [c]) = s.failureClocks g ips j calls := by
  rw [failureClocks_snoc noPin, noFailure, Option.toList_none, List.append_nil]

/-- What a result changes of the time of the last failure. -/
theorem lastFailTs_recordResult (penalty : Nat) (latencyMs : Option Nat) (speedKbps : Option F)
    (success : Bool) (now : Nat) (c : CandidateState F) :
    (recordResult penalty latencyMs speedKbps success now c).lastFailTs =
      if success then c.lastFailTs else now := by
  cases success <;> rfl

/-- One result: the candidate it reaches has failed when the longer log says so. -/
theorem lastFailTs_updateResult {u : Selector F} (same : SameGroups u s) {h : HostStateInner F}
    {b : CandidateState F} (before : ∀ h b, u.hosts[g]? = some h → h.candidates[j]? = some b →
      b.lastFailTs = ((s.failureClocks g (h.candidates.map (·.ip)) j calls).getLast?).getD 0)
    (host : String) (ip : IpAddr) (latencyMs : Option Nat) (speedKbps : Option F) (success : Bool)
    (now : Nat)
    (group : (u.updateResult host ip latencyMs speedKbps success now).hosts[g]? = some h)
    (here : h.candidates[j]? = some b) :
    b.lastFailTs = ((s.failureClocks g (h.candidates.map (·.ip)) j
      (calls ++ [.updateResult host ip latencyMs speedKbps success now])).getLast?).getD 0 := by
  by_cases routed : s.indexOf host = some g
  · rw [getElem?_updateResult (by rw [same.indexOf]; exact routed)] at group
    obtain ⟨h, found, rfl⟩ := Option.map_eq_some_iff.mp group
    have ips : (modifyFirst (fun c => c.ip == ip)
        (recordResult u.failurePenalty latencyMs speedKbps success now) h.candidates).map (·.ip) =
          h.candidates.map (·.ip) := map_modifyFirst (fun c => by cases success <;> rfl) _
    simp only [ips, getElem?_modifyFirst] at here ⊢
    have place : (h.candidates.map (·.ip)).findIdx? (· == ip) =
        h.candidates.findIdx? fun c => c.ip == ip := by
      rw [List.findIdx?_map]
      rfl
    rw [failureClocks_snoc rfl]
    by_cases reached : h.candidates.findIdx? (fun c => c.ip == ip) = some j
    · rw [if_pos reached] at here
      obtain ⟨a, old, rfl⟩ := Option.map_eq_some_iff.mp here
      rw [lastFailTs_recordResult]
      cases success with
      | true => simpa [failureAt] using before h a found old
      | false => simp [failureAt, routed, place, reached]
    · rw [if_neg reached] at here
      simpa [failureAt, place, reached] using before h b found here
  · rw [getElem?_updateResult_of_ne (by rw [same.indexOf]; exact routed)] at group
    rw [failureClocks_snoc_of_none rfl (by simp [failureAt, routed])]
    exact before h b group here

/-- After any log of calls, the time a candidate keeps is that of its last failure. -/
theorem lastFailTs_runCalls (defs : List HostDef) (penalty : Nat) (calls : List (SelectorCall F))
    {h : HostStateInner F} {b : CandidateState F}
    (group : ((new defs penalty).runCalls calls).hosts[g]? = some h)
    (here : h.candidates[j]? = some b) :
    b.lastFailTs = (((new (F := F) defs penalty).failureClocks g (h.candidates.map (·.ip)) j
      calls).getLast?).getD 0 := by
  set start : Selector F := new defs penalty with hstart
  have fresh : ∀ (ips : List IpAddr) (b : CandidateState F), (freshCandidates ips)[j]? = some b →
      b.lastFailTs = 0 := by
    intro ips b found
    obtain ⟨ip, -, rfl⟩ := List.mem_map.mp (List.mem_of_getElem? found)
    rfl
  induction calls using List.reverseRecOn generalizing h b with
  | nil =>
    rw [runCalls_nil, hstart, getElem?_new] at group
    obtain ⟨d, -, rfl⟩ := Option.map_eq_some_iff.mp group
    exact fresh _ b here
  | append_singleton calls c ih =>
    have same : SameGroups (start.runCalls calls) start := sameGroups_runCalls start calls
    rw [runCalls_append] at group
    cases c with
    | updateResult host ip latencyMs speedKbps success now =>
      exact lastFailTs_updateResult same (fun _ _ found old => ih old found) host ip latencyMs
        speedKbps success now group here
    | markFailure host ip now =>
      have result := lastFailTs_updateResult same (fun _ _ found old => ih old found) host ip
        none none false now group here
      rw [failureClocks_snoc rfl] at result ⊢
      simpa [failureAt] using result
    | setPinnedIp name ip =>
      change ((start.runCalls calls).setPinnedIp name ip).2.hosts[g]? = _ at group
      rcases setPinnedIp_cases same g name ip with ⟨noPin, kept⟩ | ⟨ips, -, pins, written⟩
      · rw [kept] at group
        rw [failureClocks_snoc_of_none noPin rfl]
        exact ih here group
      · rw [written] at group
        obtain ⟨h, -, rfl⟩ := Option.map_eq_some_iff.mp group
        rw [failureClocks_snoc_pin pins]
        exact fresh ips b here

end Failures

/-- The clock a call reads. -/
def clockOf : SelectorCall F → Option Nat
  | .updateResult _ _ _ _ _ now => some now
  | .markFailure _ _ now => some now
  | .setPinnedIp _ _ => none

/-- The clock does not run backwards from one call to another. -/
def ClocksInOrder (calls : List (SelectorCall F)) : Prop :=
  calls.Pairwise fun a b => ∀ t ∈ clockOf a, ∀ u ∈ clockOf b, t ≤ u

instance (calls : List (SelectorCall F)) : Decidable (ClocksInOrder calls) :=
  inferInstanceAs (Decidable (calls.Pairwise _))

theorem clockOf_of_failureAt {s : Selector F} {g j : Nat} {ips : List IpAddr}
    {c : SelectorCall F} {t : Nat} (failed : t ∈ s.failureAt g ips j c) : t ∈ clockOf c := by
  cases c with
  | setPinnedIp name ip => cases failed
  | _ =>
    simp only [failureAt, Option.mem_def, Option.ite_none_right_eq_some, Option.some.injEq] at failed
    exact congrArg some failed.2

/-- Where the clock does not run backwards, the last failure is the latest one. -/
theorem failedLately_iff {calls : List (SelectorCall F)} (inOrder : ClocksInOrder calls)
    (s : Selector F) (g : Nat) (ips : List IpAddr) (j now penalty : Nat) :
    s.FailedLately g ips j calls now penalty ↔
      ∃ t ∈ s.failureClocks g ips j calls, now - t ≤ penalty := by
  have sorted : (s.failureClocks g ips j calls).Pairwise (· ≤ ·) :=
    (inOrder.sublist (List.rtakeWhile_suffix _ _).sublist).filterMap _
      fun a b before t failed u failed' => before t (clockOf_of_failureAt failed) u
        (clockOf_of_failureAt failed')
  constructor
  · rintro ⟨t, last, lately⟩
    exact ⟨t, List.mem_of_getLast? last, lately⟩
  · rintro ⟨t, member, lately⟩
    obtain ⟨front, u, split⟩ := (List.eq_nil_or_concat' _).resolve_left (List.ne_nil_of_mem member)
    rw [FailedLately, split]
    refine ⟨u, by simp, ?_⟩
    rw [split] at sorted member
    have le : t ≤ u := by
      rcases List.mem_append.mp member with before | here
      · exact (List.pairwise_append.mp sorted).2.2 t before u (by simp)
      · exact (List.mem_singleton.mp here).le
    omega

end Selector
end XboxProxy
