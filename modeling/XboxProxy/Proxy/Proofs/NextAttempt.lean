import XboxProxy.Proxy.Attempts
import XboxProxy.Selector.Proofs.Choice

/-!
# The attempt after a failed one

An attempt that fails marks its address and the next one asks `best_ip` again. The address
that has just failed then has the score of a down candidate; it comes back when everything
else in the group has failed too, is down, and is listed before it.
-/

namespace XboxProxy
open Misc

namespace Selector
open CandidateState

variable {F : Type} [Float64 F]

/-- Another candidate of the group is left to try: one without a recent failure, one that
scores above the sentinel of down candidates, or one that draws level and is listed later. -/
def Alternative (cands : List (CandidateState F)) (now penalty : Nat) (ip : IpAddr) : Prop :=
  ∃ front c back, cands = front ++ c :: back ∧ c.ip = ip ∧
    ((∃ b ∈ front ++ back, b.Unpenalised now penalty) ∨
      (∃ b ∈ front, Float64.minFinite < scoreAt b now penalty) ∨
      ∃ b ∈ back, Float64.minFinite ≤ scoreAt b now penalty)

/-- The candidate after a failure recorded now. -/
def failedNow (penalty now : Nat) (c : CandidateState F) : CandidateState F :=
  recordResult penalty none none false now c

theorem scoreAt_failedNow (penalty now : Nat) (c : CandidateState F) :
    scoreAt (failedNow penalty now c) now penalty = Float64.minFinite := by
  have positive : 0 < min (c.fails + 1) u32Max := by simp [u32Max]
  simp [scoreAt, failedNow, recordResult, positive]

omit [Float64 F] in
theorem not_unpenalised_failedNow (penalty now : Nat) (c : CandidateState F) :
    ¬ (failedNow penalty now c).Unpenalised now penalty := by
  simp [Unpenalised, failedNow, recordResult]

/-- A penalised candidate is chosen exactly if nothing else may be chosen and it is the last
of the best. -/
theorem bestCandidate_of_penalised {front back : List (CandidateState F)} {c : CandidateState F}
    {now penalty : Nat} (penalised : ¬ c.Unpenalised now penalty) (notFront : c ∉ front)
    (notBack : c ∉ back) :
    bestCandidate (front ++ c :: back) now penalty = some c ↔
      (∀ b ∈ front ++ back, ¬ b.Unpenalised now penalty) ∧
        (∀ b ∈ front, scoreAt b now penalty ≤ scoreAt c now penalty) ∧
        ∀ b ∈ back, scoreAt b now penalty < scoreAt c now penalty := by
  classical
  rw [bestCandidate_eq_some_iff, pool_eq_filter]
  have all : ∀ {cands : List (CandidateState F)}, (∀ b ∈ cands, ¬ b.Unpenalised now penalty) →
      cands.filter (fun b => decide (Eligible cands now penalty b)) = cands := by
    intro cands none
    rw [List.filter_eq_self]
    intro b _
    rw [decide_eq_true_eq]
    exact .inr none
  have others : (∀ b ∈ front ++ back, ¬ b.Unpenalised now penalty) ↔
      ∀ b ∈ front ++ c :: back, ¬ b.Unpenalised now penalty := by
    constructor
    · intro none b member
      rcases List.mem_append.mp member with early | late
      · exact none b (by simp [early])
      · rcases List.mem_cons.mp late with rfl | late
        · exact penalised
        · exact none b (by simp [late])
    · intro none b member
      apply none b
      rw [List.mem_append] at member
      rw [List.mem_append, List.mem_cons]
      tauto
  constructor
  · intro last
    have choosable : Eligible (front ++ c :: back) now penalty c := by
      simpa using (List.mem_filter.mp last.mem).2
    have none := choosable.resolve_left penalised
    rw [all none] at last
    obtain ⟨front', back', split, hfront, hback⟩ := last
    rw [List.append_cons_inj_of_notMem notFront notBack] at split
    obtain ⟨rfl, -, rfl⟩ := split
    exact ⟨others.mpr none, hfront, hback⟩
  · rintro ⟨none, hfront, hback⟩
    rw [all (others.mp none)]
    exact ⟨front, back, rfl, hfront, hback⟩

section Split
variable {front back : List (CandidateState F)} {c : CandidateState F} {now penalty : Nat}

omit [Float64 F] in
/-- With distinct addresses the candidate of an address is at one place only. -/
theorem split_unique (distinct : ((front ++ c :: back).map (·.ip)).Nodup)
    {front' back' : List (CandidateState F)} {c' : CandidateState F}
    (split : front ++ c :: back = front' ++ c' :: back') (same : c'.ip = c.ip) :
    front' = front ∧ c' = c ∧ back' = back := by
  have listed : c' ∈ front ++ c :: back := by
    rw [split]
    simp
  obtain rfl : c' = c := List.inj_on_of_nodup_map distinct listed (by simp) same
  have nodup : (front ++ c' :: back).Nodup := distinct.of_map
  have notFront : c' ∉ front := fun member => by
    simpa using (List.nodup_append.mp nodup).2.2 c' member c' (by simp)
  have notBack : c' ∉ back := (List.nodup_cons.mp (List.nodup_append.mp nodup).2.1).1
  rw [List.append_cons_inj_of_notMem notFront notBack] at split
  exact ⟨split.1.symm, rfl, split.2.2.symm⟩

/-- The group after a failure of the address of `c`, recorded now, goes back to it exactly
if there is no alternative. -/
theorem bestCandidate_failedNow_iff (distinct : ((front ++ c :: back).map (·.ip)).Nodup) :
    bestCandidate (front ++ failedNow penalty now c :: back) now penalty =
        some (failedNow penalty now c) ↔
      ¬ Alternative (front ++ c :: back) now penalty c.ip := by
  have ips : (failedNow penalty now c).ip = c.ip := rfl
  rw [List.map_append, List.map_cons, List.nodup_append, List.nodup_cons] at distinct
  have notFront : failedNow penalty now c ∉ front := fun member =>
    distinct.2.2 _ (List.mem_map_of_mem member) c.ip (by simp) ips
  have notBack : failedNow penalty now c ∉ back := fun member =>
    distinct.2.1.1 (ips ▸ List.mem_map_of_mem member)
  rw [bestCandidate_of_penalised (not_unpenalised_failedNow penalty now c) notFront notBack,
    scoreAt_failedNow]
  constructor
  · rintro ⟨none, hfront, hback⟩ ⟨front', c', back', split, same, alternative⟩
    obtain ⟨rfl, rfl, rfl⟩ := split_unique
      (by rw [List.map_append, List.map_cons, List.nodup_append, List.nodup_cons]; exact distinct)
      split same
    rcases alternative with ⟨b, member, up⟩ | ⟨b, member, above⟩ | ⟨b, member, level⟩
    · exact none b member up
    · exact not_lt.mpr (hfront b member) above
    · exact not_lt.mpr level (hback b member)
  · intro none
    refine ⟨fun b member up => ?_, fun b member => ?_, fun b member => ?_⟩
    · exact none ⟨front, c, back, rfl, rfl, .inl ⟨b, member, up⟩⟩
    · by_contra above
      exact none ⟨front, c, back, rfl, rfl, .inr (.inl ⟨b, member, not_le.mp above⟩)⟩
    · by_contra level
      exact none ⟨front, c, back, rfl, rfl, .inr (.inr ⟨b, member, not_lt.mp level⟩)⟩

end Split

/-- The candidates `mark_failure` leaves in the group it is routed to. -/
theorem bestIp_markFailure {s : Selector F} {host : String} {g : Nat} {h : HostStateInner F}
    (routed : s.indexOf host = some g) (group : s.hosts[g]? = some h)
    {front back : List (CandidateState F)} {c : CandidateState F}
    (split : h.candidates = front ++ c :: back) (first : ∀ b ∈ front, b.ip ≠ c.ip) (now : Nat) :
    (s.markFailure host c.ip now).bestIp host now =
      (bestCandidate (front ++ failedNow s.failurePenalty now c :: back) now
        s.failurePenalty).map (·.ip) := by
  have same := sameGroups_updateResult s host c.ip none none false now
  have after := getElem?_updateResult routed c.ip none none false now
  rw [group, Option.map_some, split] at after
  rw [modifyFirst_split (by simpa using first) (by simp)] at after
  have rerouted : (s.updateResult host c.ip none none false now).indexOf host = some g := by
    rw [same.indexOf]
    exact routed
  unfold markFailure
  rw [bestIp_eq rerouted after, same.penalty]
  rfl

/-- After a failure of the address it is routed to, a host goes back to it exactly if there is
no alternative. -/
theorem bestIp_markFailure_eq_iff {s : Selector F} {host : String} {g : Nat}
    {h : HostStateInner F} (routed : s.indexOf host = some g) (group : s.hosts[g]? = some h)
    (distinct : (h.candidates.map (·.ip)).Nodup) {now : Nat} {ip : IpAddr}
    (chosen : s.bestIp host now = some ip) :
    (s.markFailure host ip now).bestIp host now = some ip ↔
      ¬ Alternative h.candidates now s.failurePenalty ip := by
  rw [bestIp_eq routed group, Option.map_eq_some_iff] at chosen
  obtain ⟨c, best, rfl⟩ := chosen
  obtain ⟨front, back, split⟩ := List.append_of_mem (mem_of_bestCandidate best)
  rw [split] at distinct ⊢
  have first : ∀ b ∈ front, b.ip ≠ c.ip := by
    intro b member same
    rw [List.map_append, List.map_cons, List.nodup_append] at distinct
    exact distinct.2.2 b.ip (List.mem_map_of_mem member) c.ip (by simp) same
  have only : ∀ b ∈ front ++ failedNow s.failurePenalty now c :: back, b.ip = c.ip →
      b = failedNow s.failurePenalty now c := by
    intro b member same
    have keys : ((front ++ failedNow s.failurePenalty now c :: back).map (·.ip)).Nodup := by
      rw [List.map_append, List.map_cons] at distinct ⊢
      exact distinct
    exact List.inj_on_of_nodup_map keys member (by simp) same
  rw [bestIp_markFailure routed group split first, Option.map_eq_some_iff,
    ← bestCandidate_failedNow_iff distinct]
  constructor
  · rintro ⟨b, best, same⟩
    rwa [only b (mem_of_bestCandidate best) same] at best
  · intro best
    exact ⟨_, best, rfl⟩

/-- In every reachable state, when the address a host was just routed to fails, the host is
routed to another address of its group exactly if an alternative is left; and so is the next
attempt of a request that fails on it, if nothing is written and no time passes meanwhile. -/
theorem bestIp_markFailure_ne_iff (defs : List HostDef) (penalty : Nat) (s : Selector F)
    (reachable : Reachable defs penalty s) (host : String) (g : Nat)
    (routed : s.indexOf host = some g) (h : HostStateInner F) (group : s.hosts[g]? = some h)
    (distinct : (h.candidates.map (·.ip)).Nodup) (now : Nat) (ip : IpAddr)
    (chosen : s.bestIp host now = some ip) :
    ((s.markFailure host ip now).bestIp host now ≠ some ip ↔
      Alternative h.candidates now penalty ip) ∧
    ∀ (B S : Type) (req : Request (Option B)) (env : AttemptEnv F S) (p : Progress F B S)
      (e : String), p.selector = s → env.beforeConnect = [] → env.beforeMark = [] →
      env.markNow = now → env.outcome.result = .error e →
      ((sendAttempt host req (some ip) env p).selector.bestIp host now ≠ some ip ↔
        Alternative h.candidates now penalty ip) := by
  have samePenalty : s.failurePenalty = penalty := reachable.sameGroups.penalty
  have main : (s.markFailure host ip now).bestIp host now ≠ some ip ↔
      Alternative h.candidates now penalty ip := by
    rw [Ne, bestIp_markFailure_eq_iff routed group distinct chosen, samePenalty, not_not]
  refine ⟨main, ?_⟩
  intro B S req env p e selector connect mark clock failed
  have left : (sendAttempt host req (some ip) env p).selector = s.markFailure host ip now := by
    simp only [sendAttempt, failed, markFailed, selector, connect, mark, clock]
    rfl
  rw [left]
  exact main

theorem bestIp_markFailure_ne_iff_fresh :
    ((new (F := ℚ) [testDef [.v4 1 1 1 1, .v4 2 2 2 2]] 60).markFailure "cdn.example.com"
        (.v4 2 2 2 2) 1000).bestIp "cdn.example.com" 1000 ≠ some (.v4 2 2 2 2) ↔
      Alternative (F := ℚ) (freshCandidates [.v4 1 1 1 1, .v4 2 2 2 2]) 1000 60 (.v4 2 2 2 2) :=
  (bestIp_markFailure_ne_iff (F := ℚ) [testDef [.v4 1 1 1 1, .v4 2 2 2 2]] 60 _ .new
    "cdn.example.com" 0 rfl
    ⟨testDef [.v4 1 1 1 1, .v4 2 2 2 2], [.v4 1 1 1 1, .v4 2 2 2 2], none,
      freshCandidates [.v4 1 1 1 1, .v4 2 2 2 2]⟩ rfl (by decide) 1000 (.v4 2 2 2 2)
    (by decide +kernel)).1

/-- Both addresses of the group of the unit tests have failed in the last ten seconds. -/
def outage : List (SelectorCall ℚ) :=
  [.markFailure "cdn.example.com" (.v4 1 1 1 1) 990,
    .markFailure "cdn.example.com" (.v4 2 2 2 2) 995]

/-- During the outage the second address fails once more and is chosen again. -/
theorem bestIp_markFailure_eq_of_outage :
    ((new [testDef [.v4 1 1 1 1, .v4 2 2 2 2]] 60).runCalls outage).bestIp "cdn.example.com" 1000 =
        some (.v4 2 2 2 2) ∧
      (((new [testDef [.v4 1 1 1 1, .v4 2 2 2 2]] 60).runCalls outage).markFailure
        "cdn.example.com" (.v4 2 2 2 2) 1000).bestIp "cdn.example.com" 1000 =
          some (.v4 2 2 2 2) := by
  decide +kernel

end Selector
end XboxProxy
