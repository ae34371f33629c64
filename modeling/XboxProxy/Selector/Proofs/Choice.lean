import XboxProxy.Selector.Proofs.BestBadge
import XboxProxy.Selector.Proofs.History
import XboxProxy.Selector.Proofs.PinRuns
import Mathlib.Tactic.Linarith

/-!
# What `best_ip` returns

Every managed host is routed to a candidate of its group, and no candidate that may be
chosen scores higher. Three things a filter and a score are meant to say are compared with
what they say: a candidate passes the filter when the log holds no recent failure of it, it is
healthy where `score_at` and `snapshot` call it up, and the score ranks by speed before
latency.
-/

namespace XboxProxy
open Misc

namespace CandidateState

/-- What the healthy filter of `best_ip` asks. `last_fail_ts` is 0 until the first failure, so a
clock that has not passed the penalty leaves no candidate unpenalised. -/
def Unpenalised {F : Type} (c : CandidateState F) (now penalty : Nat) : Prop :=
  penalty < now - c.lastFailTs

instance {F : Type} (c : CandidateState F) (now penalty : Nat) :
    Decidable (c.Unpenalised now penalty) :=
  inferInstanceAs (Decidable (penalty < now - c.lastFailTs))

/-- What `score_at` and `snapshot` call down. -/
def EffectivelyDown {F : Type} (c : CandidateState F) (now penalty : Nat) : Prop :=
  c.down = true ∧ now - c.lastFailTs ≤ penalty

instance {F : Type} (c : CandidateState F) (now penalty : Nat) :
    Decidable (c.EffectivelyDown now penalty) :=
  inferInstanceAs (Decidable (c.down = true ∧ now - c.lastFailTs ≤ penalty))

/-- The speed a candidate is ranked by. -/
def speed (c : CandidateState ℚ) : ℚ := c.speedKbps.getD 0

/-- The latency a candidate is ranked by. -/
def latency (c : CandidateState ℚ) : ℚ := c.latencyMs.getD 0

end CandidateState

namespace Selector
open CandidateState

section Choice
variable {F : Type} [Float64 F]

/-- The candidate that is chosen is listed, may be chosen, and scores highest of those. -/
theorem bestCandidate_spec {cands : List (CandidateState F)} {now penalty : Nat}
    {c : CandidateState F} (chosen : bestCandidate cands now penalty = some c) :
    c ∈ cands ∧ Eligible cands now penalty c ∧
      ∀ b ∈ cands, Eligible cands now penalty b → scoreAt b now penalty ≤ scoreAt c now penalty := by
  classical
  have last := bestCandidate_eq_some_iff.mp chosen
  rw [pool_eq_filter] at last
  have member := List.mem_filter.mp last.mem
  refine ⟨member.1, by simpa using member.2, ?_⟩
  intro b listed choosable
  exact last.le (List.mem_filter.mpr ⟨listed, by simpa using choosable⟩)

omit [Float64 F] in
theorem exists_group {s : Selector F} {host : String} {g : Nat}
    (routed : s.indexOf host = some g) : ∃ h, s.hosts[g]? = some h := by
  unfold indexOf at routed
  obtain ⟨bound, -⟩ := List.findIdx?_eq_some_iff_getElem.mp routed
  exact ⟨s.hosts[g], List.getElem?_eq_getElem bound⟩

omit [Float64 F] in
/-- A host that `host_for` knows is one `index_of` knows. -/
theorem indexOf_isSome_of_hostFor {s : Selector F} {host : String}
    (managed : (s.hostFor host).isSome) : (s.indexOf host).isSome := by
  obtain ⟨d, found⟩ := Option.isSome_iff_exists.mp managed
  unfold hostFor at found
  obtain ⟨h, inHosts, rowFound⟩ := List.exists_of_findSome?_eq_some found
  obtain ⟨row, inMap, chosen⟩ := List.exists_of_findSome?_eq_some rowFound
  have falls : rowMatches (normalizeHost host) row = true := by
    by_contra other
    simp [other] at chosen
  unfold indexOf
  rw [List.findIdx?_isSome, List.any_eq_true]
  refine ⟨h, inHosts, ?_⟩
  rw [Bool.or_eq_true, List.any_eq_true]
  exact .inr ⟨row, inMap, falls⟩

omit [Float64 F] in
/-- Candidate lists do not become empty. -/
theorem Reachable.nonempty {defs : List HostDef} (nonempty : ∀ d ∈ defs, d.ips ≠ [])
    {penalty : Nat} {s : Selector F} (reachable : Reachable defs penalty s) {g : Nat}
    {h : HostStateInner F} (group : s.hosts[g]? = some h) : h.candidates ≠ [] := by
  obtain ⟨pin, ips⟩ := reachable.ips group
  have listed := pinIps_ne_nil (nonempty _ (List.mem_of_getElem? (reachable.fixed group).1)) pin
  rw [← ips] at listed
  simpa using listed

/-- In every reachable state of groups with addresses, a managed host is routed to a group and
`best_ip` chooses one of its candidates. -/
theorem Reachable.chosen {defs : List HostDef} (nonempty : ∀ d ∈ defs, d.ips ≠ [])
    {penalty : Nat} {s : Selector F} (reachable : Reachable defs penalty s) {host : String}
    (managed : (s.hostFor host).isSome) (now : Nat) :
    ∃ g h c, s.indexOf host = some g ∧ s.hosts[g]? = some h ∧
      bestCandidate h.candidates now penalty = some c ∧ s.bestIp host now = some c.ip := by
  obtain ⟨g, routed⟩ := Option.isSome_iff_exists.mp (indexOf_isSome_of_hostFor managed)
  obtain ⟨h, group⟩ := exists_group routed
  have samePenalty : s.failurePenalty = penalty := reachable.sameGroups.penalty
  obtain ⟨c, chosen⟩ := Option.isSome_iff_exists.mp
    (isSome_chosen (reachable.nonempty nonempty group) now penalty)
  refine ⟨g, h, c, routed, group, chosen, ?_⟩
  rw [bestIp_eq routed group, samePenalty, chosen]
  rfl

omit [Float64 F] in
/-- Once the clock has passed the penalty, the filter keeps the candidates whose last failure, if
they have one, is older than the penalty. -/
theorem unpenalised_iff_not_failedLately {defs : List HostDef} {penalty now : Nat}
    {calls : List (SelectorCall F)} {g j : Nat} {h : HostStateInner F} {c : CandidateState F}
    (group : ((new defs penalty).runCalls calls).hosts[g]? = some h)
    (here : h.candidates[j]? = some c) (late : penalty < now) :
    c.Unpenalised now penalty ↔ ¬ (new (F := F) defs penalty).FailedLately g
      (h.candidates.map (·.ip)) j calls now penalty := by
  have last := lastFailTs_runCalls defs penalty calls group here
  unfold Unpenalised FailedLately
  rw [last]
  cases (new (F := F) defs penalty).failureClocks g (h.candidates.map (·.ip)) j calls
    |>.getLast? with
  | none => simpa using late
  | some t => simp only [Option.getD_some, Option.some.injEq, exists_eq_left', not_le]

/-- After any log of calls to groups with addresses, a managed host is routed to a candidate of
the group `index_of` selects that no candidate of the pool scores above; and once the clock
has passed the penalty, to one whose last failure is not recent if there is such a one. -/
theorem bestIp_of_hostFor (defs : List HostDef) (nonempty : ∀ d ∈ defs, d.ips ≠ [])
    (penalty : Nat) (calls : List (SelectorCall F)) (host : String)
    (managed : (((new (F := F) defs penalty).runCalls calls).hostFor host).isSome) (now : Nat) :
    let start : Selector F := new defs penalty
    let s := start.runCalls calls
    ∃ g h j c, s.indexOf host = some g ∧ s.hosts[g]? = some h ∧ h.candidates[j]? = some c ∧
      s.bestIp host now = some c.ip ∧
      (penalty < now →
        (∃ k < h.candidates.length,
          ¬ start.FailedLately g (h.candidates.map (·.ip)) k calls now penalty) →
        ¬ start.FailedLately g (h.candidates.map (·.ip)) j calls now penalty) ∧
      (ClocksInOrder calls → ∀ k,
        (start.FailedLately g (h.candidates.map (·.ip)) k calls now penalty ↔
          ∃ t ∈ start.failureClocks g (h.candidates.map (·.ip)) k calls, now - t ≤ penalty)) ∧
      Eligible h.candidates now penalty c ∧
      ∀ b ∈ h.candidates, Eligible h.candidates now penalty b →
        ¬ scoreAt c now penalty < scoreAt b now penalty := by
  intro start s
  obtain ⟨g, h, c, routed, group, chosen, requested⟩ :=
    (reachable_runCalls defs penalty calls).chosen nonempty managed now
  obtain ⟨member, choosable, best⟩ := bestCandidate_spec chosen
  obtain ⟨j, here⟩ := List.mem_iff_getElem?.mp member
  refine ⟨g, h, j, c, routed, group, here, requested, ?_, ?_, choosable, ?_⟩
  · rintro late ⟨k, bound, healthy⟩
    rw [← unpenalised_iff_not_failedLately group here late]
    rw [← unpenalised_iff_not_failedLately group (List.getElem?_eq_getElem bound) late] at healthy
    rcases choosable with unpenalised | none
    · exact unpenalised
    · exact absurd healthy (none _ (List.getElem_mem bound))
  · intro inOrder k
    exact failedLately_iff inOrder start g _ k now penalty
  · intro b listed choosable
    exact not_lt.mpr (best b listed choosable)

/-- One address fails, and a test of the other one has succeeded. -/
def oneFails : List (SelectorCall ℚ) :=
  [.updateResult "cdn.example.com" (.v4 2 2 2 2) (some 20) (some 900) true 980,
    .markFailure "cdn.example.com" (.v4 1 1 1 1) 990]

/-- The address that is chosen has not failed lately, as the log holds no failure of the other
one. -/
theorem bestIp_of_hostFor_oneFails :
    ∃ j c, ((new (F := ℚ) [testDef [.v4 1 1 1 1, .v4 2 2 2 2]] 60).runCalls oneFails).bestIp
        "cdn.example.com" 1000 = some c ∧
      [IpAddr.v4 1 1 1 1, .v4 2 2 2 2][j]? = some c ∧
      ∀ t ∈ (new (F := ℚ) [testDef [.v4 1 1 1 1, .v4 2 2 2 2]] 60).failureClocks 0
        [.v4 1 1 1 1, .v4 2 2 2 2] j oneFails, ¬ 1000 - t ≤ 60 := by
  obtain ⟨g, h, j, c, routed, group, here, best, prefers, clocks, -⟩ :=
    bestIp_of_hostFor (F := ℚ) [testDef [.v4 1 1 1 1, .v4 2 2 2 2]] (by decide) 60 oneFails
      "cdn.example.com" (by rfl) 1000
  obtain rfl : 0 = g := Option.some.inj ((by decide : _ = some 0).symm.trans routed)
  obtain ⟨rfl⟩ := Option.some.inj ((by rfl : _ = some _).symm.trans group)
  refine ⟨j, c.ip, best, ?_, fun t failed lately => ?_⟩
  · have ips := congrArg (Option.map (·.ip)) here
    rw [← List.getElem?_map] at ips
    exact ips
  · have inOrder : ClocksInOrder oneFails := by decide
    refine prefers (by decide) ⟨1, by decide, ?_⟩ ((clocks inOrder j).mpr ⟨t, failed, lately⟩)
    rw [clocks inOrder 1]
    decide

/-- Before the clock has passed the penalty, after the clock has been set back, and after a pin
that was taken back, an address that has failed within the penalty is preferred to one that
never failed. -/
theorem bestIp_prefers_failed :
    let start : Selector ℚ := new [testDef [.v4 1 1 1 1, .v4 2 2 2 2]] 60
    let early : List (SelectorCall ℚ) :=
      [.markFailure "cdn.example.com" (.v4 2 2 2 2) 10,
        .updateResult "cdn.example.com" (.v4 2 2 2 2) (some 20) (some 900) true 20]
    let setBack : List (SelectorCall ℚ) :=
      [.markFailure "cdn.example.com" (.v4 2 2 2 2) 1000,
        .markFailure "cdn.example.com" (.v4 2 2 2 2) 10]
    let restored : List (SelectorCall ℚ) :=
      [.markFailure "cdn.example.com" (.v4 2 2 2 2) 1000,
        .setPinnedIp "t" (some (.v4 9 9 9 9)), .setPinnedIp "t" none]
    (start.runCalls early).bestIp "cdn.example.com" 30 = some (.v4 2 2 2 2) ∧
      10 ∈ start.failureClocks 0 [.v4 1 1 1 1, .v4 2 2 2 2] 1 early ∧ 30 - 10 ≤ 60 ∧
      start.failureClocks 0 [.v4 1 1 1 1, .v4 2 2 2 2] 0 early = [] ∧
    (start.runCalls setBack).bestIp "cdn.example.com" 1010 = some (.v4 2 2 2 2) ∧
      1000 ∈ start.failureClocks 0 [.v4 1 1 1 1, .v4 2 2 2 2] 1 setBack ∧ 1010 - 1000 ≤ 60 ∧
      start.failureClocks 0 [.v4 1 1 1 1, .v4 2 2 2 2] 0 setBack = [] ∧
    (start.runCalls restored).bestIp "cdn.example.com" 1010 = some (.v4 2 2 2 2) := by
  refine ⟨by decide +kernel, by decide, by decide, by decide, by decide +kernel, by decide,
    by decide, by decide, by decide +kernel⟩

end Choice

/-! ## Health -/

section Health
variable {F : Type}

/-- The flag `down` says whether the last result of a candidate was a failure. -/
theorem Reachable.down_iff {defs : List HostDef} {penalty : Nat} {s : Selector F}
    (reachable : Reachable defs penalty s) {g : Nat} {h : HostStateInner F}
    (group : s.hosts[g]? = some h) : ∀ c ∈ h.candidates, (c.down = true ↔ 0 < c.fails) := by
  refine reachable.candidates (P := fun c => c.down = true ↔ 0 < c.fails) ?_ ?_ group
  · intro ips c member
    obtain ⟨ip, -, rfl⟩ := List.mem_map.mp member
    simp
  · intro latencyMs speedKbps success now c _
    -- a failure is recorded at `now`, which is inside the window
    cases success <;> simp [recordResult, u32Max]

/-- A candidate that succeeds has no consecutive failures left, and its penalty stays. -/
theorem recordResult_success (penalty : Nat) (latencyMs : Option Nat) (speedKbps : Option F)
    (now : Nat) (c : CandidateState F) :
    (recordResult penalty latencyMs speedKbps true now c).fails = 0 ∧
      (recordResult penalty latencyMs speedKbps true now c).lastFailTs = c.lastFailTs := by
  simp [recordResult]

/-- In every reachable state the healthy filter keeps exactly the candidates that are not
effectively down, the ones excepted whose last result is a success and that have failed
within the penalty; so a success makes a candidate eligible at once exactly if it has not
failed within the penalty. -/
theorem unpenalised_iff_not_down_iff (defs : List HostDef) (penalty : Nat) (s : Selector F)
    (reachable : Reachable defs penalty s) (g : Nat) (h : HostStateInner F)
    (group : s.hosts[g]? = some h) (c : CandidateState F) (member : c ∈ h.candidates)
    (now : Nat) :
    ((c.Unpenalised now penalty ↔ ¬ c.EffectivelyDown now penalty) ↔
      (now - c.lastFailTs ≤ penalty → 0 < c.fails)) ∧
    ∀ latencyMs speedKbps,
      (recordResult penalty latencyMs speedKbps true now c).Unpenalised now penalty ↔
        ¬ now - c.lastFailTs ≤ penalty := by
  have flag := reachable.down_iff group c member
  constructor
  · unfold Unpenalised EffectivelyDown
    rw [flag]
    omega
  · intro latencyMs speedKbps
    unfold Unpenalised
    rw [(recordResult_success penalty latencyMs speedKbps now c).2]
    omega

/-- The first address of the group of the unit tests fails and then succeeds. -/
def failedThenTested : List (SelectorCall ℚ) :=
  [.markFailure "cdn.example.com" (.v4 1 1 1 1) 1000,
    .updateResult "cdn.example.com" (.v4 1 1 1 1) (some 10) (some 5000) true 1010]

/-- The other address has failed in between. -/
def bothFailed : List (SelectorCall ℚ) :=
  [.markFailure "cdn.example.com" (.v4 1 1 1 1) 1000,
    .markFailure "cdn.example.com" (.v4 2 2 2 2) 1005,
    .updateResult "cdn.example.com" (.v4 1 1 1 1) (some 10) (some 5000) true 1010]

/-- Inside the penalty the criteria disagree on the address that has succeeded since and agree
on the other one, which a success would not bring back; outside they agree on both. -/
theorem unpenalised_iff_not_down_iff_bothFailed :
    ∃ h a b, ((new (F := ℚ) [testDef [.v4 1 1 1 1, .v4 2 2 2 2]] 60).runCalls
        bothFailed).hosts[0]? = some h ∧ h.candidates = [a, b] ∧
      ¬ (a.Unpenalised 1020 60 ↔ ¬ a.EffectivelyDown 1020 60) ∧
      (b.Unpenalised 1020 60 ↔ ¬ b.EffectivelyDown 1020 60) ∧
      ¬ (recordResult 60 none none true 1020 b).Unpenalised 1020 60 ∧
      (a.Unpenalised 1100 60 ↔ ¬ a.EffectivelyDown 1100 60) ∧
      (b.Unpenalised 1100 60 ↔ ¬ b.EffectivelyDown 1100 60) ∧
      (recordResult 60 none none true 1100 b).Unpenalised 1100 60 := by
  have spec := unpenalised_iff_not_down_iff (F := ℚ) [testDef [.v4 1 1 1 1, .v4 2 2 2 2]] 60 _
    (reachable_runCalls _ 60 bothFailed) 0 _ rfl
  refine ⟨_, _, _, rfl, rfl, ?_⟩
  have first := spec _ List.mem_cons_self
  have second := spec _ (List.mem_cons_of_mem _ List.mem_cons_self)
  refine ⟨?_, ?_, ?_, ?_, ?_, ?_⟩
  · rw [(first 1020).1]
    decide
  · rw [(second 1020).1]
    decide
  · rw [(second 1020).2]
    decide
  · rw [(first 1100).1]
    decide
  · rw [(second 1100).1]
    decide
  · rw [(second 1100).2]
    decide

/-- A failure, a success ten seconds later: nothing calls the candidate down any more, and
the healthy filter still drops it. -/
theorem penalised_after_success :
    ∃ h c, ((new (F := ℚ) [testDef [.v4 1 1 1 1, .v4 2 2 2 2]] 60).runCalls
        failedThenTested).hosts[0]? = some h ∧
      c ∈ h.candidates ∧ c.ip = .v4 1 1 1 1 ∧ c.lastFailTs < c.lastOkTs ∧
      ¬ c.EffectivelyDown 1020 60 ∧ ¬ c.Unpenalised 1020 60 := by
  refine ⟨_, _, rfl, List.mem_cons_self, rfl, by decide, ?_, by decide⟩
  rintro ⟨down, -⟩
  exact absurd down (by decide)

end Health

/-! ## Speed before latency -/

/-- The score of a candidate without a recent failure. -/
theorem scoreAt_of_unpenalised {c : CandidateState ℚ} {now penalty : Nat}
    (unpenalised : c.Unpenalised now penalty) :
    scoreAt c now penalty = c.speed * 1000 - c.latency := by
  have up : ¬ now - c.lastFailTs ≤ penalty := Nat.not_le.mpr unpenalised
  simp only [scoreAt, up, decide_false, Bool.and_false, Bool.false_eq_true, if_false]
  rfl

/-- The candidates the healthy filter keeps. -/
def unpenalised (cands : List (CandidateState ℚ)) (now penalty : Nat) :
    List (CandidateState ℚ) :=
  cands.filter fun c => penalty < now - c.lastFailTs

/-- The candidates that are ranked by their speed and latency if nobody passes the filter. -/
def ranked (cands : List (CandidateState ℚ)) (now penalty : Nat) : List (CandidateState ℚ) :=
  cands.filter fun c => ¬ c.EffectivelyDown now penalty

/-- No candidate of the pool is faster than `best`, and none as fast answers sooner. -/
def Fastest (pool : List (CandidateState ℚ)) (best : CandidateState ℚ) : Prop :=
  ∀ c ∈ pool, c.speed ≤ best.speed ∧ (c.speed = best.speed → best.latency ≤ c.latency)

/-- The fastest candidate of a pool that answers soonest leads by more than any slower one makes
up for by its latency; a slower one listed before it may draw level. -/
def SpeedOutweighsLatency (pool : List (CandidateState ℚ)) : Prop :=
  pool = [] ∨ ∃ front c back, pool = front ++ c :: back ∧ Fastest pool c ∧
    (∀ x ∈ front, x.speed < c.speed → c.latency - x.latency ≤ (c.speed - x.speed) * 1000) ∧
    ∀ x ∈ back, x.speed < c.speed → c.latency - x.latency < (c.speed - x.speed) * 1000

section Speed
variable {cands pool : List (CandidateState ℚ)} {now penalty : Nat} {best : CandidateState ℚ}

theorem mem_unpenalised {c : CandidateState ℚ} :
    c ∈ unpenalised cands now penalty ↔ c ∈ cands ∧ c.Unpenalised now penalty := by
  rw [unpenalised, List.mem_filter, decide_eq_true_eq]
  rfl

theorem mem_ranked {c : CandidateState ℚ} :
    c ∈ ranked cands now penalty ↔ c ∈ cands ∧ ¬ c.EffectivelyDown now penalty := by
  rw [ranked, List.mem_filter, decide_eq_true_eq]

/-- No slower candidate wins against the fastest one if that one leads by enough. -/
theorem fastest_of_lead {front back : List (CandidateState ℚ)} {c : CandidateState ℚ}
    (split : pool = front ++ c :: back) (fastest : Fastest pool c)
    (level : ∀ x ∈ front, x.speed < c.speed → c.latency - x.latency ≤ (c.speed - x.speed) * 1000)
    (lead : ∀ x ∈ back, x.speed < c.speed → c.latency - x.latency < (c.speed - x.speed) * 1000)
    (last : LastMax (fun c => c.speed * 1000 - c.latency) pool best) : Fastest pool best := by
  have inPool : c ∈ pool := by
    rw [split]
    simp
  have ge : c.speed * 1000 - c.latency ≤ best.speed * 1000 - best.latency := last.le inPool
  have member := last.mem
  have same : best.speed = c.speed := by
    by_contra differs
    have slower : best.speed < c.speed := lt_of_le_of_ne (fastest best member).1 differs
    -- the slower winner stands behind `c`, or `c` behind it
    obtain ⟨front', back', split', -, hback'⟩ := last
    rcases split_cases (split.symm.trans split') with rfl | ⟨-, later⟩ | ⟨first, later⟩
    · exact differs rfl
    · have leads := lead best later slower
      linarith
    · have loses : c.speed * 1000 - c.latency < best.speed * 1000 - best.latency :=
        hback' c later
      have levels := level best first slower
      linarith
  intro x member
  obtain ⟨le, ties⟩ := fastest x member
  rw [same] at ge ⊢
  refine ⟨le, fun equal => ?_⟩
  have sooner := ties equal
  linarith

/-- The last maximum of the score is the fastest exactly if speed outweighs latency. -/
theorem fastest_iff (last : LastMax (fun c => c.speed * 1000 - c.latency) pool best) :
    Fastest pool best ↔ SpeedOutweighsLatency pool := by
  constructor
  · intro fastest
    obtain ⟨front, back, split, hfront, hback⟩ := last
    refine .inr ⟨front, best, back, split, fastest, ?_, ?_⟩
    · intro x member _
      have le := hfront x member
      simp only at le
      linarith
    · intro x member _
      have lt := hback x member
      simp only at lt
      linarith
  · rintro (rfl | ⟨front, c, back, split, fastest, hfront, hback⟩)
    · cases last.mem
    · exact fastest_of_lead split fastest hfront hback last

/-- Of an empty pool every candidate is the fastest. -/
theorem fastest_iff_of_nil (none : pool = []) : Fastest pool best ↔ SpeedOutweighsLatency pool :=
  iff_of_true (fun c member => by rw [none] at member; cases member) (.inl none)

/-- Where some candidate has no recent failure, the chosen one is the last maximum of what
is left of the score. -/
theorem lastMax_unpenalised (chosen : bestCandidate cands now penalty = some best)
    (healthy : unpenalised cands now penalty ≠ []) :
    LastMax (fun c => c.speed * 1000 - c.latency) (unpenalised cands now penalty) best := by
  have last := bestCandidate_eq_some_iff.mp chosen
  rw [if_neg (by rwa [List.isEmpty_iff])] at last
  apply last.congr
  intro x member
  exact scoreAt_of_unpenalised (mem_unpenalised.mp member).2

/-- The numbers of a candidate are what their types allow. -/
def Typed (c : CandidateState ℚ) : Prop := 0 ≤ c.speed ∧ c.latency < 2 ^ 64

/-- Such numbers score above the score of a candidate that is down. -/
theorem minFinite_lt_of_typed {c : CandidateState ℚ} (typed : Typed c) :
    (Float64.minFinite : ℚ) < c.speed * 1000 - c.latency := by
  obtain ⟨speed, latency⟩ := typed
  have least : (Float64.minFinite : ℚ) < -2 ^ 64 := by
    show -((2 : ℚ) ^ (64 + 907 + 53) - 2 ^ (64 + 907)) < -2 ^ 64
    have large : (1 : ℚ) ≤ 2 ^ 907 := one_le_pow₀ (by norm_num)
    rw [pow_add, pow_add]
    generalize (2 : ℚ) ^ 907 = x at large
    linarith
  linarith

/-- Where nobody passes the filter and somebody is up, the chosen candidate is the last maximum
among those that are up. -/
theorem lastMax_ranked (chosen : bestCandidate cands now penalty = some best)
    (none : ∀ c ∈ cands, ¬ c.Unpenalised now penalty) (typed : ∀ c ∈ cands, Typed c)
    (some : ranked cands now penalty ≠ []) :
    LastMax (fun c => c.speed * 1000 - c.latency) (ranked cands now penalty) best := by
  have score : ∀ c, ¬ c.EffectivelyDown now penalty →
      scoreAt c now penalty = c.speed * 1000 - c.latency := by
    intro c up
    have flag : ¬ (c.down && decide (now - c.lastFailTs ≤ penalty)) = true := by
      simpa [EffectivelyDown] using up
    rw [scoreAt, if_neg flag]
    rfl
  have empty : (cands.filter fun c => penalty < now - c.lastFailTs) = [] :=
    List.filter_eq_nil_iff.mpr fun c member healthy => none c member (of_decide_eq_true healthy)
  have last := bestCandidate_eq_some_iff.mp chosen
  rw [empty, if_pos List.isEmpty_nil] at last
  obtain ⟨c, member⟩ := List.exists_mem_of_ne_nil _ some
  obtain ⟨listed, up⟩ := mem_ranked.mp member
  -- a candidate that is down would have to score as much as `c`
  have bestUp : ¬ best.EffectivelyDown now penalty := by
    intro down
    have lowest : scoreAt best now penalty = Float64.minFinite := by
      rw [scoreAt, if_pos (by simpa [EffectivelyDown] using down)]
    have le := last.le listed
    rw [lowest, score c up] at le
    exact absurd (minFinite_lt_of_typed (typed c listed)) (not_lt.mpr le)
  refine (last.filter (p := fun c => ¬ c.EffectivelyDown now penalty)
    (decide_eq_true bestUp)).congr fun x inPool => ?_
  exact score x (mem_ranked.mp inPool).2

/-- In every reachable state, the candidate a host is routed to is no slower than any
candidate without a recent failure, and answers no later than an equally fast one, exactly
if speed outweighs latency among these. Where the filter leaves nobody, as it does whenever the
clock has not passed the penalty, the same holds of all candidates that are not down. -/
theorem bestIp_fastest_iff (defs : List HostDef) (penalty : Nat) (s : Selector ℚ)
    (reachable : Reachable defs penalty s) (host : String) (g : Nat)
    (routed : s.indexOf host = some g) (h : HostStateInner ℚ) (group : s.hosts[g]? = some h)
    (now : Nat) (best : CandidateState ℚ)
    (chosen : bestCandidate h.candidates now penalty = some best) :
    s.bestIp host now = some best.ip ∧
      (Fastest (unpenalised h.candidates now penalty) best ↔
        SpeedOutweighsLatency (unpenalised h.candidates now penalty)) ∧
      (now ≤ penalty ∨ unpenalised h.candidates now penalty = [] →
        (∀ c ∈ h.candidates, Typed c) →
        (Fastest (ranked h.candidates now penalty) best ↔
          SpeedOutweighsLatency (ranked h.candidates now penalty))) := by
  have samePenalty : s.failurePenalty = penalty := reachable.sameGroups.penalty
  refine ⟨?_, ?_, fun nobody typed => ?_⟩
  · rw [bestIp_eq routed group, samePenalty, chosen]
    rfl
  · by_cases healthy : unpenalised h.candidates now penalty = []
    · exact fastest_iff_of_nil healthy
    · exact fastest_iff (lastMax_unpenalised chosen healthy)
  · have none : ∀ c ∈ h.candidates, ¬ c.Unpenalised now penalty := by
      rintro c member healthy
      rcases nobody with early | empty
      · have late : penalty < now - c.lastFailTs := healthy
        omega
      · have kept := mem_unpenalised.mpr ⟨member, healthy⟩
        rw [empty] at kept
        cases kept
    by_cases up : ranked h.candidates now penalty = []
    · exact fastest_iff_of_nil up
    · exact fastest_iff (lastMax_ranked chosen none typed up)

end Speed

/-- A test of each address. -/
def bothTested (first second : Nat × ℚ) (now : Nat) : List (SelectorCall ℚ) :=
  [.updateResult "cdn.example.com" (.v4 1 1 1 1) (some first.1) (some first.2) true now,
    .updateResult "cdn.example.com" (.v4 2 2 2 2) (some second.1) (some second.2) true now]

/-- The candidates these tests leave. -/
def testedPair (first second : Nat × ℚ) (now : Nat) : List (CandidateState ℚ) :=
  [⟨.v4 1 1 1 1, some first.1, some first.2, now, 0, 0, false⟩,
    ⟨.v4 2 2 2 2, some second.1, some second.2, now, 0, 0, false⟩]

/-- The faster address answers later and leads by enough: it is chosen. Where two slow addresses
are half a kilobit apart and two seconds, the slower one is chosen, so speed does not outweigh
latency; nor does it before the clock has passed the penalty. -/
theorem bestIp_fastest_iff_bothTested :
    (((new (F := ℚ) [testDef [.v4 1 1 1 1, .v4 2 2 2 2]] 60).runCalls
          (bothTested (10, 5000) (50, 8000) 1000)).bestIp "cdn.example.com" 1000 =
        some (.v4 2 2 2 2) ∧
      Fastest (unpenalised (testedPair (10, 5000) (50, 8000) 1000) 1000 60)
        ⟨.v4 2 2 2 2, some 50, some 8000, 1000, 0, 0, false⟩) ∧
    ¬ SpeedOutweighsLatency (unpenalised (testedPair (2000, 1) (10, 1 / 2) 1000) 1000 60) ∧
    ¬ SpeedOutweighsLatency (ranked (testedPair (2000, 1) (10, 1 / 2) 20) 30 60) := by
  have reachable := fun (first second : Nat × ℚ) (now : Nat) =>
    reachable_runCalls [testDef [.v4 1 1 1 1, .v4 2 2 2 2]] 60 (bothTested first second now)
  refine ⟨?_, ?_, ?_⟩
  · obtain ⟨best, fastest, -⟩ := bestIp_fastest_iff [testDef [.v4 1 1 1 1, .v4 2 2 2 2]] 60 _
      (reachable (10, 5000) (50, 8000) 1000) "cdn.example.com" 0 rfl
      ⟨testDef [.v4 1 1 1 1, .v4 2 2 2 2], _, none, testedPair (10, 5000) (50, 8000) 1000⟩ rfl 1000
      ⟨.v4 2 2 2 2, some 50, some 8000, 1000, 0, 0, false⟩ (by decide +kernel)
    refine ⟨best, fastest.mpr (.inr ⟨[_], _, [], rfl, by unfold Fastest; decide +kernel,
      by decide +kernel, by decide +kernel⟩)⟩
  · obtain ⟨-, fastest, -⟩ := bestIp_fastest_iff [testDef [.v4 1 1 1 1, .v4 2 2 2 2]] 60 _
      (reachable (2000, 1) (10, 1 / 2) 1000) "cdn.example.com" 0 rfl
      ⟨testDef [.v4 1 1 1 1, .v4 2 2 2 2], _, none, testedPair (2000, 1) (10, 1 / 2) 1000⟩ rfl 1000
      ⟨.v4 2 2 2 2, some 10, some (1 / 2), 1000, 0, 0, false⟩ (by decide +kernel)
    rw [← fastest]
    unfold Fastest
    decide +kernel
  · obtain ⟨-, -, early⟩ := bestIp_fastest_iff [testDef [.v4 1 1 1 1, .v4 2 2 2 2]] 60 _
      (reachable (2000, 1) (10, 1 / 2) 20) "cdn.example.com" 0 rfl
      ⟨testDef [.v4 1 1 1 1, .v4 2 2 2 2], _, none, testedPair (2000, 1) (10, 1 / 2) 20⟩ rfl 30
      ⟨.v4 2 2 2 2, some 10, some (1 / 2), 20, 0, 0, false⟩ (by decide +kernel)
    rw [← early (.inl (by decide)) (by unfold Typed; decide +kernel)]
    unfold Fastest
    decide +kernel

/-- A slow but working address: one kilobit a second after two seconds. -/
def slowFirst : List (SelectorCall ℚ) :=
  [.updateResult "cdn.example.com" (.v4 1 1 1 1) (some 2000) (some 1) true 1000]

/-- The address that was never tested wins against the one that is known to work. -/
theorem not_fastest_of_slowFirst :
    ∃ h c best, ((new (F := ℚ) [testDef [.v4 1 1 1 1, .v4 2 2 2 2]] 60).runCalls
        slowFirst).hosts[0]? = some h ∧
      c ∈ h.candidates ∧ best ∈ h.candidates ∧ c.Unpenalised 1000 60 ∧
      ((new (F := ℚ) [testDef [.v4 1 1 1 1, .v4 2 2 2 2]] 60).runCalls slowFirst).bestIp
        "cdn.example.com" 1000 = some best.ip ∧
      best.ip = .v4 2 2 2 2 ∧ best.speed < c.speed := by
  refine ⟨_, _, _, rfl, List.mem_cons_self, List.mem_cons_of_mem _ List.mem_cons_self,
    by decide, by decide +kernel, rfl, by decide +kernel⟩

end Selector
end XboxProxy
