import XboxProxy.Selector.Calls

/-!
# The dashboard's first candidate and the routed one

`best_ip` filters by the time of the last failure and takes the last maximum; `snapshot`
sorts all candidates and shows the first maximum under the badge "best". The two agree
exactly where one candidate leads undisputed.
-/

namespace XboxProxy
open Misc

namespace Selector

variable {F : Type} [Float64 F]

/-- What the dashboard labels "best" for group `g` (`dashboard.html:336-342`). -/
def dashboardBest (s : Selector F) (g : Nat) (clock : Nat → Nat) : Option IpAddr :=
  ((s.snapshot clock)[g]?).bind fun view => view.candidates.head?.map (·.ip)

/-- A candidate `best_ip` may choose: without a failure in the penalty window, or any one
when all have failed in it. -/
def Eligible (cands : List (CandidateState F)) (now penalty : Nat) (c : CandidateState F) : Prop :=
  penalty < now - c.lastFailTs ∨ ∀ b ∈ cands, ¬ penalty < now - b.lastFailTs

/-- Some candidate that may be chosen scores higher than everything listed before it and
than everything after it that may be chosen, and nothing scores higher than it. -/
def UndisputedLeader (cands : List (CandidateState F)) (now penalty : Nat) : Prop :=
  ∃ front c back, cands = front ++ c :: back ∧ Eligible cands now penalty c ∧
    (∀ b ∈ front, scoreAt b now penalty < scoreAt c now penalty) ∧
    ∀ b ∈ back, scoreAt b now penalty ≤ scoreAt c now penalty ∧
      (Eligible cands now penalty b → scoreAt b now penalty < scoreAt c now penalty)

/-- The refreshed `down` flag of the dashboard does not change a score. -/
theorem scoreAt_refreshed (c : CandidateState F) (now penalty : Nat) :
    scoreAt { c with down := c.down && decide (now - c.lastFailTs ≤ penalty) } now penalty =
      scoreAt c now penalty := by
  simp [scoreAt]

theorem head?_snapshotGroup (h : HostStateInner F) (now penalty : Nat) :
    (snapshotGroup h now penalty).candidates.head?.map (·.ip) =
      ((h.candidates.insertionSort fun a b =>
        scoreAt b now penalty ≤ scoreAt a now penalty).head?).map (·.ip) := by
  unfold snapshotGroup
  simp only
  rw [← List.map_insertionSort (r := fun a b => scoreAt b now penalty ≤ scoreAt a now penalty)]
  · cases h.candidates.insertionSort fun a b => scoreAt b now penalty ≤ scoreAt a now penalty <;>
      rfl
  · intro a _ b _
    simp only [scoreAt_refreshed]

omit [Float64 F] in
open Classical in
/-- The pool of `best_ip` is the list of the eligible candidates. -/
theorem pool_eq_filter (cands : List (CandidateState F)) (now penalty : Nat) :
    (if (cands.filter fun c => penalty < now - c.lastFailTs).isEmpty then cands
      else cands.filter fun c => penalty < now - c.lastFailTs) =
      cands.filter fun c => decide (Eligible cands now penalty c) := by
  by_cases none : ∀ b ∈ cands, ¬ penalty < now - b.lastFailTs
  · have empty : (cands.filter fun c => penalty < now - c.lastFailTs) = [] := by
      simpa [List.filter_eq_nil_iff] using none
    have all : (cands.filter fun c => decide (Eligible cands now penalty c)) = cands := by
      rw [List.filter_eq_self]
      intro c _
      simp only [decide_eq_true_eq]
      exact Or.inr none
    rw [empty, all]
    rfl
  · have some : (cands.filter fun c => penalty < now - c.lastFailTs) ≠ [] := by
      simpa [List.filter_eq_nil_iff] using none
    rw [if_neg (by simpa using some)]
    apply List.filter_congr
    intro c _
    rw [decide_eq_decide]
    exact ⟨Or.inl, fun choosable => choosable.resolve_right none⟩

theorem bestCandidate_eq_some_iff {cands : List (CandidateState F)} {now penalty : Nat}
    {c : CandidateState F} :
    bestCandidate cands now penalty = some c ↔
      LastMax (fun c => scoreAt c now penalty)
        (if (cands.filter fun c => penalty < now - c.lastFailTs).isEmpty then cands
          else cands.filter fun c => penalty < now - c.lastFailTs) c := by
  unfold bestCandidate
  exact maxBy_eq_some_iff

theorem filter_split {α : Type} {p : α → Bool} {l front back : List α} {c : α}
    (split : l = front ++ c :: back) (kept : p c = true) :
    l.filter p = front.filter p ++ c :: back.filter p := by
  rw [split, List.filter_append, List.filter_cons_of_pos kept]

/-- The two rankings pick one candidate exactly when it leads undisputed. -/
theorem rankings_agree_iff {cands : List (CandidateState F)} {now penalty : Nat}
    (distinct : cands.Nodup) :
    (∃ c, FirstMax (fun c => scoreAt c now penalty) cands c ∧
      bestCandidate cands now penalty = some c) ↔ UndisputedLeader cands now penalty := by
  classical
  simp only [bestCandidate_eq_some_iff, pool_eq_filter]
  constructor
  · rintro ⟨c, ⟨front, back, split, hfront, hback⟩, last⟩
    have eligible : Eligible cands now penalty c := by
      simpa using (List.mem_filter.mp last.mem).2
    refine ⟨front, c, back, split, eligible, hfront, fun b member => ⟨hback b member, ?_⟩⟩
    intro choosable
    obtain ⟨front', back', split', -, hback'⟩ := last
    -- the pool splits at `c` as the list does, because `c` occurs once
    have pool := filter_split (p := fun c => decide (Eligible cands now penalty c)) split
      (by simpa using eligible)
    have once : (front ++ c :: back).Nodup := split ▸ distinct
    have notFront : c ∉ front := fun h => by
      simpa using (List.nodup_append.mp once).2.2 c h c (by simp)
    have notBack : c ∉ back := (List.nodup_cons.mp (List.nodup_append.mp once).2.1).1
    have same := pool.symm.trans split'
    rw [List.append_cons_inj_of_notMem (by simp [notFront]) (by simp [notBack])] at same
    apply hback' b
    rw [← same.2.2]
    simp [member, choosable]
  · rintro ⟨front, c, back, split, eligible, hfront, hback⟩
    refine ⟨c, ⟨front, back, split, hfront, fun b member => (hback b member).1⟩, ?_⟩
    refine ⟨front.filter (fun c => decide (Eligible cands now penalty c)),
      back.filter (fun c => decide (Eligible cands now penalty c)), ?_, ?_, ?_⟩
    · exact filter_split split (by simpa using eligible)
    · intro b member
      exact (hfront b (List.mem_filter.mp member).1).le
    · intro b member
      obtain ⟨inBack, choosable⟩ := List.mem_filter.mp member
      exact (hback b inBack).2 (by simpa using choosable)

section Group
variable {g : Nat} {h : HostStateInner F}

theorem dashboardBest_eq {s : Selector F} (group : s.hosts[g]? = some h) (clock : Nat → Nat) :
    s.dashboardBest g clock = ((h.candidates.insertionSort fun a b =>
      scoreAt b (clock g) s.failurePenalty ≤ scoreAt a (clock g) s.failurePenalty).head?).map
        (·.ip) := by
  rw [dashboardBest, snapshot, List.getElem?_mapIdx, group]
  exact head?_snapshotGroup h (clock g) s.failurePenalty

theorem bestIp_eq {s : Selector F} {host : String} (routed : s.indexOf host = some g)
    (group : s.hosts[g]? = some h) (now : Nat) :
    s.bestIp host now = (bestCandidate h.candidates now s.failurePenalty).map (·.ip) := by
  have inner : s.innerFor host = some h := by rw [innerFor, routed]; exact group
  simp only [bestIp, inner, Option.bind_eq_bind, Option.bind_some]
  cases bestCandidate h.candidates now s.failurePenalty <;> rfl

theorem isSome_shown {cands : List (CandidateState F)} (nonempty : cands ≠ []) (now penalty : Nat) :
    (cands.insertionSort fun a b =>
      scoreAt b now penalty ≤ scoreAt a now penalty).head?.isSome := by
  rw [List.isSome_head?, Ne, insertionSort_eq_nil_iff]
  exact nonempty

theorem isSome_chosen {cands : List (CandidateState F)} (nonempty : cands ≠ [])
    (now penalty : Nat) : (bestCandidate cands now penalty).isSome := by
  apply maxBy_isSome
  split
  · exact nonempty
  · rename_i some
    simpa using some

theorem mem_of_bestCandidate {cands : List (CandidateState F)} {now penalty : Nat}
    {c : CandidateState F} (chosen : bestCandidate cands now penalty = some c) : c ∈ cands := by
  have member := (bestCandidate_eq_some_iff.mp chosen).mem
  split at member
  · exact member
  · exact (List.mem_filter.mp member).1

/-- In every reachable state the first candidate the dashboard shows for a group is the one
its hosts are routed to if and only if one candidate of the group leads undisputed. -/
theorem dashboardBest_eq_bestIp_iff (defs : List HostDef) (distinct : ∀ d ∈ defs, d.ips.Nodup)
    (penalty : Nat) (s : Selector F) (reachable : Reachable defs penalty s) (g : Nat)
    (h : HostStateInner F) (group : s.hosts[g]? = some h) (nonempty : h.candidates ≠ [])
    (host : String) (routed : s.indexOf host = some g) (clock : Nat → Nat) :
    s.dashboardBest g clock = s.bestIp host (clock g) ↔
      UndisputedLeader h.candidates (clock g) penalty := by
  have samePenalty : s.failurePenalty = penalty := reachable.sameGroups.penalty
  have nodup : (h.candidates.map (·.ip)).Nodup := reachable.nodup distinct group
  rw [dashboardBest_eq group, bestIp_eq routed group, samePenalty,
    ← rankings_agree_iff nodup.of_map]
  -- both sides pick something; they agree when they pick the same candidate
  obtain ⟨c, shown⟩ := Option.isSome_iff_exists.mp (isSome_shown nonempty (clock g) penalty)
  obtain ⟨b, chosen⟩ := Option.isSome_iff_exists.mp (isSome_chosen nonempty (clock g) penalty)
  have first := head?_insertionSort.mp shown
  have inList : b ∈ h.candidates := mem_of_bestCandidate chosen
  rw [shown, chosen]
  simp only [Option.map_some, Option.some.injEq]
  constructor
  · intro ips
    have same : c = b := List.inj_on_of_nodup_map nodup first.mem inList ips
    exact ⟨c, first, by rw [same]⟩
  · rintro ⟨e, leads, best⟩
    rw [first.unique leads, best]

theorem dashboardBest_eq_bestIp_iff_fresh :
    (new (F := ℚ) [testDef [.v4 1 1 1 1, .v4 2 2 2 2]] 60).dashboardBest 0 (fun _ => 1000) =
        (new (F := ℚ) [testDef [.v4 1 1 1 1, .v4 2 2 2 2]] 60).bestIp "cdn.example.com" 1000 ↔
      UndisputedLeader (F := ℚ) (freshCandidates [.v4 1 1 1 1, .v4 2 2 2 2]) 1000 60 :=
  dashboardBest_eq_bestIp_iff [testDef [.v4 1 1 1 1, .v4 2 2 2 2]] (by decide) 60 _ .new 0
    ⟨testDef [.v4 1 1 1 1, .v4 2 2 2 2], [.v4 1 1 1 1, .v4 2 2 2 2], none,
      freshCandidates [.v4 1 1 1 1, .v4 2 2 2 2]⟩ rfl (by simp [freshCandidates]) "cdn.example.com"
    rfl fun _ => 1000

/-- On a new selector the two differ: with equal scores the dashboard shows the first
candidate as best and the proxy routes to the last one. -/
theorem dashboardBest_ne_bestIp_fresh :
    (new (F := ℚ) [testDef [.v4 1 1 1 1, .v4 2 2 2 2]] 60).dashboardBest 0 (fun _ => 1000) =
        some (.v4 1 1 1 1) ∧
      (new (F := ℚ) [testDef [.v4 1 1 1 1, .v4 2 2 2 2]] 60).bestIp "cdn.example.com" 1000 =
        some (.v4 2 2 2 2) := by
  decide +kernel

end Group
end Selector
end XboxProxy
