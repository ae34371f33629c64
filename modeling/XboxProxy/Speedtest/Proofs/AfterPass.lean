import XboxProxy.Proxy.Proofs.DistinctAttempts
import XboxProxy.Selector.Proofs.Choice
import XboxProxy.Speedtest.Measure
import XboxProxy.Speedtest.Proofs.CompletionOrder

/-!
# Where the traffic goes after a pass

A pass that runs to its end leaves each candidate of a group it tests with one result. As long
as the failures of the pass count, `best_ip` serves the group from the address that the pass
measured best, whatever was measured before and in whatever order the tests complete.
-/

namespace XboxProxy
open Misc

section AfterPass
variable {F : Type}

/-! ## The candidates after a pass -/

/-- A candidate of group `g` with the result of the task about it, if there is one. -/
def credited (inputs : PassInputs F) (s : Selector F) (g : Nat) (fs : List FinishedTask)
    (c : CandidateState F) : CandidateState F :=
  match fs.find? fun f => s.target f.task = (some g, c.ip) with
  | none => c
  | some f =>
    let r := inputs.measure f.task
    Selector.recordResult s.failurePenalty r.latencyMs r.speedKbps r.success f.updatedAt c

variable {inputs : PassInputs F} {s : Selector F} {g : Nat} {fs : List FinishedTask}

theorem credited_ip (c : CandidateState F) : (credited inputs s g fs c).ip = c.ip := by
  unfold credited
  split
  · rfl
  · exact Selector.recordResult_ip _ _ _ _ _ c

/-- A task about another candidate makes no difference. -/
theorem credited_snoc_of_ne {f : FinishedTask} {c : CandidateState F}
    (other : s.target f.task ≠ (some g, c.ip)) :
    credited inputs s g (fs ++ [f]) c = credited inputs s g fs c := by
  unfold credited
  rw [List.find?_append]
  simp [other]

/-- The first task about a candidate gives it its result. -/
theorem credited_snoc {f : FinishedTask} {c : CandidateState F}
    (here : s.target f.task = (some g, c.ip))
    (first : ∀ f' ∈ fs, s.target f'.task ≠ s.target f.task) :
    credited inputs s g (fs ++ [f]) c =
      Selector.recordResult s.failurePenalty (inputs.measure f.task).latencyMs
        (inputs.measure f.task).speedKbps (inputs.measure f.task).success f.updatedAt
        (credited inputs s g fs c) := by
  have none : (fs.find? fun f => s.target f.task = (some g, c.ip)) = none := by
    rw [List.find?_eq_none]
    intro f' member
    rw [← here]
    simpa using first f' member
  unfold credited
  rw [List.find?_append, none]
  simp [here]

/-- Results about different candidates leave each candidate of a group with its own. -/
theorem group_of_results (inputs : PassInputs F) {h : HostStateInner F}
    (group : s.hosts[g]? = some h) (distinct : (h.candidates.map (·.ip)).Nodup)
    (once : (fs.map (s.target ·.task)).Nodup) :
    (s.runCalls (fs.map (resultCall inputs))).hosts[g]? =
      some { h with candidates := h.candidates.map (credited inputs s g fs) } := by
  induction fs using List.reverseRecOn with
  | nil =>
    have unchanged : h.candidates.map (credited inputs s g []) = h.candidates := List.map_id _
    rw [unchanged]
    exact group
  | append_singleton fs f ih =>
    rw [List.map_append, List.nodup_append] at once
    obtain ⟨before, -, apart⟩ := once
    have first : ∀ f' ∈ fs, s.target f'.task ≠ s.target f.task := fun f' member =>
      apart _ (List.mem_map_of_mem member) _ (by simp)
    have same := Selector.sameGroups_runCalls s (fs.map (resultCall inputs))
    rw [List.map_append, List.map_singleton, Selector.runCalls_append]
    by_cases routed : s.indexOf f.task.hostDef.name = some g
    · show (Selector.updateResult _ _ _ _ _ _ _).hosts[g]? = _
      rw [Selector.getElem?_updateResult ((same.indexOf _).trans routed), ih before,
        Option.map_some, same.penalty]
      have ips : ((h.candidates.map (credited inputs s g fs)).map (·.ip)).Nodup := by
        rw [List.map_map]
        simpa [Function.comp_def, credited_ip] using distinct
      simp only [modifyFirst_eq_map f.task.ip ips, List.map_map]
      congr 2
      apply List.map_congr_left
      intro c _
      rw [Function.comp_apply, credited_ip]
      by_cases here : c.ip = f.task.ip
      · rw [if_pos here, credited_snoc (Prod.ext routed here.symm) first]
      · rw [if_neg here, credited_snoc_of_ne]
        intro equal
        exact here (congrArg Prod.snd equal).symm
    · show (Selector.updateResult _ _ _ _ _ _ _).hosts[g]? = _
      rw [Selector.getElem?_updateResult_of_ne (by rwa [same.indexOf]), ih before]
      congr 2
      apply List.map_congr_left
      intro c _
      rw [credited_snoc_of_ne]
      intro equal
      exact routed (congrArg Prod.fst equal)

/-- Of results about different candidates, the one about `c` is the one it is left with. -/
theorem credited_of_mem (once : (fs.map (s.target ·.task)).Nodup) {f : FinishedTask}
    (member : f ∈ fs) {c : CandidateState F} (here : s.target f.task = (some g, c.ip)) :
    credited inputs s g fs c =
      Selector.recordResult s.failurePenalty (inputs.measure f.task).latencyMs
        (inputs.measure f.task).speedKbps (inputs.measure f.task).success f.updatedAt c := by
  unfold credited
  split
  · rename_i none
    exact absurd (decide_eq_true here) (List.find?_eq_none.mp none f member)
  · rename_i f' found
    have here' : s.target f'.task = (some g, c.ip) := by simpa using List.find?_some found
    obtain rfl : f' = f := List.inj_on_of_nodup_map once (List.mem_of_find?_eq_some found) member
      (here'.trans here.symm)
    rfl

/-! ## Their scores -/

section Score
variable [Float64 F]

/-- The score that a result earns: speed before latency. -/
def MeasureResult.score (r : MeasureResult F) : F :=
  r.speedKbps.getD (Float64.ofNat 0) * Float64.ofNat 1000 -
    Float64.ofNat (F := F) (r.latencyMs.getD 0)

/-- A measurement that succeeds has a latency and a speed. -/
theorem isSome_of_success {cfg : MeasureConfig} {answer : MeasureAnswer F}
    (success : (measure cfg answer).success = true) :
    (measure cfg answer).latencyMs.isSome = true ∧
      (measure cfg answer).speedKbps.isSome = true := by
  cases answer with
  | timedOut => cases success
  | failed e => cases success
  | responded status latencyMs turns elapsedSecs =>
    cases good : isSuccess status with
    | false => simp [measure, good] at success
    | true => simp [measure, good]

/-- A result with a latency and a speed replaces what a candidate was scored by before. -/
theorem scoreAt_recordResult {r : MeasureResult F} (latency : r.latencyMs.isSome = true)
    (speed : r.speedKbps.isSome = true) (c : CandidateState F) (at' now penalty : Nat) :
    scoreAt (Selector.recordResult penalty r.latencyMs r.speedKbps true at' c) now penalty =
      r.score := by
  simp [scoreAt, Selector.recordResult, MeasureResult.score, latency, speed]

end Score

/-! ## What a whole pass covers -/

/-- A pass that no busy answer stops measures its listing. -/
theorem Covers.measured_all {n : Nat} {forced : Bool} {listing : List SpeedTask}
    {m : MetricsStore F} {p : PassState F} (covers : Covers inputs n forced listing s m p)
    (pos : 0 < n) (quiet : forced = true ∨ ∀ k, inputs.busy k = false) : p.measured = listing := by
  obtain ⟨k, short, -, next, measured⟩ := covers.coverage
  have all : k = (listing.length + n - 1) / n := by
    by_contra differs
    obtain ⟨unforced, busy⟩ := next (by omega)
    rcases quiet with forced | idle
    · rw [forced] at unforced
      cases unforced
    · rw [idle k] at busy
      cases busy
  have enough : listing.length ≤ k * n := by
    have := Nat.lt_div_mul_add (a := listing.length + n - 1) pos
    rw [all]
    omega
  rw [measured, List.take_of_length_le enough]

/-- A task tests an address of its definition. -/
theorem ip_of_mem_listing {urlOverride : Option String} {t : SpeedTask}
    (member : t ∈ inputs.listing s urlOverride) : t.ip ∈ t.hostDef.ips := by
  unfold PassInputs.listing at member
  split at member
  · cases member
  · obtain ⟨place, bound, rfl⟩ := List.mem_mapIdx.mp member
    obtain ⟨d, -, pair⟩ := List.mem_flatMap.mp (List.getElem_mem bound)
    split at pair
    · cases pair
    · obtain ⟨ip, listed, same⟩ := List.mem_map.mp pair
      rw [← same]
      exact listed

/-- A listing with one candidate of a group has all of them. -/
theorem mem_targets_of_group (named : s.NamesRouted) {h : HostStateInner F}
    (group : s.hosts[g]? = some h) {urlOverride : Option String} {t : SpeedTask}
    (member : t ∈ inputs.listing s urlOverride) (routed : s.indexOf t.hostDef.name = some g) :
    ∀ c ∈ h.candidates, ∃ t' ∈ inputs.listing s urlOverride, s.target t' = (some g, c.ip) := by
  intro c candidate
  unfold PassInputs.listing at member ⊢
  split at member
  · cases member
  · rename_i defs overrideUri target
    have listed := List.mem_map_of_mem (f := s.target) member
    rw [map_target_passTasks] at listed
    obtain ⟨d, inDefs, usable⟩ := List.mem_flatMap.mp listed
    split at usable
    case isFalse => cases usable
    rename_i parses
    obtain ⟨ip, -, same⟩ := List.mem_map.mp usable
    have routedDef : s.indexOf d.name = some g := (congrArg Prod.fst same).trans routed
    have live : ∃ h' ∈ s.hosts, d = Selector.liveDef h' := by
      rcases of_targetDefs target with rfl | ⟨h', found, rfl⟩
      · obtain ⟨h', found, rfl⟩ := List.mem_map.mp inDefs
        exact ⟨h', found, rfl⟩
      · exact ⟨h', found, List.mem_singleton.mp inDefs⟩
    obtain ⟨h', found, rfl⟩ := live
    obtain ⟨g', group'⟩ := List.mem_iff_getElem?.mp found
    obtain rfl : g' = g := Option.some.inj ((named g' h' group').symm.trans routedDef)
    obtain rfl : h' = h := Option.some.inj (group'.symm.trans group)
    have target' : (some g', c.ip) ∈ (passTasks inputs.parse defs overrideUri).map s.target := by
      rw [map_target_passTasks, List.mem_flatMap]
      refine ⟨_, inDefs, ?_⟩
      rw [if_pos parses, List.mem_map]
      exact ⟨c.ip, List.mem_map_of_mem candidate, Prod.ext routedDef rfl⟩
    obtain ⟨t', inTasks, equal⟩ := List.mem_map.mp target'
    exact ⟨t', inTasks, equal⟩

end AfterPass

/-! ## The address that is served -/

section Served
variable {F : Type} [Float64 F]

/-- What a pass meets when its measurements are answered by `answers`. -/
def PassInputs.answered (parse : String → Option Uri) (cfg : MeasureConfig)
    (answers : SpeedTask → MeasureAnswer F) (busy : Nat → Bool) : PassInputs F where
  parse
  measure t := XboxProxy.measure cfg (answers t)
  busy

/-- `t` has succeeded for group `g`, with an address that no failure before the pass keeps out at
`now`. -/
structure Contends (inputs : PassInputs F) (s : Selector F) (after : PassState F) (g now : Nat)
    (t : SpeedTask) : Prop where
  measured : t ∈ after.measured
  routed : s.indexOf t.hostDef.name = some g
  success : (inputs.measure t).success = true
  rested : ∀ h, s.hosts[g]? = some h → ∀ c ∈ h.candidates, c.ip = t.ip →
    c.Unpenalised now s.failurePenalty

variable {inputs : PassInputs F} {s : Selector F} {after : PassState F} {g now : Nat}
  {h : HostStateInner F}

/-- What a test leaves its candidate with: a contender may be chosen and has the score that it
has earned, any other test that has ended leaves a penalty. -/
theorem credited_of_measured {f : FinishedTask} {c : CandidateState F}
    (full : ∀ t, (inputs.measure t).success = true →
      (inputs.measure t).latencyMs.isSome = true ∧ (inputs.measure t).speedKbps.isSome = true)
    (once : (after.finished.map (s.target ·.task)).Nodup) (member : f ∈ after.finished)
    (here : s.target f.task = (some g, c.ip))
    (soon : (inputs.measure f.task).success = false → now ≤ f.updatedAt + s.failurePenalty) :
    ((credited inputs s g after.finished c).Unpenalised now s.failurePenalty ↔
      (inputs.measure f.task).success = true ∧ c.Unpenalised now s.failurePenalty) ∧
    ((inputs.measure f.task).success = true →
      scoreAt (credited inputs s g after.finished c) now s.failurePenalty =
        (inputs.measure f.task).score) := by
  rw [credited_of_mem once member here]
  unfold CandidateState.Unpenalised
  rw [Selector.recordResult_lastFailTs]
  cases success : (inputs.measure f.task).success with
  | true =>
    obtain ⟨latency, speed⟩ := full f.task success
    exact ⟨by simp, fun _ => scoreAt_recordResult latency speed c _ _ _⟩
  | false =>
    have := soon success
    refine ⟨?_, by simp⟩
    simp only [Bool.false_eq_true, if_false, false_and, iff_false]
    omega

/-- A contender stands for a candidate that may be chosen and has the score it has earned. -/
theorem Contends.stands {urlOverride : Option String} {t : SpeedTask}
    (contends : Contends inputs s after g now t) (named : s.NamesRouted)
    (full : ∀ t, (inputs.measure t).success = true →
      (inputs.measure t).latencyMs.isSome = true ∧ (inputs.measure t).speedKbps.isSome = true)
    (all : after.measured = inputs.listing s urlOverride)
    (ended : (after.finished.map (·.task)).Perm after.measured)
    (once : (after.finished.map (s.target ·.task)).Nodup)
    (soon : ∀ f ∈ after.finished, (inputs.measure f.task).success = false →
      now ≤ f.updatedAt + s.failurePenalty) (group : s.hosts[g]? = some h) :
    ∃ c ∈ h.candidates,
      (credited inputs s g after.finished c).Unpenalised now s.failurePenalty ∧
      scoreAt (credited inputs s g after.finished c) now s.failurePenalty =
        (inputs.measure t).score := by
  have listed : t ∈ inputs.listing s urlOverride := all ▸ contends.measured
  obtain ⟨g', h', group', live, routed⟩ := routed_of_mem_listing named listed
  obtain rfl : g' = g := Option.some.inj (routed.symm.trans contends.routed)
  obtain rfl : h' = h := Option.some.inj (group'.symm.trans group)
  have address := ip_of_mem_listing listed
  rw [live] at address
  obtain ⟨c, candidate, ip⟩ := List.mem_map.mp address
  obtain ⟨f, finished, rfl⟩ := List.mem_map.mp (ended.mem_iff.mpr contends.measured)
  obtain ⟨up, score⟩ := credited_of_measured full once finished (c := c)
    (Prod.ext contends.routed ip.symm) (soon f finished)
  exact ⟨c, candidate, up.mpr ⟨contends.success, contends.rested _ group c candidate ip⟩,
    score contends.success⟩

/-- A whole pass with a contender decides over the group: it is served from the contender with
the best score. -/
theorem bestIp_of_covers {n : Nat} {forced : Bool} {m : MetricsStore F}
    {urlOverride : Option String} (named : s.NamesRouted) (distinct : s.Distinct)
    (full : ∀ t, (inputs.measure t).success = true →
      (inputs.measure t).latencyMs.isSome = true ∧ (inputs.measure t).speedKbps.isSome = true)
    (covers : Covers inputs n forced (inputs.listing s urlOverride) s m after) (pos : 0 < n)
    (quiet : forced = true ∨ ∀ k, inputs.busy k = false)
    (soon : ∀ f ∈ after.finished, (inputs.measure f.task).success = false →
      now ≤ f.updatedAt + s.failurePenalty)
    (contended : ∃ t, Contends inputs s after g now t) :
    ∃ t, Contends inputs s after g now t ∧
      (∀ t', Contends inputs s after g now t' →
        (inputs.measure t').score ≤ (inputs.measure t).score) ∧
      ∀ host, s.indexOf host = some g → after.selector.bestIp host now = some t.ip := by
  have all : after.measured = inputs.listing s urlOverride := covers.measured_all pos quiet
  have once : (after.finished.map (s.target ·.task)).Nodup := by
    have nodup : ((inputs.listing s urlOverride).map s.target).Nodup :=
      nodup_targets named distinct urlOverride
    rw [← all, ← (covers.once.map s.target).nodup_iff, List.map_map] at nodup
    exact nodup
  obtain ⟨t₀, contends₀⟩ := contended
  obtain ⟨g', h, group, live, routed⟩ := routed_of_mem_listing named (all ▸ contends₀.measured)
  obtain rfl : g' = g := Option.some.inj (routed.symm.trans contends₀.routed)
  have nodup := distinct h (List.mem_of_getElem? group)
  have results := group_of_results inputs group nodup once
  rw [← covers.updates] at results
  have tested : ∀ c ∈ h.candidates, ∃ f ∈ after.finished, s.target f.task = (some g', c.ip) := by
    intro c candidate
    obtain ⟨t, listed, target⟩ :=
      mem_targets_of_group named group (all ▸ contends₀.measured) routed c candidate
    rw [← all, ← covers.once.mem_iff] at listed
    obtain ⟨f, finished, rfl⟩ := List.mem_map.mp listed
    exact ⟨f, finished, target⟩
  obtain ⟨c₀, candidate₀, up₀, -⟩ := contends₀.stands named full all covers.once once soon group
  obtain ⟨best, chosen⟩ := Option.isSome_iff_exists.mp
    (Selector.isSome_chosen (List.ne_nil_of_mem
      (List.mem_map_of_mem (f := credited inputs s g' after.finished) candidate₀)) now
      s.failurePenalty)
  obtain ⟨member, eligible, greatest⟩ := Selector.bestCandidate_spec chosen
  obtain ⟨c, candidate, rfl⟩ := List.mem_map.mp member
  obtain ⟨f, finished, target⟩ := tested c candidate
  obtain ⟨up, score⟩ := credited_of_measured full once finished target (soon f finished)
  obtain ⟨success, rested⟩ := up.mp (eligible.resolve_right fun none =>
    none _ (List.mem_map_of_mem candidate₀) up₀)
  refine ⟨f.task, ⟨covers.once.mem_iff.mp (List.mem_map_of_mem finished),
    congrArg Prod.fst target, success, ?_⟩, ?_, ?_⟩
  · intro h' group' c' candidate' ip
    obtain rfl : h = h' := Option.some.inj (group.symm.trans group')
    rwa [List.inj_on_of_nodup_map nodup candidate' candidate
      (ip.trans (congrArg Prod.snd target))]
  · intro t contends
    obtain ⟨c', candidate', up', score'⟩ :=
      contends.stands named full all covers.once once soon group
    rw [← score', ← score success]
    exact greatest _ (List.mem_map_of_mem candidate') (.inl up')
  · intro host served
    have same : Selector.SameGroups after.selector s := by
      rw [covers.updates]
      exact Selector.sameGroups_runCalls s _
    rw [Selector.bestIp_eq ((same.indexOf host).trans served) results, same.penalty, chosen,
      Option.map_some, credited_ip]
    exact congrArg some (congrArg Prod.snd target).symm

omit [Float64 F] in
/-- In the program no group has an address twice. -/
theorem distinct_load {xboxCn1 xboxCn2 : String} {pinCn1 pinCn2 : EnvVar}
    {loaded : LoadedEndpoints} (ok : load xboxCn1 xboxCn2 pinCn1 pinCn2 = .ok loaded)
    {penalty : Nat} (reachable : s.Reachable loaded.hosts penalty) : s.Distinct := by
  intro h member
  obtain ⟨g, group⟩ := List.mem_iff_getElem?.mp member
  exact reachable.nodup (fun d listed => (wellFormed_load ok d listed).2) group

/-- In the program, whatever has been called since the start: a pass that no traffic stops, in
whatever order its tests complete, leaves every host of a group with a contender served from
the contender it has measured best, until the penalties of the pass run out or somebody else
writes to the selector. -/
theorem bestIp_of_pass {xboxCn1 xboxCn2 : String} {pinCn1 pinCn2 : EnvVar}
    {loaded : LoadedEndpoints} (ok : load xboxCn1 xboxCn2 pinCn1 pinCn2 = .ok loaded)
    (penalty : Nat) (s : Selector F) (reachable : s.Reachable loaded.hosts penalty)
    (parse : String → Option Uri) (cfg : MeasureConfig) (answers : SpeedTask → MeasureAnswer F)
    (busy : Nat → Bool) (schedule : PassSchedule) (maxConcurrency : Nat) (forced : Bool)
    (quiet : forced = true ∨ ∀ k, busy k = false) (urlOverride : Option String)
    (m : MetricsStore F) (g now : Nat) :
    let inputs := PassInputs.answered parse cfg answers busy
    let after := runPass inputs schedule maxConcurrency forced urlOverride s m
    (∀ f ∈ after.finished, (inputs.measure f.task).success = false →
      now ≤ f.updatedAt + penalty) →
    (∃ t, Contends inputs s after g now t) →
    ∃ t, Contends inputs s after g now t ∧
      (∀ t', Contends inputs s after g now t' →
        (inputs.measure t').score ≤ (inputs.measure t).score) ∧
      ∀ host, s.indexOf host = some g → after.selector.bestIp host now = some t.ip := by
  intro inputs after soon contended
  have samePenalty : s.failurePenalty = penalty := reachable.sameGroups.penalty
  exact bestIp_of_covers (namesRouted_load ok reachable) (distinct_load ok reachable)
    (fun t success => isSome_of_success success)
    (covers_listing inputs schedule maxConcurrency forced urlOverride s m) (by omega) quiet
    (samePenalty ▸ soon) contended

end Served

/-- The first address answers with an error, the others with four bytes each, later ones
sooner. -/
def fourBytes (t : SpeedTask) : MeasureAnswer ℚ :=
  if t.place = 0 then .responded 503 5 [] 1
  else .responded 206 (40 - t.place) [⟨1000, .frame 4⟩, ⟨2000, .ended⟩] 1

/-- The groups of a list of three addresses and a list of one. -/
def threeAndOne : List HostDef :=
  List.zipWith EndpointSpec.hostDef (endpoints "" "")
    [[.v4 1 1 1 1, .v4 2 2 2 2, .v4 3 3 3 3], [.v4 4 4 4 4]]

/-- One address of the first group is out. -/
def oneOut : Selector ℚ :=
  (Selector.new threeAndOne 60).runCalls [.markFailure "xbox-assets" (.v4 3 3 3 3) 90]

/-- A pass over both groups, the tests completing in reverse. -/
def reversedPass : PassState ℚ :=
  runPass (.answered splitUri ⟨4, 500⟩ fourBytes fun _ => true) .reversed 64 true none oneOut .new

/-- The group and the address of a test, when its result is used, and whether it succeeds. -/
def timedResult (f : FinishedTask) : Option Nat × IpAddr × Nat × Bool :=
  (oneOut.indexOf f.task.hostDef.name, f.task.ip, f.updatedAt,
    (measure (F := ℚ) ⟨4, 500⟩ (fourBytes f.task)).success)

theorem tests_reversedPass : reversedPass.finished.map timedResult =
    [(some 1, .v4 4 4 4 4, 100, true), (some 0, .v4 3 3 3 3, 101, true),
      (some 0, .v4 2 2 2 2, 102, true), (some 0, .v4 1 1 1 1, 103, false)] := by
  decide +kernel

/-- Of the two addresses whose tests succeed, the slower one is served: the other has failed
before the pass. -/
theorem bestIp_of_pass_reversed :
    reversedPass.selector.bestIp "assets1.xboxlive.com" 110 = some (.v4 2 2 2 2) := by
  obtain ⟨loaded, ok, hosts⟩ : ∃ loaded,
      load "1.1.1.1\n2.2.2.2\n3.3.3.3\n" "4.4.4.4" (.ok none) (.ok none) = .ok loaded ∧
      loaded.hosts = threeAndOne := ⟨_, rfl, by decide +kernel⟩
  have reachable : Selector.Reachable loaded.hosts 60 oneOut := by
    rw [hosts]
    exact Selector.reachable_runCalls _ _ _
  have mem_measured {t : SpeedTask} :
      t ∈ reversedPass.measured ↔ ∃ f ∈ reversedPass.finished, f.task = t := by
    have covers := covers_listing (.answered splitUri ⟨4, 500⟩ fourBytes fun _ => true) .reversed
      64 true none oneOut .new
    rw [← List.mem_map]
    exact covers.once.mem_iff.symm
  have tested : ∀ f ∈ reversedPass.finished, timedResult f ∈ reversedPass.finished.map timedResult :=
    fun f member => List.mem_map_of_mem member
  rw [tests_reversedPass] at tested
  simp only [timedResult, List.mem_cons, Prod.mk.injEq, List.not_mem_nil, or_false] at tested
  obtain ⟨second, finished, is⟩ : ∃ f ∈ reversedPass.finished,
      timedResult f = (some 0, .v4 2 2 2 2, 102, true) := by
    rw [← List.mem_map, tests_reversedPass]
    decide
  simp only [timedResult, Prod.mk.injEq] at is
  obtain ⟨routed, ip, -, success⟩ := is
  have rested : ∀ h ∈ oneOut.hosts, ∀ c ∈ h.candidates, c.ip = .v4 2 2 2 2 →
      c.Unpenalised 110 60 := by decide +kernel
  have out : ∃ h ∈ oneOut.hosts[0]?, ∃ c ∈ h.candidates, c.ip = .v4 3 3 3 3 ∧
      ¬ c.Unpenalised 110 60 := by decide +kernel
  obtain ⟨t, contends, -, serves⟩ := bestIp_of_pass ok 60 oneOut reachable splitUri ⟨4, 500⟩
    fourBytes (fun _ => true) .reversed 64 true (.inl rfl) none .new 0 110
    (fun f member failed => by
      have late : f.updatedAt = 103 := by
        rcases tested f member with ⟨-, -, -, ok⟩ | ⟨-, -, -, ok⟩ | ⟨-, -, -, ok⟩ | ⟨-, -, at_, -⟩
        · cases ok.symm.trans failed
        · cases ok.symm.trans failed
        · cases ok.symm.trans failed
        · exact at_
      omega)
    ⟨second.task, mem_measured.mpr ⟨second, finished, rfl⟩, routed, success,
      fun h group c candidate same =>
        rested h (List.mem_of_getElem? group) c candidate (same.trans ip)⟩
  have only : t.ip = .v4 2 2 2 2 := by
    obtain ⟨f, member, rfl⟩ := mem_measured.mp contends.measured
    rcases tested f member with ⟨other, -⟩ | ⟨-, third, -⟩ | ⟨-, ip, -⟩ | ⟨-, -, -, failed⟩
    · cases other.symm.trans contends.routed
    · obtain ⟨h, group, c, candidate, same, penalised⟩ := out
      exact absurd (contends.rested h group c candidate (same.trans third.symm)) penalised
    · exact ip
    · cases failed.symm.trans contends.success
  rw [← only]
  exact serves "assets1.xboxlive.com" (by decide +kernel)

end XboxProxy
