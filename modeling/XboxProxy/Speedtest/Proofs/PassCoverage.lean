import XboxProxy.Selector.Routing
import XboxProxy.Speedtest.Pass

/-!
# What a pass covers

A pass measures a prefix of its listing, whole waves up to the first busy answer, and hands
each result on exactly once. When every group is routed to by its own name and no group lists
an address twice, the results go to different candidates, so the order in which they come
changes nothing but time stamps.
-/

namespace XboxProxy
open Misc

section Pass
variable {F : Type}

/-- The listing of a pass: the tasks of the definitions it was given. -/
def PassInputs.listing (inputs : PassInputs F) (s : Selector F) (urlOverride : Option String) :
    List SpeedTask :=
  match targetDefs inputs.parse s urlOverride with
  | none => []
  | some (defs, overrideUri) => passTasks inputs.parse defs overrideUri

/-- The call of `update_result` for a task that has finished. -/
def resultCall (inputs : PassInputs F) (f : FinishedTask) : SelectorCall F :=
  let r := inputs.measure f.task
  .updateResult f.task.hostDef.name f.task.ip r.latencyMs r.speedKbps r.success f.updatedAt

/-- The record of a task that has finished. -/
def resultRecord (inputs : PassInputs F) (f : FinishedTask) : DbCommand F :=
  let r := inputs.measure f.task
  .insertSpeedTest
    { ts := f.recordedAt
      host := f.task.hostDef.name
      ip := f.task.ip.toString
      latencyMs := r.latencyMs
      speedKbps := r.speedKbps
      success := r.success }

/-- Results of `tasks` have been handed on between `p` and `q`, one update and one record for
each. -/
structure HandsOn (inputs : PassInputs F) (p q : PassState F) (tasks : List SpeedTask) :
    Prop where
  finished : ∃ fs : List FinishedTask, fs.map (·.task) = tasks ∧
    q.finished = p.finished ++ fs ∧
    q.selector = p.selector.runCalls (fs.map (resultCall inputs)) ∧
    q.metrics.dbTx = p.metrics.dbTx ++ fs.map (resultRecord inputs)
  measured : q.measured = p.measured

theorem foldl_finishTask (inputs : PassInputs F) (schedule : PassSchedule) (p : PassState F)
    (tasks : List SpeedTask) :
    HandsOn inputs p (tasks.foldl (finishTask inputs schedule) p) tasks := by
  induction tasks generalizing p with
  | nil => exact ⟨⟨[], rfl, by simp, rfl, by simp⟩, rfl⟩
  | cons task tasks ih =>
    obtain ⟨⟨fs, same, finished, selector, records⟩, measured⟩ :=
      ih (finishTask inputs schedule p task)
    refine ⟨⟨⟨task, schedule.updateClock p.finished.length,
      schedule.recordClock p.finished.length⟩ :: fs, ?_, ?_, ?_, ?_⟩, measured⟩
    · rw [List.map_cons, same]
    · rw [List.foldl_cons, finished]
      simp [finishTask]
    · rw [List.foldl_cons, selector]
      rfl
    · rw [List.foldl_cons, records]
      simp [finishTask, MetricsStore.recordSpeedtest, resultRecord]

/-- How far a pass is that started from `s` and `m`: the measured tasks, each finished once. -/
structure PassProgress (inputs : PassInputs F) (s : Selector F) (m : MetricsStore F)
    (done : List SpeedTask) (p : PassState F) : Prop where
  measured : p.measured = done
  once : (p.finished.map (·.task)).Perm done
  updates : p.selector = s.runCalls (p.finished.map (resultCall inputs))
  records : p.metrics.dbTx = m.dbTx ++ p.finished.map (resultRecord inputs)

variable {inputs : PassInputs F} {s : Selector F} {m : MetricsStore F} {p : PassState F}
  {done : List SpeedTask}

theorem progress_start : PassProgress inputs s m [] ⟨s, m, [], []⟩ :=
  ⟨rfl, .nil, rfl, (List.append_nil _).symm⟩

/-- A wave measures its tasks. -/
theorem PassProgress.runWave (schedule : PassSchedule) (progress : PassProgress inputs s m done p)
    (k : Nat) (wave : List SpeedTask) :
    PassProgress inputs s m (done ++ wave) (runWave inputs schedule k p wave) := by
  obtain ⟨⟨fs, same, finished, selector, records⟩, measured⟩ :=
    foldl_finishTask inputs schedule { p with measured := p.measured ++ wave }
      (schedule.completion k wave)
  refine ⟨?_, ?_, ?_, ?_⟩
  · unfold XboxProxy.runWave
    rw [measured, progress.measured]
  · unfold XboxProxy.runWave
    rw [finished, List.map_append, same]
    exact progress.once.append (schedule.completes k wave)
  · unfold XboxProxy.runWave
    rw [selector, finished, List.map_append, progress.updates]
    exact (List.foldl_append ..).symm
  · unfold XboxProxy.runWave
    rw [records, finished, List.map_append, progress.records, List.append_assoc]

/-- The waves run up to the first one that meets a busy answer. -/
theorem PassProgress.runWaves (schedule : PassSchedule) (forced : Bool) (k : Nat)
    (waves : List (List SpeedTask)) (progress : PassProgress inputs s m done p) :
    ∃ j ≤ waves.length, (∀ i < j, forced = true ∨ inputs.busy (k + i) = false) ∧
      (j < waves.length → forced = false ∧ inputs.busy (k + j) = true) ∧
      PassProgress inputs s m (done ++ (waves.take j).flatten)
        (runWaves inputs schedule forced k p waves) := by
  induction waves generalizing k p done with
  | nil =>
    exact ⟨0, Nat.le_refl 0, by simp, by simp, by simpa [XboxProxy.runWaves] using progress⟩
  | cons wave waves ih =>
    unfold XboxProxy.runWaves
    by_cases stops : (!forced && inputs.busy k) = true
    · rw [if_pos stops]
      simp only [Bool.and_eq_true, Bool.not_eq_true'] at stops
      exact ⟨0, Nat.zero_le _, by simp, fun _ => stops, by simpa using progress⟩
    · rw [if_neg stops]
      obtain ⟨j, short, quiet, next, after⟩ := ih (k + 1) (progress.runWave schedule k wave)
      refine ⟨j + 1, Nat.succ_le_succ short, ?_, ?_, ?_⟩
      · intro i before
        cases i with
        | zero =>
          cases forced with
          | true => exact .inl rfl
          | false => exact .inr (by simpa using stops)
        | succ i =>
          have later := quiet i (by omega)
          rwa [Nat.add_right_comm] at later
      · intro more
        have later := next (by simpa using more)
        rwa [Nat.add_right_comm] at later
      · rw [List.take_succ_cons, List.flatten_cons, ← List.append_assoc]
        exact after

theorem runPass_eq (inputs : PassInputs F) (schedule : PassSchedule) (maxConcurrency : Nat)
    (forced : Bool) (urlOverride : Option String) (s : Selector F) (m : MetricsStore F) :
    runPass inputs schedule maxConcurrency forced urlOverride s m =
      runWaves inputs schedule forced 0 ⟨s, m, [], []⟩
        (chunks (max maxConcurrency 1) (inputs.listing s urlOverride)) := by
  unfold runPass PassInputs.listing
  cases targetDefs inputs.parse s urlOverride with
  | none => rfl
  | some target => rfl

/-- What a pass over a listing does, in waves of `n`. -/
structure Covers (inputs : PassInputs F) (n : Nat) (forced : Bool) (listing : List SpeedTask)
    (s : Selector F) (m : MetricsStore F) (after : PassState F) : Prop where
  /-- `k` is the number of waves before the first busy answer. -/
  coverage : ∃ k ≤ (listing.length + n - 1) / n,
    (∀ i < k, forced = true ∨ inputs.busy i = false) ∧
    (k < (listing.length + n - 1) / n → forced = false ∧ inputs.busy k = true) ∧
    after.measured = listing.take (k * n)
  once : (after.finished.map (·.task)).Perm after.measured
  updates : after.selector = s.runCalls (after.finished.map (resultCall inputs))
  records : after.metrics.dbTx = m.dbTx ++ after.finished.map (resultRecord inputs)

theorem covers_listing (inputs : PassInputs F) (schedule : PassSchedule) (maxConcurrency : Nat)
    (forced : Bool) (urlOverride : Option String) (s : Selector F) (m : MetricsStore F) :
    Covers inputs (max maxConcurrency 1) forced (inputs.listing s urlOverride) s m
      (runPass inputs schedule maxConcurrency forced urlOverride s m) := by
  have pos : 0 < max maxConcurrency 1 := by omega
  have start : PassProgress inputs s m [] ⟨s, m, [], []⟩ := progress_start
  obtain ⟨k, short, quiet, next, progress⟩ := start.runWaves schedule forced 0
    (chunks (max maxConcurrency 1) (inputs.listing s urlOverride))
  rw [← runPass_eq, List.nil_append, flatten_take_chunks pos] at progress
  simp only [length_chunks pos, Nat.zero_add] at short quiet next
  refine ⟨⟨k, short, quiet, next, progress.measured⟩, ?_, progress.updates, progress.records⟩
  rw [progress.measured]
  exact progress.once

/-- A pass that stops later than another has met a busy answer without stopping. -/
theorem waves_le {forced : Bool} {total k k' : Nat} (short : k' ≤ total)
    (quiet : ∀ i < k', forced = true ∨ inputs.busy i = false)
    (next : k < total → forced = false ∧ inputs.busy k = true) : k' ≤ k := by
  by_contra later
  obtain ⟨unforced, busy⟩ := next (by omega)
  rcases quiet k (by omega) with forced | idle
  · rw [unforced] at forced
    cases forced
  · rw [busy] at idle
    cases idle

/-- What is measured depends on the listing and the busy answers only. -/
theorem Covers.measured_eq {n : Nat} {forced : Bool} {listing : List SpeedTask}
    {after after' : PassState F} (covers : Covers inputs n forced listing s m after)
    (covers' : Covers inputs n forced listing s m after') : after.measured = after'.measured := by
  obtain ⟨k, short, quiet, next, measured⟩ := covers.coverage
  obtain ⟨k', short', quiet', next', measured'⟩ := covers'.coverage
  have same : k = k' := Nat.le_antisymm (waves_le short quiet next') (waves_le short' quiet' next)
  rw [measured, measured', same]

/-- What a pass measures is in its listing. -/
theorem Covers.listed {n : Nat} {forced : Bool} {listing : List SpeedTask}
    (covers : Covers inputs n forced listing s m p) : ∀ t ∈ p.measured, t ∈ listing := by
  intro t member
  obtain ⟨k, -, -, -, measured⟩ := covers.coverage
  rw [measured] at member
  exact List.mem_of_mem_take member

/-! ## Where the results go -/

/-- No group has an address twice. -/
def Selector.Distinct (s : Selector F) : Prop := ∀ h ∈ s.hosts, (h.candidates.map (·.ip)).Nodup

theorem mem_passTasks {parse : String → Option Uri} {defs : List HostDef}
    {overrideUri : Option Uri} {t : SpeedTask} (member : t ∈ passTasks parse defs overrideUri) :
    t.hostDef ∈ defs := by
  obtain ⟨place, bound, rfl⟩ := List.mem_mapIdx.mp member
  have pair := List.getElem_mem bound
  obtain ⟨d, listed, pair⟩ := List.mem_flatMap.mp pair
  split at pair
  · cases pair
  · obtain ⟨ip, -, same⟩ := List.mem_map.mp pair
    rw [← same]
    exact listed

/-- The definitions of a pass are those of groups. -/
theorem of_targetDefs {parse : String → Option Uri} {urlOverride : Option String}
    {defs : List HostDef} {overrideUri : Option Uri}
    (target : targetDefs parse s urlOverride = some (defs, overrideUri)) :
    defs = s.defs ∨ ∃ h ∈ s.hosts, defs = [Selector.liveDef h] := by
  cases urlOverride with
  | none =>
    simp only [targetDefs, Option.some.injEq, Prod.mk.injEq] at target
    exact .inl target.1.symm
  | some raw =>
    simp only [targetDefs, Option.bind_eq_bind, Option.bind_eq_some_iff, Option.pure_def,
      Option.some.injEq, Prod.mk.injEq] at target
    obtain ⟨uri, -, host, -, d, found, rfl, -⟩ := target
    obtain ⟨h, inner, rfl⟩ := Option.map_eq_some_iff.mp found
    obtain ⟨g, -, group⟩ := Option.bind_eq_some_iff.mp inner
    exact .inr ⟨h, List.mem_of_getElem? group, rfl⟩

/-- A task of the listing belongs to a group. -/
theorem group_of_mem_listing {urlOverride : Option String} {t : SpeedTask}
    (member : t ∈ inputs.listing s urlOverride) :
    ∃ (g : Nat) (h : HostStateInner F), s.hosts[g]? = some h ∧ t.hostDef = Selector.liveDef h := by
  unfold PassInputs.listing at member
  split at member
  · cases member
  · rename_i defs overrideUri target
    have listed := mem_passTasks member
    have live : ∃ h ∈ s.hosts, t.hostDef = Selector.liveDef h := by
      rcases of_targetDefs target with rfl | ⟨h, found, rfl⟩
      · obtain ⟨h, found, same⟩ := List.mem_map.mp listed
        exact ⟨h, found, same.symm⟩
      · exact ⟨h, found, List.mem_singleton.mp listed⟩
    obtain ⟨h, found, same⟩ := live
    obtain ⟨g, group⟩ := List.mem_iff_getElem?.mp found
    exact ⟨g, h, group, same⟩

/-- With groups routed to by their names, it is the one its results go to. -/
theorem routed_of_mem_listing (named : s.NamesRouted) {urlOverride : Option String}
    {t : SpeedTask} (member : t ∈ inputs.listing s urlOverride) :
    ∃ (g : Nat) (h : HostStateInner F), s.hosts[g]? = some h ∧
      t.hostDef = Selector.liveDef h ∧ s.indexOf t.hostDef.name = some g := by
  obtain ⟨g, h, group, same⟩ := group_of_mem_listing member
  refine ⟨g, h, group, same, ?_⟩
  rw [same]
  exact named g h group

/-- The candidate a task is about: the group its name is routed to, and the address. -/
def Selector.target (s : Selector F) (t : SpeedTask) : Option Nat × IpAddr :=
  (s.indexOf t.hostDef.name, t.ip)

/-- The candidates that the listing is about, definition by definition. -/
theorem map_target_passTasks (parse : String → Option Uri) (defs : List HostDef)
    (overrideUri : Option Uri) :
    (passTasks parse defs overrideUri).map s.target =
      defs.flatMap fun d =>
        if (overrideUri.or (parse d.testUrl)).isSome then
          d.ips.map fun ip => (s.indexOf d.name, ip)
        else [] := by
  have forget : ∀ pairs : List (HostDef × IpAddr × Uri),
      (pairs.mapIdx fun place pair => SpeedTask.mk place pair.1 pair.2.1 pair.2.2).map s.target =
        pairs.map fun pair => (s.indexOf pair.1.name, pair.2.1) := by
    intro pairs
    apply List.ext_getElem?
    intro i
    rw [List.getElem?_map, List.getElem?_mapIdx, List.getElem?_map, Option.map_map]
    rfl
  unfold passTasks
  rw [forget, List.map_flatMap]
  congr 1
  funext d
  cases overrideUri.or (parse d.testUrl) with
  | none => rfl
  | some testUrl =>
    show (d.ips.map fun ip => (d, ip, testUrl)).map _ = d.ips.map _
    rw [List.map_map]
    rfl

/-- With groups routed to by their names and addresses listed once, no two tasks are about the
same candidate. -/
theorem nodup_targets (named : s.NamesRouted) (distinct : s.Distinct)
    (urlOverride : Option String) : ((inputs.listing s urlOverride).map s.target).Nodup := by
  unfold PassInputs.listing
  split
  · exact List.nodup_nil
  · rename_i defs overrideUri target
    rw [map_target_passTasks, List.nodup_flatMap]
    have ips : ∀ d ∈ defs, d.ips.Nodup := by
      intro d listed
      rcases of_targetDefs target with rfl | ⟨h, found, rfl⟩
      · obtain ⟨h, found, rfl⟩ := List.mem_map.mp listed
        exact distinct h found
      · rw [List.mem_singleton.mp listed]
        exact distinct h found
    have apart : defs.Pairwise fun d d' => s.indexOf d.name ≠ s.indexOf d'.name := by
      rcases of_targetDefs target with rfl | ⟨h, found, rfl⟩
      · refine List.pairwise_map.mpr (List.pairwise_iff_getElem.mpr ?_)
        intro i j before within less
        have first := named i _ (List.getElem?_eq_getElem before)
        have second := named j _ (List.getElem?_eq_getElem within)
        show s.indexOf s.hosts[i].hostDef.name ≠ s.indexOf s.hosts[j].hostDef.name
        rw [first, second]
        intro same
        have equal := Option.some.inj same
        omega
      · exact List.pairwise_singleton _ _
    have key : ∀ (usable : Bool) (d : HostDef) (pair : Option Nat × IpAddr),
        (pair ∈ if usable then d.ips.map fun ip => (s.indexOf d.name, ip) else []) →
          pair.1 = s.indexOf d.name := by
      intro usable d pair member
      split at member
      · obtain ⟨ip, -, rfl⟩ := List.mem_map.mp member
        rfl
      · cases member
    refine ⟨?_, apart.imp ?_⟩
    · intro d listed
      split
      · exact (ips d listed).map fun ip ip' same => congrArg Prod.snd same
      · exact List.nodup_nil
    · intro d d' ne pair first second
      exact ne ((key _ d pair first).symm.trans (key _ d' pair second))

end Pass
end XboxProxy
