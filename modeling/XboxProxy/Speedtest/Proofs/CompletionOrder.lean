import XboxProxy.Endpoints
import XboxProxy.Speedtest.Proofs.PassCoverage
import Mathlib.Data.Rat.Defs

/-!
# The order of completion

Time stamps aside, the result of a task is credited to one candidate in a way that does not
depend on the clock. Credits to different candidates commute, so the order in which the tasks
of a wave complete leaves no trace in the candidates.
-/

namespace XboxProxy
open Misc

section Untimed
variable {F : Type}

/-! ## Candidates without their time stamps -/

/-- A candidate without its time stamps. -/
def CandidateState.untimed (c : CandidateState F) : CandidateState F :=
  { c with lastOkTs := 0, lastFailTs := 0 }

/-- A group without the time stamps of its candidates. -/
def HostStateInner.untimed (h : HostStateInner F) : HostStateInner F :=
  { h with candidates := h.candidates.map CandidateState.untimed }

/-- A selector without the time stamps of its candidates. -/
def Selector.untimed (s : Selector F) : Selector F :=
  { s with hosts := s.hosts.map HostStateInner.untimed }

/-- What a result leaves of a candidate, time stamps aside. -/
def creditResult (r : MeasureResult F) (c : CandidateState F) : CandidateState F :=
  (Selector.recordResult 0 r.latencyMs r.speedKbps r.success 0 c).untimed

/-- The clock and the penalty leave only time stamps: a success ends an outage and a failure
begins one. -/
theorem untimed_recordResult (penalty now : Nat) (r : MeasureResult F) (c : CandidateState F) :
    (Selector.recordResult penalty r.latencyMs r.speedKbps r.success now c).untimed =
      creditResult r c.untimed := by
  unfold creditResult Selector.recordResult CandidateState.untimed
  cases r.success with
  | true => simp
  | false => simp

theorem map_untimed_modifyFirst (penalty now : Nat) (r : MeasureResult F) (ip : IpAddr)
    (cands : List (CandidateState F)) :
    (modifyFirst (fun c => c.ip == ip)
        (Selector.recordResult penalty r.latencyMs r.speedKbps r.success now) cands).map
        CandidateState.untimed =
      modifyFirst (fun c => c.ip == ip) (creditResult r) (cands.map CandidateState.untimed) := by
  induction cands with
  | nil => rfl
  | cons c cands ih =>
    rw [List.map_cons]
    unfold modifyFirst
    by_cases found : (c.ip == ip) = true
    · rw [if_pos found, if_pos (show (c.untimed.ip == ip) = true from found), List.map_cons,
        untimed_recordResult]
    · rw [if_neg found, if_neg (show ¬ (c.untimed.ip == ip) = true from found), List.map_cons, ih]

/-! ## Credits -/

/-- The credit of a result to the candidate `ip` of group `g`. -/
def Selector.credit (z : Selector F) (g : Nat) (ip : IpAddr) (r : MeasureResult F) : Selector F :=
  z.modifyGroup g fun h =>
    { h with candidates := modifyFirst (fun c => c.ip == ip) (creditResult r) h.candidates }

/-- The credit of a task, routed by the groups of `s`. -/
def creditTask (inputs : PassInputs F) (s z : Selector F) (t : SpeedTask) : Selector F :=
  match s.target t with
  | (none, _) => z
  | (some g, ip) => z.credit g ip (inputs.measure t)

theorem untimed_modifyGroup {f f' : HostStateInner F → HostStateInner F}
    (agree : ∀ h, (f h).untimed = f' h.untimed) (z : Selector F) (g : Nat) :
    (z.modifyGroup g f).untimed = z.untimed.modifyGroup g f' := by
  unfold Selector.untimed Selector.modifyGroup
  congr 1
  apply List.ext_getElem?
  intro i
  simp only [List.getElem?_map, List.getElem?_modify]
  by_cases here : g = i
  · cases z.hosts[i]? with
    | none => simp [here]
    | some h => simp [here, agree]
  · cases z.hosts[i]? <;> simp [here]

/-- Time stamps aside, an update is a credit. -/
theorem untimed_updateResult {s z : Selector F} (same : Selector.SameGroups z s)
    (inputs : PassInputs F) (t : SpeedTask) (now : Nat) :
    (z.updateResult t.hostDef.name t.ip (inputs.measure t).latencyMs (inputs.measure t).speedKbps
        (inputs.measure t).success now).untimed =
      creditTask inputs s z.untimed t := by
  unfold Selector.updateResult creditTask Selector.target
  rw [same.indexOf]
  cases s.indexOf t.hostDef.name with
  | none => rfl
  | some g =>
    apply untimed_modifyGroup
    intro h
    unfold HostStateInner.untimed
    simp only [map_untimed_modifyFirst]

/-- Credits to different candidates commute. -/
theorem Selector.credit_comm (z : Selector F) {g g' : Nat} {ip ip' : IpAddr}
    (apart : (g, ip) ≠ (g', ip')) (r r' : MeasureResult F) :
    (z.credit g ip r).credit g' ip' r' = (z.credit g' ip' r').credit g ip r := by
  have keeps : ∀ (a : IpAddr) (r : MeasureResult F) (c : CandidateState F),
      ((creditResult r c).ip == a) = (c.ip == a) := by
    intro a r c
    unfold creditResult Selector.recordResult CandidateState.untimed
    cases r.success <;> rfl
  unfold Selector.credit
  unfold Selector.modifyGroup
  congr 1
  apply List.ext_getElem?
  intro i
  simp only [List.getElem?_modify]
  by_cases first : g = i
  · by_cases second : g' = i
    · have differ : ip' ≠ ip := by
        rintro rfl
        exact apart (by rw [first, second])
      simp only [first, second, if_true]
      cases z.hosts[i]? with
      | none => rfl
      | some h =>
        have comm := modifyFirst_comm (p := fun c : CandidateState F => c.ip == ip')
          (q := fun c => c.ip == ip)
          (by
            intro c found
            rw [beq_iff_eq] at found
            exact beq_eq_false_iff_ne.mpr (found ▸ differ))
          (keeps ip' r) (keeps ip r') h.candidates
        exact congrArg (fun cands => some { h with candidates := cands }) comm
    · simp [first, second]
  · simp [first]

theorem creditTask_comm (inputs : PassInputs F) {s : Selector F} (z : Selector F)
    {t t' : SpeedTask} (apart : s.target t ≠ s.target t') :
    creditTask inputs s (creditTask inputs s z t) t' =
      creditTask inputs s (creditTask inputs s z t') t := by
  rcases first : s.target t with ⟨_ | g, ip⟩ <;>
    rcases second : s.target t' with ⟨_ | g', ip'⟩ <;>
    simp only [creditTask, first, second]
  apply Selector.credit_comm
  intro same
  obtain ⟨rfl, rfl⟩ := Prod.mk.inj same
  exact apart (first.trans second.symm)

/-- What a pass leaves, time stamps aside, is the credits of its tasks. -/
theorem untimed_runCalls (inputs : PassInputs F) (s : Selector F) (fs : List FinishedTask) :
    (s.runCalls (fs.map (resultCall inputs))).untimed =
      (fs.map (·.task)).foldl (creditTask inputs s) s.untimed := by
  induction fs using List.reverseRecOn with
  | nil => rfl
  | append_singleton fs f ih =>
    rw [List.map_append, List.map_append, List.foldl_append, ← ih, List.map_singleton,
      Selector.runCalls_append]
    exact untimed_updateResult (Selector.sameGroups_runCalls s _) inputs f.task f.updatedAt

/-- The credits of tasks about different candidates come to the same in any order. -/
theorem foldl_creditTask_perm (inputs : PassInputs F) {s : Selector F}
    {tasks tasks' : List SpeedTask} (perm : tasks.Perm tasks')
    (distinct : (tasks'.map s.target).Nodup) (z : Selector F) :
    tasks.foldl (creditTask inputs s) z = tasks'.foldl (creditTask inputs s) z := by
  apply perm.foldl_eq'
  intro t member t' member' z
  by_cases same : s.target t = s.target t'
  · rw [List.inj_on_of_nodup_map distinct (perm.mem_iff.mp member) (perm.mem_iff.mp member') same]
  · exact creditTask_comm inputs z same

/-! ## A pass -/

/-- Time stamps aside, a pass over different candidates leaves the credits of its tasks in the
order of the listing. -/
theorem Covers.untimed_eq {inputs : PassInputs F} {n : Nat} {forced : Bool}
    {listing : List SpeedTask} {s : Selector F} {m : MetricsStore F} {p : PassState F}
    (covers : Covers inputs n forced listing s m p) (distinct : (listing.map s.target).Nodup) :
    p.selector.untimed = p.measured.foldl (creditTask inputs s) s.untimed := by
  rw [covers.updates, untimed_runCalls]
  apply foldl_creditTask_perm inputs covers.once
  obtain ⟨k, -, -, -, measured⟩ := covers.coverage
  rw [measured]
  exact ((List.take_sublist _ _).map _).nodup distinct

/-- Untouched are the candidates that no task of the pass is about. -/
theorem untouched_of_unmeasured (inputs : PassInputs F) {s : Selector F} {fs : List FinishedTask}
    {g j : Nat} {h : HostStateInner F} {c : CandidateState F} (group : s.hosts[g]? = some h)
    (here : h.candidates[j]? = some c)
    (elsewhere : ∀ f ∈ fs, s.target f.task ≠ (some g, c.ip)) :
    ∃ h', (s.runCalls (fs.map (resultCall inputs))).hosts[g]? = some h' ∧
      h'.candidates[j]? = some c := by
  induction fs using List.reverseRecOn with
  | nil => exact ⟨h, group, here⟩
  | append_singleton fs f ih =>
    obtain ⟨before, found, kept⟩ :=
      ih fun f' member => elsewhere f' (List.mem_append_left _ member)
    have other := elsewhere f (by simp)
    have same := Selector.sameGroups_runCalls s (fs.map (resultCall inputs))
    rw [List.map_append, List.map_singleton, Selector.runCalls_append]
    by_cases routed : s.indexOf f.task.hostDef.name = some g
    · have differ : c.ip ≠ f.task.ip := by
        intro equal
        exact other (Prod.ext routed equal.symm)
      show ∃ h', (Selector.updateResult _ _ _ _ _ _ _).hosts[g]? = some h' ∧ _
      rw [Selector.getElem?_updateResult ((same.indexOf _).trans routed), found]
      exact ⟨_, rfl, getElem?_modifyFirst_of_not kept (beq_eq_false_iff_ne.mpr differ)⟩
    · show ∃ h', (Selector.updateResult _ _ _ _ _ _ _).hosts[g]? = some h' ∧ _
      rw [Selector.getElem?_updateResult_of_ne (by rwa [same.indexOf])]
      exact ⟨before, found, kept⟩

/-- A pass measures the waves before the first busy answer and hands every result on once.
With groups routed to by their names the results go to the groups they belong to and the
other candidates stay as they are; if besides no group has an address twice, the order of
completion and the clocks leave nothing but time stamps. -/
theorem runPass_covers (inputs : PassInputs F) (schedule : PassSchedule) (maxConcurrency : Nat)
    (forced : Bool) (urlOverride : Option String) (s : Selector F) (m : MetricsStore F) :
    Covers inputs (max maxConcurrency 1) forced (inputs.listing s urlOverride) s m
      (runPass inputs schedule maxConcurrency forced urlOverride s m) ∧
    (s.NamesRouted →
      ∀ t ∈ (runPass inputs schedule maxConcurrency forced urlOverride s m).measured,
        ∃ (g : Nat) (h : HostStateInner F), s.hosts[g]? = some h ∧
          t.hostDef = Selector.liveDef h ∧ s.indexOf t.hostDef.name = some g) ∧
    (s.NamesRouted →
      ∀ (g j : Nat) (h : HostStateInner F) (c : CandidateState F), s.hosts[g]? = some h →
        h.candidates[j]? = some c →
        (∀ t ∈ (runPass inputs schedule maxConcurrency forced urlOverride s m).measured,
          t.hostDef = Selector.liveDef h → t.ip ≠ c.ip) →
        ∃ h', (runPass inputs schedule maxConcurrency forced urlOverride s m).selector.hosts[g]? =
          some h' ∧ h'.candidates[j]? = some c) ∧
    (s.NamesRouted → s.Distinct → ∀ schedule' : PassSchedule,
      (runPass inputs schedule' maxConcurrency forced urlOverride s m).selector.untimed =
        (runPass inputs schedule maxConcurrency forced urlOverride s m).selector.untimed) := by
  have covers := fun schedule =>
    covers_listing inputs schedule maxConcurrency forced urlOverride s m
  refine ⟨covers schedule, ?_, ?_, ?_⟩
  · intro named t member
    exact routed_of_mem_listing named ((covers schedule).listed t member)
  · intro named g j h c group here unmeasured
    rw [(covers schedule).updates]
    apply untouched_of_unmeasured inputs group here
    intro f member target
    have measured := (covers schedule).once.mem_iff.mp (List.mem_map_of_mem member)
    obtain ⟨g', h', group', same, routed⟩ :=
      routed_of_mem_listing named ((covers schedule).listed f.task measured)
    obtain rfl : g' = g := Option.some.inj (routed.symm.trans (congrArg Prod.fst target))
    obtain rfl : h' = h := Option.some.inj (group'.symm.trans group)
    exact unmeasured f.task measured same (congrArg Prod.snd target)
  · intro named distinct schedule'
    have apart : ((inputs.listing s urlOverride).map s.target).Nodup :=
      nodup_targets named distinct urlOverride
    rw [(covers schedule').untimed_eq apart, (covers schedule).untimed_eq apart,
      (covers schedule').measured_eq (covers schedule)]

/-- In the program itself, whatever has been called since the start, the order of completion
leaves nothing but time stamps. -/
theorem runPass_untimed_of_load {xboxCn1 xboxCn2 : String} {pinCn1 pinCn2 : EnvVar}
    {loaded : LoadedEndpoints} (h : load xboxCn1 xboxCn2 pinCn1 pinCn2 = .ok loaded)
    {penalty : Nat} {s : Selector F} (reachable : s.Reachable loaded.hosts penalty)
    (inputs : PassInputs F) (schedule schedule' : PassSchedule) (maxConcurrency : Nat)
    (forced : Bool) (urlOverride : Option String) (m : MetricsStore F) :
    (runPass inputs schedule' maxConcurrency forced urlOverride s m).selector.untimed =
      (runPass inputs schedule maxConcurrency forced urlOverride s m).selector.untimed := by
  have distinct : s.Distinct := by
    intro group member
    obtain ⟨g, found⟩ := List.mem_iff_getElem?.mp member
    exact reachable.nodup (fun d member => (wellFormed_load h d member).2) found
  obtain ⟨-, -, -, ignores⟩ :=
    runPass_covers inputs schedule maxConcurrency forced urlOverride s m
  exact ignores (namesRouted_load h reachable) distinct schedule'

end Untimed

/-! ## Two schedules -/

/-- Every URL parses, every test succeeds, and the speed tells the tasks apart. -/
def PassInputs.successful : PassInputs ℚ where
  parse _ := some ⟨some "http", some "cdn.example.com", none⟩
  measure t := { latencyMs := some 10, speedKbps := some t.place, success := true }
  busy _ := false

def PassSchedule.inOrder : PassSchedule where
  completion _ wave := wave
  updateClock i := 100 + i
  recordClock i := 100 + i
  completes _ wave := .refl wave

def PassSchedule.reversed : PassSchedule where
  completion _ wave := wave.reverse
  updateClock i := 100 + i
  recordClock i := 100 + i
  completes _ wave := wave.reverse_perm

/-- Traffic begins during the first wave. -/
def PassInputs.interrupted : PassInputs ℚ := { successful with busy := fun k => decide (0 < k) }

/-- Two groups of one address; the name of the first, which ends with a dot, is routed to the
second. -/
def dottedDefs : List HostDef :=
  [{ testDef [.v4 1 1 1 1] with name := "t." }, testDef [.v4 1 1 1 1]]

/-- A pass over the given groups. -/
def passOver (schedule : PassSchedule) (defs : List HostDef) : PassState ℚ :=
  runPass .successful schedule 2 true none (.new defs 60) .new

theorem runPass_covers_reversed :
    (passOver .reversed [testDef [.v4 1 1 1 1, .v4 2 2 2 2]]).selector.untimed =
      (passOver .inOrder [testDef [.v4 1 1 1 1, .v4 2 2 2 2]]).selector.untimed := by
  have named : (Selector.new (F := ℚ) [testDef [.v4 1 1 1 1, .v4 2 2 2 2]] 60).NamesRouted := by
    intro g h group
    cases g with
    | zero =>
      obtain rfl := Option.some.inj group
      decide
    | succ g => cases group
  have distinct : (Selector.new (F := ℚ) [testDef [.v4 1 1 1 1, .v4 2 2 2 2]] 60).Distinct := by
    intro h member
    obtain rfl := List.mem_singleton.mp member
    decide
  obtain ⟨-, -, -, ignores⟩ := runPass_covers .successful .inOrder 2 true none
    (.new [testDef [.v4 1 1 1 1, .v4 2 2 2 2]] 60) .new
  exact ignores named distinct .reversed

/-- An address listed twice keeps the speed of the task that completes last, and a name that
is routed to another group brings the result to a candidate that has not been measured. -/
theorem order_matters_of_repeated :
    (passOver .reversed [testDef [.v4 1 1 1 1, .v4 1 1 1 1]]).selector.untimed ≠
        (passOver .inOrder [testDef [.v4 1 1 1 1, .v4 1 1 1 1]]).selector.untimed ∧
      (runPass .interrupted .inOrder 1 false none (.new dottedDefs 60) .new).measured.map
          (·.hostDef) = dottedDefs.take 1 ∧
      ((runPass .interrupted .inOrder 1 false none (.new dottedDefs 60) .new).selector.hosts.map
          fun h => h.candidates.map (·.speedKbps)) = [[none], [some 0]] := by
  refine ⟨?_, by decide +kernel, by decide +kernel⟩
  intro same
  have speeds := congrArg
    (fun s : Selector ℚ => s.hosts.map fun h => h.candidates.map (·.speedKbps)) same
  revert speeds
  decide +kernel

end XboxProxy
