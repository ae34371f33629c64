import XboxProxy.Endpoints
import XboxProxy.Misc.ListUpdate
import XboxProxy.Net.Proofs.Text
import XboxProxy.Speedtest.Proofs.AfterPass
import XboxProxy.Speedtest.Testing

/-!
# The addresses and the tests the dashboard shows

The speed and the latency of an address are kept by the selector, the tests by the database. A
result reaches one after the other, and other tasks run in between. In every state the numbers
of a group are those of the newest successful tests since its addresses were last written.
-/

namespace XboxProxy
open Misc

/-- A test, as the selector and the database both know it. -/
structure Tested (F : Type) where
  host : String
  ip : String
  result : MeasureResult F

def SpeedTestRecord.tested {F : Type} (r : SpeedTestRecord F) : Tested F :=
  ⟨r.host, r.ip, ⟨r.latencyMs, r.speedKbps, r.success⟩⟩

def TaskResult.tested {F : Type} (r : TaskResult F) : Tested F :=
  ⟨r.task.hostDef.name, r.task.ip.toString, r.result⟩

def DbCommand.tested {F : Type} : DbCommand F → Option (Tested F)
  | .insertSpeedTest r => some r.tested
  | _ => none

/-- The newest successful test of an address of a group. -/
def lastSuccess {F : Type} (tests : List (Tested F)) (name : String) (ip : IpAddr) :
    Option (MeasureResult F) :=
  (tests.reverse.find? fun t => t.host = name ∧ t.ip = ip.toString ∧ t.result.success).map
    (·.result)

theorem lastSuccess_snoc {F : Type} (tests : List (Tested F)) (t : Tested F) (name : String)
    (ip : IpAddr) : lastSuccess (tests ++ [t]) name ip =
      if t.host = name ∧ t.ip = ip.toString ∧ t.result.success then some t.result
      else lastSuccess tests name ip := by
  unfold lastSuccess
  rw [List.reverse_append, List.reverse_singleton, List.singleton_append, List.find?_cons]
  by_cases here : t.host = name ∧ t.ip = ip.toString ∧ t.result.success
  · simp [here]
  · simp [here]

/-- The numbers of a candidate are those of the newest successful test. -/
structure CandidateState.Shows {F : Type} (tests : List (Tested F)) (name : String)
    (c : CandidateState F) : Prop where
  latencyMs : c.latencyMs = (lastSuccess tests name c.ip).bind (·.latencyMs)
  speedKbps : c.speedKbps = (lastSuccess tests name c.ip).bind (·.speedKbps)

/-- A result that counts has both numbers. -/
def MeasureResult.Full {F : Type} (r : MeasureResult F) : Prop :=
  r.success = true → r.latencyMs.isSome = true ∧ r.speedKbps.isSome = true

section Candidate
variable {F : Type} {tests : List (Tested F)} {name : String} {c : CandidateState F}

theorem CandidateState.Shows.recorded (shows : c.Shows tests name) (penalty : Nat)
    {r : MeasureResult F} (full : r.Full) (now : Nat) :
    (Selector.recordResult penalty r.latencyMs r.speedKbps r.success now c).Shows
      (tests ++ [⟨name, c.ip.toString, r⟩]) name := by
  obtain ⟨latencyMs, speedKbps, success⟩ := r
  cases success with
  | true =>
    obtain ⟨latency, speed⟩ := full rfl
    simp only at latency speed
    constructor <;> simp [Selector.recordResult, lastSuccess_snoc, latency, speed]
  | false =>
    constructor
    · simpa [Selector.recordResult, lastSuccess_snoc] using shows.latencyMs
    · simpa [Selector.recordResult, lastSuccess_snoc] using shows.speedKbps

/-- A failure leaves the numbers as they are. -/
theorem CandidateState.Shows.failed (shows : c.Shows tests name) (penalty now : Nat) :
    (Selector.recordResult penalty none none false now c).Shows tests name :=
  ⟨shows.latencyMs, shows.speedKbps⟩

/-- A test of another group or address does not count. -/
theorem CandidateState.Shows.other (shows : c.Shows tests name) {t : Tested F}
    (elsewhere : ¬ (t.host = name ∧ t.ip = c.ip.toString)) : c.Shows (tests ++ [t]) name := by
  have skipped : lastSuccess (tests ++ [t]) name c.ip = lastSuccess tests name c.ip := by
    rw [lastSuccess_snoc, if_neg fun here => elsewhere ⟨here.1, here.2.1⟩]
  exact ⟨skipped ▸ shows.latencyMs, skipped ▸ shows.speedKbps⟩

end Candidate

namespace Selector
variable {F : Type} {s : Selector F} {g : Nat} {tests : List (Tested F)}

/-- The numbers of group `g` are those of `tests`. -/
def Shows (s : Selector F) (g : Nat) (tests : List (Tested F)) : Prop :=
  ∀ h, s.hosts[g]? = some h → ∀ c ∈ h.candidates, c.Shows tests h.hostDef.name

theorem Shows.updateResult (shows : s.Shows g tests) (named : s.NamesRouted)
    (distinct : s.Distinct) {r : TaskResult F} (full : r.result.Full)
    (known : ∃ h ∈ s.hosts, h.hostDef.name = r.task.hostDef.name) (now : Nat) :
    (s.updateResult r.task.hostDef.name r.task.ip r.result.latencyMs r.result.speedKbps
      r.result.success now).Shows g (tests ++ [r.tested]) := by
  intro after group c member
  by_cases routed : s.indexOf r.task.hostDef.name = some g
  · rw [getElem?_updateResult routed] at group
    obtain ⟨h, found, rfl⟩ := Option.map_eq_some_iff.mp group
    have name : h.hostDef.name = r.task.hostDef.name := by
      obtain ⟨h', inHosts, sameName⟩ := known
      obtain ⟨g', found'⟩ := List.mem_iff_getElem?.mp inHosts
      obtain rfl : g' = g := Option.some.inj ((named g' h' found').symm.trans (sameName ▸ routed))
      rw [← Option.some.inj (found'.symm.trans found), sameName]
    have nodup := distinct h (List.mem_of_getElem? found)
    simp only [modifyFirst_eq_map r.task.ip nodup] at member ⊢
    obtain ⟨b, old, rfl⟩ := List.mem_map.mp member
    have before := shows h found b old
    by_cases same : b.ip = r.task.ip
    · rw [if_pos same]
      have recorded := before.recorded s.failurePenalty full now
      rw [TaskResult.tested, ← name, ← same]
      exact recorded
    · rw [if_neg same]
      exact before.other fun here => same (IpAddr.toString_injective here.2).symm
  · rw [getElem?_updateResult_of_ne routed] at group
    refine (shows after group c member).other fun here => routed ?_
    rw [show r.task.hostDef.name = after.hostDef.name from here.1]
    exact named g after group

theorem Shows.markFailure (shows : s.Shows g tests) (host : String) (ip : IpAddr) (now : Nat) :
    (s.markFailure host ip now).Shows g tests := by
  intro after group c member
  by_cases routed : s.indexOf host = some g
  · rw [Selector.markFailure, getElem?_updateResult routed] at group
    obtain ⟨h, found, rfl⟩ := Option.map_eq_some_iff.mp group
    rcases mem_of_mem_modifyFirst member with old | ⟨b, old, -, rfl⟩
    · exact shows h found c old
    · exact (shows h found b old).failed s.failurePenalty now
  · rw [Selector.markFailure, getElem?_updateResult_of_ne routed] at group
    exact shows after group c member

theorem Shows.writePinnedIp (shows : s.Shows g tests) (name : String) (ip : Option IpAddr) :
    (s.write (.pinnedIp name ip)).Shows g tests := by
  intro after group c member
  simp only [Selector.write] at group
  split at group
  · rw [Selector.writePinnedIp, getElem?_modifyGroup] at group
    split at group
    · obtain ⟨h, found, rfl⟩ := Option.map_eq_some_iff.mp group
      exact shows h found c member
    · exact shows after group c member
  · exact shows after group c member

/-- New addresses show no test; other groups keep theirs. -/
theorem Shows.writeCandidates (shows : s.Shows g tests) (name : String) (ip : Option IpAddr) :
    (s.write (.candidates name ip)).Shows g tests ∨
      s.indexOf name = some g ∧ (s.write (.candidates name ip)).Shows g [] := by
  simp only [Selector.write]
  cases target : s.pinTarget name ip with
  | error e => exact .inl shows
  | ok pair =>
    obtain ⟨i, ips⟩ := pair
    by_cases here : i = g
    · subst here
      refine .inr ⟨pinTarget_index target, fun after group c member => ?_⟩
      simp only [Selector.writeCandidates, getElem?_modifyGroup, if_pos] at group
      obtain ⟨h, -, rfl⟩ := Option.map_eq_some_iff.mp group
      obtain ⟨a, -, rfl⟩ := List.mem_map.mp member
      exact ⟨rfl, rfl⟩
    · refine .inl fun after group c member => ?_
      simp only [Selector.writeCandidates, getElem?_modifyGroup, if_neg here] at group
      exact shows after group c member

end Selector

/-! ## Steps -/

namespace Testing
variable {F : Type}

/-- What `phase` holds of the database's next record. -/
def inFlight : PassPhase F → List (Tested F)
  | .unrecorded _ _ _ r => [r.tested]
  | _ => []

/-- The tests whose results the selector has, oldest first: those sent to the database, and the
one that is about to be. -/
def tested (s : Testing F) : List (Tested F) :=
  s.metrics.dbTx.filterMap DbCommand.tested ++ inFlight s.phase

/-- The definitions a pass works with. -/
def hostDefs : PassPhase F → List HostDef
  | .idle => []
  | .reading _ defs => defs
  | .waves _ left results => left.flatten.map (·.hostDef) ++ results.map (·.task.hostDef)
  | .unrecorded _ left results _ => left.flatten.map (·.hostDef) ++ results.map (·.task.hostDef)

/-- The results a pass has still to use. -/
def unused : PassPhase F → List (TaskResult F)
  | .waves _ _ results => results
  | .unrecorded _ _ results _ => results
  | _ => []

/-- What a step does to the selector and to the tests it knows. -/
inductive Effect (s t : Testing F) : TestingAction F → Prop
  | silent {a : TestingAction F} (selector : t.selector = s.selector) (tests : t.tested = s.tested) :
      Effect s t a
  | result {r : TaskResult F} (now : Nat) (mem : r ∈ unused s.phase)
      (selector : t.selector = s.selector.updateResult r.task.hostDef.name r.task.ip
        r.result.latencyMs r.result.speedKbps r.result.success now)
      (tests : t.tested = s.tested ++ [r.tested]) : Effect s t (.updateResult now)
  | failure (host : String) (ip : IpAddr) (now : Nat)
      (selector : t.selector = s.selector.markFailure host ip now) (tests : t.tested = s.tested) :
      Effect s t (.markFailure host ip now)
  | pinnedIp (name : String) (ip : Option IpAddr)
      (selector : t.selector = s.selector.write (.pinnedIp name ip))
      (tests : t.tested = s.tested) : Effect s t (.writePinnedIp name ip)
  | candidates (name : String) (ip : Option IpAddr)
      (selector : t.selector = s.selector.write (.candidates name ip))
      (tests : t.tested = s.tested) : Effect s t (.writeCandidates name ip)

variable [Float64 F] {parse : String → Option Uri} {cfg : MeasureConfig} {maxConcurrency : Nat}

theorem effect_of_passStep {s t : Testing F} {a : TestingAction F}
    (stepped : passStep parse cfg maxConcurrency s s.phase a = some t) : Effect s t a := by
  obtain ⟨selector, metrics, phase⟩ := s
  unfold passStep at stepped
  split at stepped
  case h_1 forced same =>
    cases same
    cases stepped
    exact .silent rfl rfl
  case h_2 forced raw same =>
    cases same
    simp only at stepped
    split at stepped <;> cases stepped <;> exact .silent rfl rfl
  case h_3 forced defs same =>
    cases same
    simp only at stepped
    split at stepped <;> cases stepped <;> exact .silent rfl rfl
  case h_4 forced wave left busy completed same =>
    cases same
    simp only at stepped
    split_ifs at stepped <;> cases stepped <;> exact .silent rfl rfl
  case h_5 forced same =>
    cases same
    cases stepped
    exact .silent rfl rfl
  case h_6 forced left r results now same =>
    cases same
    cases stepped
    exact .result now List.mem_cons_self rfl (by simp [tested, inFlight])
  case h_7 forced left results r now same =>
    cases same
    cases stepped
    exact .silent rfl (by
      simp [tested, inFlight, MetricsStore.recordSpeedtest, DbCommand.tested, TaskResult.tested,
        SpeedTestRecord.tested])
  case h_8 => cases stepped

theorem effect_of_step {s t : Testing F} {a : TestingAction F}
    (stepped : step parse cfg maxConcurrency s a = some t) : Effect s t a := by
  cases a with
  | markFailure host ip now =>
    cases stepped
    exact .failure host ip now rfl rfl
  | writePinnedIp name ip =>
    cases stepped
    exact .pinnedIp name ip rfl rfl
  | writeCandidates name ip =>
    cases stepped
    exact .candidates name ip rfl rfl
  | recordRequest rec =>
    cases stepped
    exact .silent rfl (by simp [tested, MetricsStore.recordRequest, DbCommand.tested])
  | cleanup cutoff =>
    cases stepped
    exact .silent rfl (by simp [tested, DbCommand.tested])
  | _ => exact effect_of_passStep stepped

/-- What a pass has in hand: definitions of the program's groups, and results that are whole. -/
structure Sound (defs : List HostDef) (phase : PassPhase F) : Prop where
  named : ∀ d ∈ hostDefs phase, ∃ d' ∈ defs, d'.name = d.name
  full : ∀ r ∈ unused phase, r.result.Full

omit [Float64 F] in
theorem sound_of_nil {defs : List HostDef} {phase : PassPhase F} (noDefs : hostDefs phase = [])
    (noResults : unused phase = []) : Sound defs phase where
  named _ member := absurd (noDefs ▸ member) List.not_mem_nil
  full _ member := absurd (noResults ▸ member) List.not_mem_nil

omit [Float64 F] in
/-- The tasks of all waves are those of the listing. -/
theorem mem_flatten_chunks {n : Nat} {l : List SpeedTask} {t : SpeedTask}
    (member : t ∈ (chunks (max n 1) l).flatten) : t ∈ l := by
  have pos : 0 < max n 1 := by omega
  have all := flatten_take_chunks pos l (chunks (max n 1) l).length
  rw [List.take_length] at all
  rw [all] at member
  exact List.mem_of_mem_take member

omit [Float64 F] in
theorem sound_firstWave {defs found : List HostDef}
    (named : ∀ d ∈ found, ∃ d' ∈ defs, d'.name = d.name) (forced : Bool)
    (overrideUri : Option Uri) :
    Sound defs (firstWave (F := F) parse maxConcurrency forced found overrideUri) where
  named d member := by
    rw [firstWave, hostDefs, List.map_nil, List.append_nil] at member
    obtain ⟨t, listed, rfl⟩ := List.mem_map.mp member
    exact named t.hostDef (mem_passTasks (mem_flatten_chunks listed))
  full _ member := absurd member List.not_mem_nil

theorem sound_of_passStep {defs : List HostDef} {s t : Testing F} {a : TestingAction F}
    (live : ∀ h ∈ s.selector.hosts, h.hostDef ∈ defs) (sound : Sound defs s.phase)
    (stepped : passStep parse cfg maxConcurrency s s.phase a = some t) :
    Sound defs t.phase := by
  obtain ⟨selector, metrics, phase⟩ := s
  unfold passStep at stepped
  split at stepped
  case h_1 forced same =>
    cases stepped
    exact sound_of_nil rfl rfl
  case h_2 forced raw same =>
    simp only at stepped
    split at stepped
    case h_1 found overrideUri target =>
      cases stepped
      refine sound_firstWave (fun d member => ?_) forced overrideUri
      rcases of_targetDefs target with rfl | ⟨h, inHosts, rfl⟩
      · obtain ⟨h, inHosts, rfl⟩ := List.mem_map.mp member
        exact ⟨h.hostDef, live h inHosts, rfl⟩
      · rw [List.mem_singleton.mp member]
        exact ⟨h.hostDef, live h inHosts, rfl⟩
    case h_2 =>
      cases stepped
      exact sound
  case h_3 forced found same =>
    cases same
    simp only at stepped
    split at stepped
    case h_1 h here =>
      cases stepped
      refine ⟨fun d member => ?_, fun _ member => absurd member List.not_mem_nil⟩
      rcases List.mem_append.mp member with before | last
      · exact sound.named d before
      · rw [List.mem_singleton.mp last]
        exact ⟨h.hostDef, live h (List.mem_of_getElem? here), rfl⟩
    case h_2 =>
      cases stepped
      exact sound_firstWave sound.named forced none
  case h_4 forced wave left busy completed same =>
    cases same
    simp only at stepped
    split_ifs at stepped with aborted perm
    · cases stepped
      exact sound_of_nil rfl rfl
    · cases stepped
      have complete : (completed.map Prod.fst).Perm wave := List.isPerm_iff.mp perm
      constructor
      · intro d member
        refine sound.named d ?_
        simp only [hostDefs, List.mem_append, List.map_map, List.mem_map] at member ⊢
        rcases member with later | ⟨r, here, rfl⟩
        · obtain ⟨task, listed, rfl⟩ := later
          exact .inl ⟨task, by simp [List.mem_flatten.mp listed], rfl⟩
        · have task := complete.subset (List.mem_map_of_mem here)
          exact .inl ⟨r.1, by simp [task], rfl⟩
      · intro r member
        obtain ⟨pair, -, rfl⟩ := List.mem_map.mp member
        exact fun success => isSome_of_success success
  case h_5 forced same =>
    cases stepped
    exact sound_of_nil rfl rfl
  case h_6 forced left r results now same =>
    cases same
    cases stepped
    refine ⟨fun d member => sound.named d ?_, fun r' member =>
      sound.full r' (List.mem_cons_of_mem r member)⟩
    simp only [hostDefs, List.mem_append, List.map_cons, List.mem_cons] at member ⊢
    exact member.imp_right .inr
  case h_7 forced left results r now same =>
    cases same
    cases stepped
    exact ⟨sound.named, sound.full⟩
  case h_8 => cases stepped

/-- A step keeps the numbers of a group those of the newest tests; only a write of its addresses
starts them anew. -/
theorem shows_of_step {s t : Testing F} {a : TestingAction F} {g : Nat} {tests : List (Tested F)}
    (named : s.selector.NamesRouted) (distinct : s.selector.Distinct)
    (known : ∀ r ∈ unused s.phase, ∃ h ∈ s.selector.hosts, h.hostDef.name = r.task.hostDef.name)
    (full : ∀ r ∈ unused s.phase, r.result.Full) (suffix : tests <:+ s.tested)
    (shows : s.selector.Shows g tests)
    (stepped : step parse cfg maxConcurrency s a = some t) :
    ∃ tests', tests' <:+ t.tested ∧ t.selector.Shows g tests' ∧
      ((∀ name ip, a = .writeCandidates name ip → s.selector.indexOf name ≠ some g) →
        tests = s.tested → tests' = t.tested) := by
  cases effect_of_step stepped with
  | silent selector same =>
    rw [selector, same]
    exact ⟨tests, suffix, shows, fun _ all => all⟩
  | @result r now mem selector grown =>
    obtain ⟨earlier, split⟩ := suffix
    rw [selector, grown]
    refine ⟨tests ++ [r.tested], ⟨earlier, by rw [← split, List.append_assoc]⟩,
      shows.updateResult named distinct (full r mem) (known r mem) now, fun _ all => by rw [all]⟩
  | failure host ip now selector same =>
    rw [selector, same]
    exact ⟨tests, suffix, shows.markFailure host ip now, fun _ all => all⟩
  | pinnedIp name ip selector same =>
    rw [selector, same]
    exact ⟨tests, suffix, shows.writePinnedIp name ip, fun _ all => all⟩
  | candidates name ip selector same =>
    rw [selector, same]
    rcases shows.writeCandidates name ip with kept | ⟨routed, fresh⟩
    · exact ⟨tests, suffix, kept, fun _ all => all⟩
    · exact ⟨[], List.nil_suffix, fresh, fun others => absurd routed (others name ip rfl)⟩

/-! ## Runs -/

theorem reachable_of_step {defs : List HostDef} {penalty : Nat} {s t : Testing F}
    {a : TestingAction F} (reachable : s.selector.Reachable defs penalty)
    (stepped : step parse cfg maxConcurrency s a = some t) :
    t.selector.Reachable defs penalty := by
  cases effect_of_step stepped with
  | silent selector => exact selector ▸ reachable
  | result now mem selector =>
    rw [selector]
    exact .updateResult _ _ _ _ _ _ reachable
  | failure host ip now selector =>
    rw [selector]
    exact .updateResult _ _ _ _ _ _ reachable
  | pinnedIp name ip selector =>
    rw [selector]
    exact reachable.write _
  | candidates name ip selector =>
    rw [selector]
    exact reachable.write _

theorem sound_of_step {defs : List HostDef} {s t : Testing F} {a : TestingAction F}
    (live : ∀ h ∈ s.selector.hosts, h.hostDef ∈ defs) (sound : Sound defs s.phase)
    (stepped : step parse cfg maxConcurrency s a = some t) : Sound defs t.phase := by
  cases a with
  | markFailure | writePinnedIp | writeCandidates | recordRequest | cleanup =>
    cases stepped
    exact sound
  | _ => exact sound_of_passStep live sound stepped

omit [Float64 F] in
/-- The definitions of a reachable state are those it started with. -/
theorem live_of_reachable {defs : List HostDef} {penalty : Nat} {s : Selector F}
    (reachable : s.Reachable defs penalty) : s.hosts.map (·.hostDef) = defs := by
  rw [reachable.sameGroups.hostDefs]
  simp [Selector.new, Function.comp_def]

omit [Float64 F] in
theorem hostDef_of_unused {phase : PassPhase F} {r : TaskResult F} (mem : r ∈ unused phase) :
    r.task.hostDef ∈ hostDefs phase := by
  cases phase with
  | idle => cases mem
  | reading forced defs => cases mem
  | waves forced left results => exact List.mem_append_right _ (List.mem_map_of_mem mem)
  | unrecorded forced left results current =>
    exact List.mem_append_right _ (List.mem_map_of_mem mem)

/-- Every state a run reaches has reachable groups and a pass that is sound. -/
theorem kept_of_run {defs : List HostDef} {penalty : Nat} {s : Testing F}
    {actions : List (TestingAction F)}
    (reached : run (step parse cfg maxConcurrency) (start defs penalty) actions = some s) :
    s.selector.Reachable defs penalty ∧ Sound defs s.phase := by
  let Kept (u : Testing F) : Prop := u.selector.Reachable defs penalty ∧ Sound defs u.phase
  have first : Kept (start defs penalty) := ⟨.new, sound_of_nil rfl rfl⟩
  have preserved : ∀ u a t, Kept u → step parse cfg maxConcurrency u a = some t → Kept t := by
    rintro u a t ⟨reachable, sound⟩ stepped
    refine ⟨reachable_of_step reachable stepped, sound_of_step (fun h inHosts => ?_) sound stepped⟩
    rw [← live_of_reachable reachable]
    exact List.mem_map_of_mem inHosts
  exact run_invariant preserved first reached

/-- A run keeps the numbers of a group those of the newest tests since the addresses of the group
were last written. -/
theorem shows_of_run {xboxCn1 xboxCn2 : String} {pinCn1 pinCn2 : EnvVar}
    {loaded : LoadedEndpoints} (ok : load xboxCn1 xboxCn2 pinCn1 pinCn2 = .ok loaded)
    {penalty : Nat} {actions : List (TestingAction F)} {s : Testing F}
    (reached : run (step parse cfg maxConcurrency) (start loaded.hosts penalty) actions = some s)
    (g : Nat) :
    ∃ tests, tests <:+ s.tested ∧ s.selector.Shows g tests ∧
      ((∀ name ip, .writeCandidates name ip ∈ actions → s.selector.indexOf name ≠ some g) →
        tests = s.tested) := by
  induction actions using List.reverseRecOn generalizing s with
  | nil =>
    obtain rfl := Option.some.inj reached
    refine ⟨[], List.nil_suffix, fun h group c member => ?_, fun _ => rfl⟩
    rw [start, Selector.getElem?_new] at group
    obtain ⟨d, -, rfl⟩ := Option.map_eq_some_iff.mp group
    obtain ⟨ip, -, rfl⟩ := List.mem_map.mp member
    exact ⟨rfl, rfl⟩
  | append_singleton actions a ih =>
    obtain ⟨u, before, stepped⟩ := run_snoc_eq_some.mp reached
    obtain ⟨tests, suffix, shows, whole⟩ := ih before
    obtain ⟨reachable, sound⟩ := kept_of_run before
    have known : ∀ r ∈ unused u.phase,
        ∃ h ∈ u.selector.hosts, h.hostDef.name = r.task.hostDef.name := by
      intro r mem
      obtain ⟨d, listed, same⟩ := sound.named _ (hostDef_of_unused mem)
      rw [← live_of_reachable reachable] at listed
      obtain ⟨h, inHosts, rfl⟩ := List.mem_map.mp listed
      exact ⟨h, inHosts, same⟩
    have groups : Selector.SameGroups s.selector u.selector :=
      (reachable_of_step reachable stepped).sameGroups.trans reachable.sameGroups.symm
    obtain ⟨tests', suffix', shows', whole'⟩ := shows_of_step (namesRouted_load ok reachable)
      (distinct_load ok reachable) known sound.full suffix shows stepped
    refine ⟨tests', suffix', shows', fun others => whole' ?_ (whole ?_)⟩
    · rintro name ip rfl
      rw [← groups.indexOf]
      exact others name ip (by simp)
    · intro name ip listed
      rw [← groups.indexOf]
      exact others name ip (List.mem_append_left _ listed)

/-- The numbers of an address on the dashboard are those of its candidate. -/
theorem mem_snapshot {s : Selector F} {clock : Nat → Nat} {g : Nat} {shown : HostState F}
    (entry : (s.snapshot clock)[g]? = some shown) :
    ∃ h, s.hosts[g]? = some h ∧ shown.name = h.hostDef.name ∧ ∀ c ∈ shown.candidates,
      ∃ b ∈ h.candidates, c.ip = b.ip ∧ c.latencyMs = b.latencyMs ∧
        c.speedKbps = b.speedKbps := by
  unfold Selector.snapshot at entry
  rw [List.getElem?_mapIdx] at entry
  obtain ⟨h, group, rfl⟩ := Option.map_eq_some_iff.mp entry
  refine ⟨h, group, rfl, fun c member => ?_⟩
  obtain ⟨b, listed, rfl⟩ := List.mem_map.mp ((List.mem_insertionSort _).mp member)
  exact ⟨b, listed, rfl, rfl, rfl⟩

/-- In the program, whatever else runs during the passes: the latencies and speeds the dashboard
shows for a group are those of the newest successful tests among the latest ones, of all
tests if the addresses of the group have not been written. -/
theorem shown_of_run {xboxCn1 xboxCn2 : String} {pinCn1 pinCn2 : EnvVar}
    {loaded : LoadedEndpoints} (ok : load xboxCn1 xboxCn2 pinCn1 pinCn2 = .ok loaded)
    (penalty : Nat) (parse : String → Option Uri) (cfg : MeasureConfig) (maxConcurrency : Nat)
    (actions : List (TestingAction F)) (s : Testing F)
    (reached : run (step parse cfg maxConcurrency) (start loaded.hosts penalty) actions = some s)
    (clock : Nat → Nat) (g : Nat) (shown : HostState F)
    (entry : (s.selector.snapshot clock)[g]? = some shown) :
    ∃ tests, tests <:+ s.tested ∧ (∀ c ∈ shown.candidates, c.Shows tests shown.name) ∧
      ((∀ name ip, .writeCandidates name ip ∈ actions → s.selector.indexOf name ≠ some g) →
        tests = s.tested) := by
  obtain ⟨h, group, name, candidates⟩ := mem_snapshot entry
  obtain ⟨tests, suffix, shows, whole⟩ := shows_of_run ok reached g
  refine ⟨tests, suffix, fun c member => ?_, whole⟩
  obtain ⟨b, listed, ip, latency, speed⟩ := candidates c member
  have same := shows h group b listed
  exact ⟨by rw [latency, ip, name, same.latencyMs], by rw [speed, ip, name, same.speedKbps]⟩

/-- The groups of two lists of one address. -/
def oneEach : List HostDef :=
  List.zipWith EndpointSpec.hostDef (endpoints "" "") [[.v4 1 1 1 1], [.v4 4 4 4 4]]

/-- Both tests of a pass over them, answered with four bytes. -/
def bothTested : List (SpeedTask × MeasureAnswer ℚ) :=
  (passTasks splitUri (Selector.new (F := ℚ) oneEach 60).defs none).map fun t =>
    (t, .responded 206 40 [⟨1000, .frame 4⟩, ⟨2000, .ended⟩] 1)

/-- The second group is pinned before the record of its test. -/
def pinnedBetween : List (TestingAction ℚ) :=
  [.startPass true none, .readDef, .readDef, .readDef, .runWave true bothTested,
    .updateResult 100, .markFailure "assets1.xboxlive.com" (.v4 1 1 1 1) 101, .recordSpeedtest 101,
    .updateResult 102, .writePinnedIp "xbox-content" (some (.v4 9 9 9 9)),
    .writeCandidates "xbox-content" (some (.v4 9 9 9 9)), .recordSpeedtest 103, .endPass]

/-- The state they lead to. -/
def pinnedAfter : Testing ℚ :=
  (run (step splitUri ⟨4, 500⟩ 64) (start oneEach 60) pinnedBetween).getD (start oneEach 60)

theorem shown_of_run_pinnedBetween :
    ∃ shown, (pinnedAfter.selector.snapshot fun _ => 200)[0]? = some shown ∧
      ∀ c ∈ shown.candidates, c.Shows pinnedAfter.tested shown.name := by
  obtain ⟨loaded, ok, hosts⟩ : ∃ loaded,
      load "1.1.1.1" "4.4.4.4" (.ok none) (.ok none) = .ok loaded ∧ loaded.hosts = oneEach :=
    ⟨_, rfl, by decide +kernel⟩
  have enabled :
      (run (step splitUri ⟨4, 500⟩ 64) (start loaded.hosts 60) pinnedBetween).isSome := by
    rw [hosts]
    decide +kernel
  have reached : run (step splitUri ⟨4, 500⟩ 64) (start loaded.hosts 60) pinnedBetween =
      some pinnedAfter := by
    obtain ⟨s, ran⟩ := Option.isSome_iff_exists.mp enabled
    rw [pinnedAfter, ← hosts, ran, Option.getD_some]
  have reachable := (kept_of_run reached).1
  obtain ⟨shown, entry⟩ :
      ∃ shown, (pinnedAfter.selector.snapshot fun _ => 200)[0]? = some shown := by
    have two : pinnedAfter.selector.hosts.length = 2 := by
      rw [← List.length_map, live_of_reachable reachable, hosts]
      rfl
    exact ⟨_, List.getElem?_eq_getElem (by simp [Selector.snapshot, two])⟩
  obtain ⟨tests, -, shows, whole⟩ := shown_of_run ok 60 splitUri ⟨4, 500⟩ 64 pinnedBetween
    pinnedAfter reached (fun _ => 200) 0 shown entry
  have all : tests = pinnedAfter.tested := by
    refine whole fun name ip member => ?_
    obtain ⟨rfl, -⟩ : name = "xbox-content" ∧ ip = some (.v4 9 9 9 9) := by
      simpa [pinnedBetween] using member
    rw [reachable.sameGroups.indexOf, hosts]
    decide +kernel
  exact ⟨shown, entry, all ▸ shows⟩

/-! ## A pass by itself -/

section Alone
variable (parse : String → Option Uri) (cfg : MeasureConfig) (maxConcurrency : Nat)
  (answers : SpeedTask → MeasureAnswer F) (busy : Nat → Bool) (schedule : PassSchedule)

/-- The results of a wave are used in the order they completed; `n` results have been used. -/
def resultSteps : Nat → List SpeedTask → List (TestingAction F)
  | _, [] => []
  | n, _ :: tasks =>
    .updateResult (schedule.updateClock n) :: .recordSpeedtest (schedule.recordClock n) ::
      resultSteps (n + 1) tasks

/-- Waves one after the other, from wave `k` on, until there is traffic. -/
def waveSteps (forced : Bool) : Nat → Nat → List (List SpeedTask) → List (TestingAction F)
  | _, _, [] => [.endPass]
  | k, n, wave :: waves =>
    if !forced && busy k then [.runWave true []]
    else
      let completed := schedule.completion k wave
      .runWave (busy k) (completed.map fun t => (t, answers t)) ::
        (resultSteps schedule n completed ++
          waveSteps forced (k + 1) (n + completed.length) waves)

/-- A pass that no other task gets in between, step by step. -/
def passSteps (forced : Bool) (urlOverride : Option String) (s : Selector F) :
    List (TestingAction F) :=
  let waves := fun defs overrideUri => waveSteps answers busy schedule forced 0 0
    (chunks (max maxConcurrency 1) (passTasks parse defs overrideUri))
  .startPass forced urlOverride ::
    match urlOverride with
    | none => List.replicate (s.hosts.length + 1) .readDef ++ waves s.defs none
    | some raw =>
      match targetDefs parse s (some raw) with
      | none => []
      | some (defs, overrideUri) => waves defs overrideUri

theorem run_resultSteps (forced : Bool) (left : List (List SpeedTask)) (tasks : List SpeedTask)
    (p : PassState F) :
    let q := tasks.foldl (finishTask (.answered parse cfg answers busy) schedule) p
    run (step parse cfg maxConcurrency)
      ⟨p.selector, p.metrics, .waves forced left (tasks.map fun t => ⟨t, measure cfg (answers t)⟩)⟩
      (resultSteps schedule p.finished.length tasks) =
        some ⟨q.selector, q.metrics, .waves forced left []⟩ ∧
      q.finished.length = p.finished.length + tasks.length := by
  induction tasks generalizing p with
  | nil => exact ⟨rfl, rfl⟩
  | cons t tasks ih =>
    obtain ⟨rest, count⟩ := ih (finishTask (.answered parse cfg answers busy) schedule p t)
    have one : (finishTask (.answered parse cfg answers busy) schedule p t).finished.length =
        p.finished.length + 1 := by simp [finishTask]
    rw [one] at rest count
    refine ⟨?_, ?_⟩
    · simp only [resultSteps, run_cons, step, passStep, List.map_cons, Option.bind_some]
      exact rest
    · rw [List.length_cons, List.foldl_cons, count]
      omega

theorem run_waveSteps (forced : Bool) (k : Nat) (waves : List (List SpeedTask)) (p : PassState F) :
    let q := runWaves (.answered parse cfg answers busy) schedule forced k p waves
    run (step parse cfg maxConcurrency) ⟨p.selector, p.metrics, .waves forced waves []⟩
      (waveSteps answers busy schedule forced k p.finished.length waves) =
        some ⟨q.selector, q.metrics, .idle⟩ := by
  induction waves generalizing k p with
  | nil => rfl
  | cons wave waves ih =>
    by_cases aborted : !forced && busy k
    · obtain ⟨unforced, traffic⟩ := Bool.and_eq_true_iff.mp aborted
      simp [waveSteps, runWaves, PassInputs.answered, step, passStep, unforced, traffic]
    · have next : runWaves (.answered parse cfg answers busy) schedule forced k p (wave :: waves) =
          runWaves (.answered parse cfg answers busy) schedule forced (k + 1)
            (runWave (.answered parse cfg answers busy) schedule k p wave) waves :=
        if_neg aborted
      obtain ⟨results, count⟩ := run_resultSteps parse cfg maxConcurrency answers busy schedule
        forced waves (schedule.completion k wave) { p with measured := p.measured ++ wave }
      have later := ih (k + 1) (runWave (.answered parse cfg answers busy) schedule k p wave)
      have perm : (schedule.completion k wave).isPerm wave :=
        List.isPerm_iff.mpr (schedule.completes k wave)
      have first : step parse cfg maxConcurrency
          ⟨p.selector, p.metrics, .waves forced (wave :: waves) []⟩
          (.runWave (busy k) ((schedule.completion k wave).map fun t => (t, answers t))) =
          some ⟨p.selector, p.metrics, .waves forced waves
            ((schedule.completion k wave).map fun t => ⟨t, measure cfg (answers t)⟩)⟩ := by
        simp [step, passStep, aborted, perm, Function.comp_def]
      rw [next, waveSteps, if_neg aborted]
      refine run_cons_eq_some.mpr ⟨_, first, ?_⟩
      rw [run_append, results, Option.bind_some]
      rw [show (runWave (.answered parse cfg answers busy) schedule k p wave).finished.length = _
        from count] at later
      exact later

/-- `defs` reads the groups in their order. -/
theorem run_reading (forced : Bool) (s : Selector F) (m : MetricsStore F) {k n : Nat}
    (all : k + n = s.hosts.length) :
    run (step parse cfg maxConcurrency)
      ⟨s, m, .reading forced ((s.hosts.take k).map Selector.liveDef)⟩
      (List.replicate (n + 1) .readDef) =
        some ⟨s, m, firstWave parse maxConcurrency forced s.defs none⟩ := by
  induction n generalizing k with
  | zero =>
    have whole : s.hosts.take k = s.hosts := List.take_of_length_le (by omega)
    simp [step, passStep, whole, Selector.defs]
  | succ n ih =>
    obtain ⟨h, here⟩ : ∃ h, s.hosts[k]? = some h := ⟨_, List.getElem?_eq_getElem (by omega)⟩
    have grown : s.hosts.take (k + 1) = s.hosts.take k ++ [h] := by
      rw [List.take_add_one, here]
      rfl
    have count : ((s.hosts.take k).map Selector.liveDef).length = k := by
      rw [List.length_map, List.length_take]
      omega
    have rest := ih (k := k + 1) (by omega)
    rw [grown, List.map_append, List.map_singleton] at rest
    rw [List.replicate_succ, run_cons]
    simp only [step, passStep, count, here, Option.bind_some]
    exact rest

/-- The pass is the run of its steps, one after the other: the definitions read, the waves in
the order of the schedule with their answers, and each result used and recorded by its clocks. -/
theorem runPass_of_steps (forced : Bool) (urlOverride : Option String) (s : Selector F)
    (m : MetricsStore F) :
    let p := runPass (.answered parse cfg answers busy) schedule maxConcurrency forced urlOverride
      s m
    run (step parse cfg maxConcurrency) ⟨s, m, .idle⟩
      (passSteps parse maxConcurrency answers busy schedule forced urlOverride s) =
        some ⟨p.selector, p.metrics, .idle⟩ := by
  have waves := fun defs overrideUri => run_waveSteps parse cfg maxConcurrency answers busy
    schedule forced 0 (chunks (max maxConcurrency 1) (passTasks parse defs overrideUri))
    ⟨s, m, [], []⟩
  cases urlOverride with
  | none =>
    have reading := run_reading parse cfg maxConcurrency forced s m (Nat.zero_add s.hosts.length)
    rw [List.take_zero, List.map_nil] at reading
    rw [passSteps, run_cons_eq_some]
    refine ⟨⟨s, m, .reading forced []⟩, rfl, ?_⟩
    rw [run_append, reading]
    exact waves s.defs none
  | some raw =>
    cases target : targetDefs parse s (some raw) with
    | none =>
      simp [passSteps, runPass, PassInputs.answered, step, passStep, target]
    | some found =>
      obtain ⟨defs, overrideUri⟩ := found
      have passes : runPass (.answered parse cfg answers busy) schedule maxConcurrency forced
          (some raw) s m = runWaves (.answered parse cfg answers busy) schedule forced 0
            ⟨s, m, [], []⟩ (chunks (max maxConcurrency 1) (passTasks parse defs overrideUri)) := by
        simp [runPass, PassInputs.answered, target]
      simp only [passSteps, passes, target]
      refine run_cons_eq_some.mpr ⟨_, ?_, waves defs overrideUri⟩
      simp [step, passStep, target, firstWave]

end Alone

end Testing
end XboxProxy
