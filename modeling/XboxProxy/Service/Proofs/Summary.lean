import XboxProxy.Service.Proofs.Listing
import Mathlib.Tactic.IntervalCases

/-!
# The summary while the writer goes on

The queries of one summary are not a transaction: between two of them bodies end, ticks fire
and the writer executes commands. What a later query sees of a window contains what an
earlier one saw, so the figures of one summary still fit together.
-/

namespace XboxProxy
open Misc

section Log
variable {F : Type} {log l : List (RequestRecord F)}

theorem totalBytes_le_of_sublist (sub : log.Sublist l) : totalBytes log ≤ totalBytes l :=
  (sub.map _).sum_le_sum fun _ _ => Nat.zero_le _

theorem errorCount_le_of_sublist (sub : log.Sublist l) : errorCount log ≤ errorCount l :=
  sub.countP_le

/-- A shorter window of less of the log. -/
theorem inWindow_sublist {since since' : Int} (later : since' ≤ since) (sub : log.Sublist l) :
    (inWindow since log).Sublist (inWindow since' l) := by
  refine (List.monotone_filter_right log ?_).trans (sub.filter _)
  intro r late
  exact decide_eq_true (later.trans (of_decide_eq_true late))

end Log

/-- The figures of a summary fit together. -/
structure Summary.Coherent {F : Type} (m : Summary F) : Prop where
  requests : m.lastHour.requests ≤ m.last24h.requests
  bytes : m.lastHour.bytes ≤ m.last24h.bytes
  errors : m.lastHour.errors ≤ m.last24h.errors
  faulty : m.lastHour.errors ≤ m.lastHour.requests ∧ m.last24h.errors ≤ m.last24h.requests
  seriesRequests : m.lastHour.requests ≤ (m.series.map (·.requests)).sum
  seriesErrors : m.lastHour.errors ≤ (m.series.map (·.errors)).sum
  statusRequests : m.last24h.requests ≤ (m.statusCounts.map (·.count)).sum
  statusErrors : m.last24h.errors ≤
    ((m.statusCounts.filter fun c => 500 ≤ c.status).map (·.count)).sum
  recentLength : min 50 (m.series.map (·.requests)).sum ≤ m.recent.length ∧ m.recent.length ≤ 50
  recentTimes : ∀ r ∈ m.recent, m.now - 3600 ≤ r.ts

/-- The figures of a summary are those of the logs its queries have met. -/
structure Summary.TakenFrom {F : Type} (m : Summary F)
    (hour day series status recent : List (RequestRecord F)) : Prop where
  hourRequests : m.lastHour.requests = hour.length
  hourBytes : m.lastHour.bytes = totalBytes hour
  hourErrors : m.lastHour.errors = errorCount hour
  dayRequests : m.last24h.requests = day.length
  dayBytes : m.last24h.bytes = totalBytes day
  dayErrors : m.last24h.errors = errorCount day
  seriesRequests : (m.series.map (·.requests)).sum = series.length
  seriesErrors : (m.series.map (·.errors)).sum = errorCount series
  statusRequests : (m.statusCounts.map (·.count)).sum = status.length
  statusErrors : ((m.statusCounts.filter fun c => 500 ≤ c.status).map (·.count)).sum =
    errorCount status
  recent : m.recent = recent.reverse.take 50

/-- Figures of logs that contain one another fit together. -/
theorem Summary.TakenFrom.coherent {F : Type} {m : Summary F}
    {hour day series status recent : List (RequestRecord F)}
    (taken : m.TakenFrom hour day series status recent) (hourInDay : hour.Sublist day)
    (hourInSeries : hour.Sublist series) (dayInStatus : day.Sublist status)
    (seriesInRecent : series.Sublist recent) (late : ∀ r ∈ recent, m.now - 3600 ≤ r.ts) :
    m.Coherent := by
  have ofNat : ∀ {a b : Nat}, a ≤ b → (a : Int) ≤ b := Int.ofNat_le.mpr
  constructor
  case requests =>
    rw [taken.hourRequests, taken.dayRequests]
    exact ofNat hourInDay.length_le
  case bytes =>
    rw [taken.hourBytes, taken.dayBytes]
    exact ofNat (totalBytes_le_of_sublist hourInDay)
  case errors =>
    rw [taken.hourErrors, taken.dayErrors]
    exact ofNat (errorCount_le_of_sublist hourInDay)
  case faulty =>
    rw [taken.hourErrors, taken.dayErrors, taken.hourRequests, taken.dayRequests]
    exact ⟨ofNat List.countP_le_length, ofNat List.countP_le_length⟩
  case seriesRequests =>
    rw [taken.seriesRequests, taken.hourRequests]
    exact ofNat hourInSeries.length_le
  case seriesErrors =>
    rw [taken.seriesErrors, taken.hourErrors]
    exact ofNat (errorCount_le_of_sublist hourInSeries)
  case statusRequests =>
    rw [taken.statusRequests, taken.dayRequests]
    exact ofNat dayInStatus.length_le
  case statusErrors =>
    rw [taken.statusErrors, taken.dayErrors]
    exact ofNat (errorCount_le_of_sublist dayInStatus)
  case recentLength =>
    have more := seriesInRecent.length_le
    rw [taken.seriesRequests, taken.recent, List.length_take, List.length_reverse]
    omega
  case recentTimes =>
    intro r member
    rw [taken.recent] at member
    exact late r (List.mem_reverse.mp (List.mem_of_mem_take member))

namespace Service
variable {F E : Type} [Float64 F] {display : E → String}

/-- The queries of a summary, each in a later state than the one before. -/
def readsAt (states : Nat → Service F) : SummaryReads F where
  hour := (states 1).writer.store
  day := (states 2).writer.store
  series := (states 3).writer.store
  status := (states 4).writer.store
  recent := (states 5).writer.store
  recentSpeedtests := (states 6).writer.store

section
variable {states : Nat → Service F} {steps : Nat → List (ServiceAction F E)} {n : Nat}
  (first : states 0 = start)
  (reached : ∀ i < n, run (step display) (states i) (steps i) = some (states (i + 1)))
include first reached

/-- Each state is reached by the steps before it. -/
theorem run_flatMap {i : Nat} (le : i ≤ n) :
    run (step display) start ((List.range i).flatMap steps) = some (states i) := by
  induction i with
  | zero => rw [first]; rfl
  | succ i ih =>
    rw [List.range_succ, List.flatMap_append, List.flatMap_singleton, run_append,
      ih (Nat.le_of_succ_le le)]
    exact reached i le

/-- Later states have executed more. -/
theorem executed_earlier {i j : Nat} (le : i ≤ j) (last : j ≤ n) :
    (states i).executed <+: (states j).executed := by
  induction j, le using Nat.le_induction with
  | base => exact List.prefix_rfl
  | succ j le ih =>
    have follows := (follows_of_run follows_start
      (run_flatMap first reached (Nat.le_of_succ_le last))).1
    exact (ih (Nat.le_of_succ_le last)).trans (follows_of_run follows (reached j last)).2

theorem windowOf_sublist {i j : Nat} (le : i ≤ j) (last : j ≤ n) {since since' : Int}
    (later : since' ≤ since) :
    ((states i).windowOf since).Sublist ((states j).windowOf since') :=
  inWindow_sublist later ((executed_earlier first reached le last).sublist.filterMap _)

end

/-- The listings of a window that no tick has reached. -/
theorem recent_of_run {actions : List (ServiceAction F E)} {s : Service F} {since : Int}
    (reached : run (step display) start actions = some s)
    (kept : ∀ now, .tick now ∈ actions → retentionCutoff now ≤ since)
    (fits : ∀ c ∈ s.executed, c.Fits) (limit : Int) :
    recentRequests s.writer.store limit (some since) =
        some ((s.windowOf since).reverse.take (clampLimit limit).toNat) ∧
      ∃ tests, recentSpeedtests s.writer.store limit = some tests := by
  have follows := (follows_of_run follows_start reached).1
  rw [follows.store, ← inWindow_executed reached kept]
  exact ⟨recentRequests_eq (writerLoop_requests _) (requestPolicy_retained_fits fits) limit _,
    _, recentSpeedtests_eq (writerLoop_speedtests _) (speedtestPolicy_retained_fits fits) limit⟩

/-- A summary of windows that no tick has reached succeeds, with the figures of each window in the
state its query has met. -/
theorem summary_takenFrom {states : Nat → Service F} {actions : Nat → List (ServiceAction F E)}
    {now : Nat} (ran : ∀ i ≤ 6, run (step display) start (actions i) = some (states i))
    (ticks : ∀ i ≤ 6, ∀ t, .tick t ∈ actions i → retentionCutoff t ≤ now - 86400)
    (dayFit : ∀ i ≤ 6, TotalsFit ((states i).windowOf (now - 86400)))
    (written : ∀ i ≤ 6, ∀ c ∈ (states i).executed, c.Fits) (hosts : List (HostState F))
    (isRunning pinned autoSpeedtest : Bool) :
    ∃ m, Dashboard.summary now (readsAt states) hosts isRunning pinned autoSpeedtest = .json m ∧
      m.now = now ∧ m.TakenFrom ((states 1).windowOf (now - 3600))
        ((states 2).windowOf (now - 86400)) ((states 3).windowOf (now - 3600))
        ((states 4).windowOf (now - 86400)) ((states 5).windowOf (now - 3600)) := by
  have hourTicks : ∀ i ≤ 6, ∀ t, .tick t ∈ actions i → retentionCutoff t ≤ now - 3600 :=
    fun i le t member => (ticks i le t member).trans (by omega)
  have hourFit : ∀ i ≤ 6, TotalsFit ((states i).windowOf (now - 3600)) := fun i le =>
    (dayFit i le).sublist (inWindow_sublist (by omega) (List.Sublist.refl _))
  have minute : (0 : Int) < 60 := by decide
  obtain ⟨⟨hour, readHour, hourRequests, hourErrors, hourBytes, -⟩, -⟩ :=
    aggregates_of_run (ran 1 (by omega)) (hourTicks 1 (by omega)) (hourFit 1 (by omega)) 3600 minute
  obtain ⟨⟨day, readDay, dayRequests, dayErrors, dayBytes, -⟩, -⟩ :=
    aggregates_of_run (ran 2 (by omega)) (ticks 2 (by omega)) (dayFit 2 (by omega)) 86400 minute
  obtain ⟨-, ⟨series, readSeries, seriesRequests, seriesErrors⟩, -⟩ :=
    aggregates_of_run (ran 3 (by omega)) (hourTicks 3 (by omega)) (hourFit 3 (by omega)) 3600 minute
  obtain ⟨-, -, counts, readCounts, statusRequests, statusErrors⟩ :=
    aggregates_of_run (ran 4 (by omega)) (ticks 4 (by omega)) (dayFit 4 (by omega)) 86400 minute
  obtain ⟨readRecent, -⟩ :=
    recent_of_run (ran 5 (by omega)) (hourTicks 5 (by omega)) (written 5 (by omega)) 50
  obtain ⟨-, tests, readTests⟩ :=
    recent_of_run (ran 6 (by omega)) (hourTicks 6 (by omega)) (written 6 (by omega)) 20
  refine ⟨⟨now, hour, day, series, counts, hosts,
    ((states 5).windowOf (now - 3600)).reverse.take 50, tests, isRunning, pinned, pinned,
    autoSpeedtest⟩, ?_, rfl, ⟨hourRequests, hourBytes, hourErrors, dayRequests, dayBytes,
      dayErrors, seriesRequests, seriesErrors, statusRequests, statusErrors, rfl⟩⟩
  simp only [Dashboard.summary, readsAt, readHour, readDay, readSeries, readCounts, readRecent,
    readTests]
  rfl

/-- Whatever happens between its queries, a summary succeeds and its figures fit together, when
no tick so far has reached its day and the totals of the day are `i64` values. -/
theorem summary_of_run (display : E → String) (states : Nat → Service F)
    (steps : Nat → List (ServiceAction F E)) (now : Nat) (hosts : List (HostState F))
    (isRunning pinned autoSpeedtest : Bool) (first : states 0 = start)
    (reached : ∀ i < 6, run (step display) (states i) (steps i) = some (states (i + 1)))
    (kept : ∀ i < 6, ∀ t, .tick t ∈ steps i → retentionCutoff t ≤ now - 86400)
    (fits : ∀ c ∈ (states 6).metrics.dbTx, c.Fits)
    (fit : TotalsFit (inWindow (now - 86400)
      ((states 6).metrics.dbTx.filterMap requestPolicy.added))) :
    ∃ m, Dashboard.summary now (readsAt states) hosts isRunning pinned autoSpeedtest = .json m ∧
      m.Coherent := by
  have ran := fun (i : Nat) (le : i ≤ 6) => run_flatMap first reached le
  have ticks : ∀ i ≤ 6, ∀ t, .tick t ∈ (List.range i).flatMap steps →
      retentionCutoff t ≤ now - 86400 := by
    intro i le t member
    obtain ⟨j, before, here⟩ := List.mem_flatMap.mp member
    exact kept j (by have := List.mem_range.mp before; omega) t here
  have dayFit : ∀ i ≤ 6, TotalsFit ((states i).windowOf (now - 86400)) := fun i le =>
    fit.sublist ((windowOf_sublist first reached le le_rfl le_rfl).trans
      (inWindow_sublist le_rfl ((List.take_sublist _ _).filterMap _)))
  have written : ∀ i ≤ 6, ∀ c ∈ (states i).executed, c.Fits := fun i le c member =>
    fits c (executed_subset ((executed_earlier first reached le le_rfl).subset member))
  obtain ⟨m, answered, sameNow, taken⟩ :=
    summary_takenFrom ran ticks dayFit written hosts isRunning pinned autoSpeedtest
  refine ⟨m, answered, taken.coherent ?hourInDay ?hourInSeries ?dayInStatus ?seriesInRecent ?late⟩
  case hourInDay => exact windowOf_sublist first reached (by omega) (by omega) (by omega)
  case hourInSeries => exact windowOf_sublist first reached (by omega) (by omega) le_rfl
  case dayInStatus => exact windowOf_sublist first reached (by omega) (by omega) le_rfl
  case seriesInRecent => exact windowOf_sublist first reached (by omega) (by omega) le_rfl
  case late =>
    intro r member
    rw [sameNow]
    exact of_decide_eq_true (List.mem_filter.mp member).2

/-- The first queries meet the database before the last commands are executed. -/
def summarySteps : Nat → List (ServiceAction ℚ String)
  | 0 => overlappingRun.take 6
  | 2 => overlappingRun.drop 6
  | _ => []

def summaryStates (i : Nat) : Service ℚ :=
  (run (step id) start ((List.range i).flatMap summarySteps)).getD start

theorem summary_of_run_overlapping :
    ∃ m, Dashboard.summary 700010 (readsAt summaryStates) [] false false true = .json m ∧
      m.Coherent :=
  summary_of_run id summaryStates summarySteps 700010 [] false false true rfl
    (by
      intro i bound
      interval_cases i <;> rfl)
    (by
      intro i bound t member
      have among : .tick t ∈ overlappingRun := by
        interval_cases i
        · exact List.mem_of_mem_take member
        · cases member
        · exact List.mem_of_mem_drop member
        all_goals cases member
      exact (kept_overlappingRun t among).trans (by decide))
    (by decide +kernel) ⟨by decide +kernel, by decide +kernel⟩

end Service
end XboxProxy
