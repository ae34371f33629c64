import XboxProxy.Dashboard.Queries
import XboxProxy.Db.Proofs.Windows
import XboxProxy.Service.Proofs.Accounting

/-!
# What the dashboard shows of a run

The writer follows the channel: the tables hold what the log retains of the commands taken so
far. The ticker's cutoffs lie seven days back, so nothing is missing from a window that no
tick has reached.
-/

namespace XboxProxy
open Misc

namespace Service
variable {F E : Type} [Float64 F] {display : E → String}

/-! ## The writer follows the channel -/

/-- The commands the writer has executed. -/
def executed (s : Service F) : List (DbCommand F) := s.metrics.dbTx.take s.writer.taken

/-- The writer's database is what it makes, of the one it has opened, with the commands it has
taken. -/
def Follows (first : Database F) (s : Service F) : Prop :=
  s.writer.Follows writerStep first s.metrics.dbTx

variable {first : Database F}

omit [Float64 F] in
theorem Follows.store {s : Service F} (follows : s.Follows first) :
    s.writer.store = writerLoop first s.executed := Consumer.Follows.store follows

/-- A step other than a turn of the writer sends. -/
theorem sent_of_step {s t : Service F} {a : ServiceAction F E} (other : a ≠ .write)
    (stepped : step display s a = some t) :
    ∃ more, t.metrics.dbTx = s.metrics.dbTx ++ more ∧ t.writer = s.writer := by
  cases a with
  | reply requestMeta error =>
    obtain rfl := Option.some.inj stepped
    exact ⟨[], (List.append_nil _).symm, rfl⟩
  | fail requestMeta error now elapsed =>
    obtain rfl := Option.some.inj stepped
    rw [finalize_of_not_recorded rfl]
    exact ⟨_, rfl, rfl⟩
  | download k a =>
    simp only [step, Download.step_eq_act, Option.map_map, Option.bind_eq_some_iff,
      Option.map_eq_some_iff] at stepped
    obtain ⟨d, -, ⟨d', sent⟩, -, rfl⟩ := stepped
    exact ⟨sent, rfl, rfl⟩
  | speedtest rec =>
    obtain rfl := Option.some.inj stepped
    exact ⟨_, rfl, rfl⟩
  | tick now =>
    obtain rfl := Option.some.inj stepped
    exact ⟨_, rfl, rfl⟩
  | write => exact absurd rfl other

/-- A step sends, or it is a turn of the writer. -/
theorem step_cases {s t : Service F} {a : ServiceAction F E}
    (stepped : step display s a = some t) :
    (∃ more, t.metrics.dbTx = s.metrics.dbTx ++ more ∧ t.writer = s.writer) ∨
      t.metrics = s.metrics ∧ s.writer.receive writerStep s.metrics.dbTx = some t.writer := by
  by_cases writes : a = .write
  · subst writes
    obtain ⟨writer, received, rfl⟩ := Option.map_eq_some_iff.mp stepped
    exact .inr ⟨rfl, received⟩
  · exact .inl (sent_of_step writes stepped)

/-- Along a run the writer keeps following, and what it has executed only grows. -/
theorem follows_of_run {s t : Service F} {actions : List (ServiceAction F E)}
    (follows : s.Follows first) (reached : run (step display) s actions = some t) :
    t.Follows first ∧ s.executed <+: t.executed := by
  induction actions generalizing s with
  | nil =>
    obtain rfl : s = t := by simpa using reached
    exact ⟨follows, List.prefix_rfl⟩
  | cons a actions ih =>
    obtain ⟨u, stepped, rest⟩ := run_cons_eq_some.mp reached
    have one : u.Follows first ∧ s.executed <+: u.executed := by
      unfold Follows executed
      rcases step_cases stepped with ⟨more, sent, same⟩ | ⟨same, received⟩
      · rw [sent, same, List.take_append_of_le_length (Consumer.Follows.bound follows)]
        exact ⟨Consumer.Follows.send follows more, List.prefix_rfl⟩
      · rw [same]
        refine ⟨Consumer.Follows.receive follows received, ?_⟩
        obtain ⟨m, -, taken⟩ := Consumer.receive_eq_some_iff.mp received
        rw [taken]
        exact List.take_prefix_take_left (Nat.le_succ _)
    obtain ⟨later, grown⟩ := ih one.1 rest
    exact ⟨later, one.2.trans grown⟩

omit [Float64 F] in
theorem follows_start : (start : Service F).Follows .init := Consumer.Follows.start

/-- Turns of the writer alone. -/
theorem run_writes (s : Service F) (n : Nat) :
    run (step display) s (List.replicate n .write) =
      (s.writer.receiveN writerStep s.metrics.dbTx n).map fun writer => { s with writer } := by
  induction n generalizing s with
  | zero => rfl
  | succ n ih =>
    rw [List.replicate_succ, run_cons, Consumer.receiveN, step]
    cases s.writer.receive writerStep s.metrics.dbTx with
    | none => rfl
    | some writer => exact ih { s with writer }

/-- Once the queue is empty, all that was sent is executed. -/
theorem drained_of_follows {s : Service F} (follows : s.Follows first) :
    run (step display) s (List.replicate (s.writer.queued s.metrics.dbTx).length .write) =
      some { s with
        writer := ⟨s.metrics.dbTx.length, writerLoop first s.metrics.dbTx⟩ } := by
  rw [run_writes, Consumer.Follows.drain follows]
  rfl

/-! ## The newest records -/

theorem clamped_limit (q : LimitQuery) : clampLimit q.clamped = q.clamped := by
  unfold clampLimit LimitQuery.clamped
  omega

/-- The replies to the listings, from a database the writer has filled. -/
theorem listed_writerLoop {commands : List (DbCommand F)} (fits : ∀ c ∈ commands, c.Fits)
    (q : LimitQuery) :
    Dashboard.requests (.ok (writerLoop .init commands)) q =
        .json ((requestsSince commands q.since).take q.clamped.toNat) ∧
      Dashboard.speedtests (.ok (writerLoop .init commands)) q =
        .json ((speedtestPolicy.retained commands).reverse.take q.clamped.toNat) := by
  constructor
  · simp only [Dashboard.requests, Dashboard.answer]
    rw [recentRequests_eq (writerLoop_requests commands) (requestPolicy_retained_fits fits),
      clamped_limit]
    rfl
  · simp only [Dashboard.speedtests, Dashboard.answer]
    rw [recentSpeedtests_eq (writerLoop_speedtests commands)
      (speedtestPolicy_retained_fits fits), clamped_limit]

omit [Float64 F] in
theorem executed_subset {s : Service F} {c : DbCommand F} (member : c ∈ s.executed) :
    c ∈ s.metrics.dbTx := List.mem_of_mem_take member

/-- At any time the listings show the newest records the log retains of the commands executed
so far, a prefix of those sent, and between 1 and 500 of them; after as many turns of the
writer as commands are queued, of all that has been sent. -/
theorem listed_of_run (display : E → String) (actions : List (ServiceAction F E))
    (s : Service F) (reached : run (step display) start actions = some s)
    (fits : ∀ c ∈ s.metrics.dbTx, c.Fits) :
    (∀ q, Dashboard.requests (.ok s.writer.store) q =
          .json ((requestsSince s.executed q.since).take q.clamped.toNat) ∧
        Dashboard.speedtests (.ok s.writer.store) q =
          .json ((speedtestPolicy.retained s.executed).reverse.take q.clamped.toNat)) ∧
    ∃ t, run (step display) s
        (List.replicate (s.writer.queued s.metrics.dbTx).length .write) = some t ∧
      t.metrics = s.metrics ∧ t.downloads = s.downloads ∧ ∀ q,
      Dashboard.requests (.ok t.writer.store) q =
          .json ((requestsSince s.metrics.dbTx q.since).take q.clamped.toNat) ∧
        Dashboard.speedtests (.ok t.writer.store) q =
          .json ((speedtestPolicy.retained s.metrics.dbTx).reverse.take q.clamped.toNat) := by
  have follows := (follows_of_run follows_start reached).1
  refine ⟨fun q => ?_, _, drained_of_follows follows, rfl, rfl, fun q => listed_writerLoop fits q⟩
  rw [follows.store]
  exact listed_writerLoop (fun c member => fits c (executed_subset member)) q

theorem listed_of_run_overlappingRun :
    ∃ records, Dashboard.requests (.ok overlapped.writer.store) ⟨none, none⟩ = .json records ∧
      records.map (·.path) = ["/0/a", "/0/a", "/0/b"] := by
  have shown := listed_of_run id overlappingRun overlapped overlapped_reached (by decide +kernel)
  exact ⟨_, (shown.1 ⟨none, none⟩).1, by decide +kernel⟩

/-! ## Windows -/

omit [Float64 F] in
/-- Seen from `since`, a cleanup before it removes nothing. -/
theorem inWindow_retained {commands : List (DbCommand F)} {since : Int}
    (kept : ∀ cutoff, .cleanup cutoff ∈ commands → cutoff ≤ since) :
    inWindow since (requestPolicy.retained commands) =
      inWindow since (commands.filterMap requestPolicy.added) := by
  apply requestPolicy.filter_retained
  intro c member r late
  cases c with
  | insertRequest r' => rfl
  | insertSpeedTest rec => rfl
  | cleanup cutoff =>
    have before := kept cutoff member
    have after : since ≤ r.ts := of_decide_eq_true late
    exact decide_eq_false (by omega)

/-- Every cleanup sent comes from a tick. -/
theorem exists_tick_of_cleanup {actions : List (ServiceAction F E)} {s : Service F}
    (reached : run (step display) start actions = some s) {cutoff : Int}
    (sent : .cleanup cutoff ∈ s.metrics.dbTx) :
    ∃ now, .tick now ∈ actions ∧ cutoff = retentionCutoff now := by
  obtain ⟨parts, splits⟩ := splits_of_run reached
  have written := splits.log.mem_iff.mp sent
  rw [List.mem_append, List.flatMap_def, parts_eq_transfers splits.each] at written
  rcases written with emitted | own
  · obtain ⟨turn, member, here⟩ := List.mem_flatMap.mp emitted
    obtain ⟨a, acted, rfl⟩ := List.mem_map.mp member
    cases a with
    | tick now =>
      have same : (.cleanup cutoff : DbCommand F) = .cleanup (retentionCutoff now) :=
        List.mem_singleton.mp here
      exact ⟨now, acted, DbCommand.cleanup.inj same⟩
    | _ => simp [ServiceAction.turn] at here
  · simp at own

/-- No request sent has a negative time. -/
theorem ts_nonneg_of_sent {actions : List (ServiceAction F E)} {s : Service F}
    (reached : run (step display) start actions = some s) :
    ∀ r ∈ s.metrics.dbTx.filterMap requestPolicy.added, 0 ≤ r.ts := by
  obtain ⟨parts, splits⟩ := splits_of_run reached
  intro r member
  rw [(requests_of_splits splits).mem_iff, List.mem_append] at member
  rcases member with failed | transferred
  · obtain ⟨a, -, here⟩ := List.mem_filterMap.mp failed
    cases a with
    | fail requestMeta error now elapsed =>
      obtain rfl := Option.some.inj here
      exact Int.natCast_nonneg now
    | _ => cases here
  · obtain ⟨t, -, here⟩ := List.mem_filterMap.mp transferred
    obtain ⟨clocks, -, rfl⟩ := Option.map_eq_some_iff.mp here
    exact Int.natCast_nonneg clocks.1

/-- The requests of a window among the commands executed, whether or not a cleanup has removed
them. -/
def windowOf (s : Service F) (since : Int) : List (RequestRecord F) :=
  inWindow since (s.executed.filterMap requestPolicy.added)

section
variable {actions : List (ServiceAction F E)} {s : Service F} {since : Int}
  (reached : run (step display) start actions = some s)
  (kept : ∀ now, .tick now ∈ actions → retentionCutoff now ≤ since)
include reached kept

/-- Nothing is missing from a window that no tick has reached. -/
theorem inWindow_executed :
    inWindow since (requestPolicy.retained s.executed) = s.windowOf since := by
  apply inWindow_retained
  intro cutoff member
  obtain ⟨now, ticked, rfl⟩ := exists_tick_of_cleanup reached (executed_subset member)
  exact kept now ticked

/-- The aggregates of such a window are totals of what has been executed. -/
theorem aggregates_of_run (fit : TotalsFit (s.windowOf since)) (windowSecs : Int)
    {bucketSecs : Int} (pos : 0 < bucketSecs) :
    (∃ stats, statsSince s.writer.store since windowSecs = some stats ∧
      stats.requests = (s.windowOf since).length ∧
      stats.errors = errorCount (s.windowOf since) ∧
      stats.bytes = totalBytes (s.windowOf since) ∧
      stats.throughputKbps = throughputKbps (totalBytes (s.windowOf since)) windowSecs) ∧
    (∃ series, seriesSince s.writer.store since bucketSecs = some series ∧
      (series.map (·.requests)).sum = (s.windowOf since).length ∧
      (series.map (·.errors)).sum = errorCount (s.windowOf since)) ∧
    ∃ counts, statusCounts s.writer.store since = some counts ∧
      (counts.map (·.count)).sum = (s.windowOf since).length ∧
      ((counts.filter fun c => 500 ≤ c.status).map (·.count)).sum =
        errorCount (s.windowOf since) := by
  have follows := (follows_of_run follows_start reached).1
  have holds := writerLoop_requests s.executed
  have late : ∀ r ∈ requestPolicy.retained s.executed, 0 ≤ r.ts := by
    intro r member
    obtain ⟨c, sent, added⟩ := requestPolicy.added_of_mem_retained member
    exact ts_nonneg_of_sent reached r (List.mem_filterMap.mpr ⟨c, executed_subset sent, added⟩)
  rw [← inWindow_executed reached kept] at fit ⊢
  rw [follows.store]
  exact ⟨statsSince_of_holds holds late since windowSecs fit,
    seriesSince_of_holds holds late since pos fit, statusCounts_of_holds holds late since⟩

end

/-- The records of a run, each with what its body delivered. -/
def recordsOf (display : E → String) (actions : List (ServiceAction F E)) :
    List (RequestRecord F) :=
  failuresOf actions ++ (transfersOf actions).filterMap (·.record display)

/-- With the queue empty, the aggregates of a window that no tick has reached are the totals of
the records of the run: every body that has ended in the window is counted once, with the
bytes it delivered. -/
theorem tallied_of_run (display : E → String) (actions : List (ServiceAction F E))
    (s : Service F) (reached : run (step display) start actions = some s)
    (drained : s.writer.taken = s.metrics.dbTx.length) (since windowSecs bucketSecs : Int)
    (kept : ∀ now, .tick now ∈ actions → retentionCutoff now ≤ since) (pos : 0 < bucketSecs)
    (fit : TotalsFit (inWindow since (recordsOf display actions))) :
    ∃ stats series counts, statsSince s.writer.store since windowSecs = some stats ∧
      seriesSince s.writer.store since bucketSecs = some series ∧
      statusCounts s.writer.store since = some counts ∧
      stats.requests = (inWindow since (recordsOf display actions)).length ∧
      stats.bytes = totalBytes (inWindow since (recordsOf display actions)) ∧
      stats.errors = errorCount (inWindow since (recordsOf display actions)) ∧
      stats.throughputKbps = throughputKbps stats.bytes windowSecs ∧
      (series.map (·.requests)).sum = stats.requests ∧
      (series.map (·.errors)).sum = stats.errors ∧
      (counts.map (·.count)).sum = stats.requests ∧
      ((counts.filter fun c => 500 ≤ c.status).map (·.count)).sum = stats.errors := by
  obtain ⟨parts, splits⟩ := splits_of_run reached
  have perm : (s.windowOf since).Perm (inWindow since (recordsOf display actions)) := by
    rw [windowOf, executed, drained, List.take_length]
    exact (requests_of_splits splits).filter _
  obtain ⟨⟨stats, readStats, requests, errors, bytes, throughput⟩,
    ⟨series, readSeries, bucketRequests, bucketErrors⟩,
    ⟨counts, readCounts, statusRequests, statusErrors⟩⟩ :=
    aggregates_of_run reached kept (fit.perm perm.symm) windowSecs pos
  refine ⟨stats, series, counts, readStats, readSeries, readCounts, ?_, ?_, ?_, ?_, ?_, ?_, ?_, ?_⟩
  · rw [requests, perm.length_eq]
  · rw [bytes, totalBytes_perm perm]
  · rw [errors, errorCount_perm perm]
  · rw [throughput, bytes]
  · rw [bucketRequests, requests]
  · rw [bucketErrors, errors]
  · rw [statusRequests, requests]
  · rw [statusErrors, errors]

theorem kept_overlappingRun : ∀ now, .tick now ∈ overlappingRun → retentionCutoff now ≤ 95204 := by
  intro now member
  obtain rfl : now = 700004 := by simpa [overlappingRun] using member
  decide

theorem tallied_of_run_overlappingRun :
    ∃ stats, statsSince overlapped.writer.store 95204 3600 = some stats ∧
      stats.requests = 3 ∧ stats.bytes = 5 ∧ stats.errors = 1 := by
  obtain ⟨stats, -, -, read, -, -, requests, bytes, errors, -⟩ :=
    tallied_of_run id overlappingRun overlapped overlapped_reached rfl 95204 3600 60
      kept_overlappingRun (by decide) ⟨by decide +kernel, by decide +kernel⟩
  refine ⟨stats, read, ?_, ?_, ?_⟩
  · rw [requests]
    decide +kernel
  · rw [bytes]
    decide +kernel
  · rw [errors]
    decide +kernel

end Service
end XboxProxy
