import XboxProxy.Db.Store
import XboxProxy.Misc.RetainedLog

/-!
# What the queries list

The two tables are a log with retention: after any commands they hold the records that were
inserted and that no later cleanup let expire, and the queries list the newest of them as
they were inserted.
-/

namespace XboxProxy
open Misc

/-! ## Casts -/

theorem asU64_asI64 {n : Nat} (small : n < 2 ^ 64) : asU64 (asI64 n) = n := by
  unfold asU64 asI64
  have unsigned : Int.bmod n (2 ^ 64) % 2 ^ 64 = n % 2 ^ 64 := Int.bmod_emod
  rw [unsigned, Int.emod_eq_of_lt (by omega) (by omega)]
  exact Int.toNat_natCast n

theorem asU16_toNat (n : UInt16) : asU16 n.toNat = n := by
  unfold asU16
  have small : (n.toNat : Int) < 2 ^ 16 := by exact_mod_cast n.toNat_lt
  rw [Int.emod_eq_of_lt (by omega) small, Int.toNat_natCast]
  exact UInt16.ofNat_toNat

theorem boolAsI64_ne_zero (b : Bool) : decide (boolAsI64 b ≠ 0) = b := by
  cases b <;> rfl

theorem clampLimit_nonneg (limit : Int) : 0 ≤ clampLimit limit := le_max_left _ _

/-! ## The log -/

section Log
variable {F : Type}

/-- The `u64` fields are `u64` values. -/
def RequestRecord.Fits (r : RequestRecord F) : Prop :=
  r.bytes < 2 ^ 64 ∧ r.durationMs < 2 ^ 64 ∧ r.ttfbMs < 2 ^ 64

/-- The `u64` field is a `u64` value. -/
def SpeedTestRecord.Fits (s : SpeedTestRecord F) : Prop :=
  ∀ latency ∈ s.latencyMs, latency < 2 ^ 64

def DbCommand.Fits : DbCommand F → Prop
  | .insertRequest r => r.Fits
  | .insertSpeedTest s => s.Fits
  | .cleanup _ => True

instance (c : DbCommand F) : Decidable c.Fits :=
  match c with
  | .insertRequest _ => inferInstanceAs (Decidable (_ ∧ _ ∧ _))
  | .insertSpeedTest s => inferInstanceAs (Decidable (∀ latency ∈ s.latencyMs, latency < 2 ^ 64))
  | .cleanup _ => .isTrue trivial

/-- The requests as a log: a cleanup lets those before its cutoff expire. -/
def requestPolicy : LogPolicy (DbCommand F) (RequestRecord F) where
  added
    | .insertRequest r => some r
    | _ => none
  expires
    | .cleanup cutoff, r => decide (r.ts < cutoff)
    | _, _ => false

/-- The speed tests as a log. -/
def speedtestPolicy : LogPolicy (DbCommand F) (SpeedTestRecord F) where
  added
    | .insertSpeedTest s => some s
    | _ => none
  expires
    | .cleanup cutoff, s => decide (s.ts < cutoff)
    | _, _ => false

/-- The requests the log retains that are not before `since`, newest insertion first. -/
def requestsSince (commands : List (DbCommand F)) (since : Option Int) :
    List (RequestRecord F) :=
  ((requestPolicy.retained commands).filter fun r => since.all fun s => decide (s ≤ r.ts)).reverse

theorem requestPolicy_retained_fits {commands : List (DbCommand F)}
    (fits : ∀ c ∈ commands, c.Fits) : ∀ r ∈ requestPolicy.retained commands, r.Fits := by
  intro r member
  obtain ⟨c, sent, added⟩ := requestPolicy.added_of_mem_retained member
  cases c with
  | insertRequest r' =>
    obtain rfl : r' = r := by simpa [requestPolicy] using added
    exact fits _ sent
  | insertSpeedTest s => cases added
  | cleanup cutoff => cases added

theorem speedtestPolicy_retained_fits {commands : List (DbCommand F)}
    (fits : ∀ c ∈ commands, c.Fits) : ∀ s ∈ speedtestPolicy.retained commands, s.Fits := by
  intro s member
  obtain ⟨c, sent, added⟩ := speedtestPolicy.added_of_mem_retained member
  cases c with
  | insertRequest r => cases added
  | insertSpeedTest s' =>
    obtain rfl : s' = s := by simpa [speedtestPolicy] using added
    exact fits _ sent
  | cleanup cutoff => cases added

/-! ## What the tables hold -/

/-- The row of a request. -/
def requestValues (r : RequestRecord F) : String → SqlValue F :=
  SqlTable.written requestColumns insertRequestNames (insertRequestParams r)

/-- The row of a speed test. -/
def speedtestValues (s : SpeedTestRecord F) : String → SqlValue F :=
  SqlTable.written speedtestColumns insertSpeedTestNames (insertSpeedTestParams s)

theorem insertRequest_allowed (r : RequestRecord F) :
    (requestColumns.any fun column =>
      column.notNull &&
        (SqlTable.given insertRequestNames (insertRequestParams r) column).isNull) = false := rfl

theorem insertSpeedTest_allowed (s : SpeedTestRecord F) :
    (speedtestColumns.any fun column =>
      column.notNull &&
        (SqlTable.given insertSpeedTestNames (insertSpeedTestParams s) column).isNull) = false :=
  rfl

theorem ts_of_requestValues {row : SqlRow F} {r : RequestRecord F}
    (same : row.values = requestValues r) : row.values "ts" = .integer r.ts := by
  rw [same]
  rfl

theorem ts_of_speedtestValues {row : SqlRow F} {s : SpeedTestRecord F}
    (same : row.values = speedtestValues s) : row.values "ts" = .integer s.ts := by
  rw [same]
  rfl

/-- The requests table holds a log. -/
def HoldsRequests (db : Database F) (log : List (RequestRecord F)) : Prop :=
  db.requests.Holds requestColumns requestValues log

/-- The speed tests table holds a log. -/
def HoldsSpeedtests (db : Database F) (log : List (SpeedTestRecord F)) : Prop :=
  db.speedtests.Holds speedtestColumns speedtestValues log

/-- A turn of the writer does to the requests what the command does to the log. -/
theorem writerStep_requests (db : Database F) (log : List (RequestRecord F)) (c : DbCommand F)
    (holds : HoldsRequests db log) :
    HoldsRequests (writerStep db c) (requestPolicy.advance c log) := by
  unfold HoldsRequests LogPolicy.advance at *
  cases c with
  | insertRequest r =>
    obtain ⟨t, inserted, after⟩ := holds.insert (e := r) rfl (insertRequest_allowed r)
    simpa [writerStep, inserted, requestPolicy] using after
  | insertSpeedTest s =>
    cases inserted : db.speedtests.insert insertSpeedTestNames (insertSpeedTestParams s) <;>
      simpa [writerStep, inserted, requestPolicy] using holds
  | cleanup cutoff =>
    have after := holds.delete fun row r same =>
      SqlRow.less_of_integer (ts_of_requestValues same) cutoff
    simpa [writerStep, requestPolicy] using after

/-- And to the speed tests what it does to theirs. -/
theorem writerStep_speedtests (db : Database F) (log : List (SpeedTestRecord F))
    (c : DbCommand F) (holds : HoldsSpeedtests db log) :
    HoldsSpeedtests (writerStep db c) (speedtestPolicy.advance c log) := by
  unfold HoldsSpeedtests LogPolicy.advance at *
  cases c with
  | insertRequest r =>
    cases inserted : db.requests.insert insertRequestNames (insertRequestParams r) <;>
      simpa [writerStep, inserted, speedtestPolicy] using holds
  | insertSpeedTest s =>
    obtain ⟨t, inserted, after⟩ := holds.insert (e := s) rfl (insertSpeedTest_allowed s)
    simpa [writerStep, inserted, speedtestPolicy] using after
  | cleanup cutoff =>
    have after := holds.delete fun row s same =>
      SqlRow.less_of_integer (ts_of_speedtestValues same) cutoff
    simpa [writerStep, speedtestPolicy] using after

theorem writerLoop_requests (commands : List (DbCommand F)) :
    HoldsRequests (writerLoop .init commands) (requestPolicy.retained commands) := by
  have empty : HoldsRequests (.init : Database F) [] := SqlTable.holds_create _ _
  exact requestPolicy.holds_retained empty writerStep_requests commands

theorem writerLoop_speedtests (commands : List (DbCommand F)) :
    HoldsSpeedtests (writerLoop .init commands) (speedtestPolicy.retained commands) := by
  have empty : HoldsSpeedtests (.init : Database F) [] := SqlTable.holds_create _ _
  exact speedtestPolicy.holds_retained empty writerStep_speedtests commands

end Log

/-! ## Reading back -/

section ReadBack
variable {F : Type} [Float64 F]

/-- A request reads back as it was inserted. -/
theorem rowToRequest_insertRequestParams {r : RequestRecord F} (fits : r.Fits) :
    rowToRequest (insertRequestParams r) = some r := by
  obtain ⟨bytes, durationMs, ttfbMs⟩ := fits
  have upstreamIp : getOptional getText (insertRequestParams r) 10 = some r.upstreamIp := by
    show getOptional getText ([_, _, _, _, _, _, _, _, _, _, .ofOption .text r.upstreamIp, _, _]) 10
      = some r.upstreamIp
    cases r.upstreamIp <;> rfl
  have error : getOptional getText (insertRequestParams r) 12 = some r.error := by
    show getOptional getText ([_, _, _, _, _, _, _, _, _, _, _, _, .ofOption .text r.error]) 12
      = some r.error
    cases r.error <;> rfl
  unfold rowToRequest
  rw [upstreamIp, error]
  show some { r with
      status := asU16 r.status.toNat
      bytes := asU64 (asI64 r.bytes)
      durationMs := asU64 (asI64 r.durationMs)
      ttfbMs := asU64 (asI64 r.ttfbMs)
      passthrough := decide (boolAsI64 r.passthrough ≠ 0) } = some r
  rw [asU16_toNat, asU64_asI64 bytes, asU64_asI64 durationMs, asU64_asI64 ttfbMs,
    boolAsI64_ne_zero]

/-- A speed test reads back as it was inserted. -/
theorem rowToSpeedTest_insertSpeedTestParams {s : SpeedTestRecord F} (fits : s.Fits) :
    rowToSpeedTest (insertSpeedTestParams s) = some s := by
  have latencyMs : (getOptional getInteger (insertSpeedTestParams s) 3).map
      (Option.map asU64) = some s.latencyMs := by
    show (getOptional getInteger ([_, _, _, .ofOption (fun latency => .integer (asI64 latency))
      s.latencyMs, _, _] : List (SqlValue F)) 3).map (Option.map asU64) = some s.latencyMs
    cases here : s.latencyMs with
    | none => rfl
    | some latency =>
      show some (some (asU64 (asI64 latency))) = some (some latency)
      rw [asU64_asI64 (fits latency here)]
  have speedKbps : getOptional getReal (insertSpeedTestParams s) 4 = some s.speedKbps := by
    show getOptional getReal ([_, _, _, _, .ofOption .real s.speedKbps, _]) 4 = some s.speedKbps
    cases s.speedKbps <;> rfl
  obtain ⟨latency, read, same⟩ := Option.map_eq_some_iff.mp latencyMs
  unfold rowToSpeedTest
  rw [read, speedKbps]
  show some { s with
      latencyMs := latency.map asU64
      success := decide (boolAsI64 s.success ≠ 0) } = some s
  rw [same, boolAsI64_ne_zero]

end ReadBack

/-! ## The newest records -/

section Newest
variable {F : Type} [Float64 F]

/-- A query over rows that hold some of the requests. -/
theorem recentRequests_eq {db : Database F} {log : List (RequestRecord F)}
    (holds : HoldsRequests db log) (fits : ∀ r ∈ log, r.Fits) (limit : Int)
    (since : Option Int) :
    recentRequests db limit since =
      some ((log.filter fun r => since.all fun s => decide (s ≤ r.ts)).reverse.take
        (clampLimit limit).toNat) := by
  have readBack : ∀ (row : SqlRow F) r, r.Fits → row.values = requestValues r →
      rowToRequest (row.select selectRequestNames) = some r := by
    intro row r fits same
    unfold SqlRow.select
    rw [same]
    exact rowToRequest_insertRequestParams fits
  unfold recentRequests
  cases since with
  | none =>
    simp only [Option.all_none, List.filter_true]
    exact mapM_newest db.requests.increasing holds.rows
      (fun row r member same => readBack row r (fits r member) same) (clampLimit_nonneg limit)
  | some s =>
    simp only [Option.all_some]
    have kept := SqlTable.forall₂_filter holds.rows fun row r same =>
      SqlRow.atLeast_of_integer (ts_of_requestValues same) s
    exact mapM_newest (db.requests.increasing.filter _) kept
      (fun row r member same => readBack row r (fits r (List.mem_of_mem_filter member)) same)
      (clampLimit_nonneg limit)

theorem recentSpeedtests_eq {db : Database F} {log : List (SpeedTestRecord F)}
    (holds : HoldsSpeedtests db log) (fits : ∀ s ∈ log, s.Fits) (limit : Int) :
    recentSpeedtests db limit = some (log.reverse.take (clampLimit limit).toNat) := by
  unfold recentSpeedtests
  refine mapM_newest db.speedtests.increasing holds.rows ?_ (clampLimit_nonneg limit)
  intro row s member same
  unfold SqlRow.select
  rw [same]
  exact rowToSpeedTest_insertSpeedTestParams (fits s member)

/-- The store refines the log: after any commands the two queries list what the log retains,
and a cleanup removes no row that is not before its cutoff. -/
theorem writerLoop_refines_log (commands : List (DbCommand F)) (fits : ∀ c ∈ commands, c.Fits) :
    (∀ limit since, recentRequests (writerLoop .init commands) limit since =
      some ((requestsSince commands since).take (clampLimit limit).toNat)) ∧
    (∀ limit, recentSpeedtests (writerLoop .init commands) limit =
      some ((speedtestPolicy.retained commands).reverse.take (clampLimit limit).toNat)) ∧
    ∀ (db : Database F) (cutoff ts : Int) (row : SqlRow F), row.values "ts" = .integer ts →
      cutoff ≤ ts →
      (row ∈ db.requests.rows → row ∈ (writerStep db (.cleanup cutoff)).requests.rows) ∧
      (row ∈ db.speedtests.rows → row ∈ (writerStep db (.cleanup cutoff)).speedtests.rows) := by
  refine ⟨?_, ?_, ?_⟩
  · intro limit since
    exact recentRequests_eq (writerLoop_requests commands) (requestPolicy_retained_fits fits)
      limit since
  · intro limit
    exact recentSpeedtests_eq (writerLoop_speedtests commands)
      (speedtestPolicy_retained_fits fits) limit
  · intro db cutoff ts row column late
    have stays : (!SqlRow.less "ts" cutoff row) = true := by
      rw [SqlRow.less_of_integer column]
      simpa using late
    exact ⟨fun member => List.mem_filter.mpr ⟨member, stays⟩,
      fun member => List.mem_filter.mpr ⟨member, stays⟩⟩

end Newest

/-! ## A run -/

/-- A download of `bytes` bytes at `ts`. -/
def downloadAt (ts : Int) (bytes : Nat) : RequestRecord ℚ :=
  { ts, clientIp := "192.168.1.20", host := "assets1.xboxlive.cn", path := "/0/a", method := "GET"
    status := 206, bytes, durationMs := 2 ^ 63, ttfbMs := 12, throughputKbps := 3 / 2
    upstreamIp := some "60.28.201.1", passthrough := true, error := none }

/-- Cleanups that go back in time between downloads of `2 ^ 64 - 1` and `2 ^ 63` bytes. -/
def cleanedRun : List (DbCommand ℚ) :=
  [.insertRequest (downloadAt 10 7), .insertRequest (downloadAt 30 (2 ^ 64 - 1)),
    .insertSpeedTest ⟨5, "assets1.xboxlive.cn", "60.28.201.1", some (2 ^ 63), none, true⟩,
    .cleanup 20, .insertRequest (downloadAt 15 (2 ^ 63)), .cleanup 4]

theorem cleanedRun_fits : ∀ c ∈ cleanedRun, c.Fits := by
  simp [cleanedRun, DbCommand.Fits, RequestRecord.Fits, SpeedTestRecord.Fits, downloadAt]

theorem writerLoop_refines_log_cleanedRun :
    recentRequests (writerLoop .init cleanedRun) 500 none =
        some [downloadAt 15 (2 ^ 63), downloadAt 30 (2 ^ 64 - 1)] ∧
      recentRequests (writerLoop .init cleanedRun) 500 (some 20) =
        some [downloadAt 30 (2 ^ 64 - 1)] ∧
      recentSpeedtests (writerLoop .init cleanedRun) (-1) = some [] := by
  obtain ⟨requests, speedtests, -⟩ := writerLoop_refines_log cleanedRun cleanedRun_fits
  exact ⟨requests 500 none, requests 500 (some 20), speedtests (-1)⟩

end XboxProxy
