import XboxProxy.Db.Proofs.Conservation

/-!
# The aggregates of a log

What the aggregates say of a table that holds a log of requests, in terms of the log. While
the totals stay below the bounds of an `i64`, no query fails.
-/

namespace XboxProxy
open Misc

section Log
variable {F : Type}

/-- The requests of a log that are not before `since`. -/
def inWindow (since : Int) (log : List (RequestRecord F)) : List (RequestRecord F) :=
  log.filter fun r => decide (since ≤ r.ts)

/-- The requests that count as errors. -/
def errorCount (log : List (RequestRecord F)) : Nat := log.countP fun r => decide (500 ≤ r.status)

/-- The bytes of all requests. -/
def totalBytes (log : List (RequestRecord F)) : Nat := (log.map (·.bytes)).sum

/-- The totals are `i64` values. -/
structure TotalsFit (log : List (RequestRecord F)) : Prop where
  bytes : totalBytes log < 2 ^ 63
  count : log.length < 2 ^ 63

theorem TotalsFit.sublist {log l : List (RequestRecord F)} (fit : TotalsFit log)
    (sub : l.Sublist log) : TotalsFit l :=
  ⟨lt_of_le_of_lt ((sub.map _).sum_le_sum fun _ _ => Nat.zero_le _) fit.bytes,
    lt_of_le_of_lt sub.length_le fit.count⟩

theorem TotalsFit.asI64_bytes {log : List (RequestRecord F)} (fit : TotalsFit log) :
    ∀ r ∈ log, asI64 r.bytes = r.bytes := by
  intro r member
  have small : r.bytes ≤ totalBytes log := List.le_sum_of_mem (List.mem_map_of_mem member)
  have fits := fit.bytes
  exact Int.bmod_eq_of_le (by omega) (by omega)

theorem totalBytes_perm {log l : List (RequestRecord F)} (perm : log.Perm l) :
    totalBytes log = totalBytes l := (perm.map _).sum_eq

theorem errorCount_perm {log l : List (RequestRecord F)} (perm : log.Perm l) :
    errorCount log = errorCount l := perm.countP_eq _

theorem TotalsFit.perm {log l : List (RequestRecord F)} (fit : TotalsFit log)
    (perm : log.Perm l) : TotalsFit l :=
  ⟨totalBytes_perm perm ▸ fit.bytes, perm.length_eq ▸ fit.count⟩

/-! ## Rows and requests -/

/-- The rows encode the requests of a log, in order. -/
abbrev Encode (rows : List (SqlRow F)) (log : List (RequestRecord F)) : Prop :=
  List.Forall₂ (fun row r => row.values = requestValues r) rows log

theorem HoldsRequests.encode_window {db : Database F} {log : List (RequestRecord F)}
    (holds : HoldsRequests db log) (since : Int) :
    Encode (db.requests.rows.filter (SqlRow.atLeast "ts" since)) (inWindow since log) :=
  SqlTable.forall₂_filter holds.rows fun _ _ same =>
    SqlRow.atLeast_of_integer (ts_of_requestValues same) since

theorem intAt_bytes {row : SqlRow F} {r : RequestRecord F} (same : row.values = requestValues r) :
    intAt "bytes" row = asI64 r.bytes := by
  apply intAt_of_eq
  rw [same]
  rfl

theorem errorAt_eq {row : SqlRow F} {r : RequestRecord F} (same : row.values = requestValues r) :
    errorAt row = if 500 ≤ r.status then 1 else 0 := by
  have status : row.values "status" = .integer r.status.toNat := by
    rw [same]
    rfl
  have compare : (500 ≤ (r.status.toNat : Int)) ↔ 500 ≤ r.status := by
    rw [UInt16.le_iff_toNat_le]
    exact Int.ofNat_le
  rw [errorAt, SqlRow.atLeast_of_integer status]
  simp only [decide_eq_true_eq, compare]

theorem sum_map_ite {α : Type} (l : List α) (p : α → Prop) [DecidablePred p] :
    (l.map fun a => if p a then (1 : Int) else 0).sum = l.countP fun a => decide (p a) := by
  induction l with
  | nil => rfl
  | cons a l ih =>
    rw [List.map_cons, List.sum_cons, ih, List.countP_cons]
    by_cases here : p a <;> simp [here, add_comm]

variable {rows : List (SqlRow F)} {log : List (RequestRecord F)}

theorem Encode.wellTyped (encode : Encode rows log) (late : ∀ r ∈ log, 0 ≤ r.ts) :
    ∀ row ∈ rows, WellTyped row := by
  intro row member
  obtain ⟨r, logged, same⟩ := exists_of_mem_rows encode member
  exact wellTyped_requestValues same (late r logged)

theorem Encode.bytes (encode : Encode rows log) (fit : TotalsFit log) :
    (rows.map (intAt "bytes")).sum = totalBytes log := by
  have each : rows.map (intAt "bytes") = log.map fun r => asI64 r.bytes :=
    map_eq_map_of_forall₂ encode fun row r same => intAt_bytes same
  rw [each, List.map_congr_left fit.asI64_bytes, totalBytes, Nat.cast_list_sum, List.map_map]
  rfl

theorem Encode.errors (encode : Encode rows log) : (rows.map errorAt).sum = errorCount log := by
  rw [map_eq_map_of_forall₂ encode fun row r same => errorAt_eq same]
  exact sum_map_ite log fun r => 500 ≤ r.status

theorem Encode.sumsFit (encode : Encode rows log) (fit : TotalsFit log) : SumsFit rows := by
  have total := encode.bytes fit
  have small := fit.bytes
  apply SumsFit.of_nonneg
  · intro row member
    obtain ⟨r, logged, same⟩ := exists_of_mem_rows encode member
    rw [intAt_bytes same, fit.asI64_bytes r logged]
    exact Int.natCast_nonneg _
  · rw [total]
    exact_mod_cast small
  · rw [encode.length_eq]
    exact fit.count

end Log

/-! ## The queries -/

section Queries
variable {F : Type} [Float64 F] {db : Database F} {log : List (RequestRecord F)}

/-- The totals of a window. -/
theorem statsSince_of_holds (holds : HoldsRequests db log) (late : ∀ r ∈ log, 0 ≤ r.ts)
    (since windowSecs : Int) (fit : TotalsFit (inWindow since log)) :
    ∃ stats, statsSince db since windowSecs = some stats ∧
      stats.requests = (inWindow since log).length ∧
      stats.errors = errorCount (inWindow since log) ∧
      stats.bytes = totalBytes (inWindow since log) ∧
      stats.throughputKbps = throughputKbps (totalBytes (inWindow since log)) windowSecs := by
  have encode := holds.encode_window since
  have typed := encode.wellTyped fun r member => late r (List.mem_of_mem_filter member)
  have sums := encode.sumsFit fit
  have length := encode.length_eq
  have bytes := encode.bytes fit
  have errors := encode.errors
  unfold statsSince
  generalize db.requests.rows.filter (SqlRow.atLeast "ts" since) = rows at *
  obtain ⟨ttfb, read⟩ : ∃ x, getReal [countAll rows, .integer (rows.map (intAt "bytes")).sum,
      avgTtfb rows, .integer (rows.map errorAt).sum, .integer (rows.map (intAt "bytes")).sum] 2 =
        some x := avgTtfb_reads rows rfl
  simp only [sumBytes_eq typed sums, sumErrors_eq sums, Option.bind_eq_bind, Option.bind_some]
  rw [read, ← length, ← bytes, ← errors]
  exact ⟨_, rfl, rfl, rfl, rfl, rfl⟩

/-- The buckets of the series add up to the requests and the errors of the window. -/
theorem seriesSince_of_holds (holds : HoldsRequests db log) (late : ∀ r ∈ log, 0 ≤ r.ts)
    (since : Int) {bucketSecs : Int} (pos : 0 < bucketSecs)
    (fit : TotalsFit (inWindow since log)) :
    ∃ series, seriesSince db since bucketSecs = some series ∧
      (series.map (·.requests)).sum = (inWindow since log).length ∧
      (series.map (·.errors)).sum = errorCount (inWindow since log) := by
  have encode := holds.encode_window since
  have typed := encode.wellTyped fun r member => late r (List.mem_of_mem_filter member)
  have sums := encode.sumsFit fit
  have length := encode.length_eq
  have errors := encode.errors
  unfold seriesSince
  generalize db.requests.rows.filter (SqlRow.atLeast "ts" since) = rows at *
  have groups := perm_orderBy Prod.fst (groupBy (bucketOf bucketSecs) rows)
  have reads : ∀ group ∈ orderBy Prod.fst (groupBy (bucketOf bucketSecs) rows),
      ∃ b, rowToBucket bucketSecs group = some b ∧
        ((group.2.map fun _ => (1 : Int)).sum = b.requests ∧
          (group.2.map errorAt).sum = b.errors) := by
    rintro ⟨key, members⟩ grouped
    obtain ⟨⟨row, found, keyed⟩, rfl⟩ : (∃ row ∈ rows, bucketOf bucketSecs row = key) ∧
        members = rows.filter fun row => bucketOf bucketSecs row = key :=
      mem_groupBy.mp (groups.mem_iff.mp grouped)
    obtain rfl : _ = key := (bucketOf_eq pos (typed row found)).symm.trans keyed
    have sub : (rows.filter fun row' => bucketOf bucketSecs row' =
        (intAt "ts" row / bucketSecs * bucketSecs : Int)).Sublist rows := List.filter_sublist
    obtain ⟨b, read, -, tallies⟩ := rowToBucket_reads
      (fun row' member => typed row' (sub.subset member)) (sums.sublist sub)
    exact ⟨b, read, (length_eq_sum _).symm.trans tallies.requests.symm, tallies.errors.symm⟩
  obtain ⟨series, read, paired⟩ := exists_mapM reads
  refine ⟨series, read, ?_, ?_⟩
  · rw [← map_eq_map_of_forall₂ paired fun group b of => of.1, sum_groups groups,
      ← length_eq_sum, length]
  · rw [← map_eq_map_of_forall₂ paired fun group b of => of.2, sum_groups groups, errors]

omit [Float64 F] in
/-- So do the status counts, and those of 500 and above. -/
theorem statusCounts_of_holds (holds : HoldsRequests db log) (late : ∀ r ∈ log, 0 ≤ r.ts)
    (since : Int) :
    ∃ counts, statusCounts db since = some counts ∧
      (counts.map (·.count)).sum = (inWindow since log).length ∧
      ((counts.filter fun c => 500 ≤ c.status).map (·.count)).sum =
        errorCount (inWindow since log) := by
  have encode := holds.encode_window since
  have typed := encode.wellTyped fun r member => late r (List.mem_of_mem_filter member)
  have length := encode.length_eq
  have errors := encode.errors
  unfold statusCounts
  generalize db.requests.rows.filter (SqlRow.atLeast "ts" since) = rows at *
  have groups := perm_orderByDesc (fun group => group.2.length) (groupBy statusOf rows)
  have reads : ∀ group ∈ orderByDesc (fun group => group.2.length) (groupBy statusOf rows),
      ∃ c, rowToStatusCount group = some c ∧
        ((group.2.map fun _ => (1 : Int)).sum = c.count ∧
          (group.2.map errorAt).sum = if 500 ≤ c.status then c.count else 0) := by
    rintro ⟨key, members⟩ grouped
    obtain ⟨⟨row, found, keyed⟩, rfl⟩ : (∃ row ∈ rows, statusOf row = key) ∧
        members = rows.filter fun row => statusOf row = key :=
      mem_groupBy.mp (groups.mem_iff.mp grouped)
    obtain rfl : _ = key := (statusOf_eq (typed row found)).symm.trans keyed
    refine ⟨_, rowToStatusCount_reads _ _, (length_eq_sum _).symm, ?_⟩
    refine errorAt_sum_of_status ?_ ?_
    · exact fun row' member => typed row' (List.mem_of_mem_filter member)
    · intro row' member
      obtain ⟨present, same⟩ := List.mem_filter.mp member
      have keys := (statusOf_eq (typed row' present)).symm.trans (of_decide_eq_true same)
      exact WithBot.coe_inj.mp keys
  obtain ⟨counts, read, paired⟩ := exists_mapM reads
  refine ⟨counts, read, ?_, ?_⟩
  · rw [← map_eq_map_of_forall₂ paired fun group c of => of.1, sum_groups groups,
      ← length_eq_sum, length]
  · rw [sum_filter_map]
    simp only [decide_eq_true_eq]
    rw [← map_eq_map_of_forall₂ paired fun group c of => of.2, sum_groups groups, errors]

end Queries
end XboxProxy
