import XboxProxy.Db.Aggregates
import XboxProxy.Db.Proofs.Retention
import Mathlib.Algebra.Field.Rat
import Mathlib.Algebra.BigOperators.Ring.Finset
import Mathlib.Algebra.Order.BigOperators.Group.List
import Mathlib.Tactic.FieldSimp
import Mathlib.Tactic.Linarith

/-!
# The aggregates conserve the data

The totals, the buckets of the series and the status counts are sums over the same rows: the
groups of each query partition them.
-/

namespace XboxProxy
open Misc

section Rows
variable {F : Type}

/-- The integer in a column. -/
def intAt (column : String) (row : SqlRow F) : Int := ((row.values column).integer?).getD 0

/-- The columns that are aggregated hold integers, and the time is not negative. -/
structure WellTyped (row : SqlRow F) : Prop where
  ts : ∃ n, 0 ≤ n ∧ row.values "ts" = .integer n
  status : ∃ n, row.values "status" = .integer n
  bytes : ∃ n, row.values "bytes" = .integer n
  ttfbMs : ∃ n, row.values "ttfb_ms" = .integer n

/-- The sums of bytes of some of the rows, and the number of rows, are `i64` values. -/
structure SumsFit (rows : List (SqlRow F)) : Prop where
  bytes : ∀ l : List (SqlRow F), l.Sublist rows →
    -2 ^ 63 ≤ (l.map (intAt "bytes")).sum ∧ (l.map (intAt "bytes")).sum < 2 ^ 63
  count : rows.length < 2 ^ 63

/-- 1 for a row that counts as an error. -/
def errorAt (row : SqlRow F) : Int := if row.atLeast "status" 500 then 1 else 0

/-- The rows of a request with a time that is not negative are well typed. -/
theorem wellTyped_requestValues {row : SqlRow F} {r : RequestRecord F}
    (same : row.values = requestValues r) (late : 0 ≤ r.ts) : WellTyped row := by
  constructor
  all_goals rw [same]
  · exact ⟨r.ts, late, rfl⟩
  · exact ⟨r.status.toNat, rfl⟩
  · exact ⟨asI64 r.bytes, rfl⟩
  · exact ⟨asI64 r.ttfbMs, rfl⟩

/-- So are those of a table that holds such requests. -/
theorem HoldsRequests.wellTyped {db : Database F} {log : List (RequestRecord F)}
    (holds : HoldsRequests db log) (late : ∀ r ∈ log, 0 ≤ r.ts) :
    ∀ row ∈ db.requests.rows, WellTyped row := by
  intro row member
  obtain ⟨r, logged, same⟩ := exists_of_mem_rows holds.rows member
  exact wellTyped_requestValues same (late r logged)

theorem SumsFit.sublist {rows l : List (SqlRow F)} (fit : SumsFit rows) (sub : l.Sublist rows) :
    SumsFit l :=
  ⟨fun l' sub' => fit.bytes l' (sub'.trans sub), lt_of_le_of_lt sub.length_le fit.count⟩

/-- Sums of bytes that are not negative fit when their total does. -/
theorem SumsFit.of_nonneg {rows : List (SqlRow F)} (nonneg : ∀ row ∈ rows, 0 ≤ intAt "bytes" row)
    (total : (rows.map (intAt "bytes")).sum < 2 ^ 63) (count : rows.length < 2 ^ 63) :
    SumsFit rows := by
  refine ⟨fun l sub => ?_, count⟩
  have below : (l.map (intAt "bytes")).sum ≤ (rows.map (intAt "bytes")).sum := by
    apply (sub.map (intAt "bytes")).sum_le_sum
    exact List.forall_mem_map.mpr nonneg
  have low : 0 ≤ (l.map (intAt "bytes")).sum := by
    apply List.sum_nonneg
    exact List.forall_mem_map.mpr fun row found => nonneg row (sub.subset found)
  omega

theorem intAt_of_eq {row : SqlRow F} {column : String} {n : Int}
    (here : row.values column = .integer n) : intAt column row = n := by
  rw [intAt, here]
  rfl

theorem values_eq_intAt {row : SqlRow F} {column : String}
    (integer : ∃ n, row.values column = .integer n) :
    row.values column = .integer (intAt column row) := by
  obtain ⟨n, here⟩ := integer
  rw [intAt_of_eq here, here]

theorem WellTyped.ts_eq {row : SqlRow F} (typed : WellTyped row) :
    row.values "ts" = .integer (intAt "ts" row) ∧ 0 ≤ intAt "ts" row := by
  obtain ⟨n, late, here⟩ := typed.ts
  rw [intAt_of_eq here]
  exact ⟨here, late⟩

/-! ## The columns of the results -/

theorem sumBytes_eq {rows : List (SqlRow F)} (typed : ∀ row ∈ rows, WellTyped row)
    (fit : SumsFit rows) : sumBytes rows = some (.integer (rows.map (intAt "bytes")).sum) :=
  SqlValue.coalesce_sum (fun row member => values_eq_intAt (typed row member).bytes) fit.bytes

theorem errorAt_sum_bounds (rows : List (SqlRow F)) :
    0 ≤ (rows.map errorAt).sum ∧ (rows.map errorAt).sum ≤ rows.length := by
  induction rows with
  | nil => simp
  | cons row rows ih =>
    have one : 0 ≤ errorAt row ∧ errorAt row ≤ 1 := by
      unfold errorAt
      split <;> simp
    rw [List.map_cons, List.sum_cons, List.length_cons]
    push_cast
    omega

theorem sumErrors_eq {rows : List (SqlRow F)} (fit : SumsFit rows) :
    sumErrors rows = some (.integer (rows.map errorAt).sum) := by
  refine SqlValue.coalesce_sum ?_ ?_
  · intro row member
    unfold errorCase errorAt
    split <;> rfl
  · intro l sub
    have bounds := errorAt_sum_bounds l
    have short := sub.length_le
    have few := fit.count
    omega

end Rows

/-! ## The results that are read -/

section Results
variable {F : Type} [Float64 F]

/-- A row of totals over some rows. -/
structure Tallies (rows : List (SqlRow F)) (secs requests errors : Int) (throughput : F) :
    Prop where
  requests : requests = rows.length
  errors : errors = (rows.map errorAt).sum
  throughput : throughput = throughputKbps (rows.map (intAt "bytes")).sum secs

theorem avgTtfb_reads (rows : List (SqlRow F)) {values : List (SqlValue F)} {i : Nat}
    (here : values[i]? = some (avgTtfb rows)) : ∃ x, getReal values i = some x := by
  unfold getReal
  unfold avgTtfb at here
  rcases SqlValue.coalesce_avg (rows.map (·.values "ttfb_ms")) with ⟨x, real⟩ | none
  · rw [here, real]
    exact ⟨x, rfl⟩
  · rw [here, none]
    exact ⟨_, rfl⟩

theorem statsSince_reads (db : Database F) (since windowSecs : Int)
    (typed : ∀ row ∈ db.requests.rows.filter (SqlRow.atLeast "ts" since), WellTyped row)
    (fit : SumsFit (db.requests.rows.filter (SqlRow.atLeast "ts" since))) :
    ∃ stats, statsSince db since windowSecs = some stats ∧
      Tallies (db.requests.rows.filter (SqlRow.atLeast "ts" since)) windowSecs stats.requests
        stats.errors stats.throughputKbps := by
  generalize sinceRows : db.requests.rows.filter (SqlRow.atLeast "ts" since) = rows at *
  obtain ⟨ttfb, read⟩ : ∃ x, getReal [countAll rows, .integer (rows.map (intAt "bytes")).sum,
      avgTtfb rows, .integer (rows.map errorAt).sum, .integer (rows.map (intAt "bytes")).sum] 2 =
        some x := avgTtfb_reads rows rfl
  unfold statsSince
  simp only [sinceRows, sumBytes_eq typed fit, sumErrors_eq fit, Option.bind_eq_bind,
    Option.bind_some]
  rw [read]
  exact ⟨_, rfl, ⟨rfl, rfl, rfl⟩⟩

theorem rowToBucket_reads {bucketSecs bucket : Int} {rows : List (SqlRow F)}
    (typed : ∀ row ∈ rows, WellTyped row) (fit : SumsFit rows) :
    ∃ b, rowToBucket bucketSecs (bucket, rows) = some b ∧ b.ts = bucket ∧
      Tallies rows bucketSecs b.requests b.errors b.throughputKbps := by
  obtain ⟨ttfb, read⟩ : ∃ x, getReal [nullable bucket, countAll rows,
      .integer (rows.map (intAt "bytes")).sum, avgTtfb rows, .integer (rows.map errorAt).sum] 3 =
        some x := avgTtfb_reads rows rfl
  unfold rowToBucket
  simp only [sumBytes_eq typed fit, sumErrors_eq fit, Option.bind_eq_bind, Option.bind_some]
  rw [read]
  exact ⟨_, rfl, rfl, ⟨rfl, rfl, rfl⟩⟩

end Results

/-! ## The keys -/

section Keys
variable {F : Type}

theorem bucketOf_eq {secs : Int} (pos : 0 < secs) {row : SqlRow F} (typed : WellTyped row) :
    bucketOf secs row = (intAt "ts" row / secs * secs : Int) := by
  obtain ⟨here, late⟩ := typed.ts_eq
  unfold bucketOf
  rw [here]
  show (if secs = 0 then ⊥ else ((intAt "ts" row).tdiv secs * secs : Int) : WithBot Int) = _
  rw [if_neg (by omega), Int.tdiv_eq_ediv_of_nonneg late]

theorem statusOf_eq {row : SqlRow F} (typed : WellTyped row) :
    statusOf row = intAt "status" row := by
  unfold statusOf
  rw [values_eq_intAt typed.status]

/-- The times of a bucket. -/
theorem bucket_eq_iff {ts secs bucket : Int} (pos : 0 < secs) (multiple : secs ∣ bucket) :
    ts / secs * secs = bucket ↔ bucket ≤ ts ∧ ts < bucket + secs := by
  have whole : secs * (ts / secs) + ts % secs = ts := Int.mul_ediv_add_emod ts secs
  have low := Int.emod_nonneg ts (by omega : secs ≠ 0)
  have high := Int.emod_lt_of_pos ts pos
  obtain ⟨q, rfl⟩ := multiple
  rw [mul_comm]
  constructor
  · intro same
    omega
  · rintro ⟨after, before⟩
    have quotient : ts / secs = q := by
      apply le_antisymm
      · exact Int.lt_add_one_iff.mp ((Int.ediv_lt_iff_lt_mul pos).mpr (by linarith))
      · exact (Int.le_ediv_iff_mul_le pos).mpr (by linarith)
    rw [quotient]

theorem rowToStatusCount_reads (status : Int) (rows : List (SqlRow F)) :
    rowToStatusCount (status, rows) = some ⟨status, rows.length⟩ := rfl

end Keys

/-! ## Conservation -/

section Exact

/-- The rows that the aggregates are about. -/
def rowsSince (db : Database ℚ) (since : Int) : List (SqlRow ℚ) :=
  db.requests.rows.filter (SqlRow.atLeast "ts" since)

/-- The results of the three queries account for the same rows. -/
structure Conserved (db : Database ℚ) (since bucketSecs windowSecs : Int)
    (stats : TimeWindowStats ℚ) (series : List (BucketStat ℚ)) (counts : List StatusCount) :
    Prop where
  increasing : series.Pairwise fun a b => a.ts < b.ts
  multiples : ∀ b ∈ series, bucketSecs ∣ b.ts
  counted : ∀ row ∈ db.requests.rows, ∀ ts, row.values "ts" = .integer ts → since ≤ ts →
    ∃! b, b ∈ series ∧ b.ts ≤ ts ∧ ts < b.ts + bucketSecs
  bucketCounts : ∀ b ∈ series, b.requests = ((rowsSince db since).filter fun row =>
    b.ts ≤ intAt "ts" row ∧ intAt "ts" row < b.ts + bucketSecs).length
  bucketRequests : (series.map (·.requests)).sum = stats.requests
  statusRequests : (counts.map (·.count)).sum = stats.requests
  bucketErrors : (series.map (·.errors)).sum = stats.errors
  statusErrors : ((counts.filter fun c => 500 ≤ c.status).map (·.count)).sum = stats.errors
  throughput : (series.map fun b => b.throughputKbps * (bucketSecs : ℚ)).sum =
    stats.throughputKbps * (windowSecs : ℚ)

theorem ofInt_rat (n : Int) : (Float64.ofInt n : ℚ) = n := by
  unfold Float64.ofInt
  split
  · rename_i nonneg
    show ((n.toNat : ℕ) : ℚ) = n
    exact_mod_cast Int.toNat_of_nonneg nonneg
  · rename_i neg
    show ((0 : ℕ) : ℚ) - (((-n).toNat : ℕ) : ℚ) = n
    have opposite : ((-n).toNat : Int) = -n := Int.toNat_of_nonneg (by omega)
    have cast : (((-n).toNat : ℕ) : ℚ) = -n := by exact_mod_cast opposite
    rw [cast]
    simp

/-- A throughput times its seconds is a sum over the rows. -/
theorem throughputKbps_mul {secs : Int} (pos : 0 < secs) (rows : List (SqlRow ℚ)) :
    (throughputKbps (rows.map (intAt "bytes")).sum secs : ℚ) * secs =
      (rows.map fun row => (intAt "bytes" row : ℚ) * (8 / 1024)).sum := by
  have nonzero : (secs : ℚ) ≠ 0 := by exact_mod_cast pos.ne'
  unfold throughputKbps
  rw [ofInt_rat, ofInt_rat, List.sum_map_mul_right, Int.cast_list_sum, List.map_map]
  show _ * ((8 : ℕ) : ℚ) / ((1024 : ℕ) : ℚ) / secs * secs = _
  rw [div_mul_cancel₀ _ nonzero]
  push_cast
  exact mul_div_assoc _ _ _

theorem sum_filter_map {α : Type} (l : List α) (p : α → Bool) (f : α → Int) :
    ((l.filter p).map f).sum = (l.map fun a => if p a then f a else 0).sum := by
  induction l with
  | nil => rfl
  | cons a l ih =>
    cases here : p a <;> simp [here, ih]

/-- The errors of rows with one status. -/
theorem errorAt_sum_of_status {F : Type} {status : Int} {rows : List (SqlRow F)}
    (typed : ∀ row ∈ rows, WellTyped row) (same : ∀ row ∈ rows, intAt "status" row = status) :
    (rows.map errorAt).sum = if 500 ≤ status then (rows.length : Int) else 0 := by
  have each : ∀ row ∈ rows, errorAt row = if 500 ≤ status then 1 else 0 := by
    intro row member
    unfold errorAt
    rw [SqlRow.atLeast_of_integer (values_eq_intAt (typed row member).status), same row member]
    simp only [decide_eq_true_eq]
  rw [List.map_congr_left each, List.map_const', List.sum_replicate]
  split <;> simp

/-- A sum over the groups of a query, in any order. -/
theorem sum_groups {α κ M : Type} [DecidableEq κ] [AddCommMonoid M] {key : α → κ} {rows : List α}
    {groups : List (κ × List α)} (perm : groups.Perm (groupBy key rows)) (value : α → M) :
    (groups.map fun g => (g.2.map value).sum).sum = (rows.map value).sum := by
  rw [(perm.map _).sum_eq, sum_groupBy]

theorem length_eq_sum {α : Type} (rows : List α) :
    (rows.length : Int) = (rows.map fun _ => (1 : Int)).sum := by
  rw [List.map_const', List.sum_replicate]
  simp

/-- What a group of the series and its bucket have to do with each other. -/
structure BucketOf (bucketSecs : Int) (group : WithBot Int × List (SqlRow ℚ))
    (b : BucketStat ℚ) : Prop where
  key : group.1 = b.ts
  multiple : bucketSecs ∣ b.ts
  tallies : Tallies group.2 bucketSecs b.requests b.errors b.throughputKbps

/-- What a group of the status counts and its result have to do with each other. -/
structure CountOf (group : WithBot Int × List (SqlRow ℚ)) (c : StatusCount) : Prop where
  count : c.count = group.2.length
  errors : (if 500 ≤ c.status then c.count else 0) = (group.2.map errorAt).sum

/-- The buckets come in increasing order. -/
theorem series_increasing {db : Database ℚ} {since bucketSecs : Int}
    {series : List (BucketStat ℚ)}
    (paired : List.Forall₂ (BucketOf bucketSecs)
      (orderBy Prod.fst (groupBy (bucketOf bucketSecs) (rowsSince db since))) series) :
    series.Pairwise fun a b => a.ts < b.ts := by
  have keys := map_eq_map_of_forall₂ paired (f := Prod.fst)
    (g := fun b => (b.ts : WithBot Int)) fun group b of => of.key
  have distinct : (groupBy (bucketOf bucketSecs) (rowsSince db since)).Pairwise
      fun g h => g.1 ≠ h.1 := nodup_keys_groupBy
  have sorted := List.pairwise_map.mpr (orderBy_increasing distinct)
  rw [keys, List.pairwise_map] at sorted
  exact sorted.imp WithBot.coe_lt_coe.mp

section Queries
variable {db : Database ℚ} {since : Int}
  (typed : ∀ row ∈ rowsSince db since, WellTyped row)
include typed

theorem seriesSince_reads {bucketSecs : Int} (fit : SumsFit (rowsSince db since))
    (pos : 0 < bucketSecs) :
    ∃ series, seriesSince db since bucketSecs = some series ∧
      List.Forall₂ (BucketOf bucketSecs)
        (orderBy Prod.fst (groupBy (bucketOf bucketSecs) (rowsSince db since))) series := by
  apply exists_mapM
  rintro ⟨key, rows⟩ member
  obtain ⟨⟨row, found, keyed⟩, rfl⟩ : (∃ row ∈ rowsSince db since, bucketOf bucketSecs row = key) ∧
      rows = (rowsSince db since).filter fun row => bucketOf bucketSecs row = key :=
    mem_groupBy.mp ((perm_orderBy _ _).mem_iff.mp member)
  obtain rfl : _ = key := (bucketOf_eq pos (typed row found)).symm.trans keyed
  have sub : ((rowsSince db since).filter fun row' => bucketOf bucketSecs row' =
      (intAt "ts" row / bucketSecs * bucketSecs : Int)).Sublist (rowsSince db since) :=
    List.filter_sublist
  obtain ⟨b, read, ts, tallies⟩ := rowToBucket_reads
    (fun row' member => typed row' (sub.subset member)) (fit.sublist sub)
  refine ⟨b, read, ?_, ?_, tallies⟩
  · rw [ts]
  · rw [ts]
    exact Dvd.intro_left _ rfl

theorem statusCounts_reads :
    ∃ counts, statusCounts db since = some counts ∧
      List.Forall₂ CountOf
        (orderByDesc (fun group => group.2.length) (groupBy statusOf (rowsSince db since)))
        counts := by
  apply exists_mapM
  rintro ⟨key, rows⟩ member
  obtain ⟨⟨row, found, keyed⟩, rfl⟩ : (∃ row ∈ rowsSince db since, statusOf row = key) ∧
      rows = (rowsSince db since).filter fun row => statusOf row = key :=
    mem_groupBy.mp ((perm_orderByDesc _ _).mem_iff.mp member)
  obtain rfl : _ = key := (statusOf_eq (typed row found)).symm.trans keyed
  refine ⟨_, rowToStatusCount_reads _ _, rfl, ?_⟩
  refine (errorAt_sum_of_status ?_ ?_).symm
  · exact fun row' member => typed row' (List.mem_of_mem_filter member)
  · intro row' member
    obtain ⟨present, same⟩ := List.mem_filter.mp member
    have keys := (statusOf_eq (typed row' present)).symm.trans (of_decide_eq_true same)
    exact WithBot.coe_inj.mp keys

/-- The rows of a bucket are those of its times. -/
theorem bucket_rows {bucketSecs : Int} (pos : 0 < bucketSecs)
    {group : WithBot Int × List (SqlRow ℚ)} {b : BucketStat ℚ}
    (of : BucketOf bucketSecs group b)
    (grouped : group ∈ groupBy (bucketOf bucketSecs) (rowsSince db since)) :
    group.2 = (rowsSince db since).filter fun row =>
      b.ts ≤ intAt "ts" row ∧ intAt "ts" row < b.ts + bucketSecs := by
  rw [(mem_groupBy.mp grouped).2]
  apply List.filter_congr
  intro row member
  rw [bucketOf_eq pos (typed row member), of.key]
  simp only [WithBot.coe_inj, bucket_eq_iff pos of.multiple]

/-- Each row lies in the times of exactly one bucket. -/
theorem existsUnique_bucket {bucketSecs : Int} (pos : 0 < bucketSecs)
    {series : List (BucketStat ℚ)}
    (paired : List.Forall₂ (BucketOf bucketSecs)
      (orderBy Prod.fst (groupBy (bucketOf bucketSecs) (rowsSince db since))) series)
    {row : SqlRow ℚ} (member : row ∈ rowsSince db since) :
    ∃! b, b ∈ series ∧ b.ts ≤ intAt "ts" row ∧ intAt "ts" row < b.ts + bucketSecs := by
  have grouped : (bucketOf bucketSecs row,
      (rowsSince db since).filter fun row' => bucketOf bucketSecs row' = bucketOf bucketSecs row) ∈
      orderBy Prod.fst (groupBy (bucketOf bucketSecs) (rowsSince db since)) :=
    (perm_orderBy _ _).mem_iff.mpr (mem_groupBy.mpr ⟨⟨row, member, rfl⟩, rfl⟩)
  obtain ⟨b, found, of⟩ := exists_of_mem_rows paired grouped
  have key : ((intAt "ts" row / bucketSecs * bucketSecs : Int) : WithBot Int) = b.ts :=
    (bucketOf_eq pos (typed row member)).symm.trans of.key
  rw [WithBot.coe_inj] at key
  refine ⟨b, ⟨found, (bucket_eq_iff pos of.multiple).mp key⟩, ?_⟩
  rintro b' ⟨found', within⟩
  obtain ⟨group, -, of'⟩ := exists_of_mem_results paired found'
  have key' := (bucket_eq_iff pos of'.multiple).mpr within
  have differ : series.Pairwise fun a b => a.ts ≠ b.ts :=
    (series_increasing paired).imp ne_of_lt
  have symm : Std.Symm fun a b : BucketStat ℚ => a.ts ≠ b.ts := ⟨fun a b ne => ne.symm⟩
  by_contra other
  exact differ.forall found' found other (key'.symm.trans key)

end Queries

/-- The three queries succeed and conserve the data. -/
theorem aggregates_conserve (db : Database ℚ) (since bucketSecs windowSecs : Int)
    (typed : ∀ row ∈ db.requests.rows, WellTyped row)
    (fit : SumsFit (rowsSince db since)) (bucketPos : 0 < bucketSecs)
    (windowPos : 0 < windowSecs) :
    ∃ stats series counts, statsSince db since windowSecs = some stats ∧
      seriesSince db since bucketSecs = some series ∧ statusCounts db since = some counts ∧
      Conserved db since bucketSecs windowSecs stats series counts := by
  have typedSince : ∀ row ∈ rowsSince db since, WellTyped row :=
    fun row member => typed row (List.mem_of_mem_filter member)
  obtain ⟨stats, readStats, tallies⟩ := statsSince_reads db since windowSecs typedSince fit
  obtain ⟨series, readSeries, buckets⟩ := seriesSince_reads typedSince fit bucketPos
  obtain ⟨counts, readCounts, statuses⟩ := statusCounts_reads typedSince
  refine ⟨stats, series, counts, readStats, readSeries, readCounts, ?_⟩
  have bucketGroups := perm_orderBy Prod.fst (groupBy (bucketOf bucketSecs) (rowsSince db since))
  have statusGroups := perm_orderByDesc (fun group => group.2.length)
    (groupBy statusOf (rowsSince db since))
  constructor
  case increasing => exact series_increasing buckets
  case multiples =>
    intro b member
    obtain ⟨group, -, of⟩ := exists_of_mem_results buckets member
    exact of.multiple
  case counted =>
    intro row member ts here late
    have selected : row ∈ rowsSince db since := by
      refine List.mem_filter.mpr ⟨member, ?_⟩
      rw [SqlRow.atLeast_of_integer here]
      exact decide_eq_true late
    rw [← intAt_of_eq here]
    exact existsUnique_bucket typedSince bucketPos buckets selected
  case bucketCounts =>
    intro b member
    obtain ⟨group, grouped, of⟩ := exists_of_mem_results buckets member
    rw [of.tallies.requests, bucket_rows typedSince bucketPos of (bucketGroups.mem_iff.mp grouped)]
  case bucketRequests =>
    rw [← map_eq_map_of_forall₂ buckets fun group b of =>
      (length_eq_sum group.2).symm.trans of.tallies.requests.symm]
    rw [sum_groups bucketGroups, tallies.requests, length_eq_sum]
    rfl
  case statusRequests =>
    rw [← map_eq_map_of_forall₂ statuses fun group c of =>
      (length_eq_sum group.2).symm.trans of.count.symm]
    rw [sum_groups statusGroups, tallies.requests, length_eq_sum]
    rfl
  case bucketErrors =>
    rw [← map_eq_map_of_forall₂ buckets fun group b of => of.tallies.errors.symm]
    rw [sum_groups bucketGroups, tallies.errors]
    rfl
  case statusErrors =>
    rw [sum_filter_map]
    simp only [decide_eq_true_eq]
    rw [← map_eq_map_of_forall₂ statuses fun group c of => of.errors.symm]
    rw [sum_groups statusGroups, tallies.errors]
    rfl
  case throughput =>
    have each : ∀ group b, BucketOf bucketSecs group b →
        (group.2.map fun row => (intAt "bytes" row : ℚ) * (8 / 1024)).sum =
          b.throughputKbps * (bucketSecs : ℚ) := by
      intro group b of
      rw [of.tallies.throughput, throughputKbps_mul bucketPos]
    rw [← map_eq_map_of_forall₂ buckets each, sum_groups bucketGroups, tallies.throughput,
      throughputKbps_mul windowPos]
    rfl

/-- Downloads around the edges of two buckets of ten seconds, and a failed one. -/
def bucketEdgeRun : List (DbCommand ℚ) :=
  [.insertRequest (downloadAt 3 1), .insertRequest (downloadAt 10 700),
    .insertRequest (downloadAt 19 300), .insertRequest { downloadAt 20 512 with status := 502 }]

theorem bucketEdgeRun_bytes :
    (rowsSince (writerLoop .init bucketEdgeRun) 5).map (intAt "bytes") = [700, 300, 512] := by
  decide +kernel

theorem aggregates_conserve_bucketEdgeRun :
    ∃ stats series counts, statsSince (writerLoop .init bucketEdgeRun) 5 60 = some stats ∧
      seriesSince (writerLoop .init bucketEdgeRun) 5 10 = some series ∧
      statusCounts (writerLoop .init bucketEdgeRun) 5 = some counts ∧
      Conserved (writerLoop .init bucketEdgeRun) 5 10 60 stats series counts := by
  have late : ∀ r ∈ requestPolicy.retained bucketEdgeRun, 0 ≤ r.ts := by decide
  have fit : SumsFit (rowsSince (writerLoop .init bucketEdgeRun) 5) := by
    apply SumsFit.of_nonneg
    · intro row member
      have listed := List.mem_map_of_mem (f := intAt "bytes") member
      rw [bucketEdgeRun_bytes] at listed
      simp only [List.mem_cons, List.not_mem_nil, or_false] at listed
      omega
    · rw [bucketEdgeRun_bytes]
      decide
    · decide
  exact aggregates_conserve _ 5 10 60 ((writerLoop_requests bucketEdgeRun).wellTyped late) fit
    (by decide) (by decide)

end Exact
end XboxProxy
