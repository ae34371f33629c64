import XboxProxy.Db.Store
import Mathlib.Order.WithBot

/-!
# The dashboard's aggregates (`src/db.rs`)

Totals, a time series and the status counts of the requests from a time on. A query whose sum
overflows or that reads a value of another type fails.
-/

namespace XboxProxy
open Misc

/-- `TimeWindowStats` (`db.rs:174-184`). -/
structure TimeWindowStats (F : Type) where
  requests : Int
  throughputKbps : F
  ttfbMs : F
  errors : Int
  bytes : Int

/-- `BucketStat` (`db.rs:209-218`). -/
structure BucketStat (F : Type) where
  ts : Int
  requests : Int
  throughputKbps : F
  ttfbMs : F
  errors : Int

/-- `StatusCount` (`db.rs:247-251`). -/
structure StatusCount where
  status : Int
  count : Int

section
variable {F : Type} [Float64 F]

/-- `COUNT(*)`. -/
def countAll (rows : List (SqlRow F)) : SqlValue F := .integer rows.length

/-- `COALESCE(SUM(bytes),0)`. -/
def sumBytes (rows : List (SqlRow F)) : Option (SqlValue F) :=
  (SqlValue.sum (rows.map (·.values "bytes"))).map (·.coalesce (.integer 0))

/-- `COALESCE(AVG(ttfb_ms),0)`. -/
def avgTtfb (rows : List (SqlRow F)) : SqlValue F :=
  (SqlValue.avg (rows.map (·.values "ttfb_ms"))).coalesce (.integer 0)

/-- `CASE WHEN status >= 500 THEN 1 ELSE 0 END`. -/
def errorCase (row : SqlRow F) : SqlValue F :=
  if row.atLeast "status" 500 then .integer 1 else .integer 0

/-- `COALESCE(SUM(CASE WHEN status >= 500 THEN 1 ELSE 0 END),0)`. -/
def sumErrors (rows : List (SqlRow F)) : Option (SqlValue F) :=
  (SqlValue.sum (rows.map errorCase)).map (·.coalesce (.integer 0))

/-- `bytes as f64 * 8.0 / 1024.0 / secs as f64`. -/
def throughputKbps (bytes secs : Int) : F :=
  Float64.ofInt bytes * Float64.ofNat 8 / Float64.ofNat 1024 / Float64.ofInt secs

/-- `stats_since` (`db.rs:186-207`). -/
def statsSince (db : Database F) (since windowSecs : Int) : Option (TimeWindowStats F) := do
  let rows := db.requests.rows.filter (SqlRow.atLeast "ts" since)
  let r := [countAll rows, ← sumBytes rows, avgTtfb rows, ← sumErrors rows, ← sumBytes rows]
  let bytes ← getInteger r 1
  return { requests := ← getInteger r 0
           throughputKbps := throughputKbps bytes windowSecs
           ttfbMs := ← getReal r 2
           errors := ← getInteger r 3
           bytes := ← getInteger r 4 }

/-- `(ts / secs) * secs`, with SQLite's truncating division; NULL, here `⊥`, for a division by
zero. -/
def bucketOf (secs : Int) (row : SqlRow F) : WithBot Int :=
  match row.values "ts" with
  | .integer ts => if secs = 0 then ⊥ else (ts.tdiv secs * secs : Int)
  | _ => ⊥

/-- A nullable integer; NULL comes first in an order, as `⊥` does. -/
def nullable : WithBot Int → SqlValue F := WithBot.recBotCoe .null .integer

/-- The row of a bucket, as it is selected and read (`db.rs:225-239`). -/
def rowToBucket (bucketSecs : Int) (group : WithBot Int × List (SqlRow F)) :
    Option (BucketStat F) := do
  let r := [nullable group.1, countAll group.2, ← sumBytes group.2, avgTtfb group.2,
    ← sumErrors group.2]
  let bytes ← getInteger r 2
  return { ts := ← getInteger r 0
           requests := ← getInteger r 1
           throughputKbps := throughputKbps bytes bucketSecs
           ttfbMs := ← getReal r 3
           errors := ← getInteger r 4 }

/-- `series_since` (`db.rs:220-245`). -/
def seriesSince (db : Database F) (since bucketSecs : Int) : Option (List (BucketStat F)) :=
  let rows := db.requests.rows.filter (SqlRow.atLeast "ts" since)
  (orderBy Prod.fst (groupBy (bucketOf bucketSecs) rows)).mapM (rowToBucket bucketSecs)

/-- The `status` column as a key. -/
def statusOf (row : SqlRow F) : WithBot Int :=
  match row.values "status" with
  | .integer status => status
  | _ => ⊥

/-- The row of a status, as it is selected and read (`db.rs:255-262`). -/
def rowToStatusCount (group : WithBot Int × List (SqlRow F)) : Option StatusCount := do
  let r := [nullable (F := F) group.1, countAll group.2]
  return { status := ← getInteger r 0, count := ← getInteger r 1 }

/-- `status_counts` (`db.rs:253-268`). SQL leaves open the order of statuses with equal counts. -/
def statusCounts (db : Database F) (since : Int) : Option (List StatusCount) :=
  let rows := db.requests.rows.filter (SqlRow.atLeast "ts" since)
  (orderByDesc (fun group => group.2.length) (groupBy statusOf rows)).mapM rowToStatusCount

end
end XboxProxy
