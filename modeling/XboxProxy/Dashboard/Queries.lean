import XboxProxy.Db.Aggregates
import XboxProxy.Selector

/-!
# What the dashboard reads (`src/dashboard.rs`)

The handlers of the `GET` routes. Each opens a connection of its own; a query sees the
database as it is when the query runs. What opening answers is an argument, and so are the
databases the queries of one request meet.
-/

namespace XboxProxy
open Misc

/-- A reply of the API: a JSON value, or status 500 with a text (`dashboard.rs:36-39`); `none`
for a text of SQLite's own. -/
inductive ApiReply (α : Type) where
  | json (value : α)
  | internalError (msg : Option String)

/-- `LimitQuery` (`dashboard.rs:41-45`). -/
structure LimitQuery where
  limit : Option Int
  since : Option Int

/-- `q.limit.unwrap_or(100).clamp(1, 500)`. -/
def LimitQuery.clamped (q : LimitQuery) : Int := max 1 (min (q.limit.getD 100) 500)

/-- The databases the queries of `summary` meet, in their order. -/
structure SummaryReads (F : Type) where
  hour : Database F
  day : Database F
  series : Database F
  status : Database F
  recent : Database F
  recentSpeedtests : Database F

/-- The JSON of `summary` (`dashboard.rs:61-75`). -/
structure Summary (F : Type) where
  now : Int
  lastHour : TimeWindowStats F
  last24h : TimeWindowStats F
  series : List (BucketStat F)
  statusCounts : List StatusCount
  hosts : List (HostState F)
  recent : List (RequestRecord F)
  recentSpeedtests : List (SpeedTestRecord F)
  speedtestRunning : Bool
  pinned : Bool
  speedtestDisabled : Bool
  autoSpeedtest : Bool

namespace Dashboard

variable {F : Type} [Float64 F]

/-- The reply to a query, or to a connection that could not be opened. -/
def answer {α : Type} (conn : Except String (Database F)) (query : Database F → Option α) :
    ApiReply α :=
  match conn with
  | .error e => .internalError (some e)
  | .ok db =>
    match query db with
    | some rows => .json rows
    | none => .internalError none

/-- `requests` (`dashboard.rs:119-129`). -/
def requests (conn : Except String (Database F)) (q : LimitQuery) :
    ApiReply (List (RequestRecord F)) :=
  answer conn fun db => recentRequests db q.clamped q.since

/-- `speedtests` (`dashboard.rs:131-141`). -/
def speedtests (conn : Except String (Database F)) (q : LimitQuery) :
    ApiReply (List (SpeedTestRecord F)) :=
  answer conn fun db => recentSpeedtests db q.clamped

/-- `summary` (`dashboard.rs:47-78`), once its connection is open. -/
def summary (now : Nat) (reads : SummaryReads F) (hosts : List (HostState F))
    (isRunning pinned autoSpeedtest : Bool) : ApiReply (Summary F) :=
  let now : Int := now
  let hour := statsSince reads.hour (now - 3600) 3600
  let day := statsSince reads.day (now - 86400) 86400
  let series := seriesSince reads.series (now - 3600) 60
  let status := statusCounts reads.status (now - 86400)
  let recent := recentRequests reads.recent 50 (some (now - 3600))
  let recentSt := recentSpeedtests reads.recentSpeedtests 20
  match hour, day, series, status, recent, recentSt with
  | some hour, some day, some series, some status, some recent, some recentSt =>
    .json
      { now
        lastHour := hour
        last24h := day
        series
        statusCounts := status
        hosts
        recent
        recentSpeedtests := recentSt
        speedtestRunning := isRunning
        pinned
        speedtestDisabled := pinned
        autoSpeedtest }
  | _, _, _, _, _, _ => .internalError (some "query failed")

end Dashboard
end XboxProxy
