import XboxProxy.Db
import XboxProxy.Misc.Sql

/-!
# The database (`src/db.rs`)

The two tables, the writer thread that executes the commands sent to it, and the queries that
list the newest records. A statement that fails is logged and changes nothing; a query that
fails is `none`.
-/

namespace XboxProxy
open Misc

/-! ## Casts -/

/-- `n as i64` for a `u64`. -/
def asI64 (n : Nat) : Int := Int.bmod n (2 ^ 64)

/-- `n as u64` for an `i64`. -/
def asU64 (n : Int) : Nat := (n % 2 ^ 64).toNat

/-- `n as u16` for an `i64`. -/
def asU16 (n : Int) : UInt16 := UInt16.ofNat (n % 2 ^ 16).toNat

/-- `b as i64` for a `bool`. -/
def boolAsI64 (b : Bool) : Int := if b then 1 else 0

section Schema
variable {F : Type}

/-! ## Tables -/

/-- The columns of `requests` (`db.rs:73-88`); the row id is not among them. -/
def requestColumns : List (SqlColumn F) :=
  [⟨"ts", true, .null⟩, ⟨"client_ip", true, .null⟩, ⟨"host", true, .null⟩,
    ⟨"path", true, .null⟩, ⟨"method", true, .null⟩, ⟨"status", true, .null⟩,
    ⟨"bytes", true, .integer 0⟩, ⟨"duration_ms", true, .integer 0⟩,
    ⟨"ttfb_ms", true, .integer 0⟩, ⟨"throughput_kbps", true, .integer 0⟩,
    ⟨"upstream_ip", false, .null⟩, ⟨"passthrough", true, .integer 0⟩, ⟨"error", false, .null⟩]

/-- The columns of `speedtests` (`db.rs:90-98`). -/
def speedtestColumns : List (SqlColumn F) :=
  [⟨"ts", true, .null⟩, ⟨"host", true, .null⟩, ⟨"ip", true, .null⟩,
    ⟨"latency_ms", false, .null⟩, ⟨"speed_kbps", false, .null⟩, ⟨"success", true, .null⟩]

/-- The contents of the database file. -/
structure Database (F : Type) where
  requests : SqlTable F
  speedtests : SqlTable F

/-- `init` on a new file (`db.rs:68-103`). -/
def Database.init : Database F := ⟨.create requestColumns, .create speedtestColumns⟩

/-! ## The writer -/

/-- The column list of the insert into `requests` (`db.rs:108`). -/
def insertRequestNames : List String :=
  ["ts", "client_ip", "host", "path", "method", "status", "bytes", "duration_ms", "ttfb_ms",
    "throughput_kbps", "upstream_ip", "passthrough", "error"]

/-- Its parameters (`db.rs:127-141`). -/
def insertRequestParams (r : RequestRecord F) : List (SqlValue F) :=
  [.integer r.ts, .text r.clientIp, .text r.host, .text r.path, .text r.method,
    .integer r.status.toNat, .integer (asI64 r.bytes), .integer (asI64 r.durationMs),
    .integer (asI64 r.ttfbMs), .real r.throughputKbps, .ofOption .text r.upstreamIp,
    .integer (boolAsI64 r.passthrough), .ofOption .text r.error]

/-- The column list of the insert into `speedtests` (`db.rs:114`). -/
def insertSpeedTestNames : List String :=
  ["ts", "host", "ip", "latency_ms", "speed_kbps", "success"]

/-- Its parameters (`db.rs:142-149`). -/
def insertSpeedTestParams (s : SpeedTestRecord F) : List (SqlValue F) :=
  [.integer s.ts, .text s.host, .text s.ip,
    .ofOption (fun latency => .integer (asI64 latency)) s.latencyMs,
    .ofOption .real s.speedKbps, .integer (boolAsI64 s.success)]

/-- One turn of the loop of `writer_loop` (`db.rs:125-169`), with all its statements. -/
def writerStep (db : Database F) : DbCommand F → Database F
  | .insertRequest r =>
    match db.requests.insert insertRequestNames (insertRequestParams r) with
    | some requests => { db with requests }
    | none => db
  | .insertSpeedTest s =>
    match db.speedtests.insert insertSpeedTestNames (insertSpeedTestParams s) with
    | some speedtests => { db with speedtests }
    | none => db
  | .cleanup cutoff =>
    { requests := db.requests.delete (SqlRow.less "ts" cutoff)
      speedtests := db.speedtests.delete (SqlRow.less "ts" cutoff) }

/-- `writer_loop` (`db.rs:105-170`), from the database it was started with. -/
def writerLoop (db : Database F) (commands : List (DbCommand F)) : Database F :=
  commands.foldl writerStep db

end Schema

section Queries
variable {F : Type} [Float64 F]

/-! ## The newest records -/

/-- `limit.clamp(0, 500)`. -/
def clampLimit (limit : Int) : Int := max 0 (min limit 500)

/-- The column list of `recent_requests` (`db.rs:293-295`). -/
def selectRequestNames : List String :=
  ["ts", "client_ip", "host", "path", "method", "status", "bytes", "duration_ms", "ttfb_ms",
    "throughput_kbps", "upstream_ip", "passthrough", "error"]

/-- `row_to_request` (`db.rs:276-292`). -/
def rowToRequest (r : List (SqlValue F)) : Option (RequestRecord F) := do
  let ts ← getInteger r 0
  let clientIp ← getText r 1
  let host ← getText r 2
  let path ← getText r 3
  let method ← getText r 4
  let status := asU16 (← getInteger r 5)
  let bytes := asU64 (← getInteger r 6)
  let durationMs := asU64 (← getInteger r 7)
  let ttfbMs := asU64 (← getInteger r 8)
  let throughputKbps ← getReal r 9
  let upstreamIp ← getOptional getText r 10
  let passthrough := decide ((← getInteger r 11) ≠ 0)
  let error ← getOptional getText r 12
  return { ts, clientIp, host, path, method, status, bytes, durationMs, ttfbMs, throughputKbps,
           upstreamIp, passthrough, error }

/-- `recent_requests` (`db.rs:270-312`). -/
def recentRequests (db : Database F) (limit : Int) (since : Option Int) :
    Option (List (RequestRecord F)) :=
  let rows :=
    match since with
    | some s => db.requests.rows.filter (SqlRow.atLeast "ts" s)
    | none => db.requests.rows
  (limited (clampLimit limit) (orderByDesc SqlRow.id rows)).mapM fun row =>
    rowToRequest (row.select selectRequestNames)

/-- The column list of `recent_speedtests` (`db.rs:317`). -/
def selectSpeedTestNames : List String :=
  ["ts", "host", "ip", "latency_ms", "speed_kbps", "success"]

/-- The row reader of `recent_speedtests` (`db.rs:319-328`). -/
def rowToSpeedTest (r : List (SqlValue F)) : Option (SpeedTestRecord F) := do
  let ts ← getInteger r 0
  let host ← getText r 1
  let ip ← getText r 2
  let latencyMs := (← getOptional getInteger r 3).map asU64
  let speedKbps ← getOptional getReal r 4
  let success := decide ((← getInteger r 5) ≠ 0)
  return { ts, host, ip, latencyMs, speedKbps, success }

/-- `recent_speedtests` (`db.rs:314-334`). -/
def recentSpeedtests (db : Database F) (limit : Int) : Option (List (SpeedTestRecord F)) :=
  (limited (clampLimit limit) (orderByDesc SqlRow.id db.speedtests.rows)).mapM fun row =>
    rowToSpeedTest (row.select selectSpeedTestNames)

end Queries
end XboxProxy
