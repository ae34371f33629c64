import XboxProxy.Misc.U64
import XboxProxy.Proxy.Attempts
import XboxProxy.Speedtest.Pass

/-!
# One measurement (`src/speedtest.rs`)

`measure`: the window of the file it asks for, the request it sends, and what it makes of the
answer. The random number, what the candidate answers and what the clock shows are given.
Unsigned arithmetic is checked, as in a debug build: `none` stands for a panic.
-/

namespace XboxProxy
open Misc

/-- The part of `SpeedTestConfig` that decides over a measurement (`speedtest.rs:20-32`). -/
structure MeasureConfig where
  testChunkBytes : UInt64
  readTimeoutMs : UInt64

/-- `total_size` (`speedtest.rs:317`). -/
def totalSize : UInt64 := 30 * 1024 * 1024

/-- `chunk` (`speedtest.rs:318`). -/
def MeasureConfig.chunk (cfg : MeasureConfig) : UInt64 := clamp cfg.testChunkBytes 1 totalSize

/-- `range_from` (`speedtest.rs:319-324`); `draw` is the random number. -/
def rangeFrom (cfg : MeasureConfig) (draw : UInt64) : Option UInt64 :=
  let maxStart := saturatingSub totalSize cfg.chunk
  if maxStart = 0 then some 0 else (checkedAdd maxStart 1).map fun starts => draw % starts

/-- `range_from` and `range_to` (`speedtest.rs:320-325`). -/
def measureRange (cfg : MeasureConfig) (draw : UInt64) : Option (UInt64 × UInt64) := do
  let start ← rangeFrom cfg draw
  let after ← checkedAdd start cfg.chunk
  let rangeTo ← checkedSub after 1
  return (start, rangeTo)

def HeaderName.range : HeaderName := ⟨"range", by decide⟩
def HeaderName.userAgent : HeaderName := ⟨"user-agent", by decide⟩

/-- The request of a measurement (`speedtest.rs:327-337`). -/
def measureRequest (cfg : MeasureConfig) (testUrl : Uri) (draw : UInt64) :
    Option (Request Unit) := do
  let (start, rangeTo) ← measureRange cfg draw
  let host ← HeaderValue.fromStr (testUrl.host.getD "")
  let range ← HeaderValue.fromStr s!"bytes={start}-{rangeTo}"
  let userAgent ← HeaderValue.fromStr "xboxproxy/0.1.0"
  return {
    method := .get
    uri := testUrl
    headers := ((Multimap.empty.append .host host).append .range range).append .userAgent userAgent
    body := () }

/-- What `body.next()` yields within the time that remains, or that the time is up. -/
inductive BodyEvent where
  | frame (len : UInt64)
  | failed
  | ended
  | timedOut

/-- A turn of the read loop: the time since `dl_start` in nanoseconds, and what comes then. -/
structure ReadTurn where
  elapsed : Nat
  event : BodyEvent

/-- The read loop (`speedtest.rs:394-409`); `timeout` is in nanoseconds. Time passes, so the
turns come to an end. -/
def readLoop (chunk : UInt64) (timeout : Nat) : List ReadTurn → UInt64 → UInt64
  | [], bytes => bytes
  | turn :: turns, bytes =>
    if chunk ≤ bytes then bytes
    else if timeout ≤ turn.elapsed then bytes
    else
      match turn.event with
      | .frame len => readLoop chunk timeout turns (min (saturatingAdd bytes len) chunk)
      | .failed => bytes
      | .ended => bytes
      | .timedOut => bytes

/-- How the request of a measurement ends. -/
inductive MeasureAnswer (F : Type) where
  /-- The request timeout passes first. -/
  | timedOut
  | failed (e : String)
  /-- A response, the time to it, its body, and the seconds the body took. -/
  | responded (status : UInt16) (latencyMs : Nat) (turns : List ReadTurn) (elapsedSecs : F)

/-- `StatusCode::is_success`. -/
def isSuccess (status : UInt16) : Bool := 200 ≤ status && status < 300

/-- The bytes that are read of a body (`speedtest.rs:391-409`). -/
def MeasureConfig.bytesRead (cfg : MeasureConfig) (turns : List ReadTurn) : UInt64 :=
  readLoop cfg.chunk (cfg.readTimeoutMs.toNat * 1000000) turns 0

/-- What `measure` makes of the answer (`speedtest.rs:346-426`). -/
def measure {F : Type} [Float64 F] (cfg : MeasureConfig) : MeasureAnswer F → MeasureResult F
  | .timedOut => { latencyMs := none, speedKbps := none, success := false }
  | .failed _ => { latencyMs := none, speedKbps := none, success := false }
  | .responded status latencyMs turns elapsedSecs =>
    if !isSuccess status then
      { latencyMs := some latencyMs, speedKbps := none, success := false }
    else
      let bytes := cfg.bytesRead turns
      let speedKbps :=
        if Float64.ofNat 0 < elapsedSecs then
          Float64.ofNat bytes.toNat * Float64.ofNat 8 / Float64.ofNat 1024 / elapsedSecs
        else Float64.ofNat 0
      { latencyMs := some latencyMs, speedKbps := some speedKbps, success := decide (0 < bytes) }

end XboxProxy
