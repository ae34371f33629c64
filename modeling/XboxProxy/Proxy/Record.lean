import XboxProxy.Metrics

/-!
# The record of a request (`src/proxy.rs`)

`RecordState` is shared by the handler and the body it returns; `finalize` sends its record
the first time it is called. Clock and stopwatch are arguments.
-/

namespace XboxProxy
open Misc

/-- `RequestMeta` (`proxy.rs:177-187`). -/
structure RequestMeta where
  clientIp : String
  host : String
  path : String
  method : String
  status : UInt16
  upstreamIp : Option String
  passthrough : Bool
  ttfbMs : Nat

/-- `RecordState` (`proxy.rs:189-196`). -/
structure RecordState where
  requestMeta : RequestMeta
  bytes : Nat
  recorded : Bool
  error : Option String

/-- A reading of `Instant::elapsed`: `as_millis` and `as_secs_f64`. -/
structure Elapsed (F : Type) where
  millis : Nat
  secs : F

/-- `finalize` (`proxy.rs:198-227`). -/
def finalize {F : Type} [Float64 F] (metrics : MetricsStore F) (state : RecordState) (now : Nat)
    (elapsed : Elapsed F) : MetricsStore F × RecordState :=
  if state.recorded then (metrics, state)
  else
    let speedKbps :=
      if Float64.ofNat 0 < elapsed.secs then
        Float64.ofNat state.bytes * Float64.ofNat 8 / Float64.ofNat 1024 / elapsed.secs
      else Float64.ofNat 0
    let rec_ : RequestRecord F :=
      { ts := now
        clientIp := state.requestMeta.clientIp
        host := state.requestMeta.host
        path := state.requestMeta.path
        method := state.requestMeta.method
        status := state.requestMeta.status
        bytes := state.bytes
        durationMs := elapsed.millis
        ttfbMs := state.requestMeta.ttfbMs
        throughputKbps := speedKbps
        upstreamIp := state.requestMeta.upstreamIp
        passthrough := state.requestMeta.passthrough
        error := state.error }
    (metrics.recordRequest rec_, { state with recorded := true })

end XboxProxy
