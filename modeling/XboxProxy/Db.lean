import XboxProxy.Misc.Float64

/-!
# The records (`src/db.rs`)

What the proxy and the speed tester send to the database's writer thread.
-/

namespace XboxProxy

/-- `RequestRecord` (`db.rs:8-23`). -/
structure RequestRecord (F : Type) where
  ts : Int
  clientIp : String
  host : String
  path : String
  method : String
  status : UInt16
  bytes : Nat
  durationMs : Nat
  ttfbMs : Nat
  throughputKbps : F
  upstreamIp : Option String
  passthrough : Bool
  error : Option String

/-- `SpeedTestRecord` (`db.rs:25-33`). -/
structure SpeedTestRecord (F : Type) where
  ts : Int
  host : String
  ip : String
  latencyMs : Option Nat
  speedKbps : Option F
  success : Bool

/-- `DbCommand` (`db.rs:35-40`). -/
inductive DbCommand (F : Type) where
  | insertRequest (rec : RequestRecord F)
  | insertSpeedTest (rec : SpeedTestRecord F)
  | cleanup (before : Int)

end XboxProxy
