import XboxProxy.Db

/-!
# The metrics store (`src/metrics.rs`)

The channel to the database and the traces of live traffic. The clock `now_unix` is an
argument of what reads it. The counter is a `u64` that stays far below its bound.
-/

namespace XboxProxy

/-- `MetricsStore`; `dbTx` is what has been sent on the channel, oldest first. -/
structure MetricsStore (F : Type) where
  dbTx : List (DbCommand F)
  activeRequests : Nat
  lastActivity : Nat

/-- `ACTIVITY_GRACE` (`speedtest.rs:51`), in seconds. -/
def activityGrace : Nat := 60

namespace MetricsStore

variable {F : Type}

def new : MetricsStore F := ⟨[], 0, 0⟩

/-- `begin_request`. The guard it returns is a later call of `dropGuard`. -/
def beginRequest (m : MetricsStore F) (now : Nat) : MetricsStore F :=
  { m with activeRequests := m.activeRequests + 1, lastActivity := now }

/-- `ActivityGuard::drop`. -/
def dropGuard (m : MetricsStore F) (now : Nat) : MetricsStore F :=
  { m with activeRequests := m.activeRequests - 1, lastActivity := now }

/-- `is_busy`. -/
def isBusy (m : MetricsStore F) (grace now : Nat) : Bool :=
  decide (0 < m.activeRequests) || decide (now - m.lastActivity < grace)

def recordRequest (m : MetricsStore F) (rec : RequestRecord F) : MetricsStore F :=
  { m with dbTx := m.dbTx ++ [.insertRequest rec] }

def recordSpeedtest (m : MetricsStore F) (rec : SpeedTestRecord F) : MetricsStore F :=
  { m with dbTx := m.dbTx ++ [.insertSpeedTest rec] }

end MetricsStore
end XboxProxy
