import XboxProxy.Misc.Run
import XboxProxy.Speedtest.Measure

/-!
# A pass among other tasks (`src/speedtest.rs`)

`run_pass` with its awaits. Between any two of its steps handlers mark failures and record
requests, the dashboard pins groups, each of the two writes of a pin by itself, and the
retention ticker fires. There is one pass at a time: `run_forever` awaits it.
-/

namespace XboxProxy
open Misc

/-- A task of a wave with its result. -/
structure TaskResult (F : Type) where
  task : SpeedTask
  result : MeasureResult F

/-- Where the pass stands. -/
inductive PassPhase (F : Type) where
  | idle
  /-- `defs` reads one group after another (`selector.rs:297-305`). -/
  | reading (forced : Bool) (defs : List HostDef)
  /-- The waves to come, and the results of the last one that are not used yet. -/
  | waves (forced : Bool) (left : List (List SpeedTask)) (results : List (TaskResult F))
  /-- The selector has the result `current`, the database has not. -/
  | unrecorded (forced : Bool) (left : List (List SpeedTask)) (results : List (TaskResult F))
      (current : TaskResult F)

structure Testing (F : Type) where
  selector : Selector F
  metrics : MetricsStore F
  phase : PassPhase F

inductive TestingAction (F : Type) where
  | startPass (forced : Bool) (urlOverride : Option String)
  | readDef
  /-- What `is_busy` answers, and the tasks of the wave as they complete. -/
  | runWave (busy : Bool) (completed : List (SpeedTask × MeasureAnswer F))
  | endPass
  | updateResult (now : Nat)
  | recordSpeedtest (now : Nat)
  | markFailure (host : String) (ip : IpAddr) (now : Nat)
  | writePinnedIp (name : String) (ip : Option IpAddr)
  | writeCandidates (name : String) (ip : Option IpAddr)
  | recordRequest (rec : RequestRecord F)
  | cleanup (cutoff : Int)

namespace Testing

section
variable {F : Type} [Float64 F]

def start (defs : List HostDef) (penalty : Nat) : Testing F := ⟨.new defs penalty, .new, .idle⟩

/-- The waves over what `target_defs` has found (`speedtest.rs:247-278`). -/
def firstWave (parse : String → Option Uri) (maxConcurrency : Nat) (forced : Bool)
    (defs : List HostDef) (overrideUri : Option Uri) : PassPhase F :=
  .waves forced (chunks (max maxConcurrency 1) (passTasks parse defs overrideUri)) []

/-- A step of the pass (`speedtest.rs:225-301`). -/
def passStep (parse : String → Option Uri) (cfg : MeasureConfig) (maxConcurrency : Nat)
    (s : Testing F) : PassPhase F → TestingAction F → Option (Testing F)
  | .idle, .startPass forced none => some { s with phase := .reading forced [] }
  | .idle, .startPass forced (some raw) =>
    match targetDefs parse s.selector (some raw) with
    | some (defs, overrideUri) =>
      some { s with phase := firstWave parse maxConcurrency forced defs overrideUri }
    | none => some s
  | .reading forced defs, .readDef =>
    match s.selector.hosts[defs.length]? with
    | some h => some { s with phase := .reading forced (defs ++ [Selector.liveDef h]) }
    | none => some { s with phase := firstWave parse maxConcurrency forced defs none }
  | .waves forced (wave :: left) [], .runWave busy completed =>
    if !forced && busy then some { s with phase := .idle }
    else if (completed.map Prod.fst).isPerm wave then
      some { s with phase := .waves forced left
                      (completed.map fun (task, answer) => ⟨task, measure cfg answer⟩) }
    else none
  | .waves _ [] [], .endPass => some { s with phase := .idle }
  | .waves forced left (r :: results), .updateResult now =>
    some { s with
      selector := s.selector.updateResult r.task.hostDef.name r.task.ip r.result.latencyMs
        r.result.speedKbps r.result.success now
      phase := .unrecorded forced left results r }
  | .unrecorded forced left results r, .recordSpeedtest now =>
    some { s with
      metrics := s.metrics.recordSpeedtest
        { ts := now
          host := r.task.hostDef.name
          ip := r.task.ip.toString
          latencyMs := r.result.latencyMs
          speedKbps := r.result.speedKbps
          success := r.result.success }
      phase := .waves forced left results }
  | _, _ => none

/-- A step of the pass or of another task. -/
def step (parse : String → Option Uri) (cfg : MeasureConfig) (maxConcurrency : Nat)
    (s : Testing F) : TestingAction F → Option (Testing F)
  | .markFailure host ip now => some { s with selector := s.selector.markFailure host ip now }
  | .writePinnedIp name ip => some { s with selector := s.selector.write (.pinnedIp name ip) }
  | .writeCandidates name ip => some { s with selector := s.selector.write (.candidates name ip) }
  | .recordRequest rec => some { s with metrics := s.metrics.recordRequest rec }
  | .cleanup cutoff =>
    some { s with metrics := { s.metrics with dbTx := s.metrics.dbTx ++ [.cleanup cutoff] } }
  | a => passStep parse cfg maxConcurrency s s.phase a

end

end Testing
end XboxProxy
