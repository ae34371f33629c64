import XboxProxy.Http
import XboxProxy.Metrics
import XboxProxy.Misc.Chunks
import XboxProxy.Selector.Calls

/-!
# A speed-test pass (`src/speedtest.rs`)

`run_pass` without the downloads: which pairs of a definition and an address it measures, in
which waves, and what it does with the results. What `measure` returns and what `is_busy`
answers before each wave are given, and so is the order in which the tasks of a wave complete.
-/

namespace XboxProxy
open Misc

/-- `MeasureResult` (`speedtest.rs:303-307`). -/
structure MeasureResult (F : Type) where
  latencyMs : Option Nat
  speedKbps : Option F
  success : Bool

/-- What a task of a pass holds, with its place in the listing. -/
structure SpeedTask where
  place : Nat
  hostDef : HostDef
  ip : IpAddr
  testUrl : Uri
  deriving DecidableEq

/-- What a pass meets: the parser of URLs, the results of its measurements, and the answers
of `is_busy` before each wave. -/
structure PassInputs (F : Type) where
  parse : String → Option Uri
  measure : SpeedTask → MeasureResult F
  busy : Nat → Bool

/-- How a pass is scheduled: the order in which the tasks of wave `k` complete, and the clock
at the `i`-th update and at the `i`-th record. -/
structure PassSchedule where
  completion : Nat → List SpeedTask → List SpeedTask
  updateClock : Nat → Nat
  recordClock : Nat → Nat
  completes : ∀ k wave, (completion k wave).Perm wave

/-- A task that has completed, with the clock readings of its update and its record. -/
structure FinishedTask where
  task : SpeedTask
  updatedAt : Nat
  recordedAt : Nat

/-- The state of a pass, with the tasks it has measured and those it has finished, in order. -/
structure PassState (F : Type) where
  selector : Selector F
  metrics : MetricsStore F
  measured : List SpeedTask
  finished : List FinishedTask

section Pass
variable {F : Type}

/-- `target_defs` (`speedtest.rs:204-223`); `none` for its three errors, which end the pass. -/
def targetDefs (parse : String → Option Uri) (s : Selector F) :
    Option String → Option (List HostDef × Option Uri)
  | none => some (s.defs, none)
  | some raw => do
    let uri ← parse raw
    let host ← uri.host
    let hostDef ← s.defForHost host
    return ([hostDef], some uri)

/-- The tasks of a pass (`speedtest.rs:248-272`): a definition whose URL does not parse is
skipped. -/
def passTasks (parse : String → Option Uri) (defs : List HostDef) (overrideUri : Option Uri) :
    List SpeedTask :=
  let pairs := defs.flatMap fun hostDef =>
    match overrideUri.or (parse hostDef.testUrl) with
    | none => []
    | some testUrl => hostDef.ips.map fun ip => (hostDef, ip, testUrl)
  pairs.mapIdx fun place pair => ⟨place, pair.1, pair.2.1, pair.2.2⟩

/-- What is done with one result (`speedtest.rs:287-299`). -/
def finishTask (inputs : PassInputs F) (schedule : PassSchedule) (p : PassState F)
    (task : SpeedTask) : PassState F :=
  let r := inputs.measure task
  let updatedAt := schedule.updateClock p.finished.length
  let recordedAt := schedule.recordClock p.finished.length
  { p with
    selector :=
      p.selector.updateResult task.hostDef.name task.ip r.latencyMs r.speedKbps r.success updatedAt
    metrics := p.metrics.recordSpeedtest
      { ts := recordedAt
        host := task.hostDef.name
        ip := task.ip.toString
        latencyMs := r.latencyMs
        speedKbps := r.speedKbps
        success := r.success }
    finished := p.finished ++ [⟨task, updatedAt, recordedAt⟩] }

/-- Wave `k` (`speedtest.rs:283-299`): all its tasks are measured before the first result is
used. -/
def runWave (inputs : PassInputs F) (schedule : PassSchedule) (k : Nat) (p : PassState F)
    (wave : List SpeedTask) : PassState F :=
  (schedule.completion k wave).foldl (finishTask inputs schedule)
    { p with measured := p.measured ++ wave }

/-- The loop over the waves, from wave `k` on (`speedtest.rs:278-300`). -/
def runWaves (inputs : PassInputs F) (schedule : PassSchedule) (forced : Bool) :
    Nat → PassState F → List (List SpeedTask) → PassState F
  | _, p, [] => p
  | k, p, wave :: waves =>
    if !forced && inputs.busy k then p
    else runWaves inputs schedule forced (k + 1) (runWave inputs schedule k p wave) waves

/-- `run_pass` (`speedtest.rs:225-301`). -/
def runPass (inputs : PassInputs F) (schedule : PassSchedule) (maxConcurrency : Nat)
    (forced : Bool) (urlOverride : Option String) (s : Selector F) (m : MetricsStore F) :
    PassState F :=
  let start := ⟨s, m, [], []⟩
  match targetDefs inputs.parse s urlOverride with
  | none => start
  | some (defs, overrideUri) =>
    runWaves inputs schedule forced 0 start
      (chunks (max maxConcurrency 1) (passTasks inputs.parse defs overrideUri))

end Pass
end XboxProxy
