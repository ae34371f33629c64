import XboxProxy.Dashboard
import XboxProxy.Misc.ListUpdate
import XboxProxy.Misc.Run

/-!
# Manual triggers and the speed-test loop (`src/speedtest.rs`, `src/dashboard.rs`)

The loop `run_forever` and any number of `run_speedtest` requests, one access to shared state
a step. A request reads `running`, checks its URL against definitions that never change,
writes `pending_url`, and wakes the loop with `notify_one`, after which it answers. The loop
is the only task that waits on the `Notify`: `notify_one` hands it the notification while it
waits without one, and otherwise leaves the one permit there can be. The interval is
positive, so the timer of a `select!` never wins the first poll.
-/

namespace XboxProxy
open Misc

/-- `SpeedTestControlInner`, with the permit of its `Notify`. -/
structure SpeedTestControl where
  permit : Bool
  running : Bool
  pendingUrl : Option String
  deriving DecidableEq

/-- Why the loop runs a pass; a forced one has the override it took. -/
inductive PassKind where
  | warmup (i : Nat)
  | scheduled
  | forced (url : Option String)
  deriving DecidableEq

def PassKind.isForced : PassKind → Bool
  | .forced _ => true
  | _ => false

/-- Where `run_forever` is. -/
inductive LoopPhase where
  /-- `wait_until_idle` before warm-up pass `i`. -/
  | warmupIdle (i : Nat)
  /-- The two seconds after warm-up pass `i`. -/
  | sleeping (i : Nat)
  /-- About to poll `notified()`, in the `select!` or alone. -/
  | listening
  /-- Waiting there; a notification may have been handed over already. -/
  | waiting (notified : Bool)
  /-- The timer won: `wait_until_idle` before a scheduled pass. -/
  | due
  /-- The notification won: `take_url` comes next. -/
  | woken
  /-- At the start of `run_controlled_pass`, before it sets `running`. -/
  | starting (kind : PassKind)
  | running (kind : PassKind)
  deriving DecidableEq

/-- How far a `run_speedtest` request is that passed its checks. -/
inductive RequestStage where
  | accepted
  /-- It has written `pending_url` and not yet called `notify_one`. -/
  | stored
  /-- It has answered `started: true`. -/
  | answered
  deriving DecidableEq

structure SpeedTestRequest where
  url : Option String
  stage : RequestStage
  deriving DecidableEq

/-- What happened, for the properties of whole runs. -/
inductive SpeedTestEvent where
  | stored (k : Nat) (url : Option String)
  /-- A request for `url` answered `started: true`, with `running` as it was then. -/
  | answered (url : Option String) (running : Bool)
  | took (url : Option String)
  | started (kind : PassKind)
  deriving DecidableEq

namespace SpeedTestEvent

/-- The override of a request that answered `started: true`. -/
def answers : SpeedTestEvent → Option (Option String)
  | .answered url _ => some url
  | _ => none

/-- The override of a forced pass that starts. -/
def forces : SpeedTestEvent → Option (Option String)
  | .started (.forced url) => some url
  | _ => none

def takes : SpeedTestEvent → Option (Option String)
  | .took url => some url
  | _ => none

def stores : SpeedTestEvent → Option (Option String)
  | .stored _ url => some url
  | _ => none

end SpeedTestEvent

/-- The settings of the program and what the requests are checked with. -/
structure SpeedTestSetup (F : Type) where
  auto : Bool
  warmupPasses : Nat
  parse : String → Option Uri
  selector : Selector F

/-- `cfg.warmup_passes.max(1)`. -/
def SpeedTestSetup.warmup {F : Type} (setup : SpeedTestSetup F) : Nat :=
  max setup.warmupPasses 1

/-- The settings of the examples: no automatic passes, one group, one URL that parses. -/
def manualSetup : SpeedTestSetup Unit where
  auto := false
  warmupPasses := 1
  parse raw :=
    if raw = "http://cdn.example.com/test" then
      some ⟨some "http", some "cdn.example.com", some ⟨"/test", by decide⟩⟩
    else none
  selector := .new [testDef [.v4 1 1 1 1]] 60

/-- The loop, the requests in the order they passed their checks, and the events so far. -/
structure SpeedTestLoop where
  control : SpeedTestControl
  phase : LoopPhase
  requests : List SpeedTestRequest
  log : List SpeedTestEvent

inductive SpeedTestAction where
  /-- A `POST` of the dashboard, with the URL of its body. -/
  | request (url : Option String)
  /-- Request `k` writes `pending_url`. -/
  | store (k : Nat)
  /-- Request `k` calls `notify_one` and answers. -/
  | notify (k : Nat)
  /-- `wait_until_idle` reads `is_busy`. -/
  | checkIdle (busy : Bool)
  | startPass
  | finishPass
  | wakeUp
  | listen
  | timer
  | resume
  | takeUrl

/-- The steps of the loop itself. -/
def SpeedTestAction.ofLoop : SpeedTestAction → Bool
  | .request _ | .store _ | .notify _ => false
  | _ => true

namespace SpeedTestLoop

variable {F : Type}

/-- `run_forever` as it is entered. -/
def start (setup : SpeedTestSetup F) : SpeedTestLoop where
  control := ⟨false, false, none⟩
  phase := if setup.auto then .warmupIdle 0 else .listening
  requests := []
  log := []

/-- The notifications the loop has still to consume. -/
def notifications (s : SpeedTestLoop) : Nat :=
  s.control.permit.toNat + if s.phase = .waiting true ∨ s.phase = .woken then 1 else 0

/-- `Notify::notify_one`. -/
def notifyOne (s : SpeedTestLoop) : SpeedTestLoop :=
  if s.phase = .waiting false then { s with phase := .waiting true }
  else { s with control := { s.control with permit := true } }

/-- The phase after a pass (`speedtest.rs:122-127`, `131`). -/
def afterPass (setup : SpeedTestSetup F) : PassKind → LoopPhase
  | .warmup i => if i + 1 < setup.warmup then .sleeping i else .listening
  | _ => .listening

theorem afterPass_cases (setup : SpeedTestSetup F) (kind : PassKind) :
    afterPass setup kind = .listening ∨ ∃ i, afterPass setup kind = .sleeping i := by
  cases kind with
  | warmup i =>
    simp only [afterPass]
    split
    · exact .inr ⟨i, rfl⟩
    · exact .inl rfl
  | scheduled => exact .inl rfl
  | forced url => exact .inl rfl

def step (setup : SpeedTestSetup F) (s : SpeedTestLoop) :
    SpeedTestAction → Option SpeedTestLoop
  | .request url =>
    -- the loop is spawned only when no address was pinned at startup
    match runSpeedtest setup.parse setup.selector false s.control.running url with
    | .error _ => some s
    | .ok url => some { s with requests := s.requests ++ [⟨url, .accepted⟩] }
  | .store k =>
    match s.requests[k]? with
    | some ⟨url, .accepted⟩ =>
      some { s with
        control := { s.control with pendingUrl := url }
        requests := s.requests.set k ⟨url, .stored⟩
        log := s.log ++ [.stored k url] }
    | _ => none
  | .notify k =>
    match s.requests[k]? with
    | some ⟨url, .stored⟩ =>
      some { s.notifyOne with
        requests := s.requests.set k ⟨url, .answered⟩
        log := s.log ++ [.answered url s.control.running] }
    | _ => none
  | .checkIdle busy =>
    match s.phase with
    | .warmupIdle i => some (if busy then s else { s with phase := .starting (.warmup i) })
    | .due => some (if busy then s else { s with phase := .starting .scheduled })
    | _ => none
  | .startPass =>
    match s.phase with
    | .starting kind =>
      some { s with
        control := { s.control with running := true }
        phase := .running kind
        log := s.log ++ [.started kind] }
    | _ => none
  | .finishPass =>
    match s.phase with
    | .running kind =>
      some { s with
        control := { s.control with running := false }
        phase := afterPass setup kind }
    | _ => none
  | .wakeUp =>
    match s.phase with
    | .sleeping i => some { s with phase := .warmupIdle (i + 1) }
    | _ => none
  | .listen =>
    if s.phase = .listening then
      some (if s.control.permit then
        { s with control := { s.control with permit := false }, phase := .woken }
      else { s with phase := .waiting false })
    else none
  | .timer =>
    match s.phase with
    | .waiting notified =>
      -- a notification the dropped future holds goes back to the `Notify`
      if setup.auto then
        some { s with
          control := { s.control with permit := s.control.permit || notified }
          phase := .due }
      else none
    | _ => none
  | .resume => if s.phase = .waiting true then some { s with phase := .woken } else none
  | .takeUrl =>
    if s.phase = .woken then
      some { s with
        control := { s.control with pendingUrl := none }
        phase := .starting (.forced s.control.pendingUrl)
        log := s.log ++ [.took s.control.pendingUrl] }
    else none

/-- What a step can do, one constructor for each branch of `step`. -/
inductive Moves (setup : SpeedTestSetup F) (s : SpeedTestLoop) :
    SpeedTestAction → SpeedTestLoop → Prop
  | rejected (url : Option String) : Moves setup s (.request url) s
  | accepted (body url : Option String) :
      Moves setup s (.request body) { s with requests := s.requests ++ [⟨url, .accepted⟩] }
  | stored {k : Nat} {url : Option String} (found : s.requests[k]? = some ⟨url, .accepted⟩) :
      Moves setup s (.store k) { s with
        control := { s.control with pendingUrl := url }
        requests := s.requests.set k ⟨url, .stored⟩
        log := s.log ++ [.stored k url] }
  | handedOver {k : Nat} {url : Option String} (found : s.requests[k]? = some ⟨url, .stored⟩)
      (phase : s.phase = .waiting false) :
      Moves setup s (.notify k) { s with
        phase := .waiting true
        requests := s.requests.set k ⟨url, .answered⟩
        log := s.log ++ [.answered url s.control.running] }
  | permitted {k : Nat} {url : Option String} (found : s.requests[k]? = some ⟨url, .stored⟩)
      (phase : s.phase ≠ .waiting false) :
      Moves setup s (.notify k) { s with
        control := { s.control with permit := true }
        requests := s.requests.set k ⟨url, .answered⟩
        log := s.log ++ [.answered url s.control.running] }
  | postponed : Moves setup s (.checkIdle true) s
  | warmupPass {i : Nat} (phase : s.phase = .warmupIdle i) :
      Moves setup s (.checkIdle false) { s with phase := .starting (.warmup i) }
  | scheduledPass (phase : s.phase = .due) :
      Moves setup s (.checkIdle false) { s with phase := .starting .scheduled }
  | started {kind : PassKind} (phase : s.phase = .starting kind) :
      Moves setup s .startPass { s with
        control := { s.control with running := true }
        phase := .running kind
        log := s.log ++ [.started kind] }
  | finished {kind : PassKind} (phase : s.phase = .running kind) :
      Moves setup s .finishPass { s with
        control := { s.control with running := false }
        phase := afterPass setup kind }
  | wokeUp {i : Nat} (phase : s.phase = .sleeping i) :
      Moves setup s .wakeUp { s with phase := .warmupIdle (i + 1) }
  | consumed (phase : s.phase = .listening) (permit : s.control.permit = true) :
      Moves setup s .listen { s with
        control := { s.control with permit := false }
        phase := .woken }
  | waits (phase : s.phase = .listening) (permit : s.control.permit = false) :
      Moves setup s .listen { s with phase := .waiting false }
  | timedOut {notified : Bool} (phase : s.phase = .waiting notified) :
      Moves setup s .timer { s with
        control := { s.control with permit := s.control.permit || notified }
        phase := .due }
  | resumed (phase : s.phase = .waiting true) :
      Moves setup s .resume { s with phase := .woken }
  | took (phase : s.phase = .woken) :
      Moves setup s .takeUrl { s with
        control := { s.control with pendingUrl := none }
        phase := .starting (.forced s.control.pendingUrl)
        log := s.log ++ [.took s.control.pendingUrl] }

theorem moves_of_step {setup : SpeedTestSetup F} {s t : SpeedTestLoop} {a : SpeedTestAction}
    (stepped : step setup s a = some t) : Moves setup s a t := by
  cases a with
  | request url =>
    simp only [step] at stepped
    split at stepped <;> obtain rfl := Option.some.inj stepped
    · exact .rejected url
    · exact .accepted _ _
  | store k =>
    simp only [step] at stepped
    split at stepped
    · rename_i found
      obtain rfl := Option.some.inj stepped
      exact .stored found
    · cases stepped
  | notify k =>
    simp only [step] at stepped
    split at stepped
    · rename_i found
      obtain rfl := Option.some.inj stepped
      unfold notifyOne
      split
      · rename_i phase
        exact .handedOver found phase
      · rename_i phase
        exact .permitted found phase
    · cases stepped
  | checkIdle busy =>
    simp only [step] at stepped
    split at stepped
    · rename_i phase
      cases busy <;> obtain rfl := Option.some.inj stepped
      · exact .warmupPass phase
      · exact .postponed
    · rename_i phase
      cases busy <;> obtain rfl := Option.some.inj stepped
      · exact .scheduledPass phase
      · exact .postponed
    · cases stepped
  | startPass =>
    simp only [step] at stepped
    split at stepped
    · rename_i phase
      obtain rfl := Option.some.inj stepped
      exact .started phase
    · cases stepped
  | finishPass =>
    simp only [step] at stepped
    split at stepped
    · rename_i phase
      obtain rfl := Option.some.inj stepped
      exact .finished phase
    · cases stepped
  | wakeUp =>
    simp only [step] at stepped
    split at stepped
    · rename_i phase
      obtain rfl := Option.some.inj stepped
      exact .wokeUp phase
    · cases stepped
  | listen =>
    simp only [step, Option.ite_none_right_eq_some, Option.some.injEq] at stepped
    obtain ⟨phase, rfl⟩ := stepped
    split
    · rename_i permit
      exact .consumed phase permit
    · rename_i permit
      exact .waits phase (by simpa using permit)
  | timer =>
    simp only [step] at stepped
    split at stepped
    · rename_i phase
      simp only [Option.ite_none_right_eq_some, Option.some.injEq] at stepped
      obtain ⟨-, rfl⟩ := stepped
      exact .timedOut phase
    · cases stepped
  | resume =>
    simp only [step, Option.ite_none_right_eq_some, Option.some.injEq] at stepped
    obtain ⟨phase, rfl⟩ := stepped
    exact .resumed phase
  | takeUrl =>
    simp only [step, Option.ite_none_right_eq_some, Option.some.injEq] at stepped
    obtain ⟨phase, rfl⟩ := stepped
    exact .took phase

end SpeedTestLoop
end XboxProxy
