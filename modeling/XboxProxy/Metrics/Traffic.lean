import XboxProxy.Metrics
import XboxProxy.Misc.ListUpdate
import XboxProxy.Misc.Run
import Mathlib.Data.Rat.Defs

/-!
# Live traffic and the activity counter

A managed request holds its `ActivityGuard` while `proxy_handler` runs
(`proxy.rs:326-555`): the guard is a local of the handler and is dropped when it returns or
is cancelled. The `CountingStream` it returns is owned by the server and holds no guard, so
the counter counts handlers and not downloads. A wave starts with its check: what begins
between the check and the first test of the wave is after the start.
-/

namespace XboxProxy
open Misc

/-- Where a managed request is, from `begin_request` on. -/
inductive RequestPhase where
  /-- `proxy_handler` is running and holds the guard. -/
  | handling
  /-- The handler has returned a `CountingStream` that has not ended, failed or been dropped. -/
  | streaming
  | finished
  deriving DecidableEq

/-- The metrics and the managed requests so far, in the order they began. -/
structure Traffic (F : Type) where
  metrics : MetricsStore F
  requests : List RequestPhase

inductive TrafficAction where
  | beginRequest (now : Nat)
  /-- The handler of request `i` returns, with a streaming body or with a fixed text. -/
  | reply (i now : Nat) (streams : Bool)
  /-- The server drops the handler of request `i`. -/
  | cancel (i now : Nat)
  | pollChunk (i : Nat)
  /-- The body of request `i` ends, fails or is dropped. -/
  | endBody (i : Nat)
  /-- `run_pass` starts a wave (`speedtest.rs:274-282`). -/
  | wave (forced : Bool) (now : Nat)

namespace Traffic

variable {F : Type}

def start : Traffic F := ⟨.new, []⟩

/-- The handler of request `i` is gone, and its guard with it. -/
def leaveHandler (s : Traffic F) (i now : Nat) (next : RequestPhase) : Option (Traffic F) :=
  if s.requests[i]? = some .handling then
    some ⟨s.metrics.dropGuard now, s.requests.set i next⟩
  else none

def step (s : Traffic F) : TrafficAction → Option (Traffic F)
  | .beginRequest now => some ⟨s.metrics.beginRequest now, s.requests ++ [.handling]⟩
  | .reply i now streams => s.leaveHandler i now (if streams then .streaming else .finished)
  | .cancel i now => s.leaveHandler i now .finished
  | .pollChunk i => if s.requests[i]? = some .streaming then some s else none
  | .endBody i =>
    if s.requests[i]? = some .streaming then
      some { s with requests := s.requests.set i .finished }
    else none
  | .wave forced now =>
    if forced || !s.metrics.isBusy activityGrace now then some s else none

/-- Some managed request is still being handled or its body still being sent. -/
def Live (s : Traffic F) : Prop := ∃ phase ∈ s.requests, phase ≠ .finished

/-- A live request is seen by `active_requests`, and so by `is_busy` at any time. -/
def Tracked (s : Traffic F) : Prop :=
  s.Live → 0 < s.metrics.activeRequests ∧ ∀ now, s.metrics.isBusy activityGrace now

/-- The handler of request `i` may go, leaving `next` behind: another handler still runs, or
no body is being sent afterwards. -/
def MayLeave (s : Traffic F) (i : Nat) (next : RequestPhase) : Prop :=
  .handling ∈ s.requests.eraseIdx i ∨ (next ≠ .streaming ∧ .streaming ∉ s.requests.eraseIdx i)

/-- The steps that keep every live request in sight. -/
def KeepsInSight (s : Traffic F) : TrafficAction → Prop
  | .reply i _ streams => s.MayLeave i (if streams then .streaming else .finished)
  | .cancel i _ => s.MayLeave i .finished
  | _ => True

instance (s : Traffic F) (i : Nat) (next : RequestPhase) : Decidable (s.MayLeave i next) :=
  inferInstanceAs (Decidable (_ ∨ (_ ∧ _)))

instance (s : Traffic F) : (a : TrafficAction) → Decidable (s.KeepsInSight a)
  | .reply i _ streams =>
    inferInstanceAs (Decidable (s.MayLeave i (if streams then .streaming else .finished)))
  | .cancel i _ => inferInstanceAs (Decidable (s.MayLeave i .finished))
  | .beginRequest _ | .pollChunk _ | .endBody _ | .wave .. => .isTrue trivial

/-- Everything one step can do; a handler that leaves is a reply or a cancellation. -/
theorem step_cases {s t : Traffic F} {a : TrafficAction} (stepped : step s a = some t) :
    (∃ now, t = ⟨s.metrics.beginRequest now, s.requests ++ [.handling]⟩ ∧ s.KeepsInSight a) ∨
    (∃ i now next, s.requests[i]? = some .handling ∧
      t = ⟨s.metrics.dropGuard now, s.requests.set i next⟩ ∧
      (next = .streaming ∨ next = .finished) ∧ (s.KeepsInSight a ↔ s.MayLeave i next)) ∨
    (∃ i, s.requests[i]? = some .streaming ∧
      t = { s with requests := s.requests.set i .finished } ∧ s.KeepsInSight a) ∨
    (t = s ∧ s.KeepsInSight a) := by
  cases a with
  | beginRequest now =>
    exact .inl ⟨now, by simpa [step] using stepped.symm, trivial⟩
  | reply i now streams =>
    right; left
    simp only [step, leaveHandler, Option.ite_none_right_eq_some, Option.some.injEq] at stepped
    exact ⟨i, now, _, stepped.1, stepped.2.symm, by cases streams <;> simp, Iff.rfl⟩
  | cancel i now =>
    right; left
    simp only [step, leaveHandler, Option.ite_none_right_eq_some, Option.some.injEq] at stepped
    exact ⟨i, now, _, stepped.1, stepped.2.symm, .inr rfl, Iff.rfl⟩
  | pollChunk i =>
    simp only [step, Option.ite_none_right_eq_some, Option.some.injEq] at stepped
    exact .inr (.inr (.inr ⟨stepped.2.symm, trivial⟩))
  | endBody i =>
    simp only [step, Option.ite_none_right_eq_some, Option.some.injEq] at stepped
    exact .inr (.inr (.inl ⟨i, stepped.1, stepped.2.symm, trivial⟩))
  | wave forced now =>
    simp only [step, Option.ite_none_right_eq_some, Option.some.injEq] at stepped
    exact .inr (.inr (.inr ⟨stepped.2.symm, trivial⟩))

/-! ## What the counter counts -/

/-- The counter is the number of handlers running. -/
def Counted (s : Traffic F) : Prop :=
  s.metrics.activeRequests = s.requests.count .handling

theorem Counted.step {s t : Traffic F} {a : TrafficAction} (counted : Counted s)
    (stepped : Traffic.step s a = some t) : Counted t := by
  unfold Counted at counted ⊢
  obtain ⟨now, rfl, -⟩ | ⟨i, now, next, found, rfl, left, -⟩ | ⟨i, found, rfl, -⟩ | ⟨rfl, -⟩ :=
    step_cases stepped
  · simp [MetricsStore.beginRequest, counted]
  · have before := perm_cons_eraseIdx found
    have after := perm_set found next
    have running : next ≠ .handling := by rcases left with rfl | rfl <;> simp
    rw [before.count_eq, List.count_cons_self] at counted
    rw [after.count_eq, List.count_cons_of_ne running]
    simp only [MetricsStore.dropGuard]
    omega
  · have before := perm_cons_eraseIdx found
    have after := perm_set found .finished
    rw [before.count_eq, List.count_cons_of_ne (by simp)] at counted
    rw [after.count_eq, List.count_cons_of_ne (by simp)]
    exact counted
  · exact counted

/-- While the counter is right, live requests are in sight exactly when no body is being
sent without a handler running. -/
theorem tracked_iff {s : Traffic F} (counted : Counted s) :
    s.Tracked ↔ (.streaming ∈ s.requests → .handling ∈ s.requests) := by
  have active : 0 < s.metrics.activeRequests ↔ .handling ∈ s.requests := by
    rw [counted, List.count_pos_iff]
  constructor
  · intro tracked streaming
    exact active.mp (tracked ⟨_, streaming, by simp⟩).1
  · rintro behind ⟨phase, member, live⟩
    have handling : .handling ∈ s.requests := by
      cases phase with
      | handling => exact member
      | streaming => exact behind member
      | finished => exact absurd rfl live
    refine ⟨active.mpr handling, fun now => ?_⟩
    simp [MetricsStore.isBusy, active.mpr handling]

/-- A step keeps live requests in sight exactly when it meets the condition. -/
theorem tracked_step_iff {s t : Traffic F} {a : TrafficAction} (counted : Counted s)
    (tracked : s.Tracked) (stepped : step s a = some t) : t.Tracked ↔ s.KeepsInSight a := by
  rw [tracked_iff (counted.step stepped)]
  rw [tracked_iff counted] at tracked
  obtain ⟨now, rfl, keeps⟩ | ⟨i, now, next, found, rfl, left, keeps⟩ | ⟨i, found, rfl, keeps⟩ |
    ⟨rfl, keeps⟩ := step_cases stepped
  · simp [keeps]
  · have after := perm_set found next
    have running : next ≠ .handling := by rcases left with rfl | rfl <;> simp
    rw [keeps, MayLeave, after.mem_iff, after.mem_iff, List.mem_cons, List.mem_cons]
    have ne : RequestPhase.handling ≠ next := Ne.symm running
    by_cases streams : next = .streaming
    · simp [streams]
    · have ne' : RequestPhase.streaming ≠ next := Ne.symm streams
      simp only [ne, ne', false_or, streams, ne_eq, not_false_eq_true, true_and]
      tauto
  · have before := perm_cons_eraseIdx found
    have after := perm_set found .finished
    rw [before.mem_iff, before.mem_iff] at tracked
    simp only [keeps, iff_true]
    rw [after.mem_iff, after.mem_iff]
    intro _
    simpa using tracked (by simp)
  · simpa [keeps] using tracked

/-- A wave that is not forced starts only when nothing is busy. -/
theorem not_live_of_wave {s t : Traffic F} {now : Nat} (tracked : s.Tracked)
    (stepped : step s (.wave false now) = some t) : ¬ s.Live := by
  intro live
  simp [step, (tracked live).2 now] at stepped

/-- Along any run the live requests are in sight throughout if and only if every handler that
leaves does so with another one running or with no body left to send; and then no wave of a
pass that is not forced starts while a request is live. -/
theorem tracked_along_iff (actions : List TrafficAction) (t : Traffic F)
    (reached : run step start actions = some t) :
    (Along step Tracked (start : Traffic F) actions ↔
      AlongSteps step KeepsInSight (start : Traffic F) actions) ∧
    (AlongSteps step KeepsInSight (start : Traffic F) actions →
      AlongSteps step (fun s a => ∀ now, a = .wave false now → ¬ s.Live) (start : Traffic F)
        actions) := by
  have counted : Counted (start : Traffic F) := rfl
  have tracked : Tracked (start : Traffic F) := by
    rintro ⟨phase, member, -⟩
    cases member
  have exact_condition : Along step Tracked (start : Traffic F) actions ↔
      AlongSteps step KeepsInSight (start : Traffic F) actions := by
    apply along_iff_alongSteps ?_ ?_ counted tracked reached
    · intro s a u counted stepped
      exact counted.step stepped
    · intro s a u counted tracked stepped
      exact tracked_step_iff counted tracked stepped
  refine ⟨exact_condition, fun allowed => ?_⟩
  apply alongSteps_of_along ?_ (exact_condition.mpr allowed) reached
  rintro s a u tracked stepped now rfl
  exact not_live_of_wave tracked stepped

/-- A second request that begins before the first is answered and is cancelled after the
first body has ended. -/
theorem tracked_along_iff_overlap :
    Along step Tracked (start : Traffic ℚ) [.beginRequest 100, .beginRequest 101,
      .reply 0 102 true, .pollChunk 0, .endBody 0, .cancel 1 300, .wave false 400] :=
  (tracked_along_iff [.beginRequest 100, .beginRequest 101, .reply 0 102 true, .pollChunk 0,
    .endBody 0, .cancel 1 300, .wave false 400] _ rfl).1.mpr (by decide)

/-- A single download that lasts longer than the grace window: its handler has returned, the
counter is zero, and a wave starts while its chunks are still being sent. -/
theorem wave_while_streaming :
    ∃ t, run step (start : Traffic ℚ) [.beginRequest 100, .reply 0 101 true, .pollChunk 0,
        .wave false 200, .pollChunk 0] = some t ∧
      t.Live ∧ t.metrics.activeRequests = 0 ∧ t.metrics.isBusy activityGrace 200 = false :=
  ⟨_, rfl, ⟨.streaming, by decide, by decide⟩, rfl, rfl⟩

end Traffic
end XboxProxy
