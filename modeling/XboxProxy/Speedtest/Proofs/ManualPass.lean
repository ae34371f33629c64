import XboxProxy.Speedtest.Control

/-!
# A manual trigger and the pass that follows it

`run_speedtest` turns a request away only while a pass is running. The loop listens to the
`Notify` only at its `select!`: before a warm-up or a scheduled pass it waits for the proxy to
be idle, and a request that is answered then is followed by that pass, not by a forced one.
-/

namespace XboxProxy
open Misc

/-- The kind of a pass that starts. -/
def SpeedTestEvent.starts : SpeedTestEvent → Option PassKind
  | .started kind => some kind
  | _ => none

/-- After every answer given while no pass was running, the next pass to start is forced. -/
def NextPassForced (log : List SpeedTestEvent) : Prop :=
  ∀ i url, log[i]? = some (.answered url false) →
    ∀ kind, (log.drop (i + 1)).findSome? SpeedTestEvent.starts = some kind → kind.isForced

/-- No pass has started since such an answer. -/
def Owed (log : List SpeedTestEvent) : Prop :=
  ∃ i url, log[i]? = some (.answered url false) ∧
    (log.drop (i + 1)).findSome? SpeedTestEvent.starts = none

/-- An entry of a longer log is an old one or the last. -/
theorem getElem?_snoc_cases {log : List SpeedTestEvent} {e e' : SpeedTestEvent} {i : Nat}
    (found : (log ++ [e])[i]? = some e') :
    (log[i]? = some e' ∧ (log ++ [e]).drop (i + 1) = log.drop (i + 1) ++ [e]) ∨
      (e = e' ∧ (log ++ [e]).drop (i + 1) = []) := by
  have bound : i < log.length + 1 := by
    simpa using (List.getElem?_eq_some_iff.mp found).1
  by_cases old : i < log.length
  · left
    rw [List.getElem?_append_left old] at found
    exact ⟨found, List.drop_append_of_le_length (by omega)⟩
  · right
    obtain rfl : i = log.length := by omega
    exact ⟨by simpa using found, by simp⟩

theorem owed_snoc {log : List SpeedTestEvent} {e : SpeedTestEvent} (owed : Owed (log ++ [e])) :
    (∃ url, e = .answered url false) ∨ (Owed log ∧ e.starts = none) := by
  obtain ⟨i, url, found, none_started⟩ := owed
  rcases getElem?_snoc_cases found with ⟨old, rest⟩ | ⟨rfl, -⟩
  · right
    rw [rest, List.findSome?_append, Option.or_eq_none_iff] at none_started
    exact ⟨⟨i, url, old, none_started.1⟩, by simpa using none_started.2⟩
  · exact .inl ⟨url, rfl⟩

theorem nextPassForced_snoc {log : List SpeedTestEvent} {e : SpeedTestEvent}
    (forced : NextPassForced log)
    (next : ∀ kind, e.starts = some kind → Owed log → kind.isForced) :
    NextPassForced (log ++ [e]) := by
  intro i url found kind first
  rcases getElem?_snoc_cases found with ⟨old, rest⟩ | ⟨rfl, rest⟩
  · rw [rest, List.findSome?_append] at first
    cases before : (log.drop (i + 1)).findSome? SpeedTestEvent.starts with
    | some earlier =>
      rw [before, Option.some_or] at first
      exact forced i url old kind (before.trans first)
    | none =>
      rw [before, Option.none_or] at first
      exact next kind (by simpa using first) ⟨i, url, old, before⟩
  · rw [rest] at first
    cases first

/-- The phases from which the next pass is forced once the loop is notified. -/
def LoopPhase.attentive : LoopPhase → Bool
  | .listening | .waiting _ | .woken | .starting (.forced _) => true
  | _ => false

namespace SpeedTestLoop

variable {F : Type} {setup : SpeedTestSetup F}

/-- The loop starts no other pass before it has consumed a notification. -/
def Committed (s : SpeedTestLoop) : Prop :=
  s.phase = .waiting true ∨ s.phase = .woken ∨ (∃ url, s.phase = .starting (.forced url)) ∨
    (s.phase = .listening ∧ s.control.permit = true)

/-- While a forced pass is owed the loop is committed to it. -/
structure Forced (s : SpeedTestLoop) : Prop where
  committed : Owed s.log → s.Committed
  forced : NextPassForced s.log

/-- The steps that keep the promise: a request that no running pass turns away answers while
the loop is at its `select!` or on the way from there to a forced pass, and the timer does
not win over a notification that was handed over. -/
def InTime (s : SpeedTestLoop) : SpeedTestAction → Prop
  | .notify _ => s.control.running = false → s.phase.attentive
  | .timer => s.phase ≠ .waiting true
  | _ => True

instance (s : SpeedTestLoop) : (a : SpeedTestAction) → Decidable (s.InTime a)
  | .notify _ => inferInstanceAs (Decidable (_ = false → _ = true))
  | .timer => inferInstanceAs (Decidable (s.phase ≠ .waiting true))
  | .request _ | .takeUrl | .store _ | .checkIdle _ | .startPass | .finishPass | .wakeUp
  | .listen | .resume => .isTrue trivial

theorem Forced.start (setup : SpeedTestSetup F) : Forced (start setup) := by
  constructor
  · rintro ⟨i, url, found, -⟩
    simp [SpeedTestLoop.start] at found
  · intro i url found
    simp [SpeedTestLoop.start] at found

/-- Where the loop is not committed nothing is owed. -/
theorem Forced.of_idle {s t : SpeedTestLoop} (inv : Forced s) (log : t.log = s.log)
    (idle : ¬ s.Committed) : Forced t := by
  constructor
  · intro owed
    rw [log] at owed
    exact absurd (inv.committed owed) idle
  · rw [log]
    exact inv.forced

theorem Forced.of_committed {s t : SpeedTestLoop} (inv : Forced s) (log : t.log = s.log)
    (committed : t.Committed) : Forced t := by
  refine ⟨fun _ => committed, ?_⟩
  rw [log]
  exact inv.forced

theorem Forced.answer {s : SpeedTestLoop} (inv : Forced s) {url : Option String}
    {control : SpeedTestControl} {phase : LoopPhase} {requests : List SpeedTestRequest}
    (kept : s.Committed → Committed ⟨control, phase, requests, []⟩)
    (inTime : s.control.running = false → Committed ⟨control, phase, requests, []⟩) :
    Forced ⟨control, phase, requests, s.log ++ [.answered url s.control.running]⟩ := by
  constructor
  · intro owed
    rcases owed_snoc owed with ⟨url', answered⟩ | ⟨owed, -⟩
    · apply inTime
      simpa using (SpeedTestEvent.answered.inj answered).2
    · exact kept (inv.committed owed)
  · apply nextPassForced_snoc inv.forced
    intro kind starts
    cases starts

theorem committed_of_attentive {s : SpeedTestLoop} (phase : s.phase ≠ .waiting false)
    (attentive : s.phase.attentive = true) (control : SpeedTestControl)
    (permit : control.permit = true) (requests : List SpeedTestRequest) :
    Committed ⟨control, s.phase, requests, []⟩ := by
  unfold Committed
  cases at_phase : s.phase with
  | waiting notified =>
    cases notified with
    | true => exact .inl rfl
    | false => exact absurd at_phase phase
  | woken => exact .inr (.inl rfl)
  | starting kind =>
    cases kind with
    | forced url => exact .inr (.inr (.inl ⟨url, rfl⟩))
    | warmup i => simp [LoopPhase.attentive, at_phase] at attentive
    | scheduled => simp [LoopPhase.attentive, at_phase] at attentive
  | listening => exact .inr (.inr (.inr ⟨rfl, permit⟩))
  | warmupIdle i => simp [LoopPhase.attentive, at_phase] at attentive
  | sleeping i => simp [LoopPhase.attentive, at_phase] at attentive
  | due => simp [LoopPhase.attentive, at_phase] at attentive
  | running kind => simp [LoopPhase.attentive, at_phase] at attentive

theorem Forced.step {s t : SpeedTestLoop} {a : SpeedTestAction} (inv : Forced s)
    (inTime : s.InTime a) (stepped : SpeedTestLoop.step setup s a = some t) : Forced t := by
  cases moves_of_step stepped with
  | rejected url => exact inv
  | accepted body url => exact ⟨inv.committed, inv.forced⟩
  | stored found =>
    constructor
    · intro owed
      rcases owed_snoc owed with ⟨url', answered⟩ | ⟨owed, -⟩
      · cases answered
      · exact inv.committed owed
    · apply nextPassForced_snoc inv.forced
      intro kind starts
      cases starts
  | handedOver found phase =>
    exact inv.answer (fun _ => .inl rfl) fun _ => .inl rfl
  | permitted found phase =>
    refine inv.answer ?_ fun notRunning => committed_of_attentive phase (inTime notRunning) _ rfl _
    rintro (waiting | woken | starting | ⟨listening, -⟩)
    · exact .inl waiting
    · exact .inr (.inl woken)
    · exact .inr (.inr (.inl starting))
    · exact .inr (.inr (.inr ⟨listening, rfl⟩))
  | postponed => exact inv
  | warmupPass phase => exact inv.of_idle rfl (by simp [Committed, phase])
  | scheduledPass phase => exact inv.of_idle rfl (by simp [Committed, phase])
  | started phase =>
    constructor
    · intro owed
      rcases owed_snoc owed with ⟨url', answered⟩ | ⟨-, none_started⟩
      · cases answered
      · cases none_started
    · apply nextPassForced_snoc inv.forced
      intro kind starts owed
      obtain rfl := Option.some.inj starts
      have committed := inv.committed owed
      simp only [Committed, phase, reduceCtorEq, false_or, false_and, or_false,
        LoopPhase.starting.injEq] at committed
      obtain ⟨url, rfl⟩ := committed
      rfl
  | finished phase => exact inv.of_idle rfl (by simp [Committed, phase])
  | wokeUp phase => exact inv.of_idle rfl (by simp [Committed, phase])
  | consumed phase permit => exact inv.of_committed rfl (.inr (.inl rfl))
  | waits phase permit => exact inv.of_idle rfl (by simp [Committed, phase, permit])
  | @timedOut notified phase =>
    cases notified with
    | true => exact absurd phase inTime
    | false => exact inv.of_idle rfl (by simp [Committed, phase])
  | resumed phase => exact inv.of_committed rfl (.inr (.inl rfl))
  | took phase =>
    constructor
    · intro _
      exact .inr (.inr (.inl ⟨_, rfl⟩))
    · apply nextPassForced_snoc inv.forced
      intro kind starts
      cases starts

/-- In a run whose steps are in time, whenever a request answers `started: true` while no
pass is running, the next pass the loop starts is a forced one. -/
theorem nextPassForced_of_inTime (setup : SpeedTestSetup F) (actions : List SpeedTestAction)
    (t : SpeedTestLoop) (inTime : AlongSteps (step setup) InTime (start setup) actions)
    (reached : run (step setup) (start setup) actions = some t) : NextPassForced t.log := by
  have inv : Forced t := by
    apply run_invariant_of_alongSteps ?_ (Forced.start setup) inTime reached
    intro s a u inv allowed stepped
    exact inv.step allowed stepped
  exact inv.forced

/-- A request at the `select!` after the warm-up, while the proxy is busy. -/
theorem nextPassForced_of_inTime_waiting :
    ∃ t, run (step { manualSetup with auto := true }) (start { manualSetup with auto := true })
        [.checkIdle false, .startPass, .finishPass, .listen, .request none, .store 0, .notify 0,
          .resume, .takeUrl, .startPass] = some t ∧ NextPassForced t.log := by
  refine ⟨_, rfl, ?_⟩
  exact nextPassForced_of_inTime { manualSetup with auto := true }
    [.checkIdle false, .startPass, .finishPass, .listen, .request none, .store 0, .notify 0,
      .resume, .takeUrl, .startPass] _ (by decide) rfl

/-- A request while the loop waits for the proxy to be idle before its first pass: it is
answered `started: true` with no pass running, and the next pass is the warm-up. -/
theorem not_nextPassForced_of_warmup :
    ∃ t, run (step { manualSetup with auto := true }) (start { manualSetup with auto := true })
        [.checkIdle true, .request none, .store 0, .notify 0, .checkIdle false, .startPass] =
          some t ∧
      ¬ NextPassForced t.log := by
  refine ⟨_, rfl, ?_⟩
  intro forced
  have kind := forced 1 none rfl (.warmup 0) rfl
  cases kind

end SpeedTestLoop
end XboxProxy
