import XboxProxy.Speedtest.Proofs.KeptRequests
import XboxProxy.Speedtest.Proofs.ManualPass

/-!
# No wake-up is lost

The override a pass uses may be that of another request, but the pass comes: notifications
coalesce and are handed back when the timer wins, and none is dropped. Nor does the loop make
up passes of its own: it never runs more forced passes than requests were answered.
-/

namespace XboxProxy
open Misc

/-- The events that add to or take from what the loop owes: an answer, and the start of a
forced pass. -/
def SpeedTestEvent.owes : SpeedTestEvent → Option Bool
  | .answered _ _ => some true
  | .started (.forced _) => some false
  | _ => none

/-- Whether a forced pass is to follow, as the log tells it: the last of these events was an
answer. -/
def owing (log : List SpeedTestEvent) : Option Bool := (log.filterMap SpeedTestEvent.owes).getLast?

theorem owing_snoc (log : List SpeedTestEvent) (e : SpeedTestEvent) :
    owing (log ++ [e]) = e.owes.or (owing log) := by
  unfold owing
  rw [List.filterMap_append]
  cases owes : e.owes <;> simp [owes]

/-- If nothing is owed, a forced pass has started after every answer. -/
theorem forced_of_not_owing {log : List SpeedTestEvent} (settled : owing log ≠ some true) {i : Nat}
    {url : Option String} {running : Bool} (answered : log[i]? = some (.answered url running)) :
    ∃ j url', i < j ∧ log[j]? = some (.started (.forced url')) := by
  induction log using List.reverseRecOn with
  | nil => simp at answered
  | append_singleton log e ih =>
    rw [owing_snoc] at settled
    rcases getElem?_snoc_cases answered with ⟨old, -⟩ | ⟨rfl, -⟩
    · have bound := (List.getElem?_eq_some_iff.mp old).1
      cases owes : e.owes with
      | none =>
        rw [owes, Option.none_or] at settled
        obtain ⟨j, url', after, started⟩ := ih settled old
        have inside := (List.getElem?_eq_some_iff.mp started).1
        exact ⟨j, url', after, by rw [List.getElem?_append_left inside, started]⟩
      | some owed =>
        cases owed with
        | true => simp [owes] at settled
        | false =>
          obtain ⟨url', rfl⟩ : ∃ url', e = .started (.forced url') := by
            cases e with
            | started kind =>
              cases kind with
              | forced url' => exact ⟨url', rfl⟩
              | warmup i => cases owes
              | scheduled => cases owes
            | answered url' running' => cases owes
            | stored k url' => cases owes
            | took url' => cases owes
          exact ⟨log.length, url', bound, by simp⟩
    · simp [SpeedTestEvent.owes] at settled

/-- A forced pass that is about to start. -/
def LoopPhase.forcedStart : LoopPhase → Nat
  | .starting (.forced _) => 1
  | _ => 0

namespace SpeedTestLoop

variable {F : Type} {setup : SpeedTestSetup F}

/-- The forced passes the loop still has to start. -/
def outstanding (s : SpeedTestLoop) : Nat := s.notifications + s.phase.forcedStart

/-- The forced passes that have started and are still to start have answers of their own, and
one is still to start whenever the log says that it is owed. -/
structure Served (s : SpeedTestLoop) : Prop where
  counted : s.log.countP (·.forces.isSome) + s.outstanding ≤ s.log.countP (·.answers.isSome)
  owed : s.outstanding = 0 → owing s.log ≠ some true

theorem Served.start (setup : SpeedTestSetup F) : Served (start setup) := by
  have none : (SpeedTestLoop.start setup).outstanding = 0 := by
    unfold SpeedTestLoop.start outstanding notifications
    cases setup.auto <;> simp [LoopPhase.forcedStart]
  constructor
  · rw [none]
    exact le_refl 0
  · intro _
    simp [SpeedTestLoop.start, owing]

/-- A step that answers nothing and starts no forced pass may only merge notifications. -/
theorem Served.of_silent {s t : SpeedTestLoop} (served : Served s)
    (log : t.log = s.log ∨
      ∃ e : SpeedTestEvent, e.answers = none ∧ e.forces = none ∧ t.log = s.log ++ [e])
    (merged : t.outstanding ≤ s.outstanding) (kept : t.outstanding = 0 → s.outstanding = 0) :
    Served t := by
  have counted := served.counted
  rcases log with same | ⟨e, noAnswer, noForce, snoc⟩
  · constructor
    · rw [same]
      omega
    · intro none
      rw [same]
      exact served.owed (kept none)
  · have owes : e.owes = none := by
      cases e with
      | answered url running => cases noAnswer
      | started kind =>
        cases kind with
        | forced url => cases noForce
        | warmup i => rfl
        | scheduled => rfl
      | stored k url => rfl
      | took url => rfl
    constructor
    · rw [snoc]
      simp [noAnswer, noForce]
      omega
    · intro none
      rw [snoc, owing_snoc, owes, Option.none_or]
      exact served.owed (kept none)

/-- A request calls `notify_one` and answers: one more forced pass is outstanding, or the one
that is covers this answer too. -/
theorem Served.answer {s t : SpeedTestLoop} (served : Served s) {url : Option String}
    (log : t.log = s.log ++ [.answered url s.control.running])
    (positive : 0 < t.outstanding) (one : t.outstanding ≤ s.outstanding + 1) : Served t := by
  have counted := served.counted
  have answers : t.log.countP (·.answers.isSome) = s.log.countP (·.answers.isSome) + 1 := by
    rw [log, List.countP_append]
    rfl
  have forces : t.log.countP (·.forces.isSome) = s.log.countP (·.forces.isSome) := by
    rw [log, List.countP_append]
    rfl
  constructor <;> omega

theorem Served.step {s t : SpeedTestLoop} {a : SpeedTestAction} (served : Served s)
    (stepped : SpeedTestLoop.step setup s a = some t) : Served t := by
  cases moves_of_step stepped with
  | rejected url => exact served
  | accepted body url => exact served.of_silent (.inl rfl) le_rfl id
  | stored found => exact served.of_silent (.inr ⟨_, rfl, rfl, rfl⟩) le_rfl id
  | handedOver found phase =>
    apply served.answer rfl
    · simp [outstanding, notifications]
    · simp [outstanding, notifications, phase, LoopPhase.forcedStart]
  | permitted found phase =>
    apply served.answer rfl
    · simp [outstanding, notifications]
    · simp [outstanding, notifications]
      omega
  | postponed => exact served
  | warmupPass phase =>
    refine served.of_silent (.inl rfl) ?_ ?_ <;>
      simp [outstanding, notifications, phase, LoopPhase.forcedStart]
  | scheduledPass phase =>
    refine served.of_silent (.inl rfl) ?_ ?_ <;>
      simp [outstanding, notifications, phase, LoopPhase.forcedStart]
  | @started kind phase =>
    cases kind with
    | forced url =>
      have counted := served.counted
      constructor
      · rw [List.countP_append, List.countP_append]
        simp [outstanding, notifications, phase, LoopPhase.forcedStart] at counted ⊢
        change _ + 1 + _ ≤ _ + 0
        omega
      · intro _
        rw [owing_snoc]
        simp [SpeedTestEvent.owes]
    | warmup i =>
      refine served.of_silent (.inr ⟨_, rfl, rfl, rfl⟩) ?_ ?_ <;>
        simp [outstanding, notifications, phase, LoopPhase.forcedStart]
    | scheduled =>
      refine served.of_silent (.inr ⟨_, rfl, rfl, rfl⟩) ?_ ?_ <;>
        simp [outstanding, notifications, phase, LoopPhase.forcedStart]
  | @finished kind phase =>
    rcases afterPass_cases setup kind with next | ⟨i, next⟩ <;>
      refine served.of_silent (.inl rfl) ?_ ?_ <;>
        simp [outstanding, notifications, phase, next, LoopPhase.forcedStart]
  | wokeUp phase =>
    refine served.of_silent (.inl rfl) ?_ ?_ <;>
      simp [outstanding, notifications, phase, LoopPhase.forcedStart]
  | consumed phase permit =>
    refine served.of_silent (.inl rfl) ?_ ?_ <;>
      simp [outstanding, notifications, phase, permit, LoopPhase.forcedStart]
  | waits phase permit =>
    refine served.of_silent (.inl rfl) ?_ ?_ <;>
      simp [outstanding, notifications, phase, permit, LoopPhase.forcedStart]
  | @timedOut notified phase =>
    -- a notification handed over goes back to the permit, and may find one there
    cases notified <;> cases permit : s.control.permit <;>
      refine served.of_silent (.inl rfl) ?_ ?_ <;>
        simp [outstanding, notifications, phase, permit, LoopPhase.forcedStart]
  | resumed phase =>
    refine served.of_silent (.inl rfl) ?_ ?_ <;>
      simp [outstanding, notifications, phase, LoopPhase.forcedStart]
  | took phase =>
    refine served.of_silent (.inr ⟨_, rfl, rfl, rfl⟩) ?_ ?_ <;>
      simp [outstanding, notifications, phase, LoopPhase.forcedStart]

/-! ## The loop left to itself -/

/-- The loop left to itself can come to start a forced pass. -/
def CanForce (setup : SpeedTestSetup F) (s : SpeedTestLoop) : Prop :=
  ∃ actions t, (∀ a ∈ actions, a.ofLoop) ∧ run (step setup) s actions = some t ∧
    ∃ url, .started (.forced url) ∈ t.log.drop s.log.length

theorem CanForce.of_step {s t : SpeedTestLoop} {a : SpeedTestAction} (own : a.ofLoop)
    (stepped : step setup s a = some t) (can : CanForce setup t) : CanForce setup s := by
  obtain ⟨actions, u, all, reached, url, started⟩ := can
  refine ⟨a :: actions, u, ?_, run_cons_eq_some.mpr ⟨t, stepped, reached⟩, url, ?_⟩
  · intro b member
    rcases List.mem_cons.mp member with rfl | later
    · exact own
    · exact all b later
  · have longer : s.log.length ≤ t.log.length := by
      rcases log_of_loop_step own stepped with log | ⟨-, log | ⟨kind, log⟩⟩ <;> simp [log]
    exact List.drop_subset_drop_left _ longer started

theorem canForce_of_starting {s : SpeedTestLoop} {url : Option String}
    (phase : s.phase = .starting (.forced url)) : CanForce setup s := by
  have started : step setup s .startPass = some { s with
      control := { s.control with running := true }
      phase := .running (.forced url)
      log := s.log ++ [.started (.forced url)] } := by
    simp [step, phase]
  refine ⟨[.startPass], _, ?_, run_cons_eq_some.mpr ⟨_, started, rfl⟩, url, by simp⟩
  intro a member
  rw [List.mem_singleton.mp member]
  rfl

/-- Once it takes an override it runs the pass. -/
theorem canForce_of_canTake {s : SpeedTestLoop} (can : CanTake setup s) : CanForce setup s := by
  obtain ⟨actions, t, own, reached, x, taken⟩ := can
  induction actions generalizing s with
  | nil =>
    obtain rfl : s = t := by simpa using reached
    simp at taken
  | cons a actions ih =>
    obtain ⟨u, stepped, rest⟩ := run_cons_eq_some.mp reached
    have first : a.ofLoop := own a (by simp)
    have later : ∀ b ∈ actions, b.ofLoop := fun b member => own b (by simp [member])
    refine .of_step first stepped ?_
    obtain ⟨events, log, -⟩ := log_of_loop_run later rest
    -- what `u` and `t` have in common beyond the log of `s` is no take, or is this one
    cases moves_of_step stepped with
    | rejected url => cases first
    | accepted body url => cases first
    | stored found => cases first
    | handedOver found phase => cases first
    | permitted found phase => cases first
    | took phase => exact canForce_of_starting rfl
    | started phase =>
      refine ih later rest ?_
      simpa [log] using taken
    | postponed => exact ih later rest taken
    | warmupPass phase => exact ih later rest taken
    | scheduledPass phase => exact ih later rest taken
    | finished phase => exact ih later rest taken
    | wokeUp phase => exact ih later rest taken
    | consumed phase permit => exact ih later rest taken
    | waits phase permit => exact ih later rest taken
    | timedOut phase => exact ih later rest taken
    | resumed phase => exact ih later rest taken

/-- No permit is left unused while the loop waits for one. -/
def PermitUsed (s : SpeedTestLoop) : Prop :=
  s.phase = .waiting false → s.control.permit = false

theorem PermitUsed.step {s t : SpeedTestLoop} {a : SpeedTestAction} (used : PermitUsed s)
    (stepped : SpeedTestLoop.step setup s a = some t) : PermitUsed t := by
  unfold PermitUsed at used ⊢
  cases moves_of_step stepped with
  | rejected url => exact used
  | accepted body url => exact used
  | stored found => exact used
  | handedOver found phase => simp
  | permitted found phase => exact fun waiting => absurd waiting phase
  | postponed => exact used
  | warmupPass phase => simp
  | scheduledPass phase => simp
  | started phase => simp
  | @finished kind phase => rcases afterPass_cases setup kind with next | ⟨i, next⟩ <;> simp [next]
  | wokeUp phase => simp
  | consumed phase permit => simp
  | waits phase permit => exact fun _ => permit
  | timedOut phase => simp
  | resumed phase => simp
  | took phase => simp

/-- In every interleaving the loop runs at most as many forced passes as requests were
answered, and every answer is followed by one: it has started since, or the loop left to
itself can come to start it. -/
theorem forced_of_answered (setup : SpeedTestSetup F) (actions : List SpeedTestAction)
    (t : SpeedTestLoop) (reached : run (step setup) (start setup) actions = some t) :
    t.log.countP (·.forces.isSome) ≤ t.log.countP (·.answers.isSome) ∧
    ∀ (i : Nat) url running, t.log[i]? = some (.answered url running) →
      (∃ j url', i < j ∧ t.log[j]? = some (.started (.forced url'))) ∨ CanForce setup t := by
  have served : Served t := by
    apply run_invariant ?_ (Served.start setup) reached
    intro s a u served stepped
    exact served.step stepped
  have used : PermitUsed t := by
    apply run_invariant ?_ ?_ reached
    · intro s a u used stepped
      exact used.step stepped
    · exact fun _ => rfl
  refine ⟨by have := served.counted; omega, ?_⟩
  intro i url running answered
  by_cases settled : t.outstanding = 0
  · exact .inl (forced_of_not_owing (served.owed settled) answered)
  · right
    by_cases left : 0 < t.notifications
    · exact canForce_of_canTake (canTake_of_notifications left used)
    · have starting : t.phase.forcedStart ≠ 0 := by
        unfold outstanding at settled
        omega
      obtain ⟨url', phase⟩ : ∃ url', t.phase = .starting (.forced url') := by
        unfold LoopPhase.forcedStart at starting
        split at starting
        · rename_i url' phase
          exact ⟨url', phase⟩
        · exact absurd rfl starting
      exact canForce_of_starting phase

/-- A request that is handed over while the timer wins, and one that comes before the
scheduled pass: one forced pass is to serve both. -/
theorem forced_of_answered_timer :
    ∃ t, run (step { manualSetup with auto := true }) (start { manualSetup with auto := true })
        [.checkIdle false, .startPass, .finishPass, .listen, .request none, .request none,
          .store 0, .notify 0, .timer, .store 1, .notify 1, .checkIdle false, .startPass] =
          some t ∧
      t.log.countP (·.answers.isSome) = 2 ∧ t.outstanding = 1 ∧
      ∀ (i : Nat) url running, t.log[i]? = some (.answered url running) →
        (∃ j url', i < j ∧ t.log[j]? = some (.started (.forced url'))) ∨
          CanForce { manualSetup with auto := true } t := by
  obtain ⟨t, reached, two, one⟩ : ∃ t, run (step { manualSetup with auto := true })
      (start { manualSetup with auto := true })
      [.checkIdle false, .startPass, .finishPass, .listen, .request none, .request none,
        .store 0, .notify 0, .timer, .store 1, .notify 1, .checkIdle false, .startPass] =
        some t ∧ t.log.countP (·.answers.isSome) = 2 ∧ t.outstanding = 1 := ⟨_, rfl, rfl, rfl⟩
  exact ⟨t, reached, two, one, (forced_of_answered { manualSetup with auto := true }
    [.checkIdle false, .startPass, .finishPass, .listen, .request none, .request none,
      .store 0, .notify 0, .timer, .store 1, .notify 1, .checkIdle false, .startPass]
    t reached).2⟩

end SpeedTestLoop
end XboxProxy
