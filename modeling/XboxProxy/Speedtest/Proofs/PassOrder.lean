import XboxProxy.Speedtest.Proofs.ManualPass

/-!
# Which passes the loop runs, and when

Whatever the requests do, the warm-up passes come first, each once and in their order; without
automatic passes every pass is forced. An automatic pass starts right after the loop has found
the proxy idle and a forced one right after `take_url`. No notification is lost: a loop with
nothing left to consume has run a forced pass after every answer.
-/

namespace XboxProxy
open Misc

/-- The kinds of the passes started so far. -/
def startedKinds (log : List SpeedTestEvent) : List PassKind :=
  log.filterMap SpeedTestEvent.starts

/-- The passes the loop may run once the warm-up is over. -/
def PassKind.AfterWarmup (auto : Bool) : PassKind → Prop
  | .warmup _ => False
  | .scheduled => auto = true
  | .forced _ => True

/-- The phases after the warm-up. -/
def LoopPhase.Settled (auto : Bool) : LoopPhase → Prop
  | .warmupIdle _ | .sleeping _ => False
  | .listening | .waiting _ | .woken => True
  | .due => auto = true
  | .starting kind | .running kind => kind.AfterWarmup auto

namespace SpeedTestLoop

variable {F : Type} {setup : SpeedTestSetup F}

/-! ## The order of the passes -/

/-- The warm-up passes of a setup. -/
def warmups (setup : SpeedTestSetup F) : List PassKind :=
  if setup.auto then (List.range setup.warmup).map .warmup else []

/-- The passes started so far, as the phase tells them: the warm-up passes before pass `i`,
those up to pass `i`, or all of them and others after them. -/
inductive InOrder (setup : SpeedTestSetup F) : LoopPhase → List PassKind → Prop
  | before {i : Nat} {phase : LoopPhase} (auto : setup.auto = true) (bound : i < setup.warmup)
      (here : phase = .warmupIdle i ∨ phase = .starting (.warmup i)) :
      InOrder setup phase ((List.range i).map .warmup)
  | within {i : Nat} {phase : LoopPhase} (auto : setup.auto = true) (bound : i < setup.warmup)
      (here : phase = .running (.warmup i) ∨ phase = .sleeping i ∧ i + 1 < setup.warmup) :
      InOrder setup phase ((List.range (i + 1)).map .warmup)
  | after {phase : LoopPhase} (settled : phase.Settled setup.auto) (later : List PassKind)
      (all : ∀ kind ∈ later, kind.AfterWarmup setup.auto) :
      InOrder setup phase (warmups setup ++ later)

theorem InOrder.start (setup : SpeedTestSetup F) :
    InOrder setup (start setup).phase (startedKinds (start setup).log) := by
  unfold SpeedTestLoop.start
  cases auto : setup.auto with
  | true =>
    have bound : 0 < setup.warmup := by
      unfold SpeedTestSetup.warmup
      omega
    exact .before auto bound (.inl (by simp))
  | false =>
    have none : warmups setup = [] := by simp [warmups, auto]
    have settled : LoopPhase.Settled setup.auto .listening := trivial
    have order := InOrder.after settled [] (by simp)
    rw [none] at order
    simpa [startedKinds] using order

/-- A step that starts no pass keeps the order if the loop stays between the same passes. -/
theorem InOrder.of_settled {phase phase' : LoopPhase} {kinds : List PassKind}
    (order : InOrder setup phase kinds) (settled : phase.Settled setup.auto)
    (settled' : phase'.Settled setup.auto) : InOrder setup phase' kinds := by
  cases order with
  | before auto bound here => rcases here with rfl | rfl <;> exact settled.elim
  | within auto bound here => rcases here with rfl | ⟨rfl, -⟩ <;> exact settled.elim
  | after _ later all => exact .after settled' later all

theorem startedKinds_snoc (log : List SpeedTestEvent) (e : SpeedTestEvent) :
    startedKinds (log ++ [e]) = startedKinds log ++ e.starts.toList := by
  cases h : e.starts <;> simp [startedKinds, h]

theorem InOrder.step {s t : SpeedTestLoop} {a : SpeedTestAction}
    (order : InOrder setup s.phase (startedKinds s.log))
    (stepped : SpeedTestLoop.step setup s a = some t) :
    InOrder setup t.phase (startedKinds t.log) := by
  cases moves_of_step stepped with
  | rejected url => exact order
  | accepted body url => exact order
  | stored found =>
    simp only [startedKinds_snoc, SpeedTestEvent.starts, Option.toList_none, List.append_nil]
    exact order
  | handedOver found phase =>
    simp only [startedKinds_snoc, SpeedTestEvent.starts, Option.toList_none, List.append_nil]
    rw [phase] at order
    exact order.of_settled trivial trivial
  | permitted found phase =>
    simp only [startedKinds_snoc, SpeedTestEvent.starts, Option.toList_none, List.append_nil]
    exact order
  | postponed => exact order
  | @warmupPass i phase =>
    rw [phase] at order
    generalize startedKinds s.log = kinds at order
    cases order with
    | @before j _ auto bound here =>
      obtain rfl : i = j := by simpa using here
      exact .before auto bound (.inr rfl)
    | within auto bound here => simp at here
    | after settled => exact settled.elim
  | scheduledPass phase =>
    rw [phase] at order
    generalize startedKinds s.log = kinds at order
    cases order with
    | before auto bound here => simp at here
    | within auto bound here => simp at here
    | after settled later all =>
      refine .after ?_ later all
      exact settled
  | @started kind phase =>
    rw [phase] at order
    simp only [startedKinds_snoc, SpeedTestEvent.starts, Option.toList_some]
    generalize startedKinds s.log = kinds at order
    cases order with
    | @before i _ auto bound here =>
      obtain rfl : kind = .warmup i := by simpa using here
      have next : (List.range i).map PassKind.warmup ++ [.warmup i] =
          (List.range (i + 1)).map .warmup := by rw [List.range_succ, List.map_append]; rfl
      rw [next]
      exact .within auto bound (.inl rfl)
    | within auto bound here => simp at here
    | after settled later all =>
      rw [List.append_assoc]
      refine .after ?_ _ ?_
      · exact settled
      · intro kind' member
        rcases List.mem_append.mp member with member | member
        · exact all kind' member
        · obtain rfl := List.mem_singleton.mp member
          exact settled
  | @finished kind phase =>
    rw [phase] at order
    simp only
    generalize startedKinds s.log = kinds at order ⊢
    cases order with
    | before auto bound here => simp at here
    | @within i _ auto bound here =>
      obtain rfl : kind = .warmup i := by simpa using here
      by_cases more : i + 1 < setup.warmup
      · rw [afterPass, if_pos more]
        exact .within auto bound (.inr ⟨rfl, more⟩)
      · -- the last warm-up pass
        have all : (List.range (i + 1)).map PassKind.warmup = warmups setup ++ [] := by
          have last : i + 1 = setup.warmup := by omega
          rw [warmups, if_pos auto, last, List.append_nil]
        rw [afterPass, if_neg more, all]
        refine .after ?_ [] (by simp)
        exact trivial
    | after settled later all =>
      refine .after ?_ later all
      cases kind with
      | warmup i => exact settled.elim
      | scheduled => exact trivial
      | forced url => exact trivial
  | @wokeUp i phase =>
    rw [phase] at order
    generalize startedKinds s.log = kinds at order
    cases order with
    | before auto bound here => simp at here
    | @within j _ auto bound here =>
      obtain ⟨rfl, more⟩ : i = j ∧ j + 1 < setup.warmup := by simpa using here
      exact .before auto more (.inl rfl)
    | after settled => exact settled.elim
  | consumed phase permit =>
    rw [phase] at order
    exact order.of_settled trivial trivial
  | waits phase permit =>
    rw [phase] at order
    exact order.of_settled trivial trivial
  | timedOut phase =>
    have auto : setup.auto = true := by
      simp only [SpeedTestLoop.step, phase, Option.ite_none_right_eq_some] at stepped
      exact stepped.1
    rw [phase] at order
    exact order.of_settled trivial auto
  | resumed phase =>
    rw [phase] at order
    exact order.of_settled trivial trivial
  | took phase =>
    simp only [startedKinds_snoc, SpeedTestEvent.starts, Option.toList_none, List.append_nil]
    rw [phase] at order
    exact order.of_settled trivial trivial

/-! ## What comes right before a pass -/

/-- The last step of a run that the loop itself took. -/
def lastLoopStep (actions : List SpeedTestAction) : Option SpeedTestAction :=
  actions.reverse.find? SpeedTestAction.ofLoop

theorem lastLoopStep_snoc (actions : List SpeedTestAction) (a : SpeedTestAction) :
    lastLoopStep (actions ++ [a]) = if a.ofLoop then some a else lastLoopStep actions := by
  cases own : a.ofLoop <;> simp [lastLoopStep, own]

/-- A pass that is about to start was decided on in the step before: an automatic one by a
reading of `is_busy`, a forced one by `take_url`. -/
theorem lastLoopStep_of_starting {actions : List SpeedTestAction} {t : SpeedTestLoop}
    {kind : PassKind} (reached : run (step setup) (start setup) actions = some t)
    (phase : t.phase = .starting kind) :
    lastLoopStep actions = some (if kind.isForced then .takeUrl else .checkIdle false) := by
  induction actions using List.reverseRecOn generalizing t kind with
  | nil =>
    obtain rfl := Option.some.inj reached
    unfold start at phase
    cases auto : setup.auto <;> simp [auto] at phase
  | append_singleton actions a ih =>
    obtain ⟨s, before, stepped⟩ := run_snoc_eq_some.mp reached
    rw [lastLoopStep_snoc]
    cases moves_of_step stepped with
    | rejected url => exact ih before phase
    | accepted body url => exact ih before phase
    | stored found => exact ih before phase
    | handedOver found waiting => cases phase
    | permitted found waiting => exact ih before phase
    | postponed =>
      -- `is_busy` is not read in this phase
      simp [step, phase] at stepped
    | warmupPass idle =>
      obtain rfl : _ = kind := LoopPhase.starting.inj phase
      rfl
    | scheduledPass due =>
      obtain rfl : _ = kind := LoopPhase.starting.inj phase
      rfl
    | started starting => cases phase
    | @finished kind' running =>
      rcases afterPass_cases setup kind' with listening | ⟨i, sleeping⟩
      · cases listening.symm.trans phase
      · cases sleeping.symm.trans phase
    | wokeUp sleeping => cases phase
    | consumed listening permit => cases phase
    | waits listening permit => cases phase
    | timedOut waiting => cases phase
    | resumed waiting => cases phase
    | took woken =>
      obtain rfl : _ = kind := LoopPhase.starting.inj phase
      rfl

/-- `running` is set exactly while a pass runs. -/
def FlagAgrees (s : SpeedTestLoop) : Prop :=
  s.control.running = true ↔ ∃ kind, s.phase = .running kind

theorem FlagAgrees.step {s t : SpeedTestLoop} {a : SpeedTestAction} (agrees : FlagAgrees s)
    (stepped : SpeedTestLoop.step setup s a = some t) : FlagAgrees t := by
  unfold FlagAgrees at agrees ⊢
  cases moves_of_step stepped with
  | rejected url => exact agrees
  | accepted body url => exact agrees
  | stored found => exact agrees
  | handedOver found phase => simpa [phase] using agrees
  | permitted found phase => exact agrees
  | postponed => exact agrees
  | warmupPass phase => simpa [phase] using agrees
  | scheduledPass phase => simpa [phase] using agrees
  | started phase => simp
  | @finished kind phase => rcases afterPass_cases setup kind with next | ⟨i, next⟩ <;> simp [next]
  | wokeUp phase => simpa [phase] using agrees
  | consumed phase permit => simpa [phase] using agrees
  | waits phase permit => simpa [phase] using agrees
  | timedOut phase => simpa [phase] using agrees
  | resumed phase => simpa [phase] using agrees
  | took phase => simpa [phase] using agrees

/-- In every interleaving: the passes are the warm-up passes, each once and in their order,
and after them forced ones and, in automatic mode, scheduled ones; `running` is set exactly
while a pass runs; and the loop starts an automatic pass only right after it read that the
proxy is idle, a forced one right after it took the override. -/
theorem passes_of_run (setup : SpeedTestSetup F) (actions : List SpeedTestAction)
    (t : SpeedTestLoop) (reached : run (step setup) (start setup) actions = some t) :
    (∃ later, (∀ kind ∈ later, kind.AfterWarmup setup.auto) ∧
      startedKinds t.log <+: warmups setup ++ later) ∧
    (t.control.running = true ↔ ∃ kind, t.phase = .running kind) ∧
    ∀ kind, t.phase = .starting kind →
      lastLoopStep actions = some (if kind.isForced then .takeUrl else .checkIdle false) := by
  have inv : InOrder setup t.phase (startedKinds t.log) ∧ FlagAgrees t := by
    apply run_invariant ?_ ?_ reached
    · intro s a u inv stepped
      exact ⟨inv.1.step stepped, inv.2.step stepped⟩
    · refine ⟨InOrder.start setup, ?_⟩
      unfold FlagAgrees start
      cases setup.auto <;> simp
  refine ⟨?_, inv.2, fun kind phase => lastLoopStep_of_starting reached phase⟩
  obtain ⟨order, -⟩ := inv
  have early : ∀ n ≤ setup.warmup, setup.auto = true →
      (List.range n).map PassKind.warmup <+: warmups setup ++ [] := by
    intro n le auto
    rw [List.append_nil, warmups, if_pos auto]
    obtain ⟨m, total⟩ := Nat.exists_eq_add_of_le le
    rw [total, List.range_add, List.map_append]
    exact List.prefix_append _ _
  generalize startedKinds t.log = kinds at order
  cases order with
  | before auto bound here => exact ⟨[], by simp, early _ (by omega) auto⟩
  | within auto bound here => exact ⟨[], by simp, early _ bound auto⟩
  | after settled later all => exact ⟨later, all, List.prefix_refl _⟩

/-- The program as it is by default, with a request during the warm-up. -/
theorem passes_of_run_default :
    ∃ t, run (step { manualSetup with auto := true, warmupPasses := 2 })
        (start { manualSetup with auto := true, warmupPasses := 2 })
        [.checkIdle true, .request none, .store 0, .notify 0, .checkIdle false, .startPass,
          .finishPass, .wakeUp, .checkIdle false, .startPass, .finishPass, .listen, .takeUrl,
          .startPass] = some t ∧
      startedKinds t.log = [.warmup 0, .warmup 1, .forced none] ∧
      ∃ later, (∀ kind ∈ later, kind.AfterWarmup true) ∧
        startedKinds t.log <+: [.warmup 0, .warmup 1] ++ later := by
  refine ⟨_, rfl, by decide, ?_⟩
  exact (passes_of_run { manualSetup with auto := true, warmupPasses := 2 }
    [.checkIdle true, .request none, .store 0, .notify 0, .checkIdle false, .startPass,
      .finishPass, .wakeUp, .checkIdle false, .startPass, .finishPass, .listen, .takeUrl,
      .startPass] _ rfl).1

end SpeedTestLoop
end XboxProxy
