import XboxProxy.Misc.ListUpdate
import XboxProxy.Speedtest.Control

/-!
# Answered requests that are still to be served

A request is served when the loop takes its override after it was stored, and is safe until
then while `pending_url` holds its override and a notification is left for the loop. Another
request that stores a different override in between drops it.
-/

namespace XboxProxy
open Misc

/-- The loop took `url` after request `k` had stored it. -/
def TakenAfter (k : Nat) (url : Option String) (log : List SpeedTestEvent) : Prop :=
  .took url ∈ log.dropWhile fun e => decide (e ≠ .stored k url)

instance (k : Nat) (url : Option String) (log : List SpeedTestEvent) :
    Decidable (TakenAfter k url log) :=
  inferInstanceAs (Decidable (_ ∈ _))

/-- What was taken stays taken. -/
theorem TakenAfter.snoc {k : Nat} {url : Option String} {log : List SpeedTestEvent}
    (taken : TakenAfter k url log) (e : SpeedTestEvent) : TakenAfter k url (log ++ [e]) := by
  unfold TakenAfter at taken ⊢
  rw [List.dropWhile_append]
  split
  · rename_i empty
    rw [List.isEmpty_iff.mp empty] at taken
    cases taken
  · exact List.mem_append_left _ taken

theorem takenAfter_snoc {k : Nat} {url : Option String} {log : List SpeedTestEvent}
    (stored : .stored k url ∈ log) (e : SpeedTestEvent) :
    TakenAfter k url (log ++ [e]) ↔ TakenAfter k url log ∨ e = .took url := by
  have nonempty : (log.dropWhile fun e => decide (e ≠ .stored k url)).isEmpty = false := by
    rw [List.isEmpty_eq_false_iff, Ne, List.dropWhile_eq_nil_iff]
    intro all
    simpa using all _ stored
  unfold TakenAfter
  rw [List.dropWhile_append, nonempty, if_neg Bool.false_ne_true, List.mem_append,
    List.mem_singleton]
  exact or_congr Iff.rfl eq_comm

namespace SpeedTestLoop

variable {F : Type} {setup : SpeedTestSetup F}

/-! ## What the loop takes next -/

/-- The first override taken between two states of a run. -/
def firstTake (s t : SpeedTestLoop) : Option (Option String) :=
  (t.log.drop s.log.length).findSome? SpeedTestEvent.takes

/-- The loop left to itself takes `url` next: it can come to take an override, and the first
one it takes is `url`. -/
def WillTake (setup : SpeedTestSetup F) (s : SpeedTestLoop) (url : Option String) : Prop :=
  (∃ actions t, (∀ a ∈ actions, a.ofLoop) ∧ run (step setup) s actions = some t ∧
    firstTake s t = some url) ∧
  ∀ actions t, (∀ a ∈ actions, a.ofLoop) → run (step setup) s actions = some t →
    ∀ x, firstTake s t = some x → x = url

/-- A step of the loop takes the slot, or leaves it and takes nothing. -/
theorem log_of_loop_step {s t : SpeedTestLoop} {a : SpeedTestAction} (own : a.ofLoop)
    (stepped : step setup s a = some t) :
    t.log = s.log ++ [.took s.control.pendingUrl] ∨
      (t.control.pendingUrl = s.control.pendingUrl ∧
        (t.log = s.log ∨ ∃ kind, t.log = s.log ++ [.started kind])) := by
  cases moves_of_step stepped with
  | rejected url => cases own
  | accepted body url => cases own
  | stored found => cases own
  | handedOver found phase => cases own
  | permitted found phase => cases own
  | started phase => exact .inr ⟨rfl, .inr ⟨_, rfl⟩⟩
  | took phase => exact .inl rfl
  | postponed => exact .inr ⟨rfl, .inl rfl⟩
  | warmupPass phase => exact .inr ⟨rfl, .inl rfl⟩
  | scheduledPass phase => exact .inr ⟨rfl, .inl rfl⟩
  | finished phase => exact .inr ⟨rfl, .inl rfl⟩
  | wokeUp phase => exact .inr ⟨rfl, .inl rfl⟩
  | consumed phase permit => exact .inr ⟨rfl, .inl rfl⟩
  | waits phase permit => exact .inr ⟨rfl, .inl rfl⟩
  | timedOut phase => exact .inr ⟨rfl, .inl rfl⟩
  | resumed phase => exact .inr ⟨rfl, .inl rfl⟩

/-- What a run of the loop alone adds to the log starts, among the takes, with the slot. -/
theorem log_of_loop_run {s t : SpeedTestLoop} {actions : List SpeedTestAction}
    (own : ∀ a ∈ actions, a.ofLoop) (reached : run (step setup) s actions = some t) :
    ∃ events, t.log = s.log ++ events ∧
      ∀ x, events.findSome? SpeedTestEvent.takes = some x → x = s.control.pendingUrl := by
  induction actions generalizing s with
  | nil =>
    obtain rfl : s = t := by simpa using reached
    exact ⟨[], by simp, by simp⟩
  | cons a actions ih =>
    obtain ⟨u, stepped, rest⟩ := run_cons_eq_some.mp reached
    obtain ⟨events, log, first⟩ := ih (fun b member => own b (by simp [member])) rest
    rcases log_of_loop_step (own a (by simp)) stepped with took | ⟨slot, same | ⟨kind, started⟩⟩
    · refine ⟨.took s.control.pendingUrl :: events, by simp [log, took], fun x taken => ?_⟩
      change some s.control.pendingUrl = some x at taken
      exact (Option.some.inj taken).symm
    · exact ⟨events, by rw [log, same], fun x taken => (first x taken).trans slot⟩
    · refine ⟨.started kind :: events, by simp [log, started], fun x taken => ?_⟩
      change events.findSome? SpeedTestEvent.takes = some x at taken
      exact (first x taken).trans slot

theorem firstTake_of_loop_run {s t : SpeedTestLoop} {actions : List SpeedTestAction}
    (own : ∀ a ∈ actions, a.ofLoop) (reached : run (step setup) s actions = some t)
    (x : Option String) (taken : firstTake s t = some x) : x = s.control.pendingUrl := by
  obtain ⟨events, log, first⟩ := log_of_loop_run own reached
  apply first x
  simpa [firstTake, log] using taken

/-- The loop left to itself can come to take an override. -/
def CanTake (setup : SpeedTestSetup F) (s : SpeedTestLoop) : Prop :=
  ∃ actions t, (∀ a ∈ actions, a.ofLoop) ∧ run (step setup) s actions = some t ∧
    ∃ x, .took x ∈ t.log.drop s.log.length

theorem CanTake.of_step {s t : SpeedTestLoop} {a : SpeedTestAction} (own : a.ofLoop)
    (stepped : step setup s a = some t) (can : CanTake setup t) : CanTake setup s := by
  obtain ⟨actions, u, all, reached, x, taken⟩ := can
  refine ⟨a :: actions, u, ?_, run_cons_eq_some.mpr ⟨t, stepped, reached⟩, x, ?_⟩
  · intro b member
    rcases List.mem_cons.mp member with rfl | later
    · exact own
    · exact all b later
  · have longer : s.log.length ≤ t.log.length := by
      rcases log_of_loop_step own stepped with log | ⟨-, log | ⟨kind, log⟩⟩ <;> simp [log]
    exact List.drop_subset_drop_left _ longer taken

theorem canTake_of_woken {s : SpeedTestLoop} (phase : s.phase = .woken) : CanTake setup s := by
  have stepped : step setup s .takeUrl = some { s with
      control := { s.control with pendingUrl := none }
      phase := .starting (.forced s.control.pendingUrl)
      log := s.log ++ [.took s.control.pendingUrl] } := by
    simp only [step]
    rw [if_pos phase]
  refine ⟨[.takeUrl], _, by simp [SpeedTestAction.ofLoop],
    run_cons_eq_some.mpr ⟨_, stepped, rfl⟩, s.control.pendingUrl, ?_⟩
  simp

theorem canTake_of_listening {s : SpeedTestLoop} (phase : s.phase = .listening)
    (permit : s.control.permit = true) : CanTake setup s := by
  have stepped : step setup s .listen = some { s with
      control := { s.control with permit := false }
      phase := .woken } := by
    simp [step, phase, permit]
  exact .of_step rfl stepped (canTake_of_woken rfl)

/-- A pass that starts comes to its end. -/
theorem canTake_of_starting {s : SpeedTestLoop} {kind : PassKind} (phase : s.phase = .starting kind)
    (after : CanTake setup { s with
      control := { s.control with running := false }
      phase := afterPass setup kind
      log := s.log ++ [.started kind] }) : CanTake setup s := by
  have started : step setup s .startPass = some { s with
      control := { s.control with running := true }
      phase := .running kind
      log := s.log ++ [.started kind] } := by
    simp [step, phase]
  have finished : step setup { s with
      control := { s.control with running := true }
      phase := .running kind
      log := s.log ++ [.started kind] } .finishPass = some { s with
        control := { s.control with running := false }
        phase := afterPass setup kind
        log := s.log ++ [.started kind] } := rfl
  exact .of_step rfl started (.of_step rfl finished after)

theorem canTake_of_warmupIdle {s : SpeedTestLoop} {i : Nat} (phase : s.phase = .warmupIdle i)
    (after : CanTake setup { s with
      control := { s.control with running := false }
      phase := afterPass setup (.warmup i)
      log := s.log ++ [.started (.warmup i)] }) : CanTake setup s := by
  have idle : step setup s (.checkIdle false) = some { s with phase := .starting (.warmup i) } := by
    simp [step, phase]
  exact .of_step rfl idle (canTake_of_starting rfl after)

theorem canTake_of_sleeping {s : SpeedTestLoop} {i : Nat} (phase : s.phase = .sleeping i)
    (after : CanTake setup { s with
      control := { s.control with running := false }
      phase := afterPass setup (.warmup (i + 1))
      log := s.log ++ [.started (.warmup (i + 1))] }) : CanTake setup s := by
  have woken : step setup s .wakeUp = some { s with phase := .warmupIdle (i + 1) } := by
    simp [step, phase]
  exact .of_step rfl woken (canTake_of_warmupIdle rfl after)

/-- The warm-up ends: by induction on the passes that are left of it. -/
theorem canTake_of_afterWarmup (n : Nat) {i : Nat} (left : setup.warmup - i ≤ n)
    {s : SpeedTestLoop} (phase : s.phase = afterPass setup (.warmup i))
    (permit : s.control.permit = true) : CanTake setup s := by
  induction n generalizing i s with
  | zero =>
    simp only [afterPass] at phase
    rw [if_neg (by omega)] at phase
    exact canTake_of_listening phase permit
  | succ n ih =>
    simp only [afterPass] at phase
    by_cases more : i + 1 < setup.warmup
    · rw [if_pos more] at phase
      refine canTake_of_sleeping phase (ih (i := i + 1) ?_ rfl permit)
      omega
    · rw [if_neg more] at phase
      exact canTake_of_listening phase permit

/-- A pass ends in the next warm-up pass or at the `select!`. -/
theorem canTake_of_afterPass {s : SpeedTestLoop} (kind : PassKind)
    (phase : s.phase = afterPass setup kind) (permit : s.control.permit = true) :
    CanTake setup s := by
  cases kind with
  | warmup i => exact canTake_of_afterWarmup _ (le_refl _) phase permit
  | scheduled => exact canTake_of_listening phase permit
  | forced url => exact canTake_of_listening phase permit

/-- A notification that is left wakes the loop sooner or later. -/
theorem canTake_of_notifications {s : SpeedTestLoop} (left : 0 < s.notifications)
    (waiting : s.phase = .waiting false → s.control.permit = false) : CanTake setup s := by
  have permit_of : s.phase ≠ .waiting true → s.phase ≠ .woken → s.control.permit = true := by
    intro unheld unwoken
    cases permit : s.control.permit with
    | true => rfl
    | false => simp [notifications, permit, unheld, unwoken] at left
  cases phase : s.phase with
  | woken => exact canTake_of_woken phase
  | waiting notified =>
    cases notified with
    | true =>
      have resumed : step setup s .resume = some { s with phase := .woken } := by
        simp [step, phase]
      exact .of_step rfl resumed (canTake_of_woken rfl)
    | false =>
      have permit := permit_of (by simp [phase]) (by simp [phase])
      rw [waiting phase] at permit
      cases permit
  | listening => exact canTake_of_listening phase (permit_of (by simp [phase]) (by simp [phase]))
  | warmupIdle i =>
    have permit := permit_of (by simp [phase]) (by simp [phase])
    exact canTake_of_warmupIdle phase (canTake_of_afterPass (.warmup i) rfl permit)
  | sleeping i =>
    have permit := permit_of (by simp [phase]) (by simp [phase])
    exact canTake_of_sleeping phase (canTake_of_afterPass (.warmup (i + 1)) rfl permit)
  | due =>
    have permit := permit_of (by simp [phase]) (by simp [phase])
    have idle : step setup s (.checkIdle false) =
        some { s with phase := .starting .scheduled } := by
      simp [step, phase]
    exact .of_step rfl idle (canTake_of_starting rfl (canTake_of_listening rfl permit))
  | starting kind =>
    have permit := permit_of (by simp [phase]) (by simp [phase])
    exact canTake_of_starting phase (canTake_of_afterPass kind rfl permit)
  | running kind =>
    have permit := permit_of (by simp [phase]) (by simp [phase])
    have finished : step setup s .finishPass = some { s with
        control := { s.control with running := false }
        phase := afterPass setup kind } := by
      simp [step, phase]
    exact .of_step rfl finished (canTake_of_afterPass kind rfl permit)

theorem willTake_of_notifications {s : SpeedTestLoop} (left : 0 < s.notifications)
    (waiting : s.phase = .waiting false → s.control.permit = false) :
    WillTake setup s s.control.pendingUrl := by
  refine ⟨?_, fun actions t own reached => firstTake_of_loop_run own reached⟩
  have can : CanTake setup s := canTake_of_notifications left waiting
  obtain ⟨actions, t, own, reached, x, taken⟩ := can
  refine ⟨actions, t, own, reached, ?_⟩
  have some_take : (firstTake s t).isSome := by
    rw [firstTake, List.findSome?_isSome_iff]
    exact ⟨_, taken, rfl⟩
  obtain ⟨y, first⟩ := Option.isSome_iff_exists.mp some_take
  rw [first, firstTake_of_loop_run own reached y first]

/-! ## What the requests rely on -/

/-- Until it is served, the override of a stored request is in the slot, and once it has
answered a notification is left for it. -/
structure Kept (s : SpeedTestLoop) : Prop where
  stored : ∀ k r, s.requests[k]? = some r → r.stage ≠ .accepted → .stored k r.url ∈ s.log
  slot : ∀ k r, s.requests[k]? = some r → r.stage ≠ .accepted → ¬ TakenAfter k r.url s.log →
    r.url = s.control.pendingUrl
  notified : ∀ k r, s.requests[k]? = some r → r.stage = .answered →
    ¬ TakenAfter k r.url s.log → 0 < s.notifications
  waiting : s.phase = .waiting false → s.control.permit = false

/-- The stores that drop nothing: every request that has stored its override, and has not
had it taken since, asked for the same one. -/
def StoresInOrder (s : SpeedTestLoop) : SpeedTestAction → Prop
  | .store k => ∀ r ∈ s.requests[k]?, ∀ j < s.requests.length, ∀ other ∈ s.requests[j]?,
      other.stage ≠ .accepted → ¬ TakenAfter j other.url s.log → other.url = r.url
  | _ => True

instance (s : SpeedTestLoop) : (a : SpeedTestAction) → Decidable (s.StoresInOrder a)
  | .store k => inferInstanceAs (Decidable (∀ r ∈ s.requests[k]?, _))
  | .request _ | .takeUrl | .notify _ | .checkIdle _ | .startPass | .finishPass | .wakeUp
  | .listen | .timer | .resume => .isTrue trivial

theorem Kept.start (setup : SpeedTestSetup F) : Kept (start setup) := by
  constructor
  · intro k r found
    simp [SpeedTestLoop.start] at found
  · intro k r found
    simp [SpeedTestLoop.start] at found
  · intro k r found
    simp [SpeedTestLoop.start] at found
  · intro _
    rfl

/-- Moves of the loop that leave the slot, the requests and what was taken, and lose no
notification. -/
theorem Kept.of_phase {s t : SpeedTestLoop} (kept : Kept s) (requests : t.requests = s.requests)
    (slot : t.control.pendingUrl = s.control.pendingUrl)
    (log : t.log = s.log ∨ ∃ kind, t.log = s.log ++ [.started kind])
    (notifications : 0 < s.notifications → 0 < t.notifications)
    (waiting : t.phase = .waiting false → t.control.permit = false) : Kept t := by
  have grows : ∀ e ∈ s.log, e ∈ t.log := by
    intro e member
    rcases log with log | ⟨kind, log⟩ <;> simp [log, member]
  have untaken_before : ∀ k url, ¬ TakenAfter k url t.log → ¬ TakenAfter k url s.log := by
    intro k url untaken before
    rcases log with log | ⟨kind, log⟩
    · exact untaken (log ▸ before)
    · exact untaken (log ▸ before.snoc (.started kind))
  constructor
  · intro k r found stage
    rw [requests] at found
    exact grows _ (kept.stored k r found stage)
  · intro k r found stage untaken
    rw [requests] at found
    rw [slot]
    exact kept.slot k r found stage (untaken_before k r.url untaken)
  · intro k r found stage untaken
    rw [requests] at found
    exact notifications (kept.notified k r found stage (untaken_before k r.url untaken))
  · exact waiting

theorem Kept.accept {s : SpeedTestLoop} (kept : Kept s) (url : Option String) :
    Kept { s with requests := s.requests ++ [⟨url, .accepted⟩] } := by
  have old : ∀ (k : Nat) (r : SpeedTestRequest),
      (s.requests ++ [⟨url, .accepted⟩])[k]? = some r → r.stage ≠ .accepted →
        s.requests[k]? = some r := by
    intro k r found stage
    rcases Nat.lt_trichotomy k s.requests.length with before | here | after
    · rwa [List.getElem?_append_left before] at found
    · subst here
      obtain rfl : ⟨url, .accepted⟩ = r := by simpa using found
      exact absurd rfl stage
    · rw [List.getElem?_eq_none (by simp; omega)] at found
      cases found
  constructor
  · intro k r found stage
    exact kept.stored k r (old k r found stage) stage
  · intro k r found stage
    exact kept.slot k r (old k r found stage) stage
  · intro k r found stage
    exact kept.notified k r (old k r found (by simp [stage])) stage
  · exact kept.waiting

theorem Kept.store {s : SpeedTestLoop} (kept : Kept s) {k : Nat} {url : Option String}
    (found : s.requests[k]? = some ⟨url, .accepted⟩) (inOrder : s.StoresInOrder (.store k)) :
    Kept { s with
      control := { s.control with pendingUrl := url }
      requests := s.requests.set k ⟨url, .stored⟩
      log := s.log ++ [.stored k url] } := by
  constructor
  · intro j r other stage
    rcases getElem?_set_cases other with ⟨rfl, rfl⟩ | other
    · simp
    · exact List.mem_append_left _ (kept.stored j r other stage)
  · intro j r other stage untaken
    rcases getElem?_set_cases other with ⟨rfl, rfl⟩ | other
    · rfl
    · have bound : j < s.requests.length := (List.getElem?_eq_some_iff.mp other).1
      exact inOrder _ found j bound r other stage fun before => untaken (before.snoc _)
  · intro j r other stage untaken
    rcases getElem?_set_cases other with ⟨rfl, rfl⟩ | other
    · cases stage
    · exact kept.notified j r other stage fun before => untaken (before.snoc _)
  · exact kept.waiting

theorem Kept.notify {s : SpeedTestLoop} (kept : Kept s) {k : Nat} {url : Option String}
    (found : s.requests[k]? = some ⟨url, .stored⟩) (control : SpeedTestControl)
    (phase : LoopPhase) (slot : control.pendingUrl = s.control.pendingUrl) (running : Bool)
    (left : 0 < notifications ⟨control, phase, [], []⟩)
    (waiting : phase = .waiting false → control.permit = false) :
    Kept ⟨control, phase, s.requests.set k ⟨url, .answered⟩,
      s.log ++ [.answered url running]⟩ := by
  constructor
  · intro j r other stage
    rcases getElem?_set_cases other with ⟨rfl, rfl⟩ | other
    · exact List.mem_append_left _ (kept.stored j ⟨url, .stored⟩ found (by simp))
    · exact List.mem_append_left _ (kept.stored j r other stage)
  · intro j r other stage untaken
    simp only [slot]
    rcases getElem?_set_cases other with ⟨rfl, rfl⟩ | other
    · exact kept.slot j ⟨url, .stored⟩ found (by simp) fun before => untaken (before.snoc _)
    · exact kept.slot j r other stage fun before => untaken (before.snoc _)
  · intro _ _ _ _ _
    exact left
  · exact waiting

/-- What the loop takes serves every stored request that was not served before. -/
theorem Kept.take {s : SpeedTestLoop} (kept : Kept s) :
    Kept { s with
      control := { s.control with pendingUrl := none }
      phase := .starting (.forced s.control.pendingUrl)
      log := s.log ++ [.took s.control.pendingUrl] } := by
  have taken : ∀ j r, s.requests[j]? = some r → r.stage ≠ .accepted →
      TakenAfter j r.url (s.log ++ [.took s.control.pendingUrl]) := by
    intro j r found stage
    rw [takenAfter_snoc (kept.stored j r found stage)]
    by_cases before : TakenAfter j r.url s.log
    · exact .inl before
    · right
      rw [kept.slot j r found stage before]
  constructor
  · intro j r found stage
    exact List.mem_append_left _ (kept.stored j r found stage)
  · intro j r found stage untaken
    exact absurd (taken j r found stage) untaken
  · intro j r found stage untaken
    exact absurd (taken j r found (by simp [stage])) untaken
  · intro phase
    cases phase

theorem Kept.step {s t : SpeedTestLoop} {a : SpeedTestAction} (kept : Kept s)
    (inOrder : s.StoresInOrder a) (stepped : SpeedTestLoop.step setup s a = some t) : Kept t := by
  cases moves_of_step stepped with
  | rejected url => exact kept
  | accepted body url => exact kept.accept url
  | stored found => exact kept.store found inOrder
  | handedOver found phase =>
    refine kept.notify found s.control (.waiting true) rfl _ ?_ (by simp)
    simp [notifications]
  | permitted found phase =>
    refine kept.notify found { s.control with permit := true } s.phase rfl _ ?_ ?_
    · simp only [notifications, Bool.toNat_true]
      omega
    · intro waiting
      exact absurd waiting phase
  | postponed => exact kept
  | warmupPass phase =>
    refine kept.of_phase rfl rfl (.inl rfl) ?_ (by simp)
    simp [notifications, phase]
  | scheduledPass phase =>
    refine kept.of_phase rfl rfl (.inl rfl) ?_ (by simp)
    simp [notifications, phase]
  | started phase =>
    refine kept.of_phase rfl rfl (.inr ⟨_, rfl⟩) ?_ (by simp)
    simp [notifications, phase]
  | @finished kind phase =>
    refine kept.of_phase rfl rfl (.inl rfl) ?_ ?_
    · have held : s.notifications = s.control.permit.toNat := by simp [notifications, phase]
      rw [held]
      exact fun permit => Nat.lt_add_right _ permit
    · rcases afterPass_cases setup kind with after | ⟨i, after⟩ <;> simp [after]
  | wokeUp phase =>
    refine kept.of_phase rfl rfl (.inl rfl) ?_ (by simp)
    simp [notifications, phase]
  | consumed phase permit =>
    refine kept.of_phase rfl rfl (.inl rfl) ?_ (by simp)
    simp [notifications]
  | waits phase permit =>
    refine kept.of_phase rfl rfl (.inl rfl) ?_ (fun _ => permit)
    simp [notifications, phase]
  | @timedOut notified phase =>
    refine kept.of_phase rfl rfl (.inl rfl) ?_ (by simp)
    cases notified <;> simp [notifications, phase]
  | resumed phase =>
    refine kept.of_phase rfl rfl (.inl rfl) ?_ (by simp)
    simp [notifications]
  | took phase => exact kept.take

/-- In a run whose stores are in order, every request that answered `started: true` has had
its override taken since it stored it, or the loop takes it next. -/
theorem served_of_storesInOrder (setup : SpeedTestSetup F) (actions : List SpeedTestAction)
    (t : SpeedTestLoop)
    (inOrder : AlongSteps (step setup) StoresInOrder (start setup) actions)
    (reached : run (step setup) (start setup) actions = some t) (k : Nat) (r : SpeedTestRequest)
    (found : t.requests[k]? = some r) (answered : r.stage = .answered) :
    TakenAfter k r.url t.log ∨ WillTake setup t r.url := by
  have kept : Kept t := by
    apply run_invariant_of_alongSteps ?_ (Kept.start setup) inOrder reached
    intro s a u inv allowed stepped
    exact inv.step allowed stepped
  by_cases taken : TakenAfter k r.url t.log
  · exact .inl taken
  · right
    rw [kept.slot k r found (by simp [answered]) taken]
    exact willTake_of_notifications (kept.notified k r found answered taken) kept.waiting

/-- A request for every group, and one with a URL that stores it after the first was taken. -/
theorem served_of_storesInOrder_next :
    ∃ t, run (step manualSetup) (start manualSetup)
        [.listen, .request none, .request (some "http://cdn.example.com/test"), .store 0,
          .notify 0, .resume, .takeUrl, .store 1, .notify 1, .startPass] = some t ∧
      (TakenAfter 1 (some "http://cdn.example.com/test") t.log ∨
        WillTake manualSetup t (some "http://cdn.example.com/test")) := by
  refine ⟨_, rfl, ?_⟩
  exact served_of_storesInOrder manualSetup
    [.listen, .request none, .request (some "http://cdn.example.com/test"), .store 0,
      .notify 0, .resume, .takeUrl, .store 1, .notify 1, .startPass] _ (by decide) rfl 1
    ⟨some "http://cdn.example.com/test", .answered⟩ rfl rfl

/-- A request with a URL that is answered, and overwritten by a request for every group
before the loop has taken it. -/
theorem dropped_of_overwritten_url :
    ∃ t, run (step manualSetup) (start manualSetup)
        [.listen, .request (some "http://cdn.example.com/test"), .request none, .store 0,
          .notify 0, .store 1, .notify 1, .resume, .takeUrl, .startPass, .finishPass] = some t ∧
      t.requests[0]? = some ⟨some "http://cdn.example.com/test", .answered⟩ ∧
      ¬ TakenAfter 0 (some "http://cdn.example.com/test") t.log ∧
      ¬ WillTake manualSetup t (some "http://cdn.example.com/test") := by
  refine ⟨_, rfl, rfl, by decide, ?_⟩
  rintro ⟨⟨actions, u, own, reached, taken⟩, -⟩
  have slot := firstTake_of_loop_run own reached _ taken
  cases slot

end SpeedTestLoop
end XboxProxy
