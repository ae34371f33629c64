import XboxProxy.Misc.Ballot
import XboxProxy.Speedtest.Control

/-!
# Forced passes and the requests that asked for them

`pending_url` and the permit of the `Notify` are two cells, and `None` in the first means
both that nothing is pending and that every group is to be tested. When the loop consumes a
notification whose override another request has overwritten or the loop has already taken,
it runs a pass over all groups that nobody asked for. The invariant counts, for every
override, the times it was taken against the times a request answered for it.
-/

namespace XboxProxy
open Misc

/-- Every forced pass has an earlier request of its own that asked for its override and was
answered. -/
def Requested (log : List SpeedTestEvent) : Prop :=
  ∃ request : Nat → Nat,
    (∀ i url, log[i]? = some (.started (.forced url)) →
      request i < i ∧ ∃ running, log[request i]? = some (.answered url running)) ∧
    ∀ i j url url', log[i]? = some (.started (.forced url)) →
      log[j]? = some (.started (.forced url')) → request i = request j → i = j

/-- A log whose prefixes are paid for is one whose forced passes were requested. -/
theorem requested_of_balanced {log : List SpeedTestEvent}
    (balanced : Balanced SpeedTestEvent.answers SpeedTestEvent.forces log) : Requested log := by
  have apart : ∀ e : SpeedTestEvent, e.forces = none ∨ e.answers = none := by
    intro e
    cases e with
    | answered url running => exact .inl rfl
    | stored k url => exact .inr rfl
    | took url => exact .inr rfl
    | started kind => exact .inr rfl
  have forced : ∀ i url, log[i]? = some (.started (.forced url)) →
      CarriesAt SpeedTestEvent.forces log url i := by
    intro i url entry
    rw [CarriesAt, entry]
    rfl
  refine ⟨matched SpeedTestEvent.answers SpeedTestEvent.forces log, ?_, ?_⟩
  · intro i url entry
    obtain ⟨earlier, given⟩ := balanced.matched_spec apart (forced i url entry)
    obtain ⟨e, found, answers⟩ := Option.bind_eq_some_iff.mp given
    refine ⟨earlier, ?_⟩
    cases e with
    | answered url' running =>
      obtain rfl : url' = url := Option.some.inj answers
      exact ⟨running, found⟩
    | stored k url => cases answers
    | took url => cases answers
    | started kind => cases answers
  · intro i j url url' first second same
    exact balanced.matched_injective apart (forced i url first) (forced j url' second) same

/-! ## What the log says -/

/-- How often the entries of a log carry `x`. -/
def occurrences (g : SpeedTestEvent → Option (Option String)) (log : List SpeedTestEvent)
    (x : Option String) : Nat :=
  log.countP (g · = some x)

theorem occurrences_snoc (g : SpeedTestEvent → Option (Option String))
    (log : List SpeedTestEvent) (e : SpeedTestEvent) (x : Option String) :
    occurrences g (log ++ [e]) x = occurrences g log x + if g e = some x then 1 else 0 := by
  simp [occurrences, List.countP_cons]

theorem occurrences_snoc_of_none {g : SpeedTestEvent → Option (Option String)}
    {e : SpeedTestEvent} (silent : g e = none) (log : List SpeedTestEvent) (x : Option String) :
    occurrences g (log ++ [e]) x = occurrences g log x := by
  simp [occurrences_snoc, silent]

theorem occurrences_snoc_of_some {g : SpeedTestEvent → Option (Option String)}
    {e : SpeedTestEvent} {y : Option String} (carries : g e = some y) (log : List SpeedTestEvent)
    (x : Option String) :
    occurrences g (log ++ [e]) x = occurrences g log x + if y = x then 1 else 0 := by
  simp [occurrences_snoc, carries]

/-- The overrides stored since the last `take_url`, oldest first. -/
def storedSinceTake (log : List SpeedTestEvent) : List (Option String) :=
  (log.rtakeWhile fun e => e.takes.isNone).filterMap SpeedTestEvent.stores

/-- Since the last `take_url` some request has overwritten the URL of another. -/
def Overwritten (log : List SpeedTestEvent) : Prop :=
  ∃ url ∈ (storedSinceTake log).dropLast, url ≠ none

instance (log : List SpeedTestEvent) : Decidable (Overwritten log) :=
  inferInstanceAs (Decidable (∃ url ∈ _, url ≠ none))

theorem storedSinceTake_snoc_took (log : List SpeedTestEvent) (url : Option String) :
    storedSinceTake (log ++ [.took url]) = [] := by
  simp [storedSinceTake, SpeedTestEvent.takes]

theorem storedSinceTake_snoc_stored (log : List SpeedTestEvent) (k : Nat) (url : Option String) :
    storedSinceTake (log ++ [.stored k url]) = storedSinceTake log ++ [url] := by
  simp [storedSinceTake, SpeedTestEvent.takes, SpeedTestEvent.stores]

theorem storedSinceTake_snoc_answered (log : List SpeedTestEvent) (url : Option String)
    (running : Bool) : storedSinceTake (log ++ [.answered url running]) = storedSinceTake log := by
  simp [storedSinceTake, SpeedTestEvent.takes, SpeedTestEvent.stores]

theorem storedSinceTake_snoc_started (log : List SpeedTestEvent) (kind : PassKind) :
    storedSinceTake (log ++ [.started kind]) = storedSinceTake log := by
  simp [storedSinceTake, SpeedTestEvent.takes, SpeedTestEvent.stores]

/-- A store overwrites when it finds a URL in the slot. -/
theorem overwritten_snoc_stored (log : List SpeedTestEvent) (k : Nat) (url : Option String) :
    Overwritten (log ++ [.stored k url]) ↔
      Overwritten log ∨ (storedSinceTake log).getLast?.join ≠ none := by
  unfold Overwritten
  rw [storedSinceTake_snoc_stored, List.dropLast_concat]
  rcases List.eq_nil_or_concat (storedSinceTake log) with nil | ⟨before, last, split⟩
  · simp [nil]
  · simp [split, or_and_right, exists_or]

/-! ## What the requests and the loop still owe -/

/-- The requests for `x` between their `store` and their `notify_one`. -/
def pendingFor (requests : List SpeedTestRequest) (x : Option String) : Nat :=
  requests.count ⟨x, .stored⟩

/-- The requests with a URL between their `store` and their `notify_one`. -/
def pendingUrls (requests : List SpeedTestRequest) : Nat :=
  requests.countP fun r => decide (r.stage = .stored) && r.url.isSome

section Requests
variable {requests : List SpeedTestRequest} {k : Nat} {url : Option String}

theorem pendingFor_store (found : requests[k]? = some ⟨url, .accepted⟩) (x : Option String) :
    pendingFor (requests.set k ⟨url, .stored⟩) x =
      pendingFor requests x + if url = x then 1 else 0 := by
  unfold pendingFor
  rw [(perm_cons_eraseIdx found).count_eq, (perm_set found _).count_eq]
  simp [List.count_cons]

theorem pendingFor_notify (found : requests[k]? = some ⟨url, .stored⟩) (x : Option String) :
    pendingFor (requests.set k ⟨url, .answered⟩) x + (if url = x then 1 else 0) =
      pendingFor requests x := by
  unfold pendingFor
  rw [(perm_cons_eraseIdx found).count_eq, (perm_set found _).count_eq]
  simp [List.count_cons]

theorem pendingUrls_store (found : requests[k]? = some ⟨url, .accepted⟩) :
    pendingUrls (requests.set k ⟨url, .stored⟩) =
      pendingUrls requests + if url = none then 0 else 1 := by
  unfold pendingUrls
  rw [(perm_cons_eraseIdx found).countP_eq, (perm_set found _).countP_eq]
  cases url <;> simp

theorem pendingUrls_notify (found : requests[k]? = some ⟨url, .stored⟩) :
    pendingUrls (requests.set k ⟨url, .answered⟩) + (if url = none then 0 else 1) =
      pendingUrls requests := by
  unfold pendingUrls
  rw [(perm_cons_eraseIdx found).countP_eq, (perm_set found _).countP_eq]
  cases url <;> simp

theorem pendingFor_append_accepted (x : Option String) :
    pendingFor (requests ++ [⟨url, .accepted⟩]) x = pendingFor requests x := by
  simp [pendingFor, List.count_append]

theorem pendingUrls_append_accepted :
    pendingUrls (requests ++ [⟨url, .accepted⟩]) = pendingUrls requests := by
  simp [pendingUrls]

/-- No request for a URL is pending when none of the stored requests has one. -/
theorem pendingFor_le_pendingUrls (requests : List SpeedTestRequest) (u : String) :
    pendingFor requests (some u) ≤ pendingUrls requests := by
  unfold pendingFor pendingUrls List.count
  apply List.countP_mono_left
  intro r _ same
  obtain rfl : r = ⟨some u, .stored⟩ := by simpa using same
  simp

end Requests

namespace SpeedTestLoop

variable {F : Type} {setup : SpeedTestSetup F}

/-- What was taken is paid for by what was answered. A URL in the slot is paid for by its
request once that is answered; the notifications to come, less the one for a URL in the slot,
lead to passes over all groups, and these are paid for as long as no URL was overwritten. -/
structure Paid (s : SpeedTestLoop) : Prop where
  slot : s.control.pendingUrl = (storedSinceTake s.log).getLast?.join
  started : ∀ x, occurrences SpeedTestEvent.forces s.log x +
    (if s.phase = .starting (.forced x) then 1 else 0) = occurrences SpeedTestEvent.takes s.log x
  asked : ∀ x, occurrences SpeedTestEvent.takes s.log x ≤
    occurrences SpeedTestEvent.answers s.log x
  urls : ∀ u, occurrences SpeedTestEvent.takes s.log (some u) +
      (if s.control.pendingUrl = some u then 1 else 0) ≤
    occurrences SpeedTestEvent.answers s.log (some u) + pendingFor s.requests (some u)
  ordered : ¬ Overwritten s.log →
    occurrences SpeedTestEvent.takes s.log none + s.notifications + pendingUrls s.requests ≤
      occurrences SpeedTestEvent.answers s.log none +
        if s.control.pendingUrl = none then 0 else 1
  overwritten : Overwritten s.log →
    occurrences SpeedTestEvent.takes s.log none +
        (if s.control.pendingUrl = none then 1 else 0) ≤
      occurrences SpeedTestEvent.answers s.log none + pendingFor s.requests none
  balanced : Balanced SpeedTestEvent.answers SpeedTestEvent.forces s.log

theorem Paid.start (setup : SpeedTestSetup F) : Paid (start setup) := by
  have phase : ∀ x, (SpeedTestLoop.start setup).phase ≠ .starting (.forced x) := by
    intro x
    unfold SpeedTestLoop.start
    cases setup.auto <;> simp
  have none : (SpeedTestLoop.start setup).notifications = 0 := by
    unfold SpeedTestLoop.start notifications
    cases setup.auto <;> simp
  constructor
  · rfl
  · intro x
    rw [if_neg (phase x)]
    rfl
  · intro x
    exact le_refl 0
  · intro u
    exact le_refl 0
  · intro _
    rw [none]
    exact le_refl 0
  · rintro ⟨url, member, -⟩
    cases member
  · intro l before x
    obtain rfl := List.prefix_nil.mp before
    exact le_refl 0

/-- The forced passes that have started are paid for. -/
theorem Paid.forces_le {s : SpeedTestLoop} (paid : Paid s) (x : Option String) :
    occurrences SpeedTestEvent.forces s.log x ≤ occurrences SpeedTestEvent.answers s.log x := by
  have h := paid.asked x
  have h' := paid.started x
  omega

/-- Moves of the loop that neither take an override nor start a pass. -/
theorem Paid.of_phase {s : SpeedTestLoop} (paid : Paid s) {t : SpeedTestLoop}
    (log : t.log = s.log) (requests : t.requests = s.requests)
    (slot : t.control.pendingUrl = s.control.pendingUrl)
    (notifications : t.notifications ≤ s.notifications)
    (before : ∀ x, s.phase ≠ .starting (.forced x))
    (after : ∀ x, t.phase ≠ .starting (.forced x)) : Paid t := by
  have started : ∀ x, occurrences SpeedTestEvent.forces t.log x +
      (if t.phase = .starting (.forced x) then 1 else 0) =
        occurrences SpeedTestEvent.takes t.log x := by
    intro x
    have h := paid.started x
    rw [if_neg (before x)] at h
    rw [if_neg (after x), log]
    exact h
  constructor
  · rw [slot, log]
    exact paid.slot
  · exact started
  · rw [log]
    exact paid.asked
  · rw [log, requests, slot]
    exact paid.urls
  · intro ordered
    rw [log] at ordered ⊢
    rw [requests, slot]
    have h := paid.ordered ordered
    omega
  · rw [log, requests, slot]
    exact paid.overwritten
  · rw [log]
    exact paid.balanced

theorem Paid.accept {s : SpeedTestLoop} (paid : Paid s) (url : Option String) :
    Paid { s with requests := s.requests ++ [⟨url, .accepted⟩] } := by
  constructor
  · exact paid.slot
  · exact paid.started
  · exact paid.asked
  · intro u
    simp only [pendingFor_append_accepted]
    exact paid.urls u
  · intro ordered
    simp only [pendingUrls_append_accepted]
    exact paid.ordered ordered
  · intro overwritten
    simp only [pendingFor_append_accepted]
    exact paid.overwritten overwritten
  · exact paid.balanced

theorem Paid.store {s : SpeedTestLoop} (paid : Paid s) {k : Nat} {url : Option String}
    (found : s.requests[k]? = some ⟨url, .accepted⟩) :
    Paid { s with
      control := { s.control with pendingUrl := url }
      requests := s.requests.set k ⟨url, .stored⟩
      log := s.log ++ [.stored k url] } := by
  have forces :=
    occurrences_snoc_of_none (g := SpeedTestEvent.forces) (e := .stored k url) rfl s.log
  have takes := occurrences_snoc_of_none (g := SpeedTestEvent.takes) (e := .stored k url) rfl s.log
  have answers :=
    occurrences_snoc_of_none (g := SpeedTestEvent.answers) (e := .stored k url) rfl s.log
  have overwrites := overwritten_snoc_stored s.log k url
  rw [← paid.slot] at overwrites
  constructor
  · simp only [storedSinceTake_snoc_stored]
    simp
  · intro x
    simp only [forces, takes]
    exact paid.started x
  · intro x
    simp only [takes, answers]
    exact paid.asked x
  · intro u
    simp only [takes, answers, pendingFor_store found]
    have h := paid.asked (some u)
    split <;> omega
  · intro ordered
    rw [overwrites, not_or, not_not] at ordered
    have h := paid.ordered ordered.1
    rw [if_pos ordered.2] at h
    simp only [takes, answers, pendingUrls_store found]
    change _ + s.notifications + _ ≤ _
    split <;> omega
  · intro _
    simp only [takes, answers, pendingFor_store found]
    have h := paid.asked none
    split <;> omega
  · apply paid.balanced.snoc
    intro x
    change occurrences _ _ x ≤ occurrences _ _ x
    rw [forces, answers]
    exact paid.forces_le x

/-- A request calls `notify_one`: whatever the loop is doing, at most one notification is
added. -/
theorem Paid.notify {s : SpeedTestLoop} (paid : Paid s) {k : Nat} {url : Option String}
    (found : s.requests[k]? = some ⟨url, .stored⟩) (control : SpeedTestControl)
    (phase : LoopPhase) (slot : control.pendingUrl = s.control.pendingUrl)
    (started : ∀ x, phase = .starting (.forced x) ↔ s.phase = .starting (.forced x))
    (running : Bool) (added : notifications ⟨control, phase, [], []⟩ ≤ s.notifications + 1) :
    Paid ⟨control, phase, s.requests.set k ⟨url, .answered⟩,
      s.log ++ [.answered url running]⟩ := by
  have forces :=
    occurrences_snoc_of_none (g := SpeedTestEvent.forces) (e := .answered url running) rfl s.log
  have takes :=
    occurrences_snoc_of_none (g := SpeedTestEvent.takes) (e := .answered url running) rfl s.log
  have answers :=
    occurrences_snoc_of_some (g := SpeedTestEvent.answers) (e := .answered url running) rfl s.log
  have overwrites : Overwritten (s.log ++ [.answered url running]) ↔ Overwritten s.log := by
    simp [Overwritten, storedSinceTake_snoc_answered]
  have moved := pendingFor_notify found
  have movedUrls := pendingUrls_notify found
  constructor
  · simp only [storedSinceTake_snoc_answered, slot]
    exact paid.slot
  · intro x
    simp only [forces, takes, started x]
    exact paid.started x
  · intro x
    simp only [takes, answers]
    have h := paid.asked x
    omega
  · intro u
    simp only [takes, answers, slot]
    have h := paid.urls u
    have h' := moved (some u)
    omega
  · intro ordered
    have h := paid.ordered (by rwa [overwrites] at ordered)
    simp only [takes, answers, slot]
    change _ + notifications ⟨control, phase, [], []⟩ + _ ≤ _
    by_cases none : url = none
    · rw [if_pos none] at movedUrls ⊢
      omega
    · rw [if_neg none] at movedUrls ⊢
      omega
  · intro overwritten
    have h := paid.overwritten (by rwa [overwrites] at overwritten)
    have h' := moved none
    simp only [takes, answers, slot]
    omega
  · apply paid.balanced.snoc
    intro x
    change occurrences _ _ x ≤ occurrences _ _ x
    rw [forces, answers]
    exact (paid.forces_le x).trans (Nat.le_add_right _ _)

theorem Paid.startPass {s : SpeedTestLoop} (paid : Paid s) {kind : PassKind}
    (phase : s.phase = .starting kind) :
    Paid { s with
      control := { s.control with running := true }
      phase := .running kind
      log := s.log ++ [.started kind] } := by
  have takes := occurrences_snoc_of_none (g := SpeedTestEvent.takes) (e := .started kind) rfl s.log
  have answers :=
    occurrences_snoc_of_none (g := SpeedTestEvent.answers) (e := .started kind) rfl s.log
  have forces : ∀ x, occurrences SpeedTestEvent.forces (s.log ++ [.started kind]) x =
      occurrences SpeedTestEvent.takes s.log x := by
    intro x
    rw [← paid.started x, phase, occurrences_snoc]
    cases kind <;> simp [SpeedTestEvent.forces]
  have overwrites : Overwritten (s.log ++ [.started kind]) ↔ Overwritten s.log := by
    simp [Overwritten, storedSinceTake_snoc_started]
  have fewer : notifications ⟨{ s.control with running := true }, .running kind, s.requests,
      s.log ++ [.started kind]⟩ ≤ s.notifications := by
    simp [notifications]
  constructor
  · simp only [storedSinceTake_snoc_started]
    exact paid.slot
  · intro x
    simp only [forces, takes]
    simp
  · intro x
    simp only [takes, answers]
    exact paid.asked x
  · intro u
    simp only [takes, answers]
    exact paid.urls u
  · intro ordered
    have h := paid.ordered (by rwa [overwrites] at ordered)
    simp only [takes, answers]
    exact (Nat.add_le_add_right (Nat.add_le_add_left fewer _) _).trans h
  · intro overwritten
    have h := paid.overwritten (by rwa [overwrites] at overwritten)
    simp only [takes, answers]
    exact h
  · apply paid.balanced.snoc
    intro x
    change occurrences _ _ x ≤ occurrences _ _ x
    rw [forces, answers]
    exact paid.asked x

/-- The takes that keep the account: since the last one no URL was overwritten and no request
with a URL is between its `store` and its `notify_one`, or no request at all is between the
two and no second notification is waiting. -/
def TakesInOrder (s : SpeedTestLoop) : SpeedTestAction → Prop
  | .takeUrl =>
    (¬ Overwritten s.log ∧ ∀ r ∈ s.requests, r.stage = .stored → r.url = none) ∨
      (s.control.permit = false ∧ ∀ r ∈ s.requests, r.stage ≠ .stored)
  | _ => True

instance (s : SpeedTestLoop) : (a : SpeedTestAction) → Decidable (s.TakesInOrder a)
  | .takeUrl => inferInstanceAs (Decidable ((_ ∧ _) ∨ (_ ∧ _)))
  | .request _ | .store _ | .notify _ | .checkIdle _ | .startPass | .finishPass | .wakeUp
  | .listen | .timer | .resume => .isTrue trivial

theorem pendingUrls_eq_zero {requests : List SpeedTestRequest}
    (none : ∀ r ∈ requests, r.stage = .stored → r.url = none) : pendingUrls requests = 0 := by
  unfold pendingUrls
  rw [List.countP_eq_zero]
  intro r member
  simp only [Bool.and_eq_true, decide_eq_true_eq, not_and]
  intro stored
  simp [none r member stored]

theorem pendingFor_eq_zero {requests : List SpeedTestRequest}
    (none : ∀ r ∈ requests, r.stage ≠ .stored) (x : Option String) :
    pendingFor requests x = 0 := by
  unfold pendingFor
  rw [List.count_eq_zero]
  intro member
  exact none _ member rfl

/-- The override a take in order finds is paid for. -/
theorem Paid.asked_of_take {s : SpeedTestLoop} (paid : Paid s) (phase : s.phase = .woken)
    (inOrder : s.TakesInOrder .takeUrl) :
    occurrences SpeedTestEvent.takes s.log s.control.pendingUrl + 1 ≤
      occurrences SpeedTestEvent.answers s.log s.control.pendingUrl := by
  have noUrls : pendingUrls s.requests = 0 := by
    rcases inOrder with ⟨-, none⟩ | ⟨-, none⟩
    · exact pendingUrls_eq_zero none
    · exact pendingUrls_eq_zero fun r member stored => absurd stored (none r member)
  have held : 1 ≤ s.notifications := by simp [notifications, phase]
  cases slot : s.control.pendingUrl with
  | some u =>
    have h := paid.urls u
    rw [if_pos slot] at h
    have h' := pendingFor_le_pendingUrls s.requests u
    omega
  | none =>
    by_cases overwritten : Overwritten s.log
    · rcases inOrder with ⟨ordered, -⟩ | ⟨-, none⟩
      · exact absurd overwritten ordered
      · have h := paid.overwritten overwritten
        rw [if_pos slot, pendingFor_eq_zero none] at h
        exact h
    · have h := paid.ordered overwritten
      rw [if_pos slot] at h
      omega

theorem Paid.take {s : SpeedTestLoop} (paid : Paid s) (phase : s.phase = .woken)
    (inOrder : s.TakesInOrder .takeUrl) :
    Paid { s with
      control := { s.control with pendingUrl := none }
      phase := .starting (.forced s.control.pendingUrl)
      log := s.log ++ [.took s.control.pendingUrl] } := by
  have takes := occurrences_snoc_of_some (g := SpeedTestEvent.takes)
    (e := .took s.control.pendingUrl) rfl s.log
  have answers := occurrences_snoc_of_none (g := SpeedTestEvent.answers)
    (e := .took s.control.pendingUrl) rfl s.log
  have forces := occurrences_snoc_of_none (g := SpeedTestEvent.forces)
    (e := .took s.control.pendingUrl) rfl s.log
  have own := paid.asked_of_take phase inOrder
  have asked : ∀ x, occurrences SpeedTestEvent.takes s.log x +
      (if s.control.pendingUrl = x then 1 else 0) ≤ occurrences SpeedTestEvent.answers s.log x := by
    intro x
    by_cases same : s.control.pendingUrl = x
    · rw [if_pos same]
      subst same
      exact own
    · rw [if_neg same]
      exact paid.asked x
  have held : s.notifications = s.control.permit.toNat + 1 := by simp [notifications, phase]
  constructor
  · simp only [storedSinceTake_snoc_took]
    rfl
  · intro x
    have h := paid.started x
    rw [phase, if_neg (by simp)] at h
    simp only [forces, takes, LoopPhase.starting.injEq, PassKind.forced.injEq]
    omega
  · intro x
    simp only [takes, answers]
    exact asked x
  · intro u
    simp only [takes, answers]
    have h := asked (some u)
    simpa using h.trans (Nat.le_add_right _ _)
  · intro _
    simp only [takes, answers]
    have left : notifications ⟨{ s.control with pendingUrl := none },
        .starting (.forced s.control.pendingUrl), s.requests,
        s.log ++ [.took s.control.pendingUrl]⟩ = s.control.permit.toNat := by
      simp [notifications]
    simp only [left, if_true]
    have h := asked none
    rcases inOrder with ⟨ordered, -⟩ | ⟨noPermit, idle⟩
    · have h' := paid.ordered ordered
      by_cases slot : s.control.pendingUrl = none
      · rw [if_pos slot] at h' ⊢
        omega
      · rw [if_neg slot] at h' ⊢
        omega
    · have noUrls := pendingUrls_eq_zero fun r member stored => absurd stored (idle r member)
      rw [noPermit, noUrls]
      exact h
  · intro overwritten
    obtain ⟨url, member, -⟩ := overwritten
    simp [storedSinceTake_snoc_took] at member
  · apply paid.balanced.snoc
    intro x
    change occurrences _ _ x ≤ occurrences _ _ x
    rw [forces, answers]
    exact paid.forces_le x

theorem Paid.step {s t : SpeedTestLoop} {a : SpeedTestAction} (paid : Paid s)
    (inOrder : s.TakesInOrder a) (stepped : SpeedTestLoop.step setup s a = some t) : Paid t := by
  cases moves_of_step stepped with
  | rejected url => exact paid
  | accepted body url => exact paid.accept url
  | stored found => exact paid.store found
  | handedOver found phase =>
    refine paid.notify found s.control (.waiting true) rfl (fun x => by simp [phase]) _ ?_
    simp [notifications, phase]
  | permitted found phase =>
    refine paid.notify found { s.control with permit := true } s.phase rfl (fun x => Iff.rfl) _ ?_
    simp only [notifications, Bool.toNat_true]
    omega
  | postponed => exact paid
  | warmupPass phase =>
    refine paid.of_phase rfl rfl rfl ?_ (by simp [phase]) (by simp)
    simp [notifications]
  | scheduledPass phase =>
    refine paid.of_phase rfl rfl rfl ?_ (by simp [phase]) (by simp)
    simp [notifications]
  | started phase => exact paid.startPass phase
  | @finished kind phase =>
    have after := afterPass_cases setup kind
    refine paid.of_phase rfl rfl rfl ?_ (by simp [phase]) ?_
    · rcases after with after | ⟨i, after⟩ <;> simp [notifications, after]
    · rcases after with after | ⟨i, after⟩ <;> simp [after]
  | wokeUp phase =>
    refine paid.of_phase rfl rfl rfl ?_ (by simp [phase]) (by simp)
    simp [notifications]
  | consumed phase permit =>
    refine paid.of_phase rfl rfl rfl ?_ (by simp [phase]) (by simp)
    simp [notifications, permit]
  | waits phase permit =>
    refine paid.of_phase rfl rfl rfl ?_ (by simp [phase]) (by simp)
    simp [notifications]
  | @timedOut notified phase =>
    refine paid.of_phase rfl rfl rfl ?_ (by simp [phase]) (by simp)
    cases notified <;> cases permit : s.control.permit <;> simp [notifications, phase, permit]
  | resumed phase =>
    refine paid.of_phase rfl rfl rfl ?_ (by simp [phase]) (by simp)
    simp [notifications, phase]
  | took phase => exact paid.take phase inOrder

/-- In a run whose takes are in order, every forced pass has a request of its own that asked
for its override and was answered before. -/
theorem requested_of_takesInOrder (setup : SpeedTestSetup F) (actions : List SpeedTestAction)
    (t : SpeedTestLoop)
    (inOrder : AlongSteps (step setup) TakesInOrder (start setup) actions)
    (reached : run (step setup) (start setup) actions = some t) : Requested t.log := by
  have paid : Paid t := by
    apply run_invariant_of_alongSteps ?_ (Paid.start setup) inOrder reached
    intro s a u inv allowed stepped
    exact inv.step allowed stepped
  exact requested_of_balanced paid.balanced

/-- Two requests for every group, the second while the loop is being woken by the first. -/
theorem requested_of_takesInOrder_twice :
    ∃ t, run (step manualSetup) (start manualSetup) [.listen, .request none, .request (some " "),
        .store 0, .notify 0, .store 1, .notify 1, .resume, .takeUrl, .startPass, .finishPass,
        .listen, .takeUrl, .startPass] = some t ∧ Requested t.log := by
  refine ⟨_, rfl, ?_⟩
  exact requested_of_takesInOrder manualSetup [.listen, .request none, .request (some " "),
    .store 0, .notify 0, .store 1, .notify 1, .resume, .takeUrl, .startPass, .finishPass,
    .listen, .takeUrl, .startPass] _ (by decide) rfl

/-- Two requests with a URL, the second while the loop is being woken by the first: the loop
then runs a pass over every group that neither of them asked for. -/
theorem not_requested_of_overwritten_url :
    ∃ t, run (step manualSetup) (start manualSetup)
        [.listen, .request (some "http://cdn.example.com/test"),
          .request (some "http://cdn.example.com/test"), .store 0, .notify 0, .store 1, .notify 1,
          .resume, .takeUrl, .startPass, .finishPass, .listen, .takeUrl, .startPass] = some t ∧
      ¬ Requested t.log := by
  refine ⟨_, rfl, ?_⟩
  rintro ⟨request, asked, -⟩
  obtain ⟨-, running, answered⟩ := asked 7 none rfl
  have member := List.mem_of_getElem? answered
  simp [start, notifyOne] at member

end SpeedTestLoop
end XboxProxy
