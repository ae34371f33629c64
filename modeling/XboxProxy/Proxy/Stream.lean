import XboxProxy.Proxy.Record
import Mathlib.Algebra.Order.Ring.Nat
import Mathlib.Data.List.TakeWhile

/-!
# The body of a reply (`src/proxy.rs`)

`CountingStream` passes on what the upstream's body yields, counts the bytes and finalizes
the record at an error, at the end and when it is dropped. What the inner stream answers to
a poll is an argument of the poll, so a list of polls is any behaviour of it under any
schedule.
-/

namespace XboxProxy
open Misc

/-- `std::task::Poll`. -/
inductive Poll (α : Type) where
  | pending
  | ready (value : α)

/-- The answer of a stream of chunks. -/
abbrev StreamPoll (E : Type) := Poll (Option (Except E (List UInt8)))

/-- A poll: what the inner stream answers, and the clocks `finalize` reads if it is reached. -/
structure InnerPoll (F E : Type) where
  answer : StreamPoll E
  now : Nat
  elapsed : Elapsed F

/-- The clocks the drop reads. -/
structure DropEnv (F : Type) where
  now : Nat
  elapsed : Elapsed F

namespace CountingStream

variable {F E : Type} [Float64 F]

/-- `poll_next` (`proxy.rs:241-261`); `display` is `E`'s. The counter is an `AtomicU64`. -/
def pollNext (display : E → String) (poll : InnerPoll F E) (metrics : MetricsStore F)
    (state : RecordState) : StreamPoll E × MetricsStore F × RecordState :=
  match poll.answer with
  | .ready (some (.ok chunk)) =>
    (.ready (some (.ok chunk)), metrics,
      { state with bytes := (state.bytes + chunk.length) % 2 ^ 64 })
  | .ready (some (.error e)) =>
    let state := { state with error := some (display e) }
    (.ready (some (.error e)), finalize metrics state poll.now poll.elapsed)
  | .ready none => (.ready none, finalize metrics state poll.now poll.elapsed)
  | .pending => (.pending, metrics, state)

/-- `drop` (`proxy.rs:264-268`). -/
def drop (env : DropEnv F) (metrics : MetricsStore F) (state : RecordState) :
    MetricsStore F × RecordState :=
  finalize metrics state env.now env.elapsed

/-- The life of a stream: the polls, then the drop. What the polls answered comes first. -/
def life (display : E → String) (env : DropEnv F) :
    List (InnerPoll F E) → MetricsStore F → RecordState →
      List (StreamPoll E) × MetricsStore F × RecordState
  | [], metrics, state => ([], drop env metrics state)
  | poll :: polls, metrics, state =>
    let (answer, metrics, state) := pollNext display poll metrics state
    let (answers, last) := life display env polls metrics state
    (answer :: answers, last)

end CountingStream

namespace InnerPoll

variable {F E : Type}

/-- An error or the end. -/
def ends (poll : InnerPoll F E) : Bool :=
  match poll.answer with
  | .ready (some (.error _)) => true
  | .ready none => true
  | _ => false

/-- The length of the chunk a poll yields. -/
def chunkLength (poll : InnerPoll F E) : Nat :=
  match poll.answer with
  | .ready (some (.ok chunk)) => chunk.length
  | _ => 0

/-- The text of the error a poll yields. -/
def errorText (display : E → String) (poll : InnerPoll F E) : Option String :=
  match poll.answer with
  | .ready (some (.error e)) => some (display e)
  | _ => none

end InnerPoll

section Accounting
variable {F E : Type}

/-- The bytes yielded before the first error or end. -/
def bytesBeforeEnd (polls : List (InnerPoll F E)) : Nat :=
  ((polls.takeWhile fun poll => !poll.ends).map (·.chunkLength)).sum

/-- The first of the error and the end, if the stream comes to one of them. -/
def firstEnd (polls : List (InnerPoll F E)) : Option (InnerPoll F E) :=
  polls.find? (·.ends)

/-- What a record says besides its time, its size and its error. -/
def RequestRecord.requestMeta (rec : RequestRecord F) : RequestMeta where
  clientIp := rec.clientIp
  host := rec.host
  path := rec.path
  method := rec.method
  status := rec.status
  upstreamIp := rec.upstreamIp
  passthrough := rec.passthrough
  ttfbMs := rec.ttfbMs

variable [Float64 F]

theorem finalize_of_recorded {metrics : MetricsStore F} {state : RecordState}
    (recorded : state.recorded = true) (now : Nat) (elapsed : Elapsed F) :
    finalize metrics state now elapsed = (metrics, state) := by
  unfold finalize
  rw [if_pos recorded]

/-- The first call of `finalize` sends one record, with what the state holds then. -/
theorem finalize_of_fresh (state : RecordState) (fresh : state.recorded = false)
    (metrics : MetricsStore F) (now : Nat) (elapsed : Elapsed F) :
    ∃ rec, finalize metrics state now elapsed =
        (metrics.recordRequest rec, { state with recorded := true }) ∧
      rec.ts = now ∧ rec.requestMeta = state.requestMeta ∧ rec.bytes = state.bytes ∧
      rec.error = state.error := by
  unfold finalize
  rw [if_neg (by simp [fresh])]
  exact ⟨_, rfl, rfl, rfl, rfl, rfl⟩

namespace CountingStream
variable {display : E → String} {env : DropEnv F}

/-- Polling passes the answers on. -/
theorem pollNext_answer (poll : InnerPoll F E) (metrics : MetricsStore F) (state : RecordState) :
    (pollNext display poll metrics state).1 = poll.answer := by
  unfold pollNext
  split <;> simp_all

theorem life_answers (polls : List (InnerPoll F E)) (metrics : MetricsStore F)
    (state : RecordState) :
    (life display env polls metrics state).1 = polls.map (·.answer) := by
  induction polls generalizing metrics state with
  | nil => rfl
  | cons poll polls ih =>
    simp only [life, List.map_cons, ih, pollNext_answer]

/-- Once the record is sent, polling sends no other. -/
theorem pollNext_of_recorded (display : E → String) (metrics : MetricsStore F)
    {state : RecordState} (recorded : state.recorded = true) (poll : InnerPoll F E) :
    (pollNext display poll metrics state).2.1 = metrics ∧
      (pollNext display poll metrics state).2.2.recorded = true := by
  unfold pollNext
  split
  · exact ⟨rfl, recorded⟩
  · rename_i e _
    have still : ({ state with error := some (display e) } : RecordState).recorded = true :=
      recorded
    simp only [finalize_of_recorded still]
    exact ⟨trivial, recorded⟩
  · simp only [finalize_of_recorded recorded]
    exact ⟨trivial, recorded⟩
  · exact ⟨rfl, recorded⟩

theorem life_of_recorded {metrics : MetricsStore F} {state : RecordState}
    (recorded : state.recorded = true) (polls : List (InnerPoll F E)) :
    (life display env polls metrics state).2.1 = metrics := by
  induction polls generalizing metrics state with
  | nil => simp only [life, drop, finalize_of_recorded recorded]
  | cons poll polls ih =>
    obtain ⟨same, still⟩ := pollNext_of_recorded display metrics recorded poll
    simp only [life]
    rw [ih still, same]

/-- The one record of a stream whose state is fresh: sent at the first of error, end and
drop, with what has been counted by then. -/
theorem life_of_fresh (display : E → String) (env : DropEnv F) (metrics : MetricsStore F)
    (state : RecordState) (fresh : state.recorded = false)
    (bounded : state.bytes < 2 ^ 64) (polls : List (InnerPoll F E)) :
    ∃ rec, (life display env polls metrics state).2.1 = metrics.recordRequest rec ∧
      rec.ts = ((firstEnd polls).map (·.now)).getD env.now ∧
      rec.requestMeta = state.requestMeta ∧
      rec.bytes = (state.bytes + bytesBeforeEnd polls) % 2 ^ 64 ∧
      rec.error = ((firstEnd polls).bind (·.errorText display)).or state.error := by
  induction polls generalizing state with
  | nil =>
    obtain ⟨rec, sent, ts, copied, bytes, error⟩ :=
      finalize_of_fresh state fresh metrics env.now env.elapsed
    refine ⟨rec, by rw [life, drop, sent], ts, copied, ?_, by simpa [firstEnd] using error⟩
    rw [bytes]
    exact (Nat.mod_eq_of_lt bounded).symm
  | cons poll polls ih =>
    obtain ⟨answer, now, elapsed⟩ := poll
    match answer with
    | .pending =>
      have skipped : bytesBeforeEnd (⟨.pending, now, elapsed⟩ :: polls) = bytesBeforeEnd polls := by
        simp [bytesBeforeEnd, InnerPoll.ends, InnerPoll.chunkLength]
      rw [skipped]
      exact ih state fresh bounded
    | .ready (some (.ok chunk)) =>
      have counted : bytesBeforeEnd (⟨.ready (some (.ok chunk)), now, elapsed⟩ :: polls) =
          chunk.length + bytesBeforeEnd polls := by
        simp [bytesBeforeEnd, InnerPoll.ends, InnerPoll.chunkLength]
      obtain ⟨rec, sent, ts, copied, bytes, error⟩ :=
        ih { state with bytes := (state.bytes + chunk.length) % 2 ^ 64 } fresh
          (Nat.mod_lt _ (by decide))
      refine ⟨rec, sent, ts, copied, ?_, error⟩
      rw [bytes, counted, Nat.mod_add_mod, Nat.add_assoc]
    | .ready (some (.error e)) =>
      -- the error is in the state before `finalize` reads it
      have stopped : bytesBeforeEnd (⟨.ready (some (.error e)), now, elapsed⟩ :: polls) = 0 := by
        simp [bytesBeforeEnd, InnerPoll.ends]
      obtain ⟨rec, sent, ts, copied, bytes, error⟩ := finalize_of_fresh
        { state with error := some (display e) } fresh metrics now elapsed
      refine ⟨rec, ?_, ts, copied, ?_, error⟩
      · simp only [life, pollNext, sent]
        exact life_of_recorded rfl polls
      · rw [stopped, Nat.add_zero, Nat.mod_eq_of_lt bounded]
        exact bytes
    | .ready none =>
      have stopped : bytesBeforeEnd (⟨.ready none, now, elapsed⟩ :: polls) = 0 := by
        simp [bytesBeforeEnd, InnerPoll.ends]
      obtain ⟨rec, sent, ts, copied, bytes, error⟩ :=
        finalize_of_fresh state fresh metrics now elapsed
      refine ⟨rec, ?_, ts, copied, ?_, error⟩
      · simp only [life, pollNext, sent]
        exact life_of_recorded rfl polls
      · rw [stopped, Nat.add_zero, Nat.mod_eq_of_lt bounded]
        exact bytes

/-- Whatever the inner stream does and however it is polled before it is dropped, the stream
passes its answers on and sends one record, with the bytes yielded before the first of error,
end and drop, and the text of the error if that comes first. -/
theorem life_accounts (display : E → String) (requestMeta : RequestMeta) (error : Option String)
    (polls : List (InnerPoll F E)) (env : DropEnv F) (metrics : MetricsStore F)
    (small : bytesBeforeEnd polls < 2 ^ 64) :
    (life display env polls metrics ⟨requestMeta, 0, false, error⟩).1 = polls.map (·.answer) ∧
      ∃ rec, (life display env polls metrics ⟨requestMeta, 0, false, error⟩).2.1.dbTx =
          metrics.dbTx ++ [.insertRequest rec] ∧
        rec.bytes = bytesBeforeEnd polls ∧
        rec.error = ((firstEnd polls).bind (·.errorText display)).or error := by
  refine ⟨life_answers polls metrics _, ?_⟩
  obtain ⟨rec, sent, -, -, bytes, text⟩ :=
    life_of_fresh display env metrics ⟨requestMeta, 0, false, error⟩ rfl (by simp) polls
  refine ⟨rec, ?_, ?_, text⟩
  · rw [sent]
    rfl
  · rw [bytes, Nat.zero_add, Nat.mod_eq_of_lt small]

/-- A chunk, a body error, and polls after it. -/
theorem life_accounts_reset :
    ∃ rec : RequestRecord ℚ,
      (life (E := String) id ⟨9, ⟨9, 9⟩⟩
        [⟨.pending, 1, ⟨1, 1⟩⟩, ⟨.ready (some (.ok [1, 2, 3])), 2, ⟨2, 2⟩⟩,
          ⟨.ready (some (.error "connection reset")), 3, ⟨3, 3⟩⟩,
          ⟨.ready (some (.ok [4])), 4, ⟨4, 4⟩⟩, ⟨.ready none, 5, ⟨5, 5⟩⟩]
        .new ⟨⟨"10.0.0.2", "cdn.example.com", "/", "GET", 200, none, false, 1⟩, 0, false,
          none⟩).2.1.dbTx = [.insertRequest rec] ∧
      rec.bytes = 3 ∧ rec.error = some "connection reset" :=
  (life_accounts (E := String) id ⟨"10.0.0.2", "cdn.example.com", "/", "GET", 200, none, false, 1⟩
    none
    [⟨.pending, 1, ⟨1, 1⟩⟩, ⟨.ready (some (.ok [1, 2, 3])), 2, ⟨2, 2⟩⟩,
      ⟨.ready (some (.error "connection reset")), 3, ⟨3, 3⟩⟩,
      ⟨.ready (some (.ok [4])), 4, ⟨4, 4⟩⟩, ⟨.ready none, 5, ⟨5, 5⟩⟩]
    ⟨9, ⟨9, 9⟩⟩ .new (by decide)).2

end CountingStream
end Accounting
end XboxProxy
