import Mathlib.Data.List.Basic
import Mathlib.Data.List.Infix

/-!
# A channel with one consumer

Any number of senders append to the messages of a channel; its one consumer takes them in
order and folds each into a store. Nothing is lost, repeated or overtaken: the store is
always the fold of a prefix of what has been sent, and of all of it once the consumer has
taken as many more as are queued.
-/

namespace XboxProxy.Misc

variable {Message Store : Type}

/-- A consumer: how many messages it has taken, and what it has made of them. -/
structure Consumer (Store : Type) where
  taken : Nat
  store : Store

namespace Consumer

/-- The messages still queued. -/
def queued (c : Consumer Store) (sent : List Message) : List Message := sent.drop c.taken

/-- The consumer takes the oldest queued message, if there is one. -/
def receive (consume : Store → Message → Store) (sent : List Message) (c : Consumer Store) :
    Option (Consumer Store) :=
  sent[c.taken]?.map fun m => ⟨c.taken + 1, consume c.store m⟩

/-- The consumer takes `n` messages. -/
def receiveN (consume : Store → Message → Store) (sent : List Message) :
    Nat → Consumer Store → Option (Consumer Store)
  | 0, c => some c
  | n + 1, c => (c.receive consume sent).bind (receiveN consume sent n)

/-- The store is the fold of the messages taken, which are the first of those sent. -/
structure Follows (consume : Store → Message → Store) (first : Store) (sent : List Message)
    (c : Consumer Store) : Prop where
  bound : c.taken ≤ sent.length
  store : c.store = (sent.take c.taken).foldl consume first

variable {consume : Store → Message → Store} {first : Store} {sent : List Message}
  {c d : Consumer Store}

theorem Follows.start : Follows consume first sent ⟨0, first⟩ := ⟨Nat.zero_le _, rfl⟩

/-- Sending does not disturb the consumer. -/
theorem Follows.send (follows : Follows consume first sent c) (more : List Message) :
    Follows consume first (sent ++ more) c := by
  constructor
  · rw [List.length_append]
    exact Nat.le_add_right_of_le follows.bound
  · rw [List.take_append_of_le_length follows.bound]
    exact follows.store

theorem receive_eq_some_iff : c.receive consume sent = some d ↔
    ∃ m, sent[c.taken]? = some m ∧ d = ⟨c.taken + 1, consume c.store m⟩ := by
  unfold receive
  rw [Option.map_eq_some_iff]
  exact exists_congr fun m => and_congr_right fun _ => eq_comm

theorem Follows.receive (follows : Follows consume first sent c)
    (received : c.receive consume sent = some d) : Follows consume first sent d := by
  obtain ⟨m, next, rfl⟩ := receive_eq_some_iff.mp received
  obtain ⟨bound, here⟩ := List.getElem?_eq_some_iff.mp next
  constructor
  · exact bound
  · show consume c.store m = (sent.take (c.taken + 1)).foldl consume first
    rw [List.take_add_one, next, List.foldl_append, follows.store]
    rfl

/-- After as many turns as there are messages queued, the store is the fold of all that was
sent. -/
theorem Follows.drain (follows : Follows consume first sent c) :
    receiveN consume sent (c.queued sent).length c =
      some ⟨sent.length, sent.foldl consume first⟩ := by
  have all : ∀ n (c : Consumer Store), Follows consume first sent c → c.taken + n = sent.length →
      receiveN consume sent n c = some ⟨sent.length, sent.foldl consume first⟩ := by
    intro n
    induction n with
    | zero =>
      rintro ⟨taken, store⟩ follows (rfl : taken = sent.length)
      have same : store = sent.foldl consume first := by
        have h := follows.store
        rwa [List.take_length] at h
      rw [receiveN, same]
    | succ n ih =>
      intro c follows count
      have bound : c.taken < sent.length := by omega
      have received : c.receive consume sent =
          some ⟨c.taken + 1, consume c.store (sent.get ⟨c.taken, bound⟩)⟩ :=
        receive_eq_some_iff.mpr ⟨_, List.getElem?_eq_getElem bound, rfl⟩
      rw [receiveN, received]
      refine ih _ (follows.receive received) ?_
      show c.taken + 1 + n = sent.length
      omega
  apply all _ c follows
  have bound := follows.bound
  rw [queued, List.length_drop]
  omega

end Consumer
end XboxProxy.Misc
