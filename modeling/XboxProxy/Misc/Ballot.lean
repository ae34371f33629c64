import Mathlib.Data.Nat.Nth
import Mathlib.Data.List.Infix

/-!
# Matching what a log uses with what it was given before

Some entries of a log give a key and some use one. If no prefix of the log uses a key more
often than it gives it, each use can be matched with a give of its own that comes before it:
the `n`-th use of a key with the `n`-th time it is given.
-/

namespace XboxProxy.Misc

variable {Entry Key : Type}

/-- The entry at position `i` carries the key `x`, as `g` reads entries. -/
def CarriesAt (g : Entry → Option Key) (log : List Entry) (x : Key) (i : Nat) : Prop :=
  (log[i]?).bind g = some x

variable [DecidableEq Key]

instance (g : Entry → Option Key) (log : List Entry) (x : Key) :
    DecidablePred (CarriesAt g log x) :=
  fun i => inferInstanceAs (Decidable ((log[i]?).bind g = some x))

/-- No prefix of the log uses a key more often than it gives it. -/
def Balanced (give use : Entry → Option Key) (log : List Entry) : Prop :=
  ∀ l, l <+: log → ∀ x, l.countP (use · = some x) ≤ l.countP (give · = some x)

/-- A log may grow by an entry that the whole of it still pays for. -/
theorem Balanced.snoc {give use : Entry → Option Key} {log : List Entry} {e : Entry}
    (balanced : Balanced give use log)
    (whole : ∀ x, (log ++ [e]).countP (use · = some x) ≤ (log ++ [e]).countP (give · = some x)) :
    Balanced give use (log ++ [e]) := by
  intro l before x
  rcases List.prefix_concat_iff.mp before with rfl | before
  · exact whole x
  · exact balanced l before x

/-- Counting the positions below `n` is counting in the first `n` entries. -/
theorem count_carriesAt (g : Entry → Option Key) (log : List Entry) (x : Key) (n : Nat) :
    Nat.count (CarriesAt g log x) n = (log.take n).countP (g · = some x) := by
  induction n with
  | zero => simp
  | succ n ih =>
    rw [Nat.count_succ, ih, List.take_add_one, List.countP_append]
    cases entry : log[n]? with
    | none => simp [CarriesAt, entry]
    | some e => simp [CarriesAt, entry, List.countP_cons]

/-- The give that is matched with the use at position `i`. -/
noncomputable def matched (give use : Entry → Option Key) (log : List Entry) (i : Nat) : Nat :=
  match (log[i]?).bind use with
  | some x => Nat.nth (CarriesAt give log x) (Nat.count (CarriesAt use log x) i)
  | none => 0

section Matching
variable {give use : Entry → Option Key} {log : List Entry}

theorem matched_eq {i : Nat} {x : Key} (uses : CarriesAt use log x i) :
    matched give use log i =
      Nat.nth (CarriesAt give log x) (Nat.count (CarriesAt use log x) i) := by
  unfold matched
  rw [uses]

/-- The key used at `i` has been given more often by then than it was used before. -/
theorem Balanced.lt_count (balanced : Balanced give use log) {i : Nat} {x : Key}
    (uses : CarriesAt use log x i) :
    Nat.count (CarriesAt use log x) i < Nat.count (CarriesAt give log x) (i + 1) := by
  have one_more : Nat.count (CarriesAt use log x) (i + 1) = Nat.count (CarriesAt use log x) i + 1 :=
    Nat.count_succ_eq_succ_count_iff.mpr uses
  have paid := balanced _ (List.take_prefix (i + 1) log) x
  rw [← count_carriesAt, ← count_carriesAt] at paid
  omega

/-- A use is matched with an earlier give of the same key. -/
theorem Balanced.matched_spec (apart : ∀ e, use e = none ∨ give e = none)
    (balanced : Balanced give use log) {i : Nat} {x : Key} (uses : CarriesAt use log x i) :
    matched give use log i < i ∧ CarriesAt give log x (matched give use log i) := by
  have lt := balanced.lt_count uses
  rw [matched_eq uses]
  have given := Nat.nth_mem _ fun finite => lt.trans_le (Nat.count_le_card finite _)
  have le := Nat.nth_lt_of_lt_count lt
  refine ⟨lt_of_le_of_ne (by omega) fun same => ?_, given⟩
  -- the entry at `i` uses a key, so it gives none
  rw [same] at given
  obtain ⟨e, entry, gives⟩ := Option.bind_eq_some_iff.mp given
  unfold CarriesAt at uses
  rw [entry, Option.bind_some] at uses
  rcases apart e with unused | ungiven
  · simp [unused] at uses
  · simp [ungiven] at gives

/-- No give is matched twice. -/
theorem Balanced.matched_injective (apart : ∀ e, use e = none ∨ give e = none)
    (balanced : Balanced give use log) {i j : Nat} {x y : Key} (first : CarriesAt use log x i)
    (second : CarriesAt use log y j)
    (same : matched give use log i = matched give use log j) : i = j := by
  have key : x = y := by
    have given := (balanced.matched_spec apart first).2
    have given' := (balanced.matched_spec apart second).2
    rw [← same] at given'
    exact Option.some.inj (given.symm.trans given')
  subst key
  have rank : ∀ k, CarriesAt use log x k → Nat.count (CarriesAt give log x)
      (matched give use log k) = Nat.count (CarriesAt use log x) k := by
    intro k uses
    rw [matched_eq uses]
    exact Nat.count_nth fun finite => (balanced.lt_count uses).trans_le (Nat.count_le_card finite _)
  apply Nat.count_injective first second
  rw [← rank i first, ← rank j second, same]

end Matching
end XboxProxy.Misc
