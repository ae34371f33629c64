import Mathlib.Data.List.Basic

/-!
# Chunks of a list

`chunks n` of a stream: pieces of `n` elements in order, the last one as short as what is
left. The first `k` of them are the first `k * n` elements.
-/

namespace XboxProxy.Misc

variable {α : Type}

/-- At most `fuel` chunks; a list has no more than its length. -/
def chunksFrom (n : Nat) : Nat → List α → List (List α)
  | 0, _ => []
  | _ + 1, [] => []
  | fuel + 1, x :: l => (x :: l).take n :: chunksFrom n fuel ((x :: l).drop n)

/-- `chunks(n)`, for a positive `n`. -/
def chunks (n : Nat) (l : List α) : List (List α) := chunksFrom n l.length l

theorem flatten_take_chunksFrom {n : Nat} (pos : 0 < n) {fuel : Nat} {l : List α}
    (enough : l.length ≤ fuel) (k : Nat) :
    ((chunksFrom n fuel l).take k).flatten = l.take (k * n) := by
  induction k generalizing fuel l with
  | zero => simp
  | succ k ih =>
    match fuel, l with
    | 0, l =>
      rw [List.eq_nil_of_length_eq_zero (Nat.le_zero.mp enough)]
      simp [chunksFrom]
    | fuel + 1, [] => simp [chunksFrom]
    | fuel + 1, x :: l =>
      have rest : ((x :: l).drop n).length ≤ fuel := by
        simp only [List.length_drop, List.length_cons] at enough ⊢
        omega
      rw [chunksFrom, List.take_succ_cons, List.flatten_cons, ih rest, Nat.succ_mul, Nat.add_comm,
        List.take_add]

theorem length_chunksFrom {n : Nat} (pos : 0 < n) {fuel : Nat} {l : List α}
    (enough : l.length ≤ fuel) : (chunksFrom n fuel l).length = (l.length + n - 1) / n := by
  induction fuel generalizing l with
  | zero =>
    rw [List.eq_nil_of_length_eq_zero (Nat.le_zero.mp enough)]
    exact (Nat.div_eq_of_lt (by simp only [List.length_nil]; omega)).symm
  | succ fuel ih =>
    cases l with
    | nil => exact (Nat.div_eq_of_lt (by simp only [List.length_nil]; omega)).symm
    | cons x l =>
      have rest : ((x :: l).drop n).length ≤ fuel := by
        simp only [List.length_drop, List.length_cons] at enough ⊢
        omega
      rw [chunksFrom, List.length_cons, ih rest, List.length_drop, List.length_cons]
      by_cases last : l.length + 1 ≤ n
      · have none : (l.length + 1 - n + n - 1) / n = 0 := Nat.div_eq_of_lt (by omega)
        have one : (l.length + 1 + n - 1) / n = 1 :=
          Nat.div_eq_of_lt_le (by omega) (by omega)
        rw [none, one]
      · have shorter : l.length + 1 + n - 1 = (l.length + 1 - n + n - 1) + n := by omega
        rw [shorter, Nat.add_div_right _ pos]

/-- The first `k` chunks are the first `k * n` elements. -/
theorem flatten_take_chunks {n : Nat} (pos : 0 < n) (l : List α) (k : Nat) :
    ((chunks n l).take k).flatten = l.take (k * n) :=
  flatten_take_chunksFrom pos (Nat.le_refl _) k

/-- There are as many chunks as it takes. -/
theorem length_chunks {n : Nat} (pos : 0 < n) (l : List α) :
    (chunks n l).length = (l.length + n - 1) / n :=
  length_chunksFrom pos (Nat.le_refl _)

end XboxProxy.Misc
