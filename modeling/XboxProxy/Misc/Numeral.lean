import Mathlib

/-!
# Numerals

`Nat.toDigits b n` is the text of a number in base `b`. A reader that takes the digits one
after another gets the number back, and a decimal numeral without a leading zero is the text
of the number it stands for.
-/

namespace XboxProxy.Misc

variable {b : Nat}

/-- A numeral is a digit, or the numeral of a positive number and one more digit. -/
theorem toDigits_induction {motive : Nat → List Char → Prop} (base : 1 < b)
    (digit : ∀ d < b, motive d [d.digitChar])
    (snoc : ∀ n d, 0 < n → d < b → motive n (Nat.toDigits b n) →
      motive (b * n + d) (Nat.toDigits b n ++ [d.digitChar])) (n : Nat) :
    motive n (Nat.toDigits b n) := by
  induction n using Nat.strongRecOn with
  | ind n ih =>
    rcases Nat.lt_or_ge n b with small | large
    · rw [Nat.toDigits_of_lt_base small]
      exact digit n small
    · have positive : 0 < n / b := Nat.div_pos large (by omega)
      have step := snoc (n / b) (n % b) positive (Nat.mod_lt n (by omega))
        (ih (n / b) (Nat.div_lt_self (by omega) base))
      rw [Nat.div_add_mod] at step
      rw [Nat.toDigits_of_base_le base large]
      exact step

theorem exists_of_mem_toDigits (base : 1 < b) {n : Nat} {c : Char} (member : c ∈ Nat.toDigits b n) :
    ∃ d < b, c = d.digitChar := by
  revert member
  refine toDigits_induction (motive := fun _ l => c ∈ l → ∃ d < b, c = d.digitChar) base ?_ ?_ n
  · intro d small member
    exact ⟨d, small, List.mem_singleton.mp member⟩
  · intro n d _ small ih member
    rcases List.mem_append.mp member with earlier | last
    · exact ih earlier
    · exact ⟨d, small, List.mem_singleton.mp last⟩

/-- A numeral of more than one digit does not start with a zero. -/
theorem head?_toDigits (base : 1 < b) (n : Nat) :
    (Nat.toDigits b n).length = 1 ∨ (Nat.toDigits b n).head? ≠ some '0' := by
  have nonzero : 0 < n → (Nat.toDigits b n).head? ≠ some '0' := by
    refine toDigits_induction (motive := fun n l => 0 < n → l.head? ≠ some '0') base ?_ ?_ n
    · intro d _ positive
      simp [Nat.ne_of_gt positive]
    · intro n d positive _ ih _
      rw [List.head?_append_of_ne_nil _ Nat.toDigits_ne_nil]
      exact ih positive
  rcases Nat.eq_zero_or_pos n with rfl | positive
  · exact Or.inl (by rw [Nat.toDigits_zero, List.length_singleton])
  · exact Or.inr (nonzero positive)

/-- Reading a numeral digit by digit gives the number it was written from. -/
theorem foldlM_toDigits (base : 1 < b) {digit : Char → Option Nat}
    (reads : ∀ d < b, digit d.digitChar = some d) (n : Nat) :
    (Nat.toDigits b n).foldlM (fun n c => (digit c).map (b * n + ·)) 0 = some n := by
  refine toDigits_induction
    (motive := fun n l => l.foldlM (fun n c => (digit c).map (b * n + ·)) 0 = some n) base ?_ ?_ n
  · intro d small
    simp [reads d small]
  · intro n d _ small ih
    rw [List.foldlM_append, ih]
    simp [reads d small]

theorem digitChar_of_isDigit {c : Char} (isDigit : c.isDigit) :
    (c.toNat - '0'.toNat).digitChar = c ∧ c.toNat - '0'.toNat < 10 := by
  obtain ⟨low, high⟩ : 48 ≤ c.toNat ∧ c.toNat ≤ 57 := by
    simpa [Char.isDigit, UInt32.le_iff_toNat_le] using isDigit
  have zero : '0'.toNat = 48 := rfl
  refine ⟨?_, by omega⟩
  have small : c.toNat - '0'.toNat < 10 := by omega
  apply Char.toNat_inj.mp
  rw [Nat.toNat_digitChar_of_lt_ten small]
  omega

/-- A decimal numeral without a leading zero is the text of its value. -/
theorem toDigits_ofDigitChars {digits : List Char} (nonempty : digits ≠ [])
    (decimal : ∀ c ∈ digits, c.isDigit)
    (leading : digits.length = 1 ∨ digits.head? ≠ some '0') :
    Nat.toDigits 10 (Nat.ofDigitChars 10 digits 0) = digits := by
  induction digits using List.reverseRecOn with
  | nil => exact absurd rfl nonempty
  | append_singleton front c ih =>
    obtain ⟨isChar, small⟩ := digitChar_of_isDigit (decimal c (by simp))
    have value : Nat.ofDigitChars 10 (front ++ [c]) 0 =
        10 * Nat.ofDigitChars 10 front 0 + (c.toNat - '0'.toNat) := by
      rw [Nat.ofDigitChars_append, Nat.ofDigitChars_cons, Nat.ofDigitChars_nil]
    rw [value]
    by_cases single : front = []
    · subst single
      rw [Nat.ofDigitChars_nil, Nat.mul_zero, Nat.zero_add, Nat.toDigits_of_lt_base small, isChar]
      rfl
    · have head : front.head? ≠ some '0' := by
        have longer : (front ++ [c]).length ≠ 1 := by
          have := List.length_pos_iff.mpr single
          rw [List.length_append, List.length_singleton]
          omega
        rw [← List.head?_append_of_ne_nil front single]
        exact leading.resolve_left longer
      have written := ih single (fun d member => decimal d (by simp [member])) (Or.inr head)
      have positive : 0 < Nat.ofDigitChars 10 front 0 := by
        apply Nat.pos_of_ne_zero
        intro zero
        rw [zero] at written
        exact head (by rw [← written]; rfl)
      rw [← Nat.toDigits_append_toDigits (by omega) positive small, written,
        Nat.toDigits_of_lt_base small, isChar]

end XboxProxy.Misc
