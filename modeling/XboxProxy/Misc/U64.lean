import Mathlib.Data.UInt
import Mathlib.Order.MinMax

/-!
# Arithmetic of `u64`

The operations of `u64` that do not wrap, and what they say of the numbers. A checked operation
is `none` where the plain one overflows.
-/

namespace XboxProxy.Misc

/-- `u64::checked_add`. -/
def checkedAdd (a b : UInt64) : Option UInt64 :=
  if a.toNat + b.toNat < 2 ^ 64 then some (a + b) else none

/-- `u64::checked_sub`. -/
def checkedSub (a b : UInt64) : Option UInt64 := if b ≤ a then some (a - b) else none

/-- `u64::saturating_add`. -/
def saturatingAdd (a b : UInt64) : UInt64 := (checkedAdd a b).getD (UInt64.ofNat (2 ^ 64 - 1))

/-- `u64::saturating_sub`. -/
def saturatingSub (a b : UInt64) : UInt64 := (checkedSub a b).getD 0

/-- `Ord::clamp`. -/
def clamp (x low high : UInt64) : UInt64 :=
  if x < low then low else if high < x then high else x

theorem exists_checkedAdd {a b : UInt64} (fits : a.toNat + b.toNat < 2 ^ 64) :
    ∃ c, checkedAdd a b = some c ∧ c.toNat = a.toNat + b.toNat := by
  refine ⟨a + b, if_pos fits, ?_⟩
  rw [UInt64.toNat_add, Nat.mod_eq_of_lt fits]

theorem exists_checkedSub {a b : UInt64} (fits : b.toNat ≤ a.toNat) :
    ∃ c, checkedSub a b = some c ∧ c.toNat = a.toNat - b.toNat := by
  have le : b ≤ a := UInt64.le_iff_toNat_le.mpr fits
  exact ⟨a - b, if_pos le, UInt64.toNat_sub_of_le _ _ le⟩

theorem toNat_saturatingAdd (a b : UInt64) :
    (saturatingAdd a b).toNat = min (a.toNat + b.toNat) (2 ^ 64 - 1) := by
  unfold saturatingAdd
  by_cases fits : a.toNat + b.toNat < 2 ^ 64
  · obtain ⟨c, sum, toNat⟩ := exists_checkedAdd fits
    rw [sum, Option.getD_some, toNat]
    omega
  · have top : (UInt64.ofNat (2 ^ 64 - 1)).toNat = 2 ^ 64 - 1 := by decide
    rw [checkedAdd, if_neg fits, Option.getD_none, top]
    omega

theorem toNat_saturatingSub (a b : UInt64) :
    (saturatingSub a b).toNat = a.toNat - b.toNat := by
  unfold saturatingSub
  by_cases fits : b.toNat ≤ a.toNat
  · obtain ⟨c, rest, toNat⟩ := exists_checkedSub fits
    rw [rest, Option.getD_some, toNat]
  · have under : ¬ b ≤ a := by rwa [UInt64.le_iff_toNat_le]
    rw [checkedSub, if_neg under, Option.getD_none, UInt64.toNat_zero]
    omega

theorem toNat_min (a b : UInt64) : (min a b).toNat = min a.toNat b.toNat := by
  change (if a ≤ b then a else b).toNat = _
  split
  · rename_i le
    rw [UInt64.le_iff_toNat_le] at le
    omega
  · rename_i gt
    rw [UInt64.le_iff_toNat_le] at gt
    omega

theorem toNat_clamp (x : UInt64) {low high : UInt64} (ordered : low ≤ high) :
    (clamp x low high).toNat = max low.toNat (min x.toNat high.toNat) := by
  rw [UInt64.le_iff_toNat_le] at ordered
  unfold clamp
  split
  · rename_i below
    rw [UInt64.lt_iff_toNat_lt] at below
    omega
  · rename_i above
    rw [UInt64.lt_iff_toNat_lt] at above
    split
    · rename_i beyond
      rw [UInt64.lt_iff_toNat_lt] at beyond
      omega
    · rename_i within
      rw [UInt64.lt_iff_toNat_lt] at within
      omega

end XboxProxy.Misc
