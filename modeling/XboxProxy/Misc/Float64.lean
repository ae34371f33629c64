import Mathlib.Algebra.Order.Ring.Rat
import Mathlib.Data.Rat.Defs

/-!
# The floating-point values of the program

Speeds and scores are `f64` values that are never NaN: every speed comes from a division by
a positive duration or is `0.0`. On these values `partial_cmp` is a total order. Nothing in
the development uses a law of floating-point arithmetic, so the operations are a class: the
results hold for rounded arithmetic as well as for the exact rationals, which are the
instance that computes.
-/

namespace XboxProxy.Misc

/-- `f64` without NaN: the order of `partial_cmp` and the operations the program applies. -/
class Float64 (F : Type) extends LinearOrder F, Mul F, Sub F, Div F where
  /-- `n as f64`, also the value of the literal `n.0`. -/
  ofNat : Nat → F
  /-- `f64::MIN`. -/
  minFinite : F

instance : Float64 ℚ where
  toLinearOrder := inferInstance
  ofNat n := n
  minFinite := -((2 : ℚ) ^ 1024 - 2 ^ 971)

end XboxProxy.Misc
