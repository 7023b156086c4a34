import Mathlib.Data.Prod.Lex
import Mathlib.Data.Int.Order.Basic
import FpgaPlacer.Scalar

/-!
# Orders of costs

A search for the least cost makes sense where the comparisons of costs agree with
one another.  Exact costs always do.  Floats do as long as each of them is a
number: they are then ordered as their sign, exponent and mantissa are, in this
order of importance, a zero being neither positive nor negative.
-/

namespace FpgaPlacer

/-- Among the admitted values, `atMost` is a total preorder, and `below` is its
strict part. -/
structure Scalar.Ordered {κ : Type} [Scalar κ] (admitted : κ → Prop) : Prop where
  total : ∀ {left right}, admitted left → admitted right →
    atMost left right = true ∨ atMost right left = true
  trans : ∀ {left middle right}, admitted left → admitted middle → admitted right →
    atMost left middle = true → atMost middle right = true →
    atMost left right = true
  strict : ∀ {left right}, admitted left → admitted right →
    (below left right = true ↔ atMost right left = false)

namespace Scalar.Ordered

variable {κ : Type} [Scalar κ] {admitted : κ → Prop}

theorem mono (ordered : Ordered admitted) {fewer : κ → Prop}
    (inside : ∀ {cost}, fewer cost → admitted cost) : Ordered fewer where
  total left right := ordered.total (inside left) (inside right)
  trans left middle right :=
    ordered.trans (inside left) (inside middle) (inside right)
  strict left right := ordered.strict (inside left) (inside right)

theorem of_rank {ι : Type} [LinearOrder ι] (rank : κ → ι)
    (atMost_iff : ∀ {left right : κ}, admitted left → admitted right →
      (atMost left right = true ↔ rank left ≤ rank right))
    (below_iff : ∀ {left right : κ}, admitted left → admitted right →
      (below left right = true ↔ rank left < rank right)) :
    Ordered admitted := by
  constructor
  · intro left right first second
    rw [atMost_iff first second, atMost_iff second first]
    exact le_total (rank left) (rank right)
  · intro left middle right first second third
    rw [atMost_iff first second, atMost_iff second third, atMost_iff first third]
    exact le_trans
  · intro left right first second
    rw [below_iff first second, ← not_le, ← atMost_iff second first,
      Bool.not_eq_true]

end Scalar.Ordered

theorem Scalar.ordered_int (admitted : Int → Prop) : Ordered admitted :=
  .of_rank id (fun _ _ => decide_eq_true_iff) (fun _ _ => decide_eq_true_iff)

namespace FloatOrder

open Float.Model Float.Model.UnpackedFloat

/-- Sign, exponent and mantissa, so that the larger of two numbers has the larger
rank. -/
def rank : UnpackedFloat → Int ×ₗ Int ×ₗ Int
  | .infinity .positive => toLex (2, toLex (0, 0))
  | .finite .positive mantissa exponent _ => toLex (1, toLex (exponent, mantissa))
  | .zero _ | .notANumber => toLex (0, toLex (0, 0))
  | .finite .negative mantissa exponent _ =>
      toLex (-1, toLex (-exponent, -mantissa))
  | .infinity .negative => toLex (-2, toLex (0, 0))

theorem compare_natCast (left right : Nat) :
    compare (left : Int) right = compare left right := by
  simp only [compare, compareOfLessAndEq, Int.ofNat_lt, Int.natCast_inj]

theorem compare_neg (left right : Int) :
    compare (-left) (-right) = (compare left right).swap := by
  rw [Int.compare_swap]
  simp [compare, compareOfLessAndEq, eq_comm]

theorem compare_finite (sign : Sign) {leftMantissa rightMantissa : Nat}
    {leftExponent rightExponent : Int} (left : 0 < leftMantissa)
    (right : 0 < rightMantissa) :
    (finite sign leftMantissa leftExponent left).compare
        (finite sign rightMantissa rightExponent right) =
      some (compare (rank (finite sign leftMantissa leftExponent left))
        (rank (finite sign rightMantissa rightExponent right))) := by
  cases sign with
  | positive =>
      change some ((compare leftExponent rightExponent).then _) =
        some ((compare leftExponent rightExponent).then
          (compare (leftMantissa : Int) rightMantissa))
      rw [compare_natCast]
  | negative =>
      change some ((compare leftExponent rightExponent).then _).swap =
        some ((compare (-leftExponent) (-rightExponent)).then
          (compare (-leftMantissa : Int) (-rightMantissa)))
      rw [compare_neg, compare_neg, compare_natCast, Ordering.swap_then]

theorem compare_eq_compare_rank {left right : UnpackedFloat}
    (number : left.isNaN = false) (numberToo : right.isNaN = false) :
    left.compare right = some (compare (rank left) (rank right)) := by
  cases left with
  | notANumber => cases number
  | infinity sign =>
      cases right with
      | notANumber => cases numberToo
      | infinity other => cases sign <;> cases other <;> rfl
      | zero other => cases sign <;> rfl
      | finite other => cases sign <;> cases other <;> rfl
  | zero sign =>
      cases right with
      | notANumber => cases numberToo
      | infinity other => cases other <;> rfl
      | zero other => rfl
      | finite other => cases other <;> rfl
  | finite sign mantissa exponent positive =>
      cases right with
      | notANumber => cases numberToo
      | infinity other => cases sign <;> cases other <;> rfl
      | zero other => cases sign <;> rfl
      | finite other =>
          cases sign <;> cases other
          · exact compare_finite ..
          · rfl
          · rfl
          · exact compare_finite ..

end FloatOrder

/-- Single-precision costs can be compared as long as each of them is a number. -/
theorem Scalar.ordered_float32 : Ordered (fun cost : Float32 => cost.isNaN = false) := by
  have compared {left right : Float32} (number : left.isNaN = false)
      (numberToo : right.isNaN = false) :
      left.toModel.unpack.compare right.toModel.unpack =
        some (compare (FloatOrder.rank left.toModel.unpack)
          (FloatOrder.rank right.toModel.unpack)) :=
    FloatOrder.compare_eq_compare_rank number numberToo
  apply Ordered.of_rank (fun cost => FloatOrder.rank cost.toModel.unpack)
  · intro left right number numberToo
    change decide (left ≤ right) = true ↔ _
    rw [decide_eq_true_iff]
    change decide (left.toModel.unpack.le right.toModel.unpack = true) = true ↔ _
    rw [decide_eq_true_iff, Float.Model.UnpackedFloat.le, compared number numberToo]
    exact Ordering.isLE_iff_ne_gt.trans compare_le_iff_le
  · intro left right number numberToo
    change decide (left < right) = true ↔ _
    rw [decide_eq_true_iff]
    change decide (left.toModel.unpack.lt right.toModel.unpack = true) = true ↔ _
    rw [decide_eq_true_iff, Float.Model.UnpackedFloat.lt, compared number numberToo]
    exact beq_iff_eq.trans ((Option.some_inj).trans compare_lt_iff_lt)

end FpgaPlacer
