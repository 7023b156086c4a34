import FpgaPlacer.Json.Text
import Mathlib

/-!
# Finite floats

A JSON integer that is read where a float is expected becomes the nearest float.
Integers of 64 bits stay far below the largest float, so none of them overflows.
The bounds below are rough: rounding adds at most one bit to a mantissa, and moves
the exponent by no more than twice the length of the mantissa.  A decimal fraction
may overflow, but it is never undefined.
-/

namespace FpgaPlacer.Binary64

open Float.Model
open Float.Model.UnpackedFloat

/-- A zero, or a finite float with a mantissa and an exponent that are bounded. -/
def Bounded (bits : Nat) (bound : Int) : UnpackedFloat → Prop
  | .zero _ => True
  | .finite _ mantissa exponent _ => mantissa < 2 ^ bits ∧ exponent ≤ bound
  | _ => False

namespace Bounded

variable {bits : Nat} {bound : Int} {float : UnpackedFloat}

theorem isFinite (bounded : Bounded bits bound float) : float.isFinite = true := by
  cases float with
  | zero sign => rfl
  | finite sign mantissa exponent positive => rfl
  | infinity sign => exact bounded.elim
  | notANumber => exact bounded.elim

theorem neg (bounded : Bounded bits bound float) : Bounded bits bound float.neg := by
  cases float with
  | zero sign => trivial
  | finite sign mantissa exponent positive => exact bounded
  | infinity sign => exact bounded.elim
  | notANumber => exact bounded.elim

theorem mono {moreBits : Nat} {moreBound : Int} (bounded : Bounded bits bound float)
    (wider : bits ≤ moreBits) (higher : bound ≤ moreBound) :
    Bounded moreBits moreBound float := by
  cases float with
  | zero sign => trivial
  | finite sign mantissa exponent positive =>
      exact ⟨Nat.lt_of_lt_of_le bounded.1 (Nat.pow_le_pow_right (by omega) wider),
        Int.le_trans bounded.2 higher⟩
  | infinity sign => exact bounded.elim
  | notANumber => exact bounded.elim

end Bounded

/-! ## Rounding -/

private theorem mantissa_ofMantissaAndAccuracy (mantissa : Nat) (accuracy : Accuracy) :
    (ExtendedMantissa.ofMantissaAndAccuracy mantissa accuracy).mantissa = mantissa := by
  unfold ExtendedMantissa.ofMantissaAndAccuracy
  split <;> rfl

private theorem mantissa_shiftRight_le (extended : ExtendedMantissa) (count : Nat) :
    (extended >>> count).mantissa ≤ extended.mantissa := by
  change (Nat.repeat ExtendedMantissa.shiftRightOne count extended).mantissa ≤ _
  induction count with
  | zero => exact Nat.le_refl _
  | succ count ih => exact Nat.le_trans (Nat.div_le_self _ _) ih

private theorem roundedMantissa_le (extended : ExtendedMantissa) :
    extended.roundedMantissa ≤ extended.mantissa + 1 := by
  unfold ExtendedMantissa.roundedMantissa Accuracy.roundToNearestEven
  split <;> omega

private theorem targetExponent_le {mantissa bits : Nat} {exponent bound : Int}
    (short : mantissa < 2 ^ (bits + 1)) (low : exponent ≤ bound)
    (normal : -1074 ≤ bound) :
    Format.targetExponent .binary64 (totalExponent mantissa exponent) ≤ bound + bits := by
  have width : mantissa.log2 ≤ bits := by
    by_cases zero : mantissa = 0
    · simp [zero]
    · exact Nat.le_of_lt_succ ((Nat.log2_lt zero).mpr short)
  have least : Format.binary64.minExponent = -1074 := by decide
  have precision : Format.binary64.mantissaBits = 53 := rfl
  simp only [Format.targetExponent, totalExponent, least, precision]
  omega

private theorem mantissa_shiftToTargetExponent_le (mantissa : Nat) (exponent : Int)
    (accuracy : Accuracy) :
    (shiftToTargetExponent .binary64 mantissa exponent accuracy).1.mantissa ≤ mantissa := by
  simpa [shiftToTargetExponent, shiftToExponent, mantissa_ofMantissaAndAccuracy] using
    mantissa_shiftRight_le (ExtendedMantissa.ofMantissaAndAccuracy mantissa accuracy) _

private theorem exponent_shiftToTargetExponent_le {mantissa bits : Nat}
    {exponent bound : Int} (accuracy : Accuracy) (short : mantissa < 2 ^ (bits + 1))
    (low : exponent ≤ bound) (normal : -1074 ≤ bound) :
    (shiftToTargetExponent .binary64 mantissa exponent accuracy).2 ≤ bound + bits := by
  have target := targetExponent_le short low normal
  simp only [shiftToTargetExponent, shiftToExponent]
  omega

theorem bounded_roundWithAccuracy {mantissa bits : Nat} {exponent bound : Int}
    (sign : Sign) (accuracy : Accuracy) (short : mantissa < 2 ^ bits)
    (low : exponent ≤ bound) (normal : -1074 ≤ bound) :
    Bounded (bits + 1) (bound + bits + bits)
      (roundWithAccuracy .binary64 sign mantissa exponent accuracy) := by
  have longer : 2 ^ bits < 2 ^ (bits + 1) := Nat.pow_lt_pow_succ (by omega)
  have shifted := mantissa_shiftToTargetExponent_le mantissa exponent accuracy
  have lowShifted :=
    exponent_shiftToTargetExponent_le accuracy (Nat.lt_trans short longer) low normal
  unfold roundWithAccuracy
  generalize shiftToTargetExponent .binary64 mantissa exponent accuracy = first at *
  have rounded := roundedMantissa_le first.1
  have shortRounded : first.1.roundedMantissa < 2 ^ (bits + 1) := by omega
  have shiftedAgain :=
    mantissa_shiftToTargetExponent_le first.1.roundedMantissa first.2 .exact
  have lowAgain :=
    exponent_shiftToTargetExponent_le .exact shortRounded lowShifted (by omega)
  dsimp only
  split
  · trivial
  · exact ⟨Nat.lt_of_le_of_lt shiftedAgain shortRounded, lowAgain⟩

theorem bounded_round {mantissa bits : Nat} (sign : Sign) (short : mantissa < 2 ^ bits) :
    Bounded (bits + 53 + 1) (0 + ↑(bits + 53) + ↑(bits + 53))
      (UnpackedFloat.round .binary64 sign mantissa 0) := by
  have precision : Format.binary64.mantissaBits = 53 := rfl
  have target : -53 ≤ Format.targetExponent .binary64 (totalExponent mantissa 0) := by
    simp only [Format.targetExponent, totalExponent, precision]
    omega
  unfold UnpackedFloat.round decreaseExponent
  generalize Format.targetExponent .binary64 (totalExponent mantissa 0) = exponent at *
  refine bounded_roundWithAccuracy sign .exact ?_ (by omega) (by omega)
  rw [Nat.shiftLeft_eq, Nat.pow_add]
  exact Nat.mul_lt_mul_of_lt_of_le short
    (Nat.pow_le_pow_right (by omega) (by omega)) (by omega)

theorem bounded_ofUInt64 (value : UInt64) :
    Bounded 118 234 (UnpackedFloat.ofUInt64 .binary64 value) := by
  have short := value.toNat_lt
  simp only [UnpackedFloat.ofUInt64, UnpackedFloat.ofNat, UnpackedFloat.ofInt,
    UnpackedFloat.normalize]
  split
  · have shortOpposite : (-(value.toNat : Int)).toNat < 2 ^ 64 := by omega
    exact (bounded_round .negative shortOpposite).mono (by omega) (by omega)
  · trivial
  · exact (bounded_round .positive short).mono (by omega) (by omega)

theorem bounded_mul {first second : UnpackedFloat} {firstBits secondBits : Nat}
    {firstBound secondBound : Int} (left : Bounded firstBits firstBound first)
    (right : Bounded secondBits secondBound second)
    (normal : -1074 ≤ firstBound + secondBound) :
    Bounded (firstBits + secondBits + 1)
      (firstBound + secondBound + ↑(firstBits + secondBits) + ↑(firstBits + secondBits))
      (UnpackedFloat.mul .binary64 first second) := by
  cases first with
  | infinity sign => exact left.elim
  | notANumber => exact left.elim
  | zero sign =>
      cases second with
      | infinity sign => exact right.elim
      | notANumber => exact right.elim
      | zero sign => trivial
      | finite sign mantissa exponent positive => trivial
  | finite sign mantissa exponent positive =>
      cases second with
      | infinity sign => exact right.elim
      | notANumber => exact right.elim
      | zero sign => trivial
      | finite sign mantissa exponent positive =>
          refine bounded_roundWithAccuracy _ .exact ?_ (Int.add_le_add left.2 right.2) normal
          rw [Nat.pow_add]
          exact Nat.mul_lt_mul'' left.1 right.1

/-! ## Bit patterns -/

theorem bounded_unpack {pattern : BitVec (Format.numBits .binary64)} {bound : Int}
    (normal : -1074 ≤ bound) (inRange : bound ≤ 971)
    (low : ((unpackExponent pattern).toNat : Int) ≤ bound + 1075) :
    Bounded 53 bound (UnpackedFloat.unpack .binary64 pattern) := by
  have bias : Format.binary64.exponentBias = 1023 := by decide
  have top : (-1#(Format.binary64.exponentBits)).toNat = 2047 := by decide
  have notTop : unpackExponent pattern ≠ -1#_ := by
    intro isTop
    rw [isTop, top] at low
    omega
  simp only [UnpackedFloat.unpack, if_neg notTop, bias]
  split
  · rename_i bottom
    split
    · trivial
    · have short := (unpackMantissa pattern).isLt
      simp only [Bounded, bottom] at short ⊢
      exact ⟨Nat.lt_trans short (by omega), by simpa using normal⟩
  · exact ⟨(1#1 ++ unpackMantissa pattern).isLt, by simp; omega⟩

theorem bounded_unpack_pack {bits : Nat} {bound : Int} {float : UnpackedFloat}
    (bounded : Bounded bits bound float) (normal : -1074 ≤ bound) (inRange : bound ≤ 971) :
    Bounded 53 bound (Float.Model.pack float).unpack := by
  refine bounded_unpack normal inRange ?_
  cases float with
  | infinity sign => exact bounded.elim
  | notANumber => exact bounded.elim
  | zero sign =>
      simp [Float.Model.pack, UnpackedFloat.pack, packedZero]
      omega
  | finite sign mantissa exponent positive =>
      obtain ⟨-, low⟩ := bounded
      have bias : Format.binary64.exponentBias = 1023 := by decide
      simp only [Float.Model.pack, UnpackedFloat.pack, bias]
      rw [if_neg (by omega)]
      split <;> simp <;> omega

/-! ## Integers -/

private theorem bounded_ofScientific {value : Nat} (short : value < 2 ^ 64) :
    Bounded 122 189 (UnpackedFloat.ofScientific .binary64 value 0) := by
  have width : Format.binary64.exponentBits = 11 := rfl
  have precision : Format.binary64.mantissaBits = 53 := rfl
  unfold UnpackedFloat.ofScientific
  split
  · trivial
  · rename_i nonzero
    have inRange : ¬ (0 : Int) < -((2 ^ Format.binary64.exponentBits : Int) + value.log2) := by
      rw [width]
      omega
    rw [if_neg (by simp), if_neg inRange, if_pos (Int.le_refl _)]
    have shifted : value <<< Format.binary64.mantissaBits < 2 ^ (64 + 53) := by
      rw [precision, Nat.shiftLeft_eq, Nat.pow_add]
      exact Nat.mul_lt_mul_of_pos_right short (by omega)
    -- Stated for any two floats: on these two the product would be evaluated.
    have product {first second : UnpackedFloat} (left : Bounded 117 (-53) first)
        (right : Bounded 4 0 second) :
        Bounded 122 189 (UnpackedFloat.mul .binary64 first second) :=
      (bounded_mul left right (by omega)).mono (by omega) (by omega)
    refine product ?_ ?_
    · exact ⟨shifted, Int.le_refl _⟩
    · exact ⟨by decide, by decide⟩

private theorem isFinite_ofModel_pack {bits : Nat} {bound : Int} {float : UnpackedFloat}
    (bounded : Bounded bits bound float) (normal : -1074 ≤ bound) (inRange : bound ≤ 971) :
    (Float.ofModel (.pack float)).isFinite = true :=
  (bounded_unpack_pack bounded normal inRange).isFinite

theorem isFinite_ofNat {value : Nat} (short : value < 2 ^ 64) :
    (Float.ofNat value).isFinite = true := by
  change (Float.ofScientific value false 0).isFinite = true
  unfold Float.ofScientific
  split
  · have left := bounded_unpack_pack (bounded_ofUInt64 value.toUInt64) (by omega) (by omega)
    have one : Bounded 53 0 (UnpackedFloat.unpack .binary64 0x3FF0000000000000#64) :=
      bounded_unpack (by omega) (by omega) (by decide)
    have right := bounded_unpack_pack one (by omega) (by omega)
    exact isFinite_ofModel_pack (bounded_mul left right (by omega)) (by omega) (by omega)
  · exact isFinite_ofModel_pack (bounded_ofScientific short) (by omega) (by omega)

theorem bounded_of_isFinite {float : Float} (finite : float.isFinite = true) :
    Bounded 53 971 float.toModel.unpack := by
  let exponent := @unpackExponent .binary64 float.toModel.toBits.toBitVec
  have notTop : exponent ≠ -1#_ := by
    intro isTop
    simp only [Float.isFinite, Float.Model.isFinite, Float.Model.unpack,
      UnpackedFloat.unpack] at finite
    rw [if_pos isTop] at finite
    split at finite <;> cases finite
  have below : exponent.toNat < 2 ^ 11 := exponent.isLt
  have notLast : exponent.toNat ≠ 2047 := fun last => notTop (BitVec.eq_of_toNat_eq last)
  refine bounded_unpack (by omega) (by omega) ?_
  change (exponent.toNat : Int) ≤ 971 + 1075
  omega

theorem isFinite_neg {float : Float} (finite : float.isFinite = true) :
    float.neg.isFinite = true :=
  isFinite_ofModel_pack (bounded_of_isFinite finite).neg (by omega) (by omega)

theorem isFinite_ofInt {value : Int} (kept : Json.Text.keepsInteger value = true) :
    (Float.ofInt value).isFinite = true := by
  simp only [Json.Text.keepsInteger, Bool.and_eq_true, decide_eq_true_eq] at kept
  have least : Int64.minValue.toInt = -2 ^ 63 := by decide
  have most : UInt64.size = 2 ^ 64 := rfl
  cases value with
  | ofNat value => exact isFinite_ofNat (by simp at kept; omega)
  | negSucc value => exact isFinite_neg (isFinite_ofNat (by omega))

/-! ## Decimal fractions -/

def nonzero : UnpackedFloat → Bool
  | .finite .. => true
  | _ => false

theorem isNaN_roundWithAccuracy (sign : Sign) (mantissa : Nat) (exponent : Int)
    (accuracy : Accuracy) :
    (roundWithAccuracy .binary64 sign mantissa exponent accuracy).isNaN = false := by
  unfold roundWithAccuracy
  dsimp only
  split <;> rfl

theorem isNaN_mul {first second : UnpackedFloat} (left : first.isFinite = true)
    (right : second.isFinite = true) :
    (UnpackedFloat.mul .binary64 first second).isNaN = false := by
  match first, second, left, right with
  | .zero _, .zero _, _, _ => rfl
  | .zero _, .finite .., _, _ => rfl
  | .finite .., .zero _, _, _ => rfl
  | .finite .., .finite .., _, _ => exact isNaN_roundWithAccuracy _ _ _ _

theorem isNaN_div {first second : UnpackedFloat} (left : first.isFinite = true)
    (right : nonzero second = true) :
    (UnpackedFloat.div .binary64 first second).isNaN = false := by
  match first, second, left, right with
  | .zero _, .finite .., _, _ => rfl
  | .finite .., .finite .., _, _ => exact isNaN_roundWithAccuracy _ _ _ _

theorem isFinite_of_nonzero {float : UnpackedFloat} (isNonzero : nonzero float = true) :
    float.isFinite = true := by
  match float, isNonzero with
  | .finite .., _ => rfl

theorem isNaN_unpack {pattern : BitVec (Format.numBits .binary64)}
    (canonical : unpackExponent pattern = -1#_ → unpackMantissa pattern = 0#_) :
    (UnpackedFloat.unpack .binary64 pattern).isNaN = false := by
  unfold UnpackedFloat.unpack
  dsimp only
  split
  · rename_i top
    rw [if_pos (canonical top)]
    rfl
  · split
    · split <;> rfl
    · rfl

theorem isNaN_unpack_pack {float : UnpackedFloat} (defined : float.isNaN = false) :
    (Float.Model.pack float).unpack.isNaN = false := by
  refine isNaN_unpack (fun top => ?_)
  cases float with
  | notANumber => cases defined
  | infinity sign => simp [Float.Model.pack, UnpackedFloat.pack, packedInfinity]
  | zero sign => simp [Float.Model.pack, UnpackedFloat.pack, packedZero]
  | finite sign mantissa exponent positive =>
      simp only [Float.Model.pack, UnpackedFloat.pack] at top ⊢
      split at top
      · rename_i above
        rw [if_pos above]
        simp [packedInfinity]
      · rename_i below
        have short : (-1#(Format.binary64.exponentBits)).toNat = 2047 := by decide
        have width : 2 ^ Format.binary64.exponentBits = 2048 := by decide
        split at top
        · rw [unpackExponent_packComponents] at top
          have same := congrArg BitVec.toNat top
          rw [short, BitVec.toNat_ofNat, width] at same
          omega
        · rw [unpackExponent_packComponents] at top
          exact absurd top (by decide)

theorem nonzero_powerOfTen : ∀ exponent : Fin 23,
    nonzero (Float.exactlyRepresentablePowersOfTen[exponent]).toModel.unpack = true := by
  decide +kernel

private theorem isNaN_ofModel_pack {float : UnpackedFloat} (defined : float.isNaN = false) :
    (Float.ofModel (.pack float)).isNaN = false :=
  isNaN_unpack_pack defined

theorem isNaN_unpackedOfScientific (mantissa : Nat) (exponent : Int) :
    (UnpackedFloat.ofScientific .binary64 mantissa exponent).isNaN = false := by
  unfold UnpackedFloat.ofScientific
  split
  · rfl
  · split
    · rfl
    · split
      · rfl
      · split
        · exact isNaN_mul rfl rfl
        · exact isNaN_div rfl rfl

theorem isNaN_ofScientific (mantissa : Nat) (negative : Bool) (exponent : Nat) :
    (Float.ofScientific mantissa negative exponent).isNaN = false := by
  unfold Float.ofScientific
  split
  · have left := (bounded_unpack_pack (bounded_ofUInt64 mantissa.toUInt64)
      (by omega) (by omega)).isFinite
    have right := nonzero_powerOfTen ⟨exponent, by omega⟩
    dsimp only
    split
    · exact isNaN_ofModel_pack (isNaN_div left right)
    · exact isNaN_ofModel_pack (isNaN_mul left (isFinite_of_nonzero right))
  · exact isNaN_ofModel_pack (isNaN_unpackedOfScientific mantissa _)

theorem isNaN_decimalFloat (whole fraction : List Nat) (exponent : Int) :
    (Reader.decimalFloat whole fraction exponent).isNaN = false := by
  unfold Reader.decimalFloat
  dsimp only
  split
  · rfl
  · split
    · rfl
    · split
      · exact isNaN_ofScientific _ _ _
      · exact isNaN_ofScientific _ _ _

theorem isFinite_of_not_isInf {float : Float} (defined : float.isNaN = false)
    (small : float.isInf = false) : float.isFinite = true := by
  unfold Float.isNaN Float.Model.isNaN at defined
  unfold Float.isInf Float.Model.isInf at small
  unfold Float.isFinite Float.Model.isFinite
  generalize float.toModel.unpack = unpacked at *
  match unpacked, defined, small with
  | .zero _, _, _ => rfl
  | .finite .., _, _ => rfl

end FpgaPlacer.Binary64
