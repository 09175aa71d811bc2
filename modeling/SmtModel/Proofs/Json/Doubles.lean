import Mathlib
import SmtModel.Json.Basic

/-!
# Numbers are read as finite doubles

A number in a text is read as the nearest double, and one that is nearest to infinity is
not read at all. No number is read as a NaN either: a decimal is zero, or is rounded from
a product or a quotient of numbers other than zero, and neither of these is a NaN. So
only finite doubles are read from numbers (`Json.isFinite_of_float?`).
-/

namespace SmtModel

open Float.Model

namespace Double

/-- An unpacked number is only a NaN if its bits say so. -/
theorem isNaN_unpack {bits : BitVec Format.binary64.numBits}
    (isNaN : (UnpackedFloat.unpack Format.binary64 bits).isNaN = true) :
    UnpackedFloat.unpackExponent bits = -1#11 ∧ UnpackedFloat.unpackMantissa bits ≠ 0#52 := by
  simp only [UnpackedFloat.unpack] at isNaN
  split_ifs at isNaN with exponent mantissa
  all_goals first
    | exact ⟨exponent, mantissa⟩
    | cases isNaN

/-- Packing makes no NaN of anything else. -/
theorem isNaN_pack {unpacked : UnpackedFloat} (noNaN : unpacked.isNaN = false) :
    (Float.Model.pack unpacked).isNaN = false := by
  refine Bool.eq_false_iff.mpr fun isNaN => ?_
  rcases isNaN_unpack isNaN with ⟨exponent, mantissa⟩
  simp only [Float.Model.pack] at exponent mantissa
  revert exponent mantissa
  fun_cases UnpackedFloat.pack Format.binary64 unpacked with
  | case1 => cases noNaN
  | case2 sign => simp [UnpackedFloat.packedInfinity]
  | case3 sign => simp [UnpackedFloat.packedZero]
  | case4 sign => simp [UnpackedFloat.packedInfinity]
  | case5 sign mantissa exponent positive bits biased small normal => 
    have small : ¬ 2 ^ 11 ≤ biased + 1 := small
    have differs : BitVec.ofNat 11 biased ≠ -1#11 := by
      intro same
      have sameNat := congrArg BitVec.toNat same
      simp only [BitVec.toNat_ofNat, Nat.mod_eq_of_lt (show biased < 2 ^ 11 by omega)] at sameNat
      have value : (-1#11).toNat = 2047 := by decide
      omega
    simp only [UnpackedFloat.unpackExponent_packComponents]
    intro same
    exact absurd same differs
  | case6 => simp

/-- A number other than zero, the infinities and a NaN. -/
def IsNonzero (unpacked : UnpackedFloat) : Prop :=
  ∃ sign mantissa exponent positive, unpacked = .finite sign mantissa exponent positive

section Operations

variable {left right : UnpackedFloat}

theorem isNaN_roundWithAccuracy (sign : UnpackedFloat.Sign) (mantissa : Nat) (exponent : Int)
    (accuracy : UnpackedFloat.Accuracy) :
    (UnpackedFloat.roundWithAccuracy Format.binary64 sign mantissa exponent accuracy).isNaN =
      false := by
  unfold UnpackedFloat.roundWithAccuracy
  dsimp only
  split_ifs <;> rfl

theorem isNaN_mul (noNaN : left.isNaN = false) (nonzero : IsNonzero right) :
    (UnpackedFloat.mul Format.binary64 left right).isNaN = false := by
  rcases nonzero with ⟨sign, mantissa, exponent, positive, rfl⟩
  cases left with
  | notANumber => cases noNaN
  | finite => exact isNaN_roundWithAccuracy ..
  | _ => rfl

theorem isNaN_div (noNaN : left.isNaN = false) (nonzero : IsNonzero right) :
    (UnpackedFloat.div Format.binary64 left right).isNaN = false := by
  rcases nonzero with ⟨sign, mantissa, exponent, positive, rfl⟩
  cases left with
  | notANumber => cases noNaN
  | finite => exact isNaN_roundWithAccuracy ..
  | _ => rfl

theorem isNaN_neg (noNaN : left.isNaN = false) : left.neg.isNaN = false := by
  cases left with
  | notANumber => cases noNaN
  | _ => rfl

theorem isNaN_ofScientific (coefficient : Nat) (exponent : Int) :
    (UnpackedFloat.ofScientific Format.binary64 coefficient exponent).isNaN = false := by
  unfold UnpackedFloat.ofScientific
  split_ifs
  · rfl
  · rfl
  · rfl
  · exact isNaN_mul rfl ⟨_, _, _, _, rfl⟩
  · exact isNaN_div rfl ⟨_, _, _, _, rfl⟩

theorem isNaN_ofNat (value : Nat) :
    (UnpackedFloat.ofNat Format.binary64 value).isNaN = false := by
  unfold UnpackedFloat.ofNat UnpackedFloat.ofInt UnpackedFloat.normalize
  split
  · exact isNaN_roundWithAccuracy ..
  · rfl
  · exact isNaN_roundWithAccuracy ..

end Operations

theorem isNonzero_powersOfTen : ∀ power ∈ Float.exactlyRepresentablePowersOfTen.toList,
    IsNonzero power.toModel.unpack := by
  have all : ∀ power ∈ Float.exactlyRepresentablePowersOfTen.toList,
      (power.toModel.unpack matches .finite ..) = true := by decide
  intro power isPower
  have nonzero := all power isPower
  revert nonzero
  cases power.toModel.unpack with
  | finite sign mantissa exponent positive =>
      exact fun _ => ⟨sign, mantissa, exponent, positive, rfl⟩
  | _ => nofun

theorem isNaN_scientific (coefficient : Nat) (negative : Bool) (exponent : Nat) :
    (Float.ofScientific coefficient negative exponent).isNaN = false := by
  unfold Float.ofScientific
  split
  · rename_i small
    have inside : exponent < Float.exactlyRepresentablePowersOfTen.size := by
      have size : Float.exactlyRepresentablePowersOfTen.size = 23 := by decide
      omega
    have nonzero := isNonzero_powersOfTen Float.exactlyRepresentablePowersOfTen[exponent]
      (Array.getElem_mem_toList inside)
    have noNaN : (Float.Model.ofUInt64 coefficient.toUInt64).isNaN = false :=
      isNaN_pack (isNaN_ofNat _)
    split
    · exact isNaN_pack (isNaN_div noNaN nonzero)
    · exact isNaN_pack (isNaN_mul noNaN nonzero)
  · exact isNaN_pack (isNaN_ofScientific _ _)

end Double

theorem Decimal.isNaN_toFloat (decimal : Decimal) : decimal.toFloat.isNaN = false := by
  unfold toFloat
  split_ifs
  · decide
  · decide
  · decide
  · exact Double.isNaN_scientific ..

theorem Numeral.isNaN_toFloat (numeral : Numeral) : numeral.toFloat.isNaN = false := by
  unfold toFloat
  split_ifs
  · exact Double.isNaN_pack (Double.isNaN_neg numeral.magnitude.isNaN_toFloat)
  · exact numeral.magnitude.isNaN_toFloat

/-- A number is only read as a finite double. -/
theorem Json.isFinite_of_float? {json : Json} {value : Float} (read : json.float? = some value) :
    value.isFinite = true := by
  cases json with
  | number numeral =>
      have noNaN := numeral.isNaN_toFloat
      simp only [float?] at read
      split_ifs at read with infinite
      cases read
      revert noNaN infinite
      simp only [Float.isNaN, Float.isInf, Float.isFinite, Float.Model.isNaN, Float.Model.isInf,
        Float.Model.isFinite]
      cases numeral.toFloat.toModel.unpack <;> simp [UnpackedFloat.isNaN, UnpackedFloat.isInf,
        UnpackedFloat.isFinite]
  | _ => cases read

end SmtModel
