import SmtModel.Number.Word

/-!
# Fractions

A fraction keeps its numerator and denominator as they were given: it is not
reduced, and the denominator may be negative or zero. Equality is numeric, and
comparing two fractions divides, so a zero denominator can make it undefined:
`Fraction.equals` says so instead of choosing an answer.
-/

namespace SmtModel

/-- An arithmetic operation met a zero divisor. -/
inductive DivisionByZero where
  | divisionByZero
  deriving DecidableEq

/-- A numerator and a denominator, not reduced, of any signs and possibly zero. -/
structure Fraction where
  numerator : Int
  denominator : Int
  deriving DecidableEq

namespace Fraction

/-- An integer as a fraction. -/
def ofInt (value : Int) : Fraction := ⟨value, 1⟩

instance : Inhabited Fraction := ⟨ofInt 0⟩

/-- Numeric equality. Equal denominators compare the numerators, and equal numerators are equal
values only if they are zero; neither needs a division. Any other comparison divides both
fractions, so it is undefined where a denominator is zero. -/
def equals (left right : Fraction) : Except DivisionByZero Bool :=
  if left.denominator = right.denominator then
    .ok (left.numerator = right.numerator)
  else if left.numerator = right.numerator then
    .ok (left.numerator = 0)
  else if left.denominator = 0 ∨ right.denominator = 0 then
    .error .divisionByZero
  else
    .ok (left.numerator * right.denominator = right.numerator * left.denominator)

/-- Without zero denominators, equality is equality of the two quotients. -/
theorem equals_of_ne_zero {left right : Fraction}
    (leftNonzero : left.denominator ≠ 0) (rightNonzero : right.denominator ≠ 0) :
    left.equals right =
      .ok (left.numerator * right.denominator = right.numerator * left.denominator) := by
  obtain ⟨a, b⟩ := left
  obtain ⟨c, d⟩ := right
  simp only [equals, ne_eq] at leftNonzero rightNonzero ⊢
  by_cases sameDenominator : b = d
  · subst sameDenominator
    simp [Int.mul_eq_mul_right_iff leftNonzero]
  · by_cases sameNumerator : a = c
    · subst sameNumerator
      by_cases zero : a = 0
      · simp [sameDenominator, zero]
      · have differ : ¬ a * d = a * b := fun same =>
          sameDenominator ((Int.mul_eq_mul_left_iff zero).1 same).symm
        simp [sameDenominator, zero, differ]
    · simp [sameDenominator, sameNumerator, leftNonzero, rightNonzero]

/-- The fraction as an integer of 64 bits, if its denominator is exactly one. -/
def int64? (fraction : Fraction) : Option Int64 :=
  if fraction.denominator = 1 then Word.int64? fraction.numerator else none

/-- Numerator and denominator as words of 64 bits, the denominator unsigned. -/
def words64? (fraction : Fraction) : Option (Int64 × UInt64) := do
  let numerator ← Word.int64? fraction.numerator
  let denominator ← Word.uint64? fraction.denominator
  return (numerator, denominator)

/-- The fraction with the given words as its parts. -/
def ofWords (numerator : Int64) (denominator : UInt64) : Fraction :=
  ⟨numerator.toInt, denominator.toNat⟩

/-- The quotient of the two parts, each first rounded to the nearest double. -/
def toFloat (fraction : Fraction) : Float :=
  Float.ofInt fraction.numerator / Float.ofInt fraction.denominator

end Fraction

end SmtModel
