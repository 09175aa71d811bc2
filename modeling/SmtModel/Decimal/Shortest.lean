/-!
# Shortest decimals

A decimal is a natural coefficient times a power of ten. `Decimal.toFloat` reads
one as the nearest double; `Decimal.shortest` writes a positive finite double with
the fewest digits that read back to it. Of two decimals with equally few digits the
nearer one is taken, and `Tie` settles an exact tie between them.

The search goes through ever finer grids of multiples of a power of ten. On each
grid the only candidates are the two neighbours of the value, and a candidate is
taken only if reading it gives the very double that is being written. Should no
grid yield one, the exact decimal expansion of the double is left, which loses nothing.
-/

namespace SmtModel

/-- The number `coefficient * 10 ^ exponent`. -/
structure Decimal where
  coefficient : Nat
  exponent : Int
  deriving DecidableEq

namespace Decimal

/-- The double nearest to a decimal, ties to even. Numbers that lie far beyond the range of
doubles are infinite or zero without their powers of ten being computed. -/
def toFloat (decimal : Decimal) : Float :=
  if decimal.coefficient = 0 then 0
  else if 400 < decimal.exponent then 1 / 0
  else if decimal.exponent + (decimal.coefficient.log2 : Int) + 400 < 0 then 0
  else Float.ofScientific decimal.coefficient (decimal.exponent < 0) decimal.exponent.natAbs

/-- Which of two equally near decimals is chosen. -/
inductive Tie where
  | toEven
  | awayFromZero
  deriving DecidableEq

/-- A positive rational number, as the double `significand * 2 ^ exponent` has one. -/
structure Ratio where
  numerator : Nat
  denominator : Nat

/-- The exact absolute value of a finite double. -/
def Ratio.ofFloat (value : Float) : Ratio :=
  let exponentField := ((value.toBits >>> 52) &&& 0x7FF).toNat
  let mantissaField := (value.toBits &&& 0xFFFFFFFFFFFFF).toNat
  let (significand, exponent) : Nat × Int :=
    if exponentField = 0 then (mantissaField, -1074)
    else (0x10000000000000 + mantissaField, exponentField - 1075)
  ⟨significand * Nat.pow 2 exponent.toNat, Nat.pow 2 (-exponent).toNat⟩

/-- The rational number in units of `10 ^ place`. -/
def Ratio.inUnitsOf (ratio : Ratio) (place : Int) : Ratio :=
  ⟨ratio.numerator * Nat.pow 10 (-place).toNat, ratio.denominator * Nat.pow 10 place.toNat⟩

/-- A place above the leading digit: the number is below ten to this power, and at least a
hundredth of it. -/
def Ratio.leadingPlace (ratio : Ratio) : Int :=
  if ratio.denominator ≤ ratio.numerator then
    (Nat.toDigits 10 (ratio.numerator / ratio.denominator)).length
  else
    1 - ((Nat.toDigits 10 (ratio.denominator / ratio.numerator)).length : Int)

/-- The neighbours of a number on the grid of multiples of `10 ^ place`: the one that reads back
to `value`, or the nearer one if both do. -/
def neighbour? (tie : Tie) (value : Float) (ratio : Ratio) (place : Int) : Option Decimal :=
  let scaled := ratio.inUnitsOf place
  let lower : Decimal := ⟨scaled.numerator / scaled.denominator, place⟩
  let upper : Decimal := ⟨lower.coefficient + 1, place⟩
  let readsBack (candidate : Decimal) : Bool := candidate.toFloat.toBits = value.toBits
  match readsBack lower, readsBack upper with
  | false, false => none
  | true, false => some lower
  | false, true => some upper
  | true, true =>
    match compare (2 * (scaled.numerator % scaled.denominator)) scaled.denominator, tie with
    | .lt, _ => some lower
    | .gt, _ => some upper
    | .eq, .toEven => some (if lower.coefficient % 2 = 0 then lower else upper)
    | .eq, .awayFromZero => some upper

/-- The number written out in full. A finite double has such an expansion, as its denominator
is a power of two. -/
def expansion (ratio : Ratio) : Decimal :=
  let places := ratio.denominator.log2
  ⟨ratio.numerator * Nat.pow 5 places, -(places : Int)⟩

/-- The first grid, from `place` on through `grids` more, that has a neighbour to offer. -/
def search (tie : Tie) (value : Float) (ratio : Ratio) : (grids : Nat) → (place : Int) → Decimal
  | 0, _ => expansion ratio
  | grids + 1, place =>
    match neighbour? tie value ratio place with
    | some decimal => decimal
    | none => search tie value ratio grids (place - 1)

/-- The shortest decimal that reads back to the absolute value of a finite double. -/
def shortest (tie : Tie) (value : Float) : Decimal :=
  if value = 0 then ⟨0, 0⟩
  else
    let magnitude := value.abs
    let ratio := Ratio.ofFloat magnitude
    search tie magnitude ratio 19 ratio.leadingPlace

end Decimal

end SmtModel
