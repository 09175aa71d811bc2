import SmtModel.Decimal.Shortest

/-!
# Numerals

A numeral is a decimal number as it is written: a sign, digits, a point among
them, and perhaps an exponent of ten. `Numeral.write` and `Numeral.read?` are its
two directions. `FloatLayout.numeral` lays out a double: the record says how ties
between equally short decimals go, how many places follow the point at least, and
which numbers are written without an exponent.
-/

namespace SmtModel

/-- `coefficient` with a point before its last `scale` digits. -/
structure Numeral where
  negative : Bool
  coefficient : Nat
  scale : Nat
  exponent : Option Int
  deriving DecidableEq

namespace Numeral

/-- An integer without point and exponent. -/
def ofInt (value : Int) : Numeral := ⟨value < 0, value.natAbs, 0, none⟩

/-- The digits of a number, filled up with zeros on the left to a given count. -/
def paddedDigits (count value : Nat) : List Char :=
  (Nat.toDigits 10 value).leftpad count '0'

/-- The written form of a numeral, followed by `rest`. An exponent always shows its sign. -/
def write (numeral : Numeral) (rest : List Char) : List Char :=
  let exponent := match numeral.exponent with
    | none => []
    | some power => 'e' :: (if power < 0 then '-' else '+') :: Nat.toDigits 10 power.natAbs
  let unit := Nat.pow 10 numeral.scale
  let fraction :=
    if numeral.scale = 0 then [] else '.' :: paddedDigits numeral.scale (numeral.coefficient % unit)
  let whole := Nat.toDigits 10 (numeral.coefficient / unit)
  (if numeral.negative then ['-'] else []) ++ whole ++ fraction ++ exponent ++ rest

/-- The written form of a numeral. -/
def toText (numeral : Numeral) : String := String.ofList (numeral.write [])

/-- A nonempty run of digits in front, and what follows it. -/
def splitDigits? (text : List Char) : Option (List Char × List Char) :=
  let digits := text.takeWhile Char.isDigit
  if digits.isEmpty then none else some (digits, text.dropWhile Char.isDigit)

/-- Reads what follows the letter of an exponent: an optional sign and digits up to the end. -/
def readExponent? (text : List Char) : Option Int := do
  let (negative, unsigned) := match text with
    | '-' :: rest => (true, rest)
    | '+' :: rest => (false, rest)
    | _ => (false, text)
  let (digits, rest) ← splitDigits? unsigned
  guard rest.isEmpty
  let magnitude := Nat.ofDigitChars 10 digits 0
  return if negative then -magnitude else magnitude

/-- Reads a numeral that takes up the whole text. The whole part has no superfluous zero in
front, and digits stand on both sides of a point. -/
def read? (text : List Char) : Option Numeral := do
  let (negative, unsigned) := match text with
    | '-' :: rest => (true, rest)
    | _ => (false, text)
  let (whole, afterWhole) ← splitDigits? unsigned
  guard (whole.head? ≠ some '0' ∨ whole.length = 1)
  let (fraction, afterFraction) ← match afterWhole with
    | '.' :: rest => splitDigits? rest
    | _ => some ([], afterWhole)
  let exponent ← match afterFraction with
    | [] => some none
    | letter :: rest => if letter = 'e' ∨ letter = 'E' then (readExponent? rest).map some else none
  return ⟨negative, Nat.ofDigitChars 10 (whole ++ fraction) 0, fraction.length, exponent⟩

/-- The integer that a numeral writes. A point or an exponent makes it no integer, and neither
is zero one with a minus sign in front. -/
def toInt? (numeral : Numeral) : Option Int :=
  if numeral.scale ≠ 0 ∨ numeral.exponent.isSome then none
  else if numeral.negative then
    if numeral.coefficient = 0 then none else some (-numeral.coefficient)
  else some numeral.coefficient

/-- The number without its sign. -/
def magnitude (numeral : Numeral) : Decimal :=
  ⟨numeral.coefficient, numeral.exponent.getD 0 - numeral.scale⟩

/-- The nearest double, with the numeral's sign even on zero. -/
def toFloat (numeral : Numeral) : Float :=
  if numeral.negative then -numeral.magnitude.toFloat else numeral.magnitude.toFloat

end Numeral

/-- How doubles are written. -/
structure FloatLayout where
  /-- Which of two equally near and equally short decimals is written. -/
  tie : Decimal.Tie
  /-- The least number of places after the point in a number without an exponent. -/
  leastPlaces : Nat
  /-- The exponents of the leading digit for which no exponent is written: from the first, and
  below the second. Without a range no number has an exponent. -/
  positionalRange : Option (Int × Int)

namespace FloatLayout

/-- Without an exponent: zeros fill up the digits to the point, and to the least places. -/
def positional (layout : FloatLayout) (negative : Bool) (decimal : Decimal) : Numeral :=
  let places := max layout.leastPlaces (-decimal.exponent).toNat
  ⟨negative, decimal.coefficient * Nat.pow 10 (decimal.exponent + places).toNat, places, none⟩

/-- With an exponent: one digit stands before the point. -/
def scientific (negative : Bool) (decimal : Decimal) (leadingExponent : Int) : Numeral :=
  ⟨negative, decimal.coefficient, (leadingExponent - decimal.exponent).toNat,
    some leadingExponent⟩

/-- The numeral of a finite double. -/
def numeral (layout : FloatLayout) (value : Float) : Numeral :=
  let negative : Bool := value.toBits >>> 63 = 1
  let decimal := Decimal.shortest layout.tie value
  let leadingExponent : Int :=
    decimal.exponent + ((Nat.toDigits 10 decimal.coefficient).length : Int) - 1
  match layout.positionalRange with
  | none => layout.positional negative decimal
  | some (least, bound) =>
    if least ≤ leadingExponent ∧ leadingExponent < bound then
      layout.positional negative decimal
    else scientific negative decimal leadingExponent

end FloatLayout

end SmtModel
