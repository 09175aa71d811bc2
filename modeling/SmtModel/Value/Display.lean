import SmtModel.Decimal.Numeral
import SmtModel.Value.Basic

/-!
# Displayed values

Values are displayed in the manner of SMT-LIB: tuples as `mk-tuple` terms, points of
a function with an arrow, bit vectors from the most significant bit on. Constants of
an enumeration are shown by type and place only. Every function here takes the
characters that follow.
-/

namespace SmtModel

namespace Value

/-- Doubles are shown without exponents, by the shortest digits; of two equally short and near
ones the larger is taken. -/
def floatLayout : FloatLayout := ⟨.awayFromZero, 0, none⟩

/-- The display of a double. -/
def displayFloat (value : Float) : String :=
  if value.isNaN then "NaN"
  else if value.isInf then if value < 0 then "-inf" else "inf"
  else (floatLayout.numeral value).toText

/-- The display of a fraction, which is not reduced. -/
def displayFraction (fraction : Fraction) : String :=
  toString fraction.numerator ++ "/" ++ toString fraction.denominator

mutual

/-- The display of a value, followed by `rest`. -/
def write : Value → List Char → List Char
  | .absent, rest => "<absent>".toList ++ rest
  | .bool truth, rest => (if truth then "true" else "false").toList ++ rest
  | .int number, rest => (toString number).toList ++ rest
  | .rational fraction, rest => (displayFraction fraction).toList ++ rest
  | .float number, rest => (displayFloat number).toList ++ rest
  | .scalar element, rest =>
    element.type.toText.toList ++ '!' :: (toString element.index.toInt).toList ++ rest
  | .bitVector bits, rest =>
    '#' :: 'b' :: bits.reverse.flatMap (fun bit => (toString bit.toNat).toList) ++ rest
  | .tuple items, rest => "(mk-tuple ".toList ++ writeList items (')' :: rest)
  | .mapping point, rest => writeMapping point rest
  | .function graph, rest => writeFunction graph rest
termination_by structural value => value

/-- Values with a blank between any two. -/
def writeList : List Value → List Char → List Char
  | [], rest => rest
  | value :: values, rest => write value (writeMore values rest)
termination_by structural values => values

/-- Values with a blank before each. -/
def writeMore : List Value → List Char → List Char
  | [], rest => rest
  | value :: values, rest => ' ' :: write value (writeMore values rest)
termination_by structural values => values

/-- A mapping in parentheses, its arguments before the arrow. -/
def writeMapping : Mapping Value → List Char → List Char
  | ⟨args, result⟩, rest =>
    '(' :: writeList args (" |-> ".toList ++ write result (')' :: rest))
termination_by structural point => point

/-- A function in parentheses, its points before the default. -/
def writeFunction : FiniteFunction Value → List Char → List Char
  | ⟨default, entries⟩, rest =>
    "(function".toList ++
      writeEntries entries (" (default ".toList ++ write default (')' :: ')' :: rest))
termination_by structural graph => graph

/-- Points with a blank before each. -/
def writeEntries : List (Mapping Value) → List Char → List Char
  | [], rest => rest
  | entry :: entries, rest => ' ' :: writeMapping entry (writeEntries entries rest)
termination_by structural entries => entries

end

/-- The display of a value. -/
def display (value : Value) : String := String.ofList (value.write [])

end Value

end SmtModel
