import SmtModel.Json.Reading
import SmtModel.Json.Writing
import SmtModel.Value.Basic

/-!
# JSON form of values

A value is written as an object whose one member names its kind, and as the plain
name if there is nothing more to say. Unbounded integers are written as a sign and
the digits to the base `2 ^ 32`, the least significant first. `Value.toJson` and
`Value.ofJson?` are the two directions. Reading is by recursion on the number of
containers that may still be opened, as every level of a value opens at least one.
-/

namespace SmtModel

namespace Json

/-- Doubles have at least one place after the point, and an exponent if they are very large or
very small. Of two equally short and near decimals the even one is taken. -/
def floatLayout : FloatLayout := ⟨.toEven, 1, some (-5, 16)⟩

/-- A double as a number, or null if it is not finite. -/
def ofFloat (value : Float) : Json :=
  if value.isFinite then .number (floatLayout.numeral value) else .null

/-- The digits of a number to the base `2 ^ 32`, the least significant first, without leading
zeros. -/
def digits (value : Nat) : List Nat :=
  if value = 0 then [] else value % UInt32.size :: digits (value / UInt32.size)
termination_by value
decreasing_by exact Nat.div_lt_self (Nat.pos_of_ne_zero ‹_›) (by decide)

/-- The number with the given digits to the base `2 ^ 32`, the least significant first. -/
def ofDigits (digits : List Nat) : Nat :=
  digits.foldr (fun digit higher => digit + UInt32.size * higher) 0

/-- An unbounded integer as its sign and digits. -/
def ofInteger (value : Int) : Json :=
  .array [.ofInt value.sign, .array ((digits value.natAbs).map fun (digit : Nat) => .ofInt digit)]

/-- A fraction as the pair of its numerator and denominator. -/
def ofFraction (fraction : Fraction) : Json :=
  .array [ofInteger fraction.numerator, ofInteger fraction.denominator]

/-- A term as its code. -/
def ofTerm (term : TermId) : Json := .ofInt term.code.toInt

/-- A type as its code. -/
def ofType (type : TypeId) : Json := .ofInt type.code.toInt

/-- An element of an enumerated type as the record of its fields. -/
def ofScalar (scalar : ScalarValue) : Json :=
  .ofFields [("constant", ofTerm scalar.constant), ("ty", ofType scalar.type),
    ("index", .ofInt scalar.index.toInt)]

/-- A digit to the base `2 ^ 32`. -/
def digit? (json : Json) : Option Nat := do
  return (← Word.uint32? (← json.int?)).toNat

/-- Reads an unbounded integer. With the sign zero it is zero, whatever its digits. -/
def integer? (room : Nat) (json : Json) : Option Int := do
  let (room, [sign, magnitude]) ← json.items? room | none
  let (_, digits) ← magnitude.items? room
  let digits ← digits.mapM digit?
  match ← sign.int? with
  | 1 => return ofDigits digits
  | 0 => return 0
  | -1 => return -ofDigits digits
  | _ => none

/-- Reads a fraction, which stays as it is written. Its denominator is not zero. -/
def fraction? (room : Nat) (json : Json) : Option Fraction := do
  let (room, [numerator, denominator]) ← json.items? room | none
  let numerator ← numerator.integer? room
  let denominator ← denominator.integer? room
  guard (denominator ≠ 0)
  return ⟨numerator, denominator⟩

/-- Reads an integer of 32 bits. -/
def int32? (json : Json) : Option Int32 := do Word.int32? (← json.int?)

/-- Reads the code of a term. -/
def term? (json : Json) : Option TermId := json.int32?.map TermId.mk

/-- Reads the code of a type. -/
def type? (json : Json) : Option TypeId := json.int32?.map TypeId.mk

/-- Reads an element of an enumerated type. -/
def scalar? (room : Nat) (json : Json) : Option ScalarValue := do
  let (_, [constant, type, index]) ← json.record? ["constant", "ty", "index"] room | none
  return ⟨← constant.term?, ← type.type?, ← index.int32?⟩

/-- Reads the elements of a bit vector: any numbers of eight bits, not only zero and one. -/
def bits? (room : Nat) (json : Json) : Option (List UInt8) := do
  let (_, bits) ← json.items? room
  bits.mapM fun bit => do Word.uint8? (← bit.int?)

end Json

mutual

/-- The tree of a value: a name if it is absent, and else an object with one member, which is named
for its kind. -/
def Value.toJson : Value → Json
  | .absent => .ofString "Absent"
  | .bool truth => .ofFields [("Bool", .bool truth)]
  | .int number => .ofFields [("Int", .ofInteger number)]
  | .rational fraction => .ofFields [("Rational", .ofFraction fraction)]
  | .float number => .ofFields [("Float", .ofFloat number)]
  | .scalar element => .ofFields [("Scalar", .ofScalar element)]
  | .bitVector bits => .ofFields [("BitVector", .array (bits.map fun bit => .ofInt bit.toNat))]
  | .tuple items => .ofFields [("Tuple", .array (Value.listToJson items))]
  | .mapping point => .ofFields [("Mapping", Value.mappingToJson point)]
  | .function graph => .ofFields [("Function", Value.functionToJson graph)]
termination_by structural value => value

/-- The trees of values. -/
def Value.listToJson : List Value → List Json
  | [] => []
  | value :: values => value.toJson :: Value.listToJson values
termination_by structural values => values

/-- A mapping as the record of its arguments and its result. -/
def Value.mappingToJson : Mapping Value → Json
  | ⟨args, result⟩ =>
    .ofFields [("args", .array (Value.listToJson args)), ("result", result.toJson)]
termination_by structural point => point

/-- A function as the record of its default and its entries. -/
def Value.functionToJson : FiniteFunction Value → Json
  | ⟨default, entries⟩ =>
    .ofFields [("default", default.toJson), ("entries", .array (Value.entriesToJson entries))]
termination_by structural graph => graph

/-- The trees of the entries of a function. -/
def Value.entriesToJson : List (Mapping Value) → List Json
  | [] => []
  | entry :: entries => Value.mappingToJson entry :: Value.entriesToJson entries
termination_by structural entries => entries

end

mutual

/-- Reads a value that may open `room` containers. -/
def Value.ofJson? : (room : Nat) → Json → Option Value
  | room + 1, .object [(some kind, content)] =>
    match kind with
    | "Absent" => match content with
      | .null => some .absent
      | _ => none
    | "Bool" => content.bool?.map .bool
    | "Int" => (content.integer? room).map .int
    | "Rational" => (content.fraction? room).map .rational
    | "Float" => content.float?.map .float
    | "Scalar" => (content.scalar? room).map .scalar
    | "BitVector" => (content.bits? room).map .bitVector
    | "Tuple" => (Value.listOfJson? room content).map .tuple
    | "Mapping" => (Value.mappingOfJson? room content).map .mapping
    | "Function" => (Value.functionOfJson? room content).map .function
    | _ => none
  | _, .string (some "Absent") => some .absent
  | _, _ => none
termination_by structural room => room

/-- Reads the values in an array. -/
def Value.listOfJson? : (room : Nat) → Json → Option (List Value)
  | room + 1, .array items => items.mapM (Value.ofJson? room)
  | _, _ => none
termination_by structural room => room

/-- Reads a mapping. -/
def Value.mappingOfJson? : (room : Nat) → Json → Option (Mapping Value)
  | room + 1, json => do
    let [args, result] ← json.fields? ["args", "result"] | none
    return ⟨← Value.listOfJson? room args, ← Value.ofJson? room result⟩
  | 0, _ => none
termination_by structural room => room

/-- Reads a function. Its entries stay as they are written, equal keys included. -/
def Value.functionOfJson? : (room : Nat) → Json → Option FunctionValue
  | room + 1, json => do
    let [default, entries] ← json.fields? ["default", "entries"] | none
    return ⟨← Value.ofJson? room default, ← Value.entriesOfJson? room entries⟩
  | 0, _ => none
termination_by structural room => room

/-- Reads the entries of a function. -/
def Value.entriesOfJson? : (room : Nat) → Json → Option (List (Mapping Value))
  | room + 1, .array items => items.mapM (Value.mappingOfJson? room)
  | _, _ => none
termination_by structural room => room

end

/-- The JSON text of a value. -/
def Value.toText (value : Value) : String := value.toJson.toText

end SmtModel
