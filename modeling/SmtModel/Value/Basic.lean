import SmtModel.Handle
import SmtModel.Number.Fraction

/-!
# Values

A value is what a model gives to a term, in full and independent of the solver.
`Mapping` is one point of a function and `FiniteFunction` a function with finitely
many points and a default; both are generic, as scripted values have the same
shape. The nesting of a value is through lists of values, so recursion over values
goes by mutual recursion over `Value`, `List Value`, `Mapping Value`,
`List (Mapping Value)` and `FiniteFunction Value`.
-/

namespace SmtModel

/-- One point of a function: `result` is its value at `args`. -/
structure Mapping (α : Type) where
  args : List α
  result : α

/-- A function given by its explicit points, in order, and a value for all other arguments. -/
structure FiniteFunction (α : Type) where
  default : α
  entries : List (Mapping α)

/-- An element of an enumerated type: the constant term that denotes it, the type, and its place
among the elements. -/
structure ScalarValue where
  constant : TermId
  type : TypeId
  index : Int32
  deriving DecidableEq

/-- The value of a term in a model. -/
inductive Value where
  /-- The solver gave a composite without parts, or a bit vector without bits. -/
  | absent
  | bool (value : Bool)
  | int (value : Int)
  /-- A fraction as the solver gave it. -/
  | rational (fraction : Fraction)
  /-- An approximation, where numerator and denominator do not both fit 64 bits. -/
  | float (value : Float)
  | scalar (scalar : ScalarValue)
  /-- The bits in the solver's order, the least significant first. -/
  | bitVector (bits : List UInt8)
  | tuple (items : List Value)
  | mapping (mapping : Mapping Value)
  | function (function : FiniteFunction Value)

/-- A function between values. -/
abbrev FunctionValue := FiniteFunction Value

namespace Value

instance : Inhabited Value := ⟨.absent⟩

/-- Whether there is no value. -/
def isAbsent : Value → Bool
  | .absent => true
  | _ => false

/-- The truth value that a value is. -/
def bool? : Value → Option Bool
  | .bool truth => some truth
  | _ => none

/-- The integer that a value is. A fraction is none, even with denominator one. -/
def int? : Value → Option Int
  | .int number => some number
  | _ => none

/-- The fraction that a value is. -/
def rational? : Value → Option Fraction
  | .rational fraction => some fraction
  | _ => none

/-- The element of an enumerated type that a value is. -/
def scalar? : Value → Option ScalarValue
  | .scalar element => some element
  | _ => none

/-- The bits of a bit vector. -/
def bits? : Value → Option (List UInt8)
  | .bitVector bits => some bits
  | _ => none

/-- The components of a tuple. -/
def tuple? : Value → Option (List Value)
  | .tuple items => some items
  | _ => none

/-- The function that a value is. -/
def function? : Value → Option FunctionValue
  | .function graph => some graph
  | _ => none

end Value

end SmtModel
