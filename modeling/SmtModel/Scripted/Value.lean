import SmtModel.Node
import SmtModel.ErrorReport
import SmtModel.Value.Basic

/-!
# Scripted values

A scripted value is what a script assigns to a term. It has the shape of a solver's
value tree and may be anything that a solver could hand out, sensible or not: bits
that are no bits, fractions without a proper denominator, functions whose entries do
not fit their arity, or a node with an arbitrary tag.

The readings of a scripted value say what a call may take from it; where a value is
not of the kind that is asked for, or does not fit the words it is asked in, the
`Misfit` says which.
-/

namespace SmtModel

/-- What a script can assign to a term. -/
inductive ScriptedValue where
  | bool (value : Bool)
  | rational (fraction : Fraction)
  | algebraic
  /-- The bits in the solver's order, the least significant first. -/
  | bitVector (bits : List Int32)
  | scalar (type : TypeId) (index : Int32)
  | tuple (items : List ScriptedValue)
  | function (arity : UInt32) (graph : FiniteFunction ScriptedValue)
  | mapping (point : Mapping ScriptedValue)
  /-- A node with the given tag and nothing below it. -/
  | tagged (tag : Int32)

/-- Why a call cannot read a value. -/
inductive Misfit where
  | otherKind
  | tooLarge
  deriving DecidableEq

namespace Misfit

/-- The error of a call about a term. -/
def termError : Misfit → ErrorCode
  | otherKind => .typeMismatch
  | tooLarge => .conversionFailed

/-- The error of a call about a node. -/
def nodeError : Misfit → ErrorCode
  | otherKind => .invalidNodeOperation
  | tooLarge => .nodeOverflow

end Misfit

namespace ScriptedValue

instance : Inhabited ScriptedValue := ⟨.algebraic⟩

/-- An integer as a fraction. -/
def ofInt (value : Int) : ScriptedValue := .rational (.ofInt value)

/-- The lowest bits of a word, as many as `width`. Beyond the word all bits are zero. -/
def ofWord (value : UInt64) (width : UInt32) : ScriptedValue :=
  .bitVector ((List.range width.toNat).map fun place =>
    if value.toNat.testBit place then 1 else 0)

/-- The tag of the node of a value. -/
def tag : ScriptedValue → Int32
  | .bool _ => NodeKind.bool.tag
  | .rational _ => NodeKind.rational.tag
  | .algebraic => NodeKind.algebraic.tag
  | .bitVector _ => NodeKind.bitVector.tag
  | .scalar .. => NodeKind.scalar.tag
  | .tuple _ => NodeKind.tuple.tag
  | .function .. => NodeKind.function.tag
  | .mapping _ => NodeKind.mapping.tag
  | .tagged tag => tag

/-- A truth value as a number. -/
def toTruth : ScriptedValue → Except Misfit Int32
  | .bool truth => .ok (if truth then 1 else 0)
  | _ => .error .otherKind

/-- A fraction as an integer of 64 bits. -/
def toInt64 : ScriptedValue → Except Misfit Int64
  | .rational fraction =>
    match fraction.int64? with
    | some number => .ok number
    | none => .error .tooLarge
  | _ => .error .otherKind

/-- A fraction as a numerator and a denominator of 64 bits. -/
def toWords64 : ScriptedValue → Except Misfit (Int64 × UInt64)
  | .rational fraction =>
    match fraction.words64? with
    | some words => .ok words
    | none => .error .tooLarge
  | _ => .error .otherKind

/-- A fraction as a double. -/
def toFloat : ScriptedValue → Except Misfit Float
  | .rational fraction => .ok fraction.toFloat
  | _ => .error .otherKind

/-- The place of a scalar among the elements of its type, and the type. -/
def toScalar : ScriptedValue → Except Misfit (Int32 × TypeId)
  | .scalar type index => .ok (index, type)
  | _ => .error .otherKind

/-- The bits of a bit vector of exactly the given width. -/
def toBits (width : Nat) : ScriptedValue → Except Misfit (Vector Int32 width)
  | .bitVector bits =>
    if sameWidth : bits.length = width then .ok ⟨bits.toArray, by simpa using sameWidth⟩
    else .error .otherKind
  | _ => .error .otherKind

/-- How many bits a bit vector has. Other values have none. -/
def bitSize : ScriptedValue → UInt32
  | .bitVector bits => UInt32.ofNat bits.length
  | _ => 0

/-- How many components a tuple has. Other values have none. -/
def tupleArity : ScriptedValue → UInt32
  | .tuple items => UInt32.ofNat items.length
  | _ => 0

/-- How many arguments a mapping has. Other values have none. -/
def mappingArity : ScriptedValue → UInt32
  | .mapping point => UInt32.ofNat point.args.length
  | _ => 0

/-- The declared arity of a function. Other values have none. -/
def functionArity : ScriptedValue → UInt32
  | .function arity _ => arity
  | _ => 0

end ScriptedValue

end SmtModel
