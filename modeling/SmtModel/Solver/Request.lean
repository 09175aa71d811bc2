import SmtModel.ErrorReport
import SmtModel.GeneralizationMode
import SmtModel.Node
import SmtModel.Solver.Call

/-!
# Requests to a solver

A solver is whatever answers requests. It may change its state in doing so, and a
request may end in a fault instead of an answer, which keeps the changes made so
far. The requests are low-level: calls that can fail answer with a status, calls
that produce a handle answer with a null handle where there is none, and a call
that fills a cell is given what the cell holds and answers with what it holds
afterwards, written or not. A row of cells keeps its length.

Nothing here interprets an answer. In particular no solver has to be consistent:
one that announces three components may deliver two, or fail, or succeed without
writing to the cells.
-/

namespace SmtModel

/-- An ending of a request without an answer: the request broke a rule that every user of the
solver has to keep, or divided by zero. -/
inductive Fault where
  | modelUsedAfterFree (model : ModelId)
  | modelFreedTwice (model : ModelId)
  | vectorUsedAfterRelease (vector : VectorId)
  | vectorReleasedTwice (vector : VectorId)
  | divisionByZero
  deriving DecidableEq

/-- The words for a fault. -/
def Fault.message : Fault → String
  | .modelUsedAfterFree model => "mock model " ++ toString model.number ++ " used after free"
  | .modelFreedTwice model => "mock model " ++ toString model.number ++ " freed twice"
  | .vectorUsedAfterRelease vector =>
    "mock vector " ++ toString vector.number ++ " used after release"
  | .vectorReleasedTwice vector => "mock vector " ++ toString vector.number ++ " released twice"
  | .divisionByZero => "attempt to divide by zero"

/-- The status of a call that did its work. -/
def statusOk : Int32 := 0

/-- The status of a call that failed. -/
def statusFailed : Int32 := -1

/-- The answer of a call with a cell: its status, and what the cell holds afterwards. -/
structure Reply (α : Type) where
  status : Int32
  cell : α

namespace Reply

variable {α : Type}

/-- Success, with `value` written to the cell. -/
def ok (value : α) : Reply α := ⟨statusOk, value⟩

/-- Failure, with the cell left as it was. -/
def failed (cell : α) : Reply α := ⟨statusFailed, cell⟩

end Reply

/-- What a solver can be asked. The cells of a call are given with what they hold before it. -/
inductive Request where
  | startUp
  | shutDown
  /-- Forgets the error and frees every model. -/
  | reset
  | isRunning
  | errorCode
  | errorReport
  | errorText
  | clearError
  /-- Prints the current error on a descriptor. -/
  | printError (descriptor : Int32)
  /-- The model of a context, with the values of eliminated variables kept or not. -/
  | getModel (context : ContextId) (keepSubstitution : Bool)
  /-- A model that assigns to each variable the value at its place. -/
  | modelFromMap (targets values : List TermId)
  | freeModel (model : ModelId)
  | boolValue (model : ModelId) (term : TermId) (cell : Int32)
  | int64Value (model : ModelId) (term : TermId) (cell : Int64)
  | rational64Value (model : ModelId) (term : TermId) (cells : Int64 × UInt64)
  | doubleValue (model : ModelId) (term : TermId) (cell : Float)
  | scalarValue (model : ModelId) (term : TermId) (cell : Int32)
  /-- The root of the value of a term. -/
  | value (model : ModelId) (term : TermId) (cell : Node)
  | valueAsTerm (model : ModelId) (term : TermId)
  | nodeIsInt64 (model : ModelId) (node : Node)
  | nodeIsRational64 (model : ModelId) (node : Node)
  | nodeBitSize (model : ModelId) (node : Node)
  | tupleArity (model : ModelId) (node : Node)
  | mappingArity (model : ModelId) (node : Node)
  | functionArity (model : ModelId) (node : Node)
  | nodeBool (model : ModelId) (node : Node) (cell : Int32)
  | nodeInt64 (model : ModelId) (node : Node) (cell : Int64)
  | nodeRational64 (model : ModelId) (node : Node) (cells : Int64 × UInt64)
  | nodeDouble (model : ModelId) (node : Node) (cell : Float)
  | nodeBits (model : ModelId) (node : Node) (width : Nat) (cells : Vector Int32 width)
  /-- The place of a scalar among the elements of its type, and the type. -/
  | nodeScalar (model : ModelId) (node : Node) (cells : Int32 × TypeId)
  | expandTuple (model : ModelId) (node : Node) (arity : Nat) (cells : Vector Node arity)
  /-- The arguments of a mapping, and its result. -/
  | expandMapping (model : ModelId) (node : Node) (arity : Nat)
    (cells : Vector Node arity × Node)
  /-- The default of a function; the entries go into a vector. -/
  | expandFunction (model : ModelId) (node : Node) (entries : VectorId) (cell : Node)
  | newTermVector
  | releaseTermVector (vector : VectorId)
  | termVectorElements (vector : VectorId)
  | newNodeVector
  | releaseNodeVector (vector : VectorId)
  | nodeVectorElements (vector : VectorId)
  | formulaHolds (model : ModelId) (formula : TermId)
  | formulasHold (model : ModelId) (formulas : List TermId)
  | definedTerms (model : ModelId) (vector : VectorId)
  | implicant (model : ModelId) (formula : TermId) (vector : VectorId)
  | implicants (model : ModelId) (formulas : List TermId) (vector : VectorId)
  | generalize (model : ModelId) (formula : TermId) (eliminated : List TermId)
    (mode : GeneralizationMode) (vector : VectorId)
  | generalizeAll (model : ModelId) (formulas eliminated : List TermId)
    (mode : GeneralizationMode) (vector : VectorId)
  /-- The constant that denotes the element of a type at a place. -/
  | constant (type : TypeId) (index : Int32)

namespace Request

/-- What a request is answered with. -/
abbrev Answer : Request → Type
  | startUp | shutDown | reset | clearError => Unit
  | isRunning => Bool
  | errorCode => ErrorCode
  | errorReport => ErrorReport
  | errorText => String
  | printError _ => Reply String
  | getModel .. | modelFromMap .. => Option ModelId
  | freeModel _ => Unit
  | boolValue .. | scalarValue .. | nodeBool .. => Reply Int32
  | int64Value .. | nodeInt64 .. => Reply Int64
  | rational64Value .. | nodeRational64 .. => Reply (Int64 × UInt64)
  | doubleValue .. | nodeDouble .. => Reply Float
  | value .. => Reply Node
  | valueAsTerm .. | constant .. => TermId
  | nodeIsInt64 .. | nodeIsRational64 .. => Bool
  | nodeBitSize .. | tupleArity .. | mappingArity .. | functionArity .. => UInt32
  | nodeBits _ _ width _ => Reply (Vector Int32 width)
  | nodeScalar .. => Reply (Int32 × TypeId)
  | expandTuple _ _ arity _ => Reply (Vector Node arity)
  | expandMapping _ _ arity _ => Reply (Vector Node arity × Node)
  | expandFunction .. => Reply Node
  | newTermVector | newNodeVector => VectorId
  | releaseTermVector _ | releaseNodeVector _ => Unit
  | termVectorElements _ => List TermId
  | nodeVectorElements _ => List Node
  | formulaHolds .. | formulasHold .. => Int32
  | definedTerms .. => Unit
  | implicant .. | implicants .. | generalize .. | generalizeAll .. => Int32

/-- The named call that a request makes, if it has a name. -/
def call? : Request → Option Call
  | printError _ => some .printError
  | getModel .. => some .getModel
  | modelFromMap .. => some .modelFromMap
  | boolValue .. => some .boolValue
  | int64Value .. => some .int64Value
  | rational64Value .. => some .rational64Value
  | doubleValue .. => some .doubleValue
  | scalarValue .. => some .scalarValue
  | value .. => some .value
  | valueAsTerm .. => some .valueAsTerm
  | nodeIsInt64 .. => some .nodeIsInt64
  | nodeIsRational64 .. => some .nodeIsRational64
  | nodeBitSize .. => some .nodeBitSize
  | tupleArity .. => some .tupleArity
  | mappingArity .. => some .mappingArity
  | functionArity .. => some .functionArity
  | nodeBool .. => some .nodeBool
  | nodeInt64 .. => some .nodeInt64
  | nodeRational64 .. => some .nodeRational64
  | nodeDouble .. => some .nodeDouble
  | nodeBits .. => some .nodeBits
  | nodeScalar .. => some .nodeScalar
  | expandTuple .. => some .expandTuple
  | expandMapping .. => some .expandMapping
  | expandFunction .. => some .expandFunction
  | formulaHolds .. => some .formulaHolds
  | formulasHold .. => some .formulasHold
  | definedTerms .. => some .definedTerms
  | implicant .. => some .implicant
  | implicants .. => some .implicants
  | generalize .. => some .generalize
  | generalizeAll .. => some .generalizeAll
  | constant .. => some .constant
  | startUp | shutDown | reset | isRunning | errorCode | errorReport | errorText
  | clearError | freeModel _ | newTermVector | releaseTermVector _ | termVectorElements _
  | newNodeVector | releaseNodeVector _ | nodeVectorElements _ => none

end Request

/-- A solver with states `σ`: it answers every request, or ends it in a fault. -/
abbrev Solver (σ : Type) := (request : Request) → EStateM Fault σ request.Answer

end SmtModel
