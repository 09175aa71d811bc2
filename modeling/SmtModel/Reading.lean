import SmtModel.Action
import SmtModel.Value.Function

/-!
# Reading a value

`Reading.read` turns the tree below a node into a value, asking the solver for one
node at a time. It recurses on the room that is left below the limit of depth: a
node without room is not looked at. Components of a tuple, arguments and result of
a mapping and the default of a function lie one level below their parent. So do
the entries of a function, whose arguments and results lie one level deeper again.

A composite that the solver gives no parts is absent. The solver's answers are not
trusted to fit together; what is read from them is a value that fits the limit,
or a failure that names the first thing that went wrong.
-/

namespace SmtModel

/-- How many levels of nesting are read. At least one is, or nothing could be read. -/
structure DepthLimit where
  levels : Nat
  levels_pos : 0 < levels

namespace DepthLimit

/-- The limit of a model for which no other is set. -/
def standard : DepthLimit := ⟨1024, by decide⟩

instance : Inhabited DepthLimit := ⟨standard⟩

/-- The limit of a number of levels, unless that is zero. -/
def ofLevels (levels : Nat) : Except Failure DepthLimit :=
  if positive : 0 < levels then .ok ⟨levels, positive⟩
  else .error (.internal .noLevels)

end DepthLimit

namespace Reading

open SmtModel.Action

variable {σ : Type} (solver : Solver σ) (model : ModelId)

/-- Reads a truth value. -/
def readBool (node : Node) : Action σ Value := do
  let truth ← checkReply solver .nodeBool (← ask solver (.nodeBool model node 0))
  return .bool (truth ≠ 0)

/-- Reads a number as exactly as the solver can give it: as an integer of 64 bits, as a fraction
of two words of 64 bits, or else as the nearest double. -/
def readRational (node : Node) : Action σ Value := do
  if ← ask solver (.nodeIsInt64 model node) then
    let value ← checkReply solver .nodeInt64 (← ask solver (.nodeInt64 model node 0))
    return .int value.toInt
  if ← ask solver (.nodeIsRational64 model node) then
    let (numerator, denominator) ←
      checkReply solver .nodeRational64 (← ask solver (.nodeRational64 model node (0, 0)))
    return .rational (.ofWords numerator denominator)
  let value ← checkReply solver .nodeDouble (← ask solver (.nodeDouble model node 0))
  return .float value

/-- Reads an element of an enumerated type and has the solver name it by a constant. -/
def readScalar (node : Node) : Action σ Value := do
  let (index, type) ←
    checkReply solver .nodeScalar (← ask solver (.nodeScalar model node (0, .null)))
  let constant ← checkTerm solver .constant (← ask solver (.constant type index))
  return .scalar ⟨constant, type, index⟩

/-- Reads a bit vector, in which everything but zero counts as one. One without bits is absent. -/
def readBits (node : Node) : Action σ Value := do
  let width ← ask solver (.nodeBitSize model node)
  if width = 0 then return .absent
  let cells := Vector.replicate width.toNat 0
  let bits ← checkReply solver .nodeBits (← ask solver (.nodeBits model node width.toNat cells))
  return .bitVector (bits.toList.map fun bit => if bit = 0 then 0 else 1)

/-- Reads a tuple, its components by `read`. -/
def readTuple (read : Node → Action σ Value) (node : Node) : Action σ Value := do
  let arity ← ask solver (.tupleArity model node)
  if arity = 0 then return .absent
  let cells := Vector.replicate arity.toNat .blank
  let items ←
    checkReply solver .expandTuple (← ask solver (.expandTuple model node arity.toNat cells))
  return .tuple (← items.toList.mapM read)

/-- Reads a mapping, its arguments and its result by `read`. One without arguments is none. -/
def readMapping (read : Node → Action σ Value) (node : Node) :
    Action σ (Option (Mapping Value)) := do
  let arity ← ask solver (.mappingArity model node)
  if arity = 0 then return none
  let cells := (Vector.replicate arity.toNat .blank, .blank)
  let (args, result) ←
    checkReply solver .expandMapping (← ask solver (.expandMapping model node arity.toNat cells))
  return some ⟨← args.toList.mapM read, ← read result⟩

/-- Reads an entry of a function, which has to be a mapping with arguments. Its parts are read
by `read`, or not at all if they would lie below the limit. -/
def readEntry (limit : DepthLimit) (read? : Option (Node → Action σ Value)) (entry : Node) :
    Action σ (Mapping Value) :=
  match read? with
  | none => fail (.depthLimit limit.levels)
  | some read => do
    if entry.kind? ≠ some .mapping then
      fail (.internal (.entryTag entry.tag))
    match ← readMapping solver model read entry with
    | none => fail (.internal .entryWithoutArguments)
    | some point => return point

/-- Adds a point to a function, and records the result that it replaces. -/
def addEntry (function : FunctionValue) (point : Mapping Value) : Action σ FunctionValue := do
  let (replaced?, function) ← ofExcept (function.insert point)
  if let some replaced := replaced? then
    record (.entryReplaced replaced)
  return function

/-- Reads a function, its default by `read` and its entries by `readEntry`. -/
def readFunction (read : Node → Action σ Value) (readEntry : Node → Action σ (Mapping Value))
    (node : Node) : Action σ Value := do
  let arity ← ask solver (.functionArity model node)
  if arity = 0 then return .absent
  withNodeVector solver fun vector => do
    let default ←
      checkReply solver .expandFunction (← ask solver (.expandFunction model node vector .blank))
    let default ← read default
    let entries ← ask solver (.nodeVectorElements vector)
    let function ← entries.foldlM
      (fun function entry => do addEntry function (← readEntry entry))
      (FiniteFunction.constant default)
    return .function function

/-- Reads the value below a node with `room` levels left. -/
def read (limit : DepthLimit) : (room : Nat) → Node → Action σ Value
  | 0, _ => fail (.depthLimit limit.levels)
  | room + 1, node => do
    record (.readingNode node (limit.levels - (room + 1)))
    match node.kind? with
    | none | some .unknown => fail (.internal (.unexpectedTag node.tag))
    | some .algebraic => fail (.notImplemented "algebraic number decoding")
    | some .bool => readBool solver model node
    | some .rational => readRational solver model node
    | some .scalar => readScalar solver model node
    | some .bitVector => readBits solver model node
    | some .tuple => readTuple solver model (read limit room) node
    | some .mapping => do
      match ← readMapping solver model (read limit room) node with
      | none => return .absent
      | some point => return .mapping point
    | some .function =>
      let readBelow? := match room with
        | 0 => none
        | below + 1 => some (read limit below)
      readFunction solver model (read limit room) (readEntry solver model limit readBelow?) node
termination_by structural room => room

end Reading

end SmtModel
