import SmtModel.Scripted.State

/-!
# The answers of the scripted solver

`ScriptedSolver.answer` answers every request from the tables, with the statuses, null
handles and errors of a real solver. A call about a term complains about the term;
a call about a node sets an error that names none. The implicant of formulas that
hold is the formulas themselves, and so is their generalization, which only checks
that what is to be eliminated are variables.
-/

namespace SmtModel

namespace ScriptedSolver

variable {α : Type}

/-- A call for the value of a term: its cell is filled with what `read` takes from the value. -/
def readTerm (call : Call) (model : ModelId) (term : TermId) (cell : α)
    (read : ScriptedValue → Except Misfit α) : Step (Reply α) :=
  attempt call (.failed cell) do
    match ← valueOf model term with
    | none => return .failed cell
    | some value =>
      match read value with
      | .ok result => return .ok result
      | .error misfit =>
        complainOf misfit.termError term
        return .failed cell

/-- A call for the value of a node: its cell is filled with what `read` takes from the value. -/
def readNode (call : Call) (model : ModelId) (node : Node) (cell : α)
    (read : ScriptedValue → Except Misfit α) : Step (Reply α) :=
  attempt call (.failed cell) do
    match ← nodeValue model node with
    | none => return .failed cell
    | some value =>
      match read value with
      | .ok result => return .ok result
      | .error misfit =>
        complain misfit.nodeError
        return .failed cell

/-- A question about a node that has no status: `measure` answers it, and `none` stands for a node
that the model does not know. These questions are not counted and cannot be scripted to fail. -/
def measureNode (model : ModelId) (node : Node) (measure : ScriptedValue → α) (none : α) :
    Step α := do
  return ((← nodeValue model node).map measure).getD none

/-- A call for the root of the value of a term, which is handed out as a new node. -/
def value (model : ModelId) (term : TermId) (cell : Node) : Step (Reply Node) :=
  attempt .value (.failed cell) do
    match ← valueOf model term with
    | none => return .failed cell
    | some value =>
      let place ← addNodes model [value]
      return .ok ⟨Int32.ofNat place, value.tag⟩

/-- A call for a constant term for the value of a term. A new one is made each time. -/
def valueAsTerm (model : ModelId) (term : TermId) : Step TermId :=
  attempt .valueAsTerm .null do
    let type := (← get).typeOf term
    match ← valueOf model term with
    | none => return .null
    | some value => addTerm ⟨type, some value⟩

/-- A call for the components of a tuple, as many as there are cells for. -/
def expandTuple (model : ModelId) (node : Node) (arity : Nat) (cells : Vector Node arity) :
    Step (Reply (Vector Node arity)) :=
  attempt .expandTuple (.failed cells) do
    match ← nodeValue model node with
    | none => return .failed cells
    | some (.tuple items) =>
      if sameArity : items.length = arity then
        let place ← addNodes model items
        return .ok ⟨(nodesFrom place items).toArray, by simpa using sameArity⟩
      else
        complain .invalidNodeOperation
        return .failed cells
    | some _ =>
      complain .invalidNodeOperation
      return .failed cells

/-- A call for the arguments of a mapping, as many as there are cells for, and for its result. -/
def expandMapping (model : ModelId) (node : Node) (arity : Nat)
    (cells : Vector Node arity × Node) : Step (Reply (Vector Node arity × Node)) :=
  attempt .expandMapping (.failed cells) do
    match ← nodeValue model node with
    | none => return .failed cells
    | some (.mapping point) =>
      if sameArity : point.args.length = arity then
        let place ← addNodes model (point.args ++ [point.result])
        let args : Vector Node arity :=
          ⟨(nodesFrom place point.args).toArray, by simpa using sameArity⟩
        return .ok (args, ⟨Int32.ofNat (place + arity), point.result.tag⟩)
      else
        complain .invalidNodeOperation
        return .failed cells
    | some _ =>
      complain .invalidNodeOperation
      return .failed cells

/-- A call for the default of a function, which fills a vector with the entries, each a mapping. -/
def expandFunction (model : ModelId) (node : Node) (entries : VectorId) (cell : Node) :
    Step (Reply Node) := do
  checkVector entries
  attempt .expandFunction (.failed cell) do
    match ← nodeValue model node with
    | none => return .failed cell
    | some (.function _ graph) =>
      let points := graph.entries.map .mapping
      let place ← addNodes model (graph.default :: points)
      setVector entries (.nodes (nodesFrom (place + 1) points))
      return .ok ⟨Int32.ofNat place, graph.default.tag⟩
    | some _ =>
      complain .invalidNodeOperation
      return .failed cell

/-- A call for the model of a context. Without an assignment there is none. -/
def getModel (context : ContextId) (keepSubstitution : Bool) : Step (Option ModelId) :=
  attempt .getModel none do
    match (← get).contexts[context.number]?.join with
    | some assignment => return some (← addModel assignment keepSubstitution)
    | none =>
      complain .invalidContextOperation
      return none

/-- The assignment that pairs of terms describe, or the first offence: a variable has to be a
variable, and may be paired once, with a constant. -/
def assignmentOf (solver : ScriptedSolver) :
    (seen : List TermId) → List (TermId × TermId) → Except (ErrorCode × TermId) Assignment
  | _, [] => .ok []
  | seen, (target, value) :: pairs =>
    match solver.term? target with
    | none => .error (.invalidTerm, target)
    | some entry =>
      if !entry.isVariable then .error (.constantRequired, target)
      else if target ∈ seen then .error (.duplicateVariable, target)
      else
        match (solver.term? value).bind (·.constant?) with
        | none => .error (.constantRequired, value)
        | some constant =>
          (assignmentOf solver (target :: seen) pairs).map ((target, constant) :: ·)

/-- A call for a model that assigns to variables the values of the constants at their places. -/
def modelFromMap (targets values : List TermId) : Step (Option ModelId) :=
  attempt .modelFromMap none do
    if targets.length ≠ values.length then
      complain .invalidTerm
      return none
    match assignmentOf (← get) [] (targets.zip values) with
    | .error (error, term) =>
      complainOf error term
      return none
    | .ok assignment => return some (← addModel assignment false)

/-- Whether a formula is true in a model, as a status. -/
def truth (model : ModelId) (formula : TermId) : Step Int32 := do
  match ← valueOf model formula with
  | none => return statusFailed
  | some value =>
    match value.toTruth with
    | .ok truth => return truth
    | .error misfit =>
      complainOf misfit.termError formula
      return statusFailed

/-- Whether all formulas are true. A false formula does not end the evaluation, so that a formula
without a truth value makes the conjunction fail wherever it stands. -/
def conjunction (model : ModelId) : List TermId → Step Int32
  | [] => return 1
  | formula :: formulas => do
    let first ← truth model formula
    if first = statusFailed then return statusFailed
    let others ← conjunction model formulas
    if others = statusFailed then return statusFailed
    return if first = 0 then 0 else others

/-- Succeeds if all formulas are true. The first that is false is complained about by `error`. -/
def requireAll (model : ModelId) (error : ErrorCode) : List TermId → Step Int32
  | [] => return statusOk
  | formula :: formulas => do
    let first ← truth model formula
    if first = statusFailed then return statusFailed
    if first = 0 then
      complainOf error formula
      return statusFailed
    requireAll model error formulas

/-- Fills a vector with formulas that are all true. -/
def keepTrue (model : ModelId) (error : ErrorCode) (formulas : List TermId)
    (vector : VectorId) : Step Int32 := do
  let status ← requireAll model error formulas
  if status ≠ statusFailed then
    setVector vector (.terms formulas)
  return status

/-- A call for an implicant of formulas: if they hold, a vector is filled with the formulas. -/
def implicants (call : Call) (model : ModelId) (formulas : List TermId) (vector : VectorId) :
    Step Int32 := do
  checkVector vector
  attempt call statusFailed (keepTrue model .noImplicant formulas vector)

/-- A call for a generalization of formulas. Only variables can be eliminated. -/
def generalize (call : Call) (model : ModelId) (formulas eliminated : List TermId)
    (vector : VectorId) : Step Int32 := do
  checkVector vector
  attempt call statusFailed do
    let solver ← get
    let isVariable (term : TermId) := (solver.term? term).any ScriptedTerm.isVariable
    match eliminated.find? (!isVariable ·) with
    | some term =>
      complainOf .generalizationFailed term
      return statusFailed
    | none => keepTrue model .generalizationFailed formulas vector

/-- Fills a vector with the terms that a model assigns a value to. A failure can only be scripted,
and empties the vector. -/
def definedTerms (model : ModelId) (vector : VectorId) : Step Unit := do
  checkVector vector
  let terms ← attempt .definedTerms [] do
    return (← liveModel model).assignment.map (·.1)
  setVector vector (.terms terms)

/-- The constant for an element of an enumerated type: the first one there is, or a new one. -/
def constant (type : TypeId) (index : Int32) : Step TermId :=
  attempt .constant .null do
    match (← get).type? type with
    | some (.enumeration size) =>
      if index < 0 ∨ (size.toNat : Int) ≤ index.toInt then
        complain .invalidConstantIndex
        return .null
      match (← get).terms.findIdx? (·.denotes type index) with
      | some place => return .ofIndex place
      | none => addTerm ⟨type, some (.scalar type index)⟩
    | some _ =>
      complain .scalarTypeRequired
      return .null
    | none =>
      complain .invalidType
      return .null

/-- Prints the error on one of the two standard descriptors. The answer is what was printed. -/
def printError (descriptor : Int32) : Step (Reply String) := do
  if descriptor = 1 ∨ descriptor = 2 then
    return .ok ("Error: " ++ (← get).error.describe ++ "\n")
  else
    complain .outputError
    return .failed ""

/-- Forgets the error and frees every model. -/
def reset : Step Unit := do
  clearError
  modify fun solver => { solver with models := solver.models.map fun _ => none }

/-- The scripted solver. -/
def answer : Solver ScriptedSolver
  | .startUp => modify fun solver => { solver with running := true }
  | .shutDown => modify fun solver => { solver with running := false }
  | .reset => reset
  | .isRunning => return (← get).running
  | .errorCode => return (← get).error
  | .errorReport => return (← get).report
  | .errorText => return (← get).error.describe
  | .clearError => clearError
  | .printError descriptor => printError descriptor
  | .getModel context keepSubstitution => getModel context keepSubstitution
  | .modelFromMap targets values => modelFromMap targets values
  | .freeModel model => freeModel model
  | .boolValue model term cell => readTerm .boolValue model term cell (·.toTruth)
  | .int64Value model term cell => readTerm .int64Value model term cell (·.toInt64)
  | .rational64Value model term cells => readTerm .rational64Value model term cells (·.toWords64)
  | .doubleValue model term cell => readTerm .doubleValue model term cell (·.toFloat)
  | .scalarValue model term cell =>
    readTerm .scalarValue model term cell fun value => value.toScalar.map (·.1)
  | .value model term cell => value model term cell
  | .valueAsTerm model term => valueAsTerm model term
  | .nodeIsInt64 model node => measureNode model node (·.toInt64.isOk) false
  | .nodeIsRational64 model node => measureNode model node (·.toWords64.isOk) false
  | .nodeBitSize model node => measureNode model node (·.bitSize) 0
  | .tupleArity model node => measureNode model node (·.tupleArity) 0
  | .mappingArity model node => measureNode model node (·.mappingArity) 0
  | .functionArity model node => measureNode model node (·.functionArity) 0
  | .nodeBool model node cell => readNode .nodeBool model node cell (·.toTruth)
  | .nodeInt64 model node cell => readNode .nodeInt64 model node cell (·.toInt64)
  | .nodeRational64 model node cells => readNode .nodeRational64 model node cells (·.toWords64)
  | .nodeDouble model node cell => readNode .nodeDouble model node cell (·.toFloat)
  | .nodeBits model node width cells => readNode .nodeBits model node cells (·.toBits width)
  | .nodeScalar model node cells => readNode .nodeScalar model node cells (·.toScalar)
  | .expandTuple model node arity cells => expandTuple model node arity cells
  | .expandMapping model node arity cells => expandMapping model node arity cells
  | .expandFunction model node entries cell => expandFunction model node entries cell
  | .newTermVector =>
    addVector (.terms []) fun counts => { counts with termsMade := counts.termsMade + 1 }
  | .releaseTermVector vector =>
    releaseVector vector fun counts => { counts with termsReleased := counts.termsReleased + 1 }
  | .termVectorElements vector =>
    return (((← get).vector? vector).map VectorContents.termList).getD []
  | .newNodeVector =>
    addVector (.nodes []) fun counts => { counts with nodesMade := counts.nodesMade + 1 }
  | .releaseNodeVector vector =>
    releaseVector vector fun counts => { counts with nodesReleased := counts.nodesReleased + 1 }
  | .nodeVectorElements vector =>
    return (((← get).vector? vector).map VectorContents.nodeList).getD []
  | .formulaHolds model formula => attempt .formulaHolds statusFailed (truth model formula)
  | .formulasHold model formulas =>
    attempt .formulasHold statusFailed (conjunction model formulas)
  | .definedTerms model vector => definedTerms model vector
  | .implicant model formula vector => implicants .implicant model [formula] vector
  | .implicants model formulas vector => implicants .implicants model formulas vector
  | .generalize model formula eliminated _ vector =>
    generalize .generalize model [formula] eliminated vector
  | .generalizeAll model formulas eliminated _ vector =>
    generalize .generalizeAll model formulas eliminated vector
  | .constant type index => constant type index

end ScriptedSolver

end SmtModel
