import SmtModel.Solver.Request

/-!
# Overridden solvers

A solver can be put under overrides, which replace some of its answers: a named call
returns a set value without reaching the solver, the error report is a set one, the
tag of every root node is a set one, and so are the tags of function entries at set
places. Everything else is passed on. In this way a solver can be made to contradict
itself in any respect that its users might rely on.

The entries of a function are retagged when the solver hands them out, so an
overridden solver keeps what each vector of nodes held at that time.
-/

namespace SmtModel

/-- What replaces the answers of a solver. -/
structure Overrides where
  returns : List (Call × Int) := []
  report? : Option ErrorReport := none
  rootTag? : Option Int32 := none
  entryTags : List (Nat × Int32) := []

namespace Overrides

instance : Inhabited Overrides := ⟨{}⟩

/-- Has a call return a value, or no longer. -/
def setReturn (overrides : Overrides) (call : Call) (value? : Option Int) : Overrides :=
  let others := overrides.returns.filter (·.1 ≠ call)
  match value? with
  | some value => { overrides with returns := (call, value) :: others }
  | none => { overrides with returns := others }

/-- Has the entry of a function at a place be handed out with a tag. -/
def setEntryTag (overrides : Overrides) (place : Nat) (tag : Int32) : Overrides :=
  { overrides with entryTags := (place, tag) :: overrides.entryTags }

/-- The set value of the call that a request makes. -/
def returned? (overrides : Overrides) (request : Request) : Option Int := do
  overrides.returns.lookup (← request.call?)

/-- The entries of a function with the set tags. -/
def retag (overrides : Overrides) (entries : List Node) : List Node :=
  entries.mapIdx fun place entry =>
    { entry with tag := (overrides.entryTags.lookup place).getD entry.tag }

/-- A root node with the set tag. -/
def retagRoot (overrides : Overrides) (root : Node) : Node :=
  { root with tag := overrides.rootTag?.getD root.tag }

end Overrides

/-- The answer of a request whose call returns a value at once. A status or a term is that value,
a question is answered by whether it is other than zero, and no model is handed out; cells and
vectors stay as they are. Only named calls can return a value. -/
def Request.returning (value : Int) : (request : Request) → Option request.Answer
  | .printError _ => some ⟨Int32.ofInt value, ""⟩
  | .getModel .. | .modelFromMap .. => some none
  | .boolValue _ _ cell | .scalarValue _ _ cell | .nodeBool _ _ cell =>
    some ⟨Int32.ofInt value, cell⟩
  | .int64Value _ _ cell | .nodeInt64 _ _ cell => some ⟨Int32.ofInt value, cell⟩
  | .rational64Value _ _ cells | .nodeRational64 _ _ cells => some ⟨Int32.ofInt value, cells⟩
  | .doubleValue _ _ cell | .nodeDouble _ _ cell => some ⟨Int32.ofInt value, cell⟩
  | .value _ _ cell => some ⟨Int32.ofInt value, cell⟩
  | .valueAsTerm .. | .constant .. => some ⟨Int32.ofInt value⟩
  | .nodeIsInt64 .. | .nodeIsRational64 .. => some (value ≠ 0 : Bool)
  | .nodeBitSize .. | .tupleArity .. | .mappingArity .. | .functionArity .. =>
    some (UInt32.ofInt value)
  | .nodeBits _ _ _ cells => some ⟨Int32.ofInt value, cells⟩
  | .nodeScalar _ _ cells => some ⟨Int32.ofInt value, cells⟩
  | .expandTuple _ _ _ cells => some ⟨Int32.ofInt value, cells⟩
  | .expandMapping _ _ _ cells => some ⟨Int32.ofInt value, cells⟩
  | .expandFunction _ _ _ cell => some ⟨Int32.ofInt value, cell⟩
  | .formulaHolds .. | .formulasHold .. => some (Int32.ofInt value)
  | .definedTerms .. => some ()
  | .implicant .. | .implicants .. | .generalize .. | .generalizeAll .. =>
    some (Int32.ofInt value)
  | .startUp | .shutDown | .reset | .isRunning | .errorCode | .errorReport | .errorText
  | .clearError | .freeModel _ | .newTermVector | .releaseTermVector _ | .termVectorElements _
  | .newNodeVector | .releaseNodeVector _ | .nodeVectorElements _ => none

/-- The state of a solver under overrides. -/
structure Overridden (σ : Type) where
  base : σ
  overrides : Overrides := {}
  /-- What was handed out into the vectors of nodes. -/
  entries : List (VectorId × List Node) := []

namespace Overridden

variable {σ α : Type}

/-- A step of the solver below. -/
def onBase (step : EStateM Fault σ α) : EStateM Fault (Overridden σ) α :=
  fun ⟨base, overrides, entries⟩ =>
    match step base with
    | .ok result base => .ok result ⟨base, overrides, entries⟩
    | .error fault base => .error fault ⟨base, overrides, entries⟩

/-- Remembers what a vector of nodes is to hold. -/
def setEntries (vector : VectorId) (nodes : List Node) : EStateM Fault (Overridden σ) Unit :=
  modify fun state =>
    { state with entries := (vector, nodes) :: state.entries.filter (·.1 ≠ vector) }

/-- The answer of the solver below, unless the call returns a set value. -/
def pass (solver : Solver σ) (request : Request) :
    EStateM Fault (Overridden σ) request.Answer := do
  match ((← get).overrides.returned? request).bind (Request.returning · request) with
  | some answer => return answer
  | none => onBase (solver request)

/-- A solver under overrides. -/
def answer (solver : Solver σ) : Solver (Overridden σ)
  | .errorReport => do
    match (← get).overrides.report? with
    | some report => return report
    | none => onBase (solver .errorReport)
  | .value model term cell => do
    let ⟨status, root⟩ ← pass solver (.value model term cell)
    return ⟨status, (← get).overrides.retagRoot root⟩
  | .expandFunction model node vector cell => do
    let overrides := (← get).overrides
    match overrides.returned? (.expandFunction model node vector cell) with
    | some value => return ⟨Int32.ofInt value, cell⟩
    | none =>
      let reply ← onBase (solver (.expandFunction model node vector cell))
      setEntries vector (overrides.retag (← onBase (solver (.nodeVectorElements vector))))
      return reply
  | .nodeVectorElements vector =>
    return (((← get).entries.lookup vector).getD [])
  | .releaseNodeVector vector => do
    onBase (solver (.releaseNodeVector vector))
    modify fun state => { state with entries := state.entries.filter (·.1 ≠ vector) }
  | request => pass solver request

end Overridden

end SmtModel
