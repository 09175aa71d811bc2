import SmtModel.Scripted.Value
import SmtModel.Solver.Request

/-!
# The state of the scripted solver

The scripted solver does not solve anything. It keeps tables of types, terms,
contexts and models, which a script fills, and answers requests from them. The
tables only grow: a handle stands for the same entry for good, and a freed model
leaves an empty place behind. The same holds of vectors, whose places are empty once
they are released.

Besides the tables there is the current error, the calls that were made, and the
calls that are scripted to fail. A new error that complains about no term in
particular leaves the term of the last complaint in place.
-/

namespace SmtModel

/-- The types that a script can declare. -/
inductive ScriptedType where
  | bool
  | int
  | real
  | bitVector (width : UInt32)
  /-- An enumerated type with `size` elements. -/
  | enumeration (size : UInt32)
  /-- A tuple or function type, whose components are not tracked. -/
  | compound
  deriving DecidableEq

/-- A term: a constant that denotes a value, or else a variable. -/
structure ScriptedTerm where
  type : TypeId
  constant? : Option ScriptedValue

namespace ScriptedTerm

/-- Whether a term can be assigned a value. -/
def isVariable (term : ScriptedTerm) : Bool := term.constant?.isNone

/-- Whether a term is the constant for the element of `type` at `index`. -/
def denotes (type : TypeId) (index : Int32) (term : ScriptedTerm) : Bool :=
  match term.constant? with
  | some (.scalar type' index') => type' = type ∧ index' = index
  | _ => false

end ScriptedTerm

/-- The values of terms, the first one of a term being the one that counts. -/
abbrev Assignment := List (TermId × ScriptedValue)

/-- A model: an assignment of values to terms, and the nodes that were handed out for values. -/
structure ScriptedModel where
  assignment : Assignment
  /-- The nodes that were handed out, by their identifiers. -/
  nodes : Array ScriptedValue
  keepSubstitution : Bool

/-- What a vector holds. -/
inductive VectorContents where
  | terms (elements : List TermId)
  | nodes (elements : List Node)

namespace VectorContents

/-- The terms in a vector, of which there are none in a vector of nodes. -/
def termList : VectorContents → List TermId
  | .terms elements => elements
  | .nodes _ => []

/-- The nodes in a vector, of which there are none in a vector of terms. -/
def nodeList : VectorContents → List Node
  | .nodes elements => elements
  | .terms _ => []

end VectorContents

/-- How many vectors were made and released. -/
structure VectorCounts where
  termsMade : Nat := 0
  termsReleased : Nat := 0
  nodesMade : Nat := 0
  nodesReleased : Nat := 0
  deriving DecidableEq

/-- How many vectors are still to be released. -/
def VectorCounts.outstanding (counts : VectorCounts) : Nat :=
  (counts.termsMade + counts.nodesMade) - (counts.termsReleased + counts.nodesReleased)

/-- The tables of the scripted solver, its error, and what a script has set. -/
structure ScriptedSolver where
  running : Bool := true
  error : ErrorCode := .noError
  errorTerm? : Option TermId := none
  types : Array ScriptedType := #[]
  terms : Array ScriptedTerm := #[]
  /-- Contexts with the assignment that their last check found, if it found one. -/
  contexts : Array (Option Assignment) := #[]
  /-- The models by their numbers, with nothing in the place of one that was freed. -/
  models : Array (Option ScriptedModel) := #[]
  /-- The vectors by their numbers, with nothing in the place of one that was released. -/
  vectors : Array (Option VectorContents) := #[]
  counts : VectorCounts := {}
  failing : List Call := []
  /-- The calls that were made, the latest first. -/
  calls : List Call := []

namespace ScriptedSolver

instance : Inhabited ScriptedSolver := ⟨{}⟩

/-- The type that a handle names. -/
def type? (solver : ScriptedSolver) (type : TypeId) : Option ScriptedType := do
  solver.types[← type.index?]?

/-- The term that a handle names. -/
def term? (solver : ScriptedSolver) (term : TermId) : Option ScriptedTerm := do
  solver.terms[← term.index?]?

/-- The model with a number, if it was made and is not freed. -/
def model? (solver : ScriptedSolver) (model : ModelId) : Option ScriptedModel :=
  solver.models[model.number]?.join

/-- What a vector holds, if it was made and is not released. -/
def vector? (solver : ScriptedSolver) (vector : VectorId) : Option VectorContents :=
  solver.vectors[vector.number]?.join

/-- The declared type of a term. -/
def typeOf (solver : ScriptedSolver) (term : TermId) : TypeId :=
  match solver.term? term with
  | some entry => entry.type
  | none => .null

/-- How many models are not freed. -/
def liveModels (solver : ScriptedSolver) : Nat := solver.models.countP Option.isSome

/-- How often a call was made. -/
def timesCalled (solver : ScriptedSolver) (call : Call) : Nat := solver.calls.count call

/-- What there is to say of the current error. -/
def report (solver : ScriptedSolver) : ErrorReport :=
  { code := solver.error
    term1 := solver.errorTerm?.getD .null
    message := solver.error.describe }

/-- Steps of the scripted solver. -/
abbrev Step := EStateM Fault ScriptedSolver

/-- Sets the error, with no complaint about a term. -/
def complain (error : ErrorCode) : Step Unit :=
  modify fun solver => { solver with error }

/-- Sets the error and the term that it is about. -/
def complainOf (error : ErrorCode) (term : TermId) : Step Unit :=
  modify fun solver => { solver with error, errorTerm? := some term }

/-- Forgets the error and the term that it is about. -/
def clearError : Step Unit :=
  modify fun solver => { solver with error := .noError, errorTerm? := none }

/-- Makes a call: it is counted, and `body` answers it unless it is scripted to fail. -/
def attempt {α : Type} (call : Call) (failed : α) (body : Step α) : Step α := do
  modify fun solver => { solver with calls := call :: solver.calls }
  if call ∈ (← get).failing then
    complain .internalException
    return failed
  else body

/-- A model that is not freed. -/
def liveModel (model : ModelId) : Step ScriptedModel := do
  match (← get).model? model with
  | some live => return live
  | none => throw (.modelUsedAfterFree model)

/-- The value of a term in a model, or none with the error set: the value that the model assigns,
or else the one that a constant denotes. -/
def valueOf (model : ModelId) (term : TermId) : Step (Option ScriptedValue) := do
  match (← get).term? term with
  | none =>
    complainOf .invalidTerm term
    return none
  | some entry =>
    let live ← liveModel model
    match live.assignment.find? (·.1 = term), entry.constant? with
    | some (_, value), _ => return some value
    | none, some value => return some value
    | none, none =>
      complainOf .unknownTerm term
      return none

/-- The value that a node of a model stands for, or none with the error set. -/
def nodeValue (model : ModelId) (node : Node) : Step (Option ScriptedValue) := do
  match tableIndex? node.id with
  | none =>
    complain .invalidNodeOperation
    return none
  | some index =>
    match (← liveModel model).nodes[index]? with
    | some value => return some value
    | none =>
      complain .invalidNodeOperation
      return none

/-- The nodes for values that are put into a node table from the place `first` on. -/
def nodesFrom (first : Nat) (values : List ScriptedValue) : List Node :=
  values.mapIdx fun offset value => ⟨Int32.ofNat (first + offset), value.tag⟩

@[simp]
theorem length_nodesFrom (first : Nat) (values : List ScriptedValue) :
    (nodesFrom first values).length = values.length := by
  simp [nodesFrom]

/-- Hands out nodes for values, and answers with the place of the first of them. -/
def addNodes (model : ModelId) (values : List ScriptedValue) : Step Nat := do
  let live ← liveModel model
  let extended := { live with nodes := live.nodes ++ values }
  modify fun solver =>
    { solver with models := solver.models.setIfInBounds model.number (some extended) }
  return live.nodes.size

/-- Puts a term at the end of the term table. -/
def addTerm (term : ScriptedTerm) : Step TermId := do
  let place := (← get).terms.size
  modify fun solver => { solver with terms := solver.terms.push term }
  return .ofIndex place

/-- Puts a type at the end of the type table. -/
def addType (type : ScriptedType) : Step TypeId := do
  let place := (← get).types.size
  modify fun solver => { solver with types := solver.types.push type }
  return .ofIndex place

/-- Makes a context. -/
def addContext (assignment? : Option Assignment) : Step ContextId := do
  let place := (← get).contexts.size
  modify fun solver => { solver with contexts := solver.contexts.push assignment? }
  return ⟨place⟩

/-- Makes a model, of which no nodes have been handed out yet. -/
def addModel (assignment : Assignment) (keepSubstitution : Bool) : Step ModelId := do
  let place := (← get).models.size
  modify fun solver =>
    { solver with models := solver.models.push (some ⟨assignment, #[], keepSubstitution⟩) }
  return ⟨place⟩

/-- Frees a model. One that is free already, or was never made, is a fault. -/
def freeModel (model : ModelId) : Step Unit := do
  match (← get).model? model with
  | some _ =>
    modify fun solver =>
      { solver with models := solver.models.setIfInBounds model.number none }
  | none => throw (.modelFreedTwice model)

/-- Makes a vector with no elements yet. -/
def addVector (empty : VectorContents) (count : VectorCounts → VectorCounts) :
    Step VectorId := do
  let place := (← get).vectors.size
  modify fun solver =>
    { solver with vectors := solver.vectors.push (some empty), counts := count solver.counts }
  return ⟨place⟩

/-- Ends in a fault if a vector is released. -/
def checkVector (vector : VectorId) : Step Unit := do
  if ((← get).vector? vector).isNone then throw (.vectorUsedAfterRelease vector)

/-- Fills a vector. -/
def setVector (vector : VectorId) (contents : VectorContents) : Step Unit :=
  modify fun solver =>
    { solver with vectors := solver.vectors.setIfInBounds vector.number (some contents) }

/-- Releases a vector. One that is released already, or was never made, is a fault. -/
def releaseVector (vector : VectorId) (count : VectorCounts → VectorCounts) : Step Unit := do
  match (← get).vector? vector with
  | some _ =>
    modify fun solver =>
      { solver with
        vectors := solver.vectors.setIfInBounds vector.number none
        counts := count solver.counts }
  | none => throw (.vectorReleasedTwice vector)

end ScriptedSolver

end SmtModel
