import SmtModel.Reading

/-!
# Models and queries

A `Model` is a model of the solver together with the limit of depth under which its
values are read. Whoever owns one may put queries to it: `Model.ask` answers a query
with the answer's own type, or ends in a failure. Queries about sets of terms hold a
vector of the solver while they run, and never longer.
-/

namespace SmtModel

/-- A model of the solver, and how deep its values are read. -/
structure Model where
  id : ModelId
  limit : DepthLimit := .standard

/-- The questions that a model answers. -/
inductive Query where
  | bool (term : TermId)
  | integer (term : TermId)
  /-- The value of a term as the solver's fraction of two words, not reduced. -/
  | fraction (term : TermId)
  | float (term : TermId)
  /-- The place of the value of a term among the elements of its type. -/
  | scalar (term : TermId)
  /-- The value of a term in full. -/
  | value (term : TermId)
  /-- A constant term for the value of a term. -/
  | valueAsTerm (term : TermId)
  | holds (formula : TermId)
  /-- Whether the conjunction of formulas holds. -/
  | allHold (formulas : List TermId)
  /-- Every term that the model assigns a value to, in the solver's order. -/
  | definedTerms
  | implicant (formula : TermId)
  | implicants (formulas : List TermId)
  | generalize (formula : TermId) (eliminated : List TermId) (mode : GeneralizationMode)
  | generalizeAll (formulas eliminated : List TermId) (mode : GeneralizationMode)

/-- What a query is answered with. -/
abbrev Query.Answer : Query → Type
  | bool _ => Bool
  | integer _ => Int64
  | fraction _ => Fraction
  | float _ => Float
  | scalar _ => Int32
  | value _ => Value
  | valueAsTerm _ => TermId
  | holds _ | allHold _ => Bool
  | definedTerms | implicant _ | implicants _ | generalize .. | generalizeAll .. => List TermId

namespace Model

open SmtModel.Action

variable {σ : Type} (solver : Solver σ)

/-- The terms that a call puts into a vector, unless its status says that it failed. -/
def collectTerms (call : Call) (fill : VectorId → Action σ Int32) : Action σ (List TermId) :=
  withTermVector solver fun vector => do
    checkStatus solver call (← fill vector)
    ask solver (.termVectorElements vector)

/-- The value of a term in full. -/
def read (model : Model) (term : TermId) : Action σ Value := do
  let root ← checkReply solver .value (← ask solver (.value model.id term .blank))
  Reading.read solver model.id model.limit model.limit.levels root

/-- Answers a query. -/
def ask (model : Model) : (query : Query) → Action σ query.Answer
  | .bool term => do
    let truth ← checkReply solver .boolValue (← Action.ask solver (.boolValue model.id term 0))
    return (truth ≠ 0 : Bool)
  | .integer term => do
    checkReply solver .int64Value (← Action.ask solver (.int64Value model.id term 0))
  | .fraction term => do
    let (numerator, denominator) ←
      checkReply solver .rational64Value
        (← Action.ask solver (.rational64Value model.id term (0, 0)))
    return Fraction.ofWords numerator denominator
  | .float term => do
    checkReply solver .doubleValue (← Action.ask solver (.doubleValue model.id term 0))
  | .scalar term => do
    checkReply solver .scalarValue (← Action.ask solver (.scalarValue model.id term 0))
  | .value term => model.read solver term
  | .valueAsTerm term => do
    checkTerm solver .valueAsTerm (← Action.ask solver (.valueAsTerm model.id term))
  | .holds formula => do
    checkTruth solver .formulaHolds (← Action.ask solver (.formulaHolds model.id formula))
  | .allHold formulas => do
    checkTruth solver .formulasHold (← Action.ask solver (.formulasHold model.id formulas))
  | .definedTerms =>
    withTermVector solver fun vector => do
      Action.ask solver (.definedTerms model.id vector)
      Action.ask solver (.termVectorElements vector)
  | .implicant formula =>
    collectTerms solver .implicant fun vector =>
      Action.ask solver (.implicant model.id formula vector)
  | .implicants formulas =>
    collectTerms solver .implicants fun vector =>
      Action.ask solver (.implicants model.id formulas vector)
  | .generalize formula eliminated mode =>
    collectTerms solver .generalize fun vector =>
      Action.ask solver (.generalize model.id formula eliminated mode vector)
  | .generalizeAll formulas eliminated mode =>
    collectTerms solver .generalizeAll fun vector =>
      Action.ask solver (.generalizeAll model.id formulas eliminated mode vector)

/-- The model of a context whose last check found one. -/
def ofContext (context : ContextId) (keepSubstitution : Bool) : Action σ Model := do
  let id ← checkHandle solver .getModel
    (← Action.ask solver (.getModel context keepSubstitution))
  record (.modelExtracted keepSubstitution)
  return { id }

/-- A model that assigns to each variable the constant that it is paired with. Nothing is checked
here: the solver rejects what is no assignment. -/
def ofPairs (pairs : List (TermId × TermId)) : Action σ Model := do
  let id ← checkHandle solver .modelFromMap
    (← Action.ask solver (.modelFromMap (pairs.map (·.1)) (pairs.map (·.2))))
  record (.modelBuilt pairs.length)
  return { id }

/-- Frees the model. It is not to be used after this. -/
def dispose (model : Model) : Action σ Unit := do
  record .freeingModel
  Action.ask solver (.freeModel model.id)

/-- The model under another limit of depth. -/
def withLimit (model : Model) (levels : Nat) : Except Failure Model := do
  return { model with limit := ← DepthLimit.ofLevels levels }

/-- A summary of a model, which shows its settings only. -/
def summary (model : Model) : String :=
  "Model \x7b config: DecodeConfig \x7b max_depth: " ++ toString model.limit.levels ++
    " \x7d, .. \x7d"

end Model

end SmtModel
