import SmtModel.Scripted.Answers

/-!
# Scripts

A script fills the tables of the scripted solver and decides which calls fail. These
commands go past the library: nothing that they do is counted as a call, and they
leave the solver's error alone. `ScriptedSolver.obey` carries a command out.
-/

namespace SmtModel

/-- What a script can say. -/
inductive ScriptCommand where
  | declareType (type : ScriptedType)
  | isBoolType (type : TypeId)
  | declareVariable (type : TypeId)
  | declareConstant (type : TypeId) (value : ScriptedValue)
  | typeOf (term : TermId)
  /-- A context whose last check found the assignment. -/
  | satisfiable (assignment : Assignment)
  /-- A context whose last check found none. -/
  | unsatisfiable
  /-- From now on the named call fails. A name that no call has is without effect. -/
  | failOn (name : String)
  | clearFailures
  /-- How often the named call was made. -/
  | timesCalled (name : String)
  /-- Whether a model was made with the values of eliminated variables kept. -/
  | keptSubstitution (model : ModelId)

/-- What a command answers with. -/
abbrev ScriptCommand.Answer : ScriptCommand → Type
  | .declareType _ => TypeId
  | .isBoolType _ => Bool
  | .declareVariable _ | .declareConstant .. => TermId
  | .typeOf _ => TypeId
  | .satisfiable _ | .unsatisfiable => ContextId
  | .failOn _ | .clearFailures => Unit
  | .timesCalled _ => Nat
  | .keptSubstitution _ => Bool

namespace ScriptedSolver

/-- Carries out a command. -/
def obey : (command : ScriptCommand) → Step command.Answer
  | .declareType type => addType type
  | .isBoolType type => return (← get).type? type = some .bool
  | .declareVariable type => addTerm ⟨type, none⟩
  | .declareConstant type value => addTerm ⟨type, some value⟩
  | .typeOf term => return (← get).typeOf term
  | .satisfiable assignment => addContext (some assignment)
  | .unsatisfiable => addContext none
  | .failOn name =>
    match Call.ofName? name with
    | some call => modify fun solver => { solver with failing := call :: solver.failing }
    | none => return ()
  | .clearFailures => modify fun solver => { solver with failing := [] }
  | .timesCalled name =>
    return ((Call.ofName? name).map (← get).timesCalled).getD 0
  | .keptSubstitution model => return (← liveModel model).keepSubstitution

end ScriptedSolver

end SmtModel
