import SmtModel.Scripted.Script
import SmtModel.Proofs.Ending

/-!
# How the scripted solver grows

The tables of the scripted solver only grow while it answers, models being freed apart:
`ScriptedSolver.Extends` says so of two states. `ScriptedSolver.VectorsKept` says that
the vectors and their counts stay as they are, up to the contents of live vectors, and
`ScriptedSolver.ModelsKept` that no model is made or freed. What the commands of a
script leave as it is, `ScriptedSolver.Commanded` says.
-/

namespace SmtModel.ScriptedSolver

/-- The solver with other calls scripted to fail. -/
def arm (failing : List Call) (solver : ScriptedSolver) : ScriptedSolver :=
  { solver with failing }

/-- The solver after a command of the script, however that ended. -/
def afterCommand (command : ScriptCommand) (solver : ScriptedSolver) : ScriptedSolver :=
  Outcome.state (obey command solver)

/-- Whether a vector is made and not yet released. -/
def IsLive (solver : ScriptedSolver) (vector : VectorId) : Prop :=
  (solver.vector? vector).isSome = true

/-- The tables of a later state, which have all that an earlier state had. -/
structure Extends (earlier later : ScriptedSolver) : Prop where
  types : later.types = earlier.types
  contexts : later.contexts = earlier.contexts
  failing : later.failing = earlier.failing
  terms : earlier.terms.toList <+: later.terms.toList
  models : ∀ id live, earlier.model? id = some live →
    ∃ nodes : List ScriptedValue, later.model? id = some { live with nodes := live.nodes ++ nodes }

namespace Extends

theorem refl (solver : ScriptedSolver) : Extends solver solver where
  types := rfl
  contexts := rfl
  failing := rfl
  terms := List.prefix_rfl
  models _ live found := ⟨[], by simpa using found⟩

theorem trans {first second third : ScriptedSolver} (before : Extends first second)
    (after : Extends second third) : Extends first third where
  types := after.types.trans before.types
  contexts := after.contexts.trans before.contexts
  failing := after.failing.trans before.failing
  terms := before.terms.trans after.terms
  models id live found := by
    rcases before.models id live found with ⟨nodes, found⟩
    rcases after.models id _ found with ⟨nodes', found⟩
    refine ⟨nodes ++ nodes', ?_⟩
    rw [found]
    congr 2
    exact Array.ext' (by simp)

/-- Whatever else changes, a state with the same tables extends a state. -/
theorem of_tables_eq {earlier later : ScriptedSolver} (types : later.types = earlier.types)
    (contexts : later.contexts = earlier.contexts) (failing : later.failing = earlier.failing)
    (terms : later.terms = earlier.terms) (models : later.models = earlier.models) :
    Extends earlier later where
  types := types
  contexts := contexts
  failing := failing
  terms := terms ▸ List.prefix_rfl
  models id live found := ⟨[], by simpa [model?, models] using found⟩

end Extends

/-- A later state with the same tables of types, terms, contexts and models. -/
structure SameTables (earlier later : ScriptedSolver) : Prop where
  types : later.types = earlier.types
  terms : later.terms = earlier.terms
  contexts : later.contexts = earlier.contexts
  models : later.models = earlier.models
  failing : later.failing = earlier.failing

theorem SameTables.trans {first second third : ScriptedSolver} (before : SameTables first second)
    (after : SameTables second third) : SameTables first third where
  types := after.types.trans before.types
  terms := after.terms.trans before.terms
  contexts := after.contexts.trans before.contexts
  models := after.models.trans before.models
  failing := after.failing.trans before.failing

/-- The vectors of a later state are those of an earlier state, with other contents at most in
the live vectors among `used`. -/
structure VectorsKept (used : List VectorId) (earlier later : ScriptedSolver) : Prop where
  size : later.vectors.size = earlier.vectors.size
  live : ∀ vector, later.IsLive vector ↔ earlier.IsLive vector
  others : ∀ vector, vector ∉ used → later.vector? vector = earlier.vector? vector
  counts : later.counts = earlier.counts

namespace VectorsKept

variable {used : List VectorId}

theorem trans {first second third : ScriptedSolver} (before : VectorsKept used first second)
    (after : VectorsKept used second third) : VectorsKept used first third where
  size := after.size.trans before.size
  live vector := (after.live vector).trans (before.live vector)
  others vector unused := (after.others vector unused).trans (before.others vector unused)
  counts := after.counts.trans before.counts

theorem of_vectors_eq {earlier later : ScriptedSolver} (vectors : later.vectors = earlier.vectors)
    (counts : later.counts = earlier.counts) : VectorsKept used earlier later where
  size := by rw [vectors]
  live vector := by simp only [IsLive, vector?, vectors]
  others vector _ := by simp only [vector?, vectors]
  counts := counts

end VectorsKept

/-- The models of a later state are those of an earlier state, and the same of them are freed. -/
structure ModelsKept (earlier later : ScriptedSolver) : Prop where
  size : later.models.size = earlier.models.size
  live : ∀ id, (later.model? id).isSome = (earlier.model? id).isSome

namespace ModelsKept

theorem trans {first second third : ScriptedSolver} (before : ModelsKept first second)
    (after : ModelsKept second third) : ModelsKept first third where
  size := after.size.trans before.size
  live id := (after.live id).trans (before.live id)

theorem of_models_eq {earlier later : ScriptedSolver} (models : later.models = earlier.models) :
    ModelsKept earlier later where
  size := by rw [models]
  live id := by simp only [model?, models]

end ModelsKept

theorem get_bind {α : Type} (next : ScriptedSolver → Step α) (solver : ScriptedSolver) :
    (get >>= next) solver = next solver solver := rfl

/-! ## Models -/

theorem liveModel_of_some {solver : ScriptedSolver} {model : ModelId} {live : ScriptedModel}
    (found : solver.model? model = some live) : liveModel model solver = .ok live solver := by
  rw [liveModel, get_bind]
  simp only [found]
  rfl

theorem liveModel_of_none {solver : ScriptedSolver} {model : ModelId}
    (missing : solver.model? model = none) :
    liveModel model solver = .error (.modelUsedAfterFree model) solver := by
  rw [liveModel, get_bind]
  simp only [missing]
  rfl

theorem liveModel_run (model : ModelId) (solver : ScriptedSolver) :
    liveModel model solver =
      match solver.model? model with
      | some live => .ok live solver
      | none => .error (.modelUsedAfterFree model) solver := by
  rw [liveModel, get_bind]
  cases solver.model? model <;> rfl

theorem freeModel_of_some {solver : ScriptedSolver} {model : ModelId} {live : ScriptedModel}
    (found : solver.model? model = some live) :
    freeModel model solver =
      .ok () { solver with models := solver.models.setIfInBounds model.number none } := by
  rw [freeModel, get_bind]
  simp only [found]
  rfl

theorem freeModel_of_none {solver : ScriptedSolver} {model : ModelId}
    (missing : solver.model? model = none) :
    freeModel model solver = .error (.modelFreedTwice model) solver := by
  rw [freeModel, get_bind]
  simp only [missing]
  rfl

/-- A freed model's place is empty, and the others are as they were. -/
theorem freeModel_models (id : ModelId) (solver : ScriptedSolver) :
    (Outcome.state (freeModel id solver)).models.size = solver.models.size ∧
      ∀ other, (Outcome.state (freeModel id solver)).model? other =
        if other = id then none else solver.model? other := by
  cases found : solver.model? id with
  | none =>
      rw [freeModel_of_none found]
      refine ⟨rfl, fun other => ?_⟩
      by_cases same : other = id
      · rw [if_pos same, same]
        exact found
      · rw [if_neg same]
        rfl
  | some live =>
      rw [freeModel_of_some found]
      refine ⟨Array.size_setIfInBounds, fun other => ?_⟩
      by_cases same : other = id
      · subst same
        simp only [Outcome.state_ok, model?, if_true, Array.getElem?_setIfInBounds_self]
        split <;> rfl
      · have numbers : id.number ≠ other.number := by
          intro numbers
          cases id
          cases other
          simp_all
        simp only [Outcome.state_ok, model?, if_neg same,
          Array.getElem?_setIfInBounds_ne numbers]

/-- The solver after nodes were added to a live model. -/
def withNodes (solver : ScriptedSolver) (model : ModelId) (live : ScriptedModel)
    (values : List ScriptedValue) : ScriptedSolver :=
  { solver with
    models := solver.models.setIfInBounds model.number
      (some { live with nodes := live.nodes ++ values }) }

theorem addNodes_of_some {solver : ScriptedSolver} {model : ModelId} {live : ScriptedModel}
    (found : solver.model? model = some live) (values : List ScriptedValue) :
    addNodes model values solver = .ok live.nodes.size (solver.withNodes model live values) := by
  unfold addNodes
  rw [Outcome.bind_of_ok (liveModel_of_some found)]
  rfl

theorem addNodes_of_none {solver : ScriptedSolver} {model : ModelId}
    (missing : solver.model? model = none) (values : List ScriptedValue) :
    addNodes model values solver = .error (.modelUsedAfterFree model) solver := by
  unfold addNodes
  rw [Outcome.bind_of_error (liveModel_of_none missing)]

theorem addNodes_run (model : ModelId) (values : List ScriptedValue) (solver : ScriptedSolver) :
    addNodes model values solver =
      match solver.model? model with
      | some live => .ok live.nodes.size (solver.withNodes model live values)
      | none => .error (.modelUsedAfterFree model) solver := by
  cases found : solver.model? model with
  | some live => exact addNodes_of_some found values
  | none => exact addNodes_of_none found values

theorem model?_withNodes {solver : ScriptedSolver} {model : ModelId} {live : ScriptedModel}
    (found : solver.model? model = some live) (values : List ScriptedValue) :
    (solver.withNodes model live values).model? model =
      some { live with nodes := live.nodes ++ values } := by
  simp only [model?] at found
  have inside : model.number < solver.models.size := by
    by_cases inside : model.number < solver.models.size
    · exact inside
    · simp [Array.getElem?_eq_none (Nat.le_of_not_lt inside)] at found
  simp only [withNodes, model?, Array.getElem?_setIfInBounds_self_of_lt inside]
  rfl

theorem model?_withNodes_of_ne {solver : ScriptedSolver} {model other : ModelId}
    {live : ScriptedModel} (different : other ≠ model) (values : List ScriptedValue) :
    (solver.withNodes model live values).model? other = solver.model? other := by
  have numbers : model.number ≠ other.number := by
    intro same
    cases model
    cases other
    simp_all
  simp only [withNodes, model?, Array.getElem?_setIfInBounds_ne numbers]

theorem extends_withNodes {solver : ScriptedSolver} {model : ModelId} {live : ScriptedModel}
    (found : solver.model? model = some live) (values : List ScriptedValue) :
    Extends solver (solver.withNodes model live values) where
  types := rfl
  contexts := rfl
  failing := rfl
  terms := List.prefix_rfl
  models id other foundOther := by
    by_cases same : id = model
    · subst same
      cases found.symm.trans foundOther
      exact ⟨values, model?_withNodes found values⟩
    · exact ⟨[], by simpa [model?_withNodes_of_ne same] using foundOther⟩

theorem modelsKept_withNodes {solver : ScriptedSolver} {model : ModelId} {live : ScriptedModel}
    (found : solver.model? model = some live) (values : List ScriptedValue) :
    ModelsKept solver (solver.withNodes model live values) where
  size := Array.size_setIfInBounds
  live id := by
    by_cases same : id = model
    · subst same
      rw [model?_withNodes found, found]
      rfl
    · rw [model?_withNodes_of_ne same]

/-! ## Vectors -/

theorem inside_of_isLive {solver : ScriptedSolver} {vector : VectorId}
    (live : solver.IsLive vector) : vector.number < solver.vectors.size := by
  by_cases inside : vector.number < solver.vectors.size
  · exact inside
  · simp [IsLive, vector?, Array.getElem?_eq_none (Nat.le_of_not_lt inside)] at live

/-- The solver with something else in the place of a vector. -/
def withVector (solver : ScriptedSolver) (vector : VectorId)
    (contents? : Option VectorContents) : ScriptedSolver :=
  { solver with vectors := solver.vectors.setIfInBounds vector.number contents? }

theorem vector?_withVector {solver : ScriptedSolver} {vector : VectorId}
    (live : solver.IsLive vector) (contents? : Option VectorContents) (other : VectorId) :
    (solver.withVector vector contents?).vector? other =
      if other = vector then contents? else solver.vector? other := by
  by_cases same : other = vector
  · subst same
    simp [withVector, vector?, Array.getElem?_setIfInBounds_self_of_lt (inside_of_isLive live)]
  · have numbers : vector.number ≠ other.number := by
      intro numbers
      cases vector
      cases other
      simp_all
    simp [withVector, same, vector?, Array.getElem?_setIfInBounds_ne numbers]

theorem sameTables_withVector (solver : ScriptedSolver) (vector : VectorId)
    (contents? : Option VectorContents) : SameTables solver (solver.withVector vector contents?) :=
  ⟨rfl, rfl, rfl, rfl, rfl⟩

theorem setVector_run (solver : ScriptedSolver) (vector : VectorId) (contents : VectorContents) :
    setVector vector contents solver = .ok () (solver.withVector vector (some contents)) := rfl

/-! ## Commands -/

/-- What a command of the script leaves of a state: it adds types, terms and contexts at most, and
may change the calls that are scripted to fail. -/
structure Commanded (earlier later : ScriptedSolver) : Prop where
  error : later.error = earlier.error
  errorTerm? : later.errorTerm? = earlier.errorTerm?
  types : earlier.types.toList <+: later.types.toList
  terms : earlier.terms.toList <+: later.terms.toList
  models : later.models = earlier.models
  vectors : later.vectors = earlier.vectors
  counts : later.counts = earlier.counts

theorem Commanded.refl (solver : ScriptedSolver) : Commanded solver solver where
  error := rfl
  errorTerm? := rfl
  types := List.prefix_rfl
  terms := List.prefix_rfl
  models := rfl
  vectors := rfl
  counts := rfl

theorem afterCommand_commanded (command : ScriptCommand) (solver : ScriptedSolver) :
    Commanded solver (afterCommand command solver) := by
  cases command with
  | declareType type =>
      have grown : solver.types.toList <+: (solver.types.push type).toList := by
        simp [List.prefix_append]
      exact { Commanded.refl solver with types := grown }
  | declareVariable type =>
      have grown : solver.terms.toList <+: (solver.terms.push ⟨type, none⟩).toList := by
        simp [List.prefix_append]
      exact { Commanded.refl solver with terms := grown }
  | declareConstant type value =>
      have grown : solver.terms.toList <+: (solver.terms.push ⟨type, some value⟩).toList := by
        simp [List.prefix_append]
      exact { Commanded.refl solver with terms := grown }
  | satisfiable | unsatisfiable | clearFailures => exact { Commanded.refl solver with }
  | isBoolType | typeOf | timesCalled => exact .refl solver
  | failOn name =>
      simp only [afterCommand, obey]
      cases Call.ofName? name with
      | some call => exact { Commanded.refl solver with }
      | none => exact .refl solver
  | keptSubstitution model =>
      simp only [afterCommand, obey]
      cases found : solver.model? model with
      | some live =>
          rw [Outcome.bind_of_ok (liveModel_of_some found)]
          exact .refl solver
      | none =>
          rw [Outcome.bind_of_error (liveModel_of_none found)]
          exact .refl solver

end SmtModel.ScriptedSolver
