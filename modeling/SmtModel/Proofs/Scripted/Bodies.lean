import Mathlib.Logic.Relation
import SmtModel.Proofs.Routine
import SmtModel.Proofs.Scripted.Growth

/-!
# The bodies of the scripted solver's answers

`ScriptedSolver.Change` lists the changes that the body of an answer makes: it sets the
error, adds a term or a model, hands out nodes of the model that it is about, or fills
a vector. What each of these changes keeps, every answer keeps. `ScriptedSolver.Gentle`
is what all bodies have in common: they make no other changes, end in no other fault
than the use of a freed model, and do not look at the calls that are scripted to fail.

The body of a call is `ScriptedSolver.Frank` as well. It sets an error exactly if it
answers with the sign of a failure, and then it sets the same error whatever error
there was before.
-/

namespace SmtModel.ScriptedSolver

open Relation

/-! ## Changes -/

/-- What a body may touch: the model that it is about, the vectors that it fills, and whether it may
make a model or a term. -/
structure Scope where
  model? : Option ModelId := none
  vectors : List VectorId := []
  makesModel : Bool := false
  makesTerm : Bool := false

/-- One change that a body makes within its scope. -/
inductive Change (scope : Scope) (solver : ScriptedSolver) : ScriptedSolver → Prop where
  | error (error : ErrorCode) : Change scope solver { solver with error }
  | errorOf (error : ErrorCode) (term : TermId) :
      Change scope solver { solver with error, errorTerm? := some term }
  | term (makes : scope.makesTerm = true) (made : ScriptedTerm) :
      Change scope solver { solver with terms := solver.terms.push made }
  | model (makes : scope.makesModel = true) (made : ScriptedModel) :
      Change scope solver { solver with models := solver.models.push (some made) }
  | nodes {model : ModelId} {live : ScriptedModel} (about : scope.model? = some model)
      (found : solver.model? model = some live) (values : List ScriptedValue) :
      Change scope solver (solver.withNodes model live values)
  | vector {vector : VectorId} (fills : vector ∈ scope.vectors) (contents : VectorContents) :
      Change scope solver (solver.withVector vector (some contents))

/-- Any number of changes that a body makes within its scope. -/
abbrev Changes (scope : Scope) := ReflTransGen (Change scope)

theorem model?_push {solver : ScriptedSolver} {id : ModelId} {live : ScriptedModel}
    (found : solver.model? id = some live) (made : Option ScriptedModel) :
    (solver.models.push made)[id.number]?.join = some live := by
  simp only [model?] at found
  have inside : id.number ≠ solver.models.size := by
    intro outside
    simp [outside] at found
  simp [Array.getElem?_push, inside, found]

namespace Change

variable {scope : Scope} {earlier later : ScriptedSolver}

theorem tables (change : Change scope earlier later) : Extends earlier later := by
  cases change with
  | error | errorOf | vector => exact .of_tables_eq rfl rfl rfl rfl rfl
  | term _ made =>
      refine
        { types := rfl, contexts := rfl, failing := rfl, terms := ?_
          models := (Extends.refl earlier).models }
      rw [Array.toList_push]
      exact List.prefix_append _ _
  | model _ made =>
      refine
        { types := rfl, contexts := rfl, failing := rfl, terms := List.prefix_rfl
          models := fun id live found => ⟨[], ?_⟩ }
      exact (model?_push found (some made)).trans (by simp)
  | nodes _ found values => exact extends_withNodes found values

theorem calls (change : Change scope earlier later) : later.calls = earlier.calls := by
  cases change <;> rfl

theorem vectors (change : Change scope earlier later)
    (live : ∀ vector ∈ scope.vectors, earlier.IsLive vector) :
    VectorsKept scope.vectors earlier later := by
  cases change with
  | error | errorOf | term | model | nodes => exact .of_vectors_eq rfl rfl
  | @vector vector fills contents =>
      have places := vector?_withVector (live vector fills) (some contents)
      refine ⟨Array.size_setIfInBounds, fun other => ?_, fun other unused => ?_, rfl⟩
      · simp only [IsLive, places]
        by_cases same : other = vector
        · subst same
          have isLive := live other fills
          simp only [IsLive] at isLive
          simp [isLive]
        · simp [same]
      · have different : other ≠ vector := fun same => unused (same ▸ fills)
        simp [places, different]

theorem models (change : Change scope earlier later) (makesNone : scope.makesModel = false) :
    ModelsKept earlier later := by
  cases change with
  | error | errorOf | term | vector => exact .of_models_eq rfl
  | model makes => simp [makesNone] at makes
  | nodes _ found values => exact modelsKept_withNodes found values

theorem terms (change : Change scope earlier later) (makesNone : scope.makesTerm = false) :
    later.terms = earlier.terms := by
  cases change with
  | term makes => simp [makesNone] at makes
  | error | errorOf | model | nodes | vector => rfl

end Change

namespace Changes

variable {scope : Scope} {earlier later : ScriptedSolver}

theorem tables (changes : Changes scope earlier later) : Extends earlier later := by
  induction changes with
  | refl => exact .refl earlier
  | tail _ change ih => exact ih.trans change.tables

theorem calls (changes : Changes scope earlier later) : later.calls = earlier.calls := by
  induction changes with
  | refl => rfl
  | tail _ change ih => exact change.calls.trans ih

theorem vectors (changes : Changes scope earlier later)
    (live : ∀ vector ∈ scope.vectors, earlier.IsLive vector) :
    VectorsKept scope.vectors earlier later := by
  induction changes with
  | refl => exact .of_vectors_eq rfl rfl
  | tail _ change ih =>
      exact ih.trans (change.vectors fun vector fills => (ih.live vector).mpr (live vector fills))

theorem models (changes : Changes scope earlier later) (makesNone : scope.makesModel = false) :
    ModelsKept earlier later := by
  induction changes with
  | refl => exact .of_models_eq rfl
  | tail _ change ih => exact ih.trans (change.models makesNone)

theorem terms (changes : Changes scope earlier later) (makesNone : scope.makesTerm = false) :
    later.terms = earlier.terms := by
  induction changes with
  | refl => rfl
  | tail _ change ih => exact (change.terms makesNone).trans ih

end Changes

/-! ## Gentle bodies -/

/-- What every body does at most. -/
structure Gentle {α : Type} (scope : Scope) (step : Step α) : Prop where
  changes : ∀ solver, Changes scope solver (Outcome.state (step solver))
  faults : ∀ solver fault left, step solver = .error fault left →
    ∃ model, scope.model? = some model ∧ fault = .modelUsedAfterFree model ∧
      left.model? model = none
  blind : ∀ failing solver,
    step (arm failing solver) = Outcome.mapState (arm failing) (step solver)

namespace Gentle

variable {α β : Type} {scope : Scope}

theorem tables {step : Step α} (gentle : Gentle scope step) (solver : ScriptedSolver) :
    Extends solver (Outcome.state (step solver)) :=
  (gentle.changes solver).tables

theorem vectors {step : Step α} (gentle : Gentle scope step) (solver : ScriptedSolver)
    (live : ∀ vector ∈ scope.vectors, solver.IsLive vector) :
    VectorsKept scope.vectors solver (Outcome.state (step solver)) :=
  (gentle.changes solver).vectors live

theorem calls {step : Step α} (gentle : Gentle scope step) (solver : ScriptedSolver) :
    (Outcome.state (step solver)).calls = solver.calls :=
  (gentle.changes solver).calls

/-- A step that makes a single change and does not look at the state. -/
theorem of_change {step : Step α} {result : α} {change : ScriptedSolver → ScriptedSolver}
    (runs : ∀ solver, step solver = .ok result (change solver))
    (changes : ∀ solver, Change scope solver (change solver))
    (blind : ∀ failing solver, change (arm failing solver) = arm failing (change solver)) :
    Gentle scope step where
  changes solver := by
    rw [runs]
    exact .single (changes solver)
  faults solver fault left ended := by
    rw [runs] at ended
    cases ended
  blind failing solver := by
    rw [runs, runs, blind]
    rfl

theorem pure (result : α) : Gentle scope (Pure.pure result : Step α) where
  changes _ := .refl
  faults _ _ _ ended := by cases ended
  blind _ _ := rfl

theorem bind {first : Step β} {next : β → Step α} (before : Gentle scope first)
    (after : ∀ result, Gentle scope (next result)) : Gentle scope (first >>= next) where
  changes solver := Outcome.related_bind (Changes scope) ReflTransGen.trans
    (before.changes solver) fun result middle _ => (after result).changes middle
  faults solver fault left ended := by
    rcases Outcome.bind_eq_error.mp ended with ended | ⟨result, middle, _, ended⟩
    · exact before.faults solver fault left ended
    · exact (after result).faults middle fault left ended
  blind failing solver := Outcome.mapState_bind (before.blind failing solver)
    fun result middle _ => (after result).blind failing middle

/-- Going on from what is seen in the state, apart from the calls that are scripted to fail. -/
theorem look {step : ScriptedSolver → Step α}
    (same : ∀ failing solver, step (arm failing solver) = step solver)
    (after : ∀ solver, Gentle scope (step solver)) :
    Gentle scope (do let solver ← get; step solver) where
  changes solver := (after solver).changes solver
  faults solver := (after solver).faults solver
  blind failing solver := by
    change step (arm failing solver) (arm failing solver) = _
    rw [same]
    exact (after solver).blind failing solver

end Gentle

/-! ## Frank bodies -/

/-- The solver with another error, about the same term. -/
def withErrorCode (solver : ScriptedSolver) (error : ErrorCode) : ScriptedSolver :=
  { solver with error }

/-- What the bodies of calls keep to about errors. Answers that `refusal` does not take for the sign
of a failure leave the error alone. The others set one, as long as there are identifiers for all
terms, and which it is does not depend on the error before. -/
structure Frank {α : Type} (scope : Scope) (refusal : α → Bool) (step : Step α) : Prop
    extends Gentle scope step where
  honest : ∀ solver answer left, step solver = .ok answer left → refusal answer = false →
    left.error = solver.error ∧ left.errorTerm? = solver.errorTerm?
  steady : ∀ solver answer left, step solver = .ok answer left → refusal answer = false →
    ∀ error, step (solver.withErrorCode error) = .ok answer (left.withErrorCode error)
  refused : ∀ solver answer left, step solver = .ok answer left → refusal answer = true →
    left.terms.size ≤ 0x80000000 →
      left.error ≠ .noError ∧ ∀ error, step (solver.withErrorCode error) = .ok answer left
  faulted : ∀ solver fault left, step solver = .error fault left →
    left.error = solver.error ∧ left.errorTerm? = solver.errorTerm?

/-- No answer is taken for the sign of a failure. -/
def never {α : Type} (_ : α) : Bool := false

theorem addTerm_crowded {term : ScriptedTerm} {solver left : ScriptedSolver} {answer : TermId}
    (added : addTerm term solver = .ok answer left) (isNull : answer.isNull = true) :
    0x80000000 < left.terms.size := by
  cases added
  simp only [Array.size_push]
  apply Nat.lt_of_not_le
  intro few
  rw [TermId.isNull_ofIndex (by omega)] at isNull
  cases isNull

namespace Frank

variable {α β : Type} {scope : Scope} {refusal : α → Bool}

/-- A step that has nothing to do with errors. If its answer is taken for the sign of a failure all
the same, there are too many terms. -/
theorem of_quiet {step : Step α} (gentle : Gentle scope step)
    (blind : ∀ error solver, step (solver.withErrorCode error) =
      Outcome.mapState (·.withErrorCode error) (step solver))
    (kept : ∀ solver, (Outcome.state (step solver)).error = solver.error ∧
      (Outcome.state (step solver)).errorTerm? = solver.errorTerm?)
    (crowded : ∀ solver answer left, step solver = .ok answer left → refusal answer = true →
      0x80000000 < left.terms.size) : Frank scope refusal step where
  toGentle := gentle
  honest solver answer left ended _ := by
    have kept := kept solver
    rw [ended] at kept
    exact kept
  steady solver answer left ended _ error := by
    rw [blind, ended]
    rfl
  refused solver answer left ended isRefused room := by
    have tooMany := crowded solver answer left ended isRefused
    omega
  faulted solver fault left ended := by
    have kept := kept solver
    rw [ended] at kept
    exact kept

theorem pure {result : α} (accepted : refusal result = false) :
    Frank scope refusal (Pure.pure result : Step α) := by
  refine of_quiet (.pure result) (fun _ _ => rfl) (fun _ => ⟨rfl, rfl⟩) ?_
  intro solver answer left ended isRefused
  cases ended
  rw [accepted] at isRefused
  cases isRefused

/-- Going on after a step, unless it has failed. -/
theorem bind {accepts : β → Bool} {first : Step β} {next : β → Step α}
    (before : Frank scope accepts first)
    (after : ∀ result, accepts result = false → Frank scope refusal (next result))
    (stops : ∀ result, accepts result = true →
      ∃ failed, refusal failed = true ∧ next result = Pure.pure failed) :
    Frank scope refusal (first >>= next) where
  toGentle := by
    refine before.toGentle.bind fun result => ?_
    cases isRefused : accepts result with
    | false => exact (after result isRefused).toGentle
    | true =>
        rcases stops result isRefused with ⟨failed, -, stopped⟩
        rw [stopped]
        exact .pure failed
  honest solver answer left ended accepted := by
    rcases Outcome.bind_eq_ok.mp ended with ⟨result, middle, ran, ended⟩
    cases isRefused : accepts result with
    | false =>
        have earlier := before.honest solver result middle ran isRefused
        have later := (after result isRefused).honest middle answer left ended accepted
        exact ⟨later.1.trans earlier.1, later.2.trans earlier.2⟩
    | true =>
        rcases stops result isRefused with ⟨failed, refused, stopped⟩
        rw [stopped] at ended
        cases ended
        simp [refused] at accepted
  steady solver answer left ended accepted error := by
    rcases Outcome.bind_eq_ok.mp ended with ⟨result, middle, ran, ended⟩
    cases isRefused : accepts result with
    | false =>
        rw [Outcome.bind_of_ok (before.steady solver result middle ran isRefused error)]
        exact (after result isRefused).steady middle answer left ended accepted error
    | true =>
        rcases stops result isRefused with ⟨failed, refused, stopped⟩
        rw [stopped] at ended
        cases ended
        simp [refused] at accepted
  refused solver answer left ended refused room := by
    rcases Outcome.bind_eq_ok.mp ended with ⟨result, middle, ran, ended⟩
    cases isRefused : accepts result with
    | false =>
        rcases (after result isRefused).refused middle answer left ended refused room with
          ⟨set, same⟩
        refine ⟨set, fun error => ?_⟩
        rw [Outcome.bind_of_ok (before.steady solver result middle ran isRefused error)]
        exact same error
    | true =>
        rcases stops result isRefused with ⟨failed, -, stopped⟩
        rw [stopped] at ended
        cases ended
        rcases before.refused solver result left ran isRefused room with ⟨set, same⟩
        refine ⟨set, fun error => ?_⟩
        rw [Outcome.bind_of_ok (same error), stopped]
        rfl
  faulted solver fault left ended := by
    rcases Outcome.bind_eq_error.mp ended with ended | ⟨result, middle, ran, ended⟩
    · exact before.faulted solver fault left ended
    · cases isRefused : accepts result with
      | false =>
          have earlier := before.honest solver result middle ran isRefused
          have later := (after result isRefused).faulted middle fault left ended
          exact ⟨later.1.trans earlier.1, later.2.trans earlier.2⟩
      | true =>
          rcases stops result isRefused with ⟨failed, -, stopped⟩
          rw [stopped] at ended
          cases ended

theorem bindQuiet {first : Step β} {next : β → Step α} (before : Frank scope never first)
    (after : ∀ result, Frank scope refusal (next result)) : Frank scope refusal (first >>= next) :=
  bind before (fun result _ => after result) fun _ impossible => by cases impossible

/-- Going on after a step that has no result if it fails. -/
theorem bindOption {first : Step (Option β)} {next : Option β → Step α} {failed : α}
    (before : Frank scope Option.isNone first) (onNone : next none = Pure.pure failed)
    (refused : refusal failed = true) (after : ∀ result, Frank scope refusal (next (some result))) :
    Frank scope refusal (first >>= next) := by
  refine bind before (fun result? isSome => ?_) fun result? isNone => ⟨failed, refused, ?_⟩
  · rcases Option.isSome_iff_exists.mp (by simpa using isSome) with ⟨result, rfl⟩
    exact after result
  · rw [Option.isNone_iff_eq_none.mp isNone, onNone]

/-- Going on after a status, which is passed on if it is that of failure. -/
theorem bindStatus {first : Step Int32} {next : Int32 → Step Int32}
    (before : Frank scope (fun status => status = statusFailed) first)
    (onFailed : next statusFailed = Pure.pure statusFailed)
    (after : ∀ status, status ≠ statusFailed →
      Frank scope (fun status => status = statusFailed) (next status)) :
    Frank scope (fun status => status = statusFailed) (first >>= next) := by
  refine bind before (fun status accepted => ?_) fun status failed => ⟨statusFailed, ?_, ?_⟩
  · exact after status (of_decide_eq_false accepted)
  · exact decide_eq_true rfl
  · rw [of_decide_eq_true failed, onFailed]

/-- Going on from what is seen in the state, apart from the error and from the calls that are
scripted to fail. -/
theorem look {step : ScriptedSolver → Step α}
    (same : ∀ failing error solver, step { solver with failing, error } = step solver)
    (after : ∀ solver, Frank scope refusal (step solver)) :
    Frank scope refusal (do let solver ← get; step solver) where
  toGentle := .look (fun failing solver => same failing solver.error solver) fun solver =>
    (after solver).toGentle
  honest solver := (after solver).honest solver
  steady solver answer left ended accepted error := by
    change step (solver.withErrorCode error) (solver.withErrorCode error) = _
    rw [show step (solver.withErrorCode error) = step solver from same solver.failing error solver]
    exact (after solver).steady solver answer left ended accepted error
  refused solver answer left ended refused room := by
    rcases (after solver).refused solver answer left ended refused room with ⟨set, sameEnding⟩
    refine ⟨set, fun error => ?_⟩
    change step (solver.withErrorCode error) (solver.withErrorCode error) = _
    rw [show step (solver.withErrorCode error) = step solver from same solver.failing error solver]
    exact sameEnding error
  faulted solver := (after solver).faulted solver

theorem refuse {failed : α} (refused : refusal failed = true) {error : ErrorCode}
    (set : error ≠ .noError) : Frank scope refusal (do complain error; Pure.pure failed) where
  toGentle := .of_change (fun _ => rfl) (fun _ => .error error) fun _ _ => rfl
  honest _ _ _ ended accepted := by cases ended; simp [refused] at accepted
  steady _ _ _ ended accepted := by cases ended; simp [refused] at accepted
  refused _ _ _ ended _ _ := by cases ended; exact ⟨set, fun _ => rfl⟩
  faulted _ _ _ ended := by cases ended

theorem refuseOf {failed : α} (refused : refusal failed = true) {error : ErrorCode}
    (set : error ≠ .noError) (term : TermId) :
    Frank scope refusal (do complainOf error term; Pure.pure failed) where
  toGentle := .of_change (fun _ => rfl) (fun _ => .errorOf error term) fun _ _ => rfl
  honest _ _ _ ended accepted := by cases ended; simp [refused] at accepted
  steady _ _ _ ended accepted := by cases ended; simp [refused] at accepted
  refused _ _ _ ended _ _ := by cases ended; exact ⟨set, fun _ => rfl⟩
  faulted _ _ _ ended := by cases ended

/-! ### Single steps -/

theorem addTerm (makes : scope.makesTerm = true) (term : ScriptedTerm) :
    Frank scope TermId.isNull (ScriptedSolver.addTerm term) := by
  refine of_quiet ?_ (fun _ _ => rfl) (fun _ => ⟨rfl, rfl⟩) fun _ _ _ => addTerm_crowded
  refine
    { changes := fun solver => .single (.term makes term)
      faults := fun _ _ _ ended => by cases ended
      blind := fun _ _ => rfl }

theorem addModel (makes : scope.makesModel = true) (assignment : Assignment)
    (keepSubstitution : Bool) :
    Frank scope never (ScriptedSolver.addModel assignment keepSubstitution) := by
  refine of_quiet ?_ (fun _ _ => rfl) (fun _ => ⟨rfl, rfl⟩) (by simp [never])
  refine
    { changes := fun solver => .single (.model makes _)
      faults := fun _ _ _ ended => by cases ended
      blind := fun _ _ => rfl }

theorem liveModel {model : ModelId} (about : scope.model? = some model) :
    Frank scope never (ScriptedSolver.liveModel model) := by
  refine of_quiet ⟨fun solver => ?_, fun solver fault left ended => ?_, fun failing solver => ?_⟩
    (fun error solver => ?_) (fun solver => ?_) (by simp [never])
  · rw [liveModel_run]
    cases solver.model? model <;> exact .refl
  · rw [liveModel_run] at ended
    cases missing : solver.model? model with
    | some live =>
        rw [missing] at ended
        cases ended
    | none =>
        rw [missing] at ended
        cases ended
        exact ⟨model, about, rfl, missing⟩
  · have same : (arm failing solver).model? model = solver.model? model := rfl
    rw [liveModel_run, liveModel_run, same]
    cases solver.model? model <;> rfl
  · have same : (solver.withErrorCode error).model? model = solver.model? model := rfl
    rw [liveModel_run, liveModel_run, same]
    cases solver.model? model <;> rfl
  · rw [liveModel_run]
    cases solver.model? model <;> exact ⟨rfl, rfl⟩

theorem addNodes {model : ModelId} (about : scope.model? = some model)
    (values : List ScriptedValue) : Frank scope never (ScriptedSolver.addNodes model values) := by
  refine of_quiet ⟨fun solver => ?_, fun solver fault left ended => ?_, fun failing solver => ?_⟩
    (fun error solver => ?_) (fun solver => ?_) (by simp [never])
  · rw [addNodes_run]
    cases found : solver.model? model with
    | some live => exact .single (.nodes about found values)
    | none => exact .refl
  · rw [addNodes_run] at ended
    cases missing : solver.model? model with
    | some live =>
        rw [missing] at ended
        cases ended
    | none =>
        rw [missing] at ended
        cases ended
        exact ⟨model, about, rfl, missing⟩
  · have same : (arm failing solver).model? model = solver.model? model := rfl
    rw [addNodes_run, addNodes_run, same]
    cases solver.model? model <;> rfl
  · have same : (solver.withErrorCode error).model? model = solver.model? model := rfl
    rw [addNodes_run, addNodes_run, same]
    cases solver.model? model <;> rfl
  · rw [addNodes_run]
    cases solver.model? model <;> exact ⟨rfl, rfl⟩

theorem setVector {vector : VectorId} (fills : vector ∈ scope.vectors)
    (contents : VectorContents) :
    Frank scope never (ScriptedSolver.setVector vector contents) := by
  refine of_quiet ?_ (fun _ _ => rfl) (fun _ => ⟨rfl, rfl⟩) (by simp [never])
  exact .of_change (setVector_run · vector contents) (fun _ => .vector fills contents) fun _ _ => rfl

/-! ### Compound steps -/

theorem valueOf {model : ModelId} (about : scope.model? = some model) (term : TermId) :
    Frank scope Option.isNone (ScriptedSolver.valueOf model term) := by
  refine look (fun _ _ _ => rfl) fun solver => ?_
  cases solver.term? term with
  | none => exact refuseOf rfl (by decide) _
  | some entry =>
      refine bindQuiet (liveModel about) fun live => ?_
      cases live.assignment.find? (·.1 = term) with
      | some assigned => exact pure rfl
      | none =>
          cases entry.constant? with
          | some value => exact pure rfl
          | none => exact refuseOf rfl (by decide) _

theorem nodeValue {model : ModelId} (about : scope.model? = some model) (node : Node) :
    Frank scope Option.isNone (ScriptedSolver.nodeValue model node) := by
  unfold ScriptedSolver.nodeValue
  cases tableIndex? node.id with
  | none => exact refuse rfl (by decide)
  | some index =>
      refine bindQuiet (liveModel about) fun live => ?_
      cases live.nodes[index]? with
      | some value => exact pure rfl
      | none => exact refuse rfl (by decide)

theorem truth {model : ModelId} (about : scope.model? = some model) (formula : TermId) :
    Frank scope (fun status => status = statusFailed) (ScriptedSolver.truth model formula) := by
  refine bindOption (valueOf about formula) rfl rfl fun value => ?_
  cases value with
  | bool truth => cases truth <;> exact pure rfl
  | _ => exact refuseOf rfl (by decide) _

theorem conjunction {model : ModelId} (about : scope.model? = some model)
    (formulas : List TermId) :
    Frank scope (fun status => status = statusFailed)
      (ScriptedSolver.conjunction model formulas) := by
  induction formulas with
  | nil => exact pure rfl
  | cons formula formulas ih =>
      refine bindStatus (truth about formula) rfl fun first accepted => ?_
      rw [if_neg accepted]
      refine bindStatus ih rfl fun others othersAccepted => ?_
      rw [if_neg othersAccepted]
      by_cases isFalse : first = 0
      · rw [if_pos isFalse]
        exact pure rfl
      · rw [if_neg isFalse]
        exact pure (by simpa using othersAccepted)

theorem requireAll {model : ModelId} (about : scope.model? = some model) {error : ErrorCode}
    (set : error ≠ .noError) (formulas : List TermId) :
    Frank scope (fun status => status = statusFailed)
      (ScriptedSolver.requireAll model error formulas) := by
  induction formulas with
  | nil => exact pure rfl
  | cons formula formulas ih =>
      refine bindStatus (truth about formula) rfl fun first accepted => ?_
      rw [if_neg accepted]
      by_cases isFalse : first = 0
      · rw [if_pos isFalse]
        exact refuseOf rfl set _
      · rw [if_neg isFalse]
        exact ih

theorem keepTrue {model : ModelId} {vector : VectorId} (about : scope.model? = some model)
    (fills : vector ∈ scope.vectors) {error : ErrorCode} (set : error ≠ .noError)
    (formulas : List TermId) :
    Frank scope (fun status => status = statusFailed)
      (ScriptedSolver.keepTrue model error formulas vector) := by
  refine bindStatus (requireAll about set formulas) rfl fun status accepted => ?_
  rw [if_pos accepted]
  exact bindQuiet (setVector fills _) fun _ => pure (by simpa using accepted)

end Frank

end SmtModel.ScriptedSolver
