import SmtModel.Proofs.Scripted.Bodies

/-!
# The scripted solver's answers, request by request

A request that makes a counted call is answered by an attempt at a frank body
(`ScriptedSolver.answer_attempts`), as long as the vector that it uses is live; a
question is gentle as a whole (`ScriptedSolver.answer_question`). Apart from making
and releasing vectors, no answer does more to the vectors than to fill the one that
it is asked to fill (`ScriptedSolver.answer_keepsVectors`).
-/

namespace SmtModel

/-- Requests that make a model. -/
def Request.makesModel : Request → Bool
  | .getModel .. | .modelFromMap .. => true
  | _ => false

/-- Requests that make a term. -/
def Request.makesTerm : Request → Bool
  | .valueAsTerm .. | .constant .. => true
  | _ => false

/-- What the answer of a request may touch. -/
def Request.scope (request : Request) : ScriptedSolver.Scope where
  model? := request.model?
  vectors := request.vector?.toList
  makesModel := request.makesModel
  makesTerm := request.makesTerm

namespace Misfit

theorem termError_ne_noError (misfit : Misfit) : misfit.termError ≠ .noError := by
  cases misfit <;> decide

theorem nodeError_ne_noError (misfit : Misfit) : misfit.nodeError ≠ .noError := by
  cases misfit <;> decide

end Misfit

namespace ScriptedSolver

variable {α : Type}

/-! ## Attempts -/

/-- The solver after a call was counted. -/
def withCall (call : Call) (solver : ScriptedSolver) : ScriptedSolver :=
  { solver with calls := call :: solver.calls }

/-- The solver after a call failed because it was scripted to. -/
def withScriptedFailure (call : Call) (solver : ScriptedSolver) : ScriptedSolver :=
  { withCall call solver with error := .internalException }

theorem attempt_of_mem {call : Call} {solver : ScriptedSolver} (scripted : call ∈ solver.failing)
    (failed : α) (body : Step α) :
    attempt call failed body solver = .ok failed (withScriptedFailure call solver) := by
  change (if call ∈ solver.failing then (do complain .internalException; return failed) else body)
    (withCall call solver) = _
  rw [if_pos scripted]
  rfl

theorem attempt_of_not_mem {call : Call} {solver : ScriptedSolver} (free : call ∉ solver.failing)
    (failed : α) (body : Step α) :
    attempt call failed body solver = body (withCall call solver) := by
  change (if call ∈ solver.failing then (do complain .internalException; return failed) else body)
    (withCall call solver) = _
  rw [if_neg free]

theorem sameTables_withCall (call : Call) (solver : ScriptedSolver) :
    SameTables solver (withCall call solver) :=
  ⟨rfl, rfl, rfl, rfl, rfl⟩

theorem extends_withCall (call : Call) (solver : ScriptedSolver) :
    Extends solver (withCall call solver) :=
  .of_tables_eq rfl rfl rfl rfl rfl

theorem vectorsKept_withCall {used : List VectorId} (call : Call) (solver : ScriptedSolver) :
    VectorsKept used solver (withCall call solver) :=
  .of_vectors_eq rfl rfl

/-- Once a call is counted, an attempt at a gentle body makes the changes of that body, or sets the
error of a scripted failure. -/
theorem attempt_changes {scope : Scope} {body : Step α} (call : Call) (failed : α)
    (gentle : Gentle scope body) (solver : ScriptedSolver) :
    Changes scope (withCall call solver) (Outcome.state (attempt call failed body solver)) := by
  by_cases scripted : call ∈ solver.failing
  · rw [attempt_of_mem scripted]
    exact .single (.error .internalException)
  · rw [attempt_of_not_mem scripted]
    exact gentle.changes _

theorem attempt_faults {scope : Scope} {body : Step α} {call : Call} {failed : α}
    (gentle : Gentle scope body) {solver left : ScriptedSolver} {fault : Fault}
    (ended : attempt call failed body solver = .error fault left) :
    ∃ model, scope.model? = some model ∧ fault = .modelUsedAfterFree model ∧
      left.model? model = none := by
  by_cases scripted : call ∈ solver.failing
  · rw [attempt_of_mem scripted] at ended
    cases ended
  · rw [attempt_of_not_mem scripted] at ended
    exact gentle.faults _ fault left ended

/-- Steps that, while the vectors that they fill are live, attempt a call with a frank body. -/
def Attempts (scope : Scope) (refusal : α → Bool) (call : Call) (step : Step α) : Prop :=
  ∃ (failed : α) (body : Step α), refusal failed = true ∧ Frank scope refusal body ∧
    ∀ solver : ScriptedSolver, (∀ vector ∈ scope.vectors, solver.IsLive vector) →
      step solver = attempt call failed body solver

/-- What a step keeps to that does not make or release vectors, while the vectors `used` are
live. -/
structure KeepsVectors (used : List VectorId) (step : Step α) : Prop where
  kept : ∀ solver : ScriptedSolver, (∀ vector ∈ used, solver.IsLive vector) →
    VectorsKept used solver (Outcome.state (step solver))
  faults : ∀ solver : ScriptedSolver, (∀ vector ∈ used, solver.IsLive vector) →
    ∀ fault left, step solver = .error fault left → ¬ fault.IsOfVector

theorem Gentle.keepsVectors {scope : Scope} {step : Step α} (gentle : Gentle scope step) :
    KeepsVectors scope.vectors step where
  kept := gentle.vectors
  faults solver _ fault left ended := by
    rcases gentle.faults solver fault left ended with ⟨model, -, rfl, -⟩
    exact id

namespace Attempts

variable {scope : Scope} {refusal : α → Bool} {call : Call} {step : Step α}
  (attempts : Attempts scope refusal call step)

include attempts

section Live

variable {solver left : ScriptedSolver} (live : ∀ vector ∈ scope.vectors, solver.IsLive vector)

include live

/-- Once the call is counted, there are only changes within the scope. -/
theorem changes : Changes scope (withCall call solver) (Outcome.state (step solver)) := by
  rcases attempts with ⟨failed, body, _, frank, runs⟩
  rw [runs solver live]
  exact attempt_changes call failed frank.toGentle solver

theorem tables : Extends solver (Outcome.state (step solver)) :=
  (extends_withCall call solver).trans (attempts.changes live).tables

theorem faults {fault : Fault} (ended : step solver = .error fault left) :
    ∃ model, scope.model? = some model ∧ fault = .modelUsedAfterFree model ∧
      left.model? model = none := by
  rcases attempts with ⟨failed, body, _, frank, runs⟩
  rw [runs solver live] at ended
  exact attempt_faults frank.toGentle ended

theorem faulted {fault : Fault} (ended : step solver = .error fault left) :
    left.error = solver.error ∧ left.errorTerm? = solver.errorTerm? := by
  rcases attempts with ⟨failed, body, _, frank, runs⟩
  rw [runs solver live] at ended
  by_cases scripted : call ∈ solver.failing
  · rw [attempt_of_mem scripted] at ended
    cases ended
  · rw [attempt_of_not_mem scripted] at ended
    exact frank.faulted (withCall call solver) fault left ended

theorem honest {answer : α} (ended : step solver = .ok answer left)
    (accepted : refusal answer = false) :
    left.error = solver.error ∧ left.errorTerm? = solver.errorTerm? := by
  rcases attempts with ⟨failed, body, refused, frank, runs⟩
  rw [runs solver live] at ended
  by_cases scripted : call ∈ solver.failing
  · rw [attempt_of_mem scripted] at ended
    cases ended
    simp [refused] at accepted
  · rw [attempt_of_not_mem scripted] at ended
    exact frank.honest (withCall call solver) answer left ended accepted

/-- A refusal sets an error of its own. -/
theorem refused {answer : α} (ended : step solver = .ok answer left)
    (isRefused : refusal answer = true) (room : left.terms.size ≤ 0x80000000) :
    left.error ≠ .noError ∧ ∀ error, step (solver.withErrorCode error) = .ok answer left := by
  rcases attempts with ⟨failed, body, refused, frank, runs⟩
  rw [runs solver live] at ended
  by_cases scripted : call ∈ solver.failing
  · rw [attempt_of_mem scripted] at ended
    cases ended
    refine ⟨by simp [withScriptedFailure, ErrorCode.internalException, ErrorCode.noError], ?_⟩
    intro error
    have scripted' : call ∈ (solver.withErrorCode error).failing := scripted
    rw [runs (solver.withErrorCode error) live, attempt_of_mem scripted']
    rfl
  · rw [attempt_of_not_mem scripted] at ended
    rcases frank.refused _ answer left ended isRefused room with ⟨set, same⟩
    refine ⟨set, fun error => ?_⟩
    have free : call ∉ (solver.withErrorCode error).failing := scripted
    rw [runs (solver.withErrorCode error) live, attempt_of_not_mem free]
    exact same error

end Live

theorem keepsVectors : KeepsVectors scope.vectors step where
  kept solver live := (vectorsKept_withCall call solver).trans ((attempts.changes live).vectors live)
  faults solver live fault left ended := by
    rcases attempts.faults live ended with ⟨model, -, rfl, -⟩
    exact id

end Attempts

section Families

variable {scope : Scope}

theorem checkVector_of_isLive {solver : ScriptedSolver} {vector : VectorId}
    (live : solver.IsLive vector) : checkVector vector solver = .ok () solver := by
  rcases Option.isSome_iff_exists.mp live with ⟨contents, found⟩
  change (if (solver.vector? vector).isNone then
    (throw (.vectorUsedAfterRelease vector) : Step Unit) else pure ()) solver = _
  rw [found]
  rfl

/-- A look at a live vector does not stand in the way of an attempt. -/
theorem checked_eq {solver : ScriptedSolver} {vector : VectorId} (live : solver.IsLive vector)
    (step : Step α) : (do checkVector vector; step) solver = step solver :=
  Outcome.bind_of_ok (checkVector_of_isLive live)

section AboutModel

variable {model : ModelId} (about : scope.model? = some model)

include about

theorem readTerm_attempts (call : Call) (term : TermId) (cell : α)
    (read : ScriptedValue → Except Misfit α) :
    Attempts scope (fun reply => reply.status = statusFailed) call
      (readTerm call model term cell read) := by
  refine ⟨.failed cell, _, rfl, ?_, fun _ _ => rfl⟩
  refine .bindOption (.valueOf about term) rfl rfl fun value => ?_
  dsimp only
  cases read value with
  | ok result => exact .pure rfl
  | error misfit => exact .refuseOf rfl misfit.termError_ne_noError _

theorem readNode_attempts (call : Call) (node : Node) (cell : α)
    (read : ScriptedValue → Except Misfit α) :
    Attempts scope (fun reply => reply.status = statusFailed) call
      (readNode call model node cell read) := by
  refine ⟨.failed cell, _, rfl, ?_, fun _ _ => rfl⟩
  refine .bindOption (.nodeValue about node) rfl rfl fun value => ?_
  dsimp only
  cases read value with
  | ok result => exact .pure rfl
  | error misfit => exact .refuse rfl misfit.nodeError_ne_noError

theorem measureNode_gentle (node : Node) (measure : ScriptedValue → α) (none : α) :
    Gentle scope (measureNode model node measure none) :=
  .bind (Frank.nodeValue about node).toGentle fun _ => .pure _

theorem value_attempts (term : TermId) (cell : Node) :
    Attempts scope (fun reply => reply.status = statusFailed) .value (value model term cell) := by
  refine ⟨.failed cell, _, rfl, ?_, fun _ _ => rfl⟩
  refine .bindOption (.valueOf about term) rfl rfl fun value => ?_
  exact .bindQuiet (.addNodes about [value]) fun place => .pure rfl

theorem valueAsTerm_attempts (makes : scope.makesTerm = true) (term : TermId) :
    Attempts scope TermId.isNull .valueAsTerm (valueAsTerm model term) := by
  refine ⟨.null, _, rfl, ?_, fun _ _ => rfl⟩
  refine .look (fun _ _ _ => rfl) fun solver => ?_
  exact .bindOption (.valueOf about term) rfl rfl fun value => .addTerm makes _

theorem expandTuple_attempts (node : Node) (arity : Nat) (cells : Vector Node arity) :
    Attempts scope (fun reply => reply.status = statusFailed) .expandTuple
      (expandTuple model node arity cells) := by
  refine ⟨.failed cells, _, rfl, ?_, fun _ _ => rfl⟩
  refine .bindOption (.nodeValue about node) rfl rfl fun value => ?_
  cases value with
  | tuple items =>
      by_cases sameArity : items.length = arity
      · simp only [sameArity, dite_true]
        exact .bindQuiet (.addNodes about items) fun place => .pure rfl
      · simp only [sameArity, dite_false]
        exact .refuse rfl (by decide)
  | _ => exact .refuse rfl (by decide)

theorem expandMapping_attempts (node : Node) (arity : Nat)
    (cells : Vector Node arity × Node) :
    Attempts scope (fun reply => reply.status = statusFailed) .expandMapping
      (expandMapping model node arity cells) := by
  refine ⟨.failed cells, _, rfl, ?_, fun _ _ => rfl⟩
  refine .bindOption (.nodeValue about node) rfl rfl fun value => ?_
  cases value with
  | mapping point =>
      by_cases sameArity : point.args.length = arity
      · simp only [sameArity, dite_true]
        exact .bindQuiet (.addNodes about _) fun place => .pure rfl
      · simp only [sameArity, dite_false]
        exact .refuse rfl (by decide)
  | _ => exact .refuse rfl (by decide)

section Filling

variable {vector : VectorId} (fills : vector ∈ scope.vectors)

include fills

theorem expandFunction_attempts (node : Node) (cell : Node) :
    Attempts scope (fun reply => reply.status = statusFailed) .expandFunction
      (expandFunction model node vector cell) := by
  refine ⟨.failed cell, _, rfl, ?_, fun solver live => checked_eq (live vector fills) _⟩
  refine .bindOption (.nodeValue about node) rfl rfl fun value => ?_
  cases value with
  | function arity graph =>
      refine .bindQuiet (.addNodes about _) fun place => ?_
      exact .bindQuiet (.setVector fills _) fun _ => .pure rfl
  | _ => exact .refuse rfl (by decide)

theorem implicants_attempts (call : Call) (formulas : List TermId) :
    Attempts scope (fun status => status = statusFailed) call
      (implicants call model formulas vector) :=
  ⟨statusFailed, _, rfl, .keepTrue about fills (by decide) formulas,
    fun _ live => checked_eq (live vector fills) _⟩

theorem generalize_attempts (call : Call) (formulas eliminated : List TermId) :
    Attempts scope (fun status => status = statusFailed) call
      (generalize call model formulas eliminated vector) := by
  refine ⟨statusFailed, _, rfl, ?_, fun _ live => checked_eq (live vector fills) _⟩
  refine .look (fun _ _ _ => rfl) fun solver => ?_
  dsimp only
  cases eliminated.find? (fun term => !(solver.term? term).any ScriptedTerm.isVariable) with
  | some term => exact .refuseOf rfl (by decide) _
  | none => exact .keepTrue about fills (by decide) formulas

end Filling

end AboutModel

theorem getModel_attempts (makes : scope.makesModel = true) (context : ContextId)
    (keepSubstitution : Bool) :
    Attempts scope Option.isNone .getModel (getModel context keepSubstitution) := by
  refine ⟨none, _, rfl, ?_, fun _ _ => rfl⟩
  refine .look (fun _ _ _ => rfl) fun solver => ?_
  cases solver.contexts[context.number]?.join with
  | some assignment =>
      exact .bindQuiet (.addModel makes assignment keepSubstitution) fun _ => .pure rfl
  | none => exact .refuse rfl (by decide)

/-- An assignment is made from the terms alone. -/
theorem assignmentOf_congr {solver changed : ScriptedSolver}
    (terms : changed.terms = solver.terms) : assignmentOf changed = assignmentOf solver := by
  funext seen pairs
  have sameTerm (term : TermId) : changed.term? term = solver.term? term := by
    simp only [term?, terms]
  induction pairs generalizing seen with
  | nil => rfl
  | cons pair pairs ih => simp only [assignmentOf, ih, sameTerm]

theorem assignmentOf_ne_noError {solver : ScriptedSolver} {error : ErrorCode} {term : TermId}
    (pairs : List (TermId × TermId)) (seen : List TermId)
    (offends : assignmentOf solver seen pairs = .error (error, term)) : error ≠ .noError := by
  induction pairs generalizing seen with
  | nil => cases offends
  | cons pair pairs ih =>
      simp only [assignmentOf] at offends
      split at offends
      · cases offends
        decide
      · split at offends
        · cases offends
          decide
        · split at offends
          · cases offends
            decide
          · split at offends
            · cases offends
              decide
            · cases others : assignmentOf solver (pair.1 :: seen) pairs with
              | ok assignment =>
                  rw [others] at offends
                  cases offends
              | error offence =>
                  rw [others] at offends
                  cases offends
                  exact ih _ others

theorem modelFromMap_attempts (makes : scope.makesModel = true) (targets values : List TermId) :
    Attempts scope Option.isNone .modelFromMap (modelFromMap targets values) := by
  refine ⟨none, _, rfl, ?_, fun _ _ => rfl⟩
  by_cases lengths : targets.length = values.length
  · simp only [lengths, ne_eq, not_true, if_false]
    refine .look (fun failing error solver => ?_) fun solver => ?_
    · have terms : ({ solver with failing, error } : ScriptedSolver).terms = solver.terms := rfl
      rw [assignmentOf_congr terms]
    · cases assigns : assignmentOf solver [] (targets.zip values) with
      | error offence => exact .refuseOf rfl (assignmentOf_ne_noError _ _ assigns) _
      | ok assignment => exact .bindQuiet (.addModel makes assignment false) fun _ => .pure rfl
  · simp only [lengths, ne_eq, not_false_eq_true, if_true]
    exact .refuse rfl (by decide)

/-- The first constant for an element of a type, or a new one. -/
def constantTerm (type : TypeId) (index : Int32) : Step TermId := do
  match (← get).terms.findIdx? (·.denotes type index) with
  | some place => return .ofIndex place
  | none => addTerm ⟨type, some (.scalar type index)⟩

theorem constantTerm_frank (makes : scope.makesTerm = true) (type : TypeId) (index : Int32) :
    Frank scope TermId.isNull (constantTerm type index) := by
  have runs (solver : ScriptedSolver) : constantTerm type index solver =
      match solver.terms.findIdx? (·.denotes type index) with
      | some place => .ok (.ofIndex place) solver
      | none => addTerm ⟨type, some (.scalar type index)⟩ solver := by
    rw [constantTerm, get_bind]
    cases solver.terms.findIdx? (·.denotes type index) <;> rfl
  refine .of_quiet ?_ (fun error solver => ?_) (fun solver => ?_)
    fun solver answer left ended isNull => ?_
  · refine .look (fun _ _ => rfl) fun solver => ?_
    cases solver.terms.findIdx? (·.denotes type index) with
    | some place => exact .pure _
    | none => exact (Frank.addTerm makes _).toGentle
  · have terms : (solver.withErrorCode error).terms = solver.terms := rfl
    rw [runs, runs, terms]
    cases solver.terms.findIdx? (·.denotes type index) <;> rfl
  · rw [runs]
    cases solver.terms.findIdx? (·.denotes type index) <;> exact ⟨rfl, rfl⟩
  · rw [runs] at ended
    apply Nat.lt_of_not_le
    intro room
    cases found : solver.terms.findIdx? (·.denotes type index) with
    | some place =>
        rw [found] at ended
        cases ended
        have inside := (Array.findIdx?_eq_some_iff_findIdx_eq.mp found).1
        rw [TermId.isNull_ofIndex (by omega)] at isNull
        cases isNull
    | none =>
        rw [found] at ended
        have tooMany := addTerm_crowded ended isNull
        omega

theorem constant_attempts (makes : scope.makesTerm = true) (type : TypeId) (index : Int32) :
    Attempts scope TermId.isNull .constant (constant type index) := by
  refine ⟨.null, _, rfl, ?_, fun _ _ => rfl⟩
  refine .look (fun _ _ _ => rfl) fun solver => ?_
  cases solver.type? type with
  | none => exact .refuse rfl (by decide)
  | some declared =>
      cases declared with
      | enumeration size =>
          by_cases outside : index < 0 ∨ (size.toNat : Int) ≤ index.toInt
          · simp only [outside, if_true]
            exact .refuse rfl (by decide)
          · simp only [outside, if_false]
            exact constantTerm_frank makes type index
      | _ => exact .refuse rfl (by decide)

theorem printError_gentle (descriptor : Int32) : Gentle scope (printError descriptor) := by
  unfold printError
  by_cases standard : descriptor = 1 ∨ descriptor = 2
  · simp only [standard, if_true]
    exact .look (fun _ _ => rfl) fun solver => .pure _
  · simp only [standard, if_false]
    have refused : Frank scope (fun _ => true)
        (do complain .outputError; return Reply.failed "") :=
      .refuse rfl (by decide)
    exact refused.toGentle

end Families

/-- Printing fails on other descriptors than the standard ones, with an error of its own. -/
theorem printError_run (descriptor : Int32) (solver : ScriptedSolver) :
    printError descriptor solver =
      if descriptor = 1 ∨ descriptor = 2 then
        .ok (.ok ("Error: " ++ solver.error.describe ++ "\n")) solver
      else .ok (.failed "") (solver.withErrorCode .outputError) := by
  unfold printError
  split <;> rfl

theorem freeModel_keepsVectors {used : List VectorId} (model : ModelId) :
    KeepsVectors used (freeModel model) := by
  refine ⟨fun solver _ => ?_, fun solver _ fault left ended => ?_⟩
  · cases found : solver.model? model with
    | some live =>
        rw [freeModel_of_some found]
        exact .of_vectors_eq rfl rfl
    | none =>
        rw [freeModel_of_none found]
        exact .of_vectors_eq rfl rfl
  · cases found : solver.model? model with
    | some live =>
        rw [freeModel_of_some found] at ended
        cases ended
    | none =>
        rw [freeModel_of_none found] at ended
        cases ended
        exact id

/-! ## Requests -/

/-- A counted call is one that is attempted. Those that the library makes are checked, the
collection of defined terms apart; and printing the error is no counted call. -/
theorem answer_attempts {request : Request} {name : Call} (named : request.call? = some name)
    (checked : request.isUnchecked = false) (counted : name ≠ .printError) :
    Attempts request.scope request.isRefusal name (answer request) := by
  cases request <;> cases named <;> try cases checked
  case printError => exact absurd rfl counted
  case getModel => exact getModel_attempts rfl ..
  case modelFromMap => exact modelFromMap_attempts rfl ..
  case boolValue | int64Value | rational64Value | doubleValue | scalarValue =>
    exact readTerm_attempts rfl ..
  case value => exact value_attempts rfl ..
  case valueAsTerm => exact valueAsTerm_attempts rfl rfl ..
  case nodeBool | nodeInt64 | nodeRational64 | nodeDouble | nodeBits | nodeScalar =>
    exact readNode_attempts rfl ..
  case expandTuple => exact expandTuple_attempts rfl ..
  case expandMapping => exact expandMapping_attempts rfl ..
  case expandFunction => exact expandFunction_attempts rfl (List.mem_singleton_self _) ..
  case formulaHolds => exact ⟨_, _, rfl, .truth rfl _, fun _ _ => rfl⟩
  case formulasHold => exact ⟨_, _, rfl, .conjunction rfl _, fun _ _ => rfl⟩
  case implicant | implicants => exact implicants_attempts rfl (List.mem_singleton_self _) ..
  case generalize | generalizeAll => exact generalize_attempts rfl (List.mem_singleton_self _) ..
  case constant => exact constant_attempts rfl ..

theorem answer_question {request : Request} (question : request.isQuestion = true) :
    Gentle request.scope (answer request) := by
  cases request <;> try cases question
  case nodeIsInt64 | nodeIsRational64 | nodeBitSize | tupleArity | mappingArity | functionArity =>
    exact measureNode_gentle rfl ..
  case termVectorElements | nodeVectorElements =>
    exact .look (fun _ _ => rfl) fun solver => .pure _

/-- What a node stands for, in a model that is not freed. -/
def node? (solver : ScriptedSolver) (model : ModelId) (node : Node) : Option ScriptedValue := do
  (← solver.model? model).nodes[← tableIndex? node.id]?

theorem nodeValue_of_some {solver : ScriptedSolver} {model : ModelId} {node : Node}
    {value : ScriptedValue} (found : solver.node? model node = some value) :
    nodeValue model node solver = .ok (some value) solver := by
  simp only [node?, Option.bind_eq_bind, Option.bind_eq_some_iff] at found
  rcases found with ⟨live, foundModel, index, place, foundNode⟩
  simp only [nodeValue, place]
  rw [Outcome.bind_of_ok (liveModel_of_some foundModel)]
  simp only [foundNode]
  rfl

theorem nodeValue_errorTerm? (model : ModelId) (node : Node) (solver : ScriptedSolver) :
    (Outcome.state (nodeValue model node solver)).errorTerm? = solver.errorTerm? := by
  unfold nodeValue
  cases tableIndex? node.id with
  | none => rfl
  | some index =>
      cases found : solver.model? model with
      | none =>
          dsimp only
          rw [Outcome.bind_of_error (liveModel_of_none found)]
          rfl
      | some live =>
          dsimp only
          rw [Outcome.bind_of_ok (liveModel_of_some found)]
          cases live.nodes[index]? <;> rfl

/-- A question may set an error, but one that is about no term. -/
theorem answer_question_errorTerm? {request : Request} (question : request.isQuestion = true)
    (solver : ScriptedSolver) :
    (Outcome.state (answer request solver)).errorTerm? = solver.errorTerm? := by
  have measured {α : Type} model node (measure : ScriptedValue → α) (none : α) :
      (Outcome.state (measureNode model node measure none solver)).errorTerm? =
        solver.errorTerm? := by
    refine Outcome.related_bind
      (fun earlier later : ScriptedSolver => later.errorTerm? = earlier.errorTerm?) ?_
      (nodeValue_errorTerm? model node solver) fun _ _ _ => rfl
    intro _ _ _ before after
    exact after.trans before
  cases request <;> try cases question
  case nodeIsInt64 | nodeIsRational64 | nodeBitSize | tupleArity | mappingArity | functionArity =>
    exact measured ..
  case termVectorElements | nodeVectorElements => rfl

/-- The terms that a model assigns values to. -/
theorem listing_gentle {scope : Scope} {model : ModelId} (about : scope.model? = some model) :
    Gentle scope (do return (← liveModel model).assignment.map (·.1)) :=
  (Frank.liveModel about).toGentle.bind fun _ => .pure _

theorem definedTerms_changes {model : ModelId} {vector : VectorId} {solver : ScriptedSolver}
    (live : solver.IsLive vector) :
    Changes (Request.definedTerms model vector).scope (withCall .definedTerms solver)
      (Outcome.state (definedTerms model vector solver)) := by
  have listing : Gentle (Request.definedTerms model vector).scope _ := listing_gentle rfl
  have listed := attempt_changes .definedTerms [] listing solver
  rw [definedTerms, checked_eq live]
  cases ran : attempt .definedTerms [] (do return (← liveModel model).assignment.map (·.1))
      solver with
  | error fault left =>
      rw [ran] at listed
      rw [Outcome.bind_of_error ran]
      exact listed
  | ok terms middle =>
      rw [ran] at listed
      rw [Outcome.bind_of_ok ran]
      exact listed.tail (.vector (List.mem_singleton_self vector) _)

theorem definedTerms_faults {model : ModelId} {vector : VectorId} {solver left : ScriptedSolver}
    (live : solver.IsLive vector) {fault : Fault}
    (ended : definedTerms model vector solver = .error fault left) :
    fault = .modelUsedAfterFree model ∧ left.model? model = none := by
  rw [definedTerms, checked_eq live] at ended
  rcases Outcome.bind_eq_error.mp ended with ended | ⟨terms, middle, -, ended⟩
  · have listing : Gentle (Request.definedTerms model vector).scope _ := listing_gentle rfl
    rcases attempt_faults listing ended with ⟨_, ⟨⟩, isUse, missing⟩
    exact ⟨isUse, missing⟩
  · cases ended

theorem definedTerms_keepsVectors (model : ModelId) (vector : VectorId) :
    KeepsVectors [vector] (definedTerms model vector) where
  kept solver live := by
    have called : VectorsKept [vector] solver (withCall .definedTerms solver) :=
      vectorsKept_withCall ..
    exact called.trans ((definedTerms_changes (live vector (by simp))).vectors live)
  faults solver live fault left ended := by
    rcases definedTerms_faults (live vector (by simp)) ended with ⟨rfl, -⟩
    exact id

/-- Making and releasing vectors apart, no answer makes or releases a vector, or meets a vector that
is released, as long as the one that it uses is live. -/
theorem answer_keepsVectors {request : Request} (noTrade : request.tradesVector = false) :
    KeepsVectors request.vector?.toList (answer request) := by
  by_cases question : request.isQuestion = true
  · exact (answer_question question).keepsVectors
  by_cases attempted : ∃ name, request.call? = some name ∧ request.isUnchecked = false ∧
      name ≠ .printError
  · rcases attempted with ⟨name, named, checked, counted⟩
    exact (answer_attempts named checked counted).keepsVectors
  cases request
  case printError descriptor =>
    have gentle : Gentle {} (printError descriptor) := printError_gentle descriptor
    exact gentle.keepsVectors
  case definedTerms model vector => exact definedTerms_keepsVectors model vector
  case freeModel model => exact freeModel_keepsVectors model
  case startUp | shutDown | reset | isRunning | errorCode | errorReport | errorText | clearError =>
    exact ⟨fun _ _ => .of_vectors_eq rfl rfl, fun _ _ _ _ ended => by cases ended⟩
  case newTermVector | releaseTermVector | newNodeVector | releaseNodeVector => cases noTrade
  case nodeIsInt64 | nodeIsRational64 | nodeBitSize | tupleArity | mappingArity | functionArity |
      termVectorElements | nodeVectorElements => exact absurd rfl question
  all_goals exact absurd ⟨_, rfl, rfl, by decide⟩ attempted

theorem answer_printError (descriptor : Int32) : Gentle {} (answer (.printError descriptor)) :=
  printError_gentle descriptor

theorem answer_printError_errorTerm? (descriptor : Int32) (solver : ScriptedSolver) :
    (Outcome.state (answer (.printError descriptor) solver)).errorTerm? = solver.errorTerm? := by
  have runs : answer (.printError descriptor) solver = _ := printError_run descriptor solver
  rw [runs]
  split <;> rfl

/-! ## Changes request by request -/

/-- A request that fills a vector ends in a fault at once if this is released. -/
theorem live_or_released {request : Request} (notQuestion : request.isQuestion = false)
    (solver : ScriptedSolver) :
    (∀ vector ∈ request.vector?.toList, solver.IsLive vector) ∨
      ∃ vector, answer request solver = .error (.vectorUsedAfterRelease vector) solver := by
  have checked {β : Type} (vector : VectorId) (step : Step β) :
      solver.IsLive vector ∨
        (do checkVector vector; step) solver = .error (.vectorUsedAfterRelease vector) solver := by
    by_cases live : solver.IsLive vector
    · exact Or.inl live
    · have released : (solver.vector? vector).isNone = true := by simpa [IsLive] using live
      refine Or.inr (Outcome.bind_of_error ?_)
      change (if (solver.vector? vector).isNone then
        (throw (.vectorUsedAfterRelease vector) : Step Unit) else pure ()) solver = _
      rw [if_pos released]
      rfl
  cases request
  case expandFunction model node vector cell =>
    exact (checked vector _).imp (by simp [Request.vector?]) fun faulted => ⟨vector, faulted⟩
  case definedTerms model vector =>
    exact (checked vector _).imp (by simp [Request.vector?]) fun faulted => ⟨vector, faulted⟩
  case implicant model formula vector =>
    exact (checked vector _).imp (by simp [Request.vector?]) fun faulted => ⟨vector, faulted⟩
  case implicants model formulas vector =>
    exact (checked vector _).imp (by simp [Request.vector?]) fun faulted => ⟨vector, faulted⟩
  case generalize model formula eliminated mode vector =>
    exact (checked vector _).imp (by simp [Request.vector?]) fun faulted => ⟨vector, faulted⟩
  case generalizeAll model formulas eliminated mode vector =>
    exact (checked vector _).imp (by simp [Request.vector?]) fun faulted => ⟨vector, faulted⟩
  case termVectorElements | nodeVectorElements => cases notQuestion
  all_goals exact Or.inl (by simp [Request.vector?])

/-- A named request, or a question: there are only changes within its scope, once its call was
counted. If it ends in the use of a freed model, this is the model that it is about. -/
theorem answer_changes {request : Request}
    (bodied : request.call?.isSome = true ∨ request.isQuestion = true) (solver : ScriptedSolver) :
    (∃ calls, Changes request.scope { solver with calls } (Outcome.state (answer request solver))) ∧
      ∀ model left, answer request solver = .error (.modelUsedAfterFree model) left →
        request.model? = some model ∧ left.model? model = none := by
  cases question : request.isQuestion with
  | true =>
      have gentle := answer_question question
      refine ⟨⟨solver.calls, gentle.changes solver⟩, fun model left ended => ?_⟩
      rcases gentle.faults _ _ _ ended with ⟨_, about, ⟨⟩, missing⟩
      exact ⟨about, missing⟩
  | false =>
      rcases live_or_released question solver with live | ⟨vector, faulted⟩
      · by_cases attempted : ∃ name, request.call? = some name ∧ request.isUnchecked = false ∧
            name ≠ .printError
        · rcases attempted with ⟨name, named, checked, counted⟩
          have attempts := answer_attempts named checked counted
          refine ⟨⟨_, attempts.changes live⟩, fun model left ended => ?_⟩
          rcases attempts.faults live ended with ⟨_, about, ⟨⟩, missing⟩
          exact ⟨about, missing⟩
        · cases request
          case printError descriptor =>
            have gentle := answer_printError descriptor
            refine ⟨⟨solver.calls, gentle.changes solver⟩, fun model left ended => ?_⟩
            rcases gentle.faults _ _ _ ended with ⟨_, ⟨⟩, _⟩
          case definedTerms model vector =>
            have live := live vector (by simp [Request.vector?])
            refine ⟨⟨_, definedTerms_changes live⟩, fun used left ended => ?_⟩
            rcases definedTerms_faults live ended with ⟨⟨⟩, missing⟩
            exact ⟨rfl, missing⟩
          case nodeIsInt64 | nodeIsRational64 | nodeBitSize | tupleArity | mappingArity |
              functionArity | termVectorElements | nodeVectorElements => cases question
          case startUp | shutDown | reset | isRunning | errorCode | errorReport | errorText |
              clearError | freeModel | newTermVector | releaseTermVector | newNodeVector |
              releaseNodeVector => simp [Request.call?, question] at bodied
          all_goals exact absurd ⟨_, rfl, rfl, by decide⟩ attempted
      · refine ⟨⟨solver.calls, ?_⟩, fun model left ended => ?_⟩
        · rw [faulted]
          exact .refl
        · cases faulted.symm.trans ended

/-- Only requests that make a term change the table of terms. -/
theorem answer_terms {request : Request} (makesNone : request.makesTerm = false)
    (solver : ScriptedSolver) :
    (Outcome.state (answer request solver)).terms = solver.terms := by
  by_cases bodied : request.call?.isSome = true ∨ request.isQuestion = true
  · rcases (answer_changes bodied solver).1 with ⟨calls, changes⟩
    exact changes.terms makesNone
  · cases request
    case freeModel model =>
      simp only [answer, freeModel, get_bind]
      cases solver.model? model <;> rfl
    case releaseTermVector vector | releaseNodeVector vector =>
      simp only [answer, releaseVector, get_bind]
      cases solver.vector? vector <;> rfl
    case startUp | shutDown | reset | isRunning | errorCode | errorReport | errorText |
        clearError | newTermVector | newNodeVector => rfl
    all_goals exact absurd (by simp [Request.call?, Request.isQuestion]) bodied

/-! ## Failed calls -/

/-- The solver without an error. -/
def withoutError (solver : ScriptedSolver) : ScriptedSolver :=
  { solver with error := .noError, errorTerm? := none }

theorem withoutError_eq {solver : ScriptedSolver} (noTerm : solver.errorTerm? = none) :
    solver.withoutError = solver.withErrorCode .noError := by
  simp [withoutError, withErrorCode, noTerm]

/-- A failed call ends in its failure with the current report, and without an error left. -/
theorem failCall_of_error {traced : Traced ScriptedSolver} (set : traced.state.error ≠ .noError)
    (name : Call) :
    (Action.failCall answer name traced : EStateM.Result _ _ α) =
      .error (.failure (.call name.name traced.state.report))
        ⟨traced.state.withoutError,
          .callFailed name.name traced.state.error traced.state.error.describe ::
            traced.events⟩ := by
  have reported : answer .errorReport traced.state = .ok traced.state.report traced.state := rfl
  have set : traced.state.report.code ≠ .noError := set
  unfold Action.failCall
  rw [Outcome.bind_of_ok (Action.ask_of_ok reported), if_neg set]
  rfl

theorem failCall_of_noError {traced : Traced ScriptedSolver}
    (clear : traced.state.error = .noError) (name : Call) :
    (Action.failCall answer name traced : EStateM.Result _ _ α) =
      .error (.failure (.internal (.unreported name.name)))
        ⟨traced.state, .callFailedUnreported name.name :: traced.events⟩ := by
  have reported : answer .errorReport traced.state = .ok traced.state.report traced.state := rfl
  have clear : traced.state.report.code = .noError := clear
  unfold Action.failCall
  rw [Outcome.bind_of_ok (Action.ask_of_ok reported), if_pos clear]
  rfl

theorem failCall_extends (name : Call) (traced : Traced ScriptedSolver) :
    Extends traced.state
      (Outcome.state (Action.failCall answer name traced : EStateM.Result _ _ α)).state := by
  by_cases clear : traced.state.error = .noError
  · rw [failCall_of_noError clear]
    exact .refl _
  · rw [failCall_of_error clear]
    exact .of_tables_eq rfl rfl rfl rfl rfl

theorem failCall_calls (name : Call) (traced : Traced ScriptedSolver) :
    (Outcome.state (Action.failCall answer name traced : EStateM.Result _ _ α)).state.calls =
      traced.state.calls := by
  by_cases clear : traced.state.error = .noError
  · rw [failCall_of_noError clear]
    rfl
  · rw [failCall_of_error clear]
    rfl

theorem failCall_terms (name : Call) (traced : Traced ScriptedSolver) :
    (Outcome.state (Action.failCall answer name traced : EStateM.Result _ _ α)).state.terms =
      traced.state.terms := by
  by_cases clear : traced.state.error = .noError
  · rw [failCall_of_noError clear]
    rfl
  · rw [failCall_of_error clear]
    rfl

theorem failCall_ne_ok {name : Call} {traced left : Traced ScriptedSolver} {result : α} :
    Action.failCall answer name traced ≠ .ok result left := by
  by_cases clear : traced.state.error = .noError
  · simp [failCall_of_noError clear]
  · simp [failCall_of_error clear]

/-- A term that was checked is the term that was handed out. -/
theorem of_checkTerm {name : Call} {handed term : TermId} {traced left : Traced ScriptedSolver}
    (checked : Action.checkTerm answer name handed traced = .ok term left) :
    handed.isNull = false ∧ term = handed ∧ left = traced := by
  unfold Action.checkTerm at checked
  cases isNull : handed.isNull with
  | true =>
      simp only [isNull, if_true] at checked
      exact absurd checked failCall_ne_ok
  | false =>
      simp only [isNull, Bool.false_eq_true, if_false] at checked
      cases checked
      exact ⟨rfl, rfl, rfl⟩

end ScriptedSolver

end SmtModel
