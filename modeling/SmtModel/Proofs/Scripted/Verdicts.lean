import SmtModel.Proofs.Scripted.Stability

/-!
# Verdicts on queries

What a query about terms is answered with is settled by the values of the terms in the model:
the answer is a result, or the complaint of the call about one of the terms. This
verdict is a function of the tables (`SmtModel.Query.verdict?`), and without scripted
failures every such query to a live model ends as its verdict has it, with the tables
as they were (`SmtModel.Model.ask_concludes`). Reading a value in full is not among
these queries, as it hands out nodes and makes constants, and neither is the making of a
constant term.
-/

namespace SmtModel

/-- An error about a term. -/
structure Complaint where
  code : ErrorCode
  term : TermId
  isError : code ≠ .noError

namespace Complaint

/-- How a complaint is reported. -/
def report (complaint : Complaint) : ErrorReport where
  code := complaint.code
  term1 := complaint.term
  message := complaint.code.describe

/-- The complaint about a term whose value is not what is asked for. -/
def ofMisfit (term : TermId) (misfit : Misfit) : Complaint where
  code := misfit.termError
  term := term
  isError := misfit.termError_ne_noError

/-- The failure of a call that complains. -/
def stop (complaint : Complaint) (name : Call) : Stop :=
  .failure (.call name.name complaint.report)

end Complaint

/-- The truth value that a value is. -/
def ScriptedValue.toBool : ScriptedValue → Except Misfit Bool
  | .bool truth => .ok truth
  | _ => .error .otherKind

namespace ScriptedSolver

/-! ## What the tables say -/

section Tables

variable (solver : ScriptedSolver) (model : ModelId)

/-- The value of a term, or what there is to complain of. -/
def lookup (term : TermId) : Except Complaint ScriptedValue :=
  match solver.term? term, solver.value? model term with
  | none, _ => .error ⟨.invalidTerm, term, by decide⟩
  | some _, none => .error ⟨.unknownTerm, term, by decide⟩
  | some _, some value => .ok value

/-- What is read off the value of a term. -/
def readingOf {α : Type} (term : TermId) (read : ScriptedValue → Except Misfit α) :
    Except Complaint α := do
  (read (← solver.lookup model term)).mapError (Complaint.ofMisfit term)

/-- Whether a formula is true. -/
def truthOf (formula : TermId) : Except Complaint Bool :=
  solver.readingOf model formula ScriptedValue.toBool

/-- Whether all formulas are true, if each has a truth value. -/
def allTrue : List TermId → Except Complaint Bool
  | [] => .ok true
  | formula :: formulas => do
    let first ← solver.truthOf model formula
    let others ← allTrue formulas
    return first && others

/-- All formulas have to be true. The first that is false is complained about. -/
def demandAll (code : ErrorCode) (isError : code ≠ .noError) :
    List TermId → Except Complaint Unit
  | [] => .ok ()
  | formula :: formulas => do
    let first ← solver.truthOf model formula
    if first then demandAll code isError formulas else .error ⟨code, formula, isError⟩

/-- What is to be eliminated have to be variables. -/
def demandVariables (eliminated : List TermId) : Except Complaint Unit :=
  match eliminated.find? (!solver.isVariable ·) with
  | some term => .error ⟨.generalizationFailed, term, by decide⟩
  | none => .ok ()

/-- Formulas have to be true to have implicants. -/
def demandImplied (formulas : List TermId) : Except Complaint Unit :=
  solver.demandAll model .noImplicant (by decide) formulas

/-- What is eliminated have to be variables, and then the formulas that are generalized have to be
true. -/
def demandGeneralized (formulas eliminated : List TermId) : Except Complaint Unit := do
  solver.demandVariables eliminated
  solver.demandAll model .generalizationFailed (by decide) formulas

end Tables

end ScriptedSolver

/-- The call that decides on a query. -/
def Query.call : Query → Call
  | .bool _ => .boolValue
  | .integer _ => .int64Value
  | .fraction _ => .rational64Value
  | .float _ => .doubleValue
  | .scalar _ => .scalarValue
  | .value _ => .value
  | .valueAsTerm _ => .valueAsTerm
  | .holds _ => .formulaHolds
  | .allHold _ => .formulasHold
  | .definedTerms => .definedTerms
  | .implicant _ => .implicant
  | .implicants _ => .implicants
  | .generalize .. => .generalize
  | .generalizeAll .. => .generalizeAll

/-- The answer to a query, or the complaint in place of one. There is no verdict on queries the
answers to which are more than a look at the tables. -/
def Query.verdict? (solver : ScriptedSolver) (model : ModelId) :
    (query : Query) → Option (Except Complaint query.Answer)
  | .bool term => some (solver.truthOf model term)
  | .integer term => some (solver.readingOf model term (·.toInt64))
  | .fraction term => some do
    let (numerator, denominator) ← solver.readingOf model term (·.toWords64)
    return .ofWords numerator denominator
  | .float term => some (solver.readingOf model term (·.toFloat))
  | .scalar term => some (solver.readingOf model term fun value => value.toScalar.map (·.1))
  | .value _ | .valueAsTerm _ => none
  | .holds formula => some (solver.truthOf model formula)
  | .allHold formulas => some (solver.allTrue model formulas)
  | .definedTerms => (solver.model? model).map fun live => .ok (live.assignment.map (·.1))
  | .implicant formula => some do
    solver.demandImplied model [formula]
    return [formula]
  | .implicants formulas => some do
    solver.demandImplied model formulas
    return formulas
  | .generalize formula eliminated _ => some do
    solver.demandGeneralized model [formula] eliminated
    return [formula]
  | .generalizeAll formulas eliminated _ => some do
    solver.demandGeneralized model formulas eliminated
    return formulas

/-- Reading a value and making a constant apart, there is a verdict on every query to a live model. -/
theorem Query.exists_verdict {solver : ScriptedSolver} {model : ModelId} {live : ScriptedModel}
    (found : solver.model? model = some live) (query : Query) :
    (∃ term, query = .value term) ∨ (∃ term, query = .valueAsTerm term) ∨
      ∃ verdict, query.verdict? solver model = some verdict := by
  cases query with
  | value term => exact Or.inl ⟨term, rfl⟩
  | valueAsTerm term => exact Or.inr (Or.inl ⟨term, rfl⟩)
  | definedTerms => exact Or.inr (Or.inr ⟨_, congrArg (Option.map _) found⟩)
  | _ => exact Or.inr (Or.inr ⟨_, rfl⟩)

/-- The terms that a query is about. -/
def Query.terms : Query → List TermId
  | .bool term | .integer term | .fraction term | .float term | .scalar term => [term]
  | .value term | .valueAsTerm term | .holds term | .implicant term => [term]
  | .definedTerms => []
  | .allHold formulas | .implicants formulas => formulas
  | .generalize formula eliminated _ => formula :: eliminated
  | .generalizeAll formulas eliminated _ => formulas ++ eliminated

namespace ScriptedSolver

/-! ## Verdicts on the same terms -/

section Congruence

/-- A term looks the same in two models of two states. -/
structure LooksSame (solver : ScriptedSolver) (model : ModelId) (solver' : ScriptedSolver)
    (model' : ModelId) (term : TermId) : Prop where
  lookup : solver.lookup model term = solver'.lookup model' term
  isVariable : solver.isVariable term = solver'.isVariable term

variable {α : Type} {solver solver' : ScriptedSolver} {model model' : ModelId}

theorem LooksSame.trans {solver'' : ScriptedSolver} {model'' : ModelId} {term : TermId}
    (first : LooksSame solver model solver' model' term)
    (second : LooksSame solver' model' solver'' model'' term) :
    LooksSame solver model solver'' model'' term where
  lookup := first.lookup.trans second.lookup
  isVariable := first.isVariable.trans second.isVariable

theorem SameTables.looksSame (same : SameTables solver solver') (term : TermId) :
    LooksSame solver model solver' model term := by
  constructor
  · simp only [lookup, value?, term?, model?, same.terms, same.models]
  · simp only [isVariable, term?, same.terms]

/-- A term that exists looks the same in two models with the same assignment, and goes on to do
so. -/
theorem Extends.looksSame {live live' : ScriptedModel} (grown : Extends solver solver')
    (found : solver.model? model = some live) (foundLater : solver'.model? model' = some live')
    (same : live'.assignment = live.assignment) {term : TermId}
    (known : (solver.term? term).isSome = true) : LooksSame solver model solver' model' term := by
  rcases Option.isSome_iff_exists.mp known with ⟨entry, known⟩
  have knownLater := term?_of_prefix grown.terms known
  constructor
  · simp only [lookup, value?, known, knownLater, found, foundLater, Option.bind_eq_bind,
      Option.bind_some, same]
  · simp only [isVariable, known, knownLater]

theorem LooksSame.readingOf {term : TermId} (same : LooksSame solver model solver' model' term)
    (read : ScriptedValue → Except Misfit α) :
    solver.readingOf model term read = solver'.readingOf model' term read := by
  unfold ScriptedSolver.readingOf
  rw [same.lookup]

theorem LooksSame.truthOf {term : TermId} (same : LooksSame solver model solver' model' term) :
    solver.truthOf model term = solver'.truthOf model' term :=
  same.readingOf _

variable {formulas eliminated : List TermId}

theorem allTrue_congr
    (same : ∀ formula ∈ formulas, LooksSame solver model solver' model' formula) :
    solver.allTrue model formulas = solver'.allTrue model' formulas := by
  induction formulas with
  | nil => rfl
  | cons formula formulas ih =>
      rcases List.forall_mem_cons.mp same with ⟨first, others⟩
      simp only [allTrue, first.truthOf, ih others]

theorem demandAll_congr {code : ErrorCode} (isError : code ≠ .noError)
    (same : ∀ formula ∈ formulas, LooksSame solver model solver' model' formula) :
    solver.demandAll model code isError formulas =
      solver'.demandAll model' code isError formulas := by
  induction formulas with
  | nil => rfl
  | cons formula formulas ih =>
      rcases List.forall_mem_cons.mp same with ⟨first, others⟩
      simp only [demandAll, first.truthOf, ih others]

theorem demandVariables_congr
    (same : ∀ term ∈ eliminated, solver.isVariable term = solver'.isVariable term) :
    solver.demandVariables eliminated = solver'.demandVariables eliminated := by
  have searches : eliminated.find? (!solver.isVariable ·) =
      eliminated.find? (!solver'.isVariable ·) := by
    induction eliminated with
    | nil => rfl
    | cons term eliminated ih =>
        rcases List.forall_mem_cons.mp same with ⟨first, others⟩
        simp only [List.find?_cons, first, ih others]
  simp only [demandVariables, searches]

theorem demandGeneralized_congr
    (same : ∀ formula ∈ formulas, LooksSame solver model solver' model' formula)
    (sameEliminated : ∀ term ∈ eliminated, LooksSame solver model solver' model' term) :
    solver.demandGeneralized model formulas eliminated =
      solver'.demandGeneralized model' formulas eliminated := by
  unfold demandGeneralized
  rw [demandAll_congr _ same,
    demandVariables_congr fun term isEliminated => (sameEliminated term isEliminated).isVariable]

/-- The verdict on a query is settled by what its terms look like, and by which terms are defined if
it asks for these. -/
theorem verdict?_congr {query : Query}
    (same : ∀ term ∈ query.terms, LooksSame solver model solver' model' term)
    (defined : query = .definedTerms →
      (solver.model? model).map (·.assignment.map (·.1)) =
        (solver'.model? model').map (·.assignment.map (·.1))) :
    query.verdict? solver model = query.verdict? solver' model' := by
  cases query with
  | value | valueAsTerm => rfl
  | definedTerms =>
      have defined := congrArg (Option.map (Except.ok (ε := Complaint))) (defined rfl)
      simp only [Option.map_map] at defined
      exact defined
  | bool term | holds term =>
      simp only [Query.verdict?, (same term List.mem_cons_self).truthOf]
  | integer term | fraction term | float term | scalar term =>
      simp only [Query.verdict?, (same term List.mem_cons_self).readingOf]
  | allHold formulas => exact congrArg some (allTrue_congr same)
  | implicant formula =>
      have same : ∀ term ∈ [formula], LooksSame solver model solver' model' term := same
      simp only [Query.verdict?, demandImplied, demandAll_congr _ same]
  | implicants formulas =>
      have same : ∀ term ∈ formulas, LooksSame solver model solver' model' term := same
      simp only [Query.verdict?, demandImplied, demandAll_congr _ same]
  | generalize formula eliminated mode =>
      rcases List.forall_mem_cons.mp same with ⟨first, others⟩
      have sameFormulas : ∀ term ∈ [formula], LooksSame solver model solver' model' term :=
        List.forall_mem_singleton.mpr first
      simp only [Query.verdict?, demandGeneralized_congr sameFormulas others]
  | generalizeAll formulas eliminated mode =>
      rcases List.forall_mem_append.mp same with ⟨sameFormulas, others⟩
      simp only [Query.verdict?, demandGeneralized_congr sameFormulas others]

end Congruence

variable {α β γ δ : Type} {solver : ScriptedSolver} {model : ModelId}

/-! ## Steps that end as a verdict has it -/

/-- The solver after a complaint. -/
def withComplaint (solver : ScriptedSolver) (complaint : Complaint) : ScriptedSolver :=
  { solver with error := complaint.code, errorTerm? := some complaint.term }

/-- The ending of a step that reads the tables: with the answer of an accepted result, or with the
sign of failure after a complaint. -/
def judge (accept : β → α) (refused : α) (solver : ScriptedSolver) :
    Except Complaint β → EStateM.Result Fault ScriptedSolver α
  | .ok result => .ok (accept result) solver
  | .error complaint => .ok refused (solver.withComplaint complaint)

/-- A truth value as the status of a call. -/
def truthStatus (truth : Bool) : Int32 := if truth then 1 else 0

theorem judge_bind {accepts : γ → β} {refused : β} {accept : δ → α} {failed : α} {first : Step β}
    {next : β → Step α} {verdict : Except Complaint γ} {nextVerdict : γ → Except Complaint δ}
    (ran : first solver = judge accepts refused solver verdict)
    (stops : next refused = pure failed)
    (goes : ∀ result, next (accepts result) solver =
      judge accept failed solver (nextVerdict result)) :
    (first >>= next) solver = judge accept failed solver (verdict >>= nextVerdict) := by
  cases verdict with
  | ok result =>
      rw [Outcome.bind_of_ok ran]
      exact goes result
  | error complaint =>
      rw [Outcome.bind_of_ok ran, stops]
      rfl

/-- Truth values are also read as numbers. -/
theorem truthOf_eq (formula : TermId) :
    solver.truthOf model formula = do
      return decide ((← solver.readingOf model formula (·.toTruth)) ≠ 0) := by
  unfold truthOf readingOf
  cases solver.lookup model formula with
  | error complaint => rfl
  | ok value =>
      cases value with
      | bool truth => cases truth <;> rfl
      | _ => rfl

section Live

variable {live : ScriptedModel} (found : solver.model? model = some live)

include found

theorem valueOf_run (term : TermId) :
    valueOf model term solver = judge some none solver (solver.lookup model term) := by
  unfold valueOf lookup value?
  rw [get_bind]
  cases solver.term? term with
  | none => rfl
  | some entry =>
      dsimp only
      rw [Outcome.bind_of_ok (liveModel_of_some found), found]
      simp only [Option.bind_eq_bind, Option.bind_some]
      cases live.assignment.find? (·.1 = term) with
      | some pair => rfl
      | none => cases entry.constant? <;> rfl

theorem readingOf_run {accept : β → α} {failed : α} (term : TermId)
    (read : ScriptedValue → Except Misfit β) {next : Option ScriptedValue → Step α}
    (missing : next none = pure failed)
    (goes : ∀ value, next (some value) =
      match read value with
      | .ok result => pure (accept result)
      | .error misfit => do
        complainOf misfit.termError term
        return failed) :
    (valueOf model term >>= next) solver =
      judge accept failed solver (solver.readingOf model term read) := by
  refine judge_bind (valueOf_run found term) missing fun value => ?_
  rw [goes]
  cases read value <;> rfl

theorem truth_run (formula : TermId) :
    truth model formula solver =
      judge truthStatus statusFailed solver (solver.truthOf model formula) := by
  refine readingOf_run found formula ScriptedValue.toBool rfl fun value => ?_
  cases value <;> rfl

theorem readTerm_run {name : Call} (free : name ∉ solver.failing) (term : TermId) (cell : β)
    (read : ScriptedValue → Except Misfit β) :
    readTerm name model term cell read solver =
      judge Reply.ok (.failed cell) (withCall name solver)
        (solver.readingOf model term read) := by
  have found : (withCall name solver).model? model = some live := found
  unfold readTerm
  rw [attempt_of_not_mem free]
  exact readingOf_run found term read rfl fun value => rfl

theorem conjunction_run (formulas : List TermId) :
    conjunction model formulas solver =
      judge truthStatus statusFailed solver (solver.allTrue model formulas) := by
  induction formulas with
  | nil => rfl
  | cons formula formulas ih =>
      refine judge_bind (truth_run found formula) rfl fun first => ?_
      have accepted (truth : Bool) : truthStatus truth ≠ statusFailed := by cases truth <;> decide
      rw [if_neg (accepted first)]
      refine judge_bind ih rfl fun others => ?_
      rw [if_neg (accepted others)]
      cases first <;> rfl

theorem requireAll_run (code : ErrorCode) (isError : code ≠ .noError) (formulas : List TermId) :
    requireAll model code formulas solver =
      judge (fun _ => statusOk) statusFailed solver
        (solver.demandAll model code isError formulas) := by
  induction formulas with
  | nil => rfl
  | cons formula formulas ih =>
      refine judge_bind (truth_run found formula) rfl fun first => ?_
      cases first with
      | false => rfl
      | true => exact ih

theorem checkGeneralized_run (formulas eliminated : List TermId) :
    checkGeneralized model formulas eliminated solver =
      judge (fun _ => statusOk) statusFailed solver
        (solver.demandGeneralized model formulas eliminated) := by
  unfold checkGeneralized demandGeneralized demandVariables
  rw [get_bind]
  cases eliminated.find? (!solver.isVariable ·) with
  | some term => rfl
  | none => exact requireAll_run found _ _ formulas

end Live

end ScriptedSolver

open ScriptedSolver

/-! ## Queries that end as their verdict has it -/

/-- An ending as a verdict has it: with the result, or in the failure of the call with the
complaint. The tables are left as they were. -/
inductive Concludes {α : Type} (name : Call) (start : ScriptedSolver) :
    Except Complaint α → EStateM.Result Stop (Traced ScriptedSolver) α → Prop where
  | ok {result : α} {left : Traced ScriptedSolver} (same : SameTables start left.state) :
      Concludes name start (.ok result) (.ok result left)
  | error {complaint : Complaint} {left : Traced ScriptedSolver}
      (same : SameTables start left.state) :
      Concludes name start (.error complaint) (.error (complaint.stop name) left)

namespace Concludes

variable {α β γ : Type} {name : Call} {start : Traced ScriptedSolver}

section Ending

variable {verdict : Except Complaint α} {ending : EStateM.Result Stop (Traced ScriptedSolver) α}
  (concludes : Concludes name start.state verdict ending)

include concludes

theorem sameTables : SameTables start.state (Outcome.state ending).state := by
  cases concludes with
  | ok same => exact same
  | error same => exact same

theorem result_eq : Outcome.result ending = verdict.mapError (·.stop name) := by
  cases concludes <;> rfl

end Ending

/-- A failed call reports what was complained of. -/
theorem failCall {verdict : Except Complaint α} {complaint : Complaint} {solver : ScriptedSolver}
    {events : List Event} (refuses : verdict = .error complaint)
    (same : SameTables start.state solver) :
    Concludes name start.state verdict
      (Action.failCall answer name ⟨solver.withComplaint complaint, events⟩) := by
  rw [refuses, failCall_of_error complaint.isError]
  exact .error ⟨same.types, same.terms, same.contexts, same.models, same.failing⟩

/-- A checked call, the answer of which is that of a verdict. -/
theorem call (request : Request) {check : request.Answer → Routine α}
    (checks : Checks name request.isRefusal check) {accept : α → request.Answer}
    {refused : request.Answer} {solver : ScriptedSolver} {verdict : Except Complaint α}
    (answered : answer request start.state = judge accept refused solver verdict)
    (same : SameTables start.state solver) (isRefused : request.isRefusal refused = true)
    (accepts : ∀ result, check (accept result) _ answer = pure result) :
    Concludes name start.state verdict
      ((Action.ask answer request >>= fun reply => check reply _ answer) start) := by
  cases decided : verdict with
  | ok result =>
      rw [decided] at answered
      rw [Outcome.bind_of_ok (Action.ask_of_ok answered), accepts]
      exact .ok same
  | error complaint =>
      rw [decided] at answered
      rw [Outcome.bind_of_ok (Action.ask_of_ok answered), checks.refused refused isRefused]
      exact .failCall rfl same

/-- What is made of the result. -/
theorem map {verdict : Except Complaint α} {action : Action ScriptedSolver α} (finish : α → β)
    (concludes : Concludes name start.state verdict (action start)) :
    Concludes name start.state (do return finish (← verdict))
      ((do return finish (← action)) start) := by
  generalize ran : action start = ending at concludes
  cases concludes with
  | ok same =>
      rw [Outcome.bind_of_ok ran]
      exact .ok same
  | error same =>
      rw [Outcome.bind_of_error ran]
      exact .error same

end Concludes

namespace Model

open SmtModel.Action

variable {start : Traced ScriptedSolver}

theorem checkTruth_truthStatus {name : Call} (truth : Bool) :
    (checkTruth answer name (truthStatus truth) : Action ScriptedSolver Bool) = pure truth := by
  cases truth <;> rfl

theorem fillChecked_of_refused {check : Step Int32} {terms : List TermId} {vector : VectorId}
    {solver left : ScriptedSolver} (refused : check solver = .ok statusFailed left) :
    fillChecked check terms vector solver = .ok statusFailed left := by
  unfold fillChecked
  rw [Outcome.bind_of_ok refused]
  rfl

/-- Where a vector cannot be filled, this is reported, and the vector is released. -/
theorem collectTerms_of_refused {name : Call} {fill : VectorId → Action ScriptedSolver Int32}
    {called : ScriptedSolver} {complaint : Complaint}
    (ran : fill start.state.nextVector (opening start) =
      .ok statusFailed ⟨called.withComplaint complaint, start.events⟩)
    (live : called.IsLive start.state.nextVector) (same : SameTables start.state called) :
    Concludes name start.state (.error complaint : Except Complaint (List TermId))
      (collectTerms answer name fill start) := by
  let body (vector : VectorId) : Action ScriptedSolver (List TermId) := do
    checkStatus answer name (← fill vector)
    Action.ask answer (.termVectorElements vector)
  let left : Traced ScriptedSolver :=
    ⟨(called.withComplaint complaint).withoutError,
      .callFailed name.name complaint.code complaint.code.describe :: start.events⟩
  have failed : body start.state.nextVector (opening start) =
      .error (.failure (.call name.name complaint.report)) left := by
    simp only [body]
    rw [Outcome.bind_of_ok ran, checkStatus, if_pos rfl, Checks.failCall_bind,
      failCall_of_error complaint.isError]
    rfl
  have stillLive : left.state.IsLive start.state.nextVector := live
  have runs := withTermVector_run body start (by rw [failed]; exact stillLive)
  rw [failed] at runs
  unfold collectTerms
  rw [runs]
  exact .error ⟨same.types, same.terms, same.contexts, same.models, same.failing⟩

/-- Terms are collected if a check accepts them, and otherwise its complaint is reported. -/
theorem collectTerms_concludes {name : Call} {check : Step Int32} {terms : List TermId}
    {fill : VectorId → Action ScriptedSolver Int32} (fills : Fills name check terms fill)
    (free : name ∉ start.state.failing) {verdict : Except Complaint Unit}
    (checked : check (withCall name (opening start).state) =
      judge (fun _ => statusOk) statusFailed (withCall name (opening start).state) verdict) :
    Concludes name start.state (do verdict; return terms)
      (collectTerms answer name fill start) := by
  have free : name ∉ (opening start).state.failing := free
  have accepted : statusOk ≠ statusFailed := by decide
  have live : (withCall name (opening start).state).IsLive start.state.nextVector :=
    isLive_opening start
  have same : SameTables start.state (withCall name (opening start).state) :=
    (sameTables_withNextVector start.state _ _).trans (sameTables_withCall _ _)
  have ran := fills (opening start) _ (isLive_opening start)
  rw [attempt_of_not_mem free] at ran
  generalize withCall name (opening start).state = called at checked live same ran
  cases decided : verdict with
  | ok =>
      rw [decided] at checked
      have checked : check called = .ok statusOk called := checked
      rw [fillChecked_of_check checked accepted] at ran
      have filled := (vector?_withVector live (some (.terms terms)) _).trans (if_pos rfl)
      rw [collectTerms_of_filled ran accepted filled]
      exact .ok ⟨same.types, same.terms, same.contexts, same.models, same.failing⟩
  | error complaint =>
      rw [decided] at checked
      have checked : check called = .ok statusFailed (called.withComplaint complaint) := checked
      rw [fillChecked_of_refused checked] at ran
      exact collectTerms_of_refused ran live same

section Verdicts

variable {model : Model} (calm : start.state.failing = [])
  {live : ScriptedModel} (found : start.state.model? model.id = some live)

include calm found

theorem bool_concludes (term : TermId) :
    Concludes .boolValue start.state (start.state.truthOf model.id term)
      (model.ask answer (.bool term) start) := by
  have free : .boolValue ∉ start.state.failing := by simp [calm]
  have read : Concludes .boolValue start.state
      (start.state.readingOf model.id term (·.toTruth))
      ((Action.ask answer (.boolValue model.id term 0) >>= checkReply answer .boolValue) start) :=
    .call (.boolValue model.id term 0) (.reply _) (readTerm_run found free term 0 _)
      (sameTables_withCall ..) rfl fun _ => rfl
  rw [truthOf_eq]
  simp only [ask, ← bind_assoc]
  exact read.map _

theorem fraction_concludes (term : TermId) :
    Concludes .rational64Value start.state
      (do
        let words ← start.state.readingOf model.id term (·.toWords64)
        return Fraction.ofWords words.1 words.2)
      (model.ask answer (.fraction term) start) := by
  have free : .rational64Value ∉ start.state.failing := by simp [calm]
  have read : Concludes .rational64Value start.state
      (start.state.readingOf model.id term (·.toWords64))
      ((Action.ask answer (.rational64Value model.id term (0, 0)) >>=
        checkReply answer .rational64Value) start) :=
    .call (.rational64Value model.id term (0, 0)) (.reply _) (readTerm_run found free term (0, 0) _)
      (sameTables_withCall ..) rfl fun _ => rfl
  simp only [ask, ← bind_assoc]
  exact read.map _

section Collected

variable {name : Call} {formulas : List TermId} {fill : VectorId → Action ScriptedSolver Int32}

theorem implicants_concludes
    (fills : Fills name (requireAll model.id .noImplicant formulas) formulas fill) :
    Concludes name start.state (do start.state.demandImplied model.id formulas; return formulas)
      (collectTerms answer name fill start) := by
  have opened : (withCall name (opening start).state).model? model.id = some live := found
  have same : SameTables start.state (withCall name (opening start).state) :=
    (sameTables_withNextVector start.state _ _).trans (sameTables_withCall _ _)
  refine collectTerms_concludes fills (by simp [calm]) ?_
  rw [demandImplied, demandAll_congr _ fun formula _ => same.looksSame formula]
  exact requireAll_run opened _ _ formulas

theorem generalize_concludes {eliminated : List TermId}
    (fills : Fills name (checkGeneralized model.id formulas eliminated) formulas fill) :
    Concludes name start.state
      (do start.state.demandGeneralized model.id formulas eliminated; return formulas)
      (collectTerms answer name fill start) := by
  have opened : (withCall name (opening start).state).model? model.id = some live := found
  have same : SameTables start.state (withCall name (opening start).state) :=
    (sameTables_withNextVector start.state _ _).trans (sameTables_withCall _ _)
  refine collectTerms_concludes fills (by simp [calm]) ?_
  rw [demandGeneralized_congr (fun formula _ => same.looksSame formula) fun term _ =>
    same.looksSame term]
  exact checkGeneralized_run opened formulas eliminated

end Collected

/-- Without scripted failures, a query to a live model ends as its verdict has it. -/
theorem ask_concludes {query : Query} {verdict : Except Complaint query.Answer}
    (decided : query.verdict? start.state model.id = some verdict) :
    Concludes query.call start.state verdict (model.ask answer query start) := by
  have free (name : Call) : name ∉ start.state.failing := by simp [calm]
  have called (name : Call) : (withCall name start.state).model? model.id = some live := found
  cases query with
  | value | valueAsTerm => cases decided
  | definedTerms =>
      simp only [Query.verdict?, found, Option.map_some, Option.some.injEq] at decided
      subst decided
      rcases ask_definedTerms_of_some found (free _) with ⟨left, collected, same⟩
      rw [collected]
      exact .ok same
  | bool term =>
      cases decided
      exact bool_concludes calm found term
  | fraction term =>
      cases decided
      exact fraction_concludes calm found term
  | integer term =>
      cases decided
      exact .call (.int64Value model.id term 0) (.reply _) (readTerm_run found (free _) term 0 _)
        (sameTables_withCall ..) rfl fun _ => rfl
  | float term =>
      cases decided
      exact .call (.doubleValue model.id term 0) (.reply _) (readTerm_run found (free _) term 0 _)
        (sameTables_withCall ..) rfl fun _ => rfl
  | scalar term =>
      cases decided
      exact .call (.scalarValue model.id term 0) (.reply _) (readTerm_run found (free _) term 0 _)
        (sameTables_withCall ..) rfl fun _ => rfl
  | holds formula =>
      cases decided
      have answered : answer (.formulaHolds model.id formula) start.state =
          judge truthStatus statusFailed _ _ :=
        (attempt_of_not_mem (free _) ..).trans (truth_run (called _) formula)
      exact .call _ (.truth _) answered (sameTables_withCall ..) rfl checkTruth_truthStatus
  | allHold formulas =>
      cases decided
      have answered : answer (.formulasHold model.id formulas) start.state =
          judge truthStatus statusFailed _ _ :=
        (attempt_of_not_mem (free _) ..).trans (conjunction_run (called _) formulas)
      have same formula : LooksSame start.state model.id _ model.id formula :=
        (sameTables_withCall .formulasHold start.state).looksSame formula
      rw [← allTrue_congr fun formula _ => same formula] at answered
      exact .call _ (.truth _) answered (sameTables_withCall ..) rfl checkTruth_truthStatus
  | implicant formula =>
      cases decided
      exact implicants_concludes calm found (fills_implicant model.id formula)
  | implicants formulas =>
      cases decided
      exact implicants_concludes calm found (fills_implicants model.id formulas)
  | generalize formula eliminated mode =>
      cases decided
      exact generalize_concludes calm found (fills_generalize model.id formula eliminated mode)
  | generalizeAll formulas eliminated mode =>
      cases decided
      exact generalize_concludes calm found (fills_generalizeAll model.id formulas eliminated mode)

end Verdicts

end Model

end SmtModel
