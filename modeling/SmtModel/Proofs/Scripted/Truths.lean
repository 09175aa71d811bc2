import SmtModel.Proofs.Scripted.Getters

/-!
# Formulas together and one by one

Several formulas can be asked about together, in three ways: whether they all hold, what
implies them, and what they generalize to. The three go through the same list and stop at
different places. The conjunction goes on after a formula that is false, so that one
without a truth value makes it fail wherever it stands. The implicant and the
generalization stop at the first formula that is not true, and the generalization looks
at what is to be eliminated before any formula.

What each of them answers with is settled by the answers about the formulas one by one
(`SmtModel.Model.formulas_agree`), whenever these are asked for.
-/

namespace SmtModel

open ScriptedSolver

/-! ## The item that decides -/

/-- There are items that pass, and then one that decides. -/
def Decides {α : Type} (passes decides : α → Prop) (items : List α) : Prop :=
  ∃ before item rest, items = before ++ item :: rest ∧ (∀ earlier ∈ before, passes earlier) ∧
    decides item

namespace Decides

variable {α : Type} {passes decides : α → Prop} {item : α} {items : List α}

@[simp]
theorem nil_iff : ¬ Decides passes decides [] := by
  rintro ⟨before, item, rest, same, -⟩
  simp at same

/-- Either the first item decides, or it passes and one of the others does. -/
theorem cons_iff :
    Decides passes decides (item :: items) ↔
      decides item ∨ passes item ∧ Decides passes decides items := by
  constructor
  · rintro ⟨before, decisive, rest, same, passed, isDecisive⟩
    cases before with
    | nil =>
        cases same
        exact Or.inl isDecisive
    | cons first before =>
        cases same
        rcases List.forall_mem_cons.mp passed with ⟨firstPasses, passed⟩
        exact Or.inr ⟨firstPasses, before, decisive, rest, rfl, passed, isDecisive⟩
  · rintro (isDecisive | ⟨firstPasses, before, decisive, rest, rfl, passed, isDecisive⟩)
    · exact ⟨[], item, items, rfl, nofun, isDecisive⟩
    · refine ⟨item :: before, decisive, rest, rfl, ?_, isDecisive⟩
      exact List.forall_mem_cons.mpr ⟨firstPasses, passed⟩

/-- What passes and what decides may be put in other words. -/
theorem congr {passes' decides' : α → Prop} (samePasses : ∀ item, passes item ↔ passes' item)
    (sameDecides : ∀ item, decides item ↔ decides' item) :
    Decides passes decides items ↔ Decides passes' decides' items := by
  simp only [Decides, samePasses, sameDecides]

end Decides

/-! ## What the tables say of several formulas -/

namespace ScriptedSolver

variable {solver : ScriptedSolver} {model : ModelId} {complaint : Complaint}

/-- What a formula is complained of for is said of the formula. -/
theorem term_of_truthOf {formula : TermId}
    (refused : solver.truthOf model formula = .error complaint) : complaint.term = formula := by
  unfold truthOf readingOf at refused
  cases looked : solver.lookup model formula with
  | error complaint' =>
      rw [looked] at refused
      cases refused
      exact term_of_lookup looked
  | ok value =>
      rw [looked] at refused
      cases value <;> cases refused <;> rfl

theorem allTrue_singleton (solver : ScriptedSolver) (model : ModelId) (formula : TermId) :
    solver.allTrue model [formula] = solver.truthOf model formula := by
  unfold allTrue
  cases solver.truthOf model formula with
  | error complaint => rfl
  | ok value => exact congrArg Except.ok (Bool.and_true value)

section Conjunction

variable {formulas : List TermId}

/-- A conjunction with a truth value is one of formulas with truth values. -/
theorem truths_of_allTrue {truth : Bool} (settled : solver.allTrue model formulas = .ok truth) :
    (∀ formula ∈ formulas, ∃ value, solver.truthOf model formula = .ok value) ∧
      (truth = true ↔ ∀ formula ∈ formulas, solver.truthOf model formula = .ok true) := by
  induction formulas generalizing truth with
  | nil =>
      cases settled
      simp
  | cons formula formulas ih =>
      unfold allTrue at settled
      simp only [List.forall_mem_cons]
      cases first : solver.truthOf model formula with
      | error complaint =>
          rw [first] at settled
          cases settled
      | ok value =>
          cases others : solver.allTrue model formulas with
          | error complaint =>
              rw [first, others] at settled
              cases settled
          | ok rest =>
              rw [first, others] at settled
              cases settled
              rcases ih others with ⟨haveTruth, isTrue⟩
              refine ⟨⟨⟨value, rfl⟩, haveTruth⟩, ?_⟩
              rw [Bool.and_eq_true, isTrue, Except.ok.injEq]

theorem exists_allTrue
    (haveTruth : ∀ formula ∈ formulas, ∃ value, solver.truthOf model formula = .ok value) :
    ∃ truth, solver.allTrue model formulas = .ok truth := by
  induction formulas with
  | nil => exact ⟨true, rfl⟩
  | cons formula formulas ih =>
      rcases List.forall_mem_cons.mp haveTruth with ⟨⟨value, first⟩, others⟩
      rcases ih others with ⟨rest, settled⟩
      refine ⟨value && rest, ?_⟩
      unfold allTrue
      rw [first, settled]
      rfl

/-- A conjunction has a truth value if all formulas have one, and is true if all are. -/
theorem allTrue_eq_ok_iff {truth : Bool} :
    solver.allTrue model formulas = .ok truth ↔
      (∀ formula ∈ formulas, ∃ value, solver.truthOf model formula = .ok value) ∧
        (truth = true ↔ ∀ formula ∈ formulas, solver.truthOf model formula = .ok true) := by
  constructor
  · exact truths_of_allTrue
  · rintro ⟨haveTruth, isTrue⟩
    rcases exists_allTrue haveTruth with ⟨truth', settled⟩
    have isTrue' := (truths_of_allTrue settled).2
    have same : truth' = truth := Bool.eq_iff_iff.mpr (isTrue'.trans isTrue.symm)
    rw [← same]
    exact settled

theorem allTrue_eq_true_iff :
    solver.allTrue model formulas = .ok true ↔
      ∀ formula ∈ formulas, solver.truthOf model formula = .ok true := by
  rw [allTrue_eq_ok_iff]
  constructor
  · rintro ⟨-, allTrue⟩
    exact allTrue.mp rfl
  · intro allTrue
    exact ⟨fun formula isFormula => ⟨true, allTrue formula isFormula⟩, by simpa using allTrue⟩

/-- A conjunction is complained of for the first formula without a truth value. -/
theorem allTrue_eq_error_iff :
    solver.allTrue model formulas = .error complaint ↔
      Decides (fun formula => ∃ value, solver.truthOf model formula = .ok value)
        (fun formula => solver.truthOf model formula = .error complaint) formulas := by
  induction formulas with
  | nil => simp [allTrue]
  | cons formula formulas ih =>
      rw [Decides.cons_iff, ← ih, allTrue]
      cases solver.truthOf model formula with
      | error complaint' => simp [bind, Except.bind]
      | ok value =>
          cases solver.allTrue model formulas with
          | error complaint' => simp [bind, Except.bind]
          | ok rest => simp [bind, Except.bind, pure, Except.pure]

end Conjunction

section Demands

variable {code : ErrorCode} {isError : code ≠ .noError} {formulas : List TermId}

/-- What is demanded of all formulas is that all are true. -/
theorem demandAll_eq_ok_iff :
    solver.demandAll model code isError formulas = .ok () ↔
      ∀ formula ∈ formulas, solver.truthOf model formula = .ok true := by
  induction formulas with
  | nil => simp [demandAll]
  | cons formula formulas ih =>
      rw [List.forall_mem_cons, ← ih, demandAll]
      cases solver.truthOf model formula with
      | error complaint => simp [bind, Except.bind]
      | ok value => cases value <;> simp [bind, Except.bind]

/-- The first formula that is not true is complained of, for want of a truth value or for being
false. -/
theorem demandAll_eq_error_iff :
    solver.demandAll model code isError formulas = .error complaint ↔
      Decides (fun formula => solver.truthOf model formula = .ok true)
        (fun formula => solver.truthOf model formula = .error complaint ∨
          solver.truthOf model formula = .ok false ∧ complaint = ⟨code, formula, isError⟩)
        formulas := by
  induction formulas with
  | nil => simp [demandAll]
  | cons formula formulas ih =>
      rw [Decides.cons_iff, ← ih, demandAll]
      cases solver.truthOf model formula with
      | error complaint' => simp [bind, Except.bind]
      | ok value => cases value <;> simp [bind, Except.bind, eq_comm]

end Demands

section Generalized

variable {formulas eliminated : List TermId}

theorem demandVariables_eq_ok_iff :
    solver.demandVariables eliminated = .ok () ↔
      ∀ term ∈ eliminated, solver.isVariable term = true := by
  unfold demandVariables
  cases searched : eliminated.find? (!solver.isVariable ·) with
  | none => simpa using searched
  | some term =>
      have isEliminated := List.mem_of_find?_eq_some searched
      have noVariable := List.find?_some searched
      simp only [Bool.not_eq_true'] at noVariable
      refine iff_of_false nofun fun areVariables => ?_
      rw [areVariables term isEliminated] at noVariable
      cases noVariable

/-- The complaint is of the first term to be eliminated that is no declared variable. -/
def FirstNoVariable (solver : ScriptedSolver) (eliminated : List TermId) (complaint : Complaint) :
    Prop :=
  Decides (fun term => solver.isVariable term = true)
    (fun term => solver.isVariable term = false ∧
      complaint.code = .generalizationFailed ∧ complaint.term = term) eliminated

theorem demandVariables_eq_error_iff :
    solver.demandVariables eliminated = .error complaint ↔
      solver.FirstNoVariable eliminated complaint := by
  rcases complaint with ⟨code, term', isError⟩
  induction eliminated with
  | nil => simp [demandVariables, FirstNoVariable]
  | cons term eliminated ih =>
      rw [FirstNoVariable, Decides.cons_iff, ← FirstNoVariable, ← ih]
      unfold demandVariables
      rw [List.find?_cons]
      cases isVariable : solver.isVariable term <;> simp [eq_comm]

theorem demandGeneralized_eq_ok_iff :
    solver.demandGeneralized model formulas eliminated = .ok () ↔
      (∀ term ∈ eliminated, solver.isVariable term = true) ∧
        ∀ formula ∈ formulas, solver.truthOf model formula = .ok true := by
  have demanded : solver.demandAll model .generalizationFailed (by decide) formulas = .ok () ↔ _ :=
    demandAll_eq_ok_iff
  rw [← demandVariables_eq_ok_iff, ← demanded, demandGeneralized]
  cases solver.demandVariables eliminated with
  | error complaint => simp [bind, Except.bind]
  | ok => simp [bind, Except.bind]

/-- What is to be eliminated is complained of before the formulas. -/
theorem demandGeneralized_eq_error_iff :
    solver.demandGeneralized model formulas eliminated = .error complaint ↔
      solver.demandVariables eliminated = .error complaint ∨
        (∀ term ∈ eliminated, solver.isVariable term = true) ∧
          solver.demandAll model .generalizationFailed (by decide) formulas =
            .error complaint := by
  rw [← demandVariables_eq_ok_iff, demandGeneralized]
  cases solver.demandVariables eliminated with
  | error complaint' => simp [bind, Except.bind]
  | ok => simp [bind, Except.bind]

end Generalized

end ScriptedSolver

/-! ## Answers -/

theorem Complaint.stop_injective {complaint complaint' : Complaint} {name : Call}
    (same : complaint.stop name = complaint'.stop name) : complaint = complaint' := by
  rcases complaint with ⟨code, term, isError⟩
  rcases complaint' with ⟨code', term', isError'⟩
  simp only [stop, report, Stop.failure.injEq, Failure.call.injEq, ErrorReport.mk.injEq,
    true_and] at same
  cases same.1
  cases same.2.1
  rfl

/-- The same result of two calls, or the same complaint under their two names. -/
inductive AlikeButForCall {α : Type} (name name' : Call) : Except Stop α → Except Stop α → Prop where
  | ok (result : α) : AlikeButForCall name name' (.ok result) (.ok result)
  | error (complaint : Complaint) :
      AlikeButForCall name name' (.error (complaint.stop name)) (.error (complaint.stop name'))

/-- Whether a query asks for what is true in a model. -/
def Query.AsksForTruth : Query → Prop
  | .holds _ | .allHold _ | .implicant _ | .implicants _ | .generalize .. | .generalizeAll .. => True
  | _ => False

namespace Model

/-- What a query is answered with. -/
def answered (model : Model) (start : Traced ScriptedSolver) (query : Query) :
    Except Stop query.Answer :=
  Outcome.result (model.ask answer query start)

section Formulas

variable (model : Model) (start : Traced ScriptedSolver)

/-- A formula is found to have a truth value. -/
def Finds (formula : TermId) (truth : Bool) : Prop :=
  model.answered start (.holds formula) = .ok truth

/-- A formula is found to have no truth value, which is complained of. -/
def Refuses (formula : TermId) (complaint : Complaint) : Prop :=
  model.answered start (.holds formula) = .error (complaint.stop .formulaHolds)

/-- The complaint is of the first formula that has no truth value. -/
def FirstRefused (formulas : List TermId) (complaint : Complaint) : Prop :=
  Decides (fun formula => ∃ truth, model.Finds start formula truth)
    (fun formula => model.Refuses start formula complaint) formulas

/-- The complaint is of the first formula that is not true: its own if it has no truth value, and
otherwise by the given code. -/
def FirstUntrue (code : ErrorCode) (formulas : List TermId) (complaint : Complaint) : Prop :=
  Decides (fun formula => model.Finds start formula true)
    (fun formula => model.Refuses start formula complaint ∨
      model.Finds start formula false ∧ complaint.code = code ∧ complaint.term = formula) formulas

/-- How the answers about several formulas fit together with those about one formula each. -/
structure FormulasAgree (formulas eliminated : List TermId) : Prop where
  /-- What a formula fails with is said of the formula. -/
  holds_error (formula : TermId) (stop : Stop) :
    model.answered start (.holds formula) = .error stop →
      ∃ complaint : Complaint, stop = complaint.stop .formulaHolds ∧ complaint.term = formula
  /-- A conjunction is true if all formulas are, and has a truth value if all have one. -/
  allHold_ok (truth : Bool) :
    model.answered start (.allHold formulas) = .ok truth ↔
      (∀ formula ∈ formulas, ∃ value, model.Finds start formula value) ∧
        (truth = true ↔ ∀ formula ∈ formulas, model.Finds start formula true)
  /-- It fails with the first formula that fails, whether or not one before it is false. -/
  allHold_error (stop : Stop) :
    model.answered start (.allHold formulas) = .error stop ↔
      ∃ complaint, stop = complaint.stop .formulasHold ∧
        model.FirstRefused start formulas complaint
  /-- The implicant of formulas that hold together is the formulas. -/
  implicants_ok (terms : List TermId) :
    model.answered start (.implicants formulas) = .ok terms ↔
      terms = formulas ∧ model.answered start (.allHold formulas) = .ok true
  implicants_true (terms : List TermId) :
    model.answered start (.implicants formulas) = .ok terms →
      ∀ formula ∈ terms, model.Finds start formula true
  implicants_error (stop : Stop) :
    model.answered start (.implicants formulas) = .error stop ↔
      ∃ complaint, stop = complaint.stop .implicants ∧
        model.FirstUntrue start .noImplicant formulas complaint
  /-- So is their generalization, if what is to be eliminated are variables. -/
  generalizeAll_ok (mode : GeneralizationMode) (terms : List TermId) :
    model.answered start (.generalizeAll formulas eliminated mode) = .ok terms ↔
      terms = formulas ∧ (∀ term ∈ eliminated, start.state.isVariable term = true) ∧
        model.answered start (.allHold formulas) = .ok true
  /-- What is to be eliminated is looked at before the formulas. -/
  generalizeAll_error (mode : GeneralizationMode) (stop : Stop) :
    model.answered start (.generalizeAll formulas eliminated mode) = .error stop ↔
      ∃ complaint, stop = complaint.stop .generalizeAll ∧
        (start.state.FirstNoVariable eliminated complaint ∨
          (∀ term ∈ eliminated, start.state.isVariable term = true) ∧
            model.FirstUntrue start .generalizationFailed formulas complaint)
  generalizeAll_mode (mode mode' : GeneralizationMode) :
    model.answered start (.generalizeAll formulas eliminated mode) =
      model.answered start (.generalizeAll formulas eliminated mode')
  /-- One formula is asked about as the list of it is. -/
  holds_single (formula : TermId) :
    AlikeButForCall .formulaHolds .formulasHold (model.answered start (.holds formula))
      (model.answered start (.allHold [formula]))
  implicant_single (formula : TermId) :
    AlikeButForCall .implicant .implicants (model.answered start (.implicant formula))
      (model.answered start (.implicants [formula]))
  generalize_single (formula : TermId) (mode : GeneralizationMode) :
    AlikeButForCall .generalize .generalizeAll
      (model.answered start (.generalize formula eliminated mode))
      (model.answered start (.generalizeAll [formula] eliminated mode))
  /-- No answer depends on what was asked before. -/
  inTurn (series : List Query) (query : Query) : (∀ asked ∈ series, asked.AsksForTruth) →
    query.AsksForTruth →
      model.answered (series.foldl model.after start) query = model.answered start query

end Formulas

variable {model : Model} {start : Traced ScriptedSolver} {live : ScriptedModel}

/-- There is a verdict on what is true. -/
theorem exists_verdict_of_asksForTruth {query : Query} (asks : query.AsksForTruth)
    (solver : ScriptedSolver) (model : ModelId) :
    ∃ verdict, query.verdict? solver model = some verdict := by
  cases query <;> first | exact asks.elim | exact ⟨_, rfl⟩

section Settled

variable {α : Type} {name name' : Call} {verdict : Except Complaint α}

theorem mapError_eq_ok_iff {result : α} :
    verdict.mapError (·.stop name) = .ok result ↔ verdict = .ok result := by
  cases verdict <;> simp [Except.mapError]

theorem mapError_eq_error_iff {stop : Stop} :
    verdict.mapError (·.stop name) = .error stop ↔
      ∃ complaint, stop = complaint.stop name ∧ verdict = .error complaint := by
  cases verdict with
  | error complaint => simp [Except.mapError, eq_comm]
  | ok result => simp [Except.mapError]

theorem mapError_alike (verdict : Except Complaint α) :
    AlikeButForCall name name' (verdict.mapError (·.stop name))
      (verdict.mapError (·.stop name')) := by
  cases verdict with
  | error complaint => exact .error complaint
  | ok result => exact .ok result

/-- A check that comes before a result decides whether there is one. -/
theorem checked_eq_ok_iff {check : Except Complaint Unit} {result other : α} :
    (do check; return result : Except Complaint α) = .ok other ↔
      other = result ∧ check = .ok () := by
  cases check <;> simp [bind, Except.bind, pure, Except.pure, eq_comm]

theorem checked_eq_error_iff {check : Except Complaint Unit} {result : α}
    {complaint : Complaint} :
    (do check; return result : Except Complaint α) = .error complaint ↔
      check = .error complaint := by
  cases check <;> simp [bind, Except.bind, pure, Except.pure]

end Settled

section Agree

variable (calm : start.state.failing = []) (found : start.state.model? model.id = some live)

include calm found

theorem answered_eq {query : Query} {verdict : Except Complaint query.Answer}
    (decided : query.verdict? start.state model.id = some verdict) :
    model.answered start query = verdict.mapError (·.stop query.call) :=
  (ask_concludes calm found decided).result_eq

theorem finds_iff {formula : TermId} {truth : Bool} :
    model.Finds start formula truth ↔ start.state.truthOf model.id formula = .ok truth := by
  unfold Finds
  rw [answered_eq calm found rfl]
  exact mapError_eq_ok_iff

theorem refuses_iff {formula : TermId} {complaint : Complaint} :
    model.Refuses start formula complaint ↔
      start.state.truthOf model.id formula = .error complaint := by
  unfold Refuses
  rw [answered_eq calm found rfl, mapError_eq_error_iff]
  constructor
  · rintro ⟨complaint', same, refused⟩
    rw [Complaint.stop_injective same]
    exact refused
  · intro refused
    exact ⟨complaint, rfl, refused⟩

theorem firstRefused_iff {formulas : List TermId} {complaint : Complaint} :
    model.FirstRefused start formulas complaint ↔
      start.state.allTrue model.id formulas = .error complaint := by
  rw [allTrue_eq_error_iff]
  apply Decides.congr
  · intro formula
    simp only [finds_iff calm found]
  · intro formula
    exact refuses_iff calm found

theorem firstUntrue_iff {code : ErrorCode} (isError : code ≠ .noError) {formulas : List TermId}
    {complaint : Complaint} :
    model.FirstUntrue start code formulas complaint ↔
      start.state.demandAll model.id code isError formulas = .error complaint := by
  rw [demandAll_eq_error_iff]
  apply Decides.congr
  · intro formula
    exact finds_iff calm found
  · intro formula
    rcases complaint with ⟨code', term, isError'⟩
    simp only [finds_iff calm found, refuses_iff calm found, Complaint.mk.injEq]

/-- A query for what is true leaves the tables as they were. -/
theorem sameTables_after {query : Query} (asks : query.AsksForTruth) :
    SameTables start.state (model.after start query).state := by
  rcases exists_verdict_of_asksForTruth asks start.state model.id with ⟨verdict, decided⟩
  exact (ask_concludes calm found decided).sameTables

theorem sameTables_series {series : List Query} (asks : ∀ asked ∈ series, asked.AsksForTruth) :
    SameTables start.state (series.foldl model.after start).state := by
  induction series generalizing start with
  | nil => exact ⟨rfl, rfl, rfl, rfl, rfl⟩
  | cons query series ih =>
      rcases List.forall_mem_cons.mp asks with ⟨first, others⟩
      have same := sameTables_after calm found first
      have calmAfter := same.failing.trans calm
      have foundAfter : (model.after start query).state.model? model.id = some live := by
        simpa only [model?, same.models] using found
      exact same.trans (ih calmAfter foundAfter others)

/-- In a state with the same tables the answer is the same. -/
theorem answered_congr {later : Traced ScriptedSolver} (same : SameTables start.state later.state)
    {query : Query} (asks : query.AsksForTruth) :
    model.answered later query = model.answered start query := by
  have calmLater := same.failing.trans calm
  have foundLater : later.state.model? model.id = some live := by
    simpa only [model?, same.models] using found
  rcases exists_verdict_of_asksForTruth asks start.state model.id with ⟨verdict, decided⟩
  have decidedLater := decided
  rw [verdict?_congr (fun term _ => same.looksSame term)] at decidedLater
  · rw [answered_eq calmLater foundLater decidedLater, answered_eq calm found decided]
  · intro defined
    cases defined
    exact asks.elim

end Agree

/-- Without scripted failures, what formulas are together in a live model is settled by what each of
them is. -/
theorem formulas_agree (calm : start.state.failing = [])
    (found : start.state.model? model.id = some live) (formulas eliminated : List TermId) :
    model.FormulasAgree start formulas eliminated := by
  have allHold : model.answered start (.allHold formulas) =
      (start.state.allTrue model.id formulas).mapError (·.stop .formulasHold) :=
    answered_eq calm found rfl
  have implicants : model.answered start (.implicants formulas) =
      Except.mapError (Complaint.stop · .implicants) do
        start.state.demandImplied model.id formulas
        return formulas := answered_eq calm found rfl
  have generalizeAll (mode : GeneralizationMode) :
      model.answered start (.generalizeAll formulas eliminated mode) =
        Except.mapError (Complaint.stop · .generalizeAll) do
          start.state.demandGeneralized model.id formulas eliminated
          return formulas := answered_eq calm found rfl
  have allTrue : model.answered start (.allHold formulas) = .ok true ↔
      ∀ formula ∈ formulas, start.state.truthOf model.id formula = .ok true := by
    rw [allHold, mapError_eq_ok_iff, allTrue_eq_true_iff]
  constructor
  case holds_error =>
    intro formula stop fails
    rw [answered_eq calm found rfl, mapError_eq_error_iff] at fails
    rcases fails with ⟨complaint, rfl, refused⟩
    exact ⟨complaint, rfl, term_of_truthOf refused⟩
  case allHold_ok =>
    intro truth
    rw [allHold, mapError_eq_ok_iff, allTrue_eq_ok_iff]
    simp only [finds_iff calm found]
  case allHold_error =>
    intro stop
    rw [allHold, mapError_eq_error_iff]
    simp only [firstRefused_iff calm found]
  case implicants_ok =>
    intro terms
    rw [allTrue, implicants, mapError_eq_ok_iff, checked_eq_ok_iff, demandImplied,
      demandAll_eq_ok_iff]
  case implicants_true =>
    intro terms implied formula isTerm
    rw [implicants, mapError_eq_ok_iff, checked_eq_ok_iff, demandImplied,
      demandAll_eq_ok_iff] at implied
    rcases implied with ⟨rfl, holds⟩
    exact (finds_iff calm found).mpr (holds formula isTerm)
  case implicants_error =>
    intro stop
    rw [implicants, mapError_eq_error_iff]
    simp only [checked_eq_error_iff, demandImplied,
      firstUntrue_iff calm found (by decide : ErrorCode.noImplicant ≠ .noError)]
  case generalizeAll_ok =>
    intro mode terms
    rw [allTrue, generalizeAll, mapError_eq_ok_iff, checked_eq_ok_iff,
      demandGeneralized_eq_ok_iff]
  case generalizeAll_error =>
    intro mode stop
    rw [generalizeAll, mapError_eq_error_iff]
    simp only [checked_eq_error_iff, demandGeneralized_eq_error_iff, demandVariables_eq_error_iff,
      firstUntrue_iff calm found (by decide : ErrorCode.generalizationFailed ≠ .noError)]
  case generalizeAll_mode =>
    intro mode mode'
    rw [generalizeAll, generalizeAll]
  case holds_single =>
    intro formula
    rw [answered_eq calm found rfl, answered_eq calm found rfl, allTrue_singleton]
    exact mapError_alike _
  case implicant_single =>
    intro formula
    rw [answered_eq calm found rfl, answered_eq calm found rfl]
    exact mapError_alike _
  case generalize_single =>
    intro formula mode
    rw [answered_eq calm found rfl, answered_eq calm found rfl]
    exact mapError_alike _
  case inTurn =>
    intro series query asksSeries asks
    exact answered_congr calm found (sameTables_series calm found asksSeries) asks

end Model

/-- A solver with a model in which the first term is false and the second has no value. -/
def ScriptedSolver.ofFalseAndUnassigned : Traced ScriptedSolver where
  state :=
    { types := #[.bool]
      terms := #[⟨⟨0⟩, none⟩, ⟨⟨0⟩, none⟩]
      models := #[some ⟨[(⟨0⟩, .bool false)], #[], false⟩] }
  events := []

/-- With a false formula before one that has no truth value, the conjunction complains of the
second and the implicant of the first. -/
theorem Model.formulas_agree_falseAndUnassigned :
    ∃ (unknown untrue : Complaint),
      unknown.term = ⟨1⟩ ∧ untrue.term = ⟨0⟩ ∧ untrue.code = .noImplicant ∧
      answered { id := ⟨0⟩ } ofFalseAndUnassigned (.allHold [⟨0⟩, ⟨1⟩]) =
        .error (unknown.stop .formulasHold) ∧
      answered { id := ⟨0⟩ } ofFalseAndUnassigned (.implicants [⟨0⟩, ⟨1⟩]) =
        .error (untrue.stop .implicants) ∧
      FirstRefused { id := ⟨0⟩ } ofFalseAndUnassigned [⟨0⟩, ⟨1⟩] unknown ∧
      FirstUntrue { id := ⟨0⟩ } ofFalseAndUnassigned .noImplicant [⟨0⟩, ⟨1⟩] untrue := by
  let unknown : Complaint := ⟨.unknownTerm, ⟨1⟩, by decide⟩
  let untrue : Complaint := ⟨.noImplicant, ⟨0⟩, by decide⟩
  have agree : FormulasAgree { id := ⟨0⟩ } ofFalseAndUnassigned [⟨0⟩, ⟨1⟩] [] :=
    formulas_agree rfl rfl _ _
  have all : answered { id := ⟨0⟩ } ofFalseAndUnassigned (.allHold [⟨0⟩, ⟨1⟩]) =
      .error (unknown.stop .formulasHold) := by with_unfolding_all rfl
  have implied : answered { id := ⟨0⟩ } ofFalseAndUnassigned (.implicants [⟨0⟩, ⟨1⟩]) =
      .error (untrue.stop .implicants) := by with_unfolding_all rfl
  rcases (agree.allHold_error _).mp all with ⟨unknown', sameStop, refused⟩
  rcases (agree.implicants_error _).mp implied with ⟨untrue', sameStop', isUntrue⟩
  rw [← Complaint.stop_injective sameStop] at refused
  rw [← Complaint.stop_injective sameStop'] at isUntrue
  exact ⟨unknown, untrue, rfl, rfl, rfl, all, implied, refused, isUntrue⟩

end SmtModel
