import SmtModel.Proofs.Scripted.Getters

/-!
# Rebuilding a model

A model can be rebuilt from its terms: each term that it defines is paired with the
constant for its value, and another model is built from the pairs
(`SmtModel.Model.rebuild`). The other model has the same assignment, so a term looks the
same in both, and queries are answered alike (`SmtModel.Model.rebuild_alike`). There have
to be places for the constants, and for nodes where values are read.

Readings are the harder part, as the first one makes constants that the second one finds.
That they are alike follows from the evaluations that they agree with: from what the
first evaluation leaves, the second one has the same result, or stops for the same reason.
-/

namespace SmtModel

open ScriptedSolver

/-! ## Endings that are alike -/

/-- The same results, or stops that count as the same. -/
inductive Alike {α : Type} : Except Stop α → Except Stop α → Prop where
  | ok (result : α) : Alike (.ok result) (.ok result)
  | error {stop stop' : Stop} (same : stop.Alike stop') : Alike (.error stop) (.error stop')

theorem Alike.refl {α : Type} (ending : Except Stop α) : Alike ending ending := by
  cases ending with
  | ok result => exact .ok result
  | error stop => exact .error (.refl stop)

/-- A later state, to which queries about whatever models have led. -/
def Queried : Traced ScriptedSolver → Traced ScriptedSolver → Prop :=
  Relation.ReflTransGen fun earlier later =>
    ∃ (model : Model) (query : Query), later = model.after earlier query

theorem Queried.extends {earlier later : Traced ScriptedSolver} (queried : Queried earlier later) :
    Extends earlier.state later.state := by
  induction queried with
  | refl => exact .refl _
  | tail _ step ih =>
      rcases step with ⟨model, query, rfl⟩
      exact ih.trans (model.ask_extends query _)

/-- An action ends as another one has ended before, whatever queries are made in between, if there
is room in the end. -/
def Echoes {α : Type} (room : ScriptedSolver → Prop) (start : Traced ScriptedSolver)
    (first second : Action ScriptedSolver α) : Prop :=
  ∀ later, Queried (Outcome.state (first start)) later →
    room (Outcome.state (second later)).state →
      Alike (Outcome.result (first start)) (Outcome.result (second later))

/-- Two actions of which the second one that is taken echoes the first, whichever that is. -/
structure AlikeInTurn {α : Type} (room : ScriptedSolver → Prop) (start : Traced ScriptedSolver)
    (first second : Action ScriptedSolver α) : Prop where
  forth : Echoes room start first second
  back : Echoes room start second first

/-- There is room for what two models need to answer a query. Only for the reading of a value is any
needed. -/
def Query.HasRoom (query : Query) (first second : ModelId) (solver : ScriptedSolver) : Prop :=
  ∀ term, query = .value term → solver.HasRoom first ∧ solver.HasRoom second

theorem Query.HasRoom.symm {query : Query} {first second : ModelId} {solver : ScriptedSolver}
    (room : query.HasRoom first second solver) : query.HasRoom second first solver :=
  fun term same => (room term same).symm

namespace Model

variable {first second : Model} {term term' : TermId} {start later : Traced ScriptedSolver}

/-- A value that is read again under the same limit is read alike, with the same constants in it. -/
theorem read_alike (sameLimit : first.limit = second.limit) {value : ScriptedValue}
    (assigned : start.state.value? first.id term = some value)
    (assignedAgain : later.state.value? second.id term' = some value)
    (calm : start.state.failing = [])
    (grown : Extends (Outcome.state (first.read answer term start)).state later.state)
    (roomFirst : (Outcome.state (second.read answer term' later)).state.HasRoom first.id)
    (roomSecond : (Outcome.state (second.read answer term' later)).state.HasRoom second.id) :
    Alike (Outcome.result (first.read answer term start))
      (Outcome.result (second.read answer term' later)) := by
  have follows := read_follows assigned
  have followsAgain := read_follows assignedAgain
  have calmAgain : later.state.failing = [] :=
    grown.failing.trans (follows.grows.failing.trans calm)
  have agrees := follows.agrees (grown.hasRoom (followsAgain.grows.hasRoom roomFirst))
  have agreesAgain := followsAgain.agrees roomSecond
  have settles : Evaluation.Settles True (value.evaluate first.limit first.limit.levels)
      (value.evaluate first.limit first.limit.levels) :=
    ScriptedValue.evaluate_settles (Nat.le_refl _) (fun _ => ⟨rfl, rfl⟩) value
  have terms := agrees.terms_eq calm
  have types : later.state.lexicon.types = start.state.lexicon.types :=
    grown.types.trans follows.grows.types
  rw [agrees.result_eq calm, agreesAgain.result_eq calmAgain, ← sameLimit]
  have grownLexicon : (Outcome.state (value.evaluate first.limit first.limit.levels
      start.state.lexicon)).Grows later.state.lexicon := by
    constructor
    · simp only [settles.types, types, List.prefix_rfl]
    · rw [← terms]
      exact grown.terms
  cases evaluated : value.evaluate first.limit first.limit.levels start.state.lexicon with
  | ok result left =>
      rw [evaluated] at grownLexicon
      rw [settles.ok _ _ _ evaluated _ grownLexicon]
      exact .ok result
  | error stop left =>
      rw [evaluated] at grownLexicon
      rcases settles.stopped trivial _ _ _ evaluated _ grownLexicon types with
        ⟨stop', stopped, alike⟩
      rw [stopped]
      exact .error alike

/-- A query about terms that exist is answered alike by two models with the same assignment. -/
theorem ask_echoes {query : Query} {live live' : ScriptedModel}
    (sameLimit : first.limit = second.limit) (calm : start.state.failing = [])
    (found : start.state.model? first.id = some live)
    (foundSecond : start.state.model? second.id = some live')
    (same : live'.assignment = live.assignment) (reads : ∀ term, query ≠ .valueAsTerm term)
    (known : ∀ term ∈ query.terms, (start.state.term? term).isSome = true) :
    Echoes (query.HasRoom first.id second.id) start (first.ask answer query)
      (second.ask answer query) := by
  intro later queried room
  have grown : Extends start.state later.state :=
    (first.ask_extends query start).trans queried.extends
  have calmLater : later.state.failing = [] := grown.failing.trans calm
  rcases grown.models second.id _ foundSecond with ⟨nodes, foundLater⟩
  have looks : ∀ term ∈ query.terms,
      LooksSame start.state first.id later.state second.id term :=
    fun term isTerm => grown.looksSame found foundLater same (known term isTerm)
  rcases query.exists_verdict found with ⟨term, rfl⟩ | ⟨term, rfl⟩ | ⟨verdict, decided⟩
  · have looked := (looks term List.mem_cons_self).lookup
    cases assigned : start.state.lookup first.id term with
    | ok value =>
        rcases room term rfl with ⟨roomFirst, roomSecond⟩
        exact read_alike sameLimit (lookup_eq_ok_iff.mp assigned)
          (lookup_eq_ok_iff.mp (looked.symm.trans assigned)) calm queried.extends roomFirst
          roomSecond
    | error complaint =>
        have refused := (read_concludes calm found assigned).result_eq
        have refusedAgain :=
          (read_concludes calmLater foundLater (looked.symm.trans assigned)).result_eq
        change Alike (Outcome.result (first.read answer term start))
          (Outcome.result (second.read answer term later))
        rw [refused, refusedAgain]
        exact .refl _
  · exact absurd rfl (reads term)
  · have decidedLater : query.verdict? later.state second.id = some verdict := by
      rw [← verdict?_congr looks fun _ => ?_]
      · exact decided
      · rw [found, foundLater]
        simp only [Option.map_some, same]
    rw [(ask_concludes calm found decided).result_eq,
      (ask_concludes calmLater foundLater decidedLater).result_eq]
    exact .refl _

end Model

/-! ## Assignments of variables -/

namespace ScriptedSolver

variable {solver earlier later : ScriptedSolver} {assignment : Assignment}
  {pairs : List (TermId × TermId)} {seen : List TermId}

/-- The assigned terms are declared variables, each of them assigned once. -/
structure Declares (solver : ScriptedSolver) (assignment : Assignment) : Prop where
  nodup : (assignment.map (·.1)).Nodup
  declared : ∀ pair ∈ assignment, solver.isVariable pair.1 = true

/-- A term is a constant for a value. -/
def Denotes (solver : ScriptedSolver) (constant : TermId) (value : ScriptedValue) : Prop :=
  ∃ entry, solver.term? constant = some entry ∧ entry.constant? = some value

theorem Denotes.of_extends {constant : TermId} {value : ScriptedValue}
    (denotes : Denotes earlier constant value) (grown : Extends earlier later) :
    Denotes later constant value := by
  rcases denotes with ⟨entry, known, denotes⟩
  exact ⟨entry, term?_of_prefix grown.terms known, denotes⟩

theorem isVariable_of_extends (grown : Extends earlier later) {term : TermId}
    (isVariable : earlier.isVariable term = true) : later.isVariable term = true := by
  rcases (Option.any_eq_true _ _).mp isVariable with ⟨entry, known, isVariable⟩
  exact (Option.any_eq_true _ _).mpr ⟨entry, term?_of_prefix grown.terms known, isVariable⟩

theorem Declares.of_extends (declares : Declares earlier assignment)
    (grown : Extends earlier later) : Declares later assignment where
  nodup := declares.nodup
  declared pair isPair := isVariable_of_extends grown (declares.declared pair isPair)

/-- What is accepted as an assignment assigns variables, none of which was seen before. -/
theorem declares_of_assignmentOf
    (assigns : assignmentOf solver seen pairs = .ok assignment) :
    solver.Declares assignment ∧ ∀ pair ∈ assignment, pair.1 ∉ seen := by
  induction pairs generalizing seen assignment with
  | nil =>
      cases assigns
      exact ⟨⟨by simp, by simp⟩, by simp⟩
  | cons pair pairs ih =>
      rcases pair with ⟨target, value⟩
      unfold assignmentOf at assigns
      cases known : solver.term? target with
      | none => simp [known] at assigns
      | some entry =>
          simp only [known] at assigns
          split_ifs at assigns with isConstant isSeen
          cases denoted : (solver.term? value).bind (·.constant?) with
          | none => simp [denoted] at assigns
          | some constant =>
              simp only [denoted] at assigns
              cases others : assignmentOf solver (target :: seen) pairs with
              | error offence =>
                  rw [others] at assigns
                  cases assigns
              | ok rest =>
                  rw [others] at assigns
                  cases assigns
                  rcases ih others with ⟨declares, unseen⟩
                  simp only [List.mem_cons, not_or] at unseen
                  have isVariable : solver.isVariable target = true := by
                    simpa [isVariable, known] using isConstant
                  refine ⟨⟨?_, ?_⟩, ?_⟩
                  · refine List.nodup_cons.mpr ⟨fun isTarget => ?_, declares.nodup⟩
                    rcases List.mem_map.mp isTarget with ⟨pair, isPair, rfl⟩
                    exact (unseen pair isPair).1 rfl
                  · exact List.forall_mem_cons.mpr ⟨isVariable, declares.declared⟩
                  · have othersUnseen pair isPair := (unseen pair isPair).2
                    exact List.forall_mem_cons.mpr ⟨isSeen, othersUnseen⟩

/-- Variables paired with constants are an assignment of the values that the constants denote. -/
theorem assignmentOf_of_constants {constants : List TermId} (declares : solver.Declares assignment)
    (unseen : ∀ pair ∈ assignment, pair.1 ∉ seen)
    (denoted : List.Forall₂ (fun pair constant => solver.Denotes constant pair.2)
      assignment constants) :
    assignmentOf solver seen ((assignment.map (·.1)).zip constants) = .ok assignment := by
  induction denoted generalizing seen with
  | nil => rfl
  | @cons pair constant rest constants first others ih =>
      rcases pair with ⟨target, value⟩
      rcases first with ⟨denoting, knownConstant, denotes⟩
      rcases List.forall_mem_cons.mp declares.declared with ⟨isVariable, othersDeclared⟩
      rcases List.forall_mem_cons.mp unseen with ⟨targetUnseen, othersUnseen⟩
      rcases (Option.any_eq_true _ _).mp isVariable with ⟨entry, known, isVariable⟩
      rcases List.nodup_cons.mp declares.nodup with ⟨notAgain, othersNodup⟩
      have assigns := ih ⟨othersNodup, othersDeclared⟩ fun pair isPair isSeen => by
        rcases List.mem_cons.mp isSeen with same | isSeen
        · exact notAgain (List.mem_map.mpr ⟨pair, isPair, same⟩)
        · exact othersUnseen pair isPair isSeen
      simp only [List.map_cons, List.zip_cons_cons, assignmentOf, known, isVariable, targetUnseen,
        knownConstant, denotes, Option.bind_some, assigns]
      rfl

theorem find?_of_nodup (nodup : (assignment.map (·.1)).Nodup) {pair : TermId × ScriptedValue}
    (isPair : pair ∈ assignment) : assignment.find? (·.1 = pair.1) = some pair := by
  induction assignment with
  | nil => cases isPair
  | cons first others ih =>
      rcases List.nodup_cons.mp nodup with ⟨notAgain, nodup⟩
      rcases List.mem_cons.mp isPair with rfl | isPair
      · simp
      · have differ : first.1 ≠ pair.1 := fun same =>
          notAgain (List.mem_map.mpr ⟨pair, isPair, same.symm⟩)
        rw [List.find?_cons_of_neg (by simpa using differ)]
        exact ih nodup isPair

/-- The value of an assigned variable is the assigned one. -/
theorem value?_of_declares {model : ModelId} {live : ScriptedModel}
    (found : solver.model? model = some live) (declares : solver.Declares live.assignment)
    {pair : TermId × ScriptedValue} (isPair : pair ∈ live.assignment) :
    solver.value? model pair.1 = some pair.2 := by
  rcases (Option.any_eq_true _ _).mp (declares.declared pair isPair) with ⟨entry, known, -⟩
  have searched := find?_of_nodup declares.nodup isPair
  simp only [value?, known, found, searched, Option.bind_eq_bind, Option.bind_some,
    Option.map_some, Option.some_or]

/-- A term that is not assigned has the value that it denotes. -/
theorem value?_of_unassigned {model : ModelId} {live : ScriptedModel}
    (found : solver.model? model = some live) {constant : TermId} {value : ScriptedValue}
    (denotes : solver.Denotes constant value)
    (unassigned : ∀ pair ∈ live.assignment, pair.1 ≠ constant) :
    solver.value? model constant = some value := by
  rcases denotes with ⟨entry, known, denotes⟩
  have searched : live.assignment.find? (·.1 = constant) = none :=
    List.find?_eq_none.mpr (by simpa using unassigned)
  simp only [value?, known, found, searched, denotes, Option.bind_eq_bind, Option.bind_some,
    Option.map_none, Option.none_or]

/-- A constant is not assigned where variables are. -/
theorem value?_of_constant {model : ModelId} {live : ScriptedModel}
    (found : solver.model? model = some live) (declares : solver.Declares live.assignment)
    {constant : TermId} {value : ScriptedValue} (denotes : solver.Denotes constant value) :
    solver.value? model constant = some value := by
  refine value?_of_unassigned found denotes fun pair isPair same => ?_
  rcases denotes with ⟨entry, known, denotes⟩
  have isVariable := declares.declared pair isPair
  rw [same] at isVariable
  simp [ScriptedSolver.isVariable, known, ScriptedTerm.isVariable, denotes] at isVariable

/-- The solver after a model was built from pairs. -/
def withModel (solver : ScriptedSolver) (assignment : Assignment) : ScriptedSolver :=
  { withCall .modelFromMap solver with
    models := solver.models.push (some ⟨assignment, #[], false⟩) }

theorem model?_withModel (solver : ScriptedSolver) (assignment : Assignment) :
    (solver.withModel assignment).model? ⟨solver.models.size⟩ =
      some ⟨assignment, #[], false⟩ := by
  simp only [model?, withModel, Array.getElem?_push_size, Option.join_some]

theorem extends_withModel (solver : ScriptedSolver) (assignment : Assignment) :
    Extends solver (solver.withModel assignment) where
  types := rfl
  contexts := rfl
  failing := rfl
  terms := List.prefix_rfl
  models id live found := by
    refine ⟨[], ?_⟩
    simp only [model?] at found
    have inside : id.number < solver.models.size := by
      by_contra outside
      simp [Array.getElem?_eq_none (Nat.le_of_not_lt outside)] at found
    simp only [model?, withModel, Array.getElem?_push_lt inside]
    simpa [Array.getElem?_eq_getElem inside] using found

theorem modelFromMap_run (free : .modelFromMap ∉ solver.failing)
    (pairs : List (TermId × TermId)) :
    answer (.modelFromMap (pairs.map (·.1)) (pairs.map (·.2))) solver =
      match assignmentOf solver [] pairs with
      | .ok assignment => .ok (some ⟨solver.models.size⟩) (solver.withModel assignment)
      | .error (error, term) => .ok none
        { withCall .modelFromMap solver with error, errorTerm? := some term } := by
  have zipped : (pairs.map (·.1)).zip (pairs.map (·.2)) = pairs := by
    rw [List.zip_map', List.map_id']
  have lengths : (pairs.map (·.1)).length = (pairs.map (·.2)).length := by simp
  have same : assignmentOf (withCall .modelFromMap solver) = assignmentOf solver :=
    assignmentOf_congr rfl
  refine (attempt_of_not_mem free ..).trans ?_
  simp only [lengths, ne_eq, not_true, if_false]
  rw [get_bind, zipped, same]
  cases assignmentOf solver [] pairs <;> rfl

/-- The solver after a constant term was made for the value of a term. -/
def withValueTerm (solver : ScriptedSolver) (term : TermId) (value : ScriptedValue) :
    ScriptedSolver :=
  { withCall .valueAsTerm solver with
    terms := solver.terms.push ⟨solver.typeOf term, some value⟩ }

theorem denotes_withValueTerm (few : solver.terms.size < 0x80000000) (term : TermId)
    (value : ScriptedValue) :
    (solver.withValueTerm term value).Denotes (.ofIndex solver.terms.size) value := by
  refine ⟨⟨solver.typeOf term, some value⟩, ?_, rfl⟩
  simp only [term?, withValueTerm, TermId.index?_ofIndex few, Option.bind_eq_bind,
    Option.bind_some, Array.getElem?_push_size]

/-- A constant term is made for the value of a term, if it has one. -/
theorem valueAsTerm_run {model : ModelId} {live : ScriptedModel}
    (free : .valueAsTerm ∉ solver.failing) (found : solver.model? model = some live)
    (term : TermId) :
    answer (.valueAsTerm model term) solver =
      match solver.lookup model term with
      | .ok value => .ok (.ofIndex solver.terms.size) (solver.withValueTerm term value)
      | .error complaint => .ok .null ((withCall .valueAsTerm solver).withComplaint complaint) := by
  have called : (withCall .valueAsTerm solver).model? model = some live := found
  have looked : solver.lookup model term = (withCall .valueAsTerm solver).lookup model term :=
    ((sameTables_withCall .valueAsTerm solver).looksSame term).lookup
  refine (attempt_of_not_mem free ..).trans ?_
  rw [get_bind, looked]
  have ran := valueOf_run called term
  cases assigned : (withCall .valueAsTerm solver).lookup model term with
  | ok value =>
      rw [assigned] at ran
      rw [Outcome.bind_of_ok ran]
      rfl
  | error complaint =>
      rw [assigned] at ran
      rw [Outcome.bind_of_ok ran]
      rfl

end ScriptedSolver

/-! ## Rebuilding -/

/-- A model that is built from the terms that a model defines and constants for their values, under
the same limit of depth. -/
def Model.rebuild {σ : Type} (solver : Solver σ) (model : Model) : Action σ Model := do
  let terms ← model.ask solver .definedTerms
  let constants ← terms.mapM fun term => (model.ask solver (.valueAsTerm term) : Action σ TermId)
  let rebuilt ← ofPairs solver (terms.zip constants)
  return { rebuilt with limit := model.limit }

namespace Model

variable {model : Model} {start : Traced ScriptedSolver}

/-- The constant that is made for the value of a term is the next term. -/
theorem of_ask_valueAsTerm {live : ScriptedModel} (calm : start.state.failing = [])
    (found : start.state.model? model.id = some live) {term constant : TermId}
    {made : Traced ScriptedSolver}
    (makes : model.ask answer (.valueAsTerm term) start = .ok constant made) :
    ∃ value, start.state.value? model.id term = some value ∧
      constant = .ofIndex start.state.terms.size ∧
      made.state = start.state.withValueTerm term value := by
  have free : .valueAsTerm ∉ start.state.failing := by simp [calm]
  rcases Outcome.bind_eq_ok.mp makes with ⟨handed, ⟨reached, events⟩, asked, checked⟩
  have answered := (valueAsTerm_run free found term).symm.trans (Action.answer_of_ask asked)
  rcases of_checkTerm checked with ⟨notNull, rfl, rfl⟩
  cases looked : start.state.lookup model.id term with
  | error complaint =>
      rw [looked] at answered
      cases answered
      cases notNull
  | ok value =>
      rw [looked] at answered
      cases answered
      exact ⟨value, lookup_eq_ok_iff.mp looked, rfl, rfl⟩

theorem ask_valueAsTerm_of_some (calm : start.state.failing = []) {term : TermId}
    {value : ScriptedValue} (assigned : start.state.value? model.id term = some value)
    (few : start.state.terms.size < 0x80000000) :
    model.ask answer (.valueAsTerm term) start = .ok (.ofIndex start.state.terms.size)
      (start.map (·.withValueTerm term value)) := by
  have free : .valueAsTerm ∉ start.state.failing := by simp [calm]
  rcases exists_model_of_value? assigned with ⟨live, found⟩
  have answered := valueAsTerm_run free found term
  rw [lookup_eq_ok_iff.mpr assigned] at answered
  simp only [ask]
  rw [Outcome.bind_of_ok (Action.ask_of_ok answered), Action.checkTerm,
    TermId.isNull_ofIndex few]
  rfl

/-- The constants for assigned values denote them. -/
theorem mapM_valueAsTerm (assignment : Assignment) (calm : start.state.failing = [])
    (assigned : ∀ pair ∈ assignment, start.state.value? model.id pair.1 = some pair.2)
    (few : start.state.terms.size + assignment.length ≤ 0x80000000) :
    ∃ constants left,
      (assignment.map (·.1)).mapM
        (fun term => (model.ask answer (.valueAsTerm term) : Action ScriptedSolver TermId)) start =
          .ok constants left ∧
      Queried start left ∧
      List.Forall₂ (fun pair constant => left.state.Denotes constant pair.2)
        assignment constants := by
  induction assignment generalizing start with
  | nil => exact ⟨[], start, rfl, .refl, .nil⟩
  | cons pair assignment ih =>
      simp only [List.length_cons] at few
      rcases List.forall_mem_cons.mp assigned with ⟨first, others⟩
      have ran := ask_valueAsTerm_of_some calm first (by omega)
      have denotes := denotes_withValueTerm (show start.state.terms.size < 0x80000000 by omega)
        pair.1 pair.2
      have step : Queried start (model.after start (.valueAsTerm pair.1)) :=
        .single ⟨model, _, rfl⟩
      rw [after, ran, Outcome.state_ok] at step
      have remembers : Remembers model.id start.state _ := .of_extends step.extends
      have size : (start.state.withValueTerm pair.1 pair.2).terms.size =
          start.state.terms.size + 1 := Array.size_push ..
      rcases ih (step.extends.failing.trans calm)
          (fun pair isPair => remembers.value? (others pair isPair))
          (by simp only [Traced.map, size]; omega) with
        ⟨constants, left, ranOthers, steps, denoted⟩
      refine ⟨.ofIndex start.state.terms.size :: constants, left, ?_, step.trans steps,
        .cons (denotes.of_extends steps.extends) denoted⟩
      rw [List.map_cons, List.mapM_cons, Outcome.bind_of_ok ran, Outcome.bind_of_ok ranOthers]
      rfl

theorem ofPairs_of_assignmentOf (calm : start.state.failing = []) {pairs : List (TermId × TermId)}
    {assignment : Assignment} (assigns : assignmentOf start.state [] pairs = .ok assignment) :
    ∃ built left, ofPairs answer pairs start = .ok built left ∧
      Extends start.state left.state ∧
      left.state.model? built.id = some ⟨assignment, #[], false⟩ := by
  have free : .modelFromMap ∉ start.state.failing := by simp [calm]
  have ran := modelFromMap_run free pairs
  simp only [assigns] at ran
  let left : Traced ScriptedSolver :=
    ⟨start.state.withModel assignment, .modelBuilt pairs.length :: start.events⟩
  refine ⟨{ id := ⟨start.state.models.size⟩ }, left, ?_, extends_withModel .., model?_withModel ..⟩
  unfold ofPairs
  rw [Outcome.bind_of_ok (Action.ask_of_ok ran)]
  rfl

/-- What is built from pairs is the assignment that they describe. -/
theorem assignmentOf_of_ofPairs {pairs : List (TermId × TermId)} {left : Traced ScriptedSolver}
    (ran : ofPairs answer pairs start = .ok model left) :
    ∃ assignment, assignmentOf start.state [] pairs = .ok assignment ∧
      Extends start.state left.state ∧
      left.state.model? model.id = some ⟨assignment, #[], false⟩ := by
  unfold ofPairs at ran
  rcases Outcome.bind_eq_ok.mp ran with ⟨handle?, ⟨reached, events⟩, asked, ended⟩
  cases handle? with
  | none =>
      rw [Action.checkHandle, Checks.failCall_bind] at ended
      exact absurd ended failCall_ne_ok
  | some id =>
      cases ended
      have answered := Action.answer_of_ask asked
      by_cases scripted : .modelFromMap ∈ start.state.failing
      · cases (attempt_of_mem scripted ..).symm.trans answered
      · rw [modelFromMap_run scripted] at answered
        cases assigns : assignmentOf start.state [] pairs with
        | error offence =>
            rw [assigns] at answered
            cases answered
        | ok assignment =>
            rw [assigns] at answered
            cases answered
            exact ⟨assignment, rfl, extends_withModel .., model?_withModel ..⟩

/-- What is built from pairs is an assignment of variables. -/
theorem declares_of_ofPairs {pairs : List (TermId × TermId)} {left : Traced ScriptedSolver}
    (ran : ofPairs answer pairs start = .ok model left) :
    ∃ live, left.state.model? model.id = some live ∧ left.state.Declares live.assignment := by
  rcases assignmentOf_of_ofPairs ran with ⟨assignment, assigns, grown, found⟩
  exact ⟨_, found, (declares_of_assignmentOf assigns).1.of_extends grown⟩

section Rebuilt

variable {live : ScriptedModel} (calm : start.state.failing = [])
  (found : start.state.model? model.id = some live)
  (declares : start.state.Declares live.assignment)

include calm found declares

/-- A model of distinct variables can be rebuilt, and what is built has the same assignment. -/
theorem rebuild_run (few : start.state.terms.size + live.assignment.length ≤ 0x80000000) :
    ∃ rebuilt left, model.rebuild answer start = .ok rebuilt left ∧
      rebuilt.limit = model.limit ∧ Extends start.state left.state ∧
      left.state.model? rebuilt.id = some ⟨live.assignment, #[], false⟩ := by
  have free : .definedTerms ∉ start.state.failing := by simp [calm]
  rcases Action.ask_definedTerms_of_some found free with ⟨listed, lists, same⟩
  have listing := model.ask_extends .definedTerms start
  rw [lists] at listing
  have remembers : Remembers model.id start.state listed.state := .of_extends listing
  rcases mapM_valueAsTerm live.assignment (same.failing.trans calm)
      (fun pair isPair => remembers.value? (value?_of_declares found declares isPair))
      (by rwa [same.terms]) with
    ⟨constants, named, names, queried, denoted⟩
  have grown : Extends start.state named.state := listing.trans queried.extends
  have assigns := assignmentOf_of_constants (declares.of_extends grown)
    (fun _ _ => List.not_mem_nil) denoted
  rcases ofPairs_of_assignmentOf (grown.failing.trans calm) assigns with
    ⟨built, left, builds, building, foundBuilt⟩
  refine ⟨{ built with limit := model.limit }, left, ?_, rfl, grown.trans building, foundBuilt⟩
  unfold rebuild
  rw [Outcome.bind_of_ok lists, Outcome.bind_of_ok names, Outcome.bind_of_ok builds]
  rfl

/-- The constant for a value is read as the value is, whichever is read first. -/
theorem value_alikeInTurn {term constant : TermId} {made before : Traced ScriptedSolver}
    (makes : model.ask answer (.valueAsTerm term) start = .ok constant made)
    (queried : Queried made before) :
    AlikeInTurn (·.HasRoom model.id) before (model.ask answer (.value term))
      (model.ask answer (.value constant)) := by
  rcases of_ask_valueAsTerm calm found makes with ⟨value, assigned, rfl, state⟩
  have making := model.ask_extends (.valueAsTerm term) start
  rw [makes] at making
  have grown : Extends start.state before.state := making.trans queried.extends
  have calmBefore := grown.failing.trans calm
  -- if there is room in the end, there was room for the constant
  have few {last : ScriptedSolver} (grownLast : Extends before.state last)
      (room : last.HasRoom model.id) : start.state.terms.size < 0x80000000 := by
    have roomMade := ((queried.extends.trans grownLast).hasRoom room).terms
    rw [state] at roomMade
    have size : (start.state.withValueTerm term value).terms.size =
        start.state.terms.size + 1 := Array.size_push ..
    omega
  have termAt {later : ScriptedSolver} (grownLater : Extends before.state later) :
      later.value? model.id term = some value := by
    have remembers : Remembers model.id start.state later :=
      .of_extends (grown.trans grownLater)
    exact remembers.value? assigned
  have constantAt {later : ScriptedSolver} (grownLater : Extends before.state later)
      (few : start.state.terms.size < 0x80000000) :
      later.value? model.id (.ofIndex start.state.terms.size) = some value := by
    have denotes := denotes_withValueTerm few term value
    rw [← state] at denotes
    rcases (grown.trans grownLater).models _ _ found with ⟨nodes, foundLater⟩
    exact value?_of_constant foundLater (declares.of_extends (grown.trans grownLater))
      (denotes.of_extends (queried.extends.trans grownLater))
  constructor
  · intro later queriedLater room
    have grownLater := (model.ask_extends _ before).trans queriedLater.extends
    have few := few (grownLater.trans (model.ask_extends _ later)) room
    exact read_alike rfl (termAt (.refl _)) (constantAt grownLater few) calmBefore
      queriedLater.extends room room
  · intro later queriedLater room
    have grownLater := (model.ask_extends _ before).trans queriedLater.extends
    have few := few (grownLater.trans (model.ask_extends _ later)) room
    exact read_alike rfl (constantAt (.refl _) few) (termAt grownLater) calmBefore
      queriedLater.extends room room

end Rebuilt

/-- A live model of distinct declared variables can be rebuilt from its terms, if there are places
for the constants. Without scripted failures, the rebuilt model answers every query about existing
terms as the model does, and the constant for a value is read as the value is, whichever is asked
first. Only where values are read, there has to be room for the nodes. Whatever is built from pairs
is a model that can be rebuilt. -/
theorem rebuild_alike {live : ScriptedModel} (calm : start.state.failing = [])
    (found : start.state.model? model.id = some live)
    (declares : start.state.Declares live.assignment) :
    (start.state.terms.size + live.assignment.length ≤ 0x80000000 →
      ∃ rebuilt left, model.rebuild answer start = .ok rebuilt left ∧
        ∀ before, Queried left before → ∀ query : Query, (∀ term, query ≠ .valueAsTerm term) →
          (∀ term ∈ query.terms, (before.state.term? term).isSome = true) →
            AlikeInTurn (query.HasRoom model.id rebuilt.id) before (model.ask answer query)
              (rebuilt.ask answer query)) ∧
    (∀ asked, Queried start asked → ∀ term constant made,
      model.ask answer (.valueAsTerm term) asked = .ok constant made →
        ∀ before, Queried made before →
          AlikeInTurn (·.HasRoom model.id) before (model.ask answer (.value term))
            (model.ask answer (.value constant))) ∧
    ∀ pairs earlier built made, ofPairs answer pairs earlier = .ok built made →
      ∃ live, made.state.model? built.id = some live ∧ made.state.Declares live.assignment := by
  refine ⟨fun few => ?_, ?_, fun pairs earlier built made => declares_of_ofPairs⟩
  · rcases rebuild_run calm found declares few with
      ⟨rebuilt, left, builds, sameLimit, grown, foundRebuilt⟩
    refine ⟨rebuilt, left, builds, fun before queried query reads known => ?_⟩
    have grownBefore : Extends start.state before.state := grown.trans queried.extends
    rcases grownBefore.models _ _ found with ⟨nodes, foundBefore⟩
    rcases queried.extends.models _ _ foundRebuilt with ⟨nodes', foundRebuiltBefore⟩
    have calmBefore := grownBefore.failing.trans calm
    constructor
    case forth =>
      exact ask_echoes sameLimit.symm calmBefore foundBefore foundRebuiltBefore rfl reads known
    case back =>
      intro later queriedLater room
      have echoes :=
        ask_echoes sameLimit calmBefore foundRebuiltBefore foundBefore rfl reads known
      exact echoes later queriedLater room.symm
  · intro asked queried term constant made makes before queriedBefore
    rcases queried.extends.models _ _ found with ⟨nodes, foundAsked⟩
    exact value_alikeInTurn (queried.extends.failing.trans calm) foundAsked
      (declares.of_extends queried.extends) makes queriedBefore

end Model

theorem ScriptedSolver.hasRoom_of_all {solver : ScriptedSolver}
    (fewTerms : solver.terms.size ≤ 0x80000000)
    (fewNodes : solver.models.all fun live? => live?.all (·.nodes.size ≤ 0x80000000))
    (id : ModelId) : solver.HasRoom id := by
  refine ⟨fun live found => ?_, fewTerms⟩
  simp only [model?, Option.join_eq_some_iff] at found
  rcases Array.getElem?_eq_some_iff.mp found with ⟨inside, found⟩
  have few := Array.all_eq_true.mp fewNodes id.number inside
  simpa [found] using few

/-- A solver with a model in which the first term is a pair of an element and a fraction. -/
def ScriptedSolver.ofElementAndFraction : Traced ScriptedSolver where
  state :=
    { types := #[.enumeration 2]
      terms := #[⟨⟨0⟩, none⟩]
      models := #[some ⟨[(⟨0⟩, .tuple [.scalar ⟨0⟩ 1, .rational ⟨1, 3⟩])], #[], false⟩] }
  events := []

/-- The model of the pair. -/
def Model.ofElementAndFraction : Model where
  id := ⟨0⟩

/-- The pair is read alike from the model and from the rebuilt one. -/
theorem Model.rebuild_alike_ofElementAndFraction :
    ∃ rebuilt left,
      ofElementAndFraction.rebuild answer ScriptedSolver.ofElementAndFraction =
        .ok rebuilt left ∧
      AlikeInTurn (Query.HasRoom (.value ⟨0⟩) ofElementAndFraction.id rebuilt.id) left
        (ofElementAndFraction.ask answer (.value ⟨0⟩)) (rebuilt.ask answer (.value ⟨0⟩)) ∧
      Alike (.ok (.tuple [.scalar ⟨⟨2⟩, ⟨0⟩, 1⟩, .rational ⟨1, 3⟩]))
        (Outcome.result (rebuilt.ask answer (.value ⟨0⟩)
          (ofElementAndFraction.after left (.value ⟨0⟩)))) := by
  let live : ScriptedModel := ⟨[(⟨0⟩, .tuple [.scalar ⟨0⟩ 1, .rational ⟨1, 3⟩])], #[], false⟩
  have found : ScriptedSolver.ofElementAndFraction.state.model? ofElementAndFraction.id =
      some live := rfl
  have declares : ScriptedSolver.ofElementAndFraction.state.Declares live.assignment :=
    ⟨List.nodup_singleton _, List.forall_mem_singleton.mpr rfl⟩
  have runs : ∃ rebuilt left,
      ofElementAndFraction.rebuild answer ScriptedSolver.ofElementAndFraction =
        .ok rebuilt left ∧
      (left.state.term? ⟨0⟩).isSome = true ∧
      Outcome.result (ofElementAndFraction.ask answer (.value ⟨0⟩) left) =
        .ok (.tuple [.scalar ⟨⟨2⟩, ⟨0⟩, 1⟩, .rational ⟨1, 3⟩]) ∧
      (rebuilt.after (ofElementAndFraction.after left (.value ⟨0⟩))
        (.value ⟨0⟩)).state.terms.size = 3 ∧
      (rebuilt.after (ofElementAndFraction.after left (.value ⟨0⟩))
        (.value ⟨0⟩)).state.models.all
          (fun live? => live?.all (·.nodes.size ≤ 0x80000000)) = true := by
    with_unfolding_all exact ⟨_, _, rfl, rfl, rfl, rfl, rfl⟩
  rcases runs with ⟨rebuilt, left, builds, known, reads, terms, nodes⟩
  rcases (rebuild_alike rfl found declares).1 (by decide) with ⟨rebuilt', left', builds', alike⟩
  cases builds.symm.trans builds'
  have inTurn := alike left .refl (.value ⟨0⟩) nofun (List.forall_mem_singleton.mpr known)
  have room := hasRoom_of_all (by rw [terms]; decide) nodes
  refine ⟨rebuilt, left, builds, inTurn, ?_⟩
  have again := inTurn.forth _ .refl fun _ _ => ⟨room _, room _⟩
  rwa [reads] at again

/-! ## Without room -/

namespace ScriptedSolver

variable {solver : ScriptedSolver}

/-- What is paired in an assignment is a term. -/
theorem isSome_of_assignmentOf {seen : List TermId} {target value : TermId}
    {pairs : List (TermId × TermId)} {assignment : Assignment}
    (assigns : assignmentOf solver seen ((target, value) :: pairs) = .ok assignment) :
    (solver.term? value).isSome = true := by
  unfold assignmentOf at assigns
  cases known : solver.term? target with
  | none => simp [known] at assigns
  | some entry =>
      simp only [known] at assigns
      split_ifs at assigns
      cases denoting : solver.term? value with
      | none => simp [denoting] at assigns
      | some constant => rfl

theorem term?_ofIndex_full : solver.term? (.ofIndex 0x80000000) = none := by
  have unnamed : (TermId.ofIndex 0x80000000).index? = none := tableIndex?_ofNat_full
  simp only [term?, unnamed, Option.bind_eq_bind, Option.bind_none]

end ScriptedSolver

namespace Model

/-- Behind a full table of terms no constant can be named, so a model that assigns anything cannot be
rebuilt. -/
theorem rebuild_ne_ok_of_full {model rebuilt : Model} {start left : Traced ScriptedSolver}
    {live : ScriptedModel} (calm : start.state.failing = [])
    (found : start.state.model? model.id = some live) (assigned : live.assignment ≠ [])
    (full : start.state.terms.size = 0x80000000) :
    model.rebuild answer start ≠ .ok rebuilt left := by
  intro ran
  rcases List.exists_cons_of_ne_nil assigned with ⟨⟨term, value⟩, pairs, assignment⟩
  have free : .definedTerms ∉ start.state.failing := by simp [calm]
  rcases Action.ask_definedTerms_of_some found free with ⟨listed, lists, same⟩
  rw [assignment] at lists
  unfold rebuild at ran
  rw [Outcome.bind_of_ok lists, List.map_cons, List.mapM_cons] at ran
  rcases Outcome.bind_eq_ok.mp ran with ⟨constants, named, names, builds⟩
  rcases Outcome.bind_eq_ok.mp names with ⟨constant, made, makes, others⟩
  rcases Outcome.bind_eq_ok.mp others with ⟨constants', made', -, listing⟩
  cases listing
  have foundListed : listed.state.model? model.id = some live := by
    simpa only [model?, same.models] using found
  rcases of_ask_valueAsTerm (same.failing.trans calm) foundListed makes with ⟨_, -, rfl, -⟩
  rcases Outcome.bind_eq_ok.mp builds with ⟨built, reached, built', -⟩
  rcases assignmentOf_of_ofPairs built' with ⟨_, assigns, -⟩
  have named := isSome_of_assignmentOf assigns
  rw [same.terms, full, term?_ofIndex_full] at named
  cases named

/-- A model is not rebuilt where there is no place for another term, nor where the call for a constant
is made to return at once. Where all nodes are handed out, it is rebuilt, but not read as before. -/
theorem rebuild_differs :
    (∀ rebuilt left, rebuild answer { id := ⟨0⟩ }
      ⟨{ ofValue (.bool true) with terms := fullTable ⟨⟨0⟩, none⟩ }, []⟩ ≠ .ok rebuilt left) ∧
    (∃ rebuilt left, rebuild answer { id := ⟨0⟩ } ⟨crowded (.bool true), []⟩ = .ok rebuilt left ∧
      Outcome.result (rebuilt.ask answer (.value ⟨0⟩) left) = .ok (.bool true) ∧
      Outcome.result (ask answer { id := ⟨0⟩ } (.value ⟨0⟩) (rebuilt.after left (.value ⟨0⟩))) ≠
        .ok (.bool true)) ∧
    ∃ report left, rebuild (Overridden.answer answer) { id := ⟨0⟩ }
        ⟨(ofValue (.bool true)).returning .valueAsTerm 7, []⟩ =
          .error (.failure (.call Call.modelFromMap.name report)) left ∧
      report.code = .constantRequired := by
  have runs (nodes : Array ScriptedValue) :
      ∃ rebuilt left, rebuild answer { id := ⟨0⟩ } ⟨ofNodes (.bool true) nodes, []⟩ =
          .ok rebuilt left ∧
        Outcome.result (rebuilt.ask answer (.value ⟨0⟩) left) = .ok (.bool true) ∧
        (rebuilt.after left (.value ⟨0⟩)).state.model? ⟨0⟩ =
          some ⟨[(⟨0⟩, .bool true)], nodes, false⟩ := by
    with_unfolding_all exact ⟨_, _, rfl, rfl, rfl⟩
  rcases runs (fullTable (.bool true)) with ⟨rebuilt, left, builds, reads, found⟩
  refine ⟨fun _ _ => ?_, ⟨rebuilt, left, builds, reads, fun read => ?_⟩, ?_⟩
  · exact rebuild_ne_ok_of_full rfl rfl (List.cons_ne_nil _ _) (size_fullTable _)
  · cases absent_of_full found (size_fullTable _) read
  · with_unfolding_all exact ⟨_, _, rfl, rfl⟩

end Model

end SmtModel
