import SmtModel.Proofs.Scripted.Agreement
import SmtModel.Proofs.Scripted.Ownership
import SmtModel.Proofs.Scripted.Persistence

/-!
# Stable answers

A query that was answered is answered in the same way again, with the same constants in its
answer, whatever happens in between that spares its model (`SmtModel.Client.query_stable`).
What a value is read as is settled by the value, the types and the first matching
constants, so this follows from the agreement of readings with evaluations and from
what the solver remembers. Every other query is one call, on a term or after a check of terms.
-/

namespace SmtModel

namespace ScriptedSolver

/-- Fills a vector with terms if a check of them succeeds. -/
def fillChecked (check : Step Int32) (terms : List TermId) (vector : VectorId) : Step Int32 := do
  let status ← check
  if status ≠ statusFailed then
    setVector vector (.terms terms)
  return status

/-- Whether a term is in the table, and is a variable. -/
def isVariable (solver : ScriptedSolver) (term : TermId) : Bool :=
  (solver.term? term).any ScriptedTerm.isVariable

/-- What is checked before formulas are generalized. -/
def checkGeneralized (model : ModelId) (formulas eliminated : List TermId) : Step Int32 := do
  match eliminated.find? (!(← get).isVariable ·) with
  | some term =>
    complainOf .generalizationFailed term
    return statusFailed
  | none => requireAll model .generalizationFailed formulas

section Filling

variable {check : Step Int32} {terms : List TermId} {vector : VectorId} {solver : ScriptedSolver}
  {status : Int32}

theorem fillChecked_of_check (checked : check solver = .ok status solver)
    (accepted : status ≠ statusFailed) :
    fillChecked check terms vector solver =
      .ok status (solver.withVector vector (some (.terms terms))) := by
  unfold fillChecked
  rw [Outcome.bind_of_ok checked]
  simp only [ne_eq, accepted, not_false_eq_true, if_true]
  rfl

theorem check_of_fillChecked {left : ScriptedSolver}
    (filled : fillChecked check terms vector solver = .ok status left) :
    ∃ reached, check solver = .ok status reached := by
  unfold fillChecked at filled
  rcases Outcome.bind_eq_ok.mp filled with ⟨status', reached, checked, ended⟩
  refine ⟨reached, checked.trans ?_⟩
  split at ended <;> cases ended <;> rfl

theorem implicants_run (live : solver.IsLive vector) (call : Call) (model : ModelId)
    (formulas : List TermId) :
    implicants call model formulas vector solver =
      attempt call statusFailed
        (fillChecked (requireAll model .noImplicant formulas) formulas vector) solver :=
  checked_eq live _

theorem generalize_run (live : solver.IsLive vector) (call : Call) (model : ModelId)
    (formulas eliminated : List TermId) :
    generalize call model formulas eliminated vector solver =
      attempt call statusFailed
        (fillChecked (checkGeneralized model formulas eliminated) formulas vector) solver := by
  refine (checked_eq live _).trans (congrArg (attempt call statusFailed · solver) ?_)
  funext solver
  unfold fillChecked checkGeneralized
  have sameSearch :
      eliminated.find? (fun term => !(solver.term? term).any ScriptedTerm.isVariable) =
        eliminated.find? (!solver.isVariable ·) := rfl
  rw [bind_assoc, get_bind, get_bind]
  dsimp only
  rw [sameSearch]
  cases eliminated.find? (!solver.isVariable ·) <;> rfl

theorem checkGeneralized_persists {id : ModelId} (formulas eliminated : List TermId) :
    Persists id (· = statusFailed) (checkGeneralized id formulas eliminated) := by
  intro earlier status left ran accepted
  unfold checkGeneralized at ran ⊢
  rw [get_bind] at ran
  cases searched : eliminated.find? (!earlier.isVariable ·) with
  | some term =>
      simp only [searched] at ran
      cases ran
      cases accepted
  | none =>
      simp only [searched] at ran
      rcases requireAll_persists _ formulas earlier status left ran accepted with ⟨rfl, again⟩
      refine ⟨rfl, fun later remembers => ?_⟩
      have stillVariables : eliminated.find? (!later.isVariable ·) = none := by
        simp only [List.find?_eq_none, Bool.not_eq_true, Bool.not_eq_false', isVariable,
          Option.any_eq_true] at searched ⊢
        intro term isEliminated
        rcases searched term isEliminated with ⟨entry, known, isVariable⟩
        exact ⟨entry, remembers.term? known, isVariable⟩
      rw [get_bind]
      simp only [stillVariables]
      exact again later remembers

end Filling

end ScriptedSolver

open ScriptedSolver

namespace Action

variable {α : Type} {start later : Traced ScriptedSolver}

/-! ## Collected terms -/

/-- The start of what is done with a fresh vector of terms. -/
abbrev opening (start : Traced ScriptedSolver) : Traced ScriptedSolver :=
  start.map (·.withNextVector (.terms []) .withTermsMade)

section TermVectors

variable {body : VectorId → Action ScriptedSolver α} {result : α}

theorem of_ensuring {body : Action ScriptedSolver α} {cleanup : Action ScriptedSolver Unit}
    {left : Traced ScriptedSolver} (ran : ensuring body cleanup start = .ok result left) :
    ∃ middle, body start = .ok result middle := by
  unfold ensuring at ran
  cases ended : body start with
  | ok value middle =>
      simp only [ended] at ran
      cases cleaned : cleanup middle with
      | ok _ reached =>
          simp only [cleaned] at ran
          cases ran
          exact ⟨middle, rfl⟩
      | error stop reached => simp [cleaned] at ran
  | error stop middle =>
      cases stop <;> simp only [ended] at ran <;> split at ran <;> cases ran

theorem withTermVector_of_ok (middle : Traced ScriptedSolver)
    (ran : body start.state.nextVector (opening start) = .ok result middle)
    (live : middle.state.IsLive start.state.nextVector) :
    withTermVector answer body start =
      .ok result (middle.map (·.withoutVector start.state.nextVector .withTermsReleased)) := by
  have runs := withTermVector_run body start (by rw [ran]; exact live)
  rw [ran] at runs
  exact runs

theorem of_withTermVector {left : Traced ScriptedSolver}
    (ran : withTermVector answer body start = .ok result left) :
    ∃ middle, body start.state.nextVector (opening start) = .ok result middle := by
  unfold withTermVector at ran
  rw [Outcome.bind_of_ok (ask_of_ok (answer_newTermVector start.state))] at ran
  exact of_ensuring ran

end TermVectors

section Collecting

variable {name : Call} {check : Step Int32} {terms : List TermId}
  {fill : VectorId → Action ScriptedSolver Int32}

/-- The ending of a step of the solver as that of an action. -/
def ofStep (events : List Event) :
    EStateM.Result Fault ScriptedSolver α → EStateM.Result Stop (Traced ScriptedSolver) α
  | .ok result left => .ok result ⟨left, events⟩
  | .error fault left => .error (.fault fault) ⟨left, events⟩

theorem ask_run (request : Request) (traced : Traced ScriptedSolver) :
    ask answer request traced = ofStep traced.events (answer request traced.state) := by
  cases answered : answer request traced.state with
  | ok reply left => exact ask_of_ok answered
  | error fault left => exact ask_of_error answered

/-- Filling a vector is an attempt at a check. -/
def Fills (name : Call) (check : Step Int32) (terms : List TermId)
    (fill : VectorId → Action ScriptedSolver Int32) : Prop :=
  ∀ (traced : Traced ScriptedSolver) vector, traced.state.IsLive vector →
    fill vector traced =
      ofStep traced.events
        (attempt name statusFailed (fillChecked check terms vector) traced.state)

section Fills

variable (model : ModelId) (formula : TermId) (formulas eliminated : List TermId)
  (mode : GeneralizationMode)

theorem fills_implicant :
    Fills .implicant (requireAll model .noImplicant [formula]) [formula]
      fun vector => ask answer (.implicant model formula vector) :=
  fun traced _ live =>
    (ask_run _ traced).trans (congrArg (ofStep traced.events) (implicants_run live ..))

theorem fills_implicants :
    Fills .implicants (requireAll model .noImplicant formulas) formulas
      fun vector => ask answer (.implicants model formulas vector) :=
  fun traced _ live =>
    (ask_run _ traced).trans (congrArg (ofStep traced.events) (implicants_run live ..))

theorem fills_generalize :
    Fills .generalize (checkGeneralized model [formula] eliminated) [formula]
      fun vector => ask answer (.generalize model formula eliminated mode vector) :=
  fun traced _ live =>
    (ask_run _ traced).trans (congrArg (ofStep traced.events) (generalize_run live ..))

theorem fills_generalizeAll :
    Fills .generalizeAll (checkGeneralized model formulas eliminated) formulas
      fun vector => ask answer (.generalizeAll model formulas eliminated mode vector) :=
  fun traced _ live =>
    (ask_run _ traced).trans (congrArg (ofStep traced.events) (generalize_run live ..))

end Fills

theorem termVectorElements_of_filled {solver : ScriptedSolver} {vector : VectorId}
    (filled : solver.vector? vector = some (.terms terms)) :
    answer (.termVectorElements vector) solver = .ok terms solver := by
  have looked : answer (.termVectorElements vector) solver =
      .ok (((solver.vector? vector).map VectorContents.termList).getD []) solver := rfl
  rw [looked, filled]
  rfl

theorem isLive_opening (start : Traced ScriptedSolver) :
    (opening start).state.IsLive start.state.nextVector :=
  isLive_withNextVector.mpr (Or.inl rfl)

theorem collectTerms_of_filled {filled : Traced ScriptedSolver} {status : Int32}
    (ran : fill start.state.nextVector (opening start) = .ok status filled)
    (accepted : status ≠ statusFailed)
    (found : filled.state.vector? start.state.nextVector = some (.terms terms)) :
    Model.collectTerms answer name fill start =
      .ok terms (filled.map (·.withoutVector start.state.nextVector .withTermsReleased)) := by
  unfold Model.collectTerms
  refine withTermVector_of_ok filled ?_ ?_
  · have checked : (checkStatus answer name status : Action ScriptedSolver Unit) = pure () :=
      if_neg accepted
    rw [Outcome.bind_of_ok ran, checked]
    exact ask_of_ok (termVectorElements_of_filled found)
  · rw [IsLive, found]
    rfl

theorem collectTerms_of_check (fills : Fills name check terms fill)
    (free : name ∉ start.state.failing) {status : Int32} (accepted : status ≠ statusFailed)
    (checked : check (withCall name (opening start).state) =
      .ok status (withCall name (opening start).state)) :
    ∃ left, Model.collectTerms answer name fill start = .ok terms left := by
  have free : name ∉ (opening start).state.failing := free
  have live := isLive_opening start
  have ran := fills (opening start) _ live
  rw [attempt_of_not_mem free, fillChecked_of_check checked accepted] at ran
  exact ⟨_, collectTerms_of_filled ran accepted ((vector?_withVector live _ _).trans (if_pos rfl))⟩

theorem check_of_collectTerms {id : ModelId} (persists : Persists id (· = statusFailed) check)
    (fills : Fills name check terms fill) {result : List TermId} {left : Traced ScriptedSolver}
    (ran : Model.collectTerms answer name fill start = .ok result left) :
    ∃ status, status ≠ statusFailed ∧ name ∉ start.state.failing ∧
      check (withCall name (opening start).state) =
        .ok status (withCall name (opening start).state) := by
  rcases of_withTermVector ran with ⟨middle, inside⟩
  rcases Outcome.bind_eq_ok.mp inside with ⟨status, reached, filled, checked⟩
  have accepted : status ≠ statusFailed := by
    rintro rfl
    rw [checkStatus, if_pos rfl, Checks.failCall_bind] at checked
    exact failCall_ne_ok checked
  have runs := fills (opening start) _ (isLive_opening start)
  rw [filled] at runs
  by_cases scripted : name ∈ (opening start).state.failing
  · rw [attempt_of_mem scripted] at runs
    cases runs
    exact absurd rfl accepted
  rw [attempt_of_not_mem scripted] at runs
  refine ⟨status, accepted, scripted, ?_⟩
  cases filling : fillChecked check terms start.state.nextVector
      (withCall name (opening start).state) with
  | error fault left =>
      rw [filling] at runs
      cases runs
  | ok status' left =>
      rw [filling] at runs
      cases runs
      rcases check_of_fillChecked filling with ⟨reached, checked⟩
      rw [(persists _ _ _ checked (decide_eq_false accepted)).1] at checked
      exact checked

/-- Terms that were collected after a check are collected again. -/
theorem collectTerms_again {id : ModelId} (persists : Persists id (· = statusFailed) check)
    (fills : Fills name check terms fill) (free : name ∉ later.state.failing)
    (remembers : Remembers id start.state later.state) :
    Again start later (Model.collectTerms answer name fill) := by
  intro result left ran
  rcases check_of_collectTerms persists fills ran with ⟨status, accepted, freeBefore, checked⟩
  have before : Remembers id (withCall name (opening start).state) start.state :=
    .of_tables_eq rfl rfl rfl
  have after : Remembers id later.state (withCall name (opening later).state) :=
    .of_tables_eq rfl rfl rfl
  have again := (persists _ _ _ checked (decide_eq_false accepted)).2 _
    ((before.trans remembers).trans after)
  rcases collectTerms_of_check fills freeBefore accepted checked with ⟨left', same⟩
  cases ran.symm.trans same
  exact collectTerms_of_check fills free accepted again

end Collecting

/-! ## Defined terms -/

section DefinedTerms

variable {model : Model}

theorem definedTerms_run {solver : ScriptedSolver} {vector : VectorId} {live : ScriptedModel}
    (isLive : solver.IsLive vector) (free : .definedTerms ∉ solver.failing)
    (found : solver.model? model.id = some live) :
    definedTerms model.id vector solver =
      .ok () ((withCall .definedTerms solver).withVector vector
        (some (.terms (live.assignment.map (·.1))))) := by
  have found : (withCall .definedTerms solver).model? model.id = some live := found
  have listed : attempt .definedTerms [] (do return (← liveModel model.id).assignment.map (·.1))
      solver = .ok (live.assignment.map (·.1)) (withCall .definedTerms solver) := by
    rw [attempt_of_not_mem free, Outcome.bind_of_ok (liveModel_of_some found)]
    rfl
  rw [definedTerms, checked_eq isLive, Outcome.bind_of_ok listed]
  rfl

theorem ask_definedTerms_of_some {live : ScriptedModel}
    (found : start.state.model? model.id = some live) (free : .definedTerms ∉ start.state.failing) :
    ∃ left, model.ask answer .definedTerms start = .ok (live.assignment.map (·.1)) left ∧
      SameTables start.state left.state := by
  have isLive := isLive_opening start
  have ran : answer (.definedTerms model.id start.state.nextVector) (opening start).state = _ :=
    definedTerms_run isLive free found
  have stillLive : (withCall .definedTerms (opening start).state).IsLive start.state.nextVector :=
    isLive
  let left := (withCall .definedTerms (opening start).state).withVector start.state.nextVector
    (some (.terms (live.assignment.map (·.1))))
  have filled : left.vector? start.state.nextVector = _ :=
    (vector?_withVector stillLive _ _).trans (if_pos rfl)
  let closed := left.withoutVector start.state.nextVector .withTermsReleased
  have collected : model.ask answer .definedTerms start =
      .ok (live.assignment.map (·.1)) ⟨closed, start.events⟩ := by
    refine withTermVector_of_ok ⟨left, start.events⟩ ?_ ?_
    · rw [Outcome.bind_of_ok (ask_of_ok ran)]
      exact ask_of_ok (termVectorElements_of_filled filled)
    · rw [IsLive, filled]
      rfl
  have filling : SameTables start.state left :=
    ((sameTables_withNextVector start.state _ _).trans (sameTables_withCall _ _)).trans
      (sameTables_withVector ..)
  exact ⟨_, collected, filling.trans (sameTables_withoutVector ..)⟩

/-- The terms that are defined in a model stay the same ones. -/
theorem ask_definedTerms_again (free : .definedTerms ∉ start.state.failing)
    (freeAgain : .definedTerms ∉ later.state.failing)
    (remembers : Remembers model.id start.state later.state) :
    Again start later (model.ask answer .definedTerms) := by
  intro result left ran
  cases found : start.state.model? model.id with
  | some live =>
      rcases remembers.model live found with ⟨nodes, foundAgain⟩
      rcases ask_definedTerms_of_some found free with ⟨left', same, -⟩
      cases ran.symm.trans same
      rcases ask_definedTerms_of_some foundAgain freeAgain with ⟨leftAgain, again, -⟩
      exact ⟨leftAgain, again⟩
  | none =>
      rcases of_withTermVector ran with ⟨middle, inside⟩
      rcases Outcome.bind_eq_ok.mp inside with ⟨_, reached, asked, -⟩
      have answered : definedTerms model.id start.state.nextVector (opening start).state =
          .ok () reached.state := answer_of_ask asked
      have free : .definedTerms ∉ (opening start).state.failing := free
      have missing : (withCall .definedTerms (opening start).state).model? model.id = none := found
      rw [definedTerms, checked_eq (isLive_opening start)] at answered
      rcases Outcome.bind_eq_ok.mp answered with ⟨terms, _, listed, -⟩
      rw [attempt_of_not_mem free, Outcome.bind_of_error (liveModel_of_none missing)] at listed
      cases listed

end DefinedTerms

end Action

namespace Model

open SmtModel.Action

variable {model model' : Model} {start later left : Traced ScriptedSolver}

theorem value?_of_read {term : TermId} {result : Value}
    (ran : model.read answer term start = .ok result left) :
    ∃ value, start.state.value? model.id term = some value := by
  cases assigned : start.state.value? model.id term with
  | some value => exact ⟨value, rfl⟩
  | none =>
      rcases read_of_value?_eq_none assigned with ⟨stop, left', ended, -⟩
      cases ended.symm.trans ran

/-- A value that was read is read again, with the same constants in it. -/
theorem read_again (same : model'.id = model.id) (more : model.limit.levels ≤ model'.limit.levels)
    {term : TermId} {result : Value} (ran : model.read answer term start = .ok result left)
    (calm : later.state.failing = [])
    (remembersStart : Remembers model.id start.state later.state)
    (remembers : Remembers model.id left.state later.state)
    (room : (Outcome.state (model'.read answer term later)).state.HasRoom model.id) :
    ∃ left', model'.read answer term later = .ok result left' := by
  rcases value?_of_read ran with ⟨value, assigned⟩
  have assignedAgain := remembersStart.value? assigned
  have follows := read_follows assigned
  rw [← same] at assignedAgain
  have followsAgain := read_follows assignedAgain
  rw [← same] at room remembers
  have agreesAgain := followsAgain.agrees room
  have roomLeft : left.state.HasRoom model.id :=
    same ▸ remembers.hasRoom (followsAgain.grows.hasRoom room)
  rw [ran] at follows
  have agrees := follows.agrees roomLeft
  generalize evaluated : value.evaluate model.limit model.limit.levels start.state.lexicon = ending
    at agrees
  cases agrees with
  | ok _ _ _ holds =>
      cases holds
      have settles : Evaluation.Settles False (value.evaluate model.limit model.limit.levels)
          (value.evaluate model'.limit model'.limit.levels) :=
        ScriptedValue.evaluate_settles more False.elim value
      have evaluatedAgain := settles.ok _ _ _ evaluated later.state.lexicon
        ⟨remembers.types, remembers.terms⟩
      generalize evaluated' : value.evaluate model'.limit model'.limit.levels later.state.lexicon =
        ending' at agreesAgain
      generalize model'.read answer term later = readAgain at agreesAgain
      cases agreesAgain with
      | ok reached _ _ holds =>
          have sameValue := (EStateM.Result.ok.inj (evaluatedAgain.symm.trans evaluated')).1
          exact ⟨reached, by rw [sameValue, holds]⟩
      | stopped => cases evaluatedAgain.symm.trans evaluated'
      | scripted some => exact absurd calm some

/-- A query extends the tables, whatever model it is about. -/
theorem ask_extends (model : Model) (query : Query) (start : Traced ScriptedSolver) :
    Extends start.state (Outcome.state (model.ask answer query start)).state := by
  have respects : Respects answer (Extends start.state) (fun _ => True)
      (Request.IsOfQuery model.id) := by
    refine ⟨fun {request state} made extends' => extends'.trans ?_, fun _ _ _ => trivial⟩
    apply answer_extends
    · rintro rfl
      rcases made with made | made | made <;> cases made
    · rintro freed rfl
      rcases made with made | made | made <;> cases made
  exact (ask_ensures respects trivial query start (.refl _)).kept

/-- What a query was answered with, it is answered with again, if the solver remembers the model and
no call is scripted to fail. The limit of depth may have risen. -/
theorem ask_again (same : model'.id = model.id) (more : model.limit.levels ≤ model'.limit.levels)
    {query : Query} (reads : ∀ term, query ≠ .valueAsTerm term) {result : query.Answer}
    (ran : model.ask answer query start = .ok result left) (calm : start.state.failing = [])
    (calmAgain : later.state.failing = []) (remembers : Remembers model.id left.state later.state)
    (room : (Outcome.state (model'.ask answer query later)).state.HasRoom model.id) :
    ∃ left', model'.ask answer query later = .ok result left' := by
  have before := model.ask_extends query start
  rw [ran] at before
  have whole := (Remembers.of_extends before).trans remembers
  have free (name : Call) : name ∉ start.state.failing := by simp [calm]
  have freeAgain (name : Call) : name ∉ later.state.failing := by simp [calmAgain]
  rcases model' with ⟨id, limit'⟩
  subst same
  cases query with
  | value term =>
      have sameId : (Model.mk model.id limit').id = model.id := rfl
      exact read_again sameId more ran calmAgain whole remembers room
  | valueAsTerm term => exact absurd rfl (reads term)
  | bool term =>
      exact call_again_map (.boolValue model.id term 0) (.reply _) (fun truth => (truth ≠ 0 : Bool))
        (fun _ _ => readTerm_again (freeAgain _) whole) _ _ ran
  | integer term =>
      exact call_again (.int64Value ..) (.reply _)
        (fun _ _ => readTerm_again (freeAgain _) whole) _ _ ran
  | fraction term =>
      exact call_again_map (.rational64Value model.id term (0, 0)) (.reply _)
        (fun words => Fraction.ofWords words.1 words.2)
        (fun _ _ => readTerm_again (freeAgain _) whole) _ _ ran
  | float term =>
      exact call_again (.doubleValue ..) (.reply _)
        (fun _ _ => readTerm_again (freeAgain _) whole) _ _ ran
  | scalar term =>
      exact call_again (.scalarValue ..) (.reply _)
        (fun _ _ => readTerm_again (freeAgain _) whole) _ _ ran
  | holds formula =>
      exact call_again (.formulaHolds ..) (.truth _)
        (fun _ _ => attempt_again (freeAgain _) whole _ (truth_persists _) rfl) _ _ ran
  | allHold formulas =>
      exact call_again (.formulasHold ..) (.truth _)
        (fun _ _ => attempt_again (freeAgain _) whole _ (conjunction_persists _) rfl) _ _ ran
  | definedTerms => exact ask_definedTerms_again (free _) (freeAgain _) whole _ _ ran
  | implicant formula =>
      exact collectTerms_again (requireAll_persists _ _) (fills_implicant model.id formula)
        (freeAgain _) whole _ _ ran
  | implicants formulas =>
      exact collectTerms_again (requireAll_persists _ _) (fills_implicants model.id formulas)
        (freeAgain _) whole _ _ ran
  | generalize formula eliminated mode =>
      exact collectTerms_again (checkGeneralized_persists _ _)
        (fills_generalize model.id formula eliminated mode) (freeAgain _) whole _ _ ran
  | generalizeAll formulas eliminated mode =>
      exact collectTerms_again (checkGeneralized_persists _ _)
        (fills_generalizeAll model.id formulas eliminated mode) (freeAgain _) whole _ _ ran

end Model

/-! ## Moves in between -/

/-- The solver is not reset, the model is not disposed of, and its limit of depth is not lowered. -/
def Move.Spares (model : Model) : Move → Prop
  | .operate (.service .reset) => False
  | .operate (.dispose id) => id ≠ model.id
  | .operate (.limitDepth id levels) => id = model.id → levels = 0 ∨ model.limit.levels ≤ levels
  | _ => True

theorem Model.levels_withLimit (model : Model) {levels : Nat} {limited : Model}
    (limits : model.withLimit levels = .ok limited) :
    0 < levels ∧ limited.limit.levels = levels := by
  simp only [withLimit, DepthLimit.ofLevels] at limits
  split at limits <;> cases limits
  exact ⟨‹_›, rfl⟩

namespace Client

/-- A client that still owns a model, of which its solver remembers what it was in an earlier
state. -/
structure Upholds (model : Model) (earlier : ScriptedSolver) (later : Client ScriptedSolver) :
    Prop where
  remembers : Remembers model.id earlier later.traced.state
  owned : ∃ model', later.find? model.id = some model' ∧ model.limit.levels ≤ model'.limit.levels

section Upholding

variable {model : Model} {earlier : ScriptedSolver} {client : Client ScriptedSolver}

theorem run_remembers {operation : Operation} (spares : (Move.operate operation).Spares model)
    {ending : Ending ScriptedSolver operation.Answer}
    (ran : run answer client operation = some ending) :
    Remembers model.id client.traced.state (Outcome.state ending).traced.state := by
  have others request (made : operation.Makes request) :
      request ≠ .reset ∧ request ≠ .freeModel model.id := by
    cases operation with
    | service service =>
        cases made
        cases service <;> first | exact spares.elim | simp [Service.request]
    | dispose id =>
        cases made
        refine ⟨nofun, fun same => spares ?_⟩
        cases same
        rfl
    | modelOfContext | modelOfPairs =>
        cases made
        exact ⟨nofun, nofun⟩
    | query => constructor <;> rintro rfl <;> cases made
    | limitDepth => cases made
  have respects : Respects answer (Remembers model.id client.traced.state) (fun _ => True)
      operation.Makes := by
    refine ⟨fun {request state} made remembers => remembers.trans ?_, fun _ _ _ => trivial⟩
    rcases made with made | rfl | rfl
    · exact answer_remembers (others request made).1 (others request made).2 state
    · exact .refl state
    · exact .of_tables_eq rfl rfl rfl
  exact (run_ensures respects trivial (.refl _) ran).1

theorem find?_perform {α β : Type} {action : Action ScriptedSolver α} {keep : α → List Model}
    {answer : α → β} {id : ModelId} {found : Option Model} (before : client.find? id = found)
    (kept : ∀ result, (keep result).find? (·.id = id) = found) :
    (Outcome.state (Ending.map answer (client.perform action keep))).find? id = found := by
  rcases client with ⟨traced, owned⟩
  simp only [perform]
  cases action traced with
  | ok result left => exact kept result
  | error stop left => exact before

theorem limited_owned {id : ModelId} {levels : Nat} {other limited model' : Model}
    (spares : (Move.operate (.limitDepth id levels)).Spares model)
    (limitedOf : client.find? id = some other) (limits : other.withLimit levels = .ok limited)
    (found : client.find? model.id = some model')
    (more : model.limit.levels ≤ model'.limit.levels) :
    ∃ model', (⟨client.traced, client.owned.map fun kept =>
        if kept.id = id then limited else kept⟩ : Client ScriptedSolver).find? model.id =
          some model' ∧ model.limit.levels ≤ model'.limit.levels := by
  have limitedId : limited.id = id := (other.id_withLimit limits).trans (id_of_find? _ limitedOf)
  have sameIds (kept : Model) :
      decide ((if kept.id = id then limited else kept).id = model.id) =
        decide (kept.id = model.id) := by
    by_cases isLimited : kept.id = id
    · rw [if_pos isLimited, limitedId, isLimited]
    · rw [if_neg isLimited]
  refine ⟨if model'.id = id then limited else model', ?_, ?_⟩
  · simp only [find?] at found ⊢
    rw [List.find?_map]
    simp only [Function.comp_def, sameIds, found, Option.map_some]
  · by_cases isLimited : model'.id = id
    · rw [if_pos isLimited]
      rcases other.levels_withLimit limits with ⟨positive, levels⟩
      have isModel : id = model.id := isLimited.symm.trans (id_of_find? _ found)
      rcases spares isModel with zero | notLower
      · omega
      · rw [levels]
        exact notLower
    · rw [if_neg isLimited]
      exact more

/-- A spared model stays owned, under a limit of depth that is not lower than it was. -/
theorem run_owned {operation : Operation} (spares : (Move.operate operation).Spares model)
    {ending : Ending ScriptedSolver operation.Answer}
    (ran : run answer client operation = some ending)
    (owned : ∃ model', client.find? model.id = some model' ∧
      model.limit.levels ≤ model'.limit.levels) :
    ∃ model', (Outcome.state ending).find? model.id = some model' ∧
      model.limit.levels ≤ model'.limit.levels := by
  rcases owned with ⟨model', found, more⟩
  have appended (new : Model) : (client.owned ++ [new]).find? (·.id = model.id) = some model' := by
    rw [List.find?_append]
    simp only [find?] at found
    rw [found]
    rfl
  cases operation with
  | service service =>
      have ran := (Ending.map_id _).trans (Option.some.inj ran)
      exact ⟨model', ran ▸ find?_perform found fun _ => found, more⟩
  | modelOfContext context keepSubstitution =>
      exact ⟨model', Option.some.inj ran ▸ find?_perform found appended, more⟩
  | modelOfPairs pairs =>
      exact ⟨model', Option.some.inj ran ▸ find?_perform found appended, more⟩
  | query id query =>
      cases asked : client.find? id with
      | none => simp [run, asked] at ran
      | some other =>
          simp only [run, asked, Option.bind_eq_bind, Option.bind_some, Option.pure_def] at ran
          have ran := (Ending.map_id _).trans (Option.some.inj ran)
          exact ⟨model', ran ▸ find?_perform found fun _ => found, more⟩
  | limitDepth id levels =>
      cases limitedOf : client.find? id with
      | none => simp [run, limitedOf] at ran
      | some other =>
          simp only [run, limitedOf, Option.bind_eq_bind, Option.bind_some] at ran
          cases limiting : other.withLimit levels with
          | error failure =>
              rw [limiting] at ran
              cases ran
              exact ⟨model', found, more⟩
          | ok limited =>
              rw [limiting] at ran
              cases ran
              exact limited_owned spares limitedOf limiting found more
  | dispose id =>
      cases disposed : client.find? id with
      | none => simp [run, disposed] at ran
      | some other =>
          rw [client.run_dispose disposed] at ran
          have differ : model.id ≠ id := fun same => spares same.symm
          have left := (client.find?_without differ · |>.trans found)
          split at ran <;> cases ran <;> exact ⟨model', left _, more⟩

theorem move_upholds {made : Move} (spares : made.Spares model)
    (upholds : Upholds model earlier client) :
    Upholds model earlier (client.move answer afterCommand made) := by
  cases made with
  | script command =>
      have commanded := afterCommand_commanded command client.traced.state
      exact ⟨upholds.remembers.trans (.of_commanded commanded), upholds.owned⟩
  | operate operation =>
      simp only [move]
      cases ran : run answer client operation with
      | none => exact upholds
      | some ending =>
          exact ⟨upholds.remembers.trans (run_remembers spares ran),
            run_owned spares ran upholds.owned⟩

theorem moves_uphold {moves : List Move} (spared : ∀ made ∈ moves, made.Spares model)
    (upholds : Upholds model earlier client) :
    Upholds model earlier (moves.foldl (move answer afterCommand) client) := by
  induction moves generalizing client with
  | nil => exact upholds
  | cons made moves ih =>
      rw [List.foldl_cons]
      rcases List.forall_mem_cons.mp spared with ⟨first, others⟩
      exact ih others (move_upholds first upholds)

end Upholding

/-- Answers are stable. What a query was answered with, it is answered with again after any moves
that spare its model, if no call is scripted to fail at either time and there is room for
all terms and nodes. Only the query for a constant term makes another term each time. -/
theorem query_stable {client left : Client ScriptedSolver} {model : Model} {query : Query}
    {result : query.Answer} (owned : client.find? model.id = some model)
    (reads : ∀ term, query ≠ .valueAsTerm term) (calm : client.traced.state.failing = [])
    (answered : run answer client (.query model.id query) = some (.ok result left))
    {moves : List Move} (spared : ∀ made ∈ moves, made.Spares model)
    (calmAgain : (moves.foldl (move answer afterCommand) left).traced.state.failing = []) :
    ∃ ending, run answer (moves.foldl (move answer afterCommand) left) (.query model.id query) =
        some ending ∧
      ((Outcome.state ending).traced.state.HasRoom model.id →
        ∃ last, ending = .ok result last) := by
  rcases client with ⟨start, models⟩
  simp only [run, owned, Option.bind_eq_bind, Option.bind_some, Option.pure_def, perform,
    Option.some.injEq] at answered
  cases ran : model.ask answer query start with
  | error stop middle =>
      rw [ran] at answered
      cases answered
  | ok result' middle =>
      rw [ran] at answered
      cases answered
      have upholds : Upholds model middle.state ⟨middle, models⟩ :=
        ⟨.refl _, model, owned, Nat.le_refl _⟩
      -- by now the client may own the model under a higher limit of depth
      rcases moves_uphold spared upholds with ⟨remembers, model', found, more⟩
      generalize moves.foldl (move answer afterCommand) ⟨middle, models⟩ = later at *
      rcases later with ⟨later, models'⟩
      refine ⟨_, by simp only [run, found, Option.bind_eq_bind, Option.bind_some]; rfl, ?_⟩
      intro room
      have same := id_of_find? _ found
      have roomAfter : (Outcome.state (model'.ask answer query later)).state.HasRoom model.id := by
        simp only [perform] at room
        cases ended : model'.ask answer query later with
        | ok | error =>
            rw [ended] at room
            exact room
      rcases Model.ask_again same more reads ran calm calmAgain remembers roomAfter with
        ⟨last, again⟩
      simp only [perform, again]
      exact ⟨_, rfl⟩

/-- A client that owns a model in which a term is the second of two elements. -/
def ofElement : Client ScriptedSolver :=
  session [.script (.declareType (.enumeration 2)), .script (.declareVariable ⟨0⟩),
    .script (.satisfiable [(⟨0⟩, .scalar ⟨0⟩ 1)]), .operate (.modelOfContext ⟨0⟩ false)]

/-- Moves that make more constants and another model, and a query that fails. -/
def busyMoves : List Move :=
  [.script (.declareConstant ⟨0⟩ (.scalar ⟨0⟩ 1)), .operate (.query ⟨0⟩ (.valueAsTerm ⟨0⟩)),
    .script (.failOn "yices_get_value"), .operate (.query ⟨0⟩ (.value ⟨0⟩)),
    .script .clearFailures, .operate (.modelOfContext ⟨0⟩ true), .operate (.dispose ⟨1⟩),
    .operate (.limitDepth ⟨0⟩ 2000)]

/-- The constant that the first reading of an element makes is the one that is read again. -/
theorem query_stable_ofElement :
    ∃ left last,
      run answer ofElement (.query ⟨0⟩ (.value ⟨0⟩)) = some (.ok (.scalar ⟨⟨1⟩, ⟨0⟩, 1⟩) left) ∧
      run answer (busyMoves.foldl (move answer afterCommand) left) (.query ⟨0⟩ (.value ⟨0⟩)) =
        some (.ok (.scalar ⟨⟨1⟩, ⟨0⟩, 1⟩) last) := by
  have runs : ∃ left ending,
      run answer ofElement (.query ⟨0⟩ (.value ⟨0⟩)) = some (.ok (.scalar ⟨⟨1⟩, ⟨0⟩, 1⟩) left) ∧
      (busyMoves.foldl (move answer afterCommand) left).traced.state.failing = [] ∧
      run answer (busyMoves.foldl (move answer afterCommand) left) (.query ⟨0⟩ (.value ⟨0⟩)) =
        some ending ∧
      (Outcome.state ending).traced.state.sizes = (4, some 2) := by
    with_unfolding_all exact ⟨_, _, rfl, rfl, rfl, rfl⟩
  rcases runs with ⟨left, ending, answered, calmAgain, ran, sized⟩
  have room := hasRoom_of_sizes sized (by decide) (by decide)
  have spared : ∀ made ∈ busyMoves, made.Spares { id := ⟨0⟩ } := by
    simp [busyMoves, Move.Spares, DepthLimit.standard]
  have reads (term : TermId) : (Query.value ⟨0⟩ : Query) ≠ .valueAsTerm term := by simp
  rcases query_stable rfl reads rfl answered spared calmAgain with ⟨ending', again, stable⟩
  cases ran.symm.trans again
  rcases stable room with ⟨last, rfl⟩
  exact ⟨left, last, answered, again⟩

end Client

end SmtModel
