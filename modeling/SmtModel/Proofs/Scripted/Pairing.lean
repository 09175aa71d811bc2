import SmtModel.Proofs.Scripted.Rebuilding

/-!
# Building a model from pairs

A list of pairs is an assignment if each of its variables is a declared variable, no two
of them are the same, and each is paired with a declared constant. From an assignment a
model is built, and otherwise the first pair that offends is complained about, and of the
pair the first thing that is wrong with it (`ScriptedSolver.Offends`). Then nothing has
been built.

In a model that was built, a variable has the value that its constant denotes, so
whatever is asked about the one is answered as it is for the other
(`SmtModel.Model.ofPairs_accepts`).
-/

namespace SmtModel

open ScriptedSolver

namespace ScriptedSolver

variable {solver : ScriptedSolver} {pairs before : List (TermId × TermId)}

/-! ## Legal pairs -/

/-- The value that a term denotes, if it is a constant. -/
def denoted? (solver : ScriptedSolver) (term : TermId) : Option ScriptedValue :=
  (solver.term? term).bind (·.constant?)

/-- Distinct declared variables, each of them paired with a declared constant. -/
structure Assigns (solver : ScriptedSolver) (pairs : List (TermId × TermId)) : Prop where
  nodup : (pairs.map (·.1)).Nodup
  targets : ∀ pair ∈ pairs, solver.isVariable pair.1 = true
  values : ∀ pair ∈ pairs, (solver.denoted? pair.2).isSome = true

/-- What is wrong with a pair that comes after others, and the term that it is wrong of. -/
inductive Offends (solver : ScriptedSolver) (before : List (TermId × TermId))
    (pair : TermId × TermId) : ErrorCode → TermId → Prop where
  | unknown (noTerm : solver.term? pair.1 = none) : Offends solver before pair .invalidTerm pair.1
  | constant (isConstant : (solver.denoted? pair.1).isSome = true) :
      Offends solver before pair .constantRequired pair.1
  | repeated (isVariable : solver.isVariable pair.1 = true)
      (isSeen : pair.1 ∈ before.map (·.1)) : Offends solver before pair .duplicateVariable pair.1
  | value (isVariable : solver.isVariable pair.1 = true) (isNew : pair.1 ∉ before.map (·.1))
      (noConstant : solver.denoted? pair.2 = none) :
      Offends solver before pair .constantRequired pair.2

/-- There are legal pairs first, and then one that offends. -/
def FirstOffends (solver : ScriptedSolver) (pairs : List (TermId × TermId)) (code : ErrorCode)
    (term : TermId) : Prop :=
  ∃ before pair rest, pairs = before ++ pair :: rest ∧ solver.Assigns before ∧
    solver.Offends before pair code term

theorem assigns_append_singleton {pair : TermId × TermId} (assigns : solver.Assigns before)
    (isVariable : solver.isVariable pair.1 = true) (isNew : pair.1 ∉ before.map (·.1))
    (isConstant : (solver.denoted? pair.2).isSome = true) :
    solver.Assigns (before ++ [pair]) where
  nodup := by
    rw [List.map_append, List.map_singleton, List.nodup_append]
    refine ⟨assigns.nodup, List.nodup_singleton _, fun earlier isEarlier later isLater same => ?_⟩
    rw [List.mem_singleton.mp isLater] at same
    exact isNew (same ▸ isEarlier)
  targets := List.forall_mem_append.mpr
    ⟨assigns.targets, List.forall_mem_singleton.mpr isVariable⟩
  values := List.forall_mem_append.mpr
    ⟨assigns.values, List.forall_mem_singleton.mpr isConstant⟩

/-- The variable of a pair is assigned the value that its constant denotes. -/
structure AssignedTo (solver : ScriptedSolver) (pair : TermId × TermId)
    (assigned : TermId × ScriptedValue) : Prop where
  target : assigned.1 = pair.1
  value : solver.denoted? pair.2 = some assigned.2

/-- The pairs that are looked at after legal ones are legal, or the first that offends is told. -/
theorem assignmentOf_spec (assigns : solver.Assigns before) (seen : List TermId)
    (isSeen : ∀ term, term ∈ seen ↔ term ∈ before.map (·.1)) :
    match assignmentOf solver seen pairs with
    | .ok assignment =>
        solver.Assigns (before ++ pairs) ∧ List.Forall₂ solver.AssignedTo pairs assignment
    | .error (code, term) => solver.FirstOffends (before ++ pairs) code term := by
  induction pairs generalizing before seen with
  | nil => exact ⟨by simpa using assigns, .nil⟩
  | cons pair pairs ih =>
      rcases pair with ⟨target, value⟩
      have offends {code : ErrorCode} {term : TermId}
          (offends : solver.Offends before (target, value) code term) :
          solver.FirstOffends (before ++ (target, value) :: pairs) code term :=
        ⟨before, (target, value), pairs, rfl, assigns, offends⟩
      unfold assignmentOf
      cases known : solver.term? target with
      | none => exact offends (.unknown known)
      | some entry =>
          dsimp only
          cases declared : entry.constant? with
          | some denoted =>
              have isConstant : (solver.denoted? target).isSome = true := by
                simp [denoted?, known, declared]
              simp only [ScriptedTerm.isVariable, declared]
              exact offends (.constant isConstant)
          | none =>
              have isVariable : solver.isVariable target = true := by
                simp [ScriptedSolver.isVariable, known, ScriptedTerm.isVariable, declared]
              simp only [ScriptedTerm.isVariable, declared]
              by_cases again : target ∈ seen
              · simp only [again, if_true]
                exact offends (.repeated isVariable ((isSeen target).mp again))
              · have isNew : target ∉ before.map (·.1) := fun old => again ((isSeen target).mpr old)
                simp only [again, if_false]
                cases denotes : (solver.term? value).bind (·.constant?) with
                | none => exact offends (.value isVariable isNew denotes)
                | some constant =>
                    have denoted : (solver.denoted? value).isSome = true := by
                      simp [denoted?, denotes]
                    have assigns : solver.Assigns (before ++ [(target, value)]) :=
                      assigns_append_singleton assigns isVariable isNew denoted
                    have spec := ih assigns (target :: seen) (by simp [isSeen, or_comm])
                    rw [List.append_assoc, List.singleton_append] at spec
                    dsimp only
                    cases others : assignmentOf solver (target :: seen) pairs with
                    | error offence =>
                        rw [others] at spec
                        exact spec
                    | ok assignment =>
                        rw [others] at spec
                        exact ⟨spec.1, .cons ⟨rfl, denotes⟩ spec.2⟩

theorem assignmentOf_nil_spec (solver : ScriptedSolver) (pairs : List (TermId × TermId)) :
    match assignmentOf solver [] pairs with
    | .ok assignment => solver.Assigns pairs ∧ List.Forall₂ solver.AssignedTo pairs assignment
    | .error (code, term) => solver.FirstOffends pairs code term := by
  have none : solver.Assigns [] := ⟨List.nodup_nil, nofun, nofun⟩
  exact assignmentOf_spec none [] fun _ => Iff.rfl

theorem targets_of_assignedTo {assignment : Assignment}
    (assigned : List.Forall₂ solver.AssignedTo pairs assignment) :
    assignment.map (·.1) = pairs.map (·.1) := by
  induction assigned with
  | nil => rfl
  | cons first _ ih => rw [List.map_cons, List.map_cons, first.target, ih]

theorem exists_assignedTo {assignment : Assignment}
    (assigned : List.Forall₂ solver.AssignedTo pairs assignment) :
    ∀ pair ∈ pairs, ∃ assigned ∈ assignment, solver.AssignedTo pair assigned := by
  induction assigned with
  | nil => nofun
  | cons first _ ih =>
      refine List.forall_mem_cons.mpr ⟨⟨_, List.mem_cons_self, first⟩, fun pair isPair => ?_⟩
      rcases ih pair isPair with ⟨assigned, isAssigned, assignedTo⟩
      exact ⟨assigned, List.mem_cons_of_mem _ isAssigned, assignedTo⟩

theorem denotes_of_denoted? {constant : TermId} {value : ScriptedValue}
    (denoted : solver.denoted? constant = some value) : solver.Denotes constant value :=
  Option.bind_eq_some_iff.mp denoted

theorem denoted?_of_isVariable {term : TermId} (isVariable : solver.isVariable term = true) :
    solver.denoted? term = none := by
  rcases (Option.any_eq_true _ _).mp isVariable with ⟨entry, known, isVariable⟩
  simp only [denoted?, known, Option.bind_some]
  exact Option.isNone_iff_eq_none.mp isVariable

/-- Pairs among which one offends are not legal. -/
theorem FirstOffends.not_assigns {code : ErrorCode} {term : TermId}
    (offends : solver.FirstOffends pairs code term) : ¬ solver.Assigns pairs := by
  rcases offends with ⟨before, pair, rest, rfl, -, offends⟩
  intro assigns
  have isPair : pair ∈ before ++ pair :: rest := List.mem_append_right _ List.mem_cons_self
  have isVariable := assigns.targets pair isPair
  cases offends with
  | unknown noTerm => simp [ScriptedSolver.isVariable, noTerm] at isVariable
  | constant isConstant => simp [denoted?_of_isVariable isVariable] at isConstant
  | repeated _ isSeen =>
      have nodup := assigns.nodup
      rw [List.map_append, List.map_cons, List.nodup_append] at nodup
      exact nodup.2.2 pair.1 isSeen pair.1 List.mem_cons_self rfl
  | value _ _ noConstant =>
      have isConstant := assigns.values pair isPair
      simp [noConstant] at isConstant

end ScriptedSolver

/-! ## Queries about single terms -/

/-- The ways in which the value of a term is asked for. -/
inductive Getter where
  | bool
  | integer
  | fraction
  | float
  | scalar
  | value
  | holds

/-- What a getter answers with. -/
abbrev Getter.Answer : Getter → Type
  | bool => Bool
  | integer => Int64
  | fraction => Fraction
  | float => Float
  | scalar => Int32
  | value => Value
  | holds => Bool

/-- There is room for what a model needs to answer. Only for the reading of a value is any needed. -/
def Getter.HasRoom (getter : Getter) (model : ModelId) (solver : ScriptedSolver) : Prop :=
  getter = .value → solver.HasRoom model

namespace Model

variable {model : Model} {term term' : TermId} {start later : Traced ScriptedSolver}

/-- Asks for the value of a term. -/
def get {σ : Type} (solver : Solver σ) (model : Model) :
    (getter : Getter) → TermId → Action σ getter.Answer
  | .bool, term => model.ask solver (.bool term)
  | .integer, term => model.ask solver (.integer term)
  | .fraction, term => model.ask solver (.fraction term)
  | .float, term => model.ask solver (.float term)
  | .scalar, term => model.ask solver (.scalar term)
  | .value, term => model.ask solver (.value term)
  | .holds, term => model.ask solver (.holds term)

theorem get_extends (model : Model) (getter : Getter) (term : TermId)
    (start : Traced ScriptedSolver) :
    Extends start.state (Outcome.state (model.get answer getter term start)).state := by
  cases getter with
  | bool => exact model.ask_extends (.bool term) start
  | integer => exact model.ask_extends (.integer term) start
  | fraction => exact model.ask_extends (.fraction term) start
  | float => exact model.ask_extends (.float term) start
  | scalar => exact model.ask_extends (.scalar term) start
  | value => exact model.ask_extends (.value term) start
  | holds => exact model.ask_extends (.holds term) start

/-- What a short query answers with is settled by the value of the term. -/
theorem exists_taken (value : ScriptedValue) {getter : Getter} (short : getter ≠ .value) :
    ∃ (name : Call) (outcome : Except Misfit getter.Answer),
      ∀ (model : Model) (start : Traced ScriptedSolver) (term : TermId),
        start.state.failing = [] → start.state.value? model.id term = some value →
          Outcome.result (model.get answer getter term start) =
            GetterAnswers.taken term name outcome := by
  have ended (model : Model) {start : Traced ScriptedSolver} {term : TermId}
      (calm : start.state.failing = []) (assigned : start.state.value? model.id term = some value)
      (query : Query) {verdict : Except Complaint query.Answer}
      (decided : query.verdict? start.state model.id = some verdict) :
      Outcome.result (model.ask answer query start) = verdict.mapError (·.stop query.call) := by
    rcases exists_model_of_value? assigned with ⟨live, found⟩
    exact (ask_concludes calm found decided).result_eq
  have taken {α : Type} {model : Model} {start : Traced ScriptedSolver} {term : TermId}
      (assigned : start.state.value? model.id term = some value)
      (take : ScriptedValue → Except Misfit α) (name : Call) :=
    GetterAnswers.taken_of_lookup (lookup_eq_ok_iff.mpr assigned) take name
  cases getter with
  | value => exact absurd rfl short
  | bool =>
      refine ⟨.boolValue, value.toBool, fun model start term calm assigned => ?_⟩
      exact (ended model calm assigned (.bool term) rfl).trans (taken assigned _ _)
  | integer =>
      refine ⟨.int64Value, value.toInt64, fun model start term calm assigned => ?_⟩
      exact (ended model calm assigned (.integer term) rfl).trans (taken assigned _ _)
  | fraction =>
      refine ⟨.rational64Value, value.toWords64.map fun words => .ofWords words.1 words.2,
        fun model start term calm assigned => ?_⟩
      exact (ended model calm assigned (.fraction term) rfl).trans
        (GetterAnswers.taken_map_of_lookup (lookup_eq_ok_iff.mpr assigned) _ _ _)
  | float =>
      refine ⟨.doubleValue, value.toFloat, fun model start term calm assigned => ?_⟩
      exact (ended model calm assigned (.float term) rfl).trans (taken assigned _ _)
  | scalar =>
      refine ⟨.scalarValue, value.toScalar.map (·.1), fun model start term calm assigned => ?_⟩
      exact (ended model calm assigned (.scalar term) rfl).trans
        (taken assigned (fun value => value.toScalar.map (·.1)) _)
  | holds =>
      refine ⟨.formulaHolds, value.toBool, fun model start term calm assigned => ?_⟩
      exact (ended model calm assigned (.holds term) rfl).trans (taken assigned _ _)

section Same

variable {value : ScriptedValue} (assigned : start.state.value? model.id term = some value)
  (assignedAgain : later.state.value? model.id term' = some value)

include assigned assignedAgain

theorem get_alike {getter : Getter} (short : getter ≠ .value) (calm : start.state.failing = [])
    (calmAgain : later.state.failing = []) :
    Alike (Outcome.result (model.get answer getter term start))
      (Outcome.result (model.get answer getter term' later)) := by
  rcases exists_taken value short with ⟨name, outcome, taken⟩
  rw [taken model start term calm assigned, taken model later term' calmAgain assignedAgain]
  cases outcome with
  | ok result => exact .ok result
  | error misfit => exact .error (.of_code rfl)

end Same

/-- In one state, terms with the same value are read in the same way. -/
theorem read_congr {value : ScriptedValue}
    (assigned : start.state.value? model.id term = some value)
    (assignedAgain : start.state.value? model.id term' = some value) :
    model.read answer term start = model.read answer term' start := by
  have looked : answer (.value model.id term .blank) start.state =
      answer (.value model.id term' .blank) start.state := by
    simp only [answer, ScriptedSolver.value]
    by_cases scripted : .value ∈ start.state.failing
    · rw [attempt_of_mem scripted, attempt_of_mem scripted]
    · have called : (withCall .value start.state).value? model.id term = some value := assigned
      have calledAgain : (withCall .value start.state).value? model.id term' = some value :=
        assignedAgain
      rw [attempt_of_not_mem scripted, attempt_of_not_mem scripted,
        Outcome.bind_of_ok (valueOf_of_some called),
        Outcome.bind_of_ok (valueOf_of_some calledAgain)]
  have asked : Action.ask answer (.value model.id term .blank) start =
      Action.ask answer (.value model.id term' .blank) start := by
    cases answered : answer (.value model.id term' .blank) start.state with
    | ok reply left =>
        rw [Action.ask_of_ok answered]
        exact Action.ask_of_ok (looked.trans answered)
    | error fault left =>
        rw [Action.ask_of_error answered]
        exact Action.ask_of_error (looked.trans answered)
  unfold read
  exact Outcome.bind_congr asked _

section Same

variable {value : ScriptedValue} (calm : start.state.failing = [])
  (assigned : start.state.value? model.id term = some value)
  (assignedAgain : start.state.value? model.id term' = some value)

include calm assigned assignedAgain

theorem get_alike_at (getter : Getter) :
    Alike (Outcome.result (model.get answer getter term start))
      (Outcome.result (model.get answer getter term' start)) := by
  by_cases full : getter = .value
  · rw [full]
    simp only [get, ask, read_congr assigned assignedAgain]
    exact .refl _
  · exact get_alike assigned assignedAgain full calm calm

theorem get_echoes (getter : Getter) :
    Echoes (getter.HasRoom model.id) start (model.get answer getter term)
      (model.get answer getter term') := by
  intro later queried room
  have grown : Extends start.state later.state :=
    (model.get_extends getter term start).trans queried.extends
  have remembers : Remembers model.id start.state later.state := .of_extends grown
  have assignedLater := remembers.value? assignedAgain
  by_cases full : getter = .value
  · rw [full] at queried room ⊢
    exact read_alike rfl assigned assignedLater calm queried.extends (room rfl) (room rfl)
  · exact get_alike assigned assignedLater full calm (grown.failing.trans calm)

end Same

/-! ## Models of pairs -/

/-- Each variable is asked about as its constant is, at once and one after the other, and the
variables are the terms that the model defines. -/
structure Mirrors (model : Model) (pairs : List (TermId × TermId))
    (start : Traced ScriptedSolver) : Prop where
  defined : Outcome.result (model.ask answer .definedTerms start) = .ok (pairs.map (·.1))
  alike : ∀ pair ∈ pairs, ∀ getter,
    Alike (Outcome.result (model.get answer getter pair.1 start))
      (Outcome.result (model.get answer getter pair.2 start))
  inTurn : ∀ pair ∈ pairs, ∀ getter,
    AlikeInTurn (getter.HasRoom model.id) start (model.get answer getter pair.1)
      (model.get answer getter pair.2)

theorem mirrors_of_value? {pairs : List (TermId × TermId)} {live : ScriptedModel}
    (calm : start.state.failing = []) (found : start.state.model? model.id = some live)
    (targets : live.assignment.map (·.1) = pairs.map (·.1))
    (same : ∀ pair ∈ pairs, ∃ value, start.state.value? model.id pair.1 = some value ∧
      start.state.value? model.id pair.2 = some value) : model.Mirrors pairs start := by
  constructor
  case defined =>
    have free : .definedTerms ∉ start.state.failing := by simp [calm]
    rcases Action.ask_definedTerms_of_some found free with ⟨left, collected, -⟩
    rw [collected, ← targets]
    rfl
  case alike =>
    intro pair isPair getter
    rcases same pair isPair with ⟨value, assigned, assignedAgain⟩
    exact get_alike_at calm assigned assignedAgain getter
  case inTurn =>
    intro pair isPair getter
    rcases same pair isPair with ⟨value, assigned, assignedAgain⟩
    exact ⟨get_echoes calm assigned assignedAgain getter,
      get_echoes calm assignedAgain assigned getter⟩

section OfPairs

variable {pairs : List (TermId × TermId)} (calm : start.state.failing = [])

include calm

/-- From legal pairs a model is built that assigns the values that the constants denote. -/
theorem ofPairs_of_assigns (assigns : start.state.Assigns pairs) :
    ∃ assignment built left, ofPairs answer pairs start = .ok built left ∧
      Extends start.state left.state ∧
      left.state.model? built.id = some ⟨assignment, #[], false⟩ ∧
      start.state.Declares assignment ∧
      List.Forall₂ start.state.AssignedTo pairs assignment := by
  have spec := assignmentOf_nil_spec start.state pairs
  cases accepted : assignmentOf start.state [] pairs with
  | error offence =>
      rw [accepted] at spec
      exact absurd assigns (FirstOffends.not_assigns spec)
  | ok assignment =>
      rw [accepted] at spec
      rcases ofPairs_of_assignmentOf calm accepted with ⟨built, left, builds, grown, found⟩
      exact ⟨assignment, built, left, builds, grown, found, (declares_of_assignmentOf accepted).1,
        spec.2⟩

/-- From other pairs none is built, and the first offence is told. -/
theorem ofPairs_of_not_assigns (offends : ¬ start.state.Assigns pairs) :
    ∃ (complaint : Complaint) (left : Traced ScriptedSolver),
      ofPairs answer pairs start = .error (complaint.stop .modelFromMap) left ∧
      start.state.FirstOffends pairs complaint.code complaint.term ∧
      SameTables start.state left.state := by
  have free : .modelFromMap ∉ start.state.failing := by simp [calm]
  have spec := assignmentOf_nil_spec start.state pairs
  have ran := modelFromMap_run free pairs
  cases accepted : assignmentOf start.state [] pairs with
  | ok assignment =>
      rw [accepted] at spec
      exact absurd spec.1 offends
  | error offence =>
      rcases offence with ⟨code, term⟩
      rw [accepted] at spec ran
      let complaint : Complaint := ⟨code, term, assignmentOf_ne_noError _ _ accepted⟩
      have failed : Concludes .modelFromMap start.state (.error complaint : Except Complaint Model)
          (ofPairs answer pairs start) := by
        unfold ofPairs
        rw [Outcome.bind_of_ok (Action.ask_of_ok ran), Action.checkHandle, Checks.failCall_bind]
        exact .failCall rfl (sameTables_withCall .modelFromMap start.state)
      generalize ended : ofPairs answer pairs start = ending at failed
      cases failed with
      | error same => exact ⟨complaint, _, rfl, spec, same⟩

end OfPairs

/-- Without scripted failures, a model is built from pairs if and only if they are distinct declared
variables and declared constants. From then on it defines the variables in their order, and each
is asked about as its constant is, under whatever limit of depth. Otherwise the failure tells of
the first pair that offends and of what is wrong with it first, and nothing has been built. -/
theorem ofPairs_accepts (calm : start.state.failing = []) (pairs : List (TermId × TermId)) :
    ((∃ built left, ofPairs answer pairs start = .ok built left) ↔ start.state.Assigns pairs) ∧
    (∀ built left, ofPairs answer pairs start = .ok built left →
      left.state.failing = [] ∧
      ∀ (limit : DepthLimit) (later : Traced ScriptedSolver),
        Remembers built.id left.state later.state → later.state.failing = [] →
          Mirrors { built with limit } pairs later) ∧
    ∀ stop left, ofPairs answer pairs start = .error stop left →
      ∃ complaint : Complaint, stop = complaint.stop .modelFromMap ∧
        start.state.FirstOffends pairs complaint.code complaint.term ∧
        SameTables start.state left.state := by
  by_cases assigns : start.state.Assigns pairs
  · rcases ofPairs_of_assigns calm assigns with
      ⟨assignment, built, left, builds, grown, found, declares, assigned⟩
    refine ⟨iff_of_true ⟨built, left, builds⟩ assigns, ?_, ?_⟩
    · intro built' left' builds'
      cases builds.symm.trans builds'
      refine ⟨grown.failing.trans calm, fun limit later remembers calmLater => ?_⟩
      rcases remembers.model _ found with ⟨nodes, foundLater⟩
      refine mirrors_of_value? calmLater foundLater (targets_of_assignedTo assigned) ?_
      intro pair isPair
      rcases exists_assignedTo assigned pair isPair with ⟨assigned, isAssigned, assignedTo⟩
      have declaresLeft := declares.of_extends grown
      have ofTarget := value?_of_declares found declaresLeft isAssigned
      have ofConstant := value?_of_constant found declaresLeft
        ((denotes_of_denoted? assignedTo.value).of_extends grown)
      rw [assignedTo.target] at ofTarget
      exact ⟨assigned.2, remembers.value? ofTarget, remembers.value? ofConstant⟩
    · intro stop left' fails
      cases builds.symm.trans fails
  · rcases ofPairs_of_not_assigns calm assigns with ⟨complaint, left, fails, offends, same⟩
    refine ⟨iff_of_false ?_ assigns, ?_, ?_⟩
    · rintro ⟨built, left', builds⟩
      cases fails.symm.trans builds
    · intro built left' builds
      cases fails.symm.trans builds
    · intro stop left' fails'
      cases fails.symm.trans fails'
      exact ⟨complaint, rfl, offends, same⟩

end Model

/-- A solver with a variable and a truth value. -/
def ScriptedSolver.ofVariableAndTruth : Traced ScriptedSolver where
  state :=
    { types := #[.bool]
      terms := #[⟨⟨0⟩, none⟩, ⟨⟨0⟩, some (.bool true)⟩] }
  events := []

/-- The variable may be paired with the truth value, but not twice. -/
theorem Model.ofPairs_accepts_truth :
    (∃ built left, ofPairs answer [(⟨0⟩, ⟨1⟩)] ofVariableAndTruth = .ok built left ∧
      built.Mirrors [(⟨0⟩, ⟨1⟩)] left ∧
      Outcome.result (built.get answer .value ⟨0⟩ left) = .ok (.bool true)) ∧
    ∃ (complaint : Complaint) (left : Traced ScriptedSolver),
      ofPairs answer [(⟨0⟩, ⟨1⟩), (⟨0⟩, ⟨1⟩)] ofVariableAndTruth =
        .error (complaint.stop .modelFromMap) left ∧
      complaint.code = .duplicateVariable ∧ complaint.term = ⟨0⟩ ∧
      SameTables ofVariableAndTruth.state left.state := by
  have builds : ∃ built left, ofPairs answer [(⟨0⟩, ⟨1⟩)] ofVariableAndTruth = .ok built left ∧
      Outcome.result (built.get answer .value ⟨0⟩ left) = .ok (.bool true) := by
    with_unfolding_all exact ⟨_, _, rfl, rfl⟩
  have fails : ∃ complaint left, ofPairs answer [(⟨0⟩, ⟨1⟩), (⟨0⟩, ⟨1⟩)] ofVariableAndTruth =
      .error (Complaint.stop complaint .modelFromMap) left ∧
      complaint.code = .duplicateVariable ∧ complaint.term = ⟨0⟩ := by
    with_unfolding_all exact ⟨⟨.duplicateVariable, ⟨0⟩, by decide⟩, _, rfl, rfl, rfl⟩
  rcases builds with ⟨built, left, builds, reads⟩
  rcases fails with ⟨complaint, left', fails, code, term⟩
  rcases (ofPairs_accepts rfl _).2.1 _ _ builds with ⟨calm, mirrors⟩
  rcases (ofPairs_accepts rfl _).2.2 _ _ fails with ⟨_, _, _, same⟩
  exact ⟨⟨built, left, builds, mirrors built.limit left (.refl _) calm, reads⟩, complaint, left',
    fails, code, term, same⟩

end SmtModel
