import SmtModel.Proofs.Scripted.Exceptions
import SmtModel.Proofs.Scripted.Verdicts

/-!
# Getters agree

The value of a term can be read in full, or it can be asked for as a truth value, an
integer, a fraction, a float or the place of a scalar. The two ways go through different
calls, and each of them decides by itself what is an integer and what is a fraction of
words. They agree all the same (`SmtModel.Model.getters_agree`), in whatever order the
answers are taken, and where a term has no value they complain of it alike. Only the full
reading makes nodes and needs room for them. Without room, or where a call is made to answer
what the solver does not, the two ways come apart (`SmtModel.Model.reading_disagrees`).

The full reading is what the scripted value is evaluated to. A result of one of the
basic kinds comes from a scripted value of the same kind alone
(`SmtModel.ScriptedValue.evaluate_isReadAs`), and this is what the other calls take from the
term itself. None of the answers changes what the next one is about
(`SmtModel.Model.series_steady`).
-/

namespace SmtModel

open ScriptedSolver

/-- A fraction is an integer of 64 bits, and then also a fraction of words; it is a fraction of
words only; or it is neither. -/
theorem Fraction.meaning_cases (fraction : Fraction) :
    (∃ word, fraction.int64? = some word ∧ fraction.words64? = some (word, 1) ∧
        fraction.meaning = .int word.toInt) ∨
      (∃ words, fraction.int64? = none ∧ fraction.words64? = some words ∧
        fraction.meaning = .rational (.ofWords words.1 words.2)) ∨
      (fraction.int64? = none ∧ fraction.words64? = none ∧
        fraction.meaning = .float fraction.toFloat) := by
  cases integer : fraction.int64? with
  | some word =>
      refine Or.inl ⟨word, rfl, ?_, fraction.meaning_of_int64? integer⟩
      simp only [int64?] at integer
      split_ifs at integer with one
      simp only [words64?, integer, one]
      rfl
  | none =>
      cases words : fraction.words64? with
      | some words' =>
          exact Or.inr (Or.inl ⟨words', rfl, rfl, fraction.meaning_of_words64? integer words⟩)
      | none => exact Or.inr (Or.inr ⟨rfl, rfl, fraction.meaning_of_large integer words⟩)

/-! ## Basic results -/

/-- Whether a value is of a kind that can be asked for by itself. -/
def Value.isBasic : Value → Bool
  | .bool _ | .int _ | .rational _ | .float _ | .scalar _ => true
  | _ => false

namespace Evaluation

variable {α β : Type} {holds : α → Prop}

/-- Every result has a property. -/
def Gives (holds : α → Prop) (evaluation : Evaluation α) : Prop :=
  ∀ start result left, evaluation start = .ok result left → holds result

namespace Gives

theorem pure {result : α} (has : holds result) : Gives holds (Pure.pure result) := by
  intro start result' left ended
  cases ended
  exact has

theorem fail (failure : Failure) : Gives holds (Evaluation.fail failure) := by
  intro start result left ended
  cases ended

theorem bind {first : Evaluation β} {next : β → Evaluation α}
    (after : ∀ result, Gives holds (next result)) : Gives holds (first >>= next) := by
  intro start result left ended
  rcases Outcome.bind_eq_ok.mp ended with ⟨middle, reached, -, ended⟩
  exact after middle reached result left ended

/-- Nothing comes of a value that is not of the kind that is asked for. -/
theorem of_misfit {name : Call} {misfit : Misfit} {next : β → Evaluation α} :
    Gives holds (take name (.error misfit) >>= next) := by
  intro start result left ended
  rcases Outcome.bind_eq_ok.mp ended with ⟨middle, reached, taken, -⟩
  cases taken

end Gives

end Evaluation

/-- Nothing but the call for a constant fails for want of one. -/
theorem Evaluation.stop_of_constant {type : TypeId} {index : Int32} {lexicon left : Lexicon}
    {stop : Stop} (ended : constant type index lexicon = .error stop left) :
    ∃ report, stop = .failure (.call Call.constant.name report) := by
  rcases constant_cases type index lexicon with ⟨error, -, refused⟩ | ⟨term, made, found, -⟩
  · cases refused.symm.trans ended
    exact ⟨_, rfl⟩
  · cases found.symm.trans ended

namespace ScriptedValue

open Evaluation

/-- Whether a scripted value is of a kind that can be asked for by itself. -/
def isBasic : ScriptedValue → Bool
  | .bool _ | .rational _ | .scalar .. => true
  | _ => false

section OtherKinds

variable {value : ScriptedValue} (other : value.isBasic = false)

include other

theorem toBool_of_other : value.toBool = .error .otherKind := by
  cases value <;> first | rfl | cases other

theorem toTruth_of_other : value.toTruth = .error .otherKind := by
  cases value <;> first | rfl | cases other

theorem toInt64_of_other : value.toInt64 = .error .otherKind := by
  cases value <;> first | rfl | cases other

theorem toWords64_of_other : value.toWords64 = .error .otherKind := by
  cases value <;> first | rfl | cases other

theorem toFloat_of_other : value.toFloat = .error .otherKind := by
  cases value <;> first | rfl | cases other

theorem toScalar_of_other : value.toScalar = .error .otherKind := by
  cases value <;> first | rfl | cases other

/-- What is of another kind is evaluated to something of another kind, if to anything. -/
theorem evaluateKind_of_other (limit : DepthLimit) (evaluate : ScriptedValue → Evaluation Value)
    (evaluateBelow? : Option (ScriptedValue → Evaluation Value)) :
    Gives (·.isBasic = false) (value.evaluateKind limit evaluate evaluateBelow?) := by
  unfold evaluateKind
  rcases NodeKind.ofTag? value.tag with _ | kind
  · exact .fail _
  cases kind with
  | unknown => exact .fail _
  | algebraic => exact .fail _
  | bool =>
      rw [toTruth_of_other other]
      exact .of_misfit
  | rational =>
      unfold evaluateRational
      rw [toInt64_of_other other, toWords64_of_other other, toFloat_of_other other]
      exact .of_misfit
  | scalar =>
      unfold evaluateScalar
      rw [toScalar_of_other other]
      exact .of_misfit
  | bitVector =>
      unfold evaluateBits
      by_cases empty : value.bitSize = 0
      · simp only [empty, if_true]
        exact .pure rfl
      · simp only [empty, if_false]
        exact .bind fun bits => .pure rfl
  | tuple =>
      unfold evaluateTuple
      by_cases empty : value.tupleArity = 0
      · simp only [empty, if_true]
        exact .pure rfl
      · simp only [empty, if_false]
        exact .bind fun items => .bind fun values => .pure rfl
  | mapping =>
      refine .bind fun point? => ?_
      cases point? with
      | none => exact .pure rfl
      | some point => exact .pure rfl
  | function =>
      unfold evaluateFunction
      by_cases empty : value.functionArity = 0
      · simp only [empty, if_true]
        exact .pure rfl
      · simp only [empty, if_false]
        exact .bind fun graph => .bind fun default => .bind fun function => .pure rfl

end OtherKinds

section Basic

variable {limit : DepthLimit} {room : Nat}

theorem evaluate_of_other {value : ScriptedValue} (other : value.isBasic = false) :
    Gives (·.isBasic = false) (value.evaluate limit room) := by
  cases room with
  | zero => exact .fail _
  | succ room =>
      rw [evaluate_succ]
      exact evaluateKind_of_other other limit _ _

theorem evaluate_bool (truth : Bool) :
    evaluate limit (room + 1) (.bool truth) = pure (.bool truth) := by
  rw [evaluate_succ]
  cases truth <;> rfl

theorem evaluate_rational (fraction : Fraction) :
    evaluate limit (room + 1) (.rational fraction) = pure fraction.meaning := by
  rw [evaluate_succ]
  change evaluateRational (.rational fraction) = _
  unfold evaluateRational toInt64 toWords64
  rcases fraction.meaning_cases with ⟨word, integer, words, meant⟩ |
    ⟨words', integer, words, meant⟩ | ⟨integer, words, meant⟩
  all_goals
    simp only [meant, integer, words]
    rfl

theorem evaluate_scalar (type : TypeId) (index : Int32) :
    evaluate limit (room + 1) (.scalar type index) = do
      return .scalar ⟨← constant type index, type, index⟩ := by
  rw [evaluate_succ]
  rfl

end Basic

/-- What is read for a scripted value: for one of the basic kinds a value of this kind, an element
without a constant apart, and for any other nothing of a basic kind. -/
inductive IsReadAs : ScriptedValue → Except Stop Value → Prop where
  | bool (truth : Bool) : IsReadAs (.bool truth) (.ok (.bool truth))
  | rational (fraction : Fraction) : IsReadAs (.rational fraction) (.ok fraction.meaning)
  | scalar (type : TypeId) (index : Int32) (constant : TermId) :
      IsReadAs (.scalar type index) (.ok (.scalar ⟨constant, type, index⟩))
  | noConstant (type : TypeId) (index : Int32) (report : ErrorReport) :
      IsReadAs (.scalar type index) (.error (.failure (.call Call.constant.name report)))
  | other {value : ScriptedValue} {ending : Except Stop Value} (isOther : value.isBasic = false)
      (noBasic : ∀ result, ending = .ok result → result.isBasic = false) : IsReadAs value ending

theorem evaluate_isReadAs (limit : DepthLimit) (value : ScriptedValue) (lexicon : Lexicon) :
    value.IsReadAs (Outcome.result (value.evaluate limit limit.levels lexicon)) := by
  rcases Nat.exists_eq_add_one.mpr limit.levels_pos with ⟨below, levels⟩
  rw [levels]
  cases basic : value.isBasic with
  | false =>
      refine .other basic fun result ended => ?_
      cases evaluated : value.evaluate limit (below + 1) lexicon with
      | ok result' left =>
          rw [evaluated] at ended
          cases ended
          exact evaluate_of_other basic _ _ _ evaluated
      | error stop left =>
          rw [evaluated] at ended
          cases ended
  | true =>
      cases value with
      | bool truth =>
          rw [evaluate_bool]
          exact .bool truth
      | rational fraction =>
          rw [evaluate_rational]
          exact .rational fraction
      | scalar type index =>
          rw [evaluate_scalar]
          cases ended : constant type index lexicon with
          | ok term left =>
              rw [Outcome.bind_of_ok ended]
              exact .scalar type index term
          | error stop left =>
              rcases stop_of_constant ended with ⟨report, rfl⟩
              rw [Outcome.bind_of_error ended]
              exact .noConstant type index report
      | _ => cases basic

end ScriptedValue

namespace Model

variable {model : Model} {term : TermId} {traced : Traced ScriptedSolver}

theorem read_isReadAs {value : ScriptedValue}
    (assigned : traced.state.value? model.id term = some value) (calm : traced.state.failing = [])
    (room : (Outcome.state (model.read answer term traced)).state.HasRoom model.id) :
    value.IsReadAs (Outcome.result (model.read answer term traced)) := by
  rw [((read_follows assigned).agrees room).result_eq calm]
  exact value.evaluate_isReadAs model.limit traced.state.lexicon

/-- A term that there is a complaint about is not read. -/
theorem read_concludes {live : ScriptedModel} (calm : traced.state.failing = [])
    (found : traced.state.model? model.id = some live) {complaint : Complaint}
    (refuses : traced.state.lookup model.id term = .error complaint) :
    Concludes .value traced.state (.error complaint : Except Complaint Value)
      (model.read answer term traced) := by
  have free : .value ∉ traced.state.failing := by simp [calm]
  have called : (withCall .value traced.state).model? model.id = some live := found
  have same := sameTables_withCall .value traced.state
  have looked : valueOf model.id term (withCall .value traced.state) =
      .ok none ((withCall .value traced.state).withComplaint complaint) := by
    rw [valueOf_run called, ← (same.looksSame term).lookup, refuses]
    rfl
  have answered : answer (.value model.id term .blank) traced.state =
      .ok (.failed .blank) ((withCall .value traced.state).withComplaint complaint) :=
    (attempt_of_not_mem free ..).trans (Outcome.bind_of_ok looked)
  have failed : (Action.checkReply answer .value (.failed Node.blank) : Action _ Node) =
      Action.failCall answer .value := (Checks.reply .value).refused (.failed Node.blank) rfl ..
  unfold read
  rw [Outcome.bind_of_ok (Action.ask_of_ok answered), failed, Checks.failCall_bind]
  exact .failCall rfl same

end Model

/-! ## Answers taken one after another -/

/-- Whether a query asks for the value of a term, in full or as one of the basic kinds. -/
def Query.AsksValueOf (term : TermId) : Query → Prop
  | .bool asked | .integer asked | .fraction asked | .float asked | .scalar asked => asked = term
  | .value asked | .holds asked => asked = term
  | _ => False

namespace ScriptedSolver

variable {solver : ScriptedSolver} {model : ModelId} {term : TermId}

theorem lookup_eq_ok_iff {value : ScriptedValue} :
    solver.lookup model term = .ok value ↔ solver.value? model term = some value := by
  unfold lookup
  cases known : solver.term? term with
  | none => simp [value?, known]
  | some entry => cases solver.value? model term <;> simp

/-- What is complained of in a look at a term is the term. -/
theorem term_of_lookup {complaint : Complaint}
    (looked : solver.lookup model term = .error complaint) : complaint.term = term := by
  unfold lookup at looked
  split at looked <;> cases looked <;> rfl

theorem isSome_of_lookup {value : ScriptedValue} (looked : solver.lookup model term = .ok value) :
    (solver.term? term).isSome = true := by
  unfold lookup at looked
  cases known : solver.term? term with
  | none => simp [known] at looked
  | some entry => rfl

/-- A variable has no value but an assigned one. -/
theorem lookup_of_unassigned {live : ScriptedModel} (found : solver.model? model = some live)
    (isVariable : solver.isVariable term = true)
    (unassigned : ∀ pair ∈ live.assignment, pair.1 ≠ term) :
    solver.lookup model term = .error ⟨.unknownTerm, term, by decide⟩ := by
  rcases (Option.any_eq_true _ _).mp isVariable with ⟨entry, known, isVariable⟩
  have noValue : live.assignment.find? (·.1 = term) = none :=
    List.find?_eq_none.mpr fun pair isPair => by simpa using unassigned pair isPair
  have noConstant : entry.constant? = none := Option.isNone_iff_eq_none.mp isVariable
  simp only [lookup, value?, known, found, noValue, noConstant, Option.bind_eq_bind,
    Option.bind_some, Option.map_none, Option.none_or]

/-- A later state in which no call is scripted to fail, and a term of a live model looks as it
did. -/
structure Steady (model : ModelId) (term : TermId) (earlier later : ScriptedSolver) : Prop where
  calm : later.failing = []
  live : (later.model? model).isSome = true
  looksSame : LooksSame earlier model later model term

end ScriptedSolver

namespace Model

variable {model : Model} {term : TermId} {earlier : ScriptedSolver}
  {start traced : Traced ScriptedSolver} {query : Query}

/-- What a query leaves. -/
def after (model : Model) (traced : Traced ScriptedSolver) (query : Query) :
    Traced ScriptedSolver :=
  Outcome.state (model.ask answer query traced)

/-- A query is one of a series, and this is what it was answered with in its turn. -/
def Answers (model : Model) (start : Traced ScriptedSolver) (series : List Query) (query : Query)
    (answered : Except Stop query.Answer) : Prop :=
  ∃ before later, series = before ++ query :: later ∧
    Outcome.result (model.ask answer query (before.foldl model.after start)) = answered

theorem verdict?_of_asksValueOf (about : query.AsksValueOf term)
    (same : LooksSame earlier model.id traced.state model.id term) :
    query.verdict? earlier model.id = query.verdict? traced.state model.id := by
  cases query <;> try cases about
  all_goals refine verdict?_congr ?_ nofun
  all_goals exact List.forall_mem_singleton.mpr same

theorem after_steady (about : query.AsksValueOf term)
    (steady : Steady model.id term earlier traced.state) :
    Steady model.id term earlier (model.after traced query).state := by
  rcases Option.isSome_iff_exists.mp steady.live with ⟨live, found⟩
  have unchanged (same : SameTables traced.state (model.after traced query).state) :
      Steady model.id term earlier (model.after traced query).state := by
    refine ⟨same.failing.trans steady.calm, ?_, steady.looksSame.trans (same.looksSame term)⟩
    simpa only [model?, same.models] using steady.live
  rcases query.exists_verdict found with ⟨asked, rfl⟩ | ⟨asked, rfl⟩ | ⟨verdict, decided⟩
  · rcases about
    cases looked : traced.state.lookup model.id term with
    | error complaint => exact unchanged (read_concludes steady.calm found looked).sameTables
    | ok value =>
        have grows := (read_follows (lookup_eq_ok_iff.mp looked)).grows
        rcases grows.models model.id live found with ⟨nodes, stillFound⟩
        have looksSame := grows.looksSame found stillFound rfl (isSome_of_lookup looked)
        exact ⟨grows.failing.trans steady.calm, Option.isSome_iff_exists.mpr ⟨_, stillFound⟩,
          steady.looksSame.trans looksSame⟩
  · exact about.elim
  · exact unchanged (ask_concludes steady.calm found decided).sameTables

section Series

variable {series : List Query} (about : ∀ query ∈ series, query.AsksValueOf term)

include about

theorem series_steady (steady : Steady model.id term earlier start.state) :
    Steady model.id term earlier (series.foldl model.after start).state := by
  induction series generalizing start with
  | nil => exact steady
  | cons query series ih =>
      rcases List.forall_mem_cons.mp about with ⟨first, others⟩
      exact ih others (after_steady first steady)

end Series

theorem series_extends (model : Model) (series : List Query) (start : Traced ScriptedSolver) :
    Extends start.state (series.foldl model.after start).state := by
  induction series generalizing start with
  | nil => exact .refl _
  | cons query series ih => exact (model.ask_extends query start).trans (ih _)

namespace Answers

variable {series : List Query} (about : ∀ query ∈ series, query.AsksValueOf term)
  (steady : Steady model.id term start.state start.state)

include about steady

/-- What is decided at the start stays the answer in the series. -/
theorem eq_verdict {answered : Except Stop query.Answer}
    (answers : model.Answers start series query answered)
    {verdict : Except Complaint query.Answer}
    (decided : query.verdict? start.state model.id = some verdict) :
    answered = verdict.mapError (·.stop query.call) := by
  rcases answers with ⟨before, later, rfl, rfl⟩
  rcases List.forall_mem_append.mp about with ⟨aboutBefore, aboutLater⟩
  have steady := series_steady aboutBefore steady
  rcases Option.isSome_iff_exists.mp steady.live with ⟨live, found⟩
  rw [verdict?_of_asksValueOf (aboutLater query List.mem_cons_self) steady.looksSame] at decided
  exact (ask_concludes steady.calm found decided).result_eq

variable {answered : Except Stop Value}
  (answers : model.Answers start series (.value term) answered)

include answers

theorem value_isReadAs {value : ScriptedValue}
    (looked : start.state.lookup model.id term = .ok value)
    (room : (series.foldl model.after start).state.HasRoom model.id) :
    value.IsReadAs answered := by
  rcases answers with ⟨before, later, rfl, rfl⟩
  rcases List.forall_mem_append.mp about with ⟨aboutBefore, -⟩
  have steady := series_steady aboutBefore steady
  rw [steady.looksSame.lookup] at looked
  rw [List.foldl_append, List.foldl_cons] at room
  exact read_isReadAs (lookup_eq_ok_iff.mp looked) steady.calm
    ((model.series_extends later _).hasRoom room)

theorem value_refused {complaint : Complaint}
    (looked : start.state.lookup model.id term = .error complaint) :
    answered = .error (complaint.stop .value) := by
  rcases answers with ⟨before, later, rfl, rfl⟩
  rcases List.forall_mem_append.mp about with ⟨aboutBefore, -⟩
  have steady := series_steady aboutBefore steady
  rcases Option.isSome_iff_exists.mp steady.live with ⟨live, found⟩
  rw [steady.looksSame.lookup] at looked
  exact (read_concludes steady.calm found looked).result_eq

end Answers

end Model

/-! ## Agreement -/

/-- Answers to the queries about the value of one term. -/
structure GetterAnswers where
  value : Except Stop Value
  bool : Except Stop Bool
  integer : Except Stop Int64
  fraction : Except Stop Fraction
  float : Except Stop Float
  scalar : Except Stop Int32
  truth : Except Stop Bool

/-- The failure of some call, with a report of an error about a term. -/
def Refused {α : Type} (answered : Except Stop α) (code : ErrorCode) (term : TermId) : Prop :=
  ∃ operation report, answered = .error (.failure (.call operation report)) ∧
    report.code = code ∧ report.term1 = term

namespace GetterAnswers

/-- The answers were given in a series of queries, in whatever order. -/
structure Given (answers : GetterAnswers) (model : Model) (start : Traced ScriptedSolver)
    (series : List Query) (term : TermId) : Prop where
  value : model.Answers start series (.value term) answers.value
  bool : model.Answers start series (.bool term) answers.bool
  integer : model.Answers start series (.integer term) answers.integer
  fraction : model.Answers start series (.fraction term) answers.fraction
  float : model.Answers start series (.float term) answers.float
  scalar : model.Answers start series (.scalar term) answers.scalar
  truth : model.Answers start series (.holds term) answers.truth

/-- All queries are refused for the same reason. -/
structure AllRefused (answers : GetterAnswers) (code : ErrorCode) (term : TermId) : Prop where
  value : Refused answers.value code term
  bool : Refused answers.bool code term
  integer : Refused answers.integer code term
  fraction : Refused answers.fraction code term
  float : Refused answers.float code term
  scalar : Refused answers.scalar code term
  truth : Refused answers.truth code term

/-- How answers fit together that are taken from the term itself. -/
structure CallsAgree (answers : GetterAnswers) : Prop where
  truth (truth : Bool) : answers.bool = .ok truth ↔ answers.truth = .ok truth
  whole (number : Int64) : answers.integer = .ok number →
    answers.fraction = .ok ⟨number.toInt, 1⟩

/-- How the full reading fits together with the answers that are taken from the term itself. -/
structure ReadingAgrees (answers : GetterAnswers) : Prop where
  bool (truth : Bool) : answers.value = .ok (.bool truth) ↔ answers.bool = .ok truth
  integer (number : Int) : answers.value = .ok (.int number) ↔
    ∃ word : Int64, word.toInt = number ∧ answers.integer = .ok word
  fraction (fraction : Fraction) : answers.value = .ok (.rational fraction) ↔
    answers.fraction = .ok fraction ∧ ∃ failure, answers.integer = .error (.failure failure)
  float (number : Float) : answers.value = .ok (.float number) ↔
    answers.float = .ok number ∧ ∃ report,
      answers.fraction = .error (.failure (.call Call.rational64Value.name report)) ∧
        report.code = .conversionFailed
  scalar (scalar : ScalarValue) : answers.value = .ok (.scalar scalar) →
    answers.scalar = .ok scalar.index
  place (index : Int32) : answers.scalar = .ok index →
    (∃ scalar, answers.value = .ok (.scalar scalar) ∧ scalar.index = index) ∨
      ∃ report, answers.value = .error (.failure (.call Call.constant.name report))

variable {answers : GetterAnswers} {term : TermId}

namespace AllRefused

variable {code : ErrorCode}

theorem callsAgree (refused : answers.AllRefused code term) : answers.CallsAgree := by
  rcases refused with ⟨-, ⟨_, _, bool, -⟩, ⟨_, _, integer, -⟩, -, -, -, ⟨_, _, truth, -⟩⟩
  constructor <;> simp [bool, integer, truth]

theorem readingAgrees (refused : answers.AllRefused code term) : answers.ReadingAgrees := by
  rcases refused with ⟨⟨_, _, value, -⟩, ⟨_, _, bool, -⟩, ⟨_, _, integer, -⟩, ⟨_, _, fraction, -⟩,
    ⟨_, _, float, -⟩, ⟨_, _, scalar, -⟩, -⟩
  constructor <;> simp [value, bool, integer, fraction, float, scalar]

end AllRefused

/-- What a call about a term answers with that takes something from its value. -/
def taken {α : Type} (term : TermId) (name : Call) (outcome : Except Misfit α) : Except Stop α :=
  outcome.mapError fun misfit => (Complaint.ofMisfit term misfit).stop name

@[simp]
theorem taken_ok {α : Type} {name : Call} (result : α) :
    taken term name (.ok result) = .ok result := rfl

@[simp]
theorem taken_error {α : Type} {name : Call} (misfit : Misfit) :
    (taken term name (.error misfit) : Except Stop α) =
      .error ((Complaint.ofMisfit term misfit).stop name) := rfl

section Taken

variable {α β : Type} {solver : ScriptedSolver} {model : ModelId} {value : ScriptedValue}
  (looked : solver.lookup model term = .ok value) (take : ScriptedValue → Except Misfit α)
  (name : Call)

include looked

theorem readingOf_of_lookup :
    solver.readingOf model term take = (take value).mapError (Complaint.ofMisfit term) := by
  simp only [readingOf, looked]
  rfl

/-- What a call takes is settled by the value of the term. -/
theorem taken_of_lookup :
    (solver.readingOf model term take).mapError (·.stop name) = taken term name (take value) := by
  rw [readingOf_of_lookup looked]
  cases take value <;> rfl

theorem taken_map_of_lookup (finish : α → β) :
    (do return finish (← solver.readingOf model term take) : Except Complaint β).mapError
      (·.stop name) = taken term name ((take value).map finish) := by
  rw [readingOf_of_lookup looked]
  cases take value <;> rfl

end Taken

/-- The answers other than the full reading are what the calls take from a value. -/
structure Settled (answers : GetterAnswers) (term : TermId) (assigned : ScriptedValue) : Prop where
  bool : answers.bool = taken term .boolValue assigned.toBool
  integer : answers.integer = taken term .int64Value assigned.toInt64
  fraction : answers.fraction = taken term .rational64Value
    (assigned.toWords64.map fun words => .ofWords words.1 words.2)
  float : answers.float = taken term .doubleValue assigned.toFloat
  scalar : answers.scalar = taken term .scalarValue (assigned.toScalar.map (·.1))
  truth : answers.truth = taken term .formulaHolds assigned.toBool

namespace Settled

variable {assigned : ScriptedValue}

theorem callsAgree (settled : answers.Settled term assigned) : answers.CallsAgree := by
  rcases answers with ⟨value, bool, integer, fraction, float, scalar, truth⟩
  rcases settled with ⟨rfl, rfl, rfl, rfl, rfl, rfl⟩
  constructor
  case truth =>
    intro truth
    cases assigned.toBool <;> simp
  case whole =>
    intro number taken
    cases assigned with
    | rational fraction =>
        rcases fraction.meaning_cases with ⟨word, integer, words, -⟩ | ⟨words', integer, words, -⟩ |
          ⟨integer, words, -⟩
        all_goals simp only [ScriptedValue.toInt64, integer, taken_ok, taken_error] at taken
        · cases taken
          simp only [ScriptedValue.toWords64, words]
          rfl
        · cases taken
        · cases taken
    | _ => cases taken

theorem readingAgrees_of_rational {number : Fraction}
    (settled : answers.Settled term (.rational number))
    (reads : answers.value = .ok number.meaning) : answers.ReadingAgrees := by
  rcases answers with ⟨value, bool, integer, fraction, float, scalar, truth⟩
  rcases settled with ⟨rfl, rfl, rfl, rfl, rfl, rfl⟩
  cases reads
  rcases number.meaning_cases with ⟨word, integer, words, meant⟩ | ⟨words', integer, words, meant⟩ |
    ⟨integer, words, meant⟩
  all_goals
    rw [meant]
    constructor <;> simp [ScriptedValue.toBool, ScriptedValue.toInt64, ScriptedValue.toScalar,
      ScriptedValue.toWords64, ScriptedValue.toFloat, Except.map, integer, words, Fraction.ofWords,
      Complaint.stop, Complaint.report, Complaint.ofMisfit, Misfit.termError]

theorem readingAgrees_of_other (settled : answers.Settled term assigned)
    (isOther : assigned.isBasic = false)
    (noBasic : ∀ result, answers.value = .ok result → result.isBasic = false) :
    answers.ReadingAgrees := by
  rcases answers with ⟨value, bool, integer, fraction, float, scalar, truth⟩
  rcases settled with ⟨rfl, rfl, rfl, rfl, rfl, rfl⟩
  have noBasic (result : Value) (basic : result.isBasic = true) : value ≠ .ok result :=
    fun reads => by simp [noBasic result reads] at basic
  have noBool truth := noBasic (.bool truth) rfl
  have noInt number := noBasic (.int number) rfl
  have noRational fraction := noBasic (.rational fraction) rfl
  have noFloat number := noBasic (.float number) rfl
  have noScalar scalar := noBasic (.scalar scalar) rfl
  rw [assigned.toBool_of_other isOther, assigned.toInt64_of_other isOther,
    assigned.toWords64_of_other isOther, assigned.toFloat_of_other isOther,
    assigned.toScalar_of_other isOther]
  constructor <;> simp [noBool, noInt, noRational, noFloat, noScalar, Except.map]

theorem readingAgrees (settled : answers.Settled term assigned)
    (reads : assigned.IsReadAs answers.value) : answers.ReadingAgrees := by
  have settled' := settled
  rcases answers with ⟨value, bool, integer, fraction, float, scalar, truth⟩
  rcases settled with ⟨rfl, rfl, rfl, rfl, rfl, rfl⟩
  dsimp only at reads
  cases reads with
  | rational number => exact settled'.readingAgrees_of_rational rfl
  | other isOther noBasic => exact settled'.readingAgrees_of_other isOther noBasic
  | bool | scalar | noConstant =>
      constructor <;> simp [ScriptedValue.toBool, ScriptedValue.toInt64, ScriptedValue.toScalar,
        ScriptedValue.toWords64, ScriptedValue.toFloat, Except.map]

end Settled

section Given

variable {model : Model} {start : Traced ScriptedSolver} {series : List Query}
  (about : ∀ query ∈ series, query.AsksValueOf term)
  (steady : Steady model.id term start.state start.state)
  (given : answers.Given model start series term)

include about steady given

theorem Given.allRefused {complaint : Complaint}
    (looked : start.state.lookup model.id term = .error complaint)
    (sameTerm : complaint.term = term) : answers.AllRefused complaint.code term := by
  have noReading {α : Type} (take : ScriptedValue → Except Misfit α) :
      start.state.readingOf model.id term take = .error complaint := by
    simp only [readingOf, looked]
    rfl
  have refused {α : Type} {answered : Except Stop α} {verdict : Except Complaint α} {name : Call}
      (settled : answered = verdict.mapError (·.stop name)) (refuses : verdict = .error complaint) :
      Refused answered complaint.code term := by
    rw [refuses] at settled
    exact ⟨_, _, settled, rfl, sameTerm⟩
  constructor
  case value => exact ⟨_, _, given.value.value_refused about steady looked, rfl, sameTerm⟩
  case fraction =>
    refine refused (given.fraction.eq_verdict about steady rfl) ?_
    rw [noReading]
    rfl
  case bool => exact refused (given.bool.eq_verdict about steady rfl) (noReading _)
  case integer => exact refused (given.integer.eq_verdict about steady rfl) (noReading _)
  case float => exact refused (given.float.eq_verdict about steady rfl) (noReading _)
  case scalar => exact refused (given.scalar.eq_verdict about steady rfl) (noReading _)
  case truth => exact refused (given.truth.eq_verdict about steady rfl) (noReading _)

theorem Given.settled {assigned : ScriptedValue}
    (looked : start.state.lookup model.id term = .ok assigned) :
    answers.Settled term assigned := by
  constructor
  case fraction =>
    exact (given.fraction.eq_verdict about steady rfl).trans (taken_map_of_lookup looked _ _ _)
  case bool => exact (given.bool.eq_verdict about steady rfl).trans (taken_of_lookup looked _ _)
  case integer =>
    exact (given.integer.eq_verdict about steady rfl).trans (taken_of_lookup looked _ _)
  case float => exact (given.float.eq_verdict about steady rfl).trans (taken_of_lookup looked _ _)
  case scalar => exact (given.scalar.eq_verdict about steady rfl).trans (taken_of_lookup looked _ _)
  case truth => exact (given.truth.eq_verdict about steady rfl).trans (taken_of_lookup looked _ _)

end Given

end GetterAnswers

/-- Without scripted failures, the answers about the value of a term in a live model agree, whatever
the order in which they are taken. The full reading agrees with the others if there is room for the
nodes. For what is no term, and for a variable that is not assigned, all queries are refused
alike. -/
theorem Model.getters_agree {model : Model} {start : Traced ScriptedSolver} {live : ScriptedModel}
    (calm : start.state.failing = []) (found : start.state.model? model.id = some live)
    {term : TermId} {series : List Query} (about : ∀ query ∈ series, query.AsksValueOf term)
    {answers : GetterAnswers} (given : answers.Given model start series term) :
    answers.CallsAgree ∧
      ((series.foldl model.after start).state.HasRoom model.id → answers.ReadingAgrees) ∧
      (start.state.term? term = none → answers.AllRefused .invalidTerm term) ∧
      (start.state.isVariable term = true → (∀ pair ∈ live.assignment, pair.1 ≠ term) →
        answers.AllRefused .unknownTerm term) := by
  have steady : Steady model.id term start.state start.state :=
    ⟨calm, Option.isSome_iff_exists.mpr ⟨live, found⟩, rfl, rfl⟩
  have agree : answers.CallsAgree ∧
      ((series.foldl model.after start).state.HasRoom model.id → answers.ReadingAgrees) := by
    cases looked : start.state.lookup model.id term with
    | error complaint =>
        have refused := given.allRefused about steady looked (term_of_lookup looked)
        exact ⟨refused.callsAgree, fun _ => refused.readingAgrees⟩
    | ok assigned =>
        have settled := given.settled about steady looked
        exact ⟨settled.callsAgree, fun room =>
          settled.readingAgrees (given.value.value_isReadAs about steady looked room)⟩
  refine ⟨agree.1, agree.2, fun unknown => ?_, fun isVariable unassigned => ?_⟩
  · have looked : start.state.lookup model.id term = .error ⟨.invalidTerm, term, by decide⟩ := by
      simp only [lookup, unknown]
    exact given.allRefused about steady looked rfl
  · have looked := lookup_of_unassigned found isVariable unassigned
    exact given.allRefused about steady looked rfl

/-- All queries about the value of the first term, the full reading among the others. -/
def Query.aboutFirst : List Query :=
  [.bool ⟨0⟩, .fraction ⟨0⟩, .integer ⟨0⟩, .value ⟨0⟩, .float ⟨0⟩, .scalar ⟨0⟩, .holds ⟨0⟩]

/-- A solver with a model in which the first term is a fraction that could be reduced. -/
def ScriptedSolver.ofFourHalves : Traced ScriptedSolver := ⟨.ofValue (.rational ⟨4, 2⟩), []⟩

/-- A fraction that could be reduced to an integer is an integer in none of the answers. -/
theorem Model.getters_agree_ofFourHalves :
    ∃ answers : GetterAnswers, answers.value = .ok (.rational ⟨4, 2⟩) ∧
      answers.fraction = .ok ⟨4, 2⟩ ∧ (∃ failure, answers.integer = .error (.failure failure)) ∧
      answers.Given { id := ⟨0⟩ } ofFourHalves Query.aboutFirst ⟨0⟩ ∧
      answers.CallsAgree ∧ answers.ReadingAgrees := by
  have runs : ∃ answers : GetterAnswers, answers.value = .ok (.rational ⟨4, 2⟩) ∧
      answers.fraction = .ok ⟨4, 2⟩ ∧ (∃ failure, answers.integer = .error (.failure failure)) ∧
      answers.Given { id := ⟨0⟩ } ofFourHalves Query.aboutFirst ⟨0⟩ ∧
      (Query.aboutFirst.foldl (Model.after { id := ⟨0⟩ }) ofFourHalves).state.sizes =
        (1, some 1) := by
    with_unfolding_all exact ⟨⟨_, _, _, _, _, _, _⟩, rfl, rfl, ⟨_, rfl⟩,
      ⟨⟨[.bool ⟨0⟩, .fraction ⟨0⟩, .integer ⟨0⟩], _, rfl, rfl⟩, ⟨[], _, rfl, rfl⟩,
        ⟨[.bool ⟨0⟩, .fraction ⟨0⟩], _, rfl, rfl⟩, ⟨[.bool ⟨0⟩], _, rfl, rfl⟩,
        ⟨Query.aboutFirst.take 4, _, rfl, rfl⟩, ⟨Query.aboutFirst.take 5, _, rfl, rfl⟩,
        ⟨Query.aboutFirst.take 6, _, rfl, rfl⟩⟩, rfl⟩
  rcases runs with ⟨answers, value, fraction, integer, given, sized⟩
  have room := hasRoom_of_sizes sized (by decide) (by decide)
  have about : ∀ query ∈ Query.aboutFirst, query.AsksValueOf ⟨0⟩ := by
    simp [Query.aboutFirst, Query.AsksValueOf]
  rcases getters_agree rfl rfl about given with ⟨callsAgree, readingAgrees, -⟩
  exact ⟨answers, value, fraction, integer, given, callsAgree, readingAgrees room⟩

/-- A truth value that is taken from a term is not read where all nodes are handed out, nor where the
call for the root of a value is made to return at once. -/
theorem Model.reading_disagrees :
    ((crowded (.bool true)).failing = [] ∧
      Outcome.result (ask answer { id := ⟨0⟩ } (.bool ⟨0⟩) ⟨crowded (.bool true), []⟩) = .ok true ∧
      Outcome.result (ask answer { id := ⟨0⟩ } (.value ⟨0⟩)
        (after { id := ⟨0⟩ } ⟨crowded (.bool true), []⟩ (.bool ⟨0⟩))) ≠ .ok (.bool true)) ∧
    (ofValue (.bool true)).failing = [] ∧
      ∃ left, ask (Overridden.answer answer) { id := ⟨0⟩ } (.bool ⟨0⟩)
          ⟨(ofValue (.bool true)).returning .value 0, []⟩ = .ok true left ∧
        Outcome.result (ask (Overridden.answer answer) { id := ⟨0⟩ } (.value ⟨0⟩) left) =
          .error (.failure (.internal (.unexpectedTag 0))) := by
  have asked (nodes : Array ScriptedValue) :
      let start : Traced ScriptedSolver := ⟨ofNodes (.bool true) nodes, []⟩
      Outcome.result (ask answer { id := ⟨0⟩ } (.bool ⟨0⟩) start) = .ok true ∧
        (after { id := ⟨0⟩ } start (.bool ⟨0⟩)).state.model? ⟨0⟩ =
          some ⟨[(⟨0⟩, .bool true)], nodes, false⟩ := by
    with_unfolding_all exact ⟨rfl, rfl⟩
  rcases asked (fullTable (.bool true)) with ⟨answered, found⟩
  refine ⟨⟨rfl, answered, fun read => ?_⟩, rfl, ?_⟩
  · cases absent_of_full found (size_fullTable _) read
  · with_unfolding_all exact ⟨_, rfl, rfl⟩

end SmtModel
