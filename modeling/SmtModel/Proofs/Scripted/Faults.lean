import SmtModel.Proofs.Scripted.Agreement
import SmtModel.Proofs.Scripted.Ownership

/-!
# Faults of queries

On a model that is not freed a query can meet one fault only, a division by zero
(`Model.ask_fault`). The reading of a value divides where it compares the keys of a
function. As long as there is room for the nodes, it meets the fault exactly if the
evaluation of the scripted value does, and it is safe if no fraction below the value has a
zero denominator (`Model.ask_value_divides`). A fraction with a zero denominator is handed
out and read like any other, though, and a function may have it as a key beside another
one. `Model.value_divides` has such a function.
-/

namespace SmtModel

/-! ## Faults of requests -/

namespace ScriptedSolver

/-- What a request meets: a model that is freed, or a vector that is released. Only the freeing of a
model can meet more. -/
theorem answer_fault_cases {request : Request} (notFree : ∀ id, request ≠ .freeModel id)
    {solver left : ScriptedSolver} {fault : Fault}
    (ended : answer request solver = .error fault left) :
    (∃ model, fault = .modelUsedAfterFree model) ∨ fault.IsOfVector := by
  cases question : request.isQuestion with
  | true =>
      rcases (answer_question question).faults _ _ _ ended with ⟨model, -, used, -⟩
      exact Or.inl ⟨model, used⟩
  | false =>
      rcases live_or_released question solver with live | ⟨vector, faulted⟩
      · by_cases attempted : ∃ name, request.call? = some name ∧ request.isUnchecked = false ∧
            name ≠ .printError
        · rcases attempted with ⟨name, named, checked, counted⟩
          rcases (answer_attempts named checked counted).faults live ended with ⟨model, -, used, -⟩
          exact Or.inl ⟨model, used⟩
        · cases request
          case printError descriptor =>
            rcases (answer_printError descriptor).faults _ _ _ ended with ⟨_, ⟨⟩, _⟩
          case definedTerms model vector =>
            exact Or.inl ⟨model, (definedTerms_faults (live vector (by simp [Request.vector?]))
              ended).1⟩
          case freeModel id => exact absurd rfl (notFree id)
          case releaseTermVector vector | releaseNodeVector vector =>
            simp only [answer, releaseVector, get_bind] at ended
            cases found : solver.vector? vector <;> rw [found] at ended <;> cases ended
            exact Or.inr trivial
          case startUp | shutDown | reset | isRunning | errorCode | errorReport | errorText |
              clearError | newTermVector | newNodeVector => cases ended
          case nodeIsInt64 | nodeIsRational64 | nodeBitSize | tupleArity | mappingArity |
              functionArity | termVectorElements | nodeVectorElements => cases question
          all_goals exact absurd ⟨_, rfl, rfl, by decide⟩ attempted
      · cases faulted.symm.trans ended
        exact Or.inr trivial

/-- In answering about a model that is not freed, the solver meets no fault but in the use of a
vector. -/
theorem respects_live (id : ModelId) :
    Respects answer (fun solver => (solver.model? id).isSome = true)
      (fun fault => fault = .divisionByZero ∨ fault.IsOfVector) (Request.IsOfQuery id) := by
  have spares {request : Request} (made : request.Among (Request.IsOfQuery id)) :
      request.sparesModels = true := by
    rcases made with made | rfl | rfl
    · exact Request.sparesModels_of_isOfQuery made
    · rfl
    · rfl
  refine ⟨fun {request state} made live => ?_, fun {request state fault left} made live ended => ?_⟩
  · rw [(answer_sparesModels (spares made) state).1.live id]
    exact live
  · have notFree (freed : ModelId) : request ≠ .freeModel freed := by
      rintro rfl
      cases spares made
    rcases answer_fault_cases notFree ended with ⟨model, rfl⟩ | ofVector
    · rcases (answer_sparesModels (spares made) state).2 model left ended with ⟨about, missing⟩
      rcases made with made | rfl | rfl
      · rw [Request.model?_of_isOfQuery made about] at missing
        simp [missing] at live
      · cases about
      · cases about
    · exact Or.inr ofVector

end ScriptedSolver

open ScriptedSolver

theorem Query.isUnchecked_of_asks (query : Query) (request : Request)
    (asks : query.asks request = true) : request.isUnchecked = true :=
  (Operation.query ⟨0⟩ query).isUnchecked_of_asks request asks

/-- Whatever is scripted, the only fault that a query can meet on a model that is not freed is a
division by zero. -/
theorem Model.ask_fault {model : Model} {query : Query} {start left : Traced ScriptedSolver}
    {fault : Fault} (live : (start.state.model? model.id).isSome = true)
    (ended : model.ask answer query start = .error (.fault fault) left) :
    fault = .divisionByZero := by
  have noTrades (request : Request) (asks : query.asks request = true) :
      request.tradesVector = false := by
    have unchecked := query.isUnchecked_of_asks request asks
    cases request <;> first | rfl | cases unchecked
  have disciplined : Disciplined query.asks [] fun _ solver => model.ask solver query :=
    model.ask_disciplined query
  have framed := @Disciplined.frame _ _ _ _ disciplined noTrades start (by simp)
  have ends := ask_ensures (respects_live model.id) (Or.inl rfl) query start live
  have notOfVector := framed.faults fault left ended
  rw [ended] at ends
  cases ends with
  | fault _ known => exact known.resolve_right notOfVector

/-! ## Evaluations that divide -/

namespace Evaluation

variable {α β : Type} {post : α → Prop}

/-- How an evaluation ends that does not divide: with a result that has a property, or in a
failure. -/
inductive Ends (post : α → Prop) : EStateM.Result Stop Lexicon α → Prop where
  | result {result : α} {left : Lexicon} (holds : post result) : Ends post (.ok result left)
  | failure {failure : Failure} {left : Lexicon} : Ends post (.error (.failure failure) left)

theorem Ends.no_fault {ending : EStateM.Result Stop Lexicon α} (ends : Ends post ending)
    (fault : Fault) : Outcome.result ending ≠ .error (.fault fault) := by
  intro faulted
  cases ends <;> cases faulted

/-- From wherever it starts, the evaluation does not divide, and its results have a property. -/
def Ensures (post : α → Prop) (evaluation : Evaluation α) : Prop :=
  ∀ start, Ends post (evaluation start)

namespace Ensures

theorem pure {result : α} (holds : post result) :
    Ensures post (Pure.pure result) :=
  fun _ => .result holds

theorem fail (failure : Failure) : Ensures post (Evaluation.fail failure : Evaluation α) :=
  fun _ => .failure

theorem take (name : Call) (outcome : Except Misfit α) :
    Ensures (fun result => outcome = .ok result) (Evaluation.take name outcome) := by
  cases outcome with
  | ok result => exact pure rfl
  | error misfit => exact fun _ => .failure

theorem constant (type : TypeId) (index : Int32) :
    Ensures (fun _ => True) (Evaluation.constant type index) := by
  intro start
  rcases constant_cases type index start with ⟨error, -, refused⟩ | ⟨term, left, ended, -⟩
  · rw [refused]
    exact .failure
  · rw [ended]
    exact .result trivial

theorem bind {mid : β → Prop} {first : Evaluation β} {next : β → Evaluation α}
    (before : Ensures mid first) (after : ∀ result, mid result → Ensures post (next result)) :
    Ensures post (first >>= next) := by
  intro start
  have ends := before start
  cases ran : first start with
  | ok result middle =>
      rw [ran] at ends
      rw [Outcome.bind_of_ok ran]
      cases ends with
      | result holds => exact after result holds middle
  | error stop middle =>
      rw [ran] at ends
      rw [Outcome.bind_of_error ran]
      cases ends with
      | failure => exact .failure

/-- A function takes a proper point, as the keys of proper points can be compared. -/
theorem addPoint {function : FunctionValue} {point : Mapping Value}
    (functionProper : Value.IsProperFunction function)
    (pointProper : Value.IsProperPoint point) :
    Ensures Value.IsProperFunction (Evaluation.addPoint function point) := by
  intro start
  rcases FiniteFunction.insert_isOk functionProper pointProper with
    ⟨replaced, added, inserts, addedProper⟩
  unfold Evaluation.addPoint
  rw [FiniteFunction.insertPoint, inserts]
  exact .result addedProper

end Ensures

end Evaluation

namespace ScriptedValue

open Evaluation

theorem denominator_ne_zero_of_words {fraction : Fraction} (nonzero : fraction.denominator ≠ 0)
    {numerator : Int64} {denominator : UInt64}
    (words : fraction.words64? = some (numerator, denominator)) :
    (Fraction.ofWords numerator denominator).denominator ≠ 0 := by
  simp only [Fraction.words64?, Word.uint64?, Option.bind_eq_bind, Option.bind_eq_some_iff] at words
  rcases words with ⟨_, -, word, inside, pair⟩
  split_ifs at inside with range
  cases inside
  cases pair
  have small : fraction.denominator.toNat < UInt64.size := by omega
  have same : (UInt64.ofNat fraction.denominator.toNat).toNat = fraction.denominator.toNat :=
    UInt64.toNat_ofNat_of_lt small
  simp only [Fraction.ofWords, same]
  omega

theorem evaluateRational_ensures {value : ScriptedValue}
    (nonzero : value.Every NonzeroDenominator) :
    Ensures Value.IsProper (evaluateRational value) := by
  unfold evaluateRational
  by_cases isInt64 : value.toInt64.isOk = true
  · simp only [isInt64, if_true]
    exact .bind (.take _ _) fun number _ => .pure (by simp only [Value.IsProper])
  · simp only [isInt64, Bool.false_eq_true, if_false]
    by_cases isWords64 : value.toWords64.isOk = true
    · simp only [isWords64, if_true]
      apply Ensures.bind (.take _ _)
      rintro ⟨numerator, denominator⟩ taken
      refine .pure ?_
      simp only [Value.IsProper]
      cases value with
      | rational fraction =>
          simp only [Every, NonzeroDenominator] at nonzero
          simp only [toWords64] at taken
          split at taken
          · cases taken
            exact denominator_ne_zero_of_words nonzero ‹_›
          · cases taken
      | _ => cases taken
    · simp only [isWords64, Bool.false_eq_true, if_false]
      exact .bind (.take _ _) fun number _ => .pure (by simp only [Value.IsProper])

theorem evaluateScalar_ensures (value : ScriptedValue) :
    Ensures Value.IsProper (evaluateScalar value) := by
  apply Ensures.bind (.take _ _)
  rintro ⟨index, type⟩ _
  exact .bind (.constant _ _) fun term _ => .pure (by simp only [Value.IsProper])

theorem evaluateBits_ensures (value : ScriptedValue) :
    Ensures Value.IsProper (evaluateBits value) := by
  unfold evaluateBits
  by_cases empty : value.bitSize = 0
  · simp only [empty, if_true]
    exact .pure (by simp only [Value.IsProper])
  · simp only [empty, if_false]
    exact .bind (.take _ _) fun bits _ => .pure (by simp only [Value.IsProper])

section Composites

variable {evaluate : ScriptedValue → Evaluation Value}
  (below : ∀ value : ScriptedValue, value.Every NonzeroDenominator →
    Ensures Value.IsProper (evaluate value))

include below

theorem mapM_ensures {items : List ScriptedValue}
    (nonzero : EveryItem NonzeroDenominator items) :
    Ensures Value.AllProper (items.mapM evaluate) := by
  induction items with
  | nil =>
      rw [List.mapM_nil]
      exact .pure (by simp only [Value.AllProper])
  | cons item items ih =>
      simp only [EveryItem] at nonzero
      rw [List.mapM_cons]
      apply Ensures.bind (below item nonzero.1)
      intro value proper
      apply Ensures.bind (ih nonzero.2)
      intro values allProper
      refine .pure ?_
      simp only [Value.AllProper]
      exact ⟨proper, allProper⟩

theorem evaluateTuple_ensures {value : ScriptedValue}
    (nonzero : value.Every NonzeroDenominator) :
    Ensures Value.IsProper (evaluateTuple evaluate value) := by
  unfold evaluateTuple
  by_cases empty : value.tupleArity = 0
  · simp only [empty, if_true]
    exact .pure (by simp only [Value.IsProper])
  · simp only [empty, if_false]
    apply Ensures.bind (.take _ _)
    intro items taken
    have itemsNonzero : EveryItem NonzeroDenominator items := by
      cases value with
      | tuple parts =>
          simp only [Every] at nonzero
          simp only [toItems] at taken
          split_ifs at taken
          cases taken
          exact nonzero.2
      | _ => cases taken
    apply Ensures.bind (mapM_ensures below itemsNonzero)
    intro values allProper
    refine .pure ?_
    simp only [Value.IsProper]
    exact allProper

theorem evaluateMapping_ensures {value : ScriptedValue}
    (nonzero : value.Every NonzeroDenominator) :
    Ensures (fun point? => ∀ point ∈ point?, Value.IsProperPoint point)
      (evaluateMapping evaluate value) := by
  unfold evaluateMapping
  by_cases empty : value.mappingArity = 0
  · simp only [empty, if_true]
    exact .pure fun _ => by simp
  · simp only [empty, if_false]
    apply Ensures.bind (.take _ _)
    rintro ⟨args, result⟩ taken
    have partsNonzero :
        EveryItem NonzeroDenominator args ∧ result.Every NonzeroDenominator := by
      cases value with
      | mapping point =>
          simp only [Every] at nonzero
          simp only [toPoint] at taken
          split_ifs at taken
          cases taken
          simp only [EveryPoint] at nonzero
          exact nonzero.2
      | _ => cases taken
    apply Ensures.bind (mapM_ensures below partsNonzero.1)
    intro values allProper
    apply Ensures.bind (below result partsNonzero.2)
    intro last lastProper
    refine .pure ?_
    rintro point ⟨⟩
    simp only [Value.IsProperPoint]
    exact ⟨allProper, lastProper⟩

theorem evaluateEntry_ensures (limit : DepthLimit) {entry : Mapping ScriptedValue}
    (nonzero : EveryPoint NonzeroDenominator entry) :
    Ensures Value.IsProperPoint (evaluateEntry limit (some evaluate) entry) := by
  have mappingNonzero : (ScriptedValue.mapping entry).Every NonzeroDenominator := by
    simpa only [Every] using nonzero
  apply Ensures.bind (evaluateMapping_ensures below mappingNonzero)
  intro point? proper
  cases point? with
  | none => exact .fail _
  | some point => exact .pure (proper point rfl)

theorem evaluateFunction_ensures
    {evaluateEntry : Mapping ScriptedValue → Evaluation (Mapping Value)}
    (entries : ∀ entry, EveryPoint NonzeroDenominator entry →
      Ensures Value.IsProperPoint (evaluateEntry entry))
    {value : ScriptedValue} (nonzero : value.Every NonzeroDenominator) :
    Ensures Value.IsProper (evaluateFunction evaluate evaluateEntry value) := by
  have adding (points : List (Mapping ScriptedValue)) (function : FunctionValue)
      (pointsNonzero : EveryEntry NonzeroDenominator points)
      (functionProper : Value.IsProperFunction function) :
      Ensures Value.IsProperFunction
        (points.foldlM (fun function entry => do
          Evaluation.addPoint function (← evaluateEntry entry)) function) := by
    induction points generalizing function with
    | nil => exact .pure functionProper
    | cons entry points ih =>
        simp only [EveryEntry] at pointsNonzero
        rw [List.foldlM_cons]
        apply Ensures.bind (Ensures.bind
          (entries entry pointsNonzero.1)
          fun point pointProper => .addPoint functionProper pointProper)
        intro added addedProper
        exact ih added pointsNonzero.2 addedProper
  unfold evaluateFunction
  by_cases empty : value.functionArity = 0
  · simp only [empty, if_true]
    exact .pure (by simp only [Value.IsProper])
  · simp only [empty, if_false]
    apply Ensures.bind (.take _ _)
    rintro ⟨default, points⟩ taken
    have partsNonzero :
        default.Every NonzeroDenominator ∧ EveryEntry NonzeroDenominator points := by
      cases value with
      | function arity graph =>
          cases taken
          simp only [Every, EveryGraph] at nonzero
          exact nonzero.2
      | _ => cases taken
    apply Ensures.bind (below default partsNonzero.1)
    intro last lastProper
    apply Ensures.bind (adding points _ partsNonzero.2 ?_)
    · intro function functionProper
      refine .pure ?_
      simp only [Value.IsProper]
      exact functionProper
    · simp only [FiniteFunction.constant, Value.IsProperFunction, Value.AllPointsProper, and_true]
      exact lastProper

end Composites

/-- Evaluations meet no fault where no fraction has a zero denominator. -/
theorem evaluate_ensures (limit : DepthLimit) (room : Nat) {value : ScriptedValue}
    (nonzero : value.Every NonzeroDenominator) :
    Ensures Value.IsProper (evaluate limit room value) := by
  induction room using Nat.strongRecOn generalizing value with
  | ind room ih =>
      cases room with
      | zero => exact .fail _
      | succ room =>
          have below (value : ScriptedValue) (nonzero : value.Every NonzeroDenominator) :
              Ensures Value.IsProper (evaluate limit room value) :=
            ih room (by omega) nonzero
          rw [evaluate_succ]
          unfold evaluateKind
          rcases NodeKind.ofTag? value.tag with _ | kind
          · exact .fail _
          cases kind with
          | unknown => exact .fail _
          | algebraic => exact .fail _
          | bool =>
              exact .bind (.take _ _) fun truth _ => .pure (by simp only [Value.IsProper])
          | rational => exact evaluateRational_ensures nonzero
          | scalar => exact evaluateScalar_ensures value
          | bitVector => exact evaluateBits_ensures value
          | tuple => exact evaluateTuple_ensures below nonzero
          | mapping =>
              apply Ensures.bind (evaluateMapping_ensures below nonzero)
              intro point? proper
              cases point? with
              | none => exact .pure (by simp only [Value.IsProper])
              | some point =>
                  refine .pure ?_
                  simp only [Value.IsProper]
                  exact proper point rfl
          | function =>
              refine evaluateFunction_ensures below (fun entry entryNonzero => ?_) nonzero
              cases room with
              | zero => exact .fail _
              | succ room =>
                  refine evaluateEntry_ensures (fun value nonzero => ?_) limit entryNonzero
                  exact ih room (by omega) nonzero

end ScriptedValue

/-! ## Readings that divide -/

namespace Model

/-- The evaluation of a scripted value, as far as a model is read, divides by zero. -/
def Divides (model : Model) (start : Traced ScriptedSolver) (value : ScriptedValue) : Prop :=
  Outcome.result (value.evaluate model.limit model.limit.levels start.state.lexicon) =
    .error (.fault .divisionByZero)

variable {model : Model} {term : TermId} {start : Traced ScriptedSolver}
  (live : (start.state.model? model.id).isSome = true)

include live

/-- A term without a value is a failure on a model that is not freed. -/
theorem read_failure_of_value?_eq_none (missing : start.state.value? model.id term = none) :
    ∃ failure left, model.read answer term start = .error (.failure failure) left := by
  unfold read
  cases answered : answer (.value model.id term .blank) start.state with
  | error fault left =>
      have spares : (Request.value model.id term .blank).sparesModels = true := rfl
      have kept := (answer_sparesModels spares start.state).1.live model.id
      rw [answered, live] at kept
      have attempts : Attempts _ _ .value (answer (.value model.id term .blank)) :=
        answer_attempts rfl rfl (by decide)
      rcases attempts.faults (by simp [Request.scope, Request.vector?]) answered with
        ⟨_, ⟨⟩, -, gone⟩
      simp [gone] at kept
  | ok reply left =>
      rw [Outcome.bind_of_ok (Action.ask_of_ok answered)]
      by_cases isRefused : reply.status = statusFailed
      · rw [(Checks.reply _).refused reply (decide_eq_true isRefused), Checks.failCall_bind]
        by_cases clear : left.error = .noError
        · exact ⟨_, _, failCall_of_noError clear .value⟩
        · exact ⟨_, _, failCall_of_error clear .value⟩
      · rcases value?_of_answer answered isRefused with ⟨value, found⟩
        cases missing.symm.trans found

/-- A fault that the reading meets is one that the evaluation of the scripted value meets. -/
theorem evaluate_faults_of_read
    (room : (Outcome.state (model.read answer term start)).state.HasRoom model.id) {fault : Fault}
    (faulted : Outcome.result (model.read answer term start) = .error (.fault fault)) :
    ∃ value, start.state.value? model.id term = some value ∧
      Outcome.result (value.evaluate model.limit model.limit.levels start.state.lexicon) =
        .error (.fault fault) := by
  cases assigned : start.state.value? model.id term with
  | none =>
      rcases read_failure_of_value?_eq_none live assigned with ⟨failure, left, ended⟩
      cases (congrArg Outcome.result ended).symm.trans faulted
  | some value =>
      have agrees := (read_follows assigned).agrees room
      refine ⟨value, rfl, ?_⟩
      generalize model.read answer term start = read at agrees faulted
      generalize value.evaluate _ _ _ = evaluated at agrees ⊢
      cases agrees with
      | ok => cases faulted
      | scripted => cases faulted
      | stopped =>
          cases faulted
          rfl

/-- On a model that is not freed, reading the value of a term meets no fault but a division by zero.
If there is room for the nodes, it meets this fault only if the evaluation of the scripted value
does: two keys of one function cannot be compared. Where no call is scripted to fail, the reading
meets the fault whenever the evaluation does. No value is affected that has no fraction with a zero
denominator in it. -/
theorem ask_value_divides :
    (∀ fault, Outcome.result (model.ask answer (.value term) start) = .error (.fault fault) →
      fault = .divisionByZero) ∧
    ((Outcome.state (model.ask answer (.value term) start)).state.HasRoom model.id →
      (∀ fault, Outcome.result (model.ask answer (.value term) start) = .error (.fault fault) →
        ∃ value, start.state.value? model.id term = some value ∧ model.Divides start value) ∧
      ∀ value, start.state.value? model.id term = some value →
        (start.state.failing = [] →
          (Outcome.result (model.ask answer (.value term) start) =
            .error (.fault .divisionByZero) ↔ model.Divides start value)) ∧
        (value.Every ScriptedValue.NonzeroDenominator → ∀ fault,
          Outcome.result (model.ask answer (.value term) start) ≠ .error (.fault fault))) := by
  have divides (fault : Fault)
      (faulted : Outcome.result (model.ask answer (.value term) start) = .error (.fault fault)) :
      fault = .divisionByZero := by
    rcases Outcome.result_eq_error.mp faulted with ⟨left, ended⟩
    exact ask_fault live ended
  refine ⟨divides, fun room => ⟨fun fault faulted => ?_,
    fun value assigned => ⟨fun calm => ?_, fun nonzero fault faulted => ?_⟩⟩⟩
  · cases divides fault faulted
    exact evaluate_faults_of_read live room faulted
  · have same : Outcome.result (model.ask answer (.value term) start) =
        Outcome.result (value.evaluate model.limit model.limit.levels start.state.lexicon) :=
      ((read_follows assigned).agrees room).result_eq calm
    rw [same]
    rfl
  · rcases evaluate_faults_of_read live room faulted with ⟨value', assigned', evaluates⟩
    cases assigned.symm.trans assigned'
    have ends := ScriptedValue.evaluate_ensures model.limit model.limit.levels nonzero
      start.state.lexicon
    exact ends.no_fault fault evaluates

omit live

/-- A function with two fractions as keys, both with the result true. -/
def ofKeys (first second : Fraction) : ScriptedValue :=
  .function 1 ⟨.bool false,
    [⟨[.rational first], .bool true⟩, ⟨[.rational second], .bool true⟩]⟩

/-- Equal denominators are not divided by, even if they are zero. -/
theorem ask_value_divides_sameDenominator :
    let start : Traced ScriptedSolver := ⟨ofValue (ofKeys ⟨1, 0⟩ ⟨2, 0⟩), []⟩
    let ending := ask answer { id := ⟨0⟩ } (.value ⟨0⟩) start
    (start.state.model? ⟨0⟩).isSome = true ∧ (Outcome.state ending).state.HasRoom ⟨0⟩ ∧
      Outcome.result ending ≠ .error (.fault .divisionByZero) := by
  intro start ending
  have live : (start.state.model? ⟨0⟩).isSome = true := rfl
  have sized : (Outcome.state ending).state.sizes = (1, some 8) := by rfl
  have room : (Outcome.state ending).state.HasRoom ⟨0⟩ :=
    hasRoom_of_sizes sized (by decide) (by decide)
  have evaluated : ∃ value, Outcome.result ((ofKeys ⟨1, 0⟩ ⟨2, 0⟩).evaluate .standard
      DepthLimit.standard.levels start.state.lexicon) = .ok value := by
    with_unfolding_all exact ⟨_, rfl⟩
  rcases evaluated with ⟨value, evaluated⟩
  refine ⟨live, room, fun divided => ?_⟩
  have divides := (ask_value_divides live).2 room
  cases evaluated.symm.trans (((divides.2 _ rfl).1 rfl).mp divided)

/-- The model is not freed, and no call is scripted to fail, but the two keys cannot be compared. -/
theorem value_divides :
    let start : Traced ScriptedSolver := ⟨ofValue (ofKeys ⟨1, 0⟩ ⟨2, 3⟩), []⟩
    (start.state.model? ⟨0⟩).isSome = true ∧ start.state.failing = [] ∧
      ∃ left, ask answer { id := ⟨0⟩ } (.value ⟨0⟩) start =
        .error (.fault .divisionByZero) left := by
  with_unfolding_all exact ⟨rfl, rfl, _, rfl⟩

end Model

end SmtModel
