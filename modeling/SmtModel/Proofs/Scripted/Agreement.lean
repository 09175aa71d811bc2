import SmtModel.Proofs.Scripted.Evaluation
import SmtModel.Proofs.Scripted.Values

/-!
# Readings agree with evaluations

The reading of a node that shows a value ends as the evaluation of the value does: with
the same result and the same constants made, or in the same stop
(`Reading.read_follows`). It leaves the solver's error alone, unless it ends in the
failure of a call. The only other ending is the failure of a call that is scripted to
fail. As in `SmtModel.Proofs.Scripted.Reads`, all this is said of readings that find
room for their nodes, but here no scripted value is excluded, and nothing is
said of what the results mean.
-/

namespace SmtModel

/-- A stop that is not the failure of a call. -/
def Stop.IsOwn : Stop → Prop
  | .failure cause => cause.IsOwn
  | .fault _ => True

namespace Reading

open ScriptedSolver

variable {α β γ δ : Type}

/-- The ending of a reading beside that of an evaluation, whose results are related in the state
that is left. -/
inductive Agrees (start : ScriptedSolver) (related : ScriptedSolver → α → β → Prop) :
    EStateM.Result Stop Lexicon α → EStateM.Result Stop (Traced ScriptedSolver) β → Prop where
  | ok (left : Traced ScriptedSolver) {value : α} {result : β}
      (error : left.state.error = start.error)
      (errorTerm? : left.state.errorTerm? = start.errorTerm?)
      (holds : related left.state value result) :
      Agrees start related (.ok value left.state.lexicon) (.ok result left)
  | stopped {stop : Stop} {lexicon : Lexicon} {left : Traced ScriptedSolver}
      (terms : left.state.terms = lexicon.terms)
      (kept : stop.IsOwn →
        left.state.error = start.error ∧ left.state.errorTerm? = start.errorTerm?) :
      Agrees start related (.error stop lexicon) (.error stop left)
  | scripted {evaluated : EStateM.Result Stop Lexicon α} {name : String} {report : ErrorReport}
      {left : Traced ScriptedSolver} (some : start.failing ≠ []) :
      Agrees start related evaluated (.error (.failure (.call name report)) left)

/-- Without scripted failures a reading leaves the terms that the evaluation leaves. -/
theorem Agrees.terms_eq {start : ScriptedSolver} {related : ScriptedSolver → α → β → Prop}
    {evaluated : EStateM.Result Stop Lexicon α}
    {ending : EStateM.Result Stop (Traced ScriptedSolver) β}
    (agrees : Agrees start related evaluated ending) (calm : start.failing = []) :
    (Outcome.state ending).state.terms = (Outcome.state evaluated).terms := by
  cases agrees with
  | ok left error errorTerm? holds => rfl
  | stopped terms kept => exact terms
  | scripted some => exact absurd calm some

/-- A reading extends the tables, and agrees with an evaluation if it finds room. -/
structure Follows (model : ModelId) (start : ScriptedSolver)
    (related : ScriptedSolver → α → β → Prop) (evaluated : EStateM.Result Stop Lexicon α)
    (ending : EStateM.Result Stop (Traced ScriptedSolver) β) : Prop where
  grows : Extends start (Outcome.state ending).state
  agrees : (Outcome.state ending).state.HasRoom model → Agrees start related evaluated ending

/-- The relation of a result to itself. -/
def Same (_ : ScriptedSolver) (value result : α) : Prop := result = value

/-- Without scripted failures a reading has the result, or the stop, of the evaluation. -/
theorem Agrees.result_eq {start : ScriptedSolver} {evaluated : EStateM.Result Stop Lexicon α}
    {ending : EStateM.Result Stop (Traced ScriptedSolver) α}
    (agrees : Agrees start Same evaluated ending) (calm : start.failing = []) :
    Outcome.result ending = Outcome.result evaluated := by
  cases agrees with
  | ok left error errorTerm? same =>
      cases same
      rfl
  | stopped terms kept => rfl
  | scripted some => exact absurd calm some

namespace Follows

variable {model : ModelId} {traced : Traced ScriptedSolver}
  {related : ScriptedSolver → α → β → Prop} {related' : ScriptedSolver → γ → δ → Prop}

theorem bind {evaluation : Evaluation α} {evaluationNext : α → Evaluation γ}
    {first : Action ScriptedSolver β} {next : β → Action ScriptedSolver δ}
    (before : Follows model traced.state related (evaluation traced.state.lexicon) (first traced))
    (grows : ∀ result middle, first traced = .ok result middle →
      Extends middle.state (Outcome.state (next result middle)).state)
    (after : ∀ value result middle, first traced = .ok result middle →
      Extends traced.state middle.state → related middle.state value result →
        Follows model middle.state related' (evaluationNext value middle.state.lexicon)
          (next result middle)) :
    Follows model traced.state related' ((evaluation >>= evaluationNext) traced.state.lexicon)
      ((first >>= next) traced) := by
  rcases before with ⟨grown, agrees⟩
  cases ran : first traced with
  | error stop left =>
      rw [ran] at grown agrees
      rw [Outcome.bind_of_error ran]
      refine ⟨grown, fun room => ?_⟩
      have agrees := agrees room
      generalize evaluated : evaluation traced.state.lexicon = ending at agrees
      cases agrees with
      | stopped terms kept =>
          rw [Outcome.bind_of_error evaluated]
          exact .stopped terms kept
      | scripted some => exact .scripted some
  | ok result middle =>
      have growsAfter := grows result middle ran
      rw [ran] at grown agrees
      rw [Outcome.bind_of_ok ran]
      refine ⟨grown.trans growsAfter, fun room => ?_⟩
      have agrees := agrees (growsAfter.hasRoom room)
      generalize evaluated : evaluation traced.state.lexicon = ending at agrees
      cases agrees with
      | ok _ error errorTerm? holds =>
          rw [Outcome.bind_of_ok evaluated]
          have agreesAfter := (after _ result middle ran grown holds).agrees room
          generalize next result middle = last at agreesAfter
          generalize evaluationNext _ middle.state.lexicon = evaluatedLast at agreesAfter
          cases agreesAfter with
          | ok _ error' errorTerm?' holds' =>
              exact .ok _ (error'.trans error) (errorTerm?'.trans errorTerm?) holds'
          | stopped terms kept =>
              refine .stopped terms fun own => ?_
              exact ⟨(kept own).1.trans error, (kept own).2.trans errorTerm?⟩
          | scripted some =>
              have failing : middle.state.failing = traced.state.failing := grown.failing
              exact .scripted (failing ▸ some)

theorem pure {value : α} {result : β} (holds : related traced.state value result) :
    Follows model traced.state related ((Pure.pure value : Evaluation α) traced.state.lexicon)
      ((Pure.pure result : Action ScriptedSolver β) traced) :=
  ⟨.refl _, fun _ => .ok _ rfl rfl holds⟩

theorem fail (failure : Failure) :
    Follows model traced.state related ((Evaluation.fail failure) traced.state.lexicon)
      ((Action.fail failure : Action ScriptedSolver β) traced) :=
  ⟨.refl _, fun _ => .stopped rfl fun _ => ⟨rfl, rfl⟩⟩

/-- What is made in the end of a result, the same in both. -/
theorem map {evaluation : Evaluation α} {action : Action ScriptedSolver α} (finish : α → γ)
    (before : Follows model traced.state Same (evaluation traced.state.lexicon) (action traced)) :
    Follows model traced.state Same
      ((do return finish (← evaluation)) traced.state.lexicon)
      ((do return finish (← action)) traced) := by
  refine before.bind (fun result middle _ => .refl _) fun value result middle _ _ same => ?_
  cases same
  exact .pure rfl

theorem record {event : Event} {evaluated : EStateM.Result Stop Lexicon α}
    {action : Action ScriptedSolver β}
    (after : ∀ recorded : Traced ScriptedSolver, recorded.state = traced.state →
      Follows model recorded.state related evaluated (action recorded)) :
    Follows model traced.state related evaluated
      ((Action.record event >>= fun _ => action) traced) :=
  after ⟨traced.state, event :: traced.events⟩ rfl

end Follows

/-! ## Calls -/

/-- The answer of a call beside what an evaluation takes: the same result, or the refusal with the
same error, unless the call is scripted to fail. -/
inductive Answers (name : Call) (model : ModelId) (start : ScriptedSolver)
    (related : ScriptedSolver → α → β → Prop) :
    EStateM.Result Stop Lexicon α → EStateM.Result Fault ScriptedSolver (Reply β) → Prop where
  | ok {value : α} {result : β} {left : ScriptedSolver} (grown : Extends start left)
      (terms : left.terms = start.terms) (error : left.error = start.error)
      (errorTerm? : left.errorTerm? = start.errorTerm?)
      (holds : left.HasRoom model → related left value result) :
      Answers name model start related (.ok value start.lexicon) (.ok (.ok result) left)
  | refused {error : ErrorCode} {cell : β} (some : error ≠ .noError) :
      Answers name model start related (Evaluation.refuse name error start.lexicon)
        (.ok (.failed cell) ((withCall name start).withErrorCode error))
  | scripted {evaluated : EStateM.Result Stop Lexicon α} {cell : β}
      (isScripted : name ∈ start.failing) :
      Answers name model start related evaluated
        (.ok (.failed cell) (withScriptedFailure name start))

theorem failCall_refused {model : ModelId} {name : Call} {start : ScriptedSolver}
    (events : List Event) {error : ErrorCode} (some : error ≠ .noError)
    {related : ScriptedSolver → α → β → Prop} :
    Follows model start related (Evaluation.refuse name error start.lexicon)
      (Action.failCall answer name ⟨(withCall name start).withErrorCode error, events⟩) := by
  have grown : Extends start ((withCall name start).withErrorCode error).withoutError :=
    .of_tables_eq rfl rfl rfl rfl rfl
  rw [failCall_of_error some]
  refine ⟨grown, fun _ => ?_⟩
  exact .stopped rfl fun own => own.elim

theorem failCall_scripted {model : ModelId} {name : Call} {start : ScriptedSolver}
    (events : List Event) (isScripted : name ∈ start.failing)
    {related : ScriptedSolver → α → β → Prop} {evaluated : EStateM.Result Stop Lexicon α} :
    Follows model start related evaluated
      (Action.failCall answer name ⟨withScriptedFailure name start, events⟩) := by
  have grown : Extends start (withScriptedFailure name start).withoutError :=
    .of_tables_eq rfl rfl rfl rfl rfl
  rw [failCall_of_error (by simp [withScriptedFailure, ErrorCode.internalException,
    ErrorCode.noError])]
  refine ⟨grown, fun _ => .scripted ?_⟩
  exact List.ne_nil_of_mem isScripted

section Calls

variable {model : ModelId} {traced : Traced ScriptedSolver} {start : ScriptedSolver}
  {name : Call} {node : Node} {value : ScriptedValue} {related : ScriptedSolver → α → β → Prop}

/-- A call whose answer is that of an evaluation, and its check. -/
theorem Answers.follows {asked : Action ScriptedSolver (Reply β)}
    {evaluated : EStateM.Result Stop Lexicon α}
    {ending : EStateM.Result Fault ScriptedSolver (Reply β)}
    (answers : Answers name model traced.state related evaluated ending)
    (asks : ∀ reply left, ending = .ok reply left →
      asked traced = .ok reply ⟨left, traced.events⟩) :
    Follows model traced.state related evaluated
      ((asked >>= Action.checkReply answer name) traced) := by
  cases answers with
  | @ok value result left grown terms error errorTerm? holds =>
      have lexicon : traced.state.lexicon = left.lexicon := by
        simp only [lexicon, terms, errorTerm?, grown.types]
      rw [Outcome.bind_of_ok (asks _ _ rfl), checkReply_ok, lexicon]
      refine ⟨grown, fun room => ?_⟩
      exact .ok ⟨left, traced.events⟩ error errorTerm? (holds room)
  | refused some =>
      rw [Outcome.bind_of_ok (asks _ _ rfl), (Checks.reply name).refused _ rfl]
      exact failCall_refused _ some
  | scripted isScripted =>
      rw [Outcome.bind_of_ok (asks _ _ rfl), (Checks.reply name).refused _ rfl]
      exact failCall_scripted _ isScripted

/-- An accepted answer of a checked call that makes no terms. -/
theorem Answers.of_accepted (request : Request) (named : request.call? = some name)
    (checked : request.isUnchecked = false) (counted : name ≠ .printError)
    (live : ∀ vector ∈ request.vector?.toList, start.IsLive vector) {reply : request.Answer}
    {left : ScriptedSolver} (ran : answer request start = .ok reply left)
    (accepted : request.isRefusal reply = false) (terms : left.terms = start.terms)
    {value : α} {result : β} (holds : left.HasRoom model → related left value result) :
    Answers name model start related (.ok value start.lexicon) (.ok (.ok result) left) := by
  have attempts := answer_attempts named checked counted
  have grown := attempts.tables live
  rw [ran] at grown
  rcases attempts.honest live ran accepted with ⟨error, errorTerm?⟩
  exact .ok grown terms error errorTerm? holds

theorem readNode_answers (name : Call) (shown : start.Shows model node value) (cell : α)
    (read : ScriptedValue → Except Misfit α) :
    Answers name model start Same (Evaluation.take name (read value) start.lexicon)
      (ScriptedSolver.readNode name model node cell read start) := by
  by_cases scripted : name ∈ start.failing
  · unfold ScriptedSolver.readNode
    rw [attempt_of_mem scripted]
    exact .scripted scripted
  · cases reads : read value with
    | ok result =>
        rw [readNode_of_shows scripted shown cell reads]
        exact .ok (extends_withCall ..) rfl rfl rfl fun _ => rfl
    | error misfit =>
        have found : (withCall name start).node? model node = some value := shown.found
        unfold ScriptedSolver.readNode
        rw [attempt_of_not_mem scripted, Outcome.bind_of_ok (nodeValue_of_some found)]
        simp only [reads]
        exact .refused (by cases misfit <;> decide)

theorem expandTuple_answers (shown : start.Shows model node value) {arity : Nat}
    (cells : Vector Node arity) :
    Answers .expandTuple model start
      (fun left items nodes => List.Forall₂ (left.Shows model) nodes.toList items)
      (Evaluation.take .expandTuple (value.toItems arity) start.lexicon)
      (expandTuple model node arity cells start) := by
  by_cases scripted : .expandTuple ∈ start.failing
  · unfold expandTuple
    rw [attempt_of_mem scripted]
    exact .scripted scripted
  have found : (withCall .expandTuple start).node? model node = some value := shown.found
  by_cases fits : ∃ items, value = .tuple items ∧ items.length = arity
  · rcases fits with ⟨items, rfl, sameArity⟩
    rcases expandTuple_of_shows scripted shown sameArity cells with
      ⟨nodes, left, ran, terms, shows⟩
    simp only [ran, ScriptedValue.toItems, if_pos sameArity]
    exact .of_accepted (.expandTuple model node arity cells) rfl rfl (by decide)
      (by simp [Request.vector?]) ran rfl terms shows
  · have misfit : value.toItems arity = .error .otherKind := by
      cases value with
      | tuple items =>
          have otherArity : items.length ≠ arity := fun same => fits ⟨items, rfl, same⟩
          simp only [ScriptedValue.toItems, if_neg otherArity]
      | _ => rfl
    have refuses : expandTuple model node arity cells start = .ok (.failed cells)
        ((withCall .expandTuple start).withErrorCode .invalidNodeOperation) := by
      unfold expandTuple
      rw [attempt_of_not_mem scripted, Outcome.bind_of_ok (nodeValue_of_some found)]
      cases value with
      | tuple items =>
          have otherArity : items.length ≠ arity := fun same => fits ⟨items, rfl, same⟩
          simp only [dif_neg otherArity]
          rfl
      | _ => rfl
    rw [misfit, refuses]
    exact .refused (by decide)

theorem expandMapping_answers (shown : start.Shows model node value) {arity : Nat}
    (cells : Vector Node arity × Node) :
    Answers .expandMapping model start
      (fun left point nodes =>
        List.Forall₂ (left.Shows model) nodes.1.toList point.args ∧
          left.Shows model nodes.2 point.result)
      (Evaluation.take .expandMapping (value.toPoint arity) start.lexicon)
      (expandMapping model node arity cells start) := by
  by_cases scripted : .expandMapping ∈ start.failing
  · unfold expandMapping
    rw [attempt_of_mem scripted]
    exact .scripted scripted
  have found : (withCall .expandMapping start).node? model node = some value := shown.found
  by_cases fits : ∃ point, value = .mapping point ∧ point.args.length = arity
  · rcases fits with ⟨⟨args, result⟩, rfl, sameArity⟩
    rcases expandMapping_of_shows scripted shown sameArity cells with
      ⟨nodes, last, left, ran, terms, shows⟩
    simp only [ran, ScriptedValue.toPoint, if_pos sameArity]
    exact .of_accepted (.expandMapping model node arity cells) rfl rfl (by decide)
      (by simp [Request.vector?]) ran rfl terms shows
  · have misfit : value.toPoint arity = .error .otherKind := by
      cases value with
      | mapping point =>
          have otherArity : point.args.length ≠ arity := fun same => fits ⟨point, rfl, same⟩
          simp only [ScriptedValue.toPoint, if_neg otherArity]
      | _ => rfl
    have refuses : expandMapping model node arity cells start = .ok (.failed cells)
        ((withCall .expandMapping start).withErrorCode .invalidNodeOperation) := by
      unfold expandMapping
      rw [attempt_of_not_mem scripted, Outcome.bind_of_ok (nodeValue_of_some found)]
      cases value with
      | mapping point =>
          have otherArity : point.args.length ≠ arity := fun same => fits ⟨point, rfl, same⟩
          simp only [dif_neg otherArity]
          rfl
      | _ => rfl
    rw [misfit, refuses]
    exact .refused (by decide)

theorem expandFunction_answers (shown : start.Shows model node value) {vector : VectorId}
    (live : start.IsLive vector) (cell : Node) :
    Answers .expandFunction model start
      (fun left graph default => ∃ nodes, left.vector? vector = some (.nodes nodes) ∧
        left.Shows model default graph.default ∧
          List.Forall₂ (left.Shows model) nodes (graph.entries.map .mapping))
      (Evaluation.take .expandFunction value.toGraph start.lexicon)
      (expandFunction model node vector cell start) := by
  by_cases scripted : .expandFunction ∈ start.failing
  · unfold expandFunction
    rw [Outcome.bind_of_ok (checkVector_of_isLive live), attempt_of_mem scripted]
    exact .scripted scripted
  have found : (withCall .expandFunction start).node? model node = some value := shown.found
  by_cases fits : ∃ arity graph, value = .function arity graph
  · rcases fits with ⟨arity, graph, rfl⟩
    rcases expandFunction_of_shows scripted live shown cell with
      ⟨default, nodes, left, ran, terms, filled, shows⟩
    simp only [ran, ScriptedValue.toGraph]
    exact .of_accepted (.expandFunction model node vector cell) rfl rfl (by decide)
      (by simpa [Request.vector?] using live) ran rfl terms fun room =>
        ⟨nodes, filled, shows room⟩
  · have misfit : value.toGraph = .error .otherKind := by
      cases value with
      | function arity graph => exact absurd ⟨arity, graph, rfl⟩ fits
      | _ => rfl
    have refuses : expandFunction model node vector cell start = .ok (.failed cell)
        ((withCall .expandFunction start).withErrorCode .invalidNodeOperation) := by
      unfold expandFunction
      rw [Outcome.bind_of_ok (checkVector_of_isLive live), attempt_of_not_mem scripted,
        Outcome.bind_of_ok (nodeValue_of_some found)]
      cases value with
      | function arity graph => exact absurd ⟨arity, graph, rfl⟩ fits
      | _ => rfl
    rw [misfit, refuses]
    exact .refused (by decide)

/-- A constant that is known is not the null term, if there is room for all terms. -/
theorem checkTerm_follows {type : TypeId} {index : Int32} {term : TermId} {left : ScriptedSolver}
    (events : List Event) (grown : Extends start left) (error : left.error = start.error)
    (errorTerm? : left.errorTerm? = start.errorTerm?)
    (known : left.constant? type index = some term) :
    Follows model start Same (.ok term left.lexicon)
      (Action.checkTerm answer .constant term ⟨left, events⟩) := by
  unfold Action.checkTerm
  cases null : term.isNull with
  | true =>
      have grownAfter := failCall_extends (α := TermId) .constant ⟨left, events⟩
      refine ⟨grown.trans grownAfter, fun room => ?_⟩
      have room := grownAfter.hasRoom room
      rw [isNull_of_constant? known room.terms] at null
      cases null
  | false => exact ⟨grown, fun _ => .ok ⟨left, events⟩ error errorTerm? rfl⟩

theorem constant_follows (type : TypeId) (index : Int32) :
    Follows model traced.state Same (Evaluation.constant type index traced.state.lexicon)
      ((Action.ask answer (.constant type index) >>= Action.checkTerm answer .constant)
        traced) := by
  by_cases scripted : .constant ∈ traced.state.failing
  · have failed : answer (.constant type index) traced.state = _ := attempt_of_mem scripted _ _
    rw [Outcome.bind_of_ok (Action.ask_of_ok failed), (Checks.term _).refused _ rfl]
    exact failCall_scripted _ scripted
  have runs : answer (.constant type index) traced.state = _ := constant_run scripted
  have sameOffence : traced.state.lexicon.solver.constantError? type index =
      traced.state.constantError? type index := rfl
  have sameConstant : traced.state.lexicon.solver.constant? type index =
      traced.state.constant? type index := rfl
  unfold Evaluation.constant
  rw [sameOffence, sameConstant]
  cases offends : traced.state.constantError? type index with
  | some error =>
      simp only [offends] at runs
      rw [Outcome.bind_of_ok (Action.ask_of_ok runs), (Checks.term _).refused _ rfl]
      exact failCall_refused _ (constantError?_ne_noError offends)
  | none =>
      cases known : traced.state.constant? type index with
      | some term =>
          simp only [offends, known] at runs
          rw [Outcome.bind_of_ok (Action.ask_of_ok runs)]
          exact checkTerm_follows _ (extends_withCall ..) rfl rfl known
      | none =>
          simp only [offends, known] at runs
          have attempts : Attempts (Request.scope (.constant type index)) _ .constant
              (answer (.constant type index)) := answer_attempts rfl rfl (by decide)
          have grown : Extends traced.state _ := attempts.tables fun _ none => by cases none
          rw [runs] at grown
          rw [Outcome.bind_of_ok (Action.ask_of_ok runs)]
          exact checkTerm_follows _ grown rfl rfl (constant?_withConstant known)

end Calls

/-! ## Values without parts -/

section Simple

variable {model : ModelId} {traced : Traced ScriptedSolver} {node : Node} {value : ScriptedValue}
  (shown : traced.state.Shows model node value)

include shown

theorem readBool_follows :
    Follows model traced.state Same
      ((do return .bool ((← Evaluation.take .nodeBool value.toTruth) ≠ 0) : Evaluation Value)
        traced.state.lexicon)
      (readBool answer model node traced) := by
  have answers := readNode_answers .nodeBool shown 0 (·.toTruth)
  unfold readBool
  rw [← bind_assoc]
  exact (answers.follows fun _ _ ran => Action.ask_of_ok ran).map _

theorem readRational_follows :
    Follows model traced.state Same (value.evaluateRational traced.state.lexicon)
      (readRational answer model node traced) := by
  have isInt64 : answer (.nodeIsInt64 model node) traced.state =
      .ok value.toInt64.isOk traced.state := measureNode_of_shows shown (·.toInt64.isOk) false
  have isRational64 : answer (.nodeIsRational64 model node) traced.state =
      .ok value.toWords64.isOk traced.state := measureNode_of_shows shown (·.toWords64.isOk) false
  unfold readRational ScriptedValue.evaluateRational
  rw [Outcome.bind_of_ok (Action.ask_of_ok isInt64)]
  by_cases integer : value.toInt64.isOk = true
  · have answers := readNode_answers .nodeInt64 shown 0 (·.toInt64)
    simp only [integer, if_true, ← bind_assoc]
    exact (answers.follows fun _ _ ran => Action.ask_of_ok ran).map _
  simp only [integer, Bool.false_eq_true, if_false]
  rw [Outcome.bind_of_ok (Action.ask_of_ok isRational64)]
  by_cases words : value.toWords64.isOk = true
  · have answers := readNode_answers .nodeRational64 shown (0, 0) (·.toWords64)
    simp only [words, if_true, ← bind_assoc]
    exact (answers.follows fun _ _ ran => Action.ask_of_ok ran).map _
  · have answers := readNode_answers .nodeDouble shown 0 (·.toFloat)
    simp only [words, Bool.false_eq_true, if_false, ← bind_assoc]
    exact (answers.follows fun _ _ ran => Action.ask_of_ok ran).map _

theorem readScalar_follows :
    Follows model traced.state Same (value.evaluateScalar traced.state.lexicon)
      (readScalar answer model node traced) := by
  have answers := readNode_answers .nodeScalar shown (0, .null) (·.toScalar)
  have naming (cells : Int32 × TypeId) : Disciplined Request.isQuestion [] (fun _ solver =>
      Action.ask solver (.constant cells.2 cells.1) >>= Action.checkTerm solver .constant >>=
        fun constant => pure (Value.scalar ⟨constant, cells.2, cells.1⟩)) :=
    .bind (.call _ rfl rfl (by simp [Request.vector?]) (.term _)) fun _ => .pure _
  unfold readScalar ScriptedValue.evaluateScalar
  simp only [← bind_assoc]
  refine (answers.follows fun _ _ ran => Action.ask_of_ok ran).bind
    (fun cells middle _ => (naming cells).grows_of_nil middle)
    fun taken cells middle _ _ same => ?_
  cases same
  exact (constant_follows taken.2 taken.1).map _

theorem readBits_follows :
    Follows model traced.state Same (value.evaluateBits traced.state.lexicon)
      (readBits answer model node traced) := by
  have size : answer (.nodeBitSize model node) traced.state = .ok value.bitSize traced.state :=
    measureNode_of_shows shown (·.bitSize) 0
  unfold readBits ScriptedValue.evaluateBits
  rw [Outcome.bind_of_ok (Action.ask_of_ok size)]
  by_cases empty : value.bitSize = 0
  · simp only [empty, if_true]
    exact .pure rfl
  · have answers := readNode_answers .nodeBits shown
      (Vector.replicate value.bitSize.toNat 0) (·.toBits value.bitSize.toNat)
    simp only [empty, if_false, ← bind_assoc]
    exact (answers.follows fun _ _ ran => Action.ask_of_ok ran).map _

end Simple

/-! ## Composites -/

/-- A routine that reads values as an evaluation evaluates them. -/
structure FollowsValues (model : ModelId) (evaluate : ScriptedValue → Evaluation Value)
    (read : Node → Routine Value) : Prop where
  disciplined : ∀ held node, Disciplined Request.isQuestion held (read node)
  follows : ∀ (traced : Traced ScriptedSolver) (node : Node) (value : ScriptedValue),
    traced.state.Shows model node value →
      Follows model traced.state Same (evaluate value traced.state.lexicon)
        (read node _ answer traced)

/-- A routine that reads the entries of a function as an evaluation evaluates them. -/
structure FollowsEntries (model : ModelId)
    (evaluateEntry : Mapping ScriptedValue → Evaluation (Mapping Value))
    (readEntry : Node → Routine (Mapping Value)) : Prop where
  disciplined : ∀ held entry, Disciplined Request.isQuestion held (readEntry entry)
  follows : ∀ (traced : Traced ScriptedSolver) (node : Node) (entry : Mapping ScriptedValue),
    traced.state.Shows model node (.mapping entry) →
      Follows model traced.state Same (evaluateEntry entry traced.state.lexicon)
        (readEntry node _ answer traced)

section Composites

variable {model : ModelId} {evaluate : ScriptedValue → Evaluation Value}
  {read : Node → Routine Value} {traced : Traced ScriptedSolver} {node : Node}
  {value : ScriptedValue}

section Parts

variable (reader : FollowsValues model evaluate read)

include reader

theorem mapM_follows {nodes : List Node} {items : List ScriptedValue}
    (shown : List.Forall₂ (traced.state.Shows model) nodes items) :
    Follows model traced.state Same (items.mapM evaluate traced.state.lexicon)
      (nodes.mapM (fun node => read node _ answer) traced) := by
  induction items generalizing nodes traced with
  | nil =>
      cases shown
      exact .pure rfl
  | cons item items ih =>
      cases shown with
      | @cons node _ nodes _ firstShown othersShown =>
          have others (result : Value) : Disciplined Request.isQuestion [] fun σ solver =>
              nodes.mapM (fun child => read child σ solver) >>=
                fun results => pure (result :: results) :=
            .bind (.mapM (reader.disciplined []) nodes) fun _ => .pure _
          rw [List.mapM_cons, List.mapM_cons]
          refine (reader.follows traced node item firstShown).bind
            (fun result middle _ => (others result).grows_of_nil middle)
            fun evaluated result middle _ grown same => ?_
          cases same
          exact (ih (othersShown.imp fun _ _ => grown.shows)).map _

theorem readTuple_follows (shown : traced.state.Shows model node value) :
    Follows model traced.state Same (value.evaluateTuple evaluate traced.state.lexicon)
      (readTuple answer model (fun child => read child _ answer) node traced) := by
  have arity : answer (.tupleArity model node) traced.state = .ok value.tupleArity traced.state :=
    measureNode_of_shows shown (·.tupleArity) 0
  unfold readTuple ScriptedValue.evaluateTuple
  rw [Outcome.bind_of_ok (Action.ask_of_ok arity)]
  by_cases empty : value.tupleArity = 0
  · simp only [empty, if_true]
    exact .pure rfl
  · have answers := expandTuple_answers shown (Vector.replicate value.tupleArity.toNat .blank)
    have parts (nodes : List Node) : Disciplined Request.isQuestion [] fun σ solver =>
        nodes.mapM (fun child => read child σ solver) >>= fun values => pure (Value.tuple values) :=
      .bind (.mapM (reader.disciplined []) nodes) fun _ => .pure _
    simp only [empty, if_false]
    rw [← bind_assoc (m := Action ScriptedSolver)]
    refine (answers.follows fun _ _ ran => Action.ask_of_ok ran).bind
      (fun nodes middle _ => (parts nodes.toList).grows_of_nil middle)
      fun items nodes middle _ _ shows => ?_
    exact (mapM_follows reader shows).map _

theorem readMapping_follows (shown : traced.state.Shows model node value) :
    Follows model traced.state Same (value.evaluateMapping evaluate traced.state.lexicon)
      (readMapping answer model (fun child => read child _ answer) node traced) := by
  have arity : answer (.mappingArity model node) traced.state =
      .ok value.mappingArity traced.state := measureNode_of_shows shown (·.mappingArity) 0
  unfold readMapping ScriptedValue.evaluateMapping
  rw [Outcome.bind_of_ok (Action.ask_of_ok arity)]
  by_cases empty : value.mappingArity = 0
  · simp only [empty, if_true]
    exact .pure rfl
  · have answers := expandMapping_answers shown
      (Vector.replicate value.mappingArity.toNat .blank, .blank)
    have resultLast (last : Node) (values : List Value) :
        Disciplined Request.isQuestion [] fun σ solver =>
          read last σ solver >>= fun value => pure (some (Mapping.mk values value)) :=
      .bind (reader.disciplined [] last) fun _ => .pure _
    have parts (nodes : List Node) (last : Node) :
        Disciplined Request.isQuestion [] fun σ solver =>
          nodes.mapM (fun child => read child σ solver) >>= fun values =>
            read last σ solver >>= fun value => pure (some (Mapping.mk values value)) :=
      .bind (.mapM (reader.disciplined []) nodes) fun values => resultLast last values
    simp only [empty, if_false]
    rw [← bind_assoc (m := Action ScriptedSolver)]
    refine (answers.follows fun _ _ ran => Action.ask_of_ok ran).bind
      (fun cells middle _ => (parts cells.1.toList cells.2).grows_of_nil middle)
      fun point cells middle _ _ shows => ?_
    rcases shows with ⟨argsShown, lastShown⟩
    refine (mapM_follows reader argsShown).bind
      (fun values after _ => (resultLast cells.2 values).grows_of_nil after)
      fun values values' after _ grown same => ?_
    cases same
    exact (reader.follows after cells.2 point.result (grown.shows lastShown)).map _

theorem readEntry_some_follows (limit : DepthLimit) :
    FollowsEntries model (ScriptedValue.evaluateEntry limit (some evaluate)) fun entry _ solver =>
      readEntry solver model limit (some fun child => read child _ solver) entry := by
  refine ⟨fun held entry => readEntry_some_disciplined (fun _ question => question) model
    (reader.disciplined held) limit entry, fun traced node entry shown => ?_⟩
  have isMapping : node.kind? = some .mapping := by
    rw [Node.kind?, shown.tag]
    exact NodeKind.ofTag?_tag .mapping
  simp only [readEntry, ScriptedValue.evaluateEntry, isMapping, ne_eq, not_true, if_false]
  refine (readMapping_follows reader shown).bind (fun point? middle _ => ?_)
    fun point? point?' middle _ _ same => ?_
  · cases point? <;> exact .refl _
  · cases same
    cases point? with
    | none => exact .fail _
    | some point => exact .pure rfl

end Parts

theorem readEntry_none_follows (limit : DepthLimit) :
    FollowsEntries model (ScriptedValue.evaluateEntry limit none) fun entry _ solver =>
      readEntry solver model limit none entry :=
  ⟨fun _ entry => readEntry_none_disciplined model limit entry, fun _ _ _ _ => .fail _⟩

theorem addEntry_follows (function : FunctionValue) (point : Mapping Value) :
    Follows model traced.state Same (Evaluation.addPoint function point traced.state.lexicon)
      (addEntry function point traced) := by
  unfold addEntry Evaluation.addPoint
  cases inserts : function.insert point with
  | error undefined =>
      have adds : function.insertPoint point = .error undefined := by
        rw [FiniteFunction.insertPoint, inserts]
        rfl
      rw [adds]
      cases undefined
      exact ⟨.refl _, fun _ => .stopped rfl fun _ => ⟨rfl, rfl⟩⟩
  | ok inserted =>
      rcases inserted with ⟨replaced?, added⟩
      have adds : function.insertPoint point = .ok added := by
        rw [FiniteFunction.insertPoint, inserts]
        rfl
      rw [adds]
      cases replaced? with
      | none => exact .pure rfl
      | some replaced =>
          refine ⟨.refl _, fun _ => ?_⟩
          exact .ok ⟨traced.state, .entryReplaced replaced :: traced.events⟩ rfl rfl rfl

section Entries

variable {evaluateEntry : Mapping ScriptedValue → Evaluation (Mapping Value)}
  {readEntry : Node → Routine (Mapping Value)}
  (entryReader : FollowsEntries model evaluateEntry readEntry)

include entryReader

theorem addEntries_follows {nodes : List Node} {entries : List (Mapping ScriptedValue)}
    (shown : List.Forall₂ (traced.state.Shows model) nodes (entries.map .mapping))
    (function : FunctionValue) :
    Follows model traced.state Same
      ((entries.foldlM
        (fun function entry => do Evaluation.addPoint function (← evaluateEntry entry))
        function : Evaluation FunctionValue) traced.state.lexicon)
      ((nodes.foldlM (fun function entry => do addEntry function (← readEntry entry _ answer))
        function : Action _ FunctionValue) traced) := by
  induction entries generalizing nodes traced function with
  | nil =>
      cases shown
      exact .pure rfl
  | cons entry entries ih =>
      cases shown with
      | @cons node _ nodes _ firstShown othersShown =>
          rw [List.foldlM_cons, List.foldlM_cons]
          have adding : Follows model traced.state Same
              ((do Evaluation.addPoint function (← evaluateEntry entry)) traced.state.lexicon)
              ((do addEntry function (← readEntry node _ answer)) traced) := by
            refine (entryReader.follows traced node entry firstShown).bind
              (fun point middle _ => (addEntry_disciplined function point).grows_of_nil middle)
              fun point point' middle _ _ same => ?_
            cases same
            exact addEntry_follows function point
          refine adding.bind (fun added middle _ =>
            (addEntries_disciplined entryReader.disciplined nodes added).grows_of_nil middle)
            fun added added' middle _ grown same => ?_
          cases same
          exact ih (othersShown.imp fun _ _ => grown.shows) added

end Entries

/-- A reading that follows an evaluation does so when a vector is held for it. -/
theorem withNodeVector_follows {body : VectorId → Action ScriptedSolver Value}
    {evaluated : EStateM.Result Stop Lexicon Value}
    (live : (Outcome.state (body traced.state.nextVector
      (traced.map (·.withNextVector (.nodes []) .withNodesMade)))).state.IsLive
        traced.state.nextVector)
    (inside : Follows model (traced.state.withNextVector (.nodes []) .withNodesMade) Same evaluated
      (body traced.state.nextVector
        (traced.map (·.withNextVector (.nodes []) .withNodesMade)))) :
    Follows model traced.state Same evaluated (Action.withNodeVector answer body traced) := by
  rw [withNodeVector_run body traced live]
  revert inside
  generalize body traced.state.nextVector _ = ending
  intro inside
  have released (left : Traced ScriptedSolver) : Extends left.state
      (left.state.withoutVector traced.state.nextVector .withNodesReleased) :=
    extends_withoutVector ..
  refine ⟨?_, fun room => ?_⟩
  · rw [Outcome.state_mapState]
    exact ((extends_withNextVector ..).trans inside.grows).trans (released _)
  · rw [Outcome.state_mapState] at room
    cases inside.agrees ((released _).hasRoom room) with
    | ok left error errorTerm? same =>
        let closed := left.map (·.withoutVector traced.state.nextVector .withNodesReleased)
        exact .ok closed error errorTerm? same
    | stopped terms kept => exact .stopped terms kept
    | scripted some => exact .scripted some

section Functions

variable {evaluateEntry : Mapping ScriptedValue → Evaluation (Mapping Value)}
  {readEntry : Node → Routine (Mapping Value)} (reader : FollowsValues model evaluate read)
  (entryReader : FollowsEntries model evaluateEntry readEntry)

include reader entryReader

theorem readParts_follows {vector : VectorId} {graph : FiniteFunction ScriptedValue}
    {nodes : List Node} (filled : traced.state.vector? vector = some (.nodes nodes))
    (defaultShown : traced.state.Shows model node graph.default)
    (entriesShown : List.Forall₂ (traced.state.Shows model) nodes (graph.entries.map .mapping)) :
    Follows model traced.state Same
      ((do
        let default ← evaluate graph.default
        let function ← graph.entries.foldlM
          (fun function entry => do Evaluation.addPoint function (← evaluateEntry entry))
          (FiniteFunction.constant default)
        return .function function : Evaluation Value) traced.state.lexicon)
      (readParts answer (fun child => read child _ answer) (fun entry => readEntry entry _ answer)
        vector node traced) := by
  have adding (entries : List Node) (default : Value) : Disciplined Request.isQuestion []
      (fun σ solver =>
        entries.foldlM (fun function entry => readEntry entry σ solver >>= addEntry function)
          (FiniteFunction.constant default) >>= fun function => pure (Value.function function)) :=
    .bind (addEntries_disciplined entryReader.disciplined entries _) fun _ => .pure _
  -- reading the default leaves alone the vector that holds the entries
  have elements value (after : Traced ScriptedSolver)
      (ran : read node _ answer traced = .ok value after) :
      answer (.nodeVectorElements vector) after.state = .ok nodes after.state :=
    nodeVectorElements_of_filled ((reader.disciplined [] node).vector?_kept ran filled)
  unfold readParts
  refine (reader.follows traced node graph.default defaultShown).bind
    (fun value after ran => ?_) fun value value' after ran grown same => ?_
  · rw [Outcome.bind_of_ok (Action.ask_of_ok (elements value after ran))]
    exact (adding nodes value).grows_of_nil _
  · cases same
    rw [Outcome.bind_of_ok (Action.ask_of_ok (elements value after ran))]
    exact (addEntries_follows entryReader (entriesShown.imp fun _ _ => grown.shows) _).map _

theorem readGraph_follows {vector : VectorId} (live : traced.state.IsLive vector)
    (shown : traced.state.Shows model node value) :
    Follows model traced.state Same
      ((do
        let graph ← Evaluation.take .expandFunction value.toGraph
        let default ← evaluate graph.default
        let function ← graph.entries.foldlM
          (fun function entry => do Evaluation.addPoint function (← evaluateEntry entry))
          (FiniteFunction.constant default)
        return .function function : Evaluation Value) traced.state.lexicon)
      (readGraph answer model (fun child => read child _ answer)
        (fun entry => readEntry entry _ answer) node vector traced) := by
  have answers := expandFunction_answers shown live .blank
  have calling : Disciplined Request.isQuestion [vector] (fun _ solver =>
      Action.ask solver (.expandFunction model node vector .blank) >>=
        Action.checkReply solver .expandFunction) :=
    .call _ rfl rfl (by simp [Request.vector?]) (.reply _)
  unfold readGraph
  rw [← bind_assoc (m := Action ScriptedSolver)]
  refine (answers.follows fun _ _ ran => Action.ask_of_ok ran).bind
    (fun default middle ran => ?_) fun graph default middle _ _ shows => ?_
  · have framed := calling.frame Request.tradesVector_of_isQuestion
      (by simpa using live)
    rw [ran] at framed
    exact (readParts_disciplined (fun _ question => question) reader.disciplined
      entryReader.disciplined default (by simp)).grows framed.kept.1
  · rcases shows with ⟨nodes, filled, defaultShown, entriesShown⟩
    exact readParts_follows reader entryReader filled defaultShown entriesShown

theorem readFunction_follows (shown : traced.state.Shows model node value) :
    Follows model traced.state Same
      (value.evaluateFunction evaluate evaluateEntry traced.state.lexicon)
      (readFunction answer model (fun child => read child _ answer)
        (fun entry => readEntry entry _ answer) node traced) := by
  have arity : answer (.functionArity model node) traced.state =
      .ok value.functionArity traced.state := measureNode_of_shows shown (·.functionArity) 0
  unfold ScriptedValue.evaluateFunction
  rw [readFunction_eq, Outcome.bind_of_ok (Action.ask_of_ok arity)]
  by_cases empty : value.functionArity = 0
  · simp only [if_pos empty]
    exact .pure rfl
  · simp only [if_neg empty]
    let opened := traced.map (·.withNextVector (.nodes []) .withNodesMade)
    have grown : Extends traced.state opened.state := extends_withNextVector ..
    have live : ∀ held ∈ [traced.state.nextVector], opened.state.IsLive held :=
      isLive_held_withNextVector (by simp) (.nodes []) .withNodesMade
    have stillLive := (readGraph_disciplined (fun _ question => question) model reader.disciplined
      entryReader.disciplined node (List.mem_singleton.mpr rfl)).leaves_live live
    refine withNodeVector_follows stillLive ?_
    exact readGraph_follows reader entryReader (live _ (by simp)) (grown.shows shown)

end Functions

end Composites

/-! ## Whole values -/

section Whole

variable {limit : DepthLimit} {model : ModelId} {room : Nat} {traced : Traced ScriptedSolver}
  {node : Node} {value : ScriptedValue}

theorem readKind_follows
    (reader : FollowsValues model (ScriptedValue.evaluate limit room)
      fun child _ solver => read solver model limit room child)
    (entryReader : FollowsEntries model
      (ScriptedValue.evaluateEntry limit (ScriptedValue.evaluateBelow? limit room))
      fun entry _ solver => readEntry solver model limit (readBelow? solver model limit room) entry)
    (shown : traced.state.Shows model node value) :
    Follows model traced.state Same
      (value.evaluateKind limit (ScriptedValue.evaluate limit room)
        (ScriptedValue.evaluateBelow? limit room) traced.state.lexicon)
      (readKind answer model limit room node traced) := by
  have kind : node.kind? = NodeKind.ofTag? value.tag := by rw [Node.kind?, shown.tag]
  unfold readKind ScriptedValue.evaluateKind
  rw [kind, shown.tag]
  rcases NodeKind.ofTag? value.tag with _ | kind
  · exact .fail _
  cases kind with
  | unknown => exact .fail _
  | algebraic => exact .fail _
  | bool => exact readBool_follows shown
  | rational => exact readRational_follows shown
  | scalar => exact readScalar_follows shown
  | bitVector => exact readBits_follows shown
  | tuple => exact readTuple_follows reader shown
  | mapping =>
      refine (readMapping_follows reader shown).bind (fun point? middle _ => ?_)
        fun point? point?' middle _ _ same => ?_
      · cases point? <;> exact .refl _
      · cases same
        cases point? <;> exact .pure rfl
  | function =>
      have followed := readFunction_follows reader entryReader shown
      exact followed

end Whole

/-- A value that is shown is read as it is evaluated. -/
theorem read_follows (limit : DepthLimit) (model : ModelId) (room : Nat) :
    FollowsValues model (ScriptedValue.evaluate limit room)
      fun node _ solver => read solver model limit room node := by
  -- below the entries of a function there are two levels less, which plain induction misses
  induction room using Nat.strongRecOn with
  | ind room ih =>
      refine ⟨fun held node => read_disciplined (fun _ question => question) model limit room held
        node, fun traced node value shown => ?_⟩
      cases room with
      | zero => exact .fail _
      | succ room =>
          have entryReader : FollowsEntries model
              (ScriptedValue.evaluateEntry limit (ScriptedValue.evaluateBelow? limit room))
              fun entry _ solver =>
                readEntry solver model limit (readBelow? solver model limit room) entry := by
            cases room with
            | zero => exact readEntry_none_follows limit
            | succ room => exact readEntry_some_follows (ih room (by omega)) limit
          rw [ScriptedValue.evaluate_succ]
          simp only [read_succ]
          refine .record fun recorded same => ?_
          rw [← same] at shown ⊢
          exact readKind_follows (ih room (by omega)) entryReader shown

end Reading

open ScriptedSolver

/-- The value of a term is read as it is evaluated. -/
theorem Model.read_follows {model : Model} {term : TermId} {traced : Traced ScriptedSolver}
    {value : ScriptedValue} (assigned : traced.state.value? model.id term = some value) :
    Reading.Follows model.id traced.state Reading.Same
      (value.evaluate model.limit model.limit.levels traced.state.lexicon)
      (model.read answer term traced) := by
  have answers : Reading.Answers .value model.id traced.state
      (fun left value root => left.Shows model.id root value) (.ok value traced.state.lexicon)
      (ScriptedSolver.value model.id term .blank traced.state) := by
    by_cases scripted : .value ∈ traced.state.failing
    · unfold ScriptedSolver.value
      rw [attempt_of_mem scripted]
      exact .scripted scripted
    · rcases value_of_some scripted assigned .blank with ⟨root, left, ran, terms, shows⟩
      rw [ran]
      exact .of_accepted (.value model.id term .blank) rfl rfl (by decide)
        (by simp [Request.vector?]) ran rfl terms shows
  have reader := Reading.read_follows model.limit model.id model.limit.levels
  have starts : value.evaluate model.limit model.limit.levels =
      (Pure.pure value >>= ScriptedValue.evaluate model.limit model.limit.levels) := rfl
  unfold Model.read
  rw [← bind_assoc, starts]
  refine (answers.follows fun _ _ ran => Action.ask_of_ok ran).bind
    (fun root middle _ => (reader.disciplined [] root).grows_of_nil middle)
    fun value root middle _ _ shows => ?_
  exact reader.follows middle root value shows

theorem failCall_not_isOwn (name : Call) (traced : Traced ScriptedSolver) :
    ∃ stop left,
      (Action.failCall answer name traced : EStateM.Result _ _ Value) = .error stop left ∧
        ¬ stop.IsOwn := by
  by_cases clear : traced.state.error = .noError
  · exact ⟨_, _, failCall_of_noError clear name, id⟩
  · exact ⟨_, _, failCall_of_error clear name, id⟩

/-- A term without a value cannot be read. The error is left alone unless the call has failed. -/
theorem Model.read_of_value?_eq_none {model : Model} {term : TermId}
    {traced : Traced ScriptedSolver} (missing : traced.state.value? model.id term = none) :
    ∃ stop left, model.read answer term traced = .error stop left ∧ (stop.IsOwn →
      left.state.error = traced.state.error ∧
        left.state.errorTerm? = traced.state.errorTerm?) := by
  have attempts : Attempts _ _ .value (answer (.value model.id term .blank)) :=
    answer_attempts rfl rfl (by decide)
  unfold read
  cases answered : answer (.value model.id term .blank) traced.state with
  | error fault left =>
      rw [Outcome.bind_of_error (Action.ask_of_error answered)]
      have kept := attempts.faulted (by simp [Request.scope, Request.vector?]) answered
      exact ⟨_, _, rfl, fun _ => kept⟩
  | ok reply left =>
      rw [Outcome.bind_of_ok (Action.ask_of_ok answered)]
      by_cases isRefused : reply.status = statusFailed
      · rw [(Checks.reply _).refused reply (decide_eq_true isRefused), Checks.failCall_bind]
        rcases failCall_not_isOwn .value ⟨left, traced.events⟩ with ⟨stop, reached, ended, notOwn⟩
        exact ⟨stop, reached, ended, fun own => absurd own notOwn⟩
      · rcases value?_of_answer answered isRefused with ⟨value, found⟩
        cases missing.symm.trans found

end SmtModel
