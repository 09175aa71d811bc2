import SmtModel.Proofs.Routine

/-!
# The library is disciplined

Reading a value, putting a query to a model, using a service and making a model are
disciplined routines, and so is whatever an operation of a client runs. An operation
that answers with a result or a failure leaves only questions unchecked.
-/

namespace SmtModel

open SmtModel.Action

namespace Reading

variable {unchecked : Request → Bool} {held : List VectorId}
  (questions : ∀ request : Request, request.isQuestion = true → unchecked request = true)
  (model : ModelId)

theorem readBool_disciplined (node : Node) :
    Disciplined unchecked held (fun _ solver => readBool solver model node) := by
  unfold readBool
  exact .callThen (.nodeBool ..) rfl rfl (by simp [Request.vector?]) (.reply _)
    fun _ => .pure _

include questions in
theorem readRational_disciplined (node : Node) :
    Disciplined unchecked held (fun _ solver => readRational solver model node) := by
  unfold readRational
  refine .bind (.ask (questions _ rfl) (by simp [Request.vector?])) fun isInt64 => ?_
  cases isInt64 with
  | true =>
      simp only [if_true]
      exact .callThen (.nodeInt64 ..) rfl rfl (by simp [Request.vector?]) (.reply _)
        fun _ => .pure _
  | false =>
      simp only [Bool.false_eq_true, if_false]
      refine .bind (.ask (questions _ rfl) (by simp [Request.vector?])) fun isRational64 => ?_
      cases isRational64 with
      | true =>
          simp only [if_true]
          exact .callThen (.nodeRational64 ..) rfl rfl (by simp [Request.vector?])
            (.reply _) fun _ => .pure _
      | false =>
          simp only [Bool.false_eq_true, if_false]
          exact .callThen (.nodeDouble ..) rfl rfl (by simp [Request.vector?]) (.reply _)
            fun _ => .pure _

theorem readScalar_disciplined (node : Node) :
    Disciplined unchecked held (fun _ solver => readScalar solver model node) := by
  unfold readScalar
  refine .callThen (.nodeScalar ..) rfl rfl (by simp [Request.vector?]) (.reply _)
    fun place => ?_
  exact .callThen (.constant ..) rfl rfl (by simp [Request.vector?]) (.term _)
    fun _ => .pure _

include questions in
theorem readBits_disciplined (node : Node) :
    Disciplined unchecked held (fun _ solver => readBits solver model node) := by
  unfold readBits
  refine .bind (.ask (questions _ rfl) (by simp [Request.vector?])) fun width => ?_
  by_cases empty : width = 0
  · simp only [empty, if_true]
    exact .pure _
  · simp only [empty, if_false]
    exact .callThen (.nodeBits ..) rfl rfl (by simp [Request.vector?]) (.reply _)
      fun _ => .pure _

section Composites

variable {read : Node → Routine Value}
  (read_disciplined : ∀ node, Disciplined unchecked held (read node))

include questions read_disciplined in
theorem readTuple_disciplined (node : Node) :
    Disciplined unchecked held
      (fun σ solver => readTuple solver model (fun child => read child σ solver) node) := by
  unfold readTuple
  refine .bind (.ask (questions _ rfl) (by simp [Request.vector?])) fun arity => ?_
  by_cases empty : arity = 0
  · simp only [empty, if_true]
    exact .pure _
  · simp only [empty, if_false]
    refine .callThen (.expandTuple ..) rfl rfl (by simp [Request.vector?]) (.reply _)
      fun items => ?_
    exact .bind (.mapM read_disciplined _) fun _ => .pure _

include questions read_disciplined in
theorem readMapping_disciplined (node : Node) :
    Disciplined unchecked held
      (fun σ solver => readMapping solver model (fun child => read child σ solver) node) := by
  unfold readMapping
  refine .bind (.ask (questions _ rfl) (by simp [Request.vector?])) fun arity => ?_
  by_cases empty : arity = 0
  · simp only [empty, if_true]
    exact .pure _
  · simp only [empty, if_false]
    refine .callThen (.expandMapping ..) rfl rfl (by simp [Request.vector?]) (.reply _)
      fun cells => ?_
    exact .bind (.mapM read_disciplined _) fun _ => .bind (read_disciplined _) fun _ => .pure _

theorem readEntry_none_disciplined (limit : DepthLimit) (entry : Node) :
    Disciplined unchecked held (fun _ solver => readEntry solver model limit none entry) := by
  unfold readEntry
  exact .fail trivial

include questions read_disciplined in
theorem readEntry_some_disciplined (limit : DepthLimit) (entry : Node) :
    Disciplined unchecked held
      (fun σ solver =>
        readEntry solver model limit (some fun child => read child σ solver) entry) := by
  have reading := readMapping_disciplined questions model read_disciplined entry
  unfold readEntry
  by_cases isMapping : entry.kind? = some .mapping
  · simp only [isMapping, ne_eq, not_true, if_false]
    refine .bind reading fun point? => ?_
    cases point? with
    | none => exact .fail trivial
    | some point => exact .pure point
  · simp only [isMapping, ne_eq, not_false_eq_true, if_true]
    refine .bind (.fail trivial) fun _ => .bind reading fun point? => ?_
    cases point? with
    | none => exact .fail trivial
    | some point => exact .pure point

theorem addEntry_disciplined (function : FunctionValue) (point : Mapping Value) :
    Disciplined unchecked held (fun _ _ => addEntry function point) := by
  unfold addEntry
  refine .bind (.compute _) fun ⟨replaced?, function⟩ => ?_
  cases replaced? with
  | none => exact .pure function
  | some replaced => exact .bind (.record _) fun _ => .pure function

end Composites

/-- The reading of the parts of a function, the entries of which are in a vector. -/
def readParts {σ : Type} (solver : Solver σ) (read : Node → Action σ Value)
    (readEntry : Node → Action σ (Mapping Value)) (vector : VectorId) (default : Node) :
    Action σ Value := do
  let default ← read default
  let entries ← ask solver (.nodeVectorElements vector)
  let function ← entries.foldlM
    (fun function entry => do addEntry function (← readEntry entry))
    (FiniteFunction.constant default)
  return .function function

/-- The reading of a function for which a vector is held. -/
def readGraph {σ : Type} (solver : Solver σ) (model : ModelId) (read : Node → Action σ Value)
    (readEntry : Node → Action σ (Mapping Value)) (node : Node) (vector : VectorId) :
    Action σ Value := do
  let default ←
    checkReply solver .expandFunction (← ask solver (.expandFunction model node vector .blank))
  readParts solver read readEntry vector default

theorem readFunction_eq {σ : Type} (solver : Solver σ) (read : Node → Action σ Value)
    (readEntry : Node → Action σ (Mapping Value)) (node : Node) :
    readFunction solver model read readEntry node = (do
      let arity ← ask solver (.functionArity model node)
      if arity = 0 then return .absent
      withNodeVector solver (readGraph solver model read readEntry node)) := rfl

section Functions

variable {read : Node → Routine Value} {readEntry : Node → Routine (Mapping Value)}
  (read_disciplined : ∀ held node, Disciplined unchecked held (read node))
  (readEntry_disciplined : ∀ held entry, Disciplined unchecked held (readEntry entry))

include readEntry_disciplined in
theorem addEntries_disciplined (entries : List Node) (function : FunctionValue) :
    Disciplined unchecked held (fun σ solver => entries.foldlM
      (fun function entry => do addEntry function (← readEntry entry σ solver)) function) :=
  .foldlM (fun function entry => .bind (readEntry_disciplined _ entry) fun point =>
    addEntry_disciplined function point) _ _

include questions read_disciplined readEntry_disciplined

theorem readParts_disciplined (default : Node) {vector : VectorId} (isHeld : vector ∈ held) :
    Disciplined unchecked held
      (fun σ solver => readParts solver (fun child => read child σ solver)
        (fun entry => readEntry entry σ solver) vector default) := by
  unfold readParts
  refine .bind (read_disciplined _ _) fun default => ?_
  refine .bind (.ask (questions _ rfl) (by simpa [Request.vector?] using isHeld)) fun entries => ?_
  exact .bind (addEntries_disciplined readEntry_disciplined entries _) fun _ => .pure _

theorem readGraph_disciplined (node : Node) {vector : VectorId} (isHeld : vector ∈ held) :
    Disciplined unchecked held
      (fun σ solver => readGraph solver model (fun child => read child σ solver)
        (fun entry => readEntry entry σ solver) node vector) :=
  .callThen (.expandFunction ..) rfl rfl (by simpa [Request.vector?] using isHeld) (.reply _)
    fun default => readParts_disciplined questions read_disciplined readEntry_disciplined
      default isHeld

theorem readFunction_disciplined (node : Node) :
    Disciplined unchecked held
      (fun σ solver => readFunction solver model (fun child => read child σ solver)
        (fun entry => readEntry entry σ solver) node) := by
  simp only [readFunction_eq]
  refine .bind (.ask (questions _ rfl) (by simp [Request.vector?])) fun arity => ?_
  by_cases empty : arity = 0
  · simp only [empty, if_true]
    exact .pure _
  · simp only [empty, if_false]
    exact .withNodeVector fun vector =>
      readGraph_disciplined questions model read_disciplined readEntry_disciplined node (by simp)

end Functions

/-- The reading of what lies below the entries of a function, if there is room for it. -/
def readBelow? {σ : Type} (solver : Solver σ) (model : ModelId) (limit : DepthLimit) :
    (room : Nat) → Option (Node → Action σ Value)
  | 0 => none
  | below + 1 => some (read solver model limit below)

/-- The reading of a node above the limit, after it is recorded. -/
def readKind {σ : Type} (solver : Solver σ) (model : ModelId) (limit : DepthLimit) (room : Nat)
    (node : Node) : Action σ Value :=
  match node.kind? with
  | none | some .unknown => fail (.internal (.unexpectedTag node.tag))
  | some .algebraic => fail (.notImplemented "algebraic number decoding")
  | some .bool => readBool solver model node
  | some .rational => readRational solver model node
  | some .scalar => readScalar solver model node
  | some .bitVector => readBits solver model node
  | some .tuple => readTuple solver model (read solver model limit room) node
  | some .mapping => do
    match ← readMapping solver model (read solver model limit room) node with
    | none => return .absent
    | some point => return .mapping point
  | some .function =>
    readFunction solver model (read solver model limit room)
      (readEntry solver model limit (readBelow? solver model limit room)) node

-- The recursion is opened by hand: Lean takes long to find this equation by itself.
theorem read_succ {σ : Type} (solver : Solver σ) (limit : DepthLimit) (room : Nat) (node : Node) :
    read solver model limit (room + 1) node = (do
      record (.readingNode node (limit.levels - (room + 1)))
      readKind solver model limit room node) := by
  delta readKind readBelow? read
  dsimp only [Nat.brecOn, Nat.brecOn.go, read._f]
  cases room <;> rcases node.kind? with _ | kind <;> try cases kind
  all_goals rfl

include questions in
/-- Reading a value is a disciplined routine, whatever vectors are held around it. -/
theorem read_disciplined (limit : DepthLimit) (room : Nat) (held : List VectorId) (node : Node) :
    Disciplined unchecked held (fun _ solver => read solver model limit room node) := by
  induction room using Nat.strongRecOn generalizing held node with
  | ind room ih =>
      cases room with
      | zero => exact .fail trivial
      | succ room =>
          simp only [read_succ]
          refine .bind (.record _) fun _ => ?_
          unfold readKind
          have below held node := ih room (by omega) held node
          rcases node.kind? with _ | kind
          · exact .fail trivial
          cases kind with
          | unknown => exact .fail trivial
          | algebraic => exact .fail trivial
          | bool => exact readBool_disciplined model node
          | rational => exact readRational_disciplined questions model node
          | scalar => exact readScalar_disciplined model node
          | bitVector => exact readBits_disciplined questions model node
          | tuple => exact readTuple_disciplined questions model (below held) node
          | mapping =>
              refine .bind (readMapping_disciplined questions model (below held) node)
                fun point? => ?_
              cases point? with
              | none => exact .pure _
              | some point => exact .pure _
          | function =>
              refine readFunction_disciplined questions model below (fun held entry => ?_) node
              cases room with
              | zero => exact readEntry_none_disciplined model limit entry
              | succ room =>
                  exact readEntry_some_disciplined questions model (ih room (by omega) held)
                    limit entry

end Reading

/-! ## Queries and services -/

/-- Whether a query answers with a result or a failure, rather than with a result always. -/
def Query.canFail : Query → Bool
  | .definedTerms => false
  | _ => true

/-- Whether a service answers with a result or a failure, rather than with a result always. -/
def Service.canFail : Service → Bool
  | .printError _ | .constant .. => true
  | _ => false

/-- Whether an operation answers with a result or a failure, rather than with a result always. -/
def Operation.canFail : Operation → Bool
  | .service performed => performed.canFail
  | .query _ asked => asked.canFail
  | .modelOfContext .. | .modelOfPairs _ | .limitDepth .. => true
  | .dispose _ => false

/-- The requests that an operation leaves unchecked. -/
def Operation.unchecked (operation : Operation) : Request → Bool :=
  if operation.canFail then Request.isQuestion else Request.isUnchecked

/-- The requests that a query asks without a check. Only the reading of a value asks about nodes. -/
def Query.asks : Query → Request → Bool
  | .value _ => Request.isQuestion
  | .definedTerms => Request.isUnchecked
  | _ => Request.readsElements

/-- The requests that a service asks without a check. -/
def Service.asks (service : Service) : Request → Bool :=
  if service.canFail then Request.readsElements else Request.isUnchecked

/-- The requests that an operation asks without a check, those of its query or service. -/
def Operation.asks : Operation → Request → Bool
  | .service performed => performed.asks
  | .query _ asked => asked.asks
  | .modelOfContext .. | .modelOfPairs _ | .limitDepth .. => Request.readsElements
  | .dispose _ => Request.isUnchecked

theorem Request.isUnchecked_of_isQuestion (request : Request)
    (question : request.isQuestion = true) : request.isUnchecked = true := by
  cases request <;> first | rfl | exact question

theorem Request.isQuestion_of_readsElements (request : Request)
    (reads : request.readsElements = true) : request.isQuestion = true := by
  cases request <;> first | rfl | cases reads

theorem Operation.isUnchecked_of_unchecked (operation : Operation) (request : Request)
    (free : operation.unchecked request = true) : request.isUnchecked = true := by
  cases fails : operation.canFail with
  | true =>
      simp only [unchecked, fails, if_true] at free
      exact request.isUnchecked_of_isQuestion free
  | false => simpa only [unchecked, fails, Bool.false_eq_true, if_false] using free

theorem Operation.unchecked_of_asks (operation : Operation) (request : Request)
    (asks : operation.asks request = true) : operation.unchecked request = true := by
  have reads : request.readsElements = true → request.isQuestion = true :=
    request.isQuestion_of_readsElements
  cases operation with
  | service service => cases service <;> first | exact reads asks | exact asks
  | query id query => cases query <;> first | exact asks | exact reads asks
  | modelOfContext | modelOfPairs | limitDepth => exact reads asks
  | dispose => exact asks

theorem Operation.isUnchecked_of_asks (operation : Operation) (request : Request)
    (asks : operation.asks request = true) : request.isUnchecked = true :=
  operation.isUnchecked_of_unchecked request (operation.unchecked_of_asks request asks)

namespace Model

variable {held : List VectorId} (model : Model)

theorem collectTerms_disciplined {name : Call} {fill : VectorId → Routine Int32}
    (filled : ∀ vector, Disciplined Request.readsElements (vector :: held) fun σ solver => do
      checkStatus solver name (← fill vector σ solver)) :
    Disciplined Request.readsElements held
      (fun σ solver => collectTerms solver name fun vector => fill vector σ solver) := by
  unfold collectTerms
  refine .withTermVector fun vector => ?_
  simp only [← bind_assoc]
  exact .bind (filled vector) fun _ => .ask rfl (by simp [Request.vector?])

theorem ask_disciplined (query : Query) :
    Disciplined query.asks held (fun _ solver => model.ask solver query) := by
  cases query with
  | bool term =>
      exact .callThen (.boolValue ..) rfl rfl (by simp [Request.vector?]) (.reply _)
        fun _ => .pure _
  | integer term =>
      exact .call (.int64Value ..) rfl rfl (by simp [Request.vector?]) (.reply _)
  | fraction term =>
      exact .callThen (.rational64Value ..) rfl rfl (by simp [Request.vector?]) (.reply _)
        fun _ => .pure _
  | float term =>
      exact .call (.doubleValue ..) rfl rfl (by simp [Request.vector?]) (.reply _)
  | scalar term =>
      exact .call (.scalarValue ..) rfl rfl (by simp [Request.vector?]) (.reply _)
  | value term =>
      exact .callThen (.value ..) rfl rfl (by simp [Request.vector?]) (.reply _)
        fun root => Reading.read_disciplined (fun _ question => question) _ _ _ _ _
  | valueAsTerm term =>
      exact .call (.valueAsTerm ..) rfl rfl (by simp [Request.vector?]) (.term _)
  | holds formula =>
      exact .call (.formulaHolds ..) rfl rfl (by simp [Request.vector?]) (.truth _)
  | allHold formulas =>
      exact .call (.formulasHold ..) rfl rfl (by simp [Request.vector?]) (.truth _)
  | definedTerms =>
      refine .withTermVector fun vector => ?_
      exact .bind (.ask rfl (by simp [Request.vector?])) fun _ =>
        .ask rfl (by simp [Request.vector?])
  | implicant formula =>
      exact collectTerms_disciplined fun vector =>
        .call (.implicant ..) rfl rfl (by simp [Request.vector?]) (.status _)
  | implicants formulas =>
      exact collectTerms_disciplined fun vector =>
        .call (.implicants ..) rfl rfl (by simp [Request.vector?]) (.status _)
  | generalize formula eliminated mode =>
      exact collectTerms_disciplined fun vector =>
        .call (.generalize ..) rfl rfl (by simp [Request.vector?]) (.status _)
  | generalizeAll formulas eliminated mode =>
      exact collectTerms_disciplined fun vector =>
        .call (.generalizeAll ..) rfl rfl (by simp [Request.vector?]) (.status _)

theorem ofContext_disciplined (context : ContextId) (keepSubstitution : Bool) :
    Disciplined Request.readsElements held
      (fun _ solver => ofContext solver context keepSubstitution) := by
  unfold ofContext
  exact .callThen (.getModel ..) rfl rfl (by simp [Request.vector?]) (.handle _)
    fun id => .bind (.record _) fun _ => .pure _

theorem ofPairs_disciplined (pairs : List (TermId × TermId)) :
    Disciplined Request.readsElements held (fun _ solver => ofPairs solver pairs) := by
  unfold ofPairs
  exact .callThen (.modelFromMap ..) rfl rfl (by simp [Request.vector?]) (.handle _)
    fun id => .bind (.record _) fun _ => .pure _

theorem dispose_disciplined :
    Disciplined Request.isUnchecked held (fun _ solver => model.dispose solver) := by
  unfold dispose
  exact .bind (.record _) fun _ => .ask rfl (by simp [Request.vector?])

theorem withLimit_eq_error {levels : Nat} {failure : Failure}
    (limiting : model.withLimit levels = .error failure) : failure = .internal .noLevels := by
  simp only [withLimit, DepthLimit.ofLevels] at limiting
  split at limiting
  · cases limiting
  · cases limiting
    rfl

end Model

theorem Service.perform_disciplined (service : Service) {held : List VectorId} :
    Disciplined service.asks held (fun _ solver => service.perform solver) := by
  cases service with
  | startUp => exact .bind (.record _) fun _ => .ask rfl (by simp [Request.vector?])
  | shutDown => exact .bind (.record _) fun _ => .ask rfl (by simp [Request.vector?])
  | reset => exact .bind (.record _) fun _ => .ask rfl (by simp [Request.vector?])
  | isRunning => exact .ask rfl (by simp [Request.vector?])
  | errorCode => exact .ask rfl (by simp [Request.vector?])
  | errorText => exact .ask rfl (by simp [Request.vector?])
  | errorReport => exact .ask rfl (by simp [Request.vector?])
  | clearError => exact .ask rfl (by simp [Request.vector?])
  | printError descriptor =>
      exact .call (.printError ..) rfl rfl (by simp [Request.vector?]) (.reply _)
  | constant type index =>
      exact .call (.constant ..) rfl rfl (by simp [Request.vector?]) (.term _)

/-! ## Operations -/

namespace Client

variable {σ α β : Type}

theorem Ending.map_id (ending : Ending σ α) :
    Ending.map (fun answer => answer) ending = ending := by
  cases ending <;> rfl

/-- An operation either is about a model that the client does not own, with every solver, or runs a
disciplined routine. -/
theorem exists_routine_asks (owned : List Model) (operation : Operation) :
    (∀ (σ : Type) (solver : Solver σ) traced, run solver ⟨traced, owned⟩ operation = none) ∨
      ∃ (α : Type) (routine : Routine α) (before : List Model) (keep : α → List Model)
        (answer : α → operation.Answer),
        Disciplined operation.asks [] routine ∧
          ∀ (σ : Type) (solver : Solver σ) traced, run solver ⟨traced, owned⟩ operation =
            some (Ending.map answer (perform ⟨traced, before⟩ (routine σ solver) keep)) := by
  cases operation with
  | service service =>
      refine Or.inr ⟨_, fun _ solver => service.perform solver, owned, fun _ => owned,
        fun answer => answer, service.perform_disciplined, fun σ solver traced => ?_⟩
      rw [Ending.map_id]
      rfl
  | modelOfContext context keepSubstitution =>
      exact Or.inr ⟨_, fun _ solver => Model.ofContext solver context keepSubstitution, owned,
        fun model => owned ++ [model], (·.id),
        Model.ofContext_disciplined context keepSubstitution, fun _ _ _ => rfl⟩
  | modelOfPairs pairs =>
      exact Or.inr ⟨_, fun _ solver => Model.ofPairs solver pairs, owned,
        fun model => owned ++ [model], (·.id), Model.ofPairs_disciplined pairs, fun _ _ _ => rfl⟩
  | query id query =>
      cases found : owned.find? (·.id = id) with
      | none => exact Or.inl fun σ solver traced => by simp [run, find?, found]
      | some model =>
          refine Or.inr ⟨_, fun _ solver => model.ask solver query, owned, fun _ => owned,
            fun answer => answer, model.ask_disciplined query, fun σ solver traced => ?_⟩
          rw [Ending.map_id]
          simp [run, find?, found]
  | limitDepth id levels =>
      cases found : owned.find? (·.id = id) with
      | none => exact Or.inl fun σ solver traced => by simp [run, find?, found]
      | some model =>
          cases limiting : model.withLimit levels with
          | error failure =>
              refine Or.inr ⟨Unit, fun _ _ => fail failure, owned, fun _ => owned,
                fun answer => answer, .fail ?_, fun σ solver traced => ?_⟩
              · rw [model.withLimit_eq_error limiting]
                trivial
              · simp only [run, find?, found, limiting, Option.bind_eq_bind, Option.bind_some]
                rfl
          | ok limited =>
              refine Or.inr ⟨Unit, fun _ _ => pure (), owned,
                fun _ => owned.map fun other => if other.id = id then limited else other,
                fun answer => answer, .pure (), fun σ solver traced => ?_⟩
              simp only [run, find?, found, limiting, Option.bind_eq_bind, Option.bind_some]
              rfl
  | dispose id =>
      cases found : owned.find? (·.id = id) with
      | none => exact Or.inl fun σ solver traced => by simp [run, find?, found]
      | some model =>
          refine Or.inr ⟨_, fun _ solver => model.dispose solver,
            owned.filter (·.id ≠ id), fun _ => owned.filter (·.id ≠ id),
            fun answer => answer, model.dispose_disciplined, fun σ solver traced => ?_⟩
          rw [Ending.map_id]
          simp [run, find?, found]

theorem exists_routine (owned : List Model) (operation : Operation) :
    (∀ (σ : Type) (solver : Solver σ) traced, run solver ⟨traced, owned⟩ operation = none) ∨
      ∃ (α : Type) (routine : Routine α) (before : List Model) (keep : α → List Model)
        (answer : α → operation.Answer),
        Disciplined operation.unchecked [] routine ∧
          ∀ (σ : Type) (solver : Solver σ) traced, run solver ⟨traced, owned⟩ operation =
            some (Ending.map answer (perform ⟨traced, before⟩ (routine σ solver) keep)) := by
  refine (exists_routine_asks owned operation).imp_right ?_
  rintro ⟨α, routine, before, keep, answer, disciplined, runs⟩
  exact ⟨α, routine, before, keep, answer, disciplined.mono operation.unchecked_of_asks, runs⟩

end Client

end SmtModel
