import SmtModel.Proofs.Scripted.Meaning

/-!
# Evaluating scripted values

`ScriptedValue.evaluate` is what the reading of a scripted value comes to, whatever the
value is: a result, or the stop that the reading ends in. It goes down the scripted value
itself, without nodes and vectors, and takes from it just what the calls of the
scripted solver take, so that oddities need no cases of their own: a tag that does not
fit its value, or a list that is longer than an arity can tell. Of a solver's state
it sees a `Lexicon`, to which it adds the constants that are made on the way.

A result is settled once it is there: with more room, and from any later lexicon,
the evaluation has the same result, and makes no constants any more
(`ScriptedValue.evaluate_settles`). With the same room, and as long as no types are added,
it stops for the same reason, too.
-/

namespace SmtModel

/-- What an evaluation sees of a solver: its types, its terms, and the term that it complained about
last. -/
structure Lexicon where
  types : Array ScriptedType
  terms : Array ScriptedTerm
  errorTerm? : Option TermId

/-- What an evaluation sees of a solver. -/
def ScriptedSolver.lexicon (solver : ScriptedSolver) : Lexicon where
  types := solver.types
  terms := solver.terms
  errorTerm? := solver.errorTerm?

/-- A solver that has nothing but the lexicon. -/
def Lexicon.solver (lexicon : Lexicon) : ScriptedSolver where
  types := lexicon.types
  terms := lexicon.terms
  errorTerm? := lexicon.errorTerm?

/-- Computations that end as actions do, but see a lexicon only. -/
abbrev Evaluation := EStateM Stop Lexicon

namespace Evaluation

variable {α β : Type}

/-- An evaluation that stops with a failure. -/
def fail (failure : Failure) : Evaluation α := throw (.failure failure)

/-- The failure of a call with an error that is about no term. -/
def refuse (name : Call) (error : ErrorCode) : Evaluation α := fun lexicon =>
  .error (.failure (.call name.name (ScriptedSolver.report { lexicon.solver with error }))) lexicon

/-- What a call for the value of a node takes from the value. -/
def take (name : Call) : Except Misfit α → Evaluation α
  | .ok result => pure result
  | .error misfit => refuse name misfit.nodeError

/-- The constant for an element: the first one that has its value, or else a new term. -/
def constant (type : TypeId) (index : Int32) : Evaluation TermId := fun lexicon =>
  match lexicon.solver.constantError? type index with
  | some error => refuse .constant error lexicon
  | none =>
    match lexicon.solver.constant? type index with
    | some term => .ok term lexicon
    | none =>
      .ok (.ofIndex lexicon.terms.size)
        { lexicon with terms := lexicon.terms.push ⟨type, some (.scalar type index)⟩ }

/-- A function with one more point. A comparison of arguments may divide by zero. -/
def addPoint (function : FunctionValue) (point : Mapping Value) : Evaluation FunctionValue :=
  match function.insertPoint point with
  | .ok added => pure added
  | .error .divisionByZero => throw (.fault .divisionByZero)

end Evaluation

namespace ScriptedValue

/-- The components of a tuple of exactly the given arity. -/
def toItems (arity : Nat) : ScriptedValue → Except Misfit (List ScriptedValue)
  | .tuple items => if items.length = arity then .ok items else .error .otherKind
  | _ => .error .otherKind

/-- The point of a mapping with exactly as many arguments as the given arity. -/
def toPoint (arity : Nat) : ScriptedValue → Except Misfit (Mapping ScriptedValue)
  | .mapping point => if point.args.length = arity then .ok point else .error .otherKind
  | _ => .error .otherKind

/-- The graph of a function. -/
def toGraph : ScriptedValue → Except Misfit (FiniteFunction ScriptedValue)
  | .function _ graph => .ok graph
  | _ => .error .otherKind

open Evaluation

/-- A number by the first of the three calls that gives it. -/
def evaluateRational (value : ScriptedValue) : Evaluation Value := do
  if value.toInt64.isOk then
    return .int (← take .nodeInt64 value.toInt64).toInt
  if value.toWords64.isOk then
    let (numerator, denominator) ← take .nodeRational64 value.toWords64
    return .rational (.ofWords numerator denominator)
  return .float (← take .nodeDouble value.toFloat)

/-- An element together with the constant for it. -/
def evaluateScalar (value : ScriptedValue) : Evaluation Value := do
  let (index, type) ← take .nodeScalar value.toScalar
  return .scalar ⟨← constant type index, type, index⟩

/-- The bits of a vector, if it has any. -/
def evaluateBits (value : ScriptedValue) : Evaluation Value := do
  if value.bitSize = 0 then return .absent
  let bits ← take .nodeBits (value.toBits value.bitSize.toNat)
  return .bitVector (bits.toList.map fun bit => if bit = 0 then 0 else 1)

/-- A tuple of the components as they are evaluated, if it has any. -/
def evaluateTuple (evaluate : ScriptedValue → Evaluation Value) (value : ScriptedValue) :
    Evaluation Value := do
  if value.tupleArity = 0 then return .absent
  let items ← take .expandTuple (value.toItems value.tupleArity.toNat)
  return .tuple (← items.mapM evaluate)

/-- A mapping as its parts are evaluated, the result last, if it has arguments. -/
def evaluateMapping (evaluate : ScriptedValue → Evaluation Value) (value : ScriptedValue) :
    Evaluation (Option (Mapping Value)) := do
  if value.mappingArity = 0 then return none
  let point ← take .expandMapping (value.toPoint value.mappingArity.toNat)
  return some ⟨← point.args.mapM evaluate, ← evaluate point.result⟩

/-- An entry of a function, whose parts are evaluated if they do not lie below the limit. -/
def evaluateEntry (limit : DepthLimit) (evaluate? : Option (ScriptedValue → Evaluation Value))
    (entry : Mapping ScriptedValue) : Evaluation (Mapping Value) :=
  match evaluate? with
  | none => fail (.depthLimit limit.levels)
  | some evaluate => do
    match ← evaluateMapping evaluate (.mapping entry) with
    | none => fail (.internal .entryWithoutArguments)
    | some point => return point

/-- A function with its points added one after another, each right after it is evaluated. -/
def evaluateFunction (evaluate : ScriptedValue → Evaluation Value)
    (evaluateEntry : Mapping ScriptedValue → Evaluation (Mapping Value)) (value : ScriptedValue) :
    Evaluation Value := do
  if value.functionArity = 0 then return .absent
  let graph ← take .expandFunction value.toGraph
  let default ← evaluate graph.default
  let function ← graph.entries.foldlM
    (fun function entry => do addPoint function (← evaluateEntry entry))
    (FiniteFunction.constant default)
  return .function function

/-- A value that lies above the limit, by the kind that its tag stands for. -/
def evaluateKind (limit : DepthLimit) (evaluate : ScriptedValue → Evaluation Value)
    (evaluateBelow? : Option (ScriptedValue → Evaluation Value)) (value : ScriptedValue) :
    Evaluation Value :=
  match NodeKind.ofTag? value.tag with
  | none | some .unknown => fail (.internal (.unexpectedTag value.tag))
  | some .algebraic => fail (.notImplemented "algebraic number decoding")
  | some .bool => do return .bool ((← take .nodeBool value.toTruth) ≠ 0)
  | some .rational => evaluateRational value
  | some .scalar => evaluateScalar value
  | some .bitVector => evaluateBits value
  | some .tuple => evaluateTuple evaluate value
  | some .mapping => do
    match ← evaluateMapping evaluate value with
    | none => return .absent
    | some point => return .mapping point
  | some .function => evaluateFunction evaluate (evaluateEntry limit evaluateBelow?) value

/-- What reading a value with some levels of room comes to. -/
def evaluate (limit : DepthLimit) : (room : Nat) → ScriptedValue → Evaluation Value
  | 0, _ => fail (.depthLimit limit.levels)
  | room + 1, value =>
    let evaluateBelow? := match room with
      | 0 => none
      | below + 1 => some (evaluate limit below)
    evaluateKind limit (evaluate limit room) evaluateBelow? value
termination_by structural room => room

/-- The evaluation of what lies below the entries of a function, if there is room for it. -/
def evaluateBelow? (limit : DepthLimit) :
    (room : Nat) → Option (ScriptedValue → Evaluation Value)
  | 0 => none
  | below + 1 => some (evaluate limit below)

theorem evaluate_succ (limit : DepthLimit) (room : Nat) (value : ScriptedValue) :
    evaluate limit (room + 1) value =
      evaluateKind limit (evaluate limit room) (evaluateBelow? limit room) value := by
  cases room <;> rfl

end ScriptedValue

/-! ## Stops that count as the same -/

theorem Failure.same_refl (failure : Failure) : failure.same failure = true := by
  cases failure <;> simp [same]

/-- Stops that count as the same: failures that are told apart by their operation and code only, if
they are those of a call, and equal faults. -/
def Stop.Alike : Stop → Stop → Prop
  | .failure first, .failure second => first.same second = true
  | .fault first, .fault second => first = second
  | _, _ => False

namespace Stop.Alike

theorem refl (stop : Stop) : stop.Alike stop := by
  cases stop with
  | failure failure => exact failure.same_refl
  | fault fault => rfl

theorem of_code {operation : String} {first second : ErrorReport} (code : first.code = second.code) :
    Alike (.failure (.call operation first)) (.failure (.call operation second)) := by
  simp [Alike, Failure.same, code]

end Stop.Alike

/-! ## Settled results -/

/-- A lexicon to which types and terms were added. -/
structure Lexicon.Grows (earlier later : Lexicon) : Prop where
  types : earlier.types.toList <+: later.types.toList
  terms : earlier.terms.toList <+: later.terms.toList

namespace Lexicon.Grows

theorem refl (lexicon : Lexicon) : Grows lexicon lexicon :=
  ⟨List.prefix_rfl, List.prefix_rfl⟩

theorem trans {first second third : Lexicon} (before : Grows first second)
    (after : Grows second third) : Grows first third :=
  ⟨before.types.trans after.types, before.terms.trans after.terms⟩

end Lexicon.Grows

namespace Evaluation

variable {α β : Type}

/-- The call for a constant is refused, or the constant is known from then on. -/
theorem constant_cases (type : TypeId) (index : Int32) (start : Lexicon) :
    (∃ error, start.solver.constantError? type index = some error ∧
        constant type index start = refuse .constant error start) ∨
      ∃ term left, constant type index start = .ok term left ∧
        left.types = start.types ∧ start.terms.toList <+: left.terms.toList ∧
        left.solver.constantError? type index = none ∧
        left.solver.constant? type index = some term := by
  cases inside : start.solver.constantError? type index with
  | some error => exact Or.inl ⟨error, rfl, by simp only [constant, inside]⟩
  | none =>
      right
      cases known : start.solver.constant? type index with
      | some term =>
          exact ⟨term, start, by simp only [constant, inside, known], rfl, List.prefix_rfl, inside,
            known⟩
      | none =>
          let made : Lexicon :=
            { start with terms := start.terms.push ⟨type, some (.scalar type index)⟩ }
          exact ⟨.ofIndex start.terms.size, made, by simp only [constant, inside, known, made],
            rfl, by simp [made], inside, ScriptedSolver.constant?_withConstant known⟩

/-- Where the first evaluation has a result, the second has the same from any lexicon later than the
first one's last, and adds nothing to it. An exact copy of an evaluation stops alike as well, as
long as no types are added. -/
structure Settles (exact : Prop) (first second : Evaluation α) : Prop where
  types : ∀ start, (Outcome.state (first start)).types = start.types
  terms : ∀ start, start.terms.toList <+: (Outcome.state (first start)).terms.toList
  ok : ∀ start result left, first start = .ok result left →
    ∀ later, left.Grows later → second later = .ok result later
  stopped : exact → ∀ start stop left, first start = .error stop left →
    ∀ later, left.Grows later → later.types = start.types →
      ∃ stop', second later = .error stop' later ∧ stop.Alike stop'

namespace Settles

variable {exact : Prop}

theorem grows {first second : Evaluation α} (settles : Settles exact first second)
    (start : Lexicon) : start.Grows (Outcome.state (first start)) :=
  ⟨settles.types start ▸ List.prefix_rfl, settles.terms start⟩

theorem pure (result : α) : Settles exact (Pure.pure result) (Pure.pure result) where
  types start := rfl
  terms start := List.prefix_rfl
  ok start result' left ended later grown := by
    cases ended
    rfl
  stopped _ start stop left ended := by cases ended

/-- Evaluations that stop at once. -/
theorem of_error {first second : Evaluation α} (stop : Lexicon → Stop)
    (stops : ∀ start, first start = .error (stop start) start)
    (again : exact → ∀ start later, ∃ stop',
      second later = .error stop' later ∧ (stop start).Alike stop') :
    Settles exact first second where
  types start := by rw [stops]; rfl
  terms start := by rw [stops]; exact List.prefix_rfl
  ok start result left ended := by cases (stops start).symm.trans ended
  stopped isExact start stop' left ended later grown types := by
    cases (stops start).symm.trans ended
    exact again isExact _ later

theorem fail (failure : Failure) {second : Evaluation α}
    (copied : exact → second = Evaluation.fail failure) :
    Settles exact (Evaluation.fail failure) second := by
  refine of_error (fun _ => .failure failure) (fun start => rfl) fun isExact _ later => ?_
  rw [copied isExact]
  exact ⟨_, rfl, .refl _⟩

theorem take (name : Call) (outcome : Except Misfit α) :
    Settles exact (Evaluation.take name outcome) (Evaluation.take name outcome) := by
  cases outcome with
  | ok result => exact pure result
  | error misfit => exact of_error _ (fun _ => rfl) fun _ _ later => ⟨_, rfl, .of_code rfl⟩

theorem addPoint (function : FunctionValue) (point : Mapping Value) :
    Settles exact (Evaluation.addPoint function point) (Evaluation.addPoint function point) := by
  unfold Evaluation.addPoint
  cases function.insertPoint point with
  | ok added => exact pure added
  | error division => exact of_error _ (fun _ => rfl) fun _ _ later => ⟨_, rfl, .refl _⟩

theorem bind {first second : Evaluation β} {next next' : β → Evaluation α}
    (before : Settles exact first second)
    (after : ∀ result, Settles exact (next result) (next' result)) :
    Settles exact (first >>= next) (second >>= next') where
  types start := by
    have types := before.types start
    cases ran : first start with
    | ok result middle =>
        rw [ran] at types
        rw [Outcome.bind_of_ok ran]
        exact ((after result).types middle).trans types
    | error stop middle =>
        rw [ran] at types
        rw [Outcome.bind_of_error ran]
        exact types
  terms start := by
    have terms := before.terms start
    cases ran : first start with
    | ok result middle =>
        rw [ran] at terms
        rw [Outcome.bind_of_ok ran]
        exact terms.trans ((after result).terms middle)
    | error stop middle =>
        rw [ran] at terms
        rw [Outcome.bind_of_error ran]
        exact terms
  ok start result left both later grown := by
    rcases Outcome.bind_eq_ok.mp both with ⟨middle, reached, ran, ended⟩
    have growsAfter := (after middle).grows reached
    rw [ended] at growsAfter
    rw [Outcome.bind_of_ok (before.ok start middle reached ran later (growsAfter.trans grown))]
    exact (after middle).ok reached result left ended later grown
  stopped isExact start stop left both later grown types := by
    rcases Outcome.bind_eq_error.mp both with ended | ⟨middle, reached, ran, ended⟩
    · rcases before.stopped isExact start stop left ended later grown types with
        ⟨stop', stopped, alike⟩
      exact ⟨stop', Outcome.bind_of_error stopped, alike⟩
    · have growsAfter := (after middle).grows reached
      have sameTypes := before.types start
      rw [ended] at growsAfter
      rw [ran] at sameTypes
      rw [Outcome.bind_of_ok (before.ok start middle reached ran later (growsAfter.trans grown))]
      exact (after middle).stopped isExact reached stop left ended later grown
        (types.trans sameTypes.symm)

theorem mapM {visit visit' : β → Evaluation α} (each : ∀ item, Settles exact (visit item) (visit' item))
    (items : List β) : Settles exact (items.mapM visit) (items.mapM visit') := by
  induction items with
  | nil => exact pure []
  | cons item items ih =>
      rw [List.mapM_cons, List.mapM_cons]
      apply bind (each item)
      intro result
      exact bind ih fun results => pure _

theorem foldlM {step step' : α → β → Evaluation α}
    (each : ∀ acc item, Settles exact (step acc item) (step' acc item)) (items : List β) (acc : α) :
    Settles exact (items.foldlM step acc) (items.foldlM step' acc) := by
  induction items generalizing acc with
  | nil => exact pure acc
  | cons item items ih =>
      rw [List.foldlM_cons, List.foldlM_cons]
      exact bind (each acc item) ih

/-- The constant that is found, or made, is found from then on. -/
theorem constant (type : TypeId) (index : Int32) :
    Settles exact (Evaluation.constant type index) (Evaluation.constant type index) := by
  have again {lexicon later : Lexicon} {term : TermId} (grown : lexicon.Grows later)
      (inside : lexicon.solver.constantError? type index = none)
      (known : lexicon.solver.constant? type index = some term) :
      Evaluation.constant type index later = .ok term later := by
    have inside := ScriptedSolver.constantError?_of_prefix
      (show lexicon.solver.types.toList <+: later.solver.types.toList from grown.types) inside
    have known := ScriptedSolver.constant?_of_prefix
      (show lexicon.solver.terms.toList <+: later.solver.terms.toList from grown.terms) _ _ _ known
    simp only [Evaluation.constant, inside, known]
  have ran (start : Lexicon) := constant_cases type index start
  constructor
  case types =>
    intro start
    rcases ran start with ⟨error, -, refused⟩ | ⟨term, left, ended, types, -⟩
    · rw [refused]
      rfl
    · rw [ended]
      exact types
  case terms =>
    intro start
    rcases ran start with ⟨error, -, refused⟩ | ⟨term, left, ended, -, terms, -⟩
    · rw [refused]
      exact List.prefix_rfl
    · rw [ended]
      exact terms
  case ok =>
    intro start term left ended later grown
    rcases ran start with ⟨error, -, refused⟩ | ⟨term', left', ended', -, -, inside, known⟩
    · cases refused.symm.trans ended
    · cases ended'.symm.trans ended
      exact again grown inside known
  case stopped =>
    intro _ start stop left ended later grown types
    rcases ran start with ⟨error, offends, refused⟩ | ⟨term', left', ended', -⟩
    · cases refused.symm.trans ended
      -- what there is to complain of is settled by the types
      have offendsAgain : later.solver.constantError? type index = some error := by
        simpa only [ScriptedSolver.constantError?, ScriptedSolver.type?, Lexicon.solver, types]
          using offends
      have refusedAgain : Evaluation.constant type index later = refuse .constant error later := by
        simp only [Evaluation.constant, offendsAgain]
      exact ⟨_, refusedAgain, .of_code rfl⟩
    · cases ended'.symm.trans ended

end Settles

end Evaluation

namespace ScriptedValue

open Evaluation

variable {exact : Prop}

theorem evaluateRational_settles (value : ScriptedValue) :
    Settles exact (evaluateRational value) (evaluateRational value) := by
  unfold evaluateRational
  by_cases isInt64 : value.toInt64.isOk = true
  · simp only [isInt64, if_true]
    exact .bind (.take _ _) fun number => .pure _
  · simp only [isInt64, Bool.false_eq_true, if_false]
    by_cases isWords64 : value.toWords64.isOk = true
    · simp only [isWords64, if_true]
      exact .bind (.take _ _) fun words => .pure _
    · simp only [isWords64, Bool.false_eq_true, if_false]
      exact .bind (.take _ _) fun number => .pure _

theorem evaluateScalar_settles (value : ScriptedValue) :
    Settles exact (evaluateScalar value) (evaluateScalar value) := by
  apply Settles.bind (.take _ _)
  rintro ⟨index, type⟩
  exact .bind (.constant _ _) fun term => .pure _

theorem evaluateBits_settles (value : ScriptedValue) :
    Settles exact (evaluateBits value) (evaluateBits value) := by
  unfold evaluateBits
  by_cases empty : value.bitSize = 0
  · simp only [empty, if_true]
    exact .pure _
  · simp only [empty, if_false]
    exact .bind (.take _ _) fun bits => .pure _

section Composites

variable {first second : ScriptedValue → Evaluation Value}
  (below : ∀ value, Settles exact (first value) (second value))

include below

theorem evaluateTuple_settles (value : ScriptedValue) :
    Settles exact (evaluateTuple first value) (evaluateTuple second value) := by
  unfold evaluateTuple
  by_cases empty : value.tupleArity = 0
  · simp only [empty, if_true]
    exact .pure _
  · simp only [empty, if_false]
    apply Settles.bind (.take _ _)
    intro items
    exact .bind (.mapM below items) fun values => .pure _

theorem evaluateMapping_settles (value : ScriptedValue) :
    Settles exact (evaluateMapping first value) (evaluateMapping second value) := by
  unfold evaluateMapping
  by_cases empty : value.mappingArity = 0
  · simp only [empty, if_true]
    exact .pure _
  · simp only [empty, if_false]
    apply Settles.bind (.take _ _)
    intro point
    apply Settles.bind (.mapM below point.args)
    intro args
    exact .bind (below point.result) fun result => .pure _

theorem evaluateEntry_settles (limit limit' : DepthLimit) (entry : Mapping ScriptedValue) :
    Settles exact (evaluateEntry limit (some first) entry)
      (evaluateEntry limit' (some second) entry) := by
  apply Settles.bind (evaluateMapping_settles below _)
  intro point?
  cases point? with
  | none => exact .fail _ fun _ => rfl
  | some point => exact .pure point

theorem evaluateFunction_settles
    {firstEntry secondEntry : Mapping ScriptedValue → Evaluation (Mapping Value)}
    (entries : ∀ entry, Settles exact (firstEntry entry) (secondEntry entry)) (value : ScriptedValue) :
    Settles exact (evaluateFunction first firstEntry value)
      (evaluateFunction second secondEntry value) := by
  unfold evaluateFunction
  by_cases empty : value.functionArity = 0
  · simp only [empty, if_true]
    exact .pure _
  · simp only [empty, if_false]
    apply Settles.bind (.take _ _)
    intro graph
    apply Settles.bind (below graph.default)
    intro default
    refine .bind (.foldlM (fun function entry => ?_) graph.entries _) fun function => .pure _
    exact .bind (entries entry) fun point => .addPoint function point

end Composites

theorem evaluate_settles {limit limit' : DepthLimit} {room room' : Nat} (more : room ≤ room')
    (same : exact → limit = limit' ∧ room = room') (value : ScriptedValue) :
    Settles exact (evaluate limit room value) (evaluate limit' room' value) := by
  -- below the entries of a function there are two levels less, which plain induction misses
  induction room using Nat.strongRecOn generalizing room' value with
  | ind room ih =>
      cases room with
      | zero =>
          refine .fail _ fun isExact => ?_
          rcases same isExact with ⟨rfl, rfl⟩
          rfl
      | succ room =>
          rcases Nat.exists_eq_add_of_le' (show 1 ≤ room' by omega) with ⟨room', rfl⟩
          have below value : Settles exact (evaluate limit room value)
              (evaluate limit' room' value) := by
            refine ih room (by omega) (by omega) (fun isExact => ?_) value
            exact ⟨(same isExact).1, Nat.succ.inj (same isExact).2⟩
          rw [evaluate_succ, evaluate_succ]
          unfold evaluateKind
          rcases NodeKind.ofTag? value.tag with _ | kind
          · exact .fail _ fun _ => rfl
          cases kind with
          | unknown => exact .fail _ fun _ => rfl
          | algebraic => exact .fail _ fun _ => rfl
          | bool => exact .bind (.take _ _) fun truth => .pure _
          | rational => exact evaluateRational_settles value
          | scalar => exact evaluateScalar_settles value
          | bitVector => exact evaluateBits_settles value
          | tuple => exact evaluateTuple_settles below value
          | mapping =>
              apply Settles.bind (evaluateMapping_settles below value)
              intro point?
              cases point? with
              | none => exact .pure _
              | some point => exact .pure _
          | function =>
              refine evaluateFunction_settles below (fun entry => ?_) value
              cases room with
              | zero =>
                  refine .fail _ fun isExact => ?_
                  rcases same isExact with ⟨rfl, sameRoom⟩
                  cases Nat.succ.inj sameRoom
                  rfl
              | succ room =>
                  rcases Nat.exists_eq_add_of_le' (show 1 ≤ room' by omega) with ⟨room', rfl⟩
                  refine evaluateEntry_settles (ih room (by omega) (by omega) fun isExact => ?_)
                    limit limit' entry
                  exact ⟨(same isExact).1, Nat.succ.inj (Nat.succ.inj (same isExact).2)⟩

end ScriptedValue

end SmtModel
