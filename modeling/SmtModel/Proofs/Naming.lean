import SmtModel.Proofs.WellFormed

/-!
# Names in values that are read

The elements of enumerated types in a value that was read are named by constants, and the
constants are taken from the solver while the value is read. That a solver names an
element by a constant is a fact about its state. If the fact stays true whatever is
requested, it is true of all elements in the value when the reading is over
(`Reading.read_names`), although there were more requests after each was named.

`Yields` is the contract in which this is proved. It says what a result has to do with
the state that is left, where `Action.Ensures` says what is true of results alone.
-/

namespace SmtModel

open SmtModel.Action

variable {σ α β : Type}

/-! ## Results and states -/

/-- The state moves on, and a result is in the given relation to the state that is left. -/
structure Yields (later : σ → σ → Prop) (holds : σ → α → Prop) (start : Traced σ)
    (ending : EStateM.Result Stop (Traced σ) α) : Prop where
  moves : later start.state (Outcome.state ending).state
  result : ∀ result left, ending = .ok result left → holds left.state result

/-- What may be asked of a solver at any time: each request moves the state on, and what is once
named stays named. The constant for an element, if there is one, names the element. -/
structure Names (solver : Solver σ) (later : σ → σ → Prop) (named : σ → ScalarValue → Prop) :
    Prop where
  refl : ∀ state, later state state
  trans : ∀ {first second third}, later first second → later second third → later first third
  moves : ∀ request state, later state (Outcome.state (solver request state))
  stays : ∀ {earlier state scalar}, later earlier state → named earlier scalar → named state scalar
  names : ∀ {type index state left term}, solver (.constant type index) state = .ok term left →
    term.isNull = false → named left ⟨term, type, index⟩

namespace Yields

variable {later : σ → σ → Prop} {holds : σ → α → Prop} {mid : σ → β → Prop} {start : Traced σ}

/-- The relation that every result has to every state. -/
abbrev any : σ → α → Prop := fun _ _ => True

/-- A fact about the state that stays true may be carried along. -/
theorem carry {fact : σ → Prop} {ending : EStateM.Result Stop (Traced σ) α}
    (stays : ∀ state, later start.state state → fact state)
    (yields : Yields later holds start ending) :
    Yields later (fun state result => fact state ∧ holds state result) start ending := by
  refine ⟨yields.moves, fun result left ended => ?_⟩
  have moves := yields.moves
  rw [ended] at moves
  exact ⟨stays _ moves, yields.result result left ended⟩

theorem of_ok {result : α} {left : Traced σ} (moves : later start.state left.state)
    (isHeld : holds left.state result) : Yields later holds start (.ok result left) := by
  refine ⟨moves, fun result' left' ended => ?_⟩
  cases ended
  exact isHeld

theorem of_error {stop : Stop} {left : Traced σ} (moves : later start.state left.state) :
    Yields later holds start (.error stop left : EStateM.Result Stop (Traced σ) α) :=
  ⟨moves, fun result left' ended => by cases ended⟩

section Solver

variable {solver : Solver σ} {named : σ → ScalarValue → Prop} (naming : Names solver later named)

include naming

theorem bind {first : Action σ β} {next : β → Action σ α}
    (before : Yields later mid start (first start))
    (after : ∀ result middle, mid middle.state result →
      Yields later holds middle (next result middle)) :
    Yields later holds start ((first >>= next) start) := by
  rcases before with ⟨moves, holdsAt⟩
  cases ran : first start with
  | ok result middle =>
      rw [ran] at moves
      rw [Outcome.bind_of_ok ran]
      have ends := after result middle (holdsAt result middle ran)
      exact ⟨naming.trans moves ends.moves, ends.result⟩
  | error stop middle =>
      rw [ran] at moves
      rw [Outcome.bind_of_error ran]
      exact .of_error moves

theorem pure {result : α} (isHeld : holds start.state result) :
    Yields later holds start ((Pure.pure result : Action σ α) start) :=
  .of_ok (naming.refl _) isHeld

theorem fail (failure : Failure) :
    Yields later holds start ((Action.fail failure : Action σ α) start) :=
  .of_error (naming.refl _)

theorem record (event : Event) :
    Yields later any start ((Action.record event : Action σ Unit) start) :=
  .of_ok (naming.refl _) trivial

theorem ask (request : Request) :
    Yields later any start (Action.ask solver request start) := by
  have moves := naming.moves request start.state
  cases answered : solver request start.state with
  | ok answer left =>
      rw [answered] at moves
      rw [Action.ask_of_ok answered]
      exact .of_ok moves trivial
  | error fault left =>
      rw [answered] at moves
      rw [Action.ask_of_error answered]
      exact .of_error moves

theorem failCall (name : Call) :
    Yields later holds start ((Action.failCall solver name : Action σ α) start) := by
  refine bind naming (ask naming .errorReport) fun report middle _ => ?_
  by_cases unreported : report.code = .noError
  · rw [if_pos unreported]
    exact bind naming (record naming _) fun _ _ _ => fail naming _
  · rw [if_neg unreported]
    refine bind naming (ask naming .clearError) fun _ _ _ => ?_
    exact bind naming (record naming _) fun _ _ _ => fail naming _

theorem checked {name : Call} {refusal : α → Bool} {check : α → Routine β}
    (checks : Checks name refusal check) (answer : α) :
    Yields later any start (check answer σ solver start) := by
  cases isRefusal : refusal answer with
  | true =>
      rw [checks.refused answer isRefusal σ solver]
      exact failCall naming name
  | false =>
      rcases checks.accepted answer isRefusal with ⟨result, accepts⟩
      rw [accepts σ solver]
      exact pure naming trivial

/-- A call that is checked, and what comes after it. -/
theorem call {name : Call} (request : Request) {check : request.Answer → Routine β}
    {next : β → Action σ α} (checks : Checks name request.isRefusal check)
    (after : ∀ result middle, Yields later holds middle (next result middle)) :
    Yields later holds start ((do
      let answer ← Action.ask solver request
      let result ← check answer σ solver
      next result) start) :=
  bind naming (ask naming request) fun answer _ _ =>
    bind naming (checked naming checks answer) fun result middle _ => after result middle

theorem mapM {visit : β → Action σ α}
    (stays : ∀ {earlier state result}, later earlier state → holds earlier result →
      holds state result)
    (each : ∀ item middle, Yields later holds middle (visit item middle)) (items : List β) :
    Yields later (fun state results => ∀ result ∈ results, holds state result) start
      (items.mapM visit start) := by
  induction items generalizing start with
  | nil => exact pure naming (by simp)
  | cons item items ih =>
      rw [List.mapM_cons]
      refine bind naming (each item start) fun result middle isHeld => ?_
      have others := carry (fun state moves => stays moves isHeld) (@ih middle)
      exact bind naming others fun results last both =>
        pure naming (List.forall_mem_cons.mpr both)

theorem foldlM {step : α → β → Action σ α}
    (each : ∀ acc item middle, holds middle.state acc →
      Yields later holds middle (step acc item middle))
    (items : List β) {acc : α} (isHeld : holds start.state acc) :
    Yields later holds start (items.foldlM step acc start) := by
  induction items generalizing acc start with
  | nil => exact pure naming isHeld
  | cons item items ih =>
      rw [List.foldlM_cons]
      exact bind naming (each acc item start isHeld) fun acc middle isHeld => ih isHeld

theorem withNodeVector {body : VectorId → Action σ α}
    (stays : ∀ {earlier state result}, later earlier state → holds earlier result →
      holds state result)
    (inside : ∀ vector middle, Yields later holds middle (body vector middle)) :
    Yields later holds start (Action.withNodeVector solver body start) := by
  refine bind naming (ask naming .newNodeVector) fun vector middle _ => ?_
  have inside := inside vector middle
  unfold Action.ensuring
  cases ran : body vector middle with
  | ok result reached =>
      rw [ran] at inside
      have released := @ask _ _ reached _ _ naming (.releaseNodeVector vector)
      have moves := naming.trans inside.moves released.moves
      dsimp only
      cases cleaned : Action.ask solver (.releaseNodeVector vector) reached with
      | ok _ left =>
          rw [cleaned] at moves released
          exact .of_ok moves (stays released.moves (inside.result result reached rfl))
      | error stop left =>
          rw [cleaned] at moves
          exact .of_error moves
  | error stop reached =>
      rw [ran] at inside
      have moves := naming.trans inside.moves
        (@ask _ _ reached _ _ naming (.releaseNodeVector vector)).moves
      cases stop <;> dsimp only <;>
        cases cleaned : Action.ask solver (.releaseNodeVector vector) reached <;>
        rw [cleaned] at moves <;> exact .of_error moves

end Solver

end Yields

/-! ## Elements in values -/

/-- A value that, if it is an element of an enumerated type, is named. -/
def Value.IsNamed (named : ScalarValue → Prop) : Value → Prop
  | .scalar element => named element
  | _ => True

/-- All elements in a value are named. -/
abbrev Value.AllNamed (named : ScalarValue → Prop) (value : Value) : Prop :=
  value.Every (Value.IsNamed named)

namespace Value

variable {named : ScalarValue → Prop}

theorem AllNamed.mono {more : ScalarValue → Prop} {value : Value} (allNamed : value.AllNamed named)
    (stays : ∀ element, named element → more element) : value.AllNamed more := by
  induction allNamed with
  | @node value here _ ih =>
      refine .node ?_ ih
      cases value with
      | scalar element => exact stays element here
      | _ => trivial

theorem allNamed_mapping {point : Mapping Value} :
    (Value.mapping point).AllNamed named ↔
      (∀ arg ∈ point.args, arg.AllNamed named) ∧ point.result.AllNamed named :=
  every_mapping_iff trivial

theorem allNamed_function {function : FunctionValue} :
    (Value.function function).AllNamed named ↔
      function.default.AllNamed named ∧
        ∀ entry ∈ function.entries, (Value.mapping entry).AllNamed named :=
  every_function_iff trivial

/-- Insertion puts nothing into a function but what is in the point. -/
theorem AllNamed.insert {function added : FunctionValue} {point : Mapping Value}
    {replaced : Option Value} (functionNamed : (Value.function function).AllNamed named)
    (pointNamed : (Value.mapping point).AllNamed named)
    (inserts : function.insert point = .ok (replaced, added)) :
    (Value.function added).AllNamed named := by
  rcases function with ⟨default, entries⟩
  rw [allNamed_function] at functionNamed ⊢
  cases writes : FiniteFunction.write point entries with
  | error division => simp [FiniteFunction.insert, writes, bind, Except.bind] at inserts
  | ok outcome =>
      rcases outcome with ⟨replaced', written⟩
      simp only [FiniteFunction.insert, writes] at inserts
      cases inserts
      refine ⟨functionNamed.1, ?_⟩
      rcases FiniteFunction.write_cases writes with
        ⟨before, old, after, rfl, rfl, -⟩ | ⟨rfl, -⟩
      · have entriesNamed := functionNamed.2
        simp only [List.forall_mem_append, List.forall_mem_cons, allNamed_mapping]
          at entriesNamed pointNamed ⊢
        exact ⟨entriesNamed.1, ⟨entriesNamed.2.1.1, pointNamed.2⟩, entriesNamed.2.2⟩
      · simpa only [List.forall_mem_append, List.forall_mem_singleton]
          using ⟨functionNamed.2, pointNamed⟩

end Value

/-! ## Reading -/

namespace Reading

variable {solver : Solver σ} {later : σ → σ → Prop} {named : σ → ScalarValue → Prop}
  (naming : Names solver later named) {model : ModelId} {start : Traced σ}

/-- The relation of a value to a state in which all its elements are named. -/
abbrev NamedIn (named : σ → ScalarValue → Prop) (state : σ) (value : Value) : Prop :=
  value.AllNamed (named state)

include naming

theorem namedIn_stays {earlier state : σ} {value : Value} (moves : later earlier state)
    (allNamed : NamedIn named earlier value) : NamedIn named state value :=
  allNamed.mono fun _ => naming.stays moves

theorem readBool_names (node : Node) :
    Yields later (NamedIn named) start (readBool solver model node start) :=
  .call naming (.nodeBool ..) (.reply _) fun _ _ => .pure naming (.leaf trivial rfl)

theorem readRational_names (node : Node) :
    Yields later (NamedIn named) start (readRational solver model node start) := by
  unfold readRational
  refine .bind naming (.ask naming _) fun isInt64 middle _ => ?_
  cases isInt64 with
  | true =>
      simp only [if_true]
      exact .call naming (.nodeInt64 ..) (.reply _) fun _ _ => .pure naming (.leaf trivial rfl)
  | false =>
      simp only [Bool.false_eq_true, if_false]
      refine .bind naming (.ask naming _) fun isRational64 middle _ => ?_
      cases isRational64 with
      | true =>
          simp only [if_true]
          exact .call naming (.nodeRational64 ..) (.reply _) fun _ _ =>
            .pure naming (.leaf trivial rfl)
      | false =>
          simp only [Bool.false_eq_true, if_false]
          exact .call naming (.nodeDouble ..) (.reply _) fun _ _ =>
            .pure naming (.leaf trivial rfl)

/-- The constant that is read is the one that the solver has just named the element by. -/
theorem readScalar_names (node : Node) :
    Yields later (NamedIn named) start (readScalar solver model node start) := by
  refine .call naming (.nodeScalar ..) (.reply _) fun ⟨index, type⟩ middle => ?_
  have moves := naming.moves (.constant type index) middle.state
  dsimp only
  cases answered : solver (.constant type index) middle.state with
  | error fault left =>
      rw [answered] at moves
      rw [Outcome.bind_of_error (Action.ask_of_error answered)]
      exact .of_error moves
  | ok term left =>
      rw [answered] at moves
      rw [Outcome.bind_of_ok (Action.ask_of_ok answered)]
      cases isNull : term.isNull with
      | true =>
          rw [(Checks.term _).refused term isNull, Checks.failCall_bind]
          have failed := @Yields.failCall _ _ _ (NamedIn named) ⟨left, middle.events⟩ _ _ naming
            .constant
          exact ⟨naming.trans moves failed.moves, failed.result⟩
      | false =>
          simp only [checkTerm, isNull, Bool.false_eq_true, if_false, pure_bind]
          exact .of_ok moves (.leaf (naming.names answered isNull) rfl)

theorem readBits_names (node : Node) :
    Yields later (NamedIn named) start (readBits solver model node start) := by
  unfold readBits
  refine .bind naming (.ask naming _) fun width middle _ => ?_
  by_cases empty : width = 0
  · simp only [empty, if_true]
    exact .pure naming (.leaf trivial rfl)
  · simp only [empty, if_false]
    exact .call naming (.nodeBits ..) (.reply _) fun _ _ => .pure naming (.leaf trivial rfl)

section Composites

variable {read : Node → Action σ Value}
  (reads : ∀ node middle, Yields later (NamedIn named) middle (read node middle))

include reads

theorem readAll_names (nodes : List Node) :
    Yields later (fun state values => ∀ value ∈ values, NamedIn named state value) start
      (nodes.mapM read start) :=
  @Yields.mapM _ _ _ _ (NamedIn named) start _ _ naming read
    (fun moves isNamed => namedIn_stays naming moves isNamed) reads nodes

theorem readTuple_names (node : Node) :
    Yields later (NamedIn named) start (readTuple solver model read node start) := by
  unfold readTuple
  refine .bind naming (.ask naming _) fun arity middle _ => ?_
  by_cases empty : arity = 0
  · simp only [empty, if_true]
    exact .pure naming (.leaf trivial rfl)
  · simp only [empty, if_false]
    refine .call naming (.expandTuple ..) (.reply _) fun items middle => ?_
    refine .bind naming (readAll_names naming reads _) fun values middle allNamed => ?_
    exact .pure naming ((Value.every_iff_parts trivial).mpr allNamed)

/-- The arguments are named first, and stay named while the result is read. -/
theorem readMapping_names (node : Node) :
    Yields later (fun state point? => ∀ point ∈ point?, NamedIn named state (.mapping point)) start
      (readMapping solver model read node start) := by
  unfold readMapping
  refine .bind naming (.ask naming _) fun arity middle _ => ?_
  by_cases empty : arity = 0
  · simp only [empty, if_true]
    exact .pure naming (by simp)
  · simp only [empty, if_false]
    refine .call naming (.expandMapping ..) (.reply _) fun ⟨args, result⟩ middle => ?_
    refine .bind naming (readAll_names naming reads _) fun values middle allNamed => ?_
    have argsStay (state : σ) (moves : later middle.state state) :
        ∀ value ∈ values, NamedIn named state value :=
      fun value isArg => namedIn_stays naming moves (allNamed value isArg)
    refine .bind naming (.carry argsStay (reads result middle)) fun last middle both => ?_
    exact .pure naming (by simpa using Value.allNamed_mapping.mpr both)

theorem readEntry_some_names (limit : DepthLimit) (entry : Node) :
    Yields later (fun state point => NamedIn named state (.mapping point)) start
      (readEntry solver model limit (some read) entry start) := by
  have point := fun middle => @readMapping_names _ _ _ _ naming model middle read reads entry
  unfold readEntry
  by_cases isMapping : entry.kind? = some .mapping
  · simp only [isMapping, ne_eq, not_true, if_false]
    refine .bind naming (point start) fun point? middle allNamed => ?_
    cases point? with
    | none => exact .fail naming _
    | some point => exact .pure naming (allNamed point rfl)
  · simp only [isMapping, ne_eq, not_false_eq_true, if_true]
    exact .of_error (naming.refl _)

end Composites

theorem addEntry_names {function : FunctionValue} {point : Mapping Value}
    (functionNamed : NamedIn named start.state (.function function))
    (pointNamed : NamedIn named start.state (.mapping point)) :
    Yields later (fun state added => NamedIn named state (.function added)) start
      (addEntry function point start) := by
  unfold addEntry
  cases inserts : function.insert point with
  | error division => cases division; exact .of_error (naming.refl _)
  | ok outcome =>
      rcases outcome with ⟨replaced?, added⟩
      have addedNamed := functionNamed.insert pointNamed inserts
      cases replaced? <;> exact .of_ok (naming.refl _) addedNamed

theorem readFunction_names {read : Node → Action σ Value}
    {readEntry : Node → Action σ (Mapping Value)}
    (reads : ∀ node middle, Yields later (NamedIn named) middle (read node middle))
    (readsEntry : ∀ entry middle, Yields later
      (fun state point => NamedIn named state (.mapping point)) middle (readEntry entry middle))
    (node : Node) :
    Yields later (NamedIn named) start
      (readFunction solver model read readEntry node start) := by
  unfold readFunction
  refine .bind naming (.ask naming _) fun arity middle _ => ?_
  by_cases empty : arity = 0
  · simp only [empty, if_true]
    exact .pure naming (.leaf trivial rfl)
  · simp only [empty, if_false]
    refine .withNodeVector naming (fun moves isNamed => namedIn_stays naming moves isNamed)
      fun vector middle => ?_
    refine .call naming (.expandFunction ..) (.reply _) fun default middle => ?_
    refine .bind naming (reads default middle) fun value middle valueNamed => ?_
    have asked := Yields.carry (fun state moves => namedIn_stays naming moves valueNamed)
      (@Yields.ask _ _ middle _ _ naming (.nodeVectorElements vector))
    refine .bind naming asked fun entries middle ⟨valueNamed, _⟩ => ?_
    have starts : NamedIn named middle.state (.function (FiniteFunction.constant value)) :=
      Value.allNamed_function.mpr ⟨valueNamed, by simp [FiniteFunction.constant]⟩
    have adds : Yields later (fun state added => NamedIn named state (.function added)) middle
        ((entries.foldlM (fun function entry => do addEntry function (← readEntry entry))
          (FiniteFunction.constant value)) middle) := by
      refine .foldlM naming (fun function entry middle functionNamed => ?_) entries starts
      have pointRead := Yields.carry (fun state moves => namedIn_stays naming moves functionNamed)
        (readsEntry entry middle)
      exact .bind naming pointRead fun point middle both => addEntry_names naming both.1 both.2
    exact .bind naming adds fun function middle functionNamed => .pure naming functionNamed

/-- All elements in a value that was read are named when it has been read. -/
theorem read_names (limit : DepthLimit) (room : Nat) (node : Node) :
    Yields later (NamedIn named) start (read solver model limit room node start) := by
  induction room using Nat.strongRecOn generalizing start node with
  | ind room ih =>
      cases room with
      | zero => exact .fail naming _
      | succ room =>
          have below node middle := @ih room (by omega) middle node
          rw [read_succ]
          refine .bind naming (.record naming _) fun _ middle _ => ?_
          unfold readKind
          rcases node.kind? with _ | kind
          · exact .fail naming _
          cases kind with
          | unknown => exact .fail naming _
          | algebraic => exact .fail naming _
          | bool => exact readBool_names naming node
          | rational => exact readRational_names naming node
          | scalar => exact readScalar_names naming node
          | bitVector => exact readBits_names naming node
          | tuple => exact readTuple_names naming below node
          | mapping =>
              refine .bind naming (readMapping_names naming below node)
                fun point? middle allNamed => ?_
              cases point? with
              | none => exact .pure naming (.leaf trivial rfl)
              | some point => exact .pure naming (allNamed point rfl)
          | function =>
              refine readFunction_names naming below (fun entry middle => ?_) node
              cases room with
              | zero => exact .fail naming _
              | succ room =>
                  exact readEntry_some_names naming
                    (fun node middle => @ih room (by omega) middle node) limit entry

end Reading

/-- All elements in the value of a term are named when the value is answered with. -/
theorem Model.read_names {solver : Solver σ} {later : σ → σ → Prop}
    {named : σ → ScalarValue → Prop} (naming : Names solver later named) (model : Model)
    (term : TermId) (start : Traced σ) :
    Yields later (Reading.NamedIn named) start (model.read solver term start) :=
  .call naming (.value model.id term .blank) (.reply _) fun root _ =>
    Reading.read_names naming model.limit model.limit.levels root

end SmtModel
