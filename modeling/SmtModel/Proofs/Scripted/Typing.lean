import SmtModel.Proofs.Scripted.Clearing
import SmtModel.Proofs.Scripted.Constants

/-!
# The types of constants

An element of an enumerated type is known by the first term that denotes it. The term need
not have the type of the element. A script declares constants as it likes, and a constant
term for the value of a term gets the type of the term, whatever the value is. No other
move adds a constant for an element under another type than the element's own.

So the constant that is read with an element has the element's type exactly if the first
constant for the element was not put in under another type
(`Client.session_constants_typed_iff`).
-/

namespace SmtModel

open ScriptedSolver

namespace ScriptedSolver

variable {earlier middle later solver : ScriptedSolver} {type : TypeId} {index : Int32}

/-- Some term denotes the element of a type at an index. -/
def HasConstant (solver : ScriptedSolver) (type : TypeId) (index : Int32) : Prop :=
  ∃ term ∈ solver.terms.toList, term.denotes type index = true

/-- The first term that denotes the element, if there is one, has the type of the element. -/
def Types (solver : ScriptedSolver) (type : TypeId) (index : Int32) : Prop :=
  ∀ term, solver.terms.toList.find? (·.denotes type index) = some term → term.type = type

/-- There are more terms in a later state, and the first new one that denotes the element has
another type exactly if the element is mistyped. -/
def Adds (type : TypeId) (index : Int32) (mistyped : Prop) (earlier later : ScriptedSolver) :
    Prop :=
  ∃ added, later.terms.toList = earlier.terms.toList ++ added ∧
    ((∃ term, added.find? (·.denotes type index) = some term ∧ term.type ≠ type) ↔ mistyped)

/-- New terms count only where there was no constant for the element before. -/
theorem Adds.types_iff {mistyped : Prop} (adds : Adds type index mistyped earlier later) :
    later.Types type index ↔
      earlier.Types type index ∧ (mistyped → earlier.HasConstant type index) := by
  rcases adds with ⟨added, terms, mistypes⟩
  unfold Types
  rw [terms, List.find?_append]
  cases found : earlier.terms.toList.find? (·.denotes type index) with
  | some term =>
      have isKnown : earlier.HasConstant type index :=
        ⟨term, List.mem_of_find?_eq_some found, List.find?_some found⟩
      simp [isKnown]
  | none =>
      have isNew : ¬ earlier.HasConstant type index := by
        rintro ⟨term, isTerm, denotes⟩
        exact List.find?_eq_none.mp found term isTerm denotes
      simp only [Option.none_or, reduceCtorEq, false_implies, implies_true, true_and, isNew,
        ← mistypes]
      simp

theorem Adds.of_terms_eq (terms : later.terms = earlier.terms) :
    Adds type index False earlier later := by
  refine ⟨[], ?_, by simp⟩
  rw [terms, List.append_nil]

theorem Adds.of_push {term : ScriptedTerm} (terms : later.terms = earlier.terms.push term) :
    Adds type index (term.denotes type index = true ∧ term.type ≠ type) earlier later := by
  refine ⟨[term], ?_, ?_⟩
  · rw [terms, Array.toList_push]
  · cases denotes : term.denotes type index <;> simp [denotes]

theorem Adds.congr {mistyped mistyped' : Prop} (adds : Adds type index mistyped earlier later)
    (same : mistyped ↔ mistyped') : Adds type index mistyped' earlier later := by
  rw [← propext same]
  exact adds

theorem denotes_iff {term : ScriptedTerm} :
    term.denotes type index = true ↔ term.constant? = some (.scalar type index) := by
  unfold ScriptedTerm.denotes
  split <;> simp_all

/-- The constant by which an element is known is the first term that denotes it. -/
theorem Knows.typeOf_iff {element : ScalarValue} (knows : solver.Knows element)
    (few : solver.terms.size ≤ 0x80000000) :
    solver.typeOf element.constant = element.type ↔ solver.Types element.type element.index := by
  have known := knows.known
  simp only [constant?, Option.map_eq_some_iff] at known
  rcases known with ⟨place, found, isPlace⟩
  rcases Array.findIdx?_eq_some_iff_getElem.mp found with ⟨inside, denotes, isFirst⟩
  have first : solver.terms.toList.find? (·.denotes element.type element.index) =
      some solver.terms[place] := by
    refine List.find?_eq_some_iff_getElem.mpr ⟨denotes, place, by simpa using inside, by simp, ?_⟩
    intro earlier before
    simpa using isFirst earlier before
  have declared : solver.typeOf element.constant = solver.terms[place].type := by
    rw [← isPlace]
    simp only [typeOf, term?, TermId.index?_ofIndex (show place < 0x80000000 by omega),
      Option.bind_eq_bind, Option.bind_some, Array.getElem?_eq_getElem inside]
  rw [declared, Types, first]
  constructor
  · rintro typed term ⟨⟩
    exact typed
  · intro typed
    exact typed _ rfl

/-! ## Requests -/

/-- There are more terms in a later state, and every new one that denotes an element has the type
of the element. -/
def GrowsTyped (earlier later : ScriptedSolver) : Prop :=
  ∃ added, later.terms.toList = earlier.terms.toList ++ added ∧
    ∀ term ∈ added, ∀ type index, term.denotes type index = true → term.type = type

namespace GrowsTyped

theorem of_terms_eq (terms : later.terms = earlier.terms) : GrowsTyped earlier later := by
  refine ⟨[], ?_, by simp⟩
  rw [terms, List.append_nil]

theorem trans (before : GrowsTyped earlier middle) (after : GrowsTyped middle later) :
    GrowsTyped earlier later := by
  rcases before with ⟨added, terms, typed⟩
  rcases after with ⟨added', terms', typed'⟩
  refine ⟨added ++ added', ?_, List.forall_mem_append.mpr ⟨typed, typed'⟩⟩
  rw [terms', terms, List.append_assoc]

theorem adds (grows : GrowsTyped earlier later) : Adds type index False earlier later := by
  rcases grows with ⟨added, terms, typed⟩
  refine ⟨added, terms, iff_false_intro ?_⟩
  rintro ⟨term, found, differs⟩
  exact differs (typed term (List.mem_of_find?_eq_some found) _ _ (List.find?_some found))

end GrowsTyped

/-- A constant is put in under its own type. -/
theorem constant_growsTyped (type : TypeId) (index : Int32) (solver : ScriptedSolver) :
    GrowsTyped solver (Outcome.state (answer (.constant type index) solver)) := by
  simp only [answer]
  by_cases scripted : .constant ∈ solver.failing
  · have runs : constant type index solver = _ := attempt_of_mem scripted _ _
    rw [runs]
    exact .of_terms_eq rfl
  · rw [constant_run scripted]
    cases solver.constantError? type index with
    | some error => exact .of_terms_eq rfl
    | none =>
        cases solver.constant? type index with
        | some term => exact .of_terms_eq rfl
        | none =>
            refine ⟨[⟨type, some (.scalar type index)⟩], Array.toList_push .., ?_⟩
            rintro term isNew type' index' denotes
            rw [List.mem_singleton.mp isNew] at denotes ⊢
            have same := denotes_iff.mp denotes
            simp only [Option.some.injEq, ScriptedValue.scalar.injEq] at same
            exact same.1

theorem answer_growsTyped {request : Request} (isOther : ∀ id term, request ≠ .valueAsTerm id term)
    (solver : ScriptedSolver) : GrowsTyped solver (Outcome.state (answer request solver)) := by
  cases makes : request.makesTerm with
  | false => exact .of_terms_eq (answer_terms makes solver)
  | true =>
      cases request
      case valueAsTerm id term => exact absurd rfl (isOther id term)
      case constant type index => exact constant_growsTyped type index solver
      all_goals cases makes

theorem respects_growsTyped {requests : Request → Prop}
    (others : ∀ request, requests request → ∀ id term, request ≠ .valueAsTerm id term) :
    Respects answer (GrowsTyped solver) (fun _ => True) requests where
  kept {request state} made grows := by
    refine grows.trans (answer_growsTyped (fun id term isValue => ?_) state)
    subst isValue
    rcases made with made | made | made
    · exact others _ made id term rfl
    · cases made
    · cases made
  fault _ _ _ := trivial

/-- The constant for the value of a term is put in under the type of the term. -/
theorem valueAsTerm_terms (id : ModelId) (term : TermId) (solver : ScriptedSolver) :
    (Outcome.state (answer (.valueAsTerm id term) solver)).terms =
      if .valueAsTerm ∈ solver.failing then solver.terms
      else match solver.value? id term with
        | some value => solver.terms.push ⟨solver.typeOf term, some value⟩
        | none => solver.terms := by
  simp only [answer]
  by_cases scripted : .valueAsTerm ∈ solver.failing
  · have runs : valueAsTerm id term solver = _ := attempt_of_mem scripted _ _
    rw [runs, if_pos scripted]
    rfl
  · have runs : valueAsTerm id term solver = _ := attempt_of_not_mem scripted _ _
    have same : (withCall .valueAsTerm solver).value? id term = solver.value? id term := rfl
    rw [runs, if_neg scripted, get_bind]
    cases assigned : solver.value? id term with
    | some value =>
        rw [Outcome.bind_of_ok (valueOf_of_some (same.trans assigned))]
        rfl
    | none =>
        have frank : Frank { model? := some id } Option.isNone (valueOf id term) :=
          .valueOf rfl term
        have terms := (frank.changes (withCall .valueAsTerm solver)).terms rfl
        cases ran : valueOf id term (withCall .valueAsTerm solver) with
        | error fault left =>
            rw [ran] at terms
            rw [Outcome.bind_of_error ran]
            exact terms
        | ok value? left =>
            rw [ran] at terms
            rw [Outcome.bind_of_ok ran]
            cases value? with
            | none => exact terms
            | some value =>
                have isValue := same.symm.trans (value?_of_valueOf ran).2
                cases assigned.symm.trans isValue

end ScriptedSolver

/-! ## Moves -/

namespace Client

variable {client left : Client ScriptedSolver} {type : TypeId} {index : Int32}

/-- A move that puts in a constant for the element under another type than the element's: a script
declares it so, or the element is the value of a term of another type. -/
def Mistypes (client : Client ScriptedSolver) (type : TypeId) (index : Int32) : Move → Prop
  | .script (.declareConstant declared value) => value = .scalar type index ∧ declared ≠ type
  | .operate (.query id (.valueAsTerm term)) =>
    (client.find? id).isSome = true ∧ .valueAsTerm ∉ client.traced.state.failing ∧
      client.traced.state.value? id term = some (.scalar type index) ∧
      client.traced.state.typeOf term ≠ type
  | _ => False

/-- The value of a term is read without a mistyped constant being put in. -/
theorem run_value_growsTyped {id : ModelId} {term : TermId} {ending : Ending ScriptedSolver Value}
    (ran : run answer client (.query id (.value term)) = some ending) :
    GrowsTyped client.traced.state (Outcome.state ending).traced.state := by
  have respects : Respects answer (GrowsTyped client.traced.state) (fun _ => True)
      (Query.Makes id (.value term)) :=
    respects_growsTyped fun request made id term isValue => by subst isValue; exact made
  exact (run_query_ensures respects trivial (.of_terms_eq rfl) ran).1

theorem run_growsTyped {operation : Operation}
    {ending : Ending ScriptedSolver operation.Answer}
    (isOther : ∀ id term, operation ≠ .query id (.valueAsTerm term))
    (ran : run answer client operation = some ending) :
    GrowsTyped client.traced.state (Outcome.state ending).traced.state := by
  have ensures (others : ∀ request, operation.Makes request →
      ∀ id term, request ≠ .valueAsTerm id term) :
      GrowsTyped client.traced.state (Outcome.state ending).traced.state :=
    (run_ensures (respects_growsTyped others) trivial (.of_terms_eq rfl) ran).1
  cases operation with
  | service performed =>
      refine ensures fun request made id term isValue => ?_
      cases performed <;> cases made <;> cases isValue
  | modelOfContext | modelOfPairs | limitDepth | dispose =>
      refine ensures fun request made id term isValue => ?_
      cases made <;> cases isValue
  | query id query =>
      have respects : Respects answer (GrowsTyped client.traced.state) (fun _ => True)
          (query.Makes id) := by
        refine respects_growsTyped fun request made id' term' isValue => ?_
        subst isValue
        cases query
        case valueAsTerm term => exact isOther id term rfl
        all_goals exact made
      exact (run_query_ensures respects trivial (.of_terms_eq rfl) ran).1

/-- A query for a constant term adds what its request adds. -/
theorem run_valueAsTerm_terms {id : ModelId} {term : TermId}
    {ending : Ending ScriptedSolver TermId}
    (ran : run answer client (.query id (.valueAsTerm term)) = some ending) :
    (Outcome.state ending).traced.state.terms =
      (Outcome.state (answer (.valueAsTerm id term) client.traced.state)).terms := by
  rcases run_query ran with ⟨model, -, rfl, reached⟩
  rw [reached]
  simp only [Model.ask]
  cases answered : answer (.valueAsTerm model.id term) client.traced.state with
  | error fault state =>
      rw [Outcome.bind_of_error (Action.ask_of_error answered)]
      rfl
  | ok made state =>
      rw [Outcome.bind_of_ok (Action.ask_of_ok answered)]
      unfold Action.checkTerm
      cases made.isNull with
      | true => exact failCall_terms ..
      | false => rfl

theorem not_mistypes {operation : Operation}
    (isOther : ∀ id term, operation ≠ .query id (.valueAsTerm term)) :
    ¬ client.Mistypes type index (.operate operation) := by
  intro mistypes
  cases operation with
  | query id query =>
      cases query
      case valueAsTerm term => exact isOther id term rfl
      all_goals exact mistypes
  | _ => exact mistypes

theorem command_adds (client : Client ScriptedSolver) (command : ScriptCommand) :
    Adds type index (client.Mistypes type index (.script command)) client.traced.state
      (afterCommand command client.traced.state) := by
  cases command with
  | declareConstant declared value =>
      refine (Adds.of_push rfl).congr ?_
      simp only [Mistypes, denotes_iff, Option.some.injEq]
  | declareVariable declared =>
      refine (Adds.of_push rfl).congr ?_
      simp [Mistypes, denotes_iff]
  | failOn name =>
      refine .of_terms_eq ?_
      simp only [afterCommand, obey]
      cases Call.ofName? name <;> rfl
  | keptSubstitution model =>
      refine .of_terms_eq ?_
      simp only [afterCommand, obey]
      cases found : client.traced.state.model? model with
      | some live => rw [Outcome.bind_of_ok (liveModel_of_some found)]; rfl
      | none => rw [Outcome.bind_of_error (liveModel_of_none found)]; rfl
  | declareType | isBoolType | typeOf | satisfiable | unsatisfiable | clearFailures |
      timesCalled => exact .of_terms_eq rfl

theorem operation_adds (client : Client ScriptedSolver) (operation : Operation) :
    Adds type index (client.Mistypes type index (.operate operation)) client.traced.state
      (move answer afterCommand client (.operate operation)).traced.state := by
  by_cases isValue : ∃ id term, operation = .query id (.valueAsTerm term)
  · rcases isValue with ⟨id, term, rfl⟩
    simp only [move]
    cases ran : run answer client (.query id (.valueAsTerm term)) with
    | none =>
        have unowned : client.find? id = none := by
          cases found : client.find? id with
          | none => rfl
          | some model => simp [run, found] at ran
        exact (Adds.of_terms_eq rfl).congr (by simp [Mistypes, unowned])
    | some ending =>
        rcases run_query ran with ⟨model, owned, -, -⟩
        have terms := (run_valueAsTerm_terms ran).trans (valueAsTerm_terms ..)
        by_cases scripted : .valueAsTerm ∈ client.traced.state.failing
        · rw [if_pos scripted] at terms
          exact (Adds.of_terms_eq terms).congr (by simp [Mistypes, scripted])
        · rw [if_neg scripted] at terms
          cases assigned : client.traced.state.value? id term with
          | none =>
              rw [assigned] at terms
              exact (Adds.of_terms_eq terms).congr (by simp [Mistypes, assigned])
          | some value =>
              rw [assigned] at terms
              exact (Adds.of_push terms).congr
                (by simp [Mistypes, owned, scripted, assigned, denotes_iff])
  · have isOther id term : operation ≠ .query id (.valueAsTerm term) :=
      fun same => isValue ⟨id, term, same⟩
    have grows : GrowsTyped client.traced.state
        (move answer afterCommand client (.operate operation)).traced.state := by
      simp only [move]
      cases ran : run answer client operation with
      | none => exact .of_terms_eq rfl
      | some ending => exact run_growsTyped isOther ran
    exact grows.adds.congr (iff_of_false id (not_mistypes isOther))

/-- One move changes which type the constant for an element has at most by being the first to put one
in. -/
theorem move_types_iff (client : Client ScriptedSolver) (made : Move) :
    (move answer afterCommand client made).traced.state.Types type index ↔
      client.traced.state.Types type index ∧
        (client.Mistypes type index made → client.traced.state.HasConstant type index) := by
  cases made with
  | script command => exact (client.command_adds command).types_iff
  | operate operation => exact (client.operation_adds operation).types_iff

/-- Each of some moves that mistypes the element finds a constant for it that was there before. -/
def NoneMistypes (client : Client ScriptedSolver) (type : TypeId) (index : Int32)
    (moves : List Move) : Prop :=
  ∀ before made rest, moves = before ++ made :: rest →
    (client.after before).Mistypes type index made →
      (client.after before).traced.state.HasConstant type index

theorem noneMistypes_cons {made : Move} {moves : List Move} :
    client.NoneMistypes type index (made :: moves) ↔
      (client.Mistypes type index made → client.traced.state.HasConstant type index) ∧
        (move answer afterCommand client made).NoneMistypes type index moves := by
  constructor
  · intro none
    refine ⟨none [] made moves rfl, fun before other rest split => ?_⟩
    exact none (made :: before) other rest (by rw [split, List.cons_append])
  · rintro ⟨first, others⟩ before other rest split
    cases before with
    | nil =>
        cases split
        exact first
    | cons first' before =>
        cases split
        exact others before other rest rfl

theorem after_types_iff (client : Client ScriptedSolver) (moves : List Move) :
    (client.after moves).traced.state.Types type index ↔
      client.traced.state.Types type index ∧ client.NoneMistypes type index moves := by
  induction moves generalizing client with
  | nil =>
      have none : client.NoneMistypes type index [] := by
        intro before made rest split
        simp at split
      simp [after, none]
  | cons made moves ih =>
      rw [noneMistypes_cons, ← and_assoc, ← move_types_iff]
      exact ih _

/-- The constant that is read with an element in a value has the type of the element exactly if, in
the session so far, no move put a constant for the element in under another type, unless there was
one already. -/
theorem session_constants_typed_iff {moves : List Move} {id : ModelId} {asked : TermId}
    {value : Value} {element : ScalarValue}
    (ran : run answer (session moves) (.query id (.value asked)) = some (.ok value left))
    (within : (Value.scalar element).Within value)
    (few : left.traced.state.terms.size ≤ 0x80000000) :
    left.traced.state.typeOf element.constant = element.type ↔
      ∀ before made rest, moves = before ++ made :: rest →
        (session before).Mistypes element.type element.index made →
          (session before).traced.state.HasConstant element.type element.index := by
  have grows : Adds element.type element.index False _ _ := (run_value_growsTyped ran).adds
  have unchanged := grows.types_iff
  simp only [Outcome.state_ok, false_implies, and_true] at unchanged
  have fresh : (ofState ({} : ScriptedSolver)).traced.state.Types element.type element.index := by
    rintro term ⟨⟩
  rw [(knows_of_query ran within).typeOf_iff few, unchanged]
  exact ((ofState {}).after_types_iff moves).trans (and_iff_right fresh)

/-- A variable of a compound type gets an element as its value. -/
def elementMoves : List Move :=
  [.script (.declareType .compound), .script (.declareType (.enumeration 2)),
    .script (.declareVariable ⟨0⟩), .script (.satisfiable [(⟨0⟩, .scalar ⟨1⟩ 0)]),
    .operate (.modelOfContext ⟨0⟩ false)]

/-- The constant for the value of the variable comes too late to be the one for the element, which is
read before. -/
theorem session_constants_typed_iff_readBefore :
    ∃ left, run answer
        (session (elementMoves ++
          [.operate (.query ⟨0⟩ (.value ⟨0⟩)), .operate (.query ⟨0⟩ (.valueAsTerm ⟨0⟩))]))
        (.query ⟨0⟩ (.value ⟨0⟩)) = some (.ok (.scalar ⟨⟨1⟩, ⟨1⟩, 0⟩) left) ∧
      left.traced.state.typeOf ⟨1⟩ = ⟨1⟩ ∧
      ∀ before made rest,
        elementMoves ++ [.operate (.query ⟨0⟩ (.value ⟨0⟩)),
          .operate (.query ⟨0⟩ (.valueAsTerm ⟨0⟩))] = before ++ made :: rest →
        (session before).Mistypes ⟨1⟩ 0 made → (session before).traced.state.HasConstant ⟨1⟩ 0 := by
  have runs : ∃ left, run answer
        (session (elementMoves ++
          [.operate (.query ⟨0⟩ (.value ⟨0⟩)), .operate (.query ⟨0⟩ (.valueAsTerm ⟨0⟩))]))
        (.query ⟨0⟩ (.value ⟨0⟩)) = some (.ok (.scalar ⟨⟨1⟩, ⟨1⟩, 0⟩) left) ∧
      left.traced.state.typeOf ⟨1⟩ = ⟨1⟩ ∧ left.traced.state.terms.size = 3 := by
    with_unfolding_all exact ⟨_, rfl, rfl, rfl⟩
  rcases runs with ⟨left, ran, typed, terms⟩
  have few : left.traced.state.terms.size ≤ 0x80000000 := by rw [terms]; decide
  exact ⟨left, ran, typed, (session_constants_typed_iff ran .here few).mp typed⟩

/-- Without the reading before, that constant is the one for the element, and has the type of the
variable. -/
theorem constant_mistyped :
    ∃ left, run answer
        (session (elementMoves ++ [.operate (.query ⟨0⟩ (.valueAsTerm ⟨0⟩))]))
        (.query ⟨0⟩ (.value ⟨0⟩)) = some (.ok (.scalar ⟨⟨1⟩, ⟨1⟩, 0⟩) left) ∧
      left.traced.state.typeOf ⟨1⟩ = ⟨0⟩ := by
  with_unfolding_all exact ⟨_, rfl, rfl⟩

end Client

end SmtModel
