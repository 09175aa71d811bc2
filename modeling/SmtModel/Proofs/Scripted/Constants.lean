import SmtModel.Proofs.Keys
import SmtModel.Proofs.Naming
import SmtModel.Proofs.Operations
import SmtModel.Proofs.Scripted.Ledger
import SmtModel.Proofs.Scripted.Rebuilding

/-!
# Constants for elements

The constant for an element of an enumerated type is made when it is first asked for, and
found again from then on. Scripts and queries may add any number of terms that denote the
same element, so what is found has to be the first term that does. Types and terms are
never taken away, not even by a reset, and more terms do not change which one is the
first. So an element that is once known by a constant stays known by it
(`ScriptedSolver.Knows.of_grows`), and no two elements are known by the same one.

Elements in a value that was read are known by the constants that are read with them. As
long as a model does not assign such a constant another value, it can be asked for the
element again (`Client.constants_interned`).
-/

namespace SmtModel

open ScriptedSolver

namespace ScriptedSolver

/-! ## Types and terms -/

/-- Whatever is asked, types and terms are kept. -/
theorem answer_grows (request : Request) (solver : ScriptedSolver) :
    solver.lexicon.Grows (Outcome.state (answer request solver)).lexicon := by
  by_cases isReset : request = .reset
  · subst isReset
    exact ⟨List.prefix_rfl, List.prefix_rfl⟩
  by_cases frees : ∃ id, request = .freeModel id
  · rcases frees with ⟨id, rfl⟩
    simp only [answer]
    cases found : solver.model? id with
    | none =>
        rw [freeModel_of_none found]
        exact .refl _
    | some live =>
        rw [freeModel_of_some found]
        exact ⟨List.prefix_rfl, List.prefix_rfl⟩
  · have extends_ := answer_extends isReset (fun id same => frees ⟨id, same⟩) solver
    exact ⟨by simp only [lexicon, extends_.types, List.prefix_rfl], extends_.terms⟩

theorem afterCommand_grows (command : ScriptCommand) (solver : ScriptedSolver) :
    solver.lexicon.Grows (afterCommand command solver).lexicon :=
  have commanded := afterCommand_commanded command solver
  ⟨commanded.types, commanded.terms⟩

/-! ## Known elements -/

/-- An element that there is, and the constant by which it is known. -/
structure Knows (solver : ScriptedSolver) (element : ScalarValue) : Prop where
  inside : solver.constantError? element.type element.index = none
  known : solver.constant? element.type element.index = some element.constant

/-- No call is scripted to fail, and there is a place for another term. -/
structure IsReady (solver : ScriptedSolver) : Prop where
  calm : solver.failing = []
  few : solver.terms.size < 0x80000000

theorem IsReady.free {solver : ScriptedSolver} (ready : solver.IsReady) (call : Call) :
    call ∉ solver.failing := by
  simp [ready.calm]

theorem constantError?_eq_none_iff {solver : ScriptedSolver} {type : TypeId} {index : Int32} :
    solver.constantError? type index = none ↔
      ∃ size, solver.type? type = some (.enumeration size) ∧
        0 ≤ index ∧ index.toInt < size.toNat := by
  unfold constantError?
  cases solver.type? type with
  | none => simp
  | some declared => cases declared <;> simp [Int32.not_lt]

namespace Knows

variable {earlier later solver : ScriptedSolver} {element other : ScalarValue}

/-- More types and terms do not change by which constant an element is known. -/
theorem of_grows (knows : earlier.Knows element) (grown : earlier.lexicon.Grows later.lexicon) :
    later.Knows element where
  inside := constantError?_of_prefix grown.types knows.inside
  known := constant?_of_prefix grown.terms _ _ _ knows.known

/-- The constant is a term that denotes the element. -/
theorem denotes (knows : solver.Knows element) (few : solver.terms.size ≤ 0x80000000) :
    solver.Denotes element.constant (.scalar element.type element.index) := by
  have known := knows.known
  simp only [constant?, Option.map_eq_some_iff] at known
  rcases known with ⟨place, found, isPlace⟩
  rcases Array.findIdx?_eq_some_iff_getElem.mp found with ⟨inside, denotes, -⟩
  refine ⟨solver.terms[place], ?_, ?_⟩
  · rw [← isPlace]
    simp only [term?, TermId.index?_ofIndex (show place < 0x80000000 by omega)]
    exact Array.getElem?_eq_getElem inside
  · revert denotes
    generalize solver.terms[place] = entry
    rcases entry with ⟨type, constant?⟩
    intro denotes
    unfold ScriptedTerm.denotes at denotes
    split at denotes
    · rename_i value type' index' isScalar
      simp only [decide_eq_true_eq] at denotes
      rw [isScalar, denotes.1, denotes.2]
    · cases denotes

/-- Different elements are known by different constants. -/
theorem eq_of_constant_eq (knows : solver.Knows element) (knowsOther : solver.Knows other)
    (few : solver.terms.size ≤ 0x80000000) (same : element.constant = other.constant) :
    element = other := by
  rcases knows.denotes few with ⟨entry, term, denotes⟩
  rcases knowsOther.denotes few with ⟨entry', term', denotes'⟩
  rw [same] at term
  cases term.symm.trans term'
  rw [denotes] at denotes'
  rcases element with ⟨constant, type, index⟩
  cases other
  cases denotes'
  cases same
  rfl

theorem isNull (knows : solver.Knows element) (few : solver.terms.size ≤ 0x80000000) :
    element.constant.isNull = false :=
  isNull_of_constant? knows.known few

/-- A known element is answered with at once. -/
theorem constant_run (knows : solver.Knows element) (ready : solver.IsReady) :
    answer (.constant element.type element.index) solver =
      .ok element.constant (withCall .constant solver) := by
  have runs : answer (.constant element.type element.index) solver = _ :=
    ScriptedSolver.constant_run (ready.free _)
  simpa only [knows.inside, knows.known] using runs

end Knows

/-- A constant that is handed out is one by which the element is known. -/
theorem knows_of_constant {solver left : ScriptedSolver} {type : TypeId} {index : Int32}
    {term : TermId} (answered : answer (.constant type index) solver = .ok term left)
    (notNull : term.isNull = false) : left.Knows ⟨term, type, index⟩ := by
  simp only [answer] at answered
  by_cases scripted : .constant ∈ solver.failing
  · have runs : constant type index solver = _ := attempt_of_mem scripted _ _
    cases runs.symm.trans answered
    cases notNull
  · have runs : constant type index solver = _ := constant_run scripted
    cases inside : solver.constantError? type index with
    | some error =>
        simp only [inside] at runs
        cases runs.symm.trans answered
        cases notNull
    | none =>
        rcases constant_of_noError scripted inside with ⟨term', left', runs', known, -⟩
        cases runs'.symm.trans answered
        refine ⟨?_, known⟩
        have grown := answer_grows (.constant type index) solver
        simp only [answer, runs'] at grown
        exact constantError?_of_prefix grown.types inside

/-- The scripted solver names an element by the constant by which it knows it. -/
theorem names_knows :
    Names answer (fun earlier later => earlier.lexicon.Grows later.lexicon) Knows where
  refl _ := .refl _
  trans before after := before.trans after
  moves := answer_grows
  stays grown knows := knows.of_grows grown
  names := knows_of_constant

end ScriptedSolver

/-! ## Asking for a constant -/

namespace ScriptedSolver

/-- Asking for the constant for an element, and the check of what comes back. -/
abbrev askConstant (type : TypeId) (index : Int32) : Action ScriptedSolver TermId :=
  Action.ask answer (.constant type index) >>= Action.checkTerm answer .constant

variable {traced left : Traced ScriptedSolver} {type : TypeId} {index : Int32} {term : TermId}

theorem knows_of_askConstant (ran : askConstant type index traced = .ok term left) :
    left.state.Knows ⟨term, type, index⟩ := by
  rcases Outcome.bind_eq_ok.mp ran with ⟨term', middle, asked, checked⟩
  cases answered : answer (.constant type index) traced.state with
  | error fault state =>
      rw [Action.ask_of_error answered] at asked
      cases asked
  | ok reply state =>
      rw [Action.ask_of_ok answered] at asked
      cases asked
      rcases of_checkTerm checked with ⟨notNull, rfl, rfl⟩
      exact knows_of_constant answered notNull

/-- Without scripted failures, exactly the elements that there are have constants. -/
theorem askConstant_ok_iff (ready : traced.state.IsReady) :
    (∃ term left, askConstant type index traced = .ok term left) ↔
      traced.state.constantError? type index = none := by
  have runs : answer (.constant type index) traced.state = _ := constant_run (ready.free _)
  constructor
  · rintro ⟨term, left, ran⟩
    by_contra offends
    rcases Option.ne_none_iff_exists'.mp offends with ⟨error, offends⟩
    simp only [offends] at runs
    rw [askConstant, Outcome.bind_of_ok (Action.ask_of_ok runs),
      (Checks.term _).refused TermId.null rfl] at ran
    exact failCall_ne_ok ran
  · intro inside
    simp only [inside] at runs
    have isTerm {term : TermId} {left : ScriptedSolver} (notNull : term.isNull = false)
        (answered : answer (.constant type index) traced.state = .ok term left) :
        ∃ term left, askConstant type index traced = .ok term left := by
      refine ⟨term, ⟨left, traced.events⟩, ?_⟩
      rw [askConstant, Outcome.bind_of_ok (Action.ask_of_ok answered), Action.checkTerm, notNull]
      rfl
    cases known : traced.state.constant? type index with
    | some term =>
        simp only [known] at runs
        exact isTerm (isNull_of_constant? known ready.few.le) runs
    | none =>
        simp only [known] at runs
        exact isTerm (TermId.isNull_ofIndex ready.few) runs

theorem Knows.askConstant {element : ScalarValue} (knows : traced.state.Knows element)
    (ready : traced.state.IsReady) :
    askConstant element.type element.index traced =
      .ok element.constant ⟨withCall .constant traced.state, traced.events⟩ := by
  rw [ScriptedSolver.askConstant, Outcome.bind_of_ok (Action.ask_of_ok (knows.constant_run ready)),
    Action.checkTerm, knows.isNull ready.few.le]
  rfl

end ScriptedSolver

/-! ## Asking a model about a constant -/

/-- A node that shows a known element is read as the element. -/
theorem Reading.read_of_knows {traced : Traced ScriptedSolver} {element : ScalarValue}
    {model : ModelId} {node : Node} (knows : traced.state.Knows element)
    (ready : traced.state.IsReady)
    (shows : traced.state.Shows model node (.scalar element.type element.index))
    (limit : DepthLimit) (below : Nat) :
    Outcome.result (read answer model limit (below + 1) node traced) = .ok (.scalar element) := by
  have isScalar : node.kind? = some .scalar := by
    rw [Node.kind?, shows.tag]
    exact NodeKind.ofTag?_tag .scalar
  have answered : answer (.nodeScalar model node (0, .null)) traced.state =
      .ok (.ok (element.index, element.type)) (withCall .nodeScalar traced.state) :=
    readNode_of_shows (ready.free _) shows (0, TypeId.null) rfl
  have knowsAfter : (withCall .nodeScalar traced.state).Knows element :=
    ⟨knows.inside, knows.known⟩
  have readyAfter : (withCall .nodeScalar traced.state).IsReady := ⟨ready.calm, ready.few⟩
  let visit : Event := .readingNode node (limit.levels - (below + 1))
  have recorded : Action.record visit traced = .ok () ⟨traced.state, visit :: traced.events⟩ := rfl
  have asked : Action.ask answer (.nodeScalar model node (0, .null))
      ⟨traced.state, visit :: traced.events⟩ = _ := Action.ask_of_ok answered
  let reached : Traced ScriptedSolver :=
    ⟨withCall .nodeScalar traced.state, visit :: traced.events⟩
  have named := @Knows.askConstant reached element knowsAfter readyAfter
  rw [read_succ, Outcome.bind_of_ok recorded]
  unfold readKind
  simp only [isScalar]
  unfold readScalar
  rw [Outcome.bind_of_ok asked, checkReply_ok, pure_bind]
  dsimp only
  rw [← bind_assoc, Outcome.bind_of_ok named]
  rfl

namespace Model

variable {model : Model} {traced : Traced ScriptedSolver} {element : ScalarValue}
  {live : ScriptedModel} (knows : traced.state.Knows element) (ready : traced.state.IsReady)
  (found : traced.state.model? model.id = some live)
  (unassigned : ∀ pair ∈ live.assignment, pair.1 ≠ element.constant)

include knows ready found unassigned

theorem ask_scalar_of_knows :
    Outcome.result (model.ask answer (.scalar element.constant) traced) = .ok element.index := by
  have assigned := value?_of_unassigned found (knows.denotes ready.few.le) unassigned
  have looked := lookup_eq_ok_iff.mpr assigned
  have decided : Query.verdict? traced.state model.id (.scalar element.constant) =
      some (.ok element.index) := by
    simp only [Query.verdict?, readingOf, looked]
    rfl
  exact (ask_concludes ready.calm found decided).result_eq

/-- The constant is read as the element, since the node that is handed out for it shows the
element. -/
theorem ask_value_of_knows (room : live.nodes.size < 0x80000000) :
    Outcome.result (model.ask answer (.value element.constant) traced) =
      .ok (.scalar element) := by
  let value : ScriptedValue := .scalar element.type element.index
  have assigned : traced.state.value? model.id element.constant = some value :=
    value?_of_unassigned found (knows.denotes ready.few.le) unassigned
  let shown := (withCall .value traced.state).withNodes model.id live [value]
  rcases value_shows (ready.free _) found assigned .blank with ⟨root, answered, shows⟩
  have answered : answer (.value model.id element.constant .blank) traced.state =
      .ok (.ok root) shown := answered
  have knowsShown : shown.Knows element := ⟨knows.inside, knows.known⟩
  have readyShown : shown.IsReady := ⟨ready.calm, ready.few⟩
  rcases Nat.exists_eq_add_one.mpr model.limit.levels_pos with ⟨below, levels⟩
  simp only [ask, Model.read]
  rw [Outcome.bind_of_ok (Action.ask_of_ok answered), Reading.checkReply_ok, pure_bind, levels]
  exact @Reading.read_of_knows ⟨shown, traced.events⟩ _ _ _ knowsShown readyShown (shows room) _
    below

end Model

/-! ## Runs -/

namespace Client

theorem run_grows {client : Client ScriptedSolver} {operation : Operation}
    {ending : Ending ScriptedSolver operation.Answer}
    (ran : run answer client operation = some ending) :
    client.traced.state.lexicon.Grows (Outcome.state ending).traced.state.lexicon := by
  have respects : Respects answer
      (fun solver => client.traced.state.lexicon.Grows solver.lexicon) (fun _ => True)
      operation.Makes :=
    ⟨fun _ grown => grown.trans (answer_grows _ _), fun _ _ _ => trivial⟩
  exact (run_ensures respects trivial (.refl _) ran).1

/-- The client after some moves. -/
def after (client : Client ScriptedSolver) (moves : List Move) : Client ScriptedSolver :=
  moves.foldl (move answer afterCommand) client

theorem move_grows (client : Client ScriptedSolver) (made : Move) :
    client.traced.state.lexicon.Grows
      (move answer afterCommand client made).traced.state.lexicon := by
  cases made with
  | script command => exact afterCommand_grows command client.traced.state
  | operate operation =>
      simp only [move]
      cases ran : run answer client operation with
      | none => exact .refl _
      | some ending => exact run_grows ran

/-- No move takes types or terms away. -/
theorem after_grows (client : Client ScriptedSolver) (moves : List Move) :
    client.traced.state.lexicon.Grows (client.after moves).traced.state.lexicon := by
  induction moves generalizing client with
  | nil => exact .refl _
  | cons made moves ih => exact (move_grows client made).trans (ih _)

/-- Asking for the constant for an element. -/
abbrev runConstant (client : Client ScriptedSolver) (type : TypeId) (index : Int32) :
    Option (Ending ScriptedSolver TermId) :=
  run answer client (.service (.constant type index))

variable {client left : Client ScriptedSolver} {type : TypeId} {index : Int32} {term : TermId}
  {element : ScalarValue}

theorem runConstant_ok_iff :
    client.runConstant type index = some (.ok term left) ↔
      askConstant type index client.traced = .ok term left.traced ∧ left.owned = client.owned := by
  rcases client with ⟨traced, owned⟩
  rcases left with ⟨traced', owned'⟩
  have runs : runConstant ⟨traced, owned⟩ type index =
      some (perform ⟨traced, owned⟩ (askConstant type index) fun _ => owned) := rfl
  rw [runs]
  simp only [perform]
  cases askConstant type index traced with
  | ok result middle => simp [eq_comm, and_assoc]
  | error stop middle => simp

theorem knows_of_runConstant (ran : client.runConstant type index = some (.ok term left)) :
    left.traced.state.Knows ⟨term, type, index⟩ :=
  knows_of_askConstant (runConstant_ok_iff.mp ran).1

/-- Without scripted failures, exactly the elements that there are have constants. -/
theorem runConstant_inside (ready : client.traced.state.IsReady) :
    (∃ term left, client.runConstant type index = some (.ok term left)) ↔
      client.traced.state.constantError? type index = none := by
  rw [← askConstant_ok_iff ready]
  constructor
  · rintro ⟨term, left, ran⟩
    exact ⟨term, left.traced, (runConstant_ok_iff.mp ran).1⟩
  · rintro ⟨term, left, ran⟩
    exact ⟨term, ⟨left, client.owned⟩, runConstant_ok_iff.mpr ⟨ran, rfl⟩⟩

theorem runConstant_of_knows (knows : client.traced.state.Knows element)
    (ready : client.traced.state.IsReady) :
    ∃ last, client.runConstant element.type element.index = some (.ok element.constant last) :=
  ⟨⟨_, client.owned⟩, runConstant_ok_iff.mpr ⟨knows.askConstant ready, rfl⟩⟩

/-- The elements in a value are known when the value is answered with. -/
theorem knows_of_query {id : ModelId} {asked : TermId} {value : Value}
    (ran : run answer client (.query id (.value asked)) = some (.ok value left))
    (within : (Value.scalar element).Within value) : left.traced.state.Knows element := by
  cases found : client.find? id with
  | none => simp [run, found] at ran
  | some model =>
      simp only [run, found, Option.bind_eq_bind, Option.bind_some, Option.pure_def,
        Option.some.injEq] at ran
      have names := Model.read_names names_knows model asked client.traced
      rcases client with ⟨traced, owned⟩
      simp only [perform, Model.ask] at ran
      cases reads : model.read answer asked traced with
      | error stop middle =>
          rw [reads] at ran
          cases ran
      | ok result middle =>
          rw [reads] at ran
          cases ran
          exact (names.result _ _ reads).within within

/-- Constants are interned. Without scripted failures, and with places for terms left, the elements
that there are have constants. Whatever moves come between, an element has the constant that it had
before, and different elements have different ones. The elements in a value that was read have the
constants that are there. Any live model that does not assign such a constant says which element it
is when it is asked about it, and reads the constant as the element if there is a place for a node. -/
theorem constants_interned (client : Client ScriptedSolver) :
    (∀ type index, client.traced.state.IsReady →
      ((∃ term left, client.runConstant type index = some (.ok term left)) ↔
        ∃ size, client.traced.state.type? type = some (.enumeration size) ∧
          0 ≤ index ∧ index.toInt < size.toNat)) ∧
    (∀ type index term left moves, client.runConstant type index = some (.ok term left) →
      (left.after moves).traced.state.IsReady →
        ∃ last, (left.after moves).runConstant type index = some (.ok term last)) ∧
    (∀ type index term left moves type' index' term' last,
      client.runConstant type index = some (.ok term left) →
      (left.after moves).runConstant type' index' = some (.ok term' last) →
      last.traced.state.terms.size ≤ 0x80000000 →
        (type, index) ≠ (type', index') → term ≠ term') ∧
    ∀ id asked value left element moves,
      run answer client (.query id (.value asked)) = some (.ok value left) →
      (Value.scalar element).Within value →
      (left.after moves).traced.state.IsReady →
        (∃ last, (left.after moves).runConstant element.type element.index =
          some (.ok element.constant last)) ∧
        ∀ (model : Model) live, (left.after moves).traced.state.model? model.id = some live →
          (∀ pair ∈ live.assignment, pair.1 ≠ element.constant) →
            Outcome.result (model.ask answer (.scalar element.constant) (left.after moves).traced) =
              .ok element.index ∧
            (live.nodes.size < 0x80000000 →
              Outcome.result (model.ask answer (.value element.constant)
                (left.after moves).traced) = .ok (.scalar element)) := by
  refine ⟨fun type index ready => ?_, fun type index term left moves ran ready => ?_, ?_, ?_⟩
  · rw [runConstant_inside ready, constantError?_eq_none_iff]
  · have knows := (knows_of_runConstant ran).of_grows (left.after_grows moves)
    exact runConstant_of_knows knows ready
  · intro type index term left moves type' index' term' last ran ranAgain few different same
    have grown := (left.after_grows moves).trans (run_grows ranAgain)
    have knows := (knows_of_runConstant ran).of_grows grown
    have sameElement := knows.eq_of_constant_eq (knows_of_runConstant ranAgain) few same
    cases sameElement
    exact different rfl
  · intro id asked value left element moves ran within ready
    have knows := (knows_of_query ran within).of_grows (left.after_grows moves)
    refine ⟨runConstant_of_knows knows ready, fun model live found unassigned => ?_⟩
    exact ⟨model.ask_scalar_of_knows knows ready found unassigned,
      model.ask_value_of_knows knows ready found unassigned⟩

/-- A client that owns a model with the pair of an element and a fraction. -/
def ofElementAndFraction : Client ScriptedSolver where
  traced := ScriptedSolver.ofElementAndFraction
  owned := [Model.ofElementAndFraction]

/-- Moves that add constants for the element in the pair, and for the other one. -/
def repeatingMoves : List Move :=
  [.script (.declareConstant ⟨0⟩ (.scalar ⟨0⟩ 1)), .operate (.query ⟨0⟩ (.valueAsTerm ⟨1⟩)),
    .operate (.service (.constant ⟨0⟩ 0)), .script (.declareType (.enumeration 3))]

/-- The constant that was read with the pair goes on being the one for its element. -/
theorem constants_interned_ofElementAndFraction :
    ∃ left last, run answer ofElementAndFraction (.query ⟨0⟩ (.value ⟨0⟩)) =
        some (.ok (.tuple [.scalar ⟨⟨1⟩, ⟨0⟩, 1⟩, .rational ⟨1, 3⟩]) left) ∧
      (left.after repeatingMoves).runConstant ⟨0⟩ 1 = some (.ok ⟨1⟩ last) ∧
      Outcome.result (Model.ofElementAndFraction.ask answer (.value ⟨1⟩)
        (left.after repeatingMoves).traced) = .ok (.scalar ⟨⟨1⟩, ⟨0⟩, 1⟩) := by
  have runs : ∃ left live, run answer ofElementAndFraction (.query ⟨0⟩ (.value ⟨0⟩)) =
        some (.ok (.tuple [.scalar ⟨⟨1⟩, ⟨0⟩, 1⟩, .rational ⟨1, 3⟩]) left) ∧
      (left.after repeatingMoves).traced.state.failing = [] ∧
      (left.after repeatingMoves).traced.state.terms.size = 5 ∧
      (left.after repeatingMoves).traced.state.model? ⟨0⟩ = some live ∧
      live.assignment.map (·.1) = [⟨0⟩] ∧ live.nodes.size = 3 := by
    with_unfolding_all exact ⟨_, _, rfl, rfl, rfl, rfl, rfl, rfl⟩
  rcases runs with ⟨left, live, ran, calm, terms, found, assigned, nodes⟩
  have within : (Value.scalar ⟨⟨1⟩, ⟨0⟩, 1⟩).Within
      (.tuple [.scalar ⟨⟨1⟩, ⟨0⟩, 1⟩, .rational ⟨1, 3⟩]) := .deeper List.mem_cons_self .here
  have ready : (left.after repeatingMoves).traced.state.IsReady := ⟨calm, by rw [terms]; decide⟩
  have unassigned : ∀ pair ∈ live.assignment, pair.1 ≠ ⟨1⟩ := by
    intro pair isPair
    have isFirst : pair.1 ∈ live.assignment.map (·.1) := List.mem_map_of_mem isPair
    rw [assigned, List.mem_singleton] at isFirst
    rw [isFirst]
    decide
  rcases (constants_interned ofElementAndFraction).2.2.2 _ _ _ _ _ repeatingMoves ran within ready
    with ⟨⟨last, again⟩, answers⟩
  have answered := answers Model.ofElementAndFraction live found unassigned
  exact ⟨left, last, ran, again, answered.2 (by rw [nodes]; decide)⟩

/-- A client that owns the first model of two. The other one assigns nothing and has handed out
nodes. -/
def ofElementAndNodes (nodes : Array ScriptedValue) : Client ScriptedSolver where
  traced :=
    ⟨{ types := #[.enumeration 2]
       terms := #[⟨⟨0⟩, none⟩]
       models := #[some ⟨[(⟨0⟩, .scalar ⟨0⟩ 1)], #[], false⟩, some ⟨[], nodes, false⟩] }, []⟩
  owned := [{ id := ⟨0⟩ }]

/-- The constant of an element that was read is not read as the element from a model that has handed
out all nodes. If the call for constants is made to return at once, two elements have one constant. -/
theorem constants_not_interned :
    (∃ left, run answer (ofElementAndNodes (fullTable (.bool true))) (.query ⟨0⟩ (.value ⟨0⟩)) =
        some (.ok (.scalar ⟨⟨1⟩, ⟨0⟩, 1⟩) left) ∧
      left.traced.state.failing = [] ∧
      Outcome.result (Model.ask answer { id := ⟨1⟩ } (.value ⟨1⟩) left.traced) ≠
        .ok (.scalar ⟨⟨1⟩, ⟨0⟩, 1⟩)) ∧
    let start : Client (Overridden ScriptedSolver) :=
      .ofState ({ types := #[.enumeration 2] : ScriptedSolver }.returning .constant 7)
    ∃ left last, run (Overridden.answer answer) start (.service (.constant ⟨0⟩ 0)) =
        some (.ok ⟨7⟩ left) ∧
      run (Overridden.answer answer) left (.service (.constant ⟨0⟩ 1)) = some (.ok ⟨7⟩ last) := by
  have runs (nodes : Array ScriptedValue) :
      ∃ left, run answer (ofElementAndNodes nodes) (.query ⟨0⟩ (.value ⟨0⟩)) =
          some (.ok (.scalar ⟨⟨1⟩, ⟨0⟩, 1⟩) left) ∧
        left.traced.state.failing = [] ∧
        left.traced.state.model? ⟨1⟩ = some ⟨[], nodes, false⟩ := by
    with_unfolding_all exact ⟨_, rfl, rfl, rfl⟩
  rcases runs (fullTable (.bool true)) with ⟨left, ran, calm, found⟩
  refine ⟨⟨left, ran, calm, fun read => ?_⟩, ?_⟩
  · cases Model.absent_of_full found (size_fullTable _) read
  · with_unfolding_all exact ⟨_, _, rfl, rfl⟩

end Client

end SmtModel
