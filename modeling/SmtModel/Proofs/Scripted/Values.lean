import SmtModel.Proofs.Scripted.Reading

/-!
# Values of terms

`ScriptedSolver.value?` is the scripted value of a term. Asking a model for the value of a
term is faithful: whatever it answers with is what the scripted value means
(`Model.ask_value_means`). Without failures that are scripted, and without zero
denominators, it has an answer unless there is an offence in the scripted value, and
otherwise ends in the first one (`Model.ask_value_ends`).
-/

namespace SmtModel

namespace ScriptedSolver

/-- The value of a term in a model that is not freed: the value that the model assigns, or else the
one that a constant denotes. -/
def value? (solver : ScriptedSolver) (model : ModelId) (term : TermId) : Option ScriptedValue := do
  let entry ← solver.term? term
  let live ← solver.model? model
  ((live.assignment.find? (·.1 = term)).map (·.2)).or entry.constant?

variable {solver : ScriptedSolver} {model : ModelId} {term : TermId} {value : ScriptedValue}

theorem exists_model_of_value? (assigned : solver.value? model term = some value) :
    ∃ live, solver.model? model = some live := by
  simp only [value?, Option.bind_eq_bind, Option.bind_eq_some_iff] at assigned
  rcases assigned with ⟨_, _, live, found, _⟩
  exact ⟨live, found⟩

theorem valueOf_of_some (assigned : solver.value? model term = some value) :
    valueOf model term solver = .ok (some value) solver := by
  simp only [value?, Option.bind_eq_bind, Option.bind_eq_some_iff] at assigned
  rcases assigned with ⟨entry, known, live, found, assigned⟩
  unfold valueOf
  rw [get_bind]
  simp only [known]
  rw [Outcome.bind_of_ok (liveModel_of_some found)]
  cases searched : live.assignment.find? (·.1 = term) with
  | some pair =>
      simp only [searched, Option.map_some, Option.some_or, Option.some.injEq] at assigned
      subst assigned
      rfl
  | none =>
      simp only [searched, Option.map_none, Option.none_or] at assigned
      simp only [assigned]
      rfl

theorem value?_of_valueOf {left : ScriptedSolver}
    (ran : valueOf model term solver = .ok (some value) left) :
    left = solver ∧ solver.value? model term = some value := by
  unfold valueOf at ran
  rw [get_bind] at ran
  cases known : solver.term? term with
  | none =>
      simp only [known] at ran
      cases ran
  | some entry =>
      simp only [known] at ran
      cases found : solver.model? model with
      | none =>
          rw [Outcome.bind_of_error (liveModel_of_none found)] at ran
          cases ran
      | some live =>
          rw [Outcome.bind_of_ok (liveModel_of_some found)] at ran
          simp only [value?, known, found, Option.bind_eq_bind, Option.bind_some]
          cases searched : live.assignment.find? (·.1 = term) with
          | some pair =>
              simp only [searched] at ran
              cases ran
              exact ⟨rfl, rfl⟩
          | none =>
              cases constant : entry.constant? with
              | some denoted =>
                  simp only [searched, constant] at ran
                  cases ran
                  exact ⟨rfl, rfl⟩
              | none =>
                  simp only [searched, constant] at ran
                  cases ran

/-- A term for which a root is handed out has a value. -/
theorem value?_of_answer {cell : Node} {reply : Reply Node} {left : ScriptedSolver}
    (answered : answer (.value model term cell) solver = .ok reply left)
    (accepted : reply.status ≠ statusFailed) : ∃ value, solver.value? model term = some value := by
  simp only [answer] at answered
  unfold ScriptedSolver.value at answered
  by_cases scripted : .value ∈ solver.failing
  · rw [attempt_of_mem scripted] at answered
    cases answered
    exact absurd rfl accepted
  · rw [attempt_of_not_mem scripted] at answered
    rcases Outcome.bind_eq_ok.mp answered with ⟨value?, _, looked, ended⟩
    cases value? with
    | none =>
        cases ended
        exact absurd rfl accepted
    | some value => exact ⟨value, (value?_of_valueOf looked).2⟩

/-- The root of a value is handed out, and shows it as long as there is an identifier left. -/
theorem value_shows {live : ScriptedModel} (free : .value ∉ solver.failing)
    (found : solver.model? model = some live) (assigned : solver.value? model term = some value)
    (cell : Node) :
    let handed := (withCall .value solver).withNodes model live [value]
    ∃ root, ScriptedSolver.value model term cell solver = .ok (.ok root) handed ∧
      (live.nodes.size < 0x80000000 → handed.Shows model root value) := by
  have found : (withCall .value solver).model? model = some live := found
  have assigned : (withCall .value solver).value? model term = some value := assigned
  refine ⟨⟨Int32.ofNat live.nodes.size, value.tag⟩, ?_, fun room => ⟨?_, rfl⟩⟩
  · unfold ScriptedSolver.value
    rw [attempt_of_not_mem free, Outcome.bind_of_ok (valueOf_of_some assigned)]
    dsimp only
    rw [Outcome.bind_of_ok (addNodes_of_some found [value])]
    rfl
  · have last : (live.nodes ++ [value])[live.nodes.size]? = some value := by simp
    simp only [node?, model?_withNodes found, tableIndex?_ofNat room]
    exact last

theorem value_run {live : ScriptedModel} (free : .value ∉ solver.failing)
    (found : solver.model? model = some live) (assigned : solver.value? model term = some value)
    (cell : Node) :
    let handed := (withCall .value solver).withNodes model live [value]
    ∃ root, ScriptedSolver.value model term cell solver = .ok (.ok root) handed ∧
      (handed.HasRoom model → handed.Shows model root value) := by
  rcases value_shows free found assigned cell with ⟨root, hands, shows⟩
  refine ⟨root, hands, fun room => shows ?_⟩
  have found : (withCall .value solver).model? model = some live := found
  have bound := room.nodes _ (model?_withNodes found [value])
  simp only [← Array.length_toList, Array.toList_appendList, List.length_append,
    List.length_singleton] at bound ⊢
  omega

theorem value_of_some (free : .value ∉ solver.failing)
    (assigned : solver.value? model term = some value) (cell : Node) :
    ∃ root left, ScriptedSolver.value model term cell solver = .ok (.ok root) left ∧
      left.terms = solver.terms ∧ (left.HasRoom model → left.Shows model root value) := by
  rcases exists_model_of_value? assigned with ⟨live, found⟩
  rcases value_run free found assigned cell with ⟨root, hands, shows⟩
  exact ⟨root, _, hands, rfl, shows⟩

/-- A solver with one model, which assigns a value to the first term. -/
def ofValue (value : ScriptedValue) : ScriptedSolver :=
  { terms := #[⟨⟨0⟩, none⟩], models := #[some ⟨[(⟨0⟩, value)], #[], false⟩] }

/-- The number of terms and the number of nodes of the first model. -/
def sizes (solver : ScriptedSolver) : Nat × Option Nat :=
  (solver.terms.size, (solver.model? ⟨0⟩).map (·.nodes.size))

theorem hasRoom_of_sizes {terms nodes : Nat} (sized : solver.sizes = (terms, some nodes))
    (fewTerms : terms ≤ 0x80000000) (fewNodes : nodes ≤ 0x80000000) : solver.HasRoom ⟨0⟩ := by
  simp only [sizes, Prod.mk.injEq] at sized
  refine ⟨fun live found => ?_, by omega⟩
  have size := sized.2
  simp only [found, Option.map_some, Option.some.injEq] at size
  omega

end ScriptedSolver

open ScriptedSolver

namespace Model

variable {model : Model} {term : TermId} {traced : Traced ScriptedSolver} {value : ScriptedValue}

theorem read_reads {excused : Prop} (calm : Reading.Calm excused traced.state)
    (assigned : traced.state.value? model.id term = some value)
    (fits : value.Every ScriptedValue.Fits)
    (nonzero : ¬ excused → value.Every ScriptedValue.NonzeroDenominator) :
    Reading.Reads model.limit model.id excused traced.state (value.visits 0)
      (fun solver result => value.meaning solver.constant? = some result)
      (model.read answer term traced) := by
  have called : Reading.Reads model.limit model.id excused traced.state []
      (fun left root => left.HasRoom model.id → left.Shows model.id root value)
      ((Action.ask answer (.value model.id term .blank) >>= Action.checkReply answer .value)
        traced) := by
    refine .call (.value ..) rfl rfl (by decide) (.reply _) (by simp [Request.vector?])
      calm fun free => ?_
    rcases value_of_some free assigned .blank with ⟨root, left, answered, -, shows⟩
    exact ⟨_, left, root, answered, rfl, Reading.checkReply_ok .., shows⟩
  have reader := Reading.read_reads model.limit model.id excused model.limit.levels 0
    (Nat.zero_add _)
  unfold Model.read
  rw [← bind_assoc]
  refine called.bind fun root middle _ grown shows =>
    .of_room ((reader.disciplined [] root).grows_of_nil _) fun room => ?_
  exact reader.reads middle root value (calm.mono grown) (shows room room) fits nonzero

/-- Whatever is answered with as the value of a term is what the scripted value means, with the
constants that there are then. Calls may be scripted to fail. -/
theorem ask_value_means {left : Traced ScriptedSolver} {result : Value}
    (assigned : traced.state.value? model.id term = some value)
    (fits : value.Every ScriptedValue.Fits)
    (ran : model.ask answer (.value term) traced = .ok result left)
    (room : left.state.HasRoom model.id) :
    value.meaning left.state.constant? = some result := by
  have reads : Reading.Reads model.limit model.id True traced.state _ _ _ :=
    read_reads (fun notExcused => absurd trivial notExcused) assigned fits
      fun notExcused => absurd trivial notExcused
  have ran : model.read answer term traced = .ok result left := ran
  rw [ran] at reads
  cases reads.ends room with
  | ok _ _ meant => exact meant

theorem ask_value_means_tuple :
    ∃ result left,
      ask answer { id := ⟨0⟩ } (.value ⟨0⟩) ⟨ofValue (.tuple [.bool true, .rational ⟨6, 4⟩]), []⟩ =
          .ok result left ∧
        ScriptedValue.meaning left.state.constant? (.tuple [.bool true, .rational ⟨6, 4⟩]) =
          some result := by
  have fits : (ScriptedValue.tuple [.bool true, .rational ⟨6, 4⟩]).Every ScriptedValue.Fits := by
    simp [ScriptedValue.Every, ScriptedValue.EveryItem, ScriptedValue.Fits]
  have sized : (Outcome.state (ask answer { id := ⟨0⟩ } (.value ⟨0⟩)
      ⟨ofValue (.tuple [.bool true, .rational ⟨6, 4⟩]), []⟩)).state.sizes = (1, some 3) := by rfl
  cases ran : ask answer { id := ⟨0⟩ } (.value ⟨0⟩)
      ⟨ofValue (.tuple [.bool true, .rational ⟨6, 4⟩]), []⟩ with
  | error stop left => cases ran
  | ok result left =>
      rw [ran] at sized
      exact ⟨result, left, rfl, ask_value_means rfl fits ran
        (hasRoom_of_sizes sized (by decide) (by decide))⟩

/-- Without scripted failures and zero denominators, a value is answered with if there is no offence
in it, and otherwise the first offence is the failure. -/
theorem ask_value_ends (calm : traced.state.failing = [])
    (assigned : traced.state.value? model.id term = some value)
    (fits : value.Every ScriptedValue.Fits)
    (nonzero : value.Every ScriptedValue.NonzeroDenominator)
    (room : (Outcome.state (model.ask answer (.value term) traced)).state.HasRoom model.id) :
    match value.firstOffence? model.limit traced.state with
    | none => ∃ result left, model.ask answer (.value term) traced = .ok result left
    | some failure =>
      ∃ left, model.ask answer (.value term) traced = .error (.failure failure) left := by
  have reads : Reading.Reads model.limit model.id False traced.state _ _ _ :=
    read_reads (fun _ => calm) assigned fits fun _ => nonzero
  have ends := reads.ends room
  have same : model.ask answer (.value term) traced = model.read answer term traced := rfl
  rw [same]
  unfold ScriptedValue.firstOffence?
  revert ends
  generalize model.read answer term traced = ending
  intro ends
  cases ends with
  | ok unoffended _ _ =>
      rw [List.findSome?_eq_none_iff.mpr unoffended]
      exact ⟨_, _, rfl⟩
  | offence first =>
      rw [first]
      exact ⟨_, rfl⟩
  | excuse isExcused => exact isExcused.elim

/-- What lies too deep in the first component comes before the offence in the second. -/
theorem ask_value_ends_depthLimit :
    ∃ left, ask answer ⟨⟨0⟩, ⟨2, by decide⟩⟩ (.value ⟨0⟩)
        ⟨ofValue (.tuple [.tuple [.bool true], .algebraic]), []⟩ =
      .error (.failure (.depthLimit 2)) left := by
  have fits : (ScriptedValue.tuple [.tuple [.bool true], .algebraic]).Every
      ScriptedValue.Fits := by
    simp [ScriptedValue.Every, ScriptedValue.EveryItem, ScriptedValue.Fits]
  have nonzero : (ScriptedValue.tuple [.tuple [.bool true], .algebraic]).Every
      ScriptedValue.NonzeroDenominator := by
    simp [ScriptedValue.Every, ScriptedValue.EveryItem, ScriptedValue.NonzeroDenominator]
  have sized : (Outcome.state (ask answer ⟨⟨0⟩, ⟨2, by decide⟩⟩ (.value ⟨0⟩)
      ⟨ofValue (.tuple [.tuple [.bool true], .algebraic]), []⟩)).state.sizes = (1, some 4) := by
    rfl
  exact ask_value_ends rfl rfl fits nonzero (hasRoom_of_sizes sized (by decide) (by decide))

end Model

end SmtModel
