import SmtModel.Override
import SmtModel.Proofs.Recorded
import SmtModel.Proofs.Scripted.Vectors

/-!
# The limit of depth only cuts

A value is read twice, under a narrow and under a wide limit of depth. The two readings
make the same requests and end in the same way, unless the narrow one is cut off
(`Reading.read_curtailed`). What is cut off ends in the failure that names the narrow limit.
Only the release of a vector can hide this failure, by ending in a fault itself.

A solver that keeps an invariant of its open vectors releases every open vector
(`Keeps.releasing`), and it goes on to do so under overrides (`Keeps.overridden`). This is
how the scripted solver is known to hide nothing, whatever is scripted.
-/

namespace SmtModel

open SmtModel.Action

variable {σ α β : Type}

/-! ## Curtailed actions -/

namespace Action

/-- From every state two actions end in the same way, unless the first is cut off. -/
def Curtails (cut : Stop → Traced σ → Prop) (first second : Action σ α) : Prop :=
  ∀ start, first start = second start ∨
    ∃ stop left, first start = .error stop left ∧ cut stop left

namespace Curtails

variable {cut : Stop → Traced σ → Prop}

theorem refl (action : Action σ α) : Curtails cut action action :=
  fun _ => Or.inl rfl

/-- An action that is always cut off curtails any other. -/
theorem fail {failure : Failure} (isCut : ∀ left, cut (.failure failure) left)
    (second : Action σ α) : Curtails cut (Action.fail failure) second :=
  fun start => Or.inr ⟨_, start, rfl, isCut start⟩

theorem bind {first second : Action σ α} {next next' : α → Action σ β}
    (before : Curtails cut first second)
    (after : ∀ result, Curtails cut (next result) (next' result)) :
    Curtails cut (first >>= next) (second >>= next') := by
  intro start
  rcases before start with same | ⟨stop, left, ends, isCut⟩
  · cases ran : first start with
    | ok result middle =>
        rw [Outcome.bind_of_ok ran, Outcome.bind_of_ok (same.symm.trans ran)]
        exact after result middle
    | error stop left =>
        rw [Outcome.bind_of_error ran, Outcome.bind_of_error (same.symm.trans ran)]
        exact Or.inl rfl
  · exact Or.inr ⟨stop, left, Outcome.bind_of_error ends, isCut⟩

/-- What comes after an action that both have in common. -/
theorem after (action : Action σ α) {next next' : α → Action σ β}
    (nexts : ∀ result, Curtails cut (next result) (next' result)) :
    Curtails cut (action >>= next) (action >>= next') :=
  bind (refl action) nexts

theorem mapM {visit visit' : α → Action σ β}
    (each : ∀ item, Curtails cut (visit item) (visit' item))
    (items : List α) : Curtails cut (items.mapM visit) (items.mapM visit') := by
  induction items with
  | nil => exact refl _
  | cons item items ih =>
      rw [List.mapM_cons, List.mapM_cons]
      exact bind (each item) fun _ => bind ih fun _ => refl _

theorem foldlM {step step' : β → α → Action σ β}
    (each : ∀ acc item, Curtails cut (step acc item) (step' acc item)) (items : List α) (acc : β) :
    Curtails cut (items.foldlM step acc) (items.foldlM step' acc) := by
  induction items generalizing acc with
  | nil => exact refl _
  | cons item items ih =>
      rw [List.foldlM_cons, List.foldlM_cons]
      exact bind (each acc item) ih

/-- A cleanup may not turn what is cut off into something else. -/
theorem ensuring {body body' : Action σ α} {cleanup : Action σ Unit}
    (inside : Curtails cut body body')
    (keeps : ∀ stop left, cut stop left → cut stop (Outcome.state (cleanup left)))
    (faults : ∀ stop left stop' left', cut stop left → cleanup left = .error stop' left' →
      cut stop' left') :
    Curtails cut (Action.ensuring body cleanup) (Action.ensuring body' cleanup) := by
  intro start
  rcases inside start with same | ⟨stop, middle, ends, isCut⟩
  · exact Or.inl (by simp only [Action.ensuring, same])
  have kept := keeps stop middle isCut
  right
  cases cleaned : cleanup middle with
  | ok done left =>
      rw [cleaned] at kept
      cases stop <;> exact ⟨_, left, by simp only [Action.ensuring, ends, cleaned], kept⟩
  | error stop' left =>
      rw [cleaned] at kept
      have replaced := faults stop middle stop' left isCut cleaned
      cases stop with
      | failure failure =>
          exact ⟨stop', left, by simp only [Action.ensuring, ends, cleaned], replaced⟩
      | fault fault => exact ⟨_, left, by simp only [Action.ensuring, ends, cleaned], kept⟩

end Curtails

end Action

/-! ## Reading under two limits -/

/-- How a reading ends that is cut off by a limit: in the failure that names the limit, or in a
fault that the release of a vector ended in. -/
def IsCut (levels : Nat) : Stop → Traced (Recorded σ) → Prop
  | .failure failure, _ => failure = .depthLimit levels
  | .fault fault, traced => ∃ vector left,
      (⟨.releaseNodeVector vector, .error fault left⟩ : Exchange σ) ∈ traced.state.exchanges

namespace IsCut

variable {levels : Nat} {stop : Stop} {traced : Traced (Recorded σ)}

theorem later (isCut : IsCut levels stop traced) {left : Traced (Recorded σ)}
    (later : traced.state.exchanges ⊆ left.state.exchanges) : IsCut levels stop left := by
  cases stop with
  | failure failure => exact isCut
  | fault fault =>
      rcases isCut with ⟨vector, reached, released⟩
      exact ⟨vector, reached, later released⟩

/-- Nothing but the failure of the limit is left if every release was answered. -/
theorem eq_depthLimit (isCut : IsCut levels stop traced)
    (releasing : ∀ vector fault left,
      (⟨.releaseNodeVector vector, .error fault left⟩ : Exchange σ) ∉ traced.state.exchanges) :
    stop = .failure (.depthLimit levels) := by
  cases stop with
  | failure failure => exact congrArg Stop.failure isCut
  | fault fault =>
      rcases isCut with ⟨vector, left, released⟩
      exact absurd released (releasing vector fault left)

end IsCut

namespace Reading

variable (solver : Solver σ) (model : ModelId) {levels : Nat}

/-- Holding a vector around a reading that is cut off. -/
theorem withNodeVector_curtailed {body body' : VectorId → Action (Recorded σ) α}
    (inside : ∀ vector, Curtails (IsCut levels) (body vector) (body' vector)) :
    Curtails (IsCut levels) (withNodeVector (Recorded.answer solver) body)
      (withNodeVector (Recorded.answer solver) body') := by
  refine .after _ fun vector => .ensuring (inside vector) (fun stop left isCut => ?_)
    (fun stop left stop' left' isCut cleaned => ?_)
  · refine isCut.later fun exchange recorded => ?_
    cases ended : solver (.releaseNodeVector vector) left.state.state with
    | ok answer reached =>
        rw [Action.ask_of_ok (Recorded.answer_of_ok ended)]
        exact List.mem_cons_of_mem _ recorded
    | error fault reached =>
        rw [Action.ask_of_error (Recorded.answer_of_error ended)]
        exact List.mem_cons_of_mem _ recorded
  · cases ended : solver (.releaseNodeVector vector) left.state.state with
    | ok answer reached =>
        cases (Action.ask_of_ok (Recorded.answer_of_ok ended)).symm.trans cleaned
    | error fault reached =>
        cases (Action.ask_of_error (Recorded.answer_of_error ended)).symm.trans cleaned
        exact ⟨vector, reached, List.mem_cons_self⟩

section Composites

variable {cut : Stop → Traced σ → Prop} {read read' : Node → Action σ Value}
  (reads : ∀ node, Curtails cut (read node) (read' node))

include reads

theorem readTuple_curtailed (node : Node) :
    Curtails cut (readTuple solver model read node) (readTuple solver model read' node) := by
  unfold readTuple
  refine .after _ fun arity => ?_
  split
  · exact .refl _
  · exact .after _ fun reply => .after _ fun items => .bind (.mapM reads _) fun _ => .refl _

theorem readMapping_curtailed (node : Node) :
    Curtails cut (readMapping solver model read node) (readMapping solver model read' node) := by
  unfold readMapping
  refine .after _ fun arity => ?_
  split
  · exact .refl _
  · exact .after _ fun reply => .after _ fun cells => .bind (.mapM reads _) fun _ =>
      .bind (reads _) fun _ => .refl _

theorem readEntry_curtailed (narrow wide : DepthLimit) (entry : Node) :
    Curtails cut (readEntry solver model narrow (some read) entry)
      (readEntry solver model wide (some read') entry) := by
  have point := readMapping_curtailed solver model reads entry
  unfold readEntry
  by_cases isMapping : entry.kind? = some .mapping
  · simp only [isMapping, ne_eq, not_true, if_false]
    exact .bind point fun _ => .refl _
  · simp only [isMapping, ne_eq, not_false_eq_true, if_true]
    exact .after _ fun _ => .bind point fun _ => .refl _

end Composites

theorem readFunction_curtailed {read read' : Node → Action (Recorded σ) Value}
    {readEntry readEntry' : Node → Action (Recorded σ) (Mapping Value)}
    (reads : ∀ node, Curtails (IsCut levels) (read node) (read' node))
    (readsEntry : ∀ entry, Curtails (IsCut levels) (readEntry entry) (readEntry' entry))
    (node : Node) :
    Curtails (IsCut levels) (readFunction (Recorded.answer solver) model read readEntry node)
      (readFunction (Recorded.answer solver) model read' readEntry' node) := by
  unfold readFunction
  refine .after _ fun arity => ?_
  split
  · exact .refl _
  refine withNodeVector_curtailed solver fun vector => ?_
  refine .after _ fun reply => .after _ fun default => .bind (reads default) fun default => ?_
  refine .after _ fun entries => .bind (.foldlM (fun function entry => ?_) _ _) fun _ => .refl _
  exact .bind (readsEntry entry) fun _ => .refl _

/-- A reading under a narrow limit makes the requests of one under a wide limit and ends as that
one does, unless it is cut off. Both count the same levels between the root and a node, so the
room of the wide reading is larger by what the limits differ in. -/
theorem read_curtailed {narrow wide : DepthLimit} {extra : Nat}
    (wider : wide.levels = narrow.levels + extra) (room : Nat) (node : Node) :
    Curtails (IsCut narrow.levels) (read (Recorded.answer solver) model narrow room node)
      (read (Recorded.answer solver) model wide (room + extra) node) := by
  induction room using Nat.strongRecOn generalizing node with
  | ind room ih =>
      cases room with
      | zero => exact .fail (fun _ => rfl) _
      | succ room =>
          have sameDepth : wide.levels - (room + extra + 1) = narrow.levels - (room + 1) := by omega
          rw [Nat.add_right_comm, read_succ, read_succ, sameDepth]
          refine .after _ fun _ => ?_
          have below node := ih room (by omega) node
          unfold readKind
          rcases node.kind? with _ | kind
          · exact .refl _
          cases kind with
          | tuple => exact readTuple_curtailed _ model below node
          | mapping =>
              exact .bind (readMapping_curtailed _ model below node) fun _ => .refl _
          | function =>
              refine readFunction_curtailed solver model below (fun entry => ?_) node
              cases room with
              | zero => exact .fail (fun _ => rfl) _
              | succ room =>
                  rw [Nat.add_right_comm]
                  exact readEntry_curtailed _ model (fun node => ih room (by omega) node) _ _ entry
          | _ => exact .refl _

end Reading

/-! ## Solvers that release every vector -/

/-- Every release of a vector of nodes was answered. -/
def Recorded.Releasing (recorded : Recorded σ) : Prop :=
  ∀ vector fault left,
    (⟨.releaseNodeVector vector, .error fault left⟩ : Exchange σ) ∉ recorded.exchanges

/-- Beside an invariant that a solver keeps, every release was answered: a disciplined routine
releases nothing but the vectors that it has open. -/
theorem Keeps.releasing {solver : Solver σ} {unchecked : Request → Bool}
    {invariant : List VectorId → List VectorId → σ → Prop}
    (keeps : Keeps solver unchecked invariant) :
    Keeps (Recorded.answer solver) unchecked fun terms nodes recorded =>
      invariant terms nodes recorded.state ∧ recorded.Releasing where
  ask {_ _ recorded} request occurs uses kept := by
    rcases keeps.ask request occurs uses kept.1 with ⟨keptAfter, faults⟩
    rw [Recorded.state_answer]
    refine ⟨⟨keptAfter, fun vector fault left released => ?_⟩, fun fault left faulted => ?_⟩
    · rcases List.mem_cons.mp released with isLast | isEarlier
      · cases congrArg (·.request.tradesVector) isLast |>.trans occurs.1
      · exact kept.2 vector fault left isEarlier
    · cases ended : solver request recorded.state with
      | ok result state => cases (Recorded.answer_of_ok ended).symm.trans faulted
      | error fault' state =>
          cases (Recorded.answer_of_error ended).symm.trans faulted
          exact faults fault state ended
  newTermVector kept := by
    rcases keeps.newTermVector kept.1 with ⟨vector, left, made, keptAfter⟩
    refine ⟨vector, _, Recorded.answer_of_ok made, keptAfter, ?_⟩
    simpa [Recorded.Releasing] using kept.2
  releaseTermVector kept := by
    rcases keeps.releaseTermVector kept.1 with ⟨left, released, keptAfter⟩
    refine ⟨_, Recorded.answer_of_ok released, keptAfter, ?_⟩
    simpa [Recorded.Releasing] using kept.2
  newNodeVector kept := by
    rcases keeps.newNodeVector kept.1 with ⟨vector, left, made, keptAfter⟩
    refine ⟨vector, _, Recorded.answer_of_ok made, keptAfter, ?_⟩
    simpa [Recorded.Releasing] using kept.2
  releaseNodeVector kept := by
    rcases keeps.releaseNodeVector kept.1 with ⟨left, released, keptAfter⟩
    refine ⟨_, Recorded.answer_of_ok released, keptAfter, ?_⟩
    simpa [Recorded.Releasing] using kept.2

/-! ## Solvers under overrides -/

namespace Overridden

/-- An ending with an invariant of the solver below, and no fault in the use of a vector. -/
structure Guarded (invariant : σ → Prop) (ending : EStateM.Result Fault (Overridden σ) α) :
    Prop where
  kept : invariant (Outcome.state ending).base
  faults : ∀ fault left, ending = .error fault left → ¬ fault.IsOfVector

namespace Guarded

variable {invariant : σ → Prop}

theorem of_ok {result : α} {left : Overridden σ} (kept : invariant left.base) :
    Guarded invariant (.ok result left) :=
  ⟨kept, fun _ _ ended => by cases ended⟩

theorem bind {first : EStateM Fault (Overridden σ) α} {next : α → EStateM Fault (Overridden σ) β}
    {start : Overridden σ} (before : Guarded invariant (first start))
    (after : ∀ result middle, invariant middle.base → Guarded invariant (next result middle)) :
    Guarded invariant ((first >>= next) start) := by
  cases ran : first start with
  | ok result middle =>
      rw [ran] at before
      rw [Outcome.bind_of_ok ran]
      exact after result middle before.kept
  | error fault middle =>
      rw [ran] at before
      rw [Outcome.bind_of_error ran]
      refine ⟨before.kept, fun fault' left ended => ?_⟩
      cases ended
      exact before.faults fault _ rfl

end Guarded

theorem onBase_of_ok {step : EStateM Fault σ α} {overridden : Overridden σ} {result : α} {left : σ}
    (ran : step overridden.base = .ok result left) :
    onBase step overridden = .ok result { overridden with base := left } := by
  simp only [onBase, ran]

theorem onBase_of_error {step : EStateM Fault σ α} {overridden : Overridden σ} {fault : Fault}
    {left : σ} (ran : step overridden.base = .error fault left) :
    onBase step overridden = .error fault { overridden with base := left } := by
  simp only [onBase, ran]

section Keeping

variable {solver : Solver σ} {unchecked : Request → Bool}
  {invariant : List VectorId → List VectorId → σ → Prop} {terms nodes : List VectorId}
  {overridden : Overridden σ} (keeps : Keeps solver unchecked invariant)
  (kept : invariant terms nodes overridden.base)

include keeps kept

theorem onBase_guarded (request : Request) (occurs : request.Occurs unchecked)
    (uses : ∀ vector ∈ request.vector?, vector ∈ terms ∨ vector ∈ nodes) :
    Guarded (invariant terms nodes) (onBase (solver request) overridden) := by
  rcases keeps.ask request occurs uses kept with ⟨keptAfter, faults⟩
  cases answered : solver request overridden.base with
  | ok answer left =>
      rw [answered] at keptAfter
      rw [onBase_of_ok answered]
      exact .of_ok keptAfter
  | error fault left =>
      rw [answered] at keptAfter
      rw [onBase_of_error answered]
      refine ⟨keptAfter, fun fault' left' ended => ?_⟩
      cases ended
      exact faults fault left answered

theorem pass_guarded (request : Request) (occurs : request.Occurs unchecked)
    (uses : ∀ vector ∈ request.vector?, vector ∈ terms ∨ vector ∈ nodes) :
    Guarded (invariant terms nodes) (pass solver request overridden) := by
  refine .bind (.of_ok kept) fun state middle kept => ?_
  cases (state.overrides.returned? request).bind (Request.returning · request) with
  | some answer => exact .of_ok kept
  | none => exact onBase_guarded keeps kept request occurs uses

theorem expandFunction_guarded
    (reads : ∀ vector, unchecked (.nodeVectorElements vector) = true) {model : ModelId}
    {node cell : Node} {vector : VectorId}
    (occurs : (Request.expandFunction model node vector cell).Occurs unchecked)
    (isOpen : vector ∈ terms ∨ vector ∈ nodes) :
    Guarded (invariant terms nodes)
      (answer solver (.expandFunction model node vector cell) overridden) := by
  refine .bind (.of_ok kept) fun state middle kept => ?_
  rcases state.overrides.returned? (.expandFunction model node vector cell) with _ | value
  case some => exact .of_ok kept
  refine .bind (onBase_guarded keeps kept _ occurs (by simpa [Request.vector?] using isOpen))
    fun reply middle kept => ?_
  refine .bind (onBase_guarded keeps kept _ ⟨rfl, Or.inl (reads vector)⟩
    (by simpa [Request.vector?] using isOpen)) fun entries middle kept => ?_
  exact .of_ok kept

theorem answer_guarded (reads : ∀ vector, unchecked (.nodeVectorElements vector) = true)
    (request : Request) (occurs : request.Occurs unchecked)
    (uses : ∀ vector ∈ request.vector?, vector ∈ terms ∨ vector ∈ nodes) :
    Guarded (invariant terms nodes) (answer solver request overridden) := by
  cases request with
  | errorReport =>
      refine .bind (.of_ok kept) fun state middle kept => ?_
      cases state.overrides.report? with
      | some report => exact .of_ok kept
      | none => exact onBase_guarded keeps kept _ occurs uses
  | value model term cell =>
      exact .bind (pass_guarded keeps kept _ occurs uses) fun reply middle kept => .of_ok kept
  | expandFunction model node vector cell =>
      exact expandFunction_guarded keeps kept reads occurs (uses vector rfl)
  | nodeVectorElements vector => exact .of_ok kept
  | releaseNodeVector vector => exact absurd occurs.1 (by simp [Request.tradesVector])
  | _ => exact pass_guarded keeps kept _ occurs uses

end Keeping

/-- Overrides do not touch the vectors: what a solver keeps it goes on to keep below them. -/
theorem keeps {solver : Solver σ} {unchecked : Request → Bool}
    {invariant : List VectorId → List VectorId → σ → Prop}
    (keeps : Keeps solver unchecked invariant)
    (reads : ∀ vector, unchecked (.nodeVectorElements vector) = true) :
    Keeps (answer solver) unchecked fun terms nodes overridden =>
      invariant terms nodes overridden.base where
  ask request occurs uses kept :=
    have guarded := answer_guarded keeps kept reads request occurs uses
    ⟨guarded.kept, guarded.faults⟩
  newTermVector kept := by
    rcases keeps.newTermVector kept with ⟨vector, left, made, keptAfter⟩
    exact ⟨vector, _, onBase_of_ok made, keptAfter⟩
  releaseTermVector kept := by
    rcases keeps.releaseTermVector kept with ⟨left, released, keptAfter⟩
    exact ⟨_, onBase_of_ok released, keptAfter⟩
  newNodeVector kept := by
    rcases keeps.newNodeVector kept with ⟨vector, left, made, keptAfter⟩
    exact ⟨vector, _, onBase_of_ok made, keptAfter⟩
  releaseNodeVector kept := by
    rcases keeps.releaseNodeVector kept with ⟨left, released, keptAfter⟩
    exact ⟨_, Outcome.bind_of_ok (onBase_of_ok released), keptAfter⟩

end Overridden

/-! ## Models under two limits -/

/-- The same state, from which on the exchanges are recorded. -/
def Traced.recording (traced : Traced σ) : Traced (Recorded σ) :=
  ⟨⟨traced.state, []⟩, traced.events⟩

namespace Model

theorem read_curtailed (solver : Solver σ) {narrow wide : DepthLimit}
    (fits : narrow.levels ≤ wide.levels) (id : ModelId) (term : TermId) :
    Curtails (IsCut narrow.levels) (read (Recorded.answer solver) ⟨id, narrow⟩ term)
      (read (Recorded.answer solver) ⟨id, wide⟩ term) := by
  rcases Nat.exists_eq_add_of_le fits with ⟨extra, wider⟩
  refine .after _ fun reply => .after _ fun root => ?_
  have reads := Reading.read_curtailed solver id wider narrow.levels root
  rwa [← wider] at reads

theorem read_releasing {solver : Solver σ} {invariant : List VectorId → List VectorId → σ → Prop}
    (keeps : Keeps solver Request.isQuestion invariant) (model : Model) (term : TermId)
    {start : Traced σ} (kept : invariant [] [] start.state) :
    (Outcome.state (model.read (Recorded.answer solver) term start.recording)).state.Releasing := by
  have disciplined : Disciplined Request.isQuestion [] fun _ solver => model.read solver term :=
    model.ask_disciplined (.value term)
  exact (disciplined.safe keeps.releasing Request.tradesVector_of_isQuestion (by simp)
    ⟨kept, by simp [Recorded.Releasing, Traced.recording]⟩).kept.2

/-- Under a lower limit of depth the value of a term is read in the same way, with the same requests
answered alike, and with the same ending and the same state left, unless the limit cuts the reading
off. With any solver, what is cut off ends in the failure of the limit, if no release of a vector
ended in a fault. The scripted solver releases every vector, whatever is scripted, set to fail or
overridden. -/
theorem read_limit {narrow wide : DepthLimit} (fits : narrow.levels ≤ wide.levels) (id : ModelId)
    (term : TermId) :
    (∀ (σ : Type) (solver : Solver σ) (start : Traced σ),
      let reading limit := read (Recorded.answer solver) ⟨id, limit⟩ term start.recording
      reading narrow = reading wide ∨
        ∃ stop left, reading narrow = .error stop left ∧ IsCut narrow.levels stop left) ∧
    ∀ start : Traced (Overridden ScriptedSolver),
      let solver := Recorded.answer (Overridden.answer ScriptedSolver.answer)
      let reading limit := read solver ⟨id, limit⟩ term start.recording
      reading narrow = reading wide ∨
        Outcome.result (reading narrow) = .error (.failure (.depthLimit narrow.levels)) := by
  refine ⟨fun σ solver start => read_curtailed solver fits id term _, fun start => ?_⟩
  rcases read_curtailed (Overridden.answer ScriptedSolver.answer) fits id term start.recording with
    same | ⟨stop, left, ends, isCut⟩
  · exact Or.inl same
  have keeps := Overridden.keeps
    (@ScriptedSolver.Framed.keeps start.state.base [] Request.isQuestion) fun _ => rfl
  have framed : ScriptedSolver.Framed start.state.base [] [] [] start.state.base := .start (by simp)
  have releasing := read_releasing keeps ⟨id, narrow⟩ term framed
  rw [ends] at releasing
  dsimp only
  rw [ends, isCut.eq_depthLimit releasing]
  exact Or.inr rfl

/-- A tuple of truth values has two levels. No limit above makes a difference to its reading. -/
theorem read_limit_tuple :
    let solver := Recorded.answer (Overridden.answer ScriptedSolver.answer)
    let base : ScriptedSolver :=
      { terms := #[⟨⟨0⟩, none⟩]
        models := #[some ⟨[(⟨0⟩, .tuple [.bool true])], #[], false⟩] }
    let start : Traced (Overridden ScriptedSolver) := ⟨{ base }, []⟩
    2 ≤ DepthLimit.standard.levels ∧
      read solver ⟨⟨0⟩, ⟨2, by decide⟩⟩ ⟨0⟩ start.recording =
        read solver ⟨⟨0⟩, .standard⟩ ⟨0⟩ start.recording := by
  intro solver base start
  have fits : 2 ≤ DepthLimit.standard.levels := by decide
  have isRead : ∃ value left,
      read solver ⟨⟨0⟩, ⟨2, by decide⟩⟩ ⟨0⟩ start.recording = .ok value left := by
    with_unfolding_all exact ⟨_, _, rfl⟩
  rcases isRead with ⟨value, left, isRead⟩
  rcases (@read_limit ⟨2, by decide⟩ .standard fits ⟨0⟩ ⟨0⟩).2 start with same | isCut
  · exact ⟨fits, same⟩
  · cases (congrArg Outcome.result isRead).symm.trans isCut

end Model

end SmtModel
