import SmtModel.Proofs.Discipline

/-!
# Invariants of disciplined routines

An invariant of a solver's states is told by the vectors of terms and of nodes that are
open. If making a vector opens it, releasing the vector that was opened last closes it,
and every other request keeps the invariant as long as it uses an open vector, then a
disciplined routine keeps the invariant, however it ends (`Disciplined.safe`). In
particular it closes every vector that it opens, and an operation of a client, which
starts with no vector open, ends with none (`Client.run_safe`).
-/

namespace SmtModel

variable {σ α : Type}

/-- The requests that a disciplined routine makes, those for vectors apart. -/
def Request.Occurs (unchecked : Request → Bool) (request : Request) : Prop :=
  request.tradesVector = false ∧
    (unchecked request = true ∨ request.isUnchecked = false ∧ request.call?.isSome = true ∨
      request = .errorReport ∨ request = .clearError)

/-- What an invariant has to satisfy request by request. -/
structure Keeps (solver : Solver σ) (unchecked : Request → Bool)
    (invariant : List VectorId → List VectorId → σ → Prop) : Prop where
  ask : ∀ {terms nodes state} (request : Request), request.Occurs unchecked →
    (∀ vector ∈ request.vector?, vector ∈ terms ∨ vector ∈ nodes) → invariant terms nodes state →
      invariant terms nodes (Outcome.state (solver request state)) ∧
        ∀ fault left, solver request state = .error fault left → ¬ fault.IsOfVector
  newTermVector : ∀ {terms nodes state}, invariant terms nodes state →
    ∃ (vector : VectorId) (left : σ), solver .newTermVector state = .ok vector left ∧
      invariant (vector :: terms) nodes left
  releaseTermVector : ∀ {vector terms nodes state}, invariant (vector :: terms) nodes state →
    ∃ left, solver (.releaseTermVector vector) state = .ok () left ∧ invariant terms nodes left
  newNodeVector : ∀ {terms nodes state}, invariant terms nodes state →
    ∃ (vector : VectorId) (left : σ), solver .newNodeVector state = .ok vector left ∧
      invariant terms (vector :: nodes) left
  releaseNodeVector : ∀ {vector terms nodes state}, invariant terms (vector :: nodes) state →
    ∃ left, solver (.releaseNodeVector vector) state = .ok () left ∧ invariant terms nodes left

/-- An ending that keeps an invariant, and is no fault in the use of a vector. -/
structure Safe (invariant : σ → Prop) (ending : EStateM.Result Stop (Traced σ) α) : Prop where
  kept : invariant (Outcome.state ending).state
  faults : ∀ fault left, ending = .error (.fault fault) left → ¬ fault.IsOfVector

namespace Safe

variable {β : Type} {invariant : σ → Prop}

theorem of_ok {result : α} {left : Traced σ} (kept : invariant left.state) :
    Safe invariant (.ok result left) :=
  ⟨kept, fun _ _ ended => by cases ended⟩

theorem of_failure {failure : Failure} {left : Traced σ} (kept : invariant left.state) :
    Safe invariant (.error (.failure failure) left : EStateM.Result Stop (Traced σ) α) :=
  ⟨kept, fun _ _ ended => by cases ended⟩

theorem bind {first : Action σ α} {next : α → Action σ β} {start : Traced σ}
    (before : Safe invariant (first start))
    (after : ∀ result middle, invariant middle.state → Safe invariant (next result middle)) :
    Safe invariant ((first >>= next) start) := by
  cases ran : first start with
  | ok result middle =>
      rw [ran] at before
      rw [Outcome.bind_of_ok ran]
      exact after result middle before.kept
  | error stop middle =>
      rw [ran] at before
      rw [Outcome.bind_of_error ran]
      refine ⟨before.kept, fun fault left ended => ?_⟩
      cases ended
      exact before.faults fault _ rfl

/-- A safe ending stays safe when only its state is changed, and the invariant with it. -/
theorem mapState {changed : σ → Prop} {ending : EStateM.Result Stop (Traced σ) α} {left : σ}
    (before : Safe invariant ending) (kept : changed left) :
    Safe changed (Outcome.mapState (fun traced => ⟨left, traced.events⟩) ending) := by
  cases ending with
  | ok result middle => exact of_ok kept
  | error stop middle =>
      refine ⟨kept, fun fault left ended => ?_⟩
      cases ended
      exact before.faults fault middle rfl

end Safe

namespace Keeps

variable {solver : Solver σ} {unchecked : Request → Bool}
  {invariant : List VectorId → List VectorId → σ → Prop} {terms nodes : List VectorId}
  {traced : Traced σ}

theorem ask_safe (keeps : Keeps solver unchecked invariant) (request : Request)
    (occurs : request.Occurs unchecked)
    (uses : ∀ vector ∈ request.vector?, vector ∈ terms ∨ vector ∈ nodes)
    (kept : invariant terms nodes traced.state) :
    Safe (invariant terms nodes) (Action.ask solver request traced) := by
  rcases keeps.ask request occurs uses kept with ⟨keptAfter, faults⟩
  cases answered : solver request traced.state with
  | ok answer left =>
      rw [answered] at keptAfter
      rw [Action.ask_of_ok answered]
      exact .of_ok keptAfter
  | error fault left =>
      rw [answered] at keptAfter
      rw [Action.ask_of_error answered]
      refine ⟨keptAfter, fun fault' left' ended => ?_⟩
      cases ended
      exact faults fault left answered

theorem failCall_safe (keeps : Keeps solver unchecked invariant) (name : Call)
    (kept : invariant terms nodes traced.state) :
    Safe (invariant terms nodes) (Action.failCall solver name traced : EStateM.Result _ _ α) := by
  unfold Action.failCall
  refine .bind (keeps.ask_safe _ ⟨rfl, by simp⟩ (by simp [Request.vector?]) kept)
    fun report middle kept => ?_
  by_cases unreported : report.code = .noError
  · rw [if_pos unreported]
    exact .of_failure kept
  · rw [if_neg unreported]
    refine .bind (keeps.ask_safe _ ⟨rfl, by simp⟩ (by simp [Request.vector?]) kept)
      fun _ middle kept => ?_
    exact .of_failure kept

end Keeps

theorem Request.tradesVector_of_call? {request : Request} {name : Call}
    (named : request.call? = some name) : request.tradesVector = false := by
  cases request <;> first | rfl | cases named

/-- A disciplined routine keeps an invariant that its solver keeps, with the same vectors open at
its end as at its start, and it does not meet a fault in the use of a vector. -/
theorem Disciplined.safe {solver : Solver σ} {unchecked : Request → Bool}
    {invariant : List VectorId → List VectorId → σ → Prop}
    (keeps : Keeps solver unchecked invariant)
    (noTrades : ∀ request, unchecked request = true → request.tradesVector = false)
    {held : List VectorId} {routine : Routine α} (disciplined : Disciplined unchecked held routine)
    {terms nodes : List VectorId} (isOpen : ∀ vector ∈ held, vector ∈ terms ∨ vector ∈ nodes)
    {traced : Traced σ} (kept : invariant terms nodes traced.state) :
    Safe (invariant terms nodes) (routine σ solver traced) := by
  induction disciplined generalizing terms nodes traced with
  | pure result => exact .of_ok kept
  | bind _ _ ihFirst ihNext =>
      exact .bind (ihFirst isOpen kept) fun result middle kept => ihNext result isOpen kept
  | record event => exact .of_ok kept
  | fail own => exact .of_failure kept
  | compute outcome =>
      cases outcome with
      | ok result => exact .of_ok kept
      | error division =>
          refine ⟨kept, fun fault left ended => ?_⟩
          cases ended
          exact id
  | ask free uses =>
      exact keeps.ask_safe _ ⟨noTrades _ free, Or.inl free⟩
        (fun vector used => isOpen vector (uses vector used)) kept
  | call request named checked uses checks =>
      have occurs : request.Occurs unchecked :=
        ⟨request.tradesVector_of_call? named, Or.inr (Or.inl ⟨checked, by simp [named]⟩)⟩
      refine .bind (keeps.ask_safe request occurs
        (fun vector used => isOpen vector (uses vector used)) kept) fun answer middle kept => ?_
      cases refusal : request.isRefusal answer with
      | true =>
          rw [checks.refused answer refusal σ solver]
          exact keeps.failCall_safe _ kept
      | false =>
          rcases checks.accepted answer refusal with ⟨result, accepts⟩
          rw [accepts σ solver]
          exact .of_ok kept
  | @withTermVector held _ body _ ih =>
      rcases keeps.newTermVector kept with ⟨vector, middle, made, keptInside⟩
      have opened : ∀ other ∈ vector :: held, other ∈ vector :: terms ∨ other ∈ nodes := by
        intro other isHeld
        rcases List.mem_cons.mp isHeld with rfl | isHeld
        · exact Or.inl List.mem_cons_self
        · exact (isOpen other isHeld).imp_left (List.mem_cons_of_mem vector)
      have inside := @ih vector _ _ opened ⟨middle, traced.events⟩ keptInside
      rcases keeps.releaseTermVector inside.kept with ⟨left, released, keptAfter⟩
      dsimp only
      rw [Action.withTermVector_of_released (fun vector => body vector σ solver) made released]
      exact inside.mapState keptAfter
  | @withNodeVector held _ body _ ih =>
      rcases keeps.newNodeVector kept with ⟨vector, middle, made, keptInside⟩
      have opened : ∀ other ∈ vector :: held, other ∈ terms ∨ other ∈ vector :: nodes := by
        intro other isHeld
        rcases List.mem_cons.mp isHeld with rfl | isHeld
        · exact Or.inr List.mem_cons_self
        · exact (isOpen other isHeld).imp_right (List.mem_cons_of_mem vector)
      have inside := @ih vector _ _ opened ⟨middle, traced.events⟩ keptInside
      rcases keeps.releaseNodeVector inside.kept with ⟨left, released, keptAfter⟩
      dsimp only
      rw [Action.withNodeVector_of_released (fun vector => body vector σ solver) made released]
      exact inside.mapState keptAfter

theorem Operation.tradesVector_of_unchecked (operation : Operation) (request : Request)
    (free : operation.unchecked request = true) : request.tradesVector = false := by
  have unchecked := operation.isUnchecked_of_unchecked request free
  cases request <;> first | rfl | cases unchecked

/-- An operation of a client keeps an invariant that its solver keeps, with no vector open before
and after it. It does not end in a fault in the use of a vector. -/
theorem Client.run_safe {solver : Solver σ}
    {invariant : List VectorId → List VectorId → σ → Prop} {operation : Operation}
    (keeps : Keeps solver operation.unchecked invariant) {client : Client σ}
    (kept : invariant [] [] client.traced.state) {ending : Ending σ operation.Answer}
    (ran : run solver client operation = some ending) :
    invariant [] [] (Outcome.state ending).traced.state ∧
      ∀ fault left, ending = .error (.fault fault) left → ¬ fault.IsOfVector := by
  rcases client with ⟨traced, owned⟩
  rcases exists_routine owned operation with
    notOwned | ⟨_, routine, before, keep, answer, disciplined, runs⟩
  · cases (notOwned σ solver traced).symm.trans ran
  · cases (runs σ solver traced).symm.trans ran
    rcases disciplined.safe keeps operation.tradesVector_of_unchecked (by simp) kept with
      ⟨keptAfter, faults⟩
    cases ended : routine σ solver traced with
    | ok result left =>
        rw [ended] at keptAfter
        simp only [perform, ended]
        exact ⟨keptAfter, fun _ _ impossible => by cases impossible⟩
    | error stop left =>
        rw [ended] at keptAfter
        simp only [perform, ended]
        refine ⟨keptAfter, fun fault left' ended' => ?_⟩
        cases ended'
        exact faults fault left ended

end SmtModel
