import SmtModel.Action

/-!
# Endings of steps

A step of a solver and an action of the library are computations of one kind: they
end with a result or stop without one, and they leave a state in both cases. This
file has the endings of composed computations. What a composed computation ends in
is read off its parts by `Outcome.bind_eq_ok` and `Outcome.bind_eq_error`, and an
action that holds a vector ends as `Action.ensuring_of_released` says.
-/

namespace SmtModel

namespace Outcome

variable {ε σ τ α β : Type}

/-- The state that a computation leaves, with a result or without one. -/
def state : EStateM.Result ε σ α → σ
  | .ok _ left => left
  | .error _ left => left

/-- How a computation ends, whatever state it leaves. -/
def result : EStateM.Result ε σ α → Except ε α
  | .ok result _ => .ok result
  | .error stop _ => .error stop

theorem result_eq_ok {ending : EStateM.Result ε σ α} {result' : α} :
    result ending = .ok result' ↔ ∃ left, ending = .ok result' left := by
  cases ending <;> simp [result]

theorem result_eq_error {ending : EStateM.Result ε σ α} {stop : ε} :
    result ending = .error stop ↔ ∃ left, ending = .error stop left := by
  cases ending <;> simp [result]

/-- The same ending in another view of the state. -/
def mapState (view : σ → τ) : EStateM.Result ε σ α → EStateM.Result ε τ α
  | .ok result left => .ok result (view left)
  | .error stop left => .error stop (view left)

@[simp]
theorem state_ok (result : α) (left : σ) :
    state (.ok result left : EStateM.Result ε σ α) = left := rfl

@[simp]
theorem state_error (stop : ε) (left : σ) :
    state (.error stop left : EStateM.Result ε σ α) = left := rfl

@[simp]
theorem mapState_ok (view : σ → τ) (result : α) (left : σ) :
    mapState view (.ok result left : EStateM.Result ε σ α) = .ok result (view left) := rfl

@[simp]
theorem mapState_error (view : σ → τ) (stop : ε) (left : σ) :
    mapState view (.error stop left : EStateM.Result ε σ α) = .error stop (view left) := rfl

@[simp]
theorem state_mapState (view : σ → τ) (ending : EStateM.Result ε σ α) :
    state (mapState view ending) = view (state ending) := by
  cases ending <;> rfl

theorem bind_of_ok {first : EStateM ε σ α} {next : α → EStateM ε σ β} {start middle : σ}
    {result : α} (ran : first start = .ok result middle) :
    (first >>= next) start = next result middle := by
  simp only [Bind.bind, EStateM.bind, ran]

theorem bind_of_error {first : EStateM ε σ α} {next : α → EStateM ε σ β} {start middle : σ}
    {stop : ε} (ran : first start = .error stop middle) :
    (first >>= next) start = .error stop middle := by
  simp only [Bind.bind, EStateM.bind, ran]

theorem bind_congr {first second : EStateM ε σ α} {start : σ} (same : first start = second start)
    (next : α → EStateM ε σ β) : (first >>= next) start = (second >>= next) start := by
  change EStateM.bind first next start = EStateM.bind second next start
  unfold EStateM.bind
  rw [same]

/-- A composed computation has a result if its first part has one and its second part does from
there. -/
theorem bind_eq_ok {first : EStateM ε σ α} {next : α → EStateM ε σ β} {start left : σ}
    {result : β} :
    (first >>= next) start = .ok result left ↔
      ∃ middle reached, first start = .ok middle reached ∧
        next middle reached = .ok result left := by
  cases ran : first start with
  | ok middle reached =>
      rw [bind_of_ok ran]
      constructor
      · intro ends
        exact ⟨middle, reached, rfl, ends⟩
      · rintro ⟨_, _, ⟨⟩, ends⟩
        exact ends
  | error stop reached => simp [bind_of_error ran]

theorem bind_eq_error {first : EStateM ε σ α} {next : α → EStateM ε σ β} {start left : σ}
    {stop : ε} :
    (first >>= next) start = .error stop left ↔
      first start = .error stop left ∨
        ∃ middle reached, first start = .ok middle reached ∧
          next middle reached = .error stop left := by
  cases ran : first start with
  | ok middle reached =>
      rw [bind_of_ok ran]
      constructor
      · intro ends
        exact Or.inr ⟨middle, reached, rfl, ends⟩
      · rintro (impossible | ⟨_, _, ⟨⟩, ends⟩)
        · cases impossible
        · exact ends
  | error other reached => simp [bind_of_error ran]

/-- A relation between states that composes holds from the start of a composed computation to its
end if it holds over both parts. -/
theorem related_bind (related : σ → σ → Prop)
    (trans : ∀ {a b c}, related a b → related b c → related a c)
    {first : EStateM ε σ α} {next : α → EStateM ε σ β} {start : σ}
    (before : related start (state (first start)))
    (after : ∀ result middle, first start = .ok result middle →
      related middle (state (next result middle))) :
    related start (state ((first >>= next) start)) := by
  cases ran : first start with
  | ok result middle =>
      rw [ran] at before
      rw [bind_of_ok ran]
      exact trans before (after result middle ran)
  | error stop middle =>
      rw [ran] at before
      rw [bind_of_error ran]
      exact before

/-- A view of the state that both parts of a computation respect is respected by the whole. -/
theorem mapState_bind {view : σ → τ} {first : EStateM ε σ α} {next : α → EStateM ε σ β}
    {first' : EStateM ε τ α} {next' : α → EStateM ε τ β} {start : σ}
    (before : first' (view start) = mapState view (first start))
    (after : ∀ result middle, first start = .ok result middle →
      next' result (view middle) = mapState view (next result middle)) :
    (first' >>= next') (view start) = mapState view ((first >>= next) start) := by
  cases ran : first start with
  | ok result middle =>
      rw [ran] at before
      rw [bind_of_ok ran, bind_of_ok before]
      exact after result middle ran
  | error stop middle =>
      rw [ran] at before
      rw [bind_of_error ran, bind_of_error before]
      rfl

end Outcome

/-- The view of a traced state, with the events as they are. -/
def Traced.map {σ τ : Type} (view : τ → σ) (traced : Traced τ) : Traced σ :=
  ⟨view traced.state, traced.events⟩

namespace Action

variable {σ α : Type}

theorem ask_of_ok {solver : Solver σ} {request : Request} {traced : Traced σ}
    {answer : request.Answer} {left : σ}
    (answered : solver request traced.state = .ok answer left) :
    ask solver request traced = .ok answer ⟨left, traced.events⟩ := by
  simp only [ask, answered]

theorem ask_of_error {solver : Solver σ} {request : Request} {traced : Traced σ} {fault : Fault}
    {left : σ} (faulted : solver request traced.state = .error fault left) :
    ask solver request traced = .error (.fault fault) ⟨left, traced.events⟩ := by
  simp only [ask, faulted]

theorem answer_of_ask {solver : Solver σ} {request : Request} {reply : request.Answer}
    {traced left : Traced σ} (asked : ask solver request traced = .ok reply left) :
    solver request traced.state = .ok reply left.state := by
  cases answered : solver request traced.state with
  | ok reply' state =>
      cases (ask_of_ok answered).symm.trans asked
      rfl
  | error fault state => cases (ask_of_error answered).symm.trans asked

/-- Where the cleanup succeeds, it changes nothing but the state. -/
theorem ensuring_of_released {body : Action σ α} {cleanup : Action σ Unit} {start left : Traced σ}
    (released : cleanup (Outcome.state (body start)) = .ok () left) :
    ensuring body cleanup start = Outcome.mapState (fun _ => left) (body start) := by
  cases ran : body start with
  | ok result middle =>
      rw [ran] at released
      simp only [Outcome.state_ok] at released
      simp only [ensuring, ran, released, Outcome.mapState_ok]
  | error stop middle =>
      rw [ran] at released
      simp only [Outcome.state_error] at released
      cases stop <;> simp only [ensuring, ran, released, Outcome.mapState_error]

/-- Where a cleanup meets a fault, there is a fault. -/
theorem ensuring_of_faulted {body : Action σ α} {cleanup : Action σ Unit}
    {start left : Traced σ} {fault : Fault}
    (faulted : cleanup (Outcome.state (body start)) = .error (.fault fault) left) :
    ∃ first, ensuring body cleanup start = .error (.fault first) left := by
  unfold ensuring
  cases ran : body start with
  | ok result middle =>
      rw [ran] at faulted
      exact ⟨fault, by simp only [Outcome.state_ok] at faulted; simp only [faulted]⟩
  | error stop middle =>
      rw [ran] at faulted
      simp only [Outcome.state_error] at faulted
      cases stop with
      | failure failure => exact ⟨fault, by simp only [faulted]⟩
      | fault first => exact ⟨first, by simp only [faulted]⟩

/-- A view that an action and its cleanup respect is respected by both together. -/
theorem mapState_ensuring {τ : Type} {view : Traced τ → Traced σ} {body : Action σ α}
    {cleanup : Action σ Unit} {body' : Action τ α} {cleanup' : Action τ Unit} {start : Traced τ}
    (inside : body (view start) = Outcome.mapState view (body' start))
    (after : ∀ left, cleanup (view left) = Outcome.mapState view (cleanup' left)) :
    ensuring body cleanup (view start) = Outcome.mapState view (ensuring body' cleanup' start) := by
  cases ran : body' start with
  | ok result middle =>
      rw [ran] at inside
      simp only [ensuring, ran, inside, Outcome.mapState_ok, after]
      cases cleanup' middle <;> rfl
  | error stop middle =>
      rw [ran] at inside
      cases stop <;> simp only [ensuring, ran, inside, Outcome.mapState_error, after] <;>
        cases cleanup' middle <;> rfl

section Vectors

variable {solver : Solver σ} (body : VectorId → Action σ α) {start : Traced σ}
  {vector : VectorId} {middle left : σ}

/-- An action that holds a vector of terms ends as it does inside, if the vector can be made and
released. -/
theorem withTermVector_of_released
    (made : solver .newTermVector start.state = .ok vector middle)
    (released : solver (.releaseTermVector vector)
      (Outcome.state (body vector ⟨middle, start.events⟩)).state = .ok () left) :
    withTermVector solver body start =
      Outcome.mapState (fun traced => ⟨left, traced.events⟩)
        (body vector ⟨middle, start.events⟩) := by
  unfold withTermVector
  rw [Outcome.bind_of_ok (ask_of_ok made), ensuring_of_released (ask_of_ok released)]
  cases body vector ⟨middle, start.events⟩ <;> rfl

theorem withNodeVector_of_released
    (made : solver .newNodeVector start.state = .ok vector middle)
    (released : solver (.releaseNodeVector vector)
      (Outcome.state (body vector ⟨middle, start.events⟩)).state = .ok () left) :
    withNodeVector solver body start =
      Outcome.mapState (fun traced => ⟨left, traced.events⟩)
        (body vector ⟨middle, start.events⟩) := by
  unfold withNodeVector
  rw [Outcome.bind_of_ok (ask_of_ok made), ensuring_of_released (ask_of_ok released)]
  cases body vector ⟨middle, start.events⟩ <;> rfl

end Vectors

end Action

end SmtModel
