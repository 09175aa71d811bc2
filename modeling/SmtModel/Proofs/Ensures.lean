import SmtModel.Proofs.Discipline

/-!
# What actions ensure

`Action.Ensures` is a contract of an action: from a state with an invariant it ends in
one, whatever it ends in, its results have a property, and its faults are among those
that are to be expected. A solver that `Respects` the invariant in answering the
requests of an action is all that the contracts here ask for, so they hold with every
solver, however inconsistent its answers are. The contracts of reading a value and of
a query are in `SmtModel.Proofs.WellFormed`.
-/

namespace SmtModel

variable {σ α β γ : Type}

/-- One of the given requests, or one of those that follow a failed call. -/
def Request.Among (requests : Request → Prop) (request : Request) : Prop :=
  requests request ∨ request = .errorReport ∨ request = .clearError

/-- In answering some requests, and those that follow a failed call, a solver keeps an invariant and
meets expected faults only. -/
structure Respects (solver : Solver σ) (invariant : σ → Prop) (expected : Fault → Prop)
    (requests : Request → Prop) : Prop where
  kept : ∀ {request state}, request.Among requests → invariant state →
    invariant (Outcome.state (solver request state))
  fault : ∀ {request state fault left}, request.Among requests → invariant state →
    solver request state = .error fault left → expected fault

namespace Respects

theorem mono {solver : Solver σ} {invariant : σ → Prop} {expected : Fault → Prop}
    {requests fewer : Request → Prop} (respects : Respects solver invariant expected requests)
    (included : ∀ request, fewer request → requests request) :
    Respects solver invariant expected fewer where
  kept made := respects.kept (made.imp_left (included _))
  fault made := respects.fault (made.imp_left (included _))

/-- Every solver respects the invariant that all states have, and any fault may be expected. -/
theorem trivially (solver : Solver σ) (requests : Request → Prop) :
    Respects solver (fun _ => True) (fun _ => True) requests where
  kept _ _ := trivial
  fault _ _ _ := trivial

end Respects

/-- The requests that a query about a model makes. -/
def Request.IsOfQuery (id : ModelId) : Request → Prop
  | .freeModel _ => False
  | .constant .. => True
  | .newTermVector | .releaseTermVector _ | .termVectorElements _ => True
  | .newNodeVector | .releaseNodeVector _ | .nodeVectorElements _ => True
  | request => request.model? = some id

/-- The requests that all queries about a model make but the one for a constant term. -/
def Request.IsOfReading (id : ModelId) : Request → Prop
  | .valueAsTerm .. => False
  | request => request.IsOfQuery id

/-- The requests that a query about a model makes, told by the query. -/
def Query.Makes (id : ModelId) : Query → Request → Prop
  | .valueAsTerm _ => Request.IsOfQuery id
  | _ => Request.IsOfReading id

theorem Request.IsOfReading.isOfQuery {id : ModelId} {request : Request}
    (made : request.IsOfReading id) : request.IsOfQuery id := by
  cases request
  case valueAsTerm => exact made.elim
  all_goals exact made

theorem Query.Makes.isOfQuery {id : ModelId} {query : Query} {request : Request}
    (made : query.Makes id request) : request.IsOfQuery id := by
  cases query
  case valueAsTerm => exact made
  all_goals exact Request.IsOfReading.isOfQuery made

namespace Action

/-- An ending in a state with an invariant: with a result that has a property, in a failure, or in a
fault that is to be expected. -/
inductive Ends (invariant : σ → Prop) (expected : Fault → Prop) (post : α → Prop) :
    EStateM.Result Stop (Traced σ) α → Prop where
  | result {result : α} {left : Traced σ} (kept : invariant left.state) (holds : post result) :
      Ends invariant expected post (.ok result left)
  | failure {failure : Failure} {left : Traced σ} (kept : invariant left.state) :
      Ends invariant expected post (.error (.failure failure) left)
  | fault {fault : Fault} {left : Traced σ} (kept : invariant left.state)
      (known : expected fault) : Ends invariant expected post (.error (.fault fault) left)

/-- The action ends so from every state with the invariant. -/
def Ensures (invariant : σ → Prop) (expected : Fault → Prop) (post : α → Prop)
    (action : Action σ α) : Prop :=
  ∀ start : Traced σ, invariant start.state → Ends invariant expected post (action start)

namespace Ends

variable {invariant : σ → Prop} {expected : Fault → Prop} {post : α → Prop}
  {ending : EStateM.Result Stop (Traced σ) α}

theorem kept (ends : Ends invariant expected post ending) :
    invariant (Outcome.state ending).state := by
  cases ends with
  | result kept _ => exact kept
  | failure kept => exact kept
  | fault kept _ => exact kept

theorem mono {weaker : α → Prop} (ends : Ends invariant expected post ending)
    (weakens : ∀ result, post result → weaker result) : Ends invariant expected weaker ending := by
  cases ends with
  | result kept holds => exact .result kept (weakens _ holds)
  | failure kept => exact .failure kept
  | fault kept known => exact .fault kept known

end Ends

namespace Ensures

variable {invariant : σ → Prop} {expected : Fault → Prop} {post : α → Prop} {mid : β → Prop}

/-- The property that every result has. -/
abbrev any : α → Prop := fun _ => True

theorem mono {weaker : α → Prop} {action : Action σ α}
    (ensures : Ensures invariant expected post action)
    (weakens : ∀ result, post result → weaker result) :
    Ensures invariant expected weaker action :=
  fun start kept => (ensures start kept).mono weakens

theorem pure {result : α} (holds : post result) :
    Ensures invariant expected post (Pure.pure result : Action σ α) :=
  fun _ kept => .result kept holds

theorem fail (failure : Failure) :
    Ensures invariant expected post (Action.fail failure : Action σ α) :=
  fun _ kept => .failure kept

theorem record (event : Event) :
    Ensures invariant expected any (Action.record event : Action σ Unit) :=
  fun _ kept => .result kept trivial

theorem bind {first : Action σ β} {next : β → Action σ α}
    (before : Ensures invariant expected mid first)
    (after : ∀ result, mid result → Ensures invariant expected post (next result)) :
    Ensures invariant expected post (first >>= next) := by
  intro start kept
  have ends := before start kept
  cases ran : first start with
  | ok result middle =>
      rw [ran] at ends
      rw [Outcome.bind_of_ok ran]
      cases ends with
      | result kept holds => exact after result holds middle kept
  | error stop middle =>
      rw [ran] at ends
      rw [Outcome.bind_of_error ran]
      cases ends with
      | failure kept => exact .failure kept
      | fault kept known => exact .fault kept known

theorem ofExcept (divides : expected .divisionByZero) (outcome : Except DivisionByZero α) :
    Ensures invariant expected (fun result => outcome = .ok result)
      (Action.ofExcept outcome : Action σ α) := by
  cases outcome with
  | ok result => exact pure rfl
  | error division => exact fun _ kept => .fault kept divides

/-- What is ensured of an action is ensured of it when a cleanup runs after it. -/
theorem ensuring {body : Action σ α} {cleanup : Action σ Unit}
    (inside : Ensures invariant expected post body)
    (after : Ensures invariant expected any cleanup) :
    Ensures invariant expected post (Action.ensuring body cleanup) := by
  intro start kept
  have ends := inside start kept
  have cleaned := after _ ends.kept
  unfold Action.ensuring
  generalize body start = ending at ends cleaned ⊢
  cases ends with
  | result kept holds =>
      dsimp only [Outcome.state] at cleaned ⊢
      generalize cleanup _ = last at cleaned ⊢
      cases cleaned with
      | result kept _ => exact .result kept holds
      | failure kept => exact .failure kept
      | fault kept known => exact .fault kept known
  | failure kept =>
      dsimp only [Outcome.state] at cleaned ⊢
      generalize cleanup _ = last at cleaned ⊢
      cases cleaned with
      | result kept _ => exact .failure kept
      | failure kept => exact .failure kept
      | fault kept known => exact .fault kept known
  | fault kept known =>
      dsimp only [Outcome.state] at cleaned ⊢
      generalize cleanup _ = last at cleaned ⊢
      cases cleaned with
      | result kept _ => exact .fault kept known
      | failure kept => exact .fault kept known
      | fault kept _ => exact .fault kept known

theorem mapM {visit : β → Action σ α} (each : ∀ item, Ensures invariant expected post (visit item))
    (items : List β) :
    Ensures invariant expected
      (fun results => results.length = items.length ∧ ∀ result ∈ results, post result)
      (items.mapM visit) := by
  induction items with
  | nil => exact pure ⟨rfl, by simp⟩
  | cons item items ih =>
      rw [List.mapM_cons]
      refine bind (each item) fun result holds => bind ih fun results others => pure ⟨?_, ?_⟩
      · simpa using others.1
      · simpa using ⟨holds, others.2⟩

theorem foldlM {step : α → β → Action σ α}
    (each : ∀ acc item, post acc → Ensures invariant expected post (step acc item))
    (items : List β) {acc : α} (holds : post acc) :
    Ensures invariant expected post (items.foldlM step acc) := by
  induction items generalizing acc with
  | nil => exact pure holds
  | cons item items ih =>
      rw [List.foldlM_cons]
      exact bind (each acc item holds) fun _ holds => ih holds

section Solver

variable {solver : Solver σ} {requests : Request → Prop}
  (respects : Respects solver invariant expected requests)

include respects

theorem askAmong (request : Request) (made : request.Among requests) :
    Ensures invariant expected any (Action.ask solver request) := by
  intro start kept
  have keptAfter := respects.kept made kept
  cases answered : solver request start.state with
  | ok answer left =>
      rw [answered] at keptAfter
      rw [Action.ask_of_ok answered]
      exact .result keptAfter trivial
  | error fault left =>
      rw [answered] at keptAfter
      rw [Action.ask_of_error answered]
      exact .fault keptAfter (respects.fault made kept answered)

theorem ask (request : Request) (made : requests request) :
    Ensures invariant expected any (Action.ask solver request) :=
  askAmong respects request (Or.inl made)

theorem failCall (name : Call) :
    Ensures invariant expected post (Action.failCall solver name : Action σ α) := by
  apply bind (askAmong respects .errorReport (Or.inr (Or.inl rfl)))
  intro report _
  by_cases unreported : report.code = .noError
  · rw [if_pos unreported]
    exact bind (record _) fun _ _ => fail _
  · rw [if_neg unreported]
    apply bind (askAmong respects .clearError (Or.inr (Or.inr rfl)))
    intro _ _
    exact bind (record _) fun _ _ => fail _

theorem checked {name : Call} {refusal : α → Bool} {check : α → Routine β}
    (checks : Checks name refusal check) (answer : α) :
    Ensures invariant expected any (check answer σ solver) := by
  cases isRefusal : refusal answer with
  | true =>
      rw [checks.refused answer isRefusal σ solver]
      exact failCall respects name
  | false =>
      rcases checks.accepted answer isRefusal with ⟨result, accepts⟩
      rw [accepts σ solver]
      exact pure trivial

/-- A call that is checked, and what comes after it. -/
theorem call {name : Call} (request : Request) {check : request.Answer → Routine β}
    {next : β → Action σ α} (made : requests request) (checks : Checks name request.isRefusal check)
    (after : ∀ result, Ensures invariant expected post (next result)) :
    Ensures invariant expected post (do
      let answer ← Action.ask solver request
      let result ← check answer σ solver
      next result) := by
  apply bind (ask respects request made)
  intro answer _
  apply bind (checked respects checks answer)
  intro result _
  exact after result

theorem lastCall {name : Call} (request : Request) {check : request.Answer → Routine β}
    (made : requests request) (checks : Checks name request.isRefusal check) :
    Ensures invariant expected any
      (Action.ask solver request >>= fun answer => check answer σ solver) :=
  bind (ask respects request made) fun answer _ => checked respects checks answer

theorem withTermVector {body : VectorId → Action σ α} (makes : requests .newTermVector)
    (releases : ∀ vector, requests (.releaseTermVector vector))
    (inside : ∀ vector, Ensures invariant expected post (body vector)) :
    Ensures invariant expected post (Action.withTermVector solver body) :=
  bind (ask respects _ makes) fun vector _ =>
    ensuring (inside vector) (ask respects _ (releases vector))

theorem withNodeVector {body : VectorId → Action σ α} (makes : requests .newNodeVector)
    (releases : ∀ vector, requests (.releaseNodeVector vector))
    (inside : ∀ vector, Ensures invariant expected post (body vector)) :
    Ensures invariant expected post (Action.withNodeVector solver body) :=
  bind (ask respects _ makes) fun vector _ =>
    ensuring (inside vector) (ask respects _ (releases vector))

end Solver

end Ensures

end Action

end SmtModel
