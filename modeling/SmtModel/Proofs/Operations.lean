import SmtModel.Proofs.WellFormed

/-!
# What operations ensure

An operation of a client keeps what its solver keeps in answering the requests that the
operation makes, and it meets no fault that the solver does not meet in them, a division
by zero apart (`Client.run_ensures`).
-/

namespace SmtModel

open SmtModel.Action

/-- The request that a service makes. -/
def Service.request : Service → Request
  | startUp => .startUp
  | shutDown => .shutDown
  | reset => .reset
  | isRunning => .isRunning
  | errorCode => .errorCode
  | errorText => .errorText
  | errorReport => .errorReport
  | clearError => .clearError
  | printError descriptor => .printError descriptor
  | constant type index => .constant type index

/-- The requests that an operation makes. -/
def Operation.Makes : Operation → Request → Prop
  | .service performed, request => request = performed.request
  | .modelOfContext context keepSubstitution, request =>
    request = .getModel context keepSubstitution
  | .modelOfPairs pairs, request => request = .modelFromMap (pairs.map (·.1)) (pairs.map (·.2))
  | .query id _, request => request.IsOfQuery id
  | .limitDepth .., _ => False
  | .dispose id, request => request = .freeModel id

variable {σ α : Type} {solver : Solver σ} {invariant : σ → Prop} {expected : Fault → Prop}

theorem Service.perform_ensures (service : Service) {requests : Request → Prop}
    (respects : Respects solver invariant expected requests) (made : requests service.request) :
    Ensures invariant expected Ensures.any (service.perform solver) := by
  cases service with
  | startUp => exact .bind (.record _) fun _ _ => .ask respects .startUp made
  | shutDown => exact .bind (.record _) fun _ _ => .ask respects .shutDown made
  | reset => exact .bind (.record _) fun _ _ => .ask respects .reset made
  | isRunning => exact .ask respects .isRunning made
  | errorCode => exact .ask respects .errorCode made
  | errorText => exact .ask respects .errorText made
  | errorReport => exact .ask respects .errorReport made
  | clearError => exact .ask respects .clearError made
  | printError descriptor => exact .lastCall respects (.printError descriptor) made (.reply _)
  | constant type index => exact .lastCall respects (.constant type index) made (.term _)

theorem Model.ofContext_ensures {requests : Request → Prop}
    (respects : Respects solver invariant expected requests) (context : ContextId)
    (keepSubstitution : Bool) (made : requests (.getModel context keepSubstitution)) :
    Ensures invariant expected Ensures.any (Model.ofContext solver context keepSubstitution) := by
  apply Ensures.call respects (.getModel context keepSubstitution) made (.handle _)
  intro id
  exact .bind (.record _) fun _ _ => .pure trivial

theorem Model.ofPairs_ensures {requests : Request → Prop}
    (respects : Respects solver invariant expected requests) (pairs : List (TermId × TermId))
    (made : requests (.modelFromMap (pairs.map (·.1)) (pairs.map (·.2)))) :
    Ensures invariant expected Ensures.any (Model.ofPairs solver pairs) := by
  apply Ensures.call respects (.modelFromMap _ _) made (.handle _)
  intro id
  exact .bind (.record _) fun _ _ => .pure trivial

namespace Client

theorem perform_ensures {β : Type} (client : Client σ) {action : Action σ α}
    {keep : α → List Model} {answer : α → β}
    (ensures : Ensures invariant expected Ensures.any action)
    (kept : invariant client.traced.state) {ending : Ending σ β}
    (ends : Ending.map answer (client.perform action keep) = ending) :
    invariant (Outcome.state ending).traced.state ∧
      ∀ fault left, ending = .error (.fault fault) left → expected fault := by
  rcases client with ⟨traced, owned⟩
  have contract := ensures traced kept
  simp only [perform] at ends
  generalize action traced = ran at contract ends
  subst ends
  cases contract with
  | result kept _ => exact ⟨kept, fun _ _ ended => by cases ended⟩
  | failure kept => exact ⟨kept, fun _ _ ended => by cases ended⟩
  | fault kept known =>
      refine ⟨kept, fun fault left ended => ?_⟩
      cases ended
      exact known

/-- A query keeps what the solver keeps in answering the requests that the query makes. -/
theorem run_query_ensures {client : Client σ} {id : ModelId} {query : Query}
    (respects : Respects solver invariant expected (query.Makes id))
    (divides : expected .divisionByZero) (kept : invariant client.traced.state)
    {ending : Ending σ query.Answer} (ran : run solver client (.query id query) = some ending) :
    invariant (Outcome.state ending).traced.state ∧
      ∀ fault left, ending = .error (.fault fault) left → expected fault := by
  cases found : client.find? id with
  | none => simp [run, found] at ran
  | some model =>
      have isId : model.id = id := by simpa using List.find?_some found
      subst isId
      simp only [run, found, Option.bind_eq_bind, Option.bind_some, Option.pure_def] at ran
      have ensures := Model.asked_ensures respects divides
      exact client.perform_ensures ensures kept ((Ending.map_id _).trans (Option.some.inj ran))

theorem run_ensures {client : Client σ} {operation : Operation}
    (respects : Respects solver invariant expected operation.Makes)
    (divides : expected .divisionByZero) (kept : invariant client.traced.state)
    {ending : Ending σ operation.Answer} (ran : run solver client operation = some ending) :
    invariant (Outcome.state ending).traced.state ∧
      ∀ fault left, ending = .error (.fault fault) left → expected fault := by
  cases operation with
  | service performed =>
      have ensures := performed.perform_ensures respects rfl
      exact client.perform_ensures ensures kept ((Ending.map_id _).trans (Option.some.inj ran))
  | modelOfContext context keepSubstitution =>
      have ensures := Model.ofContext_ensures respects context keepSubstitution rfl
      exact client.perform_ensures ensures kept (Option.some.inj ran)
  | modelOfPairs pairs =>
      have ensures := Model.ofPairs_ensures respects pairs rfl
      exact client.perform_ensures ensures kept (Option.some.inj ran)
  | query id query =>
      have respectsQuery : Respects solver invariant expected (query.Makes id) :=
        respects.mono fun _ => Query.Makes.isOfQuery
      exact run_query_ensures respectsQuery divides kept ran
  | limitDepth id levels =>
      cases found : client.find? id with
      | none => simp [run, found] at ran
      | some model =>
          simp only [run, found, Option.bind_eq_bind, Option.bind_some] at ran
          cases limiting : model.withLimit levels with
          | error failure | ok limited =>
              rw [limiting] at ran
              cases ran
              exact ⟨kept, fun _ _ ended => by cases ended⟩
  | dispose id =>
      cases found : client.find? id with
      | none => simp [run, found] at ran
      | some model =>
          have isId : model.id = id := by simpa using List.find?_some found
          subst isId
          simp only [run, found, Option.bind_eq_bind, Option.bind_some, Option.pure_def] at ran
          have ensures : Ensures invariant expected Ensures.any (model.dispose solver) :=
            .bind (.record _) fun _ _ => .ask respects (.freeModel model.id) rfl
          exact perform_ensures ⟨client.traced, client.owned.filter (·.id ≠ model.id)⟩ ensures kept
            ((Ending.map_id _).trans (Option.some.inj ran))

end Client

end SmtModel
