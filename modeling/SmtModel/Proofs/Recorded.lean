import SmtModel.Proofs.Discipline

/-!
# Recorded solvers

`Recorded.answer` is a solver that answers as another one does and keeps a record of the
requests that were put to it, each with how it ended. Nothing is changed by this:
without the record, a run with the recorded solver is the run with the other one
(`Client.run_simulated`).
-/

namespace SmtModel

variable {σ τ α β : Type}

/-- A request that was put to a solver, and how it ended. -/
structure Exchange (σ : Type) where
  request : Request
  ending : EStateM.Result Fault σ request.Answer

namespace Exchange

/-- The vector that an exchange handed out. -/
def made? : Exchange σ → Option VectorId
  | ⟨.newTermVector, .ok vector _⟩ | ⟨.newNodeVector, .ok vector _⟩ => some vector
  | _ => none

/-- The vector that was released in an exchange. -/
def released? : Exchange σ → Option VectorId
  | ⟨.releaseTermVector vector, .ok _ _⟩ | ⟨.releaseNodeVector vector, .ok _ _⟩ => some vector
  | _ => none

theorem made?_of_noTrade {request : Request} (noTrade : request.tradesVector = false)
    (ending : EStateM.Result Fault σ request.Answer) : made? ⟨request, ending⟩ = none := by
  cases request <;> first | rfl | cases noTrade

theorem released?_of_noTrade {request : Request} (noTrade : request.tradesVector = false)
    (ending : EStateM.Result Fault σ request.Answer) : released? ⟨request, ending⟩ = none := by
  cases request <;> first | rfl | cases noTrade

end Exchange

/-- A solver's state with the exchanges that led to it, the latest first. -/
structure Recorded (σ : Type) where
  state : σ
  exchanges : List (Exchange σ)

namespace Recorded

/-- Answers as `solver` does, and records the exchange. -/
def answer (solver : Solver σ) : Solver (Recorded σ) := fun request recorded =>
  let ending := solver request recorded.state
  Outcome.mapState (⟨·, ⟨request, ending⟩ :: recorded.exchanges⟩) ending

section Answer

variable {solver : Solver σ} {request : Request} {recorded : Recorded σ}

theorem answer_of_ok {result : request.Answer} {left : σ}
    (answered : solver request recorded.state = .ok result left) :
    answer solver request recorded =
      .ok result ⟨left, ⟨request, .ok result left⟩ :: recorded.exchanges⟩ := by
  rw [answer, answered]
  rfl

theorem answer_of_error {fault : Fault} {left : σ}
    (faulted : solver request recorded.state = .error fault left) :
    answer solver request recorded =
      .error fault ⟨left, ⟨request, .error fault left⟩ :: recorded.exchanges⟩ := by
  rw [answer, faulted]
  rfl

theorem state_answer :
    Outcome.state (answer solver request recorded) =
      ⟨Outcome.state (solver request recorded.state),
        ⟨request, solver request recorded.state⟩ :: recorded.exchanges⟩ :=
  Outcome.state_mapState _ _

end Answer

/-- A state that exchanges lead to from `start`. -/
inductive Later (start : Recorded σ) : Recorded σ → Prop where
  | refl : Later start start
  | after (exchange : Exchange σ) {exchanges : List (Exchange σ)}
      (since : start.exchanges <:+ exchanges) :
      Later start ⟨Outcome.state exchange.ending, exchange :: exchanges⟩

theorem Later.exchanges {start later : Recorded σ} (leads : Later start later) :
    start.exchanges <:+ later.exchanges := by
  cases leads with
  | refl => exact List.suffix_refl _
  | after exchange since => exact since.trans (List.suffix_cons ..)

theorem Later.trans {start middle later : Recorded σ} (before : Later start middle)
    (leads : Later middle later) : Later start later := by
  cases leads with
  | refl => exact before
  | after exchange since => exact .after exchange (before.exchanges.trans since)

theorem later_answer (solver : Solver σ) (request : Request) (recorded : Recorded σ) :
    Later recorded (Outcome.state (answer solver request recorded)) := by
  rw [state_answer]
  exact .after ⟨request, _⟩ (List.suffix_refl _)

/-- The vectors that were handed out. -/
def made (recorded : Recorded σ) : List VectorId := recorded.exchanges.filterMap (·.made?)

/-- The vectors that were released, each as often as it was. -/
def released (recorded : Recorded σ) : List VectorId := recorded.exchanges.filterMap (·.released?)

end Recorded

/-! ## Views of solvers -/

/-- One solver answers in the view of another one's states as that one does. -/
def Simulates (view : τ → σ) (solver : Solver σ) (viewed : Solver τ) : Prop :=
  ∀ request state, solver request (view state) = Outcome.mapState view (viewed request state)

theorem Recorded.simulates (solver : Solver σ) :
    Simulates Recorded.state solver (Recorded.answer solver) := by
  intro request recorded
  simp only [Recorded.answer]
  cases solver request recorded.state <;> rfl

/-- The client as it is in a view of its solver, with the same models. -/
def Client.map (view : τ → σ) (client : Client τ) : Client σ :=
  ⟨client.traced.map view, client.owned⟩

namespace Simulates

variable {view : τ → σ} {solver : Solver σ} {viewed : Solver τ}

theorem ask (simulates : Simulates view solver viewed) (request : Request) (traced : Traced τ) :
    Action.ask solver request (traced.map view) =
      Outcome.mapState (Traced.map view) (Action.ask viewed request traced) := by
  have answered := simulates request traced.state
  cases ran : viewed request traced.state with
  | ok answer left =>
      rw [ran] at answered
      rw [Action.ask_of_ok ran]
      exact Action.ask_of_ok answered
  | error fault left =>
      rw [ran] at answered
      rw [Action.ask_of_error ran]
      exact Action.ask_of_error answered

theorem failCall (simulates : Simulates view solver viewed) (name : Call) (traced : Traced τ) :
    Action.failCall solver name (traced.map view) =
      Outcome.mapState (Traced.map view)
        (Action.failCall viewed name traced : EStateM.Result _ _ α) := by
  refine Outcome.mapState_bind (simulates.ask _ traced) fun report middle _ => ?_
  by_cases unreported : report.code = .noError
  · simp only [unreported, if_true]
    rfl
  · simp only [unreported, if_false]
    exact Outcome.mapState_bind (simulates.ask _ middle) fun _ _ _ => rfl

end Simulates

/-- A disciplined routine cannot tell a solver from a view of it. -/
theorem Disciplined.simulated {view : τ → σ} {solver : Solver σ} {viewed : Solver τ}
    (simulates : Simulates view solver viewed) {unchecked : Request → Bool}
    {held : List VectorId} {routine : Routine α} (disciplined : Disciplined unchecked held routine)
    (traced : Traced τ) :
    routine σ solver (traced.map view) =
      Outcome.mapState (Traced.map view) (routine τ viewed traced) := by
  induction disciplined generalizing traced with
  | pure result => rfl
  | bind _ _ ihFirst ihNext =>
      exact Outcome.mapState_bind (ihFirst traced) fun result middle _ => ihNext result middle
  | record event => rfl
  | fail own => rfl
  | compute outcome => cases outcome <;> rfl
  | ask free uses => exact simulates.ask _ traced
  | call request named checked uses checks =>
      refine Outcome.mapState_bind (simulates.ask request traced) fun answer middle _ => ?_
      cases refusal : request.isRefusal answer with
      | true =>
          rw [checks.refused answer refusal σ solver, checks.refused answer refusal τ viewed]
          exact simulates.failCall _ middle
      | false =>
          rcases checks.accepted answer refusal with ⟨result, accepts⟩
          rw [accepts σ solver, accepts τ viewed]
          rfl
  | withTermVector _ ih =>
      refine Outcome.mapState_bind (simulates.ask _ traced) fun vector middle _ => ?_
      exact Action.mapState_ensuring (ih vector middle) (simulates.ask _)
  | withNodeVector _ ih =>
      refine Outcome.mapState_bind (simulates.ask _ traced) fun vector middle _ => ?_
      exact Action.mapState_ensuring (ih vector middle) (simulates.ask _)

namespace Client

variable {view : τ → σ} {solver : Solver σ} {viewed : Solver τ}

theorem perform_simulated (client : Client τ) {action : Action σ α} {viewedAction : Action τ α}
    (runs : action (client.traced.map view) =
      Outcome.mapState (Traced.map view) (viewedAction client.traced))
    (keep : α → List Model) :
    (client.map view).perform action keep =
      Outcome.mapState (Client.map view) (client.perform viewedAction keep) := by
  rcases client with ⟨traced, owned⟩
  simp only [Client.map, perform, runs]
  cases viewedAction traced <;> rfl

/-- A client cannot tell a solver from a view of it. -/
theorem run_simulated (simulates : Simulates view solver viewed) (client : Client τ)
    (operation : Operation) :
    run solver (client.map view) operation =
      (run viewed client operation).map (Outcome.mapState (Client.map view)) := by
  rcases client with ⟨traced, owned⟩
  rcases exists_routine owned operation with
    notOwned | ⟨_, routine, before, keep, answer, disciplined, runs⟩
  · rw [notOwned τ viewed traced]
    exact notOwned σ solver (traced.map view)
  · rw [runs τ viewed traced]
    refine (runs σ solver (traced.map view)).trans ?_
    have simulated := perform_simulated ⟨traced, before⟩
      (disciplined.simulated simulates traced) keep
    simp only [Client.map] at simulated
    rw [simulated, Option.map_some]
    cases perform ⟨traced, before⟩ (routine τ viewed) keep <;> rfl

end Client

end SmtModel
