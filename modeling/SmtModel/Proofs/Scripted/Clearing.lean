import SmtModel.Proofs.Scripted.Errors
import SmtModel.Proofs.Scripted.Ownership

/-!
# Who clears the error

An operation that starts without an error ends without one, in whatever way it ends, if
there is room for the nodes that it reads. There is one exception: the collection of
defined terms is not checked, and where it is scripted to fail, its error is left behind
(`SmtModel.Client.run_clears`).

The failure of a call is always reported with the error taken away, whatever happened
before it (`SmtModel.Clears.called`). Everything else that a disciplined routine does
leaves the error alone, if the requests that go unchecked do. The questions about nodes
might not, but those that are asked while a value is read are about nodes that there
are.
-/

namespace SmtModel

open ScriptedSolver

variable {α β : Type}

namespace ScriptedSolver

theorem failCall_error (name : Call) (traced : Traced ScriptedSolver) :
    (Outcome.state (Action.failCall answer name traced : EStateM.Result _ _ α)).state.error =
      .noError := by
  by_cases clear : traced.state.error = .noError
  · rw [failCall_of_noError clear]
    exact clear
  · rw [failCall_of_error clear]
    rfl

theorem ask_state (request : Request) (traced : Traced ScriptedSolver) :
    (Outcome.state (Action.ask answer request traced)).state =
      Outcome.state (answer request traced.state) := by
  cases ran : answer request traced.state with
  | ok reply left => rw [Action.ask_of_ok ran]; rfl
  | error fault left => rw [Action.ask_of_error ran]; rfl

theorem ask_ne_failure {request : Request} {traced left : Traced ScriptedSolver}
    {failure : Failure} : Action.ask answer request traced ≠ .error (.failure failure) left := by
  intro ended
  cases ran : answer request traced.state with
  | ok reply reached => cases (Action.ask_of_ok ran).symm.trans ended
  | error fault reached => cases (Action.ask_of_error ran).symm.trans ended

theorem answer_releaseTermVector_error (vector : VectorId) (solver : ScriptedSolver) :
    (Outcome.state (answer (.releaseTermVector vector) solver)).error = solver.error := by
  simp only [answer, releaseVector, get_bind]
  cases solver.vector? vector <;> rfl

theorem answer_releaseNodeVector_error (vector : VectorId) (solver : ScriptedSolver) :
    (Outcome.state (answer (.releaseNodeVector vector) solver)).error = solver.error := by
  simp only [answer, releaseVector, get_bind]
  cases solver.vector? vector <;> rfl

end ScriptedSolver

/-- A cleanup that leaves the error alone leaves the error of what comes before it. -/
theorem ensuring_error (body : Action ScriptedSolver α) {cleanup : Action ScriptedSolver Unit}
    (keeps : ∀ left, (Outcome.state (cleanup left)).state.error = left.state.error)
    (start : Traced ScriptedSolver) :
    (Outcome.state (Action.ensuring body cleanup start)).state.error =
      (Outcome.state (body start)).state.error := by
  have kept := keeps (Outcome.state (body start))
  unfold Action.ensuring
  cases ran : body start with
  | ok result middle =>
      rw [ran] at kept
      simp only [Outcome.state_ok] at kept ⊢
      cases cleaned : cleanup middle <;> simpa [cleaned] using kept
  | error stop middle =>
      rw [ran] at kept
      simp only [Outcome.state_error] at kept ⊢
      cases stop <;> cases cleaned : cleanup middle <;> simpa [cleaned] using kept

theorem failure_of_ensuring {body : Action ScriptedSolver α}
    {cleanup : Action ScriptedSolver Unit} {start left : Traced ScriptedSolver}
    {failure : Failure}
    (sound : ∀ left failure reached, cleanup left ≠ .error (.failure failure) reached)
    (ended : Action.ensuring body cleanup start = .error (.failure failure) left) :
    ∃ middle, body start = .error (.failure failure) middle := by
  unfold Action.ensuring at ended
  cases ran : body start with
  | ok result middle =>
      cases cleaned : cleanup middle with
      | ok => simp [ran, cleaned] at ended
      | error stop reached =>
          simp only [ran, cleaned, EStateM.Result.error.injEq] at ended
          rw [ended.1] at cleaned
          exact (sound _ _ _ cleaned).elim
  | error stop middle =>
      cases stop with
      | fault fault => cases cleaned : cleanup middle <;> simp [ran, cleaned] at ended
      | failure first =>
          cases cleaned : cleanup middle with
          | ok _ reached =>
              simp only [ran, cleaned, EStateM.Result.error.injEq, Stop.failure.injEq] at ended
              exact ⟨middle, by rw [ended.1]⟩
          | error stop reached =>
              simp only [ran, cleaned, EStateM.Result.error.injEq] at ended
              rw [ended.1] at cleaned
              exact (sound _ _ _ cleaned).elim

theorem withTermVector_error (body : VectorId → Action ScriptedSolver α)
    (start : Traced ScriptedSolver) :
    (Outcome.state (Action.withTermVector answer body start)).state.error =
      (Outcome.state (body start.state.nextVector
        (start.map (·.withNextVector (.terms []) .withTermsMade)))).state.error := by
  unfold Action.withTermVector
  rw [Outcome.bind_of_ok (Action.ask_of_ok (answer_newTermVector start.state)), ensuring_error]
  · rfl
  · intro left
    rw [ask_state]
    exact answer_releaseTermVector_error _ left.state

/-- An ending of what started in a state: failures of calls leave no error, and if there was none
and the unchecked requests are quiet, there is none in any case. -/
structure Clears (quiet : Prop) (start : Traced ScriptedSolver)
    (ending : EStateM.Result Stop (Traced ScriptedSolver) α) : Prop where
  called : ∀ failure left, ending = .error (.failure failure) left → ¬ failure.IsOwn →
    left.state.error = .noError
  kept : quiet → start.state.error = .noError → (Outcome.state ending).state.error = .noError

namespace Clears

variable {quiet : Prop} {start : Traced ScriptedSolver}

theorem of_ok {result : α} {left : Traced ScriptedSolver}
    (same : quiet → left.state.error = start.state.error) : Clears quiet start (.ok result left) :=
  ⟨nofun, fun isQuiet clear => (same isQuiet).trans clear⟩

theorem of_fault {fault : Fault} {left : Traced ScriptedSolver}
    (same : quiet → left.state.error = start.state.error) :
    Clears quiet start
      (.error (.fault fault) left : EStateM.Result Stop (Traced ScriptedSolver) α) :=
  ⟨nofun, fun isQuiet clear => (same isQuiet).trans clear⟩

theorem of_own {failure : Failure} (own : failure.IsOwn) :
    Clears quiet start
      (.error (.failure failure) start : EStateM.Result Stop (Traced ScriptedSolver) α) := by
  refine ⟨fun _ _ ended notOwn => ?_, fun _ clear => clear⟩
  cases ended
  exact absurd own notOwn

theorem of_failCall (name : Call) (traced : Traced ScriptedSolver) :
    Clears quiet start
      (Action.failCall answer name traced : EStateM.Result Stop (Traced ScriptedSolver) α) := by
  refine ⟨fun failure left ended _ => ?_, fun _ _ => failCall_error name traced⟩
  have cleared := failCall_error (α := α) name traced
  rw [ended] at cleared
  exact cleared

theorem bind {first : Action ScriptedSolver β} {next : β → Action ScriptedSolver α}
    (before : Clears quiet start (first start))
    (after : ∀ result middle, first start = .ok result middle →
      Clears quiet middle (next result middle)) :
    Clears quiet start ((first >>= next) start) := by
  cases ran : first start with
  | ok result middle =>
      rw [ran] at before
      rw [Outcome.bind_of_ok ran]
      have after := after result middle ran
      exact ⟨after.called, fun isQuiet clear => after.kept isQuiet (before.kept isQuiet clear)⟩
  | error stop left =>
      rw [ran] at before
      rw [Outcome.bind_of_error ran]
      refine ⟨fun failure left' ended => ?_, before.kept⟩
      cases ended
      exact before.called failure _ rfl

theorem ask {request : Request} (same : quiet →
      (Outcome.state (answer request start.state)).error = start.state.error) :
    Clears quiet start (Action.ask answer request start) := by
  cases ran : answer request start.state with
  | ok result left =>
      rw [ran] at same
      rw [Action.ask_of_ok ran]
      exact .of_ok same
  | error fault left =>
      rw [ran] at same
      rw [Action.ask_of_error ran]
      exact .of_fault same

/-- A call that is checked. -/
theorem call {name : Call} {request : Request} {check : request.Answer → Routine α}
    (named : request.call? = some name) (checked : request.isUnchecked = false)
    (checks : Checks name request.isRefusal check) :
    Clears quiet start
      ((Action.ask answer request >>= fun answered => check answered _ answer) start) := by
  have candid := answer_candid named checked start.state
  cases ran : answer request start.state with
  | error fault left =>
      rw [Outcome.bind_of_error (Action.ask_of_error ran)]
      exact .of_fault fun _ => (candid.faulted ran).1
  | ok reply left =>
      rw [Outcome.bind_of_ok (Action.ask_of_ok ran)]
      cases isRefused : request.isRefusal reply with
      | true =>
          rw [checks.refused reply isRefused]
          exact .of_failCall name _
      | false =>
          rcases checks.accepted reply isRefused with ⟨result, accepts⟩
          rw [accepts]
          exact .of_ok fun _ => (candid.accepted ran isRefused).1

/-- A cleanup that leaves the error alone, and ends in no failure. -/
theorem ensuring {body : Action ScriptedSolver α} {cleanup : Action ScriptedSolver Unit}
    (inside : Clears quiet start (body start))
    (keeps : ∀ left, (Outcome.state (cleanup left)).state.error = left.state.error)
    (sound : ∀ left failure reached, cleanup left ≠ .error (.failure failure) reached) :
    Clears quiet start (Action.ensuring body cleanup start) := by
  have same := ensuring_error body keeps start
  refine ⟨fun failure left ended notOwn => ?_, fun isQuiet clear => ?_⟩
  · rcases failure_of_ensuring sound ended with ⟨middle, last⟩
    rw [ended, last] at same
    exact same.trans (inside.called failure middle last notOwn)
  · exact same.trans (inside.kept isQuiet clear)

theorem withTermVector {body : VectorId → Action ScriptedSolver α}
    (inside : ∀ vector opened, Clears quiet opened (body vector opened)) :
    Clears quiet start (Action.withTermVector answer body start) := by
  unfold Action.withTermVector
  refine bind (ask fun _ => rfl) fun vector opened _ => ?_
  refine (inside vector opened).ensuring (fun left => ?_) fun left failure reached ended => ?_
  · rw [ask_state]
    exact answer_releaseTermVector_error vector left.state
  · exact ask_ne_failure ended

theorem withNodeVector {body : VectorId → Action ScriptedSolver α}
    (inside : ∀ vector opened, Clears quiet opened (body vector opened)) :
    Clears quiet start (Action.withNodeVector answer body start) := by
  unfold Action.withNodeVector
  refine bind (ask fun _ => rfl) fun vector opened _ => ?_
  refine (inside vector opened).ensuring (fun left => ?_) fun left failure reached ended => ?_
  · rw [ask_state]
    exact answer_releaseNodeVector_error vector left.state
  · exact ask_ne_failure ended

end Clears

/-- A disciplined routine clears the errors of the calls that fail in it. -/
theorem Disciplined.clears {unchecked : Request → Bool} {held : List VectorId}
    {routine : Routine α} (disciplined : Disciplined unchecked held routine)
    (start : Traced ScriptedSolver) :
    Clears (Quiet unchecked) start (routine _ answer start) := by
  induction disciplined generalizing start with
  | pure result => exact .of_ok fun _ => rfl
  | bind _ _ ihFirst ihNext =>
      exact .bind (ihFirst start) fun result middle _ => ihNext result middle
  | record event => exact .of_ok fun _ => rfl
  | fail own => exact .of_own own
  | compute outcome =>
      cases outcome with
      | ok result => exact .of_ok fun _ => rfl
      | error division => exact .of_fault fun _ => rfl
  | ask free uses => exact .ask fun quiet => quiet _ free start.state
  | call request named checked uses checks => exact .call named checked checks
  | withTermVector _ ih => exact .withTermVector ih
  | withNodeVector _ ih => exact .withNodeVector ih

/-! ## Operations -/

/-- A stop either is the failure of a call, or has to leave the error alone. -/
theorem Clears.of_stop {quiet : Prop} {start left : Traced ScriptedSolver} {stop : Stop}
    (clears : Clears quiet start
      (.error stop left : EStateM.Result Stop (Traced ScriptedSolver) α))
    (kept : stop.IsOwn → left.state.error = start.state.error)
    (clear : start.state.error = .noError) : left.state.error = .noError := by
  cases stop with
  | fault fault => exact (kept trivial).trans clear
  | failure failure =>
      by_cases own : failure.IsOwn
      · exact (kept own).trans clear
      · exact clears.called failure left rfl own

/-- The reading of a value leaves no error behind, if there is room for the nodes. -/
theorem Model.read_clears {model : Model} {term : TermId} {start : Traced ScriptedSolver}
    (clear : start.state.error = .noError)
    (room : (Outcome.state (model.read answer term start)).state.HasRoom model.id) :
    (Outcome.state (model.read answer term start)).state.error = .noError := by
  have disciplined : Disciplined _ [] (fun _ solver => model.read solver term) :=
    model.ask_disciplined (.value term)
  have clears : Clears _ start (model.read answer term start) := disciplined.clears start
  cases assigned : start.state.value? model.id term with
  | none =>
      rcases read_of_value?_eq_none assigned with ⟨stop, left, ended, kept⟩
      rw [ended] at clears ⊢
      exact clears.of_stop (fun own => (kept own).1) clear
  | some value =>
      have agrees := (read_follows assigned).agrees room
      generalize model.read answer term start = ending at clears agrees
      generalize value.evaluate model.limit model.limit.levels start.state.lexicon = evaluated
        at agrees
      cases agrees with
      | ok left error => exact error.trans clear
      | stopped _ kept => exact clears.of_stop (fun own => (kept own).1) clear
      | scripted => exact clears.called _ _ rfl nofun

/-! ## The collection of defined terms -/

theorem ScriptedSolver.listing_error (model : ModelId) {solver : ScriptedSolver}
    (clear : solver.error = .noError) :
    (Outcome.state (attempt .definedTerms [] (do
      return (← liveModel model).assignment.map (·.1)) solver)).error =
      if .definedTerms ∈ solver.failing then .internalException else .noError := by
  by_cases scripted : .definedTerms ∈ solver.failing
  · rw [if_pos scripted, attempt_of_mem scripted]
    rfl
  · rw [if_neg scripted, attempt_of_not_mem scripted]
    cases found : (withCall .definedTerms solver).model? model with
    | none =>
        rw [Outcome.bind_of_error (liveModel_of_none found)]
        exact clear
    | some live =>
        rw [Outcome.bind_of_ok (liveModel_of_some found)]
        exact clear

theorem ScriptedSolver.answer_definedTerms_error (model : ModelId) {vector : VectorId}
    {solver : ScriptedSolver} (live : solver.IsLive vector) (clear : solver.error = .noError) :
    (Outcome.state (answer (.definedTerms model vector) solver)).error =
      if .definedTerms ∈ solver.failing then .internalException else .noError := by
  have listed := listing_error model clear
  simp only [answer]
  rw [definedTerms, checked_eq live]
  cases ran : attempt .definedTerms [] (do return (← liveModel model).assignment.map (·.1))
      solver with
  | error fault left =>
      rw [ran] at listed
      rw [Outcome.bind_of_error ran]
      exact listed
  | ok terms middle =>
      rw [ran] at listed
      rw [Outcome.bind_of_ok ran]
      exact listed

/-- The collection of defined terms leaves the error of its scripted failure behind, and no
other. -/
theorem Model.ask_definedTerms_error {model : Model} {start : Traced ScriptedSolver}
    (clear : start.state.error = .noError) :
    (Outcome.state (model.ask answer .definedTerms start)).state.error =
      if .definedTerms ∈ start.state.failing then .internalException else .noError := by
  let opened := start.map (·.withNextVector (.terms []) .withTermsMade)
  have live : opened.state.IsLive start.state.nextVector := isLive_withNextVector.mpr (Or.inl rfl)
  have collected := answer_definedTerms_error model.id live clear
  simp only [ask]
  rw [withTermVector_error]
  cases asked : answer (.definedTerms model.id start.state.nextVector) opened.state with
  | error fault left =>
      rw [asked] at collected
      rw [Outcome.bind_of_error (Action.ask_of_error asked)]
      exact collected
  | ok _ left =>
      rw [asked] at collected
      rw [Outcome.bind_of_ok (Action.ask_of_ok asked)]
      exact collected

/-! ## Operations -/

/-- Services without a failure set no error. -/
theorem Service.perform_clears {service : Service} (sure : service.canFail = false)
    {start : Traced ScriptedSolver} (clear : start.state.error = .noError) :
    (Outcome.state (service.perform answer start)).state.error = .noError := by
  cases service <;> try cases sure
  case reset | clearError => rfl
  all_goals exact clear

namespace Client

/-- Whether an operation collects defined terms, where this call is scripted to fail. -/
def CollectsInVain (client : Client ScriptedSolver) (operation : Operation) : Prop :=
  (∃ id, operation = .query id .definedTerms) ∧ .definedTerms ∈ client.traced.state.failing

theorem state_perform (action : Action ScriptedSolver α) (keep : α → List Model)
    (client : Client ScriptedSolver) :
    (Outcome.state (client.perform action keep)).traced =
      Outcome.state (action client.traced) := by
  rcases client with ⟨traced, owned⟩
  simp only [perform]
  cases action traced <;> rfl

variable {client : Client ScriptedSolver} {operation : Operation}
  {ending : Ending ScriptedSolver operation.Answer}

/-- What is no query about values or defined terms leaves no error behind. -/
theorem run_clears_of_quiet (clear : client.traced.state.error = .noError)
    (ran : run answer client operation = some ending) (quiet : Quiet operation.asks) :
    (Outcome.state ending).traced.state.error = .noError := by
  rcases client with ⟨traced, owned⟩
  rcases exists_routine_asks owned operation with
    notOwned | ⟨_, routine, before, keep, result, disciplined, runs⟩
  · cases (notOwned _ _ traced).symm.trans ran
  · cases (runs _ _ traced).symm.trans ran
    have clears := (disciplined.clears traced).kept quiet clear
    rw [← state_perform _ keep ⟨traced, before⟩] at clears
    revert clears
    generalize perform ⟨traced, before⟩ (routine _ answer) keep = last
    intro clears
    cases last <;> exact clears

theorem run_query {id : ModelId} {query : Query} {ending : Ending ScriptedSolver query.Answer}
    (ran : run answer client (.query id query) = some ending) :
    ∃ model, client.find? id = some model ∧ model.id = id ∧
      (Outcome.state ending).traced =
        Outcome.state (model.ask answer query client.traced) := by
  cases found : client.find? id with
  | none => simp [run, found] at ran
  | some model =>
      simp only [run, found, Option.bind_eq_bind, Option.bind_some, Option.pure_def,
        Option.some.injEq] at ran
      refine ⟨model, rfl, client.id_of_find? found, ?_⟩
      rw [← ran]
      exact client.state_perform _ _

theorem run_value_clears {id : ModelId} {term : TermId} {ending : Ending ScriptedSolver Value}
    (clear : client.traced.state.error = .noError)
    (ran : run answer client (.query id (.value term)) = some ending)
    (room : (Outcome.state ending).traced.state.HasRoom id) :
    (Outcome.state ending).traced.state.error = .noError := by
  rcases run_query ran with ⟨model, -, rfl, left⟩
  rw [left] at room ⊢
  exact Model.read_clears clear room

theorem run_dispose_clears {id : ModelId} {ending : Ending ScriptedSolver Unit}
    (clear : client.traced.state.error = .noError)
    (ran : run answer client (.dispose id) = some ending) :
    (Outcome.state ending).traced.state.error = .noError := by
  cases found : client.find? id with
  | none => simp [run, found] at ran
  | some model =>
      rw [client.run_dispose found] at ran
      cases lives : client.traced.state.model? id with
      | none =>
          rw [freeModel_of_none lives] at ran
          cases ran
          exact clear
      | some live =>
          rw [freeModel_of_some lives] at ran
          cases ran
          exact clear

theorem run_definedTerms_error {id : ModelId} {ending : Ending ScriptedSolver (List TermId)}
    (clear : client.traced.state.error = .noError)
    (ran : run answer client (.query id .definedTerms) = some ending) :
    (Outcome.state ending).traced.state.error =
      if .definedTerms ∈ client.traced.state.failing then .internalException else .noError := by
  rcases run_query ran with ⟨model, -, -, left⟩
  rw [left]
  exact Model.ask_definedTerms_error clear

/-- What does not collect defined terms leaves no error behind. -/
theorem run_clears_of_ne (clear : client.traced.state.error = .noError)
    (ran : run answer client operation = some ending)
    (room : ∀ id term, operation = .query id (.value term) →
      (Outcome.state ending).traced.state.HasRoom id)
    (other : ∀ id, operation ≠ .query id .definedTerms) :
    (Outcome.state ending).traced.state.error = .noError := by
  cases fallible : operation.canFail with
  | true =>
      by_cases reading : ∃ id term, operation = .query id (.value term)
      · rcases reading with ⟨id, term, rfl⟩
        exact run_value_clears clear ran (room id term rfl)
      · refine run_clears_of_quiet clear ran (Operation.quiet_asks fallible fun id term same => ?_)
        exact reading ⟨id, term, same⟩
  | false =>
      cases operation with
      | service service =>
          cases ran
          rw [client.state_perform]
          exact Service.perform_clears fallible clear
      | query id query =>
          cases query <;> try cases fallible
          exact absurd rfl (other id)
      | dispose id => exact run_dispose_clears clear ran
      | modelOfContext | modelOfPairs | limitDepth => cases fallible

/-- An operation that starts without an error ends without one, whatever it ends in, but for the
error of a failed collection of defined terms. For the reading of a value, there has to be
room for the nodes. -/
theorem run_clears (clear : client.traced.state.error = .noError)
    (ran : run answer client operation = some ending)
    (room : ∀ id term, operation = .query id (.value term) →
      (Outcome.state ending).traced.state.HasRoom id) :
    (¬ client.CollectsInVain operation →
      (Outcome.state ending).traced.state.error = .noError) ∧
    (client.CollectsInVain operation →
      (Outcome.state ending).traced.state.error = .internalException) := by
  by_cases collecting : ∃ id, operation = .query id .definedTerms
  · rcases collecting with ⟨id, rfl⟩
    rw [run_definedTerms_error clear ran]
    constructor
    · intro notVain
      exact if_neg fun scripted => notVain ⟨⟨id, rfl⟩, scripted⟩
    · intro vain
      exact if_pos vain.2
  · have notVain : ¬ client.CollectsInVain operation := fun vain => collecting vain.1
    refine ⟨fun _ => ?_, fun vain => absurd vain notVain⟩
    exact run_clears_of_ne clear ran room fun id same => collecting ⟨id, same⟩

/-- A client of a solver in which the constant of an element cannot be made. -/
def withoutConstants : Client ScriptedSolver :=
  session [.script (.declareType (.enumeration 2)), .script (.declareVariable ⟨0⟩),
    .script (.satisfiable [(⟨0⟩, .scalar ⟨0⟩ 1)]), .operate (.modelOfContext ⟨0⟩ false),
    .script (.failOn "yices_constant")]

/-- The failure to name an element is reported, and nothing is left of it. -/
theorem run_clears_withoutConstants :
    ∃ report left, run answer withoutConstants (.query ⟨0⟩ (.value ⟨0⟩)) =
        some (.error (.failure (.call "yices_constant" report)) left) ∧
      report.code = .internalException ∧ left.traced.state.error = .noError := by
  have runs : ∃ report left, run answer withoutConstants (.query ⟨0⟩ (.value ⟨0⟩)) =
        some (.error (.failure (.call "yices_constant" report)) left) ∧
      report.code = .internalException ∧ left.traced.state.sizes = (1, some 1) := by
    with_unfolding_all exact ⟨_, _, rfl, rfl, rfl⟩
  rcases runs with ⟨report, left, ran, code, sized⟩
  have notVain : ¬ withoutConstants.CollectsInVain (.query ⟨0⟩ (.value ⟨0⟩)) := by
    simp [CollectsInVain]
  have room : ∀ id term, (.query ⟨0⟩ (.value ⟨0⟩) : Operation) = .query id (.value term) →
      left.traced.state.HasRoom id := by
    rintro id term ⟨⟩
    exact hasRoom_of_sizes sized (by decide) (by decide)
  exact ⟨report, left, ran, code, (run_clears rfl ran room).1 notVain⟩

/-- A client of a model without values, the defined terms of which cannot be collected. -/
def withoutCollection : Client ScriptedSolver :=
  session [.script (.satisfiable []), .operate (.modelOfContext ⟨0⟩ false),
    .script (.failOn "yices_model_collect_defined_terms")]

/-- The collection answers as if all was well, and leaves an error. -/
theorem collection_leaves_error :
    withoutCollection.traced.state.error = .noError ∧
      (withoutCollection.traced.state.model? ⟨0⟩).isSome = true ∧
      ∃ left, run answer withoutCollection (.query ⟨0⟩ .definedTerms) = some (.ok [] left) ∧
        left.traced.state.error = .internalException := by
  with_unfolding_all exact ⟨rfl, rfl, _, rfl, rfl⟩

end Client

end SmtModel
