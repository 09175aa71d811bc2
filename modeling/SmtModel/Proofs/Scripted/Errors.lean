import SmtModel.Proofs.Scripted.Agreement
import SmtModel.Proofs.Scripted.Ledger
import SmtModel.Proofs.Scripted.Persistence

/-!
# Errors at the boundary

The solver keeps one error, and a client should see of it what its own call has set. An
operation of a session that can fail leaves the error as it was, unless it ends in the
failure of a call. That failure reports the error which the call set, as it would have
set it where there was no error before, and afterwards there is none
(`SmtModel.Client.session_errors`).

A call that complains about no term leaves the term of the last complaint in place, so
all this rests on the invariant that no operation leaves an error about a term
(`SmtModel.Client.session_noErrorTerm`). The runs are recorded, so that the call that
failed can be pointed out among the exchanges with the solver. That nothing is left of
the questions about nodes while a value is read, `SmtModel.Model.read_follows` has
shown.
-/

namespace SmtModel

open ScriptedSolver

variable {α β : Type}

namespace ScriptedSolver

/-! ## Errors of single answers -/

/-- The terms are never forgotten, not even by a reset. -/
theorem answer_terms_le (request : Request) (solver : ScriptedSolver) :
    solver.terms.size ≤ (Outcome.state (answer request solver)).terms.size := by
  by_cases resets : request = .reset
  · subst resets
    exact Nat.le_refl _
  have spares : ∃ id, request ≠ .freeModel id := by
    by_cases first : request = .freeModel ⟨0⟩
    · exact ⟨⟨1⟩, by simp [first]⟩
    · exact ⟨⟨0⟩, first⟩
  rcases spares with ⟨id, notFreed⟩
  have remembers := answer_remembers resets notFreed solver
  simpa using remembers.terms.length_le

theorem definedTerms_errorTerm? (model : ModelId) (vector : VectorId) (solver : ScriptedSolver) :
    (Outcome.state (answer (.definedTerms model vector) solver)).errorTerm? =
      solver.errorTerm? := by
  have notQuestion : (Request.definedTerms model vector).isQuestion = false := rfl
  rcases live_or_released notQuestion solver with live | ⟨released, faulted⟩
  · have live : solver.IsLive vector := live vector (by simp [Request.vector?])
    simp only [answer]
    rw [definedTerms, checked_eq live]
    refine Outcome.related_bind
      (fun earlier later : ScriptedSolver => later.errorTerm? = earlier.errorTerm?)
      (fun before after => after.trans before) ?_ fun _ _ _ => rfl
    by_cases scripted : .definedTerms ∈ solver.failing
    · rw [attempt_of_mem scripted]
      rfl
    · rw [attempt_of_not_mem scripted]
      cases found : (withCall .definedTerms solver).model? model with
      | none =>
          rw [Outcome.bind_of_error (liveModel_of_none found)]
          rfl
      | some live =>
          rw [Outcome.bind_of_ok (liveModel_of_some found)]
          rfl
  · rw [faulted]
    rfl

/-- The requests that the library makes without a check complain about no term. -/
theorem answer_unchecked_errorTerm? {request : Request} (unchecked : request.isUnchecked = true)
    {solver : ScriptedSolver} (noTerm : solver.errorTerm? = none) :
    (Outcome.state (answer request solver)).errorTerm? = none := by
  cases request <;> try cases unchecked
  case startUp | shutDown | isRunning | errorCode | errorReport | errorText => exact noTerm
  case reset | clearError => rfl
  case freeModel model =>
    simp only [answer]
    cases found : solver.model? model with
    | none =>
        rw [freeModel_of_none found]
        exact noTerm
    | some live =>
        rw [freeModel_of_some found]
        exact noTerm
  case definedTerms model vector => exact (definedTerms_errorTerm? model vector solver).trans noTerm
  all_goals exact (answer_question_errorTerm? rfl solver).trans noTerm

/-- What an answer does to the error: a refusal sets one of its own, whatever there was, and any
other answer leaves it alone, and so does a fault. -/
structure Candid (refusal : α → Bool) (step : Step α) (solver : ScriptedSolver) : Prop where
  faulted : ∀ {fault left}, step solver = .error fault left →
    left.error = solver.error ∧ left.errorTerm? = solver.errorTerm?
  accepted : ∀ {answer left}, step solver = .ok answer left → refusal answer = false →
    left.error = solver.error ∧ left.errorTerm? = solver.errorTerm?
  refused : ∀ {answer left}, step solver = .ok answer left → refusal answer = true →
    left.terms.size ≤ 0x80000000 →
      left.error ≠ .noError ∧ ∀ error, step (solver.withErrorCode error) = .ok answer left

theorem answer_printError_candid {request : Request} (named : request.call? = some .printError)
    (solver : ScriptedSolver) : Candid request.isRefusal (answer request) solver := by
  cases request <;> cases named
  case printError descriptor =>
    have runs solver : answer (.printError descriptor) solver = _ :=
      printError_run descriptor solver
    by_cases standard : descriptor = 1 ∨ descriptor = 2
    · simp only [standard, if_true] at runs
      refine ⟨fun ended => ?_, fun ended accepted => ?_, fun ended refused => ?_⟩
      · cases (runs solver).symm.trans ended
      · cases (runs solver).symm.trans ended
        exact ⟨rfl, rfl⟩
      · cases (runs solver).symm.trans ended
        cases refused
    · simp only [standard, if_false] at runs
      refine ⟨fun ended => ?_, fun ended accepted => ?_, fun ended refused _ => ?_⟩
      · cases (runs solver).symm.trans ended
      · cases (runs solver).symm.trans ended
        cases accepted
      · cases (runs solver).symm.trans ended
        refine ⟨?_, fun error => runs _⟩
        simp [withErrorCode, ErrorCode.outputError, ErrorCode.noError]

theorem answer_candid {request : Request} {name : Call} (named : request.call? = some name)
    (checked : request.isUnchecked = false) (solver : ScriptedSolver) :
    Candid request.isRefusal (answer request) solver := by
  have notQuestion : request.isQuestion = false := by
    cases question : request.isQuestion with
    | false => rfl
    | true => exact absurd (request.isUnchecked_of_isQuestion question) (by simp [checked])
  rcases live_or_released notQuestion solver with live | ⟨vector, released⟩
  · by_cases counted : name = .printError
    · subst counted
      exact answer_printError_candid named solver
    · have attempts := answer_attempts named checked counted
      exact ⟨attempts.faulted live, attempts.honest live, attempts.refused live⟩
  · refine ⟨fun faulted => ?_, fun answered => ?_, fun answered => ?_⟩
    · cases released.symm.trans faulted
      exact ⟨rfl, rfl⟩
    · cases released.symm.trans answered
    · cases released.symm.trans answered

end ScriptedSolver

/-! ## Failed calls on the record -/

/-- A call that was refused in a recorded run, with the vectors released after it. -/
structure FailedCall where
  call : Call
  /-- The state in which the call was made. -/
  before : Recorded ScriptedSolver
  request : Request
  reply : request.Answer
  /-- The state that the call left. -/
  after : ScriptedSolver
  releases : List (Exchange ScriptedSolver)

namespace FailedCall

/-- The failure as it is reported. -/
def failure (failed : FailedCall) : Failure := .call failed.call.name failed.after.report

/-- The call is followed by the report of its error and the clearing of it. After that, vectors are
released. -/
def exchanges (failed : FailedCall) : List (Exchange ScriptedSolver) :=
  failed.releases ++ ⟨.clearError, .ok () failed.after.withoutError⟩ ::
    ⟨.errorReport, .ok failed.after.report failed.after⟩ ::
      ⟨failed.request, .ok failed.reply failed.after⟩ :: failed.before.exchanges

/-- The call was refused on the way from one state to another. The error that it set is its own: it
sets the same one where there was none before. -/
structure Between (failed : FailedCall) (start left : Recorded ScriptedSolver) : Prop where
  later : start.Later failed.before
  named : failed.request.call? = some failed.call
  refused : failed.request.isRefusal failed.reply = true
  answered : answer failed.request failed.before.state = .ok failed.reply failed.after
  own : answer failed.request failed.before.state.withoutError = .ok failed.reply failed.after
  set : failed.after.error ≠ .noError
  releases : ∀ exchange ∈ failed.releases, exchange.released?.isSome = true
  exchanges : left.exchanges = failed.exchanges

end FailedCall

/-- Requests that leave the error as it is. -/
def Quiet (requests : Request → Bool) : Prop :=
  ∀ request, requests request = true → ∀ solver : ScriptedSolver,
    (Outcome.state (answer request solver)).error = solver.error

/-- What an ending leaves of the error: what there was, as long as the unchecked requests are quiet,
or none, if a call failed. It is never about a term. -/
inductive Settled (unchecked : Request → Bool) (start : Recorded ScriptedSolver) :
    EStateM.Result Stop (Recorded ScriptedSolver) α → Prop where
  | ok {result : α} {left : Recorded ScriptedSolver}
      (same : Quiet unchecked → left.state.error = start.state.error)
      (noTerm : left.state.errorTerm? = none) : Settled unchecked start (.ok result left)
  | own {failure : Failure} {left : Recorded ScriptedSolver} (own : failure.IsOwn)
      (same : Quiet unchecked → left.state.error = start.state.error)
      (noTerm : left.state.errorTerm? = none) :
      Settled unchecked start (.error (.failure failure) left)
  | call {left : Recorded ScriptedSolver} (failed : FailedCall)
      (between : failed.Between start left) (cleared : left.state.error = .noError)
      (noTerm : left.state.errorTerm? = none) :
      Settled unchecked start (.error (.failure failed.failure) left)
  | fault {fault : Fault} {left : Recorded ScriptedSolver}
      (noTerm : left.state.errorTerm? = none) :
      Settled unchecked start (.error (.fault fault) left)

/-- An ending of exchanges from `start` on. If the error was about no term, and there is room for
the terms, it is settled. -/
structure Settles (unchecked : Request → Bool) (start : Recorded ScriptedSolver)
    (ending : EStateM.Result Stop (Recorded ScriptedSolver) α) : Prop where
  grows : start.state.terms.size ≤ (Outcome.state ending).state.terms.size
  later : start.Later (Outcome.state ending)
  settled : start.state.errorTerm? = none →
    (Outcome.state ending).state.terms.size ≤ 0x80000000 → Settled unchecked start ending

namespace Settled

variable {unchecked : Request → Bool} {start middle : Recorded ScriptedSolver}
  {ending : EStateM.Result Stop (Recorded ScriptedSolver) α}

theorem noTerm (settled : Settled unchecked start ending) :
    (Outcome.state ending).state.errorTerm? = none := by
  cases settled with
  | ok same noTerm | own own same noTerm | call failed between cleared noTerm | fault noTerm =>
      exact noTerm

theorem of_later (settled : Settled unchecked middle ending) (later : start.Later middle)
    (same : Quiet unchecked → middle.state.error = start.state.error) :
    Settled unchecked start ending := by
  cases settled with
  | ok sameAfter noTerm => exact .ok (fun quiet => (sameAfter quiet).trans (same quiet)) noTerm
  | own own sameAfter noTerm =>
      exact .own own (fun quiet => (sameAfter quiet).trans (same quiet)) noTerm
  | call failed between cleared noTerm =>
      exact .call failed { between with later := later.trans between.later } cleared noTerm
  | fault noTerm => exact .fault noTerm

end Settled

namespace Settles

variable {unchecked : Request → Bool} {traced : Traced (Recorded ScriptedSolver)}

theorem bind {first : Action (Recorded ScriptedSolver) β}
    {next : β → Action (Recorded ScriptedSolver) α}
    (before : Settles unchecked traced.state (Outcome.mapState Traced.state (first traced)))
    (after : ∀ result middle, first traced = .ok result middle →
      Settles unchecked middle.state (Outcome.mapState Traced.state (next result middle))) :
    Settles unchecked traced.state (Outcome.mapState Traced.state ((first >>= next) traced)) := by
  cases ran : first traced with
  | ok result middle =>
      rw [ran] at before
      rw [Outcome.bind_of_ok ran]
      have after := after result middle ran
      refine ⟨Nat.le_trans before.grows after.grows, before.later.trans after.later, ?_⟩
      intro noTerm room
      cases before.settled noTerm (Nat.le_trans after.grows room) with
      | ok same noTerm => exact (after.settled noTerm room).of_later before.later same
  | error stop middle =>
      rw [ran] at before
      rw [Outcome.bind_of_error ran]
      refine ⟨before.grows, before.later, ?_⟩
      intro noTerm room
      cases before.settled noTerm room with
      | own own same noTerm => exact .own own same noTerm
      | call failed between cleared noTerm => exact .call failed between cleared noTerm
      | fault noTerm => exact .fault noTerm

theorem of_ok (result : α) (start : Recorded ScriptedSolver) :
    Settles unchecked start (.ok result start) := by
  refine ⟨Nat.le_refl _, .refl, ?_⟩
  intro noTerm _
  exact .ok (fun _ => rfl) noTerm

theorem of_own {failure : Failure} (own : failure.IsOwn) (start : Recorded ScriptedSolver) :
    Settles unchecked start (.error (.failure failure) start :
      EStateM.Result Stop (Recorded ScriptedSolver) α) := by
  refine ⟨Nat.le_refl _, .refl, ?_⟩
  intro noTerm _
  exact .own own (fun _ => rfl) noTerm

theorem of_fault (fault : Fault) (start : Recorded ScriptedSolver) :
    Settles unchecked start (.error (.fault fault) start :
      EStateM.Result Stop (Recorded ScriptedSolver) α) := by
  refine ⟨Nat.le_refl _, .refl, ?_⟩
  intro noTerm _
  exact .fault noTerm

/-- Asking without a check. -/
theorem ask {request : Request} (known : request.isUnchecked = true)
    (free : unchecked request = true) :
    Settles unchecked traced.state
      (Outcome.mapState Traced.state (Action.ask (Recorded.answer answer) request traced)) := by
  have grows := answer_terms_le request traced.state.state
  have later := Recorded.later_answer answer request traced.state
  have noTermAfter (noTerm : traced.state.state.errorTerm? = none) :=
    answer_unchecked_errorTerm? known noTerm
  have same (quiet : Quiet unchecked) := quiet request free traced.state.state
  cases ran : answer request traced.state.state with
  | ok result left =>
      rw [ran] at grows noTermAfter same
      rw [Recorded.answer_of_ok ran] at later
      rw [Action.ask_of_ok (Recorded.answer_of_ok ran)]
      exact ⟨grows, later, fun noTerm _ => .ok same (noTermAfter noTerm)⟩
  | error fault left =>
      rw [ran] at grows noTermAfter
      rw [Recorded.answer_of_error ran] at later
      rw [Action.ask_of_error (Recorded.answer_of_error ran)]
      exact ⟨grows, later, fun noTerm _ => .fault (noTermAfter noTerm)⟩

end Settles

/-! ## Checked calls -/

namespace Recorded

variable {traced : Traced (Recorded ScriptedSolver)}

/-- The failure of a call, which is reported and cleared on the record. -/
theorem failCall_of_error (set : traced.state.state.error ≠ .noError) (name : Call) :
    Outcome.mapState Traced.state
        (Action.failCall (answer ScriptedSolver.answer) name traced : EStateM.Result _ _ α) =
      .error (.failure (.call name.name traced.state.state.report))
        ⟨traced.state.state.withoutError, ⟨.clearError, .ok () traced.state.state.withoutError⟩ ::
          ⟨.errorReport, .ok traced.state.state.report traced.state.state⟩ ::
            traced.state.exchanges⟩ := by
  have reported : answer ScriptedSolver.answer .errorReport traced.state =
      .ok traced.state.state.report ⟨traced.state.state,
        ⟨.errorReport, .ok traced.state.state.report traced.state.state⟩ ::
          traced.state.exchanges⟩ := rfl
  have set : traced.state.state.report.code ≠ .noError := set
  unfold Action.failCall
  rw [Outcome.bind_of_ok (Action.ask_of_ok reported), if_neg set]
  rfl

theorem failCall_of_noError (clear : traced.state.state.error = .noError) (name : Call) :
    Outcome.mapState Traced.state
        (Action.failCall (answer ScriptedSolver.answer) name traced : EStateM.Result _ _ α) =
      .error (.failure (.internal (.unreported name.name)))
        ⟨traced.state.state, ⟨.errorReport, .ok traced.state.state.report traced.state.state⟩ ::
          traced.state.exchanges⟩ := by
  have reported : answer ScriptedSolver.answer .errorReport traced.state =
      .ok traced.state.state.report ⟨traced.state.state,
        ⟨.errorReport, .ok traced.state.state.report traced.state.state⟩ ::
          traced.state.exchanges⟩ := rfl
  have clear : traced.state.state.report.code = .noError := clear
  unfold Action.failCall
  rw [Outcome.bind_of_ok (Action.ask_of_ok reported), if_pos clear]
  rfl

end Recorded

namespace Settles

variable {unchecked : Request → Bool} {traced : Traced (Recorded ScriptedSolver)}

theorem refused {name : Call} {request : Request} {reply : request.Answer}
    {left : ScriptedSolver} {events : List Event} (named : request.call? = some name)
    (ran : answer request traced.state.state = .ok reply left)
    (isRefused : request.isRefusal reply = true)
    (grows : traced.state.state.terms.size ≤ left.terms.size)
    (sets : left.terms.size ≤ 0x80000000 → left.error ≠ .noError ∧
      ∀ error, answer request (traced.state.state.withErrorCode error) = .ok reply left) :
    Settles unchecked traced.state (Outcome.mapState Traced.state
      (Action.failCall (Recorded.answer answer) name
        ⟨⟨left, ⟨request, .ok reply left⟩ :: traced.state.exchanges⟩, events⟩ :
          EStateM.Result _ _ α)) := by
  have suffix := List.suffix_cons (⟨request, .ok reply left⟩ : Exchange ScriptedSolver)
    traced.state.exchanges
  by_cases clear : left.error = .noError
  · rw [Recorded.failCall_of_noError clear]
    refine ⟨grows, .after ⟨.errorReport, .ok left.report left⟩ suffix, ?_⟩
    intro _ room
    exact absurd clear (sets room).1
  · rw [Recorded.failCall_of_error clear]
    have later := suffix.trans (List.suffix_cons (⟨.errorReport, .ok left.report left⟩ :
      Exchange ScriptedSolver) _)
    refine ⟨grows, .after ⟨.clearError, .ok () left.withoutError⟩ later, ?_⟩
    intro noTerm room
    rcases sets room with ⟨set, same⟩
    -- there was no term, so the state without an error differs in the code alone
    have own : answer request traced.state.state.withoutError = .ok reply left := by
      rw [withoutError_eq noTerm]
      exact same .noError
    exact .call ⟨name, traced.state, request, reply, left, []⟩
      { later := .refl, named, refused := isRefused, answered := ran, own, set
        releases := by simp
        exchanges := rfl } rfl rfl

/-- A call that is checked. If it is refused, it has set an error of its own. -/
theorem call {name : Call} {request : Request} {check : request.Answer → Routine α}
    (named : request.call? = some name) (checked : request.isUnchecked = false)
    (checks : Checks name request.isRefusal check) :
    Settles unchecked traced.state (Outcome.mapState Traced.state
      ((Action.ask (Recorded.answer answer) request >>= fun answered =>
        check answered _ (Recorded.answer answer)) traced)) := by
  have grows := answer_terms_le request traced.state.state
  have later := Recorded.later_answer answer request traced.state
  have candid := answer_candid named checked traced.state.state
  cases ran : answer request traced.state.state with
  | error fault left =>
      rw [ran] at grows
      rw [Recorded.answer_of_error ran] at later
      rw [Outcome.bind_of_error (Action.ask_of_error (Recorded.answer_of_error ran))]
      exact ⟨grows, later, fun noTerm _ => .fault ((candid.faulted ran).2.trans noTerm)⟩
  | ok reply left =>
      rw [ran] at grows
      rw [Recorded.answer_of_ok ran] at later
      rw [Outcome.bind_of_ok (Action.ask_of_ok (Recorded.answer_of_ok ran))]
      cases isRefused : request.isRefusal reply with
      | false =>
          rcases checks.accepted reply isRefused with ⟨result, accepts⟩
          rw [accepts]
          have same := candid.accepted ran isRefused
          exact ⟨grows, later, fun noTerm _ => .ok (fun _ => same.1) (same.2.trans noTerm)⟩
      | true =>
          rw [checks.refused reply isRefused]
          exact refused named ran isRefused grows (candid.refused ran isRefused)

end Settles

/-! ## Vectors -/

/-- The ending of a cleanup, which leaves errors and terms alone. -/
inductive Cleans (start : Recorded ScriptedSolver) :
    EStateM.Result Stop (Recorded ScriptedSolver) Unit → Prop where
  | released (exchange : Exchange ScriptedSolver) (released : exchange.released?.isSome = true)
      (error : (Outcome.state exchange.ending).error = start.state.error)
      (errorTerm? : (Outcome.state exchange.ending).errorTerm? = start.state.errorTerm?)
      (terms : (Outcome.state exchange.ending).terms = start.state.terms) :
      Cleans start (.ok () ⟨Outcome.state exchange.ending, exchange :: start.exchanges⟩)
  | faulted {fault : Fault} (exchange : Exchange ScriptedSolver)
      (kept : Outcome.state exchange.ending = start.state) :
      Cleans start
        (.error (.fault fault) ⟨Outcome.state exchange.ending, exchange :: start.exchanges⟩)

theorem releaseTermVector_cleans (vector : VectorId) (traced : Traced (Recorded ScriptedSolver)) :
    Cleans traced.state (Outcome.mapState Traced.state
      (Action.ask (Recorded.answer answer) (.releaseTermVector vector) traced)) := by
  by_cases live : traced.state.state.IsLive vector
  · have released := answer_releaseTermVector live
    rw [Action.ask_of_ok (Recorded.answer_of_ok released)]
    exact .released ⟨.releaseTermVector vector, .ok () _⟩ rfl rfl rfl rfl
  · have faulted : answer (.releaseTermVector vector) traced.state.state =
        .error (.vectorReleasedTwice vector) traced.state.state :=
      releaseVector_of_not_isLive live .withTermsReleased
    rw [Action.ask_of_error (Recorded.answer_of_error faulted)]
    exact .faulted ⟨.releaseTermVector vector, .error _ _⟩ rfl

theorem releaseNodeVector_cleans (vector : VectorId) (traced : Traced (Recorded ScriptedSolver)) :
    Cleans traced.state (Outcome.mapState Traced.state
      (Action.ask (Recorded.answer answer) (.releaseNodeVector vector) traced)) := by
  by_cases live : traced.state.state.IsLive vector
  · have released := answer_releaseNodeVector live
    rw [Action.ask_of_ok (Recorded.answer_of_ok released)]
    exact .released ⟨.releaseNodeVector vector, .ok () _⟩ rfl rfl rfl rfl
  · have faulted : answer (.releaseNodeVector vector) traced.state.state =
        .error (.vectorReleasedTwice vector) traced.state.state :=
      releaseVector_of_not_isLive live .withNodesReleased
    rw [Action.ask_of_error (Recorded.answer_of_error faulted)]
    exact .faulted ⟨.releaseNodeVector vector, .error _ _⟩ rfl

namespace FailedCall

/-- A release that follows belongs to what follows the failed call. -/
theorem Between.released {failed : FailedCall} {start left : Recorded ScriptedSolver}
    (between : failed.Between start left) {exchange : Exchange ScriptedSolver}
    (released : exchange.released?.isSome = true) :
    Between { failed with releases := exchange :: failed.releases } start
      ⟨Outcome.state exchange.ending, exchange :: left.exchanges⟩ where
  later := between.later
  named := between.named
  refused := between.refused
  answered := between.answered
  own := between.own
  set := between.set
  releases := List.forall_mem_cons.mpr ⟨released, between.releases⟩
  exchanges := by
    rw [between.exchanges]
    rfl

end FailedCall

namespace Settles

variable {unchecked : Request → Bool} {start : Recorded ScriptedSolver}

theorem released {ending : EStateM.Result Stop (Recorded ScriptedSolver) α}
    {left : Recorded ScriptedSolver} (inside : Settles unchecked start ending)
    (cleans : Cleans (Outcome.state ending) (.ok () left)) :
    Settles unchecked start (Outcome.mapState (fun _ => left) ending) := by
  have leaves : Outcome.state (Outcome.mapState (fun _ => left) ending) = left :=
    Outcome.state_mapState ..
  cases cleans with
  | released exchange released error errorTerm? terms =>
      refine ⟨?_, ?_, ?_⟩
      · rw [leaves, terms]
        exact inside.grows
      · rw [leaves]
        exact inside.later.trans (.after exchange (List.suffix_refl _))
      · intro noTerm room
        rw [leaves, terms] at room
        have noTermLeft := errorTerm?.trans (inside.settled noTerm room).noTerm
        cases inside.settled noTerm room with
        | ok same => exact .ok (fun quiet => error.trans (same quiet)) noTermLeft
        | own own same => exact .own own (fun quiet => error.trans (same quiet)) noTermLeft
        | call failed between cleared =>
            exact .call { failed with releases := exchange :: failed.releases }
              (between.released released) (error.trans cleared) noTermLeft
        | fault => exact .fault noTermLeft

/-- Errors stay settled when a cleanup follows. -/
theorem ensuring {body : Action (Recorded ScriptedSolver) α}
    {cleanup : Action (Recorded ScriptedSolver) Unit} {traced : Traced (Recorded ScriptedSolver)}
    (inside : Settles unchecked start (Outcome.mapState Traced.state (body traced)))
    (cleans : ∀ left, Cleans left.state (Outcome.mapState Traced.state (cleanup left))) :
    Settles unchecked start
      (Outcome.mapState Traced.state (Action.ensuring body cleanup traced)) := by
  have cleaned := cleans (Outcome.state (body traced))
  have leaves : Outcome.state (Outcome.mapState Traced.state (body traced)) =
      (Outcome.state (body traced)).state := Outcome.state_mapState ..
  rw [← leaves] at cleaned
  cases ran : cleanup (Outcome.state (body traced)) with
  | ok _ left =>
      rw [ran] at cleaned
      have ended : Outcome.mapState Traced.state (Action.ensuring body cleanup traced) =
          Outcome.mapState (fun _ => left.state) (Outcome.mapState Traced.state (body traced)) := by
        rw [Action.ensuring_of_released ran]
        cases body traced <;> rfl
      rw [ended]
      exact inside.released cleaned
  | error stop left =>
      rw [ran] at cleaned
      rw [Outcome.mapState_error] at cleaned
      generalize last : left.state = recorded at cleaned
      cases cleaned with
      | faulted exchange kept =>
          -- the fault counts, whatever the body ended in
          rcases Action.ensuring_of_faulted ran with ⟨fault, ended⟩
          rw [ended, Outcome.mapState_error, last]
          refine ⟨?_, ?_, ?_⟩
          · simp only [Outcome.state_error, kept]
            exact inside.grows
          · exact inside.later.trans (.after exchange (List.suffix_refl _))
          · intro noTerm room
            simp only [Outcome.state_error, kept] at room
            have noTermLeft := (inside.settled noTerm room).noTerm
            rw [← kept] at noTermLeft
            exact .fault noTermLeft

theorem withTermVector {body : VectorId → Action (Recorded ScriptedSolver) α}
    {traced : Traced (Recorded ScriptedSolver)}
    (inside : ∀ vector opened, Settles unchecked opened.state
      (Outcome.mapState Traced.state (body vector opened))) :
    Settles unchecked traced.state (Outcome.mapState Traced.state
      (Action.withTermVector (Recorded.answer answer) body traced)) := by
  have made := Recorded.answer_of_ok (answer_newTermVector traced.state.state)
  unfold Action.withTermVector
  apply bind
  · rw [Action.ask_of_ok made]
    refine ⟨Nat.le_refl _, .after ⟨.newTermVector, .ok _ _⟩ (List.suffix_refl _), ?_⟩
    intro noTerm _
    exact .ok (fun _ => rfl) noTerm
  · intro vector middle _
    exact (inside vector middle).ensuring (releaseTermVector_cleans vector)

theorem withNodeVector {body : VectorId → Action (Recorded ScriptedSolver) α}
    {traced : Traced (Recorded ScriptedSolver)}
    (inside : ∀ vector opened, Settles unchecked opened.state
      (Outcome.mapState Traced.state (body vector opened))) :
    Settles unchecked traced.state (Outcome.mapState Traced.state
      (Action.withNodeVector (Recorded.answer answer) body traced)) := by
  have made := Recorded.answer_of_ok (answer_newNodeVector traced.state.state)
  unfold Action.withNodeVector
  apply bind
  · rw [Action.ask_of_ok made]
    refine ⟨Nat.le_refl _, .after ⟨.newNodeVector, .ok _ _⟩ (List.suffix_refl _), ?_⟩
    intro noTerm _
    exact .ok (fun _ => rfl) noTerm
  · intro vector middle _
    exact (inside vector middle).ensuring (releaseNodeVector_cleans vector)

end Settles

/-! ## Routines -/

/-- A disciplined routine settles errors, whatever vectors it holds. -/
theorem Disciplined.settles {unchecked : Request → Bool}
    (known : ∀ request, unchecked request = true → request.isUnchecked = true)
    {held : List VectorId} {routine : Routine α} (disciplined : Disciplined unchecked held routine)
    (traced : Traced (Recorded ScriptedSolver)) :
    Settles unchecked traced.state
      (Outcome.mapState Traced.state (routine _ (Recorded.answer answer) traced)) := by
  induction disciplined generalizing traced with
  | pure result => exact .of_ok result traced.state
  | bind _ _ ihFirst ihNext =>
      apply Settles.bind (ihFirst traced)
      intro result middle _
      exact ihNext result middle
  | record event => exact .of_ok () traced.state
  | fail own => exact .of_own own traced.state
  | compute outcome =>
      cases outcome with
      | ok result => exact .of_ok result traced.state
      | error division => exact .of_fault .divisionByZero traced.state
  | ask free uses => exact .ask (known _ free) free
  | call request named checked uses checks => exact .call named checked checks
  | withTermVector _ ih => exact .withTermVector ih
  | withNodeVector _ ih => exact .withNodeVector ih

theorem quiet_readsElements : Quiet Request.readsElements := by
  intro request reads solver
  cases request <;> cases reads <;> rfl

theorem Operation.quiet_asks {operation : Operation} (fallible : operation.canFail = true)
    (noReading : ∀ id term, operation ≠ .query id (.value term)) : Quiet operation.asks := by
  cases operation with
  | service service =>
      have asks : service.asks = Request.readsElements := if_pos fallible
      change Quiet service.asks
      rw [asks]
      exact quiet_readsElements
  | query id query =>
      cases query with
      | value term => exact absurd rfl (noReading id term)
      | definedTerms => cases fallible
      | _ => exact quiet_readsElements
  | modelOfContext | modelOfPairs | limitDepth => exact quiet_readsElements
  | dispose => cases fallible

/-! ## Errors that are kept -/

/-- The error is the same, and so is the term that it is about. -/
structure SameError (earlier later : ScriptedSolver) : Prop where
  error : later.error = earlier.error
  errorTerm? : later.errorTerm? = earlier.errorTerm?

/-- An operation that ends with a result, or in a failure of its own, leaves the error as it was. -/
structure KeepsError (start : ScriptedSolver) (ending : EStateM.Result Stop ScriptedSolver α) :
    Prop where
  ok : ∀ result left, ending = .ok result left → SameError start left
  own : ∀ failure left, ending = .error (.failure failure) left → failure.IsOwn →
    SameError start left

namespace KeepsError

variable {start left : ScriptedSolver}

theorem of_ok {result : α} (same : SameError start left) : KeepsError start (.ok result left) :=
  ⟨fun _ _ ended => EStateM.Result.ok.inj ended |>.2 ▸ same, nofun⟩

theorem of_error {stop : Stop} (same : stop.IsOwn → SameError start left) :
    KeepsError start (.error stop left : EStateM.Result Stop ScriptedSolver α) := by
  refine ⟨nofun, fun failure left' ended own => ?_⟩
  cases ended
  exact same own

theorem of_fault {fault : Fault} :
    KeepsError start (.error (.fault fault) left : EStateM.Result Stop ScriptedSolver α) :=
  ⟨nofun, nofun⟩

end KeepsError

theorem Settled.keepsError {unchecked : Request → Bool} {start : Recorded ScriptedSolver}
    {ending : EStateM.Result Stop (Recorded ScriptedSolver) α}
    (settled : Settled unchecked start ending) (quiet : Quiet unchecked)
    (noTerm : start.state.errorTerm? = none) :
    KeepsError start.state (Outcome.mapState Recorded.state ending) := by
  cases settled with
  | ok same noTermLeft => exact .of_ok ⟨same quiet, noTermLeft.trans noTerm.symm⟩
  | own own same noTermLeft =>
      exact .of_error fun _ => ⟨same quiet, noTermLeft.trans noTerm.symm⟩
  | call => exact .of_error nofun
  | fault => exact .of_fault

theorem Model.read_keepsError (model : Model) (term : TermId) {traced : Traced ScriptedSolver}
    (room : (Outcome.state (model.read answer term traced)).state.HasRoom model.id) :
    KeepsError traced.state (Outcome.mapState Traced.state (model.read answer term traced)) := by
  cases assigned : traced.state.value? model.id term with
  | none =>
      rcases read_of_value?_eq_none assigned with ⟨stop, left, ended, kept⟩
      rw [ended]
      exact .of_error fun own => ⟨(kept own).1, (kept own).2⟩
  | some value =>
      have agrees := (read_follows assigned).agrees room
      generalize model.read answer term traced = ending at agrees
      generalize value.evaluate model.limit model.limit.levels traced.state.lexicon = evaluated
        at agrees
      cases agrees with
      | ok left error errorTerm? holds => exact .of_ok ⟨error, errorTerm?⟩
      | stopped _ kept => exact .of_error fun own => ⟨(kept own).1, (kept own).2⟩
      | scripted some => exact .of_error nofun

/-! ## Sessions -/

namespace Client

theorem run_settles {client : Client (Recorded ScriptedSolver)} {operation : Operation}
    {ending : Ending (Recorded ScriptedSolver) operation.Answer}
    (ran : run (Recorded.answer answer) client operation = some ending) :
    Settles operation.asks client.traced.state
      (Outcome.mapState (fun left => left.traced.state) ending) := by
  rcases client with ⟨traced, owned⟩
  rcases exists_routine_asks owned operation with
    notOwned | ⟨_, routine, before, keep, result, disciplined, runs⟩
  · cases (notOwned _ _ traced).symm.trans ran
  · cases (runs _ _ traced).symm.trans ran
    have settles := disciplined.settles operation.isUnchecked_of_asks traced
    simp only [perform]
    cases ended : routine _ (Recorded.answer answer) traced with
    | ok answered left =>
        rw [ended] at settles
        refine ⟨settles.grows, settles.later, ?_⟩
        intro noTerm room
        cases settles.settled noTerm room with
        | ok same noTerm => exact .ok same noTerm
    | error stop left =>
        rw [ended] at settles
        refine ⟨settles.grows, settles.later, ?_⟩
        intro noTerm room
        cases settles.settled noTerm room with
        | own own same noTerm => exact .own own same noTerm
        | call failed between cleared noTerm => exact .call failed between cleared noTerm
        | fault noTerm => exact .fault noTerm

/-- The error is about no term, unless there are too many terms. -/
def NoErrorTerm (client : Client (Recorded ScriptedSolver)) : Prop :=
  client.traced.state.state.terms.size ≤ 0x80000000 → client.traced.state.state.errorTerm? = none

theorem move_noErrorTerm {client : Client (Recorded ScriptedSolver)} (made : Move)
    (noTerm : NoErrorTerm client) :
    NoErrorTerm (client.move (Recorded.answer answer)
      (fun command => Recorded.lift (afterCommand command)) made) := by
  cases made with
  | script command =>
      have commanded := afterCommand_commanded command client.traced.state.state
      have grown := commanded.terms.length_le
      simp only [Array.length_toList] at grown
      exact fun room => commanded.errorTerm?.trans (noTerm (Nat.le_trans grown room))
  | operate operation =>
      simp only [move]
      cases ran : run (Recorded.answer answer) client operation with
      | none => exact noTerm
      | some ending =>
          have settles := run_settles ran
          have leaves := Outcome.state_mapState
            (fun left : Client (Recorded ScriptedSolver) => left.traced.state) ending
          intro room
          rw [← leaves] at room
          have noTermBefore := noTerm (Nat.le_trans settles.grows room)
          have noTermLeft := (settles.settled noTermBefore room).noTerm
          rw [leaves] at noTermLeft
          exact noTermLeft

/-- In a session, no error about a term is left by an operation. -/
theorem session_noErrorTerm (moves : List Move) : NoErrorTerm (recordedSession moves) := by
  suffices kept : ∀ client, NoErrorTerm client →
      NoErrorTerm (moves.foldl (move (Recorded.answer answer) fun command =>
        Recorded.lift (afterCommand command)) client) from
    kept (ofState ⟨{}, []⟩) fun _ => rfl
  induction moves with
  | nil => exact fun _ noTerm => noTerm
  | cons made moves ih => exact fun client noTerm => ih _ (move_noErrorTerm made noTerm)

/-- Reading a value leaves the error alone, unless a call fails or there is no room for nodes. -/
theorem run_value_keepsError {client : Client ScriptedSolver} {id : ModelId} {term : TermId}
    {ending : Ending ScriptedSolver Value}
    (ran : run answer client (.query id (.value term)) = some ending)
    (room : ∀ model, (Outcome.state ending).traced.state.HasRoom model) :
    KeepsError client.traced.state (Outcome.mapState (fun left => left.traced.state) ending) := by
  rcases client with ⟨traced, owned⟩
  cases found : find? ⟨traced, owned⟩ id with
  | none => simp [run, found] at ran
  | some model =>
      simp only [run, found, Option.bind_eq_bind, Option.bind_some, Option.pure_def, perform,
        Option.some.injEq] at ran
      have asked : model.ask answer (.value term) traced = model.read answer term traced := rfl
      rw [asked] at ran
      have keeps (room : (Outcome.state (model.read answer term traced)).state.HasRoom model.id) :=
        model.read_keepsError term room
      generalize model.read answer term traced = last at ran keeps
      cases last <;> cases ran <;> exact keeps (room model.id)

/-- Every operation of a session settles errors. -/
theorem session_settled {moves : List Move} {operation : Operation}
    {ending : Ending (Recorded ScriptedSolver) operation.Answer}
    (ran : run (Recorded.answer answer) (recordedSession moves) operation = some ending)
    (room : (Outcome.state ending).traced.state.state.terms.size ≤ 0x80000000) :
    (recordedSession moves).traced.state.state.errorTerm? = none ∧
      Settled operation.asks (recordedSession moves).traced.state
        (Outcome.mapState (fun left => left.traced.state) ending) := by
  have settles := run_settles ran
  have leaves := Outcome.state_mapState
    (fun left : Client (Recorded ScriptedSolver) => left.traced.state) ending
  rw [← leaves] at room
  have noTerm := session_noErrorTerm moves (Nat.le_trans settles.grows room)
  exact ⟨noTerm, settles.settled noTerm room⟩

theorem session_keepsError {moves : List Move} {operation : Operation}
    (fallible : operation.canFail = true)
    {ending : Ending (Recorded ScriptedSolver) operation.Answer}
    (ran : run (Recorded.answer answer) (recordedSession moves) operation = some ending)
    (room : ∀ model, (Outcome.state ending).traced.state.state.HasRoom model) :
    KeepsError (recordedSession moves).traced.state.state
      (Outcome.mapState (fun left => left.traced.state.state) ending) := by
  -- the questions about nodes make the reading of a value the only operation that is not quiet
  by_cases reading : ∃ id term, operation = .query id (.value term)
  · rcases reading with ⟨id, term, rfl⟩
    have simulated := run_simulated (Recorded.simulates answer) (recordedSession moves)
      (.query id (.value term))
    rw [ran] at simulated
    have leaves := Outcome.state_mapState (Client.map Recorded.state) ending
    have keeps := run_value_keepsError simulated fun model => by
      rw [leaves]
      exact room model
    cases ending <;> exact keeps
  · have quiet := Operation.quiet_asks fallible fun id term same => reading ⟨id, term, same⟩
    rcases session_settled ran (room ⟨0⟩).terms with ⟨noTerm, settled⟩
    have keeps := settled.keepsError quiet noTerm
    cases ending <;> exact keeps

/-- The discipline of errors. From any state that a session leads to, an operation that ends with a
result, or in a failure that is not about a call, leaves the error and its term as they
were. Otherwise it ends in the failure of a call that was refused on the way, and was reported
with the error that it set itself; and it leaves no error. No call fails unreported. -/
theorem session_errors (moves : List Move) {operation : Operation}
    (fallible : operation.canFail = true) {ending : Ending ScriptedSolver operation.Answer}
    (ran : run answer (session moves) operation = some ending)
    (room : ∀ model, (Outcome.state ending).traced.state.HasRoom model) :
    (∀ result left, ending = .ok result left →
      SameError (session moves).traced.state left.traced.state) ∧
    ∀ failure left, ending = .error (.failure failure) left →
      failure.IsOwn ∧ SameError (session moves).traced.state left.traced.state ∨
      ∃ (failed : FailedCall) (recorded : Client (Recorded ScriptedSolver)),
        failure = failed.failure ∧
        run (Recorded.answer answer) (recordedSession moves) operation =
          some (.error (.failure failure) recorded) ∧
        recorded.map Recorded.state = left ∧
        failed.Between (recordedSession moves).traced.state recorded.traced.state ∧
        left.traced.state.error = .noError ∧ left.traced.state.errorTerm? = none := by
  have recording := recordedSession_map moves
  have simulated := run_simulated (Recorded.simulates answer) (recordedSession moves) operation
  rw [recording, ran] at simulated
  have start : (session moves).traced.state = (recordedSession moves).traced.state.state := by
    rw [← recording]
    rfl
  cases ranRecorded : run (Recorded.answer answer) (recordedSession moves) operation with
  | none => simp [ranRecorded] at simulated
  | some recorded =>
      rw [ranRecorded, Option.map_some, Option.some.injEq] at simulated
      subst simulated
      rw [Outcome.state_mapState] at room
      have keeps := session_keepsError fallible ranRecorded room
      have settled := (session_settled ranRecorded (room ⟨0⟩).terms).2
      rw [start]
      refine ⟨fun result left ended => ?_, fun failure left ended => ?_⟩
      · cases recorded with
        | ok result' left' =>
            cases ended
            exact keeps.ok _ _ rfl
        | error stop left' => cases ended
      · cases recorded with
        | ok result' left' => cases ended
        | error stop left' =>
            cases ended
            cases settled with
            | own own => exact Or.inl ⟨own, keeps.own _ _ rfl own⟩
            | call failed between cleared noTerm =>
                exact Or.inr ⟨failed, left', rfl, rfl, rfl, between, cleared, noTerm⟩

/-- Moves that leave an error behind: defined terms are collected without a check. -/
def strayMoves : List Move :=
  [.script (.satisfiable []), .operate (.modelOfContext ⟨0⟩ false),
    .script (.failOn "yices_model_collect_defined_terms"), .operate (.query ⟨0⟩ .definedTerms)]

/-- A call that complains about an unknown term reports that, and not the error that is left. -/
theorem session_errors_stray :
    (session strayMoves).traced.state.error = .internalException ∧
      ∃ left, run answer (session strayMoves) (.query ⟨0⟩ (.bool ⟨5⟩)) =
          some (.error (.failure (.call "yices_get_bool_value"
            { code := .invalidTerm, term1 := ⟨5⟩, message := "invalid term" })) left) ∧
        left.traced.state.error = .noError ∧ left.traced.state.errorTerm? = none := by
  have runs : ∃ left live, run answer (session strayMoves) (.query ⟨0⟩ (.bool ⟨5⟩)) =
        some (.error (.failure (.call "yices_get_bool_value"
          { code := .invalidTerm, term1 := ⟨5⟩, message := "invalid term" })) left) ∧
      left.traced.state.models = #[some live] ∧ live.nodes = #[] ∧
      left.traced.state.terms = #[] := by
    with_unfolding_all exact ⟨_, _, rfl, rfl, rfl, rfl⟩
  rcases runs with ⟨left, live, ran, models, nodes, terms⟩
  have room (model : ModelId) : left.traced.state.HasRoom model := by
    refine ⟨fun found isFound => ?_, by simp [terms]⟩
    have isOnly : live = found := by
      simp only [model?, models] at isFound
      rcases model with ⟨_ | number⟩
      · simpa using isFound
      · simp at isFound
    simp [← isOnly, nodes]
  refine ⟨rfl, left, ran, ?_⟩
  rcases (session_errors strayMoves rfl ran room).2 _ _ rfl with
    ⟨⟨⟩, -⟩ | ⟨failed, recorded, -, -, -, -, cleared⟩
  exact cleared

end Client

end SmtModel
