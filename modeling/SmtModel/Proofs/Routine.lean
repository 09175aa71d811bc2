import SmtModel.Client
import SmtModel.Proofs.Ending

/-!
# Disciplined routines

A routine is an action that is given for every solver, so it can use a solver in no
other way than by asking it. `Disciplined` says how the library's routines go about
that: a call that can fail is checked at once and under its own name, nothing else
than the requests of a set that is given goes unchecked, a vector is used only while
it is held, and a routine of its own accord stops only in a failure that is no
failure of a call, or where a comparison divides by zero.

Every operation of a client is a disciplined routine (`Client.exists_routine`).
What holds of all runs of the library is proved by induction on `Disciplined`, with
one case for each way of building a routine.
-/

namespace SmtModel

open SmtModel.Action

/-- An action for every solver. -/
abbrev Routine (α : Type) := (σ : Type) → Solver σ → Action σ α

namespace Request

/-- Whether an answer is the sign of a failed call. -/
def isRefusal : (request : Request) → request.Answer → Bool
  | .printError _, reply => reply.status = statusFailed
  | .getModel .., handle? | .modelFromMap .., handle? => handle?.isNone
  | .boolValue .., reply | .scalarValue .., reply => reply.status = statusFailed
  | .nodeBool .., reply => reply.status = statusFailed
  | .int64Value .., reply | .nodeInt64 .., reply => reply.status = statusFailed
  | .rational64Value .., reply | .nodeRational64 .., reply => reply.status = statusFailed
  | .doubleValue .., reply | .nodeDouble .., reply => reply.status = statusFailed
  | .value .., reply | .expandFunction .., reply => reply.status = statusFailed
  | .valueAsTerm .., term | .constant .., term => term.isNull
  | .nodeBits .., reply => reply.status = statusFailed
  | .nodeScalar .., reply => reply.status = statusFailed
  | .expandTuple .., reply => reply.status = statusFailed
  | .expandMapping .., reply => reply.status = statusFailed
  | .formulaHolds .., status | .formulasHold .., status => status = statusFailed
  | .implicant .., status | .implicants .., status => status = statusFailed
  | .generalize .., status | .generalizeAll .., status => status = statusFailed
  | _, _ => false

/-- The model that a request is about. -/
def model? : Request → Option ModelId
  | .freeModel model => model
  | .boolValue model .. | .int64Value model .. | .rational64Value model .. => model
  | .doubleValue model .. | .scalarValue model .. | .value model .. => model
  | .valueAsTerm model _ => model
  | .nodeIsInt64 model _ | .nodeIsRational64 model _ | .nodeBitSize model _ => model
  | .tupleArity model _ | .mappingArity model _ | .functionArity model _ => model
  | .nodeBool model .. | .nodeInt64 model .. | .nodeRational64 model .. => model
  | .nodeDouble model .. | .nodeBits model .. | .nodeScalar model .. => model
  | .expandTuple model .. | .expandMapping model .. | .expandFunction model .. => model
  | .formulaHolds model _ | .formulasHold model _ | .definedTerms model _ => model
  | .implicant model .. | .implicants model .. => model
  | .generalize model .. | .generalizeAll model .. => model
  | _ => none

/-- The vector that a request reads or fills. -/
def vector? : Request → Option VectorId
  | .expandFunction _ _ vector _ | .termVectorElements vector | .nodeVectorElements vector => vector
  | .definedTerms _ vector | .implicant _ _ vector | .implicants _ _ vector => vector
  | .generalize _ _ _ _ vector | .generalizeAll _ _ _ _ vector => vector
  | _ => none

/-- Requests that make or release a vector. -/
def tradesVector : Request → Bool
  | .newTermVector | .releaseTermVector _ | .newNodeVector | .releaseNodeVector _ => true
  | _ => false

/-- Requests whose answers have no sign of failure, and that change no table. -/
def isQuestion : Request → Bool
  | .nodeIsInt64 .. | .nodeIsRational64 .. | .nodeBitSize .. => true
  | .tupleArity .. | .mappingArity .. | .functionArity .. => true
  | .termVectorElements _ | .nodeVectorElements _ => true
  | _ => false

/-- Requests for the elements of a vector, which change nothing at all. -/
def readsElements : Request → Bool
  | .termVectorElements _ | .nodeVectorElements _ => true
  | _ => false

/-- Requests that the library makes without looking for a failure. -/
def isUnchecked : Request → Bool
  | .startUp | .shutDown | .reset | .isRunning | .errorCode | .errorReport | .errorText => true
  | .clearError | .freeModel _ | .definedTerms .. => true
  | request => request.isQuestion

end Request

/-- Faults in the use of a vector. -/
def Fault.IsOfVector : Fault → Prop
  | .vectorUsedAfterRelease _ | .vectorReleasedTwice _ => True
  | _ => False

/-- Failures that are not about a call. -/
def Failure.IsOwn : Failure → Prop
  | .call .. | .internal (.unreported _) => False
  | _ => True

/-- A check of the answers to a call: it ends in the failure of the call at the sign of failure, and
goes on with a result otherwise. -/
structure Checks {α β : Type} (name : Call) (refusal : α → Bool) (check : α → Routine β) :
    Prop where
  refused : ∀ answer, refusal answer = true →
    ∀ σ solver, check answer σ solver = failCall solver name
  accepted : ∀ answer, refusal answer = false →
    ∃ result, ∀ σ solver, check answer σ solver = pure result

namespace Checks

theorem failCall_bind {σ α β : Type} (solver : Solver σ) (name : Call) (next : α → Action σ β) :
    failCall solver name >>= next = failCall solver name := by
  have fail_bind (failure : Failure) :
      (fail failure >>= next : Action σ β) = fail failure := rfl
  simp only [failCall, bind_assoc]
  congr 1
  funext report
  split <;> simp only [bind_assoc, fail_bind]

theorem status (name : Call) :
    Checks name (fun status : Int32 => status = statusFailed)
      (fun status _ solver => checkStatus solver name status) where
  refused status refusal σ solver := by
    simp only [checkStatus, of_decide_eq_true refusal, if_true]
  accepted status acceptance := by
    refine ⟨(), fun σ solver => ?_⟩
    simp only [checkStatus, of_decide_eq_false acceptance, if_false]

theorem reply {α : Type} (name : Call) :
    Checks name (fun reply : Reply α => reply.status = statusFailed)
      (fun reply _ solver => checkReply solver name reply) where
  refused reply refusal σ solver := by
    simp only [checkReply, (status name).refused reply.status refusal, failCall_bind]
  accepted reply acceptance := by
    refine ⟨reply.cell, fun σ solver => ?_⟩
    simp only [checkReply, checkStatus, of_decide_eq_false acceptance, if_false, pure_bind]

theorem truth (name : Call) :
    Checks name (fun status : Int32 => status = statusFailed)
      (fun status _ solver => checkTruth solver name status) where
  refused status refusal σ solver := by
    simp only [checkTruth, of_decide_eq_true refusal, if_true]
  accepted status acceptance := by
    refine ⟨status ≠ 0, fun σ solver => ?_⟩
    simp only [checkTruth, of_decide_eq_false acceptance, if_false]

theorem term (name : Call) :
    Checks name TermId.isNull (fun term _ solver => checkTerm solver name term) where
  refused term refusal σ solver := by
    simp only [checkTerm, refusal, if_true]
  accepted term acceptance := by
    refine ⟨term, fun σ solver => ?_⟩
    simp only [checkTerm, acceptance, Bool.false_eq_true, if_false]

theorem handle {α : Type} (name : Call) :
    Checks name Option.isNone (fun (handle? : Option α) _ solver => checkHandle solver name handle?)
    where
  refused handle? refusal σ solver := by
    rw [Option.isNone_iff_eq_none] at refusal
    simp only [refusal, checkHandle]
  accepted handle? acceptance := by
    rcases Option.isSome_iff_exists.mp (by simpa using acceptance) with ⟨handle, rfl⟩
    exact ⟨handle, fun σ solver => rfl⟩

end Checks

/-- How routines are built, with `unchecked` requests going without a check and the vectors `held`
at hand. -/
inductive Disciplined (unchecked : Request → Bool) :
    List VectorId → {α : Type} → Routine α → Prop where
  | pure {held : List VectorId} {α : Type} (result : α) :
      Disciplined unchecked held (fun _ _ => Pure.pure result)
  | bind {held : List VectorId} {α β : Type} {first : Routine α} {next : α → Routine β}
      (first_disciplined : Disciplined unchecked held first)
      (next_disciplined : ∀ result, Disciplined unchecked held (next result)) :
      Disciplined unchecked held
        (fun σ solver => first σ solver >>= fun result => next result σ solver)
  | record {held : List VectorId} (event : Event) :
      Disciplined unchecked held (fun _ _ => Action.record event)
  | fail {held : List VectorId} {α : Type} {failure : Failure} (own : failure.IsOwn) :
      Disciplined unchecked held (fun σ _ => (Action.fail failure : Action σ α))
  | compute {held : List VectorId} {α : Type} (outcome : Except DivisionByZero α) :
      Disciplined unchecked held (fun _ _ => Action.ofExcept outcome)
  | ask {held : List VectorId} {request : Request} (free : unchecked request = true)
      (uses : ∀ vector ∈ request.vector?, vector ∈ held) :
      Disciplined unchecked held (fun _ solver => Action.ask solver request)
  | call {held : List VectorId} {β : Type} {name : Call} (request : Request)
      {check : request.Answer → Routine β} (named : request.call? = some name)
      (checked : request.isUnchecked = false)
      (uses : ∀ vector ∈ request.vector?, vector ∈ held)
      (checks : Checks name request.isRefusal check) :
      Disciplined unchecked held
        (fun σ solver => Action.ask solver request >>= fun answer => check answer σ solver)
  | withTermVector {held : List VectorId} {α : Type} {body : VectorId → Routine α}
      (inside : ∀ vector, Disciplined unchecked (vector :: held) (body vector)) :
      Disciplined unchecked held
        (fun σ solver => Action.withTermVector solver fun vector => body vector σ solver)
  | withNodeVector {held : List VectorId} {α : Type} {body : VectorId → Routine α}
      (inside : ∀ vector, Disciplined unchecked (vector :: held) (body vector)) :
      Disciplined unchecked held
        (fun σ solver => Action.withNodeVector solver fun vector => body vector σ solver)

namespace Disciplined

variable {unchecked : Request → Bool} {held : List VectorId} {α β : Type}

theorem mono {more : Request → Bool} {routine : Routine α}
    (disciplined : Disciplined unchecked held routine)
    (allowed : ∀ request, unchecked request = true → more request = true) :
    Disciplined more held routine := by
  induction disciplined with
  | pure result => exact .pure result
  | bind _ _ ihFirst ihNext => exact .bind ihFirst ihNext
  | record event => exact .record event
  | fail own => exact .fail own
  | compute outcome => exact .compute outcome
  | ask free uses => exact .ask (allowed _ free) uses
  | call request named checked uses checks => exact .call request named checked uses checks
  | withTermVector _ ih => exact .withTermVector ih
  | withNodeVector _ ih => exact .withNodeVector ih

theorem callThen {γ : Type} {name : Call} (request : Request) {check : request.Answer → Routine β}
    {next : β → Routine γ} (named : request.call? = some name)
    (checked : request.isUnchecked = false) (uses : ∀ vector ∈ request.vector?, vector ∈ held)
    (checks : Checks name request.isRefusal check)
    (next_disciplined : ∀ result, Disciplined unchecked held (next result)) :
    Disciplined unchecked held (fun σ solver => do
      let answer ← Action.ask solver request
      let result ← check answer σ solver
      next result σ solver) := by
  simp only [← bind_assoc]
  exact .bind (.call request named checked uses checks) next_disciplined

theorem mapM {visit : α → Routine β} (each : ∀ item, Disciplined unchecked held (visit item))
    (items : List α) :
    Disciplined unchecked held (fun σ solver => items.mapM fun item => visit item σ solver) := by
  induction items with
  | nil => exact .pure []
  | cons item items ih =>
      simp only [List.mapM_cons]
      exact .bind (each item) fun _ => .bind ih fun _ => .pure _

theorem foldlM {step : β → α → Routine β}
    (each : ∀ acc item, Disciplined unchecked held (step acc item)) (items : List α) (acc : β) :
    Disciplined unchecked held
      (fun σ solver => items.foldlM (fun acc item => step acc item σ solver) acc) := by
  induction items generalizing acc with
  | nil => exact .pure acc
  | cons item items ih =>
      simp only [List.foldlM_cons]
      exact .bind (each acc item) ih

end Disciplined

end SmtModel
