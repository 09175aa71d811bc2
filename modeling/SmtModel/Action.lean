import SmtModel.Event
import SmtModel.Failure
import SmtModel.Solver.Request

/-!
# Actions

An action asks a solver for answers and records events. It ends with a result, in a
failure or in a fault, and in each case the solver's state and the events so far
remain. This file has the steps of which actions are made: asking, turning the
signs of a failed call into a failure, and holding a vector of the solver for the
time of an action.

When a call has failed, its report is taken and the solver's error is cleared, so
that the next call starts without one. A call that failed without leaving a report
is a defect of the solver, whose error then stays as it is.
-/

namespace SmtModel

/-- A solver's state together with the events that were recorded, the latest first. -/
structure Traced (σ : Type) where
  state : σ
  events : List Event

/-- The endings of an action without a result. -/
inductive Stop where
  | failure (failure : Failure)
  | fault (fault : Fault)
  deriving DecidableEq

/-- A computation that uses a solver with states `σ`. It has a result or comes to a stop. -/
abbrev Action (σ : Type) := EStateM Stop (Traced σ)

namespace Action

variable {σ α : Type}

/-- Comes to a stop by a failure. -/
def fail (failure : Failure) : Action σ α := throw (.failure failure)

/-- Records an event. -/
def record (event : Event) : Action σ Unit :=
  fun traced => .ok () { traced with events := event :: traced.events }

/-- A computation that may divide by zero, which is a fault. -/
def ofExcept : Except DivisionByZero α → Action σ α
  | .ok result => pure result
  | .error .divisionByZero => throw (.fault .divisionByZero)

/-- Asks a solver. A fault of the solver is a fault of the action. -/
def ask (solver : Solver σ) (request : Request) : Action σ request.Answer :=
  fun ⟨state, events⟩ =>
    match solver request state with
    | .ok answer state => .ok answer ⟨state, events⟩
    | .error fault state => .error (.fault fault) ⟨state, events⟩

/-- Runs `cleanup` after `body`, however that ends. If both end without a result, a fault counts
before a failure, and the earlier before the later. -/
def ensuring (body : Action σ α) (cleanup : Action σ Unit) : Action σ α :=
  fun traced =>
    match body traced with
    | .ok result traced =>
      match cleanup traced with
      | .ok () traced => .ok result traced
      | .error stop traced => .error stop traced
    | .error (.failure failure) traced =>
      match cleanup traced with
      | .ok () traced => .error (.failure failure) traced
      | .error stop traced => .error stop traced
    | .error (.fault fault) traced =>
      match cleanup traced with
      | .ok () traced | .error _ traced => .error (.fault fault) traced

section Solver

variable (solver : Solver σ)

/-- Ends in the failure of a call, with the solver's current report. -/
def failCall (call : Call) : Action σ α := do
  let report ← ask solver .errorReport
  if report.code = .noError then
    record (.callFailedUnreported call.name)
    fail (.internal (.unreported call.name))
  else
    ask solver .clearError
    record (.callFailed call.name report.code report.message)
    fail (.call call.name report)

/-- Fails if a status says that the call failed. Any other status means success. -/
def checkStatus (call : Call) (status : Int32) : Action σ Unit :=
  if status = statusFailed then failCall solver call else pure ()

/-- The contents of a cell, if the call that filled it did not fail. -/
def checkReply (call : Call) (reply : Reply α) : Action σ α := do
  checkStatus solver call reply.status
  return reply.cell

/-- A truth value: zero is false, and everything else but the status of failure is true. -/
def checkTruth (call : Call) (status : Int32) : Action σ Bool :=
  if status = statusFailed then failCall solver call else pure (status ≠ 0)

/-- A term, if the call did not hand out the null term. -/
def checkTerm (call : Call) (term : TermId) : Action σ TermId :=
  if term.isNull then failCall solver call else pure term

/-- A handle, if the call handed one out. -/
def checkHandle (call : Call) : Option α → Action σ α
  | some handle => pure handle
  | none => failCall solver call

/-- Runs an action with a fresh vector of terms, which is released however the action ends. -/
def withTermVector (body : VectorId → Action σ α) : Action σ α := do
  let vector ← ask solver .newTermVector
  ensuring (body vector) (ask solver (.releaseTermVector vector))

/-- Runs an action with a fresh vector of nodes, which is released however the action ends. -/
def withNodeVector (body : VectorId → Action σ α) : Action σ α := do
  let vector ← ask solver .newNodeVector
  ensuring (body vector) (ask solver (.releaseNodeVector vector))

end Solver

end Action

end SmtModel
