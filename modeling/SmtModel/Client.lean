import SmtModel.Model

/-!
# Clients

A client uses a solver through the library alone: it starts the solver up and shuts
it down, looks at its error, makes models, puts queries to the models that it owns,
and disposes of them. `Client.run` carries out one such operation. Whatever the
operation ends in, the client goes on from the state that was reached, and a model
is owned from the operation that made it up to the one that disposes of it, even
where that one ends in a fault.
-/

namespace SmtModel

/-- Operations on the solver as a whole. -/
inductive Service where
  | startUp
  | shutDown
  | reset
  | isRunning
  | errorCode
  | errorText
  | errorReport
  | clearError
  /-- Prints the current error; the answer is what was printed. -/
  | printError (descriptor : Int32)
  | constant (type : TypeId) (index : Int32)

namespace Service

open SmtModel.Action

/-- What an operation on the solver answers with. -/
abbrev Answer : Service → Type
  | startUp | shutDown | reset | clearError => Unit
  | isRunning => Bool
  | errorCode => ErrorCode
  | errorText => String
  | errorReport => ErrorReport
  | printError _ => String
  | constant .. => TermId

/-- Carries out an operation on the solver, with the event that belongs to it. -/
def perform {σ : Type} (solver : Solver σ) : (service : Service) → Action σ service.Answer
  | startUp => do
    record .startingUp
    ask solver .startUp
  | shutDown => do
    record .shuttingDown
    ask solver .shutDown
  | reset => do
    record .resetting
    ask solver .reset
  | isRunning => ask solver .isRunning
  | errorCode => ask solver .errorCode
  | errorText => ask solver .errorText
  | errorReport => ask solver .errorReport
  | clearError => ask solver .clearError
  | printError descriptor => do
    checkReply solver .printError (← ask solver (.printError descriptor))
  | constant type index => do
    checkTerm solver .constant (← ask solver (.constant type index))

end Service

/-- What a client can do. -/
inductive Operation where
  | service (service : Service)
  | modelOfContext (context : ContextId) (keepSubstitution : Bool)
  | modelOfPairs (pairs : List (TermId × TermId))
  | query (model : ModelId) (query : Query)
  /-- Changes the limit of depth of a model. An invalid limit leaves the old one in place. -/
  | limitDepth (model : ModelId) (levels : Nat)
  | dispose (model : ModelId)

/-- What an operation answers with. Making a model answers with the solver's number for it. -/
abbrev Operation.Answer : Operation → Type
  | .service performed => performed.Answer
  | .modelOfContext .. | .modelOfPairs _ => ModelId
  | .query _ asked => asked.Answer
  | .limitDepth .. | .dispose _ => Unit

/-- A client of a solver with states `σ`: the solver's state, the events so far, and the models
that the client owns, in the order in which they were made. -/
structure Client (σ : Type) where
  traced : Traced σ
  owned : List Model

namespace Client

variable {σ α : Type}

/-- A client that owns nothing yet. -/
def ofState (state : σ) : Client σ := ⟨⟨state, []⟩, []⟩

/-- The endings of a client's operations: with an answer, in a failure or in a fault. -/
abbrev Ending (σ α : Type) := EStateM.Result Stop (Client σ) α

/-- Runs an action on the client's solver. `keep` gives the models owned after a result. -/
def perform (client : Client σ) (action : Action σ α) (keep : α → List Model) : Ending σ α :=
  match client with
  | ⟨traced, owned⟩ =>
    match action traced with
    | .ok result traced => .ok result ⟨traced, keep result⟩
    | .error stop traced => .error stop ⟨traced, owned⟩

/-- The owned model with a number. -/
def find? (client : Client σ) (id : ModelId) : Option Model :=
  client.owned.find? (·.id = id)

/-- The ending with another view of the answer. -/
def Ending.map {β : Type} (f : α → β) : Ending σ α → Ending σ β
  | .ok result client => .ok (f result) client
  | .error stop client => .error stop client

/-- Carries out an operation. There is no outcome for one that is about a model which the client
does not own. -/
def run (solver : Solver σ) (client : Client σ) :
    (operation : Operation) → Option (Ending σ operation.Answer)
  | .service service =>
    some (client.perform (service.perform solver) fun _ => client.owned)
  | .modelOfContext context keepSubstitution =>
    some (Ending.map (·.id) (client.perform (Model.ofContext solver context keepSubstitution)
      fun model => client.owned ++ [model]))
  | .modelOfPairs pairs =>
    some (Ending.map (·.id) (client.perform (Model.ofPairs solver pairs)
      fun model => client.owned ++ [model]))
  | .query id query => do
    let model ← client.find? id
    return client.perform (model.ask solver query) fun _ => client.owned
  | .limitDepth id levels => do
    let model ← client.find? id
    match model.withLimit levels with
    | .error failure => return .error (.failure failure) client
    | .ok limited =>
      let replace (other : Model) := if other.id = id then limited else other
      return .ok () { client with owned := client.owned.map replace }
  | .dispose id => do
    let model ← client.find? id
    let others := client.owned.filter (·.id ≠ id)
    return { client with owned := others }.perform (model.dispose solver) fun _ => others

end Client

end SmtModel
