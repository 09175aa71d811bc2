import Mathlib.Data.List.Nodup
import SmtModel.Proofs.Operations
import SmtModel.Proofs.Scripted.Ledger

/-!
# Who owns which model

The deeds of a session are what its moves did to models: a model was made or disposed
of, or a reset freed all models behind their owner's back. `Turn` says how the models
of the scripted solver and those that the client owns change with each deed, and that
nothing else changes them (`Client.move_turn`).

A record of the deeds therefore tells at any moment which models there are and who
owns them (`Owns`): the models are numbered in order of creation, the live ones are
those that were made after the last reset and not disposed of, and the client owns
the ones that it did not dispose of, whether or not a reset has freed them
(`Client.session_ownership`).
-/

namespace SmtModel

/-! ## Requests that spare the models -/

/-- Requests that neither make nor free a model. -/
def Request.sparesModels : Request → Bool
  | .reset | .freeModel _ | .getModel .. | .modelFromMap .. => false
  | _ => true

theorem Request.sparesModels_of_isOfQuery {id : ModelId} {request : Request}
    (made : request.IsOfQuery id) : request.sparesModels = true := by
  cases request <;> first | rfl | cases made

theorem Request.model?_of_isOfQuery {id model : ModelId} {request : Request}
    (made : request.IsOfQuery id) (about : request.model? = some model) : model = id := by
  cases request <;> cases about <;> cases made <;> rfl

namespace ScriptedSolver

/-- Requests for vectors apart, what spares the models has a body. -/
theorem bodied_of_sparesModels {request : Request} (spares : request.sparesModels = true) :
    (request.call?.isSome = true ∨ request.isQuestion = true) ∨
      ∀ solver, (Outcome.state (answer request solver)).models = solver.models ∧
        ∀ model left, answer request solver ≠ .error (.modelUsedAfterFree model) left := by
  cases request
  case startUp | shutDown | isRunning | errorCode | errorReport | errorText | clearError |
      newTermVector | newNodeVector =>
    exact Or.inr fun solver => ⟨rfl, fun model left ended => by cases ended⟩
  case reset | freeModel | getModel | modelFromMap => cases spares
  case releaseTermVector vector | releaseNodeVector vector =>
    refine Or.inr fun solver => ?_
    simp only [answer, releaseVector, get_bind]
    cases solver.vector? vector <;> exact ⟨rfl, fun model left ended => by cases ended⟩
  all_goals exact Or.inl (by simp [Request.call?, Request.isQuestion])

/-- Whatever spares the models makes none and frees none. If it meets a freed model, this is the
model that it is about. -/
theorem answer_sparesModels {request : Request} (spares : request.sparesModels = true)
    (solver : ScriptedSolver) :
    ModelsKept solver (Outcome.state (answer request solver)) ∧
      ∀ model left, answer request solver = .error (.modelUsedAfterFree model) left →
        request.model? = some model ∧ solver.model? model = none := by
  rcases bodied_of_sparesModels spares with bodied | quiet
  · rcases answer_changes bodied solver with ⟨⟨calls, changes⟩, faults⟩
    have makesNone : request.makesModel = false := by
      cases request <;> first | rfl | cases spares
    have called : ModelsKept solver { solver with calls } := .of_models_eq rfl
    have kept := called.trans (changes.models makesNone)
    refine ⟨kept, fun model left ended => ?_⟩
    rcases faults model left ended with ⟨about, missing⟩
    refine ⟨about, ?_⟩
    rw [ended] at kept
    simpa [missing] using kept.live model
  · rcases quiet solver with ⟨models, noUse⟩
    exact ⟨.of_models_eq models, fun model left ended => absurd ended (noUse model left)⟩

/-- In answering requests that spare the models, the solver keeps those that there are in a state
`base`, and meets a freed model only if it is asked about one. -/
theorem respects_modelsKept (base : ScriptedSolver) {requests : Request → Prop}
    (spare : ∀ request, requests request → request.sparesModels = true) :
    Respects answer (ModelsKept base)
      (fun fault => ∀ model, fault = .modelUsedAfterFree model →
        (∃ request, requests request ∧ request.model? = some model) ∧ base.model? model = none)
      requests := by
  have spares {request : Request} (made : request.Among requests) :
      request.sparesModels = true := by
    rcases made with made | rfl | rfl
    · exact spare request made
    · rfl
    · rfl
  refine ⟨fun {request state} made kept => ?_, fun {request state fault left} made kept ended => ?_⟩
  · exact kept.trans (answer_sparesModels (spares made) state).1
  · rintro model rfl
    rcases (answer_sparesModels (spares made) state).2 model left ended with ⟨about, missing⟩
    refine ⟨?_, by simpa [missing] using (kept.live model).symm⟩
    rcases made with made | rfl | rfl
    · exact ⟨request, made, about⟩
    · cases about
    · cases about

/-! ## Requests for models -/

/-- What comes of a request for a model: the next number, or nothing. -/
inductive Making (solver : ScriptedSolver) :
    EStateM.Result Fault ScriptedSolver (Option ModelId) → Prop where
  | made {left : ScriptedSolver} (model : ScriptedModel)
      (models : left.models = solver.models.push (some model)) :
      Making solver (.ok (some ⟨solver.models.size⟩) left)
  | refused {left : ScriptedSolver} (models : left.models = solver.models) :
      Making solver (.ok none left)

theorem attempt_making {call : Call} {body : Step (Option ModelId)}
    (making : ∀ solver, Making solver (body solver)) (solver : ScriptedSolver) :
    Making solver (attempt call none body solver) := by
  by_cases scripted : call ∈ solver.failing
  · rw [attempt_of_mem scripted]
    exact .refused rfl
  · rw [attempt_of_not_mem scripted]
    have counted := making (withCall call solver)
    generalize body (withCall call solver) = ending at counted ⊢
    cases counted with
    | made model models => exact .made model models
    | refused models => exact .refused models

theorem getModel_making (context : ContextId) (keepSubstitution : Bool)
    (solver : ScriptedSolver) :
    Making solver (answer (.getModel context keepSubstitution) solver) := by
  refine attempt_making (fun solver => ?_) solver
  rw [get_bind]
  cases solver.contexts[context.number]?.join with
  | some assignment => exact .made _ rfl
  | none => exact .refused rfl

theorem modelFromMap_making (targets values : List TermId) (solver : ScriptedSolver) :
    Making solver (answer (.modelFromMap targets values) solver) := by
  refine attempt_making (fun solver => ?_) solver
  by_cases lengths : targets.length = values.length
  · simp only [lengths, ne_eq, not_true, if_false, get_bind]
    cases assignmentOf solver [] (targets.zip values) with
    | ok assignment => exact .made _ rfl
    | error offence => exact .refused rfl
  · simp only [lengths, ne_eq, not_false_eq_true, if_true]
    exact .refused rfl

end ScriptedSolver

namespace Action

open ScriptedSolver

variable {σ : Type}

/-- What comes of making a model with the library: the next number, or a stop with the models as
they were. -/
inductive Obtains (start : Traced ScriptedSolver) :
    EStateM.Result Stop (Traced ScriptedSolver) Model → Prop where
  | made {left : Traced ScriptedSolver} (model : ScriptedModel)
      (models : left.state.models = start.state.models.push (some model)) :
      Obtains start (.ok { id := ⟨start.state.models.size⟩ } left)
  | stopped {left : Traced ScriptedSolver} (stop : Stop)
      (models : left.state.models = start.state.models) : Obtains start (.error stop left)

theorem failCall_models {α : Type} (name : Call) (traced : Traced ScriptedSolver) :
    (Outcome.state (failCall answer name traced : EStateM.Result _ _ α)).state.models =
      traced.state.models := by
  by_cases clear : traced.state.error = .noError
  · rw [failCall_of_noError clear]
    rfl
  · rw [failCall_of_error clear]
    rfl

/-- A handle that is asked for becomes a model of the library. -/
theorem obtains_of_making {asked : Action ScriptedSolver (Option ModelId)}
    {start : Traced ScriptedSolver} {ending : EStateM.Result Fault ScriptedSolver (Option ModelId)}
    (making : Making start.state ending)
    (asks : ∀ handle? left, ending = .ok handle? left →
      asked start = .ok handle? ⟨left, start.events⟩)
    (name : Call) (event : Event) :
    Obtains start ((do
      let id ← checkHandle answer name (← asked)
      record event
      return { id } : Action ScriptedSolver Model) start) := by
  cases making with
  | made model models =>
      rw [Outcome.bind_of_ok (asks _ _ rfl)]
      exact .made model models
  | @refused left models =>
      rw [Outcome.bind_of_ok (asks _ _ rfl)]
      have kept := failCall_models (α := ModelId) name ⟨left, start.events⟩
      cases failed : (failCall answer name ⟨left, start.events⟩ :
          EStateM.Result Stop (Traced ScriptedSolver) ModelId) with
      | ok id reached => cases failCall_ne_ok failed
      | error stop reached =>
          rw [failed] at kept
          rw [checkHandle, Outcome.bind_of_error failed]
          exact .stopped stop (kept.trans models)

theorem ofContext_obtains (context : ContextId) (keepSubstitution : Bool)
    (start : Traced ScriptedSolver) :
    Obtains start (Model.ofContext answer context keepSubstitution start) :=
  obtains_of_making (getModel_making context keepSubstitution start.state)
    (fun _ _ => ask_of_ok) _ _

theorem ofPairs_obtains (pairs : List (TermId × TermId)) (start : Traced ScriptedSolver) :
    Obtains start (Model.ofPairs answer pairs start) :=
  obtains_of_making (modelFromMap_making _ _ start.state) (fun _ _ => ask_of_ok) _ _

end Action

/-! ## Deeds -/

/-- What a move can do to models. -/
inductive Deed where
  | made (id : ModelId)
  /-- Disposed of, or dropped, by the owner. -/
  | disposed (id : ModelId)
  | reset
  deriving DecidableEq

/-- The model that was made. -/
def Deed.made? : Deed → Option ModelId
  | made id => some id
  | _ => none

/-- The making of a model, if it ended with one. -/
def Deed.ofMaking {σ : Type} : Client.Ending σ ModelId → Option Deed
  | .ok id _ => some (.made id)
  | .error .. => none

/-- What an operation with an ending did to models. -/
def Operation.deed? {σ : Type} :
    (operation : Operation) → Client.Ending σ operation.Answer → Option Deed
  | .modelOfContext .., ending => Deed.ofMaking ending
  | .modelOfPairs _, ending => Deed.ofMaking ending
  | .dispose id, _ => some (.disposed id)
  | .service .reset, _ => some .reset
  | _, _ => none

namespace Deeds

variable (past : List Deed)

/-- The models that were made, the latest first. -/
def created : List ModelId := past.filterMap Deed.made?

/-- The models that were made after the last reset, and not disposed of. -/
def current : List ModelId :=
  (created (past.takeWhile (· ≠ .reset))).filter (.disposed · ∉ past)

/-- Whether there was a reset after a model was made. -/
def ResetSince (id : ModelId) : Prop := .reset ∈ past.takeWhile (· ≠ .made id)

end Deeds

theorem Model.id_withLimit (model : Model) {levels : Nat} {limited : Model}
    (limits : model.withLimit levels = .ok limited) : limited.id = model.id := by
  simp only [withLimit, DepthLimit.ofLevels] at limits
  split at limits <;> cases limits
  rfl

namespace Client

open ScriptedSolver

/-- The numbers of the models that the client owns. -/
def ids {σ : Type} (client : Client σ) : List ModelId := client.owned.map (·.id)

/-- What a move of a session does to models. -/
def deed? (client : Client ScriptedSolver) : Move → Option Deed
  | .script _ => none
  | .operate operation =>
    (run ScriptedSolver.answer client operation).bind operation.deed?

/-- What the moves of a session did to models, the latest first. -/
def deedsFrom (client : Client ScriptedSolver) (past : List Deed) : List Move → List Deed
  | [] => past
  | made :: moves =>
    deedsFrom (client.move ScriptedSolver.answer ScriptedSolver.afterCommand made)
      ((client.deed? made).toList ++ past) moves

/-- What the moves of a session from an empty solver did to models, the latest first. -/
def deeds (moves : List Move) : List Deed := deedsFrom (ofState {}) [] moves

/-- What a deed does to the models and to the ownership of the client. Without one both stay. -/
inductive Turn (client left : Client ScriptedSolver) : Option Deed → Prop where
  | quiet (models : ModelsKept client.traced.state left.traced.state)
      (ids : left.ids = client.ids) : Turn client left none
  | made (model : ScriptedModel)
      (models : left.traced.state.models = client.traced.state.models.push (some model))
      (ids : left.ids = client.ids ++ [⟨client.traced.state.models.size⟩]) :
      Turn client left (some (.made ⟨client.traced.state.models.size⟩))
  | disposed {id : ModelId} (owned : id ∈ client.ids)
      (size : left.traced.state.models.size = client.traced.state.models.size)
      (models : ∀ other, left.traced.state.model? other =
        if other = id then none else client.traced.state.model? other)
      (ids : left.ids = client.ids.filter (· ≠ id)) : Turn client left (some (.disposed id))
  | reset (models : left.traced.state.models = client.traced.state.models.map fun _ => none)
      (ids : left.ids = client.ids) : Turn client left (some .reset)

section Turns

open SmtModel.Action

variable {α : Type} (client : Client ScriptedSolver)

theorem find?_isSome_iff (id : ModelId) : (client.find? id).isSome = true ↔ id ∈ client.ids := by
  simp [find?, ids]

theorem id_of_find? {id : ModelId} {model : Model} (found : client.find? id = some model) :
    model.id = id := by
  simpa using List.find?_some found

theorem perform_turn {action : Action ScriptedSolver α} {keep : α → List Model}
    (models : ModelsKept client.traced.state (Outcome.state (action client.traced)).state)
    (ids : ∀ result, (keep result).map (·.id) = client.ids) :
    Turn client (Outcome.state (client.perform action keep)) none := by
  rcases client with ⟨traced, owned⟩
  simp only [perform]
  cases ended : action traced with
  | ok result left =>
      rw [ended] at models
      exact .quiet models (ids result)
  | error stop left =>
      rw [ended] at models
      exact .quiet models rfl

/-- Apart from a reset, services leave the models alone. -/
theorem service_ensures {service : Service} (noReset : service ≠ .reset) (base : ScriptedSolver) :
    Ensures (ModelsKept base) (fun _ => True) Ensures.any (service.perform answer) := by
  have spares : service.request.sparesModels = true := by
    cases service <;> first | rfl | exact absurd rfl noReset
  have respects := respects_modelsKept base fun request spares => spares
  exact service.perform_ensures ⟨respects.kept, fun _ _ _ => trivial⟩ spares

/-- A query meets a freed model only if its own model is freed. -/
theorem query_respects (base : ScriptedSolver) (id : ModelId) :
    Respects answer (ModelsKept base)
      (fun fault => ∀ model, fault = .modelUsedAfterFree model →
        model = id ∧ base.model? id = none)
      (Request.IsOfQuery id) := by
  have spare (request : Request) (made : request.IsOfQuery id) : request.sparesModels = true :=
    Request.sparesModels_of_isOfQuery made
  have respects := respects_modelsKept base spare
  refine ⟨respects.kept, fun made kept ended model isUse => ?_⟩
  rcases respects.fault made kept ended model isUse with ⟨⟨request, made, about⟩, missing⟩
  have same := Request.model?_of_isOfQuery made about
  exact ⟨same, same ▸ missing⟩

theorem obtained_turn {action : Action ScriptedSolver Model}
    (obtains : Obtains client.traced (action client.traced)) :
    Turn client
      (Outcome.state (Ending.map (·.id)
        (client.perform action fun model => client.owned ++ [model])))
      (Deed.ofMaking
        (Ending.map (·.id) (client.perform action fun model => client.owned ++ [model]))) := by
  rcases client with ⟨traced, owned⟩
  simp only [perform]
  generalize action traced = ending at obtains
  cases obtains with
  | made model models =>
      refine .made model models ?_
      simp [ids, Ending.map]
  | stopped stop models => exact .quiet (.of_models_eq models) rfl

/-- The client once it has given up a model, with another state of the solver. -/
def without (id : ModelId) (state : ScriptedSolver) : Client ScriptedSolver :=
  ⟨⟨state, .freeingModel :: client.traced.events⟩, client.owned.filter (·.id ≠ id)⟩

theorem find?_without {id other : ModelId} (differ : other ≠ id) (state : ScriptedSolver) :
    (client.without id state).find? other = client.find? other := by
  simp only [find?, without, List.find?_filter]
  congr 1
  funext model
  by_cases same : model.id = other
  · simp [same, differ]
  · simp [same]

theorem run_dispose {id : ModelId} {model : Model} (found : client.find? id = some model) :
    run answer client (.dispose id) = some (
      match freeModel id client.traced.state with
      | .ok () left => .ok () (client.without id left)
      | .error fault left => .error (.fault fault) (client.without id left)) := by
  have isId := client.id_of_find? found
  rcases client with ⟨⟨state, events⟩, owned⟩
  simp only [run, found, Option.bind_eq_bind, Option.bind_some, Option.pure_def]
  subst isId
  have runs : model.dispose answer ⟨state, events⟩ =
      ask answer (.freeModel model.id) ⟨state, .freeingModel :: events⟩ := rfl
  have answers : answer (.freeModel model.id) state = freeModel model.id state := rfl
  simp only [perform, runs, ask, answers]
  cases freeModel model.id state <;> rfl

end Turns

/-- Every operation takes one turn. -/
theorem run_turn {client : Client ScriptedSolver} {operation : Operation}
    {ending : Ending ScriptedSolver operation.Answer}
    (ran : run answer client operation = some ending) :
    Turn client (Outcome.state ending) (operation.deed? ending) := by
  cases operation with
  | service service =>
      cases ran
      by_cases isReset : service = .reset
      · subst isReset
        exact .reset rfl rfl
      · have ensures := service_ensures isReset client.traced.state client.traced
          (.of_models_eq rfl)
        have quiet : Operation.deed? (.service service)
            (client.perform (service.perform answer) fun _ => client.owned) = none := by
          cases service <;> first | rfl | exact absurd rfl isReset
        rw [quiet]
        exact client.perform_turn ensures.kept fun _ => rfl
  | modelOfContext context keepSubstitution =>
      cases ran
      exact client.obtained_turn (Action.ofContext_obtains context keepSubstitution client.traced)
  | modelOfPairs pairs =>
      cases ran
      exact client.obtained_turn (Action.ofPairs_obtains pairs client.traced)
  | query id query =>
      cases found : client.find? id with
      | none => simp [run, found] at ran
      | some model =>
          simp only [run, found, Option.bind_eq_bind, Option.bind_some, Option.pure_def,
            Option.some.injEq] at ran
          subst ran
          have respects := query_respects client.traced.state model.id
          have ensures := Model.ask_ensures respects (by simp) query client.traced
            (.of_models_eq rfl)
          exact client.perform_turn ensures.kept fun _ => rfl
  | limitDepth id levels =>
      cases found : client.find? id with
      | none => simp [run, found] at ran
      | some model =>
          simp only [run, found, Option.bind_eq_bind, Option.bind_some, Option.pure_def] at ran
          cases limiting : model.withLimit levels with
          | error failure =>
              rw [limiting] at ran
              cases ran
              exact .quiet (.of_models_eq rfl) rfl
          | ok limited =>
              rw [limiting] at ran
              cases ran
              refine .quiet (.of_models_eq rfl) ?_
              have limitedId : limited.id = id :=
                (model.id_withLimit limiting).trans (client.id_of_find? found)
              simp only [ids, Outcome.state_ok, List.map_map]
              refine List.map_congr_left fun other _ => ?_
              simp only [Function.comp_apply]
              by_cases same : other.id = id
              · rw [if_pos same, limitedId, same]
              · rw [if_neg same]
  | dispose id =>
      cases found : client.find? id with
      | none => simp [run, found] at ran
      | some model =>
          have owned : id ∈ client.ids := (client.find?_isSome_iff id).mp (by simp [found])
          have others : (client.owned.filter (·.id ≠ id)).map (·.id) =
              client.ids.filter (· ≠ id) := by
            rw [ids, List.filter_map]
            rfl
          have freed := freeModel_models id client.traced.state
          rw [client.run_dispose found] at ran
          generalize freeModel id client.traced.state = ending at freed ran
          cases ending <;> cases ran <;> exact .disposed owned freed.1 freed.2 others

theorem move_turn (client : Client ScriptedSolver) (made : Move) :
    Turn client (client.move answer afterCommand made) (client.deed? made) := by
  cases made with
  | script command =>
      exact .quiet (.of_models_eq (afterCommand_commanded command client.traced.state).models) rfl
  | operate operation =>
      simp only [move, deed?]
      cases ran : run answer client operation with
      | none => exact .quiet (.of_models_eq rfl) rfl
      | some ending => exact run_turn ran

end Client

/-! ## The record of ownership -/

namespace Deeds

variable {past : List Deed} {id : ModelId}

theorem mem_created : id ∈ created past ↔ .made id ∈ past := by
  simp only [created, List.mem_filterMap]
  constructor
  · rintro ⟨deed, isPast, isMade⟩
    cases deed with
    | made other =>
        cases isMade
        exact isPast
    | disposed | reset => cases isMade
  · intro isPast
    exact ⟨_, isPast, rfl⟩

theorem mem_current :
    id ∈ current past ↔ .made id ∈ past.takeWhile (· ≠ .reset) ∧ .disposed id ∉ past := by
  simp [current, mem_created]

/-- Of two entries of a list, one comes before the other. -/
theorem mem_takeWhile_iff {first second : Deed} (differ : first ≠ second)
    (isPast : first ∈ past) :
    first ∈ past.takeWhile (· ≠ second) ↔ second ∉ past.takeWhile (· ≠ first) := by
  induction past with
  | nil => cases isPast
  | cons deed past ih =>
      by_cases isFirst : deed = first
      · subst isFirst
        simp [differ]
      · by_cases isSecond : deed = second
        · subst isSecond
          simp [isFirst]
        · have isLater : first ∈ past := by
            rcases List.mem_cons.mp isPast with same | isLater
            · exact absurd same.symm isFirst
            · exact isLater
          have different : ¬ first = deed := fun same => isFirst same.symm
          have different' : ¬ second = deed := fun same => isSecond same.symm
          simpa [isFirst, isSecond, different, different'] using ih isLater

end Deeds

namespace ScriptedSolver

/-- The places of the models that are not freed. -/
def livePlaces (solver : ScriptedSolver) : List Nat :=
  (List.range solver.models.size).filter fun place => (solver.models[place]?.join).isSome

theorem liveModels_eq_length (solver : ScriptedSolver) :
    solver.liveModels = solver.livePlaces.length := by
  have places : solver.models.toList.map some =
      (List.range solver.models.size).map (solver.models[·]?) := by
    apply List.ext_getElem?
    intro place
    by_cases inside : place < solver.models.size
    · simp [inside]
    · simp [Nat.le_of_not_lt inside]
  calc solver.liveModels = (solver.models.toList.map some).countP (·.join.isSome) := by
        simp [liveModels, List.countP_map, Function.comp_def]
    _ = _ := by
        rw [places, List.countP_map, List.countP_eq_length_filter]
        rfl

/-- Whoever lists the live models, each once, has counted them. -/
theorem liveModels_eq {solver : ScriptedSolver} {ids : List ModelId} (nodup : ids.Nodup)
    (live : ∀ id, id ∈ ids ↔ (solver.model? id).isSome = true) :
    solver.liveModels = ids.length := by
  have numbers : (ids.map (·.number)).Perm solver.livePlaces := by
    refine (List.perm_ext_iff_of_nodup ?_ ?_).mpr fun place => ?_
    · refine nodup.map fun left right same => ?_
      cases left
      cases right
      exact congrArg ModelId.mk same
    · exact List.nodup_range.filter _
    · simp only [livePlaces, List.mem_map, List.mem_filter, List.mem_range]
      constructor
      · rintro ⟨id, isListed, rfl⟩
        have isLive := (live id).mp isListed
        refine ⟨?_, isLive⟩
        apply Nat.lt_of_not_le
        intro outside
        simp [model?, outside] at isLive
      · rintro ⟨_, lives⟩
        exact ⟨⟨place⟩, (live ⟨place⟩).mpr lives, rfl⟩
  rw [liveModels_eq_length, ← numbers.length_eq, List.length_map]

end ScriptedSolver

/-- A record of deeds, the latest first, that is in step with a client and its solver. -/
structure Owns (client : Client ScriptedSolver) (past : List Deed) : Prop where
  numbered : Deeds.created past =
    ((List.range client.traced.state.models.size).map ModelId.mk).reverse
  made : ∀ id, .disposed id ∈ past → .made id ∈ past
  live : ∀ id, (client.traced.state.model? id).isSome = true ↔
    .made id ∈ past.takeWhile (· ≠ .reset) ∧ .disposed id ∉ past
  owned : ∀ id, id ∈ client.ids ↔ .made id ∈ past ∧ .disposed id ∉ past

namespace Owns

open Deeds

variable {client left : Client ScriptedSolver} {past : List Deed}

theorem start : Owns (Client.ofState {}) [] where
  numbered := rfl
  made := by simp
  live := by simp [Client.ofState, ScriptedSolver.model?]
  owned := by simp [Client.ofState, Client.ids]

theorem length_created (owns : Owns client past) :
    (created past).length = client.traced.state.models.size := by
  simp [owns.numbered]

theorem made_iff (owns : Owns client past) (id : ModelId) :
    .made id ∈ past ↔ id.number < client.traced.state.models.size := by
  rw [← mem_created, owns.numbered]
  simp only [List.mem_reverse, List.mem_map, List.mem_range]
  constructor
  · rintro ⟨place, inside, rfl⟩
    exact inside
  · intro inside
    exact ⟨id.number, inside, rfl⟩

theorem turn (owns : Owns client past) {deed? : Option Deed}
    (turn : client.Turn left deed?) : Owns left (deed?.toList ++ past) := by
  cases turn with
  | quiet models ids =>
      refine ⟨?_, owns.made, fun id => ?_, fun id => ?_⟩
      · rw [models.size]
        exact owns.numbered
      · rw [models.live]
        exact owns.live id
      · rw [ids]
        exact owns.owned id
  | made model models ids =>
      have new := owns.made_iff ⟨client.traced.state.models.size⟩
      have notMade : .made ⟨client.traced.state.models.size⟩ ∉ past := by simpa using new.not
      have notDisposed : .disposed ⟨client.traced.state.models.size⟩ ∉ past :=
        fun isDisposed => notMade (owns.made _ isDisposed)
      refine ⟨?_, fun id => ?_, fun id => ?_, fun id => ?_⟩
      · have numbered := owns.numbered
        simp only [created] at numbered
        simp [created, Deed.made?, models, List.range_succ, numbered]
      · simpa using fun isDisposed => Or.inr (owns.made id isDisposed)
      · by_cases isNew : id = ⟨client.traced.state.models.size⟩
        · subst isNew
          simpa [ScriptedSolver.model?, models] using notDisposed
        · have different : id.number ≠ client.traced.state.models.size := by
            intro same
            cases id
            exact isNew (congrArg ModelId.mk same)
          have lives := owns.live id
          simp only [ScriptedSolver.model?] at lives
          simpa [ScriptedSolver.model?, models, Array.getElem?_push, different, isNew] using lives
      · by_cases isNew : id = ⟨client.traced.state.models.size⟩
        · subst isNew
          simpa [ids] using notDisposed
        · simpa [ids, isNew] using owns.owned id
  | @disposed disposed isOwned size models ids =>
      have isMade := ((owns.owned disposed).mp isOwned).1
      refine ⟨?_, fun id => ?_, fun id => ?_, fun id => ?_⟩
      · rw [size]
        exact owns.numbered
      · by_cases same : id = disposed
        · subst same
          simpa using isMade
        · simpa [same] using owns.made id
      · rw [models]
        by_cases same : id = disposed
        · simp [same]
        · simpa [same] using owns.live id
      · rw [ids]
        by_cases same : id = disposed
        · simp [same]
        · simpa [same] using owns.owned id
  | reset models ids =>
      refine ⟨?_, fun id => ?_, fun id => ?_, fun id => ?_⟩
      · rw [models, Array.size_map]
        exact owns.numbered
      · simpa using owns.made id
      · simp only [ScriptedSolver.model?, models, Array.getElem?_map]
        cases client.traced.state.models[id.number]? <;> simp
      · rw [ids]
        simpa using owns.owned id

/-- The record lists every live model once. -/
theorem liveModels (owns : Owns client past) :
    client.traced.state.liveModels = (current past).length := by
  have nodup : (created past).Nodup := by
    rw [owns.numbered, List.nodup_reverse]
    exact List.nodup_range.map fun left right same => ModelId.mk.inj same
  have sublist : (created (past.takeWhile (· ≠ .reset))).Sublist (created past) :=
    (List.takeWhile_sublist _).filterMap _
  refine ScriptedSolver.liveModels_eq ((nodup.sublist sublist).filter _) fun id => ?_
  rw [mem_current, owns.live]

/-- An owned model is freed if and only if a reset came after it was made. -/
theorem freed_iff (owns : Owns client past) {id : ModelId} (isOwned : id ∈ client.ids) :
    client.traced.state.model? id = none ↔ ResetSince past id := by
  rcases (owns.owned id).mp isOwned with ⟨isMade, notDisposed⟩
  have earlier := mem_takeWhile_iff (by simp : Deed.made id ≠ .reset) isMade
  have live := owns.live id
  simp only [notDisposed, not_false_eq_true, and_true, earlier] at live
  rw [ResetSince, ← Option.not_isSome_iff_eq_none, live, not_not]

end Owns

namespace Client

open ScriptedSolver

/-- After each move of a session, the record of the deeds is in step with the client. -/
theorem session_owns (moves : List Move) : Owns (session moves) (deeds moves) := by
  suffices kept : ∀ client past, Owns client past →
      Owns (moves.foldl (move answer afterCommand) client) (deedsFrom client past moves) from
    kept _ _ Owns.start
  induction moves with
  | nil => exact fun client past owns => owns
  | cons made moves ih => exact fun client past owns => ih _ _ (owns.turn (client.move_turn made))

/-- Making a model ends with the number of the models that were made before, which no model had, or
stops with all models as they were and nothing more owned. -/
inductive MakesNext (client : Client ScriptedSolver) (past : List Deed) :
    Option (Ending ScriptedSolver ModelId) → Prop where
  | made {left : Client ScriptedSolver} (new : .made ⟨(Deeds.created past).length⟩ ∉ past)
      (owned : left.ids = client.ids ++ [⟨(Deeds.created past).length⟩]) :
      MakesNext client past (some (.ok ⟨(Deeds.created past).length⟩ left))
  | stopped {left : Client ScriptedSolver} (stop : Stop)
      (models : left.traced.state.models = client.traced.state.models)
      (owned : left.owned = client.owned) : MakesNext client past (some (.error stop left))

/-- Disposing of a model ends in a fault exactly if a reset has freed it. In no case is another
model touched, or given up. -/
structure DisposesOf (client : Client ScriptedSolver) (past : List Deed) (id : ModelId)
    (ending : Ending ScriptedSolver Unit) : Prop where
  freedTwice : (∃ left, ending = .error (.fault (.modelFreedTwice id)) left) ↔
    Deeds.ResetSince past id
  freed : (∃ left, ending = .ok () left) ↔ ¬ Deeds.ResetSince past id
  others : ∀ other ≠ id,
    (Outcome.state ending).traced.state.model? other = client.traced.state.model? other ∧
      (Outcome.state ending).find? other = client.find? other

section Owned

variable {client : Client ScriptedSolver} {past : List Deed} (owns : Owns client past)

include owns

theorem makesNext_of_obtains {action : Action ScriptedSolver Model}
    (obtains : Action.Obtains client.traced (action client.traced)) :
    MakesNext client past (some (Ending.map (·.id)
      (client.perform action fun model => client.owned ++ [model]))) := by
  have length := owns.length_created
  have new := owns.made_iff ⟨client.traced.state.models.size⟩
  rcases client with ⟨traced, owned⟩
  simp only [perform]
  generalize action traced = ending at obtains
  cases obtains with
  | made model models =>
      simp only [Ending.map, ← length]
      refine .made ?_ ?_
      · simpa [length] using new
      · simp [ids]
  | stopped stop models => exact .stopped stop models rfl

/-- A query meets a freed model only if its own model is one. -/
theorem query_usesFreed {id model : ModelId} {query : Query}
    {left : Client ScriptedSolver} {ending : Ending ScriptedSolver query.Answer}
    (ran : run answer client (.query id query) = some ending)
    (ended : ending = .error (.fault (.modelUsedAfterFree model)) left) :
    model = id ∧ Deeds.ResetSince past id := by
  cases found : client.find? id with
  | none => simp [run, found] at ran
  | some asked =>
      have isOwned : id ∈ client.ids := (client.find?_isSome_iff id).mp (by simp [found])
      have isId := client.id_of_find? found
      have ends := Model.ask_ensures (query_respects client.traced.state asked.id) (by simp) query
        client.traced (.of_models_eq rfl)
      rcases client with ⟨traced, owned⟩
      simp only [run, found, Option.bind_eq_bind, Option.bind_some, Option.pure_def,
        Option.some.injEq, perform] at ran
      subst ran
      generalize asked.ask answer query traced = answered at ends ended
      cases ends with
      | result | failure => cases ended
      | fault kept known =>
          cases ended
          rcases known model rfl with ⟨same, missing⟩
          rw [isId] at same missing
          exact ⟨same, (owns.freed_iff isOwned).mp missing⟩

theorem disposesOf {id : ModelId} {ending : Ending ScriptedSolver Unit}
    (ran : run answer client (.dispose id) = some ending) : DisposesOf client past id ending := by
  cases found : client.find? id with
  | none => simp [run, found] at ran
  | some model =>
      have isOwned : id ∈ client.ids := (client.find?_isSome_iff id).mp (by simp [found])
      have reset := owns.freed_iff isOwned
      have freed := freeModel_models id client.traced.state
      rw [client.run_dispose found] at ran
      cases lives : client.traced.state.model? id with
      | none =>
          rw [freeModel_of_none lives] at ran freed
          cases ran
          have isReset := reset.mp lives
          refine ⟨by simp [isReset], by simp [isReset], fun other differ => ⟨?_, ?_⟩⟩
          · exact (freed.2 other).trans (if_neg differ)
          · exact client.find?_without differ _
      | some live =>
          rw [freeModel_of_some lives] at ran freed
          cases ran
          have noReset : ¬ Deeds.ResetSince past id := by simp [← reset, lives]
          refine ⟨by simp [noReset], by simp [noReset], fun other differ => ⟨?_, ?_⟩⟩
          · exact (freed.2 other).trans (if_neg differ)
          · exact client.find?_without differ _

end Owned

/-- After each move of a session, the live models are those that were made after the last reset and
not disposed of, and the client owns those that it made and did not dispose of. A new model gets
the number of the models made before, and whatever stops without one makes none. Only after a
reset can a query meet a freed model, or disposing of a model be a fault. -/
theorem session_ownership (moves : List Move) :
    let client := session moves
    let past := deeds moves
    client.traced.state.liveModels = (Deeds.current past).length ∧
      (∀ id, (client.find? id).isSome = true ↔ .made id ∈ past ∧ .disposed id ∉ past) ∧
      (∀ context keepSubstitution,
        MakesNext client past (run answer client (.modelOfContext context keepSubstitution))) ∧
      (∀ pairs, MakesNext client past (run answer client (.modelOfPairs pairs))) ∧
      (∀ id query ending, run answer client (.query id query) = some ending →
        ∀ model left, ending = .error (.fault (.modelUsedAfterFree model)) left →
          model = id ∧ Deeds.ResetSince past id) ∧
      ∀ id ending, run answer client (.dispose id) = some ending →
        DisposesOf client past id ending := by
  intro client past
  have owns : Owns client past := session_owns moves
  refine ⟨owns.liveModels, fun id => ?_, fun context keepSubstitution => ?_, fun pairs => ?_, ?_, ?_⟩
  · exact (client.find?_isSome_iff id).trans (owns.owned id)
  · exact makesNext_of_obtains owns (Action.ofContext_obtains context keepSubstitution _)
  · exact makesNext_of_obtains owns (Action.ofPairs_obtains pairs _)
  · exact fun id query ending ran model left ended => query_usesFreed owns ran ended
  · exact fun id ending ran => disposesOf owns ran

end Client

end SmtModel
