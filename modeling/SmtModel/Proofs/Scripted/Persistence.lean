import SmtModel.Proofs.Scripted.Values

/-!
# What the scripted solver remembers

A later state remembers a model of an earlier one if it has all types and terms that there
were, and, if the model was live, the model with the same assignment
(`ScriptedSolver.Remembers`). Whatever is asked of the solver, it remembers a model, a
reset and the freeing of this model apart.

What is read off such a state persists (`ScriptedSolver.Persists`): it is the same from
any state that remembers the model.
-/

namespace SmtModel.ScriptedSolver

variable {α β : Type} {id : ModelId} {earlier later : ScriptedSolver}

/-- A term that is known stays known when terms are added. -/
theorem term?_of_prefix (terms : earlier.terms.toList <+: later.terms.toList) {term : TermId}
    {entry : ScriptedTerm} (known : earlier.term? term = some entry) :
    later.term? term = some entry := by
  simp only [term?, Option.bind_eq_bind, Option.bind_eq_some_iff] at known ⊢
  rcases known with ⟨index, place, found⟩
  rcases terms with ⟨terms, appended⟩
  refine ⟨index, place, ?_⟩
  rw [← Array.getElem?_toList] at found ⊢
  rw [← appended, List.getElem?_append_left (List.getElem?_eq_some_iff.mp found).1, found]

/-- Types and terms were added at most, and a live model kept its assignment and got more nodes at
most. -/
structure Remembers (id : ModelId) (earlier later : ScriptedSolver) : Prop where
  types : earlier.types.toList <+: later.types.toList
  terms : earlier.terms.toList <+: later.terms.toList
  model : ∀ live, earlier.model? id = some live →
    ∃ nodes : List ScriptedValue, later.model? id = some { live with nodes := live.nodes ++ nodes }

namespace Remembers

theorem of_extends (grown : Extends earlier later) : Remembers id earlier later where
  types := grown.types ▸ List.prefix_rfl
  terms := grown.terms
  model := grown.models id

theorem refl (solver : ScriptedSolver) : Remembers id solver solver := of_extends (.refl solver)

theorem trans {first second third : ScriptedSolver} (before : Remembers id first second)
    (after : Remembers id second third) : Remembers id first third where
  types := before.types.trans after.types
  terms := before.terms.trans after.terms
  model live found := by
    rcases before.model live found with ⟨nodes, found⟩
    rcases after.model _ found with ⟨nodes', found⟩
    refine ⟨nodes ++ nodes', found.trans ?_⟩
    congr 2
    exact Array.ext' (by simp)

/-- What happens to the other tables does not matter. -/
theorem of_tables_eq (types : later.types = earlier.types) (terms : later.terms = earlier.terms)
    (model : later.model? id = earlier.model? id) : Remembers id earlier later where
  types := types ▸ List.prefix_rfl
  terms := terms ▸ List.prefix_rfl
  model live found := ⟨[], by simpa [model] using found⟩

theorem of_commanded (commanded : Commanded earlier later) : Remembers id earlier later where
  types := commanded.types
  terms := commanded.terms
  model live found := ⟨[], by simpa [model?, commanded.models] using found⟩

theorem hasRoom (remembers : Remembers id earlier later) (room : later.HasRoom id) :
    earlier.HasRoom id where
  nodes live found := by
    rcases remembers.model live found with ⟨nodes, foundLater⟩
    have bound := room.nodes _ foundLater
    simp only [← Array.length_toList, Array.toList_appendList, List.length_append] at bound ⊢
    omega
  terms := by
    have bound := room.terms
    have length := remembers.terms.length_le
    simp only [Array.length_toList] at length
    omega

theorem term? (remembers : Remembers id earlier later) {term : TermId} {entry : ScriptedTerm}
    (known : earlier.term? term = some entry) : later.term? term = some entry :=
  term?_of_prefix remembers.terms known

theorem value? (remembers : Remembers id earlier later) {term : TermId} {value : ScriptedValue}
    (assigned : earlier.value? id term = some value) : later.value? id term = some value := by
  simp only [ScriptedSolver.value?, Option.bind_eq_bind, Option.bind_eq_some_iff] at assigned ⊢
  rcases assigned with ⟨entry, known, live, found, assigned⟩
  rcases remembers.model live found with ⟨nodes, foundLater⟩
  exact ⟨entry, remembers.term? known, _, foundLater, assigned⟩

end Remembers

/-- A reset and the freeing of the model apart, every answer leaves the model remembered. -/
theorem answer_remembers {request : Request} (noReset : request ≠ .reset)
    (notFreed : request ≠ .freeModel id) (solver : ScriptedSolver) :
    Remembers id solver (Outcome.state (answer request solver)) := by
  by_cases frees : ∃ freed, request = .freeModel freed
  · rcases frees with ⟨freed, rfl⟩
    have differ : id ≠ freed := fun same => notFreed (same ▸ rfl)
    have models := (freeModel_models freed solver).2 id
    rw [if_neg differ] at models
    simp only [answer]
    cases found : solver.model? freed with
    | none =>
        rw [freeModel_of_none found]
        exact .refl solver
    | some live =>
        rw [freeModel_of_some found] at models ⊢
        exact .of_tables_eq rfl rfl models
  · exact .of_extends (answer_extends noReset (fun freed same => frees ⟨freed, same⟩) solver)

/-! ## Steps that read a state -/

/-- Answers that are no sign of failure are given without a change, and again from every state that
remembers the model. -/
def Persists (id : ModelId) (refusal : α → Bool) (step : Step α) : Prop :=
  ∀ earlier answer left, step earlier = .ok answer left → refusal answer = false →
    left = earlier ∧ ∀ later, Remembers id earlier later → step later = .ok answer later

namespace Persists

variable {refusal : α → Bool}

theorem pure (result : α) : Persists id refusal (Pure.pure result) := by
  intro earlier answer left ran _
  cases ran
  exact ⟨rfl, fun later _ => rfl⟩

theorem of_refused {step : Step α}
    (refused : ∀ earlier answer left, step earlier = .ok answer left → refusal answer = true) :
    Persists id refusal step := by
  intro earlier answer left ran accepted
  simp [refused earlier answer left ran] at accepted

/-- Going on after a step, unless it has failed. -/
theorem bind {accepts : β → Bool} {first : Step β} {next : β → Step α}
    (before : Persists id accepts first)
    (after : ∀ result, accepts result = false → Persists id refusal (next result))
    (stops : ∀ result, accepts result = true →
      ∃ failed, refusal failed = true ∧ next result = Pure.pure failed) :
    Persists id refusal (first >>= next) := by
  intro earlier answer left both accepted
  rcases Outcome.bind_eq_ok.mp both with ⟨result, middle, ran, ended⟩
  cases isRefused : accepts result with
  | true =>
      rcases stops result isRefused with ⟨failed, refused, stopped⟩
      rw [stopped] at ended
      cases ended
      simp [refused] at accepted
  | false =>
      rcases before earlier result middle ran isRefused with ⟨rfl, again⟩
      rcases after result isRefused middle answer left ended accepted with ⟨rfl, againNext⟩
      refine ⟨rfl, fun later remembers => ?_⟩
      rw [Outcome.bind_of_ok (again later remembers)]
      exact againNext later remembers

theorem bindOption {first : Step (Option β)} {next : Option β → Step α} {failed : α}
    (before : Persists id Option.isNone first) (refused : refusal failed = true)
    (stops : next none = Pure.pure failed)
    (after : ∀ result, Persists id refusal (next (some result))) :
    Persists id refusal (first >>= next) := by
  refine before.bind (fun result? some => ?_) fun result? none => ⟨failed, refused, ?_⟩
  · cases result? with
    | none => cases some
    | some result => exact after result
  · cases result? with
    | none => exact stops
    | some result => cases none

theorem bindStatus {first : Step Int32} {next : Int32 → Step Int32}
    (before : Persists id (· = statusFailed) first)
    (stops : next statusFailed = Pure.pure statusFailed)
    (after : ∀ status, status ≠ statusFailed → Persists id (· = statusFailed) (next status)) :
    Persists id (· = statusFailed) (first >>= next) := by
  refine before.bind (fun status accepted => after status (of_decide_eq_false accepted))
    fun status refused => ⟨statusFailed, rfl, ?_⟩
  rw [of_decide_eq_true refused, stops]

end Persists

theorem valueOf_persists (term : TermId) : Persists id Option.isNone (valueOf id term) := by
  intro earlier value? left ran some
  cases value? with
  | none => cases some
  | some value =>
      rcases value?_of_valueOf ran with ⟨rfl, assigned⟩
      exact ⟨rfl, fun later remembers => valueOf_of_some (remembers.value? assigned)⟩

theorem truth_persists (formula : TermId) :
    Persists id (· = statusFailed) (truth id formula) := by
  refine .bindOption (valueOf_persists formula) (decide_eq_true rfl) rfl fun value => ?_
  dsimp only
  cases value.toTruth with
  | ok truth => exact .pure truth
  | error misfit =>
      refine .of_refused fun earlier answer left ran => ?_
      cases ran
      rfl

theorem conjunction_persists (formulas : List TermId) :
    Persists id (· = statusFailed) (conjunction id formulas) := by
  induction formulas with
  | nil => exact .pure 1
  | cons formula formulas ih =>
      refine .bindStatus (truth_persists formula) rfl fun first accepted => ?_
      simp only [if_neg accepted]
      refine .bindStatus ih rfl fun others accepted => ?_
      simp only [if_neg accepted]
      exact .pure _

theorem requireAll_persists (error : ErrorCode) (formulas : List TermId) :
    Persists id (· = statusFailed) (requireAll id error formulas) := by
  induction formulas with
  | nil => exact .pure statusOk
  | cons formula formulas ih =>
      refine .bindStatus (truth_persists formula) rfl fun first accepted => ?_
      simp only [if_neg accepted]
      by_cases isFalse : first = 0
      · simp only [if_pos isFalse]
        refine .of_refused fun earlier answer left ran => ?_
        cases ran
        rfl
      · simp only [if_neg isFalse]
        exact ih

/-! ## Calls -/

section Again

variable {name : Call} (free : name ∉ later.failing) (remembers : Remembers id earlier later)

include free remembers

/-- An answer that was accepted is given again, unless the call is scripted to fail by then. -/
theorem attempt_again (refusal : α → Bool) {failed : α} {body : Step α}
    (persists : Persists id refusal body) (refused : refusal failed = true) {answer : α}
    {left : ScriptedSolver} (ran : attempt name failed body earlier = .ok answer left)
    (accepted : refusal answer = false) :
    ∃ left', attempt name failed body later = .ok answer left' := by
  by_cases scripted : name ∈ earlier.failing
  · rw [attempt_of_mem scripted] at ran
    cases ran
    simp [refused] at accepted
  · rw [attempt_of_not_mem scripted] at ran
    rw [attempt_of_not_mem free]
    have before : Remembers id (withCall name earlier) earlier := .of_tables_eq rfl rfl rfl
    have after : Remembers id later (withCall name later) := .of_tables_eq rfl rfl rfl
    exact ⟨_, (persists _ _ _ ran accepted).2 _ ((before.trans remembers).trans after)⟩

theorem readTerm_again {term : TermId} {cell : α} {read : ScriptedValue → Except Misfit α}
    {reply : Reply α} {left : ScriptedSolver}
    (ran : readTerm name id term cell read earlier = .ok reply left)
    (accepted : decide (reply.status = statusFailed) = false) :
    ∃ left', readTerm name id term cell read later = .ok reply left' := by
  unfold readTerm at ran ⊢
  refine attempt_again free remembers (fun reply : Reply α => reply.status = statusFailed)
    ?_ rfl ran accepted
  refine .bindOption (valueOf_persists term) (decide_eq_true rfl) rfl fun value => ?_
  dsimp only
  cases read value with
  | ok result => exact .pure _
  | error misfit =>
      refine .of_refused fun earlier answer left ran => ?_
      cases ran
      rfl

end Again

end SmtModel.ScriptedSolver

namespace SmtModel.Action

open ScriptedSolver

variable {α β : Type} {start later : Traced ScriptedSolver}

/-- A result from one state is the result from another one. -/
def Again (start later : Traced ScriptedSolver) (action : Action ScriptedSolver α) : Prop :=
  ∀ result left, action start = .ok result left → ∃ left', action later = .ok result left'

/-- A call that is checked has the result again if its answer is given again. -/
theorem call_again {name : Call} (request : Request) {check : request.Answer → Routine α}
    (checks : Checks name request.isRefusal check)
    (again : ∀ reply left, answer request start.state = .ok reply left →
      request.isRefusal reply = false → ∃ left', answer request later.state = .ok reply left') :
    Again start later (ask answer request >>= fun reply => check reply _ answer) := by
  intro result left both
  rcases Outcome.bind_eq_ok.mp both with ⟨reply, reached, asked, ended⟩
  cases isRefused : request.isRefusal reply with
  | true =>
      rw [checks.refused reply isRefused] at ended
      exact absurd ended failCall_ne_ok
  | false =>
      rcases checks.accepted reply isRefused with ⟨accepted, accepts⟩
      rcases again reply _ (answer_of_ask asked) isRefused with ⟨left', answered⟩
      rw [accepts] at ended
      cases ended
      rw [Outcome.bind_of_ok (ask_of_ok answered), accepts]
      exact ⟨_, rfl⟩

/-- Likewise what is made of the result of a checked call. -/
theorem call_again_map {name : Call} (request : Request) {check : request.Answer → Routine β}
    (checks : Checks name request.isRefusal check) (finish : β → α)
    (again : ∀ reply left, answer request start.state = .ok reply left →
      request.isRefusal reply = false → ∃ left', answer request later.state = .ok reply left') :
    Again start later (do return finish (← check (← ask answer request) _ answer)) := by
  intro result left both
  rw [← bind_assoc] at both
  rcases Outcome.bind_eq_ok.mp both with ⟨value, reached, ran, ended⟩
  cases ended
  rcases call_again request checks again value left ran with ⟨left', ranAgain⟩
  rw [← bind_assoc]
  exact ⟨left', Outcome.bind_of_ok ranAgain⟩

end SmtModel.Action
