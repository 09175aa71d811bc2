import SmtModel.Proofs.Scripted.Nodes
import SmtModel.Proofs.Scripted.Vectors

/-!
# Endings of a reading

A reading is compared with what a scripted value means and with the offences in it. As
long as there is room for the nodes that are handed out, a part of the reading ends with
what is meant, and then there is no offence at the places that it looks at; or it ends
in the first of these offences (`Reading.Reads`). Other endings have to be excused, by
a call that is scripted to fail or by a zero denominator.

The parts are put together by `Reads.bind`, in which the tables may grow between the
parts: nodes go on showing their values, and meanings stay the same.
-/

namespace SmtModel.Reading

open ScriptedSolver

variable {α β : Type}

/-- How a reading that looks at `visits` may end, from a state of the solver. -/
inductive Ends (limit : DepthLimit) (excused : Prop) (start : ScriptedSolver)
    (visits : List Visit) (means : ScriptedSolver → α → Prop) :
    EStateM.Result Stop (Traced ScriptedSolver) α → Prop
  | ok {result : α} {left : Traced ScriptedSolver}
      (unoffended : ∀ visit ∈ visits, visit.offence? limit start = none)
      (errorTerm? : left.state.errorTerm? = start.errorTerm?)
      (meant : means left.state result) : Ends limit excused start visits means (.ok result left)
  | offence {failure : Failure} {left : Traced ScriptedSolver}
      (first : visits.findSome? (Visit.offence? limit start) = some failure) :
      Ends limit excused start visits means (.error (.failure failure) left)
  | excuse {stop : Stop} {left : Traced ScriptedSolver} (isExcused : excused) :
      Ends limit excused start visits means (.error stop left)

/-- A reading extends the tables, and ends as it may if there is room. -/
structure Reads (limit : DepthLimit) (model : ModelId) (excused : Prop) (start : ScriptedSolver)
    (visits : List Visit) (means : ScriptedSolver → α → Prop)
    (ending : EStateM.Result Stop (Traced ScriptedSolver) α) : Prop where
  grows : Extends start (Outcome.state ending).state
  ends : (Outcome.state ending).state.HasRoom model →
    Ends limit excused start visits means ending

/-- No call is scripted to fail, unless that is excused. -/
def Calm (excused : Prop) (solver : ScriptedSolver) : Prop := ¬ excused → solver.failing = []

namespace Calm

variable {excused : Prop} {earlier later : ScriptedSolver}

theorem mono (calm : Calm excused earlier) (grown : Extends earlier later) :
    Calm excused later := by
  intro notExcused
  rw [grown.failing]
  exact calm notExcused

theorem excuses (calm : Calm excused earlier) {call : Call} (scripted : call ∈ earlier.failing) :
    excused := by
  by_contra notExcused
  simp [calm notExcused] at scripted

end Calm

/-- Offences depend on the types and on the term that was last complained about. -/
theorem offence?_congr {limit : DepthLimit} {earlier later : ScriptedSolver}
    (types : later.types = earlier.types) (errorTerm? : later.errorTerm? = earlier.errorTerm?)
    (visit : Visit) : visit.offence? limit later = visit.offence? limit earlier := by
  simp only [Visit.offence?, constantError?, type?, report, types, errorTerm?]

namespace Reads

variable {limit : DepthLimit} {model : ModelId} {excused : Prop} {start : ScriptedSolver}
  {visits visits' : List Visit} {means : ScriptedSolver → α → Prop}

theorem bind {first : Action ScriptedSolver β} {next : β → Action ScriptedSolver α}
    {traced : Traced ScriptedSolver} {meansFirst : ScriptedSolver → β → Prop}
    (before : Reads limit model excused traced.state visits meansFirst (first traced))
    (after : ∀ result middle, first traced = .ok result middle →
      Extends traced.state middle.state →
        (middle.state.HasRoom model → meansFirst middle.state result) →
          Reads limit model excused middle.state visits' means (next result middle)) :
    Reads limit model excused traced.state (visits ++ visits') means ((first >>= next) traced) := by
  cases ran : first traced with
  | error stop left =>
      rw [ran] at before
      rw [Outcome.bind_of_error ran]
      refine ⟨before.grows, fun room => ?_⟩
      cases before.ends room with
      | offence first =>
          refine .offence ?_
          rw [List.findSome?_append, first]
          rfl
      | excuse isExcused => exact .excuse isExcused
  | ok result middle =>
      rw [ran] at before
      rw [Outcome.bind_of_ok ran]
      have roomBefore (room : (Outcome.state (next result middle)).state.HasRoom model)
          (after : Reads limit model excused middle.state visits' means (next result middle)) :
          middle.state.HasRoom model := after.grows.hasRoom room
      have meant (room : middle.state.HasRoom model) : meansFirst middle.state result := by
        cases before.ends room with
        | ok _ _ meant => exact meant
      have after := after result middle ran before.grows meant
      refine ⟨before.grows.trans after.grows, fun room => ?_⟩
      cases before.ends (roomBefore room after) with
      | ok unoffended errorTerm? _ =>
          -- what offends at a place is the same after the first part as before it
          have same : Visit.offence? limit middle.state = Visit.offence? limit traced.state :=
            funext (offence?_congr before.grows.types errorTerm?)
          have ends := after.ends room
          revert ends
          generalize next result middle = ending
          intro ends
          cases ends with
          | ok unoffended' errorTerm?' meant' =>
              refine .ok (fun visit isVisit => ?_) (errorTerm?'.trans errorTerm?) meant'
              rcases List.mem_append.mp isVisit with isVisit | isVisit
              · exact unoffended visit isVisit
              · rw [← same]
                exact unoffended' visit isVisit
          | offence first =>
              refine .offence ?_
              rw [List.findSome?_append, List.findSome?_eq_none_iff.mpr unoffended,
                Option.none_or, ← same]
              exact first
          | excuse isExcused => exact .excuse isExcused

/-- More may be known about a result in the end, when it is known that the tables grew. -/
theorem imp {ending : EStateM.Result Stop (Traced ScriptedSolver) α}
    {meansBefore : ScriptedSolver → α → Prop}
    (before : Reads limit model excused start visits meansBefore ending)
    (finished : ∀ left result, left.HasRoom model → Extends start left →
      meansBefore left result → means left result) :
    Reads limit model excused start visits means ending := by
  refine ⟨before.grows, fun room => ?_⟩
  have grows := before.grows
  cases before.ends room with
  | ok unoffended errorTerm? meant =>
      exact .ok unoffended errorTerm? (finished _ _ room grows meant)
  | offence first => exact .offence first
  | excuse isExcused => exact .excuse isExcused

/-- What is made of the result of a reading in the end. -/
theorem map {action : Action ScriptedSolver β} {traced : Traced ScriptedSolver}
    {meansBefore : ScriptedSolver → β → Prop} {finish : β → α}
    (before : Reads limit model excused traced.state visits meansBefore (action traced))
    (finished : ∀ left result, left.HasRoom model → Extends traced.state left →
      meansBefore left result → means left (finish result)) :
    Reads limit model excused traced.state visits means
      ((action >>= fun result => pure (finish result)) traced) := by
  have meant := before.imp finished
  cases ran : action traced with
  | error stop left =>
      rw [ran] at meant
      rw [Outcome.bind_of_error ran]
      refine ⟨meant.grows, fun room => ?_⟩
      cases meant.ends room with
      | offence first => exact .offence first
      | excuse isExcused => exact .excuse isExcused
  | ok result left =>
      rw [ran] at meant
      rw [Outcome.bind_of_ok ran]
      refine ⟨meant.grows, fun room => ?_⟩
      cases meant.ends room with
      | ok unoffended errorTerm? meant => exact .ok unoffended errorTerm? meant

/-- A reading may take it that there is room at its start. -/
theorem of_room {ending : EStateM.Result Stop (Traced ScriptedSolver) α}
    (grows : Extends start (Outcome.state ending).state)
    (reads : start.HasRoom model → Reads limit model excused start visits means ending) :
    Reads limit model excused start visits means ending :=
  ⟨grows, fun room => (reads (grows.hasRoom room)).ends room⟩

theorem visit {ending : EStateM.Result Stop (Traced ScriptedSolver) α} {here : Visit}
    (unoffended : here.offence? limit start = none)
    (below : Reads limit model excused start visits means ending) :
    Reads limit model excused start (here :: visits) means ending := by
  refine ⟨below.grows, fun room => ?_⟩
  cases below.ends room with
  | ok unoffendedBelow errorTerm? meant =>
      exact .ok (List.forall_mem_cons.mpr ⟨unoffended, unoffendedBelow⟩) errorTerm? meant
  | offence first =>
      refine .offence ?_
      rw [List.findSome?_cons, unoffended]
      exact first
  | excuse isExcused => exact .excuse isExcused

theorem of_offence {here : Visit} {failure : Failure} {left : Traced ScriptedSolver}
    (grows : Extends start left.state) (offence : here.offence? limit start = some failure) :
    Reads limit model excused start (here :: visits) means
      (.error (.failure failure) left : EStateM.Result Stop (Traced ScriptedSolver) α) := by
  refine ⟨grows, fun _ => .offence ?_⟩
  rw [List.findSome?_cons, offence]

theorem of_ok {result : α} {traced : Traced ScriptedSolver}
    (meant : means traced.state result) :
    Reads limit model excused traced.state [] means (.ok result traced) :=
  ⟨.refl _, fun _ => .ok (by simp) rfl meant⟩

theorem record {event : Event} {action : Action ScriptedSolver α} {traced : Traced ScriptedSolver}
    (after : ∀ recorded : Traced ScriptedSolver, recorded.state = traced.state →
      Reads limit model excused recorded.state visits means (action recorded)) :
    Reads limit model excused traced.state visits means
      ((Action.record event >>= fun _ => action) traced) :=
  after ⟨traced.state, event :: traced.events⟩ rfl

/-- A checked call that is accepted unless it is scripted to fail. -/
theorem call (request : Request) {name : Call} {traced : Traced ScriptedSolver}
    {check : request.Answer → Routine α} (named : request.call? = some name)
    (checked : request.isUnchecked = false) (counted : name ≠ .printError)
    (checks : Checks name request.isRefusal check)
    (live : ∀ vector ∈ request.vector?.toList, traced.state.IsLive vector)
    (calm : Calm excused traced.state)
    (answered : name ∉ traced.state.failing → ∃ reply left result,
      answer request traced.state = .ok reply left ∧ request.isRefusal reply = false ∧
        check reply _ answer = pure result ∧ means left result) :
    Reads limit model excused traced.state [] means
      ((Action.ask answer request >>= fun reply => check reply _ answer) traced) := by
  have attempts := answer_attempts named checked counted
  have grown := attempts.tables live
  by_cases scripted : name ∈ traced.state.failing
  · rcases attempts with ⟨failed, body, refused, _, runs⟩
    have failedHere := (runs traced.state live).trans (attempt_of_mem scripted failed body)
    rw [failedHere] at grown
    rw [Outcome.bind_of_ok (Action.ask_of_ok failedHere), checks.refused failed refused]
    have grownAfter := failCall_extends (α := α) name
      ⟨withScriptedFailure name traced.state, traced.events⟩
    refine ⟨grown.trans grownAfter, fun _ => ?_⟩
    cases ended : Action.failCall answer name _ with
    | ok result left => exact absurd ended failCall_ne_ok
    | error stop left => exact .excuse (calm.excuses scripted)
  · rcases answered scripted with ⟨reply, left, result, ran, accepted, goesOn, meant⟩
    have honest := attempts.honest live ran accepted
    rw [ran] at grown
    rw [Outcome.bind_of_ok (Action.ask_of_ok ran), goesOn]
    exact ⟨grown, fun _ => .ok (by simp) honest.2 meant⟩

end Reads

theorem checkReply_ok {σ : Type} (solver : Solver σ) (name : Call) (cell : α) :
    Action.checkReply solver name (.ok cell) = pure cell := rfl

end SmtModel.Reading
