import SmtModel.Proofs.Recorded
import SmtModel.Proofs.Scripted.Vectors

/-!
# Scripted failures

A run of the library is compared with the run from the same state in which some calls
are scripted to fail. Up to the first of these calls both runs are the same, and if
none of them is made, the runs are the same to the end. At the first of them the
second run ends: in the failure of that very call, with the solver's error cleared
(`Disciplined.interrupted`, and `Client.run_failingOn` for the operations of a client).
-/

namespace SmtModel

namespace ScriptedSolver

/-! ## Comparing two runs -/

/-- No call is scripted to fail, and no term is complained about. -/
structure IsCalm (solver : ScriptedSolver) : Prop where
  failing : solver.failing = []
  errorTerm? : solver.errorTerm? = none

theorem IsCalm.withNextVector {solver : ScriptedSolver} (isCalm : solver.IsCalm)
    (empty : VectorContents) (count : VectorCounts → VectorCounts) :
    (solver.withNextVector empty count).IsCalm :=
  ⟨isCalm.failing, isCalm.errorTerm?⟩

/-- The report of a failure that was scripted. -/
def scriptedReport : ErrorReport :=
  { code := .internalException
    term1 := .null
    message := ErrorCode.internalException.describe }

/-- An ending in the scripted failure of a call, after the calls `calls`, of which it is the
latest. -/
def StopsAt {α : Type} (call : Call) (calls : List Call)
    (ending : EStateM.Result Stop (Traced ScriptedSolver) α) : Prop :=
  ∃ left, ending = .error (.failure (.call call.name scriptedReport)) left ∧
    left.state.calls = calls ∧ left.state.error = .noError ∧ left.state.errorTerm? = none

/-- How a run with the calls `failing` scripted to fail compares with a run without, which makes the
calls `made` after those in `earlier`. -/
structure Interrupted {α : Type} (failing : List Call) (earlier made : List Call)
    (calm armed : EStateM.Result Stop (Traced ScriptedSolver) α) : Prop where
  calls : (Outcome.state calm).state.calls = made.reverse ++ earlier
  isCalm : ∀ result left, calm = .ok result left → left.state.IsCalm
  same : (∀ call ∈ made, call ∉ failing) → armed = Outcome.mapState (Traced.map (arm failing)) calm
  first : ∀ before call after, made = before ++ call :: after →
    (∀ other ∈ before, other ∉ failing) → call ∈ failing →
      StopsAt call (call :: before.reverse ++ earlier) armed

namespace Interrupted

variable {α β : Type} {failing earlier made : List Call}

theorem of_no_calls {calm armed : EStateM.Result Stop (Traced ScriptedSolver) α}
    (calls : (Outcome.state calm).state.calls = earlier)
    (isCalm : ∀ result left, calm = .ok result left → left.state.IsCalm)
    (same : armed = Outcome.mapState (Traced.map (arm failing)) calm) :
    Interrupted failing earlier [] calm armed where
  calls := calls
  isCalm := isCalm
  same _ := same
  first before call after made := by simp at made

theorem bind {first first' : Action ScriptedSolver α} {next next' : α → Action ScriptedSolver β}
    {start start' : Traced ScriptedSolver}
    (before : Interrupted failing earlier made (first start) (first' start'))
    (after : ∀ result middle, first start = .ok result middle → middle.state.IsCalm →
      ∃ made', Interrupted failing middle.state.calls made' (next result middle)
        (next' result (middle.map (arm failing)))) :
    ∃ made', Interrupted failing earlier made' ((first >>= next) start)
      ((first' >>= next') start') := by
  cases ran : first start with
  | error stop middle =>
      rw [ran] at before
      refine ⟨made, by rw [Outcome.bind_of_error ran]; exact before.calls, ?_, ?_, ?_⟩
      · intro result left ended
        cases (Outcome.bind_of_error ran).symm.trans ended
      · intro free
        rw [Outcome.bind_of_error ran, Outcome.bind_of_error (before.same free)]
        rfl
      · intro earlierCalls call laterCalls split free scripted
        rcases before.first earlierCalls call laterCalls split free scripted with
          ⟨left, ended, stopped⟩
        exact ⟨left, Outcome.bind_of_error ended, stopped⟩
  | ok result middle =>
      rw [ran] at before
      rcases after result middle ran (before.isCalm result middle rfl) with ⟨made', after⟩
      have runs : (first >>= next) start = next result middle := Outcome.bind_of_ok ran
      have runs' (free : ∀ call ∈ made, call ∉ failing) :
          (first' >>= next') start' = next' result (middle.map (arm failing)) :=
        Outcome.bind_of_ok (before.same free)
      have calls : middle.state.calls = made.reverse ++ earlier := before.calls
      refine ⟨made ++ made', ?_, ?_, ?_, ?_⟩
      · rw [runs, after.calls, calls, List.reverse_append, List.append_assoc]
      · rw [runs]
        exact after.isCalm
      · intro free
        rw [runs, runs' fun call isMade => free call (List.mem_append_left _ isMade)]
        exact after.same fun call isMade => free call (List.mem_append_right _ isMade)
      · intro earlierCalls call laterCalls split free scripted
        -- the first scripted call is made by the first part, or by the second after all of it
        have stopsInFirst (rest : List Call) (inFirst : made = earlierCalls ++ call :: rest) :
            StopsAt call (call :: earlierCalls.reverse ++ earlier)
              ((first' >>= next') start') := by
          rcases before.first earlierCalls call rest inFirst free scripted with
            ⟨left, ended, stopped⟩
          exact ⟨left, Outcome.bind_of_error ended, stopped⟩
        have stopsInSecond (rest : List Call) (whole : earlierCalls = made ++ rest)
            (inSecond : made' = rest ++ call :: laterCalls) :
            StopsAt call (call :: earlierCalls.reverse ++ earlier)
              ((first' >>= next') start') := by
          rw [whole] at free ⊢
          rw [runs' fun other isMade => free other (List.mem_append_left _ isMade)]
          have stopped := after.first rest call laterCalls inSecond
            (fun other isMade => free other (List.mem_append_right _ isMade)) scripted
          simpa only [calls, List.reverse_append, List.cons_append, List.append_assoc] using stopped
        rcases List.append_eq_append_iff.mp split with ⟨rest, whole, split⟩ | ⟨rest, whole, split⟩
        · exact stopsInSecond rest whole split
        · cases rest with
          | nil => exact stopsInSecond [] (by simpa using whole.symm) (by simpa using split.symm)
          | cons other rest =>
              rw [List.cons_append, List.cons.injEq] at split
              rcases split with ⟨rfl, _⟩
              exact stopsInFirst rest whole

theorem withoutVector {calm armed : EStateM.Result Stop (Traced ScriptedSolver) α}
    (inside : Interrupted failing earlier made calm armed) (vector : VectorId)
    (count : VectorCounts → VectorCounts) :
    Interrupted failing earlier made
      (Outcome.mapState (Traced.map (·.withoutVector vector count)) calm)
      (Outcome.mapState (Traced.map (·.withoutVector vector count)) armed) where
  calls := by
    rw [Outcome.state_mapState]
    exact inside.calls
  isCalm result left ended := by
    cases calm with
    | error stop middle => cases ended
    | ok _ middle =>
        cases ended
        have isCalm := inside.isCalm result middle rfl
        exact ⟨isCalm.failing, isCalm.errorTerm?⟩
  same free := by
    rw [inside.same free]
    cases calm <;> rfl
  first before call after split free scripted := by
    rcases inside.first before call after split free scripted with ⟨left, rfl, stopped⟩
    exact ⟨_, rfl, stopped⟩

end Interrupted

/-! ## Requests -/

section Requests

variable {failing : List Call} {traced : Traced ScriptedSolver}

theorem interrupted_question {request : Request} (question : request.isQuestion = true)
    (isCalm : traced.state.IsCalm) :
    Interrupted failing traced.state.calls []
      (Action.ask answer request traced)
      (Action.ask answer request (traced.map (arm failing))) := by
  have gentle := answer_question question
  have tables := gentle.tables traced.state
  have calls := gentle.calls traced.state
  have errorTerm? := answer_question_errorTerm? question traced.state
  have blind := gentle.blind failing traced.state
  cases ran : answer request traced.state with
  | ok result left =>
      rw [ran] at tables calls errorTerm? blind
      rw [Action.ask_of_ok ran]
      refine .of_no_calls calls (fun _ _ ended => ?_) (Action.ask_of_ok blind)
      cases ended
      exact ⟨tables.failing.trans isCalm.failing, errorTerm?.trans isCalm.errorTerm?⟩
  | error fault left =>
      rw [ran] at calls blind
      rw [Action.ask_of_error ran]
      exact .of_no_calls calls (fun _ _ ended => by cases ended) (Action.ask_of_error blind)

theorem failCall_arm {α : Type} (failing : List Call) (name : Call)
    (traced : Traced ScriptedSolver) :
    Action.failCall answer name (traced.map (arm failing)) =
      Outcome.mapState (Traced.map (arm failing))
        (Action.failCall answer name traced : EStateM.Result _ _ α) := by
  by_cases clear : traced.state.error = .noError
  · have armed : (traced.map (arm failing)).state.error = .noError := clear
    rw [failCall_of_noError clear, failCall_of_noError armed]
    rfl
  · have armed : (traced.map (arm failing)).state.error ≠ .noError := clear
    rw [failCall_of_error clear, failCall_of_error armed]
    rfl

section Checks

variable {α β : Type} {name : Call} {refusal : α → Bool} {check : α → Routine β}

theorem check_calls (checks : Checks name refusal check) (result : α)
    (traced : Traced ScriptedSolver) :
    (Outcome.state (check result _ answer traced)).state.calls = traced.state.calls := by
  cases refused : refusal result with
  | true =>
      rw [checks.refused result refused _ answer]
      exact failCall_calls name traced
  | false =>
      rcases checks.accepted result refused with ⟨accepted, accepts⟩
      rw [accepts _ answer]
      rfl

theorem check_arm (checks : Checks name refusal check) (failing : List Call) (result : α)
    (traced : Traced ScriptedSolver) :
    check result _ answer (traced.map (arm failing)) =
      Outcome.mapState (Traced.map (arm failing)) (check result _ answer traced) := by
  cases refused : refusal result with
  | true =>
      rw [checks.refused result refused _ answer]
      exact failCall_arm failing name traced
  | false =>
      rcases checks.accepted result refused with ⟨accepted, accepts⟩
      rw [accepts _ answer]
      rfl

theorem check_eq_ok (checks : Checks name refusal check) {result : α}
    {traced left : Traced ScriptedSolver} {checked : β}
    (ended : check result _ answer traced = .ok checked left) :
    refusal result = false ∧ left = traced := by
  cases refused : refusal result with
  | true =>
      rw [checks.refused result refused _ answer] at ended
      exact absurd ended failCall_ne_ok
  | false =>
      rcases checks.accepted result refused with ⟨accepted, accepts⟩
      rw [accepts _ answer] at ended
      cases ended
      exact ⟨rfl, rfl⟩

end Checks

/-- A request and the check of its answer are interrupted as the request is. -/
theorem interrupted_checked {β : Type} {name : Call} {request : Request}
    {check : request.Answer → Routine β} {made : List Call}
    (checks : Checks name request.isRefusal check)
    (calls : (Outcome.state (answer request traced.state)).calls =
      made.reverse ++ traced.state.calls)
    (isCalm : ∀ result left, answer request traced.state = .ok result left →
      request.isRefusal result = false → left.IsCalm)
    (same : (∀ call ∈ made, call ∉ failing) → answer request (arm failing traced.state) =
      Outcome.mapState (arm failing) (answer request traced.state))
    (first : ∀ before call after, made = before ++ call :: after →
      (∀ other ∈ before, other ∉ failing) → call ∈ failing →
        StopsAt call (call :: before.reverse ++ traced.state.calls)
          ((Action.ask answer request >>= fun result => check result _ answer)
            (traced.map (arm failing)))) :
    Interrupted failing traced.state.calls made
      ((Action.ask answer request >>= fun result => check result _ answer) traced)
      ((Action.ask answer request >>= fun result => check result _ answer)
        (traced.map (arm failing))) := by
  cases ran : answer request traced.state with
  | ok result left =>
      have runs : (Action.ask answer request >>= fun result => check result _ answer) traced =
          check result _ answer ⟨left, traced.events⟩ :=
        Outcome.bind_of_ok (Action.ask_of_ok ran)
      rw [ran] at calls same
      refine ⟨?_, fun checked left' ended => ?_, fun free => ?_, first⟩
      · rw [runs, check_calls checks]
        exact calls
      · rw [runs] at ended
        rcases check_eq_ok checks ended with ⟨accepted, rfl⟩
        exact isCalm result left ran accepted
      · rw [runs, Outcome.bind_of_ok (Action.ask_of_ok (same free))]
        exact check_arm checks failing result ⟨left, traced.events⟩
  | error fault left =>
      have runs : (Action.ask answer request >>= fun result => check result _ answer) traced =
          .error (.fault fault) ⟨left, traced.events⟩ :=
        Outcome.bind_of_error (Action.ask_of_error ran)
      rw [ran] at calls same
      refine ⟨by rw [runs]; exact calls, fun checked left' ended => ?_, fun free => ?_, first⟩
      · rw [runs] at ended
        cases ended
      · rw [runs, Outcome.bind_of_error (Action.ask_of_error (same free))]
        rfl

/-- A checked call is interrupted if it is counted and scripted to fail. -/
theorem interrupted_call {β : Type} {name : Call} {request : Request}
    {check : request.Answer → Routine β} (checks : Checks name request.isRefusal check)
    (attempts : Attempts request.scope request.isRefusal name (answer request))
    (live : ∀ vector ∈ request.vector?.toList, traced.state.IsLive vector)
    (isCalm : traced.state.IsCalm) :
    Interrupted failing traced.state.calls [name]
      ((Action.ask answer request >>= fun result => check result _ answer) traced)
      ((Action.ask answer request >>= fun result => check result _ answer)
        (traced.map (arm failing))) := by
  rcases attempts with ⟨failed, body, refused, frank, runs⟩
  have gentle := frank.toGentle
  have calm : answer request traced.state = body (withCall name traced.state) := by
    rw [runs _ live, attempt_of_not_mem (by simp [isCalm.failing])]
  have armedRuns := runs (arm failing traced.state) live
  refine interrupted_checked checks ?_ ?_ ?_ ?_
  · rw [calm]
    exact gentle.calls _
  · intro result left ran accepted
    rw [calm] at ran
    have tables := gentle.tables (withCall name traced.state)
    rw [ran] at tables
    have honest := frank.honest _ result left ran accepted
    exact ⟨tables.failing.trans isCalm.failing, honest.2.trans isCalm.errorTerm?⟩
  · intro free
    rw [armedRuns, attempt_of_not_mem (free name (by simp)), calm]
    exact gentle.blind failing (withCall name traced.state)
  · intro before call after split _ scripted
    have single : before = [] ∧ call = name ∧ after = [] := by
      cases before <;> simp_all
    rcases single with ⟨rfl, rfl, rfl⟩
    have failedHere := armedRuns.trans (attempt_of_mem scripted failed body)
    have report : (withScriptedFailure call (arm failing traced.state)).report =
        scriptedReport := by
      simp [ScriptedSolver.report, withScriptedFailure, withCall, arm, isCalm.errorTerm?,
        scriptedReport]
    have stops : check failed _ answer
        ⟨withScriptedFailure call (arm failing traced.state), traced.events⟩ =
          .error (.failure (.call call.name scriptedReport))
            ⟨(withScriptedFailure call (arm failing traced.state)).withoutError,
              .callFailed call.name .internalException ErrorCode.internalException.describe ::
                traced.events⟩ := by
      rw [checks.refused failed refused _ answer, ← report]
      refine failCall_of_error ?_ call
      simp [withScriptedFailure, ErrorCode.internalException, ErrorCode.noError]
    exact ⟨_, (Outcome.bind_of_ok (Action.ask_of_ok failedHere)).trans stops, rfl, rfl, rfl⟩

end Requests

end ScriptedSolver

/-! ## Routines and operations -/

open ScriptedSolver in
/-- A disciplined routine that leaves only questions unchecked is interrupted by the first call that
is scripted to fail. -/
theorem Disciplined.interrupted {α : Type} {held : List VectorId} {routine : Routine α}
    (disciplined : Disciplined Request.isQuestion held routine) (failing : List Call)
    {traced : Traced ScriptedSolver} (isCalm : traced.state.IsCalm)
    (live : ∀ vector ∈ held, traced.state.IsLive vector) :
    ∃ made, Interrupted failing traced.state.calls made (routine _ answer traced)
      (routine _ answer (traced.map (arm failing))) := by
  induction disciplined generalizing traced with
  | pure result =>
      exact ⟨[], .of_no_calls rfl (fun _ _ ended => by cases ended; exact isCalm) rfl⟩
  | bind first_disciplined _ ihFirst ihNext =>
      rcases ihFirst isCalm live with ⟨made, before⟩
      refine before.bind fun result middle ran isCalm => ?_
      have frame := (first_disciplined.frame Request.tradesVector_of_isQuestion live).kept
      rw [ran] at frame
      exact ihNext result isCalm frame.1
  | record event =>
      exact ⟨[], .of_no_calls rfl (fun _ _ ended => by cases ended; exact isCalm) rfl⟩
  | fail own => exact ⟨[], .of_no_calls rfl (fun _ _ ended => by cases ended) rfl⟩
  | compute outcome =>
      cases outcome with
      | ok result =>
          exact ⟨[], .of_no_calls rfl (fun _ _ ended => by cases ended; exact isCalm) rfl⟩
      | error division => exact ⟨[], .of_no_calls rfl (fun _ _ ended => by cases ended) rfl⟩
  | ask question uses => exact ⟨[], interrupted_question question isCalm⟩
  | call request named checked uses checks =>
      have live' : ∀ vector ∈ request.vector?.toList, traced.state.IsLive vector :=
        fun vector used => live vector (uses vector (Option.mem_toList.mp used))
      by_cases counted : request.call? = some .printError
      · obtain ⟨descriptor, rfl⟩ : ∃ descriptor, request = .printError descriptor := by
          cases request <;> cases counted
          exact ⟨_, rfl⟩
        have gentle := answer_printError descriptor
        refine ⟨[], interrupted_checked checks (gentle.calls _) (fun result left ran accepted => ?_)
          (fun _ => gentle.blind failing _) (by simp)⟩
        have tables := gentle.tables traced.state
        have errorTerm? := answer_printError_errorTerm? descriptor traced.state
        rw [ran] at tables errorTerm?
        exact ⟨tables.failing.trans isCalm.failing, errorTerm?.trans isCalm.errorTerm?⟩
      · have attempts := answer_attempts named checked fun isPrint => counted (isPrint ▸ named)
        exact ⟨_, interrupted_call checks attempts live' isCalm⟩
  | @withTermVector held _ body inside ih =>
      have opened := isLive_held_withNextVector live (.terms []) .withTermsMade
      have stillCalm : (traced.map fun solver : ScriptedSolver =>
          solver.withNextVector (.terms []) .withTermsMade).state.IsCalm :=
        isCalm.withNextVector (.terms []) .withTermsMade
      rcases ih traced.state.nextVector stillCalm opened with ⟨made, interrupted⟩
      refine ⟨made, ?_⟩
      dsimp only
      rw [withTermVector_run (fun vector => body vector _ answer) traced
          ((inside _).leaves_live opened),
        withTermVector_run (fun vector => body vector _ answer) (traced.map (arm failing))
          ((inside _).leaves_live opened)]
      exact interrupted.withoutVector traced.state.nextVector .withTermsReleased
  | @withNodeVector held _ body inside ih =>
      have opened := isLive_held_withNextVector live (.nodes []) .withNodesMade
      have stillCalm : (traced.map fun solver : ScriptedSolver =>
          solver.withNextVector (.nodes []) .withNodesMade).state.IsCalm :=
        isCalm.withNextVector (.nodes []) .withNodesMade
      rcases ih traced.state.nextVector stillCalm opened with ⟨made, interrupted⟩
      refine ⟨made, ?_⟩
      dsimp only
      rw [withNodeVector_run (fun vector => body vector _ answer) traced
          ((inside _).leaves_live opened),
        withNodeVector_run (fun vector => body vector _ answer) (traced.map (arm failing))
          ((inside _).leaves_live opened)]
      exact interrupted.withoutVector traced.state.nextVector .withNodesReleased

namespace ScriptedSolver

/-- The solver after a script named the calls that are to fail. -/
def failingOn (names : List String) (solver : ScriptedSolver) : ScriptedSolver :=
  names.foldl (fun solver name => afterCommand (.failOn name) solver) solver

/-- A script of failures changes nothing but the calls that are to fail, which are then those that
were named and those that were to fail before. -/
theorem failingOn_eq_arm (names : List String) (solver : ScriptedSolver) :
    failingOn names solver = arm (failingOn names solver).failing solver ∧
      ∀ call, call ∈ (failingOn names solver).failing ↔
        call.name ∈ names ∨ call ∈ solver.failing := by
  induction names generalizing solver with
  | nil => exact ⟨rfl, by simp [failingOn]⟩
  | cons name names ih =>
      rcases ih (afterCommand (.failOn name) solver) with ⟨armed, failing⟩
      have step : failingOn (name :: names) solver =
          failingOn names (afterCommand (.failOn name) solver) := rfl
      rw [step]
      cases named : Call.ofName? name with
      | none =>
          have unchanged : afterCommand (.failOn name) solver = solver := by
            simp only [afterCommand, obey, named]
            rfl
          rw [unchanged] at armed failing ⊢
          refine ⟨armed, fun call => (failing call).trans ?_⟩
          have different : call.name ≠ name := by
            rintro rfl
            simp at named
          simp [different]
      | some call =>
          have named' : call.name = name := by
            simpa using List.find?_some named
          have added : afterCommand (.failOn name) solver =
              arm (call :: solver.failing) solver := by
            simp only [afterCommand, obey, named]
            rfl
          rw [added] at armed failing ⊢
          refine ⟨armed, fun other => (failing other).trans ?_⟩
          have same : other.name = name ↔ other = call := by
            rw [← named']
            refine ⟨fun names => ?_, fun same => same ▸ rfl⟩
            have found := congrArg Call.ofName? names
            simpa using found
          simp [arm, same, or_assoc, or_left_comm]

end ScriptedSolver

open ScriptedSolver

/-- Failures can be scripted, and the operations that can fail end in the first of them. From a
state in which no call is to fail, and without a complaint, let `made` be the calls that an
operation makes. If none of them is named, the operation ends as before, in the same state, with the
named calls still to fail. Otherwise it ends in the failure of the first call that is named,
after this and the calls before it, and the error is cleared. -/
theorem Client.run_failingOn (names : List String) (client : Client ScriptedSolver)
    (operation : Operation) (canFail : operation.canFail = true)
    (isCalm : client.traced.state.IsCalm) {ending : Ending ScriptedSolver operation.Answer}
    (ran : run answer client operation = some ending) :
    ∃ made : List Call,
      (Outcome.state ending).traced.state.calls = made.reverse ++ client.traced.state.calls ∧
      ((∀ call ∈ made, call.name ∉ names) →
        run answer (client.map (failingOn names)) operation =
          some (Outcome.mapState
            (Client.map (arm (failingOn names client.traced.state).failing)) ending)) ∧
      ∀ before call after, made = before ++ call :: after →
        (∀ other ∈ before, other.name ∉ names) → call.name ∈ names →
          ∃ left, run answer (client.map (failingOn names)) operation =
              some (.error (.failure (.call call.name scriptedReport)) left) ∧
            left.traced.state.calls = call :: before.reverse ++ client.traced.state.calls ∧
            left.traced.state.error = .noError ∧ left.traced.state.errorTerm? = none := by
  rcases client with ⟨traced, owned⟩
  rcases failingOn_eq_arm names traced.state with ⟨armed, scripted⟩
  have noneBefore : traced.state.failing = [] := isCalm.failing
  simp only [noneBefore, List.not_mem_nil, or_false] at scripted
  have questions : operation.unchecked = Request.isQuestion := by
    simp only [Operation.unchecked, canFail, if_true]
  rcases exists_routine owned operation with
    notOwned | ⟨_, routine, before, keep, result, disciplined, runs⟩
  · cases (notOwned _ answer traced).symm.trans ran
  · cases (runs _ answer traced).symm.trans ran
    rw [questions] at disciplined
    rcases disciplined.interrupted (failingOn names traced.state).failing isCalm (by simp) with
      ⟨made, interrupted⟩
    have armedRuns := runs _ answer (traced.map (arm (failingOn names traced.state).failing))
    have mapped : Client.map (failingOn names) ⟨traced, owned⟩ =
        ⟨traced.map (arm (failingOn names traced.state).failing), owned⟩ := by
      simp only [Client.map, Traced.map, ← armed]
    rw [mapped]
    refine ⟨made, ?_, fun free => ?_, fun earlier call later split free named => ?_⟩
    · rw [← interrupted.calls]
      simp only [perform]
      cases routine _ answer traced <;> rfl
    · rw [armedRuns]
      have same := interrupted.same fun call isMade => mt (scripted call).mp (free call isMade)
      simp only [perform, same]
      cases routine _ answer traced <;> rfl
    · rcases interrupted.first earlier call later split
          (fun other isMade => mt (scripted other).mp (free other isMade))
          ((scripted call).mpr named) with
        ⟨left, ended, stopped⟩
      refine ⟨⟨left, before⟩, armedRuns.trans ?_, stopped⟩
      simp only [perform, ended]
      rfl

/-- A client that owns a model in which the first term is true. -/
def Client.ofTruth : Client ScriptedSolver :=
  ⟨⟨{ terms := #[⟨⟨0⟩, none⟩], models := #[some ⟨[(⟨0⟩, .bool true)], #[], false⟩] }, []⟩,
    [{ id := ⟨0⟩ }]⟩

theorem Client.run_failingOn_nodeBool :
    (Operation.query ⟨0⟩ (.value ⟨0⟩)).canFail = true ∧ ofTruth.traced.state.IsCalm ∧
      ∃ left, run answer (ofTruth.map (failingOn ["yices_val_get_bool"]))
          (.query ⟨0⟩ (.value ⟨0⟩)) =
            some (.error (.failure (.call "yices_val_get_bool" scriptedReport)) left) ∧
        left.traced.state.calls = [.nodeBool, .value] := by
  have isCalm : ofTruth.traced.state.IsCalm := ⟨rfl, rfl⟩
  have calls : (run answer ofTruth (.query ⟨0⟩ (.value ⟨0⟩))).map
      (fun ending => (Outcome.state ending).traced.state.calls) = some [.nodeBool, .value] := by
    rfl
  refine ⟨rfl, isCalm, ?_⟩
  cases ran : run answer ofTruth (.query ⟨0⟩ (.value ⟨0⟩)) with
  | none => cases ran
  | some ending =>
      rcases run_failingOn ["yices_val_get_bool"] ofTruth _ rfl isCalm ran with
        ⟨made, made_calls, _, first⟩
      rw [ran, Option.map_some, made_calls, Option.some.injEq] at calls
      have made_eq : made = [.value] ++ .nodeBool :: [] := by
        simpa [ofTruth] using congrArg List.reverse calls
      rcases first [.value] .nodeBool [] made_eq (by decide) (by decide) with ⟨left, ended, stopped⟩
      exact ⟨left, ended, stopped.1⟩

end SmtModel
