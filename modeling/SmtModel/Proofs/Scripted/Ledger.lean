import SmtModel.Proofs.Recorded
import SmtModel.Proofs.Scripted.Vectors

/-!
# The ledger of vectors

A session starts with the scripted solver as it is at first. Its moves are operations of
the client and, between them, commands of the script. The session is run with the
recorded solver, so that every exchange can be looked at afterwards, and the state that
the solver was in at every moment.

The ledger of a recorded state says which vectors were handed out and released so far:
each vector with a place was handed out once, and it is either open or was released
once. The routines of the library keep the ledger with the same vectors open, so that
after each move of a session no vector is open, and the books are balanced
(`Client.session_balanced`).
-/

namespace SmtModel

/-- One move of a session: a command of the script, or an operation of the client. -/
inductive Move where
  | script (command : ScriptCommand)
  | operate (operation : Operation)

/-- Changes the state in a way that is not recorded. -/
def Recorded.lift {σ : Type} (change : σ → σ) (recorded : Recorded σ) : Recorded σ :=
  { recorded with state := change recorded.state }

namespace Client

variable {σ τ : Type}

/-- The client after a move, where `obey` says what a command does to the solver. An operation
about a model that the client does not own is no move. -/
def move (solver : Solver σ) (obey : ScriptCommand → σ → σ) (client : Client σ) :
    Move → Client σ
  | .script command => client.map (obey command)
  | .operate operation =>
    match run solver client operation with
    | some ending => Outcome.state ending
    | none => client

/-- A session with the scripted solver. -/
def session (moves : List Move) : Client ScriptedSolver :=
  moves.foldl (move ScriptedSolver.answer ScriptedSolver.afterCommand) (ofState {})

/-- A session with the scripted solver, with all exchanges recorded. -/
def recordedSession (moves : List Move) : Client (Recorded ScriptedSolver) :=
  moves.foldl (move (Recorded.answer ScriptedSolver.answer) fun command =>
    Recorded.lift (ScriptedSolver.afterCommand command)) (ofState ⟨{}, []⟩)

theorem move_simulated {view : τ → σ} {solver : Solver σ} {viewed : Solver τ}
    (simulates : Simulates view solver viewed) {obey : ScriptCommand → σ → σ}
    {obeyViewed : ScriptCommand → τ → τ}
    (obeys : ∀ command state, obey command (view state) = view (obeyViewed command state))
    (client : Client τ) (made : Move) :
    move solver obey (client.map view) made = (move viewed obeyViewed client made).map view := by
  cases made with
  | script command =>
      rcases client with ⟨⟨state, events⟩, owned⟩
      simp only [move, Client.map, Traced.map, obeys]
  | operate operation =>
      simp only [move, run_simulated simulates]
      cases run viewed client operation with
      | none => rfl
      | some ending => exact Outcome.state_mapState _ ending

theorem moves_simulated {view : τ → σ} {solver : Solver σ} {viewed : Solver τ}
    (simulates : Simulates view solver viewed) {obey : ScriptCommand → σ → σ}
    {obeyViewed : ScriptCommand → τ → τ}
    (obeys : ∀ command state, obey command (view state) = view (obeyViewed command state))
    (moves : List Move) (client : Client τ) :
    (moves.foldl (move viewed obeyViewed) client).map view =
      moves.foldl (move solver obey) (client.map view) := by
  induction moves generalizing client with
  | nil => rfl
  | cons made moves ih =>
      rw [List.foldl_cons, List.foldl_cons, ih, move_simulated simulates obeys]

/-- Recording changes nothing about a session. -/
theorem recordedSession_map (moves : List Move) :
    (recordedSession moves).map Recorded.state = session moves :=
  moves_simulated (Recorded.simulates ScriptedSolver.answer) (fun _ _ => rfl) moves _

end Client

/-! ## The ledger -/

/-- What is asked of every moment, the ones inside an operation included: no more vectors were
released than made, and there was no fault in the use of a vector. -/
structure Exchange.Balanced (exchange : Exchange ScriptedSolver) : Prop where
  released_le_made :
    (Outcome.state exchange.ending).counts.termsReleased +
        (Outcome.state exchange.ending).counts.nodesReleased ≤
      (Outcome.state exchange.ending).counts.termsMade +
        (Outcome.state exchange.ending).counts.nodesMade
  noFault : ∀ fault left, exchange.ending = .error fault left → ¬ fault.IsOfVector

/-- The books of a recorded state in which the vectors `terms` and `nodes` are open. -/
structure Ledger (terms nodes : List VectorId) (recorded : Recorded ScriptedSolver) : Prop where
  live : ∀ vector, recorded.state.IsLive vector ↔ vector ∈ terms ∨ vector ∈ nodes
  nodup : (terms ++ nodes).Nodup
  termCounts : recorded.state.counts.termsMade =
    recorded.state.counts.termsReleased + terms.length
  nodeCounts : recorded.state.counts.nodesMade =
    recorded.state.counts.nodesReleased + nodes.length
  made : ∀ vector, recorded.made.count vector =
    if vector.number < recorded.state.vectors.size then 1 else 0
  released : ∀ vector, recorded.released.count vector + (terms ++ nodes).count vector =
    recorded.made.count vector
  balanced : ∀ exchange ∈ recorded.exchanges, exchange.Balanced

namespace Ledger

open ScriptedSolver

variable {terms nodes terms' nodes' : List VectorId} {recorded : Recorded ScriptedSolver}

theorem start : Ledger [] [] ⟨{}, []⟩ where
  live vector := by simp [IsLive, vector?]
  nodup := List.nodup_nil
  termCounts := rfl
  nodeCounts := rfl
  made vector := by simp [Recorded.made]
  released vector := by simp [Recorded.made, Recorded.released]
  balanced := by simp

/-- The ledger does not look at anything but the vectors and the exchanges. -/
theorem lift (ledger : Ledger terms nodes recorded) {change : ScriptedSolver → ScriptedSolver}
    (vectors : (change recorded.state).vectors = recorded.state.vectors)
    (counts : (change recorded.state).counts = recorded.state.counts) :
    Ledger terms nodes (recorded.lift change) where
  live vector := by
    rw [← ledger.live vector]
    simp only [Recorded.lift, IsLive, vector?, vectors]
  nodup := ledger.nodup
  termCounts := by
    simp only [Recorded.lift, counts]
    exact ledger.termCounts
  nodeCounts := by
    simp only [Recorded.lift, counts]
    exact ledger.nodeCounts
  made vector := by
    simp only [Recorded.lift, vectors]
    exact ledger.made vector
  released := ledger.released
  balanced := ledger.balanced

theorem exchange (ledger : Ledger terms nodes recorded) {request : Request}
    (noTrade : request.tradesVector = false)
    (uses : ∀ vector ∈ request.vector?, vector ∈ terms ∨ vector ∈ nodes) :
    Ledger terms nodes ⟨Outcome.state (answer request recorded.state),
      ⟨request, answer request recorded.state⟩ :: recorded.exchanges⟩ := by
  have live : ∀ vector ∈ request.vector?.toList, recorded.state.IsLive vector :=
    fun vector used => (ledger.live vector).mpr (uses vector (Option.mem_toList.mp used))
  have kept := (answer_keepsVectors noTrade).kept recorded.state live
  have noFault := (answer_keepsVectors noTrade).faults recorded.state live
  have termCounts := ledger.termCounts
  have nodeCounts := ledger.nodeCounts
  refine
    { live := fun vector => (kept.live vector).trans (ledger.live vector)
      nodup := ledger.nodup
      termCounts := by rw [kept.counts]; exact termCounts
      nodeCounts := by rw [kept.counts]; exact nodeCounts
      made := fun vector => ?_
      released := fun vector => ?_
      balanced := List.forall_mem_cons.mpr ⟨⟨?_, noFault⟩, ledger.balanced⟩ }
  · simp only [Recorded.made, List.filterMap_cons, Exchange.made?_of_noTrade noTrade, kept.size]
    exact ledger.made vector
  · simp only [Recorded.made, Recorded.released, List.filterMap_cons,
      Exchange.made?_of_noTrade noTrade, Exchange.released?_of_noTrade noTrade]
    exact ledger.released vector
  · simp only [kept.counts]
    omega

theorem make (ledger : Ledger terms nodes recorded) {exchange : Exchange ScriptedSolver}
    {empty : VectorContents} {count : VectorCounts → VectorCounts}
    (left : Outcome.state exchange.ending = recorded.state.withNextVector empty count)
    (made : exchange.made? = some recorded.state.nextVector) (released : exchange.released? = none)
    (noFault : ∀ fault left, exchange.ending ≠ .error fault left)
    (opened : (terms' ++ nodes').Perm (recorded.state.nextVector :: (terms ++ nodes)))
    (termCounts : (count recorded.state.counts).termsMade =
      (count recorded.state.counts).termsReleased + terms'.length)
    (nodeCounts : (count recorded.state.counts).nodesMade =
      (count recorded.state.counts).nodesReleased + nodes'.length) :
    Ledger terms' nodes'
      ⟨recorded.state.withNextVector empty count, exchange :: recorded.exchanges⟩ := by
  refine
    { live := fun vector => ?_
      nodup := ?_
      termCounts := termCounts
      nodeCounts := nodeCounts
      made := fun vector => ?_
      released := fun vector => ?_
      balanced := List.forall_mem_cons.mpr ⟨⟨?_, fun fault state ended =>
        absurd ended (noFault fault state)⟩, ledger.balanced⟩ }
  · rw [isLive_withNextVector, ledger.live vector]
    simpa using (opened.mem_iff (a := vector)).symm
  · refine opened.nodup_iff.mpr (List.nodup_cons.mpr ⟨fun isOpen => ?_, ledger.nodup⟩)
    exact nextVector_ne_of_isLive ((ledger.live _).mpr (by simpa using isOpen)) rfl
  · have before := ledger.made vector
    simp only [Recorded.made] at before
    simp only [Recorded.made, List.filterMap_cons, made, List.count_cons, before,
      size_withNextVector]
    rcases vector with ⟨number⟩
    simp only [nextVector, beq_iff_eq, VectorId.mk.injEq]
    split_ifs <;> omega
  · have before := ledger.released vector
    simp only [Recorded.made, Recorded.released] at before
    simp only [Recorded.made, Recorded.released, List.filterMap_cons, made, released,
      opened.count_eq, List.count_cons]
    omega
  · rw [left]
    simp only [withNextVector]
    omega

theorem release (ledger : Ledger terms' nodes' recorded) {exchange : Exchange ScriptedSolver}
    {vector : VectorId} {count : VectorCounts → VectorCounts}
    (left : Outcome.state exchange.ending = recorded.state.withoutVector vector count)
    (made : exchange.made? = none) (released : exchange.released? = some vector)
    (noFault : ∀ fault left, exchange.ending ≠ .error fault left)
    (opened : (terms' ++ nodes').Perm (vector :: (terms ++ nodes)))
    (termCounts : (count recorded.state.counts).termsMade =
      (count recorded.state.counts).termsReleased + terms.length)
    (nodeCounts : (count recorded.state.counts).nodesMade =
      (count recorded.state.counts).nodesReleased + nodes.length) :
    Ledger terms nodes
      ⟨recorded.state.withoutVector vector count, exchange :: recorded.exchanges⟩ := by
  have isOpen other : recorded.state.IsLive other ↔ other = vector ∨ other ∈ terms ++ nodes := by
    rw [ledger.live other, ← List.mem_append, opened.mem_iff, List.mem_cons]
  have nodup := List.nodup_cons.mp (opened.nodup_iff.mp ledger.nodup)
  have live : recorded.state.IsLive vector := (isOpen vector).mpr (Or.inl rfl)
  refine
    { live := fun other => ?_
      nodup := nodup.2
      termCounts := termCounts
      nodeCounts := nodeCounts
      made := fun other => ?_
      released := fun other => ?_
      balanced := List.forall_mem_cons.mpr ⟨⟨?_, fun fault state ended =>
        absurd ended (noFault fault state)⟩, ledger.balanced⟩ }
  · rw [isLive_withoutVector live, isOpen other, ← List.mem_append]
    constructor
    · rintro ⟨different, same | isOpen⟩
      · exact absurd same different
      · exact isOpen
    · intro isOpen
      exact ⟨fun same => nodup.1 (same ▸ isOpen), Or.inr isOpen⟩
  · rw [size_withoutVector]
    simp only [Recorded.made, List.filterMap_cons, made]
    exact ledger.made other
  · have before := ledger.released other
    simp only [Recorded.made, Recorded.released, opened.count_eq, List.count_cons] at before
    simp only [Recorded.made, Recorded.released, List.filterMap_cons, made, released,
      List.count_cons]
    omega
  · rw [left]
    simp only [withoutVector]
    omega

theorem keeps (unchecked : Request → Bool) :
    Keeps (Recorded.answer answer) unchecked Ledger where
  ask {_ _ recorded} request occurs uses ledger := by
    have exchanged := ledger.exchange occurs.1 uses
    refine ⟨by rw [Recorded.state_answer]; exact exchanged, fun fault left faulted => ?_⟩
    have balanced := exchanged.balanced _ List.mem_cons_self
    cases ended : answer request recorded.state with
    | ok result state => cases (Recorded.answer_of_ok ended).symm.trans faulted
    | error fault' state =>
        cases (Recorded.answer_of_error ended).symm.trans faulted
        exact balanced.noFault fault state ended
  newTermVector {_ _ recorded} ledger := by
    refine ⟨_, _, Recorded.answer_of_ok (answer_newTermVector recorded.state),
      ledger.make rfl rfl rfl (by simp) (.refl _) ?_ ledger.nodeCounts⟩
    have termCounts := ledger.termCounts
    simp only [VectorCounts.withTermsMade, List.length_cons]
    omega
  newNodeVector {_ _ recorded} ledger := by
    refine ⟨_, _, Recorded.answer_of_ok (answer_newNodeVector recorded.state),
      ledger.make rfl rfl rfl (by simp) List.perm_middle ledger.termCounts ?_⟩
    have nodeCounts := ledger.nodeCounts
    simp only [VectorCounts.withNodesMade, List.length_cons]
    omega
  releaseTermVector {vector _ _ _} ledger := by
    have live := (ledger.live vector).mpr (Or.inl List.mem_cons_self)
    refine ⟨_, Recorded.answer_of_ok (answer_releaseTermVector live),
      ledger.release rfl rfl rfl (by simp) (.refl _) ?_ ledger.nodeCounts⟩
    have termCounts := ledger.termCounts
    simp only [List.length_cons] at termCounts
    simp only [VectorCounts.withTermsReleased]
    omega
  releaseNodeVector {vector _ _ _} ledger := by
    have live := (ledger.live vector).mpr (Or.inr List.mem_cons_self)
    refine ⟨_, Recorded.answer_of_ok (answer_releaseNodeVector live),
      ledger.release rfl rfl rfl (by simp) List.perm_middle ledger.termCounts ?_⟩
    have nodeCounts := ledger.nodeCounts
    simp only [List.length_cons] at nodeCounts
    simp only [VectorCounts.withNodesReleased]
    omega

theorem made_eq_released (ledger : Ledger [] [] recorded) {vector : VectorId}
    (isMade : vector ∈ recorded.made) :
    recorded.made.count vector = 1 ∧ recorded.released.count vector = 1 := by
  have made := ledger.made vector
  have released := ledger.released vector
  have some := List.count_pos_iff.mpr isMade
  simp only [List.append_nil, List.count_nil] at released
  split_ifs at made <;> omega

end Ledger

/-! ## Sessions -/

namespace Client

/-- After each move of a session, the ledger is kept and no vector is open. -/
theorem session_ledger (moves : List Move) :
    Ledger [] [] (recordedSession moves).traced.state := by
  suffices kept : ∀ client : Client (Recorded ScriptedSolver), Ledger [] [] client.traced.state →
      Ledger [] [] (moves.foldl (move (Recorded.answer ScriptedSolver.answer) fun command =>
        Recorded.lift (ScriptedSolver.afterCommand command)) client).traced.state from
    kept _ Ledger.start
  induction moves with
  | nil => exact fun _ ledger => ledger
  | cons made moves ih =>
      intro client ledger
      rw [List.foldl_cons]
      apply ih
      cases made with
      | script command =>
          have commanded :=
            ScriptedSolver.afterCommand_commanded command client.traced.state.state
          exact ledger.lift commanded.vectors commanded.counts
      | operate operation =>
          simp only [move]
          cases ran : run (Recorded.answer ScriptedSolver.answer) client operation with
          | none => exact ledger
          | some ending => exact (run_safe (Ledger.keeps _) ledger ran).1

/-- Vectors are kept tidy over whole sessions. After each move, as many vectors of either kind were
released as were made, and none is live; each vector that was handed out was handed out once and
released once; at no moment were more vectors released than made; and neither an exchange
nor an operation ends in a fault in the use of a vector. -/
theorem session_balanced (moves : List Move) :
    let solver := (session moves).traced.state
    let recorded := (recordedSession moves).traced.state
    (recordedSession moves).map Recorded.state = session moves ∧
      solver.counts.termsMade = solver.counts.termsReleased ∧
      solver.counts.nodesMade = solver.counts.nodesReleased ∧
      (∀ vector, ¬ solver.IsLive vector) ∧
      (∀ vector ∈ recorded.made,
        recorded.made.count vector = 1 ∧ recorded.released.count vector = 1) ∧
      (∀ exchange ∈ recorded.exchanges, exchange.Balanced) ∧
      ∀ operation ending, run ScriptedSolver.answer (session moves) operation = some ending →
        ∀ fault left, ending = .error (.fault fault) left → ¬ fault.IsOfVector := by
  have ledger := session_ledger moves
  have recording := recordedSession_map moves
  have state : (recordedSession moves).traced.state.state = (session moves).traced.state := by
    rw [← recording]
    rfl
  rw [← state]
  refine ⟨recording, ledger.termCounts, ledger.nodeCounts, fun vector live => ?_,
    fun vector => ledger.made_eq_released, ledger.balanced, fun operation ending ran => ?_⟩
  · simpa using (ledger.live vector).mp live
  · have framed : ScriptedSolver.Framed (session moves).traced.state [] [] []
        (session moves).traced.state := ScriptedSolver.Framed.start (by simp)
    exact (run_safe (ScriptedSolver.Framed.keeps _) framed ran).2

end Client

end SmtModel
