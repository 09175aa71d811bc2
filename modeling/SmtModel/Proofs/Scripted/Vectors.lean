import Mathlib.Data.List.Dedup
import SmtModel.Proofs.Invariant
import SmtModel.Proofs.Scripted.Requests

/-!
# Vectors of the scripted solver

Making a vector puts it in a new place, and releasing a live one empties its place.
Around them a disciplined routine leaves the vectors alone that it does not hold, and
those that it holds are live when it ends (`Disciplined.frame`). One that leaves only
questions unchecked extends the tables (`Disciplined.grows`).
-/

namespace SmtModel

namespace VectorCounts

/-- The counts after another vector of terms is made. -/
def withTermsMade (counts : VectorCounts) : VectorCounts :=
  { counts with termsMade := counts.termsMade + 1 }

/-- The counts after another vector of terms is released. -/
def withTermsReleased (counts : VectorCounts) : VectorCounts :=
  { counts with termsReleased := counts.termsReleased + 1 }

/-- The counts after another vector of nodes is made. -/
def withNodesMade (counts : VectorCounts) : VectorCounts :=
  { counts with nodesMade := counts.nodesMade + 1 }

/-- The counts after another vector of nodes is released. -/
def withNodesReleased (counts : VectorCounts) : VectorCounts :=
  { counts with nodesReleased := counts.nodesReleased + 1 }

end VectorCounts

namespace ScriptedSolver

/-! ## Making and releasing -/

/-- The vector that is made next. -/
def nextVector (solver : ScriptedSolver) : VectorId := ⟨solver.vectors.size⟩

/-- The solver after a vector was made. -/
def withNextVector (solver : ScriptedSolver) (empty : VectorContents)
    (count : VectorCounts → VectorCounts) : ScriptedSolver :=
  { solver with vectors := solver.vectors.push (some empty), counts := count solver.counts }

/-- The solver after a live vector was released. -/
def withoutVector (solver : ScriptedSolver) (vector : VectorId)
    (count : VectorCounts → VectorCounts) : ScriptedSolver :=
  { solver.withVector vector none with counts := count solver.counts }

theorem releaseVector_of_isLive {solver : ScriptedSolver} {vector : VectorId}
    (live : solver.IsLive vector) (count : VectorCounts → VectorCounts) :
    releaseVector vector count solver = .ok () (solver.withoutVector vector count) := by
  rcases Option.isSome_iff_exists.mp live with ⟨contents, found⟩
  rw [releaseVector, get_bind]
  simp only [found]
  rfl

theorem releaseVector_of_not_isLive {solver : ScriptedSolver} {vector : VectorId}
    (released : ¬ solver.IsLive vector) (count : VectorCounts → VectorCounts) :
    releaseVector vector count solver = .error (.vectorReleasedTwice vector) solver := by
  have missing : solver.vector? vector = none := by simpa [IsLive] using released
  unfold releaseVector
  rw [get_bind, missing]
  rfl

theorem answer_newTermVector (solver : ScriptedSolver) :
    answer .newTermVector solver =
      .ok solver.nextVector (solver.withNextVector (.terms []) .withTermsMade) := rfl

theorem answer_newNodeVector (solver : ScriptedSolver) :
    answer .newNodeVector solver =
      .ok solver.nextVector (solver.withNextVector (.nodes []) .withNodesMade) := rfl

theorem answer_releaseTermVector {solver : ScriptedSolver} {vector : VectorId}
    (live : solver.IsLive vector) :
    answer (.releaseTermVector vector) solver =
      .ok () (solver.withoutVector vector .withTermsReleased) :=
  releaseVector_of_isLive live .withTermsReleased

theorem answer_releaseNodeVector {solver : ScriptedSolver} {vector : VectorId}
    (live : solver.IsLive vector) :
    answer (.releaseNodeVector vector) solver =
      .ok () (solver.withoutVector vector .withNodesReleased) :=
  releaseVector_of_isLive live .withNodesReleased

theorem vector?_withNextVector (solver : ScriptedSolver) (empty : VectorContents)
    (count : VectorCounts → VectorCounts) (vector : VectorId) :
    (solver.withNextVector empty count).vector? vector =
      if vector = solver.nextVector then some empty else solver.vector? vector := by
  by_cases same : vector = solver.nextVector
  · simp [same, withNextVector, nextVector, vector?]
  · have numbers : vector.number ≠ solver.vectors.size := by
      intro numbers
      apply same
      cases vector
      simp_all [nextVector]
    simp [same, numbers, withNextVector, vector?, Array.getElem?_push]

theorem vector?_withoutVector {solver : ScriptedSolver} {vector : VectorId}
    (live : solver.IsLive vector) (count : VectorCounts → VectorCounts) (other : VectorId) :
    (solver.withoutVector vector count).vector? other =
      if other = vector then none else solver.vector? other :=
  vector?_withVector live none other

theorem nextVector_ne_of_isLive {solver : ScriptedSolver} {vector : VectorId}
    (live : solver.IsLive vector) : vector ≠ solver.nextVector := by
  intro same
  have inside := inside_of_isLive live
  simp [same, nextVector] at inside

theorem isLive_withNextVector {solver : ScriptedSolver} {empty : VectorContents}
    {count : VectorCounts → VectorCounts} {vector : VectorId} :
    (solver.withNextVector empty count).IsLive vector ↔
      vector = solver.nextVector ∨ solver.IsLive vector := by
  simp only [IsLive, vector?_withNextVector]
  by_cases same : vector = solver.nextVector <;> simp [same]

theorem isLive_withoutVector {solver : ScriptedSolver} {vector : VectorId}
    (live : solver.IsLive vector) {count : VectorCounts → VectorCounts} {other : VectorId} :
    (solver.withoutVector vector count).IsLive other ↔ other ≠ vector ∧ solver.IsLive other := by
  simp only [IsLive, vector?_withoutVector live]
  by_cases same : other = vector <;> simp [same]

theorem isLive_held_withNextVector {solver : ScriptedSolver} {held : List VectorId}
    (live : ∀ vector ∈ held, solver.IsLive vector) (empty : VectorContents)
    (count : VectorCounts → VectorCounts) :
    ∀ vector ∈ solver.nextVector :: held, (solver.withNextVector empty count).IsLive vector :=
  List.forall_mem_cons.mpr ⟨isLive_withNextVector.mpr (Or.inl rfl), fun vector isHeld =>
    isLive_withNextVector.mpr (Or.inr (live vector isHeld))⟩

theorem extends_withNextVector (solver : ScriptedSolver) (empty : VectorContents)
    (count : VectorCounts → VectorCounts) :
    Extends solver (solver.withNextVector empty count) :=
  .of_tables_eq rfl rfl rfl rfl rfl

theorem extends_withoutVector (solver : ScriptedSolver) (vector : VectorId)
    (count : VectorCounts → VectorCounts) : Extends solver (solver.withoutVector vector count) :=
  .of_tables_eq rfl rfl rfl rfl rfl

theorem sameTables_withNextVector (solver : ScriptedSolver) (empty : VectorContents)
    (count : VectorCounts → VectorCounts) :
    SameTables solver (solver.withNextVector empty count) :=
  ⟨rfl, rfl, rfl, rfl, rfl⟩

theorem sameTables_withoutVector (solver : ScriptedSolver) (vector : VectorId)
    (count : VectorCounts → VectorCounts) : SameTables solver (solver.withoutVector vector count) :=
  ⟨rfl, rfl, rfl, rfl, rfl⟩

theorem size_withNextVector (solver : ScriptedSolver) (empty : VectorContents)
    (count : VectorCounts → VectorCounts) :
    (solver.withNextVector empty count).vectors.size = solver.vectors.size + 1 :=
  Array.size_push _

theorem size_withoutVector (solver : ScriptedSolver) (vector : VectorId)
    (count : VectorCounts → VectorCounts) :
    (solver.withoutVector vector count).vectors.size = solver.vectors.size :=
  Array.size_setIfInBounds

section Holding

variable {α : Type} (body : VectorId → Action ScriptedSolver α) (start : Traced ScriptedSolver)

theorem withTermVector_run
    (live : (Outcome.state (body start.state.nextVector
      (start.map (·.withNextVector (.terms []) .withTermsMade)))).state.IsLive
        start.state.nextVector) :
    Action.withTermVector answer body start =
      Outcome.mapState (Traced.map (·.withoutVector start.state.nextVector .withTermsReleased))
        (body start.state.nextVector
          (start.map (·.withNextVector (.terms []) .withTermsMade))) := by
  refine (Action.withTermVector_of_released body (answer_newTermVector start.state)
    (answer_releaseTermVector live)).trans ?_
  simp only [Traced.map]
  cases body start.state.nextVector _ <;> rfl

theorem withNodeVector_run
    (live : (Outcome.state (body start.state.nextVector
      (start.map (·.withNextVector (.nodes []) .withNodesMade)))).state.IsLive
        start.state.nextVector) :
    Action.withNodeVector answer body start =
      Outcome.mapState (Traced.map (·.withoutVector start.state.nextVector .withNodesReleased))
        (body start.state.nextVector
          (start.map (·.withNextVector (.nodes []) .withNodesMade))) := by
  refine (Action.withNodeVector_of_released body (answer_newNodeVector start.state)
    (answer_releaseNodeVector live)).trans ?_
  simp only [Traced.map]
  cases body start.state.nextVector _ <;> rfl

end Holding

/-! ## The frame of a routine -/

/-- A state that is reached from `base` by a routine that held the vectors `held` at first: the open
vectors are live, and the vectors of `base` that are not held are as they were. -/
structure Framed (base : ScriptedSolver) (held terms nodes : List VectorId)
    (solver : ScriptedSolver) : Prop where
  grown : base.vectors.size ≤ solver.vectors.size
  live : ∀ vector, vector ∈ terms ∨ vector ∈ nodes → solver.IsLive vector
  fresh : ∀ vector, vector ∈ terms ∨ vector ∈ nodes →
    vector ∈ held ∨ base.vectors.size ≤ vector.number
  nodup : (terms ++ nodes).Nodup
  others : ∀ vector, vector ∉ held → vector.number < base.vectors.size →
    solver.vector? vector = base.vector? vector

namespace Framed

variable {base : ScriptedSolver} {held terms nodes terms' nodes' : List VectorId}
  {solver : ScriptedSolver}

theorem start (live : ∀ vector ∈ held, base.IsLive vector) :
    Framed base held held.dedup [] base where
  grown := Nat.le_refl _
  live vector isOpen := live vector (by simpa using isOpen)
  fresh vector isOpen := Or.inl (by simpa using isOpen)
  nodup := by simpa using List.nodup_dedup held
  others _ _ _ := rfl

theorem ask (framed : Framed base held terms nodes solver) {request : Request}
    (noTrade : request.tradesVector = false)
    (uses : ∀ vector ∈ request.vector?, vector ∈ terms ∨ vector ∈ nodes) :
    Framed base held terms nodes (Outcome.state (answer request solver)) := by
  have live : ∀ vector ∈ request.vector?.toList, solver.IsLive vector := fun vector used =>
    framed.live vector (uses vector (Option.mem_toList.mp used))
  have kept := (answer_keepsVectors noTrade).kept solver live
  refine
    { grown := kept.size ▸ framed.grown
      live := fun vector isOpen => (kept.live vector).mpr (framed.live vector isOpen)
      fresh := framed.fresh
      nodup := framed.nodup
      others := fun vector notHeld inside => ?_ }
  rw [kept.others vector fun used => ?_, framed.others vector notHeld inside]
  have isOpen := uses vector (Option.mem_toList.mp used)
  rcases framed.fresh vector isOpen with isHeld | outside
  · exact notHeld isHeld
  · omega

theorem withNextVector (framed : Framed base held terms nodes solver) {empty : VectorContents}
    {count : VectorCounts → VectorCounts}
    (opened : (terms' ++ nodes').Perm (solver.nextVector :: (terms ++ nodes))) :
    Framed base held terms' nodes' (solver.withNextVector empty count) := by
  have isOpen vector : vector ∈ terms' ∨ vector ∈ nodes' ↔
      vector = solver.nextVector ∨ vector ∈ terms ∨ vector ∈ nodes := by
    simpa using opened.mem_iff (a := vector)
  refine
    { grown := by rw [size_withNextVector]; exact Nat.le_succ_of_le framed.grown
      live := fun vector isOpen' => ?_
      fresh := fun vector isOpen' => ?_
      nodup := ?_
      others := fun vector notHeld inside => ?_ }
  · exact isLive_withNextVector.mpr (((isOpen vector).mp isOpen').imp_right (framed.live vector))
  · rcases (isOpen vector).mp isOpen' with rfl | isOpen'
    · exact Or.inr framed.grown
    · exact framed.fresh vector isOpen'
  · refine opened.nodup_iff.mpr (List.nodup_cons.mpr ⟨fun isOpen' => ?_, framed.nodup⟩)
    exact nextVector_ne_of_isLive (framed.live _ (by simpa using isOpen')) rfl
  · have different : vector ≠ solver.nextVector := by
      rintro rfl
      have grown := framed.grown
      simp only [nextVector] at inside
      omega
    rw [vector?_withNextVector, if_neg different, framed.others vector notHeld inside]

theorem withoutVector {vector : VectorId} (framed : Framed base held terms' nodes' solver)
    {count : VectorCounts → VectorCounts}
    (opened : (terms' ++ nodes').Perm (vector :: (terms ++ nodes))) :
    solver.IsLive vector ∧ Framed base held terms nodes (solver.withoutVector vector count) := by
  have isOpen other : other ∈ terms' ∨ other ∈ nodes' ↔
      other = vector ∨ other ∈ terms ∨ other ∈ nodes := by
    simpa using opened.mem_iff (a := other)
  have live := framed.live vector ((isOpen vector).mpr (Or.inl rfl))
  have nodup := List.nodup_cons.mp (opened.nodup_iff.mp framed.nodup)
  refine ⟨live,
    { grown := by rw [size_withoutVector]; exact framed.grown
      live := fun other isOpen' => ?_
      fresh := fun other isOpen' => framed.fresh other ((isOpen other).mpr (Or.inr isOpen'))
      nodup := nodup.2
      others := fun other notHeld inside => ?_ }⟩
  · refine (isLive_withoutVector live).mpr
      ⟨?_, framed.live other ((isOpen other).mpr (Or.inr isOpen'))⟩
    rintro rfl
    exact nodup.1 (by simpa using isOpen')
  · have different : other ≠ vector := by
      rintro rfl
      rcases framed.fresh other ((isOpen other).mpr (Or.inl rfl)) with isHeld | outside
      · exact notHeld isHeld
      · omega
    rw [vector?_withoutVector live, if_neg different, framed.others other notHeld inside]

theorem keeps (unchecked : Request → Bool) : Keeps answer unchecked (Framed base held) where
  ask request occurs uses framed := by
    have noTrade := occurs.1
    refine ⟨framed.ask noTrade uses, fun fault left faulted => ?_⟩
    exact (answer_keepsVectors noTrade).faults _ (fun vector used =>
      framed.live vector (uses vector (Option.mem_toList.mp used))) fault left faulted
  newTermVector framed :=
    ⟨_, _, answer_newTermVector _, framed.withNextVector (.refl _)⟩
  newNodeVector framed :=
    ⟨_, _, answer_newNodeVector _, framed.withNextVector List.perm_middle⟩
  releaseTermVector framed := by
    rcases framed.withoutVector (.refl _) with ⟨live, framed⟩
    exact ⟨_, answer_releaseTermVector live, framed⟩
  releaseNodeVector framed := by
    rcases framed.withoutVector List.perm_middle with ⟨live, framed⟩
    exact ⟨_, answer_releaseNodeVector live, framed⟩

end Framed

end ScriptedSolver

/-- A disciplined routine leaves the vectors that it holds live, and the other live vectors as they
are. It does not meet a fault in the use of a vector. -/
theorem Disciplined.frame {α : Type} {unchecked : Request → Bool} {held : List VectorId}
    {routine : Routine α} (disciplined : Disciplined unchecked held routine)
    (noTrades : ∀ request, unchecked request = true → request.tradesVector = false)
    {traced : Traced ScriptedSolver} (live : ∀ vector ∈ held, traced.state.IsLive vector) :
    Safe (fun solver => (∀ vector ∈ held, solver.IsLive vector) ∧
        ∀ vector, vector ∉ held → traced.state.IsLive vector →
          solver.vector? vector = traced.state.vector? vector)
      (routine _ ScriptedSolver.answer traced) := by
  rcases disciplined.safe (ScriptedSolver.Framed.keeps unchecked) noTrades
      (fun vector isHeld => Or.inl (List.mem_dedup.mpr isHeld))
      (ScriptedSolver.Framed.start live) with
    ⟨framed, faults⟩
  refine ⟨⟨fun vector isHeld => ?_, fun vector notHeld isLive => ?_⟩, faults⟩
  · exact framed.live vector (Or.inl (List.mem_dedup.mpr isHeld))
  · exact framed.others vector notHeld (ScriptedSolver.inside_of_isLive isLive)

/-! ## Growing tables -/

theorem Request.tradesVector_of_isQuestion (request : Request)
    (question : request.isQuestion = true) : request.tradesVector = false := by
  cases request <;> first | rfl | cases question

/-- A routine that holds no vector leaves what is in the vectors. -/
theorem Disciplined.vector?_kept {α : Type} {routine : Routine α}
    (disciplined : Disciplined Request.isQuestion [] routine)
    {traced left : Traced ScriptedSolver} {result : α}
    (ran : routine _ ScriptedSolver.answer traced = .ok result left) {vector : VectorId}
    {contents : VectorContents} (filled : traced.state.vector? vector = some contents) :
    left.state.vector? vector = some contents := by
  have framed : Safe _ (routine _ ScriptedSolver.answer traced) :=
    disciplined.frame Request.tradesVector_of_isQuestion (by simp)
  rw [ran] at framed
  have live : traced.state.IsLive vector := by
    rw [ScriptedSolver.IsLive, filled]
    rfl
  exact (framed.kept.2 vector (by simp) live).trans filled

theorem Disciplined.leaves_live {α : Type} {held : List VectorId} {vector : VectorId}
    {routine : Routine α} (disciplined : Disciplined Request.isQuestion (vector :: held) routine)
    {traced : Traced ScriptedSolver} (live : ∀ other ∈ vector :: held, traced.state.IsLive other) :
    (Outcome.state (routine _ ScriptedSolver.answer traced)).state.IsLive vector :=
  (disciplined.frame Request.tradesVector_of_isQuestion live).kept.1 vector List.mem_cons_self

open ScriptedSolver

/-- A reset and the freeing of a model apart, every answer extends the tables. -/
theorem ScriptedSolver.answer_extends {request : Request} (noReset : request ≠ .reset)
    (notFreed : ∀ freed, request ≠ .freeModel freed) (solver : ScriptedSolver) :
    Extends solver (Outcome.state (answer request solver)) := by
  by_cases bodied : request.call?.isSome = true ∨ request.isQuestion = true
  · rcases (answer_changes bodied solver).1 with ⟨calls, changes⟩
    have called : Extends solver { solver with calls } := .of_tables_eq rfl rfl rfl rfl rfl
    exact called.trans changes.tables
  cases request
  case reset => exact absurd rfl noReset
  case freeModel freed => exact absurd rfl (notFreed freed)
  case startUp | shutDown | isRunning | errorCode | errorReport | errorText | clearError |
      newTermVector | newNodeVector => exact .of_tables_eq rfl rfl rfl rfl rfl
  case releaseTermVector vector | releaseNodeVector vector =>
    simp only [answer, releaseVector, get_bind]
    cases solver.vector? vector <;> exact .of_tables_eq rfl rfl rfl rfl rfl
  all_goals exact absurd (by simp [Request.call?, Request.isQuestion]) bodied

theorem Disciplined.grows {α : Type} {held : List VectorId} {routine : Routine α}
    (disciplined : Disciplined Request.isQuestion held routine) {traced : Traced ScriptedSolver}
    (live : ∀ vector ∈ held, traced.state.IsLive vector) :
    Extends traced.state (Outcome.state (routine _ answer traced)).state := by
  have keeps : Keeps answer Request.isQuestion fun terms nodes solver =>
      Extends traced.state solver ∧ Framed traced.state held terms nodes solver :=
    { ask := fun request occurs uses ⟨grown, framed⟩ => by
        rcases (Framed.keeps _).ask request occurs uses framed with ⟨framedAfter, noFault⟩
        refine ⟨⟨grown.trans (answer_extends ?_ ?_ _), framedAfter⟩, noFault⟩
        · rintro rfl
          rcases occurs with ⟨_, occurs | ⟨occurs, _⟩ | occurs | occurs⟩ <;> cases occurs
        · rintro freed rfl
          rcases occurs with ⟨_, occurs | ⟨occurs, _⟩ | occurs | occurs⟩ <;> cases occurs
      newTermVector := fun ⟨grown, framed⟩ => ⟨_, _, answer_newTermVector _,
        grown.trans (extends_withNextVector ..), framed.withNextVector (.refl _)⟩
      newNodeVector := fun ⟨grown, framed⟩ => ⟨_, _, answer_newNodeVector _,
        grown.trans (extends_withNextVector ..), framed.withNextVector List.perm_middle⟩
      releaseTermVector := fun ⟨grown, framed⟩ => by
        rcases framed.withoutVector (.refl _) with ⟨live, framed⟩
        exact ⟨_, answer_releaseTermVector live, grown.trans (extends_withoutVector ..), framed⟩
      releaseNodeVector := fun ⟨grown, framed⟩ => by
        rcases framed.withoutVector List.perm_middle with ⟨live, framed⟩
        exact ⟨_, answer_releaseNodeVector live, grown.trans (extends_withoutVector ..), framed⟩ }
  exact (disciplined.safe keeps Request.tradesVector_of_isQuestion
    (fun vector isHeld => Or.inl (List.mem_dedup.mpr isHeld))
    ⟨.refl _, Framed.start live⟩).kept.1

theorem Disciplined.grows_of_nil {α : Type} {routine : Routine α}
    (disciplined : Disciplined Request.isQuestion [] routine) (traced : Traced ScriptedSolver) :
    Extends traced.state (Outcome.state (routine _ answer traced)).state :=
  disciplined.grows (by simp)

end SmtModel
