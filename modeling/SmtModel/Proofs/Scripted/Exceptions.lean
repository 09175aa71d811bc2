import SmtModel.Override
import SmtModel.Proofs.Discipline
import SmtModel.Proofs.Scripted.Values

/-!
# Exceptions

What is read from a scripted solver is what its script says, with two exceptions. One is a
solver under overrides, whose calls may answer anything.

The other one is a full table. Nodes are named by signed words, so there are names for the
first `2 ^ 31` places of a table of nodes only. The name of the next place wraps around to
a negative number, which stands for no place, and a model does not know the node that it
hands out under this name: calls that look at the node fail, and questions about it find
nothing below it. So nothing is read from a model with a full table but an absent value
(`SmtModel.Model.absent_of_full`). The calls that take something from the term itself hand
out no nodes and go on as before.
-/

namespace SmtModel

/-- The name of the place after the last one that has a name stands for no place. -/
theorem tableIndex?_ofNat_full : tableIndex? (Int32.ofNat 0x80000000) = none := by
  decide

namespace ScriptedSolver

variable {α : Type} {solver left : ScriptedSolver} {model : ModelId} {node : Node}

section Unnamed

variable (unnamed : tableIndex? node.id = none)

include unnamed

theorem nodeValue_of_unnamed :
    nodeValue model node solver = .ok none { solver with error := .invalidNodeOperation } := by
  unfold nodeValue
  rw [unnamed]
  rfl

/-- A call that looks at a node without a place fails. -/
theorem readNode_of_unnamed {call : Call} {cell : α} {read : ScriptedValue → Except Misfit α}
    {reply : Reply α} (answered : readNode call model node cell read solver = .ok reply left) :
    reply.status = statusFailed := by
  unfold readNode at answered
  by_cases scripted : call ∈ solver.failing
  · rw [attempt_of_mem scripted] at answered
    cases answered
    rfl
  · rw [attempt_of_not_mem scripted, Outcome.bind_of_ok (nodeValue_of_unnamed unnamed)] at answered
    cases answered
    rfl

/-- There is nothing below a node without a place. -/
theorem measureNode_of_unnamed {measure : ScriptedValue → α} {nothing measured : α}
    (answered : measureNode model node measure nothing solver = .ok measured left) :
    measured = nothing := by
  unfold measureNode at answered
  rw [Outcome.bind_of_ok (nodeValue_of_unnamed unnamed)] at answered
  cases answered
  rfl

end Unnamed

/-- The root of a value is named by the next place in the table. -/
theorem id_of_answer {live : ScriptedModel} (found : solver.model? model = some live) {term : TermId}
    {cell : Node} {reply : Reply Node}
    (answered : answer (.value model term cell) solver = .ok reply left)
    (accepted : reply.status ≠ statusFailed) : reply.cell.id = Int32.ofNat live.nodes.size := by
  simp only [answer] at answered
  unfold ScriptedSolver.value at answered
  by_cases scripted : .value ∈ solver.failing
  · rw [attempt_of_mem scripted] at answered
    cases answered
    exact absurd rfl accepted
  · rw [attempt_of_not_mem scripted] at answered
    rcases Outcome.bind_eq_ok.mp answered with ⟨value?, called, looked, ended⟩
    cases value? with
    | none =>
        cases ended
        exact absurd rfl accepted
    | some value =>
        rcases value?_of_valueOf looked with ⟨rfl, -⟩
        have found : (withCall .value solver).model? model = some live := found
        dsimp only at ended
        rw [Outcome.bind_of_ok (addNodes_of_some found [value])] at ended
        cases ended
        rfl

end ScriptedSolver

open ScriptedSolver

namespace Action

variable {α β : Type} {name : Call} {next : α → Action ScriptedSolver β}
  {traced left : Traced ScriptedSolver} {result : β}

/-- A failed call is not gone on from. -/
theorem bind_checkReply_ne_ok {reply : Reply α} (failed : reply.status = statusFailed) :
    (checkReply answer name reply >>= next) traced ≠ .ok result left := by
  rw [(Checks.reply name).refused reply (decide_eq_true failed), Checks.failCall_bind]
  exact failCall_ne_ok

/-- What begins with a call that cannot succeed has no result. -/
theorem ask_bind_checkReply_ne_ok {asks : Action ScriptedSolver (Reply α)}
    (fails : ∀ reply reached, asks traced = .ok reply reached → reply.status = statusFailed) :
    (asks >>= fun reply => checkReply answer name reply >>= next) traced ≠ .ok result left := by
  intro ran
  rcases Outcome.bind_eq_ok.mp ran with ⟨reply, reached, asked, ended⟩
  exact bind_checkReply_ne_ok (fails reply reached asked) ended

end Action

namespace Reading

variable {limit : DepthLimit} {model : ModelId} {node : Node} {traced left : Traced ScriptedSolver}
  {result : Value} (unnamed : tableIndex? node.id = none)

include unnamed

theorem readBool_ne_ok : readBool answer model node traced ≠ .ok result left := by
  refine Action.ask_bind_checkReply_ne_ok fun _ _ asked => ?_
  exact readNode_of_unnamed unnamed (Action.answer_of_ask asked)

theorem readRational_ne_ok : readRational answer model node traced ≠ .ok result left := by
  intro ran
  rcases Outcome.bind_eq_ok.mp ran with ⟨isInt64, reached, asked, ended⟩
  cases measureNode_of_unnamed unnamed (Action.answer_of_ask asked)
  rcases Outcome.bind_eq_ok.mp ended with ⟨isWords64, reached', asked', ended'⟩
  cases measureNode_of_unnamed unnamed (Action.answer_of_ask asked')
  refine Action.ask_bind_checkReply_ne_ok (fun _ _ asked => ?_) ended'
  exact readNode_of_unnamed unnamed (Action.answer_of_ask asked)

theorem readScalar_ne_ok : readScalar answer model node traced ≠ .ok result left := by
  refine Action.ask_bind_checkReply_ne_ok fun _ _ asked => ?_
  exact readNode_of_unnamed unnamed (Action.answer_of_ask asked)

/-- Nothing but an absent value is read at a node without a place. -/
theorem absent_of_unnamed {room : Nat}
    (ran : read answer model limit room node traced = .ok result left) : result = .absent := by
  cases room with
  | zero => cases ran
  | succ room =>
      rw [read_succ] at ran
      rcases Outcome.bind_eq_ok.mp ran with ⟨recorded, reached, -, ended⟩
      unfold readKind at ended
      generalize node.kind? = kind? at ended
      rcases kind? with _ | kind
      · cases ended
      cases kind with
      | unknown => cases ended
      | algebraic => cases ended
      | bool => exact absurd ended (readBool_ne_ok unnamed)
      | rational => exact absurd ended (readRational_ne_ok unnamed)
      | scalar => exact absurd ended (readScalar_ne_ok unnamed)
      | bitVector =>
          rcases Outcome.bind_eq_ok.mp ended with ⟨width, reached', asked, ended⟩
          cases measureNode_of_unnamed unnamed (Action.answer_of_ask asked)
          cases ended
          rfl
      | tuple =>
          rcases Outcome.bind_eq_ok.mp ended with ⟨arity, reached', asked, ended⟩
          cases measureNode_of_unnamed unnamed (Action.answer_of_ask asked)
          cases ended
          rfl
      | mapping =>
          rcases Outcome.bind_eq_ok.mp ended with ⟨point?, reached', asked, ended⟩
          rcases Outcome.bind_eq_ok.mp asked with ⟨arity, reached'', asked, pointed⟩
          cases measureNode_of_unnamed unnamed (Action.answer_of_ask asked)
          cases pointed
          cases ended
          rfl
      | function =>
          rcases Outcome.bind_eq_ok.mp ended with ⟨arity, reached', asked, ended⟩
          cases measureNode_of_unnamed unnamed (Action.answer_of_ask asked)
          cases ended
          rfl

end Reading

/-- From a model with a full table of nodes nothing but an absent value is read. -/
theorem Model.absent_of_full {model : Model} {term : TermId} {traced : Traced ScriptedSolver}
    {live : ScriptedModel} (found : traced.state.model? model.id = some live)
    (full : live.nodes.size = 0x80000000) {result : Value}
    (read : Outcome.result (model.ask answer (.value term) traced) = .ok result) :
    result = .absent := by
  rcases Outcome.result_eq_ok.mp read with ⟨left, ran⟩
  rcases Outcome.bind_eq_ok.mp ran with ⟨reply, reached, asked, ended⟩
  have answered := Action.answer_of_ask asked
  by_cases failed : reply.status = statusFailed
  · exact absurd ended (Action.bind_checkReply_ne_ok failed)
  · have unnamed : tableIndex? reply.cell.id = none := by
      rw [id_of_answer found answered failed, full]
      exact tableIndex?_ofNat_full
    simp only [Action.checkReply, Action.checkStatus, failed, if_false, pure_bind] at ended
    exact Reading.absent_of_unnamed unnamed ended

/-! ## Exceptional solvers -/

/-- A table that is full, with one entry at all places. -/
def fullTable {α : Type} (entry : α) : Array α := .replicate 0x80000000 entry

@[simp]
theorem size_fullTable {α : Type} (entry : α) : (fullTable entry).size = 0x80000000 :=
  Array.size_replicate

namespace ScriptedSolver

/-- A solver with one model, which assigns a value to the first term and has handed out nodes. -/
def ofNodes (value : ScriptedValue) (nodes : Array ScriptedValue) : ScriptedSolver :=
  { ofValue value with models := #[some ⟨[(⟨0⟩, value)], nodes, false⟩] }

/-- A solver whose model has a full table of nodes. -/
def crowded (value : ScriptedValue) : ScriptedSolver := ofNodes value (fullTable value)

/-- A solver of which one call returns a set value. -/
def returning (base : ScriptedSolver) (call : Call) (value : Int) : Overridden ScriptedSolver where
  base := base
  overrides := { returns := [(call, value)] }

end ScriptedSolver

end SmtModel
