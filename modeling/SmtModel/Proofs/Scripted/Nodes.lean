import Mathlib.Data.List.Forall2
import SmtModel.Proofs.Scripted.Meaning
import SmtModel.Proofs.Scripted.Requests

/-!
# Nodes of the scripted solver

A node shows a value in a model if the model keeps the value at the node's place and the
node has the tag of the value. Nodes go on showing their values while the tables grow,
and the nodes that are handed out for values show these, as long as there are
identifiers for them (`ScriptedSolver.HasRoom`).
-/

namespace SmtModel.ScriptedSolver

/-- A node stands for a value, and has its tag. -/
structure Shows (solver : ScriptedSolver) (model : ModelId) (node : Node) (value : ScriptedValue) :
    Prop where
  found : solver.node? model node = some value
  tag : node.tag = value.tag

/-- Fewer nodes than there are identifiers were handed out before the last one, and likewise fewer
terms. -/
structure HasRoom (solver : ScriptedSolver) (model : ModelId) : Prop where
  nodes : ∀ live, solver.model? model = some live → live.nodes.size ≤ 0x80000000
  terms : solver.terms.size ≤ 0x80000000

namespace Extends

variable {earlier later : ScriptedSolver} {model : ModelId}

theorem hasRoom (grown : Extends earlier later) (room : later.HasRoom model) :
    earlier.HasRoom model where
  nodes live found := by
    rcases grown.models model live found with ⟨nodes, foundLater⟩
    have bound := room.nodes _ foundLater
    simp only [← Array.length_toList, Array.toList_appendList, List.length_append] at bound ⊢
    omega
  terms := by
    have bound := room.terms
    have length := grown.terms.length_le
    simp only [Array.length_toList] at length
    omega

theorem shows (grown : Extends earlier later) {node : Node} {value : ScriptedValue}
    (shown : earlier.Shows model node value) : later.Shows model node value where
  tag := shown.tag
  found := by
    have found := shown.found
    simp only [node?, Option.bind_eq_bind, Option.bind_eq_some_iff] at found ⊢
    rcases found with ⟨live, foundModel, index, place, foundNode⟩
    rcases grown.models model live foundModel with ⟨nodes, foundLater⟩
    refine ⟨_, foundLater, index, place, ?_⟩
    have inside : index < live.nodes.size := (Array.getElem?_eq_some_iff.mp foundNode).1
    simp only [← Array.getElem?_toList, Array.toList_appendList] at foundNode ⊢
    rw [List.getElem?_append_left inside, foundNode]

theorem constants_kept (grown : Extends earlier later) :
    Constants.Kept earlier.constant? later.constant? :=
  constant?_of_prefix grown.terms

end Extends

/-! ## Handing out nodes -/

theorem nodesFrom_cons (first : Nat) (value : ScriptedValue) (values : List ScriptedValue) :
    nodesFrom first (value :: values) =
      ⟨Int32.ofNat first, value.tag⟩ :: nodesFrom (first + 1) values := by
  simp only [nodesFrom, List.mapIdx_cons, Nat.add_zero, List.cons.injEq, true_and]
  congr 1
  funext offset value
  rw [Nat.add_right_comm, Nat.add_assoc]

theorem nodesFrom_append (first : Nat) (values values' : List ScriptedValue) :
    nodesFrom first (values ++ values') =
      nodesFrom first values ++ nodesFrom (first + values.length) values' := by
  induction values generalizing first with
  | nil => simp [nodesFrom]
  | cons value values ih =>
      rw [List.cons_append, nodesFrom_cons, nodesFrom_cons, ih, List.cons_append,
        List.length_cons, Nat.add_assoc, Nat.add_comm 1]

theorem shows_nodesFrom {solver : ScriptedSolver} {model : ModelId} {live : ScriptedModel}
    (found : solver.model? model = some live) (first : Nat) (values : List ScriptedValue)
    (kept : ∀ offset value, values[offset]? = some value →
      live.nodes[first + offset]? = some value)
    (room : first + values.length ≤ 0x80000000) :
    List.Forall₂ (solver.Shows model) (nodesFrom first values) values := by
  induction values generalizing first with
  | nil => exact .nil
  | cons value values ih =>
      simp only [List.length_cons] at room
      rw [nodesFrom_cons]
      refine .cons ⟨?_, rfl⟩ (ih (first + 1) (fun offset value' at_ => ?_) (by omega))
      · have place := kept 0 value rfl
        simp only [node?, found, tableIndex?_ofNat (show first < 0x80000000 by omega)]
        exact place
      · have place := kept (offset + 1) value' at_
        rwa [Nat.add_comm offset, ← Nat.add_assoc] at place

/-- The nodes that are handed out for values show these. -/
theorem shows_withNodes {solver : ScriptedSolver} {model : ModelId} {live : ScriptedModel}
    (found : solver.model? model = some live) (values : List ScriptedValue)
    (room : (solver.withNodes model live values).HasRoom model) :
    List.Forall₂ ((solver.withNodes model live values).Shows model)
      (nodesFrom live.nodes.size values) values := by
  have foundAfter := model?_withNodes found values
  have bound := room.nodes _ foundAfter
  simp only [← Array.length_toList, Array.toList_appendList, List.length_append] at bound
  refine shows_nodesFrom foundAfter _ values (fun offset value at_ => ?_) (by simpa using bound)
  simp only [← Array.getElem?_toList, Array.toList_appendList]
  rw [List.getElem?_append_right (by simp)]
  simpa using at_

/-! ## Answers about nodes that show a value -/

section Answers

variable {α : Type} {solver : ScriptedSolver} {model : ModelId} {node : Node}
  {value : ScriptedValue}

theorem exists_live_of_shows (shown : solver.Shows model node value) :
    ∃ live, solver.model? model = some live := by
  have found := shown.found
  simp only [node?, Option.bind_eq_bind, Option.bind_eq_some_iff] at found
  rcases found with ⟨live, found, _⟩
  exact ⟨live, found⟩

theorem measureNode_of_shows (shown : solver.Shows model node value)
    (measure : ScriptedValue → α) (none : α) :
    measureNode model node measure none solver = .ok (measure value) solver := by
  unfold measureNode
  rw [Outcome.bind_of_ok (nodeValue_of_some shown.found)]
  rfl

theorem readNode_of_shows {call : Call} (free : call ∉ solver.failing)
    (shown : solver.Shows model node value) (cell : α) {read : ScriptedValue → Except Misfit α}
    {result : α} (reads : read value = .ok result) :
    readNode call model node cell read solver = .ok (.ok result) (withCall call solver) := by
  have found : (withCall call solver).node? model node = some value := shown.found
  unfold readNode
  rw [attempt_of_not_mem free, Outcome.bind_of_ok (nodeValue_of_some found)]
  simp only [reads]
  rfl

theorem expandTuple_run {live : ScriptedModel} {items : List ScriptedValue} {arity : Nat}
    (free : .expandTuple ∉ solver.failing) (foundModel : solver.model? model = some live)
    (shown : solver.Shows model node (.tuple items)) (sameArity : items.length = arity)
    (cells : Vector Node arity) :
    let expanded := (withCall .expandTuple solver).withNodes model live items
    ∃ nodes, expandTuple model node arity cells solver = .ok (.ok nodes) expanded ∧
      (expanded.HasRoom model → List.Forall₂ (expanded.Shows model) nodes.toList items) := by
  have found : (withCall .expandTuple solver).node? model node = some (.tuple items) := shown.found
  have foundModel : (withCall .expandTuple solver).model? model = some live := foundModel
  subst sameArity
  refine ⟨⟨(nodesFrom live.nodes.size items).toArray, by simp⟩, ?_,
    shows_withNodes foundModel items⟩
  unfold expandTuple
  rw [attempt_of_not_mem free, Outcome.bind_of_ok (nodeValue_of_some found)]
  simp only [dite_true]
  rw [Outcome.bind_of_ok (addNodes_of_some foundModel items)]
  rfl

theorem expandTuple_of_shows {items : List ScriptedValue} {arity : Nat}
    (free : .expandTuple ∉ solver.failing) (shown : solver.Shows model node (.tuple items))
    (sameArity : items.length = arity) (cells : Vector Node arity) :
    ∃ nodes left, expandTuple model node arity cells solver = .ok (.ok nodes) left ∧
      left.terms = solver.terms ∧
        (left.HasRoom model → List.Forall₂ (left.Shows model) nodes.toList items) := by
  rcases exists_live_of_shows shown with ⟨live, foundModel⟩
  rcases expandTuple_run free foundModel shown sameArity cells with ⟨nodes, expands, shows⟩
  exact ⟨nodes, _, expands, rfl, shows⟩

theorem expandMapping_run {live : ScriptedModel} {args : List ScriptedValue}
    {result : ScriptedValue} {arity : Nat} (free : .expandMapping ∉ solver.failing)
    (foundModel : solver.model? model = some live)
    (shown : solver.Shows model node (.mapping ⟨args, result⟩))
    (sameArity : args.length = arity) (cells : Vector Node arity × Node) :
    let expanded := (withCall .expandMapping solver).withNodes model live (args ++ [result])
    ∃ nodes last, expandMapping model node arity cells solver = .ok (.ok (nodes, last)) expanded ∧
      (expanded.HasRoom model →
        List.Forall₂ (expanded.Shows model) nodes.toList args ∧
          expanded.Shows model last result) := by
  have found : (withCall .expandMapping solver).node? model node =
      some (.mapping ⟨args, result⟩) := shown.found
  have foundModel : (withCall .expandMapping solver).model? model = some live := foundModel
  subst sameArity
  refine ⟨⟨(nodesFrom live.nodes.size args).toArray, by simp⟩,
    ⟨Int32.ofNat (live.nodes.size + args.length), result.tag⟩, ?_, fun room => ?_⟩
  · unfold expandMapping
    rw [attempt_of_not_mem free, Outcome.bind_of_ok (nodeValue_of_some found)]
    simp only [dite_true]
    rw [Outcome.bind_of_ok (addNodes_of_some foundModel _)]
    rfl
  · have shows := shows_withNodes foundModel (args ++ [result]) room
    have args_shown := List.forall₂_take_append _ _ _ shows
    have last_shown := List.forall₂_drop_append _ _ _ shows
    rw [nodesFrom_append, List.take_left' (length_nodesFrom ..)] at args_shown
    rw [nodesFrom_append, List.drop_left' (length_nodesFrom ..), nodesFrom_cons] at last_shown
    exact ⟨args_shown, (List.forall₂_cons.mp last_shown).1⟩

theorem expandMapping_of_shows {args : List ScriptedValue} {result : ScriptedValue} {arity : Nat}
    (free : .expandMapping ∉ solver.failing)
    (shown : solver.Shows model node (.mapping ⟨args, result⟩))
    (sameArity : args.length = arity) (cells : Vector Node arity × Node) :
    ∃ nodes last left, expandMapping model node arity cells solver = .ok (.ok (nodes, last)) left ∧
      left.terms = solver.terms ∧
        (left.HasRoom model →
          List.Forall₂ (left.Shows model) nodes.toList args ∧ left.Shows model last result) := by
  rcases exists_live_of_shows shown with ⟨live, foundModel⟩
  rcases expandMapping_run free foundModel shown sameArity cells with
    ⟨nodes, last, expands, shows⟩
  exact ⟨nodes, last, _, expands, rfl, shows⟩

theorem expandFunction_run {liveModel : ScriptedModel} {arity : UInt32}
    {graph : FiniteFunction ScriptedValue} {entries : VectorId}
    (free : .expandFunction ∉ solver.failing) (foundModel : solver.model? model = some liveModel)
    (live : solver.IsLive entries) (shown : solver.Shows model node (.function arity graph))
    (cell : Node) :
    let handed := (withCall .expandFunction solver).withNodes model liveModel
      (graph.default :: graph.entries.map .mapping)
    ∃ default nodes,
      expandFunction model node entries cell solver =
        .ok (.ok default) (handed.withVector entries (some (.nodes nodes))) ∧
      (handed.HasRoom model → handed.Shows model default graph.default ∧
        List.Forall₂ (handed.Shows model) nodes (graph.entries.map .mapping)) := by
  have found : (withCall .expandFunction solver).node? model node =
      some (.function arity graph) := shown.found
  have foundModel : (withCall .expandFunction solver).model? model = some liveModel := foundModel
  have shows := shows_withNodes foundModel (graph.default :: graph.entries.map .mapping)
  rw [nodesFrom_cons] at shows
  let points := graph.entries.map ScriptedValue.mapping
  refine ⟨⟨Int32.ofNat liveModel.nodes.size, graph.default.tag⟩,
    nodesFrom (liveModel.nodes.size + 1) points, ?_, fun room => List.forall₂_cons.mp (shows room)⟩
  unfold expandFunction
  rw [Outcome.bind_of_ok (checkVector_of_isLive live), attempt_of_not_mem free,
    Outcome.bind_of_ok (nodeValue_of_some found)]
  dsimp only
  rw [Outcome.bind_of_ok (addNodes_of_some foundModel _), Outcome.bind_of_ok (setVector_run ..)]
  rfl

/-- What a vector holds matters to no node. -/
theorem extends_withVector (solver : ScriptedSolver) (vector : VectorId)
    (contents? : Option VectorContents) : Extends solver (solver.withVector vector contents?) :=
  .of_tables_eq rfl rfl rfl rfl rfl

theorem expandFunction_of_shows {arity : UInt32} {graph : FiniteFunction ScriptedValue}
    {entries : VectorId} (free : .expandFunction ∉ solver.failing)
    (live : solver.IsLive entries) (shown : solver.Shows model node (.function arity graph))
    (cell : Node) :
    ∃ default nodes left,
      expandFunction model node entries cell solver = .ok (.ok default) left ∧
        left.terms = solver.terms ∧ left.vector? entries = some (.nodes nodes) ∧
        (left.HasRoom model → left.Shows model default graph.default ∧
          List.Forall₂ (left.Shows model) nodes (graph.entries.map .mapping)) := by
  rcases exists_live_of_shows shown with ⟨liveModel, foundModel⟩
  rcases expandFunction_run free foundModel live shown cell with ⟨default, nodes, expands, shows⟩
  have grown := extends_withVector ((withCall .expandFunction solver).withNodes model liveModel
    (graph.default :: graph.entries.map .mapping)) entries (some (.nodes nodes))
  refine ⟨default, nodes, _, expands, rfl,
    (vector?_withVector (show IsLive _ entries from live) _ entries).trans (if_pos rfl),
    fun room => ?_⟩
  rcases shows (grown.hasRoom room) with ⟨first, others⟩
  exact ⟨grown.shows first, others.imp fun _ _ => grown.shows⟩

theorem nodeVectorElements_of_filled {vector : VectorId} {nodes : List Node}
    (filled : solver.vector? vector = some (.nodes nodes)) :
    answer (.nodeVectorElements vector) solver = .ok nodes solver := by
  have looked : answer (.nodeVectorElements vector) solver =
      .ok (((solver.vector? vector).map VectorContents.nodeList).getD []) solver := rfl
  rw [looked, filled]
  rfl

end Answers

end SmtModel.ScriptedSolver
