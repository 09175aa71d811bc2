import Mathlib.Data.List.Induction
import SmtModel.Proofs.Scripted.Nodes
import SmtModel.Proofs.Scripted.Vectors

/-!
# What visits leave behind

Where a reader looks at a value, it makes the calls that the value takes, and what comes of
them is that nodes are handed out for the parts of the value, that a constant is made for
an element which has none, or that a vector is held for entries and released. The state
that is left depends on the visits alone (`ScriptedSolver.afterVisits`), and visits may be
made one after another (`ScriptedSolver.afterVisits_append`).

The parts of the visited values, together with the root, are the visited values themselves
in another order (`ScriptedValue.visits_rooted`).
-/

namespace SmtModel

/-- The call that gives a number as exactly as can be. -/
def Fraction.fetch (fraction : Fraction) : Call :=
  if fraction.int64?.isSome then .nodeInt64
  else if fraction.words64?.isSome then .nodeRational64
  else .nodeDouble

/-! ## Looking at one value -/

namespace ScriptedValue

/-- The counted calls that are made where a value is looked at, in order. -/
def fetches : ScriptedValue → List Call
  | .bool _ => [.nodeBool]
  | .rational fraction => [fraction.fetch]
  | .bitVector bits => if bits.isEmpty then [] else [.nodeBits]
  | .scalar .. => [.nodeScalar, .constant]
  | .tuple items => if items.isEmpty then [] else [.expandTuple]
  | .mapping point => if point.args.isEmpty then [] else [.expandMapping]
  | .function arity _ => if arity = 0 then [] else [.expandFunction]
  | .algebraic | .tagged _ => []

/-- The values that nodes are handed out for where a value is looked at, in order. -/
def parts : ScriptedValue → List ScriptedValue
  | .tuple items => items
  | .mapping point => if point.args.isEmpty then [] else point.args ++ [point.result]
  | .function arity graph =>
    if arity = 0 then [] else graph.default :: graph.entries.map .mapping
  | _ => []

/-- The element for which a constant is asked. -/
def element? : ScriptedValue → Option (TypeId × Int32)
  | .scalar type index => some (type, index)
  | _ => none

/-- Whether entries are read, for which a vector is held. -/
def hasEntries : ScriptedValue → Bool
  | .function arity _ => arity ≠ 0
  | _ => false

theorem nodup_fetches (value : ScriptedValue) : value.fetches.Nodup := by
  cases value with
  | scalar type index => exact List.nodup_cons.mpr ⟨by simp, List.nodup_singleton _⟩
  | algebraic | tagged => exact List.nodup_nil
  | bool | rational => exact List.nodup_singleton _
  | _ =>
      simp only [fetches]
      split_ifs
      · exact List.nodup_nil
      · exact List.nodup_singleton _

end ScriptedValue

namespace Visit

/-- The counted calls that are made at a visit, in order. -/
def fetches (visit : Visit) : List Call := visit.value.fetches

/-- The values that nodes are handed out for at a visit, in order. -/
def parts (visit : Visit) : List ScriptedValue := visit.value.parts

/-- The element for which a constant is asked at a visit. -/
def element? (visit : Visit) : Option (TypeId × Int32) := visit.value.element?

/-- Whether entries are read at a visit. -/
def hasEntries (visit : Visit) : Bool := visit.value.hasEntries

end Visit

/-! ## Constants that are missing -/

/-- The constant for an element of an enumerated type. -/
def ScriptedTerm.ofElement (element : TypeId × Int32) : ScriptedTerm where
  type := element.1
  constant? := some (.scalar element.1 element.2)

theorem ScriptedTerm.denotes_ofElement (element : TypeId × Int32) (type : TypeId)
    (index : Int32) :
    (ScriptedTerm.ofElement element).denotes type index = decide (element = (type, index)) := by
  simp [denotes, ofElement, Prod.ext_iff]

namespace ScriptedSolver

variable {solver later : ScriptedSolver} {type : TypeId} {index : Int32}

/-- The elements that no term denotes yet, each of them once. -/
def missing (solver : ScriptedSolver) (elements : List (TypeId × Int32)) :
    List (TypeId × Int32) :=
  (elements.filter fun element => (solver.constant? element.1 element.2).isNone).eraseDups

theorem constant?_eq_none_iff :
    solver.constant? type index = none ↔
      ∀ term ∈ solver.terms, term.denotes type index = false := by
  simp only [constant?, Option.map_eq_none_iff, Array.findIdx?_eq_none_iff]

/-- An element has a constant as soon as one is added for it. -/
theorem constant?_of_added {elements : List (TypeId × Int32)}
    (added : later.terms = solver.terms ++ elements.map ScriptedTerm.ofElement) :
    later.constant? type index = none ↔
      solver.constant? type index = none ∧ (type, index) ∉ elements := by
  have terms (term : ScriptedTerm) : term ∈ later.terms ↔
      term ∈ solver.terms ∨ term ∈ elements.map ScriptedTerm.ofElement := by
    rw [added, ← Array.mem_toList_iff, Array.toList_appendList, List.mem_append,
      Array.mem_toList_iff]
  simp only [constant?_eq_none_iff, terms, or_imp, forall_and, List.forall_mem_map]
  refine and_congr_right fun _ => ?_
  simp only [ScriptedTerm.denotes_ofElement, decide_eq_false_iff_not]
  exact ⟨fun others isElement => others _ isElement rfl,
    fun notElement element isElement same => notElement (same ▸ isElement)⟩

theorem missing_append {first : List (TypeId × Int32)}
    (added : later.terms = solver.terms ++ (solver.missing first).map ScriptedTerm.ofElement)
    (second : List (TypeId × Int32)) :
    solver.missing (first ++ second) = solver.missing first ++ later.missing second := by
  have unknown (element : TypeId × Int32) :
      later.constant? element.1 element.2 = none ↔
        solver.constant? element.1 element.2 = none ∧ element ∉ first := by
    rw [constant?_of_added added]
    simp only [missing, List.mem_eraseDups, List.mem_filter, Option.isNone_iff_eq_none]
    tauto
  unfold missing
  rw [List.filter_append, List.eraseDups_append, List.removeAll, List.filter_filter]
  congr 2
  refine List.filter_congr fun element _ => ?_
  rw [Bool.eq_iff_iff]
  simp only [Option.isNone_iff_eq_none, unknown, Bool.and_eq_true, Bool.not_eq_true',
    List.elem_eq_mem, decide_eq_false_iff_not, List.mem_filter]
  tauto

theorem mem_missing {elements : List (TypeId × Int32)} {element : TypeId × Int32} :
    element ∈ solver.missing elements ↔
      element ∈ elements ∧ solver.constant? element.1 element.2 = none := by
  simp only [missing, List.mem_eraseDups, List.mem_filter, Option.isNone_iff_eq_none]

theorem nodup_eraseDups {α : Type} [BEq α] [LawfulBEq α] (items : List α) :
    items.eraseDups.Nodup := by
  induction items using List.reverseRecOn with
  | nil => exact List.nodup_nil
  | append_singleton items item ih =>
      rw [List.eraseDups_append]
      by_cases again : item ∈ items
      · simpa [List.removeAll, again] using ih
      · have last : ([item].removeAll items).eraseDups = [item] := by
          simp [List.removeAll, again, List.eraseDups_cons]
        rw [last, List.nodup_append]
        refine ⟨ih, List.nodup_singleton _, fun earlier isEarlier later isLater same => ?_⟩
        rw [List.mem_singleton.mp isLater] at same
        exact again (same ▸ List.mem_eraseDups.mp isEarlier)

theorem nodup_missing (solver : ScriptedSolver) (elements : List (TypeId × Int32)) :
    (solver.missing elements).Nodup :=
  nodup_eraseDups _

end ScriptedSolver

/-! ## The state after visits -/

namespace ScriptedModel

/-- A model with more nodes. -/
def withParts (live : ScriptedModel) (parts : List ScriptedValue) : ScriptedModel :=
  { live with nodes := live.nodes ++ parts }

@[simp]
theorem withParts_nil (live : ScriptedModel) : live.withParts [] = live := by
  simp [withParts]

theorem withParts_withParts (live : ScriptedModel) (parts parts' : List ScriptedValue) :
    (live.withParts parts).withParts parts' = live.withParts (parts ++ parts') := by
  have nodes : live.nodes ++ parts ++ parts' = live.nodes ++ (parts ++ parts') :=
    Array.ext' (by simp)
  simp only [withParts, nodes]

end ScriptedModel

namespace VectorCounts

/-- The counts after vectors of nodes were made and released. -/
def withNodes (counts : VectorCounts) (vectors : Nat) : VectorCounts :=
  { counts with
    nodesMade := counts.nodesMade + vectors
    nodesReleased := counts.nodesReleased + vectors }

end VectorCounts

namespace ScriptedSolver

/-- The solver after nodes were handed out for parts of a model's values. -/
def withParts (solver : ScriptedSolver) (model : ModelId) (parts : List ScriptedValue) :
    ScriptedSolver :=
  { solver with models := solver.models.modify model.number (Option.map (·.withParts parts)) }

/-- The solver after visits in a model. -/
def afterVisits (solver : ScriptedSolver) (model : ModelId) (visits : List Visit) :
    ScriptedSolver :=
  let vectors := visits.countP Visit.hasEntries
  { solver.withParts model (visits.flatMap Visit.parts) with
    terms := solver.terms ++
      (solver.missing (visits.filterMap Visit.element?)).map ScriptedTerm.ofElement
    vectors := solver.vectors ++ List.replicate vectors (none : Option VectorContents)
    counts := solver.counts.withNodes vectors
    calls := (visits.flatMap Visit.fetches).reverse ++ solver.calls }

variable {solver : ScriptedSolver} {model : ModelId}

theorem withParts_nil (solver : ScriptedSolver) (model : ModelId) :
    solver.withParts model [] = solver := by
  have same : Option.map (fun live : ScriptedModel => live.withParts []) = id := by
    funext live?
    cases live? <;> simp [ScriptedModel.withParts_nil]
  have models : solver.models.modify model.number (Option.map (·.withParts [])) =
      solver.models := by
    apply Array.ext'
    rw [same, Array.toList_modify, List.modify_id]
  simp only [withParts, models]

theorem withParts_withParts (solver : ScriptedSolver) (model : ModelId)
    (parts parts' : List ScriptedValue) :
    (solver.withParts model parts).withParts model parts' =
      solver.withParts model (parts ++ parts') := by
  have both : Option.map (fun live : ScriptedModel => live.withParts parts') ∘
      Option.map (fun live : ScriptedModel => live.withParts parts) =
        Option.map (·.withParts (parts ++ parts')) := by
    funext live?
    cases live? <;> simp [ScriptedModel.withParts_withParts]
  have models : (solver.models.modify model.number (Option.map (·.withParts parts))).modify
      model.number (Option.map (·.withParts parts')) =
        solver.models.modify model.number (Option.map (·.withParts (parts ++ parts'))) := by
    apply Array.ext'
    simp only [Array.toList_modify, List.modify_modify_eq, both]
  simp only [withParts, models]

theorem withNodes_eq {live : ScriptedModel} (found : solver.model? model = some live)
    (parts : List ScriptedValue) :
    solver.withNodes model live parts = solver.withParts model parts := by
  have models : solver.models.setIfInBounds model.number (some (live.withParts parts)) =
      solver.models.modify model.number (Option.map (·.withParts parts)) := by
    simp only [model?, Option.join_eq_some_iff] at found
    apply Array.ext_getElem?
    intro place
    rw [Array.getElem?_setIfInBounds, Array.getElem?_modify]
    by_cases here : model.number = place
    · subst here
      rw [if_pos rfl, if_pos rfl, found, if_pos (Array.getElem?_eq_some_iff.mp found).1]
      rfl
    · rw [if_neg here, if_neg here]
  exact congrArg (fun models => { solver with models }) models

theorem model?_withParts (solver : ScriptedSolver) (model : ModelId) (parts : List ScriptedValue) :
    (solver.withParts model parts).model? model =
      (solver.model? model).map (·.withParts parts) := by
  simp only [model?, withParts, Array.getElem?_modify, if_true]
  rcases solver.models[model.number]? with _ | _ | live <;> rfl

theorem model?_withParts_of_ne (solver : ScriptedSolver) {other : ModelId}
    (different : other ≠ model) (parts : List ScriptedValue) :
    (solver.withParts model parts).model? other = solver.model? other := by
  have numbers : model.number ≠ other.number := fun same => different (by
    cases model
    cases other
    exact congrArg _ same.symm)
  simp only [model?, withParts, Array.getElem?_modify, if_neg numbers]

/-- Visits are made one after another. -/
theorem afterVisits_append (solver : ScriptedSolver) (model : ModelId)
    (visits visits' : List Visit) :
    (solver.afterVisits model visits).afterVisits model visits' =
      solver.afterVisits model (visits ++ visits') := by
  have models := congrArg ScriptedSolver.models (withParts_withParts solver model
    (visits.flatMap Visit.parts) (visits'.flatMap Visit.parts))
  have missing := missing_append (show (solver.afterVisits model visits).terms = _ from rfl)
    (visits'.filterMap Visit.element?)
  have terms : ((solver.afterVisits model visits).afterVisits model visits').terms =
      (solver.afterVisits model (visits ++ visits')).terms := by
    simp only [afterVisits, List.filterMap_append] at missing ⊢
    rw [missing, List.map_append]
    exact Array.ext' (by simp)
  simp only [withParts] at models
  simp only [afterVisits, withParts, mk.injEq, true_and] at terms ⊢
  refine ⟨terms, ?_, ?_, ?_, ?_⟩
  · rw [models, List.flatMap_append]
  · rw [List.countP_append, ← List.replicate_append_replicate]
    exact Array.ext' (by simp)
  · simp only [VectorCounts.withNodes, List.countP_append, Nat.add_assoc]
  · rw [List.flatMap_append, List.reverse_append, List.append_assoc]

theorem extends_afterVisits (solver : ScriptedSolver) (model : ModelId) (visits : List Visit) :
    Extends solver (solver.afterVisits model visits) where
  types := rfl
  contexts := rfl
  failing := rfl
  terms := by
    simp only [afterVisits, Array.toList_appendList, List.prefix_append]
  models id live found := by
    by_cases same : id = model
    · subst same
      refine ⟨visits.flatMap Visit.parts, ?_⟩
      have parts := model?_withParts solver id (visits.flatMap Visit.parts)
      rw [found] at parts
      exact parts
    · refine ⟨[], ?_⟩
      have kept := model?_withParts_of_ne solver same (visits.flatMap Visit.parts)
      rw [found] at kept
      exact kept.trans (congrArg some live.withParts_nil.symm)

/-! ### Single visits -/

section Single

variable {depth : Nat} {isEntry : Bool} {type : TypeId} {index : Int32}

theorem afterVisits_nil (solver : ScriptedSolver) (model : ModelId) :
    solver.afterVisits model [] = solver := by
  have parts := withParts_nil solver model
  simp only [afterVisits, List.flatMap_nil, parts, missing]
  simp [VectorCounts.withNodes]

/-- A visit for which no vector is held. -/
theorem afterVisits_of_noEntries {visit : Visit} (noEntries : visit.hasEntries = false) :
    solver.afterVisits model [visit] =
      { solver.withParts model visit.parts with
        terms := solver.terms ++
          (solver.missing visit.element?.toList).map ScriptedTerm.ofElement
        calls := visit.fetches.reverse ++ solver.calls } := by
  have elements : [visit].filterMap Visit.element? = visit.element?.toList := by
    cases found : visit.element? <;> simp [found]
  simp [afterVisits, elements, noEntries, withParts, VectorCounts.withNodes]

/-- A visit with one call, which hands out the parts. -/
theorem afterVisits_of_call {visit : Visit} {call : Call} (fetches : visit.fetches = [call])
    (noElement : visit.element? = none) (noEntries : visit.hasEntries = false) :
    solver.afterVisits model [visit] = (withCall call solver).withParts model visit.parts := by
  rw [afterVisits_of_noEntries noEntries, noElement, fetches]
  simp [withParts, missing, withCall]

theorem afterVisits_of_expand {visit : Visit} {call : Call} {live : ScriptedModel}
    (found : solver.model? model = some live) (fetches : visit.fetches = [call])
    (noElement : visit.element? = none) (noEntries : visit.hasEntries = false) :
    (withCall call solver).withNodes model live visit.parts = solver.afterVisits model [visit] := by
  rw [afterVisits_of_call fetches noElement noEntries]
  exact withNodes_eq (show (withCall call solver).model? model = some live from found) _

theorem afterVisits_of_fetch {visit : Visit} {call : Call} (fetches : visit.fetches = [call])
    (noParts : visit.parts = []) (noElement : visit.element? = none)
    (noEntries : visit.hasEntries = false) :
    solver.afterVisits model [visit] = withCall call solver := by
  rw [afterVisits_of_call fetches noElement noEntries, noParts, withParts_nil]

/-- A visit at which there is nothing to fetch. -/
theorem afterVisits_of_absent {visit : Visit} (noFetches : visit.fetches = [])
    (noParts : visit.parts = []) (noElement : visit.element? = none)
    (noEntries : visit.hasEntries = false) : solver.afterVisits model [visit] = solver := by
  rw [afterVisits_of_noEntries noEntries, noElement, noFetches, noParts, withParts_nil]
  simp [missing]

theorem afterVisits_of_known {constant : TermId}
    (known : solver.constant? type index = some constant) :
    solver.afterVisits model [⟨depth, .scalar type index, isEntry⟩] =
      withCall .constant (withCall .nodeScalar solver) := by
  have found : solver.missing [(type, index)] = [] := by simp [missing, known]
  have visited : Visit.element? ⟨depth, .scalar type index, isEntry⟩ = some (type, index) := rfl
  rw [afterVisits_of_noEntries rfl, visited, Option.toList_some, found]
  simp [Visit.parts, ScriptedValue.parts, withParts_nil, Visit.fetches, ScriptedValue.fetches,
    withCall]

theorem afterVisits_of_unknown (unknown : solver.constant? type index = none) :
    solver.afterVisits model [⟨depth, .scalar type index, isEntry⟩] =
      (withCall .constant (withCall .nodeScalar solver)).withConstant type index := by
  have found : solver.missing [(type, index)] = [(type, index)] := by
    simp [missing, unknown, List.eraseDups_cons]
  have visited : Visit.element? ⟨depth, .scalar type index, isEntry⟩ = some (type, index) := rfl
  rw [afterVisits_of_noEntries rfl, visited, Option.toList_some, found]
  simp [Visit.parts, ScriptedValue.parts, withParts_nil, Visit.fetches, ScriptedValue.fetches,
    withCall, withConstant, ScriptedTerm.ofElement]

/-- Around the visits below a function a vector is held for its entries. -/
theorem afterVisits_function {arity : UInt32} {graph : FiniteFunction ScriptedValue}
    (someArity : arity ≠ 0) (contents : VectorContents) (visits : List Visit) :
    ((((withCall .expandFunction
      (solver.withNextVector (.nodes []) .withNodesMade)).withParts model
        (graph.default :: graph.entries.map .mapping)).withVector solver.nextVector
          (some contents)).afterVisits model visits).withoutVector solver.nextVector
            .withNodesReleased =
      solver.afterVisits model (⟨depth, .function arity graph, isEntry⟩ :: visits) := by
  let visit : Visit := ⟨depth, .function arity graph, isEntry⟩
  have fetches : visit.fetches = [.expandFunction] := if_neg someArity
  have parts : visit.parts = graph.default :: graph.entries.map .mapping := if_neg someArity
  have hasEntries : visit.hasEntries = true := decide_eq_true someArity
  have elements : (visit :: visits).filterMap Visit.element? = visits.filterMap Visit.element? :=
    List.filterMap_cons_none rfl
  have models := congrArg ScriptedSolver.models
    (withParts_withParts solver model visit.parts (visits.flatMap Visit.parts))
  let noVector : Option VectorContents := none
  have vectors : Array.setIfInBounds ((solver.vectors.push (some (.nodes []))).setIfInBounds
      solver.vectors.size (some contents) ++
        List.replicate (visits.countP Visit.hasEntries) noVector) solver.vectors.size noVector =
          solver.vectors ++ List.replicate (visits.countP Visit.hasEntries + 1) noVector := by
    apply Array.ext'
    simp [List.replicate_succ]
  have counts : (solver.counts.withNodesMade.withNodes
      (visits.countP Visit.hasEntries)).withNodesReleased =
        solver.counts.withNodes (visits.countP Visit.hasEntries + 1) := by
    simp only [VectorCounts.withNodesMade, VectorCounts.withNodes, VectorCounts.withNodesReleased,
      VectorCounts.mk.injEq, true_and]
    omega
  change _ = solver.afterVisits model (visit :: visits)
  rw [← parts]
  simp only [afterVisits, withoutVector, withVector, withParts, withNextVector, withCall,
    nextVector, mk.injEq, true_and, List.flatMap_cons, elements, List.countP_cons, hasEntries,
    if_true, fetches]
  exact ⟨rfl, models, vectors, counts, by simp⟩

end Single

end ScriptedSolver

/-! ## Visited values -/

/-- The visited values are some roots and the parts of visited values. -/
def Rooted (visits : List Visit) (roots : List ScriptedValue) : Prop :=
  (roots ++ visits.flatMap Visit.parts).Perm (visits.map Visit.value)

namespace Rooted

variable {visits visits' : List Visit} {roots roots' : List ScriptedValue}

theorem nil : Rooted [] [] := .refl _

theorem append (first : Rooted visits roots) (second : Rooted visits' roots') :
    Rooted (visits ++ visits') (roots ++ roots') := by
  unfold Rooted at first second ⊢
  rw [List.flatMap_append, List.map_append]
  refine List.Perm.trans ?_ (first.append second)
  rw [List.append_assoc, List.append_assoc]
  exact (List.perm_append_comm_assoc ..).append_left _

/-- Below a visit, its parts are roots. -/
theorem cons {visit : Visit} (below : Rooted visits visit.parts) :
    Rooted (visit :: visits) [visit.value] := by
  unfold Rooted at below ⊢
  rw [List.flatMap_cons, List.map_cons, List.singleton_append]
  exact below.cons _

theorem leaf {visit : Visit} (noParts : visit.parts = []) : Rooted [visit] [visit.value] := by
  apply cons
  rw [noParts]
  exact nil

end Rooted

mutual

/-- All values that are visited hang below the one at the root. -/
theorem ScriptedValue.visits_rooted :
    ∀ (value : ScriptedValue) (depth : Nat), Rooted (value.visits depth) [value]
  | .bool _, _ => .leaf rfl
  | .rational _, _ => .leaf rfl
  | .algebraic, _ => .leaf rfl
  | .bitVector _, _ => .leaf rfl
  | .scalar .., _ => .leaf rfl
  | .tagged _, _ => .leaf rfl
  | .tuple items, depth => by
      rw [ScriptedValue.visits]
      exact .cons (ScriptedValue.itemVisits_rooted items (depth + 1))
  | .mapping point, depth => by
      rw [ScriptedValue.visits]
      exact .cons (ScriptedValue.pointVisits_rooted point (depth + 1))
  | .function arity graph, depth => by
      rw [ScriptedValue.visits]
      by_cases noArity : arity = 0
      · rw [if_pos noArity]
        exact .leaf (if_pos noArity)
      · rw [if_neg noArity]
        have parts : Visit.parts ⟨depth, .function arity graph, false⟩ =
            graph.default :: graph.entries.map .mapping := if_neg noArity
        apply Rooted.cons
        rw [parts]
        exact ScriptedValue.graphVisits_rooted graph (depth + 1)
termination_by structural value => value

theorem ScriptedValue.itemVisits_rooted :
    ∀ (items : List ScriptedValue) (depth : Nat),
      Rooted (ScriptedValue.itemVisits depth items) items
  | [], _ => .nil
  | item :: items, depth => by
      rw [ScriptedValue.itemVisits]
      exact (ScriptedValue.visits_rooted item depth).append
        (ScriptedValue.itemVisits_rooted items depth)
termination_by structural items => items

theorem ScriptedValue.pointVisits_rooted :
    ∀ (point : Mapping ScriptedValue) (depth : Nat),
      Rooted (ScriptedValue.pointVisits depth point) (ScriptedValue.mapping point).parts
  | ⟨args, result⟩, depth => by
      rw [ScriptedValue.pointVisits, ScriptedValue.parts]
      by_cases noArgs : args.isEmpty = true
      · rw [if_pos noArgs, if_pos noArgs]
        exact .nil
      · rw [if_neg noArgs, if_neg noArgs]
        exact (ScriptedValue.itemVisits_rooted args depth).append
          (ScriptedValue.visits_rooted result depth)
termination_by structural point => point

theorem ScriptedValue.graphVisits_rooted :
    ∀ (graph : FiniteFunction ScriptedValue) (depth : Nat),
      Rooted (ScriptedValue.graphVisits depth graph)
        (graph.default :: graph.entries.map .mapping)
  | ⟨default, entries⟩, depth => by
      rw [ScriptedValue.graphVisits]
      exact (ScriptedValue.visits_rooted default depth).append
        (ScriptedValue.entryVisits_rooted entries depth)
termination_by structural graph => graph

theorem ScriptedValue.entryVisits_rooted :
    ∀ (entries : List (Mapping ScriptedValue)) (depth : Nat),
      Rooted (ScriptedValue.entryVisits depth entries) (entries.map .mapping)
  | [], _ => .nil
  | entry :: entries, depth => by
      rw [ScriptedValue.entryVisits, ← List.cons_append]
      have below := ScriptedValue.pointVisits_rooted entry (depth + 1)
      have here : Rooted (⟨depth, .mapping entry, true⟩ ::
          ScriptedValue.pointVisits (depth + 1) entry) [.mapping entry] := .cons below
      exact here.append (ScriptedValue.entryVisits_rooted entries depth)
termination_by structural entries => entries

end

end SmtModel
