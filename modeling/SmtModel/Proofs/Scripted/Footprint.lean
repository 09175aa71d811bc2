import SmtModel.Proofs.Scripted.Values
import SmtModel.Proofs.Scripted.Visiting

/-!
# The footprint of a reading

A reading that ends with a result leaves the state that its visits leave, and nothing else
(`Reading.Leaves`). The parts of a reading are put together by `Leaves.bind`, and what a
whole reading leaves follows by induction on the room below the limit.

Told in full, it leaves the footprint of the scripted value
(`SmtModel.Model.read_footprint`): which nodes, constants and vectors there are more, and
how often each call was made.
-/

namespace SmtModel.Reading

open ScriptedSolver

variable {α β : Type}

/-- A reading extends the tables. If it has a result, and there is room, then what it leaves is left
by visits. -/
structure Leaves (model : ModelId) (visits : List Visit) (start : ScriptedSolver)
    (ending : EStateM.Result Stop (Traced ScriptedSolver) α) : Prop where
  grows : Extends start (Outcome.state ending).state
  state_eq : ∀ result left, ending = .ok result left → left.state.HasRoom model →
    left.state = start.afterVisits model visits

namespace Leaves

variable {model : ModelId} {visits visits' : List Visit} {start : ScriptedSolver}
  {traced : Traced ScriptedSolver}

theorem of_ok {result : α} {left : Traced ScriptedSolver}
    (state : left.state = start.afterVisits model visits) :
    Leaves model visits start (.ok result left) := by
  constructor
  · rw [Outcome.state_ok, state]
    exact extends_afterVisits ..
  · intro result' left' ended _
    cases ended
    exact state

theorem of_error {stop : Stop} {left : Traced ScriptedSolver} (grows : Extends start left.state) :
    Leaves model visits start (.error stop left : EStateM.Result _ _ α) :=
  ⟨grows, nofun⟩

theorem pure (result : α) : Leaves model [] traced.state ((Pure.pure result : Action _ α) traced) :=
  of_ok (afterVisits_nil ..).symm

theorem bind {first : Action ScriptedSolver β} {next : β → Action ScriptedSolver α}
    (before : Leaves model visits traced.state (first traced))
    (after : ∀ result middle, first traced = .ok result middle →
      Extends traced.state middle.state → Leaves model visits' middle.state (next result middle)) :
    Leaves model (visits ++ visits') traced.state ((first >>= next) traced) := by
  cases ran : first traced with
  | error stop left =>
      rw [ran] at before
      rw [Outcome.bind_of_error ran]
      exact .of_error before.grows
  | ok result middle =>
      rw [ran] at before
      rw [Outcome.bind_of_ok ran]
      have after := after result middle ran before.grows
      refine ⟨before.grows.trans after.grows, fun result' left ended room => ?_⟩
      have grown := after.grows
      rw [ended] at grown
      rw [after.state_eq result' left ended room,
        before.state_eq result middle rfl (grown.hasRoom room), afterVisits_append]

theorem map {action : Action ScriptedSolver β} (finish : β → α)
    (before : Leaves model visits traced.state (action traced)) :
    Leaves model visits traced.state
      ((action >>= fun result => Pure.pure (finish result)) traced) := by
  rw [← List.append_nil visits]
  exact before.bind fun result middle _ _ => .pure _

/-- A reading may take it that there is room at its start. -/
theorem of_room {ending : EStateM.Result Stop (Traced ScriptedSolver) α}
    (grows : Extends start (Outcome.state ending).state)
    (leaves : start.HasRoom model → Leaves model visits start ending) :
    Leaves model visits start ending := by
  refine ⟨grows, fun result left ended room => ?_⟩
  rw [ended] at grows
  exact (leaves (grows.hasRoom room)).state_eq result left ended room

/-- First one visit is made, and then the others. -/
theorem cons {here : Visit} {middle : ScriptedSolver}
    {ending : EStateM.Result Stop (Traced ScriptedSolver) α}
    (visited : middle = start.afterVisits model [here])
    (below : Leaves model visits middle ending) : Leaves model (here :: visits) start ending := by
  subst visited
  refine ⟨(extends_afterVisits ..).trans below.grows, fun result left ended room => ?_⟩
  rw [below.state_eq result left ended room, afterVisits_append, List.singleton_append]

/-- The vector that is held around visits is released. -/
theorem released {filled : ScriptedSolver} {vector : VectorId}
    {ending : EStateM.Result Stop (Traced ScriptedSolver) α}
    (inside : Leaves model visits' filled ending) (grown : Extends start filled)
    (released : (filled.afterVisits model visits').withoutVector vector .withNodesReleased =
      start.afterVisits model visits) :
    Leaves model visits start
      (Outcome.mapState (Traced.map (·.withoutVector vector .withNodesReleased)) ending) := by
  have extended (solver : ScriptedSolver) :
      Extends solver (solver.withoutVector vector .withNodesReleased) := extends_withoutVector ..
  constructor
  · rw [Outcome.state_mapState]
    exact (grown.trans inside.grows).trans (extended _)
  · intro result left ended room
    cases ending with
    | error stop before => cases ended
    | ok result' before =>
        cases ended
        rw [← released, ← inside.state_eq _ _ rfl ((extended _).hasRoom room)]
        rfl

theorem record {event : Event} {action : Action ScriptedSolver α}
    (after : ∀ recorded : Traced ScriptedSolver, recorded.state = traced.state →
      Leaves model visits recorded.state (action recorded)) :
    Leaves model visits traced.state ((Action.record event >>= fun _ => action) traced) :=
  after ⟨traced.state, event :: traced.events⟩ rfl

end Leaves

/-! ## Values without parts -/

section Simple

variable {model : ModelId} {traced : Traced ScriptedSolver} {node : Node} {depth : Nat}
  (calm : traced.state.failing = [])

include calm

theorem readBool_leaves {truth : Bool} (shown : traced.state.Shows model node (.bool truth)) :
    Leaves model [⟨depth, .bool truth, false⟩] traced.state
      (readBool answer model node traced) := by
  have free : .nodeBool ∉ traced.state.failing := by simp [calm]
  have answered : answer (.nodeBool model node 0) traced.state = _ :=
    readNode_of_shows free shown 0 rfl
  unfold readBool
  rw [Outcome.bind_of_ok (Action.ask_of_ok answered)]
  exact .of_ok (afterVisits_of_fetch rfl rfl rfl rfl).symm

theorem readRational_leaves {fraction : Fraction}
    (shown : traced.state.Shows model node (.rational fraction)) :
    Leaves model [⟨depth, .rational fraction, false⟩] traced.state
      (readRational answer model node traced) := by
  have free (name : Call) : name ∉ traced.state.failing := by simp [calm]
  have fetched {fetch : Call} (isFetch : fraction.fetch = fetch) :
      traced.state.afterVisits model [⟨depth, .rational fraction, false⟩] =
        withCall fetch traced.state :=
    afterVisits_of_fetch (congrArg (fun fetch => [fetch]) isFetch) rfl rfl rfl
  unfold readRational
  rw [Outcome.bind_of_ok (Action.ask_of_ok (nodeIsInt64_of_shows shown))]
  cases integer : fraction.int64? with
  | some number =>
      have reads : (ScriptedValue.rational fraction).toInt64 = .ok number := by
        simp only [ScriptedValue.toInt64, integer]
      have answered : answer (.nodeInt64 model node 0) traced.state = _ :=
        readNode_of_shows (free _) shown 0 reads
      simp only [Option.isSome_some, if_true]
      rw [Outcome.bind_of_ok (Action.ask_of_ok answered)]
      exact .of_ok (fetched (by simp [Fraction.fetch, integer])).symm
  | none =>
      simp only [Option.isSome_none, Bool.false_eq_true, if_false]
      rw [Outcome.bind_of_ok (Action.ask_of_ok (nodeIsRational64_of_shows shown))]
      cases words : fraction.words64? with
      | some parts =>
          have reads : (ScriptedValue.rational fraction).toWords64 = .ok parts := by
            simp only [ScriptedValue.toWords64, words]
          have answered : answer (.nodeRational64 model node (0, 0)) traced.state = _ :=
            readNode_of_shows (free _) shown (0, 0) reads
          simp only [Option.isSome_some, if_true]
          rw [Outcome.bind_of_ok (Action.ask_of_ok answered)]
          exact .of_ok (fetched (by simp [Fraction.fetch, integer, words])).symm
      | none =>
          have answered : answer (.nodeDouble model node 0) traced.state = _ :=
            readNode_of_shows (free _) shown 0 rfl
          simp only [Option.isSome_none, Bool.false_eq_true, if_false]
          rw [Outcome.bind_of_ok (Action.ask_of_ok answered)]
          exact .of_ok (fetched (by simp [Fraction.fetch, integer, words])).symm

theorem readBits_leaves {bits : List Int32} (fits : bits.length < 0x100000000)
    (shown : traced.state.Shows model node (.bitVector bits)) :
    Leaves model [⟨depth, .bitVector bits, false⟩] traced.state
      (readBits answer model node traced) := by
  have free : .nodeBits ∉ traced.state.failing := by simp [calm]
  have size : answer (.nodeBitSize model node) traced.state =
      .ok (UInt32.ofNat bits.length) traced.state :=
    measureNode_of_shows shown (·.bitSize) 0
  have width : (UInt32.ofNat bits.length).toNat = bits.length := UInt32.toNat_ofNat_of_lt fits
  unfold readBits
  rw [Outcome.bind_of_ok (Action.ask_of_ok size)]
  by_cases empty : bits = []
  · subst empty
    exact .of_ok (afterVisits_of_absent rfl rfl rfl rfl).symm
  · have reads : (ScriptedValue.bitVector bits).toBits (UInt32.ofNat bits.length).toNat =
        .ok ⟨bits.toArray, by simp [width]⟩ := by
      simp only [ScriptedValue.toBits, width, dite_true]
    have answered : answer (.nodeBits model node (UInt32.ofNat bits.length).toNat
        (Vector.replicate (UInt32.ofNat bits.length).toNat 0)) traced.state = _ :=
      readNode_of_shows free shown _ reads
    have fetches : Visit.fetches ⟨depth, .bitVector bits, false⟩ = [.nodeBits] :=
      if_neg (by simpa using empty)
    simp only [if_neg (arity_ne_zero fits empty)]
    rw [Outcome.bind_of_ok (Action.ask_of_ok answered)]
    exact .of_ok (afterVisits_of_fetch fetches rfl rfl rfl).symm

theorem readScalar_leaves {type : TypeId} {index : Int32}
    (shown : traced.state.Shows model node (.scalar type index)) :
    Leaves model [⟨depth, .scalar type index, false⟩] traced.state
      (readScalar answer model node traced) := by
  have free (name : Call) : name ∉ traced.state.failing := by simp [calm]
  have disciplined : Disciplined Request.isQuestion [] fun _ solver =>
      readScalar solver model node := readScalar_disciplined model node
  refine ⟨disciplined.grows_of_nil _, fun result left ended _ => ?_⟩
  have answered : answer (.nodeScalar model node (0, .null)) traced.state = _ :=
    readNode_of_shows (free _) shown (0, TypeId.null) rfl
  unfold readScalar at ended
  rw [Outcome.bind_of_ok (Action.ask_of_ok answered), checkReply_ok, pure_bind] at ended
  dsimp only at ended
  have runs : answer (.constant type index) (withCall .nodeScalar traced.state) = _ :=
    constant_run (free _)
  cases offends : (withCall .nodeScalar traced.state).constantError? type index with
  | some error =>
      simp only [offends] at runs
      rw [Outcome.bind_of_ok (Action.ask_of_ok runs)] at ended
      rcases Outcome.bind_eq_ok.mp ended with ⟨constant, reached, checked, -⟩
      cases (of_checkTerm checked).1
  | none =>
      simp only [offends] at runs
      cases known : (withCall .nodeScalar traced.state).constant? type index with
      | some constant =>
          simp only [known] at runs
          rw [Outcome.bind_of_ok (Action.ask_of_ok runs)] at ended
          rcases Outcome.bind_eq_ok.mp ended with ⟨constant', reached, checked, finished⟩
          rcases of_checkTerm checked with ⟨-, rfl, rfl⟩
          cases finished
          have known : traced.state.constant? type index = some constant' := known
          exact (afterVisits_of_known known).symm
      | none =>
          simp only [known] at runs
          rw [Outcome.bind_of_ok (Action.ask_of_ok runs)] at ended
          rcases Outcome.bind_eq_ok.mp ended with ⟨constant, reached, checked, finished⟩
          rcases of_checkTerm checked with ⟨-, rfl, rfl⟩
          cases finished
          have unknown : traced.state.constant? type index = none := known
          exact (afterVisits_of_unknown unknown).symm

end Simple

/-! ## Composites -/

/-- A routine that reads the values that are shown, at whatever depth. -/
structure LeavesValues (model : ModelId) (read : Node → Routine Value) : Prop where
  disciplined : ∀ held node, Disciplined Request.isQuestion held (read node)
  leaves : ∀ (traced : Traced ScriptedSolver) (node : Node) (value : ScriptedValue) (depth : Nat),
    traced.state.failing = [] → traced.state.Shows model node value →
      value.Every ScriptedValue.Fits →
        Leaves model (value.visits depth) traced.state (read node _ answer traced)

/-- A routine that reads the entries of a function that are shown, at whatever depth. -/
structure LeavesEntries (model : ModelId) (readEntry : Node → Routine (Mapping Value)) : Prop where
  disciplined : ∀ held entry, Disciplined Request.isQuestion held (readEntry entry)
  leaves : ∀ (traced : Traced ScriptedSolver) (node : Node) (point : Mapping ScriptedValue)
    (depth : Nat), traced.state.failing = [] → traced.state.Shows model node (.mapping point) →
      ScriptedValue.EveryPoint ScriptedValue.Fits point →
        Leaves model (⟨depth, .mapping point, true⟩ :: ScriptedValue.pointVisits (depth + 1) point)
          traced.state (readEntry node _ answer traced)

section Composites

variable {model : ModelId} {read : Node → Routine Value} {traced : Traced ScriptedSolver}
  {node : Node} {depth : Nat}

theorem mapM_leaves (reader : LeavesValues model read) (calm : traced.state.failing = [])
    {nodes : List Node} {items : List ScriptedValue}
    (shown : List.Forall₂ (traced.state.Shows model) nodes items)
    (fits : ScriptedValue.EveryItem ScriptedValue.Fits items) :
    Leaves model (ScriptedValue.itemVisits depth items) traced.state
      (nodes.mapM (fun node => read node _ answer) traced) := by
  induction items generalizing nodes traced with
  | nil =>
      cases shown
      exact .pure []
  | cons item items ih =>
      cases shown with
      | cons firstShown othersShown =>
          simp only [ScriptedValue.EveryItem] at fits
          rw [List.mapM_cons, ScriptedValue.itemVisits]
          refine (reader.leaves traced _ item depth calm firstShown fits.1).bind
            fun result middle _ grown => ?_
          have calmAfter := grown.failing.trans calm
          exact (ih calmAfter (othersShown.imp fun _ _ => grown.shows) fits.2).map _

theorem readTuple_leaves (reader : LeavesValues model read) (calm : traced.state.failing = [])
    {items : List ScriptedValue} (shown : traced.state.Shows model node (.tuple items))
    (fits : (ScriptedValue.tuple items).Every ScriptedValue.Fits) :
    Leaves model ((ScriptedValue.tuple items).visits depth) traced.state
      (readTuple answer model (fun child => read child _ answer) node traced) := by
  simp only [ScriptedValue.Every] at fits
  have free : .expandTuple ∉ traced.state.failing := by simp [calm]
  have arity : answer (.tupleArity model node) traced.state =
      .ok (UInt32.ofNat items.length) traced.state :=
    measureNode_of_shows shown (·.tupleArity) 0
  have width : (UInt32.ofNat items.length).toNat = items.length :=
    UInt32.toNat_ofNat_of_lt fits.1
  rw [ScriptedValue.visits]
  unfold readTuple
  rw [Outcome.bind_of_ok (Action.ask_of_ok arity)]
  by_cases empty : items = []
  · subst empty
    exact .of_ok (afterVisits_of_absent rfl rfl rfl rfl).symm
  · simp only [if_neg (arity_ne_zero fits.1 empty)]
    rcases exists_live_of_shows shown with ⟨live, found⟩
    rcases expandTuple_run free found shown width.symm
      (Vector.replicate (UInt32.ofNat items.length).toNat .blank) with ⟨nodes, expands, shows⟩
    have expands : answer (.expandTuple model node _ _) traced.state = _ := expands
    have fetches : Visit.fetches ⟨depth, .tuple items, false⟩ = [.expandTuple] :=
      if_neg (by simpa using empty)
    have parts : Disciplined Request.isQuestion [] fun σ solver =>
        nodes.toList.mapM (fun child => read child σ solver) >>= fun values =>
          Pure.pure (Value.tuple values) :=
      .bind (.mapM (reader.disciplined []) nodes.toList) fun _ => .pure _
    let expanded : Traced ScriptedSolver :=
      ⟨(withCall .expandTuple traced.state).withNodes model live items, traced.events⟩
    have calmAfter : expanded.state.failing = [] := calm
    rw [Outcome.bind_of_ok (Action.ask_of_ok expands), checkReply_ok, pure_bind]
    refine .cons (afterVisits_of_expand found fetches rfl rfl) ?_
    refine .of_room (parts.grows_of_nil expanded) fun room => ?_
    exact (mapM_leaves reader calmAfter (shows room) fits.2).map _

theorem readMapping_leaves (reader : LeavesValues model read) (calm : traced.state.failing = [])
    {point : Mapping ScriptedValue} (shown : traced.state.Shows model node (.mapping point))
    (fits : ScriptedValue.EveryPoint ScriptedValue.Fits point) {level : Nat} {isEntry : Bool} :
    Leaves model (⟨level, .mapping point, isEntry⟩ :: ScriptedValue.pointVisits depth point)
      traced.state (readMapping answer model (fun child => read child _ answer) node traced) := by
  rcases point with ⟨args, result⟩
  simp only [ScriptedValue.EveryPoint] at fits
  have free : .expandMapping ∉ traced.state.failing := by simp [calm]
  have arity : answer (.mappingArity model node) traced.state =
      .ok (UInt32.ofNat args.length) traced.state :=
    measureNode_of_shows shown (·.mappingArity) 0
  have width : (UInt32.ofNat args.length).toNat = args.length := UInt32.toNat_ofNat_of_lt fits.1
  by_cases empty : args = []
  · subst empty
    rw [readMapping_of_isEmpty shown]
    exact .of_ok (afterVisits_of_absent rfl rfl rfl rfl).symm
  · let here : Visit := ⟨level, .mapping ⟨args, result⟩, isEntry⟩
    have someArgs : ¬ args.isEmpty = true := by simpa using empty
    have fetches : here.fetches = [.expandMapping] := if_neg someArgs
    have isParts : here.parts = args ++ [result] := if_neg someArgs
    rcases exists_live_of_shows shown with ⟨live, found⟩
    rcases expandMapping_run free found shown width.symm
      (Vector.replicate (UInt32.ofNat args.length).toNat .blank, .blank) with
      ⟨nodes, last, expands, shows⟩
    have expands : answer (.expandMapping model node _ _) traced.state = _ := expands
    have resultLast (values : List Value) : Disciplined Request.isQuestion [] fun σ solver =>
        read last σ solver >>= fun value => Pure.pure (some (Mapping.mk values value)) :=
      .bind (reader.disciplined [] last) fun _ => .pure _
    have parts : Disciplined Request.isQuestion [] fun σ solver =>
        nodes.toList.mapM (fun child => read child σ solver) >>= fun values =>
          read last σ solver >>= fun value => Pure.pure (some (Mapping.mk values value)) :=
      .bind (.mapM (reader.disciplined []) nodes.toList) resultLast
    have visited := afterVisits_of_expand found fetches rfl rfl
    rw [isParts] at visited
    let expanded : Traced ScriptedSolver :=
      ⟨(withCall .expandMapping traced.state).withNodes model live (args ++ [result]),
        traced.events⟩
    have calmAfter : expanded.state.failing = [] := calm
    unfold readMapping
    rw [Outcome.bind_of_ok (Action.ask_of_ok arity)]
    simp only [if_neg (arity_ne_zero fits.1 empty)]
    rw [Outcome.bind_of_ok (Action.ask_of_ok expands), checkReply_ok, pure_bind]
    refine .cons visited (.of_room (parts.grows_of_nil expanded) fun room => ?_)
    rcases shows room with ⟨argsShown, lastShown⟩
    rw [ScriptedValue.pointVisits, if_neg someArgs]
    refine (mapM_leaves reader calmAfter argsShown fits.2.1).bind fun values middle _ grown => ?_
    exact (reader.leaves middle last result depth (grown.failing.trans calm)
      (grown.shows lastShown) fits.2.2).map _

theorem readEntry_some_leaves (reader : LeavesValues model read) (limit : DepthLimit) :
    LeavesEntries model fun entry _ solver =>
      readEntry solver model limit (some fun child => read child _ solver) entry := by
  refine ⟨fun held entry => readEntry_some_disciplined (fun _ question => question) model
    (reader.disciplined held) limit entry, fun traced node point depth calm shown fits => ?_⟩
  have isMapping : node.kind? = some .mapping := by
    rw [Node.kind?, shown.tag]
    exact NodeKind.ofTag?_tag .mapping
  simp only [readEntry, isMapping, ne_eq, not_true, if_false]
  rw [← List.append_nil (ScriptedValue.pointVisits _ _), ← List.cons_append]
  refine (readMapping_leaves reader calm shown fits).bind fun point? middle _ _ => ?_
  cases point? with
  | none => exact .of_error (.refl _)
  | some point => exact .pure point

theorem readEntry_none_leaves (model : ModelId) (limit : DepthLimit) :
    LeavesEntries model fun entry _ solver => readEntry solver model limit none entry :=
  ⟨fun _ entry => readEntry_none_disciplined model limit entry,
    fun _ _ _ _ _ _ _ => .of_error (.refl _)⟩

theorem addEntry_leaves (function : FunctionValue) (point : Mapping Value) :
    Leaves model [] traced.state (addEntry function point traced) := by
  unfold addEntry
  cases function.insert point with
  | error undefined => exact .of_error (.refl _)
  | ok inserted =>
      rcases inserted with ⟨replaced?, added⟩
      cases replaced? with
      | none => exact .of_ok (afterVisits_nil ..).symm
      | some replaced => exact .of_ok (afterVisits_nil ..).symm

section Functions

variable {readEntry : Node → Routine (Mapping Value)} (entryReader : LeavesEntries model readEntry)

include entryReader

/-- The entries of a function are read and added one after another. -/
theorem addEntries_leaves (calm : traced.state.failing = []) {nodes : List Node}
    {entries : List (Mapping ScriptedValue)}
    (shown : List.Forall₂ (traced.state.Shows model) nodes (entries.map .mapping))
    (fits : ScriptedValue.EveryEntry ScriptedValue.Fits entries) (function : FunctionValue) :
    Leaves model (ScriptedValue.entryVisits depth entries) traced.state
      ((nodes.foldlM (fun function entry => readEntry entry _ answer >>= addEntry function)
        function : Action _ FunctionValue) traced) := by
  induction entries generalizing nodes traced function with
  | nil =>
      cases shown
      exact .pure function
  | cons entry entries ih =>
      cases shown with
      | cons firstShown othersShown =>
          simp only [ScriptedValue.EveryEntry] at fits
          rw [List.foldlM_cons, ScriptedValue.entryVisits, ← List.cons_append]
          refine Leaves.bind ?_ fun added middle _ grown =>
            ih (grown.failing.trans calm) (othersShown.imp fun _ _ => grown.shows) fits.2 added
          rw [← List.append_nil (ScriptedValue.pointVisits _ _), ← List.cons_append]
          refine (entryReader.leaves traced _ entry depth calm firstShown fits.1).bind
            fun point middle _ _ => ?_
          exact addEntry_leaves function point

variable (reader : LeavesValues model read) (calm : traced.state.failing = [])
  {arity : UInt32} {graph : FiniteFunction ScriptedValue}
  (fits : ScriptedValue.EveryGraph ScriptedValue.Fits graph)

include reader calm fits

theorem readParts_leaves {vector : VectorId} {nodes : List Node}
    (filled : traced.state.vector? vector = some (.nodes nodes))
    (defaultShown : traced.state.Shows model node graph.default)
    (entriesShown : List.Forall₂ (traced.state.Shows model) nodes (graph.entries.map .mapping)) :
    Leaves model (ScriptedValue.graphVisits depth graph) traced.state
      (readParts answer (fun child => read child _ answer) (fun entry => readEntry entry _ answer)
        vector node traced) := by
  rcases graph with ⟨default, entries⟩
  simp only [ScriptedValue.EveryGraph] at fits
  unfold readParts
  rw [ScriptedValue.graphVisits]
  refine (reader.leaves traced node default depth calm defaultShown fits.1).bind
    fun value after ran grown => ?_
  -- reading the default leaves alone the vector that holds the entries
  have elements := nodeVectorElements_of_filled
    ((reader.disciplined [] node).vector?_kept ran filled)
  rw [Outcome.bind_of_ok (Action.ask_of_ok elements)]
  exact (addEntries_leaves entryReader (grown.failing.trans calm)
    (entriesShown.imp fun _ _ => grown.shows) fits.2 _).map _

/-- When the parts of a function were handed out, they are read. -/
theorem readGraph_leaves {live : ScriptedModel} (found : traced.state.model? model = some live)
    {vector : VectorId} (isLive : traced.state.IsLive vector)
    (shown : traced.state.Shows model node (.function arity graph)) :
    let handed := (withCall .expandFunction traced.state).withNodes model live
      (graph.default :: graph.entries.map .mapping)
    ∃ nodes, Leaves model (ScriptedValue.graphVisits depth graph)
      (handed.withVector vector (some (.nodes nodes)))
      (readGraph answer model (fun child => read child _ answer)
        (fun entry => readEntry entry _ answer) node vector traced) := by
  intro handed
  have free : .expandFunction ∉ traced.state.failing := by simp [calm]
  rcases expandFunction_run free found isLive shown .blank with ⟨default, nodes, expands, shows⟩
  have expands : answer (.expandFunction model node vector .blank) traced.state = _ := expands
  let filled : Traced ScriptedSolver :=
    ⟨handed.withVector vector (some (.nodes nodes)), traced.events⟩
  have calmAfter : filled.state.failing = [] := calm
  have handedLive : handed.IsLive vector := isLive
  have isFilled : filled.state.vector? vector = some (.nodes nodes) :=
    (vector?_withVector handedLive _ vector).trans (if_pos rfl)
  have stillLive : ∀ held ∈ [vector], filled.state.IsLive held := by
    simp only [List.mem_singleton, forall_eq, IsLive, isFilled, Option.isSome_some]
  have parts := (readParts_disciplined (fun _ question => question) reader.disciplined
    entryReader.disciplined default (List.mem_singleton.mpr rfl)).grows stillLive
  have grown : Extends handed filled.state := extends_withVector ..
  refine ⟨nodes, ?_⟩
  unfold readGraph
  rw [Outcome.bind_of_ok (Action.ask_of_ok expands), checkReply_ok, pure_bind]
  refine .of_room parts fun room => ?_
  rcases shows (grown.hasRoom room) with ⟨defaultShown, entriesShown⟩
  exact readParts_leaves entryReader reader calmAfter fits isFilled (grown.shows defaultShown)
    (entriesShown.imp fun _ _ => grown.shows)

theorem readFunction_leaves (shown : traced.state.Shows model node (.function arity graph)) :
    Leaves model ((ScriptedValue.function arity graph).visits depth) traced.state
      (readFunction answer model (fun child => read child _ answer)
        (fun entry => readEntry entry _ answer) node traced) := by
  have asked : answer (.functionArity model node) traced.state = .ok arity traced.state :=
    measureNode_of_shows shown (·.functionArity) 0
  rw [readFunction_eq, Outcome.bind_of_ok (Action.ask_of_ok asked), ScriptedValue.visits]
  by_cases empty : arity = 0
  · subst empty
    exact .of_ok (afterVisits_of_absent rfl rfl rfl rfl).symm
  · simp only [if_neg empty]
    rcases exists_live_of_shows shown with ⟨live, found⟩
    let opened := traced.map (·.withNextVector (.nodes []) .withNodesMade)
    have calmAfter : opened.state.failing = [] := calm
    have foundAfter : (withCall .expandFunction opened.state).model? model = some live := found
    have opens : Extends traced.state opened.state := extends_withNextVector ..
    have isLive : ∀ held ∈ [traced.state.nextVector], opened.state.IsLive held :=
      isLive_held_withNextVector (by simp) (.nodes []) .withNodesMade
    rcases readGraph_leaves entryReader reader calmAfter fits found (isLive _ List.mem_cons_self)
      (opens.shows shown) with ⟨nodes, inside⟩
    have stillLive := (readGraph_disciplined (fun _ question => question) model reader.disciplined
      entryReader.disciplined node (List.mem_singleton.mpr rfl)).leaves_live isLive
    rw [withNodeVector_run _ traced stillLive]
    have calls : Extends opened.state (withCall .expandFunction opened.state) :=
      extends_withCall ..
    have hands := extends_withNodes foundAfter (graph.default :: graph.entries.map .mapping)
    refine inside.released ((opens.trans calls).trans (hands.trans (extends_withVector ..))) ?_
    rw [withNodes_eq foundAfter]
    exact afterVisits_function empty _ _

end Functions

end Composites

/-! ## Whole values -/

section Whole

variable {limit : DepthLimit} {model : ModelId} {room : Nat} {traced : Traced ScriptedSolver}
  {node : Node} {value : ScriptedValue}

theorem readKind_leaves
    (reader : LeavesValues model fun child _ solver => read solver model limit room child)
    (entryReader : LeavesEntries model fun entry _ solver =>
      readEntry solver model limit (readBelow? solver model limit room) entry)
    (calm : traced.state.failing = []) (shown : traced.state.Shows model node value)
    (fits : value.Every ScriptedValue.Fits) (depth : Nat) :
    Leaves model (value.visits depth) traced.state
      (readKind answer model limit room node traced) := by
  have kind : node.kind? = NodeKind.ofTag? value.tag := by rw [Node.kind?, shown.tag]
  unfold readKind
  rw [kind]
  cases value with
  | bool truth => exact readBool_leaves calm shown
  | rational fraction => exact readRational_leaves calm shown
  | algebraic => exact .of_error (.refl _)
  | bitVector bits => exact readBits_leaves calm fits shown
  | scalar type index => exact readScalar_leaves calm shown
  | tuple items => exact readTuple_leaves reader calm shown fits
  | function arity graph =>
      simp only [ScriptedValue.Every] at fits
      exact readFunction_leaves entryReader reader calm fits.2 shown
  | mapping point =>
      simp only [ScriptedValue.Every] at fits
      rw [ScriptedValue.visits, ← List.append_nil (ScriptedValue.pointVisits _ _),
        ← List.cons_append]
      refine (readMapping_leaves reader calm shown fits).bind fun point? middle _ _ => ?_
      cases point? with
      | none => exact .pure _
      | some point => exact .pure _
  | tagged tag =>
      rcases ofTag?_of_fits fits with unlisted | unknown
      · simp only [ScriptedValue.tag, unlisted]
        exact .of_error (.refl _)
      · simp only [ScriptedValue.tag, unknown]
        exact .of_error (.refl _)

end Whole

/-- A reading leaves what the visits below the node leave. -/
theorem read_leaves (limit : DepthLimit) (model : ModelId) (room : Nat) :
    LeavesValues model fun node _ solver => read solver model limit room node := by
  -- below the entries of a function there are two levels less, which plain induction misses
  induction room using Nat.strongRecOn with
  | ind room ih =>
      refine ⟨fun held node => read_disciplined (fun _ question => question) model limit room held
        node, fun traced node value depth calm shown fits => ?_⟩
      cases room with
      | zero => exact .of_error (.refl _)
      | succ room =>
          have entryReader : LeavesEntries model fun entry _ solver =>
              readEntry solver model limit (readBelow? solver model limit room) entry := by
            cases room with
            | zero => exact readEntry_none_leaves model limit
            | succ room => exact readEntry_some_leaves (ih room (by omega)) limit
          simp only [read_succ]
          refine .record fun recorded same => ?_
          rw [← same] at calm shown
          exact readKind_leaves (ih room (by omega)) entryReader calm shown fits depth

end SmtModel.Reading

namespace SmtModel

open ScriptedSolver

namespace ScriptedSolver

/-! ## Footprints -/

/-- What the reading of a value in a model changes. Nodes were handed out for the visited values,
each visited element without a constant has got one, the calls of the visits were made after the
root had been asked for, and a vector was made and released for each function with entries. Nothing
else has changed. -/
structure Footprint (model : ModelId) (value : ScriptedValue) (start left : ScriptedSolver) :
    Prop where
  nodes : ∃ live handed, start.model? model = some live ∧
    left.models = (start.withNodes model live handed).models ∧
    handed.Perm ((value.visits 0).map Visit.value)
  terms : ∃ elements : List (TypeId × Int32),
    left.terms = start.terms ++ elements.map ScriptedTerm.ofElement ∧ elements.Nodup ∧
    ∀ type index, (type, index) ∈ elements ↔
      (∃ visit ∈ value.visits 0, visit.value = .scalar type index) ∧
        start.constant? type index = none
  calls : left.calls = ((value.visits 0).flatMap Visit.fetches).reverse ++ .value :: start.calls
  counted : ∀ call, left.timesCalled call =
    start.timesCalled call + (if call = .value then 1 else 0) +
      (value.visits 0).countP (call ∈ Visit.fetches ·)
  vectors : left.vectors = start.vectors ++
    List.replicate ((value.visits 0).countP Visit.hasEntries) (none : Option VectorContents)
  counts : left.counts = start.counts.withNodes ((value.visits 0).countP Visit.hasEntries)
  frame : left = { start with
    models := left.models
    terms := left.terms
    calls := left.calls
    vectors := left.vectors
    counts := left.counts }

theorem element?_eq_some_iff {visit : Visit} {type : TypeId} {index : Int32} :
    visit.element? = some (type, index) ↔ visit.value = .scalar type index := by
  unfold Visit.element?
  cases visit.value <;> simp [ScriptedValue.element?]

/-- A call is made once for each visit that takes it. -/
theorem count_fetches (call : Call) (visits : List Visit) :
    (visits.flatMap Visit.fetches).count call = visits.countP (call ∈ Visit.fetches ·) := by
  induction visits with
  | nil => rfl
  | cons visit visits ih =>
      have once : visit.fetches.Nodup := visit.value.nodup_fetches
      rw [List.flatMap_cons, List.count_append, List.countP_cons, ih, once.count]
      simp only [decide_eq_true_eq]
      omega

/-- Visits that begin at a root, after the root was asked for, leave the footprint. -/
theorem footprint_afterVisits {start : ScriptedSolver} {model : ModelId} {live : ScriptedModel}
    (found : start.model? model = some live) (value : ScriptedValue) :
    Footprint model value start
      (((withCall .value start).withNodes model live [value]).afterVisits model
        (value.visits 0)) := by
  have foundAfter : (withCall .value start).model? model = some live := found
  constructor
  case nodes =>
    refine ⟨live, [value] ++ (value.visits 0).flatMap Visit.parts, found, ?_,
      value.visits_rooted 0⟩
    rw [withNodes_eq found, ← withParts_withParts, withNodes_eq foundAfter]
    rfl
  case terms =>
    refine ⟨start.missing ((value.visits 0).filterMap Visit.element?), rfl, nodup_missing _ _,
      fun type index => ?_⟩
    rw [mem_missing]
    refine and_congr_left fun _ => ?_
    simp only [List.mem_filterMap, element?_eq_some_iff]
  case counted =>
    intro call
    have calls := count_fetches call (value.visits 0)
    have root : (Call.value == call) = true ↔ call = .value := by rw [beq_iff_eq, eq_comm]
    simp only [timesCalled, afterVisits, withParts, withNodes, withCall, List.count_append,
      List.count_reverse, List.count_cons, calls, root]
    omega
  all_goals rfl

end ScriptedSolver

/-- Without scripted failures, a reading that ends with a value has the footprint of the scripted
value, if there is room for the nodes and terms. -/
theorem Model.read_footprint {model : Model} {term : TermId} {value : ScriptedValue}
    {start left : Traced ScriptedSolver} {result : Value} (calm : start.state.failing = [])
    (assigned : start.state.value? model.id term = some value)
    (fits : value.Every ScriptedValue.Fits)
    (reads : model.ask answer (.value term) start = .ok result left)
    (room : left.state.HasRoom model.id) :
    Footprint model.id value start.state left.state := by
  have free : .value ∉ start.state.failing := by simp [calm]
  rcases exists_model_of_value? assigned with ⟨live, found⟩
  rcases value_run free found assigned .blank with ⟨root, hands, shows⟩
  have hands : answer (.value model.id term .blank) start.state = _ := hands
  let handed : Traced ScriptedSolver :=
    ⟨(withCall .value start.state).withNodes model.id live [value], start.events⟩
  have calmAfter : handed.state.failing = [] := calm
  have reader := Reading.read_leaves model.limit model.id model.limit.levels
  simp only [ask, read] at reads
  rw [Outcome.bind_of_ok (Action.ask_of_ok hands), Reading.checkReply_ok, pure_bind] at reads
  have grown := (reader.disciplined [] root).grows_of_nil handed
  rw [reads] at grown
  have leaves := reader.leaves handed root value 0 calmAfter (shows (grown.hasRoom room)) fits
  rw [leaves.state_eq result left reads room]
  exact footprint_afterVisits found value

/-- A function between two elements that takes one of them twice. -/
def ScriptedValue.elementFunction : ScriptedValue :=
  .function 1 ⟨.scalar ⟨0⟩ 0, [⟨[.scalar ⟨0⟩ 1], .scalar ⟨0⟩ 0⟩]⟩

/-- A solver with a model in which the first term is the function between elements. -/
def ScriptedSolver.ofElementFunction : Traced ScriptedSolver where
  state :=
    { types := #[.enumeration 2]
      terms := #[⟨⟨0⟩, none⟩]
      models := #[some ⟨[(⟨0⟩, .elementFunction)], #[], false⟩] }
  events := []

/-- The element that is visited twice is fetched twice and gets one constant. -/
theorem Model.read_footprint_elementFunction :
    ∃ result left,
      ask answer { id := ⟨0⟩ } (.value ⟨0⟩) ofElementFunction = .ok result left ∧
      Footprint ⟨0⟩ .elementFunction ofElementFunction.state left.state ∧
      left.state.timesCalled .constant = 3 ∧ left.state.terms.size = 3 := by
  have fits : ScriptedValue.elementFunction.Every ScriptedValue.Fits := by
    simp [ScriptedValue.elementFunction, ScriptedValue.Every, ScriptedValue.EveryPoint,
      ScriptedValue.EveryItem, ScriptedValue.EveryEntry, ScriptedValue.EveryGraph,
      ScriptedValue.Fits]
  have runs : ∃ result left,
      ask answer { id := ⟨0⟩ } (.value ⟨0⟩) ofElementFunction = .ok result left ∧
      left.state.sizes = (3, some 5) := by
    with_unfolding_all exact ⟨_, _, rfl, rfl⟩
  rcases runs with ⟨result, left, reads, sized⟩
  have print := read_footprint rfl rfl fits reads (hasRoom_of_sizes sized (by decide) (by decide))
  refine ⟨result, left, reads, print, ?_, congrArg Prod.fst sized⟩
  rw [print.counted]
  decide

end SmtModel
