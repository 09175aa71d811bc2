import SmtModel.Proofs.Discipline
import SmtModel.Proofs.Scripted.Leaves

/-!
# Reading scripted values

The readings of tuples, mappings and functions are put together from the readings of
their parts, and the reading of a whole value follows by induction on the room below the
limit (`Reading.read_reads`).
-/

namespace SmtModel.Reading

open ScriptedSolver

/-- A routine that reads the values that are shown at a depth. -/
structure ReadsValues (limit : DepthLimit) (model : ModelId) (excused : Prop) (depth : Nat)
    (read : Node → Routine Value) : Prop where
  disciplined : ∀ held node, Disciplined Request.isQuestion held (read node)
  reads : ∀ (traced : Traced ScriptedSolver) (node : Node) (value : ScriptedValue),
    Calm excused traced.state → traced.state.Shows model node value →
      value.Every ScriptedValue.Fits → (¬ excused → value.Every ScriptedValue.NonzeroDenominator) →
        Reads limit model excused traced.state (value.visits depth)
          (fun solver result => value.meaning solver.constant? = some result)
          (read node _ answer traced)

/-- A routine that reads the entries of a function that are shown at a depth. -/
structure ReadsEntries (limit : DepthLimit) (model : ModelId) (excused : Prop) (depth : Nat)
    (readEntry : Node → Routine (Mapping Value)) : Prop where
  disciplined : ∀ held entry, Disciplined Request.isQuestion held (readEntry entry)
  reads : ∀ (traced : Traced ScriptedSolver) (node : Node) (point : Mapping ScriptedValue),
    Calm excused traced.state → traced.state.Shows model node (.mapping point) →
      ScriptedValue.EveryPoint ScriptedValue.Fits point →
        (¬ excused → ScriptedValue.EveryPoint ScriptedValue.NonzeroDenominator point) →
          Reads limit model excused traced.state
            (⟨depth, .mapping point, true⟩ :: ScriptedValue.pointVisits (depth + 1) point)
            (fun solver result => ScriptedValue.pointMeaning solver.constant? point = some result)
            (readEntry node _ answer traced)

section Composites

variable {limit : DepthLimit} {model : ModelId} {excused : Prop} {depth : Nat}
  {read : Node → Routine Value} {traced : Traced ScriptedSolver} {node : Node}

/-! ## Expansions -/

section Expansions

variable (calm : Calm excused traced.state)

include calm

theorem expandTuple_reads {items : List ScriptedValue} {arity : Nat}
    (sameArity : items.length = arity) (shown : traced.state.Shows model node (.tuple items))
    (cells : Vector Node arity) :
    Reads limit model excused traced.state []
      (fun left nodes => left.HasRoom model → List.Forall₂ (left.Shows model) nodes.toList items)
      ((Action.ask answer (.expandTuple model node arity cells) >>=
        Action.checkReply answer .expandTuple) traced) := by
  refine .call (.expandTuple ..) rfl rfl (by decide) (.reply _) (by simp [Request.vector?])
    calm fun free => ?_
  rcases expandTuple_of_shows free shown sameArity cells with ⟨nodes, left, expands, -, shows⟩
  exact ⟨_, left, nodes, expands, rfl, checkReply_ok .., shows⟩

theorem expandMapping_reads {args : List ScriptedValue} {result : ScriptedValue} {arity : Nat}
    (sameArity : args.length = arity)
    (shown : traced.state.Shows model node (.mapping ⟨args, result⟩))
    (cells : Vector Node arity × Node) :
    Reads limit model excused traced.state []
      (fun left nodes => left.HasRoom model →
        List.Forall₂ (left.Shows model) nodes.1.toList args ∧ left.Shows model nodes.2 result)
      ((Action.ask answer (.expandMapping model node arity cells) >>=
        Action.checkReply answer .expandMapping) traced) := by
  refine .call (.expandMapping ..) rfl rfl (by decide) (.reply _) (by simp [Request.vector?])
    calm fun free => ?_
  rcases expandMapping_of_shows free shown sameArity cells with
    ⟨nodes, last, left, expands, -, shows⟩
  exact ⟨_, left, (nodes, last), expands, rfl, checkReply_ok .., shows⟩

theorem expandFunction_reads {arity : UInt32} {graph : FiniteFunction ScriptedValue}
    {vector : VectorId} (live : traced.state.IsLive vector)
    (shown : traced.state.Shows model node (.function arity graph)) (cell : Node) :
    Reads limit model excused traced.state []
      (fun left default => ∃ nodes, left.vector? vector = some (.nodes nodes) ∧
        (left.HasRoom model → left.Shows model default graph.default ∧
          List.Forall₂ (left.Shows model) nodes (graph.entries.map .mapping)))
      ((Action.ask answer (.expandFunction model node vector cell) >>=
        Action.checkReply answer .expandFunction) traced) := by
  refine .call (.expandFunction ..) rfl rfl (by decide) (.reply _)
    (by simpa [Request.vector?] using live) calm fun free => ?_
  rcases expandFunction_of_shows free live shown cell with
    ⟨default, nodes, left, expands, -, filled, shows⟩
  exact ⟨_, left, default, expands, rfl, checkReply_ok .., nodes, filled, shows⟩

end Expansions

/-! ## Composites -/

theorem mapM_reads (reader : ReadsValues limit model excused depth read)
    (calm : Calm excused traced.state) {nodes : List Node} {items : List ScriptedValue}
    (shown : List.Forall₂ (traced.state.Shows model) nodes items)
    (fits : ScriptedValue.EveryItem ScriptedValue.Fits items)
    (nonzero : ¬ excused → ScriptedValue.EveryItem ScriptedValue.NonzeroDenominator items) :
    Reads limit model excused traced.state (ScriptedValue.itemVisits depth items)
      (fun solver results => ScriptedValue.meanings solver.constant? items = some results)
      (nodes.mapM (fun node => read node _ answer) traced) := by
  induction items generalizing nodes traced with
  | nil =>
      cases shown
      exact .of_ok rfl
  | cons item items ih =>
      cases shown with
      | cons firstShown othersShown =>
          simp only [ScriptedValue.EveryItem] at fits nonzero
          rw [List.mapM_cons, ScriptedValue.itemVisits]
          refine (reader.reads traced _ item calm firstShown fits.1 fun notExcused =>
            (nonzero notExcused).1).bind fun result middle _ grown meant => ?_
          refine (ih (calm.mono grown) (othersShown.imp fun _ _ => grown.shows) fits.2
            fun notExcused => (nonzero notExcused).2).map
              fun left results room grownAfter others => ?_
          have first := ScriptedValue.meaning_mono grownAfter.constants_kept item
            (meant (grownAfter.hasRoom room))
          simp only [ScriptedValue.meanings, first, others]
          rfl

theorem readTuple_reads (reader : ReadsValues limit model excused depth read)
    (calm : Calm excused traced.state) {items : List ScriptedValue}
    (shown : traced.state.Shows model node (.tuple items))
    (fits : (ScriptedValue.tuple items).Every ScriptedValue.Fits)
    (nonzero : ¬ excused → (ScriptedValue.tuple items).Every ScriptedValue.NonzeroDenominator) :
    Reads limit model excused traced.state (ScriptedValue.itemVisits depth items)
      (fun solver result => ScriptedValue.meaning solver.constant? (.tuple items) = some result)
      (readTuple answer model (fun child => read child _ answer) node traced) := by
  simp only [ScriptedValue.Every] at fits nonzero
  have arity : answer (.tupleArity model node) traced.state =
      .ok (UInt32.ofNat items.length) traced.state :=
    measureNode_of_shows shown (·.tupleArity) 0
  have width : (UInt32.ofNat items.length).toNat = items.length :=
    UInt32.toNat_ofNat_of_lt fits.1
  unfold readTuple
  rw [Outcome.bind_of_ok (Action.ask_of_ok arity)]
  by_cases empty : items = []
  · subst empty
    exact .of_ok rfl
  · have parts (nodes : List Node) : Disciplined Request.isQuestion [] fun σ solver =>
        nodes.mapM (fun child => read child σ solver) >>= fun values => pure (Value.tuple values) :=
      .bind (.mapM (reader.disciplined []) nodes) fun _ => .pure _
    simp only [if_neg (arity_ne_zero fits.1 empty)]
    rw [← bind_assoc]
    refine (expandTuple_reads calm width.symm shown _).bind fun nodes middle _ grown shows =>
      .of_room ((parts nodes.toList).grows_of_nil _) fun room => ?_
    refine (mapM_reads reader (calm.mono grown) (shows room room) fits.2 fun notExcused =>
      (nonzero notExcused).2).map fun left results _ _ meant => ?_
    simp only [ScriptedValue.meaning, List.isEmpty_iff, empty, if_false, meant]
    rfl

theorem readMapping_of_isEmpty {result : ScriptedValue} {read : Node → Action ScriptedSolver Value}
    (shown : traced.state.Shows model node (.mapping ⟨[], result⟩)) :
    readMapping answer model read node traced = .ok none traced := by
  have arity : answer (.mappingArity model node) traced.state = .ok 0 traced.state :=
    measureNode_of_shows shown (·.mappingArity) 0
  unfold readMapping
  rw [Outcome.bind_of_ok (Action.ask_of_ok arity)]
  rfl

theorem readMapping_reads (reader : ReadsValues limit model excused depth read)
    (calm : Calm excused traced.state) {args : List ScriptedValue}
    {result : ScriptedValue} (shown : traced.state.Shows model node (.mapping ⟨args, result⟩))
    (someArgs : args ≠ [])
    (fits : ScriptedValue.EveryPoint ScriptedValue.Fits ⟨args, result⟩)
    (nonzero : ¬ excused →
      ScriptedValue.EveryPoint ScriptedValue.NonzeroDenominator ⟨args, result⟩) :
    Reads limit model excused traced.state (ScriptedValue.pointVisits depth ⟨args, result⟩)
      (fun solver point? => ∃ point, point? = some point ∧
        ScriptedValue.pointMeaning solver.constant? ⟨args, result⟩ = some point)
      (readMapping answer model (fun child => read child _ answer) node traced) := by
  simp only [ScriptedValue.EveryPoint] at fits nonzero
  have arity : answer (.mappingArity model node) traced.state =
      .ok (UInt32.ofNat args.length) traced.state :=
    measureNode_of_shows shown (·.mappingArity) 0
  have width : (UInt32.ofNat args.length).toNat = args.length := UInt32.toNat_ofNat_of_lt fits.1
  have resultLast (last : Node) (values : List Value) :
      Disciplined Request.isQuestion [] fun σ solver =>
        read last σ solver >>= fun value => pure (some (Mapping.mk values value)) :=
    .bind (reader.disciplined [] last) fun _ => .pure _
  have parts (nodes : List Node) (last : Node) :
      Disciplined Request.isQuestion [] fun σ solver =>
        nodes.mapM (fun child => read child σ solver) >>= fun values =>
          read last σ solver >>= fun value => pure (some (Mapping.mk values value)) :=
    .bind (.mapM (reader.disciplined []) nodes) fun values => resultLast last values
  unfold readMapping
  rw [Outcome.bind_of_ok (Action.ask_of_ok arity)]
  simp only [if_neg (arity_ne_zero fits.1 someArgs)]
  rw [← bind_assoc]
  have visits : ScriptedValue.pointVisits depth ⟨args, result⟩ =
      ScriptedValue.itemVisits depth args ++ result.visits depth := by
    simp only [ScriptedValue.pointVisits, List.isEmpty_iff, someArgs, if_false]
  rw [visits]
  refine (expandMapping_reads calm width.symm shown _).bind
    fun cells middle _ grown shows => ?_
  rcases cells with ⟨nodes, last⟩
  refine .of_room ((parts nodes.toList last).grows_of_nil _) fun room => ?_
  rcases shows room room with ⟨argsShown, lastShown⟩
  have calm := calm.mono grown
  refine (mapM_reads reader calm argsShown fits.2.1 fun notExcused =>
    (nonzero notExcused).2.1).bind fun values after _ grown meant => ?_
  refine (reader.reads after last result (calm.mono grown) (grown.shows lastShown) fits.2.2
    fun notExcused => (nonzero notExcused).2.2).map fun left value room grownAfter meantResult => ?_
  refine ⟨⟨values, value⟩, rfl, ?_⟩
  have meantArgs := ScriptedValue.meanings_mono grownAfter.constants_kept args
    (meant (grownAfter.hasRoom room))
  simp only [ScriptedValue.pointMeaning, meantArgs, meantResult]
  rfl

/-- Above the limit, entries are read if their parts are. -/
theorem readEntry_some_reads (reader : ReadsValues limit model excused (depth + 1) read)
    (above : depth < limit.levels) :
    ReadsEntries limit model excused depth fun entry _ solver =>
      readEntry solver model limit (some fun child => read child _ solver) entry := by
  refine ⟨fun held entry => readEntry_some_disciplined (fun _ question => question) model
    (reader.disciplined held) limit entry, fun traced node point calm shown fits nonzero => ?_⟩
  rcases point with ⟨args, result⟩
  have isMapping : node.kind? = some .mapping := by
    rw [Node.kind?, shown.tag]
    exact NodeKind.ofTag?_tag .mapping
  simp only [readEntry, isMapping, ne_eq, not_true, if_false]
  by_cases empty : args = []
  · subst empty
    rw [Outcome.bind_of_ok (readMapping_of_isEmpty shown)]
    refine .of_offence (.refl _) ?_
    simp only [Visit.offence?, if_neg (Nat.not_le_of_lt above)]
    rfl
  · have unoffended : Visit.offence? limit traced.state ⟨depth, .mapping ⟨args, result⟩, true⟩ =
        none := by
      simp only [Visit.offence?, if_neg (Nat.not_le_of_lt above), List.isEmpty_iff, empty,
        and_false, if_false]
    refine .visit unoffended ?_
    rw [← List.append_nil (ScriptedValue.pointVisits _ _)]
    refine (readMapping_reads reader calm shown empty fits nonzero).bind
      fun point? middle _ _ meant => .of_room ?_ fun room => ?_
    · cases point? <;> exact .refl _
    · rcases meant room with ⟨point, rfl, meantPoint⟩
      exact .of_ok meantPoint

theorem readEntry_none_reads (below : limit.levels ≤ depth) :
    ReadsEntries limit model excused depth fun entry _ solver =>
      readEntry solver model limit none entry := by
  refine ⟨fun held entry => readEntry_none_disciplined model limit entry,
    fun traced node point _ _ _ _ => ?_⟩
  refine .of_offence (.refl _) ?_
  simp only [Visit.offence?, if_pos below]

/-- A point is added, unless a zero denominator excuses that it is not. -/
theorem addEntry_reads {function : FunctionValue} {point : Mapping Value}
    (functionProper : ¬ excused → Value.IsProperFunction function)
    (pointProper : ¬ excused → Value.IsProperPoint point) :
    Reads limit model excused traced.state []
      (fun _ added => function.insertPoint point = .ok added ∧
        (¬ excused → Value.IsProperFunction added))
      (addEntry function point traced) := by
  unfold addEntry
  cases inserts : function.insert point with
  | error undefined =>
      refine ⟨.refl _, fun _ => .excuse ?_⟩
      by_contra notExcused
      rcases FiniteFunction.insert_isOk (functionProper notExcused) (pointProper notExcused) with
        ⟨_, _, impossible, _⟩
      cases inserts.symm.trans impossible
  | ok inserted =>
      rcases inserted with ⟨replaced?, added⟩
      have adds : function.insertPoint point = .ok added := by
        rw [FiniteFunction.insertPoint, inserts]
        rfl
      have addedProper (notExcused : ¬ excused) : Value.IsProperFunction added := by
        rcases FiniteFunction.insert_isOk (functionProper notExcused) (pointProper notExcused) with
          ⟨_, _, same, isProper⟩
        cases inserts.symm.trans same
        exact isProper
      cases replaced? with
      | none => exact ⟨.refl _, fun _ => .ok (by simp) rfl ⟨adds, addedProper⟩⟩
      | some replaced => exact ⟨.refl _, fun _ => .ok (by simp) rfl ⟨adds, addedProper⟩⟩

section Entries

variable {readEntry : Node → Routine (Mapping Value)}
  (reader : ReadsEntries limit model excused depth readEntry)

include reader

theorem readPoint_reads (calm : Calm excused traced.state)
    {entry : Mapping ScriptedValue} (shown : traced.state.Shows model node (.mapping entry))
    (fits : ScriptedValue.EveryPoint ScriptedValue.Fits entry)
    (nonzero : ¬ excused → ScriptedValue.EveryPoint ScriptedValue.NonzeroDenominator entry)
    {function : FunctionValue} (functionProper : ¬ excused → Value.IsProperFunction function) :
    Reads limit model excused traced.state
      (⟨depth, .mapping entry, true⟩ :: ScriptedValue.pointVisits (depth + 1) entry)
      (fun solver added => ∃ point,
        ScriptedValue.pointMeaning solver.constant? entry = some point ∧
          function.insertPoint point = .ok added ∧
            (¬ excused → Value.IsProperFunction added))
      ((readEntry node _ answer >>= addEntry function : Action _ FunctionValue) traced) := by
  rw [← List.append_nil (Visit.mk depth _ true :: _)]
  refine (reader.reads traced node entry calm shown fits nonzero).bind
    fun point middle _ _ meant => .of_room ?_ fun room => ?_
  · exact (addEntry_disciplined function point).grows_of_nil _
  · have pointProper (notExcused : ¬ excused) : Value.IsProperPoint point :=
      ScriptedValue.pointMeaning_isProper entry (meant room) (nonzero notExcused)
    refine (addEntry_reads functionProper pointProper).imp fun left added _ grown adds => ?_
    exact ⟨point, ScriptedValue.pointMeaning_mono grown.constants_kept entry (meant room), adds⟩

/-- The entries of a function are read and added one after another. -/
theorem addEntries_reads (calm : Calm excused traced.state) {nodes : List Node}
    {entries : List (Mapping ScriptedValue)}
    (shown : List.Forall₂ (traced.state.Shows model) nodes (entries.map .mapping))
    (fits : ScriptedValue.EveryEntry ScriptedValue.Fits entries)
    (nonzero : ¬ excused → ScriptedValue.EveryEntry ScriptedValue.NonzeroDenominator entries)
    {function : FunctionValue} (functionProper : ¬ excused → Value.IsProperFunction function) :
    Reads limit model excused traced.state (ScriptedValue.entryVisits depth entries)
      (fun solver added => ∃ points,
        ScriptedValue.pointMeanings solver.constant? entries = some points ∧
          points.foldlM FiniteFunction.insertPoint function = .ok added)
      ((nodes.foldlM (fun function entry => readEntry entry _ answer >>= addEntry function)
        function : Action _ FunctionValue) traced) := by
  induction entries generalizing nodes traced function with
  | nil =>
      cases shown
      exact .of_ok ⟨[], rfl, rfl⟩
  | cons entry entries ih =>
      cases shown with
      | @cons node _ nodes _ firstShown othersShown =>
          simp only [ScriptedValue.EveryEntry] at fits nonzero
          rw [List.foldlM_cons, ScriptedValue.entryVisits, ← List.cons_append]
          refine (readPoint_reads reader calm firstShown fits.1
            (fun notExcused => (nonzero notExcused).1) functionProper).bind
              fun added middle _ grown meant => .of_room ?_ fun room => ?_
          · exact (addEntries_disciplined reader.disciplined nodes added).grows_of_nil _
          · rcases meant room with ⟨point, meantPoint, adds, addedProper⟩
            refine (ih (calm.mono grown) (othersShown.imp fun _ _ => grown.shows) fits.2
              (fun notExcused => (nonzero notExcused).2) addedProper).imp
                fun left final _ grown others => ?_
            rcases others with ⟨points, meantPoints, addsOthers⟩
            refine ⟨point :: points, ?_, ?_⟩
            · have meantPoint :=
                ScriptedValue.pointMeaning_mono grown.constants_kept entry meantPoint
              simp only [ScriptedValue.pointMeanings, meantPoint, meantPoints]
              rfl
            · rw [List.foldlM_cons, adds]
              exact addsOthers

end Entries

/-- A reading that looks the same without the vector that is held for it. -/
theorem withNodeVector_reads {body : VectorId → Action ScriptedSolver Value} {visits : List Visit}
    (means : Constants → Value → Prop)
    (live : (Outcome.state (body traced.state.nextVector
      (traced.map (·.withNextVector (.nodes []) .withNodesMade)))).state.IsLive
        traced.state.nextVector)
    (inside : Reads limit model excused (traced.state.withNextVector (.nodes []) .withNodesMade)
      visits (fun solver => means solver.constant?)
      (body traced.state.nextVector
        (traced.map (·.withNextVector (.nodes []) .withNodesMade)))) :
    Reads limit model excused traced.state visits (fun solver => means solver.constant?)
      (Action.withNodeVector answer body traced) := by
  have same : Visit.offence? limit (traced.state.withNextVector (.nodes []) .withNodesMade) =
      Visit.offence? limit traced.state := funext (offence?_congr rfl rfl)
  rw [withNodeVector_run body traced live]
  revert inside
  generalize body traced.state.nextVector _ = ending
  intro inside
  have released (left : Traced ScriptedSolver) : Extends left.state
      (left.state.withoutVector traced.state.nextVector .withNodesReleased) :=
    extends_withoutVector ..
  refine ⟨?_, fun room => ?_⟩
  · rw [Outcome.state_mapState]
    exact ((extends_withNextVector ..).trans inside.grows).trans (released _)
  · rw [Outcome.state_mapState] at room
    cases inside.ends ((released _).hasRoom room) with
    | ok unoffended errorTerm? meant =>
        rw [same] at unoffended
        exact .ok unoffended errorTerm? meant
    | offence first =>
        rw [same] at first
        exact .offence first
    | excuse isExcused => exact .excuse isExcused

section Functions

variable {readEntry : Node → Routine (Mapping Value)}
  (reader : ReadsValues limit model excused depth read)
  (entryReader : ReadsEntries limit model excused depth readEntry)
  (calm : Calm excused traced.state) {arity : UInt32} {graph : FiniteFunction ScriptedValue}
  (fits : ScriptedValue.EveryGraph ScriptedValue.Fits graph)
  (nonzero : ¬ excused → ScriptedValue.EveryGraph ScriptedValue.NonzeroDenominator graph)

include reader entryReader calm fits nonzero

theorem readParts_reads {vector : VectorId} {nodes : List Node}
    (filled : traced.state.vector? vector = some (.nodes nodes))
    (defaultShown : traced.state.Shows model node graph.default)
    (entriesShown : List.Forall₂ (traced.state.Shows model) nodes (graph.entries.map .mapping)) :
    Reads limit model excused traced.state (ScriptedValue.graphVisits depth graph)
      (fun solver result => ∃ function, result = .function function ∧
        ScriptedValue.graphMeaning solver.constant? graph = some function)
      (readParts answer (fun child => read child _ answer) (fun entry => readEntry entry _ answer)
        vector node traced) := by
  rcases graph with ⟨default, entries⟩
  simp only [ScriptedValue.EveryGraph] at fits nonzero
  unfold readParts
  rw [ScriptedValue.graphVisits]
  refine (reader.reads traced node default calm defaultShown fits.1 fun notExcused =>
    (nonzero notExcused).1).bind fun value after ran grown meant => ?_
  -- reading the default leaves alone the vector that holds the entries
  have elements := nodeVectorElements_of_filled
    ((reader.disciplined [] node).vector?_kept ran filled)
  rw [Outcome.bind_of_ok (Action.ask_of_ok elements)]
  have adding : Disciplined Request.isQuestion [] (fun σ solver =>
      nodes.foldlM (fun function entry => readEntry entry σ solver >>= addEntry function)
        (FiniteFunction.constant value) >>= fun function => pure (Value.function function)) :=
    .bind (addEntries_disciplined entryReader.disciplined nodes _) fun _ => .pure _
  refine .of_room (adding.grows_of_nil _) fun room => ?_
  have meantDefault := meant room
  have constantProper (notExcused : ¬ excused) :
      Value.IsProperFunction (FiniteFunction.constant value) := by
    simp only [FiniteFunction.constant, Value.IsProperFunction, Value.AllPointsProper, and_true]
    exact ScriptedValue.meaning_isProper default meantDefault (nonzero notExcused).1
  refine (addEntries_reads entryReader (calm.mono grown)
    (entriesShown.imp fun _ _ => grown.shows) fits.2 (fun notExcused => (nonzero notExcused).2)
      constantProper).map fun left function _ grown adds => ?_
  rcases adds with ⟨points, meantPoints, adds⟩
  refine ⟨function, rfl, ?_⟩
  have meantDefault := ScriptedValue.meaning_mono grown.constants_kept default meantDefault
  simp only [ScriptedValue.graphMeaning, meantDefault, meantPoints, FiniteFunction.ofMappings_eq,
    Option.bind_eq_bind, Option.bind_some, adds]
  rfl

theorem readGraph_reads {vector : VectorId} (live : traced.state.IsLive vector)
    (shown : traced.state.Shows model node (.function arity graph)) :
    Reads limit model excused traced.state (ScriptedValue.graphVisits depth graph)
      (fun solver result => ∃ function, result = .function function ∧
        ScriptedValue.graphMeaning solver.constant? graph = some function)
      (readGraph answer model (fun child => read child _ answer)
        (fun entry => readEntry entry _ answer) node vector traced) := by
  have calling : Disciplined Request.isQuestion [vector] (fun _ solver =>
      Action.ask solver (.expandFunction model node vector .blank) >>=
        Action.checkReply solver .expandFunction) :=
    .call _ rfl rfl (by simp [Request.vector?]) (.reply _)
  unfold readGraph
  rw [← bind_assoc]
  refine (expandFunction_reads calm live shown .blank).bind fun child middle ran grown shows => ?_
  have held : ∀ held ∈ [vector], traced.state.IsLive held := by simpa using live
  have framed := calling.frame Request.tradesVector_of_isQuestion held
  rw [ran] at framed
  refine .of_room ?_ fun room => ?_
  · exact (readParts_disciplined (fun _ question => question) reader.disciplined
      entryReader.disciplined child (by simp)).grows framed.kept.1
  · rcases shows room with ⟨nodes, filled, shows⟩
    rcases shows room with ⟨defaultShown, entriesShown⟩
    exact readParts_reads reader entryReader (calm.mono grown) fits nonzero filled defaultShown
      entriesShown

theorem readFunction_reads (shown : traced.state.Shows model node (.function arity graph)) :
    Reads limit model excused traced.state
      (if arity = 0 then [] else ScriptedValue.graphVisits depth graph)
      (fun solver result =>
        ScriptedValue.meaning solver.constant? (.function arity graph) = some result)
      (readFunction answer model (fun child => read child _ answer)
        (fun entry => readEntry entry _ answer) node traced) := by
  have asked : answer (.functionArity model node) traced.state = .ok arity traced.state :=
    measureNode_of_shows shown (·.functionArity) 0
  rw [readFunction_eq, Outcome.bind_of_ok (Action.ask_of_ok asked)]
  by_cases empty : arity = 0
  · simp only [if_pos empty]
    exact .of_ok (by simp only [ScriptedValue.meaning, if_pos empty])
  · simp only [if_neg empty]
    let opened := traced.map (·.withNextVector (.nodes []) .withNodesMade)
    have grown : Extends traced.state opened.state := extends_withNextVector ..
    have live : ∀ held ∈ [traced.state.nextVector], opened.state.IsLive held :=
      isLive_held_withNextVector (by simp) (.nodes []) .withNodesMade
    have stillLive := (readGraph_disciplined (fun _ question => question) model reader.disciplined
      entryReader.disciplined node (List.mem_singleton.mpr rfl)).leaves_live live
    refine withNodeVector_reads
      (fun constants result =>
        ScriptedValue.meaning constants (.function arity graph) = some result) stillLive ?_
    refine (readGraph_reads reader entryReader (calm.mono grown) fits nonzero (live _ (by simp))
      (grown.shows shown)).imp fun left result _ _ meant => ?_
    rcases meant with ⟨function, rfl, meant⟩
    simp only [ScriptedValue.meaning, if_neg empty, meant]
    rfl

end Functions

end Composites

/-! ## Whole values -/

theorem visits_eq_cons (value : ScriptedValue) (depth : Nat) :
    ∃ below, value.visits depth = ⟨depth, value, false⟩ :: below := by
  cases value <;> simp only [ScriptedValue.visits, List.cons.injEq, true_and, exists_eq']

theorem ofTag?_of_fits {tag : Int32} (fits : (ScriptedValue.tagged tag).Fits) :
    NodeKind.ofTag? tag = none ∨ NodeKind.ofTag? tag = some .unknown := by
  simp only [ScriptedValue.Fits] at fits
  unfold NodeKind.ofTag?
  split_ifs with zero
  · exact Or.inr rfl
  all_goals first
    | exact Or.inl rfl
    | subst_vars
      exact absurd (by decide) fits

section Whole

variable {limit : DepthLimit} {model : ModelId} {excused : Prop} {depth room : Nat}
  {traced : Traced ScriptedSolver} {node : Node}

theorem readKind_reads (above : depth < limit.levels)
    (reader : ReadsValues limit model excused (depth + 1)
      fun child _ solver => read solver model limit room child)
    (entryReader : ReadsEntries limit model excused (depth + 1) fun entry _ solver =>
      readEntry solver model limit (readBelow? solver model limit room) entry)
    (calm : Calm excused traced.state) {value : ScriptedValue}
    (shown : traced.state.Shows model node value) (fits : value.Every ScriptedValue.Fits)
    (nonzero : ¬ excused → value.Every ScriptedValue.NonzeroDenominator) :
    Reads limit model excused traced.state (value.visits depth)
      (fun solver result => value.meaning solver.constant? = some result)
      (readKind answer model limit room node traced) := by
  have notTooDeep : ¬ limit.levels ≤ depth := by omega
  have kind : node.kind? = NodeKind.ofTag? value.tag := by rw [Node.kind?, shown.tag]
  unfold readKind
  rw [kind]
  cases value with
  | bool truth =>
      simp only [ScriptedValue.tag, NodeKind.ofTag?_tag]
      refine .visit (by simp only [Visit.offence?, if_neg notTooDeep]) ?_
      refine (readBool_reads calm shown).imp fun left result _ _ meant => ?_
      simp only [ScriptedValue.meaning, meant]
  | rational fraction =>
      simp only [ScriptedValue.tag, NodeKind.ofTag?_tag]
      refine .visit (by simp only [Visit.offence?, if_neg notTooDeep]) ?_
      refine (readRational_reads calm shown).imp fun left result _ _ meant => ?_
      simp only [ScriptedValue.meaning, meant]
  | algebraic =>
      simp only [ScriptedValue.tag, NodeKind.ofTag?_tag]
      exact .of_offence (.refl _) (by simp only [Visit.offence?, if_neg notTooDeep])
  | bitVector bits =>
      simp only [ScriptedValue.tag, NodeKind.ofTag?_tag]
      refine .visit (by simp only [Visit.offence?, if_neg notTooDeep]) ?_
      exact readBits_reads calm fits shown
  | scalar type index =>
      simp only [ScriptedValue.tag, NodeKind.ofTag?_tag]
      exact readScalar_reads calm above shown
  | tuple items =>
      simp only [ScriptedValue.tag, NodeKind.ofTag?_tag]
      refine .visit (by simp only [Visit.offence?, if_neg notTooDeep]) ?_
      exact readTuple_reads reader calm shown fits nonzero
  | function arity graph =>
      simp only [ScriptedValue.tag, NodeKind.ofTag?_tag]
      simp only [ScriptedValue.Every] at fits nonzero
      refine .visit (by simp only [Visit.offence?, if_neg notTooDeep]) ?_
      exact readFunction_reads reader entryReader calm fits.2
        (fun notExcused => (nonzero notExcused).2) shown
  | mapping point =>
      rcases point with ⟨args, result⟩
      simp only [ScriptedValue.tag, NodeKind.ofTag?_tag]
      simp only [ScriptedValue.Every] at fits nonzero
      refine .visit ?_ ?_
      · simp only [Visit.offence?, if_neg notTooDeep, Bool.false_eq_true, false_and, if_false]
      by_cases empty : args = []
      · subst empty
        rw [Outcome.bind_of_ok (readMapping_of_isEmpty shown)]
        exact .of_ok rfl
      · rw [← List.append_nil (ScriptedValue.pointVisits _ _)]
        refine (readMapping_reads reader calm shown empty fits nonzero).bind
          fun point? middle _ _ meant => .of_room ?_ fun room => ?_
        · cases point? <;> exact .refl _
        · rcases meant room with ⟨point, rfl, meantPoint⟩
          refine .of_ok ?_
          simp only [ScriptedValue.meaning, List.isEmpty_iff, empty, if_false, meantPoint]
          rfl
  | tagged tag =>
      have offence : Visit.offence? limit traced.state ⟨depth, .tagged tag, false⟩ =
          some (.internal (.unexpectedTag node.tag)) := by
        simp only [Visit.offence?, if_neg notTooDeep, shown.tag, ScriptedValue.tag]
      rcases ofTag?_of_fits fits with unlisted | unknown
      · simp only [ScriptedValue.tag, unlisted]
        exact .of_offence (.refl _) offence
      · simp only [ScriptedValue.tag, unknown]
        exact .of_offence (.refl _) offence

end Whole

/-- The values at a depth are read with the room that is left below the limit. -/
theorem read_reads (limit : DepthLimit) (model : ModelId) (excused : Prop) (room : Nat) :
    ∀ depth, depth + room = limit.levels →
      ReadsValues limit model excused depth
        (fun node _ solver => read solver model limit room node) := by
  -- below the entries of a function there are two levels less, which plain induction misses
  induction room using Nat.strongRecOn with
  | ind room ih =>
      intro depth levels
      refine ⟨fun held node => read_disciplined (fun _ question => question) model limit room held
        node, fun traced node value calm shown fits nonzero => ?_⟩
      cases room with
      | zero =>
          rcases visits_eq_cons value depth with ⟨below, visits⟩
          rw [visits]
          refine .of_offence (.refl _) ?_
          simp only [Visit.offence?, if_pos (show limit.levels ≤ depth by omega)]
      | succ room =>
          have entryReader : ReadsEntries limit model excused (depth + 1) fun entry _ solver =>
              readEntry solver model limit (readBelow? solver model limit room) entry := by
            cases room with
            | zero => exact readEntry_none_reads (by omega)
            | succ room =>
                have below := ih room (by omega) (depth + 2) (by omega)
                exact readEntry_some_reads below (by omega)
          simp only [read_succ]
          refine .record fun recorded same => ?_
          rw [← same] at calm shown
          exact readKind_reads (by omega) (ih room (by omega) (depth + 1) (by omega)) entryReader
            calm shown fits nonzero

end SmtModel.Reading
