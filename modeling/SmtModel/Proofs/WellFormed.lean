import SmtModel.Override
import SmtModel.Scripted.Script
import SmtModel.Proofs.Ensures

/-!
# What is read is well formed

A value that was read from a solver is well formed, whatever the solver answered:
nothing in it is out of its range, no composite in it is empty, no function in it has
two entries for one key, and it is not nested more deeply than the limit allows. Only
the reader's own checks stand behind this, so it holds with every solver
(`Model.ask_value_wellFormed`).

Keys of a function are compared in the order in which the entries were written. Such a
comparison may be undefined, and writing a point that meets one ends in a fault, so
that of the entries of a function every earlier one was found to differ from every
later one.
-/

namespace SmtModel

/-! ## Well-formed values -/

/-- What lies directly below a value. The entries of a function count as mappings. -/
def Value.parts : Value → List Value
  | .tuple items => items
  | .mapping point => point.args ++ [point.result]
  | .function graph => graph.default :: graph.entries.map .mapping
  | _ => []

/-- A property holds of a value and of everything below it. -/
inductive Value.Every (holds : Value → Prop) : Value → Prop where
  | node {value : Value} (here : holds value)
      (below : ∀ part ∈ value.parts, Value.Every holds part) : Value.Every holds value

/-- A value that is in order itself, whatever lies below it. -/
def Value.IsSound : Value → Prop
  | .int number => Int64.minValue.toInt ≤ number ∧ number ≤ Int64.maxValue.toInt
  | .rational ⟨numerator, denominator⟩ =>
    (Int64.minValue.toInt ≤ numerator ∧ numerator ≤ Int64.maxValue.toInt) ∧
      0 ≤ denominator ∧ denominator < UInt64.size
  | .bitVector bits => bits ≠ [] ∧ ∀ bit ∈ bits, bit = 0 ∨ bit = 1
  | .tuple items => items ≠ []
  | .mapping point => point.args ≠ []
  | .function graph =>
    graph.entries.Pairwise fun earlier later =>
      Value.listEquals earlier.args later.args = .ok false
  | _ => True

mutual

/-- How many levels a value has. A leaf has one, and an entry of a function has those of a
mapping. -/
def Value.nesting : Value → Nat
  | .tuple items => 1 + Value.deepest items
  | .mapping point => Value.pointNesting point
  | .function graph => 1 + Value.deepestInGraph graph
  | _ => 1
termination_by structural value => value

/-- The most levels of a value in a list. -/
def Value.deepest : List Value → Nat
  | [] => 0
  | value :: values => max value.nesting (Value.deepest values)
termination_by structural values => values

/-- How many levels a mapping has. -/
def Value.pointNesting : Mapping Value → Nat
  | ⟨args, result⟩ => 1 + max (Value.deepest args) result.nesting
termination_by structural point => point

/-- The most levels of what lies right below a function. -/
def Value.deepestInGraph : FiniteFunction Value → Nat
  | ⟨default, entries⟩ => max default.nesting (Value.deepestEntry entries)
termination_by structural graph => graph

/-- The most levels of an entry in a list. -/
def Value.deepestEntry : List (Mapping Value) → Nat
  | [] => 0
  | entry :: entries => max (Value.pointNesting entry) (Value.deepestEntry entries)
termination_by structural entries => entries

end

/-- A value of at most some levels that is in order throughout. -/
structure Value.WellFormed (levels : Nat) (value : Value) : Prop where
  sound : value.Every Value.IsSound
  shallow : value.nesting ≤ levels

namespace Value

section Every

variable {holds : Value → Prop}

theorem Every.leaf {value : Value} (here : holds value) (noParts : value.parts = []) :
    value.Every holds :=
  .node here (by simp [noParts])

theorem every_iff_parts {value : Value} (here : holds value) :
    value.Every holds ↔ ∀ part ∈ value.parts, part.Every holds :=
  ⟨fun | .node _ below => below, .node here⟩

theorem every_mapping_iff {point : Mapping Value} (here : holds (.mapping point)) :
    (Value.mapping point).Every holds ↔
      (∀ arg ∈ point.args, arg.Every holds) ∧ point.result.Every holds := by
  rw [every_iff_parts here]
  simp only [parts, List.forall_mem_append, List.forall_mem_singleton]

theorem every_function_iff {function : FunctionValue} (here : holds (.function function)) :
    (Value.function function).Every holds ↔
      function.default.Every holds ∧
        ∀ entry ∈ function.entries, (Value.mapping entry).Every holds := by
  rw [every_iff_parts here]
  simp only [parts, List.forall_mem_cons, List.forall_mem_map]

end Every

theorem deepest_le {levels : Nat} (values : List Value) :
    deepest values ≤ levels ↔ ∀ value ∈ values, value.nesting ≤ levels := by
  induction values with
  | nil => simp [deepest]
  | cons value values ih => rw [deepest, Nat.max_le, ih, List.forall_mem_cons]

theorem deepestEntry_le {levels : Nat} (entries : List (Mapping Value)) :
    deepestEntry entries ≤ levels ↔ ∀ entry ∈ entries, (Value.mapping entry).nesting ≤ levels := by
  induction entries with
  | nil => simp [deepestEntry]
  | cons entry entries ih => rw [deepestEntry, Nat.max_le, ih, List.forall_mem_cons, nesting]

/-- A value has one level more than what lies below it. -/
theorem nesting_le_succ {levels : Nat} (value : Value) :
    value.nesting ≤ levels + 1 ↔ ∀ part ∈ value.parts, part.nesting ≤ levels := by
  cases value with
  | tuple items => simp [nesting, parts, ← deepest_le, Nat.add_comm 1]
  | mapping point =>
      rcases point with ⟨args, result⟩
      rw [nesting, pointNesting, Nat.add_comm, Nat.add_le_add_iff_right, Nat.max_le, deepest_le,
        parts, List.forall_mem_append, List.forall_mem_singleton]
  | function graph =>
      rcases graph with ⟨default, entries⟩
      rw [nesting, deepestInGraph, Nat.add_comm, Nat.add_le_add_iff_right, Nat.max_le,
        deepestEntry_le, parts, List.forall_mem_cons, List.forall_mem_map]
  | _ => simp [nesting, parts]

namespace WellFormed

variable {levels : Nat} {value : Value}

theorem of_parts (sound : value.IsSound) (below : ∀ part ∈ value.parts, part.WellFormed levels) :
    value.WellFormed (levels + 1) where
  sound := .node sound fun part isPart => (below part isPart).sound
  shallow := (nesting_le_succ value).mpr fun part isPart => (below part isPart).shallow

theorem here (formed : value.WellFormed levels) : value.IsSound := by
  cases formed.sound with
  | node here _ => exact here

theorem below (formed : value.WellFormed (levels + 1)) :
    ∀ part ∈ value.parts, part.WellFormed levels := by
  intro part isPart
  have shallow := (nesting_le_succ value).mp formed.shallow part isPart
  cases formed.sound with
  | node _ below => exact ⟨below part isPart, shallow⟩

theorem leaf (sound : value.IsSound) (noParts : value.parts = []) :
    value.WellFormed (levels + 1) :=
  of_parts sound (by simp [noParts])

end WellFormed

end Value

namespace Value.WellFormed

variable {levels : Nat} {point other : Mapping Value}

theorem point_iff :
    (Value.mapping point).WellFormed (levels + 1) ↔
      point.args ≠ [] ∧ (∀ arg ∈ point.args, arg.WellFormed levels) ∧
        point.result.WellFormed levels := by
  constructor
  · intro formed
    have below := formed.below
    refine ⟨formed.here, fun arg isArg => below arg ?_, below _ ?_⟩
    · exact List.mem_append_left _ isArg
    · exact List.mem_append_right _ List.mem_cons_self
  · rintro ⟨hasArgs, args, result⟩
    refine .of_parts hasArgs fun part isPart => ?_
    rcases List.mem_append.mp isPart with isArg | isResult
    · exact args part isArg
    · rw [List.mem_singleton.mp isResult]
      exact result

theorem withResult (formed : (Value.mapping point).WellFormed levels)
    (otherFormed : (Value.mapping other).WellFormed levels) :
    (Value.mapping { point with result := other.result }).WellFormed levels := by
  cases levels with
  | zero =>
      rcases point with ⟨args, result⟩
      have shallow := formed.shallow
      simp [nesting, pointNesting] at shallow
  | succ levels =>
      rw [point_iff] at formed otherFormed ⊢
      exact ⟨formed.1, formed.2.1, otherFormed.2.2⟩

end Value.WellFormed

/-! ## Functions with keys that differ -/

namespace FiniteFunction

/-- Writing a point gives a new result to the first entry at its arguments. If there is none, all
keys were found to differ from its arguments, and it becomes the last entry. -/
theorem write_cases {point : Mapping Value} {replaced : Option Value}
    {entries written : List (Mapping Value)}
    (writes : write point entries = .ok (replaced, written)) :
    (∃ before old after, entries = before ++ old :: after ∧
        written = before ++ { old with result := point.result } :: after ∧
        replaced = some old.result ∧ Value.listEquals old.args point.args = .ok true ∧
        ∀ entry ∈ before, Value.listEquals entry.args point.args = .ok false) ∨
      written = entries ++ [point] ∧ replaced = none ∧
        ∀ entry ∈ entries, Value.listEquals entry.args point.args = .ok false := by
  induction entries generalizing replaced written with
  | nil =>
      cases writes
      exact Or.inr ⟨rfl, rfl, by simp⟩
  | cons entry entries ih =>
      cases compares : Value.listEquals entry.args point.args with
      | error division => simp [write, compares, bind, Except.bind] at writes
      | ok same =>
          cases same with
          | true =>
              simp only [write, compares] at writes
              cases writes
              exact Or.inl ⟨[], entry, entries, rfl, rfl, rfl, compares, by simp⟩
          | false =>
              cases writesRest : write point entries with
              | error division => simp [write, compares, writesRest, bind, Except.bind] at writes
              | ok outcome =>
                  rcases outcome with ⟨replaced', written'⟩
                  simp only [write, compares, writesRest] at writes
                  cases writes
                  rcases ih writesRest with
                    ⟨before, old, after, rfl, rfl, rfl, found, differ⟩ | ⟨rfl, rfl, differ⟩
                  · exact Or.inl ⟨entry :: before, old, after, rfl, rfl, rfl, found,
                      by simpa [compares] using differ⟩
                  · exact Or.inr ⟨rfl, rfl, by simpa [compares] using differ⟩

/-- A function with a default and entries of at most some levels, no two of which are for one
key. -/
structure WellFormed (levels : Nat) (function : FunctionValue) : Prop where
  default : function.default.WellFormed levels
  entries : ∀ entry ∈ function.entries, (Value.mapping entry).WellFormed levels
  distinct : (Value.function function).IsSound

namespace WellFormed

variable {levels : Nat} {function added : FunctionValue} {point : Mapping Value}
  {replaced : Option Value}

theorem constant {default : Value} (defaultFormed : default.WellFormed levels) :
    WellFormed levels (FiniteFunction.constant default) where
  default := defaultFormed
  entries := by simp [FiniteFunction.constant]
  distinct := List.Pairwise.nil

/-- Adding a point keeps the keys apart: it either takes over a key or brings one that differs. -/
theorem insert (formed : WellFormed levels function)
    (pointFormed : (Value.mapping point).WellFormed levels)
    (inserts : function.insert point = .ok (replaced, added)) : WellFormed levels added := by
  rcases function with ⟨default, entries⟩
  rcases formed with ⟨defaultFormed, entriesFormed, distinct⟩
  cases writes : write point entries with
  | error division => simp [FiniteFunction.insert, writes, bind, Except.bind] at inserts
  | ok outcome =>
      rcases outcome with ⟨replaced', written⟩
      simp only [FiniteFunction.insert, writes] at inserts
      cases inserts
      rcases write_cases writes with
        ⟨before, old, after, rfl, rfl, -, -, -⟩ | ⟨rfl, -, differ⟩
      · refine ⟨defaultFormed, fun entry isEntry => ?_, ?_⟩
        · have oldFormed := entriesFormed old (by simp)
          simp only [List.mem_append, List.mem_cons] at isEntry
          rcases isEntry with isBefore | rfl | isAfter
          · exact entriesFormed entry (by simp [isBefore])
          · exact oldFormed.withResult pointFormed
          · exact entriesFormed entry (by simp [isAfter])
        · simpa only [Value.IsSound, List.pairwise_append, List.pairwise_cons, List.mem_cons,
            forall_eq_or_imp] using distinct
      · refine ⟨defaultFormed, fun entry isEntry => ?_, ?_⟩
        · rcases List.mem_append.mp isEntry with isOld | isNew
          · exact entriesFormed entry isOld
          · rw [List.mem_singleton.mp isNew]
            exact pointFormed
        · refine List.pairwise_append.mpr ⟨distinct, List.pairwise_singleton _ _, ?_⟩
          intro earlier isEarlier later isLater
          rw [List.mem_singleton.mp isLater]
          exact differ earlier isEarlier

theorem value (formed : WellFormed levels function) :
    (Value.function function).WellFormed (levels + 1) := by
  refine .of_parts formed.distinct fun part isPart => ?_
  simp only [Value.parts, List.mem_cons, List.mem_map] at isPart
  rcases isPart with rfl | ⟨entry, isEntry, rfl⟩
  · exact formed.default
  · exact formed.entries entry isEntry

end WellFormed

end FiniteFunction

/-! ## Reading -/

namespace Reading

/-- Cells that were made for some parts hold some. -/
theorem ne_nil_of_arity {α : Type} {arity : UInt32} (someParts : arity ≠ 0) {parts : List α}
    (length : parts.length = arity.toNat) : parts ≠ [] := by
  rintro rfl
  apply someParts
  apply UInt32.toNat_inj.mp
  simpa using length.symm

open SmtModel.Action

variable {σ : Type} {solver : Solver σ} {invariant : σ → Prop} {expected : Fault → Prop}
  {model : ModelId}

section Ensures

variable (respects : Respects solver invariant expected (Request.IsOfReading model))

section Leaves

variable {room : Nat}

include respects

theorem readBool_ensures (node : Node) :
    Ensures invariant expected (Value.WellFormed (room + 1)) (readBool solver model node) := by
  apply Ensures.call respects (.nodeBool ..) rfl (.reply _)
  intro truth
  exact .pure (.leaf trivial rfl)

theorem readRational_ensures (node : Node) :
    Ensures invariant expected (Value.WellFormed (room + 1)) (readRational solver model node) := by
  unfold readRational
  apply Ensures.bind (.ask respects (.nodeIsInt64 ..) rfl)
  intro isInt64 _
  cases isInt64 with
  | true =>
      apply Ensures.call respects (.nodeInt64 ..) rfl (.reply _)
      intro number
      exact .pure (.leaf ⟨number.minValue_le_toInt, number.toInt_le⟩ rfl)
  | false =>
      apply Ensures.bind (.ask respects (.nodeIsRational64 ..) rfl)
      intro isRational64 _
      cases isRational64 with
      | true =>
          apply Ensures.call respects (.nodeRational64 ..) rfl (.reply _)
          rintro ⟨numerator, denominator⟩
          refine .pure (.leaf ⟨⟨numerator.minValue_le_toInt, numerator.toInt_le⟩, ?_⟩ rfl)
          have bounded := denominator.toNat_lt_size
          omega
      | false =>
          apply Ensures.call respects (.nodeDouble ..) rfl (.reply _)
          intro number
          exact .pure (.leaf trivial rfl)

theorem readScalar_ensures (node : Node) :
    Ensures invariant expected (Value.WellFormed (room + 1)) (readScalar solver model node) := by
  apply Ensures.call respects (.nodeScalar ..) rfl (.reply _)
  rintro ⟨index, type⟩
  apply Ensures.call respects (.constant ..) trivial (.term _)
  intro constant
  exact .pure (.leaf trivial rfl)

theorem readBits_ensures (node : Node) :
    Ensures invariant expected (Value.WellFormed (room + 1)) (readBits solver model node) := by
  unfold readBits
  apply Ensures.bind (.ask respects (.nodeBitSize ..) rfl)
  intro width _
  by_cases empty : width = 0
  · rw [if_pos empty]
    exact .pure (.leaf trivial rfl)
  · rw [if_neg empty]
    apply Ensures.call respects (.nodeBits ..) rfl (.reply _)
    intro bits
    refine .pure (.leaf ⟨?_, ?_⟩ rfl)
    · apply ne_nil_of_arity empty
      simp
    · intro bit isBit
      rcases List.mem_map.mp isBit with ⟨bit', _, rfl⟩
      split
      · exact Or.inl rfl
      · exact Or.inr rfl

end Leaves

section Composites

variable {room : Nat} {read : Node → Action σ Value}
  (read_ensures : ∀ node, Ensures invariant expected (Value.WellFormed room) (read node))

include respects read_ensures

theorem readTuple_ensures (node : Node) :
    Ensures invariant expected (Value.WellFormed (room + 1))
      (readTuple solver model read node) := by
  unfold readTuple
  apply Ensures.bind (.ask respects (.tupleArity ..) rfl)
  intro arity _
  by_cases empty : arity = 0
  · rw [if_pos empty]
    exact .pure (.leaf trivial rfl)
  · rw [if_neg empty]
    apply Ensures.call respects (.expandTuple ..) rfl (.reply _)
    intro items
    apply Ensures.bind (.mapM read_ensures items.toList)
    rintro values ⟨length, formed⟩
    refine .pure (.of_parts ?_ formed)
    apply ne_nil_of_arity empty
    simpa using length

theorem readMapping_ensures (node : Node) :
    Ensures invariant expected
      (fun point? => ∀ point ∈ point?, (Value.mapping point).WellFormed (room + 1))
      (readMapping solver model read node) := by
  unfold readMapping
  apply Ensures.bind (.ask respects (.mappingArity ..) rfl)
  intro arity _
  by_cases empty : arity = 0
  · rw [if_pos empty]
    exact .pure (by simp)
  · rw [if_neg empty]
    apply Ensures.call respects (.expandMapping ..) rfl (.reply _)
    rintro ⟨args, result⟩
    apply Ensures.bind (.mapM read_ensures args.toList)
    rintro values ⟨length, formed⟩
    apply Ensures.bind (read_ensures result)
    intro value valueFormed
    refine .pure ?_
    rintro point ⟨⟩
    refine Value.WellFormed.point_iff.mpr ⟨?_, formed, valueFormed⟩
    apply ne_nil_of_arity empty
    simpa using length

theorem readEntry_some_ensures (limit : DepthLimit) (entry : Node) :
    Ensures invariant expected (fun point => (Value.mapping point).WellFormed (room + 1))
      (readEntry solver model limit (some read) entry) := by
  unfold readEntry
  by_cases isMapping : entry.kind? = some .mapping
  · simp only [isMapping, ne_eq, not_true, if_false]
    apply Ensures.bind (readMapping_ensures respects read_ensures entry)
    intro point? formed
    cases point? with
    | none => exact .fail _
    | some point => exact .pure (formed point rfl)
  · simp only [isMapping, ne_eq, not_false_eq_true, if_true]
    exact .bind (.fail _) fun _ (impossible : False) => impossible.elim

end Composites

theorem addEntry_ensures (divides : expected .divisionByZero) {room : Nat}
    {function : FunctionValue} {point : Mapping Value}
    (formed : FiniteFunction.WellFormed room function)
    (pointFormed : (Value.mapping point).WellFormed room) :
    Ensures invariant expected (FiniteFunction.WellFormed room)
      (addEntry function point : Action σ FunctionValue) := by
  apply Ensures.bind (.ofExcept divides _)
  rintro ⟨replaced?, added⟩ inserts
  have addedFormed := formed.insert pointFormed inserts
  cases replaced? with
  | none => exact .pure addedFormed
  | some replaced => exact .bind (.record _) fun _ _ => .pure addedFormed

include respects

theorem readFunction_ensures (divides : expected .divisionByZero) {room : Nat}
    {read : Node → Action σ Value} {readEntry : Node → Action σ (Mapping Value)}
    (read_ensures : ∀ node, Ensures invariant expected (Value.WellFormed room) (read node))
    (readEntry_ensures : ∀ entry, Ensures invariant expected
      (fun point => (Value.mapping point).WellFormed room) (readEntry entry)) (node : Node) :
    Ensures invariant expected (Value.WellFormed (room + 1))
      (readFunction solver model read readEntry node) := by
  unfold readFunction
  apply Ensures.bind (.ask respects (.functionArity ..) rfl)
  intro arity _
  by_cases empty : arity = 0
  · rw [if_pos empty]
    exact .pure (.leaf trivial rfl)
  · rw [if_neg empty]
    apply Ensures.withNodeVector respects trivial fun _ => trivial
    intro vector
    apply Ensures.call respects (.expandFunction ..) rfl (.reply _)
    intro default
    apply Ensures.bind (read_ensures default)
    intro value valueFormed
    apply Ensures.bind (.ask respects (.nodeVectorElements ..) trivial)
    intro entries _
    have adding : ∀ function entry, FiniteFunction.WellFormed room function →
        Ensures invariant expected (FiniteFunction.WellFormed room)
          (do addEntry function (← readEntry entry)) := by
      intro function entry formed
      apply Ensures.bind (readEntry_ensures entry)
      intro point pointFormed
      exact addEntry_ensures divides formed pointFormed
    apply Ensures.bind (.foldlM adding entries (FiniteFunction.WellFormed.constant valueFormed))
    intro function formed
    exact .pure formed.value

/-- What is read with some levels left is well formed within these levels. -/
theorem read_ensures (divides : expected .divisionByZero) (limit : DepthLimit) (room : Nat)
    (node : Node) :
    Ensures invariant expected (Value.WellFormed room) (read solver model limit room node) := by
  induction room using Nat.strongRecOn generalizing node with
  | ind room ih =>
      cases room with
      | zero => exact .fail _
      | succ room =>
          have below node := ih room (by omega) node
          rw [read_succ]
          apply Ensures.bind (.record _)
          intro _ _
          unfold readKind
          rcases node.kind? with _ | kind
          · exact .fail _
          cases kind with
          | unknown => exact .fail _
          | algebraic => exact .fail _
          | bool => exact readBool_ensures respects node
          | rational => exact readRational_ensures respects node
          | scalar => exact readScalar_ensures respects node
          | bitVector => exact readBits_ensures respects node
          | tuple => exact readTuple_ensures respects below node
          | mapping =>
              apply Ensures.bind (readMapping_ensures respects below node)
              intro point? formed
              cases point? with
              | none => exact .pure (.leaf trivial rfl)
              | some point => exact .pure (formed point rfl)
          | function =>
              apply readFunction_ensures respects divides below
              intro entry
              cases room with
              | zero => exact .fail _
              | succ room =>
                  exact readEntry_some_ensures respects (ih room (by omega)) limit entry

end Ensures

end Reading

namespace Model

open SmtModel.Action

variable {σ : Type} {solver : Solver σ} {invariant : σ → Prop} {expected : Fault → Prop}

theorem reading_ensures {model : Model}
    (respects : Respects solver invariant expected (Request.IsOfReading model.id))
    (divides : expected .divisionByZero) (term : TermId) :
    Ensures invariant expected (Value.WellFormed model.limit.levels) (model.read solver term) := by
  apply Ensures.call respects (.value ..) rfl (.reply _)
  intro root
  exact Reading.read_ensures respects divides _ _ root

theorem read_ensures {model : Model}
    (respects : Respects solver invariant expected (Request.IsOfQuery model.id))
    (divides : expected .divisionByZero) (term : TermId) :
    Ensures invariant expected (Value.WellFormed model.limit.levels) (model.read solver term) :=
  reading_ensures (respects.mono fun _ => Request.IsOfReading.isOfQuery) divides term

theorem collectTerms_ensures {id : ModelId}
    (respects : Respects solver invariant expected (Request.IsOfReading id)) (name : Call)
    {fill : VectorId → Action σ Int32}
    (fills : ∀ vector, Ensures invariant expected Ensures.any (fill vector)) :
    Ensures invariant expected Ensures.any (collectTerms solver name fill) := by
  apply Ensures.withTermVector respects trivial fun _ => trivial
  intro vector
  apply Ensures.bind (fills vector)
  intro status _
  apply Ensures.bind (Ensures.checked respects (.status name) status)
  intro _ _
  exact .ask respects (.termVectorElements ..) trivial

/-- A query keeps what the solver keeps in answering the requests that the query makes, and it meets
no other fault than the solver does, a division by zero apart. -/
theorem asked_ensures {model : Model} {query : Query}
    (respects : Respects solver invariant expected (query.Makes model.id))
    (divides : expected .divisionByZero) :
    Ensures invariant expected Ensures.any (model.ask solver query) := by
  cases query with
  | bool term =>
      apply Ensures.call respects (.boolValue ..) rfl (.reply _)
      intro truth
      exact .pure trivial
  | integer term => exact .lastCall respects (.int64Value ..) rfl (.reply _)
  | fraction term =>
      apply Ensures.call respects (.rational64Value ..) rfl (.reply _)
      intro words
      exact .pure trivial
  | float term => exact .lastCall respects (.doubleValue ..) rfl (.reply _)
  | scalar term => exact .lastCall respects (.scalarValue ..) rfl (.reply _)
  | value term => exact (reading_ensures respects divides term).mono fun _ _ => trivial
  | valueAsTerm term => exact .lastCall respects (.valueAsTerm ..) rfl (.term _)
  | holds formula => exact .lastCall respects (.formulaHolds ..) rfl (.truth _)
  | allHold formulas => exact .lastCall respects (.formulasHold ..) rfl (.truth _)
  | definedTerms =>
      apply Ensures.withTermVector respects trivial fun _ => trivial
      intro vector
      apply Ensures.bind (.ask respects (.definedTerms ..) rfl)
      intro _ _
      exact .ask respects (.termVectorElements ..) trivial
  | implicant formula =>
      exact collectTerms_ensures respects _ fun _ => .ask respects (.implicant ..) rfl
  | implicants formulas =>
      exact collectTerms_ensures respects _ fun _ => .ask respects (.implicants ..) rfl
  | generalize formula eliminated mode =>
      exact collectTerms_ensures respects _ fun _ => .ask respects (.generalize ..) rfl
  | generalizeAll formulas eliminated mode =>
      exact collectTerms_ensures respects _ fun _ => .ask respects (.generalizeAll ..) rfl

theorem ask_ensures {model : Model}
    (respects : Respects solver invariant expected (Request.IsOfQuery model.id))
    (divides : expected .divisionByZero) (query : Query) :
    Ensures invariant expected Ensures.any (model.ask solver query) :=
  asked_ensures (respects.mono fun _ => Query.Makes.isOfQuery) divides

/-- Whatever a solver answers, a value that is answered with is well formed: every node of it is
sound, and it has no more levels than the limit of the model allows. -/
theorem ask_value_wellFormed {model : Model} {term : TermId} {start left : Traced σ}
    {value : Value} (answered : model.ask solver (.value term) start = .ok value left) :
    value.Every Value.IsSound ∧ value.nesting ≤ model.limit.levels := by
  have respects : Respects solver (fun _ => True) (fun _ => True) (Request.IsOfQuery model.id) :=
    .trivially solver _
  have ensures := read_ensures respects trivial term start trivial
  change model.read solver term start = _ at answered
  rw [answered] at ensures
  cases ensures with
  | result _ formed => exact ⟨formed.sound, formed.shallow⟩

/-- A solver with a bit vector of one bit, which announces three bits and then hands out none. -/
def contradictory : Overridden ScriptedSolver where
  base := { terms := #[⟨⟨0⟩, some (.bitVector [1])⟩], models := #[some ⟨[], #[], false⟩] }
  overrides := { returns := [(.nodeBitSize, 3), (.nodeBits, 0)] }

theorem ask_value_wellFormed_contradictory :
    ∃ value left,
      ask (Overridden.answer ScriptedSolver.answer) { id := ⟨0⟩ } (.value ⟨0⟩)
          ⟨contradictory, []⟩ = .ok value left ∧
        value.bits? = some [0, 0, 0] ∧
        value.Every Value.IsSound ∧ value.nesting ≤ DepthLimit.standard.levels := by
  cases answered : ask (Overridden.answer ScriptedSolver.answer) { id := ⟨0⟩ } (.value ⟨0⟩)
      ⟨contradictory, []⟩ with
  | error stop left => cases answered
  | ok value left =>
      refine ⟨value, left, rfl, ?_, ask_value_wellFormed answered⟩
      cases answered
      rfl

end Model

end SmtModel
