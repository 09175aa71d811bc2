import Mathlib.Data.List.Basic
import SmtModel.Reading
import SmtModel.Proofs.Comparison
import SmtModel.Proofs.Scripted.Growth

/-!
# What a scripted value means

`ScriptedValue.meaning` is the value that is to be read from a scripted value, by
recursion over the scripted value and without nodes or a solver; only the constants
that denote the elements of enumerated types are taken from outside.
`ScriptedValue.visits` are the places where a reader looks, in the order in which it
does, and `Visit.offence?` says what is wrong at such a place. A value is read if
there is no offence in it, and ends in the first offence otherwise.
-/

namespace SmtModel

/-- The value of a fraction: as an integer if it is one by its form, and fits 64 bits; as it is if
both parts fit 64 bits, the denominator unsigned; and as a double otherwise. -/
def Fraction.meaning (fraction : Fraction) : Value :=
  if fraction.denominator = 1 ∧ -0x8000000000000000 ≤ fraction.numerator ∧
      fraction.numerator < 0x8000000000000000 then
    .int fraction.numerator
  else if -0x8000000000000000 ≤ fraction.numerator ∧ fraction.numerator < 0x8000000000000000 ∧
      0 ≤ fraction.denominator ∧ fraction.denominator < 0x10000000000000000 then
    .rational fraction
  else .float fraction.toFloat

theorem Word.int64?_eq (value : Int) :
    Word.int64? value =
      if -0x8000000000000000 ≤ value ∧ value < 0x8000000000000000 then some (Int64.ofInt value)
      else none := by
  have least : Int64.minValue.toInt = -0x8000000000000000 := by decide
  have greatest : Int64.maxValue.toInt = 0x7fffffffffffffff := by decide
  simp only [Word.int64?, least, greatest]
  congr 1
  exact propext ⟨fun bounds => ⟨bounds.1, by omega⟩, fun bounds => ⟨bounds.1, by omega⟩⟩

theorem Word.uint64?_eq (value : Int) :
    Word.uint64? value =
      if 0 ≤ value ∧ value < 0x10000000000000000 then some (UInt64.ofNat value.toNat)
      else none := by
  simp only [Word.uint64?, UInt64.size]
  rfl

namespace Fraction

variable (fraction : Fraction)

theorem meaning_of_int64? {number : Int64} (integer : fraction.int64? = some number) :
    fraction.meaning = .int number.toInt := by
  simp only [int64?, Word.int64?_eq] at integer
  split_ifs at integer with one bounds
  cases integer
  rw [meaning, if_pos ⟨one, bounds⟩, Int64.toInt_ofInt_of_le bounds.1 bounds.2]

theorem meaning_of_words64? {words : Int64 × UInt64} (noInteger : fraction.int64? = none)
    (found : fraction.words64? = some words) :
    fraction.meaning = .rational (.ofWords words.1 words.2) := by
  simp only [words64?, Word.int64?_eq, Word.uint64?_eq, Option.bind_eq_bind,
    Option.bind_eq_some_iff, Option.pure_def, Option.some.injEq] at found
  rcases found with ⟨numerator, isNumerator, denominator, isDenominator, rfl⟩
  split_ifs at isNumerator isDenominator with bounds bounds'
  cases isNumerator
  cases isDenominator
  simp only [int64?, Word.int64?_eq, bounds, and_self, if_true] at noInteger
  split_ifs at noInteger with one
  have small : fraction.denominator.toNat < UInt64.size := by
    simp only [UInt64.size]
    omega
  have denominator : (UInt64.ofNat fraction.denominator.toNat).toNat =
      fraction.denominator.toNat := UInt64.toNat_ofNat_of_lt small
  rw [meaning, if_neg (fun integer => one integer.1), if_pos ⟨bounds.1, bounds.2, bounds'⟩,
    ofWords, denominator, Int64.toInt_ofInt_of_le bounds.1 bounds.2,
    Int.toNat_of_nonneg bounds'.1]

theorem meaning_of_large (noInteger : fraction.int64? = none)
    (noWords : fraction.words64? = none) : fraction.meaning = .float fraction.toFloat := by
  simp only [int64?, Word.int64?_eq] at noInteger
  simp only [words64?, Word.int64?_eq, Word.uint64?_eq] at noWords
  unfold meaning
  split_ifs with integer words
  · simp [integer.1, integer.2] at noInteger
  · simp [words.1, words.2.1, words.2.2] at noWords
  · rfl

end Fraction

/-- The constants for the elements of enumerated types, as far as there are any. -/
abbrev Constants := TypeId → Int32 → Option TermId

/-- One place where a reader looks: how deep it lies, the value there, and whether it is an entry of
a function. -/
structure Visit where
  depth : Nat
  value : ScriptedValue
  isEntry : Bool

mutual

/-- The value that is meant by a scripted value. -/
def ScriptedValue.meaning (constants : Constants) : ScriptedValue → Option Value
  | .bool truth => some (.bool truth)
  | .rational fraction => some fraction.meaning
  | .algebraic => none
  | .bitVector bits =>
    if bits.isEmpty then some .absent
    else some (.bitVector (bits.map fun bit => if bit = 0 then 0 else 1))
  | .scalar type index => do
    let constant ← constants type index
    return .scalar ⟨constant, type, index⟩
  | .tuple items =>
    if items.isEmpty then some .absent
    else do return .tuple (← ScriptedValue.meanings constants items)
  | .mapping point =>
    if point.args.isEmpty then some .absent
    else do return .mapping (← ScriptedValue.pointMeaning constants point)
  | .function arity graph =>
    if arity = 0 then some .absent
    else do return .function (← ScriptedValue.graphMeaning constants graph)
  | .tagged _ => none
termination_by structural value => value

/-- The values that are meant by a list, if all of them mean something. -/
def ScriptedValue.meanings (constants : Constants) : List ScriptedValue → Option (List Value)
  | [] => some []
  | value :: values => do
    return (← value.meaning constants) :: (← ScriptedValue.meanings constants values)
termination_by structural values => values

/-- The mapping with the meanings of the parts. -/
def ScriptedValue.pointMeaning (constants : Constants) :
    Mapping ScriptedValue → Option (Mapping Value)
  | ⟨args, result⟩ => do
    return ⟨← ScriptedValue.meanings constants args, ← result.meaning constants⟩
termination_by structural point => point

/-- The function with the meanings of the entries written one after another. -/
def ScriptedValue.graphMeaning (constants : Constants) :
    FiniteFunction ScriptedValue → Option FunctionValue
  | ⟨default, entries⟩ => do
    let default ← default.meaning constants
    let points ← ScriptedValue.pointMeanings constants entries
    (FiniteFunction.ofMappings default points).toOption
termination_by structural graph => graph

/-- The mappings that are meant by the entries of a function, in order. -/
def ScriptedValue.pointMeanings (constants : Constants) :
    List (Mapping ScriptedValue) → Option (List (Mapping Value))
  | [] => some []
  | entry :: entries => do
    return (← ScriptedValue.pointMeaning constants entry) ::
      (← ScriptedValue.pointMeanings constants entries)
termination_by structural entries => entries

end

mutual

/-- The places where a reader of a value looks that lies at `depth`, in order. -/
def ScriptedValue.visits (depth : Nat) : ScriptedValue → List Visit
  | .tuple items => ⟨depth, .tuple items, false⟩ :: ScriptedValue.itemVisits (depth + 1) items
  | .mapping point => ⟨depth, .mapping point, false⟩ :: ScriptedValue.pointVisits (depth + 1) point
  | .function arity graph =>
    ⟨depth, .function arity graph, false⟩ ::
      if arity = 0 then [] else ScriptedValue.graphVisits (depth + 1) graph
  | value => [⟨depth, value, false⟩]
termination_by structural value => value

/-- The items of a list are looked at one after another, each with all that is below it. -/
def ScriptedValue.itemVisits (depth : Nat) : List ScriptedValue → List Visit
  | [] => []
  | item :: items => item.visits depth ++ ScriptedValue.itemVisits depth items
termination_by structural items => items

/-- Below a mapping without arguments there is nothing to look at. -/
def ScriptedValue.pointVisits (depth : Nat) : Mapping ScriptedValue → List Visit
  | ⟨args, result⟩ =>
    if args.isEmpty then [] else ScriptedValue.itemVisits depth args ++ result.visits depth
termination_by structural point => point

/-- The default of a function is looked at before its entries. -/
def ScriptedValue.graphVisits (depth : Nat) : FiniteFunction ScriptedValue → List Visit
  | ⟨default, entries⟩ => default.visits depth ++ ScriptedValue.entryVisits depth entries
termination_by structural graph => graph

/-- An entry is looked at itself, and its parts lie one level deeper. -/
def ScriptedValue.entryVisits (depth : Nat) : List (Mapping ScriptedValue) → List Visit
  | [] => []
  | entry :: entries =>
    ⟨depth, .mapping entry, true⟩ ::
      (ScriptedValue.pointVisits (depth + 1) entry ++ ScriptedValue.entryVisits depth entries)
termination_by structural entries => entries

end

mutual

/-- Whether a property holds of a value and of everything below it, the entries of functions
counting as mappings. -/
def ScriptedValue.Every (holds : ScriptedValue → Prop) : ScriptedValue → Prop
  | .tuple items => holds (.tuple items) ∧ ScriptedValue.EveryItem holds items
  | .mapping point => ScriptedValue.EveryPoint holds point
  | .function arity graph => holds (.function arity graph) ∧ ScriptedValue.EveryGraph holds graph
  | value => holds value
termination_by structural value => value

/-- Whether a property holds of the values of a list and of everything below them. -/
def ScriptedValue.EveryItem (holds : ScriptedValue → Prop) : List ScriptedValue → Prop
  | [] => True
  | item :: items => item.Every holds ∧ ScriptedValue.EveryItem holds items
termination_by structural items => items

/-- Whether a property holds of a mapping and of everything below it. -/
def ScriptedValue.EveryPoint (holds : ScriptedValue → Prop) : Mapping ScriptedValue → Prop
  | ⟨args, result⟩ =>
    holds (.mapping ⟨args, result⟩) ∧ ScriptedValue.EveryItem holds args ∧ result.Every holds
termination_by structural point => point

/-- Whether a property holds of everything below a function. -/
def ScriptedValue.EveryGraph (holds : ScriptedValue → Prop) :
    FiniteFunction ScriptedValue → Prop
  | ⟨default, entries⟩ => default.Every holds ∧ ScriptedValue.EveryEntry holds entries
termination_by structural graph => graph

/-- Whether a property holds of the entries of a function, as mappings, and of everything below
them. -/
def ScriptedValue.EveryEntry (holds : ScriptedValue → Prop) :
    List (Mapping ScriptedValue) → Prop
  | [] => True
  | entry :: entries =>
    ScriptedValue.EveryPoint holds entry ∧ ScriptedValue.EveryEntry holds entries
termination_by structural entries => entries

end

namespace ScriptedValue

/-- A list of parts that can be counted in 32 bits, and no tag that is taken for a listed kind. -/
def Fits : ScriptedValue → Prop
  | .bitVector bits => bits.length < 0x100000000
  | .tuple items => items.length < 0x100000000
  | .mapping point => point.args.length < 0x100000000
  | .tagged tag => ¬ (1 ≤ tag ∧ tag ≤ 8)
  | _ => True

/-- No fraction with a zero denominator. -/
def NonzeroDenominator : ScriptedValue → Prop
  | .rational fraction => fraction.denominator ≠ 0
  | _ => True

end ScriptedValue

namespace ScriptedSolver

/-- The constant for an element of an enumerated type: the first term that denotes it. -/
def constant? (solver : ScriptedSolver) : Constants := fun type index =>
  (solver.terms.findIdx? (·.denotes type index)).map .ofIndex

/-- The solver after a new constant for an element of a type. -/
def withConstant (solver : ScriptedSolver) (type : TypeId) (index : Int32) : ScriptedSolver :=
  { solver with terms := solver.terms.push ⟨type, some (.scalar type index)⟩ }

/-- The error in asking for the constant for an element of a type, if there is one. -/
def constantError? (solver : ScriptedSolver) (type : TypeId) (index : Int32) : Option ErrorCode :=
  match solver.type? type with
  | some (.enumeration size) =>
    if index < 0 ∨ (size.toNat : Int) ≤ index.toInt then some .invalidConstantIndex else none
  | some _ => some .scalarTypeRequired
  | none => some .invalidType

end ScriptedSolver

/-- What a reader cannot accept at a place. Whether it lies too deep comes first. -/
def Visit.offence? (limit : DepthLimit) (solver : ScriptedSolver) (visit : Visit) :
    Option Failure :=
  if limit.levels ≤ visit.depth then some (.depthLimit limit.levels)
  else
    match visit.value with
    | .algebraic => some (.notImplemented "algebraic number decoding")
    | .tagged tag => some (.internal (.unexpectedTag tag))
    | .mapping point =>
      if visit.isEntry ∧ point.args.isEmpty then some (.internal .entryWithoutArguments) else none
    | .scalar type index =>
      (solver.constantError? type index).map fun error =>
        .call Call.constant.name (ScriptedSolver.report { solver with error })
    | _ => none

/-- The first offence in a value at the root. -/
def ScriptedValue.firstOffence? (limit : DepthLimit) (solver : ScriptedSolver)
    (value : ScriptedValue) : Option Failure :=
  (value.visits 0).findSome? (Visit.offence? limit solver)

/-! ## Meanings in later states -/

/-- All constants that are known stay known. -/
def Constants.Kept (earlier later : Constants) : Prop :=
  ∀ type index constant, earlier type index = some constant → later type index = some constant

namespace ScriptedSolver

variable {earlier later : ScriptedSolver}

/-- Constants are found by their first places, which more terms do not change. -/
theorem constant?_of_prefix (terms : earlier.terms.toList <+: later.terms.toList) :
    Constants.Kept earlier.constant? later.constant? := by
  intro type index constant known
  simp only [constant?, Option.map_eq_some_iff] at known ⊢
  rcases known with ⟨place, found, names⟩
  refine ⟨place, ?_, names⟩
  rcases terms with ⟨terms, appended⟩
  have splits : later.terms = earlier.terms ++ terms.toArray := Array.ext' (by simp [appended])
  rw [splits, Array.findIdx?_append, found]
  rfl

theorem constant?_withConstant {solver : ScriptedSolver} {type : TypeId} {index : Int32}
    (unknown : solver.constant? type index = none) :
    (solver.withConstant type index).constant? type index =
      some (.ofIndex solver.terms.size) := by
  have denotes : ScriptedTerm.denotes type index ⟨type, some (.scalar type index)⟩ = true := by
    simp [ScriptedTerm.denotes]
  simp only [constant?, Option.map_eq_none_iff] at unknown
  simp only [constant?, withConstant, Array.findIdx?_push, unknown, denotes, if_true]
  rfl

theorem type?_of_prefix (types : earlier.types.toList <+: later.types.toList) {type : TypeId}
    {declared : ScriptedType} (known : earlier.type? type = some declared) :
    later.type? type = some declared := by
  simp only [type?, Option.bind_eq_bind, Option.bind_eq_some_iff] at known ⊢
  rcases known with ⟨index, place, found⟩
  rcases types with ⟨types, appended⟩
  refine ⟨index, place, ?_⟩
  rw [← Array.getElem?_toList] at found ⊢
  rw [← appended, List.getElem?_append_left (List.getElem?_eq_some_iff.mp found).1, found]

theorem constantError?_of_prefix (types : earlier.types.toList <+: later.types.toList)
    {type : TypeId} {index : Int32} (inside : earlier.constantError? type index = none) :
    later.constantError? type index = none := by
  cases known : earlier.type? type with
  | none => simp [constantError?, known] at inside
  | some declared =>
      simpa only [constantError?, known, type?_of_prefix types known] using inside

end ScriptedSolver

section Later

variable {constants constants' : Constants}

mutual

/-- A meaning does not change when more constants come to be known. -/
theorem ScriptedValue.meaning_mono (kept : constants.Kept constants') :
    ∀ (value : ScriptedValue) {meant : Value},
      value.meaning constants = some meant → value.meaning constants' = some meant
  | .bool _, _, means => means
  | .rational _, _, means => means
  | .algebraic, _, means => means
  | .bitVector _, _, means => means
  | .tagged _, _, means => means
  | .scalar type index, meant, means => by
      simp only [ScriptedValue.meaning, Option.bind_eq_bind, Option.bind_eq_some_iff] at means ⊢
      rcases means with ⟨constant, found, means⟩
      exact ⟨constant, kept type index constant found, means⟩
  | .tuple items, meant, means => by
      simp only [ScriptedValue.meaning] at means ⊢
      by_cases empty : items.isEmpty = true
      · simpa only [empty, if_true] using means
      · simp only [empty, Bool.false_eq_true, if_false, Option.bind_eq_bind,
          Option.bind_eq_some_iff] at means ⊢
        rcases means with ⟨parts, found, means⟩
        exact ⟨parts, ScriptedValue.meanings_mono kept items found, means⟩
  | .mapping point, meant, means => by
      simp only [ScriptedValue.meaning] at means ⊢
      by_cases empty : point.args.isEmpty = true
      · simpa only [empty, if_true] using means
      · simp only [empty, Bool.false_eq_true, if_false, Option.bind_eq_bind,
          Option.bind_eq_some_iff] at means ⊢
        rcases means with ⟨part, found, means⟩
        exact ⟨part, ScriptedValue.pointMeaning_mono kept point found, means⟩
  | .function arity graph, meant, means => by
      simp only [ScriptedValue.meaning] at means ⊢
      by_cases empty : arity = 0
      · simpa only [empty, if_true] using means
      · simp only [empty, if_false, Option.bind_eq_bind, Option.bind_eq_some_iff] at means ⊢
        rcases means with ⟨part, found, means⟩
        exact ⟨part, ScriptedValue.graphMeaning_mono kept graph found, means⟩
termination_by structural value => value

theorem ScriptedValue.meanings_mono (kept : constants.Kept constants') :
    ∀ (values : List ScriptedValue) {meant : List Value},
    ScriptedValue.meanings constants values = some meant →
      ScriptedValue.meanings constants' values = some meant
  | [], _, means => means
  | value :: values, meant, means => by
      simp only [ScriptedValue.meanings, Option.bind_eq_bind, Option.bind_eq_some_iff] at means ⊢
      rcases means with ⟨first, foundFirst, others, foundOthers, means⟩
      exact ⟨first, ScriptedValue.meaning_mono kept value foundFirst, others,
        ScriptedValue.meanings_mono kept values foundOthers, means⟩
termination_by structural values => values

theorem ScriptedValue.pointMeaning_mono (kept : constants.Kept constants') :
    ∀ (point : Mapping ScriptedValue) {meant : Mapping Value},
    ScriptedValue.pointMeaning constants point = some meant →
      ScriptedValue.pointMeaning constants' point = some meant
  | ⟨args, result⟩, meant, means => by
      simp only [ScriptedValue.pointMeaning, Option.bind_eq_bind, Option.bind_eq_some_iff]
        at means ⊢
      rcases means with ⟨parts, foundArgs, last, foundResult, means⟩
      exact ⟨parts, ScriptedValue.meanings_mono kept args foundArgs, last,
        ScriptedValue.meaning_mono kept result foundResult, means⟩
termination_by structural point => point

theorem ScriptedValue.graphMeaning_mono (kept : constants.Kept constants') :
    ∀ (graph : FiniteFunction ScriptedValue) {meant : FunctionValue},
    ScriptedValue.graphMeaning constants graph = some meant →
      ScriptedValue.graphMeaning constants' graph = some meant
  | ⟨default, entries⟩, meant, means => by
      simp only [ScriptedValue.graphMeaning, Option.bind_eq_bind, Option.bind_eq_some_iff]
        at means ⊢
      rcases means with ⟨first, foundDefault, points, foundPoints, means⟩
      exact ⟨first, ScriptedValue.meaning_mono kept default foundDefault, points,
        ScriptedValue.pointMeanings_mono kept entries foundPoints, means⟩
termination_by structural graph => graph

theorem ScriptedValue.pointMeanings_mono (kept : constants.Kept constants') :
    ∀ (entries : List (Mapping ScriptedValue)) {meant : List (Mapping Value)},
    ScriptedValue.pointMeanings constants entries = some meant →
      ScriptedValue.pointMeanings constants' entries = some meant
  | [], _, means => means
  | entry :: entries, meant, means => by
      simp only [ScriptedValue.pointMeanings, Option.bind_eq_bind, Option.bind_eq_some_iff]
        at means ⊢
      rcases means with ⟨first, foundFirst, others, foundOthers, means⟩
      exact ⟨first, ScriptedValue.pointMeaning_mono kept entry foundFirst, others,
        ScriptedValue.pointMeanings_mono kept entries foundOthers, means⟩
termination_by structural entries => entries

end

end Later

/-! ## Meanings without zero denominators -/

theorem Fraction.meaning_isProper {fraction : Fraction} (nonzero : fraction.denominator ≠ 0) :
    fraction.meaning.IsProper := by
  unfold Fraction.meaning
  split_ifs
  · simp only [Value.IsProper]
  · simpa only [Value.IsProper] using nonzero
  · simp only [Value.IsProper]

section Proper

variable {constants : Constants}

mutual

/-- The meaning of a value without zero denominators has none. -/
theorem ScriptedValue.meaning_isProper :
    ∀ (value : ScriptedValue) {meant : Value}, value.meaning constants = some meant →
      value.Every ScriptedValue.NonzeroDenominator → meant.IsProper
  | .bool truth, meant, means, _ => by
      cases means
      simp only [Value.IsProper]
  | .rational fraction, meant, means, nonzero => by
      cases means
      simp only [ScriptedValue.Every, ScriptedValue.NonzeroDenominator] at nonzero
      exact Fraction.meaning_isProper nonzero
  | .algebraic, meant, means, _ => by cases means
  | .bitVector bits, meant, means, _ => by
      simp only [ScriptedValue.meaning] at means
      split_ifs at means <;> cases means <;> simp only [Value.IsProper]
  | .tagged tag, meant, means, _ => by cases means
  | .scalar type index, meant, means, _ => by
      simp only [ScriptedValue.meaning, Option.bind_eq_bind, Option.bind_eq_some_iff] at means
      rcases means with ⟨constant, _, means⟩
      cases means
      simp only [Value.IsProper]
  | .tuple items, meant, means, nonzero => by
      simp only [ScriptedValue.Every] at nonzero
      simp only [ScriptedValue.meaning] at means
      split_ifs at means
      · cases means
        simp only [Value.IsProper]
      · simp only [Option.bind_eq_bind, Option.bind_eq_some_iff] at means
        rcases means with ⟨parts, found, means⟩
        cases means
        simp only [Value.IsProper]
        exact ScriptedValue.meanings_areProper items found nonzero.2
  | .mapping point, meant, means, nonzero => by
      simp only [ScriptedValue.Every] at nonzero
      simp only [ScriptedValue.meaning] at means
      split_ifs at means
      · cases means
        simp only [Value.IsProper]
      · simp only [Option.bind_eq_bind, Option.bind_eq_some_iff] at means
        rcases means with ⟨part, found, means⟩
        cases means
        simp only [Value.IsProper]
        exact ScriptedValue.pointMeaning_isProper point found nonzero
  | .function arity graph, meant, means, nonzero => by
      simp only [ScriptedValue.Every] at nonzero
      simp only [ScriptedValue.meaning] at means
      split_ifs at means
      · cases means
        simp only [Value.IsProper]
      · simp only [Option.bind_eq_bind, Option.bind_eq_some_iff] at means
        rcases means with ⟨part, found, means⟩
        cases means
        simp only [Value.IsProper]
        exact ScriptedValue.graphMeaning_isProper graph found nonzero.2
termination_by structural value => value

theorem ScriptedValue.meanings_areProper :
    ∀ (values : List ScriptedValue) {meant : List Value},
      ScriptedValue.meanings constants values = some meant →
        ScriptedValue.EveryItem ScriptedValue.NonzeroDenominator values → Value.AllProper meant
  | [], meant, means, _ => by
      cases means
      simp only [Value.AllProper]
  | value :: values, meant, means, nonzero => by
      simp only [ScriptedValue.EveryItem] at nonzero
      simp only [ScriptedValue.meanings, Option.bind_eq_bind, Option.bind_eq_some_iff] at means
      rcases means with ⟨first, foundFirst, others, foundOthers, means⟩
      cases means
      simp only [Value.AllProper]
      exact ⟨ScriptedValue.meaning_isProper value foundFirst nonzero.1,
        ScriptedValue.meanings_areProper values foundOthers nonzero.2⟩
termination_by structural values => values

theorem ScriptedValue.pointMeaning_isProper :
    ∀ (point : Mapping ScriptedValue) {meant : Mapping Value},
      ScriptedValue.pointMeaning constants point = some meant →
        ScriptedValue.EveryPoint ScriptedValue.NonzeroDenominator point →
          Value.IsProperPoint meant
  | ⟨args, result⟩, meant, means, nonzero => by
      simp only [ScriptedValue.EveryPoint] at nonzero
      simp only [ScriptedValue.pointMeaning, Option.bind_eq_bind, Option.bind_eq_some_iff] at means
      rcases means with ⟨parts, foundArgs, last, foundResult, means⟩
      cases means
      simp only [Value.IsProperPoint]
      exact ⟨ScriptedValue.meanings_areProper args foundArgs nonzero.2.1,
        ScriptedValue.meaning_isProper result foundResult nonzero.2.2⟩
termination_by structural point => point

theorem ScriptedValue.graphMeaning_isProper :
    ∀ (graph : FiniteFunction ScriptedValue) {meant : FunctionValue},
      ScriptedValue.graphMeaning constants graph = some meant →
        ScriptedValue.EveryGraph ScriptedValue.NonzeroDenominator graph →
          Value.IsProperFunction meant
  | ⟨default, entries⟩, meant, means, nonzero => by
      simp only [ScriptedValue.EveryGraph] at nonzero
      simp only [ScriptedValue.graphMeaning, Option.bind_eq_bind, Option.bind_eq_some_iff] at means
      rcases means with ⟨first, foundDefault, points, foundPoints, means⟩
      rcases FiniteFunction.ofMappings_isOk
          (ScriptedValue.meaning_isProper default foundDefault nonzero.1)
          (ScriptedValue.pointMeanings_areProper entries foundPoints nonzero.2) with
        ⟨function, adds, functionProper⟩
      rw [adds] at means
      cases means
      exact functionProper
termination_by structural graph => graph

theorem ScriptedValue.pointMeanings_areProper :
    ∀ (entries : List (Mapping ScriptedValue)) {meant : List (Mapping Value)},
      ScriptedValue.pointMeanings constants entries = some meant →
        ScriptedValue.EveryEntry ScriptedValue.NonzeroDenominator entries →
          Value.AllPointsProper meant
  | [], meant, means, _ => by
      cases means
      simp only [Value.AllPointsProper]
  | entry :: entries, meant, means, nonzero => by
      simp only [ScriptedValue.EveryEntry] at nonzero
      simp only [ScriptedValue.pointMeanings, Option.bind_eq_bind, Option.bind_eq_some_iff]
        at means
      rcases means with ⟨first, foundFirst, others, foundOthers, means⟩
      cases means
      simp only [Value.AllPointsProper]
      exact ⟨ScriptedValue.pointMeaning_isProper entry foundFirst nonzero.1,
        ScriptedValue.pointMeanings_areProper entries foundOthers nonzero.2⟩
termination_by structural entries => entries

end

end Proper

end SmtModel
