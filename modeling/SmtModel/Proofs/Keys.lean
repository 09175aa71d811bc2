import Mathlib
import SmtModel.Json.Reading
import SmtModel.Value.Json
import SmtModel.Proofs.Comparison
import SmtModel.Proofs.WellFormed

/-!
# Keys of functions

The entries of a function are meant to have different keys. Insertion sees to it: a point
at a key that is there replaces the result, so that insertion neither makes two entries
for one key nor mends a function that has them (`FiniteFunction.insert_distinctKeys_iff`).
A new function has no keys, and a function that was read from a solver was made by
insertions. A text that spells out a function may name a key twice, though, and is read
as it stands. Of all the ways to come by a function this is the only one that does not
keep its keys apart (`FiniteFunction.obtained_distinctKeys_iff`).
-/

namespace SmtModel

/-! ## Parts of values -/

/-- A value itself, or something below it. -/
inductive Value.Within (part : Value) : Value → Prop where
  | here : Value.Within part part
  | deeper {value child : Value} (isPart : child ∈ value.parts)
      (within : Value.Within part child) : Value.Within part value

theorem Value.Every.within {holds : Value → Prop} {part value : Value}
    (every : value.Every holds) (within : part.Within value) : holds part := by
  induction within with
  | here =>
      cases every with
      | node here _ => exact here
  | deeper isPart _ ih =>
      cases every with
      | node _ below => exact ih (below _ isPart)

/-- A value that a text spells out, or a function or a point that it spells out by itself. -/
inductive Value.Spelled (text : String) : Value → Prop where
  | value {json : Json} {value : Value} (tree : Json.read? text = some json)
      (spells : Value.ofJson? Json.nestingLimit json = some value) : Value.Spelled text value
  | mapping {json : Json} {point : Mapping Value} (tree : Json.read? text = some json)
      (spells : Value.mappingOfJson? Json.nestingLimit json = some point) :
      Value.Spelled text (.mapping point)
  | function {json : Json} {graph : FunctionValue} (tree : Json.read? text = some json)
      (spells : Value.functionOfJson? Json.nestingLimit json = some graph) :
      Value.Spelled text (.function graph)

namespace FiniteFunction

variable {function added start : FunctionValue} {point : Mapping Value} {replaced : Option Value}

/-- The key of every earlier entry differs from that of every later one. -/
def DistinctKeys (function : FunctionValue) : Prop :=
  function.entries.Pairwise fun earlier later =>
    Value.listEquals earlier.args later.args = .ok false

theorem constant_distinctKeys (default : Value) : (constant default).DistinctKeys :=
  List.Pairwise.nil

/-! ## Insertion -/

/-- Insertion does not change whether keys are distinct. -/
theorem insert_distinctKeys_iff (inserts : function.insert point = .ok (replaced, added)) :
    added.DistinctKeys ↔ function.DistinctKeys := by
  rcases function with ⟨default, entries⟩
  simp only [FiniteFunction.insert] at inserts
  cases writes : write point entries with
  | error division => simp [writes, bind, Except.bind] at inserts
  | ok outcome =>
      rcases outcome with ⟨replaced', written⟩
      simp only [writes] at inserts
      cases inserts
      rcases write_cases writes with
        ⟨before, old, after, rfl, rfl, -, -, -⟩ | ⟨rfl, -, differ⟩
      · -- only a result changed, and keys are all that is compared
        simp only [DistinctKeys, List.pairwise_append, List.pairwise_cons, List.forall_mem_cons]
      · simp only [DistinctKeys, List.pairwise_append, List.pairwise_singleton, true_and,
          List.mem_singleton, forall_eq]
        exact and_iff_left differ

/-- A function after insertions, one after another. An insertion that meets an undefined
comparison leaves the function as it was. -/
inductive Inserted (start : FunctionValue) : FunctionValue → Prop where
  | start : Inserted start start
  | insert {function added : FunctionValue} {point : Mapping Value} {replaced : Option Value}
      (inserted : Inserted start function)
      (inserts : function.insert point = .ok (replaced, added)) : Inserted start added

namespace Inserted

theorem distinctKeys_iff (inserted : Inserted start function) :
    function.DistinctKeys ↔ start.DistinctKeys := by
  induction inserted with
  | start => exact Iff.rfl
  | insert _ inserts ih => exact (insert_distinctKeys_iff inserts).trans ih

theorem insertPoints (points : List (Mapping Value)) (inserted : Inserted start function)
    (inserts : points.foldlM insertPoint function = .ok added) : Inserted start added := by
  induction points generalizing function with
  | nil =>
      cases inserts
      exact inserted
  | cons point points ih =>
      rw [List.foldlM_cons] at inserts
      cases first : function.insert point with
      | error division => simp [insertPoint, first, bind, Except.bind] at inserts
      | ok outcome =>
          rcases outcome with ⟨replaced, next⟩
          simp only [insertPoint, first, bind, Except.bind, pure, Except.pure] at inserts
          exact ih (inserted.insert first) inserts

theorem ofMappings {default : Value} {points : List (Mapping Value)}
    (made : FiniteFunction.ofMappings default points = .ok function) :
    Inserted (FiniteFunction.constant default) function := by
  rw [ofMappings_eq] at made
  exact insertPoints points .start made

end Inserted

/-! ## Functions however obtained -/

/-- Where a function comes from, and whether that is a text. -/
inductive Origin : (fromText : Bool) → FunctionValue → Prop where
  | constant (default : Value) : Origin false (constant default)
  | ofMappings {default : Value} {points : List (Mapping Value)} {function : FunctionValue}
      (made : ofMappings default points = .ok function) : Origin false function
  | read {σ : Type} {solver : Solver σ} {model : Model} {term : TermId} {before after : Traced σ}
      {value : Value} {function : FunctionValue}
      (answered : model.ask solver (.value term) before = .ok value after)
      (within : (Value.function function).Within value) : Origin false function
  | text {text : String} {value : Value} {function : FunctionValue}
      (spelled : Value.Spelled text value)
      (within : (Value.function function).Within value) : Origin true function

theorem Origin.distinctKeys {fromText : Bool} (origin : Origin fromText function)
    (noText : fromText = false) : function.DistinctKeys := by
  cases origin with
  | constant default => exact constant_distinctKeys default
  | ofMappings made => exact (Inserted.ofMappings made).distinctKeys_iff.mpr List.Pairwise.nil
  | @read _ solver model term before _ _ _ answered within =>
      have respects : Respects solver (fun _ => True) (fun _ => True)
          (Request.IsOfQuery model.id) := .trivially solver _
      have ensures := Model.read_ensures respects trivial term before trivial
      change model.read solver term before = _ at answered
      rw [answered] at ensures
      cases ensures with
      | result _ formed =>
          have sound : (Value.function function).IsSound := formed.sound.within within
          exact sound
  | text spelled within => cases noText

/-- Keys are distinct in a function that was obtained in any way, by whatever insertions, unless it
goes back to a text that names a key twice. -/
theorem obtained_distinctKeys_iff {fromText : Bool} (origin : Origin fromText start)
    (inserted : Inserted start function) :
    function.DistinctKeys ↔ (fromText = true → start.DistinctKeys) := by
  rw [inserted.distinctKeys_iff]
  cases fromText with
  | false => simpa using origin.distinctKeys rfl
  | true => simp

/-- One half is written three times as a key, each time by another fraction. -/
theorem obtained_distinctKeys_iff_halves :
    ∃ start function,
      ofMappings .absent [⟨[.rational ⟨1, 2⟩], .bool true⟩, ⟨[.rational ⟨2, 4⟩], .bool false⟩] =
        .ok start ∧
      start.insert ⟨[.rational ⟨3, 6⟩], .absent⟩ = .ok (some (.bool false), function) ∧
      function.size = 1 ∧ function.DistinctKeys := by
  let start : FunctionValue := ⟨.absent, [⟨[.rational ⟨1, 2⟩], .bool false⟩]⟩
  have made : ofMappings .absent
      [⟨[.rational ⟨1, 2⟩], .bool true⟩, ⟨[.rational ⟨2, 4⟩], .bool false⟩] = .ok start := rfl
  have inserts : start.insert ⟨[.rational ⟨3, 6⟩], .absent⟩ =
      .ok (some (.bool false), ⟨.absent, [⟨[.rational ⟨1, 2⟩], .absent⟩]⟩) := rfl
  refine ⟨start, _, made, inserts, rfl, ?_⟩
  exact (obtained_distinctKeys_iff (.ofMappings made) (.insert .start inserts)).mpr nofun

/-- A text with two points at one key. -/
def repeatingText : String :=
  "\x7b\"default\":\"Absent\",\"entries\":[" ++
    "\x7b\"args\":[\"Absent\"],\"result\":\x7b\"Bool\":true\x7d\x7d," ++
    "\x7b\"args\":[\"Absent\"],\"result\":\x7b\"Bool\":false\x7d\x7d]\x7d"

/-- Both points are kept. The earlier one is found, where insertion would leave the later one. -/
theorem text_repeats_key :
    ∃ function, Value.Spelled repeatingText (.function function) ∧ ¬ function.DistinctKeys ∧
      function.get? [.absent] = .ok (some (.bool true)) ∧
      ∃ rebuilt, ofMappings function.default function.entries = .ok rebuilt ∧
        rebuilt.get? [.absent] = .ok (some (.bool false)) := by
  have tree : Json.read? repeatingText =
      some (.ofFields [("default", .ofString "Absent"), ("entries", .array [
        .ofFields [("args", .array [.ofString "Absent"]),
          ("result", .ofFields [("Bool", .bool true)])],
        .ofFields [("args", .array [.ofString "Absent"]),
          ("result", .ofFields [("Bool", .bool false)])]])]) := by
    cbv
  refine ⟨⟨.absent, [⟨[.absent], .bool true⟩, ⟨[.absent], .bool false⟩]⟩, .function tree rfl, ?_,
    rfl, _, rfl, rfl⟩
  simp [DistinctKeys, Value.listEquals, Value.allEqual, Value.equals, bind, Except.bind]

end FiniteFunction

end SmtModel
