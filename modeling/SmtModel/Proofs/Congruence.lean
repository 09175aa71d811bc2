import SmtModel.Proofs.LastWrite

/-!
# Equality as a congruence

A value is equal to itself unless there is a NaN in it, at whatever depth
(`Value.same_self_iff`). So equality, which is symmetric and transitive, is an equivalence
among the values without NaNs, and there it is also a congruence: equal values may stand
for each other at any place in a value (`Value.Same.fill`), and equal functions have equal
results at equal arguments (`FiniteFunction.apply_congr`). A comparison is defined where no
fraction has a zero denominator; `Value.equals_laws` has all of this together.
-/

namespace SmtModel

open List (Forall₂)

/-! ## Values that are equal to themselves -/

theorem Double.beq_self_iff {number : Float} :
    (number == number) = true ↔ number.isNaN = false := by
  rw [beq_iff, unpacked_beq_iff]
  change _ ↔ number.toModel.unpack.isNaN = false
  cases number.toModel.unpack <;> simp [Float.Model.UnpackedFloat.isNaN]

namespace Value

/-- A value that is not a NaN, whatever lies below it. -/
def IsNoNaN : Value → Prop
  | .float number => number.isNaN = false
  | _ => True

theorem agreesAtTop_self_iff {value : Value} : AgreesAtTop value value ↔ value.IsNoNaN := by
  cases value with
  | float number =>
      constructor
      · rintro ⟨⟩
        exact Double.beq_self_iff.mp ‹_›
      · exact fun noNaN => .float (Double.beq_self_iff.mpr noNaN)
  | rational fraction =>
      exact iff_of_true (.rational (Fraction.equals_iff.mpr (Or.inl rfl))) trivial
  | _ => exact iff_of_true (by constructor) trivial

theorem same_self_iff (value : Value) : Same value value ↔ value.Every IsNoNaN := by
  induction value using induction_on_parts with
  | step value ih =>
      rw [same_iff, agreesAtTop_self_iff, List.forall₂_same]
      constructor
      · rintro ⟨here, below⟩
        exact .node here fun part isPart => (ih part isPart).mp (below part isPart)
      · rintro ⟨here, below⟩
        exact ⟨here, fun part isPart => (ih part isPart).mpr (below part isPart)⟩

theorem proper_comparisons {left right : Value} (leftProper : left.IsProper)
    (rightProper : right.IsProper) :
    ∃ same, left.equals right = .ok same ∧ right.equals left = .ok same := by
  rcases equals_isOk left right leftProper rightProper with ⟨same, compared⟩
  rcases equals_isOk right left rightProper leftProper with ⟨same', compared'⟩
  have symmetric : same = true ↔ same' = true := by
    constructor
    · rintro rfl
      exact Except.ok.inj (compared'.symm.trans (Same.symm compared))
    · rintro rfl
      exact Except.ok.inj (compared.symm.trans (Same.symm compared'))
  rw [← Bool.eq_iff_iff.mpr symmetric] at compared'
  exact ⟨same, compared, compared'⟩

/-! ## Places in values -/

/-- A place in a mapping, by what stands around it. -/
inductive PointFrame where
  | inArgs (before after : List Value) (result : Value)
  | asResult (args : List Value)

/-- A place right below a value, by what stands around it. -/
inductive Frame where
  | inItems (before after : List Value)
  | inMapping (place : PointFrame)
  | asDefault (entries : List (Mapping Value))
  | inEntry (default : Value) (before : List (Mapping Value)) (place : PointFrame)
      (after : List (Mapping Value))

/-- The mapping with a value in the place. -/
def PointFrame.fill : PointFrame → Value → Mapping Value
  | .inArgs before after result, value => ⟨before ++ value :: after, result⟩
  | .asResult args, value => ⟨args, value⟩

/-- The value with another one in the place right below it. -/
def Frame.fill : Frame → Value → Value
  | .inItems before after, value => .tuple (before ++ value :: after)
  | .inMapping place, value => .mapping (place.fill value)
  | .asDefault entries, value => .function ⟨value, entries⟩
  | .inEntry default before place after, value =>
    .function ⟨default, before ++ place.fill value :: after⟩

/-- Puts a value in a place at any depth, which is given from the top down. -/
def fill : List Frame → Value → Value
  | [], value => value
  | frame :: frames, value => frame.fill (fill frames value)

theorem forall₂_around {α : Type} {related : α → α → Prop} {before after : List α} {old new : α}
    (replaced : related old old → related old new)
    (self : Forall₂ related (before ++ old :: after) (before ++ old :: after)) :
    Forall₂ related (before ++ old :: after) (before ++ new :: after) := by
  rw [List.forall₂_same, List.forall_mem_append, List.forall_mem_cons] at self
  rcases self with ⟨selfBefore, selfOld, selfAfter⟩
  exact List.rel_append (List.forall₂_same.mpr selfBefore)
    (.cons (replaced selfOld) (List.forall₂_same.mpr selfAfter))

section Replaced

variable {old new : Value} (replaced : Same old old → Same old new)

include replaced

theorem PointFrame.same_fill (place : PointFrame)
    (self : mappingEquals (place.fill old) (place.fill old) = .ok true) :
    mappingEquals (place.fill old) (place.fill new) = .ok true := by
  rw [mappingEquals_iff] at self ⊢
  cases place with
  | inArgs before after result => exact ⟨forall₂_around replaced self.1, self.2⟩
  | asResult args => exact ⟨self.1, replaced self.2⟩

/-- What stands around a place stays as it is, and is equal to itself. -/
theorem Frame.same_fill (frame : Frame) (self : Same (frame.fill old) (frame.fill old)) :
    Same (frame.fill old) (frame.fill new) := by
  cases frame with
  | inItems before after =>
      exact listEquals_iff.mpr (forall₂_around replaced (listEquals_iff.mp self))
  | inMapping place => exact place.same_fill replaced self
  | asDefault entries =>
      have self := functionEquals_iff.mp self
      exact functionEquals_iff.mpr ⟨replaced self.1, self.2⟩
  | inEntry default before place after =>
      have self := functionEquals_iff.mp self
      exact functionEquals_iff.mpr ⟨self.1, forall₂_around (place.same_fill replaced) self.2⟩

end Replaced

theorem Same.fill {old new : Value} (same : Same old new) (frames : List Frame)
    (noNaN : (Value.fill frames old).Every IsNoNaN) :
    Same (Value.fill frames old) (Value.fill frames new) := by
  induction frames with
  | nil => exact same
  | cons frame frames ih =>
      have self := (same_self_iff _).mpr noNaN
      exact frame.same_fill (fun selfBelow => ih ((same_self_iff _).mp selfBelow)) self

end Value

/-! ## Functions and arguments -/

namespace FiniteFunction

open Value (Same sameKey)

variable {function function' : FunctionValue} {args args' : List Value}

theorem properKeys_of_proper (proper : Value.IsProperFunction function) :
    ProperKeys function.entries := by
  rcases function with ⟨default, entries⟩
  rcases proper with ⟨-, proper⟩
  induction entries with
  | nil => exact nofun
  | cons entry entries ih =>
      rcases entry with ⟨args, result⟩
      rcases proper with ⟨⟨argsProper, -⟩, proper⟩
      exact List.forall_mem_cons.mpr ⟨argsProper, ih proper⟩

theorem apply_eq (keys : ProperKeys function.entries) (argsProper : Value.AllProper args) :
    function.apply args = .ok ((found function.entries args).getD function.default) := by
  rw [apply, get?, lookup_eq keys argsProper]
  rfl

/-- Equal entries are found alike, with results that are equal. -/
theorem found_congr {entries entries' : List (Mapping Value)} {default default' : Value}
    (sameEntries : Forall₂ (fun left right => Value.mappingEquals left right = .ok true)
      entries entries')
    (sameDefault : Same default default') (sameArgs : sameKey args args' = true) :
    Same ((found entries args).getD default) ((found entries' args').getD default') := by
  induction sameEntries with
  | nil => exact sameDefault
  | @cons entry entry' entries entries' sameEntry _ ih =>
      rcases Value.mappingEquals_iff.mp sameEntry with ⟨sameKeys, sameResults⟩
      have sameFound : sameKey entry.args args = sameKey entry'.args args' := by
        rw [Value.sameKey_congr (Value.sameKey_iff.mpr sameKeys), Value.sameKey_comm,
          Value.sameKey_congr sameArgs, Value.sameKey_comm]
      rw [found_cons, found_cons, sameFound]
      split
      · exact sameResults
      · exact ih

theorem apply_congr (proper : Value.IsProperFunction function)
    (proper' : Value.IsProperFunction function') (argsProper : Value.AllProper args)
    (argsProper' : Value.AllProper args')
    (same : Value.functionEquals function function' = .ok true)
    (sameArgs : Value.listEquals args args' = .ok true) :
    ∃ result result', function.apply args = .ok result ∧ function'.apply args' = .ok result' ∧
      Same result result' := by
  rcases Value.functionEquals_iff.mp same with ⟨sameDefault, sameEntries⟩
  exact ⟨_, _, apply_eq (properKeys_of_proper proper) argsProper,
    apply_eq (properKeys_of_proper proper') argsProper',
    found_congr sameEntries sameDefault (sameKey_of_listEquals sameArgs)⟩

end FiniteFunction

/-! ## The laws -/

namespace Value

/-- Where no fraction has a zero denominator, comparisons are defined and symmetric. Equality is
transitive, a value is equal to itself if and only if there is no NaN in it, and among such values an
equal one may be put in any place. Equal functions have equal results at equal arguments. -/
theorem equality_laws :
    (∀ left right : Value, left.IsProper → right.IsProper →
      ∃ same, left.equals right = .ok same ∧ right.equals left = .ok same) ∧
    (∀ left middle right : Value, left.equals middle = .ok true → middle.equals right = .ok true →
      left.equals right = .ok true) ∧
    (∀ value : Value, value.equals value = .ok true ↔ value.Every IsNoNaN) ∧
    (∀ (frames : List Frame) (old new : Value), (fill frames old).Every IsNoNaN →
      old.equals new = .ok true → (fill frames old).equals (fill frames new) = .ok true) ∧
    ∀ (function function' : FunctionValue) (args args' : List Value),
      IsProperFunction function → IsProperFunction function' → AllProper args → AllProper args' →
      functionEquals function function' = .ok true → listEquals args args' = .ok true →
      ∃ result result', function.apply args = .ok result ∧ function'.apply args' = .ok result' ∧
        result.equals result' = .ok true := by
  refine ⟨?_, ?_, same_self_iff, ?_, ?_⟩
  · intro left right leftProper rightProper
    exact proper_comparisons leftProper rightProper
  · intro left middle right first second
    exact Same.trans first second
  · intro frames old new noNaN same
    exact Same.fill same frames noNaN
  · intro function function' args args' proper proper' argsProper argsProper' same sameArgs
    exact FiniteFunction.apply_congr proper proper' argsProper argsProper' same sameArgs

/-- One half that is written in two ways, with negative denominators, is put as an argument into a
function below a tuple, and is looked up as it is not written. A NaN is not equal to itself. -/
theorem equality_laws_halves :
    (∃ same, (rational ⟨1, -2⟩).equals (rational ⟨2, -4⟩) = .ok same ∧
      (rational ⟨2, -4⟩).equals (rational ⟨1, -2⟩) = .ok same) ∧
    (tuple [.absent, function ⟨.float 0.5, [⟨[rational ⟨1, -2⟩], .bool true⟩]⟩]).equals
      (tuple [.absent, function ⟨.float 0.5, [⟨[rational ⟨2, -4⟩], .bool true⟩]⟩]) = .ok true ∧
    (∃ result result',
      FiniteFunction.apply ⟨.absent, [⟨[rational ⟨1, -2⟩], .int 3⟩]⟩ [rational ⟨2, -4⟩] =
          .ok result ∧
        FiniteFunction.apply ⟨.absent, [⟨[rational ⟨2, -4⟩], .int 3⟩]⟩ [rational ⟨1, -2⟩] =
          .ok result' ∧
        result.equals result' = .ok true) ∧
    ¬ (tuple [.float (0.0 / 0.0)]).Every IsNoNaN := by
  rcases equality_laws with ⟨defined, -, self, fills, applies⟩
  have proper (numerator denominator : Int) (nonzero : denominator ≠ 0) :
      AllProper [rational ⟨numerator, denominator⟩] := ⟨nonzero, trivial⟩
  have properFunction (numerator denominator : Int) (nonzero : denominator ≠ 0) :
      IsProperFunction ⟨.absent, [⟨[rational ⟨numerator, denominator⟩], .int 3⟩]⟩ :=
    ⟨trivial, ⟨⟨proper _ _ nonzero, trivial⟩, trivial⟩⟩
  let frames : List Frame :=
    [.inItems [.absent] [], .inEntry (.float 0.5) [] (.inArgs [] [] (.bool true)) []]
  refine ⟨defined _ _ (by simp [IsProper]) (by simp [IsProper]), ?_, ?_, ?_⟩
  · exact fills frames (rational ⟨1, -2⟩) (rational ⟨2, -4⟩) ((self _).mp (by rfl)) rfl
  · exact applies _ _ _ _ (properFunction 1 (-2) (by decide)) (properFunction 2 (-4) (by decide))
      (proper 2 (-4) (by decide)) (proper 1 (-2) (by decide)) rfl rfl
  · intro noNaN
    have same := (self _).mpr noNaN
    cases same

end Value

end SmtModel
