import Mathlib
import SmtModel.Proofs.WellFormed

/-!
# Equality as a partial equivalence

Equality of values is numeric in the leaves: fractions are equal that are written
differently, positive zero equals negative zero, and a NaN does not equal itself. So it is
no equivalence, but a partial one. Two values are equal if they agree at the top and have
equal parts, part by part (`Value.same_iff`), and that is symmetric and transitive if it
is for the leaves (`Value.Same.symm`, `Value.Same.trans`).

A comparison that comes out equal has compared everything, and was defined. Nothing is
said here about denominators being other than zero.
-/

namespace SmtModel

open List (Forall₂)

/-! ## Leaves -/

namespace Fraction

variable {left middle right : Fraction}

theorem equals_iff :
    left.equals right = .ok true ↔ left = right ∨ left.numerator = 0 ∧ right.numerator = 0 ∨
      left.denominator ≠ 0 ∧ right.denominator ≠ 0 ∧
        left.numerator * right.denominator = right.numerator * left.denominator := by
  rcases left with ⟨a, b⟩
  rcases right with ⟨c, d⟩
  by_cases nonzero : b ≠ 0 ∧ d ≠ 0
  · rw [equals_of_ne_zero nonzero.1 nonzero.2]
    simp only [Except.ok.injEq, decide_eq_true_eq, mk.injEq, ne_eq, nonzero.1, nonzero.2,
      not_false_eq_true, true_and]
    constructor
    · exact fun same => Or.inr (Or.inr same)
    · rintro (⟨rfl, rfl⟩ | ⟨rfl, rfl⟩ | same)
      · rfl
      · simp
      · exact same
  · have noCross : ¬ (b ≠ 0 ∧ d ≠ 0 ∧ a * d = c * b) := fun cross => nonzero ⟨cross.1, cross.2.1⟩
    have someZero : b = 0 ∨ d = 0 := by omega
    simp only [equals, noCross, or_false, mk.injEq, someZero, if_true]
    split_ifs with denominators numerators
    · simp only [Except.ok.injEq, decide_eq_true_eq]
      omega
    · simp only [Except.ok.injEq, decide_eq_true_eq]
      omega
    · simp only [false_iff]
      omega

theorem equals_symm (same : left.equals right = .ok true) : right.equals left = .ok true := by
  rw [equals_iff] at same ⊢
  rcases same with rfl | zero | ⟨leftNonzero, rightNonzero, cross⟩
  · exact Or.inl rfl
  · exact Or.inr (Or.inl zero.symm)
  · exact Or.inr (Or.inr ⟨rightNonzero, leftNonzero, cross.symm⟩)

theorem equals_trans (first : left.equals middle = .ok true)
    (second : middle.equals right = .ok true) : left.equals right = .ok true := by
  rw [equals_iff] at first second ⊢
  rcases first with rfl | first | ⟨leftNonzero, middleNonzero, first⟩
  · exact second
  · rcases second with rfl | second | ⟨middleNonzero, -, second⟩
    · exact Or.inr (Or.inl first)
    · exact Or.inr (Or.inl ⟨first.1, second.2⟩)
    · rw [first.2, Int.zero_mul] at second
      have zero := (Int.mul_eq_zero.mp second.symm).resolve_right middleNonzero
      exact Or.inr (Or.inl ⟨first.1, zero⟩)
  · rcases second with rfl | second | ⟨-, rightNonzero, second⟩
    · exact Or.inr (Or.inr ⟨leftNonzero, middleNonzero, first⟩)
    · rw [second.1, Int.zero_mul] at first
      have zero := (Int.mul_eq_zero.mp first).resolve_right middleNonzero
      exact Or.inr (Or.inl ⟨zero, second.2⟩)
    · refine Or.inr (Or.inr ⟨leftNonzero, rightNonzero, ?_⟩)
      apply Int.eq_of_mul_eq_mul_right middleNonzero
      calc left.numerator * right.denominator * middle.denominator
          = left.numerator * middle.denominator * right.denominator := by ring
        _ = middle.numerator * right.denominator * left.denominator := by rw [first]; ring
        _ = right.numerator * left.denominator * middle.denominator := by rw [second]; ring

end Fraction

namespace Double

open Float.Model

/-- Unpacked numbers compare as equal if they are the same, but for a NaN, or both zero. -/
theorem unpacked_beq_iff {left right : UnpackedFloat} :
    left.beq right = true ↔ left = right ∧ left ≠ .notANumber ∨
      ∃ sign sign', left = .zero sign ∧ right = .zero sign' := by
  rw [UnpackedFloat.beq, beq_iff_eq]
  rcases left with (_ | _) | _ | sign | ⟨_ | _, mantissa, exponent, positive⟩ <;>
    rcases right with (_ | _) | _ | sign' | ⟨_ | _, mantissa', exponent', positive'⟩ <;>
    simp [UnpackedFloat.compare]
  all_goals first | rfl | exact and_comm

theorem beq_iff {left right : Float} :
    (left == right) = true ↔ left.toModel.unpack.beq right.toModel.unpack = true := Iff.rfl

theorem beq_symm {left right : Float} (same : (left == right) = true) :
    (right == left) = true := by
  rw [beq_iff, unpacked_beq_iff] at same ⊢
  rcases same with ⟨same, number⟩ | ⟨sign, sign', zero, zero'⟩
  · exact Or.inl ⟨same.symm, same ▸ number⟩
  · exact Or.inr ⟨sign', sign, zero', zero⟩

theorem beq_trans {left middle right : Float} (first : (left == middle) = true)
    (second : (middle == right) = true) : (left == right) = true := by
  rw [beq_iff, unpacked_beq_iff] at first second ⊢
  rcases first with ⟨first, number⟩ | ⟨sign, _, zero, isZero⟩
  · rwa [first]
  · rcases second with ⟨second, -⟩ | ⟨_, sign', -, zero'⟩
    · exact Or.inr ⟨sign, _, zero, second ▸ isZero⟩
    · exact Or.inr ⟨sign, sign', zero, zero'⟩

end Double

/-! ## Values -/

namespace Value

/-- Two values are equal. -/
def Same (left right : Value) : Prop := left.equals right = .ok true

/-- Two values agree in what does not lie below them. -/
inductive AgreesAtTop : Value → Value → Prop where
  | absent : AgreesAtTop .absent .absent
  | bool (truth : Bool) : AgreesAtTop (.bool truth) (.bool truth)
  | int (number : Int) : AgreesAtTop (.int number) (.int number)
  | rational {left right : Fraction} (same : left.equals right = .ok true) :
      AgreesAtTop (.rational left) (.rational right)
  | float {left right : Float} (same : (left == right) = true) :
      AgreesAtTop (.float left) (.float right)
  | scalar (element : ScalarValue) : AgreesAtTop (.scalar element) (.scalar element)
  | bitVector (bits : List UInt8) : AgreesAtTop (.bitVector bits) (.bitVector bits)
  | tuple (left right : List Value) : AgreesAtTop (.tuple left) (.tuple right)
  | mapping (left right : Mapping Value) : AgreesAtTop (.mapping left) (.mapping right)
  | function (left right : FunctionValue) : AgreesAtTop (.function left) (.function right)

namespace AgreesAtTop

variable {left middle right : Value}

theorem symm (agrees : AgreesAtTop left right) : AgreesAtTop right left := by
  cases agrees with
  | rational same => exact .rational (Fraction.equals_symm same)
  | float same => exact .float (Double.beq_symm same)
  | _ => constructor

theorem trans (first : AgreesAtTop left middle) (second : AgreesAtTop middle right) :
    AgreesAtTop left right := by
  cases first with
  | rational same => cases second with
    | rational same' => exact .rational (Fraction.equals_trans same same')
  | float same => cases second with
    | float same' => exact .float (Double.beq_trans same same')
  | _ =>
      cases second
      constructor

end AgreesAtTop

theorem allEqual_iff {lefts rights : List Value} (lengths : lefts.length = rights.length) :
    allEqual lefts rights = .ok true ↔ Forall₂ Same lefts rights := by
  induction lefts generalizing rights with
  | nil =>
      cases rights with
      | nil => simp [allEqual]
      | cons right rights => simp at lengths
  | cons left lefts ih =>
      cases rights with
      | nil => simp at lengths
      | cons right rights =>
          simp only [List.length_cons, Nat.add_right_cancel_iff] at lengths
          rw [List.forall₂_cons, ← ih lengths, allEqual, Same]
          cases left.equals right with
          | error division => simp [bind, Except.bind]
          | ok same => cases same <;> simp [bind, Except.bind, pure, Except.pure]

theorem listEquals_iff {lefts rights : List Value} :
    listEquals lefts rights = .ok true ↔ Forall₂ Same lefts rights := by
  unfold listEquals
  by_cases lengths : lefts.length = rights.length
  · rw [if_pos lengths, allEqual_iff lengths]
  · rw [if_neg lengths]
    exact iff_of_false (by simp) fun same => lengths same.length_eq

theorem mappingEquals_iff {left right : Mapping Value} :
    mappingEquals left right = .ok true ↔
      Forall₂ Same left.args right.args ∧ Same left.result right.result := by
  rcases left with ⟨args, result⟩
  rw [← listEquals_iff, mappingEquals, listEquals, Same]
  by_cases lengths : args.length = right.args.length
  · rw [if_pos lengths, if_pos lengths]
    cases allEqual args right.args with
    | error division => simp [bind, Except.bind]
    | ok same => cases same <;> simp [bind, Except.bind, pure, Except.pure]
  · rw [if_neg lengths, if_neg lengths]
    simp

theorem allEntriesEqual_iff {lefts rights : List (Mapping Value)}
    (lengths : lefts.length = rights.length) :
    allEntriesEqual lefts rights = .ok true ↔
      Forall₂ (fun left right => mappingEquals left right = .ok true) lefts rights := by
  induction lefts generalizing rights with
  | nil =>
      cases rights with
      | nil => simp [allEntriesEqual]
      | cons right rights => simp at lengths
  | cons left lefts ih =>
      cases rights with
      | nil => simp at lengths
      | cons right rights =>
          simp only [List.length_cons, Nat.add_right_cancel_iff] at lengths
          rw [List.forall₂_cons, ← ih lengths, allEntriesEqual]
          cases mappingEquals left right with
          | error division => simp [bind, Except.bind]
          | ok same => cases same <;> simp [bind, Except.bind, pure, Except.pure]

theorem functionEquals_iff {left right : FunctionValue} :
    functionEquals left right = .ok true ↔
      Same left.default right.default ∧
        Forall₂ (fun left right => mappingEquals left right = .ok true)
          left.entries right.entries := by
  rcases left with ⟨default, entries⟩
  rw [functionEquals, Same]
  cases default.equals right.default with
  | error division => simp [bind, Except.bind]
  | ok same =>
      cases same with
      | false => simp [bind, Except.bind, pure, Except.pure]
      | true =>
          by_cases lengths : entries.length = right.entries.length
          · simp [bind, Except.bind, lengths, allEntriesEqual_iff lengths]
          · have differ : ¬ Forall₂ (fun left right => mappingEquals left right = .ok true)
                entries right.entries := fun same => lengths same.length_eq
            simp [bind, Except.bind, pure, Except.pure, lengths, differ]

theorem forall₂_append_singleton {α : Type} {related : α → α → Prop} {lefts rights : List α}
    {left right : α} :
    Forall₂ related (lefts ++ [left]) (rights ++ [right]) ↔
      Forall₂ related lefts rights ∧ related left right := by
  rw [← List.forall₂_reverse_iff, List.reverse_append, List.reverse_append]
  simp [List.forall₂_reverse_iff, and_comm]

/-- Values are equal if they agree at the top and in every part. -/
theorem same_iff {left right : Value} :
    Same left right ↔ AgreesAtTop left right ∧ Forall₂ Same left.parts right.parts := by
  cases left <;> cases right
  case absent.absent => exact iff_of_true (by simp only [Same, equals]) ⟨.absent, .nil⟩
  case bool.bool truth truth' =>
    simp only [Same, equals, parts, Except.ok.injEq, decide_eq_true_eq]
    exact ⟨fun same => same ▸ ⟨.bool _, .nil⟩, by rintro ⟨⟨⟩, -⟩; rfl⟩
  case int.int number number' =>
    simp only [Same, equals, parts, Except.ok.injEq, decide_eq_true_eq]
    exact ⟨fun same => same ▸ ⟨.int _, .nil⟩, by rintro ⟨⟨⟩, -⟩; rfl⟩
  case rational.rational fraction fraction' =>
    simp only [Same, equals, parts]
    refine ⟨fun same => ⟨.rational same, .nil⟩, ?_⟩
    rintro ⟨agrees, -⟩
    cases agrees with
    | rational same => exact same
  case float.float number number' =>
    simp only [Same, equals, parts, Except.ok.injEq]
    refine ⟨fun same => ⟨.float same, .nil⟩, ?_⟩
    rintro ⟨agrees, -⟩
    cases agrees with
    | float same => exact same
  case scalar.scalar element element' =>
    simp only [Same, equals, parts, Except.ok.injEq, decide_eq_true_eq]
    exact ⟨fun same => same ▸ ⟨.scalar _, .nil⟩, by rintro ⟨⟨⟩, -⟩; rfl⟩
  case bitVector.bitVector bits bits' =>
    simp only [Same, equals, parts, Except.ok.injEq, decide_eq_true_eq]
    exact ⟨fun same => same ▸ ⟨.bitVector _, .nil⟩, by rintro ⟨⟨⟩, -⟩; rfl⟩
  case tuple.tuple items items' =>
    simp only [AgreesAtTop.tuple, true_and, parts, ← listEquals_iff]
    rfl
  case mapping.mapping point point' =>
    simp only [AgreesAtTop.mapping, true_and, parts, forall₂_append_singleton,
      ← mappingEquals_iff]
    rfl
  case function.function graph graph' =>
    simp only [AgreesAtTop.function, true_and, parts, List.forall₂_cons,
      List.forall₂_map_left_iff, List.forall₂_map_right_iff]
    exact functionEquals_iff
  -- values of different kinds
  all_goals exact iff_of_false (by simp [Same, equals]) (by rintro ⟨⟨⟩, -⟩)

theorem nesting_pos (value : Value) : 0 < value.nesting := by
  cases value with
  | mapping point =>
      rcases point with ⟨args, result⟩
      simp [nesting, pointNesting]
  | _ => simp [nesting]

/-- What holds of a value if it holds of its parts holds of every value. -/
theorem induction_on_parts {holds : Value → Prop}
    (step : ∀ value : Value, (∀ part ∈ value.parts, holds part) → holds value) (value : Value) :
    holds value := by
  have upTo (levels : Nat) : ∀ value : Value, value.nesting ≤ levels + 1 → holds value := by
    induction levels with
    | zero =>
        intro value shallow
        refine step value fun part isPart => ?_
        have none := (nesting_le_succ value).mp shallow part isPart
        have some := part.nesting_pos
        omega
    | succ levels ih =>
        intro value shallow
        exact step value fun part isPart => ih part ((nesting_le_succ value).mp shallow part isPart)
  exact upTo value.nesting value (Nat.le_succ _)

theorem forall₂_symm {lefts rights : List Value}
    (each : ∀ left ∈ lefts, ∀ right, Same left right → Same right left)
    (same : Forall₂ Same lefts rights) : Forall₂ Same rights lefts := by
  induction same with
  | nil => exact .nil
  | cons first _ ih =>
      rcases List.forall_mem_cons.mp each with ⟨eachFirst, others⟩
      exact .cons (eachFirst _ first) (ih others)

theorem forall₂_trans {lefts middles rights : List Value}
    (each : ∀ left ∈ lefts, ∀ middle right, Same left middle → Same middle right →
      Same left right)
    (first : Forall₂ Same lefts middles) (second : Forall₂ Same middles rights) :
    Forall₂ Same lefts rights := by
  induction first generalizing rights with
  | nil =>
      cases second
      exact .nil
  | cons same _ ih =>
      rcases List.forall_mem_cons.mp each with ⟨eachFirst, others⟩
      cases second with
      | cons same' second => exact .cons (eachFirst _ _ same same') (ih others second)

namespace Same

variable {left middle right : Value}

theorem symm (same : Same left right) : Same right left := by
  induction left using induction_on_parts generalizing right with
  | step left ih =>
      rw [same_iff] at same ⊢
      exact ⟨same.1.symm, forall₂_symm (fun part isPart right => ih part isPart) same.2⟩

theorem trans (first : Same left middle) (second : Same middle right) : Same left right := by
  induction left using induction_on_parts generalizing middle right with
  | step left ih =>
      rw [same_iff] at first second ⊢
      refine ⟨first.1.trans second.1, ?_⟩
      exact forall₂_trans (fun part isPart middle right => ih part isPart) first.2 second.2

end Same

end Value

end SmtModel
