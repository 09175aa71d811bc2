import SmtModel.Value.Function

/-!
# Defined comparisons

A value is proper if no fraction in it has a zero denominator. Proper values can be
compared (`Value.equals_isOk`), and a proper function takes every proper point
(`FiniteFunction.insert_isOk`), after which it is proper again.
-/

namespace SmtModel

mutual

/-- No fraction in the value has a zero denominator. -/
def Value.IsProper : Value → Prop
  | .rational fraction => fraction.denominator ≠ 0
  | .tuple items => Value.AllProper items
  | .mapping point => Value.IsProperPoint point
  | .function graph => Value.IsProperFunction graph
  | _ => True
termination_by structural value => value

/-- No fraction in a list of values has a zero denominator. -/
def Value.AllProper : List Value → Prop
  | [] => True
  | value :: values => value.IsProper ∧ Value.AllProper values
termination_by structural values => values

/-- Neither in the arguments nor in the result is there a zero denominator. -/
def Value.IsProperPoint : Mapping Value → Prop
  | ⟨args, result⟩ => Value.AllProper args ∧ result.IsProper
termination_by structural point => point

/-- Neither in the default nor in the entries is there a zero denominator. -/
def Value.IsProperFunction : FiniteFunction Value → Prop
  | ⟨default, entries⟩ => default.IsProper ∧ Value.AllPointsProper entries
termination_by structural graph => graph

/-- No entry of a list has a zero denominator in it. -/
def Value.AllPointsProper : List (Mapping Value) → Prop
  | [] => True
  | entry :: entries => Value.IsProperPoint entry ∧ Value.AllPointsProper entries
termination_by structural entries => entries

end

theorem Fraction.equals_isOk {left right : Fraction} (leftNonzero : left.denominator ≠ 0)
    (rightNonzero : right.denominator ≠ 0) : ∃ same, left.equals right = .ok same :=
  ⟨_, Fraction.equals_of_ne_zero leftNonzero rightNonzero⟩

mutual

theorem Value.equals_isOk : ∀ (left right : Value), left.IsProper → right.IsProper →
    ∃ same, left.equals right = .ok same
  | .rational left, right, leftProper, rightProper => by
      cases right with
      | rational right =>
          simp only [Value.IsProper] at leftProper rightProper
          rcases Fraction.equals_isOk leftProper rightProper with ⟨same, equals⟩
          exact ⟨same, by simp only [Value.equals, equals]⟩
      | _ => exact ⟨false, by simp only [Value.equals]⟩
  | .tuple left, right, leftProper, rightProper => by
      cases right with
      | tuple right =>
          simp only [Value.IsProper] at leftProper rightProper
          rcases Value.allEqual_isOk left right leftProper rightProper with ⟨same, equals⟩
          simp only [Value.equals, equals]
          split <;> exact ⟨_, rfl⟩
      | _ => exact ⟨false, by simp only [Value.equals]⟩
  | .mapping left, right, leftProper, rightProper => by
      cases right with
      | mapping right =>
          simp only [Value.IsProper] at leftProper rightProper
          rcases Value.mappingEquals_isOk left right leftProper rightProper with ⟨same, equals⟩
          exact ⟨same, by simp only [Value.equals, equals]⟩
      | _ => exact ⟨false, by simp only [Value.equals]⟩
  | .function left, right, leftProper, rightProper => by
      cases right with
      | function right =>
          simp only [Value.IsProper] at leftProper rightProper
          rcases Value.functionEquals_isOk left right leftProper rightProper with ⟨same, equals⟩
          exact ⟨same, by simp only [Value.equals, equals]⟩
      | _ => exact ⟨false, by simp only [Value.equals]⟩
  | .absent, right, _, _ => by cases right <;> exact ⟨_, by simp only [Value.equals]; rfl⟩
  | .bool left, right, _, _ => by cases right <;> exact ⟨_, by simp only [Value.equals]; rfl⟩
  | .int left, right, _, _ => by cases right <;> exact ⟨_, by simp only [Value.equals]; rfl⟩
  | .float left, right, _, _ => by cases right <;> exact ⟨_, by simp only [Value.equals]; rfl⟩
  | .scalar left, right, _, _ => by cases right <;> exact ⟨_, by simp only [Value.equals]; rfl⟩
  | .bitVector left, right, _, _ => by cases right <;> exact ⟨_, by simp only [Value.equals]; rfl⟩
termination_by structural left => left

theorem Value.allEqual_isOk : ∀ (lefts rights : List Value), Value.AllProper lefts →
    Value.AllProper rights → ∃ same, Value.allEqual lefts rights = .ok same
  | [], rights, _, _ => ⟨true, by simp only [Value.allEqual]⟩
  | left :: lefts, [], _, _ => ⟨true, by simp only [Value.allEqual]⟩
  | left :: lefts, right :: rights, leftsProper, rightsProper => by
      simp only [Value.AllProper] at leftsProper rightsProper
      rcases Value.equals_isOk left right leftsProper.1 rightsProper.1 with ⟨same, equals⟩
      rcases Value.allEqual_isOk lefts rights leftsProper.2 rightsProper.2 with
        ⟨others, othersEqual⟩
      refine ⟨same && others, ?_⟩
      rw [Value.allEqual, equals]
      cases same
      · rfl
      · exact othersEqual
termination_by structural lefts => lefts

theorem Value.mappingEquals_isOk : ∀ (left right : Mapping Value), Value.IsProperPoint left →
    Value.IsProperPoint right → ∃ same, Value.mappingEquals left right = .ok same
  | ⟨args, result⟩, ⟨args', result'⟩, leftProper, rightProper => by
      simp only [Value.IsProperPoint] at leftProper rightProper
      rcases Value.allEqual_isOk args args' leftProper.1 rightProper.1 with ⟨same, equals⟩
      rcases Value.equals_isOk result result' leftProper.2 rightProper.2 with
        ⟨results, resultsEqual⟩
      simp only [Value.mappingEquals, equals]
      by_cases lengths : args.length = args'.length
      · rw [if_pos lengths]
        cases same
        · exact ⟨false, rfl⟩
        · exact ⟨results, resultsEqual⟩
      · rw [if_neg lengths]
        exact ⟨false, rfl⟩
termination_by structural left => left

theorem Value.functionEquals_isOk : ∀ (left right : FiniteFunction Value),
    Value.IsProperFunction left → Value.IsProperFunction right →
      ∃ same, Value.functionEquals left right = .ok same
  | ⟨default, entries⟩, ⟨default', entries'⟩, leftProper, rightProper => by
      simp only [Value.IsProperFunction] at leftProper rightProper
      rcases Value.equals_isOk default default' leftProper.1 rightProper.1 with ⟨same, equals⟩
      rcases Value.allEntriesEqual_isOk entries entries' leftProper.2 rightProper.2 with
        ⟨others, othersEqual⟩
      simp only [Value.functionEquals, equals, othersEqual]
      cases same
      · exact ⟨false, rfl⟩
      · by_cases lengths : entries.length = entries'.length
        · rw [if_pos lengths]
          exact ⟨others, rfl⟩
        · rw [if_neg lengths]
          exact ⟨false, rfl⟩
termination_by structural left => left

theorem Value.allEntriesEqual_isOk : ∀ (lefts rights : List (Mapping Value)),
    Value.AllPointsProper lefts → Value.AllPointsProper rights →
      ∃ same, Value.allEntriesEqual lefts rights = .ok same
  | [], rights, _, _ => ⟨true, by simp only [Value.allEntriesEqual]⟩
  | left :: lefts, [], _, _ => ⟨true, by simp only [Value.allEntriesEqual]⟩
  | left :: lefts, right :: rights, leftsProper, rightsProper => by
      simp only [Value.AllPointsProper] at leftsProper rightsProper
      rcases Value.mappingEquals_isOk left right leftsProper.1 rightsProper.1 with ⟨same, equals⟩
      rcases Value.allEntriesEqual_isOk lefts rights leftsProper.2 rightsProper.2 with
        ⟨others, othersEqual⟩
      rw [Value.allEntriesEqual, equals]
      cases same
      · exact ⟨false, rfl⟩
      · exact ⟨others, othersEqual⟩
termination_by structural lefts => lefts

end

namespace FiniteFunction

theorem write_isOk {point : Mapping Value} (pointProper : Value.IsProperPoint point)
    (entries : List (Mapping Value)) (entriesProper : Value.AllPointsProper entries) :
    ∃ replaced written, write point entries = .ok (replaced, written) ∧
      Value.AllPointsProper written := by
  rcases point with ⟨args', result'⟩
  induction entries with
  | nil =>
      refine ⟨none, [⟨args', result'⟩], rfl, ?_⟩
      simp only [Value.AllPointsProper, pointProper, true_and]
  | cons entry entries ih =>
      rcases entry with ⟨args, result⟩
      simp only [Value.AllPointsProper, Value.IsProperPoint] at entriesProper pointProper
      rcases entriesProper with ⟨⟨argsProper, resultProper⟩, entriesProper⟩
      rcases ih entriesProper with ⟨replaced, written, writes, writtenProper⟩
      have compares : ∃ same, Value.listEquals args args' = .ok same := by
        simp only [Value.listEquals]
        split
        · exact Value.allEqual_isOk _ _ argsProper pointProper.1
        · exact ⟨false, rfl⟩
      rcases compares with ⟨same, equals⟩
      cases same with
      | true =>
          refine ⟨some result, ⟨args, result'⟩ :: entries, ?_, ?_⟩
          · simp only [write, equals]
            rfl
          · simp only [Value.AllPointsProper, Value.IsProperPoint]
            exact ⟨⟨argsProper, pointProper.2⟩, entriesProper⟩
      | false =>
          refine ⟨replaced, ⟨args, result⟩ :: written, ?_, ?_⟩
          · simp only [write, equals, writes]
            rfl
          · simp only [Value.AllPointsProper, Value.IsProperPoint]
            exact ⟨⟨argsProper, resultProper⟩, writtenProper⟩

/-- A proper point can be added to a proper function, which stays proper. -/
theorem insert_isOk {function : FunctionValue} {point : Mapping Value}
    (functionProper : Value.IsProperFunction function) (pointProper : Value.IsProperPoint point) :
    ∃ replaced added, function.insert point = .ok (replaced, added) ∧
      Value.IsProperFunction added := by
  rcases function with ⟨default, entries⟩
  simp only [Value.IsProperFunction] at functionProper
  rcases write_isOk pointProper entries functionProper.2 with
    ⟨replaced, written, writes, writtenProper⟩
  refine ⟨replaced, ⟨default, written⟩, ?_, ?_⟩
  · simp only [insert, writes]
    rfl
  · simp only [Value.IsProperFunction]
    exact ⟨functionProper.1, writtenProper⟩

/-- Adding a point, without a look at the result that it replaces. -/
def insertPoint (function : FunctionValue) (point : Mapping Value) :
    Except DivisionByZero FunctionValue := do
  return (← function.insert point).2

theorem ofMappings_eq (default : Value) (points : List (Mapping Value)) :
    ofMappings default points = points.foldlM insertPoint (constant default) := rfl

theorem insertPoints_isOk (points : List (Mapping Value)) {function : FunctionValue}
    (functionProper : Value.IsProperFunction function)
    (pointsProper : Value.AllPointsProper points) :
    ∃ added, points.foldlM insertPoint function = .ok added ∧ Value.IsProperFunction added := by
  induction points generalizing function with
  | nil => exact ⟨function, rfl, functionProper⟩
  | cons point points ih =>
      simp only [Value.AllPointsProper] at pointsProper
      rcases insert_isOk functionProper pointsProper.1 with ⟨replaced, added, inserts, addedProper⟩
      rcases ih addedProper pointsProper.2 with ⟨final, adds, finalProper⟩
      refine ⟨final, ?_, finalProper⟩
      rw [List.foldlM_cons, insertPoint, inserts]
      exact adds

theorem ofMappings_isOk {default : Value} {points : List (Mapping Value)}
    (defaultProper : default.IsProper) (pointsProper : Value.AllPointsProper points) :
    ∃ function, ofMappings default points = .ok function ∧ Value.IsProperFunction function := by
  refine insertPoints_isOk points ?_ pointsProper
  simp only [constant, Value.IsProperFunction, Value.AllPointsProper, and_true]
  exact defaultProper

end FiniteFunction

end SmtModel
