import SmtModel.Value.Basic

/-!
# Equality of values

Two values are equal if they have the same shape and equal parts: fractions by
their numeric value, doubles as IEEE numbers, everything else exactly. Values of
different kinds differ, integers and fractions included. Lists compare their
lengths first and then element by element up to the first difference, so a fraction
with a zero denominator makes a comparison undefined only where it is reached.
-/

namespace SmtModel

mutual

/-- Equality of values, unless comparing them divides by zero. -/
def Value.equals : Value → Value → Except DivisionByZero Bool
  | .absent, .absent => .ok true
  | .bool left, .bool right => .ok (left = right)
  | .int left, .int right => .ok (left = right)
  | .rational left, .rational right => left.equals right
  | .float left, .float right => .ok (left == right)
  | .scalar left, .scalar right => .ok (left = right)
  | .bitVector left, .bitVector right => .ok (left = right)
  | .tuple left, .tuple right =>
    if left.length = right.length then Value.allEqual left right else .ok false
  | .mapping left, .mapping right => Value.mappingEquals left right
  | .function left, .function right => Value.functionEquals left right
  | _, _ => .ok false
termination_by structural value => value

/-- Equality of the elements of two lists of one length, pair by pair. -/
def Value.allEqual : List Value → List Value → Except DivisionByZero Bool
  | left :: lefts, right :: rights => do
    if ← left.equals right then Value.allEqual lefts rights else return false
  | _, _ => .ok true
termination_by structural values => values

/-- Equality of mappings, the arguments first. -/
def Value.mappingEquals : Mapping Value → Mapping Value → Except DivisionByZero Bool
  | ⟨args, result⟩, right =>
    if args.length = right.args.length then do
      if ← Value.allEqual args right.args then result.equals right.result else return false
    else .ok false
termination_by structural point => point

/-- Equality of functions: of the defaults, and then of the entries in their order. -/
def Value.functionEquals :
    FiniteFunction Value → FiniteFunction Value → Except DivisionByZero Bool
  | ⟨default, entries⟩, right => do
    if ← default.equals right.default then
      if entries.length = right.entries.length then Value.allEntriesEqual entries right.entries
      else return false
    else return false
termination_by structural graph => graph

/-- Equality of the entries of two functions with equally many, pair by pair. -/
def Value.allEntriesEqual :
    List (Mapping Value) → List (Mapping Value) → Except DivisionByZero Bool
  | left :: lefts, right :: rights => do
    if ← Value.mappingEquals left right then Value.allEntriesEqual lefts rights else return false
  | _, _ => .ok true
termination_by structural entries => entries

end

/-- Equality of argument lists. -/
def Value.listEquals (left right : List Value) : Except DivisionByZero Bool :=
  if left.length = right.length then Value.allEqual left right else .ok false

end SmtModel
