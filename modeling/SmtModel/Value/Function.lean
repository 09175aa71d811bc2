import SmtModel.Value.Equality

/-!
# Finite functions of values

A function value is looked up by comparing keys in order: the first entry whose
arguments are equal to the ones asked for decides, and the default stands in where
there is none. Inserting a point replaces the result of the entry that such a
lookup finds, and otherwise adds a new entry at the end, so the last result
written for a key wins while the key keeps the place and the form of its first
writing. A comparison that is undefined ends the operation without a result.
-/

namespace SmtModel.FiniteFunction

/-- The function without explicit points. -/
def constant (default : Value) : FunctionValue := ⟨default, []⟩

/-- The number of explicit points. -/
def size (function : FunctionValue) : Nat := function.entries.length

/-- Whether there are no explicit points. -/
def isEmpty (function : FunctionValue) : Bool := function.entries.isEmpty

/-- The result of the first entry at `args`. -/
def lookup (args : List Value) : List (Mapping Value) → Except DivisionByZero (Option Value)
  | [] => .ok none
  | entry :: entries => do
    if ← Value.listEquals entry.args args then return some entry.result else lookup args entries

/-- The entries after writing a point, and the result that it replaced. -/
def write (point : Mapping Value) :
    List (Mapping Value) → Except DivisionByZero (Option Value × List (Mapping Value))
  | [] => .ok (none, [point])
  | entry :: entries => do
    if ← Value.listEquals entry.args point.args then
      return (some entry.result, { entry with result := point.result } :: entries)
    else
      let (replaced, entries) ← write point entries
      return (replaced, entry :: entries)

/-- The explicit point at `args`, if there is one. -/
def get? (function : FunctionValue) (args : List Value) :
    Except DivisionByZero (Option Value) :=
  lookup args function.entries

/-- The value at `args`: the explicit point, or the default. -/
def apply (function : FunctionValue) (args : List Value) : Except DivisionByZero Value := do
  return (← function.get? args).getD function.default

/-- Adds a point, and gives the result that it replaced. -/
def insert (function : FunctionValue) (point : Mapping Value) :
    Except DivisionByZero (Option Value × FunctionValue) := do
  let (replaced, entries) ← write point function.entries
  return (replaced, { function with entries })

/-- The function with the given points, written one after another. -/
def ofMappings (default : Value) (points : List (Mapping Value)) :
    Except DivisionByZero FunctionValue :=
  points.foldlM (fun function point => do return (← function.insert point).2) (constant default)

end SmtModel.FiniteFunction
