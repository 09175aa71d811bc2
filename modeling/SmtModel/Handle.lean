/-!
# Handles

The solver keeps its terms and types in tables and names an entry by a signed
32-bit code: the place of the entry, or a negative code that names nothing.
Contexts, models and growable vectors are named by the order in which the
solver made them, so their identifiers are plain natural numbers.

`TermId.index?` and `TypeId.index?` give the place that a code stands for;
`TermId.ofIndex` and `TypeId.ofIndex` give the code of a place. The two agree
on tables of fewer than `2 ^ 31` entries, and wrap around beyond.
-/

namespace SmtModel

/-- The place in a table that a code stands for. A negative code stands for none. -/
def tableIndex? (code : Int32) : Option Nat :=
  if code < 0 then none else some code.toNatClampNeg

theorem tableIndex?_ofNat {index : Nat} (bound : index < 0x80000000) :
    tableIndex? (Int32.ofNat index) = some index := by
  have value : (Int32.ofNat index).toInt = index := Int32.toInt_ofNat_of_lt (by omega)
  have nonneg : ¬ Int32.ofNat index < 0 := by
    rw [Int32.lt_iff_toInt_lt, value]
    simp
  simp only [tableIndex?, nonneg, if_false, Option.some.injEq]
  rw [← Int32.toNat_toInt, value]
  simp

/-- A term of the solver. -/
structure TermId where
  code : Int32
  deriving DecidableEq

namespace TermId

/-- What a call that fails hands out in place of a term. -/
def null : TermId := ⟨-1⟩

instance : Inhabited TermId := ⟨null⟩

/-- Whether a call has handed out no term. -/
def isNull (term : TermId) : Bool := term = null

/-- The term at a place of the term table. -/
def ofIndex (index : Nat) : TermId := ⟨Int32.ofNat index⟩

/-- The place of a term in the term table. -/
def index? (term : TermId) : Option Nat := tableIndex? term.code

theorem index?_ofIndex {index : Nat} (bound : index < 0x80000000) :
    (ofIndex index).index? = some index :=
  tableIndex?_ofNat bound

theorem isNull_ofIndex {index : Nat} (bound : index < 0x80000000) :
    (ofIndex index).isNull = false := by
  have place := index?_ofIndex bound
  simp only [isNull, decide_eq_false_iff_not]
  intro isNull
  rw [isNull] at place
  cases place

/-- How a term is shown. -/
def toText (term : TermId) : String := "term#" ++ toString term.code.toInt

end TermId

/-- A type of the solver. -/
structure TypeId where
  code : Int32
  deriving DecidableEq

namespace TypeId

/-- What stands in place of a type where there is none. -/
def null : TypeId := ⟨-1⟩

instance : Inhabited TypeId := ⟨null⟩

/-- Whether there is no type. -/
def isNull (type : TypeId) : Bool := type = null

/-- The type at a place of the type table. -/
def ofIndex (index : Nat) : TypeId := ⟨Int32.ofNat index⟩

/-- The place of a type in the type table. -/
def index? (type : TypeId) : Option Nat := tableIndex? type.code

theorem index?_ofIndex {index : Nat} (bound : index < 0x80000000) :
    (ofIndex index).index? = some index :=
  tableIndex?_ofNat bound

/-- How a type is shown. -/
def toText (type : TypeId) : String := "type#" ++ toString type.code.toInt

end TypeId

/-- A context of the solver, numbered in order of creation. -/
structure ContextId where
  number : Nat
  deriving DecidableEq

/-- A model of the solver, numbered in order of creation. -/
structure ModelId where
  number : Nat
  deriving DecidableEq

/-- A growable vector of the solver, numbered in order of creation. Vectors of terms and
vectors of value nodes are numbered together. -/
structure VectorId where
  number : Nat
  deriving DecidableEq

end SmtModel
