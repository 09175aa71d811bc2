/-!
# Value nodes

A model shows the value of a term as a tree of nodes. A node is an identifier,
which only the model that handed it out understands, and a tag that says what
kind of value hangs below it. The tag is kept as it was received: a solver may
hand out tags that are not listed here, and `NodeKind.ofTag?` tells them apart.
-/

namespace SmtModel

/-- The kinds of value that the solver lists. -/
inductive NodeKind where
  | unknown
  | bool
  | rational
  | algebraic
  | bitVector
  | scalar
  | tuple
  | function
  | mapping
  deriving DecidableEq

namespace NodeKind

/-- The tag that stands for a kind. -/
def tag : NodeKind → Int32
  | unknown => 0
  | bool => 1
  | rational => 2
  | algebraic => 3
  | bitVector => 4
  | scalar => 5
  | tuple => 6
  | function => 7
  | mapping => 8

/-- The kind that a tag stands for, if it is listed. -/
def ofTag? (tag : Int32) : Option NodeKind :=
  if tag = 0 then some unknown
  else if tag = 1 then some bool
  else if tag = 2 then some rational
  else if tag = 3 then some algebraic
  else if tag = 4 then some bitVector
  else if tag = 5 then some scalar
  else if tag = 6 then some tuple
  else if tag = 7 then some function
  else if tag = 8 then some mapping
  else none

@[simp]
theorem ofTag?_tag (kind : NodeKind) : ofTag? kind.tag = some kind := by
  cases kind <;> rfl

/-- The name of a kind as it is shown. -/
def name : NodeKind → String
  | unknown => "unknown"
  | bool => "bool"
  | rational => "rational"
  | algebraic => "algebraic"
  | bitVector => "bv"
  | scalar => "scalar"
  | tuple => "tuple"
  | function => "function"
  | mapping => "mapping"

end NodeKind

/-- A reference to one node of a model's value tree. -/
structure Node where
  id : Int32
  tag : Int32
  deriving DecidableEq

namespace Node

/-- What a cell for a node holds before anything is written to it. -/
def blank : Node := ⟨0, 0⟩

instance : Inhabited Node := ⟨blank⟩

/-- The node with an identifier and a listed kind. -/
def ofKind (id : Int32) (kind : NodeKind) : Node := ⟨id, kind.tag⟩

/-- The kind of a node, if its tag is listed. -/
def kind? (node : Node) : Option NodeKind := NodeKind.ofTag? node.tag

@[simp]
theorem kind?_ofKind (id : Int32) (kind : NodeKind) : (ofKind id kind).kind? = some kind :=
  NodeKind.ofTag?_tag kind

end Node

end SmtModel
