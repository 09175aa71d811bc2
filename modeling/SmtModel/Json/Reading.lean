import SmtModel.Json.Token

/-!
# Reading JSON trees

A tree is read from its tokens in one pass from left to right. The state of the
pass says what may come next, and holds the containers that are still open,
innermost first. The pass accepts when the tokens end, one value is complete, and
no container is open.
-/

namespace SmtModel.Json

/-- A container that is still open, with what it holds so far, the last first. -/
inductive Frame where
  | array (done : List Json)
  /-- An object whose next value belongs to `name`. -/
  | object (done : List (Text × Json)) (name : Text)

/-- How far the reading of a tree has come, by what may come next. -/
inductive Progress where
  /-- A value must come. -/
  | value (opened : List Frame)
  /-- An array was opened: a value or the end of the array must come. -/
  | items (opened : List Frame)
  /-- An object was opened: a name or the end of the object must come. -/
  | members (opened : List Frame)
  /-- A name must come. -/
  | name (done : List (Text × Json)) (opened : List Frame)
  /-- A colon must come. -/
  | colon (done : List (Text × Json)) (name : Text) (opened : List Frame)
  /-- A value is complete: the container around it goes on or ends. -/
  | complete (value : Json) (opened : List Frame)

namespace Progress

/-- The first token of a value. -/
def start (opened : List Frame) : Token → Option Progress
  | .null => some (complete .null opened)
  | .bool truth => some (complete (.bool truth) opened)
  | .number numeral => some (complete (.number numeral) opened)
  | .string text => some (complete (.string text) opened)
  | .beginArray => some (items opened)
  | .beginObject => some (members opened)
  | _ => none

/-- Reads the next token, if it may stand there. -/
def step : Progress → Token → Option Progress
  | value opened, token => start opened token
  | items opened, .endArray => some (complete (.array []) opened)
  | items opened, token => start (.array [] :: opened) token
  | members opened, .endObject => some (complete (.object []) opened)
  | members opened, .string text => some (colon [] text opened)
  | name done opened, .string text => some (colon done text opened)
  | colon done text opened, .colon => some (value (.object done text :: opened))
  | complete item (.array done :: opened), .comma => some (value (.array (item :: done) :: opened))
  | complete item (.array done :: opened), .endArray =>
    some (complete (.array (item :: done).reverse) opened)
  | complete item (.object done text :: opened), .comma => some (name ((text, item) :: done) opened)
  | complete item (.object done text :: opened), .endObject =>
    some (complete (.object ((text, item) :: done).reverse) opened)
  | _, _ => none

end Progress

/-- The tree that a sequence of tokens spells out. -/
def ofTokens? (tokens : List Token) : Option Json :=
  match tokens.foldlM Progress.step (.value []) with
  | some (.complete value []) => some value
  | _ => none

/-- Reads a tree that takes up the whole text, but for blanks around it. -/
def read? (text : String) : Option Json := do
  ofTokens? (← Token.ofText? text.toList)

end SmtModel.Json
