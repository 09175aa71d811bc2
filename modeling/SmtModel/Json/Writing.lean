import SmtModel.Json.Quoted

/-!
# Writing JSON trees

A tree is written without blanks, its members and items in order. Every function
here takes the characters that follow, so that writing takes time in proportion
to the length of the result.
-/

namespace SmtModel.Json

mutual

/-- The written form of a tree, followed by `rest`. -/
def write : Json → List Char → List Char
  | .null, rest => ['n', 'u', 'l', 'l'] ++ rest
  | .bool true, rest => ['t', 'r', 'u', 'e'] ++ rest
  | .bool false, rest => ['f', 'a', 'l', 's', 'e'] ++ rest
  | .number numeral, rest => numeral.write rest
  | .string text, rest => Quoted.write text rest
  | .array [], rest => '[' :: ']' :: rest
  | .array (item :: items), rest => '[' :: write item (writeItems items (']' :: rest))
  | .object [], rest => '\x7b' :: '\x7d' :: rest
  | .object (member :: members), rest =>
    '\x7b' :: writeMember member (writeMembers members ('\x7d' :: rest))
termination_by structural json => json

/-- The items after the first, each after a comma. -/
def writeItems : List Json → List Char → List Char
  | [], rest => rest
  | item :: items, rest => ',' :: write item (writeItems items rest)
termination_by structural items => items

/-- A member of an object, with a colon after its name. -/
def writeMember : Text × Json → List Char → List Char
  | (name, value), rest => Quoted.write name (':' :: write value rest)
termination_by structural member => member

/-- The members after the first, each after a comma. -/
def writeMembers : List (Text × Json) → List Char → List Char
  | [], rest => rest
  | member :: members, rest => ',' :: writeMember member (writeMembers members rest)
termination_by structural members => members

end

/-- The text of a tree. -/
def toText (json : Json) : String := String.ofList (json.write [])

end SmtModel.Json
