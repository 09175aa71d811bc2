import SmtModel.Decimal.Numeral

/-!
# JSON trees

A tree keeps what a JSON text says and no more than it says: numbers are the
numerals that were written, and an object is the list of its members in order,
repeated names included. A string may spell out, by escapes, half of a surrogate
pair; such a string denotes no text.

A text that is read into a typed value may open only so many containers inside one
another. Readers that open a container take the number that may still be opened,
their `room`.
-/

namespace SmtModel

namespace Json

/-- What a JSON string denotes: a text, or none if it holds an unpaired surrogate. -/
abbrev Text := Option String

end Json

/-- A tree that a JSON text denotes. Members of an object keep their order, and may repeat a
name. -/
inductive Json where
  | null
  | bool (value : Bool)
  | number (numeral : Numeral)
  | string (text : Json.Text)
  | array (items : List Json)
  | object (members : List (Json.Text × Json))

namespace Json

instance : Inhabited Json := ⟨null⟩

/-- An integer as a number without fraction and exponent. -/
def ofInt (value : Int) : Json := .number (.ofInt value)

/-- A text as a string. -/
def ofString (text : String) : Json := .string (some text)

/-- A record as an object with a member for each field. -/
def ofFields (fields : List (String × Json)) : Json :=
  .object (fields.map fun (name, value) => (some name, value))

/-- The truth value that a tree is. -/
def bool? : Json → Option Bool
  | .bool value => some value
  | _ => none

/-- The integer that a tree is, if it is written as one. -/
def int? : Json → Option Int
  | .number numeral => numeral.toInt?
  | _ => none

/-- The text that a string denotes. -/
def text? : Json → Option String
  | .string text => text
  | _ => none

/-- The nearest double of a number, unless that is infinite. -/
def float? : Json → Option Float
  | .number numeral => if numeral.toFloat.isInf then none else some numeral.toFloat
  | _ => none

/-- The values of the named fields, in the order of `names`: from an object that has each of them
once, whatever else it has, or from an array of exactly that many items. -/
def fields? (names : List String) : Json → Option (List Json)
  | .array items => if items.length = names.length then some items else none
  | .object members =>
    if members.all fun (name, _) => name.isSome then
      names.mapM fun wanted =>
        match members.filter fun (name, _) => name = some wanted with
        | [(_, value)] => some value
        | _ => none
    else none
  | _ => none

/-- The items of an array, which opens one container. With them comes the room that is left. -/
def items? : (room : Nat) → Json → Option (Nat × List Json)
  | room + 1, .array items => some (room, items)
  | _, _ => none

/-- The fields of a record, which opens one container. -/
def record? (names : List String) : (room : Nat) → Json → Option (Nat × List Json)
  | room + 1, json => (json.fields? names).map fun values => (room, values)
  | 0, _ => none

/-- The number of containers that may be open at once in a text. -/
def nestingLimit : Nat := 127

end Json

end SmtModel
