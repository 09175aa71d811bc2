import SmtModel.Json.Quoted

/-!
# Tokens of a JSON text

A JSON text is a sequence of brackets, separators, quoted strings and words, with
blanks between them. A word is one of the three literal names or a numeral; it
reaches as far as letters, digits, signs and points go, so that two words never
touch.
-/

namespace SmtModel.Json

/-- The smallest pieces of a JSON text that mean something. -/
inductive Token where
  | beginArray
  | endArray
  | beginObject
  | endObject
  | colon
  | comma
  | null
  | bool (value : Bool)
  | number (numeral : Numeral)
  | string (text : Text)

namespace Token

/-- Whether a character only separates tokens. -/
def isBlank (char : Char) : Bool :=
  char = ' ' ∨ char = '\n' ∨ char = '\t' ∨ char = '\r'

/-- Whether a character belongs to a word. -/
def isWordChar (char : Char) : Bool :=
  char.isAlphanum ∨ char = '+' ∨ char = '-' ∨ char = '.'

/-- The token that a single character makes up. -/
def ofBracket? (char : Char) : Option Token :=
  if char = '[' then some beginArray
  else if char = ']' then some endArray
  else if char = '\x7b' then some beginObject
  else if char = '\x7d' then some endObject
  else if char = ':' then some colon
  else if char = ',' then some comma
  else none

/-- The token that a word makes up: a name or a number. -/
def ofWord? (word : List Char) : Option Token :=
  if word = ['n', 'u', 'l', 'l'] then some null
  else if word = ['t', 'r', 'u', 'e'] then some (bool true)
  else if word = ['f', 'a', 'l', 's', 'e'] then some (bool false)
  else (Numeral.read? word).map number

theorem length_dropWhile_le (test : Char → Bool) (text : List Char) :
    (text.dropWhile test).length ≤ text.length :=
  (List.dropWhile_sublist test).length_le

/-- The tokens of a text, if it consists of tokens and blanks. -/
def ofText? (text : List Char) : Option (List Token) :=
  match text with
  | [] => some []
  | char :: rest =>
    if isBlank char then ofText? rest
    else if char = '"' then
      match _ : Quoted.scan rest with
      | none => none
      | some (codes, rest') => (ofText? rest').map (string (Quoted.text codes) :: ·)
    else
      match ofBracket? char with
      | some bracket => (ofText? rest).map (bracket :: ·)
      | none =>
        match ofWord? ((char :: rest).takeWhile isWordChar) with
        | none => none
        | some word => (ofText? (rest.dropWhile isWordChar)).map (word :: ·)
termination_by text.length
decreasing_by
  all_goals simp only [List.length_cons]
  · omega
  · rename_i scanned
    have := Quoted.length_of_scan scanned
    omega
  · omega
  · have := length_dropWhile_le isWordChar rest
    omega

end Token

end SmtModel.Json
