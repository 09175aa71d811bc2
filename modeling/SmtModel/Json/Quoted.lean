import SmtModel.Json.Basic

/-!
# Quoted text

`Quoted.write` puts a text between quotes: quotes, backslashes and the control
characters are escaped, every other character stands for itself. `Quoted.scan`
splits a quoted text off, given what follows the opening quote, as a list of
code points; `Quoted.decode` joins the surrogate pairs among these.
-/

namespace SmtModel.Json.Quoted

/-- The last hexadecimal digit of a number. -/
def hexDigit (value : Nat) : Char := Nat.digitChar (value % 16)

/-- How a character is written between quotes. -/
def escape (char : Char) : List Char :=
  if char = '"' then ['\\', '"']
  else if char = '\\' then ['\\', '\\']
  else if char = '\n' then ['\\', 'n']
  else if char = '\r' then ['\\', 'r']
  else if char = '\t' then ['\\', 't']
  else if char.toNat = 0x08 then ['\\', 'b']
  else if char.toNat = 0x0C then ['\\', 'f']
  else if char.toNat < 0x20 then
    ['\\', 'u', '0', '0', hexDigit (char.toNat / 16), hexDigit char.toNat]
  else [char]

/-- The quoted form of a text, followed by `rest`. A string without a text is written as the
surrogate that it fails by. -/
def write (text : Text) (rest : List Char) : List Char :=
  match text with
  | some text => '"' :: text.toList.flatMap escape ++ '"' :: rest
  | none => ['"', '\\', 'u', 'd', '8', '0', '0', '"'] ++ rest

/-- The value of a hexadecimal digit, in either case. -/
def hexValue? (char : Char) : Option Nat :=
  if '0' ≤ char ∧ char ≤ '9' then some (char.toNat - '0'.toNat)
  else if 'a' ≤ char ∧ char ≤ 'f' then some (char.toNat - 'a'.toNat + 10)
  else if 'A' ≤ char ∧ char ≤ 'F' then some (char.toNat - 'A'.toNat + 10)
  else none

/-- The code of an escape by four hexadecimal digits. -/
def hexCode? (first second third fourth : Char) : Option Nat := do
  let a ← hexValue? first
  let b ← hexValue? second
  let c ← hexValue? third
  let d ← hexValue? fourth
  return ((a * 16 + b) * 16 + c) * 16 + d

/-- The code of an escape by one letter. -/
def letterCode? (letter : Char) : Option Nat :=
  if letter = '"' ∨ letter = '\\' ∨ letter = '/' then some letter.toNat
  else if letter = 'b' then some 0x08
  else if letter = 'f' then some 0x0C
  else if letter = 'n' then some 0x0A
  else if letter = 'r' then some 0x0D
  else if letter = 't' then some 0x09
  else none

/-- The code points up to the closing quote, and what follows it. -/
def scan : List Char → Option (List Nat × List Char)
  | [] => none
  | '"' :: rest => some ([], rest)
  | '\\' :: 'u' :: a :: b :: c :: d :: rest => do
    let code ← hexCode? a b c d
    let (codes, rest) ← scan rest
    return (code :: codes, rest)
  | '\\' :: letter :: rest => do
    let code ← letterCode? letter
    let (codes, rest) ← scan rest
    return (code :: codes, rest)
  | char :: rest =>
    if char.toNat < 0x20 then none
    else do
      let (codes, rest) ← scan rest
      return (char.toNat :: codes, rest)

theorem length_of_scan {text rest : List Char} {codes : List Nat}
    (scanned : scan text = some (codes, rest)) : rest.length < text.length := by
  fun_induction scan text generalizing codes rest with
  | case1 => simp at scanned
  | case2 => simp_all
  | case3 a b c d text ih =>
    cases code : hexCode? a b c d with
    | none => simp [code] at scanned
    | some value =>
      cases tail : scan text with
      | none => simp [code, tail] at scanned
      | some pair =>
        obtain ⟨_, left⟩ := pair
        have := ih tail
        simp [code, tail] at scanned
        obtain ⟨_, rfl⟩ := scanned
        simp only [List.length_cons]
        omega
  | case4 letter text _ ih =>
    cases code : letterCode? letter with
    | none => simp [code] at scanned
    | some value =>
      cases tail : scan text with
      | none => simp [code, tail] at scanned
      | some pair =>
        obtain ⟨_, left⟩ := pair
        have := ih tail
        simp [code, tail] at scanned
        obtain ⟨_, rfl⟩ := scanned
        simp only [List.length_cons]
        omega
  | case5 => simp at scanned
  | case6 char text _ _ _ _ ih =>
    cases tail : scan text with
    | none => simp [tail] at scanned
    | some pair =>
      obtain ⟨_, left⟩ := pair
      have := ih tail
      simp [tail] at scanned
      obtain ⟨_, rfl⟩ := scanned
      simp only [List.length_cons]
      omega

/-- Whether a code point is the first half of a pair. -/
def isHighSurrogate (code : Nat) : Bool := 0xD800 ≤ code ∧ code < 0xDC00

/-- Whether a code point is the second half of a pair. -/
def isLowSurrogate (code : Nat) : Bool := 0xDC00 ≤ code ∧ code < 0xE000

/-- The characters of a list of code points: a high surrogate and a low one after it make up one
character, and neither stands alone. -/
def decode : List Nat → Option (List Char)
  | [] => some []
  | high :: low :: codes =>
    if isHighSurrogate high then
      if isLowSurrogate low then
        (decode codes).map
          (Char.ofNat (0x10000 + (high - 0xD800) * 0x400 + (low - 0xDC00)) :: ·)
      else none
    else if isLowSurrogate high then none
    else (decode (low :: codes)).map (Char.ofNat high :: ·)
  | [code] =>
    if isHighSurrogate code ∨ isLowSurrogate code then none else some [Char.ofNat code]

/-- The text that a list of code points denotes. -/
def text (codes : List Nat) : Text := (decode codes).map String.ofList

end SmtModel.Json.Quoted
