import Mathlib
import SmtModel.Json.Quoted

/-!
# Quoted text is read as it is written

Every character of a text is written as itself or as an escape, and read as its own code
in either case. No code of a character is half of a surrogate pair, so the codes make up
the text again. A string without a text is written as the lone surrogate that it fails
by, and the surrogate has no text (`Quoted.scan_write`, `Quoted.text_codes`).
-/

namespace SmtModel.Json.Quoted

/-- The codes that the quoted form of a text stands for. -/
def codes : Text → List Nat
  | some text => text.toList.map Char.toNat
  | none => [0xD800]

/-- An escape by four digits is read as the code of its control character. -/
theorem hexCode?_hexDigits {code : Nat} (control : code < 0x20) :
    hexCode? '0' '0' (hexDigit (code / 16)) (hexDigit code) = some code := by
  have all : ∀ code < 0x20,
      hexCode? '0' '0' (hexDigit (code / 16)) (hexDigit code) = some code := by decide
  exact all code control

theorem scan_letter {letter : Char} {code : Nat} (rest : List Char)
    (names : letterCode? letter = some code) :
    scan ('\\' :: letter :: rest) =
      (scan rest).map fun (codes, rest) => (code :: codes, rest) := by
  have noDigits : letter ≠ 'u' := by
    rintro rfl
    cases names
  rw [scan.eq_4 letter rest fun _ _ _ _ _ isU => absurd isU noDigits, names]
  cases scan rest <;> rfl

theorem scan_digits {first second third fourth : Char} {code : Nat} (rest : List Char)
    (names : hexCode? first second third fourth = some code) :
    scan ('\\' :: 'u' :: first :: second :: third :: fourth :: rest) =
      (scan rest).map fun (codes, rest) => (code :: codes, rest) := by
  rw [scan, names]
  cases scan rest <;> rfl

theorem scan_plain {char : Char} (rest : List Char) (noQuote : char ≠ '"')
    (noEscape : char ≠ '\\') (printed : 0x20 ≤ char.toNat) :
    scan (char :: rest) =
      (scan rest).map fun (codes, rest) => (char.toNat :: codes, rest) := by
  rw [scan.eq_5 char rest noQuote (fun _ _ _ _ _ isEscape => absurd isEscape noEscape)
    (fun _ _ isEscape => absurd isEscape noEscape), if_neg (by omega)]
  cases scan rest <;> rfl

/-- A character is read as its code, however it is written. -/
theorem scan_escape (char : Char) (rest : List Char) :
    scan (escape char ++ rest) =
      (scan rest).map fun (codes, rest) => (char.toNat :: codes, rest) := by
  unfold escape
  split_ifs with quote backslash newline return_ tab backspace feed control
  · subst quote
    exact scan_letter rest rfl
  · subst backslash
    exact scan_letter rest rfl
  · subst newline
    exact scan_letter rest rfl
  · subst return_
    exact scan_letter rest rfl
  · subst tab
    exact scan_letter rest rfl
  · rw [backspace]
    exact scan_letter rest rfl
  · rw [feed]
    exact scan_letter rest rfl
  · exact scan_digits rest (hexCode?_hexDigits control)
  · exact scan_plain rest quote backslash (by omega)

theorem scan_write (text : Text) (rest : List Char) :
    ∃ body, write text rest = '"' :: body ∧ scan body = some (codes text, rest) := by
  cases text with
  | none => exact ⟨_, rfl, rfl⟩
  | some text =>
      refine ⟨text.toList.flatMap escape ++ '"' :: rest, rfl, ?_⟩
      simp only [codes]
      induction text.toList with
      | nil => rfl
      | cons char chars ih =>
          rw [List.flatMap_cons, List.append_assoc, scan_escape, ih]
          rfl

/-- No character has the code of a surrogate. -/
theorem isSurrogate_toNat (char : Char) :
    isHighSurrogate char.toNat = false ∧ isLowSurrogate char.toNat = false := by
  have valid : char.toNat < 0xD800 ∨ 0xDFFF < char.toNat ∧ char.toNat < 0x110000 := char.valid
  simp only [isHighSurrogate, isLowSurrogate, decide_eq_false_iff_not]
  omega

theorem decode_map_toNat (chars : List Char) : decode (chars.map Char.toNat) = some chars := by
  induction chars with
  | nil => rfl
  | cons char chars ih =>
      rcases isSurrogate_toNat char with ⟨notHigh, notLow⟩
      cases chars with
      | nil => simp [decode, notHigh, notLow, Char.ofNat_toNat]
      | cons next chars =>
          simp only [List.map_cons] at ih ⊢
          simp [decode, notHigh, notLow, Char.ofNat_toNat, ih]

theorem text_codes (text : Text) : Quoted.text (codes text) = text := by
  cases text with
  | none => rfl
  | some text => simp [codes, Quoted.text, decode_map_toNat]

end SmtModel.Json.Quoted
