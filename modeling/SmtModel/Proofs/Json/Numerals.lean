import Mathlib
import SmtModel.Decimal.Numeral

/-!
# Numerals are read as they are written

A numeral is written as a sign, the digits before the point, the point and the digits
after it, and an exponent, where the last two may be missing. Digits end where something
else begins, so that each part is split off again as it was written, and the numeral that
is read is the one that was written (`Numeral.read?_write`).
-/

namespace SmtModel

/-- A text does not go on with a character of the given kind. -/
def StopsAt (test : Char → Bool) (text : List Char) : Prop :=
  ∀ char ∈ text.head?, test char = false

namespace StopsAt

variable {test : Char → Bool} {front rest : List Char}

theorem nil : StopsAt test [] := nofun

theorem cons {char : Char} (fails : test char = false) : StopsAt test (char :: rest) := by
  rintro _ ⟨⟩
  exact fails

/-- What is of a kind is split off before what is not. -/
theorem takeWhile_append (stops : StopsAt test rest) (all : ∀ char ∈ front, test char = true) :
    (front ++ rest).takeWhile test = front := by
  rw [List.takeWhile_append_of_pos all]
  cases rest with
  | nil => simp
  | cons char rest => simp [stops char rfl]

theorem dropWhile_append (stops : StopsAt test rest) (all : ∀ char ∈ front, test char = true) :
    (front ++ rest).dropWhile test = rest := by
  rw [List.dropWhile_append_of_pos all]
  cases rest with
  | nil => rfl
  | cons char rest => simp [stops char rfl]

end StopsAt

namespace Numeral

/-! ## Digits -/

theorem isDigit_of_mem_toDigits {value : Nat} :
    ∀ char ∈ Nat.toDigits 10 value, char.isDigit = true :=
  fun _ isDigit => Nat.isDigit_of_mem_toDigits (by decide) (by decide) isDigit

theorem splitDigits?_append {digits rest : List Char} (stops : StopsAt Char.isDigit rest)
    (nonempty : digits ≠ []) (all : ∀ char ∈ digits, char.isDigit = true) :
    splitDigits? (digits ++ rest) = some (digits, rest) := by
  simp only [splitDigits?, stops.takeWhile_append all, stops.dropWhile_append all,
    List.isEmpty_iff, nonempty, if_false]

/-- There is no zero in front of a positive number. -/
theorem head?_toDigits_ne_zero {value : Nat} (positive : 0 < value) :
    (Nat.toDigits 10 value).head? ≠ some '0' := by
  induction value using Nat.strongRecOn with
  | ind value ih =>
      by_cases small : value < 10
      · have one : ∀ digit < 10, 0 < digit → [Nat.digitChar digit].head? ≠ some '0' := by decide
        rw [Nat.toDigits_of_lt_base small]
        exact one value small positive
      · have above := ih (value / 10) (by omega) (by omega)
        rw [Nat.toDigits_of_base_le (by decide) (by omega), List.head?_append]
        cases front : (Nat.toDigits 10 (value / 10)).head? with
        | none => exact absurd (List.head?_eq_none_iff.mp front) Nat.toDigits_ne_nil
        | some char => simpa [front] using above

theorem head?_toDigits (value : Nat) :
    (Nat.toDigits 10 value).head? ≠ some '0' ∨ (Nat.toDigits 10 value).length = 1 := by
  rcases value.eq_zero_or_pos with rfl | positive
  · exact .inr (by simp)
  · exact .inl (head?_toDigits_ne_zero positive)

section Padded

variable {count value : Nat} (fits : value < 10 ^ count) (positive : 0 < count)

include fits positive

theorem length_paddedDigits : (paddedDigits count value).length = count := by
  have short := (Nat.length_toDigits_le_iff (by decide) positive).mpr fits
  simp only [paddedDigits, List.leftpad, List.length_append, List.length_replicate]
  omega

/-- Padded digits go on with a number as if they were its last digits. -/
theorem ofDigitChars_paddedDigits (init : Nat) :
    Nat.ofDigitChars 10 (paddedDigits count value) init = 10 ^ count * init + value := by
  have length := length_paddedDigits fits positive
  simp only [paddedDigits, List.leftpad, List.length_append, List.length_replicate] at length ⊢
  rw [Nat.ofDigitChars_append, Nat.ofDigitChars_replicate_zero,
    Nat.ofDigitChars_eq_ofDigitChars_zero, Nat.ofDigitChars_ten_toDigits, ← Nat.mul_assoc,
    ← Nat.pow_add, Nat.add_comm (Nat.toDigits 10 value).length, length]

end Padded

theorem isDigit_of_mem_paddedDigits {count value : Nat} :
    ∀ char ∈ paddedDigits count value, char.isDigit = true := by
  simp only [paddedDigits, List.leftpad, List.mem_append, List.mem_replicate]
  rintro char (⟨-, rfl⟩ | isDigit)
  · rfl
  · exact isDigit_of_mem_toDigits char isDigit

/-! ## Parts -/

/-- The digits before the point. -/
def wholeText (numeral : Numeral) : List Char :=
  Nat.toDigits 10 (numeral.coefficient / 10 ^ numeral.scale)

/-- The digits after the point. -/
def fractionDigits (numeral : Numeral) : List Char :=
  if numeral.scale = 0 then []
  else paddedDigits numeral.scale (numeral.coefficient % 10 ^ numeral.scale)

/-- The point and what follows it. -/
def fractionText (numeral : Numeral) : List Char :=
  if numeral.scale = 0 then [] else '.' :: numeral.fractionDigits

/-- The power of ten as it is written: a sign always, and its digits. -/
def powerText (power : Int) : List Char :=
  (if power < 0 then '-' else '+') :: Nat.toDigits 10 power.natAbs

/-- The letter and the power of an exponent, if there is one. -/
def exponentText (numeral : Numeral) : List Char :=
  match numeral.exponent with
  | none => []
  | some power => 'e' :: powerText power

/-- The sign of a negative numeral. -/
def signText (numeral : Numeral) : List Char :=
  if numeral.negative then ['-'] else []

theorem write_eq (numeral : Numeral) (rest : List Char) :
    numeral.write rest =
      numeral.signText ++ (numeral.wholeText ++ (numeral.fractionText ++
        (numeral.exponentText ++ rest))) := by
  have fraction : numeral.fractionText = if numeral.scale = 0 then [] else
      '.' :: paddedDigits numeral.scale (numeral.coefficient % 10 ^ numeral.scale) := by
    unfold fractionText fractionDigits
    split <;> rfl
  rw [fraction]
  unfold write signText wholeText exponentText powerText
  simp only [List.append_assoc]
  rfl

/-- There is a digit before the point. -/
theorem wholeText_eq_cons (numeral : Numeral) :
    ∃ digit digits, numeral.wholeText = digit :: digits ∧ digit.isDigit = true := by
  cases whole : numeral.wholeText with
  | nil => exact absurd whole Nat.toDigits_ne_nil
  | cons digit digits =>
      exact ⟨digit, digits, rfl, isDigit_of_mem_toDigits digit (whole ▸ List.mem_cons_self)⟩

theorem readExponent?_powerText (power : Int) : readExponent? (powerText power) = some power := by
  have split : splitDigits? (Nat.toDigits 10 power.natAbs) =
      some (Nat.toDigits 10 power.natAbs, []) := by
    have appended := splitDigits?_append .nil Nat.toDigits_ne_nil
      (@isDigit_of_mem_toDigits power.natAbs)
    rwa [List.append_nil] at appended
  unfold readExponent? powerText
  by_cases negative : power < 0
  · have magnitude : -(power.natAbs : Int) = power := by omega
    simp only [negative, if_true, split, Option.bind_eq_bind, Option.bind_some,
      Nat.ofDigitChars_ten_toDigits]
    exact congrArg some magnitude
  · have magnitude : (power.natAbs : Int) = power := by omega
    simp only [negative, if_false, split, Option.bind_eq_bind, Option.bind_some,
      Nat.ofDigitChars_ten_toDigits]
    exact congrArg some magnitude

/-- The digits on both sides of the point make up the coefficient. -/
theorem ofDigitChars_parts (numeral : Numeral) :
    Nat.ofDigitChars 10 (numeral.wholeText ++ numeral.fractionDigits) 0 =
      numeral.coefficient := by
  rw [Nat.ofDigitChars_append, wholeText, Nat.ofDigitChars_ten_toDigits, fractionDigits]
  by_cases whole : numeral.scale = 0
  · simp [whole]
  · rw [if_neg whole, ofDigitChars_paddedDigits (Nat.mod_lt _ (Nat.pow_pos (by decide)))
      (Nat.pos_of_ne_zero whole)]
    exact Nat.div_add_mod _ _

theorem length_fractionDigits (numeral : Numeral) :
    numeral.fractionDigits.length = numeral.scale := by
  rw [fractionDigits]
  by_cases whole : numeral.scale = 0
  · simp [whole]
  · rw [if_neg whole, length_paddedDigits (Nat.mod_lt _ (Nat.pow_pos (by decide)))
      (Nat.pos_of_ne_zero whole)]

theorem exponentText_stopsAt (numeral : Numeral) :
    StopsAt Char.isDigit numeral.exponentText := by
  unfold exponentText
  split
  · exact .nil
  · exact .cons (by decide)

theorem fractionText_stopsAt (numeral : Numeral) :
    StopsAt Char.isDigit (numeral.fractionText ++ numeral.exponentText) := by
  unfold fractionText
  split
  · exact numeral.exponentText_stopsAt
  · exact .cons (by decide)

theorem splitDigits?_whole (numeral : Numeral) :
    splitDigits? (numeral.wholeText ++ (numeral.fractionText ++ numeral.exponentText)) =
      some (numeral.wholeText, numeral.fractionText ++ numeral.exponentText) :=
  splitDigits?_append numeral.fractionText_stopsAt Nat.toDigits_ne_nil isDigit_of_mem_toDigits

/-! ## Reading -/

/-- A minus sign in front, and what follows it. -/
def splitSign (text : List Char) : Bool × List Char :=
  match text with
  | '-' :: rest => (true, rest)
  | _ => (false, text)

/-- The digits after a point in front, and what follows them. Without a point there are none. -/
def splitFraction? (text : List Char) : Option (List Char × List Char) :=
  match text with
  | '.' :: rest => splitDigits? rest
  | _ => some ([], text)

/-- What stands for an exponent up to the end. -/
def readPower? (text : List Char) : Option (Option Int) :=
  match text with
  | [] => some none
  | letter :: rest => if letter = 'e' ∨ letter = 'E' then (readExponent? rest).map some else none

theorem splitFraction?_of_ne {text : List Char} (noPoint : ∀ rest, text ≠ '.' :: rest) :
    splitFraction? text = some ([], text) := by
  unfold splitFraction?
  split
  · exact absurd rfl (noPoint _)
  · rfl

theorem read?_eq (text : List Char) :
    read? text = (splitDigits? (splitSign text).2).bind fun (whole, afterWhole) =>
      (guard (whole.head? ≠ some '0' ∨ whole.length = 1) : Option Unit).bind fun _ =>
        (splitFraction? afterWhole).bind fun (fraction, afterFraction) =>
          (readPower? afterFraction).map fun power =>
            ⟨(splitSign text).1, Nat.ofDigitChars 10 (whole ++ fraction) 0, fraction.length,
              power⟩ := by
  unfold read?
  split
  rename_i negative unsigned splits
  have splits : splitSign text = (negative, unsigned) := splits
  rw [splits]
  refine congrArg (Option.bind _) (funext fun (whole, afterWhole) => ?_)
  refine congrArg (Option.bind _) (funext fun _ => ?_)
  dsimp only
  have last (fraction afterFraction : List Char) : (match afterFraction with
      | [] => some ⟨negative, Nat.ofDigitChars 10 (whole ++ fraction) 0, fraction.length, none⟩
      | letter :: rest =>
        if letter = 'e' ∨ letter = 'E' then do
          let power ← (readExponent? rest).map some
          return ⟨negative, Nat.ofDigitChars 10 (whole ++ fraction) 0, fraction.length, power⟩
        else none) = (readPower? afterFraction).map fun power =>
          (⟨negative, Nat.ofDigitChars 10 (whole ++ fraction) 0, fraction.length, power⟩ :
            Numeral) := by
    unfold readPower?
    cases afterFraction with
    | nil => rfl
    | cons letter rest =>
        dsimp only
        split <;> cases readExponent? rest <;> rfl
  split
  · exact congrArg (Option.bind _) (funext fun (fraction, afterFraction) => last fraction _)
  · rename_i noPoint
    rw [splitFraction?_of_ne noPoint]
    exact last [] afterWhole

theorem splitSign_write (numeral : Numeral) (text : List Char) :
    splitSign (numeral.signText ++ (numeral.wholeText ++ text)) =
      (numeral.negative, numeral.wholeText ++ text) := by
  unfold signText
  cases negative : numeral.negative with
  | true => rfl
  | false =>
      rcases numeral.wholeText_eq_cons with ⟨digit, digits, whole, isDigit⟩
      have noSign : digit ≠ '-' := by
        rintro rfl
        cases isDigit
      simp only [whole, Bool.false_eq_true, if_false, List.nil_append, List.cons_append]
      unfold splitSign
      split
      · rename_i same
        exact absurd (List.cons.inj same).1 noSign
      · rfl

theorem splitFraction?_write (numeral : Numeral) :
    splitFraction? (numeral.fractionText ++ numeral.exponentText) =
      some (numeral.fractionDigits, numeral.exponentText) := by
  unfold fractionText fractionDigits
  by_cases whole : numeral.scale = 0
  · simp only [whole, if_true, List.nil_append]
    unfold exponentText
    cases numeral.exponent <;> rfl
  · simp only [whole, if_false, List.cons_append]
    have nonempty : paddedDigits numeral.scale (numeral.coefficient % 10 ^ numeral.scale) ≠ [] := by
      have length := numeral.length_fractionDigits
      simp only [fractionDigits, whole, if_false] at length
      exact List.ne_nil_of_length_pos (by omega)
    exact splitDigits?_append numeral.exponentText_stopsAt nonempty isDigit_of_mem_paddedDigits

theorem readPower?_write (numeral : Numeral) :
    readPower? numeral.exponentText = some numeral.exponent := by
  unfold exponentText
  cases numeral.exponent with
  | none => rfl
  | some power => simp [readPower?, readExponent?_powerText]

/-- The whole text of a numeral is read as the numeral. -/
theorem read?_write (numeral : Numeral) : read? (numeral.write []) = some numeral := by
  have headed : numeral.wholeText.head? ≠ some '0' ∨ numeral.wholeText.length = 1 :=
    head?_toDigits _
  rw [write_eq, List.append_nil, read?_eq, splitSign_write]
  simp only [splitDigits?_whole, splitFraction?_write, readPower?_write, Option.bind_some,
    Option.map_some, guard, headed, if_true, ofDigitChars_parts, length_fractionDigits]
  rfl

/-! ## Characters -/

theorem write_append (numeral : Numeral) (rest : List Char) :
    numeral.write rest = numeral.write [] ++ rest := by
  simp only [write_eq, List.append_assoc, List.nil_append]

/-- A numeral is written with digits, signs, points and the letter of an exponent. -/
theorem mem_write {numeral : Numeral} :
    ∀ char ∈ numeral.write [], char.isDigit = true ∨ char ∈ ['-', '+', '.', 'e'] := by
  have sign : ∀ char ∈ numeral.signText, char ∈ ['-', '+', '.', 'e'] := by
    unfold signText
    split <;> simp
  have fraction : ∀ char ∈ numeral.fractionText,
      char.isDigit = true ∨ char ∈ ['-', '+', '.', 'e'] := by
    unfold fractionText fractionDigits
    split
    · simp
    · exact List.forall_mem_cons.mpr
        ⟨.inr (by decide), fun char isDigit => .inl (isDigit_of_mem_paddedDigits char isDigit)⟩
  have power : ∀ char ∈ numeral.exponentText,
      char.isDigit = true ∨ char ∈ ['-', '+', '.', 'e'] := by
    unfold exponentText powerText
    split
    · simp
    · refine List.forall_mem_cons.mpr ⟨.inr (by decide), List.forall_mem_cons.mpr ⟨.inr ?_, ?_⟩⟩
      · split <;> decide
      · exact fun char isDigit => .inl (isDigit_of_mem_toDigits char isDigit)
  rw [write_eq, List.append_nil]
  simp only [List.forall_mem_append]
  exact ⟨fun char isSign => .inr (sign char isSign),
    fun char isDigit => .inl (isDigit_of_mem_toDigits char isDigit), fraction, power⟩

/-- A numeral begins with its sign or with a digit. -/
theorem write_eq_cons (numeral : Numeral) :
    ∃ first others, numeral.write [] = first :: others ∧
      (first = '-' ∨ first.isDigit = true) := by
  rw [write_eq, List.append_nil]
  unfold signText
  cases numeral.negative with
  | true => exact ⟨'-', _, rfl, .inl rfl⟩
  | false =>
      rcases numeral.wholeText_eq_cons with ⟨digit, digits, whole, isDigit⟩
      simp only [whole]
      exact ⟨digit, _, rfl, .inr isDigit⟩

end Numeral

end SmtModel
