import SmtModel.Proofs.Equivalence
import SmtModel.Proofs.Json.Numerals
import SmtModel.Value.Display

/-!
# Displayed values are told apart

A leaf is displayed as a word, which has no blanks and no brackets in it, and a composite
as a text in brackets. In such a text a tuple, a function and the default of a function
open with a word that no leaf is displayed as, and so does an arrow, so that wherever a
value may stand it can be seen whether there is one, and of what sort it is. Hence the
display of a value says where it ends, and what the value is (`Value.IsReadable`), but
for the handles of constants, which are not displayed (`Value.display_eq_iff`).

Doubles are left out: integers and doubles without fractional parts are displayed alike.
-/

namespace SmtModel

/-- Two texts that go on after the same kind of characters are split in the same place. -/
theorem StopsAt.append_inj {test : Char → Bool} {front front' rest rest' : List Char}
    (stops : StopsAt test rest) (stops' : StopsAt test rest')
    (all : ∀ char ∈ front, test char = true) (all' : ∀ char ∈ front', test char = true)
    (same : front ++ rest = front' ++ rest') : front = front' ∧ rest = rest' := by
  constructor
  · rw [← stops.takeWhile_append all, same, stops'.takeWhile_append all']
  · rw [← stops.dropWhile_append all, same, stops'.dropWhile_append all']

namespace Value

/-! ## Numbers -/

/-- The characters that integers are written with. -/
def isNumberChar (char : Char) : Bool := char.isDigit || char == '-'

theorem toList_toString (number : Int) :
    (toString number).toList =
      if 0 ≤ number then Nat.toDigits 10 number.toNat
      else '-' :: Nat.toDigits 10 (-number).toNat := by
  rw [Int.toString_eq_repr, Int.repr_eq_if]
  split_ifs with nonnegative
  · exact Nat.toList_repr
  · rw [String.toList_append, Nat.toList_repr]
    rfl

theorem isNumberChar_of_mem_toString (number : Int) :
    ∀ char ∈ (toString number).toList, isNumberChar char = true := by
  have digits (value : Nat) : ∀ char ∈ Nat.toDigits 10 value, isNumberChar char = true := by
    intro char isChar
    simp [isNumberChar, Numeral.isDigit_of_mem_toDigits char isChar]
  rw [toList_toString]
  split_ifs with nonnegative
  · exact digits _
  · exact List.forall_mem_cons.mpr ⟨rfl, digits _⟩

theorem toString_ne_nil (number : Int) : (toString number).toList ≠ [] := by
  rw [toList_toString]
  split_ifs with nonnegative
  · exact Nat.toDigits_ne_nil
  · exact List.cons_ne_nil _ _

theorem toString_inj {number number' : Int}
    (same : (toString number).toList = (toString number').toList) : number = number' := by
  rw [Int.toString_eq_repr, Int.toString_eq_repr] at same
  exact Int.repr_inj.mp (String.toList_inj.mp same)

/-- Two numbers with a mark between them are split at the mark. -/
theorem numbers_inj {mark : Char} (isMark : isNumberChar mark = false)
    {first first' : Int} {second second' : List Char}
    (same : (toString first).toList ++ mark :: second =
      (toString first').toList ++ mark :: second') : first = first' ∧ second = second' := by
  have split := StopsAt.append_inj (.cons isMark) (.cons isMark)
    (isNumberChar_of_mem_toString first) (isNumberChar_of_mem_toString first') same
  exact ⟨toString_inj split.1, List.tail_eq_of_cons_eq split.2⟩

/-! ## Bits -/

/-- The digit that a bit is displayed as. -/
def bitChar (bit : UInt8) : Char := if bit = 0 then '0' else '1'

theorem isDigit_of_mem_map_bitChar {bits : List UInt8} {digit : Char}
    (isDigit : digit ∈ bits.map bitChar) : digit = '0' ∨ digit = '1' := by
  rcases List.mem_map.mp isDigit with ⟨bit, -, rfl⟩
  unfold bitChar
  split_ifs
  · exact Or.inl rfl
  · exact Or.inr rfl

theorem flatMap_bits {bits : List UInt8} (areBits : ∀ bit ∈ bits, bit = 0 ∨ bit = 1) :
    bits.flatMap (fun bit => (toString bit.toNat).toList) = bits.map bitChar := by
  induction bits with
  | nil => rfl
  | cons bit bits ih =>
      rcases List.forall_mem_cons.mp areBits with ⟨isBit, areBits⟩
      rw [List.flatMap_cons, List.map_cons, ih areBits]
      rcases isBit with rfl | rfl <;> rfl

theorem map_bitChar_inj {bits bits' : List UInt8} (areBits : ∀ bit ∈ bits, bit = 0 ∨ bit = 1)
    (areBits' : ∀ bit ∈ bits', bit = 0 ∨ bit = 1)
    (same : bits.map bitChar = bits'.map bitChar) : bits = bits' := by
  induction bits generalizing bits' with
  | nil => exact (List.map_eq_nil_iff.mp same.symm).symm
  | cons bit bits ih =>
      cases bits' with
      | nil => simp at same
      | cons bit' bits' =>
          rcases List.forall_mem_cons.mp areBits with ⟨isBit, areBits⟩
          rcases List.forall_mem_cons.mp areBits' with ⟨isBit', areBits'⟩
          simp only [List.map_cons, List.cons.injEq] at same
          rw [ih areBits areBits' same.2]
          rcases isBit with rfl | rfl <;> rcases isBit' with rfl | rfl <;>
            first | rfl | simp [bitChar] at same

/-! ## Words -/

/-- There are no blanks and no brackets in words. -/
def isWordChar (char : Char) : Bool := char != ' ' && char != '(' && char != ')'

/-- The word that a leaf is displayed as. -/
def word? : Value → Option (List Char)
  | .absent => some "<absent>".toList
  | .bool truth => some (if truth then "true" else "false").toList
  | .int number => some (toString number).toList
  | .rational fraction => some (displayFraction fraction).toList
  | .float number => some (displayFloat number).toList
  | .scalar element =>
    some (element.type.toText.toList ++ '!' :: (toString element.index.toInt).toList)
  | .bitVector bits =>
    some ('#' :: 'b' :: bits.reverse.flatMap fun bit => (toString bit.toNat).toList)
  | .tuple _ | .mapping _ | .function _ => none

theorem Every.here {holds : Value → Prop} {value : Value} (every : value.Every holds) :
    holds value := by
  cases every with
  | node here _ => exact here

/-- A value that is not a double, nor a bit vector of other numbers than zero and one. -/
def IsPlain : Value → Prop
  | .float _ => False
  | .bitVector bits => ∀ bit ∈ bits, bit = 0 ∨ bit = 1
  | _ => True

/-- The words that stand for no value. -/
def reserved : List (List Char) :=
  ["mk-tuple".toList, "function".toList, "default".toList, "|->".toList]

/-- The sorts of words that stand for values. -/
inductive WordSort where
  | absent
  | bool
  | int
  | rational
  | scalar
  | bitVector
  deriving DecidableEq

/-- The sort of a word, by its first characters and by whether there is a fraction bar in it. -/
def WordSort.ofWord (word : List Char) : WordSort :=
  if '/' ∈ word then .rational
  else if word.head? = some '<' then .absent
  else if word.head? = some '#' then .bitVector
  else if word.head? = some 'f' ∨ word.take 2 = ['t', 'r'] then .bool
  else if word.head? = some 't' then .scalar
  else .int

/-- The sort of the word that a leaf is displayed as. -/
def wordSort? : Value → Option WordSort
  | .absent => some .absent
  | .bool _ => some .bool
  | .int _ => some .int
  | .rational _ => some .rational
  | .scalar _ => some .scalar
  | .bitVector _ => some .bitVector
  | .float _ | .tuple _ | .mapping _ | .function _ => none

/-- A word of a sort, which stands for a value. -/
structure IsWord (sort? : Option WordSort) (word : List Char) : Prop where
  chars : ∀ char ∈ word, isWordChar char = true
  nonempty : word ≠ []
  free : word ∉ reserved
  sort : some (WordSort.ofWord word) = sort?

theorem ne_of_isNumberChar {char other : Char} (isNumber : isNumberChar char = true)
    (notNumber : isNumberChar other = false) : char ≠ other := by
  rintro rfl
  rw [isNumber] at notNumber
  cases notNumber

theorem isWordChar_of_isNumberChar {char : Char} (isNumber : isNumberChar char = true) :
    isWordChar char = true := by
  have apart (other : Char) : isNumberChar other = false → char ≠ other :=
    ne_of_isNumberChar isNumber
  simp [isWordChar, apart ' ' rfl, apart '(' rfl, apart ')' rfl]

theorem isWordChar_of_mem_toString (number : Int) :
    ∀ char ∈ (toString number).toList, isWordChar char = true :=
  fun char isChar => isWordChar_of_isNumberChar (isNumberChar_of_mem_toString number char isChar)

/-- A mark that no number is written with is not in one. -/
theorem not_mem_toString (number : Int) (mark : Char) (isMark : isNumberChar mark = false) :
    mark ∉ (toString number).toList :=
  fun isChar => ne_of_isNumberChar (isNumberChar_of_mem_toString number mark isChar) isMark rfl

theorem isWord_int (number : Int) : IsWord (some .int) (toString number).toList := by
  have numbers := isNumberChar_of_mem_toString number
  have words := isWordChar_of_mem_toString number
  have noBar := not_mem_toString number '/' rfl
  have nonempty := toString_ne_nil number
  generalize (toString number).toList = word at numbers words noBar nonempty
  cases word with
  | nil => exact absurd rfl nonempty
  | cons first word =>
      have apart (other : Char) : isNumberChar other = false → first ≠ other :=
        ne_of_isNumberChar (numbers first List.mem_cons_self)
      refine ⟨words, nonempty, ?_, ?_⟩
      · simp [reserved, apart 'm' rfl, apart 'f' rfl, apart 'd' rfl, apart '|' rfl]
      · rw [WordSort.ofWord, if_neg noBar]
        simp [apart '<' rfl, apart '#' rfl, apart 'f' rfl, apart 't' rfl]

theorem toList_displayFraction (fraction : Fraction) :
    (displayFraction fraction).toList =
      (toString fraction.numerator).toList ++ '/' :: (toString fraction.denominator).toList := by
  simp [displayFraction, String.toList_append]

theorem displayFraction_inj {fraction fraction' : Fraction}
    (same : (displayFraction fraction).toList = (displayFraction fraction').toList) :
    fraction = fraction' := by
  rcases fraction with ⟨numerator, denominator⟩
  rcases fraction' with ⟨numerator', denominator'⟩
  rw [toList_displayFraction, toList_displayFraction] at same
  rcases numbers_inj rfl same with ⟨sameNumerator, same⟩
  cases sameNumerator
  cases toString_inj same
  rfl

theorem isWord_rational (fraction : Fraction) :
    IsWord (some .rational) (displayFraction fraction).toList := by
  rw [toList_displayFraction]
  have bar : '/' ∈ (toString fraction.numerator).toList ++
      '/' :: (toString fraction.denominator).toList := by simp
  have noBar : ∀ word ∈ reserved, '/' ∉ word := by decide
  refine ⟨?_, by simp, fun isReserved => noBar _ isReserved bar, by rw [WordSort.ofWord, if_pos bar]⟩
  rw [List.forall_mem_append, List.forall_mem_cons]
  exact ⟨isWordChar_of_mem_toString _, rfl, isWordChar_of_mem_toString _⟩

theorem toList_toText (type : TypeId) :
    type.toText.toList = "type#".toList ++ (toString type.code.toInt).toList := by
  rw [TypeId.toText, String.toList_append]

/-- A scalar is displayed by its type and its place. -/
theorem scalarWord_inj {element element' : ScalarValue}
    (same : element.type.toText.toList ++ '!' :: (toString element.index.toInt).toList =
      element'.type.toText.toList ++ '!' :: (toString element'.index.toInt).toList) :
    element.type = element'.type ∧ element.index = element'.index := by
  rcases element with ⟨constant, ⟨type⟩, index⟩
  rcases element' with ⟨constant', ⟨type'⟩, index'⟩
  rw [toList_toText, toList_toText, List.append_assoc, List.append_assoc] at same
  rcases numbers_inj rfl (List.append_cancel_left same) with ⟨sameType, same⟩
  cases Int32.toInt_inj.mp sameType
  cases Int32.toInt_inj.mp (toString_inj same)
  exact ⟨rfl, rfl⟩

theorem isWord_scalar (element : ScalarValue) :
    IsWord (some .scalar)
      (element.type.toText.toList ++ '!' :: (toString element.index.toInt).toList) := by
  rw [toList_toText]
  have noBar : '/' ∉ "type#".toList ++ (toString element.type.code.toInt).toList ++
      '!' :: (toString element.index.toInt).toList := by
    simp only [List.mem_append, List.mem_cons, not_mem_toString _ '/' rfl]
    decide
  refine ⟨?_, by simp, by simp [reserved], ?_⟩
  · simp only [List.forall_mem_append, List.forall_mem_cons]
    exact ⟨⟨by simp [isWordChar], isWordChar_of_mem_toString _⟩, rfl,
      isWordChar_of_mem_toString _⟩
  · rw [WordSort.ofWord, if_neg noBar]
    simp

theorem isWord_bitVector {bits : List UInt8} (areBits : ∀ bit ∈ bits, bit = 0 ∨ bit = 1) :
    IsWord (some .bitVector)
      ('#' :: 'b' :: bits.reverse.flatMap fun bit => (toString bit.toNat).toList) := by
  rw [flatMap_bits (by simpa using areBits)]
  have noBar : '/' ∉ '#' :: 'b' :: bits.reverse.map bitChar := by
    simp only [List.mem_cons, not_or]
    refine ⟨by decide, by decide, fun isDigit => ?_⟩
    have isDigit := isDigit_of_mem_map_bitChar isDigit
    simp at isDigit
  refine ⟨?_, by simp, by simp [reserved], ?_⟩
  · simp only [List.forall_mem_cons]
    refine ⟨rfl, rfl, fun char isChar => ?_⟩
    rcases isDigit_of_mem_map_bitChar isChar with rfl | rfl <;> rfl
  · rw [WordSort.ofWord, if_neg noBar]
    simp

/-- A leaf is displayed as a word of its sort. -/
theorem isWord {value : Value} (plain : value.IsPlain) {word : List Char}
    (isLeaf : value.word? = some word) : IsWord value.wordSort? word := by
  cases value with
  | absent =>
      cases isLeaf
      exact ⟨by simp [isWordChar], by simp, by simp [reserved], rfl⟩
  | bool truth =>
      cases isLeaf
      cases truth <;> exact ⟨by simp [isWordChar], by simp, by simp [reserved], rfl⟩
  | int number =>
      cases isLeaf
      exact isWord_int number
  | rational fraction =>
      cases isLeaf
      exact isWord_rational fraction
  | scalar element =>
      cases isLeaf
      exact isWord_scalar element
  | bitVector bits =>
      cases isLeaf
      exact isWord_bitVector plain
  | float number => exact plain.elim
  | tuple | mapping | function => cases isLeaf

/-! ## Values without the handles of constants -/

mutual

/-- The value with no handles of constants in it. -/
def unnamed : Value → Value
  | .scalar element => .scalar { element with constant := .null }
  | .tuple items => .tuple (allUnnamed items)
  | .mapping point => .mapping (pointUnnamed point)
  | .function graph => .function (graphUnnamed graph)
  | .absent => .absent
  | .bool truth => .bool truth
  | .int number => .int number
  | .rational fraction => .rational fraction
  | .float number => .float number
  | .bitVector bits => .bitVector bits
termination_by structural value => value

/-- The values of a list with no handles of constants in them. -/
def allUnnamed : List Value → List Value
  | [] => []
  | value :: values => value.unnamed :: allUnnamed values
termination_by structural values => values

/-- The mapping with no handles of constants in its arguments and its result. -/
def pointUnnamed : Mapping Value → Mapping Value
  | ⟨args, result⟩ => ⟨allUnnamed args, result.unnamed⟩
termination_by structural point => point

/-- The function with no handles of constants in its default and its entries. -/
def graphUnnamed : FiniteFunction Value → FiniteFunction Value
  | ⟨default, entries⟩ => ⟨default.unnamed, entriesUnnamed entries⟩
termination_by structural graph => graph

/-- The entries of a function with no handles of constants in them. -/
def entriesUnnamed : List (Mapping Value) → List (Mapping Value)
  | [] => []
  | entry :: entries => pointUnnamed entry :: entriesUnnamed entries
termination_by structural entries => entries

end

/-! ## Leaves -/

section Leaves

variable {value other : Value} {word rest rest' : List Char}

theorem write_of_word (isLeaf : value.word? = some word) : value.write rest = word ++ rest := by
  cases value with
  | tuple | mapping | function => cases isLeaf
  | _ =>
      cases isLeaf
      rfl

/-- Leaves that are displayed as the same word are the same, but for handles. -/
theorem unnamed_eq_of_word (plain : value.IsPlain) (otherPlain : other.IsPlain)
    (isLeaf : value.word? = some word) (otherIsLeaf : other.word? = some word) :
    value.unnamed = other.unnamed := by
  have sameSort : value.wordSort? = other.wordSort? :=
    (isWord plain isLeaf).sort.symm.trans (isWord otherPlain otherIsLeaf).sort
  cases value with
  | absent =>
      cases other with
      | absent => rfl
      | _ => cases sameSort
  | bool truth =>
      cases other with
      | bool truth' =>
          cases isLeaf
          cases truth <;> cases truth' <;> first | rfl | simp [word?] at otherIsLeaf
      | _ => cases sameSort
  | int number =>
      cases other with
      | int number' =>
          rw [toString_inj (Option.some.inj (isLeaf.trans otherIsLeaf.symm))]
      | _ => cases sameSort
  | rational fraction =>
      cases other with
      | rational fraction' =>
          rw [displayFraction_inj (Option.some.inj (isLeaf.trans otherIsLeaf.symm))]
      | _ => cases sameSort
  | scalar element =>
      cases other with
      | scalar element' =>
          have same := scalarWord_inj (Option.some.inj (isLeaf.trans otherIsLeaf.symm))
          rw [unnamed, unnamed, same.1, same.2]
      | _ => cases sameSort
  | bitVector bits =>
      cases other with
      | bitVector bits' =>
          have same := Option.some.inj (isLeaf.trans otherIsLeaf.symm)
          have areBits : ∀ bit ∈ bits.reverse, bit = 0 ∨ bit = 1 :=
            fun bit isBit => plain bit (List.mem_reverse.mp isBit)
          have areBits' : ∀ bit ∈ bits'.reverse, bit = 0 ∨ bit = 1 :=
            fun bit isBit => otherPlain bit (List.mem_reverse.mp isBit)
          rw [flatMap_bits areBits, flatMap_bits areBits', List.cons.injEq, List.cons.injEq] at same
          rw [List.reverse_inj.mp (map_bitChar_inj areBits areBits' same.2.2)]
      | _ => cases sameSort
  | float number => exact plain.elim
  | tuple | mapping | function => cases isLeaf

end Leaves

/-! ## What a text begins with -/

/-- The word that a text begins with, which may be empty. -/
def leadingWord (text : List Char) : List Char := text.takeWhile isWordChar

/-- How a text for a value begins: with a word, or with the bracket of a composite. -/
inductive Opening where
  | word
  | tuple
  | mapping
  | function

/-- How a text begins. A bracket without one of the two head words opens a mapping. -/
def Opening.ofText : List Char → Opening
  | '(' :: text =>
    if leadingWord text = "mk-tuple".toList then .tuple
    else if leadingWord text = "function".toList then .function
    else .mapping
  | _ => .word

/-- How the display of a value begins. -/
def opening : Value → Opening
  | .tuple _ => .tuple
  | .mapping _ => .mapping
  | .function _ => .function
  | _ => .word

/-- What comes after the last value of a list: the bracket of a tuple, or the arrow of a point. -/
inductive EndsList : List Char → Prop where
  | bracket (rest : List Char) : EndsList (')' :: rest)
  | arrow (rest : List Char) : EndsList (" |-> ".toList ++ rest)

theorem EndsList.stops {rest : List Char} (ends : EndsList rest) : StopsAt isWordChar rest := by
  cases ends with
  | bracket rest => exact .cons rfl
  | arrow rest => exact .cons rfl

section Opening

variable {value : Value} {values : List Value} {rest : List Char}

theorem write_composite (isComposite : value.word? = none) (rest : List Char) :
    ∃ text, value.write rest = '(' :: text := by
  cases value with
  | tuple items => exact ⟨_, rfl⟩
  | mapping point =>
      cases point
      exact ⟨_, rfl⟩
  | function graph =>
      cases graph
      exact ⟨_, rfl⟩
  | _ => cases isComposite

/-- The display of a value begins with no reserved word. -/
theorem leadingWord_write (plain : value.IsPlain) (stops : StopsAt isWordChar rest) :
    leadingWord (value.write rest) ∉ reserved := by
  cases isLeaf : value.word? with
  | none =>
      rcases write_composite isLeaf rest with ⟨text, writes⟩
      rw [writes]
      simp [leadingWord, isWordChar, reserved]
  | some word =>
      rw [write_of_word isLeaf, leadingWord, stops.takeWhile_append (isWord plain isLeaf).chars]
      exact (isWord plain isLeaf).free

theorem stopsAt_writeMore (ends : EndsList rest) : StopsAt isWordChar (writeMore values rest) := by
  cases values with
  | nil => exact ends.stops
  | cons value values => exact .cons rfl

theorem leadingWord_writeList (plain : ∀ value ∈ values, value.IsPlain) (ends : EndsList rest) :
    leadingWord (writeList values rest) ∉ reserved := by
  cases values with
  | nil => cases ends <;> simp [writeList, leadingWord, isWordChar, reserved]
  | cons value values =>
      exact leadingWord_write (plain value List.mem_cons_self) (stopsAt_writeMore ends)

theorem Opening.ofText_tuple {text : List Char} (word : leadingWord text = "mk-tuple".toList) :
    Opening.ofText ('(' :: text) = .tuple :=
  if_pos word

theorem Opening.ofText_function {text : List Char} (word : leadingWord text = "function".toList) :
    Opening.ofText ('(' :: text) = .function := by
  have noTuple : leadingWord text ≠ "mk-tuple".toList := by simp [word]
  exact (if_neg noTuple).trans (if_pos word)

theorem Opening.ofText_mapping {text : List Char} (free : leadingWord text ∉ reserved) :
    Opening.ofText ('(' :: text) = .mapping := by
  simp only [reserved, List.mem_cons, not_or] at free
  exact (if_neg free.1).trans (if_neg free.2.1)

theorem Opening.ofText_word {char : Char} (noBracket : char ≠ '(') (text : List Char) :
    Opening.ofText (char :: text) = .word := by
  unfold Opening.ofText
  split
  · next same => exact absurd (List.head_eq_of_cons_eq same) noBracket
  · rfl

theorem write_leaf (plain : value.IsPlain) {word : List Char} (isLeaf : value.word? = some word)
    (rest : List Char) :
    ∃ char text, value.write rest = char :: text ∧ isWordChar char = true := by
  rcases isWord plain isLeaf with ⟨chars, nonempty, -, -⟩
  rw [write_of_word isLeaf]
  cases word with
  | nil => exact absurd rfl nonempty
  | cons char word => exact ⟨char, word ++ rest, rfl, chars char List.mem_cons_self⟩

/-- Neither a blank nor a closing bracket comes first in the display of a value. -/
theorem write_eq_cons (plain : value.IsPlain) (rest : List Char) :
    ∃ char text, value.write rest = char :: text ∧ char ≠ ' ' ∧ char ≠ ')' := by
  cases isLeaf : value.word? with
  | none =>
      rcases write_composite isLeaf rest with ⟨text, writes⟩
      exact ⟨'(', text, writes, by decide, by decide⟩
  | some word =>
      rcases write_leaf plain isLeaf rest with ⟨char, text, writes, isWordChar⟩
      refine ⟨char, text, writes, ?_, ?_⟩
      · rintro rfl
        cases isWordChar
      · rintro rfl
        cases isWordChar

/-- Where a list ends, there is no first value. -/
theorem EndsList.ne_write (ends : EndsList rest) (plain : value.IsPlain) (text : List Char) :
    rest ≠ value.write text := by
  rcases write_eq_cons plain text with ⟨char, text', writes, noBlank, noBracket⟩
  rw [writes]
  cases ends with
  | bracket rest =>
      intro same
      exact noBracket (List.head_eq_of_cons_eq same).symm
  | arrow rest =>
      intro same
      exact noBlank (List.head_eq_of_cons_eq same).symm

/-- Where a list ends, there is no further value. -/
theorem EndsList.ne_more (ends : EndsList rest) (plain : value.IsPlain) {text : List Char}
    (stops : StopsAt isWordChar text) : rest ≠ ' ' :: value.write text := by
  cases ends with
  | bracket rest => simp
  | arrow rest =>
      intro same
      have same : "|-> ".toList ++ rest = value.write text := List.tail_eq_of_cons_eq same
      have noArrow := leadingWord_write plain stops
      rw [← same] at noArrow
      simp [leadingWord, isWordChar, reserved] at noArrow

theorem stopsAt_writeEntries (entries : List (Mapping Value)) (rest : List Char) :
    StopsAt isWordChar (writeEntries entries (" (default ".toList ++ rest)) := by
  cases entries with
  | nil => exact .cons rfl
  | cons entry entries => exact .cons rfl

/-- The text of a function after the bracket begins with a word of its own. -/
theorem leadingWord_function (entries : List (Mapping Value)) (rest : List Char) :
    leadingWord ("function".toList ++ writeEntries entries (" (default ".toList ++ rest)) =
      "function".toList := by
  have chars : ∀ char ∈ "function".toList, isWordChar char = true := by simp [isWordChar]
  exact (stopsAt_writeEntries entries rest).takeWhile_append chars

theorem areArgsPlain {args : List Value} {result : Value}
    (plain : (Value.mapping ⟨args, result⟩).Every IsPlain) : ∀ arg ∈ args, arg.IsPlain :=
  fun arg isArg => (((every_mapping_iff plain.here).mp plain).1 arg isArg).here

/-- The display of a value opens as the value does. -/
theorem opening_write (plain : value.Every IsPlain) (rest : List Char) :
    Opening.ofText (value.write rest) = value.opening := by
  cases value with
  | tuple items =>
      have word : leadingWord ("mk-tuple ".toList ++ writeList items (')' :: rest)) =
          "mk-tuple".toList := by simp [leadingWord, isWordChar]
      exact Opening.ofText_tuple word
  | mapping point =>
      rcases point with ⟨args, result⟩
      exact Opening.ofText_mapping (leadingWord_writeList (areArgsPlain plain) (.arrow _))
  | function graph =>
      rcases graph with ⟨default, entries⟩
      exact Opening.ofText_function (leadingWord_function entries _)
  | _ =>
      rcases write_leaf plain.here rfl rest with ⟨char, text, writes, isWordChar⟩
      rw [writes]
      refine Opening.ofText_word ?_ text
      rintro rfl
      cases isWordChar

/-- Equal texts open alike. -/
theorem opening_eq {other : Value} {rest' : List Char} (plain : value.Every IsPlain)
    (otherPlain : other.Every IsPlain) (same : value.write rest = other.write rest') :
    value.opening = other.opening := by
  rw [← opening_write plain rest, same, opening_write otherPlain rest']

end Opening

/-! ## Reading back -/

/-- The display of a value says what the value is, but for handles, and where it ends. -/
def IsReadable (value : Value) : Prop :=
  ∀ (other : Value) (rest rest' : List Char), other.Every IsPlain → StopsAt isWordChar rest →
    StopsAt isWordChar rest' → value.write rest = other.write rest' →
      value.unnamed = other.unnamed ∧ rest = rest'

section Lists

variable {values others : List Value} {rest rest' : List Char}
  (readable : ∀ value ∈ values, value.IsReadable)
  (plain : ∀ value ∈ values, value.IsPlain) (othersPlain : ∀ other ∈ others, other.Every IsPlain)
  (ends : EndsList rest) (ends' : EndsList rest')

include readable plain othersPlain ends ends'

theorem writeMore_inj (same : writeMore values rest = writeMore others rest') :
    allUnnamed values = allUnnamed others ∧ rest = rest' := by
  induction values generalizing others with
  | nil =>
      cases others with
      | nil => exact ⟨rfl, same⟩
      | cons other others =>
          have otherPlain := (othersPlain other List.mem_cons_self).here
          exact absurd same (ends.ne_more otherPlain (stopsAt_writeMore ends'))
  | cons value values ih =>
      rcases List.forall_mem_cons.mp readable with ⟨valueReadable, readable⟩
      rcases List.forall_mem_cons.mp plain with ⟨valuePlain, plain⟩
      cases others with
      | nil => exact absurd same.symm (ends'.ne_more valuePlain (stopsAt_writeMore ends))
      | cons other others =>
          rcases List.forall_mem_cons.mp othersPlain with ⟨otherPlain, othersPlain⟩
          have same := List.tail_eq_of_cons_eq same
          rcases valueReadable other _ _ otherPlain (stopsAt_writeMore ends)
            (stopsAt_writeMore ends') same with ⟨sameValue, same⟩
          rcases ih readable plain othersPlain same with ⟨sameValues, same⟩
          rw [allUnnamed, allUnnamed, sameValue, sameValues]
          exact ⟨rfl, same⟩

theorem writeList_inj (same : writeList values rest = writeList others rest') :
    allUnnamed values = allUnnamed others ∧ rest = rest' := by
  cases values with
  | nil =>
      cases others with
      | nil => exact ⟨rfl, same⟩
      | cons other others =>
          have otherPlain := (othersPlain other List.mem_cons_self).here
          exact absurd same (ends.ne_write otherPlain _)
  | cons value values =>
      rcases List.forall_mem_cons.mp readable with ⟨valueReadable, readable⟩
      rcases List.forall_mem_cons.mp plain with ⟨valuePlain, plain⟩
      cases others with
      | nil => exact absurd same.symm (ends'.ne_write valuePlain _)
      | cons other others =>
          rcases List.forall_mem_cons.mp othersPlain with ⟨otherPlain, othersPlain⟩
          rcases valueReadable other _ _ otherPlain (stopsAt_writeMore ends)
            (stopsAt_writeMore ends') same with ⟨sameValue, same⟩
          rcases writeMore_inj readable plain othersPlain ends ends' same with ⟨sameValues, same⟩
          rw [allUnnamed, allUnnamed, sameValue, sameValues]
          exact ⟨rfl, same⟩

end Lists

theorem unnamed_mapping_inj {point point' : Mapping Value}
    (same : (Value.mapping point).unnamed = (Value.mapping point').unnamed) :
    pointUnnamed point = pointUnnamed point' :=
  Value.mapping.inj same

section Entries

variable {entries others : List (Mapping Value)} {rest rest' : List Char}

/-- Where the default of a function comes, there is no further entry. -/
theorem default_ne_entry {other : Mapping Value} (plain : (Value.mapping other).Every IsPlain)
    (text : List Char) :
    " (default ".toList ++ rest ≠ ' ' :: writeMapping other text := by
  rcases other with ⟨args, result⟩
  intro same
  have same : "default ".toList ++ rest =
      writeList args (" |-> ".toList ++ result.write (')' :: text)) :=
    List.tail_eq_of_cons_eq (List.tail_eq_of_cons_eq same)
  have noDefault := leadingWord_writeList (areArgsPlain plain) (.arrow (result.write (')' :: text)))
  rw [← same] at noDefault
  simp [leadingWord, isWordChar, reserved] at noDefault

theorem writeEntries_inj (readable : ∀ entry ∈ entries, (Value.mapping entry).IsReadable)
    (plain : ∀ entry ∈ entries, (Value.mapping entry).Every IsPlain)
    (othersPlain : ∀ other ∈ others, (Value.mapping other).Every IsPlain)
    (same : writeEntries entries (" (default ".toList ++ rest) =
      writeEntries others (" (default ".toList ++ rest')) :
    entriesUnnamed entries = entriesUnnamed others ∧ rest = rest' := by
  induction entries generalizing others with
  | nil =>
      cases others with
      | nil => exact ⟨rfl, List.append_cancel_left same⟩
      | cons other others =>
          exact absurd same (default_ne_entry (othersPlain other List.mem_cons_self) _)
  | cons entry entries ih =>
      rcases List.forall_mem_cons.mp readable with ⟨entryReadable, readable⟩
      rcases List.forall_mem_cons.mp plain with ⟨entryPlain, plain⟩
      cases others with
      | nil => exact absurd same.symm (default_ne_entry entryPlain _)
      | cons other others =>
          rcases List.forall_mem_cons.mp othersPlain with ⟨otherPlain, othersPlain⟩
          have same := List.tail_eq_of_cons_eq same
          rcases entryReadable (.mapping other) _ _ otherPlain (stopsAt_writeEntries entries rest)
            (stopsAt_writeEntries others rest') same with ⟨sameEntry, same⟩
          rcases ih readable plain othersPlain same with ⟨sameEntries, same⟩
          rw [entriesUnnamed, entriesUnnamed, unnamed_mapping_inj sameEntry, sameEntries]
          exact ⟨rfl, same⟩

end Entries

/-- A leaf ends where its word does. -/
theorem leaf_isReadable {value : Value} (plain : value.IsPlain) {word : List Char}
    (isLeaf : value.word? = some word) : value.IsReadable := by
  intro other rest rest' otherPlain stops stops' same
  cases otherIsLeaf : other.word? with
  | none =>
      rcases write_composite otherIsLeaf rest' with ⟨text, writes⟩
      rcases write_leaf plain isLeaf rest with ⟨char, text', writes', isWordChar⟩
      rw [writes, writes'] at same
      cases List.head_eq_of_cons_eq same
      cases isWordChar
  | some word' =>
      rw [write_of_word isLeaf, write_of_word otherIsLeaf] at same
      have split := stops.append_inj stops' (isWord plain isLeaf).chars
        (isWord otherPlain.here otherIsLeaf).chars same
      rw [← split.1] at otherIsLeaf
      exact ⟨unnamed_eq_of_word plain otherPlain.here isLeaf otherIsLeaf, split.2⟩

theorem tuple_isReadable {items : List Value} (plain : (Value.tuple items).Every IsPlain)
    (readable : ∀ item ∈ items, item.IsReadable) : (Value.tuple items).IsReadable := by
  intro other rest rest' otherPlain stops stops' same
  have sameOpening := opening_eq plain otherPlain same
  cases other with
  | tuple others =>
      have itemsPlain := (every_iff_parts plain.here).mp plain
      have othersPlain := (every_iff_parts otherPlain.here).mp otherPlain
      have same : "(mk-tuple ".toList ++ writeList items (')' :: rest) =
          "(mk-tuple ".toList ++ writeList others (')' :: rest') := same
      have same := List.append_cancel_left same
      rcases writeList_inj readable (fun item isItem => (itemsPlain item isItem).here) othersPlain
        (.bracket rest) (.bracket rest') same with ⟨sameItems, same⟩
      rw [unnamed, unnamed, sameItems]
      exact ⟨rfl, List.tail_eq_of_cons_eq same⟩
  | _ => cases sameOpening

theorem mapping_isReadable {point : Mapping Value} (plain : (Value.mapping point).Every IsPlain)
    (argsReadable : ∀ arg ∈ point.args, arg.IsReadable) (resultReadable : point.result.IsReadable) :
    (Value.mapping point).IsReadable := by
  intro other rest rest' otherPlain stops stops' same
  have sameOpening := opening_eq plain otherPlain same
  cases other with
  | mapping other =>
      rcases point with ⟨args, result⟩
      rcases other with ⟨args', result'⟩
      rcases (every_mapping_iff otherPlain.here).mp otherPlain with ⟨othersPlain, resultPlain⟩
      rcases writeList_inj argsReadable (areArgsPlain plain) othersPlain (.arrow _) (.arrow _)
        (List.tail_eq_of_cons_eq same) with ⟨sameArgs, same⟩
      rcases resultReadable result' _ _ resultPlain (.cons rfl) (.cons rfl)
        (List.append_cancel_left same) with ⟨sameResult, same⟩
      simp only [unnamed, pointUnnamed, sameArgs, sameResult]
      exact ⟨trivial, List.tail_eq_of_cons_eq same⟩
  | _ => cases sameOpening

theorem function_isReadable {graph : FunctionValue} (plain : (Value.function graph).Every IsPlain)
    (defaultReadable : graph.default.IsReadable)
    (readable : ∀ entry ∈ graph.entries, (Value.mapping entry).IsReadable) :
    (Value.function graph).IsReadable := by
  intro other rest rest' otherPlain stops stops' same
  have sameOpening := opening_eq plain otherPlain same
  cases other with
  | function other =>
      rcases graph with ⟨default, entries⟩
      rcases other with ⟨default', entries'⟩
      rcases (every_function_iff plain.here).mp plain with ⟨-, entriesPlain⟩
      rcases (every_function_iff otherPlain.here).mp otherPlain with ⟨defaultPlain, othersPlain⟩
      have same : "(function".toList ++ writeEntries entries
            (" (default ".toList ++ default.write (')' :: ')' :: rest)) =
          "(function".toList ++ writeEntries entries'
            (" (default ".toList ++ default'.write (')' :: ')' :: rest')) := same
      have same := List.append_cancel_left same
      rcases writeEntries_inj readable entriesPlain othersPlain same with ⟨sameEntries, same⟩
      rcases defaultReadable default' _ _ defaultPlain (.cons rfl) (.cons rfl) same with
        ⟨sameDefault, same⟩
      simp only [unnamed, graphUnnamed, sameDefault, sameEntries]
      exact ⟨trivial, List.tail_eq_of_cons_eq (List.tail_eq_of_cons_eq same)⟩
  | _ => cases sameOpening

/-- Every value reads back, as the values below it do. -/
theorem isReadable (value : Value) (plain : value.Every IsPlain) : value.IsReadable := by
  induction value using induction_on_parts with
  | step value ih =>
      have readable : ∀ part ∈ value.parts, part.IsReadable := by
        intro part isPart
        exact ih part isPart ((every_iff_parts plain.here).mp plain part isPart)
      cases value with
      | tuple items => exact tuple_isReadable plain readable
      | mapping point =>
          rcases List.forall_mem_append.mp readable with ⟨argsReadable, resultReadable⟩
          exact mapping_isReadable plain argsReadable (List.forall_mem_singleton.mp resultReadable)
      | function graph =>
          rcases List.forall_mem_cons.mp readable with ⟨defaultReadable, entriesReadable⟩
          exact function_isReadable plain defaultReadable (List.forall_mem_map.mp entriesReadable)
      | float number => exact plain.here.elim
      | _ => exact leaf_isReadable plain.here rfl

/-! ## Displays -/

mutual

/-- Handles of constants are not displayed. -/
theorem write_unnamed : ∀ (value : Value) (rest : List Char),
    value.unnamed.write rest = value.write rest
  | .tuple items, _ => congrArg ("(mk-tuple ".toList ++ ·) (writeList_unnamed items _)
  | .mapping point, rest => writeMapping_unnamed point rest
  | .function graph, rest => writeFunction_unnamed graph rest
  | .absent, _ | .bool _, _ | .int _, _ | .rational _, _ | .float _, _ | .scalar _, _
  | .bitVector _, _ => rfl
termination_by structural value => value

theorem writeList_unnamed : ∀ (values : List Value) (rest : List Char),
    writeList (allUnnamed values) rest = writeList values rest
  | [], _ => rfl
  | value :: values, rest =>
    (write_unnamed value _).trans (congrArg value.write (writeMore_unnamed values rest))
termination_by structural values => values

theorem writeMore_unnamed : ∀ (values : List Value) (rest : List Char),
    writeMore (allUnnamed values) rest = writeMore values rest
  | [], _ => rfl
  | value :: values, rest =>
    congrArg (' ' :: ·)
      ((write_unnamed value _).trans (congrArg value.write (writeMore_unnamed values rest)))
termination_by structural values => values

theorem writeMapping_unnamed : ∀ (point : Mapping Value) (rest : List Char),
    writeMapping (pointUnnamed point) rest = writeMapping point rest
  | ⟨args, result⟩, rest =>
    congrArg ('(' :: ·) ((writeList_unnamed args _).trans
      (congrArg (writeList args <| " |-> ".toList ++ ·) (write_unnamed result (')' :: rest))))
termination_by structural point => point

theorem writeFunction_unnamed : ∀ (graph : FiniteFunction Value) (rest : List Char),
    writeFunction (graphUnnamed graph) rest = writeFunction graph rest
  | ⟨default, entries⟩, rest =>
    congrArg ("(function".toList ++ ·) ((writeEntries_unnamed entries _).trans
      (congrArg (writeEntries entries <| " (default ".toList ++ ·)
        (write_unnamed default (')' :: ')' :: rest))))
termination_by structural graph => graph

theorem writeEntries_unnamed : ∀ (entries : List (Mapping Value)) (rest : List Char),
    writeEntries (entriesUnnamed entries) rest = writeEntries entries rest
  | [], _ => rfl
  | entry :: entries, rest =>
    congrArg (' ' :: ·) ((writeMapping_unnamed entry _).trans
      (congrArg (writeMapping entry) (writeEntries_unnamed entries rest)))
termination_by structural entries => entries

end

/-- Values without doubles, and with bits that are bits, are displayed alike if and only if they are
the same but for the handles of constants. -/
theorem display_eq_iff {left right : Value} (leftPlain : left.Every IsPlain)
    (rightPlain : right.Every IsPlain) :
    left.display = right.display ↔ left.unnamed = right.unnamed := by
  constructor
  · intro same
    have same := String.ofList_injective same
    exact (isReadable left leftPlain right [] [] rightPlain .nil .nil same).1
  · intro same
    unfold display
    rw [← write_unnamed left, same, write_unnamed right]

/-- A tuple with an empty mapping, an empty bit vector and two fractions in it reads back, but for
the handle of the constant. -/
theorem display_eq_iff_emptyParts :
    (tuple [mapping ⟨[], bitVector []⟩, rational ⟨1, -2⟩, scalar ⟨⟨3⟩, ⟨0⟩, 1⟩]).display =
        (tuple [mapping ⟨[], bitVector []⟩, rational ⟨1, -2⟩, scalar ⟨⟨4⟩, ⟨0⟩, 1⟩]).display ∧
      (tuple [mapping ⟨[], bitVector []⟩, rational ⟨1, -2⟩, scalar ⟨⟨3⟩, ⟨0⟩, 1⟩]).display ≠
        (tuple [mapping ⟨[], bitVector []⟩, rational ⟨2, -4⟩, scalar ⟨⟨3⟩, ⟨0⟩, 1⟩]).display := by
  have plain (fraction : Fraction) (constant : TermId) :
      (tuple [mapping ⟨[], bitVector []⟩, rational fraction,
        scalar ⟨constant, ⟨0⟩, 1⟩]).Every IsPlain := by
    have empty : (mapping ⟨[], bitVector []⟩).Every IsPlain :=
      (every_mapping_iff trivial).mpr
        ⟨List.forall_mem_nil _, .leaf (List.forall_mem_nil _) rfl⟩
    refine .node trivial ?_
    simp only [parts, List.forall_mem_cons]
    exact ⟨empty, .leaf trivial rfl, .leaf trivial rfl, List.forall_mem_nil _⟩
  constructor
  · exact (display_eq_iff (plain _ _) (plain _ _)).mpr rfl
  · intro same
    have same := (display_eq_iff (plain _ _) (plain _ _)).mp same
    simp [unnamed, allUnnamed] at same

end Value

end SmtModel
