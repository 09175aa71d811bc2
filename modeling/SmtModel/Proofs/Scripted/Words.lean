import Mathlib.Data.Nat.Digits.Lemmas
import SmtModel.Proofs.Display
import SmtModel.Proofs.Scripted.Exceptions

/-!
# Words in bit vectors

A script assigns the lowest bits of a word to a term, as many of them as it says, which
may be more or fewer than a word has (`ScriptedValue.ofWord`). They are read with the
least significant bit first and displayed with the most significant one first, and both
ways they stand for the word modulo the power of two that the width gives
(`Model.ask_value_ofWord`), as long as there is an identifier left for a node.
-/

namespace SmtModel

/-! ## Numbers in binary -/

/-- The bits of a number within a width, the least significant first. -/
structure AreBitsOf (number width : Nat) (bits : List UInt8) : Prop where
  length : bits.length = width
  areBits : ∀ bit ∈ bits, bit = 0 ∨ bit = 1
  number : Nat.ofDigits 2 (bits.map UInt8.toNat) = number % 2 ^ width

/-- The binary digits of a number within a width, the most significant first. -/
structure AreDigitsOf (number width : Nat) (digits : List Char) : Prop where
  length : digits.length = width
  areDigits : ∀ digit ∈ digits, digit = '0' ∨ digit = '1'
  number : Nat.ofDigitChars 2 digits 0 = number % 2 ^ width

/-- The lowest bits of a number, the least significant first. -/
def lowBits (number width : Nat) : List UInt8 :=
  (List.range width).map fun place => if number.testBit place then 1 else 0

theorem lowBits_succ (number width : Nat) :
    lowBits number (width + 1) =
      (if number % 2 = 1 then 1 else 0) :: lowBits (number / 2) width := by
  unfold lowBits
  rw [List.range_succ_eq_map, List.map_cons, List.map_map]
  simp only [Nat.testBit_zero, decide_eq_true_eq, List.cons.injEq, true_and]
  apply List.map_congr_left
  intro place _
  simp only [Function.comp_apply, Nat.testBit_succ]

theorem number_lowBits (number width : Nat) :
    Nat.ofDigits 2 ((lowBits number width).map UInt8.toNat) = number % 2 ^ width := by
  induction width generalizing number with
  | zero =>
      rw [Nat.pow_zero, Nat.mod_one]
      rfl
  | succ width ih =>
      have lowest : UInt8.toNat (if number % 2 = 1 then 1 else 0) = number % 2 := by
        rcases Nat.mod_two_eq_zero_or_one number with even | odd
        · rw [even]
          rfl
        · rw [odd]
          rfl
      rw [lowBits_succ, List.map_cons, Nat.ofDigits_cons, ih, lowest, Nat.pow_succ', Nat.mod_mul]

theorem areBitsOf_lowBits (number width : Nat) :
    AreBitsOf number width (lowBits number width) where
  length := by simp [lowBits]
  areBits := by
    intro bit isBit
    rcases List.mem_map.mp isBit with ⟨place, -, rfl⟩
    split_ifs <;> simp
  number := number_lowBits number width

namespace Value

/-- The digits from the back say what the bits say from the front. -/
theorem ofDigitChars_bitChar {bits : List UInt8} (areBits : ∀ bit ∈ bits, bit = 0 ∨ bit = 1) :
    Nat.ofDigitChars 2 (bits.reverse.map bitChar) 0 = Nat.ofDigits 2 (bits.map UInt8.toNat) := by
  induction bits with
  | nil => rfl
  | cons bit bits ih =>
      rcases List.forall_mem_cons.mp areBits with ⟨isBit, areBits⟩
      have digit : (bitChar bit).toNat - '0'.toNat = bit.toNat := by
        rcases isBit with rfl | rfl <;> rfl
      rw [List.reverse_cons, List.map_append, Nat.ofDigitChars_append, ih areBits, List.map_cons,
        List.map_nil, Nat.ofDigitChars_cons, digit, List.map_cons, Nat.ofDigits_cons, Nat.add_comm]
      rfl

/-- A bit vector is displayed with the digits of the number that it holds. -/
theorem display_bitVector {number width : Nat} {bits : List UInt8}
    (areBits : AreBitsOf number width bits) :
    ∃ digits, AreDigitsOf number width digits ∧
      (bitVector bits).display = String.ofList ('#' :: 'b' :: digits) := by
  refine ⟨bits.reverse.map bitChar, ⟨?_, ?_, ?_⟩, ?_⟩
  · rw [List.length_map, List.length_reverse, areBits.length]
  · intro digit isDigit
    exact isDigit_of_mem_map_bitChar isDigit
  · rw [ofDigitChars_bitChar areBits.areBits, areBits.number]
  · have reversed : ∀ bit ∈ bits.reverse, bit = 0 ∨ bit = 1 := by simpa using areBits.areBits
    rw [display, write_of_word rfl, flatMap_bits reversed, List.append_nil]

end Value

/-! ## Reading bit vectors -/

open ScriptedSolver

/-- The bits of a bit vector, when whatever is not zero counts as one. -/
def bitsOf (cells : List Int32) : List UInt8 := cells.map fun cell => if cell = 0 then 0 else 1

namespace Reading

variable {limit : DepthLimit} {model : ModelId} {traced : Traced ScriptedSolver} {node : Node}
  {cells : List Int32}

theorem readBits_of_shows (calm : traced.state.failing = []) (fits : cells.length < 0x100000000)
    (shown : traced.state.Shows model node (.bitVector cells)) :
    ∃ left, readBits answer model node traced =
      .ok (if cells = [] then .absent else .bitVector (bitsOf cells)) left := by
  have measured : answer (.nodeBitSize model node) traced.state =
      .ok (UInt32.ofNat cells.length) traced.state :=
    measureNode_of_shows shown (·.bitSize) 0
  have width : (UInt32.ofNat cells.length).toNat = cells.length := UInt32.toNat_ofNat_of_lt fits
  unfold readBits
  rw [Outcome.bind_of_ok (Action.ask_of_ok measured)]
  by_cases noBits : cells = []
  · subst noBits
    exact ⟨traced, rfl⟩
  · have read : (ScriptedValue.bitVector cells).toBits (UInt32.ofNat cells.length).toNat =
        .ok ⟨cells.toArray, by simp [width]⟩ := by
      simp only [ScriptedValue.toBits, width, dite_true]
    have free : Call.nodeBits ∉ traced.state.failing := by simp [calm]
    have asked : Action.ask answer (.nodeBits model node _ _) traced = _ :=
      Action.ask_of_ok (readNode_of_shows free shown (Vector.replicate _ 0) read)
    rw [if_neg (arity_ne_zero fits noBits), if_neg noBits, Outcome.bind_of_ok asked]
    exact ⟨_, rfl⟩

theorem read_bits (calm : traced.state.failing = []) (fits : cells.length < 0x100000000)
    (shown : traced.state.Shows model node (.bitVector cells)) :
    ∃ left, read answer model limit limit.levels node traced =
      .ok (if cells = [] then .absent else .bitVector (bitsOf cells)) left := by
  have isBits : node.kind? = some .bitVector := by
    rw [Node.kind?, shown.tag]
    exact NodeKind.ofTag?_tag .bitVector
  rcases Nat.exists_eq_add_one.mpr limit.levels_pos with ⟨below, levels⟩
  let visit : Event := .readingNode node (limit.levels - (below + 1))
  let visited : Traced ScriptedSolver := ⟨traced.state, visit :: traced.events⟩
  have recorded : Action.record visit traced = .ok () visited := rfl
  rw [levels, read_succ, Outcome.bind_of_ok recorded]
  unfold readKind
  simp only [isBits]
  exact @readBits_of_shows _ visited _ _ calm fits shown

end Reading

/-! ## Words -/

theorem ScriptedValue.bitsOf_ofWord (word : UInt64) (width : UInt32) :
    bitsOf ((List.range width.toNat).map fun place =>
      if word.toNat.testBit place then 1 else 0) = lowBits word.toNat width.toNat := by
  unfold bitsOf lowBits
  rw [List.map_map]
  apply List.map_congr_left
  intro place _
  simp only [Function.comp_apply]
  cases word.toNat.testBit place <;> rfl

namespace Model

variable {model : Model} {term : TermId} {traced : Traced ScriptedSolver} {live : ScriptedModel}

/-- Without scripted failures, and with an identifier left for a node, the lowest bits of a word are
read and displayed as the word modulo a power of two. There is no bit vector without bits. -/
theorem ask_value_ofWord {word : UInt64} {width : UInt32} (calm : traced.state.failing = [])
    (found : traced.state.model? model.id = some live) (room : live.nodes.size < 0x80000000)
    (assigned : traced.state.value? model.id term = some (.ofWord word width)) :
    ∃ result left, model.ask answer (.value term) traced = .ok result left ∧
      (width = 0 → result = .absent) ∧
      (width ≠ 0 → ∃ bits digits, result = .bitVector bits ∧
        AreBitsOf word.toNat width.toNat bits ∧
        result.display = String.ofList ('#' :: 'b' :: digits) ∧
        AreDigitsOf word.toNat width.toNat digits) := by
  let cells : List Int32 :=
    (List.range width.toNat).map fun place => if word.toNat.testBit place then 1 else 0
  have assigned : traced.state.value? model.id term = some (.bitVector cells) := assigned
  have length : cells.length = width.toNat := by simp [cells]
  have fits : cells.length < 0x100000000 := by
    rw [length]
    exact width.toNat_lt
  have isBits : AreBitsOf word.toNat width.toNat (bitsOf cells) := by
    rw [ScriptedValue.bitsOf_ofWord]
    exact areBitsOf_lowBits _ _
  have free : Call.value ∉ traced.state.failing := by simp [calm]
  rcases value_shows free found assigned .blank with ⟨root, answered, shows⟩
  let handed : Traced ScriptedSolver :=
    ⟨(withCall .value traced.state).withNodes model.id live [.bitVector cells], traced.events⟩
  have answered : answer (.value model.id term .blank) traced.state = .ok (.ok root) handed.state :=
    answered
  rcases @Reading.read_bits _ _ handed _ _ calm fits (shows room) with ⟨final, ran⟩
  simp only [ask, Model.read]
  rw [Outcome.bind_of_ok (Action.ask_of_ok answered), Reading.checkReply_ok, pure_bind, ran]
  refine ⟨_, final, rfl, fun zero => ?_, fun nonzero => ?_⟩
  · subst zero
    rfl
  · have someCells : cells ≠ [] := by
      intro noCells
      rw [noCells, List.length_nil] at length
      exact nonzero (UInt32.toNat_inj.mp length.symm)
    rcases Value.display_bitVector isBits with ⟨digits, areDigits, displayed⟩
    rw [if_neg someCells]
    exact ⟨bitsOf cells, digits, rfl, isBits, displayed, areDigits⟩

/-- All bits of a word, and one more that no word has. -/
theorem ask_value_ofWord_wide :
    ∃ bits left,
      ask answer { id := ⟨0⟩ } (.value ⟨0⟩) ⟨ofValue (.ofWord 0x8000000000000001 65), []⟩ =
          .ok (.bitVector bits) left ∧
        bits.length = 65 ∧ Nat.ofDigits 2 (bits.map UInt8.toNat) = 0x8000000000000001 := by
  rcases @ask_value_ofWord { id := ⟨0⟩ } ⟨0⟩ ⟨ofValue (.ofWord 0x8000000000000001 65), []⟩ _
      0x8000000000000001 65 rfl rfl (by decide) rfl with ⟨result, left, ran, -, shows⟩
  rcases shows (by decide) with ⟨bits, digits, rfl, areBits, -, -⟩
  exact ⟨bits, left, ran, areBits.length, areBits.number⟩

/-- Nothing is left of a word where all nodes are handed out, nor where the question for its width is
answered with zero. -/
theorem word_unread :
    (crowded (.ofWord 5 3)).failing = [] ∧
    (∀ bits, Outcome.result (ask answer { id := ⟨0⟩ } (.value ⟨0⟩) ⟨crowded (.ofWord 5 3), []⟩) ≠
      .ok (.bitVector bits)) ∧
    Outcome.result (ask (Overridden.answer answer) { id := ⟨0⟩ } (.value ⟨0⟩)
      ⟨(ofValue (.ofWord 5 3)).returning .nodeBitSize 0, []⟩) = .ok .absent := by
  refine ⟨rfl, fun bits read => ?_, ?_⟩
  · have found : (crowded (.ofWord 5 3)).model? ⟨0⟩ =
        some ⟨[(⟨0⟩, .ofWord 5 3)], fullTable (.ofWord 5 3), false⟩ := rfl
    cases absent_of_full found (size_fullTable _) read
  · with_unfolding_all rfl

end Model

end SmtModel
