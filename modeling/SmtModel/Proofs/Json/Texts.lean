import SmtModel.Json.Reading
import SmtModel.Json.Writing
import SmtModel.Proofs.Json.Numerals
import SmtModel.Proofs.Json.Quoting

/-!
# Trees are read as they are written

A tree is written as its tokens, and these are found again in its text, since a word is
always followed by a bracket, a separator or the end (`Json.ofText?_write`). Read one
after another, the tokens of a tree complete the tree, whatever containers are open
around it (`Json.foldlM_tokens`). So every tree is read as it was written, names that are
repeated, strings without a text and numerals of any form included (`Json.read?_toText`).
-/

namespace SmtModel.Json

/-! ## Tokens of a tree -/

mutual

/-- The tokens of a tree, in the order in which they are written. -/
def tokens : Json → List Token
  | .null => [.null]
  | .bool truth => [.bool truth]
  | .number numeral => [.number numeral]
  | .string text => [.string text]
  | .array [] => [.beginArray, .endArray]
  | .array (item :: items) => .beginArray :: (tokens item ++ (itemTokens items ++ [.endArray]))
  | .object [] => [.beginObject, .endObject]
  | .object (member :: members) =>
    .beginObject :: (memberTokens member ++ (membersTokens members ++ [.endObject]))
termination_by structural json => json

/-- The tokens of the items after the first. -/
def itemTokens : List Json → List Token
  | [] => []
  | item :: items => .comma :: (tokens item ++ itemTokens items)
termination_by structural items => items

/-- The tokens of a member: its name, a colon and what it contains. -/
def memberTokens : Text × Json → List Token
  | (name, value) => .string name :: .colon :: tokens value
termination_by structural member => member

/-- The tokens of the members after the first. -/
def membersTokens : List (Text × Json) → List Token
  | [] => []
  | member :: members => .comma :: (memberTokens member ++ membersTokens members)
termination_by structural members => members

end

/-! ## Finding the tokens -/

namespace Token

/-- A character of a word is no blank, no quote and no bracket. -/
theorem isWordChar_cases {char : Char} (inWord : isWordChar char = true) :
    isBlank char = false ∧ char ≠ '"' ∧ ofBracket? char = none := by
  have others : [' ', '\n', '\t', '\r', '"', '[', ']', '\x7b', '\x7d', ':', ','].all
      (fun other => !isWordChar other) = true := rfl
  have differs (other : Char)
      (isOther : other ∈ [' ', '\n', '\t', '\r', '"', '[', ']', '\x7b', '\x7d', ':', ',']) :
      char ≠ other := by
    rintro rfl
    have noWord := List.all_eq_true.mp others char isOther
    simp [inWord] at noWord
  refine ⟨?_, differs '"' (by decide), ?_⟩
  · simp [isBlank, differs]
  · simp [ofBracket?, differs]

theorem ofText?_bracket {char : Char} {bracket : Token} (rest : List Char)
    (noBlank : isBlank char = false) (noQuote : char ≠ '"')
    (isBracket : ofBracket? char = some bracket) :
    ofText? (char :: rest) = (ofText? rest).map (bracket :: ·) := by
  rw [ofText?]
  simp only [noBlank, noQuote, isBracket, if_false, Bool.false_eq_true]

theorem ofText?_quoted (text : Text) (rest : List Char) :
    ofText? (Quoted.write text rest) = (ofText? rest).map (.string text :: ·) := by
  rcases Quoted.scan_write text rest with ⟨body, writes, scanned⟩
  have noBlank : isBlank '"' = false := by decide
  rw [writes, ofText?]
  simp only [noBlank, if_true, if_false, Bool.false_eq_true]
  split
  · rename_i fails
    cases fails.symm.trans scanned
  · rename_i codes rest' found
    cases found.symm.trans scanned
    rw [Quoted.text_codes]

theorem ofText?_word {first : Char} {others rest : List Char} {word : Token}
    (stops : StopsAt isWordChar rest) (all : ∀ char ∈ first :: others, isWordChar char = true)
    (isWord : ofWord? (first :: others) = some word) :
    ofText? (first :: others ++ rest) = (ofText? rest).map (word :: ·) := by
  rcases List.forall_mem_cons.mp all with ⟨inWord, allOthers⟩
  rcases isWordChar_cases inWord with ⟨noBlank, noQuote, noBracket⟩
  have front := stops.takeWhile_append all
  simp only [List.cons_append] at front ⊢
  rw [ofText?]
  simp only [noBlank, noQuote, noBracket, front, isWord, if_false, Bool.false_eq_true]
  rw [stops.dropWhile_append allOthers]

/-- A numeral is a word, since none of the three names begins with a sign or a digit. -/
theorem ofText?_numeral (numeral : Numeral) {rest : List Char} (stops : StopsAt isWordChar rest) :
    ofText? (numeral.write rest) = (ofText? rest).map (.number numeral :: ·) := by
  rcases numeral.write_eq_cons with ⟨first, others, written, begins⟩
  have all : ∀ char ∈ first :: others, isWordChar char = true := by
    rw [← written]
    intro char isWritten
    rcases Numeral.mem_write char isWritten with isDigit | isOther
    · simp [isWordChar, Char.isAlphanum, isDigit]
    · have others : ['-', '+', '.', 'e'].all isWordChar = true := rfl
      exact List.all_eq_true.mp others char isOther
  have isWord : ofWord? (first :: others) = some (.number numeral) := by
    have noName (name : Char) (letters : List Char) (noBegin : name ≠ '-' ∧ name.isDigit = false) :
        first :: others ≠ name :: letters := by
      rintro same
      rw [(List.cons.inj same).1] at begins
      simp [noBegin] at begins
    rw [ofWord?, if_neg (noName _ _ (by decide)), if_neg (noName _ _ (by decide)),
      if_neg (noName _ _ (by decide)), ← written, Numeral.read?_write]
    rfl
  rw [numeral.write_append, written]
  exact ofText?_word stops all isWord

end Token

theorem stopsAt_writeItems (items : List Json) {rest : List Char}
    (stops : StopsAt Token.isWordChar rest) : StopsAt Token.isWordChar (writeItems items rest) := by
  cases items with
  | nil => exact stops
  | cons item items => exact .cons (by decide)

theorem stopsAt_writeMembers (members : List (Text × Json)) {rest : List Char}
    (stops : StopsAt Token.isWordChar rest) :
    StopsAt Token.isWordChar (writeMembers members rest) := by
  cases members with
  | nil => exact stops
  | cons member members => exact .cons (by decide)

mutual

/-- The tokens of a tree are found in its text. -/
theorem ofText?_write : ∀ (json : Json) {rest : List Char}, StopsAt Token.isWordChar rest →
    Token.ofText? (json.write rest) = (Token.ofText? rest).map (json.tokens ++ ·)
  | .null, rest, stops => Token.ofText?_word stops (List.all_eq_true.mp rfl) rfl
  | .bool true, rest, stops => Token.ofText?_word stops (List.all_eq_true.mp rfl) rfl
  | .bool false, rest, stops => Token.ofText?_word stops (List.all_eq_true.mp rfl) rfl
  | .number numeral, rest, stops => Token.ofText?_numeral numeral stops
  | .string text, rest, stops => Token.ofText?_quoted text rest
  | .array [], rest, stops => by
      rw [write, Token.ofText?_bracket _ rfl (by decide) rfl,
        Token.ofText?_bracket _ rfl (by decide) rfl]
      simp [tokens, Function.comp_def]
  | .array (item :: items), rest, stops => by
      have closes : StopsAt Token.isWordChar (']' :: rest) := .cons (by decide)
      rw [write, Token.ofText?_bracket _ rfl (by decide) rfl,
        ofText?_write item (stopsAt_writeItems items closes), ofText?_writeItems items closes,
        Token.ofText?_bracket _ rfl (by decide) rfl]
      simp [tokens, Function.comp_def]
  | .object [], rest, stops => by
      rw [write, Token.ofText?_bracket _ rfl (by decide) rfl,
        Token.ofText?_bracket _ rfl (by decide) rfl]
      simp [tokens, Function.comp_def]
  | .object (member :: members), rest, stops => by
      have closes : StopsAt Token.isWordChar ('\x7d' :: rest) := .cons (by decide)
      rw [write, Token.ofText?_bracket _ rfl (by decide) rfl,
        ofText?_writeMember member (stopsAt_writeMembers members closes),
        ofText?_writeMembers members closes, Token.ofText?_bracket _ rfl (by decide) rfl]
      simp [tokens, Function.comp_def]
termination_by structural json => json

theorem ofText?_writeItems : ∀ (items : List Json) {rest : List Char},
    StopsAt Token.isWordChar rest →
      Token.ofText? (writeItems items rest) = (Token.ofText? rest).map (itemTokens items ++ ·)
  | [], rest, stops => by simp [writeItems, itemTokens]
  | item :: items, rest, stops => by
      rw [writeItems, Token.ofText?_bracket _ rfl (by decide) rfl,
        ofText?_write item (stopsAt_writeItems items stops), ofText?_writeItems items stops]
      simp [itemTokens, Function.comp_def]
termination_by structural items => items

theorem ofText?_writeMember : ∀ (member : Text × Json) {rest : List Char},
    StopsAt Token.isWordChar rest →
      Token.ofText? (writeMember member rest) = (Token.ofText? rest).map (memberTokens member ++ ·)
  | (name, value), rest, stops => by
      rw [writeMember, Token.ofText?_quoted, Token.ofText?_bracket _ rfl (by decide) rfl,
        ofText?_write value stops]
      simp [memberTokens, Function.comp_def]
termination_by structural member => member

theorem ofText?_writeMembers : ∀ (members : List (Text × Json)) {rest : List Char},
    StopsAt Token.isWordChar rest →
      Token.ofText? (writeMembers members rest) =
        (Token.ofText? rest).map (membersTokens members ++ ·)
  | [], rest, stops => by simp [writeMembers, membersTokens]
  | member :: members, rest, stops => by
      rw [writeMembers, Token.ofText?_bracket _ rfl (by decide) rfl,
        ofText?_writeMember member (stopsAt_writeMembers members stops),
        ofText?_writeMembers members stops]
      simp [membersTokens, Function.comp_def]
termination_by structural members => members

end

/-! ## Reading the tokens -/

/-- The first value in an array is read as any other value in it. -/
theorem foldlM_items (json : Json) (opened : List Frame) (rest : List Token) :
    (json.tokens ++ rest).foldlM Progress.step (.items opened) =
      (json.tokens ++ rest).foldlM Progress.step (.value (.array [] :: opened)) := by
  cases json with
  | array items => cases items <;> rfl
  | object members => cases members <;> rfl
  | _ => rfl

/-- The first name in an object is read as any other name in it. -/
theorem foldlM_members (member : Text × Json) (opened : List Frame) (rest : List Token) :
    (memberTokens member ++ rest).foldlM Progress.step (.members opened) =
      (memberTokens member ++ rest).foldlM Progress.step (.name [] opened) := by
  rcases member with ⟨text, content⟩
  rfl

mutual

/-- The tokens of a tree complete it. -/
theorem foldlM_tokens : ∀ (json : Json) (opened : List Frame) (rest : List Token),
    (json.tokens ++ rest).foldlM Progress.step (.value opened) =
      rest.foldlM Progress.step (.complete json opened)
  | .null, opened, rest => rfl
  | .bool truth, opened, rest => rfl
  | .number numeral, opened, rest => rfl
  | .string text, opened, rest => rfl
  | .array [], opened, rest => rfl
  | .array (item :: items), opened, rest => by
      have opens : (Token.beginArray :: (item.tokens ++ (itemTokens items ++
          .endArray :: rest))).foldlM Progress.step (.value opened) =
            (item.tokens ++ (itemTokens items ++ .endArray :: rest)).foldlM Progress.step
              (.items opened) := rfl
      simp only [tokens, List.cons_append, List.append_assoc, List.nil_append]
      rw [opens, foldlM_items, foldlM_tokens item, foldlM_itemTokens items]
      rfl
  | .object [], opened, rest => rfl
  | .object (member :: members), opened, rest => by
      have opens : (Token.beginObject :: (memberTokens member ++ (membersTokens members ++
          .endObject :: rest))).foldlM Progress.step (.value opened) =
            (memberTokens member ++ (membersTokens members ++
              .endObject :: rest)).foldlM Progress.step (.members opened) := rfl
      simp only [tokens, List.cons_append, List.append_assoc, List.nil_append]
      rw [opens, foldlM_members, foldlM_memberTokens member, foldlM_membersTokens members]
      rfl
termination_by structural json => json

/-- The items after the first complete the array. -/
theorem foldlM_itemTokens : ∀ (items : List Json) (item : Json) (done : List Json)
    (opened : List Frame) (rest : List Token),
    (itemTokens items ++ .endArray :: rest).foldlM Progress.step
        (.complete item (.array done :: opened)) =
      rest.foldlM Progress.step (.complete (.array (done.reverse ++ item :: items)) opened)
  | [], item, done, opened, rest => by
      simp [itemTokens, List.foldlM_cons, Progress.step]
  | next :: items, item, done, opened, rest => by
      have goesOn : (itemTokens (next :: items) ++ .endArray :: rest).foldlM Progress.step
          (.complete item (.array done :: opened)) =
            (next.tokens ++ (itemTokens items ++ .endArray :: rest)).foldlM Progress.step
              (.value (.array (item :: done) :: opened)) := by
        simp only [itemTokens, List.cons_append, List.append_assoc]
        rfl
      rw [goesOn, foldlM_tokens next, foldlM_itemTokens items]
      simp
termination_by structural items => items

theorem foldlM_memberTokens : ∀ (member : Text × Json) (done : List (Text × Json))
    (opened : List Frame) (rest : List Token),
    (memberTokens member ++ rest).foldlM Progress.step (.name done opened) =
      rest.foldlM Progress.step (.complete member.2 (.object done member.1 :: opened))
  | (text, content), done, opened, rest => by
      have named : (memberTokens (text, content) ++ rest).foldlM Progress.step
          (.name done opened) = (content.tokens ++ rest).foldlM Progress.step
            (.value (.object done text :: opened)) := rfl
      rw [named, foldlM_tokens content]
termination_by structural member => member

/-- The members after the first complete the object. -/
theorem foldlM_membersTokens : ∀ (members : List (Text × Json)) (item : Json)
    (text : Text) (done : List (Text × Json)) (opened : List Frame) (rest : List Token),
    (membersTokens members ++ .endObject :: rest).foldlM Progress.step
        (.complete item (.object done text :: opened)) =
      rest.foldlM Progress.step
        (.complete (.object (done.reverse ++ (text, item) :: members)) opened)
  | [], item, text, done, opened, rest => by
      simp [membersTokens, List.foldlM_cons, Progress.step]
  | member :: members, item, text, done, opened, rest => by
      have goesOn : (membersTokens (member :: members) ++ .endObject :: rest).foldlM
          Progress.step (.complete item (.object done text :: opened)) =
            (memberTokens member ++ (membersTokens members ++
              .endObject :: rest)).foldlM Progress.step
                (.name ((text, item) :: done) opened) := by
        simp only [membersTokens, List.cons_append, List.append_assoc]
        rfl
      rw [goesOn, foldlM_memberTokens member, foldlM_membersTokens members]
      simp
termination_by structural members => members

end

/-- Every tree is read as it is written. -/
theorem read?_toText (json : Json) : read? json.toText = some json := by
  have found := @ofText?_write json [] .nil
  simp only [Token.ofText?, Option.map_some, List.append_nil] at found
  have completes := foldlM_tokens json [] []
  rw [List.append_nil] at completes
  simp only [read?, toText, String.toList_ofList, found, Option.bind_eq_bind, Option.bind_some,
    ofTokens?, completes]
  rfl

end SmtModel.Json
