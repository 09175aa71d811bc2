import Mathlib
import SmtModel.Json.Report
import SmtModel.Value.Json

/-!
# Contents of JSON trees

Words of a machine, unbounded integers, fractions and records are found again in the
trees that are made of them, as long as there is room for the containers that these trees
open. `Json.nesting` counts the containers that are open at once.
-/

namespace SmtModel

/-! ## Words -/

namespace Word

@[simp]
theorem int32?_toInt (word : Int32) : int32? word.toInt = some word := by
  rw [int32?, if_pos ⟨word.minValue_le_toInt, word.toInt_le⟩, Int32.ofInt_toInt]

@[simp]
theorem int64?_toInt (word : Int64) : int64? word.toInt = some word := by
  rw [int64?, if_pos ⟨word.minValue_le_toInt, word.toInt_le⟩, Int64.ofInt_toInt]

@[simp]
theorem uint8?_toNat (word : UInt8) : uint8? word.toNat = some word := by
  have bound := word.toNat_lt_size
  rw [uint8?, if_pos (by omega), Int.toNat_natCast, UInt8.ofNat_toNat]

@[simp]
theorem uint32?_toNat (word : UInt32) : uint32? word.toNat = some word := by
  have bound := word.toNat_lt_size
  rw [uint32?, if_pos (by omega), Int.toNat_natCast, UInt32.ofNat_toNat]

end Word

/-! ## Lists -/

/-- What is found in each item is found in the whole list. -/
theorem mapM_map_eq_some {α β γ : Type} {make : α → β} {find : β → Option γ} {content : α → γ}
    {items : List α} (found : ∀ item ∈ items, find (make item) = some (content item)) :
    (items.map make).mapM find = some (items.map content) := by
  induction items with
  | nil => rfl
  | cons item items ih =>
      rcases List.forall_mem_cons.mp found with ⟨first, others⟩
      rw [List.map_cons, List.mapM_cons, first, ih others]
      rfl

/-- Of what is found in a list, each was found in an item. -/
theorem forall_of_mapM_eq_some {α β : Type} {find : α → Option β} {holds : β → Prop}
    {items : List α} {found : List β} (reads : items.mapM find = some found)
    (each : ∀ item ∈ items, ∀ result, find item = some result → holds result) :
    ∀ result ∈ found, holds result := by
  induction items generalizing found with
  | nil =>
      cases reads
      nofun
  | cons item items ih =>
      rcases List.forall_mem_cons.mp each with ⟨first, others⟩
      simp only [List.mapM_cons, Option.bind_eq_bind, Option.bind_eq_some_iff, Option.pure_def,
        Option.some.injEq] at reads
      rcases reads with ⟨result, isFirst, results, areOthers, rfl⟩
      exact List.forall_mem_cons.mpr ⟨first result isFirst, ih areOthers others⟩

namespace Json

/-! ## Nesting -/

mutual

/-- How many containers of a tree are open at once. -/
def nesting : Json → Nat
  | .array items => deepestItem items + 1
  | .object members => deepestMember members + 1
  | _ => 0
termination_by structural json => json

/-- The deepest nesting among the items of an array. -/
def deepestItem : List Json → Nat
  | [] => 0
  | item :: items => max (nesting item) (deepestItem items)
termination_by structural items => items

/-- The nesting of what a member of an object contains. -/
def memberNesting : Text × Json → Nat
  | (_, content) => nesting content
termination_by structural member => member

/-- The deepest nesting among the members of an object. -/
def deepestMember : List (Text × Json) → Nat
  | [] => 0
  | member :: members => max (memberNesting member) (deepestMember members)
termination_by structural members => members

end

@[simp]
theorem nesting_ofInt (value : Int) : (ofInt value).nesting = 0 := rfl

theorem deepestItem_le_iff {items : List Json} {room : Nat} :
    deepestItem items ≤ room ↔ ∀ item ∈ items, item.nesting ≤ room := by
  induction items with
  | nil => simp [deepestItem]
  | cons item items ih => rw [deepestItem, Nat.max_le, ih, List.forall_mem_cons]

theorem nesting_array_le_iff {items : List Json} {room : Nat} :
    (array items).nesting ≤ room ↔ 1 ≤ room ∧ ∀ item ∈ items, item.nesting ≤ room - 1 := by
  rw [nesting, ← deepestItem_le_iff]
  omega

theorem nesting_ofFields_le_iff {fields : List (String × Json)} {room : Nat} :
    (ofFields fields).nesting ≤ room ↔
      1 ≤ room ∧ ∀ content ∈ fields.map (·.2), content.nesting ≤ room - 1 := by
  have members : deepestMember (fields.map fun field => (some field.1, field.2)) =
      deepestItem (fields.map (·.2)) := by
    induction fields with
    | nil => rfl
    | cons field fields ih => rw [List.map_cons, List.map_cons, deepestMember, deepestItem, ih]; rfl
  rw [ofFields, nesting, members, ← deepestItem_le_iff]
  omega

/-! ## Numbers -/

@[simp]
theorem int?_ofInt (value : Int) : (ofInt value).int? = some value := by
  have whole : ¬ ((0 : Nat) ≠ 0 ∨ (none : Option Int).isSome = true) := by simp
  simp only [ofInt, int?, Numeral.toInt?, Numeral.ofInt]
  by_cases negative : value < 0
  · have nonzero : value.natAbs ≠ 0 := by omega
    have magnitude : -(value.natAbs : Int) = value := by omega
    rw [if_neg whole, if_pos (decide_eq_true negative), if_neg nonzero, magnitude]
  · have magnitude : (value.natAbs : Int) = value := by omega
    rw [if_neg whole, if_neg (by simpa using negative), magnitude]

@[simp]
theorem int32?_ofInt (word : Int32) : (ofInt word.toInt).int32? = some word := by
  simp [int32?]

@[simp]
theorem term?_ofTerm (term : TermId) : (ofTerm term).term? = some term := by
  simp [term?, ofTerm]

@[simp]
theorem type?_ofType (type : TypeId) : (ofType type).type? = some type := by
  simp [type?, ofType]

@[simp]
theorem nesting_ofFloat (value : Float) : (ofFloat value).nesting = 0 := by
  unfold ofFloat
  split <;> rfl

theorem ofDigits_digits (value : Nat) : ofDigits (digits value) = value := by
  induction value using Nat.strongRecOn with
  | ind value ih =>
      rw [digits]
      by_cases zero : value = 0
      · simp [zero, ofDigits]
      · have less := Nat.div_lt_self (Nat.pos_of_ne_zero zero) (show 1 < UInt32.size by decide)
        rw [if_neg zero]
        have higher := ih _ less
        simp only [ofDigits, List.foldr_cons] at higher ⊢
        rw [higher]
        exact Nat.mod_add_div _ _

theorem digit?_ofInt {digit : Nat} (bound : digit < UInt32.size) :
    digit? (ofInt digit) = some digit := by
  have isWord : (UInt32.ofNat digit).toNat = digit := UInt32.toNat_ofNat_of_lt' bound
  rw [← isWord]
  unfold digit?
  -- step by step: evaluating the word instead, the kernel would count up to its size
  rw [int?_ofInt, Option.bind_eq_bind, Option.bind_some, Word.uint32?_toNat]
  rfl

theorem lt_of_mem_digits {value : Nat} : ∀ digit ∈ digits value, digit < UInt32.size := by
  induction value using Nat.strongRecOn with
  | ind value ih =>
      rw [digits]
      by_cases zero : value = 0
      · simp [zero]
      · have less := Nat.div_lt_self (Nat.pos_of_ne_zero zero) (show 1 < UInt32.size by decide)
        rw [if_neg zero]
        exact List.forall_mem_cons.mpr ⟨Nat.mod_lt _ (by decide), ih _ less⟩

theorem nesting_ofInteger (value : Int) : (ofInteger value).nesting = 2 := by
  have flat : deepestItem ((digits value.natAbs).map fun (digit : Nat) => .ofInt digit) = 0 :=
    Nat.le_zero.mp (deepestItem_le_iff.mpr (by simp))
  simp [ofInteger, nesting, deepestItem, flat]

/-- An integer is its sign times its digits. -/
theorem integer?_ofInteger {room : Nat} (fits : 2 ≤ room) (value : Int) :
    (ofInteger value).integer? room = some value := by
  rcases Nat.exists_eq_add_of_le' fits with ⟨room, rfl⟩
  have read : ((digits value.natAbs).map fun (digit : Nat) => .ofInt digit).mapM digit? =
      some (digits value.natAbs) := by
    have found := @mapM_map_eq_some _ _ _ (fun (digit : Nat) => ofInt digit) digit? id _
      fun digit isDigit => digit?_ofInt (@lt_of_mem_digits value.natAbs digit isDigit)
    rwa [List.map_id] at found
  simp only [ofInteger, integer?, items?, read, int?_ofInt, Option.bind_eq_bind, Option.bind_some,
    ofDigits_digits]
  rcases Int.lt_trichotomy value 0 with negative | rfl | positive
  · have magnitude : -(value.natAbs : Int) = value := by omega
    rw [Int.sign_eq_neg_one_of_neg negative]
    exact congrArg some magnitude
  · rfl
  · have magnitude : (value.natAbs : Int) = value := by omega
    rw [Int.sign_eq_one_of_pos positive]
    exact congrArg some magnitude

theorem nesting_ofFraction (fraction : Fraction) : (ofFraction fraction).nesting = 3 := by
  simp [ofFraction, nesting, deepestItem, nesting_ofInteger]

/-- A fraction is found as it was, not reduced. -/
theorem fraction?_ofFraction {room : Nat} (fits : 3 ≤ room) {fraction : Fraction}
    (nonzero : fraction.denominator ≠ 0) :
    (ofFraction fraction).fraction? room = some fraction := by
  rcases Nat.exists_eq_add_of_le' fits with ⟨room, rfl⟩
  have inside : 2 ≤ room + 2 := by omega
  simp only [ofFraction, fraction?, items?, integer?_ofInteger inside, Option.bind_eq_bind,
    Option.bind_some, guard, ne_eq, nonzero, not_false_eq_true, if_true]
  rfl

theorem items?_eq_some {room left : Nat} {json : Json} {items : List Json}
    (read : json.items? room = some (left, items)) : room = left + 1 ∧ json = .array items := by
  cases room with
  | zero => cases json <;> cases read
  | succ room =>
      cases json with
      | array items => cases read; exact ⟨rfl, rfl⟩
      | _ => cases read

theorem room_of_integer? {room : Nat} {json : Json} {value : Int}
    (read : json.integer? room = some value) : 2 ≤ room := by
  simp only [integer?, Option.bind_eq_bind, Option.bind_eq_some_iff] at read
  rcases read with ⟨⟨left, items⟩, outer, read⟩
  rcases items?_eq_some outer with ⟨rfl, -⟩
  split at read
  · rename_i pair
    cases pair
    simp only [Option.bind_eq_some_iff] at read
    rcases read with ⟨⟨last, digits⟩, inner, -⟩
    rcases items?_eq_some inner with ⟨rfl, -⟩
    omega
  · cases read

/-- A fraction that is found has a denominator other than zero. -/
theorem of_fraction? {room : Nat} {json : Json} {fraction : Fraction}
    (read : json.fraction? room = some fraction) : 3 ≤ room ∧ fraction.denominator ≠ 0 := by
  simp only [fraction?, Option.bind_eq_bind, Option.bind_eq_some_iff] at read
  rcases read with ⟨⟨left, items⟩, outer, read⟩
  rcases items?_eq_some outer with ⟨rfl, -⟩
  split at read
  · rename_i pair
    cases pair
    simp only [Option.bind_eq_some_iff, Option.pure_def, Option.some.injEq] at read
    rcases read with ⟨numerator, isNumerator, denominator, -, _, nonzero, rfl⟩
    have room := room_of_integer? isNumerator
    refine ⟨by omega, ?_⟩
    rintro rfl
    simp [guard] at nonzero
  · cases read

/-! ## Records -/

/-- Where names are distinct, a name picks out its field. -/
theorem filter_name_eq {fields : List (String × Json)} (distinct : (fields.map (·.1)).Nodup)
    {field : String × Json} (isField : field ∈ fields) :
    fields.filter (fun other => other.1 = field.1) = [field] := by
  induction fields with
  | nil => cases isField
  | cons first fields ih =>
      rw [List.map_cons, List.nodup_cons] at distinct
      rcases List.mem_cons.mp isField with rfl | isField
      · have noOther : fields.filter (fun other => other.1 = field.1) = [] := by
          refine List.filter_eq_nil_iff.mpr fun other isOther => ?_
          have isName : other.1 ∈ fields.map (·.1) := List.mem_map_of_mem isOther
          have differs : other.1 ≠ field.1 := fun same => distinct.1 (same ▸ isName)
          simpa using differs
        rw [List.filter_cons, noOther]
        simp
      · have isName : field.1 ∈ fields.map (·.1) := List.mem_map_of_mem isField
        have differs : first.1 ≠ field.1 := fun same => distinct.1 (same ▸ isName)
        rw [List.filter_cons, ih distinct.2 isField]
        simp [differs]

theorem fields?_ofFields {fields : List (String × Json)}
    (distinct : (fields.map (·.1)).Nodup) :
    (ofFields fields).fields? (fields.map (·.1)) = some (fields.map (·.2)) := by
  have named : (fields.map fun field => ((some field.1 : Text), field.2)).all
      (fun member => member.1.isSome) = true := by simp
  simp only [ofFields, fields?]
  rw [if_pos named]
  refine mapM_map_eq_some fun field isField => ?_
  have found := filter_name_eq distinct isField
  simp only [List.filter_map, Function.comp_def, Option.some.injEq, found]
  rfl

theorem record?_ofFields {room : Nat} {fields : List (String × Json)}
    (distinct : (fields.map (·.1)).Nodup) :
    (ofFields fields).record? (fields.map (·.1)) (room + 1) = some (room, fields.map (·.2)) := by
  rw [record?, fields?_ofFields distinct]
  rfl

theorem nesting_ofField (name : String) (content : Json) :
    (ofFields [(name, content)]).nesting = content.nesting + 1 := by
  simp [ofFields, nesting, deepestMember, memberNesting]

theorem room_of_record? {names : List String} {room left : Nat} {json : Json}
    {contents : List Json} (read : json.record? names room = some (left, contents)) :
    1 ≤ room := by
  cases room with
  | zero => cases read
  | succ room => omega

theorem nesting_ofScalar (element : ScalarValue) : (ofScalar element).nesting = 1 := rfl

theorem scalar?_ofScalar (room : Nat) (element : ScalarValue) :
    (ofScalar element).scalar? (room + 1) = some element := by
  have fields := @record?_ofFields room [("constant", ofTerm element.constant),
    ("ty", ofType element.type), ("index", .ofInt element.index.toInt)] (by simp)
  simp only [List.map_cons, List.map_nil] at fields
  simp [scalar?, ofScalar, fields]

theorem room_of_scalar? {room : Nat} {json : Json} {element : ScalarValue}
    (read : json.scalar? room = some element) : 1 ≤ room := by
  simp only [scalar?, Option.bind_eq_bind, Option.bind_eq_some_iff] at read
  rcases read with ⟨⟨left, contents⟩, record, -⟩
  exact room_of_record? record

theorem nesting_bits (bits : List UInt8) :
    (array (bits.map fun bit => .ofInt bit.toNat)).nesting = 1 := by
  have flat : deepestItem (bits.map fun bit => .ofInt bit.toNat) = 0 :=
    Nat.le_zero.mp (deepestItem_le_iff.mpr (by simp))
  rw [nesting, flat]

theorem room_of_bits? {room : Nat} {json : Json} {bits : List UInt8}
    (read : json.bits? room = some bits) : 1 ≤ room := by
  simp only [bits?, Option.bind_eq_bind, Option.bind_eq_some_iff] at read
  rcases read with ⟨⟨left, items⟩, isArray, -⟩
  rcases items?_eq_some isArray with ⟨rfl, -⟩
  omega

theorem bits?_array (room : Nat) (bits : List UInt8) :
    (array (bits.map fun bit => .ofInt bit.toNat)).bits? (room + 1) = some bits := by
  have read : (bits.map fun bit => ofInt bit.toNat).mapM
      (fun bit => do Word.uint8? (← bit.int?)) = some (bits.map id) := by
    refine mapM_map_eq_some fun bit _ => ?_
    rw [int?_ofInt, Option.bind_eq_bind, Option.bind_some, Word.uint8?_toNat]
    rfl
  rw [List.map_id] at read
  exact read

end Json

theorem ErrorReport.ofJson?_toJson (room : Nat) (report : ErrorReport) :
    ofJson? (room + 1) report.toJson = some report := by
  let contents : List Json := [report.code.toJson, .ofInt report.line.toNat,
    .ofInt report.column.toNat, .ofTerm report.term1, .ofType report.type1, .ofTerm report.term2,
    .ofType report.type2, .ofInt report.badValue.toInt, .ofString report.message]
  have names : (fieldNames.zip contents).map (·.1) = fieldNames := rfl
  have distinct : ((fieldNames.zip contents).map (·.1)).Nodup := by
    rw [names]
    decide
  have fields : report.toJson.record? fieldNames (room + 1) = some (room, contents) :=
    Json.record?_ofFields distinct
  have code : ErrorCode.ofJson? report.code.toJson = some report.code := by
    rw [ErrorCode.toJson, ErrorCode.ofJson?, Json.int32?_ofInt]
    rfl
  rw [ofJson?, fields]
  dsimp only [contents, bind]
  -- one field after the other, since definitional steps would evaluate the words
  rw [Option.bind_some]
  dsimp only
  rw [code, Option.bind_some, Json.int?_ofInt, Option.bind_some, Word.uint32?_toNat,
    Option.bind_some, Json.int?_ofInt, Option.bind_some, Word.uint32?_toNat, Option.bind_some,
    Json.term?_ofTerm, Option.bind_some, Json.type?_ofType, Option.bind_some,
    Json.term?_ofTerm, Option.bind_some, Json.type?_ofType, Option.bind_some,
    Json.int?_ofInt, Option.bind_some, Word.int64?_toInt, Option.bind_some]
  rfl

theorem ErrorReport.room_of_ofJson? {room : Nat} {json : Json} {report : ErrorReport}
    (read : ofJson? room json = some report) : 1 ≤ room := by
  unfold ofJson? at read
  cases record : json.record? fieldNames room with
  | none =>
      rw [record] at read
      cases read
  | some contents => exact Json.room_of_record? record

theorem GeneralizationMode.ofJson?_toJson (room : Nat) (mode : GeneralizationMode) :
    ofJson? room mode.toJson = some mode := by
  cases mode <;> cases room <;> rfl

end SmtModel
