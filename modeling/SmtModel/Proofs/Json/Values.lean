import SmtModel.Proofs.Json.Contents
import SmtModel.Proofs.Json.Doubles
import SmtModel.Proofs.Json.Texts
import SmtModel.Proofs.WellFormed

/-!
# Values survive their JSON form

A value is found again in its JSON form if there is room for the containers that the form
opens, all doubles in it are finite, and no denominator in it is zero (`Value.Every.survives`).
That a finite double is read back from its own numeral is assumed of the doubles in the value
(`Value.ReadsBack`).

Conversely, a value that was read from any tree meets these conditions: its form opens no more
containers than the tree was allowed to (`Value.readsFitting`). Trees spell one value in several
ways, so this is not a matter of comparing trees. It goes by recursion on the room, as reading
does.
-/

namespace SmtModel

namespace Value

/-! ## Writing and reading -/

/-- A value whose JSON form says all of it: a double is finite, and a denominator is not zero. -/
def IsSerial : Value → Prop
  | .float number => number.isFinite = true
  | .rational fraction => fraction.denominator ≠ 0
  | _ => True

/-- A value that is read back from its JSON form if it is a finite double. This is all that is
assumed of how doubles are printed. -/
def ReadsBack : Value → Prop
  | .float number => number.isFinite = true → (Json.ofFloat number).float? = some number
  | _ => True

/-- A value is found again in its JSON form wherever there is room for it. -/
def Survives (value : Value) : Prop :=
  ∀ room, value.toJson.nesting ≤ room → Value.ofJson? room value.toJson = some value

/-- A value that is written with its kind survives if what is written with the kind is found. -/
theorem survives_field_iff {α : Type} {wrap : α → Value} {find : Nat → Option α} {inner : α}
    {kind : String} {content : Json}
    (injective : ∀ left right, wrap left = wrap right → left = right)
    (written : (wrap inner).toJson = .ofFields [(kind, content)])
    (read : ∀ room, Value.ofJson? (room + 1) (.ofFields [(kind, content)]) =
      (find room).map wrap) :
    (wrap inner).Survives ↔ ∀ room, content.nesting ≤ room → find room = some inner := by
  unfold Survives
  rw [written, Json.nesting_ofField]
  constructor
  · intro survives room fits
    have found := survives (room + 1) (by omega)
    rw [read, Option.map_eq_some_iff] at found
    rcases found with ⟨result, found, same⟩
    rw [found, injective _ _ same]
  · intro found room fits
    rcases Nat.exists_eq_add_of_le' (Nat.le_of_add_left_le fits) with ⟨room, rfl⟩
    rw [read, found room (by omega), Option.map_some]

theorem survives_mapping_iff {point : Mapping Value} :
    (Value.mapping point).Survives ↔ ∀ room, (mappingToJson point).nesting ≤ room →
      mappingOfJson? room (mappingToJson point) = some point :=
  survives_field_iff (fun _ _ => Value.mapping.inj) rfl fun _ => rfl

theorem survives_function_iff {function : FunctionValue} :
    (Value.function function).Survives ↔ ∀ room, (functionToJson function).nesting ≤ room →
      functionOfJson? room (functionToJson function) = some function :=
  survives_field_iff (fun _ _ => Value.function.inj) rfl fun _ => rfl

theorem listToJson_eq (values : List Value) : listToJson values = values.map toJson := by
  induction values with
  | nil => rfl
  | cons value values ih => rw [listToJson, ih, List.map_cons]

theorem entriesToJson_eq (entries : List (Mapping Value)) :
    entriesToJson entries = entries.map mappingToJson := by
  induction entries with
  | nil => rfl
  | cons entry entries ih => rw [entriesToJson, ih, List.map_cons]

section Parts

variable {room : Nat}

theorem listOfJson?_array {values : List Value} (survive : ∀ value ∈ values, value.Survives)
    (fits : (Json.array (listToJson values)).nesting ≤ room) :
    listOfJson? room (.array (listToJson values)) = some values := by
  rw [Json.nesting_array_le_iff, listToJson_eq] at fits
  rcases Nat.exists_eq_add_of_le' fits.1 with ⟨room, rfl⟩
  rw [listToJson_eq, listOfJson?]
  have found := @mapM_map_eq_some _ _ _ toJson (Value.ofJson? room) id values fun value isValue =>
    survive value isValue room (fits.2 _ (List.mem_map_of_mem isValue))
  rwa [List.map_id] at found

theorem mappingOfJson?_mappingToJson {point : Mapping Value}
    (args : ∀ value ∈ point.args, value.Survives) (result : point.result.Survives)
    (fits : (mappingToJson point).nesting ≤ room) :
    mappingOfJson? room (mappingToJson point) = some point := by
  rcases point with ⟨values, last⟩
  rw [mappingToJson, Json.nesting_ofFields_le_iff] at fits
  rcases Nat.exists_eq_add_of_le' fits.1 with ⟨room, rfl⟩
  simp only [List.map_cons, List.map_nil, List.forall_mem_cons, Nat.add_sub_cancel] at fits
  have fields := @Json.fields?_ofFields [("args", .array (listToJson values)),
    ("result", last.toJson)] (by simp)
  simp only [List.map_cons, List.map_nil] at fields
  rw [mappingToJson, mappingOfJson?, fields]
  simp [listOfJson?_array args fits.2.1, result room fits.2.2.1]

theorem functionOfJson?_functionToJson {function : FunctionValue}
    (default : function.default.Survives)
    (entries : ∀ entry ∈ function.entries, (Value.mapping entry).Survives)
    (fits : (functionToJson function).nesting ≤ room) :
    functionOfJson? room (functionToJson function) = some function := by
  rcases function with ⟨otherwise, points⟩
  rw [functionToJson, Json.nesting_ofFields_le_iff] at fits
  rcases Nat.exists_eq_add_of_le' fits.1 with ⟨room, rfl⟩
  simp only [List.map_cons, List.map_nil, List.forall_mem_cons, Nat.add_sub_cancel] at fits
  have fields := @Json.fields?_ofFields [("default", otherwise.toJson),
    ("entries", .array (entriesToJson points))] (by simp)
  simp only [List.map_cons, List.map_nil] at fields
  have listed : entriesOfJson? room (.array (entriesToJson points)) = some points := by
    have inside := fits.2.2.1
    rw [Json.nesting_array_le_iff, entriesToJson_eq] at inside
    rcases Nat.exists_eq_add_of_le' inside.1 with ⟨room, rfl⟩
    rw [entriesToJson_eq, entriesOfJson?]
    have found := @mapM_map_eq_some _ _ _ mappingToJson (mappingOfJson? room) id points
      fun entry isEntry => survives_mapping_iff.mp (entries entry isEntry) room
        (inside.2 _ (List.mem_map_of_mem isEntry))
    rwa [List.map_id] at found
  rw [functionToJson, functionOfJson?, fields]
  simp [default room fits.2.1, listed]

end Parts

/-- A value survives if all doubles in it are finite and read back, and no denominator in it is
zero. -/
theorem Every.survives {value : Value} (serial : value.Every IsSerial)
    (readsBack : value.Every ReadsBack) : value.Survives := by
  induction serial with
  | @node value here below ih =>
      rcases readsBack with ⟨hereReads, belowReads⟩
      have parts (part : Value) (isPart : part ∈ value.parts) : part.Survives :=
        ih part isPart (belowReads part isPart)
      cases value with
      | absent => intro room _; cases room <;> rfl
      | bool truth =>
          exact (survives_field_iff (fun _ _ => Value.bool.inj) rfl fun _ => rfl).mpr
            fun room _ => rfl
      | int number =>
          refine (survives_field_iff (fun _ _ => Value.int.inj) rfl fun _ => rfl).mpr
            fun room fits => ?_
          rw [Json.nesting_ofInteger] at fits
          exact Json.integer?_ofInteger fits number
      | rational fraction =>
          refine (survives_field_iff (fun _ _ => Value.rational.inj) rfl fun _ => rfl).mpr
            fun room fits => ?_
          rw [Json.nesting_ofFraction] at fits
          exact Json.fraction?_ofFraction fits here
      | float number =>
          exact (survives_field_iff (fun _ _ => Value.float.inj) rfl fun _ => rfl).mpr
            fun room _ => hereReads here
      | scalar element =>
          refine (survives_field_iff (fun _ _ => Value.scalar.inj) rfl fun _ => rfl).mpr
            fun room fits => ?_
          rw [Json.nesting_ofScalar] at fits
          rcases Nat.exists_eq_add_of_le' fits with ⟨room, rfl⟩
          exact Json.scalar?_ofScalar room element
      | bitVector bits =>
          refine (survives_field_iff (fun _ _ => Value.bitVector.inj) rfl fun _ => rfl).mpr
            fun room fits => ?_
          rw [Json.nesting_bits] at fits
          rcases Nat.exists_eq_add_of_le' fits with ⟨room, rfl⟩
          exact Json.bits?_array room bits
      | tuple items =>
          exact (survives_field_iff (fun _ _ => Value.tuple.inj) rfl fun _ => rfl).mpr
            fun room fits => listOfJson?_array parts fits
      | mapping point =>
          simp only [Value.parts, List.forall_mem_append, List.forall_mem_singleton] at parts
          exact survives_mapping_iff.mpr fun room fits =>
            mappingOfJson?_mappingToJson parts.1 parts.2 fits
      | function graph =>
          simp only [Value.parts, List.forall_mem_cons, List.forall_mem_map] at parts
          exact survives_function_iff.mpr fun room fits =>
            functionOfJson?_functionToJson parts.1 parts.2 fits

/-! ## What is read -/

/-- A value that is written in the given room, and says all of it there. -/
structure FitsIn (room : Nat) (value : Value) : Prop where
  fits : value.toJson.nesting ≤ room
  serial : value.Every IsSerial

/-- All values that are read in the given room can be written in it again. -/
def ReadsFitting (room : Nat) : Prop :=
  ∀ json value, Value.ofJson? room json = some value → value.FitsIn room

section Parts

variable {room : Nat} (below : ∀ lower < room, ReadsFitting lower) {json : Json}

include below

theorem fits_of_listOfJson? {values : List Value} (read : listOfJson? room json = some values) :
    (Json.array (listToJson values)).nesting ≤ room ∧
      ∀ value ∈ values, value.Every IsSerial := by
  unfold listOfJson? at read
  split at read
  · rename_i room items
    have each := forall_of_mapM_eq_some read fun item _ value found =>
      below room (by omega) item value found
    refine ⟨?_, fun value isValue => (each value isValue).serial⟩
    rw [Json.nesting_array_le_iff, listToJson_eq, List.forall_mem_map]
    exact ⟨by omega, fun value isValue => (each value isValue).fits⟩
  · cases read

theorem fits_of_mappingOfJson? {point : Mapping Value}
    (read : mappingOfJson? room json = some point) :
    (mappingToJson point).nesting ≤ room ∧ (Value.mapping point).Every IsSerial := by
  unfold mappingOfJson? at read
  split at read
  · rename_i room
    simp only [Option.bind_eq_bind, Option.bind_eq_some_iff] at read
    rcases read with ⟨contents, -, read⟩
    split at read
    · simp only [Option.bind_eq_some_iff, Option.pure_def, Option.some.injEq] at read
      rcases read with ⟨args, argsRead, result, resultRead, rfl⟩
      have args := fits_of_listOfJson? (fun lower less => below lower (by omega)) argsRead
      have result := below room (by omega) _ _ resultRead
      refine ⟨?_, (every_mapping_iff trivial).mpr ⟨args.2, result.serial⟩⟩
      rw [mappingToJson, Json.nesting_ofFields_le_iff]
      simp only [List.map_cons, List.map_nil, List.forall_mem_cons]
      exact ⟨by omega, args.1, result.fits, List.forall_mem_nil _⟩
    · cases read
  · cases read

theorem fits_of_functionOfJson? {function : FunctionValue}
    (read : functionOfJson? room json = some function) :
    (functionToJson function).nesting ≤ room ∧ (Value.function function).Every IsSerial := by
  unfold functionOfJson? at read
  split at read
  · rename_i room
    simp only [Option.bind_eq_bind, Option.bind_eq_some_iff] at read
    rcases read with ⟨contents, -, read⟩
    split at read
    · simp only [Option.bind_eq_some_iff, Option.pure_def, Option.some.injEq] at read
      rcases read with ⟨default, defaultRead, entries, entriesRead, rfl⟩
      have default := below room (by omega) _ _ defaultRead
      have entries : (Json.array (entriesToJson entries)).nesting ≤ room ∧
          ∀ entry ∈ entries, (Value.mapping entry).Every IsSerial := by
        unfold entriesOfJson? at entriesRead
        split at entriesRead
        · rename_i room items
          have each := forall_of_mapM_eq_some entriesRead fun item _ entry found =>
            fits_of_mappingOfJson? (fun lower less => below lower (by omega)) found
          refine ⟨?_, fun entry isEntry => (each entry isEntry).2⟩
          rw [Json.nesting_array_le_iff, entriesToJson_eq, List.forall_mem_map]
          exact ⟨by omega, fun entry isEntry => (each entry isEntry).1⟩
        · cases entriesRead
      refine ⟨?_, (every_function_iff trivial).mpr ⟨default.serial, entries.2⟩⟩
      rw [functionToJson, Json.nesting_ofFields_le_iff]
      simp only [List.map_cons, List.map_nil, List.forall_mem_cons]
      exact ⟨by omega, default.fits, entries.1, List.forall_mem_nil _⟩
    · cases read
  · cases read

end Parts

/-- A value that is written with its kind takes one container more than what is written with
the kind. -/
theorem FitsIn.of_field {room : Nat} {value : Value} {kind : String} {content : Json}
    (written : value.toJson = .ofFields [(kind, content)]) (fits : content.nesting ≤ room)
    (serial : value.Every IsSerial) : value.FitsIn (room + 1) where
  fits := by rw [written, Json.nesting_ofField]; omega
  serial := serial

/-- Whatever is read is written in no more room than it was read in. -/
theorem readsFitting (room : Nat) : ReadsFitting room := by
  induction room using Nat.strongRecOn with
  | ind room below =>
      intro json value read
      unfold Value.ofJson? at read
      split at read
      · rename_i room kind content
        replace below (lower : Nat) (less : lower < room) : ReadsFitting lower :=
          below lower (by omega)
        split at read
        case h_1 =>
          split at read
          · cases read
            exact ⟨Nat.zero_le _, .leaf trivial rfl⟩
          · cases read
        case h_11 => cases read
        all_goals
          rcases Option.map_eq_some_iff.mp read with ⟨inner, found, rfl⟩
        case h_2 => exact .of_field rfl (Nat.zero_le _) (.leaf trivial rfl)
        case h_3 =>
          refine .of_field rfl ?_ (.leaf trivial rfl)
          rw [Json.nesting_ofInteger]
          exact Json.room_of_integer? found
        case h_4 =>
          rcases Json.of_fraction? found with ⟨room, nonzero⟩
          refine .of_field rfl ?_ (.leaf nonzero rfl)
          rwa [Json.nesting_ofFraction]
        case h_5 =>
          refine .of_field rfl ?_ (.leaf (Json.isFinite_of_float? found) rfl)
          rw [Json.nesting_ofFloat]
          exact Nat.zero_le _
        case h_6 => exact .of_field rfl (Json.room_of_scalar? found) (.leaf trivial rfl)
        case h_7 =>
          refine .of_field rfl ?_ (.leaf trivial rfl)
          rw [Json.nesting_bits]
          exact Json.room_of_bits? found
        case h_8 =>
          rcases fits_of_listOfJson? below found with ⟨fits, serial⟩
          exact .of_field rfl fits (.node trivial serial)
        case h_9 =>
          rcases fits_of_mappingOfJson? below found with ⟨fits, serial⟩
          exact .of_field rfl fits serial
        case h_10 =>
          rcases fits_of_functionOfJson? below found with ⟨fits, serial⟩
          exact .of_field rfl fits serial
      · cases read
        exact ⟨Nat.zero_le _, .leaf trivial rfl⟩
      · cases read

end Value

end SmtModel
