import SmtModel.Proofs.Json.Values

/-!
# Written forms are read back

A form is a kind of content that has a JSON text of its own. A text that is written in a form is
read back as the content it was written from exactly if the content fits: all doubles in it are
finite, no denominator in it is zero, and its text opens no more containers than a reader may
open. Whatever is read from a text fits.
-/

namespace SmtModel

/-- What has a JSON text of its own. -/
inductive Form where
  | value
  | function
  | mapping
  | scalar
  | report
  | mode
  | term
  | type
  | errorCode

namespace Form

/-- What is written in a form. -/
def Content : Form → Type
  | value => Value
  | function => FunctionValue
  | mapping => Mapping Value
  | scalar => ScalarValue
  | report => ErrorReport
  | mode => GeneralizationMode
  | term => TermId
  | type => TypeId
  | errorCode => ErrorCode

/-- The tree for a content, by its form. -/
def toJson : (form : Form) → form.Content → Json
  | value, content => Value.toJson content
  | function, content => Value.functionToJson content
  | mapping, content => Value.mappingToJson content
  | scalar, content => .ofScalar content
  | report, content => ErrorReport.toJson content
  | mode, content => GeneralizationMode.toJson content
  | term, content => .ofTerm content
  | type, content => .ofType content
  | errorCode, content => ErrorCode.toJson content

/-- The content that a tree stands for, if there is room for its containers. -/
def ofJson? : (form : Form) → (room : Nat) → Json → Option form.Content
  | value, room, json => Value.ofJson? room json
  | function, room, json => Value.functionOfJson? room json
  | mapping, room, json => Value.mappingOfJson? room json
  | scalar, room, json => json.scalar? room
  | report, room, json => ErrorReport.ofJson? room json
  | mode, room, json => GeneralizationMode.ofJson? room json
  | term, _, json => json.term?
  | type, _, json => json.type?
  | errorCode, _, json => ErrorCode.ofJson? json

variable (form : Form)

/-- The text of a content. -/
def write (content : form.Content) : String := (form.toJson content).toText

/-- Reads a content that takes up the whole text. -/
def read? (text : String) : Option form.Content := do
  form.ofJson? Json.nestingLimit (← Json.read? text)

/-- The outermost values of a content. -/
def values : (form : Form) → form.Content → List Value
  | value, content => [content]
  | function, content => [.function content]
  | mapping, content => [.mapping content]
  | _, _ => []

/-- A property holds of all values in a content, at any depth. -/
def Every (holds : Value → Prop) (content : form.Content) : Prop :=
  ∀ value ∈ form.values content, value.Every holds

/-- A content that is written in the given room, and says all of it there. -/
structure FitsIn (room : Nat) (content : form.Content) : Prop where
  fits : (form.toJson content).nesting ≤ room
  serial : form.Every Value.IsSerial content

variable {form} {room : Nat} {content : form.Content} {json : Json}

/-- What fits is found again. -/
theorem ofJson?_toJson (fitsIn : form.FitsIn room content)
    (readsBack : form.Every Value.ReadsBack content) :
    form.ofJson? room (form.toJson content) = some content := by
  rcases fitsIn with ⟨fits, serial⟩
  cases form with
  | value =>
      exact (serial content (List.mem_singleton_self _)).survives
        (readsBack content (List.mem_singleton_self _)) room fits
  | function =>
      exact Value.survives_function_iff.mp ((serial _ (List.mem_singleton_self _)).survives
        (readsBack _ (List.mem_singleton_self _))) room fits
  | mapping =>
      exact Value.survives_mapping_iff.mp ((serial _ (List.mem_singleton_self _)).survives
        (readsBack _ (List.mem_singleton_self _))) room fits
  | scalar =>
      rcases Nat.exists_eq_add_of_le' fits with ⟨room, rfl⟩
      exact Json.scalar?_ofScalar room content
  | report =>
      rcases Nat.exists_eq_add_of_le' fits with ⟨room, rfl⟩
      exact ErrorReport.ofJson?_toJson room content
  | mode => exact GeneralizationMode.ofJson?_toJson room content
  | term => exact Json.term?_ofTerm content
  | type => exact Json.type?_ofType content
  | errorCode => exact congrArg (Option.map ErrorCode.mk) (Json.int32?_ofInt content.code)

/-- What is read fits. -/
theorem fitsIn_of_ofJson? (read : form.ofJson? room json = some content) :
    form.FitsIn room content := by
  have below (lower : Nat) (_ : lower < room) := Value.readsFitting lower
  cases form with
  | value =>
      have fitsIn := Value.readsFitting room json content read
      exact ⟨fitsIn.fits, List.forall_mem_singleton.mpr fitsIn.serial⟩
  | function =>
      rcases Value.fits_of_functionOfJson? below read with ⟨fits, serial⟩
      exact ⟨fits, List.forall_mem_singleton.mpr serial⟩
  | mapping =>
      rcases Value.fits_of_mappingOfJson? below read with ⟨fits, serial⟩
      exact ⟨fits, List.forall_mem_singleton.mpr serial⟩
  | scalar => exact ⟨Json.room_of_scalar? read, List.forall_mem_nil _⟩
  | report => exact ⟨ErrorReport.room_of_ofJson? read, List.forall_mem_nil _⟩
  | mode | term | type | errorCode => exact ⟨Nat.zero_le _, List.forall_mem_nil _⟩

/-- A content is read back from its own text exactly if it fits, and whatever is read from any
text is read back from its own text. -/
theorem text_survives (form : Form) (content : form.Content)
    (readsBack : form.Every Value.ReadsBack content) :
    (form.read? (form.write content) = some content ↔ form.FitsIn Json.nestingLimit content) ∧
      ∀ text, form.read? text = some content → form.read? (form.write content) = some content := by
  have fitsIn {text : String} (read : form.read? text = some content) :
      form.FitsIn Json.nestingLimit content := by
    simp only [read?, Option.bind_eq_bind, Option.bind_eq_some_iff] at read
    rcases read with ⟨json, -, found⟩
    exact fitsIn_of_ofJson? found
  have back (fits : form.FitsIn Json.nestingLimit content) :
      form.read? (form.write content) = some content := by
    rw [read?, write, Json.read?_toText, Option.bind_eq_bind, Option.bind_some,
      ofJson?_toJson fits readsBack]
  exact ⟨⟨fitsIn, back⟩, fun text read => back (fitsIn read)⟩

/-- A negative zero, a fraction that is not reduced, and a function with two entries for one key. -/
def delicate : Value :=
  .tuple [.float (-0.0), .rational ⟨2, -4⟩,
    .function ⟨.absent, [⟨[.bool true], .int 1⟩, ⟨[.bool true], .int 2⟩]⟩]

/-- The same value spelled out in another way: with an exponent, a leading zero among the digits,
a unit as an object, and records as arrays. -/
def delicateTree : Json :=
  .ofFields [("Tuple", .array [
    .ofFields [("Float", .number ⟨true, 0, 0, some 1⟩)],
    .ofFields [("Rational", .array [
      .array [.ofInt 1, .array [.ofInt 2]], .array [.ofInt (-1), .array [.ofInt 4, .ofInt 0]]])],
    .ofFields [("Function", .array [.ofFields [("Absent", .null)], .array [
      .array [.array [.ofFields [("Bool", .bool true)]],
        .ofFields [("Int", .array [.ofInt 1, .array [.ofInt 1]])]],
      .array [.array [.ofFields [("Bool", .bool true)]],
        .ofFields [("Int", .array [.ofInt 1, .array [.ofInt 2]])]]]])]])]

theorem text_survives_delicate :
    read? value delicateTree.toText = some delicate ∧
      FitsIn value Json.nestingLimit delicate ∧
      read? value (write value delicate) = some delicate := by
  have entry (number : Int) :
      (Value.mapping ⟨[.bool true], .int number⟩).Every Value.ReadsBack :=
    (Value.every_mapping_iff trivial).mpr
      ⟨List.forall_mem_singleton.mpr (.leaf trivial rfl), .leaf trivial rfl⟩
  have readsBack : Every value Value.ReadsBack delicate := by
    have zero : (Value.float (-0.0)).ReadsBack := fun _ => by decide +kernel
    refine List.forall_mem_singleton.mpr ((Value.every_iff_parts trivial).mpr ?_)
    simp only [delicate, Value.parts, List.forall_mem_cons]
    refine ⟨.leaf zero rfl, .leaf trivial rfl, (Value.every_function_iff trivial).mpr ?_,
      List.forall_mem_nil _⟩
    simp only [List.forall_mem_cons]
    exact ⟨.leaf trivial rfl, entry 1, entry 2, List.forall_mem_nil _⟩
  have read : read? value delicateTree.toText = some delicate := by
    simp only [read?, Json.read?_toText]
    rfl
  rcases text_survives .value delicate readsBack with ⟨readsIffFits, again⟩
  have written := again _ read
  exact ⟨read, readsIffFits.mp written, written⟩

end Form

end SmtModel
