import SmtModel.ErrorReport
import SmtModel.GeneralizationMode
import SmtModel.Value.Json

/-!
# JSON form of reports and modes

Codes are plain numbers, a report is the record of its fields, and a mode of
generalization is its name.
-/

namespace SmtModel

/-- An error as its number. -/
def ErrorCode.toJson (error : ErrorCode) : Json := .ofInt error.code.toInt

/-- Reads the number of an error. -/
def ErrorCode.ofJson? (json : Json) : Option ErrorCode := json.int32?.map ErrorCode.mk

namespace ErrorReport

/-- The names of the fields of a report, in order. -/
def fieldNames : List String :=
  ["code", "line", "column", "term1", "type1", "term2", "type2", "badval", "message"]

/-- A report as the record of its fields. -/
def toJson (report : ErrorReport) : Json :=
  .ofFields (fieldNames.zip
    [report.code.toJson, .ofInt report.line.toNat, .ofInt report.column.toNat,
      .ofTerm report.term1, .ofType report.type1, .ofTerm report.term2, .ofType report.type2,
      .ofInt report.badValue.toInt, .ofString report.message])

/-- Reads a report, of which no field may be missing. -/
def ofJson? (room : Nat) (json : Json) : Option ErrorReport := do
  let (_, [code, line, column, term1, type1, term2, type2, badValue, message]) ←
    json.record? fieldNames room | none
  return {
    code := ← ErrorCode.ofJson? code
    line := ← Word.uint32? (← line.int?)
    column := ← Word.uint32? (← column.int?)
    term1 := ← term1.term?
    type1 := ← type1.type?
    term2 := ← term2.term?
    type2 := ← type2.type?
    badValue := ← Word.int64? (← badValue.int?)
    message := ← message.text?
  }

end ErrorReport

namespace GeneralizationMode

/-- The name of a mode in JSON. -/
def jsonName : GeneralizationMode → String
  | default => "Default"
  | bySubstitution => "BySubstitution"
  | byProjection => "ByProjection"

/-- The mode with a name. -/
def ofJsonName? (name : String) : Option GeneralizationMode :=
  if name = "Default" then some default
  else if name = "BySubstitution" then some bySubstitution
  else if name = "ByProjection" then some byProjection
  else none

/-- A mode as its name. -/
def toJson (mode : GeneralizationMode) : Json := .ofString mode.jsonName

/-- Reads a mode: its name, or an object whose one member has that name and says nothing. -/
def ofJson? : (room : Nat) → Json → Option GeneralizationMode
  | _, .string (some name) => ofJsonName? name
  | _ + 1, .object [(some name, .null)] => ofJsonName? name
  | _, _ => none

end GeneralizationMode

end SmtModel
