import SmtModel.Handle

/-!
# Error reports

The solver keeps one error at a time: a code, the terms and types that the
failed call complained about, and a text. The codes named here are those that
the library or the scripted solver refer to; any other code passes through.
-/

namespace SmtModel

/-- The solver's number for an error. Zero means that there is none. -/
structure ErrorCode where
  code : Int32
  deriving DecidableEq

namespace ErrorCode

/-- No call has failed since the error was cleared. -/
def noError : ErrorCode := ⟨0⟩
/-- A type handle names nothing. -/
def invalidType : ErrorCode := ⟨1⟩
/-- A term handle names nothing. -/
def invalidTerm : ErrorCode := ⟨2⟩
/-- An enumerated type has no element at the index. -/
def invalidConstantIndex : ErrorCode := ⟨3⟩
/-- A constant was asked of a type that has no enumerated elements. -/
def scalarTypeRequired : ErrorCode := ⟨20⟩
/-- The value of a term is not of the kind that was asked for. -/
def typeMismatch : ErrorCode := ⟨28⟩
/-- A model was asked of a context that has none. -/
def invalidContextOperation : ErrorCode := ⟨400⟩
/-- The model gives the term no value. -/
def unknownTerm : ErrorCode := ⟨600⟩
/-- The value of a term does not fit the words that were asked for. -/
def conversionFailed : ErrorCode := ⟨606⟩
/-- A formula of which an implicant was asked is false. -/
def noImplicant : ErrorCode := ⟨607⟩
/-- A model was to be built from what is not a variable and a constant. -/
def constantRequired : ErrorCode := ⟨701⟩
/-- A model was to be built with two values for one variable. -/
def duplicateVariable : ErrorCode := ⟨702⟩
/-- A node does not belong to the model, or is not of the kind that was asked for. -/
def invalidNodeOperation : ErrorCode := ⟨800⟩
/-- The value of a node does not fit the words that were asked for. -/
def nodeOverflow : ErrorCode := ⟨801⟩
/-- A model could not be generalized. -/
def generalizationFailed : ErrorCode := ⟨902⟩
/-- The error could not be printed. -/
def outputError : ErrorCode := ⟨9000⟩
/-- The error of every call that is scripted to fail. -/
def internalException : ErrorCode := ⟨9999⟩

instance : Inhabited ErrorCode := ⟨noError⟩

/-- Whether a code stands for an error. -/
def isError (error : ErrorCode) : Bool := error ≠ noError

/-- The number of an error in decimal. -/
def toText (error : ErrorCode) : String := toString error.code.toInt

/-- The solver's words for an error. A code without words of its own is named by its number. -/
def describe (error : ErrorCode) : String :=
  if error = noError then "no error"
  else if error = invalidType then "invalid type"
  else if error = invalidTerm then "invalid term"
  else if error = invalidConstantIndex then "invalid index in constant creation"
  else if error = scalarTypeRequired then "invalid type in constant creation"
  else if error = typeMismatch then "type mismatch: invalid argument"
  else if error = invalidContextOperation then "invalid operation on context"
  else if error = unknownTerm then "eval error: unknown term"
  else if error = conversionFailed then "eval error: conversion to a term failed"
  else if error = noImplicant then "eval error: no implicant: formula is false in the model"
  else if error = constantRequired then "model construction: a constant term is required"
  else if error = duplicateVariable then "model construction: duplicate variable"
  else if error = invalidNodeOperation then "invalid operation on yval"
  else if error = nodeOverflow then "overflow: yval is too large"
  else if error = generalizationFailed then "model generalization failed"
  else if error = outputError then "error when attempting to write to a stream"
  else if error = internalException then "internal error"
  else "error code " ++ error.toText

end ErrorCode

/-- What the solver says of its current error. -/
structure ErrorReport where
  code : ErrorCode := .noError
  line : UInt32 := 0
  column : UInt32 := 0
  term1 : TermId := .null
  type1 : TypeId := .null
  term2 : TermId := .null
  type2 : TypeId := .null
  badValue : Int64 := 0
  message : String := ""
  deriving DecidableEq

instance : Inhabited ErrorReport := ⟨{}⟩

end SmtModel
