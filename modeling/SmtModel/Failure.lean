import SmtModel.ErrorReport

/-!
# Failures

A failure is an ordinary ending of an operation: it has a cause, and the operation
that met it leaves the solver usable. `Failure.message` is the one place where the
causes are put into words. Two failures of calls count as the same if the same
operation failed with the same code, whatever else the reports say.
-/

namespace SmtModel

/-- What is wrong when the solver, or a setting, breaks the rules that the library relies on. -/
inductive Defect where
  /-- A node has a tag that stands for no kind of value. -/
  | unexpectedTag (tag : Int32)
  /-- An entry of a function is a node of another kind than a mapping. -/
  | entryTag (tag : Int32)
  /-- An entry of a function is a mapping without arguments. -/
  | entryWithoutArguments
  /-- A call failed, and the solver has no error to report. -/
  | unreported (operation : String)
  /-- A depth limit of zero levels, under which no value could be read. -/
  | noLevels
  | other (text : String)
  deriving DecidableEq

/-- The words for a defect. -/
def Defect.message : Defect → String
  | .unexpectedTag tag => "unexpected value tag " ++ toString tag.toInt
  | .entryTag tag => "function entry has value tag " ++ toString tag.toInt
  | .entryWithoutArguments => "function entry has no arguments"
  | .unreported operation => operation ++ " failed without reporting an error"
  | .noLevels => "max_depth must be at least 1"
  | .other text => text

/-- How an operation of the library fails. -/
inductive Failure where
  /-- A call failed with a report. -/
  | call (operation : String) (report : ErrorReport)
  /-- The library does not read values of this sort. -/
  | notImplemented (feature : String)
  | internal (defect : Defect)
  /-- A value nests deeper than the limit allows. -/
  | depthLimit (levels : Nat)
  deriving DecidableEq

namespace Failure

/-- The call that failed, if one did. -/
def operation? : Failure → Option String
  | call operation _ => some operation
  | _ => none

/-- The solver's report of a failed call. -/
def report? : Failure → Option ErrorReport
  | call _ report => some report
  | _ => none

/-- The words for a failure. -/
def message : Failure → String
  | call operation report =>
    if report.message.isEmpty then
      operation ++ " failed (error code " ++ report.code.toText ++ ")"
    else
      operation ++ " failed: " ++ report.message ++ " (error code " ++ report.code.toText ++ ")"
  | notImplemented feature => "Not implemented: " ++ feature
  | internal defect => "Internal error: " ++ defect.message
  | depthLimit levels => "Model value nests deeper than " ++ toString levels ++ " levels"

/-- Whether two failures count as the same. Defects are told apart by their messages only. -/
def same : Failure → Failure → Bool
  | call operation report, call operation' report' =>
    operation = operation' ∧ report.code = report'.code
  | notImplemented feature, notImplemented feature' => feature = feature'
  | internal defect, internal defect' => defect.message = defect'.message
  | depthLimit levels, depthLimit levels' => levels = levels'
  | _, _ => false

end Failure

end SmtModel
