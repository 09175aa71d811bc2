import SmtModel.ErrorReport
import SmtModel.Node
import SmtModel.Value.Display

/-!
# Events

The library records what it does as events. An event has a level of detail, a fixed
message, and fields; `Event.lines` writes all of these as `name=value` lines in the
order of their characters.
-/

namespace SmtModel

/-- Levels of detail, the least detailed first. -/
inductive Event.Level where
  | warn
  | debug
  | trace
  deriving DecidableEq

namespace Event.Level

/-- The place of a level, where greater places are more detailed. -/
def rank : Level → Nat
  | warn => 0
  | debug => 1
  | trace => 2

/-- The name of a level as it is logged. -/
def name : Level → String
  | warn => "WARN"
  | debug => "DEBUG"
  | trace => "TRACE"

/-- Whether events of a level are shown when everything up to `limit` is. -/
def isShown (limit level : Level) : Bool := level.rank ≤ limit.rank

end Event.Level

/-- What the library logs. -/
inductive Event where
  | startingUp
  | shuttingDown
  | resetting
  | modelExtracted (keepSubstitution : Bool)
  | modelBuilt (assignments : Nat)
  | freeingModel
  | callFailed (operation : String) (code : ErrorCode) (message : String)
  | callFailedUnreported (operation : String)
  /-- A node is about to be read, at a depth below the root. -/
  | readingNode (node : Node) (depth : Nat)
  /-- A function has two entries for one key, and the earlier result is given up. -/
  | entryReplaced (replaced : Value)

namespace Event

/-- The level at which an event is logged. -/
def level : Event → Level
  | startingUp | shuttingDown | resetting => .debug
  | modelExtracted _ | modelBuilt _ | freeingModel | callFailed .. => .debug
  | callFailedUnreported _ | entryReplaced _ => .warn
  | readingNode .. => .trace

/-- The words of an event, which are the same for all events of a sort. -/
def message : Event → String
  | startingUp => "initializing library"
  | shuttingDown => "shutting down library"
  | resetting => "resetting library"
  | modelExtracted _ => "model extracted from context"
  | modelBuilt _ => "model built from map"
  | freeingModel => "freeing model"
  | callFailed .. => "native call failed"
  | callFailedUnreported _ => "native call failed without an error report"
  | readingNode .. => "decoding value node"
  | entryReplaced _ => "duplicate function entry, keeping the later result"

/-- The fields besides the message. The words of a failed call are a second message. -/
def fields : Event → List (String × String)
  | startingUp | shuttingDown | resetting | freeingModel => []
  | modelExtracted keepSubstitution =>
    [("keep_subst", if keepSubstitution then "true" else "false")]
  | modelBuilt assignments => [("assignments", toString assignments)]
  | callFailed operation code message =>
    [("operation", operation), ("code", code.toText), ("message", message)]
  | callFailedUnreported operation => [("operation", operation)]
  | readingNode node depth =>
    [("node", toString node.id.toInt), ("tag", toString node.tag.toInt),
      ("depth", toString depth)]
  | entryReplaced replaced => [("replaced", replaced.display)]

/-- All that is to be shown of an event. -/
def lines (event : Event) : List String :=
  let named := ("message", event.message) :: event.fields
  (named.map fun (name, value) => name ++ "=" ++ value).mergeSort (· ≤ ·)

end Event

end SmtModel
