/-!
# Modes of generalization

A model is generalized by eliminating variables from a formula, either by
substituting their values or by projecting them out. `GeneralizationMode.parse`
reads a mode from any of its spellings, in any mixture of cases.
-/

namespace SmtModel

/-- How variables are eliminated. -/
inductive GeneralizationMode where
  /-- The solver chooses by the types of the variables. -/
  | default
  | bySubstitution
  | byProjection
  deriving DecidableEq

namespace GeneralizationMode

instance : Inhabited GeneralizationMode := ⟨default⟩

/-- The solver's number for a mode. -/
def code : GeneralizationMode → Int32
  | default => 0
  | bySubstitution => 1
  | byProjection => 2

/-- The canonical spelling of a mode. -/
def name : GeneralizationMode → String
  | default => "default"
  | bySubstitution => "by-substitution"
  | byProjection => "by-projection"

/-- A text that names no mode. -/
structure Unknown where
  text : String
  deriving DecidableEq

/-- The words for a text that names no mode. -/
def Unknown.message (unknown : Unknown) : String :=
  "Unknown generalization mode: " ++ unknown.text ++
    ". Valid options: default, by-substitution, by-projection"

/-- Reads a mode. Only ASCII letters change case here, which is all that a spelling of a mode
consists of. -/
def parse (text : String) : Except Unknown GeneralizationMode :=
  match text.toLower with
  | "default" => .ok default
  | "subst" | "by-substitution" | "substitution" => .ok bySubstitution
  | "proj" | "by-projection" | "projection" => .ok byProjection
  | _ => .error ⟨text⟩

end GeneralizationMode

end SmtModel
