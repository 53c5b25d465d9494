import LogMarkers.Tree.Basic

/-!
# Diagnostics

What a run reports without failing: a cause with its stable code, a message, the owner it concerns
and the place it was found.
-/

namespace LogMarkers

/-- How bad a diagnostic is. -/
inductive Severity where
  | warning
  | error
  deriving DecidableEq, Repr

/-- The severity as a word of a message. -/
def Severity.word : Severity → String
  | warning => "warning"
  | error => "error"

/-- The severity as a label in data. -/
def Severity.label : Severity → String
  | warning => "Warning"
  | error => "Error"

/-- The causes of diagnostics. -/
inductive Cause where
  /-- More than one recognised marker on one declaration. -/
  | conflictingMarkers
  /-- A recognised marker on a kind of declaration it does not support. -/
  | misplacedMarker
  /-- A member marker without an enclosing type or `impl` block. -/
  | ownerNotFound
  /-- An owner whose name could not be determined. -/
  | unnamedOwner
  /-- Two generated members of one owner with the same name. -/
  | duplicateGeneratedMember
  /-- An owner with type or const parameters. -/
  | genericOwner
  deriving DecidableEq, Repr

namespace Cause

/-- All causes, by code. -/
def all : List Cause :=
  [conflictingMarkers, misplacedMarker, ownerNotFound, unnamedOwner, duplicateGeneratedMember,
    genericOwner]

/-- The stable code of a cause. -/
def code : Cause → String
  | conflictingMarkers => "AL0001"
  | misplacedMarker => "AL0002"
  | ownerNotFound => "AL0003"
  | unnamedOwner => "AL0004"
  | duplicateGeneratedMember => "AL0005"
  | genericOwner => "AL0006"

/-- The cause as a label in data. -/
def label : Cause → String
  | conflictingMarkers => "ConflictingMarkers"
  | misplacedMarker => "MisplacedMarker"
  | ownerNotFound => "OwnerNotFound"
  | unnamedOwner => "UnnamedOwner"
  | duplicateGeneratedMember => "DuplicateGeneratedMember"
  | genericOwner => "GenericOwner"

/-- The cause with this label. -/
def ofLabel? (text : String) : Option Cause := all.find? (·.label == text)

/-- Only a member that would be defined twice is an error. -/
def severity : Cause → Severity
  | duplicateGeneratedMember => .error
  | _ => .warning

theorem ofLabel?_label (c : Cause) : ofLabel? c.label = some c := by cases c <;> decide

end Cause

/-- One report. -/
structure Diagnostic where
  cause : Cause
  message : String
  /-- The qualified owner the report concerns, where it is known. -/
  owner : Option String := none
  location : Option Location := none
  deriving DecidableEq, Repr

namespace Diagnostic

/-- How bad the report is: its cause decides. -/
def severity (d : Diagnostic) : Severity := d.cause.severity

/-- Whether the report is an error. -/
def isError (d : Diagnostic) : Bool := d.severity == .error

/-- The report as one line. -/
def text (d : Diagnostic) : String :=
  let head := d.severity.word ++ "[" ++ d.cause.code ++ "]: " ++ d.message
  match d.location with
  | some l => head ++ " at " ++ l.text
  | none => head

end Diagnostic

end LogMarkers
