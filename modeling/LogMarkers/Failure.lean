/-!
# Failures

The causes that stop a run, each with its wording. Resolving and emitting never fail; what stops a
run is a setting, a cancellation, a source that cannot be read, or an output that cannot be written.
-/

namespace LogMarkers

/-- Why the disk refuses an operation. -/
inductive DiskError where
  | notFound
  | alreadyExists
  | notADirectory
  | isADirectory
  /-- The file is no UTF-8 text. -/
  | invalidText
  /-- The source root has none of the files a crate can start with. -/
  | noEntryFile
  /-- Any other reason, in words. -/
  | other (reason : String)
  deriving DecidableEq, Repr

namespace DiskError

/-- The reason in words. -/
def text : DiskError → String
  | notFound => "No such file or directory (os error 2)"
  | alreadyExists => "File exists (os error 17)"
  | notADirectory => "Not a directory (os error 20)"
  | isADirectory => "Is a directory (os error 21)"
  | invalidText => "stream did not contain valid UTF-8"
  | noEntryFile => "neither lib.rs nor main.rs exists"
  | other reason => reason

/-- The class of the reason. -/
def kind : DiskError → String
  | notFound | noEntryFile => "NotFound"
  | alreadyExists => "AlreadyExists"
  | notADirectory => "NotADirectory"
  | isADirectory => "IsADirectory"
  | invalidText => "InvalidData"
  | other _ => "Other"

end DiskError

/-- Why a run stops. -/
inductive Failure where
  /-- A setting with a value it may not have. -/
  | invalidSetting (field details : String)
  /-- Settings that are no document of the right shape. -/
  | unreadableSettings (reason : String)
  /-- The run was given up. -/
  | cancelled
  /-- A source that is not written in the source language, with the line where reading stopped. -/
  | unparsable (file : String) (line : Nat) (reason : String)
  /-- The disk refused. -/
  | disk (path : String) (error : DiskError)
  /-- A manifest that is no document of the right shape. -/
  | unreadableManifest (reason : String)
  /-- An environment variable that is not set. -/
  | missingVariable (name : String)
  deriving DecidableEq, Repr

namespace Failure

/-- The failure in words. -/
def message : Failure → String
  | invalidSetting field details =>
    "Configuration validation failed: " ++ field ++ " - " ++ details
  | unreadableSettings reason => "Failed to parse configuration: " ++ reason
  | cancelled => "Generation run cancelled"
  | unparsable file _ reason => "Failed to parse " ++ file ++ ": " ++ reason
  | disk path error => "I/O error on " ++ path ++ ": " ++ error.text
  | unreadableManifest reason => "Manifest serialization failed: " ++ reason
  | missingVariable name => "Environment variable " ++ name ++ " is not set"

/-- The class of a failure of the generation itself. -/
def category? : Failure → Option String
  | invalidSetting _ _ | unreadableSettings _ => some "configuration"
  | cancelled => some "cancellation"
  | _ => none

end Failure

end LogMarkers
