/-!
# Errors

Everything that can go wrong, by cause. `message` is what a user reads, `category` the group that a
log names, and `isRecoverable` says whether trying again can help.
-/

namespace QueryPlayground

/-- A failed operation. -/
inductive Error where
  /-- A file could not be read or written. -/
  | io (reason : String)
  | json (reason : String)
  | yaml (reason : String)
  /-- A transaction on the history store failed. -/
  | storage (reason : String)
  /-- The history store can no longer serve requests. -/
  | storeUnavailable (reason : String)
  /-- A history entry is longer than allowed. -/
  | entryTooLarge (size max : Nat)
  /-- A share is longer than allowed. -/
  | sharePayloadTooLarge (size max : Nat)
  /-- The evaluator reports a failure, in its own words. -/
  | evaluation (message : String)
  /-- The evaluator did not answer in time; the time is in microseconds. -/
  | evaluationTimeout (micros : Nat)
  | evaluationCancelled
  | evaluatorUnavailable
  /-- The share server does not answer. -/
  | shareUnreachable (reason : String)
  /-- The share server answers with an error. -/
  | shareRejected (status : Nat) (message : String)
  | unknownDocumentKind (kind : String)
  | homeDirectoryNotFound
  /-- The arguments of a command are wrong. -/
  | invalidArguments (message : String)
  /-- A field of the configuration has a bad value. -/
  | configValidation (field reason : String)
  /-- Any other failure. -/
  | custom (message : String)
  deriving DecidableEq, Repr

namespace Error

/-- The text that a user reads. -/
def message : Error → String
  | io reason => "IO error: " ++ reason
  | json reason => "JSON error: " ++ reason
  | yaml reason => "YAML error: " ++ reason
  | storage reason => "Storage error: " ++ reason
  | storeUnavailable reason => "History store unavailable: " ++ reason
  | entryTooLarge size max =>
    "History entry too large: " ++ toString size ++ " characters (max " ++ toString max ++ ")"
  | sharePayloadTooLarge size max =>
    "Share payload too large: " ++ toString size ++ " characters (max " ++ toString max ++ ")"
  | evaluation message => message
  | evaluationTimeout micros => "Evaluation timed out after " ++ toString (micros / 1000) ++ "ms"
  | evaluationCancelled => "Evaluation cancelled"
  | evaluatorUnavailable => "Evaluator unavailable"
  | shareUnreachable reason => "Cannot reach share server: " ++ reason
  | shareRejected status message =>
    "Share server error (" ++ toString status ++ "): " ++ message
  | unknownDocumentKind kind => "Unknown document kind: " ++ kind
  | homeDirectoryNotFound => "Home directory not found"
  | invalidArguments message => "Invalid arguments: " ++ message
  | configValidation field reason =>
    "Configuration validation failed: " ++ field ++ " - " ++ reason
  | custom message => message

/-- The group of an error. -/
def category : Error → String
  | entryTooLarge .. | sharePayloadTooLarge .. | unknownDocumentKind _ => "validation"
  | evaluation _ | evaluationTimeout _ | evaluationCancelled | evaluatorUnavailable => "evaluation"
  | storage _ | storeUnavailable _ => "storage"
  | shareUnreachable _ | shareRejected .. => "network"
  | io _ => "io"
  | json _ | yaml _ => "serialization"
  | configValidation .. => "config"
  | homeDirectoryNotFound => "system"
  | invalidArguments _ => "arguments"
  | custom _ => "custom"

/-- Whether trying again can help. -/
def isRecoverable : Error → Bool
  | storeUnavailable _ | evaluatorUnavailable | invalidArguments _ | homeDirectoryNotFound => false
  | _ => true

end Error

end QueryPlayground
