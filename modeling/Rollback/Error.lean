import Rollback.CheckpointId
import Rollback.Json.Reader
import Rollback.Text.Quoted
import Rollback.Text.Numeral

/-!
# Errors

Each way in which an operation can fail is a cause with the data that its message shows. A cause
belongs to a kind; the kinds of a caller's mistake are the preconditions.
-/

namespace Rollback

inductive FileFault where
  | noSuchFile
  | fileExists
  | notDirectory
  | isDirectory
  | nameTooLong
  /-- A path cannot hold the character that ends it. -/
  | nulInName
  deriving DecidableEq, Repr

def FileFault.message : FileFault → String
  | noSuchFile => "No such file or directory (os error 2)"
  | fileExists => "File exists (os error 17)"
  | notDirectory => "Not a directory (os error 20)"
  | isDirectory => "Is a directory (os error 21)"
  | nameTooLong => "File name too long (os error 36)"
  | nulInName => "file name contained an unexpected NUL byte"

/-- Why a live value has no form as a field. -/
inductive CaptureFault where
  | keyNotText
  | numberOutOfRange
  deriving DecidableEq, Repr

def CaptureFault.message : CaptureFault → String
  | keyNotText => "key must be a string"
  | numberOutOfRange => "number out of range"

inductive SettingsFault where
  | noName
  | noBuffer
  | tooFewRetained
  | noDirectory
  | notText (key : String)
  | noNumber (key : String) (cause : Text.NumberFault)
  deriving DecidableEq, Repr

def SettingsFault.message : SettingsFault → String
  | noName => "instance_name must not be empty"
  | noBuffer => "command_buffer must be greater than zero"
  | tooFewRetained => "retained_checkpoints must be at least 2"
  | noDirectory => "storage directory must not be empty"
  | notText key => "Environment variable " ++ key ++ " contains invalid UTF-8"
  | noNumber key cause => "Failed to parse environment variable " ++ key ++ ": " ++ cause.message

inductive FieldFault where
  | wrongType (got : String) (wanted : String)
  /-- A whole number outside of the range that is wanted. -/
  | outOfRange (got : Int) (wanted : String)
  deriving DecidableEq, Repr

def FieldFault.message : FieldFault → String
  | wrongType got wanted => "invalid type: " ++ got ++ ", expected " ++ wanted
  | outOfRange got wanted =>
    "invalid value: integer " ++ Fault.ticked (String.ofList (Text.signed got)) ++ ", expected " ++
      wanted

inductive ErrorKind where
  | duplicateRegistration
  | fieldMismatch
  | precondition
  | restoration
  | notFound
  | alreadyExists
  | missingCheckpoint
  | noConsistentLine
  | serialization
  | io
  | storage
  | config
  | actorClosed
  deriving DecidableEq, Repr

/-- Why an operation failed. -/
inductive Error where
  | keyTaken (key : String)
  /-- An object captured other fields than it declares. -/
  | fieldMismatch (object : String) (declared captured : List String)
  | unnamedOwner (id : CheckpointId)
  | unsetTime (id : CheckpointId)
  | noSelfDependency (id : CheckpointId) (owner : String)
  | repeatedCheckpoint (id : CheckpointId)
  | notCapturable (cause : CaptureFault)
  /-- A notice was asked for a checkpoint that another instance took. -/
  | takenBy (id : CheckpointId) (owner self : String)
  /-- A token of another gate was shown. -/
  | foreignToken (name : String)
  | fieldMissing (name : String)
  | objectsMissing (id : CheckpointId) (keys : List String)
  /-- A registered object was to be overwritten from a checkpoint that has no snapshot of it. -/
  | snapshotGone (key : String)
  | objectRefused (key : String) (cause : Error)
  /-- A checkpoint of another instance cannot be restored. -/
  | ownedBy (id : CheckpointId) (owner self : String)
  | notFound (id : CheckpointId)
  | alreadyStored (id : CheckpointId)
  | missingCheckpoint (name : String)
  | noConsistentLine (name : String)
  | unreadable (cause : Fault)
  | wrongField (cause : FieldFault)
  | file (cause : FileFault)
  | unreadableFile (path : String) (cause : Fault)
  | settings (cause : SettingsFault)
  | closed (name : String)
  deriving DecidableEq, Repr

namespace Error

def kind : Error → ErrorKind
  | keyTaken _ => .duplicateRegistration
  | fieldMismatch .. => .fieldMismatch
  | unnamedOwner _ | unsetTime _ | noSelfDependency .. | repeatedCheckpoint _ | notCapturable _
  | takenBy .. | foreignToken _ => .precondition
  | fieldMissing _ | objectsMissing .. | snapshotGone _ | objectRefused ..
  | ownedBy .. => .restoration
  | notFound _ => .notFound
  | alreadyStored _ => .alreadyExists
  | missingCheckpoint _ => .missingCheckpoint
  | noConsistentLine _ => .noConsistentLine
  | unreadable _ | wrongField _ => .serialization
  | file _ => .io
  | unreadableFile .. => .storage
  | settings _ => .config
  | closed _ => .actorClosed

/-- Whether the caller made a mistake. -/
def isPrecondition (e : Error) : Bool :=
  e.kind = .duplicateRegistration || e.kind = .fieldMismatch || e.kind = .precondition

/-- What a message says in front of the cause. -/
def opening : ErrorKind → String
  | .duplicateRegistration => "Object already registered under key: "
  | .fieldMismatch => "Field mismatch for "
  | .precondition => "Precondition violated: "
  | .restoration => "Checkpoint restoration failed: "
  | .notFound => "Checkpoint not found: "
  | .alreadyExists => "Checkpoint already stored: "
  | .missingCheckpoint => "No checkpoint available for instance: "
  | .noConsistentLine => "No consistent recovery line: "
  | .serialization => "Serialization error: "
  | .io => "I/O error: "
  | .storage => "Storage error: "
  | .config => "Configuration error: "
  | .actorClosed => "Checkpoint actor for instance "

def message (e : Error) : String := opening e.kind ++ match e with
  | keyTaken key => key
  | fieldMismatch object declared captured =>
    object ++ ": expected " ++ Text.quotedList declared ++ ", got " ++ Text.quotedList captured
  | unnamedOwner id => "checkpoint " ++ id.toString ++ " has an empty instance name"
  | unsetTime id => "checkpoint " ++ id.toString ++ " has a default creation timestamp"
  | noSelfDependency id owner =>
    "checkpoint " ++ id.toString ++ " lacks a self-dependency for " ++ owner
  | repeatedCheckpoint id => "checkpoint " ++ id.toString ++ " appears more than once"
  | notCapturable cause => "checkpointable field is not serializable: " ++ cause.message
  | takenBy id owner self =>
    "checkpoint " ++ id.toString ++ " was taken by " ++ owner ++ ", not " ++ self
  | foreignToken name => "gate token does not pause instance " ++ name
  | fieldMissing name => "snapshot has no value for field '" ++ name ++ "'"
  | objectsMissing id keys =>
    "checkpoint " ++ id.toString ++ " is missing registered objects: " ++ ", ".intercalate keys
  | snapshotGone key => "snapshot vanished for key " ++ key
  | objectRefused key cause => "object " ++ key ++ " could not be restored: " ++ cause.message
  | ownedBy id owner self =>
    "checkpoint " ++ id.toString ++ " belongs to " ++ owner ++ ", not " ++ self
  | notFound id => id.toString
  | alreadyStored id => id.toString
  | missingCheckpoint name => name
  | noConsistentLine name => "instance " ++ name ++ " ran out of checkpoints"
  | unreadable cause => cause.message
  | wrongField cause => cause.message
  | file cause => cause.message
  | unreadableFile path cause =>
    "unreadable checkpoint file " ++ path ++ ": " ++ opening .serialization ++ cause.message
  | settings cause => cause.message
  | closed name => name ++ " is no longer running"

end Error

abbrev Outcome (α : Type) := Except Error α

end Rollback
