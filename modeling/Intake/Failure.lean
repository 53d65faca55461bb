import Intake.Json.Fault
import Intake.Record

/-!
Everything that an import can fail with: `Failure.message` says it in full,
`Failure.userMessage` to the one who runs the import, and `Failure.isRetryable`
tells whether the same batch may succeed when it is tried again.
-/
namespace Intake

/-- What the database or the way to it fails with. -/
inductive DatabaseFault where
  | configuration (reason : String)
  | invalidArgument (reason : String)
  /-- An error that the server answers with. -/
  | answered (reason : String)
  | io (reason : String)
  | tls (reason : String)
  | protocol (reason : String)
  | rowNotFound
  | typeNotFound (name : String)
  | columnIndexOutOfBounds (index length : Nat)
  | columnNotFound (name : String)
  | columnDecode (index : Nat) (reason : String)
  | encode (reason : String)
  | decode (reason : String)
  | driver (reason : String)
  /-- All connections stayed in use for too long. -/
  | poolTimedOut
  | poolClosed
  | workerCrashed
deriving DecidableEq, Repr

def DatabaseFault.message : DatabaseFault → String
  | .configuration reason => s!"error with configuration: {reason}"
  | .invalidArgument reason => reason
  | .answered reason => s!"error returned from database: {reason}"
  | .io reason => s!"error communicating with database: {reason}"
  | .tls reason => s!"error occurred while attempting to establish a TLS connection: {reason}"
  | .protocol reason => s!"encountered unexpected or invalid data: {reason}"
  | .rowNotFound => "no rows returned by a query that expected to return at least one row"
  | .typeNotFound name => s!"type named {name} not found"
  | .columnIndexOutOfBounds index length =>
    s!"column index out of bounds: the len is {length}, but the index is {index}"
  | .columnNotFound name => s!"no column found for name: {name}"
  | .columnDecode index reason => s!"error occurred while decoding column {index}: {reason}"
  | .encode reason => s!"error occurred while encoding a value: {reason}"
  | .decode reason => s!"error occurred while decoding: {reason}"
  | .driver reason => s!"error in Any driver mapping: {reason}"
  | .poolTimedOut => "pool timed out while waiting for an open connection"
  | .poolClosed => "attempted to acquire a connection on a closed pool"
  | .workerCrashed => "attempted to communicate with a crashed background worker"

/-- What is sent does not fit what is stored, so that sending it again cannot help. -/
def DatabaseFault.isMismatch : DatabaseFault → Bool
  | .columnDecode _ _ => true
  | .typeNotFound _ => true
  | .decode _ => true
  | _ => false

/-- What is wrong with a setting. -/
inductive SettingFault where
  | badValue (key value : String)
  /-- The value is no text. -/
  | notText (key : String)
  | stated (reason : String)
deriving DecidableEq, Repr

def SettingFault.message : SettingFault → String
  | .badValue key value => s!"{key} has invalid value '{value}'"
  | .notText key => s!"{key} is not valid unicode"
  | .stated reason => reason

inductive Failure where
  | database (fault : DatabaseFault)
  | serialization (fault : Json.Fault)
  | infoHash (fault : InfoHash.Fault)
  | invalidRecord (cause : Invalidity)
  /-- The import takes no more records. -/
  | importClosed
  /-- The queue did not take a batch. -/
  | publish (reason : String)
  | setting (fault : SettingFault)
deriving DecidableEq

def Failure.message : Failure → String
  | .database fault => "Database error: " ++ fault.message
  | .serialization fault => "Serialization error: " ++ fault.message
  | .infoHash fault => "Invalid info hash: " ++ fault.message
  | .invalidRecord cause => "Invalid record: " ++ cause.message
  | .importClosed => "Import closed"
  | .publish reason => "Publish error: " ++ reason
  | .setting fault => "Configuration error: " ++ fault.message

/-- Whether one text is part of another. -/
def isPart (part : List Char) : List Char → Bool
  | [] => part.isEmpty
  | c :: s => part.isPrefixOf (c :: s) || isPart part s

def Failure.userMessage : Failure → String
  | .database fault =>
    if isPart "connection".toList fault.message.toList then
      "Cannot connect to database. Is PostgreSQL running?\n   Check DATABASE_URL."
    else "Database error: " ++ fault.message
  | .infoHash fault => "Invalid info hash: " ++ fault.message ++ "\n   Expected 40 hexadecimal characters."
  | .importClosed => "The import has already been closed; no more records are accepted."
  | .setting fault => "Configuration error: " ++ fault.message ++ "\n   Check your environment variables."
  | f => f.message

/-- Writing is safe to repeat, so what may go away by itself is worth another try. -/
def Failure.isRetryable : Failure → Bool
  | .database fault => !fault.isMismatch
  | .publish _ => true
  | _ => false

end Intake
