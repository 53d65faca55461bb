import Intake.Command.Arguments
import Intake.Command.Import
import Intake.Database.Address
import Intake.Database.Repository

/-!
The whole program: it reads its arguments and settings, sees whether the database
answers, imports the records of a file or of its standard input, and ends with an
error if one of these fails or a batch was not written.
-/
namespace Intake.Command

open Database (Server)

/-- Why a file cannot be opened. -/
inductive OpenFault where
  | notFound
  | denied
  /-- The path holds a character that no path holds. -/
  | nulInPath
deriving DecidableEq, Repr

def OpenFault.message : OpenFault → String
  | .notFound => "No such file or directory (os error 2)"
  | .denied => "Permission denied (os error 13)"
  | .nulInPath => "file name contained an unexpected NUL byte"

/-- Why the program ends. -/
inductive Fault where
  | setting (fault : SettingFault)
  /-- The database cannot be reached or does not answer. -/
  | database (failure : Failure)
  | cannotOpen (path : String) (fault : OpenFault)
  | cannotRead (fault : ReadFault)
  | failedBatches (errors : FailureLog)

namespace Fault

def message : Fault → String
  | .setting fault => (Failure.setting fault).message
  | .database failure => failure.userMessage
  | .cannotOpen path _ => "Failed to open " ++ path
  | .cannotRead _ => "Failed to read input"
  | .failedBatches errors => s!"{errors.size} batches failed to import ({errors.failedRecords} records)"

/-- What lies behind a fault. -/
def cause? : Fault → Option String
  | .cannotOpen _ fault => some fault.message
  | .cannotRead fault => some fault.message
  | _ => none

/-- The fault and its cause on one line. -/
def joined (f : Fault) : String :=
  match f.cause? with
  | some cause => f.message ++ ": " ++ cause
  | none => f.message

/-- The last thing that the program writes. -/
def report (f : Fault) : String :=
  "Error: " ++ f.message ++
    (match f.cause? with
      | some cause => "\n\nCaused by:\n    " ++ cause
      | none => "")

end Fault

/-- How the program ends. -/
inductive Ending where
  | success
  /-- The arguments are not carried out. -/
  | usage (u : Usage)
  | failure (f : Fault)

/-- The end of a program whose arguments were carried out so. -/
def Ending.ofResult : Except Fault Unit → Ending
  | .ok () => .success
  | .error f => .failure f

def Ending.exitCode : Ending → Nat
  | .success => 0
  | .usage u => u.exitCode
  | .failure _ => 1

/-- What surrounds the program. -/
structure Surroundings where
  environment : Environment
  /-- Whether a database answers at an address. -/
  connect : String → Except DatabaseFault Unit
  /-- What stands at a path. -/
  openFile : String → Except OpenFault Content
  standardInput : List UInt8
  /-- The input goes on after what stands here, and a signal arrives. -/
  signalled : Bool := false

/-- Connects to the database at an address, if it is one. -/
def Surroundings.reach (s : Surroundings) (address : String) : Except Fault Unit :=
  match Database.addressFault? address with
  | some fault => .error (.database (.database (.configuration fault.message)))
  | none => (s.connect address).mapError fun fault => .database (.database fault)

/-- A file, or the standard input where none is named. -/
def Surroundings.input (s : Surroundings) : Option String → Except Fault Input
  | none => .ok { content := .bytes s.standardInput, signalled := s.signalled }
  | some path =>
    if '\x00' ∈ path.toList then .error (.cannotOpen path .nulInPath)
    else match s.openFile path with
      | .error fault => .error (.cannotOpen path fault)
      | .ok content => .ok { content, signalled := s.signalled }

/-- The settings of an import: the command line has the last word. -/
def importSettings (e : Environment) (a : Arguments) : Except SettingFault Settings := do
  let c ← Settings.ofEnvironment e
  let c := match a.bufferSize? with
    | some n => c.setBufferSize n
    | none => c
  return match a.maxWaitMillis? with
    | some ms => c.setMaxWaitMillis ms
    | none => c

variable {σ : Type}

/-- A database as the collaborator of sessions. -/
def collaborator (server : Server σ) : Collaborator σ where
  note _ s := s
  respond := Database.answers server

/-- What has to be settled before the database is asked anything. -/
def prepare (around : Surroundings) (a : Arguments) : Except Fault Settings := do
  let _ ← (maxConnections around.environment).mapError .setting
  around.reach a.databaseUrl
  (importSettings around.environment a).mapError .setting

/-- How an import has gone. -/
def verdict : Except ReadFault Summary → Except Fault Unit
  | .error fault => .error (.cannotRead fault)
  | .ok summary => match summary.errors? with
    | some errors => .error (.failedBatches errors)
    | none => .ok ()

/-- Carries out the arguments. -/
def carryOut (around : Surroundings) (server : Server σ) (a : Arguments) (s : σ) :
    Except Fault Unit × List Entry × σ :=
  match prepare around a with
  | .error fault => (.error fault,[],s)
  | .ok settings => match Database.checkHealth server s with
    | (.error f,s) => (.error (.database f),[],s)
    | (.ok (),s) => match around.input a.file? with
      | .error fault => (.error fault,[],s)
      | .ok input =>
        let (result,log,s) := runImport (collaborator server) settings ⟨a.importId⟩ input s
        let entries := match result with
          | .ok summary => summary.entries
          | .error _ => []
        (verdict result,log ++ entries,s)

/-- Runs the program with arguments, its name not among them. -/
def run (around : Surroundings) (server : Server σ) (args : List String) (s : σ) : Ending × List Entry × σ :=
  match Arguments.read args (around.environment.lookup "DATABASE_URL") with
  | .error u => (.usage u,[],s)
  | .ok a =>
    let (result,log,s) := carryOut around server a s
    (.ofResult result,log,s)

end Intake.Command
