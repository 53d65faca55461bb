import Intake.Command.Program
import Intake.Database.Recorder

/-!
The program on a machine. The statements that it would send to the database are
written to its output, and its log to its error output.
-/
namespace Intake.Main

/-- The environment variables that the program looks at. -/
def watched : List String := ["DATABASE_URL","DB_MAX_CONNECTIONS","IMPORT_BUFFER_SIZE","IMPORT_MAX_WAIT_MS"]

def readEnvironment : IO Environment := do
  let values ← watched.mapM fun name => do return (← IO.getEnv name).map fun value => (name,Variable.text value)
  return values.filterMap id

/-- What is left of a stream. -/
partial def readAll (stream : IO.FS.Stream) (before : ByteArray) : IO ByteArray := do
  let bytes ← stream.read 65536
  if bytes.isEmpty then return before else readAll stream (before ++ bytes)

/-- What stands at a path. -/
def readFile (path : String) : IO (Except Command.OpenFault Command.Content) := do
  try return .ok (.bytes (← IO.FS.readBinFile path).data.toList)
  catch
    | .permissionDenied .. => return .error .denied
    | .inappropriateType .. => return .ok .directory
    | _ => return .error .notFound

/-- What the arguments ask to be read. The database answers at every address. -/
def surroundings (environment : Environment) (args : List String) : IO Command.Surroundings := do
  let file? := (Command.Arguments.read args (environment.lookup "DATABASE_URL")).toOption.map (·.file?)
  let file : Except Command.OpenFault Command.Content ← match file? with
    | some (some path) => readFile path
    | _ => pure (.error .notFound)
  let bytes ← match file? with
    | some none => readAll (← IO.getStdin) .empty
    | _ => pure .empty
  return { environment, connect := fun _ => .ok (), openFile := fun _ => file, standardInput := bytes.data.toList }

def entryText (e : Command.Entry) : String :=
  let severity := match e.severity with
    | .info => "INFO"
    | .warning => "WARN"
    | .error => "ERROR"
  severity ++ " " ++ e.message ++ String.join (e.fields.map fun f => s!" {f.1}={f.2}")

end Intake.Main

open Intake in
def main (args : List String) : IO UInt32 := do
  let around ← Main.surroundings (← Main.readEnvironment) args
  let (ending,log,server) := Command.run around Database.Recorder.server args {}
  for entry in log do IO.eprintln (Main.entryText entry)
  for entry in server.log do IO.println entry.statement.text
  match ending with
  | .failure f => IO.eprintln f.report
  | .usage u => if u.exitCode ≠ 0 then IO.eprintln "usage: --database-url URL import --import-id ID"
  | .success => pure ()
  return UInt32.ofNat ending.exitCode
