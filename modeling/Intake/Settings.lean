import Intake.Decimal.Natural
import Intake.Failure

/-!
Settings of an import: how many records make a batch and how long a record may
wait for one. Times are counted in nanoseconds. Environment variables override
the defaults.
-/
namespace Intake

/-- The greatest time that can be set. -/
def longest : Nat := 0x10000000000000000 * 1000000000 - 1

def nanosPerMilli : Nat := 1000000

structure Settings where
  /-- The number of buffered records that is written at once. Only `setBufferSize` keeps it from being zero. -/
  bufferSize : Nat := 100
  /-- The longest time between two flushes. Only `setMaxWait` keeps it from being zero. -/
  maxWait : Nat := 500 * nanosPerMilli
deriving DecidableEq

namespace Settings

/-- Sets the size of a batch, one at least. -/
def setBufferSize (c : Settings) (n : Nat) : Settings :=
  { c with bufferSize := max n 1 }

/-- Sets the longest wait, one millisecond at least. -/
def setMaxWait (c : Settings) (nanos : Nat) : Settings :=
  { c with maxWait := max nanos nanosPerMilli }

def setMaxWaitMillis (c : Settings) (ms : Nat) : Settings := c.setMaxWait (ms * nanosPerMilli)

end Settings

/-- The value of an environment variable. -/
inductive Variable where
  | text (s : String)
  /-- Bytes that are no text. -/
  | bytes

/-- Environment variables by name. -/
abbrev Environment := List (String × Variable)

/-- A natural number up to a limit, blanks around it, if the variable is set. -/
def Environment.number? (e : Environment) (key : String) (limit : Nat) : Except SettingFault (Option Nat) :=
  match e.lookup key with
  | none => .ok none
  | some .bytes => .error (.notText key)
  | some (.text s) =>
    match Decimal.read? limit (Text.trim s.toList) with
    | some n => .ok (some n)
    | none => .error (.badValue key s)

def Settings.ofEnvironment (e : Environment) : Except SettingFault Settings := do
  let size? ← e.number? "IMPORT_BUFFER_SIZE" 0xffffffffffffffff
  let c : Settings := match size? with
    | some n => ({} : Settings).setBufferSize n
    | none => {}
  let ms? ← e.number? "IMPORT_MAX_WAIT_MS" 0xffffffffffffffff
  return match ms? with
    | some ms => c.setMaxWaitMillis ms
    | none => c

/-- The number of connections to the database that an environment allows, one at least. -/
def maxConnections (e : Environment) : Except SettingFault Nat := do
  let n? ← e.number? "DB_MAX_CONNECTIONS" 0xffffffff
  return match n? with
    | some n => max n 1
    | none => 5

end Intake
