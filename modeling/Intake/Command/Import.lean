import Intake.Record.Json
import Intake.Session.Simulation
import Intake.Text.Lines

/-!
Importing lines. Each line is a record in JSON, or blank; a line that is neither
is skipped and logged. The import reads until its input ends, cannot be read, or
is interrupted, and then closes its session, so that every record that it has handed
over is written or among the failures.
-/
namespace Intake.Command

/-- The record of a line, none for a blank one. -/
def parseLine (line : String) : Except Failure (Option Record) :=
  let text := Text.trimmed line
  if text.isEmpty then .ok none
  else match Json.readText Record.ofTree text with
    | .error fault => .error (.serialization fault)
    | .ok r => match r.validate with
      | .error cause => .error (.invalidRecord cause)
      | .ok () => .ok (some r)

inductive Severity where
  | info
  | warning
  | error
deriving DecidableEq, Repr

/-- What is logged. -/
structure Entry where
  severity : Severity
  message : String
  fields : List (String × String) := []
deriving DecidableEq, Repr

/-! ## What is imported -/

/-- Why the next line cannot be read. -/
inductive ReadFault where
  | notText (fault : Text.Utf8.Fault)
  /-- A directory has no lines. -/
  | isDirectory
deriving DecidableEq, Repr

def ReadFault.message : ReadFault → String
  | .notText fault => fault.message
  | .isDirectory => "Is a directory (os error 21)"

/-- What an input is read from. -/
inductive Content where
  | bytes (bytes : List UInt8)
  | directory

structure Input where
  content : Content
  /-- The stream goes on after these bytes, and a signal arrives. -/
  signalled : Bool := false

/-- The lines that are read of an input, the last of them a fault if there is one. -/
def Input.lines (i : Input) : List (Except ReadFault String) :=
  match i.content with
  | .bytes bytes =>
    (if i.signalled then Text.endedLines bytes else Text.lines bytes).map (·.mapError .notText)
  | .directory => [.error .isDirectory]

/-! ## The loop over the lines -/

/-- What the loop does next. -/
inductive Stage where
  | reading
  /-- Hands over a record. -/
  | handing (r : Record)
  | ended
deriving DecidableEq

structure Loop where
  stage : Stage := .reading
  lines : Nat := 0
  skipped : Nat := 0
  accepted : Nat := 0
  interrupted : Bool := false
  /-- Why no more could be read. -/
  fault? : Option ReadFault := none
  log : List Entry := []

namespace Loop

def note (l : Loop) (e : Entry) : Loop := { l with log := l.log ++ [e] }

/-- Takes a line. -/
def read (l : Loop) (line : Except ReadFault String) : Loop :=
  match line with
  | .error fault => { l with fault? := some fault, stage := .ended }
  | .ok line =>
    let l := { l with lines := l.lines + 1 }
    match parseLine line with
    | .ok none => l
    | .ok (some r) => { l with stage := .handing r }
    | .error f =>
      { l with skipped := l.skipped + 1 }.note
        ⟨.warning,"Skipping malformed record",[("line",toString l.lines),("error",f.message)]⟩

/-- Goes on after a record was taken or refused by the session. -/
def handed (l : Loop) : Except Failure Unit → Loop
  | .ok () => { l with accepted := l.accepted + 1, stage := .reading }
  | .error f =>
    { l with interrupted := true, stage := .ended }.note
      ⟨.warning,"Session stopped accepting records",[("error",f.message)]⟩

/-- Ends because of a signal. -/
def interrupt (l : Loop) : Loop :=
  { l with interrupted := true, stage := .ended }.note
    ⟨.info,"Shutdown signal received, flushing buffered records...",[]⟩

end Loop

/-! ## A whole import -/

structure Summary where
  lines : Nat
  skipped : Nat
  accepted : Nat
  committed : Nat
  interrupted : Bool
  errors? : Option FailureLog

def info (message : String) : Entry := ⟨.info,message,[]⟩

def rule (c : Char) : Entry := info (String.ofList (List.replicate 55 c))

/-- The lines that are logged at the end. -/
def Summary.entries (s : Summary) : List Entry :=
  [info "",rule '═',info (if s.interrupted then "IMPORT INTERRUPTED" else "IMPORT COMPLETE"),rule '═',
   info s!"  Lines read:          {s.lines}",
   info s!"  Skipped (malformed): {s.skipped}",
   info s!"  Accepted:            {s.accepted}",
   info s!"  Committed:           {s.committed}"] ++
  (match s.errors? with
    | some errors =>
      [rule '─',info "Failed batches:"] ++ errors.failures.map fun b => ⟨.error,"  - " ++ b.described,[]⟩
    | none => []) ++
  [rule '═']

/-- What an import ends with when its session has been closed. -/
def Loop.conclude (l : Loop) (committed : Nat) (errors : FailureLog) : Except ReadFault Summary :=
  match l.fault? with
  | some fault => .error fault
  | none => .ok {
      lines := l.lines
      skipped := l.skipped
      accepted := l.accepted
      committed
      interrupted := l.interrupted
      errors? := errors.nonempty? }

variable {σ : Type}

/-- Reads lines and hands over their records while there are any. -/
def runLoop (w : World σ) (l : Loop) : List (Except ReadFault String) → World σ × Loop
  | [] => (w,l)
  | line :: rest =>
    let l := l.read line
    match l.stage with
    | .reading => runLoop w l rest
    | .ended => (w,l)
    | .handing r =>
      let (result,w) := w.ingest 0 [r]
      let l := l.handed result
      if l.stage = .ended then (w,l) else runLoop w l rest

/-- Imports an input through a session of its own. Answers with the log, the state of the
    collaborator, and the summary or the reason why the input could not be read to its end. -/
def runImport (collaborator : Collaborator σ) (settings : Settings) (info : ImportInfo) (input : Input) (s : σ) :
    Except ReadFault Summary × List Entry × σ :=
  let w := ({ collaborator, settings, store := s } : World σ).start info
  let (w,l) := runLoop w {} input.lines
  let (w,l) := if input.signalled ∧ l.stage = .reading then (w.cancel,l.interrupt) else (w,l)
  let (errors,w) := w.close 0
  let committed := ((w.sessions.head?).map (·.committed.length)).getD 0
  (l.conclude committed errors,l.log,w.store)

end Intake.Command
