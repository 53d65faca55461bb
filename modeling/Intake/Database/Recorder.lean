import Intake.Database.Repository

/-!
A server that stores nothing. It takes note of every statement, numbers the jobs
that it is given, and fails the statements that it is told to fail.
-/
namespace Intake.Database

/-- A failure of statements whose texts have a part in common. -/
structure Rule where
  part : String
  message : String
  /-- Which of the statements that have the part fails, counted from zero; all when none is given. -/
  nth? : Option Nat := none
  /-- How many of them were met. -/
  met : Nat := 0
deriving DecidableEq, Repr

/-- A statement that was sent. -/
structure Entry where
  statement : Statement
  failed : Bool
deriving DecidableEq

structure Recorder where
  rules : List Rule := []
  log : List Entry := []
  jobs : Nat := 0
  /-- Connections are given out. -/
  isOpen : Bool := true

namespace Recorder

/-- The message that a statement fails with, and the rules after it. -/
def strike (text : List Char) : List Rule → Option String × List Rule
  | [] => (none,[])
  | r :: rest =>
    if isPart r.part.toList text then
      let counted := { r with met := r.met + 1 }
      if r.nth?.isNone ∨ r.nth? = some r.met then (some r.message,counted :: rest)
      else
        let (message?,rest) := strike text rest
        (message?,counted :: rest)
    else
      let (message?,rest) := strike text rest
      (message?,r :: rest)

def server : Server Recorder := fun statement r =>
  if !r.isOpen then (.error .poolClosed,r)
  else
    let (message?,rules) := strike statement.text.toList r.rules
    let r := { r with rules, log := r.log ++ [⟨statement,message?.isSome⟩] }
    match message?, statement with
    | some message, _ => (.error (.answered message),r)
    | none, .insertJob _ => (.ok (.job (r.jobs + 1)),{ r with jobs := r.jobs + 1 })
    | none, _ => (.ok .done,r)

/-- The jobs that were taken, in order. -/
def acceptedJobs (r : Recorder) : List Job :=
  r.log.filterMap fun e => match e.statement with
    | .insertJob job => if e.failed then none else some job
    | _ => none

end Recorder

end Intake.Database
