import Intake.Settings
import Intake.Failure.Log
import Intake.Writer

/-!
An import session. Producers hand over records; a scheduler takes each from the
channel and has it put into the buffer, and the buffer is written when it is full,
when `maxWait` has passed since the last flush, and when the session ends. All of
this runs side by side: a `Move` is what can happen between two points at which
something waits, and `Session.apply` says what it does and, by its absence, when
it cannot happen. Whatever order the moves take, buffering and flushing have the
buffer's lock to themselves, and those who wait for it are served in turn.
-/
namespace Intake

/-- Work that needs the lock. -/
inductive Task where
  /-- Puts a record into the buffer. -/
  | store (r : Record)
  /-- The same, done by the scheduler while it shuts down. -/
  | drain (r : Record)
  /-- Flushes because time has passed. -/
  | timed
  /-- Flushes because the session ends. -/
  | final
deriving DecidableEq

/-- A flush that waits for the answer to a call. -/
structure Flush where
  task : Task
  batch : List Record
  call : Call
  /-- The calls after it. -/
  left : List Call
deriving DecidableEq

/-- What the scheduler does next. -/
inductive Phase where
  /-- Looks when the next flush is due. -/
  | arming
  /-- Waits for a record, the end, or the time given. -/
  | waiting (deadline : Nat)
  /-- Has left the loop and closes the session. -/
  | closing
  /-- Closes the channel. -/
  | sealing
  /-- Takes what the channel still holds. -/
  | draining
  /-- Waits until a record that it took is stored. -/
  | storing
  /-- Waits until every record has reached the buffer. -/
  | emptying
  /-- Waits for the last flush. -/
  | flushing
  | stopped
deriving DecidableEq

/-- A call of a session by one of its users. -/
inductive Caller where
  /-- Hands over records and has not begun. -/
  | entering (records : List Record)
  /-- Has handed over some records and is about to see whether the session takes more. -/
  | looking (sent rest : List Record)
  /-- Is about to count a record. -/
  | counting (sent : List Record) (r : Record) (rest : List Record)
  /-- Waits for room in the channel. -/
  | sending (sent : List Record) (r : Record) (rest : List Record)
  /-- Has handed over all records. -/
  | accepted (sent : List Record)
  /-- Was told that the session is closed. -/
  | refused (sent : List Record)
  /-- Was given up by its user. -/
  | abandoned (sent : List Record)
  /-- Waits until every record has reached the buffer. -/
  | draining
  | drained
  /-- Closes the session. -/
  | closing
  /-- Is about to stop the scheduler. -/
  | stopping
  /-- Waits until the session has ended. -/
  | awaiting
  /-- Has seen the session end, with its failures. -/
  | closed (errors : FailureLog)
deriving DecidableEq

/-- The call has not come to its end. -/
def Caller.isLive : Caller → Bool
  | .accepted _ => false
  | .refused _ => false
  | .abandoned _ => false
  | .drained => false
  | .closed _ => false
  | _ => true

/-- The records that a call has handed over. -/
def Caller.sent : Caller → List Record
  | .looking sent _ => sent
  | .counting sent _ _ => sent
  | .sending sent _ _ => sent
  | .accepted sent => sent
  | .refused sent => sent
  | .abandoned sent => sent
  | _ => []

/-- The call waits for others. -/
def Caller.isWaiting : Caller → Bool
  | .sending _ _ _ => true
  | .draining => true
  | .awaiting => true
  | _ => false

structure Session where
  settings : Settings
  writer : Writer
  now : Nat
  lastFlush : Nat
  /-- No more records are taken. -/
  closed : Bool := false
  /-- The scheduler is told to end. -/
  stop : Bool := false
  /-- Nobody can call the session any more. -/
  orphaned : Bool := false
  /-- The record in the channel. -/
  slot? : Option Record := none
  /-- The channel is closed. -/
  isSealed : Bool := false
  /-- Records that were counted when they were handed over and not since. -/
  underway : Nat := 0
  scheduler : Phase := .arming
  /-- Tasks that have not begun. -/
  spawned : List Task := []
  /-- Tasks that wait for the lock, the first of them first. -/
  queue : List Task := []
  /-- The flush that has the lock. -/
  flush? : Option Flush := none
  /-- Tasks that have stored their record and not yet counted it off. -/
  settling : Nat := 0
  buffer : List Record := []
  committed : List InfoHash := []
  errors : FailureLog := {}
  callers : List Caller := []

/-- What can happen. -/
inductive Move where
  /-- A user calls. -/
  | ingest (records : List Record)
  | drain
  | close
  /-- The user of a call that waits gives it up. -/
  | abandon (caller : Nat)
  /-- A call goes on. -/
  | call (caller : Nat)
  /-- The session is told to end from outside. -/
  | cancel
  /-- The last user is gone. -/
  | orphan
  /-- The scheduler looks when the next flush is due. -/
  | arm
  /-- It sees that it is to end. -/
  | heedStop
  /-- It takes a record from the channel. -/
  | receive
  /-- It sees that nobody can hand over more. -/
  | heedOrphan
  /-- Its time has come. -/
  | ring
  /-- It goes on to shut down. -/
  | shutDown
  /-- A task begins. -/
  | start (task : Nat)
  /-- The first task in the queue gets the lock. -/
  | acquire
  /-- A call of the flush is answered. -/
  | answer (result : Except Failure Unit)
  /-- A stored record is counted off. -/
  | settle
  /-- Time passes. -/
  | elapse (nanos : Nat)

namespace Session

/-- A session that starts. -/
def start (settings : Settings) (info : ImportInfo) (now : Nat) (stop : Bool) : Session where
  settings := settings
  writer := { info }
  now := now
  lastFlush := now
  stop := stop

/-! ## Time -/

/-- Times beyond this cannot be told from each other. -/
def timeLimit : Nat := 0x8000000000000000 * 1000000000

/-- How long is waited where the longest wait leads beyond all times. -/
def farAhead : Nat := 30 * 365 * 86400 * 1000000000

def deadline (s : Session) : Nat :=
  if s.lastFlush + s.settings.maxWait < timeLimit then s.lastFlush + s.settings.maxWait
  else s.lastFlush + farAhead

def isDue (s : Session) : Bool := decide (s.settings.maxWait ≤ s.now - s.lastFlush)

/-! ## Under the lock -/

/-- A task is done and gives the lock back. -/
def finish (s : Session) (t : Task) : Session :=
  let s := { s with flush? := none }
  match t with
  | .store _ => { s with settling := s.settling + 1 }
  | .drain _ => { s with settling := s.settling + 1, scheduler := .draining }
  | .timed => s
  | .final => { s with scheduler := .stopped }

/-- A batch is written. -/
def commit (s : Session) (batch : List Record) : Session :=
  { s with committed := s.committed ++ Writer.hashes batch, writer := s.writer.commit batch }

/-- A batch has failed. -/
def fail (s : Session) (batch : List Record) (f : Failure) : Session :=
  { s with errors := s.errors.push ⟨batch,f⟩ }

/-- A task takes the buffer and begins to write it. -/
def flush (s : Session) (t : Task) : Session :=
  let batch := s.buffer
  let s := { s with lastFlush := s.now, buffer := [] }
  if batch.isEmpty then s.finish t
  else match s.writer.plan batch with
    | .error f => (s.fail batch f).finish t
    | .ok [] => (s.commit batch).finish t
    | .ok (call :: left) => { s with flush? := some ⟨t,batch,call,left⟩ }

/-- A task puts its record into the buffer, which is flushed when it is full. -/
def push (s : Session) (t : Task) (r : Record) : Session :=
  let s := { s with buffer := s.buffer ++ [r] }
  if s.settings.bufferSize ≤ s.buffer.length then s.flush t else s.finish t

/-- What a task does when it has the lock. -/
def perform (s : Session) (t : Task) : Session :=
  match t with
  | .store r => s.push t r
  | .drain r => s.push t r
  | .timed => s.flush t
  | .final => s.flush t

/-- A flush goes on after an answer. -/
def resume (s : Session) (f : Flush) : Except Failure Unit → Session
  | .error failure => (s.fail f.batch failure).finish f.task
  | .ok () => match f.left with
    | [] => (s.commit f.batch).finish f.task
    | call :: left => { s with flush? := some { f with call, left } }

/-! ## The callers -/

/-- A caller takes its next step, unless it has to wait. -/
def step (s : Session) : Caller → Option (Caller × Session)
  | .entering records => some (if s.closed then .refused [] else .looking [] records,s)
  | .looking sent [] => some (.accepted sent,s)
  | .looking sent (r :: rest) => some (if s.closed then .refused sent else .counting sent r rest,s)
  | .counting sent r rest => some (.sending sent r rest,{ s with underway := s.underway + 1 })
  | .sending sent r rest =>
    if s.isSealed then some (.refused sent,{ s with underway := s.underway - 1 })
    else match s.slot? with
      | none => some (.looking (sent ++ [r]) rest,{ s with slot? := some r })
      | some _ => none
  | .draining => if s.underway = 0 then some (.drained,s) else none
  | .closing => some (.stopping,{ s with closed := true })
  | .stopping => some (.awaiting,{ s with stop := true })
  | .awaiting => if s.scheduler = .stopped then some (.closed s.errors,s) else none
  | .accepted _ => none
  | .refused _ => none
  | .abandoned _ => none
  | .drained => none
  | .closed _ => none

/-! ## Moves -/

/-- A new call. -/
def enter (s : Session) (c : Caller) : Option Session :=
  if s.orphaned then none else some { s with callers := s.callers ++ [c] }

/-- The next step of a scheduler that has left its loop. -/
def shutDown (s : Session) : Option Session :=
  match s.scheduler with
  | .closing => some { s with closed := true, scheduler := .sealing }
  | .sealing => some { s with isSealed := true, scheduler := .draining }
  | .draining => match s.slot? with
    | some r => some { s with slot? := none, queue := s.queue ++ [.drain r], scheduler := .storing }
    | none => some { s with scheduler := .emptying }
  | .emptying =>
    if s.underway = 0 then some { s with queue := s.queue ++ [.final], scheduler := .flushing } else none
  | _ => none

/-- The next step of a scheduler that waits. -/
def wake (s : Session) (m : Move) : Option Session :=
  match s.scheduler with
  | .waiting deadline => match m with
    | .heedStop => if s.stop then some { s with scheduler := .closing } else none
    | .receive => match s.slot? with
      | some r => some { s with slot? := none, spawned := s.spawned ++ [.store r], scheduler := .arming }
      | none => none
    | .heedOrphan => if s.orphaned ∧ s.slot?.isNone then some { s with scheduler := .closing } else none
    | .ring =>
      if s.now < deadline then none
      else if s.isDue then
        some { s with lastFlush := s.now, spawned := s.spawned ++ [.timed], scheduler := .arming }
      else some { s with scheduler := .arming }
    | _ => none
  | _ => none

/-- The session after a move, if the move is possible. -/
def apply (s : Session) : Move → Option Session
  | .ingest records => s.enter (.entering records)
  | .drain => s.enter .draining
  | .close => s.enter .closing
  | .abandon k => do
    let c ← s.callers[k]?
    if c.isWaiting then some { s with callers := s.callers.set k (.abandoned c.sent) } else none
  | .call k => do
    let c ← s.callers[k]?
    let (c,s) ← s.step c
    some { s with callers := s.callers.set k c }
  | .cancel => some { s with stop := true }
  | .orphan => if s.orphaned ∨ s.callers.any (·.isLive) then none else some { s with orphaned := true }
  | .arm => if s.scheduler = .arming then some { s with scheduler := .waiting s.deadline } else none
  | .heedStop => s.wake .heedStop
  | .receive => s.wake .receive
  | .heedOrphan => s.wake .heedOrphan
  | .ring => s.wake .ring
  | .shutDown => s.shutDown
  | .start i => do
    let t ← s.spawned[i]?
    some { s with spawned := s.spawned.eraseIdx i, queue := s.queue ++ [t] }
  | .acquire => match s.flush?, s.queue with
    | none, t :: rest => some ({ s with queue := rest }.perform t)
    | _, _ => none
  | .answer result => do
    let f ← s.flush?
    some (s.resume f result)
  | .settle =>
    if s.settling = 0 then none
    else some { s with settling := s.settling - 1, underway := s.underway - 1 }
  | .elapse nanos => some { s with now := s.now + nanos }

end Session

end Intake
