import Intake.Session

/-!
Sessions on a simulated clock. What is possible is done in the order in which it
became possible, and the clock stands still until nothing is; then it moves to the
next time at which something is due. Every change of a session is one of its moves, but
not every move is made: the timer does not ring in vain, since it would never stop.
-/
namespace Intake

/-- Who makes the next move of a session. -/
inductive Job where
  | scheduler
  | start
  | acquire
  | settle
  | caller (k : Nat)
  /-- The call of the flush is answered. -/
  | answer
deriving DecidableEq, Repr

namespace Session

/-- The move of the scheduler when it has a choice. -/
def schedulerMove (s : Session) : Move :=
  match s.scheduler with
  | .arming => .arm
  | .waiting _ =>
    if s.stop then .heedStop
    else if s.slot?.isSome then .receive
    else if s.orphaned then .heedOrphan
    else .ring
  | _ => .shutDown

/-- The timer is about to ring and would leave the last flush where it is, but the next time has come as well. -/
def ringsInVain (s : Session) : Bool :=
  match s.schedulerMove with
  | .ring => (!s.isDue || s.lastFlush == s.now) && decide (s.deadline ≤ s.now)
  | _ => false

/-- The move of a job other than an answer. -/
def jobMove (s : Session) : Job → Move
  | .scheduler => s.schedulerMove
  | .start => .start 0
  | .acquire => .acquire
  | .settle => .settle
  | .caller k => .call k
  | .answer => .acquire

/-- The jobs that are possible without an answer. -/
def jobs (s : Session) : List Job :=
  let can (j : Job) : Bool := (s.apply (s.jobMove j)).isSome
  (if can .scheduler && !s.ringsInVain then [.scheduler] else []) ++
    List.replicate s.spawned.length .start ++
    (if can .acquire then [.acquire] else []) ++
    List.replicate s.settling .settle ++
    s.callers.zipIdx.filterMap fun (c,k) => if (s.step c).isSome then some (.caller k) else none

end Session

/-- What is due at a time. -/
structure Alarm where
  due : Nat
  session : Nat
  job : Job
deriving DecidableEq

/-- How the calls of sessions are taken note of and answered. -/
structure Collaborator (σ : Type) where
  note : Call → σ → σ
  respond : Answers σ

structure World (σ : Type) where
  collaborator : Collaborator σ
  settings : Settings
  /-- The state of the collaborator. -/
  store : σ
  now : Nat := 0
  /-- How long a call takes. -/
  delay : Nat := 0
  /-- All sessions are told to end. -/
  cancelled : Bool := false
  sessions : List Session := []
  /-- What is possible now, in the order in which it is done. -/
  ready : List (Nat × Job) := []
  /-- What is due later, in the order in which it was put off. -/
  alarms : List Alarm := []

namespace World

variable {σ : Type}

/-- The jobs that are still possible, and behind them those that have become so. -/
def refresh (i : Nat) : List (Nat × Job) → List Job → List (Nat × Job)
  | [], possible => possible.map fun j => (i,j)
  | (k,j) :: rest, possible =>
    if k ≠ i ∨ j = .answer then (k,j) :: refresh i rest possible
    else if j ∈ possible then (k,j) :: refresh i rest (possible.erase j)
    else refresh i rest possible

/-- Makes a move of a session, nothing if it is not possible. -/
def move (w : World σ) (i : Nat) (m : Move) : World σ :=
  match w.sessions[i]? >>= (·.apply m) with
  | none => w
  | some s => { w with sessions := w.sessions.set i s, ready := refresh i w.ready s.jobs }

/-- Takes away the scheduler's alarm. -/
def disarm (w : World σ) (i : Nat) : World σ :=
  { w with alarms := w.alarms.filter fun a => ¬ (a.session = i ∧ a.job = .scheduler) }

/-- Puts the scheduler's alarm behind the others. -/
def rearm (w : World σ) (i : Nat) (deadline : Nat) : World σ :=
  let w := w.disarm i
  { w with alarms := w.alarms ++ [⟨deadline,i,.scheduler⟩] }

/-- Notes a call that a flush has begun and sees to its answer. -/
def beginCall (w : World σ) (i : Nat) (call : Call) : World σ :=
  let w := { w with store := w.collaborator.note call w.store }
  if w.delay = 0 then { w with ready := (i,.answer) :: w.ready }
  else { w with alarms := w.alarms ++ [⟨w.now + w.delay,i,.answer⟩] }

/-- Does a job of a session. -/
def perform (w : World σ) (i : Nat) (s : Session) (j : Job) : World σ :=
  let begun (w : World σ) : World σ :=
    match w.sessions[i]? >>= (·.flush?) with
    | some f => w.beginCall i f.call
    | none => w
  match j with
  | .answer => match s.flush? with
    | some f =>
      let (result,store) := w.collaborator.respond f.call w.store
      begun ({ w with store }.move i (.answer result))
    | none => w
  | .acquire => begun (w.move i .acquire)
  | .scheduler =>
    let w := w.move i s.schedulerMove
    match s.scheduler with
    | .arming => w.rearm i s.deadline
    | .waiting _ => w
    | _ => w.disarm i
  | j => w.move i (s.jobMove j)

/-- Whether a job goes on by itself after a move. -/
def goesOn : Job → Bool
  | .scheduler => true
  | .caller _ => true
  | _ => false

/-- Does the first job that is possible. -/
def turn (w : World σ) : World σ :=
  match w.ready with
  | [] => w
  | (i,j) :: rest =>
    let w := { w with ready := if goesOn j then (i,j) :: rest else rest }
    match w.sessions[i]? with
    | some s => w.perform i s j
    | none => { w with ready := rest }

/-- Takes turns until a condition holds or nothing is possible. The first argument bounds their number. -/
def runUntil (until_ : World σ → Bool) : Nat → World σ → World σ
  | 0, w => w
  | n+1, w => if w.ready.isEmpty || until_ w then w else runUntil until_ n w.turn

/-- The most turns that are taken while the clock stands still, enough to hand over half a million records. -/
def patience : Nat := 10000000

/-- Does all that is possible now. -/
def settle (w : World σ) : World σ := runUntil (fun _ => false) patience w

/-- Moves the clock to a time and makes possible what is due by then. -/
def moveClock (w : World σ) (time : Nat) : World σ :=
  let sessions := w.sessions.map fun s => (s.apply (.elapse (time - w.now))).getD s
  let inVain (a : Alarm) : Bool := a.job == .scheduler && sessions[a.session]?.any (·.ringsInVain)
  let due := w.alarms.filter fun a => a.due ≤ time && !inVain a
  { w with
    now := time
    sessions
    alarms := w.alarms.filter (time < ·.due)
    ready := w.ready ++ due.map fun a => (a.session,a.job) }

/-- The next time at which something is due. -/
def nextDue? (w : World σ) : Option Nat := (w.alarms.map (·.due)).min?

/-- Lets time pass until a given time. -/
def advanceTo (time : Nat) : Nat → World σ → World σ
  | 0, w => w
  | n+1, w =>
    match w.nextDue? with
    | some due =>
      if due ≤ time then advanceTo time n (w.moveClock (max due w.now)).settle
      else w.moveClock time
    | none => w.moveClock time

def advance (w : World σ) (nanos : Nat) : World σ := (w.settle.advanceTo (w.now + nanos) patience).settle

/-- Does what is possible, and lets time pass while a condition does not hold. -/
def await (finished : World σ → Bool) : Nat → World σ → World σ
  | 0, w => w
  | n+1, w =>
    let w := w.settle
    if finished w then w
    else match w.nextDue? with
      | some due => await finished n (w.moveClock (max due w.now))
      | none => w

/-! ## Sessions and their users -/

def start (w : World σ) (info : ImportInfo) : World σ :=
  let s := Session.start w.settings info w.now w.cancelled
  let i := w.sessions.length
  { w with sessions := w.sessions ++ [s], ready := w.ready ++ s.jobs.map fun j => (i,j) }.settle

/-- A session that can be called. -/
def session? (w : World σ) (i : Nat) : Option Session :=
  match w.sessions[i]? with
  | some s => if s.orphaned then none else some s
  | none => none

/-- Makes a call of a session, and answers with its place among the callers. -/
def enter (w : World σ) (i : Nat) (m : Move) : Nat × World σ :=
  (((w.sessions[i]?).map (·.callers.length)).getD 0,w.move i m)

def caller? (w : World σ) (i k : Nat) : Option Caller := w.sessions[i]? >>= (·.callers[k]?)

/-- Whether a call has come to its end. -/
def isOver (w : World σ) (i k : Nat) : Bool := ((w.caller? i k).map (!·.isLive)).getD true

/-- Makes calls of a session side by side and waits for all of them. -/
def callAll (w : World σ) (i : Nat) (calls : List Move) : List (Option Caller) × World σ :=
  let (ks,w) := calls.foldl (fun (ks,w) m => let (k,w) := w.enter i m; (ks ++ [k],w)) ([],w)
  let w := (await (fun w => ks.all (w.isOver i)) patience w).settle
  (ks.map (w.caller? i),w)

/-- What a call that hands over records answers. -/
def outcome : Option Caller → Except Failure Unit
  | some (.accepted _) => .ok ()
  | _ => .error .importClosed

/-- The failures that a call that closes the session answers with. -/
def failures : Option Caller → FailureLog
  | some (.closed errors) => errors
  | _ => {}

/-- Several users hand over records side by side. -/
def ingestAll (w : World σ) (i : Nat) (producers : List (List Record)) :
    List (Except Failure Unit) × World σ :=
  let (results,w) := w.callAll i (producers.map .ingest)
  (results.map outcome,w)

def ingest (w : World σ) (i : Nat) (records : List Record) : Except Failure Unit × World σ :=
  let (results,w) := w.callAll i [.ingest records]
  (outcome results.head?.join,w)

def drain (w : World σ) (i : Nat) : World σ := (w.callAll i [.drain]).2

/-- Closes a session through several users at once. -/
def closeAll (w : World σ) (i users : Nat) : List FailureLog × World σ :=
  let (results,w) := w.callAll i (List.replicate users .close)
  (results.map failures,w)

def close (w : World σ) (i : Nat) : FailureLog × World σ :=
  let (results,w) := w.callAll i [.close]
  (failures results.head?.join,w)

/-- Tells all sessions to end, the newest first. -/
def cancel (w : World σ) : World σ :=
  let newestFirst := (List.range w.sessions.length).reverse
  { newestFirst.foldl (fun (w : World σ) i => w.move i .cancel) w with cancelled := true }.settle

/-- The last user of a session goes. -/
def drop (w : World σ) (i : Nat) : World σ := (w.move i .orphan).settle

/-- A user hands over records, and all sessions are told to end as soon as it has to wait. -/
def cancelDuring (w : World σ) (i : Nat) (records : List Record) : Except Failure Unit × World σ :=
  let (k,w) := w.enter i (.ingest records)
  let waits (w : World σ) : Bool := match w.sessions[i]?, w.caller? i k with
    | some s, some c => (s.step c).isNone
    | _, _ => true
  let w := (runUntil waits patience w).cancel
  (outcome (w.caller? i k),w)

end World

end Intake
