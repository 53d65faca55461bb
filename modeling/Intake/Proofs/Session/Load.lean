import Intake.Proofs.Session.Calls
import Intake.Proofs.Session.Shutdown
import Mathlib.Algebra.GroupWithZero.Nat

/-!
How much a session has left to do (`load`). While the clock stands still, every step of
the scheduler, of a task and of a call makes it less, whatever the store and the queue
answer (`load_of_work`), and only a new call adds to it (`load_of_idle`), so that a run
makes no more steps than the session and the calls opened on the way give it
(`load_run`). One step is excepted: the timer may ring where the next time has come as
well (`spin`). Only a session that does not wait at all, or would wait beyond all times,
lets it (`spin_iff`, `unspun_of_run`).
-/
namespace Intake

/-- The move is a step of the scheduler, a task, a call, the store or the queue, and not made by a user or by
    the clock. -/
def Move.isWork : Move → Bool
  | .ingest _ => false
  | .drain => false
  | .close => false
  | .abandon _ => false
  | .cancel => false
  | .orphan => false
  | .elapse _ => false
  | _ => true

theorem Move.isInner_of_isWork {m : Move} (work : m.isWork = true) : m.isInner = true := by
  cases m <;> first | rfl | cases work

/-- How much a call has left to do. A record takes three steps of the call and 15 more from the channel on. -/
def Caller.load : Caller → Nat
  | .entering records => 2 + 18 * records.length
  | .looking _ rest => 1 + 18 * rest.length
  | .counting _ _ rest => 18 + 18 * rest.length
  | .sending _ _ rest => 17 + 18 * rest.length
  | .draining => 1
  | .closing => 3
  | .stopping => 2
  | .awaiting => 1
  | _ => 0

/-- A task makes three calls at most, and has its record to count off. -/
def Task.load : Task → Nat
  | .store _ => 5
  | .drain _ => 5
  | .timed => 4
  | .final => 4

theorem Task.load_eq (t : Task) : t.load = 4 + t.records.length := by cases t <;> rfl

def Flush.load (f : Flush) : Nat := 1 + f.left.length + f.task.records.length

/-- A wait for a time that has passed is over at once, and may lead to a flush. -/
def lateness (now d : Nat) : Nat := if d ≤ now then 7 else 0

/-- How much a scheduler has left to do that would now set the time `next`. -/
def Phase.load (now next : Nat) : Phase → Nat
  | .arming => 10 + lateness now next
  | .waiting d => 9 + lateness now d
  | .closing => 8
  | .sealing => 7
  | .draining => 6
  | .storing => 6
  | .emptying => 5
  | .flushing => 0
  | .stopped => 0

namespace Session

/-- How much the task with the lock has left to do, and those that have given it back. -/
def tail (s : Session) : Nat := s.flush?.elim 0 Flush.load + s.settling

/-- How much a session has left to do. -/
def load (s : Session) : Nat :=
  s.scheduler.load s.now s.deadline + (s.callers.map Caller.load).sum + 15 * s.slot?.toList.length +
    (s.spawned.map fun t => 1 + t.load).sum + (s.queue.map Task.load).sum + s.tail

/-- What is known of the last flush when the timer has rung. -/
def rung (s : Session) : Session := if s.isDue then { s with lastFlush := s.now } else s

/-- When the timer has rung, the time that is set next has come as well. -/
def spin (s : Session) : Move → Nat
  | .ring => if s.rung.deadline ≤ s.now then 1 else 0
  | _ => 0

theorem spin_cases (s : Session) (m : Move) : s.spin m = 0 ∨ s.spin m = 1 := by
  cases m with
  | ring =>
    by_cases again : s.rung.deadline ≤ s.now
    · exact .inr (if_pos again)
    · exact .inl (if_neg again)
  | _ => exact .inl rfl

theorem spin_of_ne {s : Session} {m : Move} (other : m ≠ .ring) : s.spin m = 0 := by
  cases m with
  | ring => exact absurd rfl other
  | _ => rfl

/-- How often the timer rings where the next time has come as well. -/
def spins (s : Session) (moves : List Move) : Nat := (s.gather (fun s m _ => [s.spin m]) moves).sum

/-- Steps open no call. -/
theorem callers_of_works {s t : Session} {later : List Move} (on : s.replay later = some t)
    (works : ∀ m ∈ later, m.isWork = true) : t.callers.length = s.callers.length := by
  have none : opened later = [] := by
    refine List.filterMap_eq_nil_iff.mpr fun m member => ?_
    have work := works m member
    cases m <;> first | rfl | cases work
  have calls := opened_of_run (I := fun _ => True) (P := fun _ => True) (fun _ _ => trivial) (fun _ _ _ => trivial)
    trivial on
  simpa [none] using calls.2.1

/-! ### Time -/

theorem deadline_gt {s : Session} (waits : 0 < s.settings.maxWait) (fresh : s.lastFlush = s.now) :
    s.now < s.deadline := by
  unfold deadline
  split
  · omega
  · simp only [farAhead]
    omega

/-- Where no flush is due, the time that is set next is still to come, unless the longest wait leads beyond all
    times and what is waited for instead has come. -/
theorem lt_deadline_iff {s : Session} (early : s.isDue = false) :
    s.now < s.deadline ↔ s.lastFlush + s.settings.maxWait < timeLimit ∨ s.now < s.lastFlush + farAhead := by
  have wait : s.now - s.lastFlush < s.settings.maxWait := by simpa [isDue] using early
  by_cases short : s.lastFlush + s.settings.maxWait < timeLimit
  · rw [deadline,if_pos short]
    omega
  · rw [deadline,if_neg short]
    omega

/-- The next time has come as well when there is no wait at all, or when the longest wait leads beyond all times and
    what is waited for instead has come. -/
theorem spin_iff {s : Session} {m : Move} :
    s.spin m = 1 ↔ m = .ring ∧ if s.isDue then s.settings.maxWait = 0 ∧ s.now < timeLimit
      else timeLimit ≤ s.lastFlush + s.settings.maxWait ∧ s.lastFlush + farAhead ≤ s.now := by
  cases m with
  | ring =>
    cases due : s.isDue with
    | true =>
      have next : ({ s with lastFlush := s.now } : Session).deadline ≤ s.now ↔
          s.settings.maxWait = 0 ∧ s.now < timeLimit := by
        simp only [deadline]
        split
        · omega
        · simp only [farAhead]
          omega
      simp [spin,rung,due,next]
    | false =>
      have next : s.deadline ≤ s.now ↔
          timeLimit ≤ s.lastFlush + s.settings.maxWait ∧ s.lastFlush + farAhead ≤ s.now := by
        have ahead := lt_deadline_iff due
        omega
      simp [spin,rung,due,next]
  | _ => simp [spin]

theorem lastFlush_of_performs {s u : Session} {t : Task} (does : Performs s t u) :
    u.lastFlush = s.lastFlush ∨ u.lastFlush = s.now := by
  cases does with
  | keep => left; rw [finish_lastFlush]
  | idle | refuse => right; simp [fail]
  | begin => exact .inr rfl

theorem lastFlush_of_answer (s : Session) (f : Flush) (result : Except Failure Unit) :
    (s.resume f result).lastFlush = s.lastFlush := by
  cases result with
  | error failure => simp [resume,fail]
  | ok _ => cases left : f.left <;> simp [resume,left,commit]

/-- Only the clock moves the time, and the time of a flush is that of the clock. -/
theorem time_step {s t : Session} {m : Move} (step : Step s m t) :
    t.settings = s.settings ∧ s.now ≤ t.now ∧ ((∀ nanos, m ≠ .elapse nanos) → t.now = s.now) ∧
      (t.lastFlush = s.lastFlush ∨ t.lastFlush = s.now) := by
  cases step with
  | @acquire task rest _ free next does =>
    have around := performs_around does
    have flushed := lastFlush_of_performs (s := { s with queue := rest }) does
    exact ⟨around.settings,Nat.le_of_eq around.now.symm,fun _ => around.now,flushed⟩
  | @answer f result writes =>
    have around := resume_around s f result
    exact ⟨around.settings,Nat.le_of_eq around.now.symm,fun _ => around.now,.inl (lastFlush_of_answer s f result)⟩
  | elapse => exact ⟨rfl,Nat.le_add_right _ _,fun held => absurd rfl (held _),.inl rfl⟩
  | ring => exact ⟨rfl,Nat.le_refl _,fun _ => rfl,.inr rfl⟩
  | _ => exact ⟨rfl,Nat.le_refl _,fun _ => rfl,.inl rfl⟩

/-- When the timer rings, the time that the scheduler waits for has come, and it sets the next one. -/
theorem ring_step {s t : Session} (step : Step s .ring t) :
    ∃ d, s.scheduler = .waiting d ∧ d ≤ s.now ∧ t.now = s.now ∧ t.deadline = s.rung.deadline ∧
      t.lastFlush = s.rung.lastFlush ∧ t.scheduler = .arming := by
  cases step with
  | enter opens => rcases Move.of_caller? opens with ⟨_,ring,-⟩ | ⟨ring,-⟩ | ⟨ring,-⟩ <;> cases ring
  | ring waits late due => exact ⟨_,waits,late,rfl,by rw [rung,if_pos due]; rfl,by rw [rung,if_pos due],rfl⟩
  | ringEarly waits late early =>
    have quiet : s.rung = s := by simp [rung,early]
    exact ⟨_,waits,late,rfl,by rw [quiet]; rfl,by rw [quiet],rfl⟩

theorem lateness_le (now d : Nat) : lateness now d ≤ 7 := by
  unfold lateness
  split <;> omega

/-- A flush puts off the time that is set next, unless there is no wait at all and it has come anyway. -/
theorem lateness_of_flush (s : Session) (past : s.lastFlush ≤ s.now) :
    lateness s.now ({ s with lastFlush := s.now } : Session).deadline ≤ lateness s.now s.deadline := by
  by_cases late : s.deadline ≤ s.now
  · rw [lateness,lateness,if_pos late]
    split <;> omega
  · have next : s.now < ({ s with lastFlush := s.now } : Session).deadline := by
      simp only [deadline,farAhead] at late ⊢
      split
      · split at late <;> omega
      · omega
    rw [lateness,if_neg (Nat.not_le.mpr next)]
    exact Nat.zero_le _

theorem lateness_of_ring {s t : Session} (step : Step s .ring t) : lateness t.now t.deadline = 7 * s.spin .ring := by
  obtain ⟨-,-,-,clock,next,-⟩ := ring_step step
  rw [clock,next]
  by_cases again : s.rung.deadline ≤ s.now
  · rw [lateness,spin,if_pos again,if_pos again]
  · rw [lateness,spin,if_neg again,if_neg again]

/-! ### What a step takes off -/

theorem load_of_turn {s : Session} {c c' : Caller} (turn : Turn s c c') : c'.load < c.load := by
  cases turn <;> simp only [Caller.load,List.length_cons,List.length_nil] <;> omega

theorem load_set {s : Session} {k : Nat} {c : Caller} (at_k : s.callers[k]? = some c) (c' : Caller) :
    ((s.callers.set k c').map Caller.load).sum + c.load = (s.callers.map Caller.load).sum + c'.load := by
  obtain ⟨before,after,whole,-,set⟩ := split_at at_k
  rw [set,whole]
  simp only [List.map_append,List.map_cons,List.sum_append,List.sum_cons]
  omega

theorem left_of_plan {w : Writer} {batch : List Record} {call : Call} {left : List Call}
    (plan : w.plan batch = .ok (call :: left)) : left.length ≤ 2 := by
  rcases w.calls_of_plan plan with ⟨-,none⟩ | calls
  · cases none
  · have short : (w.calls batch).length ≤ 3 := by
      simp only [Writer.calls]
      split <;> simp
    rw [← calls,List.length_cons] at short
    omega

theorem tail_of_performs {s u : Session} {t : Task} (does : Performs s t u) (free : s.flush? = none) :
    u.tail < t.load + s.tail := by
  cases does with
  | keep | idle | refuse => simp [tail,free,fail,Task.load_eq]; omega
  | begin due filled plan =>
    have short := left_of_plan plan
    simp only [tail,free,Flush.load,Task.load_eq,Option.elim_some,Option.elim_none]
    omega

theorem tail_of_answer {s : Session} {f : Flush} (writes : s.flush? = some f) (result : Except Failure Unit) :
    (s.resume f result).tail < s.tail := by
  cases result with
  | error failure => simp [resume,tail,writes,fail,Flush.load]; omega
  | ok _ =>
    cases left : f.left with
    | nil => simp [resume,tail,writes,left,commit,Flush.load]; omega
    | cons call rest => simp [resume,tail,writes,left,Flush.load]

/-- With the lock, a task leaves the time of the next flush as it is or puts it off. -/
theorem lateness_of_performs {s u : Session} {t : Task} (past : s.lastFlush ≤ s.now) (does : Performs s t u) :
    lateness u.now u.deadline ≤ lateness s.now s.deadline := by
  have around := performs_around does
  rcases lastFlush_of_performs does with kept | now
  · have same : u.deadline = s.deadline := by simp only [deadline,kept,around.settings]
    exact Nat.le_of_eq (by rw [same,around.now])
  · have same : u.deadline = ({ s with lastFlush := s.now } : Session).deadline := by
      simp only [deadline,now,around.settings]
    rw [same,around.now]
    exact lateness_of_flush s past

theorem deadline_of_answer (s : Session) (f : Flush) (result : Except Failure Unit) :
    (s.resume f result).deadline = s.deadline := by
  simp only [deadline,lastFlush_of_answer,(resume_around s f result).settings]

theorem load_of_lock {s u : Session} {t : Task} (ord : Orderly s) (lock : Ends s t u ∨ Lasts s u)
    (now : u.now = s.now) (later : lateness u.now u.deadline ≤ lateness s.now s.deadline) :
    u.scheduler.load u.now u.deadline ≤ s.scheduler.load s.now s.deadline := by
  rcases ord.of_lock lock with ⟨same,-⟩ | ⟨before,after,-⟩ | ⟨before,after,-⟩
  · rw [same]
    cases s.scheduler with
    | arming => simpa only [Phase.load,Nat.add_le_add_iff_left] using later
    | waiting d => simp only [Phase.load,now,Nat.le_refl]
    | _ => simp only [Phase.load,Nat.le_refl]
  · simp only [before,after,Phase.load,Nat.le_refl]
  · simp only [before,after,Phase.load,Nat.le_refl]

/-- The time that is set next depends on the last flush and the settings alone. -/
theorem deadline_same (s : Session) {writer : Writer} {closed stop orphaned isSealed : Bool} {now : Nat}
    {slot? : Option Record} {underway settling : Nat} {scheduler : Phase} {spawned queue : List Task}
    {flush? : Option Flush} {buffer : List Record} {committed : List InfoHash} {errors : FailureLog}
    {callers : List Caller} :
    ({ s with writer, now, closed, stop, orphaned, slot?, isSealed, underway, scheduler, spawned, queue, flush?,
              settling, buffer, committed, errors, callers } : Session).deadline = s.deadline := rfl

/-- A call goes on; if it puts its record into the channel, what it gives up pays for the rest of the way. -/
theorem load_of_call {s : Session} {k : Nat} {c c' : Caller} (at_k : s.callers[k]? = some c) {closed stop : Bool}
    {slot? : Option Record} {underway : Nat}
    (less : c'.load + 15 * slot?.toList.length < c.load + 15 * s.slot?.toList.length) :
    ({ s with closed, stop, slot?, underway, callers := s.callers.set k c' } : Session).load < s.load := by
  have moved := load_set at_k c'
  simp only [load,deadline_same,tail]
  omega

/-- Every step makes what is left less, but for the ring after which the next time has come as well. -/
theorem load_of_work {s t : Session} {m : Move} (ord : Orderly s) (past : s.lastFlush ≤ s.now) (step : Step s m t)
    (work : m.isWork = true) : t.load < s.load + 7 * s.spin m := by
  cases step with
  | enter opens => rcases Move.of_caller? opens with ⟨_,rfl,-⟩ | ⟨rfl,-⟩ | ⟨rfl,-⟩ <;> cases work
  | abandon | cancel | orphan | elapse => cases work
  | turn at_k turn => exact load_of_call at_k (Nat.add_lt_add_right (load_of_turn turn) _)
  | count at_k => exact load_of_call at_k (by simp only [Caller.load]; omega)
  | send at_k isOpen room => exact load_of_call at_k (by simp [Caller.load,room]; omega)
  | refuse at_k => exact load_of_call at_k (by simp only [Caller.load]; omega)
  | mark at_k => exact load_of_call at_k (by simp only [Caller.load]; omega)
  | halt at_k => exact load_of_call at_k (by simp only [Caller.load]; omega)
  | arm phase | heedStop phase | heedOrphan phase | close phase | shut phase | drained phase =>
    simp only [load,tail,phase,Phase.load]
    omega
  | @receive d r waits full =>
    have soon : lateness s.now s.deadline ≤ 7 := lateness_le _ _
    simp [load,deadline_same,tail,waits,full,Phase.load,Task.load]
    omega
  | @drain r draining full =>
    simp [load,tail,draining,full,Phase.load,Task.load]
    omega
  | last emptying settled =>
    simp [load,tail,emptying,Phase.load,Task.load]
    omega
  | @ring d waits late due =>
    have over_ : lateness s.now d = 7 := if_pos late
    have next := lateness_of_ring (.ring waits late due)
    simp only at next
    simp [load,tail,waits,Phase.load,Task.load,over_,next]
    omega
  | @ringEarly d waits late early =>
    have over_ : lateness s.now d = 7 := if_pos late
    have next := lateness_of_ring (.ringEarly waits late early)
    simp only [deadline_same] at next
    simp only [load,deadline_same,tail,waits,Phase.load,over_,next]
    omega
  | @start i t at_i =>
    obtain ⟨before,after,whole,erased,-⟩ := split_at at_i
    simp only [load,deadline_same,tail]
    rw [erased,whole]
    simp only [List.map_append,List.map_cons,List.map_nil,List.sum_append,List.sum_cons,List.sum_nil]
    omega
  | @acquire task rest u free next does =>
    have around := performs_around does
    have later : lateness t.now t.deadline ≤ lateness s.now s.deadline :=
      lateness_of_performs (s := { s with queue := rest }) past does
    have turns := load_of_lock ord (performs_ends_or_lasts free next does) around.now later
    have less : t.tail < task.load + s.tail := tail_of_performs (s := { s with queue := rest }) does free
    simp only [load,around.callers,around.slot?,around.spawned,around.queue,next,List.map_cons,List.sum_cons]
    omega
  | @answer f result writes =>
    have around := resume_around s f result
    have later : lateness (s.resume f result).now (s.resume f result).deadline ≤ lateness s.now s.deadline :=
      Nat.le_of_eq (by rw [around.now,deadline_of_answer])
    have turns := load_of_lock ord (resume_ends_or_lasts writes result) around.now later
    have less := tail_of_answer writes result
    simp only [load,around.callers,around.slot?,around.spawned,around.queue]
    omega
  | settle some_ =>
    simp only [load,deadline_same,tail]
    omega

/-- Every step leaves less to do, unless it is a ring after which the next time has come as well: the session does
    not wait at all, or its longest wait leads beyond all times and what is waited for instead has come. -/
theorem less_or_rings {s t : Session} {m : Move} (ord : Orderly s) (past : s.lastFlush ≤ s.now) (step : Step s m t)
    (work : m.isWork = true) :
    t.load < s.load ∨ (m = .ring ∧ t.deadline ≤ t.now ∧ (s.settings.maxWait = 0 ∨
      (timeLimit ≤ s.lastFlush + s.settings.maxWait ∧ s.lastFlush + farAhead ≤ s.now))) := by
  have less := load_of_work ord past step work
  rcases s.spin_cases m with unspun | spun
  · rw [unspun] at less
    exact .inl less
  obtain ⟨rfl,why⟩ := spin_iff.mp spun
  obtain ⟨-,-,-,clock,next,-⟩ := ring_step step
  have again : s.rung.deadline ≤ s.now := by
    by_contra later
    simp [spin,later] at spun
  refine .inr ⟨rfl,by rw [next,clock]; exact again,?_⟩
  split at why
  · exact .inl why.1
  · exact .inr why

/-- What is no step adds no more than the call that it opens, while the clock stands still. -/
theorem load_of_idle {s t : Session} {m : Move} (step : Step s m t) (idle : m.isWork = false)
    (held : ∀ nanos, m ≠ .elapse nanos) : t.load ≤ s.load + m.caller?.elim 0 Caller.load := by
  cases step with
  | enter opens attended =>
    simp [load,deadline_same,tail,opens]
    omega
  | @abandon k c at_k waits =>
    have moved := load_set at_k (.abandoned c.sent)
    simp only [load,deadline_same,tail,Caller.load] at moved ⊢
    omega
  | cancel | orphan => simp only [load,deadline_same,tail]; omega
  | elapse => exact absurd rfl (held _)
  | _ => cases idle

/-! ### Runs while the clock stands still -/

/-- What holds at the start, and after a move that does not move the clock whenever it holds before, holds
    after every run that does not move the clock. -/
theorem held_induction {s₀ : Session} {P : List Move → Session → Prop} (start : P [] s₀)
    (step : ∀ {moves s m t}, s₀.replay moves = some s → P moves s → (∀ nanos, m ≠ .elapse nanos) →
      s.apply m = some t → P (moves ++ [m]) t)
    {moves : List Move} {s : Session} (run : s₀.replay moves = some s) (held : ∀ nanos, .elapse nanos ∉ moves) :
    P moves s := by
  refine replay_induction (P := fun moves s => (∀ nanos, .elapse nanos ∉ moves) → P moves s) (fun _ => start) ?_
    run held
  intro moves s m t reached before move held
  refine step reached (before fun nanos member => held nanos (List.mem_append_left _ member)) ?_ move
  rintro nanos rfl
  exact held nanos (by simp)

section
variable {settings : Settings} {info : ImportInfo} {now : Nat} {stop : Bool} {moves later : List Move} {s t : Session}

theorem settings_of_run (run : (start settings info now stop).replay moves = some s) : s.settings = settings := by
  refine replay_induction (P := fun _ s => s.settings = settings) rfl ?_ run
  intro moves s m t _ before move
  exact (time_step (step_of_apply move)).1.trans before

theorem lastFlush_le_of_run (run : (start settings info now stop).replay moves = some s) : s.lastFlush ≤ s.now := by
  refine replay_induction (P := fun _ s => s.lastFlush ≤ s.now) (Nat.le_refl _) ?_ run
  intro moves s m t _ before move
  obtain ⟨-,grows,-,flushed⟩ := time_step (step_of_apply move)
  omega

theorem spins_snoc {u v : Session} {m : Move} (on : s.replay later = some u) (move : u.apply m = some v) :
    s.spins (later ++ [m]) = s.spins later + u.spin m := by
  rw [spins,gather_snoc _ on move,List.sum_append,List.sum_singleton]
  rfl

/-- As long as the session waits at all, and a flush is due before all times or what is waited for instead has not
    come, the timer does not ring where the next time has come as well. -/
theorem unspun_of_run (run : (start settings info now stop).replay moves = some s) (on : s.replay later = some t)
    (held : ∀ nanos, .elapse nanos ∉ later) (waits : 0 < settings.maxWait)
    (soon : s.lastFlush + settings.maxWait < timeLimit ∨ s.now < s.lastFlush + farAhead) : s.spins later = 0 := by
  refine (held_induction (P := fun later t => s.spins later = 0 ∧ t.settings = s.settings ∧ t.now = s.now ∧
    (t.lastFlush = s.lastFlush ∨ t.lastFlush = s.now)) ⟨rfl,rfl,rfl,.inl rfl⟩ ?_ on held).1
  intro later u m v reached before still move
  obtain ⟨unspun,same,clock,flushed⟩ := before
  obtain ⟨sameSettings,-,sameNow,flushes⟩ := time_step (step_of_apply move)
  have quiet : u.spin m = 0 := by
    refine (u.spin_cases m).resolve_right fun spun => ?_
    obtain ⟨-,again⟩ := spin_iff.mp spun
    rw [same,clock,settings_of_run run] at again
    split at again
    · omega
    · -- A flush at this very moment is further from the end of what is waited for.
      simp only [farAhead] at again soon
      omega
  refine ⟨by rw [spins_snoc reached move,unspun,quiet],sameSettings.trans same,(sameNow still).trans clock,?_⟩
  omega

/-- While the clock stands still, a run makes no more steps than the session has left at its start and the
    calls that are opened on the way have, and seven for each ring after which the next time has come as well. -/
theorem load_run (run : (start settings info now stop).replay moves = some s) (on : s.replay later = some t)
    (held : ∀ nanos, .elapse nanos ∉ later) :
    later.countP Move.isWork + t.load ≤ s.load + ((opened later).map Caller.load).sum + 7 * s.spins later := by
  refine held_induction (P := fun later t =>
    later.countP Move.isWork + t.load ≤ s.load + ((opened later).map Caller.load).sum + 7 * s.spins later)
    (Nat.le_of_eq (Nat.zero_add _)) ?_ on held
  intro later u m v reached bound still move
  have step := step_of_apply move
  have opens : ((opened (later ++ [m])).map Caller.load).sum =
      ((opened later).map Caller.load).sum + m.caller?.elim 0 Caller.load := by
    rw [opened_snoc,List.map_append,List.sum_append]
    cases m.caller? <;> simp
  rw [List.countP_append,List.countP_singleton,spins_snoc reached move,opens]
  cases work : m.isWork with
  | true =>
    have so_far := replay_trans run reached
    have less := load_of_work (orderly so_far) (lastFlush_le_of_run so_far) step work
    simp only [if_true]
    omega
  | false =>
    have less := load_of_idle step work still
    simp only [Bool.false_eq_true,if_false]
    omega

end

end Session

end Intake
