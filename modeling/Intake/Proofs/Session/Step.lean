import Intake.Proofs.Session.Run

/-!
What each move of a session does, one case for each way in which it can go
(`Step`, `step_of_apply`), and likewise what a task does with the lock
(`Performs`) and what a caller does that waits for nobody (`Turn`). Everything
that is proved of all runs is proved by these cases.
-/
namespace Intake

/-- The record that a task brings to the buffer. -/
def Task.records : Task → List Record
  | .store r => [r]
  | .drain r => [r]
  | .timed => []
  | .final => []

/-- Where the scheduler is when a task is done. -/
def Task.after (p : Phase) : Task → Phase
  | .store _ => p
  | .drain _ => .draining
  | .timed => p
  | .final => .stopped

/-- A list around one of its entries. -/
theorem split_at {α : Type} {l : List α} {k : Nat} {a : α} (at_k : l[k]? = some a) :
    ∃ before after, l = before ++ a :: after ∧ l.eraseIdx k = before ++ after ∧
      ∀ b, l.set k b = before ++ b :: after := by
  induction l generalizing k with
  | nil => simp at at_k
  | cons x rest ih =>
    cases k with
    | zero =>
      obtain rfl : x = a := by simpa using at_k
      exact ⟨[],rest,rfl,rfl,fun b => rfl⟩
    | succ k =>
      obtain ⟨before,after,whole,erased,set⟩ := ih (k := k) (by simpa using at_k)
      exact ⟨x :: before,after,by simp [whole],by simp [erased],fun b => by simp [set b]⟩

/-- An entry of a list is put in the place of another. -/
theorem flatMap_set {α β : Type} {l : List α} {k : Nat} {a : α} (at_k : l[k]? = some a) (b : α) (f : α → List β) :
    ((l.set k b).flatMap f ++ f a).Perm (l.flatMap f ++ f b) := by
  obtain ⟨before,after,whole,-,set⟩ := split_at at_k
  rw [set,whole]
  simp only [List.flatMap_append,List.flatMap_cons,List.append_assoc]
  refine List.Perm.append_left _ ?_
  calc (f b ++ (after.flatMap f ++ f a)).Perm (after.flatMap f ++ f a ++ f b) := List.perm_append_comm
    List.Perm _ (f a ++ after.flatMap f ++ f b) := List.perm_append_comm.append_right _
    _ = f a ++ (after.flatMap f ++ f b) := List.append_assoc ..

/-- A plan holds all the calls that write a batch, or none for an empty batch. -/
theorem Writer.calls_of_plan (w : Writer) {batch : List Record} {calls : List Call} (plan : w.plan batch = .ok calls) :
    (batch = [] ∧ calls = []) ∨ calls = w.calls batch := by
  simp only [Writer.plan] at plan
  split at plan
  case isTrue empty =>
    cases plan
    exact .inl ⟨by simpa using empty,rfl⟩
  case isFalse =>
    split at plan
    · cases plan; exact .inr rfl
    · cases plan

theorem Writer.plan_ne_nil (w : Writer) {batch : List Record} (filled : batch ≠ []) : w.plan batch ≠ .ok [] := by
  intro plan
  rcases w.calls_of_plan plan with ⟨empty,-⟩ | none
  · exact filled empty
  · simp [calls] at none

namespace Session

/-! ### The end of a task -/

/-- A task that is done gives the lock back; one that brought a record has yet to count it off. -/
theorem finish_eq (s : Session) (t : Task) :
    s.finish t =
      { s with flush? := none, settling := s.settling + t.records.length, scheduler := t.after s.scheduler } := by
  cases t <;> rfl

@[simp] theorem finish_flush? (s : Session) (t : Task) : (s.finish t).flush? = none := by rw [finish_eq]
@[simp] theorem finish_settling (s : Session) (t : Task) :
    (s.finish t).settling = s.settling + t.records.length := by rw [finish_eq]
@[simp] theorem finish_scheduler (s : Session) (t : Task) : (s.finish t).scheduler = t.after s.scheduler := by
  rw [finish_eq]
@[simp] theorem finish_settings (s : Session) (t : Task) : (s.finish t).settings = s.settings := by rw [finish_eq]
@[simp] theorem finish_writer (s : Session) (t : Task) : (s.finish t).writer = s.writer := by rw [finish_eq]
@[simp] theorem finish_now (s : Session) (t : Task) : (s.finish t).now = s.now := by rw [finish_eq]
@[simp] theorem finish_lastFlush (s : Session) (t : Task) : (s.finish t).lastFlush = s.lastFlush := by
  rw [finish_eq]
@[simp] theorem finish_closed (s : Session) (t : Task) : (s.finish t).closed = s.closed := by rw [finish_eq]
@[simp] theorem finish_stop (s : Session) (t : Task) : (s.finish t).stop = s.stop := by rw [finish_eq]
@[simp] theorem finish_orphaned (s : Session) (t : Task) : (s.finish t).orphaned = s.orphaned := by rw [finish_eq]
@[simp] theorem finish_slot? (s : Session) (t : Task) : (s.finish t).slot? = s.slot? := by rw [finish_eq]
@[simp] theorem finish_isSealed (s : Session) (t : Task) : (s.finish t).isSealed = s.isSealed := by rw [finish_eq]
@[simp] theorem finish_underway (s : Session) (t : Task) : (s.finish t).underway = s.underway := by rw [finish_eq]
@[simp] theorem finish_spawned (s : Session) (t : Task) : (s.finish t).spawned = s.spawned := by rw [finish_eq]
@[simp] theorem finish_queue (s : Session) (t : Task) : (s.finish t).queue = s.queue := by rw [finish_eq]
@[simp] theorem finish_buffer (s : Session) (t : Task) : (s.finish t).buffer = s.buffer := by rw [finish_eq]
@[simp] theorem finish_committed (s : Session) (t : Task) : (s.finish t).committed = s.committed := by
  rw [finish_eq]
@[simp] theorem finish_errors (s : Session) (t : Task) : (s.finish t).errors = s.errors := by rw [finish_eq]
@[simp] theorem finish_callers (s : Session) (t : Task) : (s.finish t).callers = s.callers := by rw [finish_eq]

/-! ### A task with the lock -/

/-- What a task does with the lock. -/
inductive Performs (s : Session) (t : Task) : Session → Prop where
  /-- It leaves its record in a buffer that is not full. -/
  | keep (brings : t.records ≠ []) (short : (s.buffer ++ t.records).length < s.settings.bufferSize) :
      Performs s t ({ s with buffer := s.buffer ++ t.records }.finish t)
  | idle (brings : t.records = []) (empty : s.buffer = []) :
      Performs s t ({ s with lastFlush := s.now, buffer := [] }.finish t)
  /-- It takes a batch that cannot be written. -/
  | refuse {f : Failure} (due : t.records = [] ∨ s.settings.bufferSize ≤ (s.buffer ++ t.records).length)
      (filled : s.buffer ++ t.records ≠ []) (plan : s.writer.plan (s.buffer ++ t.records) = .error f) :
      Performs s t (({ s with lastFlush := s.now, buffer := [] }.fail (s.buffer ++ t.records) f).finish t)
  /-- It takes a batch and makes its first call. -/
  | begin {call : Call} {left : List Call}
      (due : t.records = [] ∨ s.settings.bufferSize ≤ (s.buffer ++ t.records).length)
      (filled : s.buffer ++ t.records ≠ []) (plan : s.writer.plan (s.buffer ++ t.records) = .ok (call :: left)) :
      Performs s t
        { s with lastFlush := s.now, buffer := [], flush? := some ⟨t,s.buffer ++ t.records,call,left⟩ }

/-- A flush of what the buffer holds, with the record that the task brought. -/
theorem performs_flush {s : Session} {t : Task}
    (due : t.records = [] ∨ s.settings.bufferSize ≤ (s.buffer ++ t.records).length)
    (filled : s.buffer ++ t.records ≠ []) : Performs s t ({ s with buffer := s.buffer ++ t.records }.flush t) := by
  simp only [flush,List.isEmpty_iff,filled,if_false]
  cases plan : s.writer.plan (s.buffer ++ t.records) with
  | error f => exact .refuse due filled plan
  | ok calls =>
    cases calls with
    | nil => exact absurd plan (s.writer.plan_ne_nil filled)
    | cons call left => exact .begin due filled plan

theorem performs_push (s : Session) {t : Task} {r : Record} (brings : t.records = [r]) :
    Performs s t (s.push t r) := by
  have filled : s.buffer ++ t.records ≠ [] := by simp [brings]
  simp only [push,← brings]
  split
  case isTrue full => exact performs_flush (.inr full) filled
  case isFalse short => exact .keep (by simp [brings]) (by simpa using short)

theorem performs_timed (s : Session) {t : Task} (brings : t.records = []) : Performs s t (s.flush t) := by
  by_cases empty : s.buffer = []
  · have same : s.flush t = { s with lastFlush := s.now, buffer := [] }.finish t := by
      simp only [flush,empty,List.isEmpty_nil,if_true]
    rw [same]
    exact .idle brings empty
  · have same : { s with buffer := s.buffer ++ t.records } = s := by simp [brings]
    simpa [same] using performs_flush (s := s) (.inl brings) (by simpa [brings] using empty)

theorem performs (s : Session) (t : Task) : Performs s t (s.perform t) := by
  cases t with
  | store r => exact performs_push s rfl
  | drain r => exact performs_push s rfl
  | timed => exact performs_timed s rfl
  | final => exact performs_timed s rfl

/-- What a task with the lock leaves alone. -/
structure SameAround (s u : Session) : Prop where
  settings : u.settings = s.settings
  now : u.now = s.now
  closed : u.closed = s.closed
  stop : u.stop = s.stop
  orphaned : u.orphaned = s.orphaned
  slot? : u.slot? = s.slot?
  isSealed : u.isSealed = s.isSealed
  underway : u.underway = s.underway
  spawned : u.spawned = s.spawned
  queue : u.queue = s.queue
  callers : u.callers = s.callers

theorem performs_around {s u : Session} {t : Task} (does : Performs s t u) : SameAround s u := by
  cases does with
  | keep | idle | refuse => constructor <;> simp [fail]
  | begin => constructor <;> rfl

theorem resume_around (s : Session) (f : Flush) (result : Except Failure Unit) :
    SameAround s (s.resume f result) := by
  cases result with
  | error failure => constructor <;> simp [resume,fail]
  | ok _ =>
    cases left : f.left with
    | nil => constructor <;> simp [resume,left,commit]
    | cons call rest => constructor <;> simp [resume,left]

@[simp] theorem resume_buffer (s : Session) (f : Flush) (result : Except Failure Unit) :
    (s.resume f result).buffer = s.buffer := by
  cases result with
  | error failure => simp [resume,fail]
  | ok _ => cases left : f.left <;> simp [resume,left,commit]

/-! ### A caller -/

/-- A step of a caller that changes nothing but itself. -/
inductive Turn (s : Session) : Caller → Caller → Prop where
  | enter {records : List Record} (taking : s.closed = false) : Turn s (.entering records) (.looking [] records)
  | turnAway {records : List Record} (shut : s.closed = true) : Turn s (.entering records) (.refused [])
  | accept {sent : List Record} : Turn s (.looking sent []) (.accepted sent)
  | look {sent rest : List Record} {r : Record} (taking : s.closed = false) :
      Turn s (.looking sent (r :: rest)) (.counting sent r rest)
  | refuse {sent rest : List Record} {r : Record} (shut : s.closed = true) :
      Turn s (.looking sent (r :: rest)) (.refused sent)
  | drained (settled : s.underway = 0) : Turn s .draining .drained
  | close (ended : s.scheduler = .stopped) : Turn s .awaiting (.closed s.errors)

/-! ### A move -/

/-- What a move does. -/
inductive Step (s : Session) : Move → Session → Prop where
  | enter {m : Move} {c : Caller} (opens : m.caller? = some c) (attended : s.orphaned = false) :
      Step s m { s with callers := s.callers ++ [c] }
  | abandon {k : Nat} {c : Caller} (at_k : s.callers[k]? = some c) (waits : c.isWaiting = true) :
      Step s (.abandon k) { s with callers := s.callers.set k (.abandoned c.sent) }
  | turn {k : Nat} {c c' : Caller} (at_k : s.callers[k]? = some c) (turn : Turn s c c') :
      Step s (.call k) { s with callers := s.callers.set k c' }
  /-- A caller counts the record that it is about to send. -/
  | count {k : Nat} {sent rest : List Record} {r : Record} (at_k : s.callers[k]? = some (.counting sent r rest)) :
      Step s (.call k) { s with underway := s.underway + 1, callers := s.callers.set k (.sending sent r rest) }
  /-- A caller puts its record into the channel. -/
  | send {k : Nat} {sent rest : List Record} {r : Record} (at_k : s.callers[k]? = some (.sending sent r rest))
      (isOpen : s.isSealed = false) (room : s.slot? = none) :
      Step s (.call k) { s with slot? := some r, callers := s.callers.set k (.looking (sent ++ [r]) rest) }
  /-- A caller finds the channel closed. -/
  | refuse {k : Nat} {sent rest : List Record} {r : Record} (at_k : s.callers[k]? = some (.sending sent r rest))
      (isOver : s.isSealed = true) :
      Step s (.call k) { s with underway := s.underway - 1, callers := s.callers.set k (.refused sent) }
  | mark {k : Nat} (at_k : s.callers[k]? = some .closing) :
      Step s (.call k) { s with closed := true, callers := s.callers.set k .stopping }
  | halt {k : Nat} (at_k : s.callers[k]? = some .stopping) :
      Step s (.call k) { s with stop := true, callers := s.callers.set k .awaiting }
  | cancel : Step s .cancel { s with stop := true }
  | orphan (ended : ∀ c ∈ s.callers, c.isLive = false) : Step s .orphan { s with orphaned := true }
  | arm (arming : s.scheduler = .arming) : Step s .arm { s with scheduler := .waiting s.deadline }
  | heedStop {d : Nat} (waits : s.scheduler = .waiting d) (told : s.stop = true) :
      Step s .heedStop { s with scheduler := .closing }
  | heedOrphan {d : Nat} (waits : s.scheduler = .waiting d) (alone : s.orphaned = true) (room : s.slot? = none) :
      Step s .heedOrphan { s with scheduler := .closing }
  | receive {d : Nat} {r : Record} (waits : s.scheduler = .waiting d) (full : s.slot? = some r) :
      Step s .receive { s with slot? := none, spawned := s.spawned ++ [.store r], scheduler := .arming }
  | ring {d : Nat} (waits : s.scheduler = .waiting d) (late : d ≤ s.now) (due : s.isDue = true) :
      Step s .ring { s with lastFlush := s.now, spawned := s.spawned ++ [.timed], scheduler := .arming }
  /-- The time has come, but a flush has begun since it was set. -/
  | ringEarly {d : Nat} (waits : s.scheduler = .waiting d) (late : d ≤ s.now) (early : s.isDue = false) :
      Step s .ring { s with scheduler := .arming }
  | close (closing : s.scheduler = .closing) : Step s .shutDown { s with closed := true, scheduler := .sealing }
  | shut (sealing : s.scheduler = .sealing) : Step s .shutDown { s with isSealed := true, scheduler := .draining }
  | drain {r : Record} (draining : s.scheduler = .draining) (full : s.slot? = some r) :
      Step s .shutDown { s with slot? := none, queue := s.queue ++ [.drain r], scheduler := .storing }
  | drained (draining : s.scheduler = .draining) (room : s.slot? = none) :
      Step s .shutDown { s with scheduler := .emptying }
  | last (emptying : s.scheduler = .emptying) (settled : s.underway = 0) :
      Step s .shutDown { s with queue := s.queue ++ [.final], scheduler := .flushing }
  | start {i : Nat} {t : Task} (at_i : s.spawned[i]? = some t) :
      Step s (.start i) { s with spawned := s.spawned.eraseIdx i, queue := s.queue ++ [t] }
  | acquire {t : Task} {rest : List Task} {u : Session} (free : s.flush? = none) (next : s.queue = t :: rest)
      (does : Performs { s with queue := rest } t u) : Step s .acquire u
  | answer {f : Flush} {result : Except Failure Unit} (writes : s.flush? = some f) :
      Step s (.answer result) (s.resume f result)
  | settle (some_ : s.settling ≠ 0) :
      Step s .settle { s with settling := s.settling - 1, underway := s.underway - 1 }
  | elapse {nanos : Nat} : Step s (.elapse nanos) { s with now := s.now + nanos }

theorem step_of_enter {s t : Session} {m : Move} {c : Caller} (opens : m.caller? = some c)
    (move : s.enter c = some t) : Step s m t := by
  simp only [enter] at move
  split at move
  case isTrue => cases move
  case isFalse attended =>
    cases move
    exact .enter opens (by simpa using attended)

theorem step_of_call {s t : Session} {k : Nat} (move : s.apply (.call k) = some t) : Step s (.call k) t := by
  simp only [apply,Option.bind_eq_bind,Option.bind_eq_some_iff,Option.some.injEq,Prod.exists] at move
  obtain ⟨c,at_k,c',u,goes,rfl⟩ := move
  cases c with
  | entering records =>
    by_cases shut : s.closed = true
    · obtain ⟨rfl,rfl⟩ : Caller.refused [] = c' ∧ s = u := by simpa [step,shut] using goes
      exact .turn at_k (.turnAway shut)
    · obtain ⟨rfl,rfl⟩ : Caller.looking [] records = c' ∧ s = u := by simpa [step,shut] using goes
      exact .turn at_k (.enter (by simpa using shut))
  | looking sent rest =>
    cases rest with
    | nil =>
      obtain ⟨rfl,rfl⟩ : Caller.accepted sent = c' ∧ s = u := by simpa [step] using goes
      exact .turn at_k .accept
    | cons r rest =>
      by_cases shut : s.closed = true
      · obtain ⟨rfl,rfl⟩ : Caller.refused sent = c' ∧ s = u := by simpa [step,shut] using goes
        exact .turn at_k (.refuse shut)
      · obtain ⟨rfl,rfl⟩ : Caller.counting sent r rest = c' ∧ s = u := by simpa [step,shut] using goes
        exact .turn at_k (.look (by simpa using shut))
  | counting sent r rest =>
    obtain ⟨rfl,rfl⟩ : Caller.sending sent r rest = c' ∧ { s with underway := s.underway + 1 } = u := by
      simpa [step] using goes
    exact .count at_k
  | sending sent r rest =>
    by_cases isOver : s.isSealed = true
    · obtain ⟨rfl,rfl⟩ : Caller.refused sent = c' ∧ { s with underway := s.underway - 1 } = u := by
        simpa [step,isOver] using goes
      exact .refuse at_k isOver
    · cases room : s.slot? with
      | some other => simp [step,isOver,room] at goes
      | none =>
        obtain ⟨rfl,rfl⟩ : Caller.looking (sent ++ [r]) rest = c' ∧ { s with slot? := some r } = u := by
          simpa [step,isOver,room] using goes
        exact .send at_k (by simpa using isOver) room
  | draining =>
    by_cases settled : s.underway = 0
    · obtain ⟨rfl,rfl⟩ : Caller.drained = c' ∧ s = u := by simpa [step,settled] using goes
      exact .turn at_k (.drained settled)
    · simp [step,settled] at goes
  | closing =>
    obtain ⟨rfl,rfl⟩ : Caller.stopping = c' ∧ { s with closed := true } = u := by simpa [step] using goes
    exact .mark at_k
  | stopping =>
    obtain ⟨rfl,rfl⟩ : Caller.awaiting = c' ∧ { s with stop := true } = u := by simpa [step] using goes
    exact .halt at_k
  | awaiting =>
    by_cases ended : s.scheduler = .stopped
    · obtain ⟨rfl,rfl⟩ : Caller.closed s.errors = c' ∧ s = u := by simpa [step,ended] using goes
      exact .turn at_k (.close ended)
    · simp [step,ended] at goes
  | accepted sent => simp [step] at goes
  | refused sent => simp [step] at goes
  | abandoned sent => simp [step] at goes
  | drained => simp [step] at goes
  | closed errors => simp [step] at goes

theorem step_of_wake {s t : Session} {m : Move} (move : s.wake m = some t) : Step s m t := by
  cases waits : s.scheduler with
  | waiting d =>
    cases m with
    | heedStop =>
      obtain ⟨told,rfl⟩ : s.stop = true ∧ { s with scheduler := .closing } = t := by
        simpa [wake,waits] using move
      exact .heedStop waits told
    | receive =>
      cases full : s.slot? with
      | none => simp [wake,waits,full] at move
      | some r =>
        obtain rfl : { s with slot? := none, spawned := s.spawned ++ [.store r], scheduler := .arming } = t := by
          simpa [wake,waits,full] using move
        exact .receive waits full
    | heedOrphan =>
      obtain ⟨⟨alone,room⟩,rfl⟩ :
          (s.orphaned = true ∧ s.slot? = none) ∧ { s with scheduler := .closing } = t := by
        simpa [wake,waits] using move
      exact .heedOrphan waits alone room
    | ring =>
      by_cases soon : s.now < d
      · simp [wake,waits,soon] at move
      · have late : d ≤ s.now := Nat.le_of_not_lt soon
        by_cases due : s.isDue = true
        · obtain rfl : { s with lastFlush := s.now, spawned := s.spawned ++ [.timed], scheduler := .arming } = t := by
            simpa [wake,waits,soon,due] using move
          exact .ring waits late due
        · obtain rfl : { s with scheduler := .arming } = t := by simpa [wake,waits,soon,due] using move
          exact .ringEarly waits late (by simpa using due)
    | _ => simp [wake,waits] at move
  | _ => simp [wake,waits] at move

theorem step_of_shutDown {s t : Session} (move : s.shutDown = some t) : Step s .shutDown t := by
  cases phase : s.scheduler with
  | closing =>
    obtain rfl : { s with closed := true, scheduler := .sealing } = t := by simpa [shutDown,phase] using move
    exact .close phase
  | sealing =>
    obtain rfl : { s with isSealed := true, scheduler := .draining } = t := by simpa [shutDown,phase] using move
    exact .shut phase
  | draining =>
    cases full : s.slot? with
    | none =>
      obtain rfl : { s with scheduler := .emptying } = t := by simpa [shutDown,phase,full] using move
      exact .drained phase full
    | some r =>
      obtain rfl : { s with slot? := none, queue := s.queue ++ [.drain r], scheduler := .storing } = t := by
        simpa [shutDown,phase,full] using move
      exact .drain phase full
  | emptying =>
    obtain ⟨settled,rfl⟩ :
        s.underway = 0 ∧ { s with queue := s.queue ++ [.final], scheduler := .flushing } = t := by
      simpa [shutDown,phase] using move
    exact .last phase settled
  | _ => simp [shutDown,phase] at move

/-- Every move goes in one of these ways. -/
theorem step_of_apply {s t : Session} {m : Move} (move : s.apply m = some t) : Step s m t := by
  cases m with
  | ingest records => exact step_of_enter rfl move
  | drain => exact step_of_enter rfl move
  | close => exact step_of_enter rfl move
  | abandon k =>
    simp only [apply,Option.bind_eq_bind,Option.bind_eq_some_iff] at move
    obtain ⟨c,at_k,move⟩ := move
    split at move
    case isTrue waits => cases move; exact .abandon at_k waits
    case isFalse => cases move
  | call k => exact step_of_call move
  | cancel => cases move; exact .cancel
  | orphan =>
    simp only [apply] at move
    split at move
    case isTrue => cases move
    case isFalse ended =>
      cases move
      refine .orphan ?_
      intro c member
      simp only [not_or,List.any_eq_true,not_exists,not_and] at ended
      simpa using ended.2 c member
  | arm =>
    simp only [apply] at move
    split at move
    case isTrue arming => cases move; exact .arm arming
    case isFalse => cases move
  | heedStop => exact step_of_wake move
  | receive => exact step_of_wake move
  | heedOrphan => exact step_of_wake move
  | ring => exact step_of_wake move
  | shutDown => exact step_of_shutDown move
  | start i =>
    simp only [apply,Option.bind_eq_bind,Option.bind_eq_some_iff] at move
    obtain ⟨t,at_i,move⟩ := move
    cases move
    exact .start at_i
  | acquire =>
    simp only [apply] at move
    split at move
    next free next => cases move; exact .acquire free next (performs _ _)
    next => cases move
  | answer result =>
    simp only [apply,Option.bind_eq_bind,Option.bind_eq_some_iff] at move
    obtain ⟨f,writes,move⟩ := move
    cases move
    exact .answer writes
  | settle =>
    simp only [apply] at move
    split at move
    case isTrue => cases move
    case isFalse some_ => cases move; exact .settle some_
  | elapse nanos => cases move; exact .elapse

end Session

end Intake
