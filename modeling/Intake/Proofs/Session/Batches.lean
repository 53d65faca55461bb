import Intake.Proofs.Session.Load
import Intake.Proofs.Session.Trace

/-!
Batches are full unless time or the end of the session forced them. A task that
brings a record takes the buffer only when the record fills it, so that a batch which
is not full was taken by a timed flush or by the last one (`taken_sizes`). The timer
starts a timed flush no sooner than the longest wait after the last flush, and this
counts as one (`fired_le`); and the last flush comes once (`finals_le`).
-/
namespace Intake

/-- A batch as it is taken from the buffer: by which task, and when. -/
structure Taking where
  task : Task
  batch : List Record
  time : Nat

def Event.taken? : Event → Option (List Record)
  | .taken batch => some batch
  | _ => none

def Task.isTimed : Task → Bool
  | .timed => true
  | _ => false

namespace Session

/-- The batch that a move from `s` to `t` takes, with the task that takes it. -/
def takings (s : Session) (m : Move) (t : Session) : List Taking :=
  match s.queue with
  | task :: _ => ((s.events m t).filterMap Event.taken?).map (⟨task,·,s.now⟩)
  | [] => []

def taken (s : Session) (moves : List Move) : List Taking := s.gather takings moves

/-- The time at which the timer starts a flush. -/
def firings (s : Session) : Move → List Nat
  | .ring => if s.isDue then [s.now] else []
  | _ => []

def fired (s : Session) (moves : List Move) : List Nat := s.gather (fun s m _ => s.firings m) moves

/-- The tasks that a move brings forth. -/
def joins (s : Session) : Move → List Task
  | .receive => s.slot?.toList.map .store
  | .ring => if s.isDue then [.timed] else []
  | .shutDown => match s.scheduler with
    | .draining => s.slot?.toList.map .drain
    | .emptying => [.final]
    | _ => []
  | _ => []

/-- How many tasks of some kind have not had the lock. -/
def pending (s : Session) (p : Task → Bool) : Nat := (s.spawned ++ s.queue).countP p

variable {s t : Session} {m : Move}

/-! ### Takings -/

theorem taken?_of_quiet (quiet : Quiet s m t) : (s.events m t).filterMap Event.taken? = [] := by
  rw [quiet.nothing]
  rfl

/-- A move takes nothing, or the first task in the queue takes what is in the buffer with the record that it brings. -/
theorem takings_cases (step : Step s m t) :
    ((s.events m t).filterMap Event.taken? = [] ∧ s.takings m t = []) ∨
      ∃ task rest, m = .acquire ∧ s.queue = task :: rest ∧
        (s.events m t).filterMap Event.taken? = [s.buffer ++ task.records] ∧
        s.takings m t = [⟨task,s.buffer ++ task.records,s.now⟩] ∧ s.buffer ++ task.records ≠ [] ∧
        (task.records = [] ∨ s.settings.bufferSize ≤ (s.buffer ++ task.records).length) := by
  have nothing (none : (s.events m t).filterMap Event.taken? = []) : s.takings m t = [] := by
    rw [takings]
    split
    · rw [none]
      rfl
    · rfl
  rcases locked_or_quiet step with locked | quiet
  · generalize seen : s.events m t = events at locked nothing
    cases locked with
    | @refuse task rest batch f free next whole filled due plan =>
      right
      subst whole
      exact ⟨task,rest,rfl,next,rfl,by simp [takings,next,seen,Event.taken?],filled,due⟩
    | @begin task rest batch call left free next whole filled due plan =>
      right
      subst whole
      exact ⟨task,rest,rfl,next,rfl,by simp [takings,next,seen,Event.taken?],filled,due⟩
    | keep | idle | fail | commit | next => exact .inl ⟨rfl,nothing rfl⟩
  · exact .inl ⟨taken?_of_quiet quiet,nothing (taken?_of_quiet quiet)⟩

theorem batch_takings (step : Step s m t) :
    (s.takings m t).map (·.batch) = (s.events m t).filterMap Event.taken? := by
  rcases takings_cases step with ⟨unseen,none⟩ | ⟨task,rest,-,-,seen,some_,-,-⟩
  · rw [unseen,none]
    rfl
  · rw [seen,some_]
    rfl

/-! ### The buffer -/

/-- The buffer is emptied as a whole, or a record is put behind the others and does not fill it. -/
theorem buffer_step (step : Step s m t) :
    t.buffer = s.buffer ∨ t.buffer = [] ∨
      ∃ r, t.buffer = s.buffer ++ [r] ∧ t.buffer.length < s.settings.bufferSize := by
  cases step with
  | @acquire task rest _ free next does =>
    cases does with
    | keep brings short =>
      right; right
      cases task with
      | store r | drain r => exact ⟨r,by simp [Task.records],by simpa using short⟩
      | timed | final => exact absurd rfl brings
    | idle | refuse => right; left; simp [fail]
    | begin => exact .inr (.inl rfl)
  | answer writes => exact .inl (resume_buffer _ _ _)
  | _ => exact .inl rfl

theorem short_step (size : 1 ≤ s.settings.bufferSize) (short : s.buffer.length < s.settings.bufferSize)
    (step : Step s m t) : t.buffer.length < t.settings.bufferSize := by
  rw [(time_step step).1]
  rcases buffer_step step with same | empty | ⟨r,-,still⟩
  · rw [same]
    exact short
  · rw [empty]
    exact size
  · exact still

/-! ### Tasks that have not had the lock -/

/-- A task that takes a batch has waited for the lock, and no task waits for it that has not come to. -/
theorem pending_step (p : Task → Bool) (step : Step s m t) :
    (s.takings m t).countP (p ·.task) + t.pending p ≤ s.pending p + (s.joins m).countP p := by
  have nothing (other : m ≠ .acquire) : s.takings m t = [] := by
    rcases takings_cases step with ⟨-,none⟩ | ⟨task,rest,acquires,-⟩
    · exact none
    · exact absurd acquires other
  cases step with
  | enter opens => rcases Move.of_caller? opens with ⟨_,rfl,-⟩ | ⟨rfl,-⟩ | ⟨rfl,-⟩ <;> simp [nothing,pending,joins]
  | @acquire task rest u free next does =>
    have around := performs_around does
    have count : (s.takings .acquire t).countP (p ·.task) ≤ [task].countP p := by
      rcases takings_cases (.acquire free next does) with ⟨-,none⟩ | ⟨first,others,-,queue,-,some_,-,-⟩
      · simp [none]
      · obtain ⟨rfl,-⟩ := List.cons.inj (next.symm.trans queue)
        simp [some_,List.countP_cons]
    simp only [pending,joins,around.spawned,around.queue,next,List.countP_append,List.countP_cons,List.countP_nil]
      at count ⊢
    omega
  | @answer f result writes =>
    have around := resume_around s f result
    simp [nothing,pending,joins,around.spawned,around.queue]
  | @start i task at_i =>
    obtain ⟨before,after,whole,erased,-⟩ := split_at at_i
    simp only [nothing,pending,joins,ne_eq,reduceCtorEq,not_false_eq_true,List.countP_nil]
    rw [erased,whole]
    simp only [List.countP_append,List.countP_cons,List.countP_nil]
    omega
  | receive waits full =>
    simp [nothing,pending,joins,full,List.countP_cons]
    omega
  | ring waits late due =>
    simp [nothing,pending,joins,due,List.countP_cons]
    omega
  | ringEarly waits late early => simp [nothing,pending,joins,early]
  | drain draining full =>
    simp [nothing,pending,joins,draining,full]
    omega
  | drained draining room =>
    rw [nothing (by simp)]
    simp [pending,joins,draining,room]
  | last emptying =>
    simp [nothing,pending,joins,emptying]
    omega
  | close phase | shut phase => simp [nothing,pending,joins,phase]
  | _ => simp [nothing,pending,joins]

theorem timed_of_joins (s : Session) (m : Move) : (s.joins m).countP Task.isTimed = (s.firings m).length := by
  cases m with
  | receive => cases full : s.slot? <;> simp [joins,firings,full,Task.isTimed]
  | ring => cases due : s.isDue <;> simp [joins,firings,due,Task.isTimed]
  | shutDown =>
    simp only [joins,firings]
    split
    · cases full : s.slot? <;> simp [Task.isTimed]
    · simp [Task.isTimed]
    · rfl
  | _ => rfl

/-- The scheduler starts its last flush once. -/
theorem final_of_joins (ord : Orderly s) (step : Step s m t) :
    (s.joins m).countP Task.isFinal + s.scheduler.isLast.toNat ≤ t.scheduler.isLast.toNat := by
  have lock {task : Task} (lock : Ends s task t ∨ Lasts s t) :
      s.scheduler.isLast.toNat ≤ t.scheduler.isLast.toNat := by
    rcases ord.of_lock lock with ⟨same,-⟩ | ⟨storing,draining,-⟩ | ⟨flushing,stopped,-⟩
    · exact Nat.le_of_eq (by rw [same])
    · rw [storing,draining]
      exact Nat.le_refl _
    · rw [flushing,stopped]
      exact Nat.le_refl _
  cases step with
  | enter opens => rcases Move.of_caller? opens with ⟨_,rfl,-⟩ | ⟨rfl,-⟩ | ⟨rfl,-⟩ <;> simp [joins]
  | acquire free next does => simpa [joins] using lock (performs_ends_or_lasts free next does)
  | answer writes => simpa [joins] using lock (resume_ends_or_lasts writes _)
  | arm phase | heedStop phase | heedOrphan phase | close phase | shut phase =>
    simp only [joins,phase]
    exact Nat.le_refl _
  | receive waits full =>
    simp only [joins,waits,full]
    exact Nat.le_refl _
  | ring waits late due =>
    simp only [joins,waits,due]
    exact Nat.le_refl _
  | ringEarly waits late early =>
    simp only [joins,waits,early]
    exact Nat.le_refl _
  | drain draining full =>
    simp only [joins,draining,full]
    exact Nat.le_refl _
  | drained draining room =>
    simp only [joins,draining,room]
    exact Nat.le_refl _
  | last emptying =>
    simp only [joins,emptying]
    exact Nat.le_refl _
  | _ => simp [joins]

/-! ### Runs -/

section
variable {settings : Settings} {info : ImportInfo} {now : Nat} {stop : Bool} {moves : List Move}

/-- The buffer is never full, but for the moment in which it is taken. -/
theorem short_of_run (run : (start settings info now stop).replay moves = some s) (size : 1 ≤ settings.bufferSize) :
    s.buffer.length < settings.bufferSize := by
  rw [← settings_of_run run]
  refine replay_induction (P := fun _ s => s.buffer.length < s.settings.bufferSize) ?_ ?_ run
  · exact size
  · intro moves s m t reached before move
    exact short_step (by rw [settings_of_run reached]; exact size) before (step_of_apply move)

theorem batch_taken (run : (start settings info now stop).replay moves = some s) :
    ((start settings info now stop).taken moves).map (·.batch) =
      ((start settings info now stop).trace moves).filterMap Event.taken? := by
  refine replay_induction (P := fun moves _ => ((start settings info now stop).taken moves).map (·.batch) =
    ((start settings info now stop).trace moves).filterMap Event.taken?) rfl ?_ run
  intro moves s m t before same move
  rw [taken,gather_snoc _ before move,trace,gather_snoc _ before move,List.map_append,List.filterMap_append,
    batch_takings (step_of_apply move)]
  rw [← taken,← trace,same]

theorem taken_sizes (run : (start settings info now stop).replay moves = some s) (size : 1 ≤ settings.bufferSize) :
    ∀ k ∈ (start settings info now stop).taken moves, 1 ≤ k.batch.length ∧ k.batch.length ≤ settings.bufferSize ∧
      (k.batch.length < settings.bufferSize → k.task = .timed ∨ k.task = .final) := by
  refine replay_induction (P := fun moves _ => ∀ k ∈ (start settings info now stop).taken moves,
    1 ≤ k.batch.length ∧ k.batch.length ≤ settings.bufferSize ∧
      (k.batch.length < settings.bufferSize → k.task = .timed ∨ k.task = .final)) (by simp [taken,gather]) ?_ run
  intro moves s m t before sizes move k member
  rw [taken,gather_snoc _ before move] at member
  rcases List.mem_append.mp member with early | new
  · exact sizes k early
  · rcases takings_cases (step_of_apply move) with ⟨-,none⟩ | ⟨task,rest,-,-,-,some_,filled,due⟩
    · rw [none] at new
      cases new
    · rw [some_,List.mem_singleton] at new
      have short := short_of_run before size
      rw [settings_of_run before] at due
      subst new
      refine ⟨List.length_pos_iff.mpr filled,?_,?_⟩
      · -- A task brings one record at most, and the buffer had room for it.
        cases task <;> simp [Task.records] <;> omega
      · intro small
        have bare : task.records = [] := due.resolve_right (by simpa using small)
        cases task with
        | store | drain => cases bare
        | timed => exact .inl rfl
        | final => exact .inr rfl

/-- Every timed flush that has taken a batch was started by the timer. -/
theorem timed_le (run : (start settings info now stop).replay moves = some s) :
    ((start settings info now stop).taken moves).countP (·.task.isTimed) + s.pending Task.isTimed ≤
      ((start settings info now stop).fired moves).length := by
  refine replay_induction (P := fun moves s =>
    ((start settings info now stop).taken moves).countP (·.task.isTimed) + s.pending Task.isTimed ≤
      ((start settings info now stop).fired moves).length) (Nat.le_refl _) ?_ run
  intro moves s m t before counted move
  have more := pending_step Task.isTimed (step_of_apply move)
  rw [timed_of_joins] at more
  rw [taken,gather_snoc _ before move,fired,gather_snoc _ before move,List.countP_append,List.length_append]
  rw [taken,fired] at counted
  omega

/-- Every time at which the timer starts a flush puts the next one off by the longest wait. -/
theorem fired_le (run : (start settings info now stop).replay moves = some s) :
    now + ((start settings info now stop).fired moves).length * settings.maxWait ≤ s.lastFlush := by
  refine replay_induction (P := fun moves s =>
    now + ((start settings info now stop).fired moves).length * settings.maxWait ≤ s.lastFlush) ?_ ?_ run
  · simp [fired,gather,start]
  intro moves s m t before paced move
  have past := lastFlush_le_of_run before
  have step := step_of_apply move
  rw [fired,gather_snoc _ before move,List.length_append,Nat.add_mul]
  rw [fired] at paced
  by_cases rings : s.firings m = []
  · obtain ⟨-,-,-,flushed⟩ := time_step step
    simp only [rings,List.length_nil,Nat.zero_mul]
    omega
  · have same := settings_of_run before
    cases step with
    | ring waits late due =>
      have wait : settings.maxWait ≤ s.now - s.lastFlush := by simpa [isDue,same] using due
      have one : (s.firings .ring).length = 1 := by simp [firings,due]
      rw [one]
      show _ ≤ s.now
      omega
    | ringEarly waits late early => exact absurd (by simp [firings,early]) rings
    | enter opens => rcases Move.of_caller? opens with ⟨_,rfl,-⟩ | ⟨rfl,-⟩ | ⟨rfl,-⟩ <;> exact absurd rfl rings
    | _ => exact absurd rfl rings

theorem finals_le (run : (start settings info now stop).replay moves = some s) :
    ((start settings info now stop).taken moves).countP (·.task.isFinal) + s.pending Task.isFinal ≤
      s.scheduler.isLast.toNat := by
  refine replay_induction (P := fun moves s =>
    ((start settings info now stop).taken moves).countP (·.task.isFinal) + s.pending Task.isFinal ≤
      s.scheduler.isLast.toNat) (Nat.zero_le _) ?_ run
  intro moves s m t before counted move
  have step := step_of_apply move
  have more := pending_step Task.isFinal step
  have once := final_of_joins (orderly before) step
  rw [taken,gather_snoc _ before move,List.countP_append]
  rw [taken] at counted
  omega

/-- The batches that are taken from the buffer, in any run, have a record at least and no more than make a batch.
    One with fewer than make a batch was taken by a flush that the timer has started or by the last one. The
    timer has started no more flushes than the longest wait fits into the time since the session began, and the
    last one comes once. -/
theorem batches_full (run : (start settings info now stop).replay moves = some s) (size : 1 ≤ settings.bufferSize)
    (wait : 0 < settings.maxWait) :
    let taken := (start settings info now stop).taken moves
    let fired := (start settings info now stop).fired moves
    taken.map (·.batch) = ((start settings info now stop).trace moves).filterMap Event.taken? ∧
      (∀ k ∈ taken, 1 ≤ k.batch.length ∧ k.batch.length ≤ settings.bufferSize ∧
        (k.batch.length < settings.bufferSize → k.task = .timed ∨ k.task = .final)) ∧
      taken.countP (·.task.isTimed) ≤ fired.length ∧ fired.length ≤ (s.now - now) / settings.maxWait ∧
      taken.countP (·.task.isFinal) ≤ 1 := by
  intro taken fired
  refine ⟨batch_taken run,taken_sizes run size,?_,?_,?_⟩
  · have counted : taken.countP (·.task.isTimed) + s.pending Task.isTimed ≤ fired.length := timed_le run
    omega
  · have paced : now + fired.length * settings.maxWait ≤ s.lastFlush := fired_le run
    have past := lastFlush_le_of_run run
    rw [Nat.le_div_iff_mul_le wait]
    omega
  · have counted : taken.countP (·.task.isFinal) + s.pending Task.isFinal ≤ _ := finals_le run
    have once := s.scheduler.isLast.toNat_le
    omega

/-- A session whose batches are of two records. -/
def paired : Session := start ⟨2,nanosPerMilli⟩ ⟨"nightly"⟩ 0 false

/-- Of two records the first waits until its time has come, and the second until the session is closed. -/
def pairedRun : List Move :=
  [.ingest [.bare "dht" 1,.bare "dht" 2],.arm,.call 0,.call 0,.call 0,.call 0,.receive,.start 0,.acquire,.settle,.arm,
    .elapse nanosPerMilli,.ring,.start 0,.acquire,.answer (.ok ()),.answer (.ok ()),.answer (.ok ()),
    .call 0,.call 0,.call 0,.call 0,.arm,.close,.call 1,.call 1,.heedStop,.shutDown,.shutDown,.shutDown,.acquire,
    .settle,.shutDown,.shutDown,.acquire,.answer (.error .importClosed),.call 1]

theorem batches_full_paired :
    ∃ s, paired.replay pairedRun = some s ∧ s.now = nanosPerMilli ∧
      (∀ k ∈ paired.taken pairedRun, k.batch.length < 2 → k.task = .timed ∨ k.task = .final) ∧
      (paired.taken pairedRun).map (fun k => (k.task,k.batch)) =
        [(.timed,[.bare "dht" 1]),(.final,[.bare "dht" 2])] ∧
      (paired.taken pairedRun).countP (·.task.isTimed) ≤ s.now / nanosPerMilli := by
  have ends : (paired.replay pairedRun).map (·.now) = some nanosPerMilli := rfl
  obtain ⟨s,run,time⟩ := Option.map_eq_some_iff.mp ends
  obtain ⟨-,sizes,timed,fired,-⟩ := batches_full run (by decide) (by decide)
  exact ⟨s,run,time,fun k member => (sizes k member).2.2,rfl,Nat.le_trans timed fired⟩

end

end Session

end Intake
