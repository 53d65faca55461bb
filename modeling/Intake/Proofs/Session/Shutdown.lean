import Intake.Proofs.Session.Underway

/-!
What the phases of the scheduler promise (`Orderly`): when the channel is closed and
empty, when no task can bring a record to the buffer any more, and that nothing is
left once the scheduler has stopped. Every move keeps the promises, whatever other
tasks do meanwhile (`orderly`).
-/
namespace Intake

/-- The session is closed. -/
def Phase.isClosed : Phase → Bool
  | .arming => false
  | .waiting _ => false
  | .closing => false
  | _ => true

/-- The channel is closed. -/
def Phase.isSealed : Phase → Bool
  | .sealing => false
  | p => p.isClosed

/-- The channel is closed and empty. -/
def Phase.isEmptied : Phase → Bool
  | .draining => false
  | .storing => false
  | p => p.isSealed

/-- Every record has reached the buffer. -/
def Phase.isLast : Phase → Bool
  | .emptying => false
  | p => p.isEmptied

theorem Phase.open_of_not_isClosed {p : Phase} (isOpen : p.isClosed = false) :
    p.isSealed = false ∧ p.isEmptied = false ∧ p.isLast = false ∧ p ≠ .storing ∧ p ≠ .flushing ∧ p ≠ .stopped := by
  cases p <;> simp [isClosed,isSealed,isEmptied,isLast] at isOpen ⊢

theorem Phase.isSealed_of_isEmptied {p : Phase} (emptied : p.isEmptied = true) : p.isSealed = true := by
  cases p <;> first | exact emptied | rfl

/-- The task puts a record into the buffer for the scheduler. -/
def Task.isDrain : Task → Bool
  | .drain _ => true
  | _ => false

/-- The task makes the last flush. -/
def Task.isFinal : Task → Bool
  | .final => true
  | _ => false

@[simp] theorem Task.isDrain_store (r : Record) : (Task.store r).isDrain = false := rfl
@[simp] theorem Task.isDrain_drain (r : Record) : (Task.drain r).isDrain = true := rfl
@[simp] theorem Task.isDrain_timed : Task.timed.isDrain = false := rfl
@[simp] theorem Task.isDrain_final : Task.final.isDrain = false := rfl
@[simp] theorem Task.isFinal_store (r : Record) : (Task.store r).isFinal = false := rfl
@[simp] theorem Task.isFinal_drain (r : Record) : (Task.drain r).isFinal = false := rfl
@[simp] theorem Task.isFinal_timed : Task.timed.isFinal = false := rfl
@[simp] theorem Task.isFinal_final : Task.final.isFinal = true := rfl

namespace Session

/-- What holds in every state of a session, as far as its shutdown has come. -/
structure Orderly (s : Session) : Prop where
  closed : s.scheduler.isClosed = true → s.closed = true
  isSealed : s.isSealed = s.scheduler.isSealed
  /-- The scheduler waits for a task that it has queued, or there is none. -/
  drains : s.tasks.countP (·.isDrain) = if s.scheduler = .storing then 1 else 0
  finals : s.tasks.countP (·.isFinal) = if s.scheduler = .flushing then 1 else 0
  emptied : s.scheduler.isEmptied = true → s.slot? = none
  quiet : s.scheduler.isLast = true → s.storing = 0
  taken : s.flush? ≠ none → s.buffer = []
  ended : s.scheduler = .stopped → s.flush? = none ∧ s.buffer = []

/-- How a move of the task with the lock moves the scheduler, which may have waited for the task. -/
theorem Orderly.of_lock {s u : Session} {t : Task} (ord : Orderly s) (lock : Ends s t u ∨ Lasts s u) :
    (u.scheduler = s.scheduler ∧ u.tasks.countP (·.isDrain) = s.tasks.countP (·.isDrain) ∧
        u.tasks.countP (·.isFinal) = s.tasks.countP (·.isFinal)) ∨
      (s.scheduler = .storing ∧ u.scheduler = .draining ∧ u.tasks.countP (·.isDrain) = 0 ∧
        u.tasks.countP (·.isFinal) = 0) ∨
      (s.scheduler = .flushing ∧ u.scheduler = .stopped ∧ u.tasks.countP (·.isDrain) = 0 ∧
        u.tasks.countP (·.isFinal) = 0 ∧ u.flush? = none) := by
  have drains := ord.drains
  have finals := ord.finals
  rcases lock with ends | lasts
  · rw [ends.tasks.countP_eq,List.countP_cons] at drains finals
    rw [ends.scheduler,ends.tasks.countP_eq,List.countP_cons,ends.tasks.countP_eq,List.countP_cons]
    cases t with
    | store r => left; simp [Task.after]
    | timed => left; simp [Task.after]
    | drain r =>
      have storing : s.scheduler = .storing := by
        by_contra other
        simp [other] at drains
      right; left
      exact ⟨storing,rfl,by simpa [storing] using drains,by simpa [storing] using finals⟩
    | final =>
      have flushing : s.scheduler = .flushing := by
        by_contra other
        simp [other] at finals
      right; right
      exact ⟨flushing,rfl,by simpa [flushing] using drains,by simpa [flushing] using finals,ends.flush?⟩
  · left
    exact ⟨lasts.scheduler,lasts.tasks.symm.countP_eq _,lasts.tasks.symm.countP_eq _⟩

theorem Orderly.lock {s u : Session} {t : Task} (ord : Orderly s) (lock : Ends s t u ∨ Lasts s u)
    (closed : u.closed = s.closed) (isSealed : u.isSealed = s.isSealed) (slot? : u.slot? = s.slot?)
    (taken : u.flush? ≠ none → u.buffer = []) (ended : u.scheduler = .stopped → u.flush? = none ∧ u.buffer = []) :
    Orderly u := by
  have storing := storing_of_lock lock
  rcases ord.of_lock lock with ⟨same,drains,finals⟩ | ⟨before,after,drains,finals⟩ | ⟨before,after,drains,finals,-⟩
  · refine ⟨?_,?_,?_,?_,?_,?_,taken,ended⟩
    · rw [same,closed]; exact ord.closed
    · rw [same,isSealed]; exact ord.isSealed
    · rw [same,drains]; exact ord.drains
    · rw [same,finals]; exact ord.finals
    · rw [same,slot?]; exact ord.emptied
    · rw [same,storing]; exact ord.quiet
  · refine ⟨?_,?_,?_,?_,?_,?_,taken,ended⟩
    · intro _; rw [closed]; exact ord.closed (by rw [before]; rfl)
    · rw [isSealed,ord.isSealed,before,after]; rfl
    · simp [after,drains]
    · simp [after,finals]
    · simp [after,Phase.isEmptied]
    · simp [after,Phase.isLast,Phase.isEmptied]
  · refine ⟨?_,?_,?_,?_,?_,?_,taken,ended⟩
    · intro _; rw [closed]; exact ord.closed (by rw [before]; rfl)
    · rw [isSealed,ord.isSealed,before,after]; rfl
    · simp [after,drains]
    · simp [after,finals]
    · intro _; rw [slot?]; exact ord.emptied (by rw [before]; rfl)
    · intro _; rw [storing]; exact ord.quiet (by rw [before]; rfl)

theorem records_of_quiet {s : Session} {t : Task} (quiet : s.storing = 0) (member : t ∈ s.tasks) :
    t.records = [] := by
  have none : s.tasks.flatMap Task.records = [] := by
    rw [← List.length_eq_zero_iff]
    simp only [storing] at quiet
    omega
  exact List.flatMap_eq_nil_iff.mp none t member

theorem Orderly.acquire {s u : Session} {t : Task} {rest : List Task} (ord : Orderly s) (free : s.flush? = none)
    (next : s.queue = t :: rest) (does : Performs { s with queue := rest } t u) : Orderly u := by
  have lock := performs_ends_or_lasts free next does
  have around := performs_around does
  refine ord.lock lock around.closed around.isSealed around.slot? ?_ ?_
  · intro writes
    cases does with
    | keep | idle | refuse => simp at writes
    | begin => rfl
  · intro stopped
    have last : s.scheduler.isLast = true ∧ (u.flush? = none ∨ s.buffer = []) := by
      rcases ord.of_lock lock with ⟨same,-⟩ | ⟨-,after,-⟩ | ⟨before,-,-,-,free⟩
      · rw [stopped] at same
        exact ⟨by rw [← same]; rfl,.inr (ord.ended same.symm).2⟩
      · rw [stopped] at after; cases after
      · exact ⟨by rw [before]; rfl,.inl free⟩
    have bare : t.records = [] := records_of_quiet (ord.quiet last.1) (by simp [tasks,next])
    cases does with
    | keep brings => exact absurd bare brings
    | idle => simp
    | refuse => simp [fail]
    | begin due filled =>
      have empty : s.buffer = [] := last.2.resolve_left (by simp)
      simp [bare,empty] at filled

theorem Orderly.answer {s : Session} {f : Flush} (ord : Orderly s) (writes : s.flush? = some f)
    (result : Except Failure Unit) : Orderly (s.resume f result) := by
  have lock := resume_ends_or_lasts writes result
  have around := resume_around s f result
  have empty : s.buffer = [] := ord.taken (by simp [writes])
  refine ord.lock lock around.closed around.isSealed around.slot? ?_ ?_
  · intro _
    simpa using empty
  · intro stopped
    rcases ord.of_lock lock with ⟨same,-⟩ | ⟨-,after,-⟩ | ⟨-,-,-,-,free⟩
    · rw [stopped] at same
      exact absurd (ord.ended same.symm).1 (by simp [writes])
    · rw [stopped] at after; cases after
    · exact ⟨free,by simpa using empty⟩

theorem Orderly.loop {s u : Session} (ord : Orderly s) (before : s.scheduler.isClosed = false)
    (after : u.scheduler.isClosed = false) (isSealed : u.isSealed = s.isSealed)
    (drains : u.tasks.countP (·.isDrain) = s.tasks.countP (·.isDrain))
    (finals : u.tasks.countP (·.isFinal) = s.tasks.countP (·.isFinal)) (flush? : u.flush? = s.flush?)
    (buffer : u.buffer = s.buffer) : Orderly u := by
  obtain ⟨sealed₀,-,-,storing₀,flushing₀,-⟩ := Phase.open_of_not_isClosed before
  obtain ⟨sealed₁,emptied₁,last₁,storing₁,flushing₁,stopped₁⟩ := Phase.open_of_not_isClosed after
  refine ⟨by simp [after],?_,?_,?_,by simp [emptied₁],by simp [last₁],?_,fun stopped => absurd stopped stopped₁⟩
  · rw [isSealed,sealed₁,ord.isSealed,sealed₀]
  · rw [drains,ord.drains,if_neg storing₀,if_neg storing₁]
  · rw [finals,ord.finals,if_neg flushing₀,if_neg flushing₁]
  · rw [flush?,buffer]; exact ord.taken

/-- Every move keeps the promises of the phases, as long as no less is underway than was counted. -/
theorem Orderly.step {s t : Session} {m : Move} (ord : Orderly s) (enough : s.counted ≤ s.underway)
    (step : Step s m t) : Orderly t := by
  have drains := ord.drains
  have finals := ord.finals
  cases step with
  | enter | abandon | turn | count | refuse | halt | cancel | orphan | elapse =>
    exact ⟨ord.closed,ord.isSealed,ord.drains,ord.finals,ord.emptied,ord.quiet,ord.taken,ord.ended⟩
  | mark at_k => exact ⟨fun _ => rfl,ord.isSealed,ord.drains,ord.finals,ord.emptied,ord.quiet,ord.taken,ord.ended⟩
  | send at_k isOpen room =>
    refine ⟨ord.closed,ord.isSealed,ord.drains,ord.finals,?_,ord.quiet,ord.taken,ord.ended⟩
    intro emptied
    have isSealed := ord.isSealed
    rw [isOpen,Phase.isSealed_of_isEmptied emptied] at isSealed
    cases isSealed
  | arm arming => exact ord.loop (by rw [arming]; rfl) rfl rfl rfl rfl rfl rfl
  | heedStop waits told => exact ord.loop (by rw [waits]; rfl) rfl rfl rfl rfl rfl rfl
  | heedOrphan waits alone room => exact ord.loop (by rw [waits]; rfl) rfl rfl rfl rfl rfl rfl
  | ringEarly waits late early => exact ord.loop (by rw [waits]; rfl) rfl rfl rfl rfl rfl rfl
  | receive waits full =>
    exact ord.loop (by rw [waits]; rfl) rfl rfl (by simp [tasks]) (by simp [tasks]) rfl rfl
  | ring waits late due =>
    exact ord.loop (by rw [waits]; rfl) rfl rfl (by simp [tasks]) (by simp [tasks]) rfl rfl
  | close closing =>
    have isOpen : s.scheduler.isSealed = false := by rw [closing]; rfl
    refine ⟨fun _ => rfl,ord.isSealed.trans isOpen,?_,?_,?_,?_,ord.taken,?_⟩
    · exact drains.trans (by rw [closing]; rfl)
    · exact finals.trans (by rw [closing]; rfl)
    all_goals intro later; cases later
  | shut sealing =>
    refine ⟨fun _ => ord.closed (by rw [sealing]; rfl),rfl,?_,?_,?_,?_,ord.taken,?_⟩
    · exact drains.trans (by rw [sealing]; rfl)
    · exact finals.trans (by rw [sealing]; rfl)
    all_goals intro later; cases later
  | @drain r draining full =>
    refine ⟨fun _ => ord.closed (by rw [draining]; rfl),?_,?_,?_,?_,?_,ord.taken,?_⟩
    · rw [ord.isSealed,draining]; rfl
    · refine ((tasks_queue s (.drain r) (by rfl) (by rfl) (by rfl)).countP_eq _).trans ?_
      rw [List.countP_cons,drains,draining]; rfl
    · refine ((tasks_queue s (.drain r) (by rfl) (by rfl) (by rfl)).countP_eq _).trans ?_
      rw [List.countP_cons,finals,draining]; rfl
    all_goals intro later; cases later
  | drained draining room =>
    refine ⟨fun _ => ord.closed (by rw [draining]; rfl),?_,?_,?_,fun _ => room,?_,ord.taken,?_⟩
    · rw [ord.isSealed,draining]; rfl
    · exact drains.trans (by rw [draining]; rfl)
    · exact finals.trans (by rw [draining]; rfl)
    all_goals intro later; cases later
  | last emptying settled =>
    refine ⟨fun _ => ord.closed (by rw [emptying]; rfl),?_,?_,?_,?_,?_,ord.taken,?_⟩
    · rw [ord.isSealed,emptying]; rfl
    · refine ((tasks_queue s .final (by rfl) (by rfl) (by rfl)).countP_eq _).trans ?_
      rw [List.countP_cons,drains,emptying]; rfl
    · refine ((tasks_queue s .final (by rfl) (by rfl) (by rfl)).countP_eq _).trans ?_
      rw [List.countP_cons,finals,emptying]; rfl
    · intro _; exact ord.emptied (by rw [emptying]; rfl)
    · intro _
      -- Nothing is underway, so no task holds a record; the last flush brings none.
      have quiet : s.storing = 0 := by
        simp only [counted] at enough
        omega
      simpa [storing,tasks,Task.records] using quiet
    · intro later; cases later
  | @start i t at_i =>
    have moved := tasks_start at_i
    refine ⟨ord.closed,ord.isSealed,?_,?_,ord.emptied,?_,ord.taken,ord.ended⟩
    · rw [moved.countP_eq]; exact drains
    · rw [moved.countP_eq]; exact finals
    · intro last
      rw [← ord.quiet last]
      simp only [storing,(moved.flatMap_right Task.records).length_eq]
  | acquire free next does => exact ord.acquire free next does
  | answer writes => exact ord.answer writes _
  | settle some_ =>
    refine ⟨ord.closed,ord.isSealed,ord.drains,ord.finals,ord.emptied,?_,ord.taken,ord.ended⟩
    intro last
    have quiet := ord.quiet last
    simp only [storing] at quiet
    omega

section
variable {settings : Settings} {info : ImportInfo} {now : Nat} {stop : Bool} {moves : List Move} {s : Session}

theorem orderly_start : Orderly (start settings info now stop) where
  closed := by simp [start,Phase.isClosed]
  isSealed := rfl
  drains := rfl
  finals := rfl
  emptied _ := rfl
  quiet _ := rfl
  taken _ := rfl
  ended _ := ⟨rfl,rfl⟩

theorem orderly (run : (start settings info now stop).replay moves = some s) : Orderly s := by
  refine replay_induction (P := fun _ s => Orderly s) orderly_start ?_ run
  intro moves s m t before ord move
  have exact_ := underway_eq before
  exact ord.step (by omega) (step_of_apply move)

end

/-! ### After the end -/

/-- Once the scheduler has stopped, no move changes what was written. -/
theorem stopped_step {s t : Session} {m : Move} (ord : Orderly s) (stopped : s.scheduler = .stopped)
    (step : Step s m t) :
    t.scheduler = .stopped ∧ t.errors = s.errors ∧ t.committed = s.committed := by
  obtain ⟨free₀,empty⟩ := ord.ended stopped
  cases step with
  | @acquire task rest _ free next does =>
    have bare : task.records = [] := records_of_quiet (ord.quiet (by rw [stopped]; rfl)) (by simp [tasks,next])
    have stays : task.after .stopped = .stopped := by
      cases task <;> first | rfl | cases bare
    cases does with
    | keep brings => exact absurd bare brings
    | idle => simp [stopped,stays]
    | refuse due filled => simp [bare,empty] at filled
    | begin due filled => simp [bare,empty] at filled
  | answer writes => rw [free₀] at writes; cases writes
  | arm phase | heedStop phase | heedOrphan phase | receive phase | ring phase | ringEarly phase | close phase
  | shut phase | drain phase | drained phase | last phase =>
    rw [stopped] at phase
    cases phase
  | _ => exact ⟨stopped,rfl,rfl⟩

/-- A record that is underway keeps the scheduler from its last flush. -/
theorem isLast_step {s t : Session} {m : Move} (ord : Orderly s) (busy : s.underway ≠ 0)
    (before : s.scheduler.isLast = false) (step : Step s m t) : t.scheduler.isLast = false := by
  have lock {task : Task} {u : Session} (lock : Ends s task u ∨ Lasts s u) : u.scheduler.isLast = false := by
    rcases ord.of_lock lock with ⟨same,-⟩ | ⟨-,after,-⟩ | ⟨flushing,-⟩
    · rw [same]; exact before
    · rw [after]; rfl
    · rw [flushing] at before; cases before
  cases step with
  | last emptying settled => exact absurd settled busy
  | acquire free next does => exact lock (performs_ends_or_lasts free next does)
  | answer writes => exact lock (resume_ends_or_lasts writes _)
  | arm | heedStop | heedOrphan | receive | ring | ringEarly | close | shut | drain | drained => rfl
  | _ => exact before

theorem closed_step {s t : Session} {m : Move} {log : FailureLog} (step : Step s m t)
    (closed : .closed log ∈ t.callers) :
    .closed log ∈ s.callers ∨ (s.scheduler = .stopped ∧ log = s.errors) := by
  cases step with
  | @enter _ c opens attended =>
    rcases List.mem_append.mp closed with before | new
    · exact .inl before
    · obtain rfl : Caller.closed log = c := by simpa using new
      rcases Move.of_caller? opens with ⟨_,_,same⟩ | ⟨_,same⟩ | ⟨_,same⟩ <;> cases same
  | @turn k c c' at_k turn =>
    rcases List.mem_or_eq_of_mem_set closed with before | new
    · exact .inl before
    · cases turn with
      | close ended => cases new; exact .inr ⟨ended,rfl⟩
      | _ => cases new
  | abandon at_k | count at_k | send at_k | refuse at_k | mark at_k | halt at_k =>
    rcases List.mem_or_eq_of_mem_set closed with before | new
    · exact .inl before
    · cases new
  | acquire free next does =>
    rw [(performs_around does).callers] at closed
    exact .inl closed
  | @answer f result writes =>
    rw [(resume_around s f result).callers] at closed
    exact .inl closed
  | _ => exact .inl closed

section
variable {settings : Settings} {info : ImportInfo} {now : Nat} {stop : Bool} {moves : List Move} {s : Session}

/-- Whoever has seen the session end has seen all its failures. -/
theorem log_of_closed {log : FailureLog} (run : (start settings info now stop).replay moves = some s)
    (closed : .closed log ∈ s.callers) : s.scheduler = .stopped ∧ log = s.errors := by
  refine replay_induction (P := fun _ s => .closed log ∈ s.callers → s.scheduler = .stopped ∧ log = s.errors)
    (by intro closed; cases closed) ?_ run closed
  intro moves s m t before seen move closed
  have step := step_of_apply move
  have ended : s.scheduler = .stopped ∧ log = s.errors := (closed_step step closed).elim seen id
  obtain ⟨stopped,errors,-⟩ := stopped_step (orderly before) ended.1 step
  exact ⟨stopped,ended.2.trans errors.symm⟩

/-- Once a caller was given up while it waited to send a record, those who wait until every record has
    reached the buffer wait for ever, and so do those who wait for the end unless the last flush has
    begun before. -/
theorem waits_for_ever_of_lost {t : Session} {later : List Move}
    (run : (start settings info now stop).replay moves = some s)
    (gone : (start settings info now stop).lost moves ≠ []) (on : s.replay later = some t) :
    t.step .draining = none ∧ (s.scheduler.isLast = false → t.step .awaiting = none) := by
  have busy {later : List Move} {u : Session} (on : s.replay later = some u) :
      (start settings info now stop).replay (moves ++ later) = some u ∧ u.underway ≠ 0 := by
    have whole := replay_trans run on
    have exact_ := underway_eq whole
    have some_ := List.length_pos_iff.mpr gone
    rw [lost,gather_append _ run,List.length_append] at exact_
    rw [lost] at some_
    exact ⟨whole,by omega⟩
  constructor
  · simp [step,(busy on).2]
  · intro early
    have still : t.scheduler.isLast = false := by
      refine replay_induction (P := fun _ u => u.scheduler.isLast = false) early ?_ on
      intro later u m v reached before move
      obtain ⟨whole,some_⟩ := busy reached
      exact isLast_step (orderly whole) some_ before (step_of_apply move)
    have on_ : t.scheduler ≠ .stopped := by
      intro stopped
      rw [stopped] at still
      cases still
    simp [step,on_]

-- Such a caller: it waits for room in the channel with its second record and is given up.
example :
    eager.lost [.ingest [.bare "dht" 1,.bare "dht" 2],.call 0,.call 0,.call 0,.call 0,.call 0,.call 0,.abandon 0] =
      [.bare "dht" 2] := rfl

end

end Session

end Intake
