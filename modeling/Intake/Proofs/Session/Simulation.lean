import Intake.Session.Simulation
import Intake.Proofs.Session.Ending

/-!
A session on the simulated clock. The queue of a world that has one session holds just
what is possible (`Alone`), so that a turn makes one move of the session (`turn_step`),
and the world comes to rest only where the session does, but for a timer that would ring
in vain (`rests_of_alone`). Since every move leaves the session less to do, all that is
possible has been done after as many turns (`settle_run`), and a call of a user has then
come to its end if it ever does while the clock stands still (`callAll_settled`).
-/
namespace Intake

/-! ### Jobs -/

namespace Session

theorem schedulerMove_cases (s : Session) :
    s.schedulerMove ∈ ([.arm,.heedStop,.receive,.heedOrphan,.ring,.shutDown] : List Move) := by
  rw [schedulerMove]
  cases s.scheduler with
  | waiting d =>
    by_cases told : s.stop = true
    · simp [told]
    · by_cases full : s.slot?.isSome = true
      · simp [told,full]
      · by_cases alone : s.orphaned = true <;> simp [told,full,alone]
  | _ => simp

theorem jobMove_isWork (s : Session) (j : Job) : (s.jobMove j).isWork = true := by
  cases j with
  | scheduler =>
    have move := s.schedulerMove_cases
    rw [jobMove]
    generalize s.schedulerMove = m at move ⊢
    simp only [List.mem_cons,List.not_mem_nil,or_false] at move
    rcases move with rfl | rfl | rfl | rfl | rfl | rfl <;> rfl
  | _ => rfl

/-- Only a task takes the lock, and no job but an answer waits for the collaborator. -/
theorem jobMove_ne (s : Session) {j : Job} (notAcquire : j ≠ .acquire) (notAnswer : j ≠ .answer) :
    s.jobMove j ≠ .acquire ∧ ∀ result, s.jobMove j ≠ .answer result := by
  cases j with
  | scheduler =>
    have move := s.schedulerMove_cases
    rw [jobMove]
    generalize s.schedulerMove = m at move ⊢
    simp only [List.mem_cons,List.not_mem_nil,or_false] at move
    rcases move with rfl | rfl | rfl | rfl | rfl | rfl <;> simp
  | acquire => exact absurd rfl notAcquire
  | answer => exact absurd rfl notAnswer
  | _ => simp [jobMove]

theorem mem_waking {s : Session} {j : Job} :
    j ∈ (s.callers.zipIdx.filterMap fun (c,k) => if (s.step c).isSome then some (.caller k) else none) ↔
      ∃ k, j = .caller k ∧ ∃ t, s.apply (.call k) = some t := by
  simp only [List.mem_filterMap,Prod.exists,List.mem_zipIdx_iff_getElem?]
  constructor
  · rintro ⟨c,k,at_k,wakes⟩
    split at wakes
    case isFalse => cases wakes
    case isTrue can =>
      cases wakes
      obtain ⟨⟨c',t⟩,goes⟩ := Option.isSome_iff_exists.mp can
      exact ⟨k,rfl,_,call_of_step at_k goes⟩
  · rintro ⟨k,rfl,t,move⟩
    simp only [apply,Option.bind_eq_bind,Option.bind_eq_some_iff] at move
    obtain ⟨c,at_k,next,goes,-⟩ := move
    exact ⟨c,k,at_k,by simp [goes]⟩

/-- The jobs are those whose move is possible, but for a ring in vain. -/
theorem mem_jobs {s : Session} {j : Job} :
    j ∈ s.jobs ↔ j ≠ .answer ∧ (∃ t, s.apply (s.jobMove j) = some t) ∧ (j = .scheduler → s.ringsInVain = false) := by
  simp only [jobs,List.mem_append,List.mem_ite_nil_right,List.mem_singleton,List.mem_replicate,mem_waking,
    Option.isSome_iff_exists,Bool.and_eq_true,Bool.not_eq_true']
  cases j with
  | scheduler => simp [jobMove]
  | start => cases first : s.spawned <;> simp [jobMove,apply,first]
  | acquire => simp [jobMove]
  | settle => by_cases none : s.settling = 0 <;> simp [jobMove,apply,none]
  | caller k => simp [jobMove]
  | answer => simp

/-- Only a scheduler that waits for nothing but its time rings in vain. -/
theorem schedulerMove_of_vain {s : Session} (vain : s.ringsInVain = true) : s.schedulerMove = .ring := by
  unfold ringsInVain at vain
  split at vain
  · assumption
  · cases vain

/-- A scheduler that waits chooses the first of its moves that is possible, so that none but to ring is where this
    one is not or is to ring. -/
theorem waiting_of_stuck {s : Session} {d : Nat} (waits : s.scheduler = .waiting d)
    (stuck : s.apply s.schedulerMove = none ∨ s.schedulerMove = .ring) :
    s.stop = false ∧ s.slot? = none ∧ s.orphaned = false := by
  by_cases told : s.stop = true
  · simp [schedulerMove,waits,told,apply,wake] at stuck
  cases full : s.slot? with
  | some r => simp [schedulerMove,waits,told,full,apply,wake] at stuck
  | none =>
    by_cases alone : s.orphaned = true
    · simp [schedulerMove,waits,told,full,alone,apply,wake] at stuck
    · exact ⟨by simpa using told,rfl,by simpa using alone⟩

/-- Where the session has just been flushed, no ring is a job after which the next time has come as well. -/
theorem spin_of_job {s : Session} {j : Job} (fresh : s.lastFlush = s.now) (job : j ∈ s.jobs) :
    s.spin (s.jobMove j) = 0 := by
  cases j with
  | scheduler =>
    obtain ⟨-,-,leads⟩ := mem_jobs.mp job
    by_cases rings : s.schedulerMove = .ring
    · have same : s.rung.deadline = s.deadline := by
        rw [rung]
        split
        · simp only [deadline,fresh]
        · rfl
      have ahead : ¬ s.deadline ≤ s.now := by simpa [ringsInVain,rings,fresh] using leads rfl
      rw [jobMove,rings,spin,same,if_neg ahead]
    · exact spin_of_ne rings
  | _ => rfl

/-- When no job is left, nothing but an answer can take the session further, and the timer. -/
theorem rests_of_jobs {s : Session} (jobless : s.jobs = []) (free : s.flush? = none) : s.Still := by
  have idle (j : Job) (other : j ≠ .answer) (leads : j = .scheduler → s.ringsInVain = false) :
      s.apply (s.jobMove j) = none := by
    rw [Option.eq_none_iff_forall_ne_some]
    intro t move
    have job := mem_jobs.mpr ⟨other,⟨t,move⟩,leads⟩
    rw [jobless] at job
    cases job
  have scheduler : s.apply s.schedulerMove = none ∨ s.schedulerMove = .ring := by
    cases vain : s.ringsInVain with
    | true => exact .inr (schedulerMove_of_vain vain)
    | false => exact .inl (idle .scheduler (by simp) fun _ => vain)
  have start : s.apply (.start 0) = none := idle .start (by simp) (by simp)
  have spawned : s.spawned = [] := by
    cases first : s.spawned with
    | nil => rfl
    | cons t rest => simp [apply,first] at start
  have wakes (m : Move) (other : m ≠ .ring) : s.wake m = none := by
    cases phase : s.scheduler with
    | waiting d =>
      obtain ⟨untold,room,attended⟩ := waiting_of_stuck phase scheduler
      cases m with
      | ring => exact absurd rfl other
      | _ => simp [wake,phase,untold,room,attended]
    | _ => simp [wake,phase]
  intro m work other
  cases m with
  | ingest | drain | close | abandon | cancel | orphan | elapse => cases work
  | call k => exact idle (.caller k) (by simp) (by simp)
  | acquire => exact idle .acquire (by simp) (by simp)
  | settle => exact idle .settle (by simp) (by simp)
  | start i => simp [apply,spawned]
  | answer result => simp [apply,free]
  | heedStop => exact wakes .heedStop other
  | receive => exact wakes .receive other
  | heedOrphan => exact wakes .heedOrphan other
  | ring => exact absurd rfl other
  | arm =>
    cases phase : s.scheduler with
    | arming => simpa [schedulerMove,phase] using scheduler
    | _ => simp [apply,phase]
  | shutDown =>
    cases phase : s.scheduler with
    | arming | waiting => simp [apply,Session.shutDown,phase]
    | _ => simpa [schedulerMove,phase] using scheduler

end Session

/-- The collaborator gives the answer of a move. -/
def Collaborator.Gives {σ : Type} (k : Collaborator σ) (m : Move) : Prop :=
  ∀ result, m = .answer result → ∃ call state, result = (k.respond call state).1

namespace World

variable {σ : Type}

/-! ### The queue of a world -/

theorem refresh_own {ready : List (Nat × Job)} (own : ∀ e ∈ ready, e.1 = 0) (possible : List Job) :
    ∀ e ∈ refresh 0 ready possible, e.1 = 0 := by
  induction ready generalizing possible with
  | nil =>
    intro e member
    obtain ⟨j,-,rfl⟩ := List.mem_map.mp member
    rfl
  | cons first rest ih =>
    obtain ⟨i,j⟩ := first
    obtain rfl : i = 0 := own _ List.mem_cons_self
    have later := ih fun e member => own e (List.mem_cons_of_mem _ member)
    rw [refresh]
    split
    · intro e member
      rcases List.mem_cons.mp member with rfl | member
      · rfl
      · exact later possible e member
    split
    · intro e member
      rcases List.mem_cons.mp member with rfl | member
      · rfl
      · exact later _ e member
    · exact later possible

/-- Behind `refresh` stand the jobs that are possible and no others. -/
theorem refresh_jobs {ready : List (Nat × Job)} (own : ∀ e ∈ ready, e.1 = 0) {possible : List Job}
    (plain : .answer ∉ possible) :
    (((refresh 0 ready possible).map (·.2)).filter (· ≠ .answer)).Perm possible := by
  induction ready generalizing possible with
  | nil =>
    have all : possible.filter (· ≠ .answer) = possible := by
      refine List.filter_eq_self.mpr fun j member => ?_
      simpa using fun same : j = .answer => plain (same ▸ member)
    rw [refresh,List.map_map,Function.comp_def,List.map_id',all]
  | cons first rest ih =>
    obtain ⟨i,j⟩ := first
    obtain rfl : i = 0 := own _ List.mem_cons_self
    have later {possible : List Job} (plain : .answer ∉ possible) :=
      ih (fun e member => own e (List.mem_cons_of_mem _ member)) plain
    rw [refresh]
    by_cases answer : j = .answer
    · subst answer
      simpa using later plain
    · by_cases can : j ∈ possible
      · have fewer : .answer ∉ possible.erase j := fun member => plain (List.mem_of_mem_erase member)
        simpa [answer,can] using ((later fewer).cons j).trans (List.perm_cons_erase can).symm
      · simpa [answer,can] using later plain

theorem refresh_answers {ready : List (Nat × Job)} (own : ∀ e ∈ ready, e.1 = 0) {possible : List Job}
    (plain : .answer ∉ possible) :
    ((refresh 0 ready possible).map (·.2)).count .answer = (ready.map (·.2)).count .answer := by
  induction ready generalizing possible with
  | nil => simpa [refresh,Function.comp_def] using List.count_eq_zero_of_not_mem plain
  | cons first rest ih =>
    obtain ⟨i,j⟩ := first
    obtain rfl : i = 0 := own _ List.mem_cons_self
    have later {possible : List Job} (plain : .answer ∉ possible) :=
      ih (fun e member => own e (List.mem_cons_of_mem _ member)) plain
    rw [refresh]
    by_cases answer : j = .answer
    · simp [answer,later plain]
    · by_cases can : j ∈ possible
      · have fewer : .answer ∉ possible.erase j := fun member => plain (List.mem_of_mem_erase member)
        simp [answer,can,later fewer]
      · simp [answer,can,later plain]

/-! ### A world of one session -/

/-- A world that has one session, whose calls take no time. In the queue stand the jobs that are possible, and so
    many answers. -/
structure Queues (k : Collaborator σ) (w : World σ) (s : Session) (answers : Nat) : Prop where
  collaborator : w.collaborator = k
  sessions : w.sessions = [s]
  delay : w.delay = 0
  own : ∀ e ∈ w.ready, e.1 = 0
  jobs : ((w.ready.map (·.2)).filter (· ≠ .answer)).Perm s.jobs
  answers : (w.ready.map (·.2)).count .answer = answers

/-- What can be done stands in the queue. -/
def Alone (k : Collaborator σ) (w : World σ) (s : Session) : Prop := Queues k w s s.flush?.toList.length

variable {k : Collaborator σ} {w : World σ} {s t : Session} {n : Nat}

theorem move_eq (sessions : w.sessions = [s]) {m : Move} (goes : s.apply m = some t) :
    w.move 0 m = { w with sessions := [t], ready := refresh 0 w.ready t.jobs } := by
  simp [move,sessions,goes]

/-- After a move the queue holds the jobs that have become possible, whichever it held before. -/
theorem queues_of_move (collaborator : w.collaborator = k) (sessions : w.sessions = [s]) (delay : w.delay = 0)
    (own : ∀ e ∈ w.ready, e.1 = 0) {m : Move} (goes : s.apply m = some t) :
    Queues k (w.move 0 m) t ((w.ready.map (·.2)).count .answer) := by
  have plain : .answer ∉ t.jobs := fun member => (Session.mem_jobs.mp member).1 rfl
  rw [move_eq sessions goes]
  exact ⟨collaborator,rfl,delay,refresh_own own _,refresh_jobs own plain,refresh_answers own plain⟩

/-- A flush that makes a call puts the answer into the queue. -/
theorem alone_of_begun (queues : Queues k w t 0) :
    Alone k (match w.sessions[0]? >>= (·.flush?) with
      | some f => w.beginCall 0 f.call
      | none => w) t := by
  have writes : (w.sessions[0]? >>= (·.flush?)) = t.flush? := by simp [queues.sessions]
  rw [writes]
  cases flush : t.flush? with
  | none => simpa [Alone,flush] using queues
  | some f =>
    have begun : w.beginCall 0 f.call =
        { w with store := w.collaborator.note f.call w.store, ready := (0,.answer) :: w.ready } := by
      simp [beginCall,queues.delay]
    simp only [Alone,flush,begun]
    refine ⟨queues.collaborator,queues.sessions,queues.delay,?_,?_,?_⟩
    · intro e member
      rcases List.mem_cons.mp member with rfl | member
      · rfl
      · exact queues.own e member
    · simpa using queues.jobs
    · simp [queues.answers]

/-- A move that changes nothing about the flush. -/
theorem alone_of_move {ready : List (Nat × Job)} (alone : Alone k w s) (own : ∀ e ∈ ready, e.1 = 0)
    (answers : (ready.map (·.2)).count .answer = (w.ready.map (·.2)).count .answer) {m : Move}
    (goes : s.apply m = some t) (flush? : t.flush? = s.flush?) : Alone k ({ w with ready }.move 0 m) t := by
  have queues := queues_of_move (w := { w with ready }) alone.collaborator alone.sessions alone.delay own goes
  rwa [answers,alone.answers,← flush?] at queues

theorem flush?_of_step {m : Move} (step : Session.Step s m t) (acquires : m ≠ .acquire)
    (answers : ∀ result, m ≠ .answer result) : t.flush? = s.flush? := by
  cases step with
  | acquire => exact absurd rfl acquires
  | answer => exact absurd rfl (answers _)
  | _ => rfl

theorem alone_alarms {alarms : List Alarm} (alone : Alone k w s) : Alone k { w with alarms } s :=
  ⟨alone.collaborator,alone.sessions,alone.delay,alone.own,alone.jobs,alone.answers⟩

theorem gives_of_other {m : Move} (other : ∀ result, m ≠ .answer result) : k.Gives m :=
  fun result same => absurd same (other result)

/-- A turn of the scheduler, of a task or of a call is its move, and may set another alarm. -/
theorem turn_eq {j : Job} {rest : List (Nat × Job)} (here : w.sessions[0]? = some s) (ready : w.ready = (0,j) :: rest)
    (notAnswer : j ≠ .answer) (notAcquire : j ≠ .acquire) :
    ∃ alarms, w.turn =
      { ({ w with ready := if goesOn j then w.ready else rest } : World σ).move 0 (s.jobMove j) with alarms } := by
  cases j with
  | answer => exact absurd rfl notAnswer
  | acquire => exact absurd rfl notAcquire
  | scheduler =>
    simp only [turn,ready,goesOn,here,perform,Session.jobMove]
    cases s.scheduler with
    | waiting d => exact ⟨_,rfl⟩
    | _ => exact ⟨_,rfl⟩
  | _ =>
    simp only [turn,ready,goesOn,here,perform]
    exact ⟨_,rfl⟩

/-- The first in the queue is the answer to a call. -/
theorem turn_of_answer {rest : List (Nat × Job)} (alone : Alone k w s) (ready : w.ready = (0,.answer) :: rest) :
    ∃ m t, m.isWork = true ∧ s.spin m = 0 ∧ s.apply m = some t ∧ k.Gives m ∧ Alone k w.turn t := by
  have own : ∀ e ∈ rest, e.1 = 0 := fun e member => alone.own e (by simp [ready,member])
  have here : w.sessions[0]? = some s := by simp [alone.sessions]
  have answers := alone.answers
  simp only [ready,List.map_cons,List.count_cons_self] at answers
  cases writes : s.flush? with
  | none => simp [writes] at answers
  | some f =>
    have none : (rest.map (·.2)).count .answer = 0 := by
      simp only [writes,Option.toList_some,List.length_singleton] at answers
      omega
    have goes : s.apply (.answer (w.collaborator.respond f.call w.store).1) =
        some (s.resume f (w.collaborator.respond f.call w.store).1) := by
      simp [Session.apply,writes]
    refine ⟨_,_,rfl,rfl,goes,?_,?_⟩
    · intro result same
      cases same
      exact ⟨f.call,w.store,by rw [alone.collaborator]⟩
    · have queues := queues_of_move
        (w := { w with ready := rest, store := (w.collaborator.respond f.call w.store).2 }) alone.collaborator
        alone.sessions alone.delay own goes
      rw [none] at queues
      have turned := alone_of_begun queues
      simp only [turn,ready,goesOn,here,perform,writes]
      exact turned

/-- The first in the queue is a task that takes the lock. -/
theorem turn_of_acquire {rest : List (Nat × Job)} (alone : Alone k w s) (ready : w.ready = (0,.acquire) :: rest)
    (goes : s.apply .acquire = some t) : Alone k w.turn t := by
  have own : ∀ e ∈ rest, e.1 = 0 := fun e member => alone.own e (by simp [ready,member])
  have here : w.sessions[0]? = some s := by simp [alone.sessions]
  have free : s.flush? = none := by
    cases flush : s.flush? with
    | none => rfl
    | some f => simp [Session.apply,flush] at goes
  have answers := alone.answers
  simp only [ready,free,List.map_cons,List.count_cons,Option.toList_none,List.length_nil] at answers
  have none : (rest.map (·.2)).count .answer = 0 := by omega
  have queues := queues_of_move (w := { w with ready := rest }) alone.collaborator alone.sessions alone.delay own goes
  rw [none] at queues
  have turned := alone_of_begun queues
  simp only [turn,ready,goesOn,here,perform]
  exact turned

/-- A turn makes one move of the session. -/
theorem turn_step (fresh : s.lastFlush = s.now) (alone : Alone k w s) (busy : w.ready ≠ []) :
    ∃ m t, m.isWork = true ∧ s.spin m = 0 ∧ s.apply m = some t ∧ k.Gives m ∧ Alone k w.turn t := by
  obtain ⟨⟨i,j⟩,rest,ready⟩ := List.exists_cons_of_ne_nil busy
  obtain rfl : i = 0 := alone.own (i,j) (by simp [ready])
  by_cases notAnswer : j = .answer
  · exact turn_of_answer alone (notAnswer ▸ ready)
  have job : j ∈ s.jobs := alone.jobs.subset (by simp [ready,notAnswer])
  obtain ⟨-,⟨t,goes⟩,-⟩ := Session.mem_jobs.mp job
  by_cases notAcquire : j = .acquire
  · subst notAcquire
    exact ⟨_,t,rfl,rfl,goes,gives_of_other (by simp [Session.jobMove]),turn_of_acquire alone ready goes⟩
  · have here : w.sessions[0]? = some s := by simp [alone.sessions]
    obtain ⟨alarms,turned⟩ := turn_eq here ready notAnswer notAcquire
    obtain ⟨acquires,answers⟩ := s.jobMove_ne notAcquire notAnswer
    have same := flush?_of_step (Session.step_of_apply goes) acquires answers
    refine ⟨_,t,s.jobMove_isWork _,Session.spin_of_job fresh job,goes,gives_of_other answers,?_⟩
    rw [turned]
    refine alone_alarms (alone_of_move alone ?_ ?_ goes same)
    · intro e member
      refine alone.own e ?_
      split at member
      · exact member
      · simp [ready,member]
    · split <;> simp [ready,notAnswer]

/-! ### Coming to rest -/

/-- A world with nothing in its queue is at rest, and so is its session, but for a timer that would ring in vain. -/
theorem rests_of_alone (alone : Alone k w s) (done : w.ready = []) : s.Still := by
  have jobs := alone.jobs
  have answers := alone.answers
  simp only [done,List.map_nil,List.filter_nil,List.count_nil] at jobs answers
  refine Session.rests_of_jobs (List.nil_perm.mp jobs) ?_
  cases flush : s.flush? with
  | none => rfl
  | some f => simp [flush] at answers

theorem runUntil_done (done : w.ready = []) (n : Nat) : runUntil (fun _ => false) n w = w := by
  cases n <;> simp [runUntil,done]

/-- Unless the clock moves, a session that has just been flushed stays so. -/
theorem fresh_of_step {m : Move} (step : Session.Step s m t) (held : ∀ nanos, m ≠ .elapse nanos)
    (fresh : s.lastFlush = s.now) : t.lastFlush = t.now := by
  obtain ⟨-,-,still,flushed⟩ := Session.time_step step
  rcases flushed with kept | now
  · rw [kept,still held,fresh]
  · rw [now,still held]

theorem held_of_work {m : Move} (work : m.isWork = true) (nanos : Nat) : m ≠ .elapse nanos := by
  rintro rfl
  cases work

/-- A turn leaves the session less to do. -/
theorem turn_less (ord : Session.Orderly s) (fresh : s.lastFlush = s.now) (alone : Alone k w s)
    (busy : w.ready ≠ []) :
    ∃ m t, m.isWork = true ∧ s.apply m = some t ∧ k.Gives m ∧ t.lastFlush = t.now ∧ t.load < s.load ∧
      Alone k w.turn t := by
  obtain ⟨m,t,work,unspun,goes,gives,after⟩ := turn_step fresh alone busy
  have step := Session.step_of_apply goes
  have less := Session.load_of_work ord (Nat.le_of_eq fresh) step work
  rw [unspun] at less
  exact ⟨m,t,work,goes,gives,fresh_of_step step (held_of_work work) fresh,less,after⟩

section
variable {settings : Settings} {info : ImportInfo} {now : Nat} {stop : Bool} {moves : List Move}

/-- As many turns as the session has left to do bring the world to rest. -/
theorem settle_run (run : (Session.start settings info now stop).replay moves = some s) (fresh : s.lastFlush = s.now)
    (alone : Alone k w s) {n : Nat} (enough : s.load ≤ n) :
    ∃ later t, s.replay later = some t ∧ (∀ m ∈ later, m.isWork = true ∧ k.Gives m) ∧ t.lastFlush = t.now ∧
      Alone k (runUntil (fun _ => false) n w) t ∧ (runUntil (fun _ => false) n w).ready = [] := by
  induction n generalizing w s moves with
  | zero =>
    -- One turn more would leave less than nothing to do.
    have done : w.ready = [] := by
      by_contra busy
      obtain ⟨m,t,-,-,-,-,less,-⟩ := turn_less (Session.orderly run) fresh alone busy
      omega
    exact ⟨[],s,rfl,by simp,fresh,alone,done⟩
  | succ n ih =>
    by_cases done : w.ready = []
    · rw [runUntil_done done]
      exact ⟨[],s,rfl,by simp,fresh,alone,done⟩
    obtain ⟨m,t,work,goes,gives,fresh',less,after⟩ := turn_less (Session.orderly run) fresh alone done
    have reached := Session.replay_snoc.mpr ⟨s,run,goes⟩
    obtain ⟨later,u,on,works,fresh'',rest⟩ := ih reached fresh' after (by omega)
    have turned : runUntil (fun _ => false) (n + 1) w = runUntil (fun _ => false) n w.turn := by
      rw [runUntil]
      simp [done]
    rw [turned]
    refine ⟨m :: later,u,Session.replay_cons goes on,?_,fresh'',rest⟩
    intro m' member
    rcases List.mem_cons.mp member with rfl | member
    · exact ⟨work,gives⟩
    · exact works m' member

/-- Nothing is left to do in the world's one session while the clock stands still. -/
structure Settled (k : Collaborator σ) (w : World σ) (s : Session) : Prop where
  alone : Alone k w s
  done : w.ready = []
  fresh : s.lastFlush = s.now

theorem settle_settled (run : (Session.start settings info now stop).replay moves = some s)
    (fresh : s.lastFlush = s.now) (alone : Alone k w s) (enough : s.load ≤ patience) :
    ∃ later t, s.replay later = some t ∧ (∀ m ∈ later, m.isWork = true ∧ k.Gives m) ∧ Settled k w.settle t := by
  obtain ⟨later,t,on,works,fresh,alone,done⟩ := settle_run run fresh alone enough
  exact ⟨later,t,on,works,alone,done,fresh⟩

theorem start_settled {w : World σ} (none : w.sessions = []) (idle : w.ready = []) (instant : w.delay = 0)
    (info : ImportInfo) :
    ∃ later t, (Session.start w.settings info w.now w.cancelled).replay later = some t ∧
      (∀ m ∈ later, m.isWork = true ∧ w.collaborator.Gives m) ∧ Settled w.collaborator (w.start info) t := by
  have plain : .answer ∉ (Session.start w.settings info w.now w.cancelled).jobs :=
    fun member => (Session.mem_jobs.mp member).1 rfl
  have own : ∀ e ∈ ([] : List (Nat × Job)), e.1 = 0 := by simp
  have run : (Session.start w.settings info w.now w.cancelled).replay [] = some _ := rfl
  simp only [start,none,idle,List.length_nil,List.nil_append]
  refine settle_settled run rfl ⟨rfl,rfl,instant,?_,?_,?_⟩ ?_
  · exact refresh_own own _
  · exact refresh_jobs own plain
  · exact refresh_answers own plain
  · have late := Session.lateness_le w.now (Session.start w.settings info w.now w.cancelled).deadline
    simp only [Session.load,Session.start,Phase.load,Session.tail,patience] at late ⊢
    simp
    omega

theorem rests_of_settled (settled : Settled k w s) : s.Still :=
  rests_of_alone settled.alone settled.done

/-- A move that a user makes or a signal. -/
theorem alone_of_idle (alone : Alone k w s) {m : Move} (idle : m.isWork = false) (goes : s.apply m = some t) :
    Alone k (w.move 0 m) t := by
  have flush? : t.flush? = s.flush? := by
    refine flush?_of_step (Session.step_of_apply goes) ?_ ?_
    · rintro rfl
      cases idle
    · rintro result rfl
      cases idle
  exact alone_of_move alone alone.own rfl goes flush?

/-- All sessions are told to end. -/
theorem cancel_settled (run : (Session.start settings info now stop).replay moves = some s) (settled : Settled k w s)
    (few : s.load ≤ patience) :
    ∃ later t, { s with stop := true }.replay later = some t ∧ (∀ m ∈ later, m.isWork = true ∧ k.Gives m) ∧
      Settled k w.cancel t := by
  have goes : s.apply .cancel = some { s with stop := true } := rfl
  have one : w.sessions.length = 1 := by simp [settled.alone.sessions]
  have told := alone_of_idle settled.alone (m := .cancel) rfl goes
  have told' : Alone k { w.move 0 .cancel with cancelled := true } { s with stop := true } := by
    exact ⟨told.collaborator,told.sessions,told.delay,told.own,told.jobs,told.answers⟩
  simp only [cancel,one,List.range_one,List.reverse_singleton,List.foldl_cons,List.foldl_nil]
  exact settle_settled (Session.replay_snoc.mpr ⟨s,run,goes⟩) settled.fresh told' few

theorem await_eq {finished : World σ → Bool} (over_ : finished w.settle = true) :
    await finished patience w = w.settle := by
  have more : patience = 9999999 + 1 := rfl
  rw [more,await]
  simp [over_]

/-- A call that comes to its end where nothing goes further has come to it when the world is at rest. -/
theorem callAll_settled (run : (Session.start settings info now stop).replay moves = some s) (settled : Settled k w s)
    {m : Move} {c : Caller} (opens : m.caller? = some c) (goes : s.apply m = some t) (few : t.load ≤ patience)
    (ends : ∀ later u, t.replay later = some u → (∀ m ∈ later, m.isWork = true) → u.Still →
      ∀ c, u.callers[s.callers.length]? = some c → c.isLive = false) :
    ∃ later u, t.replay later = some u ∧ (∀ m ∈ later, m.isWork = true ∧ k.Gives m) ∧
      Settled k (w.callAll 0 [m]).2 u ∧ (w.callAll 0 [m]).1 = [u.callers[s.callers.length]?] := by
  have idle : m.isWork = false ∧ ∀ nanos, m ≠ .elapse nanos := by
    rcases Move.of_caller? opens with ⟨_,rfl,-⟩ | ⟨rfl,-⟩ | ⟨rfl,-⟩ <;> exact ⟨rfl,by simp⟩
  have entered := alone_of_idle settled.alone idle.1 goes
  have fresh := fresh_of_step (Session.step_of_apply goes) idle.2 settled.fresh
  obtain ⟨later,u,on,works,rest⟩ := settle_settled (Session.replay_snoc.mpr ⟨s,run,goes⟩) fresh entered few
  have here : w.sessions[0]? = some s := by simp [settled.alone.sessions]
  have there (j : Nat) : (w.move 0 m).settle.caller? 0 j = u.callers[j]? := by simp [caller?,rest.alone.sessions]
  have over_ : (w.move 0 m).settle.isOver 0 s.callers.length = true := by
    rw [isOver,there]
    cases at_k : u.callers[s.callers.length]? with
    | none => rfl
    | some c => simp [ends later u on (fun m member => (works m member).1) (rests_of_settled rest) c at_k]
  have called : w.callAll 0 [m] = ([u.callers[s.callers.length]?],(w.move 0 m).settle) := by
    have again : (w.move 0 m).settle.settle = (w.move 0 m).settle := runUntil_done rest.done _
    simp only [callAll,enter,here,List.foldl_cons,List.foldl_nil,Option.map_some,Option.getD_some,List.nil_append,
      List.map_cons,List.map_nil]
    rw [await_eq (by simpa using over_),again,there]
  rw [called]
  exact ⟨later,u,on,works,rest,rfl⟩

end

end World

end Intake
