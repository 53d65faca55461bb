import Intake.Proofs.Session.Ending

/-!
No record waits in the buffer for long. The scheduler sleeps until a time that is set
by the last flush, or by an earlier one (`Armed`); and the records in the buffer were
put there since the last flush, unless a timed flush is on its way to take them
(`fresh_step`). So wherever nothing can go on but time, the longest wait has not passed
for any record in the buffer (`flushed_in_time`), however steadily others arrive.
-/
namespace Intake.Session

/-- Nothing can go on but time, a user, or the answer to a call. -/
def Rests (s : Session) : Prop := ∀ m, m.isWork = true → (∀ result, m ≠ .answer result) → s.apply m = none

/-- The clock stands still as long as anything else can go on, and then moves no further than to the time that
    the scheduler waits for. -/
def OnTime (s : Session) (moves : List Move) : Prop :=
  ∀ passed ∈ s.gather (fun s m _ => [(s,m)]) moves, ∀ nanos, passed.2 = .elapse nanos →
    passed.1.Rests ∧ ∀ d, passed.1.scheduler = .waiting d → passed.1.now + nanos ≤ d

/-- The records in the buffer after a move to `t`, with the times at which they were put there. A record is put
    behind the others, and the buffer is emptied as a whole. -/
def stamp (held : List (Record × Nat)) (t : Session) : List (Record × Nat) :=
  if t.buffer = [] then [] else held ++ (t.buffer.drop held.length).map (·,t.now)

def held (s : Session) (moves : List Move) : List (Record × Nat) :=
  (s.gather (fun _ _ t => [t]) moves).foldl stamp []

/-- The time that the scheduler waits for comes no later than the next flush is due, as far as times can be told
    from each other. -/
def Armed (s : Session) : Prop :=
  ∀ d, s.scheduler = .waiting d → d ≤ s.lastFlush + s.settings.maxWait ∨ timeLimit ≤ s.lastFlush + s.settings.maxWait

variable {s t : Session} {m : Move} {kept : List (Record × Nat)}

/-! ### What is held -/

theorem held_snoc {s₀ : Session} {moves : List Move} (run : s₀.replay moves = some s) (move : s.apply m = some t) :
    s₀.held (moves ++ [m]) = stamp (s₀.held moves) t := by
  rw [held,gather_snoc _ run move,List.foldl_append]
  rfl

theorem onTime_snoc {s₀ : Session} {moves : List Move} (run : s₀.replay moves = some s) (move : s.apply m = some t)
    (timely : s₀.OnTime (moves ++ [m])) :
    s₀.OnTime moves ∧ ∀ nanos, m = .elapse nanos → s.Rests ∧ ∀ d, s.scheduler = .waiting d → s.now + nanos ≤ d := by
  rw [OnTime,gather_snoc _ run move] at timely
  constructor
  · intro passed member
    exact timely passed (List.mem_append_left _ member)
  · exact timely (s,m) (List.mem_append_right _ (List.mem_singleton.mpr rfl))

/-- A move leaves what is held as it is, or empties the buffer, or puts a record behind the others. -/
theorem stamp_cases (step : Step s m t) (same : kept.map (·.1) = s.buffer) :
    (stamp kept t).map (·.1) = t.buffer ∧
      (stamp kept t = kept ∨ stamp kept t = [] ∨ ∃ r, stamp kept t = kept ++ [(r,t.now)]) := by
  have size : kept.length = s.buffer.length := by rw [← same,List.length_map]
  by_cases empty : t.buffer = []
  · simp [stamp,empty]
  rcases buffer_step step with still | emptied | ⟨r,more,-⟩
  · have nothing : stamp kept t = kept := by
      rw [stamp,if_neg empty,still,size]
      simp
    exact ⟨by rw [nothing,still,same],.inl nothing⟩
  · exact absurd emptied empty
  · have new : stamp kept t = kept ++ [(r,t.now)] := by
      rw [stamp,if_neg empty,more,size]
      simp
    exact ⟨by rw [new,more,← same]; simp,.inr (.inr ⟨r,new⟩)⟩

/-! ### The last flush -/

/-- Whenever the last flush is noted, the buffer has just been emptied or a timed flush is to come. -/
theorem flushed_step (step : Step s m t) :
    t.buffer = [] ∨ 0 < t.pending Task.isTimed ∨
      (t.lastFlush = s.lastFlush ∧ s.pending Task.isTimed ≤ t.pending Task.isTimed) := by
  cases step with
  | @acquire task rest u free next does =>
    cases does with
    | keep brings short =>
      have bare : task.isTimed = false := by cases task <;> first | rfl | exact absurd rfl brings
      exact .inr (.inr ⟨by simp,by simp [pending,next,bare]⟩)
    | idle | refuse => left; simp [fail]
    | begin => exact .inl rfl
  | @answer f result writes =>
    have around := resume_around s f result
    exact .inr (.inr ⟨lastFlush_of_answer s f result,by simp [pending,around.spawned,around.queue]⟩)
  | ring =>
    right; left
    simp only [pending,List.countP_append,List.countP_cons,Task.isTimed,if_true]
    omega
  | @start i task at_i =>
    obtain ⟨before,after,whole,erased,-⟩ := split_at at_i
    refine .inr (.inr ⟨rfl,?_⟩)
    simp only [pending]
    rw [erased,whole]
    simp only [List.countP_append,List.countP_cons,List.countP_nil]
    omega
  | receive => exact .inr (.inr ⟨rfl,by simp [pending,Task.isTimed]⟩)
  | _ => exact .inr (.inr ⟨rfl,by simp [pending]⟩)

/-- What is held was put there since the last flush, unless a timed flush is to come. -/
theorem fresh_step (step : Step s m t) (same : kept.map (·.1) = s.buffer) (past : t.lastFlush ≤ t.now)
    (fresh : 0 < s.pending Task.isTimed ∨ ∀ p ∈ kept, s.lastFlush ≤ p.2) :
    0 < t.pending Task.isTimed ∨ ∀ p ∈ stamp kept t, t.lastFlush ≤ p.2 := by
  rcases flushed_step step with empty | comes | ⟨still,waits⟩
  · right
    simp [stamp,empty]
  · exact .inl comes
  · rcases fresh with comes | fresh
    · exact .inl (by omega)
    right
    intro p member
    rcases (stamp_cases step same).2 with nothing | emptied | ⟨r,new⟩
    · rw [nothing] at member
      rw [still]
      exact fresh p member
    · rw [emptied] at member
      cases member
    · rw [new] at member
      rcases List.mem_append.mp member with old | now
      · rw [still]
        exact fresh p old
      · rw [List.mem_singleton.mp now]
        exact past

/-! ### The time that is set -/

theorem waiting_step {d : Nat} (ord : Orderly s) (step : Step s m t) (waits : t.scheduler = .waiting d) :
    s.scheduler = .waiting d ∨ (t.lastFlush = s.lastFlush ∧ t.settings = s.settings ∧ d = s.deadline) := by
  have lock {task : Task} (lock : Ends s task t ∨ Lasts s t) : s.scheduler = .waiting d := by
    rcases ord.of_lock lock with ⟨same,-⟩ | ⟨-,draining,-⟩ | ⟨-,stopped,-⟩
    · rw [← same,waits]
    · rw [waits] at draining
      cases draining
    · rw [waits] at stopped
      cases stopped
  cases step with
  | acquire free next does => exact .inl (lock (performs_ends_or_lasts free next does))
  | answer writes => exact .inl (lock (resume_ends_or_lasts writes _))
  | arm => exact .inr ⟨rfl,rfl,(Phase.waiting.inj waits).symm⟩
  | heedStop | heedOrphan | receive | ring | ringEarly | close | shut | drain | drained | last => cases waits
  | _ => exact .inl waits

theorem armed_step (ord : Orderly s) (past : s.lastFlush ≤ s.now) (armed : Armed s) (step : Step s m t) :
    Armed t := by
  intro d waits
  obtain ⟨settings,-,-,flushed⟩ := time_step step
  rcases waiting_step ord step waits with before | ⟨still,-,rfl⟩
  · rcases armed d before with soon | beyond
    · left
      rw [settings]
      omega
    · right
      rw [settings]
      omega
  · rw [still,settings,deadline]
    split
    · exact .inl (Nat.le_refl _)
    · right
      omega

/-! ### Sessions at rest -/

/-- A session that rests with records in its buffer waits for a time that is still to come. -/
theorem waits_of_filled (ord : Orderly s) (exact_ : s.underway = s.counted) (rests : s.Rests)
    (filled : s.buffer ≠ []) :
    s.flush? = none ∧ s.pending Task.isTimed = 0 ∧ ∃ d, s.scheduler = .waiting d ∧ s.now < d := by
  have free : s.flush? = none := by
    by_contra writes
    exact filled (ord.taken writes)
  have still (m : Move) (drives : s.Drives m) : s.apply m = none := by
    cases m with
    | answer result => simp [apply,free]
    | _ => exact rests _ (isWork_of_drives drives).1 (by simp)
  have idle := (tasks_of_rest still).1
  refine ⟨free,?_,?_⟩
  · have none : s.spawned ++ s.queue = [] := by simpa [tasks,free] using idle
    rw [pending,none]
    rfl
  rcases phase_of_rest ord exact_ still with ⟨d,waits⟩ | stopped
  · refine ⟨d,waits,?_⟩
    by_contra late
    have rings := rests .ring rfl (by simp)
    by_cases due : s.isDue = true
    · simp [apply,wake,waits,late,due] at rings
    · simp [apply,wake,waits,late,due] at rings
  · exact absurd (ord.ended stopped).2 filled

section
variable {settings : Settings} {info : ImportInfo} {now : Nat} {stop : Bool} {moves : List Move}

theorem held_of_run (run : (start settings info now stop).replay moves = some s) :
    ((start settings info now stop).held moves).map (·.1) = s.buffer ∧
      (0 < s.pending Task.isTimed ∨ ∀ p ∈ (start settings info now stop).held moves, s.lastFlush ≤ p.2) := by
  refine replay_induction (P := fun moves s => ((start settings info now stop).held moves).map (·.1) = s.buffer ∧
      (0 < s.pending Task.isTimed ∨ ∀ p ∈ (start settings info now stop).held moves, s.lastFlush ≤ p.2)) ?_ ?_ run
  · exact ⟨rfl,.inr (by simp [held,gather])⟩
  intro moves s m t before kept move
  have step := step_of_apply move
  have past : t.lastFlush ≤ t.now := lastFlush_le_of_run (replay_snoc.mpr ⟨s,before,move⟩)
  rw [held_snoc before move]
  exact ⟨(stamp_cases step kept.1).1,fresh_step step kept.1 past kept.2⟩

theorem armed_of_run (run : (start settings info now stop).replay moves = some s) : Armed s := by
  refine replay_induction (P := fun _ s => Armed s) ?_ ?_ run
  · intro d waits
    cases waits
  · intro moves s m t before armed move
    exact armed_step (orderly before) (lastFlush_le_of_run before) armed (step_of_apply move)

/-- The time that the scheduler waits for is set by the last flush at the latest. -/
theorem waits_briefly {d : Nat} (run : (start settings info now stop).replay moves = some s)
    (waits : s.scheduler = .waiting d) {time : Nat} (soon : time ≤ d) (inTime : time < timeLimit) :
    time ≤ s.lastFlush + settings.maxWait ∧ (time < d → time < s.lastFlush + settings.maxWait) := by
  have armed := armed_of_run run d waits
  rw [settings_of_run run] at armed
  omega

/-- In a session at rest that holds records, no batch is being written, all the records were put there since the
    last flush, and what the scheduler waits for is still to come. -/
theorem filled_at_rest (run : (start settings info now stop).replay moves = some s)
    (kept : (start settings info now stop).lost moves = []) (rests : s.Rests) (filled : s.buffer ≠ []) :
    s.flush? = none ∧ (∀ p ∈ (start settings info now stop).held moves, s.lastFlush ≤ p.2) ∧
      ∃ d, s.scheduler = .waiting d ∧ s.now < d := by
  have exact_ : s.underway = s.counted := by rw [underway_eq run,kept]; rfl
  obtain ⟨free,none,waits⟩ := waits_of_filled (orderly run) exact_ rests filled
  refine ⟨free,?_,waits⟩
  refine (held_of_run run).2.resolve_left ?_
  omega

/-- If the clock is on time, what is held has been held for no longer than the longest wait. -/
theorem held_briefly (run : (start settings info now stop).replay moves = some s)
    (kept : (start settings info now stop).lost moves = []) (inTime : s.now < timeLimit)
    (timely : (start settings info now stop).OnTime moves) :
    ∀ p ∈ (start settings info now stop).held moves, s.now ≤ p.2 + settings.maxWait := by
  revert kept inTime timely
  refine replay_induction (P := fun moves s => (start settings info now stop).lost moves = [] → s.now < timeLimit →
    (start settings info now stop).OnTime moves →
      ∀ p ∈ (start settings info now stop).held moves, s.now ≤ p.2 + settings.maxWait) ?_ ?_ run
  · intro _ _ _ p member
    cases member
  intro moves s m t before brief move kept inTime timely p holds
  have step := step_of_apply move
  obtain ⟨early,last⟩ := onTime_snoc before move timely
  rw [lost,gather_snoc _ before move,List.append_eq_nil_iff,← lost] at kept
  obtain ⟨-,forward,still,-⟩ := time_step step
  have short := brief kept.1 (Nat.lt_of_le_of_lt forward inTime) early
  rw [held_snoc before move] at holds
  have old (member : p ∈ (start settings info now stop).held moves) : t.now ≤ p.2 + settings.maxWait := by
    by_cases passes : ∃ nanos, m = .elapse nanos
    · -- The clock moves no further than to the time that the scheduler waits for.
      obtain ⟨nanos,rfl⟩ := passes
      obtain ⟨rests,within⟩ := last nanos rfl
      have filled : s.buffer ≠ [] := by
        rw [← (held_of_run before).1]
        simp [List.ne_nil_of_mem member]
      obtain ⟨-,fresh,d,waits,-⟩ := filled_at_rest before kept.1 rests filled
      obtain rfl : { s with now := s.now + nanos } = t := Option.some.inj move
      have due := (waits_briefly before waits (within d waits) inTime).1
      have since := fresh p member
      show s.now + nanos ≤ _
      omega
    · rw [still fun nanos passed => passes ⟨nanos,passed⟩]
      exact short p member
  rcases (stamp_cases step (held_of_run before).1).2 with nothing | emptied | ⟨r,new⟩
  · exact old (nothing ▸ holds)
  · rw [emptied] at holds
    cases holds
  · rw [new] at holds
    rcases List.mem_append.mp holds with before | now
    · exact old before
    · rw [List.mem_singleton.mp now]
      exact Nat.le_add_right _ _

/-- Wherever nothing can go on but time, a user or the answer to a call, and no caller was given up with records to
    send: if there are records in the buffer, no batch is being written, they are fewer than make a batch, all of
    them were put there since the last flush, and the longest wait has not passed since, so not for any of them
    either. A clock that moves on only there, and no further than to the time that is waited for, therefore takes
    the longest wait to pass for a record only at the very moment at which the record is taken. (No clock shows a
    time beyond `timeLimit`.) -/
theorem flushed_in_time (run : (start settings info now stop).replay moves = some s) (size : 1 ≤ settings.bufferSize)
    (kept : (start settings info now stop).lost moves = []) (inTime : s.now < timeLimit) :
    let held := (start settings info now stop).held moves
    held.map (·.1) = s.buffer ∧
      (s.Rests → s.buffer ≠ [] → s.flush? = none ∧ s.buffer.length < settings.bufferSize ∧
        (∀ p ∈ held, s.lastFlush ≤ p.2) ∧ s.now < s.lastFlush + settings.maxWait ∧
        ∀ p ∈ held, s.now < p.2 + settings.maxWait) ∧
      ((start settings info now stop).OnTime moves → ∀ p ∈ held, s.now ≤ p.2 + settings.maxWait) := by
  intro held
  refine ⟨(held_of_run run).1,?_,held_briefly run kept inTime⟩
  intro rests filled
  obtain ⟨free,fresh,d,waits,soon⟩ := filled_at_rest run kept rests filled
  have short := (waits_briefly run waits (Nat.le_of_lt soon) inTime).2 soon
  refine ⟨free,short_of_run run size,fresh,short,?_⟩
  intro p member
  have since := fresh p member
  omega

/-- The first of two records that make a batch is alone in the buffer for as long as it may be. -/
theorem flushed_in_time_alone :
    let moves := [.ingest [.bare "dht" 1],.arm,.call 0,.call 0,.call 0,.call 0,.call 0,.receive,.start 0,.acquire,
      .settle,.arm,.elapse (nanosPerMilli - 1)]
    ∃ s, paired.replay moves = some s ∧ s.Rests ∧ paired.held moves = [(.bare "dht" 1,0)] ∧
      s.buffer.length < 2 ∧ s.now = nanosPerMilli - 1 ∧ s.now < s.lastFlush + nanosPerMilli := by
  intro moves
  have ends : (paired.replay moves).map (fun s => ((s.scheduler,s.now,s.stop,s.orphaned,s.slot?),
      s.spawned,s.queue,s.flush?,s.settling,s.callers,s.buffer)) =
    some ((.waiting nanosPerMilli,nanosPerMilli - 1,false,false,none),
      [],[],none,0,[.accepted [.bare "dht" 1]],[.bare "dht" 1]) := rfl
  obtain ⟨s,run,ends⟩ := Option.map_eq_some_iff.mp ends
  simp only [Prod.mk.injEq] at ends
  obtain ⟨⟨waits,now,unasked,owned,empty⟩,spawned,queue,free,settled,callers,buffer⟩ := ends
  have rests : s.Rests := by
    intro m work unanswered
    cases m with
    | call k => rcases k with _ | k <;> simp [apply,callers,step]
    | answer result => exact absurd rfl (unanswered result)
    | ingest | drain | close | abandon | cancel | orphan | elapse => cases work
    | _ => simp [apply,wake,shutDown,waits,now,nanosPerMilli,unasked,owned,empty,spawned,queue,free,settled]
  obtain ⟨-,within,-⟩ := flushed_in_time run (by decide) rfl (by rw [now]; decide)
  obtain ⟨-,short,-,soon,-⟩ := within rests (by simp [buffer])
  exact ⟨s,run,rests,rfl,short,now,soon⟩

end

end Intake.Session
