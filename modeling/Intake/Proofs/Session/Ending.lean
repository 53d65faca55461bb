import Intake.Proofs.Session.Batches
import Intake.Proofs.Session.Closed
import Mathlib.Order.RelClasses

/-!
A session that is told to end does. Once a user has closed it, some step is possible
until the scheduler has stopped (`stopped_of_rest`), unless a call was given up while it
waited to send; every step leaves less to do, unless the timer rings where the next time
has come as well, and the session rests only where the last flush is done and all who
close it are answered (`close_ends`). Such rings may go on for ever (`close_spins`), but
the scheduler is free to end at each of them.
-/
namespace Intake

/-- The call has told the session to close, or is about to, and the scheduler may not know. -/
def Caller.isUrgent : Caller → Bool
  | .closing => true
  | .stopping => true
  | _ => false

namespace Session

/-- The move is a step that the session does not owe to the clock, nor to a call unless it waits to send or
    closes the session. -/
def Drives (s : Session) : Move → Prop
  | .call k => ∃ c, s.callers[k]? = some c ∧ (c.unsent ≠ [] ∨ c.isUrgent = true)
  | .ring => False
  | m => m.isWork = true

theorem isWork_of_drives {s : Session} {m : Move} (drives : s.Drives m) : m.isWork = true ∧ m ≠ .ring := by
  cases m with
  | call k => exact ⟨rfl,by simp⟩
  | ring => exact drives.elim
  | _ => exact ⟨drives,by simp⟩

/-- Nothing goes further but the timer. -/
def Still (s : Session) : Prop := ∀ m, m.isWork = true → m ≠ .ring → s.apply m = none

/-- A session that can go no further on its own has no task left. -/
theorem tasks_of_rest {s : Session} (rests : ∀ m, s.Drives m → s.apply m = none) :
    s.tasks = [] ∧ s.settling = 0 := by
  have free : s.flush? = none := by
    cases writes : s.flush? with
    | none => rfl
    | some f =>
      have stuck := rests (.answer (.ok ())) rfl
      simp [apply,writes] at stuck
  have queue : s.queue = [] := by
    cases next : s.queue with
    | nil => rfl
    | cons t rest =>
      have stuck := rests .acquire rfl
      simp [apply,free,next] at stuck
  have spawned : s.spawned = [] := by
    cases first : s.spawned with
    | nil => rfl
    | cons t rest =>
      have stuck := rests (.start 0) rfl
      simp [apply,first] at stuck
  have settled : s.settling = 0 := by
    by_contra some_
    have stuck := rests .settle rfl
    simp [apply,some_] at stuck
  exact ⟨by simp [tasks,free,queue,spawned],settled⟩

/-- A call that cannot be taken on waits for others or has come to its end. -/
theorem step_of_stuck {s : Session} {k : Nat} {c : Caller} (at_k : s.callers[k]? = some c)
    (stuck : s.apply (.call k) = none) : s.step c = none := by
  cases goes : s.step c with
  | none => rfl
  | some next =>
    rw [call_of_step at_k goes] at stuck
    cases stuck

/-- No call waits to send when the channel is closed and nothing goes further. -/
theorem sending_of_rest {s : Session} (rests : ∀ m, s.Drives m → s.apply m = none) (shut : s.isSealed = true) :
    s.sending = 0 := by
  have none (c : Caller) (member : c ∈ s.callers) : c.unsent = [] := by
    by_contra waits
    obtain ⟨k,at_k⟩ := List.getElem?_of_mem member
    have stuck := step_of_stuck at_k (rests (.call k) ⟨c,at_k,.inl waits⟩)
    cases c with
    | sending sent r rest => simp [step,shut] at stuck
    | _ => exact waits rfl
  simp only [sending,List.length_eq_zero_iff,List.flatMap_eq_nil_iff]
  exact none

/-- No call that closes the session has yet to tell it when nothing goes further. -/
theorem told_of_rest {s : Session} (rests : ∀ m, s.Drives m → s.apply m = none)
    (asked : s.stop = true ∨ ∃ c ∈ s.callers, c.isUrgent = true) : s.stop = true := by
  rcases asked with told | ⟨c,member,urgent⟩
  · exact told
  · obtain ⟨k,at_k⟩ := List.getElem?_of_mem member
    have stuck := step_of_stuck at_k (rests (.call k) ⟨c,at_k,.inr urgent⟩)
    cases c with
    | closing | stopping => cases stuck
    | _ => cases urgent

/-- A session that can go no further on its own waits or has stopped, if every record that was counted is still
    somewhere. -/
theorem phase_of_rest {s : Session} (ord : Orderly s) (exact_ : s.underway = s.counted)
    (rests : ∀ m, s.Drives m → s.apply m = none) : (∃ d, s.scheduler = .waiting d) ∨ s.scheduler = .stopped := by
  obtain ⟨none,settled⟩ := tasks_of_rest rests
  have drains := ord.drains
  have finals := ord.finals
  have shutDown := rests .shutDown rfl
  cases phase : s.scheduler with
  | arming =>
    have stuck := rests .arm rfl
    simp [apply,phase] at stuck
  | waiting d => exact .inl ⟨d,rfl⟩
  | closing | sealing => simp [apply,Session.shutDown,phase] at shutDown
  | draining => cases full : s.slot? <;> simp [apply,Session.shutDown,phase,full] at shutDown
  | storing => simp [none,phase] at drains
  | emptying =>
    -- What was counted is in the channel, with a task or with a call that waits to send, and all are empty.
    have shut : s.isSealed = true := by rw [ord.isSealed,phase]; rfl
    have unsent := sending_of_rest rests shut
    have room := ord.emptied (by rw [phase]; rfl)
    have arrived : s.underway = 0 := by simp [exact_,counted,storing,room,none,settled,unsent]
    simp [apply,Session.shutDown,phase,arrived] at shutDown
  | flushing => simp [none,phase] at finals
  | stopped => exact .inr rfl

/-- A session that was told to end, or will be, goes on until the scheduler has stopped. -/
theorem stopped_of_rest {s : Session} (ord : Orderly s) (exact_ : s.underway = s.counted)
    (asked : s.stop = true ∨ ∃ c ∈ s.callers, c.isUrgent = true) (rests : ∀ m, s.Drives m → s.apply m = none) :
    s.scheduler = .stopped := by
  have told := told_of_rest rests asked
  rcases phase_of_rest ord exact_ rests with ⟨d,waits⟩ | stopped
  · have stuck := rests .heedStop rfl
    simp [apply,wake,waits,told] at stuck
  · exact stopped

/-! ### Sessions at rest -/

theorem still_of_rest {s : Session} (rests : s.Still) (m : Move) (drives : s.Drives m) : s.apply m = none :=
  rests m (isWork_of_drives drives).1 (isWork_of_drives drives).2

/-- No call that hands over a record is left where nothing goes further but the timer. -/
theorem over_of_rest {s : Session} (ord : Orderly s) (exact_ : s.underway = s.counted) (rests : s.Still) {k : Nat}
    {c : Caller} {r : Record} (at_k : s.callers[k]? = some c) (brings : c.Brings r) : c.isLive = false := by
  have stuck := step_of_stuck at_k (rests (.call k) rfl (by simp))
  cases c with
  | entering | counting => cases stuck
  | looking sent rest => cases rest <;> cases stuck
  | sending sent q rest =>
    rcases phase_of_rest ord exact_ (still_of_rest rests) with ⟨d,waits⟩ | stopped
    · have isOpen : s.isSealed = false := by rw [ord.isSealed,waits]; rfl
      have room : s.slot? = none := by
        cases full : s.slot? with
        | none => rfl
        | some r =>
          have receives := rests .receive rfl (by simp)
          simp [apply,wake,waits,full] at receives
      simp [step,isOpen,room] at stuck
    · have shut : s.isSealed = true := by rw [ord.isSealed,stopped]; rfl
      simp [step,shut] at stuck
  | accepted | refused => rfl
  | _ => exact brings.elim

/-- A call that closes the session has its answer where nothing goes further but the timer. -/
theorem closed_of_rest {s : Session} (ord : Orderly s) (exact_ : s.underway = s.counted)
    (asked : s.stop = true ∨ ∃ c ∈ s.callers, c.isUrgent = true) (rests : s.Still) {k : Nat} {c : Caller}
    (at_k : s.callers[k]? = some c) (closes : c.Closes) : (∃ log, c = .closed log) ∨ c = .abandoned [] := by
  have stopped := stopped_of_rest ord exact_ asked (still_of_rest rests)
  have stuck := step_of_stuck at_k (rests (.call k) rfl (by simp))
  cases c with
  | closing | stopping => cases stuck
  | awaiting => simp [step,stopped] at stuck
  | closed log => exact .inl ⟨log,rfl⟩
  | abandoned sent => exact .inr (by rw [show sent = [] from closes])
  | _ => exact closes.elim

/-- A session at rest has little left to do when all its calls are over. -/
theorem load_of_rest {s : Session} (ord : Orderly s) (exact_ : s.underway = s.counted) (rests : s.Still)
    (over_ : ∀ c ∈ s.callers, c.isLive = false) : s.load ≤ 31 := by
  have still := still_of_rest rests
  obtain ⟨idle,settled⟩ := tasks_of_rest still
  have free : s.flush? = none := by
    cases writes : s.flush? <;> simp [tasks,writes] at idle ⊢
  obtain ⟨spawned,queue⟩ : s.spawned = [] ∧ s.queue = [] := by simpa [tasks,free] using idle
  have callers : (s.callers.map Caller.load).sum = 0 := by
    refine List.sum_eq_zero_iff_forall_eq_nat.mpr fun n member => ?_
    obtain ⟨c,there,rfl⟩ := List.mem_map.mp member
    have quiet := over_ c there
    cases c <;> first | rfl | cases quiet
  have channel : s.slot?.toList.length ≤ 1 := by cases s.slot? <;> simp
  have waits : s.scheduler.load s.now s.deadline ≤ 16 := by
    rcases phase_of_rest ord exact_ still with ⟨d,waits⟩ | stopped
    · have late := lateness_le s.now d
      rw [waits,Phase.load]
      omega
    · simp [stopped,Phase.load]
  simp [load,tail,callers,settled,free,spawned,queue]
  omega

theorem urgent_of_advances {s t : Session} {c c' : Caller} (advances : Advances s t c c')
    (urgent : c.isUrgent = true) : t.stop = true ∨ c'.isUrgent = true := by
  cases advances with
  | turn turn => cases turn <;> cases urgent
  | @abandon c waits =>
    cases c with
    | closing | stopping => cases waits
    | _ => cases urgent
  | count | send | refuse => cases urgent
  | mark => exact .inr rfl
  | halt told => exact .inl told

theorem stop_stays {s t : Session} {m : Move} (told : s.stop = true) (step : Step s m t) : t.stop = true := by
  cases step with
  | acquire free next does => rw [(performs_around does).stop]; exact told
  | answer writes => rw [(resume_around _ _ _).stop]; exact told
  | halt | cancel => rfl
  | _ => exact told

/-- Where the timer rings, the scheduler may see as well that it is to end. -/
theorem heedStop_of_ring {s t : Session} (ord : Orderly s) (past : s.lastFlush ≤ s.now) (step : Step s .ring t)
    (told : s.stop = true) : ∃ u, s.apply .heedStop = some u ∧ u.load < s.load := by
  obtain ⟨d,waits,-⟩ := ring_step step
  have move : s.apply .heedStop = some { s with scheduler := .closing } := by simp [apply,wake,waits,told]
  exact ⟨_,move,load_of_work ord past (step_of_apply move) rfl⟩

section
variable {settings : Settings} {info : ImportInfo} {now : Nat} {stop : Bool} {moves : List Move} {s : Session}

/-- Once a user has closed the session, the scheduler has been told or will be. -/
theorem asked_of_run (run : (start settings info now stop).replay moves = some s) (asked : .close ∈ moves) :
    s.stop = true ∨ ∃ c ∈ s.callers, c.isUrgent = true := by
  refine replay_induction (P := fun moves s => .close ∈ moves → s.stop = true ∨ ∃ c ∈ s.callers, c.isUrgent = true)
    (by intro asked; cases asked) ?_ run asked
  intro moves s m t _ before move asked
  have step := step_of_apply move
  rcases List.mem_append.mp asked with early | new
  · rcases before early with told | ⟨c,member,urgent⟩
    · exact .inl (stop_stays told step)
    · obtain ⟨k,at_k⟩ := List.getElem?_of_mem member
      obtain ⟨c',there,rfl | advances⟩ := call_step step at_k
      · exact .inr ⟨_,List.mem_of_getElem? there,urgent⟩
      · exact (urgent_of_advances advances urgent).imp id fun still => ⟨_,List.mem_of_getElem? there,still⟩
  · obtain rfl : Move.close = m := by simpa using new
    rw [(opened_step step).2 .closing rfl]
    exact .inr ⟨.closing,by simp,rfl⟩

/-- A session that can go no further, and was told to end, has ended: its last flush is done and whoever
    closes it is answered, unless the call was given up. -/
theorem ended_of_rest (run : (start settings info now stop).replay moves = some s) (asked : .close ∈ moves)
    (kept : (start settings info now stop).lost moves = []) (rests : ∀ m, m.isWork = true → s.apply m = none) :
    s.scheduler = .stopped ∧ s.tasks = [] ∧ s.buffer = [] ∧
      ∀ k : Nat, (opened moves)[k]? = some .closing →
        s.callers[k]? = some (.closed s.errors) ∨ s.callers[k]? = some (.abandoned []) := by
  have exact_ : s.underway = s.counted := by rw [underway_eq run,kept]; rfl
  have still := still_of_rest fun m work _ => rests m work
  have stopped := stopped_of_rest (orderly run) exact_ (asked_of_run run asked) still
  refine ⟨stopped,(tasks_of_rest still).1,((orderly run).ended stopped).2,?_⟩
  intro k opens
  obtain ⟨c,at_k,closes⟩ := closes_of_run run opens
  have stuck := step_of_stuck at_k (rests (.call k) rfl)
  cases c with
  | closing | stopping => cases stuck
  | awaiting => simp [step,stopped] at stuck
  | closed log =>
    obtain ⟨-,rfl⟩ := log_of_closed run (List.mem_of_getElem? at_k)
    exact .inl at_k
  | abandoned sent =>
    obtain rfl : sent = [] := closes
    exact .inr at_k
  | _ => exact closes.elim

/-- A session that a user has closed comes to its end, if no call was given up while it waited to send. As
    long as the scheduler has not stopped, some step is possible that leaves less to do, and is taken by a
    task, the scheduler, the store or the queue, or by a call that waits to send or closes the session. Every
    step leaves less to do, unless the timer rings where the next time has come as well, and there the
    scheduler may as well see that it is to end, if it has been told: the session does not wait at all, or
    its longest wait leads beyond all times and what is waited for instead has come. So there are no more
    steps, while the clock stands still, than were left at first and the calls opened since have brought, and
    seven for each such ring; and there is none in a session that waits and whose next flush is due before all
    times, or where what is waited for instead has not come. And where no step is possible, the last flush is
    done and every call that closes the session has its answer. -/
theorem close_ends (run : (start settings info now stop).replay moves = some s) (asked : .close ∈ moves)
    (kept : (start settings info now stop).lost moves = []) :
    (s.scheduler ≠ .stopped → ∃ m t, s.Drives m ∧ s.apply m = some t ∧ t.load < s.load) ∧
      (∀ m t, m.isWork = true → s.apply m = some t →
        t.load < s.load ∨ (m = .ring ∧ t.deadline ≤ t.now ∧
          (settings.maxWait = 0 ∨ (timeLimit ≤ s.lastFlush + settings.maxWait ∧ s.lastFlush + farAhead ≤ s.now)) ∧
          (s.stop = true → ∃ u, s.apply .heedStop = some u ∧ u.load < s.load))) ∧
      (∀ later t, s.replay later = some t → (∀ nanos, .elapse nanos ∉ later) →
        later.countP Move.isWork + t.load ≤ s.load + ((opened later).map Caller.load).sum + 7 * s.spins later ∧
          (0 < settings.maxWait →
            s.lastFlush + settings.maxWait < timeLimit ∨ s.now < s.lastFlush + farAhead → s.spins later = 0)) ∧
      ∀ later t, s.replay later = some t → s.lost later = [] → (∀ m, m.isWork = true → t.apply m = none) →
        t.scheduler = .stopped ∧ t.tasks = [] ∧ t.buffer = [] ∧
          ∀ k : Nat, (opened (moves ++ later))[k]? = some .closing →
            t.callers[k]? = some (.closed t.errors) ∨ t.callers[k]? = some (.abandoned []) := by
  have ord := orderly run
  have past := lastFlush_le_of_run run
  refine ⟨?_,?_,?_,?_⟩
  · intro on
    by_contra none
    have exact_ : s.underway = s.counted := by rw [underway_eq run,kept]; rfl
    refine on (stopped_of_rest ord exact_ (asked_of_run run asked) ?_)
    intro m drives
    obtain ⟨work,other⟩ := isWork_of_drives drives
    cases move : s.apply m with
    | none => rfl
    | some t =>
      have less := load_of_work ord past (step_of_apply move) work
      rw [spin_of_ne other] at less
      exact absurd ⟨m,t,drives,move,less⟩ none
  · intro m t work move
    have step := step_of_apply move
    rcases less_or_rings ord past step work with less | ⟨rfl,again,why⟩
    · exact .inl less
    · rw [settings_of_run run] at why
      exact .inr ⟨rfl,again,why,heedStop_of_ring ord past step⟩
  · intro later t on held
    exact ⟨load_run run on held,unspun_of_run run on held⟩
  · intro later t on stays rests
    refine ended_of_rest (replay_trans run on) (List.mem_append_left _ asked) ?_ rests
    rw [lost,gather_append _ run,← lost,← lost,kept,stays]
    rfl

/-- The user closes the session of `closingRun` while a record is in the channel. -/
theorem close_ends_closing :
    ∃ s t, eager.replay (closingRun.take 19) = some s ∧ s.replay (closingRun.drop 19) = some t ∧
      (∃ m u, s.Drives m ∧ s.apply m = some u ∧ u.load < s.load) ∧
      (closingRun.drop 19).countP Move.isWork + t.load ≤ s.load ∧
      t.scheduler = .stopped ∧ t.tasks = [] ∧ t.buffer = [] ∧ t.callers[1]? = some (.closed t.errors) := by
  have runs : ((eager.replay (closingRun.take 19)).bind fun s => (s.replay (closingRun.drop 19)).map fun t =>
      ((s.scheduler,s.now,s.lost (closingRun.drop 19)),
        t.scheduler,t.spawned,t.queue,t.flush?,t.settling,t.callers)) =
      some ((.waiting nanosPerMilli,0,[]),.stopped,[],[],none,0,
        [.accepted [.bare "dht" 1,.bare "dht" 2],.closed ⟨[⟨[.bare "dht" 2],.importClosed⟩]⟩]) := rfl
  obtain ⟨s,run,runs⟩ := Option.bind_eq_some_iff.mp runs
  obtain ⟨t,on,ends⟩ := Option.map_eq_some_iff.mp runs
  simp only [Prod.mk.injEq] at ends
  obtain ⟨⟨waits,now,kept⟩,stopped,spawned,queue,free,settled,callers⟩ := ends
  have asked : .close ∈ closingRun.take 19 := List.mem_of_getElem? (i := 18) rfl
  have held (nanos : Nat) : .elapse nanos ∉ closingRun.drop 19 := by simp [closingRun]
  have rests (m : Move) (work : m.isWork = true) : t.apply m = none := by
    cases m with
    | call k => rcases k with _ | _ | k <;> simp [apply,callers,step]
    | ingest | drain | close | abandon | cancel | orphan | elapse => cases work
    | _ => simp [apply,wake,shutDown,stopped,spawned,queue,free,settled]
  obtain ⟨drives,-,bound,last⟩ := close_ends run asked rfl
  obtain ⟨few,unspun⟩ := bound _ t on held
  obtain ⟨-,none,empty,answers⟩ := last _ t on kept rests
  refine ⟨s,t,run,on,drives (by simp [waits]),?_,stopped,none,empty,?_⟩
  · have unopened : opened (closingRun.drop 19) = [] := rfl
    rw [unopened,unspun (by decide) (.inr (by simp [now,farAhead]))] at few
    exact few
  · refine (answers 1 rfl).resolve_right ?_
    simp [callers]

/-! ### A wait beyond all times -/

/-- A session with the longest wait that can be set. -/
def unbounded : Session := start (paired.settings.setMaxWait longest) ⟨"nightly"⟩ 0 false

/-- The scheduler of `unbounded` when the time has come that it waits for instead. -/
def idled : Session := { unbounded with now := farAhead, scheduler := .waiting farAhead }

/-- Then a user has closed the session, and the scheduler is told. -/
def idledClosing : Session := { idled with closed := true, stop := true, callers := [.awaiting] }

theorem unbounded_closing : unbounded.replay [.arm,.elapse farAhead,.close,.call 0,.call 0] = some idledClosing := rfl

/-- Nothing becomes less with every step of a session that a user has closed: in `idledClosing` the timer may ring,
    although the scheduler has been told, and the next time that is set brings the session back to where it was. -/
theorem close_spins :
    ¬ ∀ (settings : Settings) (info : ImportInfo) (now : Nat) (stop : Bool) (moves : List Move) (s : Session),
      (start settings info now stop).replay moves = some s → .close ∈ moves →
        (start settings info now stop).lost moves = [] → s.scheduler ≠ .stopped →
          ∃ less : Session → Session → Prop, WellFounded less ∧
            ∀ later t u m, s.replay later = some t → (∀ nanos, .elapse nanos ∉ later) → m.isWork = true →
              t.apply m = some u → less u t := by
  intro all
  obtain ⟨less,founded,decreases⟩ := all _ _ _ _ _ _ unbounded_closing (by simp) rfl (by simp [idledClosing,idled])
  have rings : less { idledClosing with scheduler := .arming } idledClosing :=
    decreases [] _ _ .ring rfl (by simp) rfl rfl
  have arms : less idledClosing { idledClosing with scheduler := .arming } :=
    decreases [.ring] _ _ .arm rfl (by simp) rfl rfl
  exact founded.asymmetric _ _ rings arms

end

end Session

end Intake
