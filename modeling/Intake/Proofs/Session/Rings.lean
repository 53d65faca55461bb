import Intake.Proofs.Session.Timer

/-!
The timer of a session that waits at all does not go round in vain. When the time has
come that the scheduler waits for, either a flush is due, or another has begun since
that time was set and the next time is still to come (`ring_cases`, `lt_deadline_iff`);
so while the clock stands still the timer rings once at most (`rings_once`). One case is
excepted: where the longest wait leads beyond all times, the scheduler waits for a time
at which no flush is due, and once it has come the timer may ring for ever
(`rings_for_ever`).
-/
namespace Intake

def Move.isRing : Move → Bool
  | .ring => true
  | _ => false

namespace Session

variable {s t : Session} {m : Move}

/-- Whatever the scheduler waits for or will, it is still to come. -/
def Ahead (s : Session) : Prop := s.now < s.deadline ∧ ∀ d, s.scheduler = .waiting d → s.now < d

/-- When its time has come, the scheduler begins a flush that is due, or looks when the next one is. -/
theorem ring_cases (waits : 0 < s.settings.maxWait) (step : Step s .ring t) :
    (s.isDue = true ∧ t.lastFlush = s.now ∧ s.now < t.deadline) ∨
      (s.isDue = false ∧ t.lastFlush = s.lastFlush ∧ t.deadline = s.deadline) := by
  obtain ⟨-,-,-,-,next,flushed,-⟩ := ring_step step
  rw [next,flushed]
  by_cases due : s.isDue = true
  · rw [rung,if_pos due]
    exact .inl ⟨due,rfl,deadline_gt (s := { s with lastFlush := s.now }) waits rfl⟩
  · rw [rung,if_neg due]
    exact .inr ⟨by simpa using due,rfl,rfl⟩

/-- No time is set that cannot be told from others, as long as what is waited for where the longest wait leads
    beyond all times does not. -/
theorem deadline_lt (past : s.lastFlush ≤ s.now) (inTime : s.now + farAhead < timeLimit) : s.deadline < timeLimit := by
  unfold deadline
  split <;> omega

/-- While the clock stands still, what is ahead stays ahead. -/
theorem ahead_step (ord : Orderly s) (waits : 0 < s.settings.maxWait) (step : Step s m t) (still : t.now = s.now)
    (ahead : Ahead s) : Ahead t := by
  obtain ⟨settings,-,-,flushed⟩ := time_step step
  constructor
  · rcases flushed with same | fresh
    · have next : t.deadline = s.deadline := by unfold deadline; rw [same,settings]
      rw [still,next]
      exact ahead.1
    · exact deadline_gt (settings ▸ waits) (fresh.trans still.symm)
  · intro d phase
    rw [still]
    rcases waiting_step ord step phase with before | ⟨-,-,rfl⟩
    · exact ahead.2 d before
    · exact ahead.1

/-- The timer rings only for a time that has come. -/
theorem not_ahead_of_ring (step : Step s .ring t) : ¬ Ahead s := by
  intro ahead
  obtain ⟨d,waits,late,-⟩ := ring_step step
  exact absurd (ahead.2 d waits) (Nat.not_lt.mpr late)

/-- After the timer has rung, all that is waited for is still to come, unless the next time has come as well. -/
theorem ahead_of_ring (step : Step s .ring t) (unspun : s.spin .ring = 0) : Ahead t := by
  obtain ⟨-,-,-,clock,next,-,arming⟩ := ring_step step
  refine ⟨?_,by simp [arming]⟩
  rw [clock,next]
  by_contra late
  simp [spin,Nat.le_of_not_lt late] at unspun

section
variable {settings : Settings} {info : ImportInfo} {now : Nat} {stop : Bool} {moves later : List Move}

/-- While the clock stands still the timer rings once, and again only where the next time has come as well. -/
theorem rings_le (run : (start settings info now stop).replay moves = some s) (waits : 0 < settings.maxWait)
    (on : s.replay later = some t) (held : ∀ nanos, .elapse nanos ∉ later) : later.countP Move.isRing ≤ 1 + s.spins later := by
  have counted : later.countP Move.isRing ≤ s.spins later ∨
      (later.countP Move.isRing ≤ 1 + s.spins later ∧ Ahead t) := by
    refine held_induction (P := fun later t => later.countP Move.isRing ≤ s.spins later ∨
      (later.countP Move.isRing ≤ 1 + s.spins later ∧ Ahead t)) (.inl (Nat.zero_le _)) ?_ on held
    intro later u m v reached before still move
    have step := step_of_apply move
    rw [List.countP_append,List.countP_singleton,spins_snoc reached move]
    by_cases rings : m.isRing = true
    · obtain rfl : m = .ring := by cases m <;> first | rfl | cases rings
      simp only [rings,if_true]
      rcases before with few | ⟨-,ahead⟩
      · rcases u.spin_cases .ring with unspun | spun
        · exact .inr ⟨by omega,ahead_of_ring step unspun⟩
        · exact .inl (by omega)
      · exact absurd ahead (not_ahead_of_ring step)
    · simp only [rings]
      rcases before with few | ⟨few,ahead⟩
      · exact .inl (by simp; omega)
      · have before := replay_trans run reached
        have waits' : 0 < u.settings.maxWait := by rw [settings_of_run before]; exact waits
        exact .inr ⟨by simp; omega,ahead_step (orderly before) waits' step ((time_step step).2.2.1 still) ahead⟩
  rcases counted with few | ⟨few,-⟩
  · omega
  · exact few

/-- When the timer of a session that waits at all rings, a flush is due and begins, or none is and the next time
    is set: it is still to come as long as the next flush is due before all times, or, where it is not, as long as what is waited for instead
    has not come. While the clock stands still there, the timer rings once at most, whatever else goes on. And
    no time is set beyond all times. -/
theorem rings_once (run : (start settings info now stop).replay moves = some s) (waits : 0 < settings.maxWait) :
    (∀ t, s.apply .ring = some t →
      (s.isDue = true ∧ t.lastFlush = s.now ∧ s.now < t.deadline) ∨
        (s.isDue = false ∧ t.lastFlush = s.lastFlush ∧ (s.now < t.deadline ↔
          s.lastFlush + settings.maxWait < timeLimit ∨ s.now < s.lastFlush + farAhead))) ∧
      (s.lastFlush + settings.maxWait < timeLimit ∨ s.now < s.lastFlush + farAhead →
        ∀ later t, s.replay later = some t → (∀ nanos, .elapse nanos ∉ later) → later.countP Move.isRing ≤ 1) ∧
      (s.now + farAhead < timeLimit → s.deadline < timeLimit) := by
  refine ⟨?_,?_,deadline_lt (lastFlush_le_of_run run)⟩
  · intro t move
    rcases ring_cases (by rw [settings_of_run run]; exact waits) (step_of_apply move) with due | ⟨early,flushed,same⟩
    · exact .inl due
    · right
      rw [same,lt_deadline_iff early,settings_of_run run]
      exact ⟨early,flushed,Iff.rfl⟩
  · intro soon later t on held
    have few := rings_le run waits on held
    rw [unspun_of_run run on held waits soon] at few
    exact few

/-- The scheduler of `paired` waits, and its time comes. -/
theorem rings_once_paired :
    ∃ s, paired.replay [.arm,.elapse nanosPerMilli] = some s ∧
      (∃ t, s.apply .ring = some t ∧ t.lastFlush = s.now ∧ s.now < t.deadline) ∧
      ∀ later t, s.replay later = some t → (∀ nanos, .elapse nanos ∉ later) → later.countP Move.isRing ≤ 1 := by
  have ends : (paired.replay [.arm,.elapse nanosPerMilli]).map
      (fun s => (s.scheduler,s.now,s.lastFlush,s.settings.maxWait)) =
    some (.waiting nanosPerMilli,nanosPerMilli,0,nanosPerMilli) := rfl
  obtain ⟨s,run,ends⟩ := Option.map_eq_some_iff.mp ends
  simp only [Prod.mk.injEq] at ends
  obtain ⟨waits,now,flushed,wait⟩ := ends
  have due : s.isDue = true := by simp [isDue,now,flushed,wait]
  obtain ⟨t,move⟩ : ∃ t, s.apply .ring = some t := by simp [apply,wake,waits,now,due]
  obtain ⟨each,once,-⟩ := rings_once run (by decide)
  refine ⟨s,run,⟨t,move,?_⟩,once (.inl (by rw [flushed]; decide))⟩
  rcases each t move with ⟨-,next⟩ | ⟨early,-⟩
  · exact next
  · rw [due] at early
    cases early

/-! ### A wait beyond all times -/

theorem unbounded_replay : unbounded.replay [.arm,.elapse farAhead] = some idled := rfl

theorem idled_ring : idled.apply .ring = some { idled with scheduler := .arming } := rfl

/-- With the longest wait, what the scheduler waits for instead comes and the timer rings in vain: no flush begins,
    the next time is not still to come, and the timer may ring any number of times while the clock stands still. -/
theorem rings_for_ever :
    (¬ ∀ (settings : Settings) (info : ImportInfo) (now : Nat) (stop : Bool) (moves : List Move) (s t : Session),
      (start settings info now stop).replay moves = some s → s.apply .ring = some t →
        (s.isDue = true ∧ t.lastFlush = s.now) ∨ s.now < t.deadline) ∧
      ∃ s, unbounded.replay [.arm,.elapse farAhead] = some s ∧
        ∀ n, ∃ later, s.replay later = some s ∧ (∀ nanos, .elapse nanos ∉ later) ∧ later.countP Move.isRing = n := by
  constructor
  · intro all
    rcases all _ _ _ _ _ _ _ unbounded_replay idled_ring with ⟨due,-⟩ | later
    · exact absurd due (by decide)
    · exact absurd later (by decide)
  refine ⟨idled,unbounded_replay,?_⟩
  have round : idled.replay [.ring,.arm] = some idled := rfl
  intro n
  induction n with
  | zero => exact ⟨[],rfl,by simp,rfl⟩
  | succ n ih =>
    obtain ⟨later,on,held,count⟩ := ih
    refine ⟨later ++ [.ring,.arm],replay_trans on round,by simpa using held,?_⟩
    rw [List.countP_append,count]
    rfl

end

end Session

end Intake
