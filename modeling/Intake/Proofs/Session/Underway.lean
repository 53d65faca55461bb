import Intake.Proofs.Session.Tasks

/-!
The count of records underway. It is raised before a record is sent and lowered in
three other places; at every moment it is the number of records in the channel and
with tasks that are not done, of callers that wait to send, and of the callers that
were given up while they did (`underway_eq`). Nothing ever takes the last of these
off again, so that one such caller keeps all who wait for the count waiting for ever
(`waits_for_ever_of_lost`).
-/
namespace Intake

/-- The record that a call has counted and not sent. -/
def Caller.unsent : Caller → List Record
  | .sending _ r _ => [r]
  | _ => []

namespace Session

/-- How many records callers wait to send. -/
def sending (s : Session) : Nat := (s.callers.flatMap Caller.unsent).length

/-- How many records are somewhere between a caller and the buffer. -/
def counted (s : Session) : Nat := s.slot?.toList.length + s.storing + s.sending

/-- The record that a caller was about to send when it was given up. -/
def lostAt (s : Session) : Move → List Record
  | .abandon k => s.callers[k]?.elim [] Caller.unsent
  | _ => []

/-- The records whose callers were given up while they waited to send them. -/
def lost (s : Session) (moves : List Move) : List Record := s.gather (fun s m _ => s.lostAt m) moves

theorem sending_set {s : Session} {k : Nat} {c : Caller} (at_k : s.callers[k]? = some c) (c' : Caller) :
    ((s.callers.set k c').flatMap Caller.unsent).length + c.unsent.length = s.sending + c'.unsent.length := by
  have moved := (flatMap_set at_k c' Caller.unsent).length_eq
  simpa only [sending,List.length_append] using moved

theorem unsent_of_turn {s : Session} {c c' : Caller} (turn : Turn s c c') : c.unsent = [] ∧ c'.unsent = [] := by
  cases turn <;> exact ⟨rfl,rfl⟩

theorem lostAt_of_opens {s : Session} {m : Move} {c : Caller} (opens : m.caller? = some c) :
    s.lostAt m = [] ∧ c.unsent = [] := by
  rcases Move.of_caller? opens with ⟨records,rfl,rfl⟩ | ⟨rfl,rfl⟩ | ⟨rfl,rfl⟩ <;> exact ⟨rfl,rfl⟩

/-- One move keeps the count exact, up to a record that it loses. -/
theorem underway_step {s t : Session} {m : Move} {n : Nat} (step : Step s m t)
    (exact_ : s.underway = s.counted + n) : t.underway = t.counted + n + (s.lostAt m).length := by
  cases step with
  | enter opens attended =>
    obtain ⟨none,quiet⟩ := lostAt_of_opens (s := s) opens
    simpa [counted,storing,tasks,sending,none,quiet] using exact_
  | @abandon k c at_k waits =>
    have moved := sending_set at_k (.abandoned c.sent)
    simp only [counted,storing,tasks,lostAt,at_k,Option.elim_some,Caller.unsent,sending] at *
    simp only [List.length_nil] at moved
    omega
  | @turn k c c' at_k turn =>
    obtain ⟨before,after⟩ := unsent_of_turn turn
    have moved := sending_set at_k c'
    simp only [counted,storing,tasks,lostAt,before,after,sending,List.length_nil] at *
    omega
  | @count k sent rest r at_k =>
    have moved := sending_set at_k (.sending sent r rest)
    simp only [counted,storing,tasks,lostAt,Caller.unsent,sending,List.length_nil,List.length_singleton] at *
    omega
  | @send k sent rest r at_k isOpen room =>
    have moved := sending_set at_k (.looking (sent ++ [r]) rest)
    simp only [counted,storing,tasks,lostAt,Caller.unsent,sending,room,Option.toList_some,Option.toList_none,
      List.length_nil,List.length_singleton] at *
    omega
  | @refuse k sent rest r at_k isOver =>
    have moved := sending_set at_k (.refused sent)
    simp only [counted,storing,tasks,lostAt,Caller.unsent,sending,List.length_nil,List.length_singleton] at *
    omega
  | @mark k at_k =>
    have moved := sending_set at_k .stopping
    simp only [counted,storing,tasks,lostAt,Caller.unsent,sending,List.length_nil] at *
    omega
  | @halt k at_k =>
    have moved := sending_set at_k .awaiting
    simp only [counted,storing,tasks,lostAt,Caller.unsent,sending,List.length_nil] at *
    omega
  | receive waits full =>
    simp [counted,storing,tasks,sending,lostAt,full,Task.records] at exact_ ⊢
    omega
  | ring | last => simpa [counted,storing,tasks,sending,lostAt,Task.records] using exact_
  | drain draining full =>
    simp [counted,storing,tasks,sending,lostAt,full,Task.records] at exact_ ⊢
    omega
  | @start i t at_i =>
    have moved := ((tasks_start at_i).flatMap_right Task.records).length_eq
    simp only [counted,storing,lostAt,moved] at exact_ ⊢
    exact exact_
  | acquire free next does =>
    have held := storing_of_lock (performs_ends_or_lasts free next does)
    have around := performs_around does
    simpa [counted,sending,lostAt,held,around.underway,around.slot?,around.callers] using exact_
  | @answer f result writes =>
    have held := storing_of_lock (resume_ends_or_lasts writes result)
    have around := resume_around s f result
    simpa [counted,sending,lostAt,held,around.underway,around.slot?,around.callers] using exact_
  | settle some_ =>
    simp [counted,storing,tasks,sending,lostAt] at exact_ ⊢
    omega
  | _ => simpa [counted,storing,tasks,sending,lostAt] using exact_

/-- After every run the count is what is between the callers and the buffer, and what was lost on the way. -/
theorem underway_eq {settings : Settings} {info : ImportInfo} {now : Nat} {stop : Bool} {moves : List Move}
    {s : Session} (run : (start settings info now stop).replay moves = some s) :
    s.underway = s.counted + ((start settings info now stop).lost moves).length := by
  refine replay_induction (P := fun moves s =>
    s.underway = s.counted + ((start settings info now stop).lost moves).length) rfl ?_ run
  intro moves s m t before exact_ move
  have after := underway_step (step_of_apply move) exact_
  rw [lost,gather_snoc _ before move,List.length_append,after,Nat.add_assoc]
  rfl

theorem lost_of_kept (s : Session) {moves : List Move} (kept : ∀ k, .abandon k ∉ moves) : s.lost moves = [] := by
  induction moves generalizing s with
  | nil => rfl
  | cons m rest ih =>
    have here : s.lostAt m = [] := by
      cases m with
      | abandon k => exact absurd List.mem_cons_self (kept k)
      | _ => rfl
    rw [lost,gather]
    cases s.apply m with
    | none => rfl
    | some t =>
      have later : t.lost rest = [] := ih t fun k member => kept k (List.mem_cons_of_mem _ member)
      simp only [here,List.nil_append]
      exact later

/-- Where no call is given up, the count is what is between the callers and the buffer. -/
theorem counted_of_kept {settings : Settings} {info : ImportInfo} {now : Nat} {stop : Bool} {moves : List Move}
    {s : Session} (run : (start settings info now stop).replay moves = some s) (kept : ∀ k, .abandon k ∉ moves) :
    s.underway = s.counted := by
  rw [underway_eq run,lost_of_kept _ kept]
  rfl

end Session

end Intake
