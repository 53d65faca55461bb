import Intake.Proofs.Session.Step

/-!
The calls of a session's users. A call keeps its place among the callers; a move
opens one call at most (`opened_step`) and takes others on by one step (`Advances`,
`call_step`). What such a step keeps of a call holds of the call from its opening on
(`opened_of_run`). A move that no user makes takes on one call at most, and none that
has come to its end (`inner_step`).
-/
namespace Intake

/-- The move is not made by a user of the session. -/
def Move.isInner : Move → Bool
  | .ingest _ => false
  | .drain => false
  | .close => false
  | .abandon _ => false
  | .orphan => false
  | _ => true

/-- How far a call has come that hands over one record. -/
def Caller.Brings (r : Record) : Caller → Prop
  | .entering records => records = [r]
  | .looking sent rest => sent ++ rest = [r]
  | .counting sent q rest => sent = [] ∧ q = r ∧ rest = []
  | .sending sent q rest => sent = [] ∧ q = r ∧ rest = []
  | .accepted sent => sent = [r]
  | .refused sent => sent = []
  | _ => False

namespace Session

/-- What a move from `s` to `t` can do to a call. -/
inductive Advances (s t : Session) : Caller → Caller → Prop where
  | turn {c c' : Caller} (turn : Turn s c c') : Advances s t c c'
  | abandon {c : Caller} (waits : c.isWaiting = true) : Advances s t c (.abandoned c.sent)
  | count {sent rest : List Record} {r : Record} : Advances s t (.counting sent r rest) (.sending sent r rest)
  | send {sent rest : List Record} {r : Record} (isOpen : s.isSealed = false) :
      Advances s t (.sending sent r rest) (.looking (sent ++ [r]) rest)
  | refuse {sent rest : List Record} {r : Record} (isOver : s.isSealed = true) :
      Advances s t (.sending sent r rest) (.refused sent)
  | mark (closed : t.closed = true) : Advances s t .closing .stopping
  | halt (told : t.stop = true) : Advances s t .stopping .awaiting

variable {s t : Session} {m : Move}

theorem call_set {j k : Nat} {c d d' : Caller} (at_j : s.callers[j]? = some d)
    (callers : t.callers = s.callers.set j d') (advances : Advances s t d d') (at_k : s.callers[k]? = some c) :
    ∃ c', t.callers[k]? = some c' ∧ (c' = c ∨ Advances s t c c') := by
  rw [callers]
  by_cases same : j = k
  · subst same
    obtain rfl : d = c := by simpa [at_j] using at_k
    have inside : j < s.callers.length := (List.getElem?_eq_some_iff.mp at_j).1
    exact ⟨d',List.getElem?_set_self inside,.inr advances⟩
  · exact ⟨c,by rw [List.getElem?_set_ne same,at_k],.inl rfl⟩

theorem call_same {k : Nat} {c : Caller} (callers : t.callers = s.callers) (at_k : s.callers[k]? = some c) :
    ∃ c', t.callers[k]? = some c' ∧ (c' = c ∨ Advances s t c c') :=
  ⟨c,by rw [callers,at_k],.inl rfl⟩

/-- A move leaves a call as it is or takes it on by a step. -/
theorem call_step {k : Nat} {c : Caller} (step : Step s m t) (at_k : s.callers[k]? = some c) :
    ∃ c', t.callers[k]? = some c' ∧ (c' = c ∨ Advances s t c c') := by
  cases step with
  | enter opens attended =>
    have inside : k < s.callers.length := (List.getElem?_eq_some_iff.mp at_k).1
    exact ⟨c,by rw [List.getElem?_append_left inside,at_k],.inl rfl⟩
  | abandon at_j waits => exact call_set at_j rfl (.abandon waits) at_k
  | turn at_j turn => exact call_set at_j rfl (.turn turn) at_k
  | count at_j => exact call_set at_j rfl .count at_k
  | send at_j isOpen room => exact call_set at_j rfl (.send isOpen) at_k
  | refuse at_j isOver => exact call_set at_j rfl (.refuse isOver) at_k
  | mark at_j => exact call_set at_j rfl (.mark rfl) at_k
  | halt at_j => exact call_set at_j rfl (.halt rfl) at_k
  | acquire free next does => exact call_same (performs_around does).callers at_k
  | answer writes => exact call_same (resume_around _ _ _).callers at_k
  | _ => exact call_same rfl at_k

theorem opened_step (step : Step s m t) :
    t.callers.length = s.callers.length + m.caller?.toList.length ∧
      ∀ c, m.caller? = some c → t.callers = s.callers ++ [c] := by
  cases step with
  | enter opens attended =>
    rw [opens]
    refine ⟨by simp,?_⟩
    intro c same
    cases same
    rfl
  | acquire free next does =>
    have around := performs_around does
    exact ⟨by simp [around.callers,Move.caller?],by intro c opens; cases opens⟩
  | @answer f result writes =>
    have around := resume_around s f result
    exact ⟨by simp [around.callers,Move.caller?],by intro c opens; cases opens⟩
  | _ => exact ⟨by simp [Move.caller?],by intro c opens; cases opens⟩

theorem opened_snoc (moves : List Move) (m : Move) : opened (moves ++ [m]) = opened moves ++ m.caller?.toList := by
  cases opens : m.caller? <;> simp [opened,opens]

/-- What every step of a call keeps, in the states that a run goes through, holds of the calls that the run
    opens, each in its place, as it held when they were opened. -/
theorem opened_of_run {I : Session → Prop} {P : Caller → Prop} (inv : ∀ {u m v}, I u → Step u m v → I v)
    (keeps : ∀ {u v c c'}, I u → Advances u v c c' → P c → P c') {later : List Move} (holds : I s)
    (on : s.replay later = some t) :
    I t ∧ t.callers.length = s.callers.length + (opened later).length ∧
      ∀ k c, (opened later)[k]? = some c → P c → ∃ c', t.callers[s.callers.length + k]? = some c' ∧ P c' := by
  refine replay_induction (P := fun later t => I t ∧ t.callers.length = s.callers.length + (opened later).length ∧
    ∀ k c, (opened later)[k]? = some c → P c → ∃ c', t.callers[s.callers.length + k]? = some c' ∧ P c') ?_ ?_ on
  · exact ⟨holds,rfl,by intro k c at_k; cases at_k⟩
  intro later u m v _ before move
  obtain ⟨now,length,follows⟩ := before
  have step := step_of_apply move
  obtain ⟨longer,last⟩ := opened_step step
  rw [opened_snoc]
  refine ⟨inv now step,by rw [longer,length,List.length_append,Nat.add_assoc],?_⟩
  intro k c at_k start
  by_cases old : k < (opened later).length
  · rw [List.getElem?_append_left old] at at_k
    obtain ⟨d,here,held⟩ := follows k c at_k start
    obtain ⟨d',there,rfl | advances⟩ := call_step step here
    · exact ⟨d',there,held⟩
    · exact ⟨d',there,keeps now advances held⟩
  · rw [List.getElem?_append_right (by omega)] at at_k
    cases opens : m.caller? with
    | none => simp [opens] at at_k
    | some d =>
      obtain ⟨here,rfl⟩ : k - (opened later).length = 0 ∧ d = c := by
        simpa [opens,List.getElem?_singleton] using at_k
      have place : s.callers.length + k - u.callers.length = 0 := by omega
      refine ⟨d,?_,start⟩
      rw [last _ opens,List.getElem?_append_right (by omega),place]
      rfl

/-- A session has users until the last is gone. -/
theorem orphaned_step (step : Step s m t) (stays : m ≠ .orphan) : t.orphaned = s.orphaned := by
  cases step with
  | orphan => exact absurd rfl stays
  | acquire free next does => exact (performs_around does).orphaned
  | answer writes => exact (resume_around _ _ _).orphaned
  | _ => rfl

theorem attended_of_run {settings : Settings} {info : ImportInfo} {now : Nat} {stop : Bool} {moves : List Move}
    (run : (start settings info now stop).replay moves = some s) (stays : .orphan ∉ moves) : s.orphaned = false := by
  refine replay_induction (P := fun moves s => .orphan ∉ moves → s.orphaned = false) (fun _ => rfl) ?_ run stays
  intro moves s m t _ before move stays
  rw [orphaned_step (step_of_apply move) ?_]
  · exact before fun member => stays (List.mem_append_left _ member)
  · rintro rfl
    exact stays (by simp)

/-! ### Moves that no user makes -/

theorem isLive_of_advances {c c' : Caller} (advances : Advances s t c c') : c.isLive = true := by
  cases advances with
  | turn turn => cases turn <;> rfl
  | @abandon c waits => cases c <;> first | rfl | cases waits
  | _ => rfl

theorem inner_step (step : Step s m t) (inner : m.isInner = true) :
    t.callers = s.callers ∨ ∃ k c c', s.callers[k]? = some c ∧ Advances s t c c' ∧
      (∀ sent, c' ≠ .abandoned sent) ∧ t.callers = s.callers.set k c' := by
  cases step with
  | enter opens => rcases Move.of_caller? opens with ⟨_,rfl,-⟩ | ⟨rfl,-⟩ | ⟨rfl,-⟩ <;> cases inner
  | abandon | orphan => cases inner
  | turn at_k turn =>
    refine .inr ⟨_,_,_,at_k,.turn turn,?_,rfl⟩
    rintro sent rfl
    cases turn
  | count at_k => exact .inr ⟨_,_,_,at_k,.count,fun _ => by simp,rfl⟩
  | send at_k isOpen => exact .inr ⟨_,_,_,at_k,.send isOpen,fun _ => by simp,rfl⟩
  | refuse at_k isOver => exact .inr ⟨_,_,_,at_k,.refuse isOver,fun _ => by simp,rfl⟩
  | mark at_k => exact .inr ⟨_,_,_,at_k,.mark rfl,fun _ => by simp,rfl⟩
  | halt at_k => exact .inr ⟨_,_,_,at_k,.halt rfl,fun _ => by simp,rfl⟩
  | acquire free next does => exact .inl (performs_around does).callers
  | answer writes => exact .inl (resume_around _ _ _).callers
  | _ => exact .inl rfl

theorem inner_of_over (step : Step s m t) (inner : m.isInner = true) (over_ : ∀ c ∈ s.callers, c.isLive = false) :
    t.callers = s.callers := by
  rcases inner_step step inner with same | ⟨k,c,c',at_k,advances,-,-⟩
  · exact same
  · have live := isLive_of_advances advances
    rw [over_ c (List.mem_of_getElem? at_k)] at live
    cases live

/-- Where only the last call has not come to its end, only this one is taken on. -/
theorem inner_of_last {done : List Caller} {c : Caller} (step : Step s m t) (inner : m.isInner = true)
    (callers : s.callers = done ++ [c]) (over_ : ∀ d ∈ done, d.isLive = false) :
    ∃ c', t.callers = done ++ [c'] ∧ (c' = c ∨ (Advances s t c c' ∧ ∀ sent, c' ≠ .abandoned sent)) := by
  rcases inner_step step inner with same | ⟨k,d,c',at_k,advances,kept,set⟩
  · exact ⟨c,same.trans callers,.inl rfl⟩
  rw [callers] at at_k set
  by_cases early : k < done.length
  · rw [List.getElem?_append_left early] at at_k
    have live := isLive_of_advances advances
    rw [over_ d (List.mem_of_getElem? at_k)] at live
    cases live
  · rw [List.getElem?_append_right (by omega)] at at_k
    obtain ⟨last,rfl⟩ : k - done.length = 0 ∧ c = d := by simpa [List.getElem?_singleton] using at_k
    obtain rfl : k = done.length := by omega
    refine ⟨c',?_,.inr ⟨advances,kept⟩⟩
    rw [set,List.set_append_right _ _ (Nat.le_refl _),Nat.sub_self]
    rfl

theorem brings_of_advances {c c' : Caller} {r : Record} (advances : Advances s t c c')
    (kept : ∀ sent, c' ≠ .abandoned sent) (brings : c.Brings r) : c'.Brings r := by
  cases advances with
  | turn turn =>
    cases turn with
    | enter taking => exact brings
    | turnAway shut => rfl
    | @accept sent =>
      have whole : sent ++ [] = [r] := brings
      rwa [List.append_nil] at whole
    | @look sent rest q taking =>
      have whole : sent ++ q :: rest = [r] := brings
      rcases sent with _ | ⟨p,sent⟩
      · obtain ⟨rfl,rfl⟩ : q = r ∧ rest = [] := by simpa using whole
        exact ⟨rfl,rfl,rfl⟩
      · simp at whole
    | @refuse sent rest q shut =>
      have whole : sent ++ q :: rest = [r] := brings
      rcases sent with _ | ⟨p,sent⟩
      · rfl
      · simp at whole
    | drained => exact brings.elim
    | close => exact brings.elim
  | abandon => exact absurd rfl (kept _)
  | count => exact brings
  | send =>
    obtain ⟨rfl,rfl,rfl⟩ := brings
    rfl
  | refuse => exact brings.1
  | mark | halt => exact brings.elim

end Session

end Intake
