import Intake.Proofs.Session.Conservation
import Intake.Proofs.Writer.Sources

/-!
Sessions in which nothing goes wrong. A session that nobody has told to end takes every
record (`takes_step`); and it has no failures as long as its calls succeed and its
records are valid (`errors_of_run`).
-/
namespace Intake

/-- The move neither ends the session nor gives up a call, nor waits for it to be idle. -/
def Move.isCalm : Move → Bool
  | .drain => false
  | .close => false
  | .abandon _ => false
  | .cancel => false
  | .orphan => false
  | _ => true

/-- The scheduler has not seen that it is to end. -/
def Phase.goesOn : Phase → Bool
  | .arming => true
  | .waiting _ => true
  | _ => false

/-- The call hands over records and has not been refused one. -/
def Caller.isServed : Caller → Bool
  | .entering _ => true
  | .looking _ _ => true
  | .counting _ _ _ => true
  | .sending _ _ _ => true
  | .accepted _ => true
  | _ => false

namespace Session

/-- The session takes every record. -/
structure Takes (s : Session) : Prop where
  closed : s.closed = false
  stop : s.stop = false
  attended : s.orphaned = false
  goesOn : s.scheduler.goesOn = true
  served : ∀ c ∈ s.callers, c.isServed = true

variable {s t : Session} {m : Move}

theorem Takes.isOpen (takes : Takes s) (ord : Orderly s) : s.isSealed = false := by
  have going := takes.goesOn
  rw [ord.isSealed]
  cases phase : s.scheduler <;> first | rfl | simp [phase,Phase.goesOn] at going

/-- A call has come one step further, and the session goes on. -/
theorem Takes.set (takes : Takes s) {k : Nat} {c : Caller} (served : c.isServed = true) {slot? : Option Record}
    {underway : Nat} : Takes { s with slot?, underway, callers := s.callers.set k c } := by
  refine { takes with served := fun d member => ?_ }
  rcases List.mem_or_eq_of_mem_set member with old | rfl
  · exact takes.served d old
  · exact served

/-- With the lock, a task leaves a scheduler alone that does not wait for it. -/
theorem Takes.lock {u : Session} {t : Task} (takes : Takes s) (ord : Orderly s) (lock : Ends s t u ∨ Lasts s u)
    (closed : u.closed = s.closed) (stop : u.stop = s.stop) (orphaned : u.orphaned = s.orphaned)
    (callers : u.callers = s.callers) : Takes u := by
  have going := takes.goesOn
  constructor
  case closed => exact closed.trans takes.closed
  case stop => exact stop.trans takes.stop
  case attended => exact orphaned.trans takes.attended
  case goesOn =>
    rcases ord.of_lock lock with ⟨same,-⟩ | ⟨before,-⟩ | ⟨before,-⟩
    · rwa [same]
    · simp [before,Phase.goesOn] at going
    · simp [before,Phase.goesOn] at going
  case served => exact callers ▸ takes.served

theorem takes_step (ord : Orderly s) (takes : Takes s) (step : Step s m t) (calm : m.isCalm = true) : Takes t := by
  have isOpen := takes.isOpen ord
  have going := takes.goesOn
  have at_caller {k : Nat} {c : Caller} (at_k : s.callers[k]? = some c) : c.isServed = true :=
    takes.served c (List.mem_of_getElem? at_k)
  cases step with
  | enter opens =>
    rcases Move.of_caller? opens with ⟨records,rfl,rfl⟩ | ⟨rfl,-⟩ | ⟨rfl,-⟩
    · refine { takes with served := fun c member => ?_ }
      rcases List.mem_append.mp member with old | new
      · exact takes.served c old
      · obtain rfl := List.mem_singleton.mp new
        rfl
    · cases calm
    · cases calm
  | abandon | cancel | orphan => cases calm
  | turn at_k turn =>
    cases turn with
    | enter | accept | look => exact takes.set rfl
    | turnAway shut | refuse shut => simp [takes.closed] at shut
    | drained | close => cases at_caller at_k
  | count | send => exact takes.set rfl
  | refuse at_k isOver => simp [isOpen] at isOver
  | mark at_k | halt at_k => cases at_caller at_k
  | heedStop waits told => simp [takes.stop] at told
  | heedOrphan waits alone => simp [takes.attended] at alone
  | close phase | shut phase | drain phase | drained phase | last phase => simp [phase,Phase.goesOn] at going
  | acquire free next does =>
    have around := performs_around does
    exact takes.lock ord (performs_ends_or_lasts free next does) around.closed around.stop around.orphaned
      around.callers
  | @answer f result writes =>
    have around := resume_around s f result
    exact takes.lock ord (resume_ends_or_lasts writes result) around.closed around.stop around.orphaned around.callers
  | arm | receive | ring | ringEarly => exact { takes with goesOn := rfl }
  | start | settle | elapse => exact { takes with }

/-! ### Failures -/

/-- A move adds no failure unless a call fails or a batch holds a record that is not valid. -/
theorem errors_step (step : Step s m t) (answers : ∀ f, m ≠ .answer (.error f))
    (valid : ∀ r ∈ s.queue.flatMap Task.records ++ s.buffer, r.validate = .ok ()) : t.errors = s.errors := by
  rcases locked_or_quiet step with locked | quiet
  · generalize s.events m t = seen at locked
    cases locked with
    | keep | idle => simp
    | begin | next => rfl
    | commit => simp [commit]
    | fail => exact absurd rfl (answers _)
    | @refuse task rest batch f free next whole filled due plan =>
      have known (r : Record) (member : r ∈ batch) : r.validate = .ok () := by
        refine valid r ?_
        simp only [whole,next,List.flatMap_cons,List.mem_append] at member ⊢
        tauto
      rw [s.writer.plan_of_valid filled known] at plan
      cases plan
  · exact quiet.errors

section
variable {settings : Settings} {info : ImportInfo} {now : Nat} {stop : Bool} {moves : List Move}

/-- A session whose calls succeed and whose records are valid has no failures. -/
theorem errors_of_run (run : (start settings info now stop).replay moves = some s)
    (answers : ∀ f, .answer (.error f) ∉ moves) (valid : ∀ r ∈ s.sent, r.validate = .ok ()) : s.errors = {} := by
  refine replay_induction (P := fun moves s =>
    (∀ f, .answer (.error f) ∉ moves) → (∀ r ∈ s.sent, r.validate = .ok ()) → s.errors = {}) (fun _ _ => rfl) ?_ run
    answers valid
  intro moves s m t reached before move answers valid
  have step := step_of_apply move
  have known (r : Record) (member : r ∈ s.sent) : r.validate = .ok () :=
    valid r ((sent_step step).subset (List.mem_append_left _ member))
  rw [errors_step step ?_ ?_]
  · exact before (fun f member => answers f (List.mem_append_left _ member)) known
  · rintro f rfl
    exact answers f (by simp)
  · -- what waits for the lock and what is buffered was handed over
    intro r member
    refine known r (((places_perm reached).symm.trans (handed_perm reached)).subset ?_)
    simp only [places,carried,List.flatMap_append,List.mem_append] at member ⊢
    tauto

end

end Session

end Intake
