import Intake.Proofs.Session.Calls
import Intake.Proofs.Session.Shutdown
import Intake.Proofs.Session.Trace

/-!
No record is lost or doubled. A record that has been handed over is in one place: in
the channel, with a task that has not stored it, in the buffer, in the batch that is
written, or in a batch that was written to the end or has failed (`places_step`).
When the session has ended only the last two are left (`places_of_stopped`), so that
whoever closes it finds every record there.
-/
namespace Intake

def FailureLog.records (log : FailureLog) : List Record := log.failures.flatMap (·.records)

@[simp] theorem FailureLog.records_push (log : FailureLog) (b : FailedBatch) :
    (log.push b).records = log.records ++ b.records := by
  simp [records,push]

/-- How far a call has come that was to hand over some records. -/
def Caller.Handles (records : List Record) : Caller → Prop
  | .entering rest => rest = records
  | .looking sent rest => sent ++ rest = records
  | .counting sent r rest => sent ++ r :: rest = records
  | .sending sent r rest => sent ++ r :: rest = records
  | .accepted sent => sent = records
  | .refused sent => sent <+: records
  | .abandoned sent => sent <+: records
  | _ => False

theorem Caller.sent_prefix {records : List Record} {c : Caller} (handles : c.Handles records) :
    c.sent <+: records := by
  cases c with
  | entering => exact List.nil_prefix
  | looking | counting | sending => exact ⟨_,handles⟩
  | accepted => exact handles ▸ List.prefix_rfl
  | refused | abandoned => exact handles
  | _ => exact handles.elim

namespace Session

/-- The record that a move from `s` to `t` puts into the channel. -/
def handedAt (s t : Session) : List Record := if s.slot? = none then t.slot?.toList else []

def handed (s : Session) (moves : List Move) : List Record := s.gather (fun s _ t => s.handedAt t) moves

/-- The records of the tasks that have not had the lock. -/
def carried (s : Session) : List Record := (s.spawned ++ s.queue).flatMap Task.records

/-- The batch that is written. -/
def writing (s : Session) : List Record := s.flush?.elim [] (·.batch)

/-- The records that callers have handed over. -/
def sent (s : Session) : List Record := s.callers.flatMap Caller.sent

/-- Where a record can be, with what has been seen of the session. -/
def places (s : Session) (seen : List Event) : List Record :=
  s.slot?.toList ++ s.carried ++ s.buffer ++ s.writing ++ (committedBatches seen).flatten ++ s.errors.records

theorem handedAt_of_same {s t : Session} (same : t.slot? = s.slot?) : s.handedAt t = [] := by
  cases slot : s.slot? <;> simp [handedAt,same,slot]

/-! ### The places -/

/-- A move that shows nothing and moves records at most between the channel and the tasks. -/
theorem places_of_quiet {s t : Session} {handed : List Record} {seen : List Event} {m : Move}
    (before : handed.Perm (s.places seen)) (nothing : s.events m t = [])
    (moved : (s.slot?.toList ++ s.carried ++ s.handedAt t).Perm (t.slot?.toList ++ t.carried))
    (buffer : t.buffer = s.buffer) (flush? : t.flush? = s.flush?) (errors : t.errors = s.errors) :
    (handed ++ s.handedAt t).Perm (t.places (seen ++ s.events m t)) := by
  rw [List.perm_iff_count] at before moved ⊢
  intro r
  have here := before r
  have there := moved r
  simp only [places,writing,nothing,buffer,flush?,errors,List.append_nil,List.count_append] at here there ⊢
  omega

theorem places_of_same {s t : Session} {handed : List Record} {seen : List Event} {m : Move}
    (before : handed.Perm (s.places seen)) (nothing : s.events m t = []) (slot? : t.slot? = s.slot?)
    (carried : s.carried.Perm t.carried) (buffer : t.buffer = s.buffer) (flush? : t.flush? = s.flush?)
    (errors : t.errors = s.errors) : (handed ++ s.handedAt t).Perm (t.places (seen ++ s.events m t)) := by
  refine places_of_quiet before nothing ?_ buffer flush? errors
  rw [handedAt_of_same slot?,slot?,List.append_nil]
  exact carried.append_left _

/-- The task with the lock moves records on to the buffer, from there to the batch that is written,
    and from there to the batches that have ended. -/
theorem places_of_locked {s t : Session} {m : Move} {seen : List Event} (locked : Locked s m seen t) :
    (s.queue.flatMap Task.records ++ s.buffer ++ s.writing ++ s.errors.records).Perm
      (t.queue.flatMap Task.records ++ t.buffer ++ t.writing ++ (committedBatches seen).flatten ++
        t.errors.records) := by
  rw [List.perm_iff_count]
  intro r
  cases locked with
  | keep free next =>
    simp [writing,free,next]
    omega
  | idle free next brings empty => simp [writing,free,next,brings,empty]
  | refuse free next whole =>
    simp [writing,free,next,whole,fail,Event.committed?]
    omega
  | begin free next whole =>
    simp [writing,free,next,whole,Event.committed?]
    omega
  | fail writes =>
    simp [writing,writes,Session.fail,Event.committed?]
    omega
  | commit writes => simp [writing,writes,Session.commit,Event.committed?]
  | next writes => simp [writing,writes,Event.committed?]

theorem places_of_lock {s t : Session} {m : Move} {handed : List Record} {seen : List Event}
    (before : handed.Perm (s.places seen)) (slot? : t.slot? = s.slot?) (spawned : t.spawned = s.spawned)
    (locked : Locked s m (s.events m t) t) : (handed ++ s.handedAt t).Perm (t.places (seen ++ s.events m t)) := by
  have moved := places_of_locked locked
  rw [List.perm_iff_count] at before moved ⊢
  intro r
  have here := before r
  have there := moved r
  simp only [places,carried,handedAt_of_same slot?,slot?,spawned,committedBatches_append,List.flatMap_append,
    List.flatten_append,List.append_nil,List.count_append] at here there ⊢
  omega

/-- No move loses a record or doubles it. -/
theorem places_step {s t : Session} {handed : List Record} {seen : List Event} {m : Move}
    (before : handed.Perm (s.places seen)) (step : Step s m t) :
    (handed ++ s.handedAt t).Perm (t.places (seen ++ s.events m t)) := by
  cases step with
  | enter opens attended => exact places_of_same before (events_of_opens opens) rfl .rfl rfl rfl rfl
  | @send k sent rest r at_k isOpen room =>
    refine places_of_quiet before rfl ?_ rfl rfl rfl
    simpa [handedAt,room,carried] using List.perm_append_singleton r s.carried
  | @receive d r waits full =>
    refine places_of_quiet before rfl ?_ rfl rfl rfl
    simp only [handedAt,carried,full,List.flatMap_append,List.perm_iff_count]
    intro other
    simp [Task.records,List.count_cons]
    omega
  | @drain r draining full =>
    refine places_of_quiet before rfl ?_ rfl rfl rfl
    simp only [handedAt,carried,full,List.flatMap_append,List.perm_iff_count]
    intro other
    simp [Task.records,List.count_cons]
    omega
  | ring | last =>
    refine places_of_same before rfl rfl ?_ rfl rfl rfl
    simp [carried,Task.records]
  | @start i t at_i =>
    refine places_of_same before rfl rfl ?_ rfl rfl rfl
    obtain ⟨first,rest,whole,erased,-⟩ := split_at at_i
    simp only [carried]
    rw [erased,whole]
    simp only [List.flatMap_append,List.flatMap_cons,List.perm_iff_count]
    intro other
    simp
    omega
  | acquire free next does =>
    have around := performs_around does
    exact places_of_lock before around.slot? around.spawned (locked_acquire free next does)
  | @answer f result writes =>
    have around := resume_around s f result
    exact places_of_lock before around.slot? around.spawned (locked_answer writes result)
  | _ => exact places_of_same before rfl rfl .rfl rfl rfl rfl

/-! ### The callers -/

theorem sent_set {s : Session} {k : Nat} {c c' : Caller} {more : List Record} (at_k : s.callers[k]? = some c)
    (goes : c'.sent = c.sent ++ more) : (s.sent ++ more).Perm ((s.callers.set k c').flatMap Caller.sent) := by
  have moved := flatMap_set at_k c' Caller.sent
  rw [List.perm_iff_count] at moved ⊢
  intro r
  have here := moved r
  simp only [sent,goes,List.count_append] at here ⊢
  omega

theorem sent_of_set {s t : Session} {k : Nat} {c c' : Caller} (at_k : s.callers[k]? = some c)
    (slot? : t.slot? = s.slot?) (callers : t.callers = s.callers.set k c') (goes : c'.sent = c.sent) :
    (s.sent ++ s.handedAt t).Perm t.sent := by
  rw [handedAt_of_same slot?,sent.eq_1 t,callers]
  exact sent_set at_k (by simp [goes])

theorem sent_of_same {s t : Session} (handed : s.handedAt t = []) (callers : t.callers = s.callers) :
    (s.sent ++ s.handedAt t).Perm t.sent := by
  rw [handed,List.append_nil,sent,sent,callers]

theorem sent_of_turn {s : Session} {c c' : Caller} (turn : Turn s c c') : c'.sent = c.sent := by
  cases turn <;> rfl

/-- What is put into the channel was handed over by a caller, and by one only. -/
theorem sent_step {s t : Session} {m : Move} (step : Step s m t) : (s.sent ++ s.handedAt t).Perm t.sent := by
  cases step with
  | @enter _ c opens attended =>
    have nothing : c.sent = [] := by
      rcases Move.of_caller? opens with ⟨records,-,rfl⟩ | ⟨-,rfl⟩ | ⟨-,rfl⟩ <;> rfl
    simp [handedAt_of_same,sent,nothing]
  | turn at_k turn => exact sent_of_set at_k rfl rfl (sent_of_turn turn)
  | abandon at_k | count at_k | refuse at_k | mark at_k | halt at_k => exact sent_of_set at_k rfl rfl rfl
  | send at_k isOpen room =>
    simp only [handedAt,room,if_true,Option.toList_some]
    exact sent_set at_k rfl
  | receive waits full => exact sent_of_same (by simp [handedAt,full]) rfl
  | drain draining full => exact sent_of_same (by simp [handedAt,full]) rfl
  | acquire free next does =>
    have around := performs_around does
    exact sent_of_same (handedAt_of_same around.slot?) around.callers
  | @answer f result writes =>
    have around := resume_around s f result
    exact sent_of_same (handedAt_of_same around.slot?) around.callers
  | _ => exact sent_of_same (handedAt_of_same rfl) rfl

/-! ### How far a call has come -/

theorem handles_of_turn {s : Session} {c c' : Caller} {records : List Record} (turn : Turn s c c')
    (handles : c.Handles records) : c'.Handles records := by
  cases turn with
  | enter taking | look taking => exact handles
  | turnAway shut => exact List.nil_prefix
  | accept =>
    have all : _ ++ [] = records := handles
    simpa [Caller.Handles] using all
  | refuse shut => exact ⟨_,handles⟩
  | drained settled => exact handles
  | close ended => exact handles.elim

theorem handles_of_advances {s t : Session} {c c' : Caller} {records : List Record} (advances : Advances s t c c')
    (handles : c.Handles records) : c'.Handles records := by
  cases advances with
  | turn turn => exact handles_of_turn turn handles
  | abandon waits => exact Caller.sent_prefix handles
  | count => exact handles
  | send isOpen =>
    have all : _ ++ _ :: _ = records := handles
    simpa [Caller.Handles] using all
  | refuse isOver => exact ⟨_,handles⟩
  | mark | halt => exact handles.elim

/-- A call is in its place among the callers, and has come as far as it has. -/
def Follows (records : List Record) (k : Nat) (s : Session) : Prop :=
  ∃ c, s.callers[k]? = some c ∧ c.Handles records

section
variable {settings : Settings} {info : ImportInfo} {now : Nat} {stop : Bool} {moves : List Move} {s : Session}

theorem follows_of_opened (run : (start settings info now stop).replay moves = some s) :
    (opened moves).length = s.callers.length ∧
      ∀ k records, (opened moves)[k]? = some (.entering records) → s.Follows records k := by
  have calls (records : List Record) := opened_of_run (I := fun _ => True) (P := Caller.Handles records)
    (fun _ _ => trivial) (fun _ => handles_of_advances) trivial run
  have none : (start settings info now stop).callers.length = 0 := rfl
  simp only [none,Nat.zero_add] at calls
  exact ⟨(calls []).2.1.symm,fun k records at_k => (calls records).2.2 k _ at_k rfl⟩

theorem places_perm (run : (start settings info now stop).replay moves = some s) :
    ((start settings info now stop).handed moves).Perm (s.places ((start settings info now stop).trace moves)) := by
  refine replay_induction (P := fun moves s => ((start settings info now stop).handed moves).Perm
    (s.places ((start settings info now stop).trace moves))) .rfl ?_ run
  intro moves s m t reached before move
  rw [handed,trace,gather_snoc _ reached move,gather_snoc _ reached move]
  exact places_step before (step_of_apply move)

theorem handed_perm (run : (start settings info now stop).replay moves = some s) :
    ((start settings info now stop).handed moves).Perm s.sent := by
  refine replay_induction (P := fun moves s => ((start settings info now stop).handed moves).Perm s.sent) .rfl ?_ run
  intro moves s m t reached before move
  rw [handed,gather_snoc _ reached move]
  exact (before.append_right _).trans (sent_step (step_of_apply move))

/-- Once the scheduler has stopped, what is left of a session are the batches that have ended. -/
theorem places_of_stopped {seen : List Event} (ord : Orderly s) (stopped : s.scheduler = .stopped) :
    s.places seen = (committedBatches seen).flatten ++ s.errors.records := by
  obtain ⟨free,empty⟩ := ord.ended stopped
  have quiet := ord.quiet (by rw [stopped]; rfl)
  have carried : s.carried = [] := by
    refine List.flatMap_eq_nil_iff.mpr ?_
    intro task member
    exact records_of_quiet quiet (List.mem_append_left _ member)
  rw [places,ord.emptied (by rw [stopped]; rfl),carried,empty,writing,free]
  rfl

/-- No record is lost or doubled. At every moment of every run, each record that the channel has taken is in
    one of its places; the calls that hand over records have handed over just these, every call a beginning
    of its own records and all of them when it ends well; and when a call has closed the session, they are
    the records of the batches that were written to the end and of the failures that it was told of. -/
theorem conservation (run : (start settings info now stop).replay moves = some s) :
    let seen := (start settings info now stop).trace moves
    ((start settings info now stop).handed moves).Perm (s.slot?.toList ++ s.carried ++ s.buffer ++ s.writing ++
        (committedBatches seen).flatten ++ s.errors.records) ∧
      ((start settings info now stop).handed moves).Perm s.sent ∧
      (∀ (k : Nat) (records : List Record), (opened moves)[k]? = some (.entering records) →
        ∃ c, s.callers[k]? = some c ∧ c.Handles records) ∧
      s.committed = (committedBatches seen).flatMap Writer.hashes ∧
      ∀ log, .closed log ∈ s.callers →
        log = s.errors ∧ s.sent.Perm ((committedBatches seen).flatten ++ log.records) := by
  intro seen
  refine ⟨places_perm run,handed_perm run,(follows_of_opened run).2,committed_eq run,?_⟩
  intro log closed
  obtain ⟨stopped,rfl⟩ := log_of_closed run closed
  refine ⟨rfl,(handed_perm run).symm.trans ?_⟩
  rw [← places_of_stopped (orderly run) stopped]
  exact places_perm run

theorem conservation_closing :
    ∃ s, eager.replay closingRun = some s ∧
      s.sent.Perm ((committedBatches (eager.trace closingRun)).flatten ++ [.bare "dht" 2]) := by
  have callers : (eager.replay closingRun).map (·.callers) =
      some [.accepted [.bare "dht" 1,.bare "dht" 2],.closed ⟨[⟨[.bare "dht" 2],.importClosed⟩]⟩] := rfl
  obtain ⟨s,run,callers⟩ := Option.map_eq_some_iff.mp callers
  have closed : Caller.closed ⟨[⟨[.bare "dht" 2],.importClosed⟩]⟩ ∈ s.callers := by simp [callers]
  exact ⟨s,run,((conservation run).2.2.2.2 _ closed).2⟩

end

end Session

end Intake
