import Intake.Proofs.Session.Step

/-!
What can be seen of a session from outside while it writes: the batches that are
taken from the buffer, the calls that are made for them and their answers, and how
each batch ends, in the order in which it happens (`trace`). All of it is read off
the session before and after a move; `Locked` says what the moves of the task with
the lock look like, and no other move shows anything.
-/
namespace Intake

inductive Event where
  /-- A batch is taken from the buffer. -/
  | taken (batch : List Record)
  | called (call : Call)
  | answered (result : Except Failure Unit)
  /-- A batch is written, with its info hashes, or has failed. -/
  | ended (batch : List Record) (result : Except Failure (List InfoHash))

/-- The batch that ends well. -/
def Event.committed? : Event → Option (List Record)
  | .ended batch (.ok _) => some batch
  | _ => none

namespace Session

/-- What the buffer holds when the first task in the queue has brought its record. -/
def whole (s : Session) : List Record := s.buffer ++ s.queue.head?.elim [] Task.records

/-- How a batch has ended, as the log and the list of what is committed show. -/
def outcome (s t : Session) : Except Failure (List InfoHash) :=
  match t.errors.failures.drop s.errors.failures.length with
  | b :: _ => .error b.failure
  | [] => .ok (t.committed.drop s.committed.length)

/-- What follows for a batch: its next call, or its end. -/
def sequel (s t : Session) (batch : List Record) : List Event :=
  match t.flush? with
  | some f => [.called f.call]
  | none => [.ended batch (s.outcome t)]

/-- What is seen of a move from `s` to `t`. A batch is taken where the buffer ends up empty and was not. -/
def events (s : Session) (m : Move) (t : Session) : List Event :=
  match m with
  | .acquire => if s.whole ≠ [] ∧ t.buffer = [] then .taken s.whole :: s.sequel t s.whole else []
  | .answer result => match s.flush? with
    | some f => .answered result :: s.sequel t f.batch
    | none => []
  | _ => []

def trace (s : Session) (moves : List Move) : List Event := s.gather events moves

/-- The batches that were written to the end, in order. -/
def committedBatches (seen : List Event) : List (List Record) := seen.filterMap Event.committed?

@[simp] theorem committedBatches_nil : committedBatches [] = [] := rfl

@[simp] theorem committedBatches_cons (e : Event) (rest : List Event) :
    committedBatches (e :: rest) = e.committed?.toList ++ committedBatches rest := by
  cases ended : e.committed? <;> simp [committedBatches,ended]

@[simp] theorem committedBatches_append (before after : List Event) :
    committedBatches (before ++ after) = committedBatches before ++ committedBatches after := by
  simp [committedBatches]

/-- The moves of the task with the lock, and what is seen of each. -/
inductive Locked (s : Session) : Move → List Event → Session → Prop where
  | keep {t : Task} {rest : List Task} (free : s.flush? = none) (next : s.queue = t :: rest)
      (brings : t.records ≠ []) (short : (s.buffer ++ t.records).length < s.settings.bufferSize) :
      Locked s .acquire [] ({ s with queue := rest, buffer := s.buffer ++ t.records }.finish t)
  | idle {t : Task} {rest : List Task} (free : s.flush? = none) (next : s.queue = t :: rest)
      (brings : t.records = []) (empty : s.buffer = []) :
      Locked s .acquire [] ({ s with queue := rest, lastFlush := s.now, buffer := [] }.finish t)
  | refuse {t : Task} {rest : List Task} {batch : List Record} {f : Failure} (free : s.flush? = none)
      (next : s.queue = t :: rest) (whole : batch = s.buffer ++ t.records) (filled : batch ≠ [])
      (due : t.records = [] ∨ s.settings.bufferSize ≤ batch.length) (plan : s.writer.plan batch = .error f) :
      Locked s .acquire [.taken batch,.ended batch (.error f)]
        (({ s with queue := rest, lastFlush := s.now, buffer := [] }.fail batch f).finish t)
  | begin {t : Task} {rest : List Task} {batch : List Record} {call : Call} {left : List Call}
      (free : s.flush? = none) (next : s.queue = t :: rest) (whole : batch = s.buffer ++ t.records)
      (filled : batch ≠ []) (due : t.records = [] ∨ s.settings.bufferSize ≤ batch.length)
      (plan : s.writer.plan batch = .ok (call :: left)) :
      Locked s .acquire [.taken batch,.called call]
        { s with queue := rest, lastFlush := s.now, buffer := [], flush? := some ⟨t,batch,call,left⟩ }
  | fail {f : Flush} {failure : Failure} (writes : s.flush? = some f) :
      Locked s (.answer (.error failure)) [.answered (.error failure),.ended f.batch (.error failure)]
        ((s.fail f.batch failure).finish f.task)
  | commit {f : Flush} (writes : s.flush? = some f) (last : f.left = []) :
      Locked s (.answer (.ok ())) [.answered (.ok ()),.ended f.batch (.ok (Writer.hashes f.batch))]
        ((s.commit f.batch).finish f.task)
  | next {f : Flush} {call : Call} {left : List Call} (writes : s.flush? = some f) (more : f.left = call :: left) :
      Locked s (.answer (.ok ())) [.answered (.ok ()),.called call] { s with flush? := some { f with call, left } }

theorem outcome_fail (s : Session) {t : Session} {batch : List Record} {f : Failure}
    (log : t.errors = s.errors.push ⟨batch,f⟩) : s.outcome t = .error f := by
  simp [outcome,log,FailureLog.push]

theorem outcome_commit (s : Session) {t : Session} {hashes : List InfoHash} (log : t.errors = s.errors)
    (grown : t.committed = s.committed ++ hashes) : s.outcome t = .ok hashes := by
  simp [outcome,log,grown]

theorem locked_acquire {s u : Session} {t : Task} {rest : List Task} (free : s.flush? = none)
    (next : s.queue = t :: rest) (does : Performs { s with queue := rest } t u) :
    Locked s .acquire (s.events .acquire u) u := by
  have whole : s.whole = s.buffer ++ t.records := by simp [Session.whole,next]
  cases does with
  | keep brings short =>
    have seen : s.events .acquire ({ s with queue := rest, buffer := s.buffer ++ t.records }.finish t) = [] := by
      simp [events,brings]
    rw [seen]
    exact .keep free next brings short
  | idle brings empty =>
    have none : s.whole = [] := by rw [whole,brings,List.append_nil]; exact empty
    simp only [events,none,ne_eq,not_true_eq_false,false_and,if_false]
    exact .idle free next brings empty
  | @refuse f due filled plan =>
    rw [← whole] at due filled plan ⊢
    have seen : s.events .acquire
        (({ s with queue := rest, lastFlush := s.now, buffer := [] }.fail s.whole f).finish t) =
          [.taken s.whole,.ended s.whole (.error f)] := by
      have ended : s.outcome (({ s with queue := rest, lastFlush := s.now, buffer := [] }.fail s.whole f).finish t) =
          .error f := s.outcome_fail (by simp [Session.fail]; rfl)
      simp only [events,sequel,finish_flush?,ended]
      simp [filled,Session.fail]
    rw [seen]
    exact .refuse free next whole filled due plan
  | @begin call left due filled plan =>
    rw [← whole] at due filled plan ⊢
    have seen : s.events .acquire
        { s with queue := rest, lastFlush := s.now, buffer := [], flush? := some ⟨t,s.whole,call,left⟩ } =
          [.taken s.whole,.called call] := by
      simp [events,sequel,filled]
    rw [seen]
    exact .begin free next whole filled due plan

theorem locked_answer {s : Session} {f : Flush} (writes : s.flush? = some f) (result : Except Failure Unit) :
    Locked s (.answer result) (s.events (.answer result) (s.resume f result)) (s.resume f result) := by
  cases result with
  | error failure =>
    have ended := s.outcome_fail (t := (s.fail f.batch failure).finish f.task) (by simp [Session.fail]; rfl)
    simp only [events,writes,resume,sequel,finish_flush?,ended]
    exact .fail writes
  | ok _ =>
    cases left : f.left with
    | nil =>
      have ended := s.outcome_commit (t := (s.commit f.batch).finish f.task) (by simp [Session.commit])
        (by simp [Session.commit]; rfl)
      simp only [events,writes,resume,left,sequel,finish_flush?,ended]
      exact .commit writes left
    | cons call rest =>
      simp only [events,writes,resume,left,sequel]
      exact .next writes left

/-- A move that shows nothing and changes nothing that has to do with writing. -/
structure Quiet (s : Session) (m : Move) (t : Session) : Prop where
  nothing : s.events m t = []
  flush? : t.flush? = s.flush?
  writer : t.writer = s.writer
  committed : t.committed = s.committed
  errors : t.errors = s.errors

theorem events_of_opens {s t : Session} {m : Move} {c : Caller} (opens : m.caller? = some c) :
    s.events m t = [] := by
  rcases Move.of_caller? opens with ⟨records,rfl,-⟩ | ⟨rfl,-⟩ | ⟨rfl,-⟩ <;> rfl

theorem locked_or_quiet {s t : Session} {m : Move} (step : Step s m t) :
    Locked s m (s.events m t) t ∨ Quiet s m t := by
  cases step with
  | acquire free next does => exact .inl (locked_acquire free next does)
  | answer writes => exact .inl (locked_answer writes _)
  | enter opens attended => exact .inr ⟨events_of_opens opens,rfl,rfl,rfl,rfl⟩
  | _ => exact .inr ⟨rfl,rfl,rfl,rfl,rfl⟩

theorem committed_step {s t : Session} {m : Move} (step : Step s m t) :
    t.committed = s.committed ++ (committedBatches (s.events m t)).flatMap Writer.hashes := by
  rcases locked_or_quiet step with locked | quiet
  · generalize s.events m t = seen at locked
    cases locked with
    | keep | idle | next => simp [Event.committed?]
    | refuse | begin => simp [fail,Event.committed?]
    | fail => simp [Session.fail,Event.committed?]
    | commit => simp [Session.commit,Event.committed?]
  · simp [quiet.nothing,quiet.committed]

/-- After every run the list holds the info hashes of the batches that were written to the end. -/
theorem committed_eq {settings : Settings} {info : ImportInfo} {now : Nat} {stop : Bool} {moves : List Move}
    {s : Session} (run : (start settings info now stop).replay moves = some s) :
    s.committed = (committedBatches ((start settings info now stop).trace moves)).flatMap Writer.hashes := by
  refine replay_induction (P := fun moves s =>
    s.committed = (committedBatches ((start settings info now stop).trace moves)).flatMap Writer.hashes) rfl ?_ run
  intro moves s m t before committed move
  rw [committed_step (step_of_apply move),committed,trace,trace,gather_snoc _ before move,committedBatches_append,
    List.flatMap_append]

end Session

end Intake
