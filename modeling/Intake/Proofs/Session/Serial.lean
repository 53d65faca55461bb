import Intake.Proofs.Session.Trace

/-!
Batches are written one after another. What is seen of a session is what is seen of
its batches in the order in which they were taken, each written to its end as if
nothing else went on (`Serial`), and then of the batch that is written now
(`Session.Opens`); `Serialized.step` adds what one move shows. The list of what is
committed and the log of failures say how these batches have ended, in this order,
and only ever grow.
-/
namespace Intake

/-- Answers to be given in order, and the calls that were answered so far. -/
structure Script where
  answers : List (Except Failure Unit)
  exchanges : List (Call × Except Failure Unit) := []

/-- The script of some answers, and of no calls so far. -/
def Script.of (exchanges : List (Call × Except Failure Unit)) : Script := ⟨exchanges.map (·.2),[]⟩

def Script.done (exchanges : List (Call × Except Failure Unit)) : Script := ⟨[],exchanges⟩

/-- Answers as the script says, well when it says nothing more. -/
def Script.respond : Answers Script := fun call s =>
  match s.answers with
  | [] => (.ok (),{ s with exchanges := s.exchanges ++ [(call,.ok ())] })
  | result :: rest => (result,⟨rest,s.exchanges ++ [(call,result)]⟩)

/-- A batch from its taking to its end. -/
structure Pass where
  batch : List Record
  exchanges : List (Call × Except Failure Unit)
  result : Except Failure (List InfoHash)

namespace Pass

def talk (exchanges : List (Call × Except Failure Unit)) : List Event :=
  exchanges.flatMap fun (call,result) => [.called call,.answered result]

def events (p : Pass) : List Event := .taken p.batch :: talk p.exchanges ++ [.ended p.batch p.result]

/-- What a batch adds to the list of what is committed. -/
def hashes (p : Pass) : List InfoHash :=
  match p.result with
  | .ok hashes => hashes
  | .error _ => []

/-- What a batch adds to the log. -/
def failed? (p : Pass) : Option FailedBatch :=
  match p.result with
  | .ok _ => none
  | .error f => some ⟨p.batch,f⟩

end Pass

/-- Batches written one after another, the calls of each made and answered before the next is taken. -/
inductive Serial (w : Writer) : List Pass → Writer → Prop where
  | nil : Serial w [] w
  | snoc {passes : List Pass} {p : Pass} {v u : Writer} (before : Serial w passes v)
      (written : v.write Script.respond p.batch (.of p.exchanges) = (p.result,u,.done p.exchanges)) :
      Serial w (passes ++ [p]) u

/-! ### Calls by a script -/

theorem Answers.run_append {σ : Type} (answers : Answers σ) (first rest : List Call) (s : σ) :
    answers.run (first ++ rest) s =
      match answers.run first s with
      | (.ok (),t) => answers.run rest t
      | (.error f,t) => (.error f,t) := by
  induction first generalizing s with
  | nil => rfl
  | cons call more ih =>
    simp only [List.cons_append,run]
    rcases answers call s with ⟨_ | _,t⟩
    · rfl
    · exact ih t

/-- Calls that have all gone well. -/
def gone (calls : List Call) : List (Call × Except Failure Unit) := calls.map fun call => (call,.ok ())

theorem Script.run_gone (calls : List Call) (answers : List (Except Failure Unit))
    (exchanges : List (Call × Except Failure Unit)) :
    respond.run calls ⟨(gone calls).map (·.2) ++ answers,exchanges⟩ = (.ok (),⟨answers,exchanges ++ gone calls⟩) := by
  induction calls generalizing exchanges with
  | nil => simp [Answers.run,gone]
  | cons call rest ih =>
    have next := ih (exchanges ++ [(call,.ok ())])
    simp only [gone,List.map_cons,List.cons_append,Answers.run,respond,List.append_assoc,List.nil_append] at next ⊢
    exact next

variable {w : Writer} {batch : List Record}

theorem write_of_refused {f : Failure} (plan : w.plan batch = .error f) :
    w.write Script.respond batch (.of []) = (.error f,w,.done []) := by
  simp only [Writer.write,plan]
  rfl

theorem write_of_failed {made left : List Call} {call : Call} {f : Failure}
    (plan : w.plan batch = .ok (made ++ call :: left)) :
    w.write Script.respond batch (.of (gone made ++ [(call,.error f)])) =
      (.error f,w,.done (gone made ++ [(call,.error f)])) := by
  have run := Script.run_gone made [.error f] []
  simp only [Writer.write,plan,Answers.run_append,Script.of,List.map_append,List.map_cons,List.map_nil,run]
  rfl

theorem write_of_gone {calls : List Call} (plan : w.plan batch = .ok calls) :
    w.write Script.respond batch (.of (gone calls)) =
      (.ok (Writer.hashes batch),w.commit batch,.done (gone calls)) := by
  have run := Script.run_gone calls [] []
  rw [List.append_nil] at run
  simp only [Writer.write,plan,Script.of,run]
  rfl

namespace Session

/-- What has been seen of the batch that is written, all of whose calls but the last have been answered well. -/
def Opens (s : Session) (seen : List Event) : Prop :=
  match s.flush? with
  | none => seen = []
  | some f => ∃ made, s.writer.plan f.batch = .ok (made ++ f.call :: f.left) ∧
      seen = .taken f.batch :: Pass.talk (gone made) ++ [.called f.call]

/-- A session that has written some batches one after another and taken note of their ends. -/
structure Serialized (w : Writer) (seen : List Event) (s : Session) (passes : List Pass) (opens : List Event) :
    Prop where
  serial : Serial w passes s.writer
  current : s.Opens opens
  history : seen = passes.flatMap Pass.events ++ opens
  committed : s.committed = passes.flatMap Pass.hashes
  errors : s.errors.failures = passes.filterMap Pass.failed?

variable {seen : List Event} {s t : Session} {passes : List Pass} {opens : List Event}

theorem Serialized.same (before : Serialized w seen s passes opens) (flush? : t.flush? = s.flush?)
    (writer : t.writer = s.writer) (committed : t.committed = s.committed) (errors : t.errors = s.errors) :
    Serialized w (seen ++ []) t passes opens := by
  refine ⟨?_,?_,?_,?_,?_⟩
  · rw [writer]; exact before.serial
  · rw [Opens,flush?,writer]; exact before.current
  · rw [List.append_nil]; exact before.history
  · rw [committed]; exact before.committed
  · rw [errors]; exact before.errors

theorem Serialized.finish {more : List Event} {p : Pass} (before : Serialized w seen s passes opens)
    (written : s.writer.write Script.respond p.batch (.of p.exchanges) = (p.result,t.writer,.done p.exchanges))
    (free : t.flush? = none) (whole : opens ++ more = p.events) (committed : t.committed = s.committed ++ p.hashes)
    (errors : t.errors.failures = s.errors.failures ++ p.failed?.toList) :
    Serialized w (seen ++ more) t (passes ++ [p]) [] := by
  refine ⟨before.serial.snoc written,?_,?_,?_,?_⟩
  · rw [Opens,free]
  · simp [before.history,whole]
  · simp [committed,before.committed]
  · rw [errors,before.errors]
    cases ended : p.failed? <;> simp [ended]

theorem Serialized.locked {m : Move} {more : List Event} (before : Serialized w seen s passes opens)
    (locked : Locked s m more t) : ∃ passes opens, Serialized w (seen ++ more) t passes opens := by
  have current := before.current
  cases locked with
  | keep free | idle free =>
    exact ⟨passes,opens,before.same (by simp [free]) (by simp) (by simp) (by simp)⟩
  | @refuse task rest batch f free next whole filled due plan =>
    obtain rfl : opens = [] := by simpa [Opens,free] using current
    refine ⟨passes ++ [⟨batch,[],.error f⟩],[],before.finish ?_ (by simp) rfl ?_ ?_⟩
    · simpa [fail] using write_of_refused plan
    · simp [fail,Pass.hashes]
    · simp [fail,FailureLog.push,Pass.failed?]
  | @begin task rest batch call left free next whole filled due plan =>
    obtain rfl : opens = [] := by simpa [Opens,free] using current
    refine ⟨passes,[.taken batch,.called call],before.serial,⟨[],plan,rfl⟩,?_,before.committed,before.errors⟩
    simp [before.history]
  | @fail f failure writes =>
    simp only [Opens,writes] at current
    obtain ⟨made,plan,rfl⟩ := current
    refine ⟨passes ++ [⟨f.batch,gone made ++ [(f.call,.error failure)],.error failure⟩],[],
      before.finish ?_ (by simp) ?_ ?_ ?_⟩
    · simpa [Session.fail] using write_of_failed plan
    · simp [Pass.events,Pass.talk]
    · simp [Session.fail,Pass.hashes]
    · simp [Session.fail,FailureLog.push,Pass.failed?]
  | @commit f writes last =>
    simp only [Opens,writes] at current
    obtain ⟨made,plan,rfl⟩ := current
    rw [last] at plan
    refine ⟨passes ++ [⟨f.batch,gone (made ++ [f.call]),.ok (Writer.hashes f.batch)⟩],[],
      before.finish ?_ (by simp) ?_ ?_ ?_⟩
    · simpa [Session.commit] using write_of_gone plan
    · simp [Pass.events,Pass.talk,gone]
    · simp [Session.commit,Pass.hashes]
    · simp [Session.commit,Pass.failed?]
  | @next f call left writes more =>
    simp only [Opens,writes] at current
    obtain ⟨made,plan,rfl⟩ := current
    refine ⟨passes,_,before.serial,⟨made ++ [f.call],?_,rfl⟩,?_,before.committed,before.errors⟩
    · simpa [more] using plan
    · simp [before.history,Pass.talk,gone]

/-- One move adds to the batch that is written, ends it or begins another. -/
theorem Serialized.step {m : Move} (before : Serialized w seen s passes opens) (step : Step s m t) :
    ∃ passes opens, Serialized w (seen ++ s.events m t) t passes opens := by
  rcases locked_or_quiet step with locked | quiet
  · exact before.locked locked
  · rw [quiet.nothing]
    exact ⟨passes,opens,before.same quiet.flush? quiet.writer quiet.committed quiet.errors⟩

theorem grown_step {m : Move} (step : Step s m t) :
    s.committed <+: t.committed ∧ s.errors.failures <+: t.errors.failures := by
  refine ⟨⟨_,(committed_step step).symm⟩,?_⟩
  rcases locked_or_quiet step with locked | quiet
  · generalize s.events m t = seen at locked
    cases locked with
    | refuse | fail => simp [Session.fail,FailureLog.push]
    | _ => simp [commit]
  · simp [quiet.errors]

theorem grown {later : List Move} (on : s.replay later = some t) :
    s.committed <+: t.committed ∧ s.errors.failures <+: t.errors.failures := by
  refine replay_keeps (P := fun t => s.committed <+: t.committed ∧ s.errors.failures <+: t.errors.failures) ?_
    ⟨List.prefix_rfl,List.prefix_rfl⟩ on
  intro u m v before move
  have after := grown_step (step_of_apply move)
  exact ⟨before.1.trans after.1,before.2.trans after.2⟩

section
variable {settings : Settings} {info : ImportInfo} {now : Nat} {stop : Bool} {moves : List Move}

theorem serialized (run : (start settings info now stop).replay moves = some s) :
    ∃ passes opens, Serialized { info } ((start settings info now stop).trace moves) s passes opens := by
  refine replay_induction (P := fun moves s =>
    ∃ passes opens, Serialized { info } ((start settings info now stop).trace moves) s passes opens)
    ⟨[],[],⟨.nil,by rw [Opens]; rfl,rfl,rfl,rfl⟩⟩ ?_ run
  intro moves s m t reached before move
  obtain ⟨passes,opens,before⟩ := before
  rw [trace,gather_snoc _ reached move]
  exact before.step (step_of_apply move)

/-- At every moment of every run, what is seen of a session is what is seen of some batches, in the order in
    which they were taken, each written alone from its taking to its end, and of the batch that is written
    now. The list of what is committed holds the info hashes of those that ended well, the log holds those
    that failed, in the same order, and later lists and logs begin with those of now. -/
theorem passes_in_order (run : (start settings info now stop).replay moves = some s) :
    ∃ passes opens, Serial { info } passes s.writer ∧ s.Opens opens ∧
      (start settings info now stop).trace moves = passes.flatMap Pass.events ++ opens ∧
      s.committed = passes.flatMap Pass.hashes ∧ s.errors.failures = passes.filterMap Pass.failed? ∧
      ∀ later t, s.replay later = some t →
        s.committed <+: t.committed ∧ s.errors.failures <+: t.errors.failures := by
  obtain ⟨passes,opens,all⟩ := serialized run
  exact ⟨passes,opens,all.serial,all.current,all.history,all.committed,all.errors,fun _ _ on => grown on⟩

theorem passes_in_order_closing :
    ∃ s, eager.replay closingRun = some s ∧ s.flush? = none ∧
      ∃ passes : List Pass, eager.trace closingRun = passes.flatMap Pass.events ∧
        passes.filterMap Pass.failed? = [⟨[.bare "dht" 2],.importClosed⟩] := by
  have ends : (eager.replay closingRun).map (fun s => (s.flush?,s.errors.failures)) =
      some (none,[⟨[.bare "dht" 2],.importClosed⟩]) := rfl
  obtain ⟨s,run,ends⟩ := Option.map_eq_some_iff.mp ends
  obtain ⟨free,failed⟩ := Prod.mk.inj ends
  obtain ⟨passes,opens,-,current,history,-,errors,-⟩ := passes_in_order run
  obtain rfl : opens = [] := by simpa [Opens,free] using current
  exact ⟨s,run,free,passes,history.trans (List.append_nil _),errors.symm.trans failed⟩

end

end Session

end Intake
