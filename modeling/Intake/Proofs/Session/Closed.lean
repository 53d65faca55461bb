import Intake.Proofs.Session.Calls
import Intake.Proofs.Session.Shutdown
import Intake.Proofs.Session.Trace

/-!
A session that has been closed. Once the scheduler has stopped nothing more is
written and nothing is seen of the session any more (`nothing_after_stopped`); calls
that hand over records are turned away, and every call that closes the session comes
to its end by itself with the same answer (`close_returns`).
-/
namespace Intake

/-- What a call that closes the session answers with, when it has come to its end. -/
def Caller.verdict? : Caller → Option (Except FailureLog Unit)
  | .closed errors => some (match errors.nonempty? with
    | some errors => .error errors
    | none => .ok ())
  | _ => none

theorem Caller.verdict?_eq {c : Caller} {v : Except FailureLog Unit} (ended : c.verdict? = some v) :
    ∃ log, c = .closed log ∧ v = if log.isEmpty then .ok () else .error log := by
  cases c with
  | closed log =>
    refine ⟨log,rfl,?_⟩
    rw [verdict?,Option.some.injEq] at ended
    subst ended
    by_cases empty : log.isEmpty <;> simp [FailureLog.nonempty?,empty]
  | _ => cases ended

/-- A call that closes the session, wherever it is. -/
def Caller.Closes : Caller → Prop
  | .closing => True
  | .stopping => True
  | .awaiting => True
  | .closed _ => True
  | .abandoned sent => sent = []
  | _ => False

namespace Session

theorem closes_of_advances {s t : Session} {c c' : Caller} (advances : Advances s t c c') (closes : c.Closes) :
    c'.Closes := by
  cases advances with
  | turn turn =>
    cases turn with
    | close ended => trivial
    | _ => exact closes
  | @abandon c waits =>
    cases c with
    | awaiting => rfl
    | sending => exact closes.elim
    | draining => exact closes.elim
    | _ => cases waits
  | count | send | refuse => exact closes.elim
  | mark | halt => trivial

/-- A session that is closed stays closed. -/
theorem closed_stays {s t : Session} {m : Move} (closed : s.closed = true) (step : Step s m t) : t.closed = true := by
  cases step with
  | acquire free next does => rw [(performs_around does).closed]; exact closed
  | answer writes => rw [(resume_around _ _ _).closed]; exact closed
  | mark | close => rfl
  | _ => exact closed

/-- Once the scheduler has stopped, nothing is seen of the session. -/
theorem unseen_of_stopped {s t : Session} {m : Move} (ord : Orderly s) (stopped : s.scheduler = .stopped)
    (step : Step s m t) : s.events m t = [] := by
  obtain ⟨free,empty⟩ := ord.ended stopped
  rcases locked_or_quiet step with locked | quiet
  · generalize s.events m t = seen at locked ⊢
    have bare {task : Task} {rest : List Task} (next : s.queue = task :: rest) : task.records = [] :=
      records_of_quiet (ord.quiet (by rw [stopped]; rfl)) (by simp [tasks,next])
    cases locked with
    | keep | idle => rfl
    | refuse _ next whole filled => simp [whole,bare next,empty] at filled
    | begin _ next whole filled => simp [whole,bare next,empty] at filled
    | fail writes | commit writes | next writes => rw [free] at writes; cases writes
  · exact quiet.nothing

/-- A call that hands over records to a closed session is turned away. -/
theorem turned_away {s t : Session} {c c' : Caller} {records : List Record} (shut : s.closed = true)
    (advances : Advances s t c c') (before : c = .entering records ∨ c = .refused []) :
    c' = .entering records ∨ c' = .refused [] := by
  rcases before with rfl | rfl
  · cases advances with
    | turn turn =>
      cases turn with
      | enter taking => rw [taking] at shut; cases shut
      | turnAway => exact .inr rfl
    | abandon waits => cases waits
  · cases advances with
    | turn turn => cases turn
    | abandon waits => cases waits

/-- What a caller's step makes of the session. -/
theorem call_of_step {s t : Session} {k : Nat} {c c' : Caller} (at_k : s.callers[k]? = some c)
    (goes : s.step c = some (c',t)) :
    s.apply (.call k) = some { t with callers := t.callers.set k c' } := by
  simp only [apply,at_k,Option.bind_eq_bind,Option.bind_some,goes]

/-- When the session has ended, a call that closes it comes to its end by steps of its own. -/
theorem close_returns {s : Session} {k : Nat} {c : Caller} (stopped : s.scheduler = .stopped)
    (at_k : s.callers[k]? = some c) (closes : c.Closes) (kept : c ≠ .abandoned [])
    (told : ∀ log, c = .closed log → log = s.errors) :
    ∃ n t, s.replay (List.replicate n (.call k)) = some t ∧ t.callers[k]? = some (.closed s.errors) := by
  have inside {s : Session} {c : Caller} (at_k : s.callers[k]? = some c) : k < s.callers.length :=
    (List.getElem?_eq_some_iff.mp at_k).1
  have awaiting {s : Session} (stopped : s.scheduler = .stopped) (at_k : s.callers[k]? = some .awaiting) :
      ∃ t, s.replay [.call k] = some t ∧ t.callers[k]? = some (.closed s.errors) := by
    have goes : s.step .awaiting = some (.closed s.errors,s) := by simp [step,stopped]
    exact ⟨_,replay_cons (call_of_step at_k goes) rfl,List.getElem?_set_self (inside at_k)⟩
  have stopping {s : Session} (stopped : s.scheduler = .stopped) (at_k : s.callers[k]? = some .stopping) :
      ∃ t, s.replay [.call k,.call k] = some t ∧ t.callers[k]? = some (.closed s.errors) := by
    have goes : s.step .stopping = some (.awaiting,{ s with stop := true }) := rfl
    have next := awaiting (s := { s with stop := true, callers := s.callers.set k .awaiting }) stopped
      (List.getElem?_set_self (inside at_k))
    obtain ⟨t,later,ended⟩ := next
    exact ⟨t,replay_cons (call_of_step at_k goes) later,ended⟩
  cases c with
  | closing =>
    have goes : s.step .closing = some (.stopping,{ s with closed := true }) := rfl
    have next := stopping (s := { s with closed := true, callers := s.callers.set k .stopping }) stopped
      (List.getElem?_set_self (inside at_k))
    obtain ⟨t,later,ended⟩ := next
    exact ⟨3,t,replay_cons (call_of_step at_k goes) later,ended⟩
  | stopping =>
    obtain ⟨t,later,ended⟩ := stopping stopped at_k
    exact ⟨2,t,later,ended⟩
  | awaiting =>
    obtain ⟨t,later,ended⟩ := awaiting stopped at_k
    exact ⟨1,t,later,ended⟩
  | closed log => exact ⟨0,s,rfl,by rw [at_k,told log rfl]⟩
  | abandoned sent =>
    obtain rfl : sent = [] := closes
    exact absurd rfl kept
  | _ => exact closes.elim

section
variable {settings : Settings} {info : ImportInfo} {now : Nat} {stop : Bool} {moves later : List Move} {s t : Session}

/-- A call that closes the session is still there, wherever it is. -/
theorem closes_of_run {k : Nat} (run : (start settings info now stop).replay moves = some s)
    (opens : (opened moves)[k]? = some .closing) : ∃ c, s.callers[k]? = some c ∧ c.Closes := by
  have calls := opened_of_run (I := fun _ => True) (P := Caller.Closes) (fun _ _ => trivial)
    (fun _ => closes_of_advances) trivial run
  have none : (start settings info now stop).callers.length = 0 := rfl
  rw [none] at calls
  simpa using calls.2.2 k _ opens trivial

/-- Once the scheduler has stopped, whatever happens writes nothing and is not seen. -/
theorem nothing_after_stopped (run : (start settings info now stop).replay moves = some s)
    (stopped : s.scheduler = .stopped) (on : s.replay later = some t) :
    t.scheduler = .stopped ∧ t.errors = s.errors ∧ t.committed = s.committed ∧ s.trace later = [] := by
  refine replay_induction (P := fun later t =>
    t.scheduler = .stopped ∧ t.errors = s.errors ∧ t.committed = s.committed ∧ s.trace later = [])
    ⟨stopped,rfl,rfl,rfl⟩ ?_ on
  intro later u m v reached before move
  obtain ⟨stopped,errors,committed,unseen⟩ := before
  have ord := orderly (replay_trans run reached)
  have step := step_of_apply move
  obtain ⟨still,sameErrors,sameCommitted⟩ := stopped_step ord stopped step
  refine ⟨still,sameErrors.trans errors,sameCommitted.trans committed,?_⟩
  rw [trace,gather_snoc _ reached move,unseen_of_stopped ord stopped step]
  simpa [trace] using unseen

/-- The end of a session is final. Once a call has seen the session end, whatever is done later, nothing is
    asked of the store and the queue and none of their answers is awaited, and the list of what is committed
    and the log of failures stay as they are. Every call that then begins to hand over records, even none,
    is told that the session is closed. Every call that closes the session, unless it is given up, comes to
    its end, and all answer alike: well if no batch has failed, and with the whole log otherwise. -/
theorem close_is_final {log : FailureLog} (run : (start settings info now stop).replay moves = some s)
    (closed : .closed log ∈ s.callers) (on : s.replay later = some t) :
    (s.trace later = [] ∧ t.flush? = none) ∧
      (t.committed = s.committed ∧ t.errors = s.errors) ∧
      (∀ k records, (opened later)[k]? = some (.entering records) →
        ∃ c, t.callers[s.callers.length + k]? = some c ∧
          (c = .refused [] ∨ (c = .entering records ∧ t.step c = some (.refused [],t)))) ∧
      (∀ k, (opened (moves ++ later))[k]? = some .closing → t.callers[k]? ≠ some (.abandoned []) →
        ∃ n u c, t.replay (List.replicate n (.call k)) = some u ∧ u.callers[k]? = some c ∧
          c.verdict? = some (if s.errors.isEmpty then .ok () else .error s.errors)) ∧
      ∀ c ∈ t.callers, ∀ v, c.verdict? = some v → v = if s.errors.isEmpty then .ok () else .error s.errors := by
  have whole := replay_trans run on
  obtain ⟨stopped,-⟩ := log_of_closed run closed
  obtain ⟨still,errors,committed,unseen⟩ := nothing_after_stopped run stopped on
  have told (log : FailureLog) (member : .closed log ∈ t.callers) : log = s.errors :=
    (log_of_closed whole member).2.trans errors
  refine ⟨⟨unseen,((orderly whole).ended still).1⟩,⟨committed,errors⟩,?_,?_,?_⟩
  · intro k records at_k
    have shut : s.closed = true := (orderly run).closed (by rw [stopped]; rfl)
    have calls := opened_of_run (I := fun s => s.closed = true)
      (P := fun c => c = .entering records ∨ c = .refused []) closed_stays turned_away shut on
    obtain ⟨c,here,rfl | rfl⟩ := calls.2.2 k _ at_k (.inl rfl)
    · exact ⟨_,here,.inr ⟨rfl,by simp [step,calls.1]⟩⟩
    · exact ⟨_,here,.inl rfl⟩
  · intro k at_k kept
    obtain ⟨c,here,closes⟩ := closes_of_run whole at_k
    have given : c ≠ .abandoned [] := by
      rintro rfl
      exact kept here
    obtain ⟨n,u,returns,answer⟩ := close_returns still here closes given fun log same =>
      (log_of_closed whole (same ▸ List.mem_of_getElem? here)).2
    refine ⟨n,u,_,returns,answer,?_⟩
    rw [errors]
    by_cases empty : s.errors.isEmpty <;> simp [Caller.verdict?,FailureLog.nonempty?,empty]
  · intro c member v answer
    obtain ⟨log,rfl,rfl⟩ := Caller.verdict?_eq answer
    rw [told log member]

/-- After the end of `closingRun` one user hands over nothing and another closes the session again. -/
theorem close_is_final_closing :
    ∃ s t, eager.replay closingRun = some s ∧ s.replay [.ingest [],.close,.elapse 1,.call 3] = some t ∧
      s.trace [.ingest [],.close,.elapse 1,.call 3] = [] ∧ t.step (.entering []) = some (.refused [],t) ∧
      ∃ n u c, t.replay (List.replicate n (.call 3)) = some u ∧ u.callers[3]? = some c ∧
        c.verdict? = some (.error ⟨[⟨[.bare "dht" 2],.importClosed⟩]⟩) := by
  have runs : ((eager.replay closingRun).bind fun s =>
      (s.replay [.ingest [],.close,.elapse 1,.call 3]).map fun t => (s.errors,s.callers,t.callers)) =
        some (⟨[⟨[.bare "dht" 2],.importClosed⟩]⟩,
          [.accepted [.bare "dht" 1,.bare "dht" 2],.closed ⟨[⟨[.bare "dht" 2],.importClosed⟩]⟩],
          [.accepted [.bare "dht" 1,.bare "dht" 2],.closed ⟨[⟨[.bare "dht" 2],.importClosed⟩]⟩,.entering [],
            .stopping]) := rfl
  obtain ⟨s,run,runs⟩ := Option.bind_eq_some_iff.mp runs
  obtain ⟨t,on,ends⟩ := Option.map_eq_some_iff.mp runs
  simp only [Prod.mk.injEq] at ends
  obtain ⟨errors,before,after⟩ := ends
  have closed : .closed ⟨[⟨[.bare "dht" 2],.importClosed⟩]⟩ ∈ s.callers := by simp [before]
  obtain ⟨⟨unseen,-⟩,-,refused,returns,-⟩ := close_is_final run closed on
  refine ⟨s,t,run,on,unseen,?_,?_⟩
  · obtain ⟨c,here,rest⟩ := refused 0 [] rfl
    obtain rfl : c = .entering [] := by simpa [before,after] using here.symm
    rcases rest with turned | ⟨-,goes⟩
    · cases turned
    · exact goes
  · have last := returns 3 rfl (by simp [after])
    rw [errors] at last
    exact last

end

end Session

end Intake
