import Intake.Proofs.Session.Conservation
import Intake.Proofs.Session.Batches
import Intake.Proofs.Writer.Passes

/-!
A drain is a barrier. Records come into the buffer one after another, and the batches
that are taken from it hold them in this order (`pushed_eq`). A drain returns when no
record is underway, which leaves none in the channel and none with a task
(`nothing_underway`): all that was handed over is in the buffer or in a batch, and what
is handed over later comes after it, there and in the list of what is committed.
-/
namespace Intake

/-- The records of a batch, each with whether it was written in the end. -/
def Pass.fates (p : Pass) : List (Record × Bool) := p.batch.map fun r => (r,p.result.isOk)

/-- The info hashes of the records that were written. -/
def writtenHashes (fates : List (Record × Bool)) : List InfoHash := (fates.filter (·.2)).map (·.1.infoHash)

theorem writtenHashes_append (before after : List (Record × Bool)) :
    writtenHashes (before ++ after) = writtenHashes before ++ writtenHashes after := by
  simp [writtenHashes]

theorem Pass.map_fates (p : Pass) : p.fates.map (·.1) = p.batch := by simp [fates,Function.comp_def]

theorem Written.hashes_eq {w u : Writer} {p : Pass} (written : Written w p u) : p.hashes = writtenHashes p.fates := by
  cases written with
  | refuse plan | fail plan => simp [Pass.hashes,writtenHashes,Pass.fates,Except.isOk,Except.toBool,List.filter_map]
  | @commit batch calls plan =>
    have all : batch.filter (fun _ => true) = batch := List.filter_eq_self.mpr fun _ _ => rfl
    simp [Pass.hashes,Writer.hashes,writtenHashes,Pass.fates,Except.isOk,Except.toBool,List.filter_map,
      Function.comp_def,all]

theorem Serial.hashes_eq {w u : Writer} {passes : List Pass} (serial : Serial w passes u) :
    passes.flatMap Pass.hashes = writtenHashes (passes.flatMap Pass.fates) := by
  refine serial.keeps (P := fun passes _ => passes.flatMap Pass.hashes = writtenHashes (passes.flatMap Pass.fates))
    rfl ?_
  intro passes v p u before written
  simp only [List.flatMap_append,List.flatMap_singleton,writtenHashes_append]
  rw [before,written.hashes_eq]

namespace Session

/-- The record that a move puts into the buffer. -/
def pushes (s : Session) : Move → List Record
  | .acquire => s.queue.head?.elim [] Task.records
  | _ => []

/-- The records that were put into the buffer, in order. -/
def pushed (s : Session) (moves : List Move) : List Record := s.gather (fun s m _ => s.pushes m) moves

/-- The batches that were taken and have ended, in order, with what became of them. -/
structure Ended (s₀ : Session) (moves : List Move) (s : Session) (passes : List Pass) : Prop where
  serial : Serial s₀.writer passes s.writer
  /-- The batch that is written is the only one that was taken and has not ended. -/
  taken : (s₀.taken moves).map (·.batch) = passes.map (·.batch) ++ s.flush?.toList.map (·.batch)
  committed : s.committed = passes.flatMap Pass.hashes
  errors : s.errors.failures = passes.filterMap Pass.failed?

variable {s t : Session} {m : Move}

/-! ### One move -/

theorem takings_of_other (other : m ≠ .acquire) (step : Step s m t) : s.takings m t = [] := by
  rcases takings_cases step with ⟨-,none⟩ | ⟨task,rest,acquires,-⟩
  · exact none
  · exact absurd acquires other

/-- What is put into the buffer stays there behind the others, or all of it is taken. -/
theorem pushes_step (step : Step s m t) :
    s.buffer ++ s.pushes m = (s.takings m t).flatMap (·.batch) ++ t.buffer := by
  have none (other : m ≠ .acquire) := takings_of_other other step
  have seen := batch_takings step
  cases step with
  | @acquire task rest _ free next does =>
    have brought : s.pushes .acquire = task.records := by simp [pushes,next]
    have first {task' : Task} {others : List Task} (queue : s.queue = task' :: others) : task = task' :=
      (List.cons.inj (next.symm.trans queue)).1
    have locked := locked_acquire free next does
    rw [List.flatMap_def,seen,brought]
    generalize s.events .acquire t = events at locked
    cases locked with
    | keep _ queue => simp [first queue]
    | idle _ queue brings empty => simp [first queue,brings,empty]
    | refuse _ queue whole => simp [first queue,whole,fail,Event.taken?]
    | begin _ queue whole => simp [first queue,whole,Event.taken?]
  | enter opens => rcases Move.of_caller? opens with ⟨_,rfl,-⟩ | ⟨rfl,-⟩ | ⟨rfl,-⟩ <;> simp [none,pushes]
  | _ => simp [none,pushes]

/-- The batch that is written was taken last, by the task that has the lock. -/
theorem taken_step {earlier : List Taking} (step : Step s m t)
    (last : ∀ f, s.flush? = some f → ∃ before time, earlier = before ++ [⟨f.task,f.batch,time⟩]) :
    ∀ f, t.flush? = some f → ∃ before time, earlier ++ s.takings m t = before ++ [⟨f.task,f.batch,time⟩] := by
  intro f writing
  rcases locked_or_quiet step with locked | quiet
  · generalize seen : s.events m t = events at locked
    cases locked with
    | @begin task rest batch call left free next =>
      obtain rfl : ⟨task,batch,call,left⟩ = f := by simpa using writing
      exact ⟨earlier,s.now,by simp [takings,next,seen,Event.taken?]⟩
    | @next f' call left writes more =>
      obtain rfl : { f' with call, left } = f := by simpa using writing
      obtain ⟨before,time,whole⟩ := last f' writes
      exact ⟨before,time,by simp [takings_of_other _ step,whole]⟩
    | _ => simp at writing
  · obtain ⟨before,time,whole⟩ := last f (quiet.flush? ▸ writing)
    have none : s.takings m t = [] := by
      rw [← List.map_eq_nil_iff,batch_takings step,taken?_of_quiet quiet]
    exact ⟨before,time,by rw [none,List.append_nil,whole]⟩

/-! ### Events of a batch -/

theorem filterMap_talk {α : Type} {f : Event → Option α} (called : ∀ call, f (.called call) = none)
    (answered : ∀ result, f (.answered result) = none) (exchanges : Exchanges) :
    (Pass.talk exchanges).filterMap f = [] := by
  induction exchanges with
  | nil => rfl
  | cons e rest ih => simpa [Pass.talk,called,answered] using ih

theorem taken?_talk (exchanges : Exchanges) : (Pass.talk exchanges).filterMap Event.taken? = [] :=
  filterMap_talk (fun _ => rfl) (fun _ => rfl) exchanges

theorem committed?_talk (exchanges : Exchanges) : committedBatches (Pass.talk exchanges) = [] :=
  filterMap_talk (fun _ => rfl) (fun _ => rfl) exchanges

/-- The batch that is written has been taken and has not ended. -/
theorem taken_of_opens {opens : List Event} (current : s.Opens opens) :
    opens.filterMap Event.taken? = s.flush?.toList.map (·.batch) ∧ committedBatches opens = [] := by
  cases writes : s.flush? with
  | none =>
    obtain rfl : opens = [] := by simpa [Opens,writes] using current
    exact ⟨rfl,rfl⟩
  | some f =>
    simp only [Opens,writes] at current
    obtain ⟨made,-,rfl⟩ := current
    constructor
    · simp [taken?_talk,Event.taken?]
    · simp [committed?_talk,Event.committed?]

/-- The batches that have ended are those that were written to the end and those that have failed. -/
theorem ended_perm (passes : List Pass) :
    (passes.flatMap (·.batch)).Perm ((committedBatches (passes.flatMap Pass.events)).flatten ++
      (passes.filterMap Pass.failed?).flatMap (·.records)) := by
  induction passes with
  | nil => exact .rfl
  | cons p rest ih =>
    rw [List.perm_iff_count] at ih ⊢
    intro r
    have later := ih r
    cases result : p.result with
    | ok hashes =>
      simp [Pass.events,Pass.failed?,result,committed?_talk,Event.committed?] at later ⊢
      omega
    | error f =>
      simp [Pass.events,Pass.failed?,result,committed?_talk,Event.committed?] at later ⊢
      omega

/-! ### Runs -/

section
variable {settings : Settings} {info : ImportInfo} {now : Nat} {stop : Bool} {moves : List Move}

/-- The batches that were taken hold the records that were put into the buffer, in order, but for those that
    are there still. -/
theorem pushed_eq (run : (start settings info now stop).replay moves = some s) :
    (start settings info now stop).pushed moves =
      ((start settings info now stop).taken moves).flatMap (·.batch) ++ s.buffer := by
  refine replay_induction (P := fun moves s => (start settings info now stop).pushed moves =
    ((start settings info now stop).taken moves).flatMap (·.batch) ++ s.buffer) rfl ?_ run
  intro moves s m t before same move
  rw [pushed,gather_snoc _ before move,taken,gather_snoc _ before move,List.flatMap_append,List.append_assoc,
    ← pushes_step (step_of_apply move),← List.append_assoc]
  rw [pushed,taken] at same
  rw [same]

theorem taken_last (run : (start settings info now stop).replay moves = some s) {f : Flush}
    (writes : s.flush? = some f) :
    ∃ before time, (start settings info now stop).taken moves = before ++ [⟨f.task,f.batch,time⟩] := by
  refine replay_induction (P := fun moves s => ∀ f, s.flush? = some f → ∃ before time,
    (start settings info now stop).taken moves = before ++ [⟨f.task,f.batch,time⟩]) ?_ ?_ run f writes
  · intro f writes
    cases writes
  · intro moves s m t before last move
    rw [taken,gather_snoc _ before move]
    exact taken_step (step_of_apply move) last

theorem ended (run : (start settings info now stop).replay moves = some s) :
    ∃ passes, Ended (start settings info now stop) moves s passes ∧
      committedBatches ((start settings info now stop).trace moves) = committedBatches (passes.flatMap Pass.events) := by
  obtain ⟨passes,opens,all⟩ := serialized run
  obtain ⟨current,unended⟩ := taken_of_opens all.current
  refine ⟨passes,⟨all.serial,?_,all.committed,all.errors⟩,?_⟩
  · have one (p : Pass) : p.events.filterMap Event.taken? = [p.batch] := by
      simp [Pass.events,taken?_talk,Event.taken?]
    rw [batch_taken run,all.history,List.filterMap_append,current,List.filterMap_flatMap]
    simp only [one,List.map_eq_flatMap]
  · rw [all.history,committedBatches_append,unended,List.append_nil]

theorem Ended.pushed_eq {passes : List Pass} (ends : Ended (start settings info now stop) moves s passes)
    (run : (start settings info now stop).replay moves = some s) :
    (start settings info now stop).pushed moves = passes.flatMap (·.batch) ++ (s.writing ++ s.buffer) := by
  rw [Session.pushed_eq run,List.flatMap_def,ends.taken,List.flatten_append,← List.flatMap_def]
  cases writes : s.flush? <;> simp [writing,writes]

/-- Every record that was handed over is in the channel or with a task, or was put into the buffer. -/
theorem handed_eq (run : (start settings info now stop).replay moves = some s) :
    ((start settings info now stop).handed moves).Perm
      (s.slot?.toList ++ s.carried ++ (start settings info now stop).pushed moves) := by
  obtain ⟨passes,ends,written⟩ := ended run
  have places := places_perm run
  have all := ended_perm passes
  rw [← written,← ends.errors] at all
  rw [ends.pushed_eq run]
  rw [List.perm_iff_count] at places all ⊢
  intro r
  have here := places r
  have there := all r
  simp only [Session.places,FailureLog.records,List.count_append] at here there ⊢
  omega

/-- When no record is underway, none is in the channel and none with a task. -/
theorem nothing_underway (run : (start settings info now stop).replay moves = some s)
    (kept : (start settings info now stop).lost moves = []) (settled : s.underway = 0) :
    s.slot? = none ∧ s.carried = [] ∧ ∀ f, s.flush? = some f → f.task.records = [] := by
  have exact_ := underway_eq run
  simp only [settled,kept,counted,storing,tasks,List.flatMap_append,List.length_append,List.length_nil] at exact_
  refine ⟨?_,?_,?_⟩
  · cases slot : s.slot? with
    | none => rfl
    | some r =>
      simp only [slot,Option.toList_some,List.length_singleton] at exact_
      omega
  · rw [carried,List.flatMap_append]
    refine List.append_eq_nil_iff.mpr ⟨List.length_eq_zero_iff.mp ?_,List.length_eq_zero_iff.mp ?_⟩ <;> omega
  · intro f writes
    simp only [writes,Option.map_some,Option.toList_some,List.flatMap_singleton] at exact_
    exact List.length_eq_zero_iff.mp (by omega)

/-- What was taken and has not ended was taken by the task that has the lock. -/
theorem Ended.rest {passes : List Pass} (ends : Ended (start settings info now stop) moves s passes)
    (run : (start settings info now stop).replay moves = some s) :
    ∀ k ∈ ((start settings info now stop).taken moves).drop passes.length, ∃ f, s.flush? = some f ∧ k.task = f.task := by
  have length := congrArg List.length ends.taken
  simp only [List.length_append,List.length_map] at length
  intro k member
  cases writes : s.flush? with
  | none =>
    have count : ((start settings info now stop).taken moves).length = passes.length := by simpa [writes] using length
    rw [← count,List.drop_length] at member
    cases member
  | some f =>
    obtain ⟨before,time,whole⟩ := taken_last run writes
    have count : before.length = passes.length := by simpa [writes,whole] using length
    rw [whole,← count,List.drop_left,List.mem_singleton] at member
    exact ⟨f,rfl,by rw [member]⟩

/-- Where the records that were put into the buffer fall into earlier and later ones, so do those of the batches
    that have ended, and what is committed. -/
theorem Ended.split {s₀ : Session} {passes : List Pass} {early late : List Record} (ends : Ended s₀ moves s passes)
    (order : early ++ late = passes.flatMap (·.batch) ++ (s.writing ++ s.buffer)) :
    ∃ before after, passes.flatMap Pass.fates = before ++ after ∧ before.map (·.1) <+: early ∧
      (after = [] ∨ before.map (·.1) = early) ∧ after.map (·.1) <+: late ∧
      s.committed = writtenHashes before ++ writtenHashes after := by
  have records : (passes.flatMap Pass.fates).map (·.1) = passes.flatMap (·.batch) := by
    simp only [List.map_flatMap,Pass.map_fates]
  rw [ends.committed.trans ends.serial.hashes_eq]
  rw [← records] at order
  -- The batches that have ended reach into the later records, or they do not reach beyond the earlier ones.
  rcases List.append_eq_append_iff.mp order with ⟨more,whole,rest⟩ | ⟨short,whole,-⟩
  · obtain ⟨before,after,split,earlier,later⟩ := List.map_eq_append_iff.mp whole
    refine ⟨before,after,split,?_,.inr earlier,?_,?_⟩
    · exact earlier ▸ List.prefix_rfl
    · exact ⟨_,by rw [later,rest]⟩
    · rw [split,writtenHashes_append]
  · refine ⟨passes.flatMap Pass.fates,[],(List.append_nil _).symm,?_,.inl rfl,List.nil_prefix,?_⟩
    · exact ⟨short,whole.symm⟩
    · exact (List.append_nil _).symm

/-- A drain returns when no record is underway, and changes nothing but its own call. -/
theorem drain_returns {k : Nat} (waits : s.callers[k]? = some .draining) (returns : s.apply (.call k) = some t) :
    s.underway = 0 ∧ t.slot? = s.slot? := by
  by_cases settled : s.underway = 0
  · obtain rfl : { s with callers := s.callers.set k .drained } = t := by
      simpa [apply,waits,Session.step,settled] using returns
    exact ⟨settled,rfl⟩
  · simp [apply,waits,Session.step,settled] at returns

/-- When a drain returns, and no call was given up that had yet to send a record, then every record that was
    handed over by then, and so all those of every call that has ended well, was put into the buffer. Each batch
    that a record has filled has ended, and is in the list of what is committed or in the log. What is handed over
    later comes into the buffer later: it stands behind in the batches that are taken, and its info hashes stand
    behind in the list of what is committed. -/
theorem drain_is_barrier {k : Nat} (run : (start settings info now stop).replay moves = some s)
    (kept : (start settings info now stop).lost moves = []) (waits : s.callers[k]? = some .draining)
    (returns : s.apply (.call k) = some t) :
    let first := start settings info now stop
    s.sent.Perm (first.pushed moves) ∧
      (∀ (j : Nat) (records sent : List Record), (opened moves)[j]? = some (.entering records) →
        s.callers[j]? = some (.accepted sent) → sent = records) ∧
      (∃ passes, Ended first moves s passes ∧
        ∀ taking ∈ (first.taken moves).drop passes.length, taking.task.records = []) ∧
      ∀ (later : List Move) (u : Session), t.replay later = some u →
        (t.handed later).Perm (u.slot?.toList ++ u.carried ++ t.pushed later) ∧
          (first.taken (moves ++ .call k :: later)).flatMap (·.batch) ++ u.buffer =
            first.pushed moves ++ t.pushed later ∧
          ∃ passes before after, Ended first (moves ++ .call k :: later) u passes ∧
            passes.flatMap Pass.fates = before ++ after ∧ before.map (·.1) <+: first.pushed moves ∧
            (after = [] ∨ before.map (·.1) = first.pushed moves) ∧ after.map (·.1) <+: t.pushed later ∧
            u.committed = writtenHashes before ++ writtenHashes after := by
  intro first
  obtain ⟨settled,slot⟩ := drain_returns waits returns
  obtain ⟨room,carried,bare⟩ := nothing_underway run kept settled
  have here : (first.handed moves).Perm (first.pushed moves) := by simpa [room,carried] using handed_eq run
  refine ⟨(handed_perm run).symm.trans here,?_,?_,?_⟩
  · intro j records sent entered accepted
    obtain ⟨c,at_j,handles⟩ := (follows_of_opened run).2 j records entered
    obtain rfl : .accepted sent = c := Option.some.inj (accepted.symm.trans at_j)
    exact handles
  · obtain ⟨passes,ends,-⟩ := ended run
    refine ⟨passes,ends,?_⟩
    intro taking member
    obtain ⟨f,writes,by_⟩ := ends.rest run taking member
    rw [by_]
    exact bare f writes
  · intro later u on
    have all : first.replay (moves ++ .call k :: later) = some u := replay_trans run (replay_cons returns on)
    have handed : first.handed (moves ++ .call k :: later) = first.handed moves ++ t.handed later := by
      rw [Session.handed,gather_append _ run,gather_cons _ returns,handedAt_of_same slot]
      rfl
    have pushed : first.pushed (moves ++ .call k :: later) = first.pushed moves ++ t.pushed later := by
      rw [Session.pushed,gather_append _ run,gather_cons _ returns]
      rfl
    refine ⟨?_,(pushed_eq all).symm.trans pushed,?_⟩
    · have there := handed_eq all
      rw [handed,pushed] at there
      rw [List.perm_iff_count] at here there ⊢
      intro r
      have early := here r
      have both := there r
      simp only [List.count_append] at early both ⊢
      omega
    · obtain ⟨passes,ends,-⟩ := ended all
      obtain ⟨before,after,split⟩ := ends.split (pushed.symm.trans (ends.pushed_eq all))
      exact ⟨passes,before,after,ends,split⟩

/-- A drain is called when two of three records are written, and returns when the third is in the buffer. -/
def drainRun : List Move :=
  [.ingest [.bare "dht" 1,.bare "dht" 2,.bare "dht" 3],.arm,.call 0,.call 0,.call 0,.call 0,.receive,.start 0,
    .acquire,.settle,.arm,.call 0,.call 0,.call 0,.receive,.start 0,.acquire,.arm,.call 0,.call 0,.call 0,.receive,
    .call 0,.drain,.start 0,.answer (.ok ()),.answer (.ok ()),.answer (.ok ()),.settle,.acquire,.settle]

/-- A fourth record is handed over and fills a batch. -/
def afterDrain : List Move :=
  [.ingest [.bare "dht" 4],.arm,.call 2,.call 2,.call 2,.call 2,.receive,.start 0,.acquire,.answer (.ok ()),
    .answer (.ok ())]

theorem drain_is_barrier_paired :
    ∃ s t u, paired.replay drainRun = some s ∧ s.apply (.call 1) = some t ∧ t.replay afterDrain = some u ∧
      s.sent.Perm [.bare "dht" 1,.bare "dht" 2,.bare "dht" 3] ∧
      ∃ before after, before.map (·.1) <+: paired.pushed drainRun ∧ after.map (·.1) <+: t.pushed afterDrain ∧
        u.committed = writtenHashes before ++ writtenHashes after ∧ u.committed.length = 4 := by
  have ends : (paired.replay drainRun).map (fun s => (s.callers[1]?,(s.apply (.call 1)).bind fun t =>
      (t.replay afterDrain).map (·.committed.length))) = some (some .draining,some 4) := rfl
  obtain ⟨s,run,ends⟩ := Option.map_eq_some_iff.mp ends
  obtain ⟨waits,ends⟩ := Prod.mk.inj ends
  obtain ⟨t,returns,ends⟩ := Option.bind_eq_some_iff.mp ends
  obtain ⟨u,on,length⟩ := Option.map_eq_some_iff.mp ends
  obtain ⟨all,-,-,order⟩ := drain_is_barrier run rfl waits returns
  obtain ⟨-,-,_,before,after,-,-,early,-,late,committed⟩ := order afterDrain u on
  exact ⟨s,t,u,run,returns,on,all,before,after,early,late,committed,length⟩

end

end Session

end Intake
