import Intake.Proofs.Command.Gate
import Intake.Proofs.Command.Import
import Intake.Proofs.Session.Calm

/-!
Imports that nothing disturbs: no signal arrives and every call succeeds. Their lines
alone settle how they end, whatever the order in which things happen
(`Undisturbed.ends`), and the program's import is one of them if its store and its queue
do all that they are asked (`undisturbed_import`).
-/
namespace Intake.Command

/-- No signal arrives, and no call is refused. -/
def Calm (acts : List Act) : Prop := .within .cancel ∉ acts ∧ ∀ f, .within (.answer (.error f)) ∉ acts

/-- An import of these lines that nothing disturbs can end so, with these info hashes committed. -/
def Undisturbed (settings : Settings) (info : ImportInfo) (now : Nat) (lines : List (Except ReadFault String))
    (result : Except ReadFault Summary) (committed : List InfoHash) : Prop :=
  ∃ acts c, (Course.start settings info now lines).replay acts = some c ∧ Calm acts ∧ c.outcome? = some result ∧
    c.session.committed = committed

/-- The record of a line that has been read so. -/
def record? (reading : Except Failure (Option Record)) : Option Record := reading.toOption.join

/-- The line is skipped. -/
def isMalformed (reading : Except Failure (Option Record)) : Bool := reading.toOption.isNone

/-- What an import comes to whose lines are read so, if nothing disturbs it. -/
def tally (readings : List (Except Failure (Option Record))) : Summary where
  lines := readings.length
  skipped := readings.countP isMalformed
  accepted := (readings.filterMap record?).length
  committed := (readings.filterMap record?).length
  interrupted := false
  errors? := none

variable {settings : Settings} {info : ImportInfo} {now : Nat} {lines : List (Except ReadFault String)} {c : Course}
  {acts : List Act}

theorem isCalm_of_inner {m : Move} (inner : m.isInner = true) (unsignalled : m ≠ .cancel) : m.isCalm = true := by
  cases m with
  | ingest | drain | close | abandon | orphan => cases inner
  | cancel => exact absurd rfl unsignalled
  | _ => rfl

/-- Where no signal arrives, the session takes every record until the loop closes it, and the loop is not
    interrupted. -/
theorem takes_of_run (run : (Course.start settings info now lines).replay acts = some c)
    (unsignalled : .within .cancel ∉ acts) :
    c.loop.interrupted = false ∧ (c.closing = false → c.session.Takes) := by
  refine Course.replay_induction (P := fun acts c => .within .cancel ∉ acts →
    c.loop.interrupted = false ∧ (c.closing = false → c.session.Takes)) ?_ ?_ run unsignalled
  · intro _
    exact ⟨rfl,fun _ => ⟨rfl,rfl,rfl,rfl,by simp [Course.start,Session.start]⟩⟩
  intro acts c a d reached before act unsignalled
  obtain ⟨early,last⟩ : .within .cancel ∉ acts ∧ .within .cancel ∉ [a] := by simpa [not_or] using unsignalled
  obtain ⟨calmly,takes⟩ := before early
  obtain ⟨moves,session,-,-⟩ := session_of_run reached
  have ord := Session.orderly session
  cases goes_of_apply act with
  | @within m s inner move =>
    have other : m ≠ .cancel := by
      rintro rfl
      exact last (by simp)
    exact ⟨calmly,fun apart =>
      Session.takes_step ord (takes apart) (Session.step_of_apply move) (isCalm_of_inner inner other)⟩
  | fault | blank | skip | taken => exact ⟨calmly,takes⟩
  | hand reading apart unread read entered =>
    exact ⟨calmly,fun apart => Session.takes_step ord (takes apart) (Session.step_of_apply entered) rfl⟩
  | @refused r k log handing at_last isOver other =>
    obtain ⟨settled,fates,pending,calls,books⟩ := books_of_run reached
    obtain ⟨-,-,-,apart,-⟩ := books.handing handing at_last
    -- A session that takes every record has no caller that was refused.
    have served := (takes apart).served k (List.mem_of_getLast? at_last)
    cases k with
    | accepted sent => exact absurd rfl (other sent)
    | entering | looking | counting | sending => cases isOver
    | _ => cases served
  | heed reading told apart => simp [(takes apart).stop] at told
  | close => exact ⟨calmly,by simp⟩

/-- An import to which no signal arrives is not interrupted. -/
theorem uninterrupted_of_run {summary : Summary} (run : (Course.start settings info now lines).replay acts = some c)
    (ended : c.outcome? = some (.ok summary)) (unsignalled : .within .cancel ∉ acts) : summary.interrupted = false := by
  obtain ⟨closing,errors,-,concluded⟩ := Course.outcome?_eq_some ended
  obtain ⟨-,rfl⟩ := Loop.conclude_eq_ok concluded.symm
  exact (takes_of_run run unsignalled).1

theorem unsignalled_of_fits {σ : Type} {k : Collaborator σ} (fits : ∀ m, .within m ∈ acts → Fits k false m) :
    .within .cancel ∉ acts := by
  intro member
  rcases fits _ member with ⟨work,-⟩ | ⟨-,signal⟩
  · cases work
  · cases signal

/-- An import that ends with a summary was interrupted just if a signal was sent. -/
theorem interrupted_of_import {σ : Type} {k : Collaborator σ} {input : Input} {s : σ} {summary : Summary}
    (imported : (runImport k settings info input s).1 = .ok summary) : summary.interrupted = input.signalled := by
  obtain ⟨acts,c,run,fits,outcome,-,ends⟩ := course_of_import k settings info input s
  have ended : c.outcome? = some (.ok summary) := outcome.trans (congrArg some imported)
  cases signalled : input.signalled with
  | false =>
    rw [signalled] at fits
    exact uninterrupted_of_run run ended (unsignalled_of_fits fits)
  | true =>
    obtain ⟨closing,errors,-,concluded⟩ := Course.outcome?_eq_some ended
    obtain ⟨faultless,rfl⟩ := Loop.conclude_eq_ok concluded.symm
    obtain ⟨settled,fates,pending,last,books⟩ := books_of_run run
    exact (books.ended.mp (ends signalled)).resolve_right (by simp [faultless])

/-! ### The fates of lines where nothing is refused -/

theorem isSkipped_of_meets {fate : Fate} {line : String} (met : fate.Meets line) :
    fate.isSkipped = isMalformed (parseLine line) := by
  cases fate <;> simp [isMalformed,Fate.isSkipped,show parseLine line = _ from met,Except.toOption]

theorem taken_of_meets {fate : Fate} {line : String} (met : fate.Meets line) (welcome : ∀ r, fate ≠ .refused r) :
    fate.taken? = record? (parseLine line) := by
  cases fate with
  | refused r => exact absurd rfl (welcome r)
  | blank | skipped | accepted => simp [record?,Fate.taken?,show parseLine line = _ from met,Except.toOption]

/-- Where no record is refused, the fates of lines are what they are read as. -/
theorem tally_of_meets {fates : List Fate} {read : List String} (meets : List.Forall₂ Fate.Meets fates read)
    (welcome : ∀ r, .refused r ∉ fates) :
    fates.countP Fate.isSkipped = (read.map parseLine).countP isMalformed ∧
      fates.filterMap Fate.taken? = (read.map parseLine).filterMap record? := by
  induction meets with
  | nil => exact ⟨rfl,rfl⟩
  | @cons fate line fates read met rest ih =>
    obtain ⟨skipped,taken⟩ := ih fun r member => welcome r (List.mem_cons_of_mem _ member)
    have kept (r : Record) : fate ≠ .refused r := fun same => welcome r (by simp [same])
    exact ⟨by simp only [List.map_cons,List.countP_cons,skipped,isSkipped_of_meets met],
      by simp only [List.map_cons,List.filterMap_cons,taken,taken_of_meets met kept]⟩

theorem valid_of_record? {read : List String} :
    ∀ r ∈ (read.map parseLine).filterMap record?, r.validate = .ok () := by
  intro r member
  obtain ⟨reading,there,passed⟩ := List.mem_filterMap.mp member
  obtain ⟨line,-,rfl⟩ := List.mem_map.mp there
  cases parsed : parseLine line with
  | error f => simp [record?,parsed,Except.toOption] at passed
  | ok r? =>
    obtain rfl : r? = some r := by simpa [record?,parsed,Except.toOption] using passed
    exact valid_of_parseLine parsed

/-- A calm import that has closed has met no error, and has committed all records that it sent. -/
theorem committed_of_calm {errors : FailureLog} (run : (Course.start settings info now lines).replay acts = some c)
    (calm : Calm acts) (closed : .closed errors ∈ c.session.callers)
    (valid : ∀ r ∈ c.session.sent, r.validate = .ok ()) :
    errors = {} ∧ c.session.committed.Perm (Writer.hashes c.session.sent) := by
  obtain ⟨moves,session,stems,-⟩ := session_of_run run
  have faultless : errors = {} := by
    rw [(Session.log_of_closed session closed).2]
    refine Session.errors_of_run session ?_ valid
    intro f member
    rcases stems _ member with ⟨-,there⟩ | ⟨r,other⟩ | other
    · exact calm.2 f there
    · cases other
    · cases other
  obtain ⟨written,committed,all_sent⟩ := Session.written_of_closed session closed
  rw [faultless] at all_sent
  refine ⟨faultless,?_⟩
  rw [committed]
  simpa [Writer.hashes,FailureLog.records] using (all_sent.map (·.infoHash)).symm

/-- The import has read its lines up to the first that is no text, and has committed all that passed. -/
theorem Undisturbed.ends {result : Except ReadFault Summary} {committed : List InfoHash}
    (undisturbed : Undisturbed settings info now lines result committed) :
    ∃ read : List String, committed.Perm (Writer.hashes ((read.map parseLine).filterMap record?)) ∧
      ((lines = read.map .ok ∧ result = .ok (tally (read.map parseLine))) ∨
        ∃ fault rest, lines = read.map .ok ++ .error fault :: rest ∧ result = .error fault) := by
  obtain ⟨acts,c,run,calm,ended,rfl⟩ := undisturbed
  obtain ⟨settled,fates,pending,last,books⟩ := books_of_run run
  obtain ⟨closing,errors,at_last,concluded⟩ := Course.outcome?_eq_some ended
  obtain ⟨rfl,rfl,ends,-⟩ := books.closing closing at_last
  obtain ⟨calmly,-⟩ := takes_of_run run calm.1
  have welcome (r : Record) : .refused r ∉ fates := by
    intro member
    obtain ⟨before,after,split⟩ := List.append_of_mem member
    simpa [calmly] using (books.refused before r after split).2.1
  obtain ⟨skipped,taken⟩ := tally_of_meets books.meets welcome
  have closed : .closed errors ∈ c.session.callers := List.mem_of_getLast? at_last
  have sent : c.session.sent = (settled.map parseLine).filterMap record? := by
    simp [Session.sent,books.callers,sent_of_fates,Caller.sent,taken]
  obtain ⟨faultless,perm⟩ := committed_of_calm run calm closed (sent ▸ valid_of_record?)
  rw [sent] at perm
  refine ⟨settled,perm,?_⟩
  have input := books.input
  rw [List.append_nil] at input
  cases stuck : c.loop.fault? with
  | some fault =>
    refine .inr ⟨fault,c.unread,by simpa [stuck] using input,?_⟩
    simp [concluded,Loop.conclude,stuck]
  | none =>
    have all : c.unread = [] := by
      rcases ends with stage | ⟨-,all⟩
      · simpa [calmly,stuck] using books.ended.mp stage
      · exact all
    have lines : c.loop.lines = settled.length := by simpa using books.lines
    have accepted : c.loop.accepted = ((settled.map parseLine).filterMap record?).length := by
      rw [books.accepted,← length_taken,taken]
    have count : c.session.committed.length = ((settled.map parseLine).filterMap record?).length := by
      simpa only [Writer.hashes,List.length_map] using perm.length_eq
    refine .inl ⟨by simpa [stuck,all] using input,?_⟩
    simp [concluded,Loop.conclude,stuck,tally,lines,books.skipped,skipped,accepted,count,calmly,faultless,
      FailureLog.nonempty?,FailureLog.isEmpty]

/-- The program's import of an input that no signal ends, with a store and a queue that do all that they are asked. -/
theorem undisturbed_import {σ : Type} {k : Collaborator σ} (obliges : ∀ call s, (k.respond call s).1 = .ok ())
    (settings : Settings) (info : ImportInfo) (content : Content) (s : σ) :
    ∃ committed, Undisturbed settings info 0 ({ content } : Input).lines (runImport k settings info { content } s).1
      committed := by
  obtain ⟨acts,c,run,fits,ended,-⟩ := course_of_import k settings info { content } s
  refine ⟨_,acts,c,run,⟨unsignalled_of_fits fits,?_⟩,ended,rfl⟩
  · intro f member
    rcases fits _ member with ⟨-,gives⟩ | ⟨other,-⟩
    · obtain ⟨call,s,given⟩ := gives _ rfl
      rw [obliges call s] at given
      cases given
    · cases other

end Intake.Command
