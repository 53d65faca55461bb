import Intake.Proofs.Command.Course
import Intake.Proofs.Session.Simulation

/-!
The import that the program runs is one of the ways in which an import can go
(`course_of_import`). Its world holds the session of the course and is at rest whenever
the loop goes on, so that a record that was handed over has been taken or refused by
then; and the session comes to its end when the loop has closed it.
-/
namespace Intake.Command

open World (Settled)

variable {σ : Type} {k : Collaborator σ} {signalled : Bool} {settings : Settings} {info : ImportInfo} {now : Nat}
  {lines : List (Except ReadFault String)} {w : World σ} {b c : Course} {acts : List Act}

/-- What happens within the session: a step with an answer of the collaborator, or a signal. -/
def Fits (k : Collaborator σ) (signalled : Bool) (m : Move) : Prop :=
  (m.isWork = true ∧ k.Gives m) ∨ (m = .cancel ∧ signalled = true)

/-- The world stands where a course does, and its session is at rest. -/
structure Stands (k : Collaborator σ) (signalled : Bool) (c₀ : Course) (w : World σ) (c : Course) : Prop where
  run : ∃ acts, c₀.replay acts = some c ∧ ∀ m, .within m ∈ acts → Fits k signalled m
  settled : Settled k w c.session

/-- After steps of the session the course is where it was but for these. -/
theorem stands_of_works {c₀ : Course} {later : List Move} {s : Session}
    (run : ∃ acts, c₀.replay acts = some c ∧ ∀ m, .within m ∈ acts → Fits k signalled m)
    (on : c.session.replay later = some s) (works : ∀ m ∈ later, m.isWork = true ∧ k.Gives m)
    (settled : Settled k w s) : Stands k signalled c₀ w { c with session := s } := by
  obtain ⟨acts,run,fits⟩ := run
  have inner (m : Move) (member : m ∈ later) : m.isInner = true := Move.isInner_of_isWork (works m member).1
  refine ⟨⟨acts ++ later.map .within,Course.replay_trans run (Course.replay_within on inner),?_⟩,settled⟩
  intro m member
  rcases List.mem_append.mp member with early | late
  · exact fits m early
  · obtain ⟨n,there,same⟩ := List.mem_map.mp late
    cases same
    exact .inl (works _ there)

theorem fits_snoc {a : Act} (fits : ∀ m, .within m ∈ acts → Fits k signalled m) (outer : ∀ m, a ≠ .within m) :
    ∀ m, .within m ∈ acts ++ [a] → Fits k signalled m := by
  intro m member
  exact fits m (by simpa [(outer m).symm] using member)

/-- An act of the loop alone. -/
theorem loop_stands {c₀ : Course} (stands : Stands k signalled c₀ w c) {a : Act} (outer : ∀ m, a ≠ .within m)
    (act : c.apply a = some b) (same : b.session = c.session) : Stands k signalled c₀ w b := by
  obtain ⟨acts,run,fits⟩ := stands.run
  exact ⟨⟨acts ++ [a],Course.replay_snoc.mpr ⟨c,run,act⟩,fits_snoc fits outer⟩,same ▸ stands.settled⟩

/-- Between two records little is left to do. -/
theorem little_left (run : (Course.start settings info now lines).replay acts = some c)
    (settled : Settled k w c.session) (over_ : ∀ k ∈ c.session.callers, k.isLive = false) :
    c.session.load ≤ 31 := by
  obtain ⟨moves,session,-,-⟩ := session_of_run run
  exact Session.load_of_rest (Session.orderly session) (kept_of_run run).1 (World.rests_of_settled settled) over_

/-- A user's call has come to its end when the world is at rest again, if it ever does. -/
theorem call_stands (run : (Course.start settings info now lines).replay acts = some c)
    (fits : ∀ m, .within m ∈ acts → Fits k signalled m) (settled : Settled k w c.session)
    (over_ : ∀ k ∈ c.session.callers, k.isLive = false) {a : Act} {m : Move} {caller : Caller}
    (outer : ∀ m, a ≠ .within m) (act : c.apply a = some b) (opens : m.caller? = some caller)
    (goes : c.session.apply m = some b.session) (small : caller.load ≤ 20)
    (ends : ∀ acts s, (Course.start settings info now lines).replay acts = some { b with session := s } →
      s.Still → ∀ k, s.callers.getLast? = some k → k.isLive = false) :
    ∃ s, Stands k signalled (Course.start settings info now lines) (w.callAll 0 [m]).2 { b with session := s } ∧
      (w.callAll 0 [m]).1 = [s.callers.getLast?] ∧ ∃ last, s.callers.getLast? = some last ∧ last.isLive = false := by
  obtain ⟨moves,session,-,-⟩ := session_of_run run
  have reached : (Course.start settings info now lines).replay (acts ++ [a]) = some b :=
    Course.replay_snoc.mpr ⟨c,run,act⟩
  have step := Session.step_of_apply goes
  obtain ⟨idle,held⟩ : m.isWork = false ∧ ∀ nanos, m ≠ .elapse nanos := by
    rcases Move.of_caller? opens with ⟨_,rfl,-⟩ | ⟨rfl,-⟩ | ⟨rfl,-⟩ <;> exact ⟨rfl,by simp⟩
  have few : b.session.load ≤ World.patience := by
    have before := little_left run settled over_
    have more := Session.load_of_idle step idle held
    rw [opens,Option.elim_some] at more
    unfold World.patience
    omega
  have longer : b.session.callers.length = c.session.callers.length + 1 := by
    simpa [opens] using (Session.opened_step step).1
  have at_last {later : List Move} {s : Session} (on : b.session.replay later = some s)
      (works : ∀ m ∈ later, m.isWork = true) : s.callers[c.session.callers.length]? = s.callers.getLast? := by
    rw [List.getLast?_eq_getElem?,Session.callers_of_works on works,longer,Nat.add_sub_cancel]
  obtain ⟨later,s,on,works,settled',result⟩ := World.callAll_settled session settled opens goes few (by
    intro later s on works rests caller there
    have inner (m : Move) (member : m ∈ later) : m.isInner = true := Move.isInner_of_isWork (works m member)
    rw [at_last on works] at there
    exact ends _ s (Course.replay_trans reached (Course.replay_within on inner)) rests caller there)
  have works' (m : Move) (member : m ∈ later) : m.isWork = true := (works m member).1
  have stands := stands_of_works ⟨_,reached,fits_snoc fits outer⟩ on works settled'
  refine ⟨s,stands,by rw [result,at_last on works'],?_⟩
  cases last : s.callers.getLast? with
  | none =>
    have none : s.callers.length = 0 := by rw [List.getLast?_eq_none_iff.mp last]; rfl
    rw [Session.callers_of_works on works',longer] at none
    omega
  | some k =>
    obtain ⟨acts,run,-⟩ := stands.run
    exact ⟨k,rfl,ends acts s run (World.rests_of_settled settled') k last⟩

/-- The record of a line is handed over, and has been taken or refused when the loop goes on. -/
theorem hand_stands (stands : Stands k signalled (.start settings info now lines) w c)
    (reading : c.loop.stage = .reading) (apart : c.closing = false) {line : Except ReadFault String}
    {rest : List (Except ReadFault String)} (unread : c.unread = line :: rest) {r : Record}
    (handing : (c.loop.read line).stage = .handing r) :
    ∃ d, Stands k signalled (.start settings info now lines) (w.ingest 0 [r]).2 d ∧
      d.loop = (c.loop.read line).handed (w.ingest 0 [r]).1 ∧ d.unread = rest ∧ d.closing = false := by
  obtain ⟨acts,run,fits⟩ := stands.run
  have attended := (kept_of_run run).2
  have idle := over_of_run run (by simp [reading]) apart
  have entered : c.session.apply (.ingest [r]) =
      some { c.session with callers := c.session.callers ++ [.entering [r]] } := by
    simp [Session.apply,Session.enter,attended]
  have act : c.apply .read = some { c with
      session := { c.session with callers := c.session.callers ++ [.entering [r]] }
      loop := c.loop.read line
      unread := rest } := by
    simp [Course.apply,reading,unread,apart,handing,entered]
  obtain ⟨s,there,result,last,at_last,over_⟩ := call_stands run fits stands.settled idle (by simp) act rfl entered
    (by simp [Caller.load]) (by
      intro acts s run rests caller at_last
      obtain ⟨settled,fates,pending,last,books⟩ := books_of_run run
      obtain ⟨-,-,-,-,-,brings⟩ := books.handing handing at_last
      obtain ⟨moves,session,-,-⟩ := session_of_run run
      rw [List.getLast?_eq_getElem?] at at_last
      exact Session.over_of_rest (Session.orderly session) (kept_of_run run).1 rests at_last brings)
  have seen : (w.ingest 0 [r]).1 = World.outcome (some last) := by
    have answer : (w.ingest 0 [r]).1 = World.outcome (w.callAll 0 [.ingest [r]]).1.head?.join := rfl
    rw [answer,result,at_last]
    rfl
  refine ⟨⟨s,(c.loop.read line).handed (World.outcome (some last)),rest,c.closing⟩,?_,by rw [seen],rfl,apart⟩
  exact loop_stands (a := .see) there (by simp) (by simp [Course.apply,handing,at_last,over_]) rfl

/-- The loop goes through the lines as a course does. -/
theorem runLoop_stands {rest : List (Except ReadFault String)}
    (stands : Stands k signalled (.start settings info now lines) w c) (reading : c.loop.stage = .reading)
    (apart : c.closing = false) (unread : c.unread = rest) :
    ∃ d, Stands k signalled (.start settings info now lines) (runLoop w c.loop rest).1 d ∧
      d.loop = (runLoop w c.loop rest).2 ∧ d.closing = false ∧
      (d.loop.stage = .ended ∨ (d.loop.stage = .reading ∧ d.unread = [])) := by
  induction rest generalizing w c with
  | nil => exact ⟨c,stands,rfl,apart,.inr ⟨reading,unread⟩⟩
  | cons line rest ih =>
    rw [runLoop]
    cases stage : (c.loop.read line).stage with
    | reading =>
      have act : c.apply .read = some { c with loop := c.loop.read line, unread := rest } := by
        simp [Course.apply,reading,unread,apart,stage]
      exact ih (loop_stands stands (by simp) act rfl) stage apart rfl
    | ended =>
      have act : c.apply .read = some { c with loop := c.loop.read line, unread := rest } := by
        simp [Course.apply,reading,unread,apart,stage]
      exact ⟨_,loop_stands stands (by simp) act rfl,rfl,apart,.inl stage⟩
    | handing r =>
      obtain ⟨d,there,loop,unread',apart'⟩ := hand_stands stands reading apart unread stage
      simp only [← loop]
      by_cases ended : d.loop.stage = .ended
      · rw [if_pos ended]
        exact ⟨d,there,rfl,apart',.inl ended⟩
      · rw [if_neg ended]
        refine ih there ?_ apart' unread'
        rw [loop] at ended ⊢
        cases result : (w.ingest 0 [r]).1 with
        | ok _ => rfl
        | error f => simp [result,Loop.handed,Loop.note] at ended

/-- A signal tells the session to end, and the loop. -/
theorem signal_stands (stands : Stands k true (.start settings info now lines) w c)
    (reading : c.loop.stage = .reading) (apart : c.closing = false) :
    ∃ d, Stands k true (.start settings info now lines) w.cancel d ∧ d.loop = c.loop.interrupt ∧
      d.closing = false := by
  obtain ⟨acts,run,fits⟩ := stands.run
  obtain ⟨moves,session,-,-⟩ := session_of_run run
  have few : c.session.load ≤ World.patience := by
    have little := little_left run stands.settled (over_of_run run (by simp [reading]) apart)
    unfold World.patience
    omega
  obtain ⟨later,s,on,works,settled⟩ := World.cancel_settled session stands.settled few
  have told : c.apply (.within .cancel) = some { c with session := { c.session with stop := true } } := rfl
  have heeded : { c with session := { c.session with stop := true } }.apply .heed =
      some { c with session := { c.session with stop := true }, loop := c.loop.interrupt } := by
    simp [Course.apply,reading,apart]
  have run' := Course.replay_snoc.mpr ⟨_,Course.replay_snoc.mpr ⟨_,run,told⟩,heeded⟩
  refine ⟨_,stands_of_works ⟨_,run',fits_snoc ?_ (by simp)⟩ on works settled,rfl,apart⟩
  intro m member
  rcases List.mem_append.mp member with before | here
  · exact fits m before
  · cases List.mem_singleton.mp here
    exact .inr ⟨rfl,rfl⟩

/-- The session that the loop closes comes to its end, and so does the import. -/
theorem close_stands (stands : Stands k signalled (.start settings info now lines) w c)
    (ends : c.loop.stage = .ended ∨ (c.loop.stage = .reading ∧ c.unread = [])) (apart : c.closing = false) :
    ∃ d, Stands k signalled (.start settings info now lines) (w.close 0).2 d ∧ d.loop = c.loop ∧
      d.outcome? = some (c.loop.conclude (((w.close 0).2.sessions.head?.map (·.committed.length)).getD 0)
        (w.close 0).1) := by
  obtain ⟨acts,run,fits⟩ := stands.run
  have attended := (kept_of_run run).2
  have idle := over_of_run run (by rcases ends with stage | ⟨stage,-⟩ <;> simp [stage]) apart
  have entered : c.session.apply .close = some { c.session with callers := c.session.callers ++ [.closing] } := by
    simp [Session.apply,Session.enter,attended]
  have act : c.apply .close = some { c with
      session := { c.session with callers := c.session.callers ++ [.closing] }, closing := true } := by
    simp [Course.apply,apart,ends,entered]
  have closed (acts : List Act) (s : Session) (run : (Course.start settings info now lines).replay acts =
      some { c with session := s, closing := true }) (rests : s.Still) (last : Caller)
      (at_last : s.callers.getLast? = some last) : ∃ errors, last = .closed errors := by
    obtain ⟨settled,fates,pending,calls,books⟩ := books_of_run run
    obtain ⟨-,-,-,answers,kept⟩ := books.closing rfl at_last
    obtain ⟨moves,session,-,closes⟩ := session_of_run run
    rw [List.getLast?_eq_getElem?] at at_last
    have asked := Session.asked_of_run session (closes rfl)
    rcases Session.closed_of_rest (Session.orderly session) (kept_of_run run).1 asked rests at_last answers with
      closed | given
    · exact closed
    · exact absurd given (kept _)
  obtain ⟨s,there,result,last,at_last,-⟩ := call_stands run fits stands.settled idle (by simp) act rfl entered
    (by simp [Caller.load]) (by
      intro acts s run rests last at_last
      obtain ⟨errors,rfl⟩ := closed acts s run rests last at_last
      rfl)
  obtain ⟨acts',run',-⟩ := there.run
  obtain ⟨errors,rfl⟩ := closed acts' s run' (World.rests_of_settled there.settled) last at_last
  have answer : (w.close 0).1 = errors := by
    have answer : (w.close 0).1 = World.failures (w.callAll 0 [.close]).1.head?.join := rfl
    rw [answer,result,at_last]
    rfl
  have one : (w.close 0).2.sessions = [s] := there.settled.alone.sessions
  exact ⟨_,there,rfl,by simp [Course.outcome?,at_last,answer,one]⟩

/-- The import that the program runs goes as a course does, in which the collaborator gives the answers and no
    signal arrives unless one has been sent; and a signal finds its loop ended or ends it. -/
theorem course_of_import (k : Collaborator σ) (settings : Settings) (info : ImportInfo) (input : Input) (s : σ) :
    ∃ acts c, (Course.start settings info 0 input.lines).replay acts = some c ∧
      (∀ m, .within m ∈ acts → Fits k input.signalled m) ∧ c.outcome? = some (runImport k settings info input s).1 ∧
      c.loop.log = (runImport k settings info input s).2.1 ∧ (input.signalled = true → c.loop.stage = .ended) := by
  obtain ⟨later,t,on,works,settled⟩ :=
    World.start_settled (w := { collaborator := k, settings, store := s }) rfl rfl rfl info
  have started : Stands k input.signalled (.start settings info 0 input.lines)
      (({ collaborator := k, settings, store := s } : World σ).start info)
      { Course.start settings info 0 input.lines with session := t } :=
    stands_of_works ⟨[],rfl,by simp⟩ on works settled
  obtain ⟨c,there,loop,apart,ends⟩ := runLoop_stands started rfl rfl rfl
  simp only [Course.start] at there loop
  simp only [runImport,← loop]
  -- A signal finds the loop waiting for a line, or comes too late for it.
  by_cases signal : input.signalled = true ∧ c.loop.stage = .reading
  · rw [signal.1] at there started ⊢
    obtain ⟨b,there,loop,apart⟩ := signal_stands there signal.2 apart
    obtain ⟨d,⟨⟨acts,run,fits⟩,-⟩,loop',outcome⟩ := close_stands there (.inl (by rw [loop]; rfl)) apart
    rw [loop] at outcome loop'
    exact ⟨acts,d,run,fits,by simpa [signal] using outcome,by simp [signal,loop'],fun _ => by rw [loop']; rfl⟩
  · obtain ⟨d,⟨⟨acts,run,fits⟩,-⟩,loop',outcome⟩ := close_stands there ends apart
    refine ⟨acts,d,run,fits,by simpa [signal] using outcome,by simp [signal,loop'],?_⟩
    intro signalled
    rw [loop']
    exact ends.resolve_right fun open_ => signal ⟨signalled,open_.1⟩

end Intake.Command
