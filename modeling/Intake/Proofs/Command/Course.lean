import Intake.Command.Program
import Intake.Proofs.Session.Closed
import Intake.Proofs.Session.Conservation
import Mathlib.Data.List.Forall2

/-!
An import in all the ways it can go. The loop over the lines and the session run side
by side: between two steps of the loop anything may happen within the session, time
may pass and a signal may arrive, and the store and the queue may answer as they like
(`Course.apply`). Whatever the order, the loop keeps true books (`Books`): each line that
it has read has one fate, and the calls of the session are those of the lines whose
records were handed over.
-/
namespace Intake

namespace Command

/-- An import between two steps. -/
structure Course where
  session : Session
  loop : Loop := {}
  /-- The lines that have not been read. -/
  unread : List (Except ReadFault String)
  /-- The loop has ended and the session is closed by its user. -/
  closing : Bool := false

/-- What can happen to an import. -/
inductive Act where
  /-- Something happens within the session, time passes, or a signal arrives. -/
  | within (m : Move)
  /-- The next line is read, and its record handed over if it has one. -/
  | read
  /-- The loop sees what became of the record that it has handed over. -/
  | see
  /-- The loop sees that a signal has arrived. -/
  | heed
  | close

namespace Course

def start (settings : Settings) (info : ImportInfo) (now : Nat) (lines : List (Except ReadFault String)) :
    Course where
  session := .start settings info now false
  unread := lines

/-- The import after an act, if it is possible. -/
def apply (c : Course) : Act → Option Course
  | .within m => if m.isInner then (c.session.apply m).map fun s => { c with session := s } else none
  | .read => match c.loop.stage, c.unread, c.closing with
    | .reading, line :: rest, false =>
      let l := c.loop.read line
      match l.stage with
      | .handing r => (c.session.apply (.ingest [r])).map fun s => { c with session := s, loop := l, unread := rest }
      | _ => some { c with loop := l, unread := rest }
    | _, _, _ => none
  | .see => match c.loop.stage, c.session.callers.getLast? with
    | .handing _, some k => if k.isLive then none else some { c with loop := c.loop.handed (World.outcome (some k)) }
    | _, _ => none
  | .heed =>
    if c.loop.stage = .reading ∧ c.session.stop ∧ ¬ c.closing then some { c with loop := c.loop.interrupt } else none
  | .close =>
    if ¬ c.closing ∧ (c.loop.stage = .ended ∨ (c.loop.stage = .reading ∧ c.unread = [])) then
      (c.session.apply .close).map fun s => { c with session := s, closing := true }
    else none

/-- The import after some acts, if each was possible in its turn. -/
def replay (c : Course) (acts : List Act) : Option Course := acts.foldlM apply c

/-- What the import ends with, when the session has ended. -/
def outcome? (c : Course) : Option (Except ReadFault Summary) :=
  match c.closing, c.session.callers.getLast? with
  | true, some (.closed errors) => some (c.loop.conclude c.session.committed.length errors)
  | _, _ => none

theorem replay_append (c : Course) (before after : List Act) :
    c.replay (before ++ after) = (c.replay before).bind (·.replay after) := by
  rw [replay,List.foldlM_append]
  rfl

theorem replay_snoc {c d : Course} {acts : List Act} {a : Act} :
    c.replay (acts ++ [a]) = some d ↔ ∃ b, c.replay acts = some b ∧ b.apply a = some d := by
  rw [replay_append,Option.bind_eq_some_iff]
  simp [replay]

theorem replay_trans {b c d : Course} {before after : List Act} (run : b.replay before = some c)
    (on : c.replay after = some d) : b.replay (before ++ after) = some d := by
  rw [replay_append,run]
  exact on

theorem replay_within {c : Course} {s : Session} {moves : List Move} (run : c.session.replay moves = some s)
    (inner : ∀ m ∈ moves, m.isInner = true) : c.replay (moves.map .within) = some { c with session := s } := by
  induction moves generalizing c with
  | nil =>
    obtain rfl : c.session = s := by simpa using run
    rfl
  | cons m rest ih =>
    obtain ⟨t,move,later⟩ := Option.bind_eq_some_iff.mp run
    have act : c.apply (.within m) = some { c with session := t } := by
      simp [apply,inner m List.mem_cons_self,move]
    rw [List.map_cons,replay,List.foldlM_cons,act]
    exact ih (c := { c with session := t }) later fun n member => inner n (List.mem_cons_of_mem _ member)

/-- What holds at the start, and after an act whenever it holds before, holds after every run. -/
theorem replay_induction {c₀ : Course} {P : List Act → Course → Prop} (start : P [] c₀)
    (step : ∀ {acts c a d}, c₀.replay acts = some c → P acts c → c.apply a = some d → P (acts ++ [a]) d) :
    ∀ {acts c}, c₀.replay acts = some c → P acts c := by
  intro acts
  induction acts using List.reverseRecOn with
  | nil =>
    intro c run
    obtain rfl : c₀ = c := by simpa [replay] using run
    exact start
  | append_singleton acts a ih =>
    intro c run
    obtain ⟨b,before,last⟩ := replay_snoc.mp run
    exact step before (ih before) last

end Course

/-- The ways in which an act can go. -/
inductive Goes (c : Course) : Act → Course → Prop where
  | within {m : Move} {s : Session} (inner : m.isInner = true) (move : c.session.apply m = some s) :
      Goes c (.within m) { c with session := s }
  /-- No more can be read. -/
  | fault {fault : ReadFault} {rest : List (Except ReadFault String)} (reading : c.loop.stage = .reading)
      (apart : c.closing = false) (unread : c.unread = .error fault :: rest) :
      Goes c .read { c with loop := { c.loop with fault? := some fault, stage := .ended }, unread := rest }
  | blank {text : String} {rest : List (Except ReadFault String)} (reading : c.loop.stage = .reading)
      (apart : c.closing = false) (unread : c.unread = .ok text :: rest) (read : parseLine text = .ok none) :
      Goes c .read { c with loop := { c.loop with lines := c.loop.lines + 1 }, unread := rest }
  | skip {text : String} {rest : List (Except ReadFault String)} {f : Failure} {log : List Entry}
      (reading : c.loop.stage = .reading) (apart : c.closing = false) (unread : c.unread = .ok text :: rest)
      (read : parseLine text = .error f) :
      Goes c .read { c with
        loop := { c.loop with lines := c.loop.lines + 1, skipped := c.loop.skipped + 1, log }, unread := rest }
  | hand {text : String} {rest : List (Except ReadFault String)} {r : Record} {s : Session}
      (reading : c.loop.stage = .reading) (apart : c.closing = false) (unread : c.unread = .ok text :: rest)
      (read : parseLine text = .ok (some r)) (entered : c.session.apply (.ingest [r]) = some s) :
      Goes c .read { c with
        session := s, loop := { c.loop with lines := c.loop.lines + 1, stage := .handing r }, unread := rest }
  | taken {r : Record} {sent : List Record} (handing : c.loop.stage = .handing r)
      (last : c.session.callers.getLast? = some (.accepted sent)) :
      Goes c .see { c with loop := { c.loop with accepted := c.loop.accepted + 1, stage := .reading } }
  | refused {r : Record} {k : Caller} {log : List Entry} (handing : c.loop.stage = .handing r)
      (last : c.session.callers.getLast? = some k) (isOver : k.isLive = false) (other : ∀ sent, k ≠ .accepted sent) :
      Goes c .see { c with loop := { c.loop with interrupted := true, stage := .ended, log } }
  | heed {log : List Entry} (reading : c.loop.stage = .reading) (told : c.session.stop = true)
      (apart : c.closing = false) :
      Goes c .heed { c with loop := { c.loop with interrupted := true, stage := .ended, log } }
  | close {s : Session} (apart : c.closing = false)
      (ends : c.loop.stage = .ended ∨ (c.loop.stage = .reading ∧ c.unread = []))
      (entered : c.session.apply .close = some s) : Goes c .close { c with session := s, closing := true }

theorem goes_of_read {c d : Course} (act : c.apply .read = some d) : Goes c .read d := by
  simp only [Course.apply] at act
  split at act
  case h_2 => cases act
  case h_1 line rest reading unread apart =>
    cases line with
    | error fault =>
      obtain rfl := Option.some.inj act
      exact .fault reading apart unread
    | ok text =>
      cases read : parseLine text with
      | error f =>
        have next : c.loop.read (.ok text) = { c.loop with
            lines := c.loop.lines + 1, skipped := c.loop.skipped + 1, log := (c.loop.read (.ok text)).log } := by
          simp [Loop.read,Loop.note,read]
        have still : (c.loop.read (.ok text)).stage = .reading := by rw [next]; exact reading
        rw [still] at act
        obtain rfl := Option.some.inj act
        rw [next]
        exact .skip reading apart unread read
      | ok record =>
        cases record with
        | none =>
          have next : c.loop.read (.ok text) = { c.loop with lines := c.loop.lines + 1 } := by simp [Loop.read,read]
          have still : (c.loop.read (.ok text)).stage = .reading := by rw [next]; exact reading
          rw [still] at act
          obtain rfl := Option.some.inj act
          rw [next]
          exact .blank reading apart unread read
        | some r =>
          have next : c.loop.read (.ok text) = { c.loop with lines := c.loop.lines + 1, stage := .handing r } := by
            simp [Loop.read,read]
          simp only [next,Option.map_eq_some_iff] at act
          obtain ⟨s,entered,rfl⟩ := act
          exact .hand reading apart unread read entered

theorem goes_of_see {c d : Course} (act : c.apply .see = some d) : Goes c .see d := by
  simp only [Course.apply] at act
  split at act
  case h_2 => cases act
  case h_1 r k handing last =>
    split at act
    case isTrue => cases act
    case isFalse isOver =>
      obtain rfl := Option.some.inj act
      cases k with
      | accepted sent => exact .taken handing last
      | refused | abandoned | drained | closed => exact .refused handing last rfl (by simp)
      | _ => exact absurd rfl isOver

/-- Every act goes in one of these ways. -/
theorem goes_of_apply {c d : Course} {a : Act} (act : c.apply a = some d) : Goes c a d := by
  cases a with
  | within m =>
    simp only [Course.apply] at act
    split at act
    case isFalse => cases act
    case isTrue inner =>
      obtain ⟨s,move,rfl⟩ := Option.map_eq_some_iff.mp act
      exact .within inner move
  | read => exact goes_of_read act
  | see => exact goes_of_see act
  | heed =>
    simp only [Course.apply] at act
    split at act
    case isFalse => cases act
    case isTrue may =>
      obtain rfl := Option.some.inj act
      exact .heed may.1 may.2.1 (by simpa using may.2.2)
  | close =>
    simp only [Course.apply] at act
    split at act
    case isFalse => cases act
    case isTrue may =>
      obtain ⟨s,entered,rfl⟩ := Option.map_eq_some_iff.mp act
      exact .close (by simpa using may.1) may.2 entered

/-! ### The fates of lines -/

/-- What becomes of a line that is read. -/
inductive Fate where
  | blank
  | skipped (f : Failure)
  /-- The session has taken the record of the line. -/
  | accepted (r : Record)
  | refused (r : Record)

namespace Fate

/-- What the line is read as leads to this fate. -/
def Meets : Fate → String → Prop
  | .blank, line => parseLine line = .ok none
  | .skipped f, line => parseLine line = .error f
  | .accepted r, line => parseLine line = .ok (some r)
  | .refused r, line => parseLine line = .ok (some r)

def isSkipped : Fate → Bool
  | .skipped _ => true
  | _ => false

def isAccepted : Fate → Bool
  | .accepted _ => true
  | _ => false

/-- The call of the session that handed the record over. -/
def caller? : Fate → Option Caller
  | .accepted r => some (.accepted [r])
  | .refused _ => some (.refused [])
  | _ => none

/-- The record that the session has taken. -/
def taken? : Fate → Option Record
  | .accepted r => some r
  | _ => none

end Fate

/-! ### The books of the loop -/

/-- What is still open of the lines that have been read: at most the last one, whose record is on its way, and the
    last call of the session. -/
inductive Open (c : Course) : List String → List Caller → Prop where
  | idle (stage : ∀ r, c.loop.stage ≠ .handing r) (apart : c.closing = false) : Open c [] []
  | handing {line : String} {r : Record} {k : Caller} (stage : c.loop.stage = .handing r) (apart : c.closing = false)
      (read : parseLine line = .ok (some r)) (brings : k.Brings r) : Open c [line] [k]
  | closing {k : Caller} (ends : c.loop.stage = .ended ∨ (c.loop.stage = .reading ∧ c.unread = []))
      (closes : c.closing = true) (answers : k.Closes) (kept : ∀ sent, k ≠ .abandoned sent) : Open c [] [k]

/-- The lines `settled` have met their fates, and nothing was lost count of. -/
structure Books (lines : List (Except ReadFault String)) (c : Course) (settled : List String) (fates : List Fate)
    (pending : List String) (last : List Caller) : Prop where
  isOpen : Open c pending last
  input : lines = (settled ++ pending).map .ok ++ (c.loop.fault?.map .error).toList ++ c.unread
  meets : List.Forall₂ Fate.Meets fates settled
  callers : c.session.callers = fates.filterMap Fate.caller? ++ last
  lines : c.loop.lines = (settled ++ pending).length
  skipped : c.loop.skipped = fates.countP Fate.isSkipped
  accepted : c.loop.accepted = fates.countP Fate.isAccepted
  refused : ∀ before r after, fates = before ++ .refused r :: after →
    after = [] ∧ c.loop.interrupted = true ∧ c.loop.stage = .ended
  ended : c.loop.stage = .ended ↔ c.loop.interrupted = true ∨ c.loop.fault?.isSome = true

variable {lines : List (Except ReadFault String)} {c d : Course} {settled pending : List String} {fates : List Fate}
  {last : List Caller}

theorem not_live_of_fate {k : Caller} (member : k ∈ fates.filterMap Fate.caller?) : k.isLive = false := by
  obtain ⟨fate,-,call⟩ := List.mem_filterMap.mp member
  cases fate with
  | blank | skipped => cases call
  | accepted | refused =>
    cases call
    rfl

/-- What happens within the session takes on the last call at most. -/
theorem Books.within (books : Books lines c settled fates pending last) {m : Move} {s : Session}
    (inner : m.isInner = true) (move : c.session.apply m = some s) :
    ∃ last', Books lines { c with session := s } settled fates pending last' := by
  have step := Session.step_of_apply move
  suffices goes : ∃ last', Open { c with session := s } pending last' ∧
      s.callers = fates.filterMap Fate.caller? ++ last' by
    obtain ⟨last',isOpen,callers⟩ := goes
    exact ⟨last',{ books with isOpen, callers }⟩
  have callers := books.callers
  cases books.isOpen with
  | idle stage apart =>
    rw [List.append_nil] at callers
    refine ⟨[],.idle stage apart,?_⟩
    have idle (k : Caller) (member : k ∈ c.session.callers) : k.isLive = false := not_live_of_fate (callers ▸ member)
    rw [Session.inner_of_over step inner idle,callers,List.append_nil]
  | handing stage apart read brings =>
    obtain ⟨k',callers',rfl | ⟨advances,kept⟩⟩ :=
      Session.inner_of_last step inner callers fun _ => not_live_of_fate
    · exact ⟨_,.handing stage apart read brings,callers'⟩
    · exact ⟨_,.handing stage apart read (Session.brings_of_advances advances kept brings),callers'⟩
  | closing ends closes answers kept =>
    obtain ⟨k',callers',rfl | ⟨advances,kept'⟩⟩ :=
      Session.inner_of_last step inner callers fun _ => not_live_of_fate
    · exact ⟨_,.closing ends closes answers kept,callers'⟩
    · exact ⟨_,.closing ends closes (Session.closes_of_advances advances answers) kept',callers'⟩

/-- While the loop reads, it has not been interrupted and no record was refused. -/
theorem Books.reading (books : Books lines c settled fates pending last) (stage : c.loop.stage ≠ .ended) :
    c.loop.interrupted = false ∧ c.loop.fault? = none ∧ ∀ r, .refused r ∉ fates := by
  have quiet := books.ended.not.mp stage
  rw [not_or] at quiet
  refine ⟨by simpa using quiet.1,by simpa using quiet.2,?_⟩
  intro r member
  obtain ⟨before,after,split⟩ := List.append_of_mem member
  exact stage (books.refused before r after split).2.2

/-- A line that is not handed over meets its fate at once. -/
theorem Books.settle (books : Books lines c settled fates [] []) (apart : c.closing = false)
    (stage : c.loop.stage = .reading) {text : String} {rest : List (Except ReadFault String)} {fate : Fate}
    {log : List Entry} (unread : c.unread = .ok text :: rest) (meets : fate.Meets text)
    (passes : fate = .blank ∨ ∃ f, fate = .skipped f) :
    let l := { c.loop with
      lines := c.loop.lines + 1, skipped := c.loop.skipped + [fate].countP Fate.isSkipped, log := log }
    Books lines { c with loop := l, unread := rest } (settled ++ [text]) (fates ++ [fate]) [] [] := by
  intro l
  obtain ⟨calm,faultless,taken⟩ := books.reading (by simp [stage])
  have uncalled : fate.caller? = none ∧ fate.isAccepted = false ∧ ∀ r, fate ≠ .refused r := by
    rcases passes with rfl | ⟨f,rfl⟩ <;> exact ⟨rfl,rfl,by simp⟩
  obtain ⟨uncalled,untaken,welcome⟩ := uncalled
  constructor
  case isOpen => exact .idle (by simp [l,stage]) apart
  case input =>
    have input := books.input
    rw [unread,faultless] at input
    simpa [l,faultless] using input
  case meets => exact List.rel_append books.meets (.cons meets .nil)
  case callers => simpa [uncalled] using books.callers
  case lines => simpa [l] using books.lines
  case skipped => simp [l,books.skipped,List.countP_append]
  case accepted => simp [l,books.accepted,untaken]
  case refused =>
    intro before r after split
    have member : .refused r ∈ fates ++ [fate] := by simp [split]
    rcases List.mem_append.mp member with old | new
    · exact absurd old (taken r)
    · exact absurd (List.mem_singleton.mp new).symm (welcome r)
  case ended => simp [l,stage,calm,faultless]

theorem Books.hand (books : Books lines c settled fates [] []) (apart : c.closing = false)
    (reading : c.loop.stage = .reading) {text : String} {rest : List (Except ReadFault String)} {r : Record}
    {s : Session} (unread : c.unread = .ok text :: rest) (read : parseLine text = .ok (some r))
    (entered : c.session.apply (.ingest [r]) = some s) :
    Books lines { c with
        session := s, loop := { c.loop with lines := c.loop.lines + 1, stage := .handing r }, unread := rest }
      settled fates [text] [.entering [r]] := by
  obtain ⟨calm,faultless,taken⟩ := books.reading (by simp [reading])
  have callers := (Session.opened_step (Session.step_of_apply entered)).2 _ rfl
  constructor
  case isOpen => exact .handing rfl apart read rfl
  case input => simpa [unread,faultless] using books.input
  case meets => exact books.meets
  case callers => rw [callers,books.callers,List.append_nil]
  case lines => simpa using books.lines
  case skipped => exact books.skipped
  case accepted => exact books.accepted
  case refused =>
    intro before q after split
    exact absurd (by simp [split]) (taken q)
  case ended => simp [calm,faultless]

/-- The session has taken the record of the last line. -/
theorem Books.taken {line : String} {r : Record} (books : Books lines c settled fates [line] [.accepted [r]])
    (handing : c.loop.stage = .handing r) (apart : c.closing = false) (read : parseLine line = .ok (some r)) :
    Books lines { c with loop := { c.loop with accepted := c.loop.accepted + 1, stage := .reading } }
      (settled ++ [line]) (fates ++ [.accepted r]) [] [] := by
  obtain ⟨calm,faultless,taken⟩ := books.reading (by simp [handing])
  constructor
  case isOpen => exact .idle (by simp) apart
  case input => simpa using books.input
  case meets => exact List.rel_append books.meets (.cons read .nil)
  case callers => simpa [Fate.caller?] using books.callers
  case lines => simpa using books.lines
  case skipped => simp [books.skipped,Fate.isSkipped]
  case accepted => simp [books.accepted,Fate.isAccepted]
  case refused =>
    intro before q after split
    have member : .refused q ∈ fates ++ [.accepted r] := by simp [split]
    exact absurd (by simpa using member) (taken q)
  case ended => simp [calm,faultless]

/-- The session has refused the record of the last line. -/
theorem Books.turnedAway {line : String} {r : Record} {log : List Entry}
    (books : Books lines c settled fates [line] [.refused []]) (handing : c.loop.stage = .handing r)
    (apart : c.closing = false) (read : parseLine line = .ok (some r)) :
    Books lines { c with loop := { c.loop with interrupted := true, stage := .ended, log } }
      (settled ++ [line]) (fates ++ [.refused r]) [] [] := by
  obtain ⟨-,-,taken⟩ := books.reading (by simp [handing])
  constructor
  case isOpen => exact .idle (by simp) apart
  case input => simpa using books.input
  case meets => exact List.rel_append books.meets (.cons read .nil)
  case callers => simpa [Fate.caller?] using books.callers
  case lines => simpa using books.lines
  case skipped => simp [books.skipped,Fate.isSkipped]
  case accepted => simp [books.accepted,Fate.isAccepted]
  case refused =>
    intro before q after split
    refine ⟨?_,rfl,rfl⟩
    rcases List.eq_nil_or_concat after with none | ⟨front,other,rfl⟩
    · exact none
    · -- another fate behind this refusal would make it one of the earlier fates
      have earlier : fates = before ++ .refused q :: front := by
        have whole : fates ++ [.refused r] = (before ++ .refused q :: front) ++ [other] := by simpa using split
        exact (List.append_inj' whole rfl).1
      exact absurd (by simp [earlier]) (taken q)
  case ended => simp

/-- While a record is handed over, the last call brings it. -/
theorem Books.handing (books : Books lines c settled fates pending last) {r : Record} {k : Caller}
    (handing : c.loop.stage = .handing r) (at_last : c.session.callers.getLast? = some k) :
    ∃ line, pending = [line] ∧ last = [k] ∧ c.closing = false ∧ parseLine line = .ok (some r) ∧ k.Brings r := by
  have callers := books.callers
  cases books.isOpen with
  | idle stage => exact absurd handing (stage r)
  | closing ends => rcases ends with ended | ⟨reading,-⟩ <;> simp_all
  | @handing line q j stage apart read brings =>
    obtain rfl : q = r := Stage.handing.inj (stage.symm.trans handing)
    obtain rfl : j = k := by
      rw [callers,List.getLast?_concat] at at_last
      exact Option.some.inj at_last
    exact ⟨line,rfl,rfl,apart,read,brings⟩

/-- When the loop has closed the session, the last call is the one that does. -/
theorem Books.closing (books : Books lines c settled fates pending last) (closes : c.closing = true) {k : Caller}
    (at_last : c.session.callers.getLast? = some k) :
    pending = [] ∧ last = [k] ∧ (c.loop.stage = .ended ∨ (c.loop.stage = .reading ∧ c.unread = [])) ∧ k.Closes ∧
      ∀ sent, k ≠ .abandoned sent := by
  have callers := books.callers
  cases books.isOpen with
  | idle _ apart | handing _ apart => simp [apart] at closes
  | @closing j ends _ answers kept =>
    obtain rfl : j = k := by
      rw [callers,List.getLast?_concat] at at_last
      exact Option.some.inj at_last
    exact ⟨rfl,rfl,ends,answers,kept⟩

/-- No act makes the books untrue. -/
theorem Books.step (books : Books lines c settled fates pending last) {a : Act} (goes : Goes c a d) :
    ∃ settled' fates' pending' last', Books lines d settled' fates' pending' last' := by
  -- The loop reads on only when the record before has been answered for.
  have reading_idle (reading : c.loop.stage = .reading) (apart : c.closing = false) : pending = [] ∧ last = [] := by
    cases books.isOpen with
    | idle => exact ⟨rfl,rfl⟩
    | handing stage => simp [reading] at stage
    | closing ends closes => simp [apart] at closes
  cases goes with
  | within inner move =>
    obtain ⟨last',books⟩ := books.within inner move
    exact ⟨_,_,_,_,books⟩
  | @fault fault rest reading apart unread =>
    obtain ⟨rfl,rfl⟩ := reading_idle reading apart
    obtain ⟨-,faultless,taken⟩ := books.reading (by simp [reading])
    refine ⟨settled,fates,[],[],
      { books with isOpen := .idle (by simp) apart, input := ?_, refused := ?_, ended := ?_ }⟩
    · have input := books.input
      rw [unread,faultless] at input
      simpa using input
    · intro before r after split
      exact absurd (by simp [split]) (taken r)
    · simp
  | blank reading apart unread read =>
    obtain ⟨rfl,rfl⟩ := reading_idle reading apart
    exact ⟨_,_,_,_,books.settle apart reading unread (show Fate.blank.Meets _ from read) (.inl rfl)⟩
  | @skip text rest f log reading apart unread read =>
    obtain ⟨rfl,rfl⟩ := reading_idle reading apart
    have met : (Fate.skipped f).Meets text := read
    exact ⟨_,_,_,_,books.settle apart reading unread met (.inr ⟨f,rfl⟩)⟩
  | hand reading apart unread read entered =>
    obtain ⟨rfl,rfl⟩ := reading_idle reading apart
    exact ⟨_,_,_,_,books.hand apart reading unread read entered⟩
  | taken handing at_last =>
    obtain ⟨line,rfl,rfl,apart,read,brings⟩ := books.handing handing at_last
    obtain rfl := brings
    exact ⟨_,_,_,_,books.taken handing apart read⟩
  | @refused r k log handing at_last isOver other =>
    obtain ⟨line,rfl,rfl,apart,read,brings⟩ := books.handing handing at_last
    cases k with
    | refused sent =>
      obtain rfl : sent = [] := brings
      exact ⟨_,_,_,_,books.turnedAway handing apart read⟩
    | accepted sent => exact absurd rfl (other sent)
    | entering | looking | counting | sending => cases isOver
    | _ => exact brings.elim
  | heed reading told apart =>
    obtain ⟨rfl,rfl⟩ := reading_idle reading apart
    obtain ⟨-,-,taken⟩ := books.reading (by simp [reading])
    refine ⟨settled,fates,[],[],{ books with isOpen := .idle (by simp) apart, refused := ?_, ended := ?_ }⟩
    · intro before r after split
      exact absurd (by simp [split]) (taken r)
    · simp
  | close apart ends entered =>
    have callers := (Session.opened_step (Session.step_of_apply entered)).2 _ rfl
    cases books.isOpen with
    | handing stage => rcases ends with ended | ⟨reading,-⟩ <;> simp_all
    | closing _ closes => simp [apart] at closes
    | idle =>
      refine ⟨settled,fates,[],[.closing],{ books with isOpen := .closing ends rfl trivial (by simp), callers := ?_ }⟩
      rw [callers,books.callers,List.append_nil]

/-- Whatever happens, the books stay true. -/
theorem books_of_run {settings : Settings} {info : ImportInfo} {now : Nat} {acts : List Act}
    (run : (Course.start settings info now lines).replay acts = some c) :
    ∃ settled fates pending last, Books lines c settled fates pending last := by
  refine Course.replay_induction
    (P := fun _ c => ∃ settled fates pending last, Books lines c settled fates pending last) ?_ ?_ run
  · refine ⟨[],[],[],[],?_⟩
    exact ⟨.idle (by simp [Course.start]) rfl,rfl,.nil,rfl,rfl,rfl,rfl,by simp,by simp [Course.start]⟩
  · rintro acts c a d - ⟨settled,fates,pending,last,books⟩ act
    exact books.step (goes_of_apply act)

/-! ### The session of an import -/

/-- A move of the session that one of the acts stands behind: the user hands over records one by one, and at last
    closes the session. -/
def Stems (acts : List Act) (m : Move) : Prop :=
  (m.isInner = true ∧ .within m ∈ acts) ∨ (∃ r, m = .ingest [r]) ∨ m = .close

theorem stems_snoc {acts : List Act} {moves : List Move} {m : Move} (a : Act) (old : ∀ n ∈ moves, Stems acts n)
    (new : Stems (acts ++ [a]) m) : ∀ n ∈ moves ++ [m], Stems (acts ++ [a]) n := by
  intro n member
  rcases List.mem_append.mp member with before | here
  · exact (old n before).imp_left fun ⟨inner,there⟩ => ⟨inner,List.mem_append_left _ there⟩
  · obtain rfl := List.mem_singleton.mp here
    exact new

/-- What happens in the session of an import is a run of the session. -/
theorem session_of_run {settings : Settings} {info : ImportInfo} {now : Nat} {acts : List Act}
    (run : (Course.start settings info now lines).replay acts = some c) :
    ∃ moves, (Session.start settings info now false).replay moves = some c.session ∧ (∀ m ∈ moves, Stems acts m) ∧
      (c.closing = true → .close ∈ moves) := by
  refine Course.replay_induction (P := fun acts c =>
    ∃ moves, (Session.start settings info now false).replay moves = some c.session ∧ (∀ m ∈ moves, Stems acts m) ∧
      (c.closing = true → .close ∈ moves)) ⟨[],rfl,by simp,by simp [Course.start]⟩ ?_ run
  rintro acts c a d - ⟨moves,before,stems,closes⟩ act
  have longer (m : Move) (closing : c.closing = true) : .close ∈ moves ++ [m] :=
    List.mem_append_left _ (closes closing)
  cases goes_of_apply act with
  | @within m s inner move =>
    exact ⟨_,Session.replay_snoc.mpr ⟨_,before,move⟩,stems_snoc _ stems (.inl ⟨inner,by simp⟩),longer m⟩
  | @hand text rest r s reading apart unread read entered =>
    exact ⟨_,Session.replay_snoc.mpr ⟨_,before,entered⟩,stems_snoc _ stems (.inr (.inl ⟨r,rfl⟩)),longer _⟩
  | close apart ends entered =>
    exact ⟨_,Session.replay_snoc.mpr ⟨_,before,entered⟩,stems_snoc _ stems (.inr (.inr rfl)),by simp⟩
  | _ =>
    refine ⟨moves,before,?_,closes⟩
    intro m member
    exact (stems m member).imp_left fun ⟨inner,there⟩ => ⟨inner,List.mem_append_left _ there⟩

/-- No call of an import is given up, and its session has a user. -/
theorem kept_of_run {settings : Settings} {info : ImportInfo} {now : Nat} {acts : List Act}
    (run : (Course.start settings info now lines).replay acts = some c) :
    c.session.underway = c.session.counted ∧ c.session.orphaned = false := by
  obtain ⟨moves,session,stems,-⟩ := session_of_run run
  refine ⟨Session.counted_of_kept session ?_,Session.attended_of_run session ?_⟩
  · intro k member
    rcases stems _ member with ⟨inner,-⟩ | ⟨r,other⟩ | other <;> first | cases inner | cases other
  · intro member
    rcases stems _ member with ⟨inner,-⟩ | ⟨r,other⟩ | other <;> first | cases inner | cases other

/-- Between two records no call of the session is under way. -/
theorem over_of_run {settings : Settings} {info : ImportInfo} {now : Nat} {acts : List Act}
    (run : (Course.start settings info now lines).replay acts = some c) (stage : ∀ r, c.loop.stage ≠ .handing r)
    (apart : c.closing = false) : ∀ k ∈ c.session.callers, k.isLive = false := by
  obtain ⟨settled,fates,pending,last,books⟩ := books_of_run run
  have callers := books.callers
  cases books.isOpen with
  | idle =>
    rw [List.append_nil] at callers
    exact fun k member => not_live_of_fate (callers ▸ member)
  | handing handing => exact absurd handing (stage _)
  | closing ends closes => simp [apart] at closes

/-! ### The account of an import -/

theorem sent_of_fates (fates : List Fate) :
    (fates.filterMap Fate.caller?).flatMap Caller.sent = fates.filterMap Fate.taken? := by
  induction fates with
  | nil => rfl
  | cons fate rest ih =>
    cases fate with
    | blank | skipped => exact ih
    | accepted r => simpa [Fate.caller?,Fate.taken?,Caller.sent] using ih
    | refused r => exact ih

theorem length_taken (fates : List Fate) : (fates.filterMap Fate.taken?).length = fates.countP Fate.isAccepted := by
  rw [List.length_filterMap_eq_countP]
  congr
  funext fate
  cases fate <;> rfl

end Command

/-- What was handed over to a session that has ended is what was written and what has failed. -/
theorem Session.written_of_closed {settings : Settings} {info : ImportInfo} {now : Nat} {stop : Bool}
    {moves : List Move} {s : Session} {log : FailureLog} (run : (start settings info now stop).replay moves = some s)
    (closed : .closed log ∈ s.callers) :
    ∃ written, s.committed = Writer.hashes written ∧ s.sent.Perm (written ++ log.records) := by
  obtain ⟨stopped,rfl⟩ := log_of_closed run closed
  refine ⟨(committedBatches ((start settings info now stop).trace moves)).flatten,?_,?_⟩
  · rw [committed_eq run,Writer.hashes,List.map_flatten,List.flatMap_def]
    rfl
  · rw [← places_of_stopped (orderly run) stopped]
    exact (handed_perm run).symm.trans (places_perm run)

theorem FailureLog.failedRecords_eq (log : FailureLog) : log.failedRecords = log.records.length := by
  have counted (failures : List FailedBatch) (n : Nat) :
      failures.foldl (fun n b => n + b.records.length) n = n + (failures.flatMap (·.records)).length := by
    induction failures generalizing n with
    | nil => simp
    | cons b rest ih => simp [ih]; omega
  simpa [failedRecords,records] using counted log.failures 0

theorem FailureLog.elim_nonempty? {α : Type} (log : FailureLog) (f : FailureLog → α) :
    log.nonempty?.elim (f {}) f = f log := by
  by_cases empty : log.isEmpty = true
  · obtain rfl : log = {} := by
      have none : log.failures = [] := by simpa [isEmpty] using empty
      cases log
      simp_all
    rfl
  · simp [nonempty?,empty]

namespace Command

theorem Course.outcome?_eq_some {c : Course} {result : Except ReadFault Summary} (ended : c.outcome? = some result) :
    c.closing = true ∧ ∃ errors, c.session.callers.getLast? = some (.closed errors) ∧
      result = c.loop.conclude c.session.committed.length errors := by
  rw [outcome?] at ended
  split at ended
  · next errors closing last => exact ⟨closing,errors,last,(Option.some.inj ended).symm⟩
  · cases ended

theorem Loop.conclude_eq_ok {l : Loop} {committed : Nat} {errors : FailureLog} {summary : Summary}
    (concluded : l.conclude committed errors = .ok summary) :
    l.fault? = none ∧
      summary = ⟨l.lines,l.skipped,l.accepted,committed,l.interrupted,errors.nonempty?⟩ := by
  rw [conclude] at concluded
  split at concluded
  · cases concluded
  · next none => exact ⟨none,(Except.ok.inj concluded).symm⟩

/-- The account of an import: what was read, which fate each line had, and that the summary tells the truth. -/
structure Account (input : List (Except ReadFault String)) (c : Course) (summary : Summary) (read : List String)
    (fates : List Fate) : Prop where
  input : input = read.map .ok ++ c.unread
  meets : List.Forall₂ Fate.Meets fates read
  /-- The calls of the session are those that the fates tell of, and the one that closed it. -/
  callers : ∃ errors, c.session.callers = fates.filterMap Fate.caller? ++ [.closed errors] ∧
    summary.errors? = errors.nonempty?
  lines : summary.lines = read.length
  skipped : summary.skipped = fates.countP Fate.isSkipped
  accepted : summary.accepted = fates.countP Fate.isAccepted
  refused : ∀ before r after, fates = before ++ .refused r :: after → after = [] ∧ summary.interrupted = true
  committed : summary.committed = c.session.committed.length
  /-- What was taken was committed or has failed. -/
  written : ∃ written, c.session.committed = Writer.hashes written ∧
    (fates.filterMap Fate.taken?).Perm (written ++ summary.errors?.elim [] FailureLog.records)
  balance : summary.committed + summary.errors?.elim 0 FailureLog.failedRecords = summary.accepted
  whole : summary.interrupted = false → c.unread = []

/-- An import that ends with a summary has accounted for every line. -/
theorem account_of_run {settings : Settings} {info : ImportInfo} {now : Nat} {acts : List Act} {summary : Summary}
    (run : (Course.start settings info now lines).replay acts = some c) (ended : c.outcome? = some (.ok summary)) :
    ∃ read fates, Account lines c summary read fates := by
  obtain ⟨settled,fates,pending,last,books⟩ := books_of_run run
  obtain ⟨moves,session,-,-⟩ := session_of_run run
  obtain ⟨closing,errors,at_last,concluded⟩ := Course.outcome?_eq_some ended
  obtain ⟨faultless,rfl⟩ := Loop.conclude_eq_ok concluded.symm
  obtain ⟨rfl,rfl,ends,-⟩ := books.closing closing at_last
  have callers := books.callers
  obtain ⟨written,committed,sent⟩ := Session.written_of_closed session (List.mem_of_getLast? at_last)
  have taken : (fates.filterMap Fate.taken?).Perm (written ++ errors.records) := by
    simpa [Session.sent,callers,sent_of_fates,Caller.sent] using sent
  refine ⟨settled,fates,?_⟩
  constructor
  case input => simpa [faultless] using books.input
  case meets => exact books.meets
  case callers => exact ⟨errors,callers,rfl⟩
  case lines => simpa using books.lines
  case skipped => exact books.skipped
  case accepted => exact books.accepted
  case refused =>
    intro before r after split
    obtain ⟨alone,interrupted,-⟩ := books.refused before r after split
    exact ⟨alone,interrupted⟩
  case committed => rfl
  case written => exact ⟨written,committed,errors.elim_nonempty? FailureLog.records ▸ taken⟩
  case balance =>
    have count := taken.length_eq
    rw [length_taken,List.length_append] at count
    have failed : errors.nonempty?.elim 0 FailureLog.failedRecords = errors.records.length :=
      (errors.elim_nonempty? FailureLog.failedRecords).trans errors.failedRecords_eq
    simp only [failed,books.accepted,committed,Writer.hashes,List.length_map]
    exact count.symm
  case whole =>
    intro calm
    rcases ends with ended | ⟨-,all⟩
    · rcases books.ended.mp ended with interrupted | stuck
      · exact absurd (interrupted.symm.trans calm) (by simp)
      · simp [faultless] at stuck
    · exact all

end Command

end Intake
