import Intake.Database.Repository
import Intake.Proofs.Record.Json
import Intake.Proofs.Session.Barrier
import Intake.Proofs.Writer.Sources

/-!
What the queue hears of a session. The payload of a job is read as JSON and each info
hash in it parsed (`readPayload`), which gives the info hashes that the job was made for
(`readPayload_job`). A session's calls are answered by a store and by a queue over a
server, and note is taken of what the store answers and of what is sent to the server
(`hearing`): the jobs that the server has acknowledged hold just what is committed, and
each was sent when the items of its batch had just been written (`queue_hears`).
-/
namespace Intake

open Json (Tree)

namespace Database

variable {σ : Type}

/-! ### Payloads -/

/-- An object that holds info hashes as they are written. -/
def payloadShape : Json.Shape (Option (List String)) (List String) where
  title := "ProcessItemsPayload"
  fields := [.of "info_hashes" (·.asList Tree.asString) fun texts _ => some texts]
  start := none
  finish := Json.required "info_hashes"

/-- The info hashes that a payload holds, if it has this form and each of them can be parsed. -/
def readPayload (payload : String) : Option (List InfoHash) := do
  let texts ← (Json.readText payloadShape.read payload).toOption
  texts.mapM fun text => (InfoHash.parse text).toOption

/-- The payload of the job that a statement adds to the queue whose jobs process items. -/
def Statement.payload? : Statement → Option String
  | .insertJob job => match (insertJob job).values with
    | [.text queue,.json payload] => if queue = processItems then some payload else none
    | _ => none
  | _ => none

theorem Job.spelled (job : Job) : job.toTree.Spelled job.toTree.text := by
  refine Json.spelled_ofMembers ?_
  intro m member
  obtain rfl := List.mem_singleton.mp member
  refine Json.spelled_ofList ?_
  intro t member
  obtain ⟨h,-,rfl⟩ := List.mem_map.mp member
  exact Json.spelled_ofString h.hex

theorem read_job (job : Job) : payloadShape.read job.toTree = .ok (job.hashes.map InfoHash.hex) := by
  have texts : (Tree.ofList (job.hashes.map InfoHash.toTree)).asList Tree.asString = .ok (job.hashes.map InfoHash.hex) :=
    Json.asList_ofList fun h _ => Json.asString_ofString h.hex
  have draft : (payloadShape.fields.zip [Tree.ofList (job.hashes.map InfoHash.toTree)]).foldlM
      (fun d w => w.1.read w.2 d) payloadShape.start = .ok (some (job.hashes.map InfoHash.hex)) := by
    simp only [payloadShape,List.zip_cons_cons,List.zip_nil_right,List.foldlM_cons,List.foldlM_nil,Json.Slot.of,texts]
    rfl
  have whole := Json.Shape.read_fields (s := payloadShape) (by decide) rfl draft
  exact whole

/-- A payload holds the info hashes that its job was made for, in their order. -/
theorem readPayload_job (job : Job) : readPayload (String.ofList job.toTree.text) = some job.hashes := by
  have texts : Json.readText payloadShape.read (String.ofList job.toTree.text) = .ok (job.hashes.map InfoHash.hex) := by
    rw [Json.readText_of_holds (Json.holds_text job.spelled),read_job]
  have each : (job.hashes.map InfoHash.hex).mapM (fun text => (InfoHash.parse text).toOption) = some job.hashes := by
    induction job.hashes with
    | nil => rfl
    | cons h rest ih =>
      rw [List.map_cons,List.mapM_cons,InfoHash.parse_hex,ih]
      rfl
  rw [readPayload,texts]
  exact each

/-! ### Notes -/

/-- What was done for a session. -/
inductive Note where
  /-- The store has answered a call. -/
  | stored (call : Call) (result : Except Failure Unit)
  /-- The queue has sent a statement and had a reply. -/
  | sent (statement : Statement) (reply : Except DatabaseFault Reply)

/-- The payload of a job that the server has acknowledged. -/
def Note.acknowledged? : Note → Option String
  | .sent statement (.ok (.job _)) => statement.payload?
  | _ => none

/-- Replies as before, and takes note of the statement and the reply. -/
def Server.overheard (server : Server σ) : Server (σ × List Note) := withNotes .sent server

/-- How the calls of a batch are answered by a store and by a queue over a server, with notes of it. -/
def hearing (store : Answers σ) (server : Server σ) : Answers (σ × List Note)
  | .publish hashes, s => match publish server.overheard hashes s with
    | (.ok _,s) => (.ok (),s)
    | (.error f,s) => (.error f,s)
  | call, s => withNotes .stored store call s

/-- The info hashes of the jobs that were acknowledged, one job after another, if all their payloads can be read. -/
def heard (notes : List Note) : Option (List InfoHash) :=
  ((notes.filterMap Note.acknowledged?).mapM readPayload).map List.flatten

/-- Each job was sent just after the items of its batch had been written. -/
def JobsFollow (info : ImportInfo) (batches : List (List Record)) (notes : List Note) : Prop :=
  ∀ before job reply after, notes = before ++ .sent (.insertJob job) reply :: after →
    ∃ batch ∈ batches, job.hashes = Writer.hashes batch ∧
      before.getLast? = some (.stored (.upsertItems (batch.map (Item.ofRecord info))) (.ok ()))

section
variable {notes : List Note} {n : Note}

theorem heard_other (other : n.acknowledged? = none) : heard (notes ++ [n]) = heard notes := by
  simp [heard,other]

theorem heard_job {job : Job} {id : Nat} {hashes : List InfoHash} (before : heard notes = some hashes) :
    heard (notes ++ [.sent (.insertJob job) (.ok (.job id))]) = some (hashes ++ job.hashes) := by
  obtain ⟨lists,read,rfl⟩ := Option.map_eq_some_iff.mp before
  have new : Note.acknowledged? (.sent (.insertJob job) (.ok (.job id))) = some (String.ofList job.toTree.text) := rfl
  simp [heard,List.mapM_append,read,new,readPayload_job]

variable {info : ImportInfo} {batches more : List (List Record)}

theorem JobsFollow.mono (follow : JobsFollow info batches notes) : JobsFollow info (batches ++ more) notes := by
  intro before job reply after split
  obtain ⟨batch,member,same⟩ := follow before job reply after split
  exact ⟨batch,List.mem_append_left _ member,same⟩

/-- A note is added that is of no job, or of one that has just had its items written. -/
theorem JobsFollow.snoc (follow : JobsFollow info batches notes)
    (new : ∀ job reply, n = .sent (.insertJob job) reply → ∃ batch ∈ batches, job.hashes = Writer.hashes batch ∧
      notes.getLast? = some (.stored (.upsertItems (batch.map (Item.ofRecord info))) (.ok ()))) :
    JobsFollow info batches (notes ++ [n]) := by
  intro before job reply after split
  rcases List.eq_nil_or_concat after with rfl | ⟨earlier,last,rfl⟩
  · obtain ⟨rfl,same⟩ := List.append_inj' split rfl
    exact new job reply (List.cons.inj same).1
  · rw [List.concat_eq_append,← List.cons_append,← List.append_assoc] at split
    obtain ⟨rfl,-⟩ := List.append_inj' split rfl
    exact follow before job reply earlier rfl

end

section
variable (store : Answers σ) (server : Server σ) (s : σ) (notes : List Note)

theorem hearing_store {call : Call} (other : ∀ hashes, call ≠ .publish hashes) :
    (hearing store server call (s,notes)).2.2 =
      notes ++ [.stored call (hearing store server call (s,notes)).1] := by
  cases call with
  | createSources sources | upsertItems items => rfl
  | publish hashes => exact absurd rfl (other hashes)

/-- The queue sends one statement, and does well just when it is acknowledged. -/
theorem hearing_publish (hashes : List InfoHash) :
    ∃ reply, (hearing store server (.publish hashes) (s,notes)).2.2 = notes ++ [.sent (.insertJob ⟨hashes⟩) reply] ∧
      (((hearing store server (.publish hashes) (s,notes)).1 = .ok () ∧ ∃ id, reply = .ok (.job id)) ∨
        ((hearing store server (.publish hashes) (s,notes)).1 ≠ .ok () ∧
          Note.acknowledged? (.sent (.insertJob ⟨hashes⟩) reply) = none)) := by
  simp only [hearing,publish,Server.overheard,withNotes]
  rcases server (.insertJob ⟨hashes⟩) s with ⟨f | _ | id,t⟩
  · exact ⟨.error f,rfl,.inr ⟨by simp,rfl⟩⟩
  · exact ⟨.ok .done,rfl,.inr ⟨by simp,rfl⟩⟩
  · exact ⟨.ok (.job id),rfl,.inl ⟨rfl,id,rfl⟩⟩

end

end Database

/-- The last call for a batch tells the queue, and comes after its items. -/
theorem Writer.last_of_plan (w : Writer) {batch : List Record} {made left : List Call} {call : Call}
    (plan : w.plan batch = .ok (made ++ call :: left)) :
    (call = .publish (hashes batch) ∧ left = [] ∧
        made.getLast? = some (.upsertItems (batch.map (Item.ofRecord w.info)))) ∨
      ((∀ hashes, call ≠ .publish hashes) ∧ left ≠ []) := by
  have calls : made ++ call :: left =
      (w.creation batch ++ [.upsertItems (batch.map (Item.ofRecord w.info))]) ++ [.publish (hashes batch)] := by
    rcases w.calls_of_plan plan with ⟨-,none⟩ | whole
    · simp at none
    · simp [whole,w.calls_eq]
  rcases List.eq_nil_or_concat left with rfl | ⟨others,last,rfl⟩
  · obtain ⟨rfl,same⟩ := List.append_inj' calls rfl
    left
    exact ⟨(List.cons.inj same).1,rfl,by simp⟩
  · rw [List.concat_eq_append,← List.cons_append,← List.append_assoc] at calls
    obtain ⟨rest,-⟩ := List.append_inj' calls rfl
    right
    refine ⟨?_,by simp⟩
    rintro other rfl
    have member : Call.publish other ∈ w.creation batch ++ [.upsertItems (batch.map (Item.ofRecord w.info))] := by
      rw [← rest]
      simp
    simp only [creation,List.mem_append,List.mem_singleton,reduceCtorEq,or_false] at member
    split at member <;> simp at member

/-! ### Answers of a collaborator -/

section
variable {σ : Type}

/-- In the state `s`, these calls are given these answers, which leads to the state `t`. -/
def Answers.Gives (answers : Answers σ) (s : σ) : Exchanges → σ → Prop
  | [], t => s = t
  | (call,result) :: rest, t => ∃ u, answers call s = (result,u) ∧ answers.Gives u rest t

theorem Answers.Gives.cons {answers : Answers σ} {s t : σ} {call : Call} {result : Except Failure Unit}
    {rest : Exchanges} (given : (answers call s).1 = result) (later : answers.Gives (answers call s).2 rest t) :
    answers.Gives s ((call,result) :: rest) t :=
  ⟨_,Prod.ext given rfl,later⟩

theorem Answers.gives_append {answers : Answers σ} {s t : σ} {before after : Exchanges} :
    answers.Gives s (before ++ after) t ↔ ∃ u, answers.Gives s before u ∧ answers.Gives u after t := by
  induction before generalizing s with
  | nil => simp [Gives]
  | cons e rest ih =>
    simp only [List.cons_append,Gives,ih]
    constructor
    · rintro ⟨v,first,u,before,last⟩
      exact ⟨u,⟨v,first,before⟩,last⟩
    · rintro ⟨u,⟨v,first,before⟩,last⟩
      exact ⟨v,first,u,before,last⟩

end

namespace Session

/-- The call that a move answers, with the answer. -/
def exchanges (s : Session) : Move → Exchanges
  | .answer result => s.flush?.toList.map fun f => (f.call,result)
  | _ => []

/-- The calls that were answered, with their answers, in order. -/
def exchanged (s : Session) (moves : List Move) : Exchanges := s.gather (fun s m _ => s.exchanges m) moves

open Database

/-- What a session over a store and a queue has to do with the notes of what they did. -/
structure Hears (info : ImportInfo) (batches : List (List Record)) (s : Session) (notes : List Note) : Prop where
  writer : s.writer.info = info
  known : heard notes = some s.committed
  follow : JobsFollow info batches notes
  /-- The call before the one that waits for its answer was the last to be answered. -/
  current : ∀ f, s.flush? = some f → f.batch ∈ batches ∧
    ∃ made, s.writer.plan f.batch = .ok (made ++ f.call :: f.left) ∧
      ∀ call, made.getLast? = some call → notes.getLast? = some (.stored call (.ok ()))

section
variable {σ : Type} {store : Answers σ} {server : Server σ} {c c' : σ} {info : ImportInfo}
  {batches more : List (List Record)} {s t : Session} {m : Move} {notes notes' : List Note}

theorem exchanges_of_quiet (quiet : Quiet s m t) : s.exchanges m = [] := by
  cases m with
  | answer result =>
    cases writes : s.flush? with
    | none => simp [exchanges,writes]
    | some f =>
      have nothing := quiet.nothing
      simp [events,writes] at nothing
  | _ => rfl

theorem Hears.same (before : Hears info batches s notes) (flush? : t.flush? = none ∨ t.flush? = s.flush?)
    (writer : t.writer = s.writer) (committed : t.committed = s.committed) :
    Hears info (batches ++ more) t notes := by
  refine ⟨?_,?_,before.follow.mono,?_⟩
  · rw [writer]
    exact before.writer
  · rw [committed]
    exact before.known
  · intro f writes
    rcases flush? with none | same
    · rw [none] at writes
      cases writes
    · obtain ⟨member,made,plan,last⟩ := before.current f (same ▸ writes)
      exact ⟨List.mem_append_left _ member,made,writer ▸ plan,last⟩

/-- The answer to the last call of a batch is that of the queue, and the answers to the others are those of the
    store. -/
theorem Hears.answered {f : Flush} {result : Except Failure Unit} (before : Hears info batches s notes)
    (writes : s.flush? = some f) (given : hearing store server f.call (c,notes) = (result,c',notes')) :
    JobsFollow info batches notes' ∧
      (f.left = [] ∧ heard notes' = some (s.committed ++ if result = .ok () then Writer.hashes f.batch else []) ∨
        f.left ≠ [] ∧ heard notes' = some s.committed ∧ notes' = notes ++ [.stored f.call result]) := by
  obtain ⟨member,made,plan,last⟩ := before.current f writes
  rcases s.writer.last_of_plan plan with ⟨tells,none,items⟩ | ⟨other,some_⟩
  · obtain ⟨reply,sent,replied⟩ := hearing_publish store server c notes (Writer.hashes f.batch)
    rw [tells] at given
    rw [given] at sent replied
    replace sent : notes' = notes ++ [.sent (.insertJob ⟨Writer.hashes f.batch⟩) reply] := sent
    subst sent
    refine ⟨before.follow.snoc ?_,.inl ⟨none,?_⟩⟩
    · intro job other same
      cases same
      exact ⟨f.batch,member,rfl,by rw [last _ items,before.writer]⟩
    · rcases replied with ⟨well,id,rfl⟩ | ⟨ill,unheard⟩
      · rw [if_pos well]
        exact heard_job before.known
      · rw [if_neg ill,List.append_nil,heard_other unheard,before.known]
  · have stored := hearing_store store server c notes other
    rw [given] at stored
    replace stored : notes' = notes ++ [.stored f.call result] := stored
    subst stored
    refine ⟨before.follow.snoc ?_,.inr ⟨some_,?_,rfl⟩⟩
    · intro job reply same
      cases same
    · rw [heard_other rfl,before.known]

theorem Hears.locked {seen : List Event} (before : Hears info batches s notes) (locked : Locked s m seen t)
    (gives : (hearing store server).Gives (c,notes) (s.exchanges m) (c',notes')) :
    Hears info (batches ++ seen.filterMap Event.taken?) t notes' := by
  -- An answer is given to the call that waits for it.
  have given {f : Flush} {result : Except Failure Unit} (writes : s.flush? = some f) (answers : m = .answer result) :
      hearing store server f.call (c,notes) = (result,c',notes') := by
    subst answers
    simp only [exchanges,writes,Option.toList_some,List.map_cons,List.map_nil,Answers.Gives] at gives
    obtain ⟨u,given,rfl⟩ := gives
    exact given
  cases locked with
  | keep | idle =>
    cases gives
    exact before.same (.inl (by simp)) (by simp) (by simp)
  | refuse =>
    cases gives
    exact before.same (.inl (by simp)) (by simp [Session.fail]) (by simp [Session.fail])
  | @begin task rest batch call left free next whole filled due plan =>
    cases gives
    refine ⟨before.writer,before.known,before.follow.mono,?_⟩
    intro f writes
    obtain rfl : ⟨task,batch,call,left⟩ = f := Option.some.inj writes
    exact ⟨by simp [Event.taken?],[],plan,by simp⟩
  | @fail f failure writes =>
    obtain ⟨follow,known⟩ := before.answered writes (given writes rfl)
    have same : heard notes' = some s.committed := by
      rcases known with ⟨-,known⟩ | ⟨-,known,-⟩
      · simpa using known
      · exact known
    refine ⟨?_,?_,follow.mono,?_⟩
    · simpa [Session.fail] using before.writer
    · simpa [Session.fail] using same
    · intro f writes
      simp at writes
  | @commit f writes last =>
    obtain ⟨follow,known⟩ := before.answered writes (given writes rfl)
    have more : heard notes' = some (s.committed ++ Writer.hashes f.batch) := by
      rcases known with ⟨-,known⟩ | ⟨some_,-,-⟩
      · simpa using known
      · exact absurd last some_
    refine ⟨?_,?_,follow.mono,?_⟩
    · simpa [Session.commit,Writer.commit] using before.writer
    · simpa [Session.commit] using more
    · intro f writes
      simp at writes
  | @next f call left writes more =>
    obtain ⟨follow,known⟩ := before.answered writes (given writes rfl)
    obtain ⟨member,made,plan,-⟩ := before.current f writes
    rcases known with ⟨none,-⟩ | ⟨-,known,rfl⟩
    · rw [more] at none
      cases none
    · refine ⟨before.writer,known,follow.mono,?_⟩
      intro f' writes'
      obtain rfl : { f with call, left } = f' := Option.some.inj writes'
      refine ⟨List.mem_append_left _ member,made ++ [f.call],?_,?_⟩
      · rw [← more,List.append_assoc]
        exact plan
      · intro call last
        obtain rfl : f.call = call := by simpa using last
        simp

theorem Hears.step (before : Hears info batches s notes) (step : Step s m t)
    (gives : (hearing store server).Gives (c,notes) (s.exchanges m) (c',notes')) :
    Hears info (batches ++ (s.events m t).filterMap Event.taken?) t notes' := by
  rcases locked_or_quiet step with locked | quiet
  · exact before.locked locked gives
  · rw [exchanges_of_quiet quiet] at gives
    cases gives
    exact before.same (.inr quiet.flush?) quiet.writer quiet.committed

variable {settings : Settings} {now : Nat} {stop : Bool} {moves : List Move}

theorem hears_of_run (run : (start settings info now stop).replay moves = some s)
    (gives : (hearing store server).Gives (c,[]) ((start settings info now stop).exchanged moves) (c',notes)) :
    Hears info (((start settings info now stop).taken moves).map (·.batch)) s notes := by
  rw [batch_taken run]
  refine replay_induction (P := fun moves s => ∀ c' notes,
    (hearing store server).Gives (c,[]) ((start settings info now stop).exchanged moves) (c',notes) →
      Hears info (((start settings info now stop).trace moves).filterMap Event.taken?) s notes) ?_ ?_ run c' notes gives
  · intro c' notes gives
    cases gives
    refine ⟨rfl,rfl,?_,?_⟩
    · intro before job reply after split
      simp at split
    · intro f writes
      cases writes
  · intro moves s m t reached before move c' notes gives
    rw [exchanged,gather_snoc _ reached move] at gives
    rw [trace,gather_snoc _ reached move,List.filterMap_append]
    obtain ⟨⟨d,earlier⟩,gave,given⟩ := Answers.gives_append.mp gives
    exact (before d earlier gave).step (step_of_apply move) given

/-- The queue hears of just what is committed. A session runs whose calls are answered by any store and by a queue
    over any server, however they fail. Then the payloads of the jobs that the server has acknowledged, read as
    JSON with every info hash in them parsed, hold together the info hashes that are committed, in the same order
    and each as often. And when a job was sent, for a batch that was taken from the buffer, the store had just
    answered that the items of this batch are written. -/
theorem queue_hears (run : (start settings info now stop).replay moves = some s)
    (gives : (hearing store server).Gives (c,[]) ((start settings info now stop).exchanged moves) (c',notes)) :
    ((notes.filterMap Note.acknowledged?).mapM readPayload).map List.flatten = some s.committed ∧
      ∀ before job reply after, notes = before ++ .sent (.insertJob job) reply :: after →
        ∃ taking ∈ (start settings info now stop).taken moves, job.hashes = Writer.hashes taking.batch ∧
          before.getLast? = some (.stored (.upsertItems (taking.batch.map (Item.ofRecord info))) (.ok ())) := by
  have hears := hears_of_run run gives
  refine ⟨hears.known,?_⟩
  intro before job reply after split
  obtain ⟨batch,member,hashes,items⟩ := hears.follow before job reply after split
  obtain ⟨taking,taken,rfl⟩ := List.mem_map.mp member
  exact ⟨taking,taken,hashes,items⟩

/-- A server that refuses the first job and numbers the others. -/
def refusing : Server Nat := fun statement n =>
  match statement, n with
  | .insertJob _, 0 => (.error .poolClosed,1)
  | .insertJob _, n + 1 => (.ok (.job (n + 1)),n + 2)
  | _, n => (.ok .done,n)

/-- Two records are written one after the other, and the job of the first is refused. -/
def refusedRun : List Move :=
  [.ingest [.bare "dht" 1,.bare "dht" 2],.arm,.call 0,.call 0,.call 0,.call 0,.receive,.start 0,.acquire,
    .answer (.ok ()),.answer (.ok ()),.answer (.error (.publish DatabaseFault.poolClosed.message)),.settle,
    .arm,.call 0,.call 0,.call 0,.receive,.start 0,.acquire,.answer (.ok ()),.answer (.ok ()),.answer (.ok ())]

/-- The calls for one of the two records, with the answer to the last. -/
def attempt (n : UInt8) (result : Except Failure Unit) : Exchanges :=
  gone [.createSources [⟨"dht","dht"⟩],.upsertItems [.ofRecord ⟨"nightly"⟩ (.bare "dht" n)]] ++
    [(.publish [(Record.bare "dht" n).infoHash],result)]

theorem queue_hears_refused :
    ∃ (s : Session) (notes : List Note), eager.replay refusedRun = some s ∧ s.committed = [(Record.bare "dht" 2).infoHash] ∧
      ((notes.filterMap Note.acknowledged?).mapM readPayload).map List.flatten =
        some [(Record.bare "dht" 2).infoHash] := by
  have ends : (eager.replay refusedRun).map (·.committed) = some [(Record.bare "dht" 2).infoHash] := rfl
  obtain ⟨s,run,committed⟩ := Option.map_eq_some_iff.mp ends
  have calls : eager.exchanged refusedRun = attempt 1 (.error (.publish DatabaseFault.poolClosed.message)) ++
      attempt 2 (.ok ()) := rfl
  have gives : ∃ c, (hearing (answers refusing) refusing).Gives (0,[]) (eager.exchanged refusedRun) c := by
    rw [calls]
    refine ⟨_,.cons ?_ (.cons ?_ (.cons ?_ (.cons ?_ (.cons ?_ (.cons ?_ rfl)))))⟩
    all_goals decide +kernel
  obtain ⟨⟨c,notes⟩,gives⟩ := gives
  exact ⟨s,notes,run,committed,committed ▸ (queue_hears run gives).1⟩

end

end Session

end Intake
