import Intake.Proofs.Session.Serial

/-!
Batches that one writer writes one after another, whatever the store and the queue
answer (`Writer.passes`). Note is taken of every call and its answer
(`Answers.noting`); what is noted shows how far each batch came (`Written`), so that
the batches of a writer are a `Serial` run, as the batches of a session are.
-/
namespace Intake

variable {σ : Type}

/-- Answers as before, and takes note of each question with its answer. -/
def withNotes {α β ν : Type} (note : α → β → ν) (answer : α → σ → β × σ) : α → σ × List ν → β × σ × List ν :=
  fun a (s,notes) =>
    let (b,s) := answer a s
    (b,s,notes ++ [note a b])

theorem withNotes_eq {α β ν : Type} {note : α → β → ν} {answer : α → σ → β × σ} {a : α} {s t : σ} {b : β}
    (answered : answer a s = (b,t)) (notes : List ν) :
    withNotes note answer a (s,notes) = (b,t,notes ++ [note a b]) := by
  simp only [withNotes,answered]

/-- What is noted of the calls for a batch. -/
abbrev Exchanges := List (Call × Except Failure Unit)

/-- Answers as before, and takes note of the call and the answer. -/
def Answers.noting (answers : Answers σ) : Answers (σ × Exchanges) := withNotes Prod.mk answers

/-- Writes batches one after another, and tells what was exchanged for each and how it ended. -/
def Writer.passes (answers : Answers σ) : Writer → List (List Record) → σ → List Pass × Writer × σ
  | w, [], s => ([],w,s)
  | w, batch :: rest, s =>
    let (result,w,s,exchanges) := w.write answers.noting batch (s,[])
    let (later,w,s) := passes answers w rest s
    (⟨batch,exchanges,result⟩ :: later,w,s)

/-- How a batch can go: it is refused, one of its calls fails after others have gone well, or all go well. -/
inductive Written (w : Writer) : Pass → Writer → Prop where
  | refuse {batch : List Record} {f : Failure} (plan : w.plan batch = .error f) : Written w ⟨batch,[],.error f⟩ w
  | fail {batch : List Record} {made left : List Call} {call : Call} {f : Failure}
      (plan : w.plan batch = .ok (made ++ call :: left)) :
      Written w ⟨batch,gone made ++ [(call,.error f)],.error f⟩ w
  | commit {batch : List Record} {calls : List Call} (plan : w.plan batch = .ok calls) :
      Written w ⟨batch,gone calls,.ok (Writer.hashes batch)⟩ (w.commit batch)

/-! ### What is noted -/

/-- The state shows every call that was answered, with its answer. -/
def Answers.Notes (answers : Answers σ) (noted : σ → Exchanges) : Prop :=
  ∀ call s, noted (answers call s).2 = noted s ++ [(call,(answers call s).1)]

theorem Answers.noting_notes (answers : Answers σ) : answers.noting.Notes Prod.snd := fun _ _ => rfl

theorem Script.respond_notes : Script.respond.Notes Script.exchanges := by
  intro call s
  cases answers : s.answers <;> simp [respond,answers]

/-- Calls are made in order, each after the others have gone well, until all are made or one fails. -/
theorem Answers.Notes.run {answers : Answers σ} {noted : σ → Exchanges} (notes : answers.Notes noted)
    (calls : List Call) (s : σ) :
    ((answers.run calls s).1 = .ok () ∧ noted (answers.run calls s).2 = noted s ++ gone calls) ∨
      ∃ made call left f, calls = made ++ call :: left ∧ (answers.run calls s).1 = .error f ∧
        noted (answers.run calls s).2 = noted s ++ (gone made ++ [(call,.error f)]) := by
  induction calls generalizing s with
  | nil => left; simp [Answers.run,gone]
  | cons call rest ih =>
    have note := notes call s
    cases answered : answers call s with
    | mk result t =>
      rw [answered] at note
      cases result with
      | error f =>
        right
        have run : answers.run (call :: rest) s = (.error f,t) := by simp [Answers.run,answered]
        exact ⟨[],call,rest,f,rfl,by rw [run],by rw [run]; exact note⟩
      | ok _ =>
        have run : answers.run (call :: rest) s = answers.run rest t := by simp [Answers.run,answered]
        rw [run]
        rcases ih t with ⟨well,seen⟩ | ⟨made,last,left,f,split,ended,seen⟩
        · left
          exact ⟨well,by simp [seen,note,gone]⟩
        · right
          exact ⟨call :: made,last,left,f,by simp [split],ended,by simp [seen,note,gone]⟩

theorem written_of_write {answers : Answers σ} {noted : σ → Exchanges} (notes : answers.Notes noted) (w : Writer)
    (batch : List Record) {s : σ} (fresh : noted s = []) :
    Written w ⟨batch,noted (w.write answers batch s).2.2,(w.write answers batch s).1⟩
      (w.write answers batch s).2.1 := by
  cases plan : w.plan batch with
  | error f =>
    simp only [Writer.write,plan,fresh]
    exact .refuse plan
  | ok calls =>
    have run := notes.run calls s
    simp only [Writer.write,plan]
    cases ended : answers.run calls s with
    | mk result t =>
      simp only [ended,fresh,List.nil_append] at run
      rcases run with ⟨rfl,seen⟩ | ⟨made,call,left,f,rfl,rfl,seen⟩
      · simp only [seen]
        exact .commit plan
      · simp only [seen]
        exact .fail plan

/-! ### A run of a writer -/

variable {w u : Writer} {p : Pass} {passes : List Pass}

theorem Written.scripted (written : Written w p u) :
    w.write Script.respond p.batch (.of p.exchanges) = (p.result,u,.done p.exchanges) := by
  cases written with
  | refuse plan => exact write_of_refused plan
  | fail plan => exact write_of_failed plan
  | commit plan => exact write_of_gone plan

theorem written_of_scripted
    (write : w.write Script.respond p.batch (.of p.exchanges) = (p.result,u,.done p.exchanges)) : Written w p u := by
  have written := written_of_write Script.respond_notes w p.batch (s := .of p.exchanges) rfl
  rw [write] at written
  exact written

theorem serial_snoc : Serial w (passes ++ [p]) u ↔ ∃ v, Serial w passes v ∧ Written v p u := by
  constructor
  · intro serial
    generalize whole : passes ++ [p] = all at serial
    cases serial with
    | nil => simp at whole
    | snoc before written =>
      obtain ⟨rfl,same⟩ := List.append_inj' whole rfl
      obtain rfl : p = _ := by simpa using same
      exact ⟨_,before,written_of_scripted written⟩
  · rintro ⟨v,before,written⟩
    exact before.snoc written.scripted

/-- What holds before the first batch, and is kept by every batch that is written, holds after all of them. -/
theorem Serial.keeps {P : List Pass → Writer → Prop} (start : P [] w)
    (step : ∀ {passes v p u}, P passes v → Written v p u → P (passes ++ [p]) u) (serial : Serial w passes u) :
    P passes u := by
  induction serial with
  | nil => exact start
  | snoc _ written before => exact step before (written_of_scripted written)

/-- The writer that each batch was written with. -/
theorem Serial.before {earlier later : List Pass} (serial : Serial w (earlier ++ p :: later) u) :
    ∃ v v', Serial w earlier v ∧ Written v p v' := by
  induction later using List.reverseRecOn generalizing u with
  | nil =>
    obtain ⟨v,before,written⟩ := serial_snoc.mp serial
    exact ⟨v,u,before,written⟩
  | append_singleton later q ih =>
    rw [← List.cons_append,← List.append_assoc] at serial
    obtain ⟨v,before,-⟩ := serial_snoc.mp serial
    exact ih before

theorem serial_passes (answers : Answers σ) (batches : List (List Record)) (s : σ) (before : Serial w passes u) :
    Serial w (passes ++ (u.passes answers batches s).1) (u.passes answers batches s).2.1 := by
  induction batches generalizing passes u s with
  | nil => simpa [Writer.passes] using before
  | cons batch rest ih =>
    have written := written_of_write answers.noting_notes u batch (s := (s,[])) rfl
    cases write : u.write answers.noting batch (s,[]) with
    | mk result more =>
      obtain ⟨v,t,exchanges⟩ := more
      rw [write] at written
      have later := ih t (serial_snoc.mpr ⟨u,before,written⟩)
      simpa [Writer.passes,write] using later

end Intake
