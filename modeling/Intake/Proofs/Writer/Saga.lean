import Intake.Proofs.Writer.Sources

/-!
The ways in which the writing of one batch ends. A batch with a record that is not
valid is refused for the first such record (`Writer.plan_cases`). Otherwise its calls
are made in order until one fails, and the failure of that call is the answer
(`Written.saga`). Whatever the store and the queue answer, nothing else happens
(`write_is_saga`): a batch that is not written to the end leaves the writer as it was.
-/
namespace Intake

variable {σ : Type}

/-! ### The records of a batch -/

namespace Writer

/-- A batch is empty, or all its records are valid, or one of them is the first that is not. -/
theorem plan_cases (w : Writer) (batch : List Record) :
    (batch = [] ∧ w.plan batch = .ok []) ∨
      (batch ≠ [] ∧ (∀ r ∈ batch, r.validate = .ok ()) ∧ w.plan batch = .ok (w.calls batch)) ∨
      ∃ before r rest cause, batch = before ++ r :: rest ∧ (∀ q ∈ before, q.validate = .ok ()) ∧
        r.validate = .error cause ∧ w.plan batch = .error (.invalidRecord cause) := by
  by_cases empty : batch = []
  · subst empty
    exact .inl ⟨rfl,rfl⟩
  · right
    rcases valid_or_first batch with valid | ⟨before,r,rest,cause,rfl,earlier,invalid⟩
    · exact .inl ⟨empty,valid,w.plan_of_valid empty valid⟩
    · refine .inr ⟨before,r,rest,cause,rfl,earlier,invalid,?_⟩
      rw [plan,if_neg (by simp),checkAll_of_first earlier invalid]

end Writer

/-! ### The ways to end -/

/-- The calls of a batch that is written to the end: one for its sources that are not durable, each once, if there
    are any, one for an item of each record, and one for the news of all info hashes. -/
def Writer.agenda (w : Writer) (batch : List Record) : List Call :=
  let fresh := ((batch.map (·.source)).filter (· ∉ w.durable)).eraseDups
  (if fresh = [] then [] else [.createSources (fresh.map .ofKey)]) ++
    [.upsertItems (batch.map (Item.ofRecord w.info)),.publish (batch.map (·.infoHash))]

theorem Writer.calls_eq_agenda (w : Writer) (batch : List Record) : w.calls batch = w.agenda batch :=
  w.calls_eq batch

/-- What can be said of a batch that a writer has written, or has failed to write. -/
structure Saga (w : Writer) (p : Pass) (after : Writer) : Prop where
  order : p.exchanges.map (·.1) <+: w.agenda p.batch
  /-- No call is made after one that has failed. -/
  stops : ∀ e ∈ p.exchanges.dropLast, e.2 = .ok ()
  unsent : p.batch = [] ∨ (∃ r ∈ p.batch, r.validate ≠ .ok ()) → p.exchanges = []
  /-- The first record that is not valid is named. -/
  refused : ∀ before r rest cause, p.batch = before ++ r :: rest → (∀ q ∈ before, q.validate = .ok ()) →
    r.validate = .error cause → p.result = .error (.invalidRecord cause)
  /-- A failure leaves what is durable as it was, and if all records are valid it is that of the last call. -/
  failed : ∀ f, p.result = .error f → after = w ∧
    ((∀ r ∈ p.batch, r.validate = .ok ()) → ∃ call, p.exchanges.getLast? = some (call,.error f))
  done_iff : (∃ hashes, p.result = .ok hashes) ↔
    (∀ r ∈ p.batch, r.validate = .ok ()) ∧ ∀ e ∈ p.exchanges, e.2 = .ok ()
  /-- The answer is the info hashes of all records, and then no call was left out. -/
  done : ∀ hashes, p.result = .ok hashes → hashes = p.batch.map (·.infoHash) ∧
    (p.batch ≠ [] → p.exchanges.map (·.1) = w.agenda p.batch)

theorem gone_ok {calls : List Call} {e : Call × Except Failure Unit} (member : e ∈ gone calls) : e.2 = .ok () := by
  obtain ⟨call,-,rfl⟩ := List.mem_map.mp member
  rfl

theorem saga_of_empty (w : Writer) : Saga w ⟨[],[],.ok []⟩ (w.commit []) :=
  ⟨List.nil_prefix,by simp,fun _ => rfl,by simp,by simp,by simp,by simp⟩

/-- A record that is not valid is in the way of everything. -/
theorem saga_of_first (w : Writer) {before rest : List Record} {r : Record} {cause : Invalidity}
    (earlier : ∀ q ∈ before, q.validate = .ok ()) (invalid : r.validate = .error cause) :
    Saga w ⟨before ++ r :: rest,[],.error (.invalidRecord cause)⟩ w := by
  have not_valid : ¬ ∀ q ∈ before ++ r :: rest, q.validate = .ok () := by
    intro valid
    rw [valid r (by simp)] at invalid
    cases invalid
  refine ⟨List.nil_prefix,by simp,fun _ => rfl,?_,?_,?_,by simp⟩
  · intro before' r' rest' cause' split earlier' invalid'
    have first : Writer.checkAll (before ++ r :: rest) = .error cause := Writer.checkAll_of_first earlier invalid
    have split : before ++ r :: rest = before' ++ r' :: rest' := split
    rw [split,Writer.checkAll_of_first earlier' invalid'] at first
    cases first
    rfl
  · intro f failed
    cases failed
    exact ⟨rfl,fun valid => absurd valid not_valid⟩
  · constructor
    · rintro ⟨hashes,done⟩
      cases done
    · rintro ⟨valid,-⟩
      exact absurd valid not_valid

/-- Of a valid batch it is left to say how its calls went. -/
theorem saga_of_valid {w after : Writer} {batch : List Record} {exchanges : Exchanges}
    {result : Except Failure (List InfoHash)} (filled : batch ≠ []) (valid : ∀ r ∈ batch, r.validate = .ok ())
    (order : exchanges.map (·.1) <+: w.calls batch) (stops : ∀ e ∈ exchanges.dropLast, e.2 = .ok ())
    (failed : ∀ f, result = .error f → after = w ∧ ∃ call, exchanges.getLast? = some (call,.error f))
    (done : ∀ hashes, result = .ok hashes →
      hashes = Writer.hashes batch ∧ exchanges = gone (w.calls batch)) : Saga w ⟨batch,exchanges,result⟩ after := by
  rw [w.calls_eq_agenda] at order done
  refine ⟨order,stops,?_,?_,?_,?_,?_⟩
  · rintro (empty | ⟨r,member,invalid⟩)
    · exact absurd empty filled
    · exact absurd (valid r member) invalid
  · intro before r rest cause split _ invalid
    have split : batch = before ++ r :: rest := split
    rw [valid r (by simp [split])] at invalid
    cases invalid
  · intro f ill
    exact ⟨(failed f ill).1,fun _ => (failed f ill).2⟩
  · constructor
    · rintro ⟨hashes,well⟩
      refine ⟨valid,fun e member => ?_⟩
      have member : e ∈ exchanges := member
      rw [(done hashes well).2] at member
      exact gone_ok member
    · rintro ⟨-,well⟩
      cases result with
      | ok hashes => exact ⟨hashes,rfl⟩
      | error f =>
        obtain ⟨-,call,last⟩ := failed f rfl
        have ill := well _ (List.mem_of_getLast? last)
        cases ill
  · intro hashes well
    obtain ⟨rfl,all⟩ := done hashes well
    exact ⟨rfl,fun _ => by rw [← calls_of_gone (w.agenda batch),← all]⟩

theorem Written.saga {w after : Writer} {p : Pass} (written : Written w p after) : Saga w p after := by
  have order := written.calls_prefix
  rcases w.plan_cases p.batch with ⟨empty,none⟩ | ⟨filled,valid,whole⟩ |
    ⟨before,r,rest,cause,split,earlier,invalid,first⟩
  · cases written with
    | refuse plan => simp [none] at plan
    | fail plan => simp [none] at plan
    | commit plan =>
      obtain rfl : _ = [] := empty
      obtain rfl : [] = _ := by simpa [none] using plan
      exact saga_of_empty w
  · cases written with
    | refuse plan => simp [whole] at plan
    | @fail _ made _ call f plan =>
      refine saga_of_valid filled valid order ?_ ?_ (by simp)
      · intro e member
        rw [List.dropLast_concat] at member
        exact gone_ok member
      · intro g ill
        cases ill
        exact ⟨rfl,call,by simp⟩
    | commit plan =>
      obtain rfl : w.calls _ = _ := by simpa [whole] using plan
      refine saga_of_valid filled valid order (fun e member => gone_ok (List.dropLast_subset _ member)) (by simp) ?_
      intro hashes well
      cases well
      exact ⟨rfl,rfl⟩
  · cases written with
    | refuse plan =>
      obtain rfl : Failure.invalidRecord cause = _ := by simpa [first] using plan
      obtain rfl : _ = before ++ r :: rest := split
      exact saga_of_first w earlier invalid
    | fail plan => simp [first] at plan
    | commit plan => simp [first] at plan

/-! ### Any store and any queue -/

theorem Answers.noting_run (answers : Answers σ) (calls : List Call) (s : σ) (noted : Exchanges) :
    answers.run calls s = ((answers.noting.run calls (s,noted)).1,(answers.noting.run calls (s,noted)).2.1) := by
  induction calls generalizing s noted with
  | nil => rfl
  | cons call rest ih =>
    rcases answered : answers call s with ⟨f | _,t⟩
    · simp [run,noting,withNotes_eq answered,answered]
    · simpa [run,noting,withNotes_eq answered,answered] using ih t (noted ++ [(call,.ok ())])

/-- To take note changes nothing. -/
theorem Writer.noting_write (w : Writer) (answers : Answers σ) (batch : List Record) (s : σ) (noted : Exchanges) :
    w.write answers batch s =
      ((w.write answers.noting batch (s,noted)).1,(w.write answers.noting batch (s,noted)).2.1,
        (w.write answers.noting batch (s,noted)).2.2.1) := by
  cases plan : w.plan batch with
  | error f => simp only [write,plan]
  | ok calls =>
    simp only [write,plan,answers.noting_run calls s noted]
    rcases answers.noting.run calls (s,noted) with ⟨f | _,t⟩ <;> rfl

/-- A batch is written, or not, in one of the ways of a saga: its calls are made in order until one fails, none at
    all if a record is not valid, and the answer is the failure, with the writer as it was, or the info hashes of
    all records. -/
theorem write_is_saga (answers : Answers σ) (w : Writer) (batch : List Record) (s : σ) :
    ∃ result after t exchanges, w.write answers.noting batch (s,[]) = (result,after,t,exchanges) ∧
      w.write answers batch s = (result,after,t) ∧ Saga w ⟨batch,exchanges,result⟩ after := by
  have written := written_of_write answers.noting_notes w batch (s := (s,[])) rfl
  have same := w.noting_write answers batch s []
  rcases wrote : w.write answers.noting batch (s,[]) with ⟨result,after,t,exchanges⟩
  rw [wrote] at written same
  exact ⟨result,after,t,exchanges,rfl,same,written.saga⟩

/-- The items of two records cannot be written. One of their sources was durable, so that the other alone was
    created, and it is not durable now. -/
example :
    let answered := (Writer.mk ⟨"nightly"⟩ ["dht"]).write Script.respond [.bare "dht" 1,.bare "rss" 2]
      ⟨[.ok (),.error .importClosed],[]⟩
    answered.1 = .error .importClosed ∧ answered.2.1.durable = ["dht"] ∧ answered.2.2.exchanges.map (·.1) =
      [.createSources [⟨"rss","rss"⟩],
        .upsertItems [.ofRecord ⟨"nightly"⟩ (.bare "dht" 1),.ofRecord ⟨"nightly"⟩ (.bare "rss" 2)]] := by
  decide +kernel

end Intake
