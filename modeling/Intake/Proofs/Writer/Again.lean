import Intake.Proofs.Database.Tables
import Intake.Proofs.Writer.Passes
import Intake.Writer.Memory

/-!
A batch that is written again. A store creates a source unless its key is there, and
writes an item over the one with its info hash (`Contents.write`); so calls that were
made already, up to some point, make no difference when all of them are made
(`foldl_write_of_prefix`). A batch that has failed, at whatever call, leaves nothing
behind that its next attempt does not write itself (`write_of_failed_attempt`), and once
an attempt goes well the store is as if it had been the only one (`write_again`).
-/
namespace Intake

open Database (overwrite overwrite_apply overwrite_append)

variable {σ : Type}

/-- The sources that a call creates. -/
def Call.sources : Call → List Source
  | .createSources sources => sources
  | _ => []

/-- The items that a call writes. -/
def Call.items : Call → List Item
  | .upsertItems items => items
  | _ => []

/-- What a store holds: sources by their keys, and items by their info hashes. -/
@[ext]
structure Contents where
  sources : String → Option Source := fun _ => none
  items : InfoHash → Option Item := fun _ => none

namespace Contents

/-- Sources by their keys, after some were created where there were none. -/
def create (sources : List Source) (kept : String → Option Source) : String → Option Source :=
  sources.foldl (fun kept s => if (kept s.key).isSome then kept else Function.update kept s.key (some s)) kept

/-- What a call writes. -/
def write (c : Contents) (call : Call) : Contents where
  sources := create call.sources c.sources
  items := overwrite (·.infoHash) id call.items c.items

/-- A store whose calls all go well. -/
def answers : Answers Contents := fun call c => (.ok (),c.write call)

end Contents

/-- A store with these contents: a call that goes well writes, and one that fails writes nothing. -/
def Answers.Keeps (answers : Answers σ) (contents : σ → Contents) : Prop :=
  ∀ call s, contents (answers call s).2 =
    match (answers call s).1 with
    | .ok () => (contents s).write call
    | .error _ => contents s

/-! ### What calls write -/

namespace Contents

/-- A source that is there stays, and else the first with its key is created. -/
theorem create_apply (sources : List Source) (kept : String → Option Source) (key : String) :
    create sources kept key = (kept key).or (Keyed.find? (·.key) key sources) := by
  induction sources generalizing kept with
  | nil => exact (Option.or_none ..).symm
  | cons s rest ih =>
    have next := ih (if (kept s.key).isSome then kept else Function.update kept s.key (some s))
    rw [create] at next ⊢
    rw [List.foldl_cons,next,Keyed.find?_cons]
    by_cases here : s.key = key
    · subst here
      cases there : kept s.key with
      | none => simp
      | some old => simp [there]
    · cases there : kept s.key with
      | none => simp [here,Ne.symm here]
      | some old => simp [here]

/-- What is there after some calls: the sources that they have created first, and the items that they have
    written last. -/
theorem foldl_write (calls : List Call) (c : Contents) :
    (calls.foldl write c).sources = create (calls.flatMap Call.sources) c.sources ∧
      (calls.foldl write c).items = overwrite (·.infoHash) id (calls.flatMap Call.items) c.items := by
  induction calls generalizing c with
  | nil => exact ⟨rfl,rfl⟩
  | cons call rest ih =>
    obtain ⟨sources,items⟩ := ih (c.write call)
    rw [List.foldl_cons,List.flatMap_cons,List.flatMap_cons]
    constructor
    · rw [sources]
      exact List.foldl_append.symm
    · rw [items,overwrite_append]
      rfl

/-- Where calls are made again from the first on, those that were made before make no difference. -/
theorem foldl_write_of_prefix {made calls : List Call} (first : made <+: calls) (c : Contents) :
    calls.foldl write (made.foldl write c) = calls.foldl write c := by
  obtain ⟨rest,rfl⟩ := first
  ext1
  · rw [(foldl_write _ _).1,(foldl_write _ _).1,(foldl_write _ _).1]
    funext key
    simp only [create_apply,List.flatMap_append,Keyed.find?_append]
    cases c.sources key with
    | some old => rfl
    | none => cases Keyed.find? (·.key) key (made.flatMap Call.sources) <;> simp
  · rw [(foldl_write _ _).2,(foldl_write _ _).2,(foldl_write _ _).2]
    funext h
    simp only [overwrite_apply,List.flatMap_append,List.reverse_append,Keyed.find?_append,Option.map_id]
    cases Keyed.find? (·.infoHash) h (rest.flatMap Call.items).reverse with
    | some later => rfl
    | none => cases Keyed.find? (·.infoHash) h (made.flatMap Call.items).reverse <;> rfl

theorem run_answers (calls : List Call) (c : Contents) : answers.run calls c = (.ok (),calls.foldl write c) := by
  induction calls generalizing c with
  | nil => rfl
  | cons call rest ih => exact ih (c.write call)

end Contents

/-! ### Attempts -/

section
variable {answers : Answers σ} {contents : σ → Contents}

theorem Answers.Keeps.noting (keeps : answers.Keeps contents) : answers.noting.Keeps fun s => contents s.1 :=
  fun call s => keeps call s.1

/-- Calls that are made until one fails have written what those before it write. -/
theorem Answers.Keeps.run (keeps : answers.Keeps contents) (calls : List Call) (s : σ) :
    ((answers.run calls s).1 = .ok () ∧ contents (answers.run calls s).2 = calls.foldl Contents.write (contents s)) ∨
      ∃ f made, (answers.run calls s).1 = .error f ∧ made <+: calls ∧
        contents (answers.run calls s).2 = made.foldl Contents.write (contents s) := by
  induction calls generalizing s with
  | nil => exact .inl ⟨rfl,rfl⟩
  | cons call rest ih =>
    have wrote := keeps call s
    rcases answered : answers call s with ⟨result,t⟩
    rw [answered] at wrote
    cases result with
    | error f =>
      have run : answers.run (call :: rest) s = (.error f,t) := by simp [Answers.run,answered]
      rw [run]
      exact .inr ⟨f,[],rfl,List.nil_prefix,wrote⟩
    | ok _ =>
      have run : answers.run (call :: rest) s = answers.run rest t := by simp [Answers.run,answered]
      replace wrote : contents t = (contents s).write call := wrote
      rw [run,List.foldl_cons,← wrote]
      rcases ih t with well | ⟨f,made,failed,first,written⟩
      · exact .inl well
      · refine .inr ⟨f,call :: made,failed,?_,?_⟩
        · exact (List.prefix_append_right_inj [call]).mpr first
        · rw [List.foldl_cons,← wrote]
          exact written

variable {w : Writer} {batch : List Record} {s : σ}

/-- An attempt that goes well writes what any store writes for which all goes well. -/
theorem write_of_good_attempt (keeps : answers.Keeps contents) {hashes : List InfoHash}
    (done : (w.write answers batch s).1 = .ok hashes) :
    w.write Contents.answers batch (contents s) =
      (.ok hashes,(w.write answers batch s).2.1,contents (w.write answers batch s).2.2) := by
  cases plan : w.plan batch with
  | error f => simp [Writer.write,plan] at done
  | ok calls =>
    simp only [Writer.write,plan,Contents.run_answers] at done ⊢
    rcases keeps.run calls s with ⟨well,written⟩ | ⟨f,made,failed,-,-⟩
    · rcases ended : answers.run calls s with ⟨result,t⟩
      rw [ended] at done well written
      subst well
      simp only [Except.ok.injEq] at done
      rw [← written,done]
    · rcases ended : answers.run calls s with ⟨result,t⟩
      rw [ended] at done failed
      subst failed
      cases done

/-- An attempt that fails leaves the writer as it was, and what it has written makes no difference to the next. -/
theorem write_of_failed_attempt (keeps : answers.Keeps contents) {f : Failure}
    (failed : (w.write answers batch s).1 = .error f) :
    (w.write answers batch s).2.1 = w ∧
      w.write Contents.answers batch (contents (w.write answers batch s).2.2) =
        w.write Contents.answers batch (contents s) := by
  cases plan : w.plan batch with
  | error g => simp [Writer.write,plan]
  | ok calls =>
    simp only [Writer.write,plan,Contents.run_answers] at failed ⊢
    rcases keeps.run calls s with ⟨well,-⟩ | ⟨g,made,stopped,first,written⟩
    · rcases ended : answers.run calls s with ⟨result,t⟩
      rw [ended] at failed well
      subst well
      cases failed
    · rcases ended : answers.run calls s with ⟨result,t⟩
      rw [ended] at stopped written
      subst stopped
      refine ⟨rfl,?_⟩
      simp only [written,Contents.foldl_write_of_prefix first]

theorem passes_cons (rest : List (List Record)) :
    w.passes answers (batch :: rest) s =
      let attempt := w.write answers.noting batch (s,[])
      let later := attempt.2.1.passes answers rest attempt.2.2.1
      (⟨batch,attempt.2.2.2,attempt.1⟩ :: later.1,later.2) := rfl

/-- Writing a batch again is safe. Whatever a store holds and whatever is durable, when one writer tries to write
    a batch until it succeeds, and each attempt before failed at any of its calls, then the answer, the writer
    and what the store holds in the end are those of a single attempt that goes well from the start. -/
theorem write_again (keeps : answers.Keeps contents) (w : Writer) (batch : List Record) (s : σ) {n : Nat}
    {failures : List Pass} {last : Pass} {u : Writer} {t : σ} {hashes : List InfoHash}
    (attempts : w.passes answers (List.replicate n batch) s = (failures ++ [last],u,t))
    (failed : ∀ p ∈ failures, ∃ f, p.result = .error f) (done : last.result = .ok hashes) :
    w.write Contents.answers batch (contents s) = (.ok hashes,u,contents t) := by
  induction n generalizing s failures with
  | zero => simp [Writer.passes] at attempts
  | succ n ih =>
    rw [List.replicate_succ,passes_cons] at attempts
    simp only [Prod.mk.injEq] at attempts
    obtain ⟨passes,later⟩ := attempts
    cases failures with
    | nil =>
      -- The first attempt is the last one.
      obtain ⟨rfl,none⟩ := List.cons.inj passes
      have once : n = 0 := by
        cases n with
        | zero => rfl
        | succ n =>
          rw [List.replicate_succ,passes_cons] at none
          cases none
      subst once
      have ends := write_of_good_attempt keeps.noting done
      rw [← (Prod.mk.inj later).1,← (Prod.mk.inj later).2]
      exact ends
    | cons p rest =>
      obtain ⟨rfl,others⟩ := List.cons.inj passes
      obtain ⟨f,first⟩ := failed _ List.mem_cons_self
      obtain ⟨same,again⟩ := write_of_failed_attempt keeps.noting first
      rw [same] at others later
      rw [← again]
      exact ih _ (Prod.ext others later) (fun q member => failed q (List.mem_cons_of_mem _ member))

end

/-! ### The store in memory -/

namespace Memory

def contents (m : Memory) : Contents where
  sources key := Keyed.find? (·.key) key m.sources
  items h := Keyed.find? (·.infoHash) h m.items

theorem find?_addSources (sources kept : List Source) :
    (fun key => Keyed.find? (·.key) key (addSources sources kept)) =
      Contents.create sources fun key => Keyed.find? (·.key) key kept := by
  induction sources generalizing kept with
  | nil => rfl
  | cons s rest ih =>
    have next := ih (if kept.any (·.key = s.key) then kept else kept ++ [s])
    rw [addSources] at next ⊢
    rw [List.foldl_cons,next,Contents.create,Contents.create,List.foldl_cons]
    congr 1
    have there : kept.any (·.key = s.key) = (Keyed.find? (·.key) s.key kept).isSome := by
      rw [Keyed.find?,List.isSome_find?]
    rw [there]
    by_cases old : (Keyed.find? (·.key) s.key kept).isSome = true
    · rw [if_pos old,if_pos old]
    · rw [if_neg old,if_neg old]
      funext key
      rw [Keyed.find?_append,Keyed.find?_singleton,Function.update_apply]
      by_cases here : key = s.key
      · subst here
        have none : Keyed.find? (·.key) s.key kept = none := by simpa using old
        simp [none]
      · simp [here,Ne.symm here]

theorem find?_addItems (items kept : List Item) :
    (fun h => Keyed.find? (·.infoHash) h (addItems items kept)) =
      overwrite (·.infoHash) id items fun h => Keyed.find? (·.infoHash) h kept := by
  induction items generalizing kept with
  | nil => rfl
  | cons i rest ih =>
    have next := ih (Keyed.put (·.infoHash) i kept)
    rw [addItems] at next ⊢
    rw [List.foldl_cons,next,overwrite,overwrite,List.foldl_cons]
    congr 1
    funext h
    rw [Keyed.find?_put,Function.update_apply]
    by_cases here : h = i.infoHash
    · simp [here]
    · simp [here,Ne.symm here]

theorem contents_write (call : Call) (m : Memory) : (m.write call).contents = m.contents.write call := by
  cases call with
  | createSources sources => exact Contents.ext (find?_addSources sources m.sources) rfl
  | upsertItems items => exact Contents.ext rfl (find?_addItems items m.items)
  | publish hashes => rfl

theorem answers_keeps : answers.Keeps contents := by
  intro call m
  rw [answers,respond]
  rcases struck : strike call.kind (m.note call).outages with ⟨failure?,outages⟩
  cases failure? with
  | some f => rfl
  | none => exact contents_write call _

end Memory

/-- Each kind of call fails once, after the others have gone well. -/
def interrupted : Memory where
  sources := [⟨"dht","DHT"⟩]
  outages := [⟨.sources,.importClosed,some 1⟩,⟨.items,.publish "items",some 1⟩,⟨.publish,.publish "queue",some 1⟩]

theorem write_again_interrupted :
    let w : Writer := { info := ⟨"nightly"⟩ }
    let batch : List Record := [.bare "dht" 1,.bare "rss" 2,.bare "rss" 1]
    let run := w.passes Memory.answers (List.replicate 4 batch) interrupted
    run.1.map (·.result) =
        [.error .importClosed,.error (.publish "items"),.error (.publish "queue")] ++ [.ok (Writer.hashes batch)] ∧
      w.write Contents.answers batch interrupted.contents = (.ok (Writer.hashes batch),run.2.1,run.2.2.contents) := by
  intro w batch run
  have results : run.1.map (·.result) =
      [.error .importClosed,.error (.publish "items"),.error (.publish "queue")] ++ [.ok (Writer.hashes batch)] := rfl
  refine ⟨results,?_⟩
  obtain ⟨failures,rest,split,failed,ended⟩ := List.map_eq_append_iff.mp results
  obtain ⟨last,rfl,done⟩ := List.map_eq_singleton_iff.mp ended
  have attempts : run = (failures ++ [last],run.2.1,run.2.2) := Prod.ext split rfl
  refine write_again Memory.answers_keeps w batch interrupted attempts ?_ done
  intro p member
  have listed : p.result ∈ failures.map (·.result) := List.mem_map_of_mem member
  rw [failed] at listed
  simp only [List.mem_cons,List.not_mem_nil,or_false] at listed
  rcases listed with result | result | result
  · exact ⟨_,result⟩
  · exact ⟨_,result⟩
  · exact ⟨_,result⟩

end Intake
