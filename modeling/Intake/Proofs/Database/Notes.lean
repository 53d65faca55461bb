import Intake.Database.Repository
import Intake.Proofs.Writer.Passes

/-!
Servers that take note of what they are sent. Whatever is noted (`withNotes`), the
statements are carried out as before (`sendAll_unnoted`), and the notes show how far
they came (`sendAll_noted`).
-/
namespace Intake.Database

variable {σ : Type}

/-- Replies as before, and takes note of the statement. -/
def Server.noting (server : Server σ) : Server (σ × List Statement) := withNotes (fun statement _ => statement) server

/-- Statements that were sent, each with its reply. -/
abbrev Traffic := List (Statement × Except DatabaseFault Reply)

/-- Replies as before, and takes note of the statement and the reply. -/
def Server.traced (server : Server σ) : Server (σ × Traffic) := withNotes Prod.mk server

/-- All statements were carried out. -/
def Well (sent : Traffic) : Prop := ∀ e ∈ sent, ∃ reply, e.2 = .ok reply

theorem well_nil : Well [] := fun _ member => absurd member List.not_mem_nil

theorem well_cons {statement : Statement} {reply : Reply} {rest : Traffic} (later : Well rest) :
    Well ((statement,.ok reply) :: rest) := by
  intro e member
  rcases List.mem_cons.mp member with rfl | member
  · exact ⟨reply,rfl⟩
  · exact later e member

theorem not_well_of_mem {sent : Traffic} {statement : Statement} {f : DatabaseFault}
    (member : (statement,.error f) ∈ sent) : ¬ Well sent := by
  intro well
  obtain ⟨reply,ill⟩ := well _ member
  cases ill

/-! ### Statements in order -/

section
variable {ν : Type} (note : Statement → Except DatabaseFault Reply → ν) (server : Server σ)

/-- Statements are sent in order, each after the others were carried out, until all are sent or one fails. -/
theorem sendAll_noted (statements : List Statement) (s : σ) (notes : List ν) :
    ∃ done t, Well done ∧
      ((done.map (·.1) = statements ∧ Server.sendAll (withNotes note server) statements (s,notes) =
          (.ok (),t,notes ++ done.map fun e => note e.1 e.2)) ∨
        ∃ statement f left, statements = done.map (·.1) ++ statement :: left ∧
          Server.sendAll (withNotes note server) statements (s,notes) =
            (.error f,t,notes ++ (done.map fun e => note e.1 e.2) ++ [note statement (.error f)])) := by
  induction statements generalizing s notes with
  | nil => exact ⟨[],s,well_nil,.inl ⟨rfl,by simp [Server.sendAll]⟩⟩
  | cons statement rest ih =>
    rcases answered : server statement s with ⟨f | reply,t⟩
    · refine ⟨[],t,well_nil,.inr ⟨statement,f,rest,rfl,?_⟩⟩
      simp [Server.sendAll,withNotes_eq answered]
    · obtain ⟨done,u,well,ends⟩ := ih t (notes ++ [note statement (.ok reply)])
      have next : Server.sendAll (withNotes note server) (statement :: rest) (s,notes) =
          Server.sendAll (withNotes note server) rest (t,notes ++ [note statement (.ok reply)]) := by
        simp [Server.sendAll,withNotes_eq answered]
      refine ⟨(statement,.ok reply) :: done,u,well_cons well,?_⟩
      rw [next]
      rcases ends with ⟨all,run⟩ | ⟨last,f,left,split,run⟩
      · exact .inl ⟨by simp [all],by simp [run]⟩
      · exact .inr ⟨last,f,left,by simp [split],by simp [run]⟩

/-- To take note changes nothing. -/
theorem sendAll_unnoted (statements : List Statement) (s : σ) (notes : List ν) :
    server.sendAll statements s =
      ((Server.sendAll (withNotes note server) statements (s,notes)).1,
        (Server.sendAll (withNotes note server) statements (s,notes)).2.1) := by
  induction statements generalizing s notes with
  | nil => rfl
  | cons statement rest ih =>
    rcases answered : server statement s with ⟨f | reply,t⟩
    · simp [Server.sendAll,withNotes_eq answered,answered]
    · simpa [Server.sendAll,withNotes_eq answered,answered] using ih t (notes ++ [note statement (.ok reply)])

end

/-- Statements that are all carried out have all been sent. -/
theorem sendAll_noting (server : Server σ) (statements : List Statement) (s : σ) (sent : List Statement)
    (well : (server.noting.sendAll statements (s,sent)).1 = .ok ()) :
    (server.noting.sendAll statements (s,sent)).2.2 = sent ++ statements := by
  obtain ⟨done,t,-,⟨all,run⟩ | ⟨statement,f,left,-,run⟩⟩ :=
    sendAll_noted (fun statement _ => statement) server statements s sent
  · have noted : (server.noting.sendAll statements (s,sent)).2.2 = sent ++ done.map (·.1) := congrArg (·.2.2) run
    rw [noted,all]
  · have failed : (server.noting.sendAll statements (s,sent)).1 = .error f := congrArg Prod.fst run
    rw [failed] at well
    cases well

theorem sendAll_traced (server : Server σ) (statements : List Statement) (s : σ) (sent : Traffic) :
    ∃ done t, Well done ∧
      ((done.map (·.1) = statements ∧ server.traced.sendAll statements (s,sent) = (.ok (),t,sent ++ done)) ∨
        ∃ statement f left, statements = done.map (·.1) ++ statement :: left ∧
          server.traced.sendAll statements (s,sent) = (.error f,t,sent ++ done ++ [(statement,.error f)])) := by
  have noted := sendAll_noted Prod.mk server statements s sent
  simp only [List.map_id'] at noted
  exact noted

end Intake.Database
