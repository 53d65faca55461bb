/-!
Lists cut into pieces of at most a given length, in order and without loss
(`flatten_chunks`). No piece is empty (`length_of_mem_chunks`).
-/
namespace Intake

variable {α : Type}

/-- Pieces of `n` entries, or of one if `n` is zero; the last may be shorter. -/
def chunks (n : Nat) : List α → List (List α)
  | [] => []
  | a :: rest => (a :: rest.take (n - 1)) :: chunks n (rest.drop (n - 1))
termination_by l => l.length
decreasing_by simp only [List.length_drop,List.length_cons]; omega

@[simp] theorem chunks_nil (n : Nat) : chunks n ([] : List α) = [] := by rw [chunks]

theorem chunks_cons (n : Nat) (a : α) (rest : List α) :
    chunks n (a :: rest) = (a :: rest.take (n - 1)) :: chunks n (rest.drop (n - 1)) := by rw [chunks]

theorem flatten_chunks (n : Nat) : ∀ l : List α, (chunks n l).flatten = l
  | [] => by simp
  | a :: rest => by
    rw [chunks_cons,List.flatten_cons,flatten_chunks n (rest.drop (n - 1)),List.cons_append,List.take_append_drop]
termination_by l => l.length
decreasing_by simp only [List.length_drop,List.length_cons]; omega

theorem length_of_mem_chunks {n : Nat} (positive : 0 < n) {piece : List α} :
    ∀ {l : List α}, piece ∈ chunks n l → 0 < piece.length ∧ piece.length ≤ n
  | [], member => by simp at member
  | a :: rest, member => by
    rw [chunks_cons,List.mem_cons] at member
    rcases member with rfl | later
    · simp only [List.length_cons,List.length_take]
      omega
    · exact length_of_mem_chunks positive later
termination_by l => l.length
decreasing_by simp only [List.length_drop,List.length_cons]; omega

end Intake
