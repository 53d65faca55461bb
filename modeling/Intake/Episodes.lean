import Intake.Json.Typed

/-!
The episodes that an item covers, by season. Seasons and the episodes of each are
strictly ascending lists, so that one map of sets has one form; a season without
episodes stands for the whole of it. Of two entries for a season the later counts.
-/
namespace Intake

/-- A set of numbers, in ascending order. -/
@[ext] structure Numbers where
  toList : List UInt32
  ascending : toList.Pairwise (· < ·)
deriving DecidableEq

namespace Numbers

def insertInto (n : UInt32) : List UInt32 → List UInt32
  | [] => [n]
  | m :: rest => if n < m then n :: m :: rest else if n = m then m :: rest else m :: insertInto n rest

theorem mem_insertInto {n k : UInt32} {l : List UInt32} : k ∈ insertInto n l ↔ k = n ∨ k ∈ l := by
  induction l with
  | nil => simp [insertInto]
  | cons m rest ih =>
    unfold insertInto
    split
    · simp
    split
    · rename_i same; subst same; simp
    · simp [ih]; exact or_left_comm

theorem ascending_insertInto {n : UInt32} {l : List UInt32} (h : l.Pairwise (· < ·)) :
    (insertInto n l).Pairwise (· < ·) := by
  induction l with
  | nil => simp [insertInto]
  | cons m rest ih =>
    obtain ⟨first,tail⟩ := List.pairwise_cons.mp h
    unfold insertInto
    split
    · rename_i lt
      refine List.pairwise_cons.mpr ⟨fun k mem => ?_,h⟩
      rcases List.mem_cons.mp mem with rfl | mem
      · exact lt
      · exact UInt32.lt_trans lt (first k mem)
    split
    · exact h
    · rename_i ge ne
      refine List.pairwise_cons.mpr ⟨fun k mem => ?_,ih tail⟩
      rcases mem_insertInto.mp mem with rfl | mem
      · exact UInt32.lt_of_le_of_ne (UInt32.not_lt.mp ge) (Ne.symm ne)
      · exact first k mem

def empty : Numbers := ⟨[],.nil⟩

def insert (n : UInt32) (s : Numbers) : Numbers := ⟨insertInto n s.toList,ascending_insertInto s.ascending⟩

/-- The set of the numbers of a list. -/
def ofList : List UInt32 → Numbers
  | [] => empty
  | n :: rest => insert n (ofList rest)

end Numbers

@[ext] structure Episodes where
  seasons : List (UInt32 × Numbers)
  ascending : seasons.Pairwise (·.1 < ·.1)
deriving DecidableEq

namespace Episodes

/-- Puts a season in its place, over an entry that is there already. -/
def putInto (n : UInt32) (s : Numbers) : List (UInt32 × Numbers) → List (UInt32 × Numbers)
  | [] => [(n,s)]
  | (m,t) :: rest =>
    if n < m then (n,s) :: (m,t) :: rest
    else if n = m then (n,s) :: rest
    else (m,t) :: putInto n s rest

theorem key_of_mem_putInto {n : UInt32} {s : Numbers} {e : UInt32 × Numbers} {l : List (UInt32 × Numbers)}
    (h : e ∈ putInto n s l) : e.1 = n ∨ e ∈ l := by
  induction l with
  | nil => simp [putInto] at h; simp [h]
  | cons head rest ih =>
    obtain ⟨m,t⟩ := head
    unfold putInto at h
    split at h
    · rcases List.mem_cons.mp h with rfl | mem
      · exact .inl rfl
      · exact .inr mem
    split at h
    · rcases List.mem_cons.mp h with rfl | mem
      · exact .inl rfl
      · exact .inr (List.mem_cons_of_mem _ mem)
    · rcases List.mem_cons.mp h with rfl | mem
      · exact .inr (List.mem_cons_self ..)
      · exact (ih mem).imp id (List.mem_cons_of_mem _)

theorem ascending_putInto {n : UInt32} {s : Numbers} {l : List (UInt32 × Numbers)}
    (h : l.Pairwise (·.1 < ·.1)) : (putInto n s l).Pairwise (·.1 < ·.1) := by
  induction l with
  | nil => simp [putInto]
  | cons head rest ih =>
    obtain ⟨m,t⟩ := head
    obtain ⟨first,tail⟩ := List.pairwise_cons.mp h
    unfold putInto
    split
    · rename_i lt
      refine List.pairwise_cons.mpr ⟨fun e mem => ?_,h⟩
      rcases List.mem_cons.mp mem with rfl | mem
      · exact lt
      · exact UInt32.lt_trans lt (first e mem)
    split
    · rename_i same
      subst same
      exact List.pairwise_cons.mpr ⟨first,tail⟩
    · rename_i ge ne
      refine List.pairwise_cons.mpr ⟨fun e mem => ?_,ih tail⟩
      rcases key_of_mem_putInto mem with same | mem
      · exact same ▸ UInt32.lt_of_le_of_ne (UInt32.not_lt.mp ge) (Ne.symm ne)
      · exact first e mem

def empty : Episodes := ⟨[],.nil⟩

def put (n : UInt32) (s : Numbers) (e : Episodes) : Episodes := ⟨putInto n s e.seasons,ascending_putInto e.ascending⟩

/-- The episodes of a season. -/
def season? (e : Episodes) (n : UInt32) : Option Numbers := e.seasons.lookup n

/-- The map of entries in the order in which they are given. -/
def ofEntries (entries : List (UInt32 × List UInt32)) : Episodes :=
  entries.foldl (fun e entry => e.put entry.1 (.ofList entry.2)) empty

open Json (Tree)

/-- An object of arrays, its keys the numbers of the seasons. -/
def ofTree (t : Tree) : Except Json.Fault Episodes := do
  let number (n : Nat) : UInt32 := UInt32.ofNat n
  let entries ← t.asMap (·.numericKey 32) (·.asList (·.asUnsigned 32))
  return ofEntries (entries.map fun e => (number e.1,e.2.map number))

def seasonTree (s : Numbers) : Tree := .ofList (s.toList.map fun n => .ofNat n.toNat)

def toTree (e : Episodes) : Tree :=
  .ofMembers (e.seasons.map fun s => (String.ofList (Decimal.text s.1.toNat),seasonTree s.2))

end Episodes

end Intake
