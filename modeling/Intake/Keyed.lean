/-!
Lists with one entry for each key. `lastAtFirst` keeps the last entry of a key
and puts it where the first one stood. It does not search the entries that it keeps
but notes the position of every key (`Kept`). The notes stay exact
(`Kept.exists_put?`), so that none of them leads out of the entries (`Kept.Exact.inRange`),
and what is kept is what `put` leaves (`exists_putAll?`).
-/
namespace Intake.Keyed

variable {α κ : Type} [DecidableEq κ]

/-! ### Entries that are searched -/

/-- Puts an entry in the place of the one with its key, or at the end. -/
def put (key : α → κ) (a : α) : List α → List α
  | [] => [a]
  | b :: rest => if key b = key a then a :: rest else b :: put key a rest

section
variable (key : α → κ)

theorem keys_put (a : α) (entries : List α) :
    (put key a entries).map key =
      if key a ∈ entries.map key then entries.map key else entries.map key ++ [key a] := by
  induction entries with
  | nil => simp [put]
  | cons b rest ih =>
    rw [put]
    by_cases same : key b = key a
    · simp [same]
    · rw [if_neg same,List.map_cons,ih]
      by_cases there : key a ∈ rest.map key
      · rw [if_pos there,if_pos (by simp [there]),List.map_cons]
      · have nowhere : key a ∉ (b :: rest).map key := by
          rw [List.map_cons,List.mem_cons,not_or]
          exact ⟨fun here => same here.symm,there⟩
        rw [if_neg there,if_neg nowhere,List.map_cons,List.cons_append]

theorem put_of_fresh {a : α} {entries : List α} (fresh : key a ∉ entries.map key) :
    put key a entries = entries ++ [a] := by
  induction entries with
  | nil => rfl
  | cons b rest ih =>
    rw [List.map_cons,List.mem_cons,not_or] at fresh
    rw [put,if_neg (Ne.symm fresh.1),ih fresh.2,List.cons_append]

/-- An entry takes the first position of its key. -/
theorem put_of_position {a : α} {entries : List α} {i : Nat}
    (here : (entries.map key).idxOf? (key a) = some i) : put key a entries = entries.set i a := by
  induction entries generalizing i with
  | nil => cases here
  | cons b rest ih =>
    rw [List.map_cons,List.idxOf?_cons] at here
    rw [put]
    by_cases same : key b = key a
    · rw [if_pos (beq_iff_eq.mpr same)] at here
      cases here
      rw [if_pos same,List.set_cons_zero]
    · rw [if_neg (mt beq_iff_eq.mp same),Option.map_eq_some_iff] at here
      obtain ⟨j,later,rfl⟩ := here
      rw [if_neg same,ih later,List.set_cons_succ]

end

/-! ### Entries whose positions are noted -/

/-- Entries with keys of their own, and the position of each key among them. -/
structure Kept (α κ : Type) where
  entries : Array α := #[]
  positions : List (κ × Nat) := []

namespace Kept

/-- Writes an entry at the position of its key, or at a new one behind the others. There is no going on from
    a position out of range. -/
def put? (key : α → κ) (kept : Kept α κ) (a : α) : Option (Kept α κ) :=
  match kept.positions.lookup (key a) with
  | some i =>
    if inside : i < kept.entries.size then some { kept with entries := kept.entries.set i a inside } else none
  | none => some ⟨kept.entries.push a,(key a,kept.entries.size) :: kept.positions⟩

/-- The position of every key is noted, and of no other. -/
def Exact (key : α → κ) (kept : Kept α κ) : Prop :=
  ∀ k, kept.positions.lookup k = (kept.entries.toList.map key).idxOf? k

/-- A position that is noted is in range, and what stands there has the key. -/
theorem Exact.inRange {key : α → κ} {kept : Kept α κ} (noted : kept.Exact key) {k : κ} {i : Nat}
    (found : kept.positions.lookup k = some i) : ∃ inside : i < kept.entries.size, key kept.entries[i] = k := by
  rw [noted k,List.idxOf?_eq_some_iff] at found
  obtain ⟨inside,here,-⟩ := found
  exact ⟨by simpa using inside,by simpa using here⟩

/-- An entry is kept as if it had been put, and the notes stay exact. -/
theorem exists_put? {key : α → κ} {kept : Kept α κ} (noted : kept.Exact key) (a : α) :
    ∃ next, kept.put? key a = some next ∧ next.Exact key ∧
      next.entries.toList = Keyed.put key a kept.entries.toList := by
  have first := noted (key a)
  cases found : kept.positions.lookup (key a) with
  | some i =>
    obtain ⟨inside,-⟩ := noted.inRange found
    rw [found] at first
    have there : key a ∈ kept.entries.toList.map key := List.isSome_idxOf?.mp (by rw [← first]; rfl)
    have place := put_of_position key first.symm
    refine ⟨{ kept with entries := kept.entries.set i a inside },by simp [put?,found,inside],?_,by simp [place]⟩
    -- The keys are the same as before.
    intro k
    rw [Array.toList_set,← place,keys_put,if_pos there]
    exact noted k
  | none =>
    rw [found] at first
    have fresh : key a ∉ kept.entries.toList.map key := List.idxOf?_eq_none_iff.mp first.symm
    refine ⟨⟨kept.entries.push a,(key a,kept.entries.size) :: kept.positions⟩,by simp [put?,found],?_,
      by simp [put_of_fresh key fresh]⟩
    intro k
    have last : ((kept.entries.push a).toList.map key).idxOf? k =
        (kept.positions.lookup k).or (if key a == k then some kept.entries.size else none) := by
      rw [noted k]
      simp [List.idxOf?,List.findIdx?_append,List.findIdx?_cons]
    rw [last,List.lookup_cons]
    by_cases same : k = key a
    · subst same
      simp [found]
    · have other : (k == key a) = false := by simpa using same
      simp [other,Ne.symm same]

/-- Entries are kept as if they had been put in turn. -/
theorem exists_foldlM {key : α → κ} {kept : Kept α κ} (noted : kept.Exact key) (entries : List α) :
    ∃ last, entries.foldlM (put? key) kept = some last ∧ last.Exact key ∧
      last.entries.toList = entries.foldl (fun kept a => Keyed.put key a kept) kept.entries.toList := by
  induction entries generalizing kept with
  | nil => exact ⟨kept,rfl,noted,rfl⟩
  | cons a rest ih =>
    obtain ⟨next,turn,still,same⟩ := exists_put? noted a
    obtain ⟨last,run,ends⟩ := ih still
    refine ⟨last,?_,by rw [List.foldl_cons,← same]; exact ends⟩
    rw [List.foldlM_cons,turn]
    exact run

end Kept

/-- Keeps entries in turn, the last of each key. -/
def putAll? (key : α → κ) (entries : List α) : Option (Kept α κ) := entries.foldlM (Kept.put? key) {}

section
variable (key : α → κ) (entries : List α)

theorem exists_putAll? : ∃ kept, putAll? key entries = some kept ∧ kept.Exact key ∧
    kept.entries.toList = entries.foldl (fun kept a => put key a kept) [] :=
  Kept.exists_foldlM (fun _ => rfl) entries

theorem isSome_putAll? : (putAll? key entries).isSome = true := by
  obtain ⟨kept,run,-⟩ := exists_putAll? key entries
  rw [run]
  rfl

end

/-- The last entry of each key, in the order in which the keys first occur. -/
def lastAtFirst (key : α → κ) (entries : List α) : List α :=
  ((putAll? key entries).get (isSome_putAll? key entries)).entries.toList

section
variable (key : α → κ)

theorem lastAtFirst_eq (entries : List α) :
    lastAtFirst key entries = entries.foldl (fun kept a => put key a kept) [] := by
  obtain ⟨kept,run,-,same⟩ := exists_putAll? key entries
  simp only [lastAtFirst,run,Option.get_some,same]

@[simp] theorem lastAtFirst_nil : lastAtFirst key [] = [] := rfl

theorem lastAtFirst_concat (entries : List α) (a : α) :
    lastAtFirst key (entries ++ [a]) = put key a (lastAtFirst key entries) := by
  rw [lastAtFirst_eq,lastAtFirst_eq,List.foldl_append,List.foldl_cons,List.foldl_nil]

end

/-- The entry of a key. -/
def find? (key : α → κ) (k : κ) (entries : List α) : Option α := entries.find? (key · = k)

end Intake.Keyed
