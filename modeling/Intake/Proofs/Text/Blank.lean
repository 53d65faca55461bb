import Intake.Text.Blank

/-!
What trimming leaves: blanks at either end go (`trim_around`), and a text that starts
and ends with something else stays as it is (`trim_eq_self`). What is left is told by
where it stands in the text (`trims_iff`).
-/
namespace Intake.Text

theorem trimStart_cons {c : Char} (visible : isBlank c = false) (s : List Char) : trimStart (c :: s) = c :: s :=
  List.dropWhile_cons_of_neg (by simp [visible])

theorem trimStart_append {b : List Char} (blank : ∀ c ∈ b, isBlank c = true) (s : List Char) :
    trimStart (b ++ s) = trimStart s :=
  List.dropWhile_append_of_pos blank

theorem trim_concat {b : Char} (blank : isBlank b = true) (text : List Char) : trim (text ++ [b]) = trim text := by
  by_cases empty : trimStart text = []
  · have start : trimStart (text ++ [b]) = [] := by simpa [trimStart,List.dropWhile_append,blank] using empty
    rw [trim,trim,start,empty]
  · have start : trimStart (text ++ [b]) = trimStart text ++ [b] := by
      rw [trimStart,List.dropWhile_append,if_neg (by simpa [trimStart] using empty)]
      rfl
    rw [trim,trim,start,List.reverse_append,List.reverse_singleton,List.singleton_append]
    simp [trimStart,blank]

theorem trim_append {behind : List Char} (blank : ∀ c ∈ behind, isBlank c = true) (s : List Char) :
    trim (s ++ behind) = trim s := by
  induction behind generalizing s with
  | nil => rw [List.append_nil]
  | cons c rest ih =>
    have others := ih (fun d member => blank d (List.mem_cons_of_mem c member)) (s ++ [c])
    rw [List.append_assoc,List.singleton_append,trim_concat (blank c List.mem_cons_self)] at others
    exact others

theorem trim_around {before behind : List Char} (first : ∀ c ∈ before, isBlank c = true)
    (last : ∀ c ∈ behind, isBlank c = true) (s : List Char) : trim (before ++ (s ++ behind)) = trim s := by
  rw [trim,trimStart_append first,← trim,trim_append last]

theorem trim_eq_self {s : List Char} (first : ∀ c ∈ s.head?, isBlank c = false)
    (last : ∀ c ∈ s.getLast?, isBlank c = false) : trim s = s := by
  have start : trimStart s = s := by
    cases s with
    | nil => rfl
    | cons c rest => exact trimStart_cons (first c rfl) rest
  have stop : trimStart s.reverse = s.reverse := by
    cases ends : s.reverse with
    | nil => rfl
    | cons c rest =>
      have final : c ∈ s.getLast? := by rw [← List.head?_reverse,ends]; rfl
      exact trimStart_cons (last c final) rest
  rw [trim,start,stop,List.reverse_reverse]

/-- What is left of a text without the blanks before and after it. -/
structure Trims (s core : List Char) : Prop where
  around : ∃ before behind, (∀ c ∈ before, isBlank c = true) ∧ (∀ c ∈ behind, isBlank c = true) ∧
    s = before ++ (core ++ behind)
  first : ∀ c ∈ core.head?, isBlank c = false
  last : ∀ c ∈ core.getLast?, isBlank c = false

theorem trimStart_split (s : List Char) :
    ∃ before, (∀ c ∈ before, isBlank c = true) ∧ s = before ++ trimStart s :=
  ⟨s.takeWhile isBlank,List.all_eq_true.mp List.all_takeWhile,List.takeWhile_append_dropWhile.symm⟩

theorem visible_trimStart (s : List Char) : ∀ c ∈ (trimStart s).head?, isBlank c = false := by
  intro c first
  have visible := List.head?_dropWhile_not isBlank s
  rw [← trimStart,Option.mem_def.mp first] at visible
  exact visible

theorem trims_trim (s : List Char) : Trims s (trim s) := by
  obtain ⟨before,first,start⟩ := trimStart_split s
  obtain ⟨behind,last,stop⟩ := trimStart_split (trimStart s).reverse
  have split : trimStart s = trim s ++ behind.reverse := by
    rw [trim,← List.reverse_append,← stop,List.reverse_reverse]
  refine ⟨⟨before,behind.reverse,first,?_,by rw [← split]; exact start⟩,?_,?_⟩
  · intro c member
    exact last c (List.mem_reverse.mp member)
  · intro c head
    refine visible_trimStart s c ?_
    rw [split,List.head?_append,Option.mem_def.mp head]
    rfl
  · intro c final
    rw [trim,List.getLast?_reverse] at final
    exact visible_trimStart _ c final

theorem trims_iff {s core : List Char} : Trims s core ↔ trim s = core := by
  constructor
  · rintro ⟨⟨before,behind,first,last,rfl⟩,start,stop⟩
    rw [trim_around first last,trim_eq_self start stop]
  · rintro rfl
    exact trims_trim s

end Intake.Text
