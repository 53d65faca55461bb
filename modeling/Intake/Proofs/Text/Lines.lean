import Intake.Proofs.Text.Blank
import Intake.Text.Lines

/-!
Lines of a stream of bytes, one by one. A stream falls into its lines wherever one of
them has ended (`rawLines_append`); and the line feed behind a line changes nothing
about whether it is text and which text stands between its blanks (`trim_lineText`).
-/
namespace Intake.Text

/-! ### Bytes and their lines -/

theorem cutLine_of_plain {line : List UInt8} (plain : 0x0a ∉ line) : cutLine line = (line,[]) := by
  induction line with
  | nil => rfl
  | cons b rest ih =>
    simp only [List.mem_cons,not_or] at plain
    rw [cutLine,if_neg (Ne.symm plain.1),ih plain.2]

theorem cutLine_append {line : List UInt8} (plain : 0x0a ∉ line) (rest : List UInt8) :
    cutLine (line ++ 0x0a :: rest) = (line ++ [0x0a],rest) := by
  induction line with
  | nil => simp [cutLine]
  | cons b tail ih =>
    simp only [List.mem_cons,not_or] at plain
    rw [List.cons_append,cutLine,if_neg (Ne.symm plain.1),ih plain.2]
    rfl

theorem rawLines_of_plain {line : List UInt8} (plain : 0x0a ∉ line) (filled : line ≠ []) :
    rawLines line = [line] := by
  obtain ⟨b,rest,rfl⟩ := List.exists_cons_of_ne_nil filled
  rw [rawLines,cutLine_of_plain plain,rawLines]

theorem rawLines_cons {line : List UInt8} (plain : 0x0a ∉ line) (rest : List UInt8) :
    rawLines (line ++ 0x0a :: rest) = (line ++ [0x0a]) :: rawLines rest := by
  have cut := cutLine_append plain rest
  cases line with
  | nil => rw [List.nil_append,rawLines]; simp only [List.nil_append] at cut; rw [cut]; rfl
  | cons b tail => rw [List.cons_append,rawLines]; rw [List.cons_append] at cut; rw [cut]

/-- The bytes are lines that have all ended. -/
inductive Whole : List UInt8 → Prop where
  | nil : Whole []
  | cons {line rest : List UInt8} (plain : 0x0a ∉ line) (whole : Whole rest) : Whole (line ++ 0x0a :: rest)

/-- A stream falls into its lines where one of them has ended. -/
theorem rawLines_append {before : List UInt8} (whole : Whole before) (after : List UInt8) :
    rawLines (before ++ after) = rawLines before ++ rawLines after := by
  induction whole with
  | nil => simp [rawLines]
  | cons plain whole ih =>
    rw [List.append_assoc,List.cons_append,rawLines_cons plain,ih,rawLines_cons plain]
    rfl

/-- Bytes are lines that have ended and a last one that has not. -/
theorem exists_last (bytes : List UInt8) : ∃ before last, Whole before ∧ 0x0a ∉ last ∧ bytes = before ++ last := by
  induction bytes with
  | nil => exact ⟨[],[],.nil,by simp,rfl⟩
  | cons b tail ih =>
    obtain ⟨before,last,whole,plain,rfl⟩ := ih
    by_cases ends : b = 0x0a
    · have first : Whole ([] ++ 0x0a :: before) := .cons (by simp) whole
      exact ⟨0x0a :: before,last,first,plain,by simp [ends]⟩
    cases whole with
    | nil => exact ⟨[],b :: last,.nil,by simp [Ne.symm ends,plain],rfl⟩
    | @cons line rest early whole =>
      refine ⟨(b :: line) ++ 0x0a :: rest,last,.cons (by simp [Ne.symm ends,early]) whole,plain,?_⟩
      simp

/-- Before a line of a stream stand lines that have ended. -/
theorem exists_before {bytes : List UInt8} {front back : List (List UInt8)} (raws : rawLines bytes = front ++ back)
    (more : back ≠ []) : ∃ before after, Whole before ∧ bytes = before ++ after ∧ rawLines before = front := by
  obtain ⟨ended,last,whole,plain,rfl⟩ := exists_last bytes
  induction whole generalizing front with
  | nil =>
    suffices none : front = [] from ⟨[],last,.nil,rfl,by rw [none,rawLines]⟩
    by_cases empty : last = []
    · have nothing : front ++ back = [] := by rw [← raws,empty,List.append_nil,rawLines]
      exact (List.append_eq_nil_iff.mp nothing).1
    · rw [List.nil_append,rawLines_of_plain plain empty] at raws
      obtain ⟨b,rest,rfl⟩ := List.exists_cons_of_ne_nil more
      cases front with
      | nil => rfl
      | cons a front => simp at raws
  | @cons line rest early whole ih =>
    rw [List.append_assoc,List.cons_append,rawLines_cons early] at raws
    cases front with
    | nil => exact ⟨[],_,.nil,rfl,by rw [rawLines]⟩
    | cons first front =>
      rw [List.cons_append] at raws
      obtain ⟨rfl,later⟩ := List.cons.inj raws
      obtain ⟨before,after,whole,same,lines⟩ := ih later
      exact ⟨line ++ 0x0a :: before,after,.cons early whole,by simp [same],by rw [rawLines_cons early,lines]⟩

/-! ### Lines as text -/

@[simp] theorem toOption_map {ε α β : Type} (f : α → β) (x : Except ε α) : (f <$> x).toOption = x.toOption.map f := by
  cases x <;> rfl

theorem toOption_cons {ε : Type} {x y : Except ε (List Char)} (c : Char) {more : List Char}
    (same : x.toOption = y.toOption.map (· ++ more)) :
    ((c :: ·) <$> x).toOption = ((c :: ·) <$> y).toOption.map (· ++ more) := by
  simp [same,Function.comp_def]

open Utf8 in
/-- A line feed behind bytes is a character of its own, and spoils an unfinished one. -/
theorem decodeFrom_line (start : Nat) (bytes : List UInt8) :
    (decodeFrom start (bytes ++ [0x0a])).toOption = (decodeFrom start bytes).toOption.map (· ++ ['\n']) := by
  have tail : isTail 0x0a = false := rfl
  have three (a : UInt8) : secondOfThree a 0x0a = false := by
    simp only [secondOfThree,tail]
    split
    · rfl
    · split <;> rfl
  have four (a : UInt8) : secondOfFour a 0x0a = false := by
    simp only [secondOfFour,tail]
    split
    · rfl
    · split <;> rfl
  fun_induction decodeFrom start bytes
  case case1 => rfl
  all_goals
    rw [List.cons_append,decodeFrom.eq_def]
    simp only [List.cons_append,List.nil_append,if_true,if_false,Bool.not_false,Bool.not_true,Bool.false_eq_true, *]
  case case2 ih | case4 ih | case9 ih | case16 ih => exact toOption_cons _ ih
  all_goals rfl

theorem decode_line (bytes : List UInt8) :
    (Utf8.decode (bytes ++ [0x0a])).toOption = (Utf8.decode bytes).toOption.map (· ++ ['\n']) :=
  decodeFrom_line 0 bytes

/-! ### Blanks behind a line -/

theorem trim_dropEnd (text : List Char) : trim (dropEnd text) = trim text := by
  have feed : isBlank '\n' = true := by decide
  have back : isBlank '\r' = true := by decide
  rw [dropEnd]
  split
  · next rest ends =>
    obtain rfl : text = rest.reverse ++ ['\r'] ++ ['\n'] := by
      rw [← List.reverse_reverse text,ends]
      simp
    rw [trim_concat feed,trim_concat back]
  · next rest _ ends =>
    obtain rfl : text = rest.reverse ++ ['\n'] := by
      rw [← List.reverse_reverse text,ends]
      simp
    rw [trim_concat feed]
  · rfl

theorem toOption_lineText (line : List UInt8) :
    (lineText line).toOption.map (fun s => trim s.toList) = (Utf8.decode line).toOption.map trim := by
  rw [lineText]
  cases Utf8.decode line with
  | error fault => rfl
  | ok text => simp [bind,Except.bind,pure,Except.pure,Except.toOption,trim_dropEnd]

/-- Between their blanks a line has the same text with its line feed and without. -/
theorem trim_lineText (line : List UInt8) :
    (lineText (line ++ [0x0a])).toOption.map (fun s => trim s.toList) =
      (lineText line).toOption.map fun s => trim s.toList := by
  have feed : isBlank '\n' = true := by decide
  have same : trim ∘ (· ++ ['\n']) = trim := funext fun text => trim_concat feed text
  rw [toOption_lineText,toOption_lineText,decode_line,Option.map_map,same]

end Intake.Text
