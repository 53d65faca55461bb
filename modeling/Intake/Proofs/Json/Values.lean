import Intake.Json.Typed
import Intake.Proofs.Json.Reading
import Intake.Proofs.Text.Blank

/-!
Values taken out of the trees that are written for them: strings, numbers up to 64
bits, numbers between quotes, variants by their names, and null, lists and maps of
what reads back itself. Whatever is read from a text is read from the tree that the
text holds (`readText_of_holds`).
-/
namespace Intake.Json

variable {α β κ : Type}

/-! ### Whole texts -/

/-- The text of a value, with blanks around it. -/
def Holds (text : String) (t : Tree) : Prop :=
  ∃ before s behind, Blanks before ∧ t.Spelled s ∧ Blanks behind ∧ text.toList = before ++ (s ++ behind)

theorem readText_of_holds {text : String} {t : Tree} (holds : Holds text t) (read : Tree → Except Fault α) :
    readText read text = read t := by
  obtain ⟨before,s,behind,first,spelled,last,split⟩ := holds
  rw [readText,split,read_spelled spelled first last,Document.as]
  cases read t <;> rfl

theorem holds_text {t : Tree} (spelled : t.Spelled t.text) : Holds (String.ofList t.text) t :=
  ⟨[],t.text,[],blanks_nil,spelled,blanks_nil,by simp⟩

/-- An array or an object. -/
def Tree.IsNested : Tree → Prop
  | .array _ _ => True
  | .object _ _ => True
  | _ => False

theorem last_spelledElements {ts : List Tree} {s : List Char} (spelled : SpelledElements ts s) :
    s.getLast? = some ']' := by
  cases spelled with
  | close => simp
  | comma _ _ _ more => simp [List.getLast?_append,List.getLast?_cons,last_spelledElements more]

theorem last_spelledMembers {ms : List (Tree × Tree)} {s : List Char} (spelled : SpelledMembers ms s) :
    s.getLast? = some '}' := by
  cases spelled with
  | close => simp
  | comma _ _ _ more => simp [List.getLast?_append,List.getLast?_cons,last_spelledMembers more]

theorem brackets_of_spelled {t : Tree} {s : List Char} (spelled : t.Spelled s) (nested : t.IsNested) :
    (s.head? = some '[' ∨ s.head? = some '{') ∧ (s.getLast? = some ']' ∨ s.getLast? = some '}') := by
  cases spelled with
  | emptyArray => simp [List.getLast?_cons]
  | array _ _ more => simp [List.getLast?_cons,List.getLast?_append,last_spelledElements more]
  | emptyObject => simp [List.getLast?_cons]
  | object _ _ more => simp [List.getLast?_cons,List.getLast?_append,last_spelledMembers more]
  | _ => cases nested

/-- Nothing but blanks is trimmed off. -/
theorem holds_trimmed {text : String} {t : Tree} (holds : Holds text t) (nested : t.IsNested) :
    Holds (Text.trimmed text) t ∧ (Text.trimmed text).isEmpty = false := by
  obtain ⟨before,s,behind,first,spelled,last,split⟩ := holds
  obtain ⟨start,stop⟩ := brackets_of_spelled spelled nested
  have blank {b : List Char} (blanks : Blanks b) : ∀ c ∈ b, Text.isBlank c = true := by
    intro c member
    have space : ((c = ' ' ∨ c = '\t') ∨ c = '\n') ∨ c = '\r' := by simpa [isSpace] using blanks c member
    rcases space with ((rfl | rfl) | rfl) | rfl <;> rfl
  have core : Text.trim s = s := by
    refine Text.trim_eq_self ?_ ?_
    · intro c head
      rcases start with same | same <;> obtain rfl := Option.some.inj (same.symm.trans head) <;> decide
    · intro c final
      rcases stop with same | same <;> obtain rfl := Option.some.inj (same.symm.trans final) <;> decide
  have trimmed : Text.trimmed text = String.ofList s := by
    rw [Text.trimmed,split,Text.trim_around (blank first) (blank last),core]
  rw [trimmed]
  refine ⟨⟨[],s,[],blanks_nil,spelled,blanks_nil,by simp⟩,?_⟩
  have filled : s ≠ [] := by
    rintro rfl
    simp at start
  simpa using filled

/-! ### Numbers -/

theorem absorb_of_le {n : Nat} {digits : List Char}
    (fits : digits.foldl (fun n c => 10 * n + Decimal.digitValue c) n ≤ significandLimit) :
    absorb n digits = (digits.foldl (fun n c => 10 * n + Decimal.digitValue c) n,[]) := by
  induction digits generalizing n with
  | nil => rfl
  | cons c rest ih =>
    rw [List.foldl_cons] at fits ⊢
    have here : 10 * n + Decimal.digitValue c ≤ significandLimit := by
      refine Nat.le_trans ?_ fits
      rw [Decimal.foldl_digits]
      exact Nat.le_trans (Nat.le_mul_of_pos_right _ (Nat.pow_pos (by decide))) (Nat.le_add_right _ _)
    rw [absorb,if_pos here]
    exact ih fits

theorem number?_ofNat {n : Nat} (fits : n ≤ significandLimit) : (Numeral.ofNat n).number? = some (.integer n) := by
  have whole : absorb 0 (Decimal.text n) = (n,[]) := by
    have value : (Decimal.text n).foldl (fun n c => 10 * n + Decimal.digitValue c) 0 = n := Decimal.value_text n
    rw [absorb_of_le (by rw [value]; exact fits),value]
  simp [Numeral.number?,Numeral.ofNat,whole]

theorem numeral_asUnsigned {bits n : Nat} (word : bits ≤ 64) (fits : n < 2 ^ bits) :
    (Numeral.ofNat n).asUnsigned bits = .ok n := by
  have most : n ≤ significandLimit := by
    have wide : 2 ^ bits ≤ 2 ^ 64 := Nat.pow_le_pow_right (by decide) word
    rw [significandLimit]
    omega
  rw [Numeral.asUnsigned,number?_ofNat most]
  exact if_pos ⟨Int.natCast_nonneg n,by simpa using fits⟩

theorem asUnsigned_ofNat {bits n : Nat} (word : bits ≤ 64) (fits : n < 2 ^ bits) :
    (Tree.ofNat n).asUnsigned bits = .ok n := numeral_asUnsigned word fits

/-- Digits stand for themselves in a string. -/
theorem ofChar_digit {c : Char} (digit : Decimal.isDigit c = true) : Piece.ofChar c = .plain c := by
  have range : '0' ≤ c ∧ c ≤ '9' := by simpa [Decimal.isDigit] using digit
  have other (d : Char) (no : Decimal.isDigit d = false) : c ≠ d := by
    rintro rfl
    rw [digit] at no
    cases no
  have visible : ¬ c < ' ' := by
    rw [Char.not_lt]
    exact Char.le_trans (by decide) range.1
  simp [Piece.ofChar,visible,other '"' rfl,other '\\' rfl,other '\x08' rfl,other '\x0c' rfl,other '\n' rfl,
    other '\r' rfl,other '\t' rfl]

theorem plainRun_digits {digits : List Char} (all : Decimal.AllDigits digits) :
    plainRun (digits.map Piece.ofChar) = digits := by
  induction digits with
  | nil => rfl
  | cons c rest ih =>
    rw [List.map_cons,ofChar_digit (all c List.mem_cons_self),plainRun,
      ih fun d member => all d (List.mem_cons_of_mem c member)]

theorem numeral_of_run {q : Quoted} {n : Nat} (run : plainRun q.pieces = Decimal.text n) :
    q.numeral = .ok (Numeral.ofNat n,[]) := by
  have spelled : (Numeral.ofNat n).Spelled (Decimal.text n ++ ([] ++ [])) := .mk (isWhole_text n) .none .none
  have whole := read_numeral spelled ends_nil
  simp only [List.append_nil] at whole
  obtain ⟨c,rest,same⟩ := List.exists_cons_of_ne_nil (Decimal.text_ne_nil n)
  have digit : Decimal.isDigit c = true := Decimal.allDigits_text n c (by rw [same]; exact List.mem_cons_self)
  rw [same] at whole run
  rw [Quoted.numeral]
  simp only [run]
  split
  · next start =>
    rw [(List.cons.inj start).1] at digit
    cases digit
  · next start =>
    obtain ⟨rfl,rfl⟩ := List.cons.inj start
    have read : Numeral.read false (c :: rest) = .ok (Numeral.ofNat n,[]) := whole
    rw [if_pos digit,read]
    rfl
  · next start => cases start

/-- A number between quotes, as keys are written. -/
theorem numericKey_text {bits n : Nat} (word : bits ≤ 64) (fits : n < 2 ^ bits) :
    (Tree.ofString (String.ofList (Decimal.text n))).numericKey bits = .ok n := by
  have run : plainRun (Quoted.ofString (String.ofList (Decimal.text n))).pieces = Decimal.text n := by
    rw [Quoted.ofString,String.toList_ofList]
    exact plainRun_digits (Decimal.allDigits_text n)
  have size : (Quoted.ofString (String.ofList (Decimal.text n))).pieces.length = (Decimal.text n).length := by
    simp [Quoted.ofString]
  rw [Tree.ofString,Tree.numericKey]
  simp only [bind,Except.bind,numeral_of_run run,numeral_asUnsigned word fits,run,size]
  rfl

/-! ### Strings and variants -/

theorem asString_ofString (s : String) : (Tree.ofString s).asString = .ok s := decode_ofString s

theorem asFormatted_ofString (what : String) (read : String → Except Fault α) (s : String) :
    (Tree.ofString s).asFormatted what read = read s := by
  rw [Tree.ofString,Tree.asFormatted,decode_ofString]
  rfl

theorem asVariant_ofString {known : List (String × α)} {name : String} {a : α} (found : known.lookup name = some a) :
    (Tree.ofString name).asVariant known = .ok a := by
  rw [Tree.ofString,Tree.asVariant,decode_ofString]
  show variant known name = _
  rw [variant,found]

/-! ### Null, lists and maps -/

/-- Neither null nor a flaw. -/
def Tree.IsFilled : Tree → Prop
  | .null => False
  | .flawed _ => False
  | _ => True

theorem asOption_ofOption {read : Tree → Except Fault β} {write : α → Tree} {f : α → β}
    (reads : ∀ a, read (write a) = .ok (f a)) (filled : ∀ a, (write a).IsFilled) (a? : Option α) :
    (Tree.ofOption write a?).asOption read = .ok (a?.map f) := by
  cases a? with
  | none => rfl
  | some a =>
    have whole := filled a
    rw [Tree.ofOption,Tree.asOption.eq_def]
    split
    case h_4 => rw [reads]; rfl
    all_goals
      next same => rw [same] at whole; cases whole

theorem asElements_map {read : Tree → Except Fault β} {write : α → Tree} {f : α → β} {list : List α}
    (reads : ∀ a ∈ list, read (write a) = .ok (f a)) : asElements read (list.map write) = .ok (list.map f) := by
  induction list with
  | nil => rfl
  | cons a rest ih =>
    obtain ⟨first,others⟩ := List.forall_mem_cons.mp reads
    rw [List.map_cons,asElements,first,ih others]
    rfl

theorem asList_ofList {read : Tree → Except Fault β} {write : α → Tree} {f : α → β} {list : List α}
    (reads : ∀ a ∈ list, read (write a) = .ok (f a)) :
    (Tree.ofList (list.map write)).asList read = .ok (list.map f) := by
  rw [Tree.ofList,Tree.asList,asElements_map reads]
  rfl

theorem asMap_ofMembers {readKey : Tree → Except Fault κ} {read : Tree → Except Fault β} {name : α → String}
    {write : α → Tree} {f : α → κ} {g : α → β} {list : List α}
    (keys : ∀ a ∈ list, readKey (Tree.ofString (name a)) = .ok (f a))
    (reads : ∀ a ∈ list, read (write a) = .ok (g a)) :
    (Tree.ofMembers (list.map fun a => (name a,write a))).asMap readKey read =
      .ok (list.map fun a => (f a,g a)) := by
  have entries : asEntries readKey read (list.map fun a => (Tree.ofString (name a),write a)) =
      .ok (list.map fun a => (f a,g a)) := by
    induction list with
    | nil => rfl
    | cons a rest ih =>
      obtain ⟨key,others⟩ := List.forall_mem_cons.mp keys
      obtain ⟨first,later⟩ := List.forall_mem_cons.mp reads
      rw [List.map_cons,asEntries,key,first]
      simp only [bind,Except.bind,ih others later]
      rfl
  rw [Tree.ofMembers,Tree.asMap,List.map_map]
  show (do let entries ← asEntries readKey read (list.map fun a => (Tree.ofString (name a),write a)); _) = _
  rw [entries]
  rfl

end Intake.Json
