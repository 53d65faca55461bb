import Intake.Json.Reader
import Intake.Proofs.Decimal
import Intake.Proofs.InfoHash
import Mathlib.Tactic.SplitIfs

/-!
Which texts are those of a JSON value (`Tree.Spelled`): blanks may stand around every
token, hexadecimal digits and the mark of a power come in either case. Of these texts
the one that is written for a value has no blanks (`spelled_ofString`, `spelled_ofNat`,
`spelled_ofList`, `spelled_ofMembers`).
-/
namespace Intake.Json

open Decimal (AllDigits)

def Blanks (s : List Char) : Prop := ∀ c ∈ s, isSpace c = true

/-! ### Strings -/

inductive Piece.Spelled : Piece → List Char → Prop where
  | plain {c : Char} (visible : ¬ c < ' ') (quote : c ≠ '"') (backslash : c ≠ '\\') : Spelled (.plain c) [c]
  | escaped {letter : Char} (known : letters.any (·.1 = letter) = true) : Spelled (.escaped letter) ['\\',letter]
  | unit {a b c d : Char} {n : Nat} (digits : unit? a b c d = some n) : Spelled (.unit n) ['\\','u',a,b,c,d]

/-- The pieces of a string and the quote behind them. -/
inductive SpelledPieces : List Piece → List Char → Prop where
  | nil : SpelledPieces [] ['"']
  | cons {p : Piece} {pieces : List Piece} {s rest : List Char} (first : p.Spelled s)
      (others : SpelledPieces pieces rest) : SpelledPieces (p :: pieces) (s ++ rest)

/-! ### Numbers -/

/-- Digits without a zero before others. -/
structure IsWhole (digits : List Char) : Prop where
  filled : digits ≠ []
  all : AllDigits digits
  head : digits.head? = some '0' → digits = ['0']

inductive SpelledFraction : Option (List Char) → List Char → Prop where
  | none : SpelledFraction none []
  | some {digits : List Char} (filled : digits ≠ []) (all : AllDigits digits) :
      SpelledFraction (some digits) ('.' :: digits)

inductive SpelledPower : Option Power → List Char → Prop where
  | none : SpelledPower none []
  | some {c : Char} {sign digits : List Char} (mark : c = 'e' ∨ c = 'E')
      (signed : sign = [] ∨ sign = ['+'] ∨ sign = ['-']) (filled : digits ≠ []) (all : AllDigits digits) :
      SpelledPower (some ⟨sign,digits⟩) (c :: sign ++ digits)

/-- A number from its first digit on. -/
inductive Numeral.Spelled : Numeral → List Char → Prop where
  | mk {negative : Bool} {whole fraction power : List Char} {fraction? : Option (List Char)} {power? : Option Power}
      (isWhole : IsWhole whole) (hasFraction : SpelledFraction fraction? fraction)
      (hasPower : SpelledPower power? power) :
      Spelled ⟨negative,whole,fraction?,power?⟩ (whole ++ (fraction ++ power))

/-! ### Values -/

mutual
inductive Tree.Spelled : Tree → List Char → Prop where
  | null : Tree.Spelled .null ['n','u','l','l']
  | true : Tree.Spelled (.bool true) ['t','r','u','e']
  | false : Tree.Spelled (.bool false) ['f','a','l','s','e']
  | positive {n : Numeral} {s : List Char} (sign : n.negative = false) (digits : Numeral.Spelled n s) :
      Tree.Spelled (.number n) s
  | negative {n : Numeral} {s : List Char} (sign : n.negative = true) (digits : Numeral.Spelled n s) :
      Tree.Spelled (.number n) ('-' :: s)
  | string {pieces : List Piece} {s : List Char} (spelled : SpelledPieces pieces s) :
      Tree.Spelled (.string ⟨pieces,none⟩) ('"' :: s)
  | emptyArray {b : List Char} (blanks : Blanks b) : Tree.Spelled (.array [] .closed) ('[' :: (b ++ [']']))
  | array {t : Tree} {others : List Tree} {b v s : List Char} (blanks : Blanks b) (first : Tree.Spelled t v)
      (more : SpelledElements others s) : Tree.Spelled (.array (t :: others) .closed) ('[' :: (b ++ (v ++ s)))
  | emptyObject {b : List Char} (blanks : Blanks b) : Tree.Spelled (.object [] .closed) ('{' :: (b ++ ['}']))
  | object {m : Tree × Tree} {others : List (Tree × Tree)} {b v s : List Char} (blanks : Blanks b)
      (first : SpelledMember m v) (more : SpelledMembers others s) :
      Tree.Spelled (.object (m :: others) .closed) ('{' :: (b ++ (v ++ s)))

/-- What follows an element of an array. -/
inductive SpelledElements : List Tree → List Char → Prop where
  | close {b : List Char} (blanks : Blanks b) : SpelledElements [] (b ++ [']'])
  | comma {t : Tree} {others : List Tree} {b b' v s : List Char} (before : Blanks b) (behind : Blanks b')
      (next : Tree.Spelled t v) (more : SpelledElements others s) :
      SpelledElements (t :: others) (b ++ ',' :: (b' ++ (v ++ s)))

inductive SpelledMember : Tree × Tree → List Char → Prop where
  | mk {pieces : List Piece} {t : Tree} {k b b' v : List Char} (key : SpelledPieces pieces k) (before : Blanks b)
      (behind : Blanks b') (value : Tree.Spelled t v) :
      SpelledMember (.string ⟨pieces,none⟩,t) ('"' :: (k ++ (b ++ ':' :: (b' ++ v))))

/-- What follows a member of an object. -/
inductive SpelledMembers : List (Tree × Tree) → List Char → Prop where
  | close {b : List Char} (blanks : Blanks b) : SpelledMembers [] (b ++ ['}'])
  | comma {m : Tree × Tree} {others : List (Tree × Tree)} {b b' v s : List Char} (before : Blanks b)
      (behind : Blanks b') (next : SpelledMember m v) (more : SpelledMembers others s) :
      SpelledMembers (m :: others) (b ++ ',' :: (b' ++ (v ++ s)))
end

@[simp] theorem blanks_nil : Blanks [] := by
  intro c member
  cases member

/-! ### What is written -/

theorem unit?_unitText {n : Nat} (small : n < 65536) :
    ∃ a b c d, unitText n = [a,b,c,d] ∧ unit? a b c d = some n := by
  have digit (k : Nat) : Text.Hex.digit? (Text.Hex.digit (k % 16)) = some (k % 16) :=
    Text.Hex.digit?_digit (Nat.mod_lt k (by decide))
  refine ⟨_,_,_,_,rfl,?_⟩
  simp only [unit?,digit,Option.pure_def,Option.bind_eq_bind,Option.bind_some,Option.some.injEq]
  omega

theorem spelled_ofChar (c : Char) : (Piece.ofChar c).Spelled (Piece.ofChar c).text := by
  unfold Piece.ofChar
  split_ifs with quote backslash back form line carriage tab control
  any_goals exact .escaped (by decide)
  · have small : c.toNat < 32 := control
    obtain ⟨_,_,_,_,digits,value⟩ := unit?_unitText (Nat.lt_trans small (by decide : 32 < 65536))
    simp only [Piece.text,digits]
    exact .unit value
  · exact .plain control quote backslash

theorem spelledPieces_ofString (s : String) :
    SpelledPieces (Quoted.ofString s).pieces ((Quoted.ofString s).pieces.flatMap Piece.text ++ ['"']) := by
  show SpelledPieces (s.toList.map Piece.ofChar) _
  rw [Quoted.ofString]
  induction s.toList with
  | nil => exact .nil
  | cons c rest ih =>
    rw [List.map_cons,List.flatMap_cons,List.append_assoc]
    exact .cons (spelled_ofChar c) ih

theorem spelled_ofString (s : String) : (Tree.ofString s).Spelled (Tree.ofString s).text :=
  .string (spelledPieces_ofString s)

theorem isWhole_text (n : Nat) : IsWhole (Decimal.text n) :=
  ⟨Decimal.text_ne_nil n,Decimal.allDigits_text n,Decimal.head_text n⟩

theorem spelled_ofNat (n : Nat) : (Tree.ofNat n).Spelled (Tree.ofNat n).text := by
  have spelled : (Numeral.ofNat n).Spelled (Decimal.text n ++ ([] ++ [])) := .mk (isWhole_text n) .none .none
  have written : (Tree.ofNat n).text = Decimal.text n ++ ([] ++ []) := by
    simp [Tree.ofNat,Tree.text,Numeral.text,Numeral.ofNat]
  rw [written]
  exact .positive rfl spelled

theorem commaSeparated_cons (t : List Char) (others : List (List Char)) :
    commaSeparated (t :: others) = t ++ others.flatMap (',' :: ·) := by
  induction others generalizing t with
  | nil => simp [commaSeparated]
  | cons u others ih => rw [commaSeparated,ih,List.flatMap_cons,List.cons_append]

theorem elementTexts_eq (elements : List Tree) : elementTexts elements = elements.map Tree.text := by
  induction elements with
  | nil => rfl
  | cons t rest ih => rw [elementTexts,ih,List.map_cons]

theorem memberTexts_eq (members : List (Tree × Tree)) :
    memberTexts members = members.map fun m => m.1.text ++ ':' :: m.2.text := by
  induction members with
  | nil => rfl
  | cons m rest ih => rw [memberTexts,ih,List.map_cons]

theorem spelledElements_of {elements : List Tree} (spelled : ∀ t ∈ elements, t.Spelled t.text) :
    SpelledElements elements ((elements.map Tree.text).flatMap (',' :: ·) ++ [']']) := by
  induction elements with
  | nil => exact .close blanks_nil
  | cons t rest ih =>
    obtain ⟨first,others⟩ := List.forall_mem_cons.mp spelled
    rw [List.map_cons,List.flatMap_cons,List.append_assoc]
    exact @SpelledElements.comma _ _ [] [] _ _ blanks_nil blanks_nil first (ih others)

theorem spelled_ofList {elements : List Tree} (spelled : ∀ t ∈ elements, t.Spelled t.text) :
    (Tree.ofList elements).Spelled (Tree.ofList elements).text := by
  rw [Tree.ofList,Tree.text,elementTexts_eq]
  cases elements with
  | nil => exact .emptyArray blanks_nil
  | cons t rest =>
    obtain ⟨first,others⟩ := List.forall_mem_cons.mp spelled
    rw [List.map_cons,commaSeparated_cons,List.cons_append,List.append_assoc]
    exact @Tree.Spelled.array _ _ [] _ _ blanks_nil first (spelledElements_of others)

theorem spelledMember_of {t : Tree} (name : String) (spelled : t.Spelled t.text) :
    SpelledMember (Tree.ofString name,t) ((Tree.ofString name).text ++ ':' :: t.text) :=
  .mk (spelledPieces_ofString name) blanks_nil blanks_nil spelled

/-- An object with these keys, as it is written. -/
theorem spelled_ofMembers {members : List (String × Tree)} (spelled : ∀ m ∈ members, m.2.Spelled m.2.text) :
    (Tree.ofMembers members).Spelled (Tree.ofMembers members).text := by
  have tail {members : List (String × Tree)} (spelled : ∀ m ∈ members, m.2.Spelled m.2.text) :
      SpelledMembers (members.map fun m => (Tree.ofString m.1,m.2))
        ((members.map fun m => (Tree.ofString m.1).text ++ ':' :: m.2.text).flatMap (',' :: ·) ++ ['}']) := by
    induction members with
    | nil => exact .close blanks_nil
    | cons m rest ih =>
      obtain ⟨first,others⟩ := List.forall_mem_cons.mp spelled
      rw [List.map_cons,List.map_cons,List.flatMap_cons,List.append_assoc]
      exact @SpelledMembers.comma _ _ [] [] _ _ blanks_nil blanks_nil (spelledMember_of m.1 first) (ih others)
  rw [Tree.ofMembers,Tree.text,memberTexts_eq,List.map_map]
  cases members with
  | nil => exact .emptyObject blanks_nil
  | cons m rest =>
    obtain ⟨first,others⟩ := List.forall_mem_cons.mp spelled
    rw [List.map_cons,List.map_cons,commaSeparated_cons,List.cons_append,List.append_assoc]
    exact @Tree.Spelled.object _ _ [] _ _ blanks_nil (spelledMember_of m.1 first) (tail others)

theorem spelled_ofOption {α : Type} {f : α → Tree} (spelled : ∀ a, (f a).Spelled (f a).text) (a? : Option α) :
    (Tree.ofOption f a?).Spelled (Tree.ofOption f a?).text := by
  cases a? with
  | none => exact .null
  | some a => exact spelled a

theorem spelled_bool (b : Bool) : (Tree.bool b).Spelled (Tree.bool b).text := by
  cases b
  · exact .false
  · exact .true

end Intake.Json
