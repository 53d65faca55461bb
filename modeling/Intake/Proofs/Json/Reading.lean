import Intake.Proofs.Json.Spelling

/-!
Reading a JSON text. The reader finds in the text of a value the tree of that value, in
whichever of its spellings (`read_spelled`). A number has no end mark of its own: the
reader takes all of it only where the text does not go on as a number could (`Ends`).
-/
namespace Intake.Json

open Decimal (isDigit AllDigits NoDigit noDigit_cons noDigit_nil takeWhile_digits dropWhile_digits)

/-! ### Blanks -/

theorem skipSpace_blanks {b : List Char} (blanks : Blanks b) (s : List Char) : skipSpace (b ++ s) = skipSpace s :=
  List.dropWhile_append_of_pos blanks

theorem skipSpace_cons {c : Char} (visible : isSpace c = false) (s : List Char) : skipSpace (c :: s) = c :: s :=
  List.dropWhile_cons_of_neg (by simp [visible])

theorem skipSpace_first {b : List Char} (blanks : Blanks b) {c : Char} (visible : isSpace c = false)
    (v s rest : List Char) : skipSpace (b ++ (c :: v ++ s) ++ rest) = c :: (v ++ (s ++ rest)) := by
  rw [List.append_assoc,skipSpace_blanks blanks,List.cons_append,List.cons_append,skipSpace_cons visible,
    List.append_assoc]

/-- A text that does not go on as a number could. -/
def Ends (s : List Char) : Prop := ∀ c ∈ s.head?, isDigit c = false ∧ c ≠ '.' ∧ c ≠ 'e' ∧ c ≠ 'E'

@[simp] theorem ends_nil : Ends [] := by
  intro c member
  cases member

@[simp] theorem ends_cons {c : Char} {s : List Char} :
    Ends (c :: s) ↔ isDigit c = false ∧ c ≠ '.' ∧ c ≠ 'e' ∧ c ≠ 'E' := by simp [Ends]

theorem ends_of_space {c : Char} (space : isSpace c = true) (s : List Char) : Ends (c :: s) := by
  have one : ((c = ' ' ∨ c = '\t') ∨ c = '\n') ∨ c = '\r' := by simpa [isSpace] using space
  rw [ends_cons]
  rcases one with ((rfl | rfl) | rfl) | rfl <;> decide

theorem noSpace_of_digit {c : Char} (digit : isDigit c = true) : isSpace c = false := by
  cases space : isSpace c with
  | false => rfl
  | true =>
    rw [(ends_cons.mp (ends_of_space space [])).1] at digit
    cases digit

theorem ends_of_blanks {b s : List Char} (blanks : Blanks b) (ends : Ends s) : Ends (b ++ s) := by
  cases b with
  | nil => exact ends
  | cons c b => exact ends_of_space (blanks c List.mem_cons_self) _

/-! ### Strings -/

theorem read_piece {p : Piece} {s : List Char} (spelled : p.Spelled s) (rest : List Char) :
    Quoted.read (s ++ rest) = Quoted.cons p (Quoted.read rest) := by
  cases spelled with
  | @plain c visible quote backslash =>
    rw [List.singleton_append,Quoted.read.eq_def]
    split
    case h_7 same =>
      obtain ⟨rfl,rfl⟩ := List.cons.inj same
      rw [if_neg visible]
    all_goals simp_all
  | @escaped letter known =>
    have short : letter ≠ 'u' := by
      rintro rfl
      exact absurd known (by decide)
    rw [List.cons_append,List.singleton_append,Quoted.read.eq_def]
    split
    case h_5 same =>
      obtain ⟨rfl,rfl⟩ := List.cons.inj (List.cons.inj same).2
      rw [if_pos known]
    case h_7 other _ same =>
      obtain ⟨rfl,rfl⟩ := List.cons.inj same
      exact absurd rfl (other letter rest rfl)
    all_goals simp_all
  | @unit a b c d n digits =>
    show Quoted.read ('\\' :: 'u' :: a :: b :: c :: d :: rest) = _
    rw [Quoted.read,digits]

theorem read_pieces {pieces : List Piece} {s : List Char} (spelled : SpelledPieces pieces s) (rest : List Char) :
    Quoted.read (s ++ rest) = (⟨pieces,none⟩,rest) := by
  induction spelled with
  | nil => rfl
  | cons first others ih =>
    rw [List.append_assoc,read_piece first,ih]
    rfl

/-! ### Numbers -/

theorem readDigits_append {digits rest : List Char} (filled : digits ≠ []) (all : AllDigits digits)
    (ends : NoDigit rest) : readDigits (digits ++ rest) = .ok (digits,rest) := by
  rw [readDigits,takeWhile_digits all ends,dropWhile_digits all ends]
  obtain ⟨c,more,rfl⟩ := List.exists_cons_of_ne_nil filled
  rfl

theorem readWhole_append {digits rest : List Char} (whole : IsWhole digits) (ends : NoDigit rest) :
    readWhole (digits ++ rest) = .ok (digits,rest) := by
  have plain : ¬ (digits.head? = some '0' ∧ digits ≠ ['0']) := fun zero => zero.2 (whole.head zero.1)
  rw [readWhole,readDigits_append whole.filled whole.all ends]
  simp only [bind,Except.bind,if_neg plain]
  rfl

theorem readFraction_append {fraction? : Option (List Char)} {s rest : List Char}
    (spelled : SpelledFraction fraction? s) (ends : NoDigit rest) (plain : ∀ t, rest ≠ '.' :: t) :
    readFraction (s ++ rest) = .ok (fraction?,rest) := by
  cases spelled with
  | none =>
    rw [List.nil_append,readFraction.eq_def]
    split
    · next t => exact absurd rfl (plain t)
    · rfl
  | some filled all =>
    rw [List.cons_append,readFraction,readDigits_append filled all ends]
    rfl

theorem readPower_append {power? : Option Power} {s rest : List Char} (spelled : SpelledPower power? s)
    (ends : Ends rest) : readPower (s ++ rest) = .ok (power?,rest) := by
  cases spelled with
  | none =>
    cases rest with
    | nil => rfl
    | cons c rest =>
      obtain ⟨-,-,lower,upper⟩ := ends_cons.mp ends
      simp [readPower,lower,upper]
  | @some c sign digits mark signed filled all =>
    have stops : NoDigit rest := fun c member => (ends c member).1
    have unsigned : readSign (sign ++ (digits ++ rest)) = (sign,digits ++ rest) := by
      rcases signed with rfl | rfl | rfl
      · obtain ⟨d,more,rfl⟩ := List.exists_cons_of_ne_nil filled
        have digit := all d List.mem_cons_self
        rw [List.nil_append,List.cons_append,readSign.eq_def]
        split
        · next start => rw [(List.cons.inj start).1] at digit; cases digit
        · next start => rw [(List.cons.inj start).1] at digit; cases digit
        · rfl
      · rfl
      · rfl
    rw [List.cons_append,List.cons_append,List.append_assoc,readPower,if_pos mark,unsigned]
    simp only [readDigits_append filled all stops]
    rfl

theorem read_numeral {n : Numeral} {s rest : List Char} (spelled : n.Spelled s) (ends : Ends rest) :
    Numeral.read n.negative (s ++ rest) = .ok (n,rest) := by
  cases spelled with
  | @mk negative whole fraction power fraction? power? isWhole hasFraction hasPower =>
    have beforePower : NoDigit (power ++ rest) ∧ ∀ t, power ++ rest ≠ '.' :: t := by
      cases hasPower with
      | none =>
        refine ⟨fun c member => (ends c member).1,?_⟩
        rintro t rfl
        exact (ends_cons.mp ends).2.1 rfl
      | some mark =>
        rcases mark with rfl | rfl
        · exact ⟨noDigit_cons.mpr rfl,by simp⟩
        · exact ⟨noDigit_cons.mpr rfl,by simp⟩
    have beforeFraction : NoDigit (fraction ++ (power ++ rest)) := by
      cases hasFraction with
      | none => exact beforePower.1
      | some => exact noDigit_cons.mpr rfl
    rw [List.append_assoc,List.append_assoc,Numeral.read,readWhole_append isWhole beforeFraction]
    simp only [bind,Except.bind,readFraction_append hasFraction beforePower.1 beforePower.2,
      readPower_append hasPower ends]
    rfl

theorem first_of_numeral {n : Numeral} {s : List Char} (spelled : n.Spelled s) :
    ∃ d rest, s = d :: rest ∧ isDigit d = true := by
  cases spelled with
  | mk isWhole =>
    obtain ⟨d,more,rfl⟩ := List.exists_cons_of_ne_nil isWhole.filled
    exact ⟨d,_,rfl,isWhole.all d List.mem_cons_self⟩

/-! ### Values -/

/-- The first character of a value: none that could stand in its place. -/
theorem first_of_spelled {t : Tree} {s : List Char} (spelled : t.Spelled s) :
    ∃ c rest, s = c :: rest ∧ isSpace c = false ∧ c ≠ ']' ∧ c ≠ '}' := by
  cases spelled with
  | positive _ digits =>
    obtain ⟨d,rest,rfl,digit⟩ := first_of_numeral digits
    refine ⟨d,rest,rfl,noSpace_of_digit digit,?_,?_⟩
    · rintro rfl
      cases digit
    · rintro rfl
      cases digit
  | _ => exact ⟨_,_,rfl,by decide,by decide,by decide⟩

theorem first_of_member {m : Tree × Tree} {s : List Char} (spelled : SpelledMember m s) : ∃ rest, s = '"' :: rest := by
  cases spelled
  exact ⟨_,rfl⟩

section
variable {n : Nat} {c : Char} {b s s' : List Char}

theorem readTree_blanks (blanks : Blanks b) : readTree (n+1) (b ++ s) = readTree (n+1) s := by
  rw [readTree,readTree,skipSpace_blanks blanks]

theorem readTree_digit (digit : isDigit c = true) : readTree (n+1) (c :: s) = readNumber false (c :: s) := by
  rw [readTree,skipSpace_cons (noSpace_of_digit digit)]
  split
  case h_1 start => cases start
  case h_6 start =>
    obtain ⟨rfl,rfl⟩ := List.cons.inj start
    rw [if_pos digit]
  all_goals
    next start =>
      rw [(List.cons.inj start).1] at digit
      cases digit

theorem readTree_array (starts : skipSpace s = c :: s') (more : c ≠ ']') :
    readTree (n+1) ('[' :: s) =
      (.array ((readTree n (c :: s')).1 :: (readElements n (readTree n (c :: s')).2).1.1)
        (readElements n (readTree n (c :: s')).2).1.2,(readElements n (readTree n (c :: s')).2).2) := by
  rw [readTree,skipSpace_cons rfl]
  simp only [starts]
  split
  case h_1 start => cases start
  case h_2 start => exact absurd (List.cons.inj start).1 more
  case h_3 => rfl

theorem readTree_object (starts : skipSpace s = c :: s') (more : c ≠ '}') :
    readTree (n+1) ('{' :: s) =
      (.object ((readMember n (c :: s')).1 :: (readMembers n (readMember n (c :: s')).2).1.1)
        (readMembers n (readMember n (c :: s')).2).1.2,(readMembers n (readMember n (c :: s')).2).2) := by
  rw [readTree,skipSpace_cons rfl]
  simp only [starts]
  split
  case h_1 start => cases start
  case h_2 start => exact absurd (List.cons.inj start).1 more
  case h_3 => rfl

theorem readElements_comma (blanks : Blanks b) (starts : skipSpace s = c :: s') (more : c ≠ ']') :
    readElements (n+1) (b ++ ',' :: s) =
      consElement (readTree n (c :: s')).1 (readElements n (readTree n (c :: s')).2) := by
  rw [readElements,skipSpace_blanks blanks,skipSpace_cons rfl]
  simp only [starts]
  split
  case h_1 start => cases start
  case h_2 start => exact absurd (List.cons.inj start).1 more
  case h_3 => rfl

theorem readMembers_comma (blanks : Blanks b) (starts : skipSpace s = c :: s') (more : c ≠ '}') :
    readMembers (n+1) (b ++ ',' :: s) =
      consMember (readMember n (c :: s')).1 (readMembers n (readMember n (c :: s')).2) := by
  rw [readMembers,skipSpace_blanks blanks,skipSpace_cons rfl]
  simp only [starts]
  split
  case h_1 start => cases start
  case h_2 start => exact absurd (List.cons.inj start).1 more
  case h_3 => rfl

end

/-- What the reader finds with so many steps. -/
structure Reads (n : Nat) : Prop where
  tree {t : Tree} {s rest : List Char} (spelled : t.Spelled s) (steps : 2 * s.length ≤ n) (ends : Ends rest) :
    readTree n (s ++ rest) = (t,rest)
  elements {ts : List Tree} {s : List Char} (spelled : SpelledElements ts s) (steps : 2 * s.length ≤ n)
    (rest : List Char) : readElements n (s ++ rest) = ((ts,.closed),rest)
  member {m : Tree × Tree} {s rest : List Char} (spelled : SpelledMember m s) (steps : 2 * s.length ≤ n)
    (ends : Ends rest) : readMember n (s ++ rest) = (m,rest)
  members {ms : List (Tree × Tree)} {s : List Char} (spelled : SpelledMembers ms s) (steps : 2 * s.length ≤ n)
    (rest : List Char) : readMembers n (s ++ rest) = ((ms,.closed),rest)

theorem ends_of_elements {ts : List Tree} {s : List Char} (spelled : SpelledElements ts s) (rest : List Char) :
    Ends (s ++ rest) := by
  cases spelled with
  | close blanks =>
    rw [List.append_assoc]
    exact ends_of_blanks blanks (ends_cons.mpr (by decide))
  | comma before =>
    rw [List.append_assoc]
    exact ends_of_blanks before (ends_cons.mpr (by decide))

theorem ends_of_members {ms : List (Tree × Tree)} {s : List Char} (spelled : SpelledMembers ms s) (rest : List Char) :
    Ends (s ++ rest) := by
  cases spelled with
  | close blanks =>
    rw [List.append_assoc]
    exact ends_of_blanks blanks (ends_cons.mpr (by decide))
  | comma before =>
    rw [List.append_assoc]
    exact ends_of_blanks before (ends_cons.mpr (by decide))

/-- Blanks before a value are passed over. -/
theorem Reads.blank {n : Nat} (reads : Reads n) {t : Tree} {b s rest : List Char} (blanks : Blanks b)
    (spelled : t.Spelled s) (steps : 2 * s.length ≤ n) (ends : Ends rest) :
    readTree n (b ++ (s ++ rest)) = (t,rest) := by
  cases n with
  | zero =>
    obtain ⟨c,more,rfl,-⟩ := first_of_spelled spelled
    simp at steps
  | succ n => rw [readTree_blanks blanks,reads.tree spelled steps ends]

theorem tree_step {n : Nat} (reads : Reads n) {t : Tree} {s rest : List Char} (spelled : t.Spelled s)
    (steps : 2 * s.length ≤ n + 1) (ends : Ends rest) : readTree (n+1) (s ++ rest) = (t,rest) := by
  cases spelled with
  | null | true | false => rfl
  | positive sign digits =>
    have whole := read_numeral digits ends
    obtain ⟨d,more,rfl,digit⟩ := first_of_numeral digits
    rw [sign] at whole
    rw [List.cons_append] at whole ⊢
    rw [readTree_digit digit,readNumber,whole]
  | @negative _ s sign digits =>
    have whole := read_numeral digits ends
    rw [sign] at whole
    show readNumber true (s ++ rest) = _
    rw [readNumber,whole]
  | @string _ s pieces =>
    show ((.string (Quoted.read (s ++ rest)).1,(Quoted.read (s ++ rest)).2) : Tree × List Char) = _
    rw [read_pieces pieces]
  | emptyArray blanks =>
    rw [List.cons_append,List.append_assoc,readTree,skipSpace_cons rfl]
    simp only [skipSpace_blanks blanks,List.singleton_append,skipSpace_cons (by decide : isSpace ']' = false)]
  | emptyObject blanks =>
    rw [List.cons_append,List.append_assoc,readTree,skipSpace_cons rfl]
    simp only [skipSpace_blanks blanks,List.singleton_append,skipSpace_cons (by decide : isSpace '}' = false)]
  | @array t others b v s blanks first more =>
    obtain ⟨c,v,rfl,visible,other,-⟩ := first_of_spelled first
    have starts := skipSpace_first blanks visible v s rest
    simp only [List.length_cons,List.length_append] at steps
    have head : readTree n (c :: (v ++ (s ++ rest))) = (t,s ++ rest) :=
      reads.tree first (by simp only [List.length_cons]; omega) (ends_of_elements more rest)
    rw [List.cons_append,readTree_array starts other,head,reads.elements more (by omega)]
  | @object m others b v s blanks first more =>
    obtain ⟨v,rfl⟩ := first_of_member first
    have starts := skipSpace_first blanks (rfl : isSpace '"' = false) v s rest
    simp only [List.length_cons,List.length_append] at steps
    have head : readMember n ('"' :: (v ++ (s ++ rest))) = (m,s ++ rest) :=
      reads.member first (by simp only [List.length_cons]; omega) (ends_of_members more rest)
    rw [List.cons_append,readTree_object starts (by decide),head,reads.members more (by omega)]

theorem elements_step {n : Nat} (reads : Reads n) {ts : List Tree} {s : List Char} (spelled : SpelledElements ts s)
    (steps : 2 * s.length ≤ n + 1) (rest : List Char) : readElements (n+1) (s ++ rest) = ((ts,.closed),rest) := by
  cases spelled with
  | close blanks =>
    rw [List.append_assoc,readElements,skipSpace_blanks blanks]
    rfl
  | @comma t others b b' v s before behind next more =>
    obtain ⟨c,v,rfl,visible,other,-⟩ := first_of_spelled next
    have starts := skipSpace_first behind visible v s rest
    simp only [List.length_cons,List.length_append] at steps
    have head : readTree n (c :: (v ++ (s ++ rest))) = (t,s ++ rest) :=
      reads.tree next (by simp only [List.length_cons]; omega) (ends_of_elements more rest)
    rw [List.append_assoc,List.cons_append,readElements_comma before starts other,head,
      reads.elements more (by omega)]
    rfl

theorem members_step {n : Nat} (reads : Reads n) {ms : List (Tree × Tree)} {s : List Char}
    (spelled : SpelledMembers ms s) (steps : 2 * s.length ≤ n + 1) (rest : List Char) :
    readMembers (n+1) (s ++ rest) = ((ms,.closed),rest) := by
  cases spelled with
  | close blanks =>
    rw [List.append_assoc,readMembers,skipSpace_blanks blanks]
    rfl
  | @comma m others b b' v s before behind next more =>
    obtain ⟨v,rfl⟩ := first_of_member next
    have starts := skipSpace_first behind (rfl : isSpace '"' = false) v s rest
    simp only [List.length_cons,List.length_append] at steps
    have head : readMember n ('"' :: (v ++ (s ++ rest))) = (m,s ++ rest) :=
      reads.member next (by simp only [List.length_cons]; omega) (ends_of_members more rest)
    rw [List.append_assoc,List.cons_append,readMembers_comma before starts (by decide),head,
      reads.members more (by omega)]
    rfl

theorem member_step {n : Nat} (reads : Reads n) {m : Tree × Tree} {s rest : List Char} (spelled : SpelledMember m s)
    (steps : 2 * s.length ≤ n + 1) (ends : Ends rest) : readMember (n+1) (s ++ rest) = (m,rest) := by
  cases spelled with
  | @mk pieces t k b b' v key before behind value =>
    simp only [List.length_cons,List.length_append] at steps
    have colon : Ends (b ++ ':' :: (b' ++ (v ++ rest))) := ends_of_blanks before (ends_cons.mpr (by decide))
    have head := reads.tree (.string key) (by simp only [List.length_cons]; omega) colon
    have text : '"' :: (k ++ (b ++ ':' :: (b' ++ v))) ++ rest = '"' :: k ++ (b ++ ':' :: (b' ++ (v ++ rest))) := by
      simp
    rw [text,readMember,head]
    simp only [skipSpace_blanks before,skipSpace_cons (by decide : isSpace ':' = false),
      reads.blank behind value (by omega) ends]

theorem reads (n : Nat) : Reads n := by
  induction n with
  | zero =>
    constructor
    case tree =>
      intro t s rest spelled steps
      obtain ⟨c,more,rfl,-⟩ := first_of_spelled spelled
      simp at steps
    case member =>
      intro m s rest spelled steps
      cases spelled
      simp at steps
    all_goals
      intro _ s spelled steps
      cases spelled <;> simp at steps
  | succ n ih => exact ⟨tree_step ih,elements_step ih,member_step ih,members_step ih⟩

/-- The text of a value, with blanks before and behind it, reads as the value. -/
theorem read_spelled {t : Tree} {s : List Char} (spelled : t.Spelled s) {before behind : List Char}
    (blanks : Blanks before) (end_ : Blanks behind) : Document.read (before ++ (s ++ behind)) = ⟨t,true⟩ := by
  have stop : Ends behind := by simpa using ends_of_blanks end_ ends_nil
  have found : readTree (2 * (before ++ (s ++ behind)).length + 2) (before ++ (s ++ behind)) = (t,behind) := by
    refine (reads _).blank blanks spelled ?_ stop
    simp only [List.length_append]
    omega
  have nothing : skipSpace behind = [] := by simpa [skipSpace] using skipSpace_blanks end_ []
  rw [Document.read,found]
  simp [nothing]

end Intake.Json
