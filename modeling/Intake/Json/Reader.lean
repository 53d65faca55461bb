import Intake.Json.Tree

/-!
From a JSON text to the tree of what it holds. Reading never fails: what cannot
be read is a flaw of the tree. Every part takes the text from where it starts
and answers with what is left of it.
-/
namespace Intake.Json

/-- The blanks between tokens. -/
def isSpace (c : Char) : Bool := c = ' ' || c = '\t' || c = '\n' || c = '\r'

def skipSpace (s : List Char) : List Char := s.dropWhile isSpace

open Decimal (isDigit)

/-- The number of bytes of a text. -/
def byteCount (s : List Char) : Nat := s.foldl (fun n c => n + c.utf8Size) 0

/-- The unit written by four hexadecimal digits. -/
def unit? (a b c d : Char) : Option Nat := do
  let a ← Text.Hex.digit? a
  let b ← Text.Hex.digit? b
  let c ← Text.Hex.digit? c
  let d ← Text.Hex.digit? d
  return ((a * 16 + b) * 16 + c) * 16 + d

/-- A piece before the rest of its string. -/
def Quoted.cons (p : Piece) (r : Quoted × List Char) : Quoted × List Char :=
  ({ r.1 with pieces := p :: r.1.pieces },r.2)

/-- The string that goes on behind an opening quote. -/
def Quoted.read : List Char → Quoted × List Char
  | [] => (⟨[],some .ended⟩,[])
  | '"' :: s => (⟨[],none⟩,s)
  | '\\' :: 'u' :: a :: b :: c :: d :: s =>
    match unit? a b c d with
    | some n => Quoted.cons (.unit n) (Quoted.read s)
    | none => (⟨[],some .badUnit⟩,s)
  -- fewer than four characters may still be four bytes, which are then no digits
  | '\\' :: 'u' :: s => (⟨[],some (if byteCount s < 4 then .endedEscape else .badUnit)⟩,[])
  | '\\' :: c :: s =>
    if letters.any (·.1 = c) then Quoted.cons (.escaped c) (Quoted.read s)
    else (⟨[],some .badLetter⟩,s)
  | ['\\'] => (⟨[],some .endedEscape⟩,[])
  | c :: s =>
    if c < ' ' then (⟨[],some .control⟩,s) else Quoted.cons (.plain c) (Quoted.read s)

/-- The rest of a word, from its second letter on. -/
def readWord (first : Char) (t : Tree) : List Char → List Char → Tree × List Char
  | [], s => (t,s)
  | _ :: _, [] => (.flawed (.endedWord first),[])
  | a :: word, c :: s => if c = a then readWord first t word s else (.flawed (.badWord first),s)

/-- Digits that are due, or the flaw that stands in their place. -/
def readDigits (s : List Char) : Except Flaw (List Char × List Char) :=
  match s.takeWhile isDigit, s.dropWhile isDigit with
  | [], [] => .error .endedNumber
  | [], _ :: _ => .error .badNumber
  | digits, s => .ok (digits,s)

/-- The digits of a whole number: a zero stands alone. -/
def readWhole (s : List Char) : Except Flaw (List Char × List Char) := do
  let (digits,s) ← readDigits s
  if digits.head? = some '0' ∧ digits ≠ ['0'] then throw .badNumber
  return (digits,s)

def readFraction : List Char → Except Flaw (Option (List Char) × List Char)
  | '.' :: s => do
    let (digits,s) ← readDigits s
    return (some digits,s)
  | s => .ok (none,s)

def readSign : List Char → List Char × List Char
  | '+' :: s => (['+'],s)
  | '-' :: s => (['-'],s)
  | s => ([],s)

def readPower (s : List Char) : Except Flaw (Option Power × List Char) :=
  match s with
  | c :: s' =>
    if c = 'e' ∨ c = 'E' then do
      let (sign,s') := readSign s'
      let (digits,s') ← readDigits s'
      return (some ⟨sign,digits⟩,s')
    else .ok (none,s)
  | [] => .ok (none,[])

/-- The number from its first digit on. -/
def Numeral.read (negative : Bool) (s : List Char) : Except Flaw (Numeral × List Char) := do
  let (whole,s) ← readWhole s
  let (fraction?,s) ← readFraction s
  let (power?,s) ← readPower s
  return ({ negative, whole, fraction?, power? },s)

def readNumber (negative : Bool) (s : List Char) : Tree × List Char :=
  match Numeral.read negative s with
  | .ok (n,s) => (.number n,s)
  | .error f => (.flawed f,s)

/-- An element before the others of its array. -/
def consElement (t : Tree) (r : (List Tree × Ending) × List Char) : (List Tree × Ending) × List Char :=
  ((t :: r.1.1,r.1.2),r.2)

/-- A member before the others of its object. -/
def consMember (m : Tree × Tree) (r : (List (Tree × Tree) × Ending) × List Char) :
    (List (Tree × Tree) × Ending) × List Char :=
  ((m :: r.1.1,r.1.2),r.2)

mutual
/-- The value that a text starts with. The first argument bounds the steps. -/
def readTree : Nat → List Char → Tree × List Char
  | 0, s => (.flawed .stray,s)
  | n+1, s =>
    match skipSpace s with
    | [] => (.flawed .ended,[])
    | '"' :: s => let (q,s) := Quoted.read s; (.string q,s)
    | '[' :: s =>
      match skipSpace s with
      | [] => (.array [] .ended,[])
      | ']' :: s => (.array [] .closed,s)
      | s =>
        let (t,s) := readTree n s
        let ((elements,ending),s) := consElement t (readElements n s)
        (.array elements ending,s)
    | '{' :: s =>
      match skipSpace s with
      | [] => (.object [] .ended,[])
      | '}' :: s => (.object [] .closed,s)
      | s =>
        let (m,s) := readMember n s
        let ((members,ending),s) := consMember m (readMembers n s)
        (.object members ending,s)
    | '-' :: s => readNumber true s
    | c :: s =>
      if isDigit c then readNumber false (c :: s)
      else if c = 'n' then readWord 'n' .null ['u','l','l'] s
      else if c = 't' then readWord 't' (.bool true) ['r','u','e'] s
      else if c = 'f' then readWord 'f' (.bool false) ['a','l','s','e'] s
      else (.flawed .stray,c :: s)

/-- What follows an element of an array. -/
def readElements : Nat → List Char → (List Tree × Ending) × List Char
  | 0, s => (([],.stray),s)
  | n+1, s =>
    match skipSpace s with
    | [] => (([],.ended),[])
    | ']' :: s => (([],.closed),s)
    | ',' :: s =>
      match skipSpace s with
      | [] => (([],.endedAfterComma),[])
      | ']' :: s => (([],.comma),s)
      | s =>
        let (t,s) := readTree n s
        consElement t (readElements n s)
    | s => (([],.stray),s)

/-- A key, a colon and a value. -/
def readMember : Nat → List Char → (Tree × Tree) × List Char
  | 0, s => ((.flawed .stray,.flawed .stray),s)
  | n+1, s =>
    let (key,s) := readTree n s
    match skipSpace s with
    | [] => ((key,.flawed .endedAtColon),[])
    | ':' :: s => let (t,s) := readTree n s; ((key,t),s)
    | s => ((key,.flawed .noColon),s)

/-- What follows a member of an object. -/
def readMembers : Nat → List Char → (List (Tree × Tree) × Ending) × List Char
  | 0, s => (([],.stray),s)
  | n+1, s =>
    match skipSpace s with
    | [] => (([],.ended),[])
    | '}' :: s => (([],.closed),s)
    | ',' :: s =>
      match skipSpace s with
      | [] => (([],.endedAfterComma),[])
      | '}' :: s => (([],.comma),s)
      | s =>
        let (m,s) := readMember n s
        consMember m (readMembers n s)
    | s => (([],.stray),s)
end

/-- A whole text: its value, and whether only blanks follow it. -/
structure Document where
  tree : Tree
  complete : Bool

/-- Reading takes at most two steps for each character. -/
def Document.read (s : List Char) : Document :=
  let (tree,rest) := readTree (2 * s.length + 2) s
  { tree, complete := (skipSpace rest).isEmpty }

end Intake.Json
