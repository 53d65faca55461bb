import Intake.Decimal.Natural
import Intake.Text.Hex

/-!
What a JSON text holds, as far as it can be read. A `Tree` keeps strings and
numbers as they are written and ends, wherever the text breaks off or goes astray,
in a flaw in place of what is missing. Whoever takes values out of a tree walks
it in the order of the text and so meets the first flaw first. A tree without flaw
is the text of a value (`Tree.text`).
-/
namespace Intake.Json

/-! ## Strings -/

/-- A character of a string as it is written. -/
inductive Piece where
  /-- A character that stands for itself. -/
  | plain (c : Char)
  /-- A backslash and a letter. -/
  | escaped (letter : Char)
  /-- A UTF-16 unit in four hexadecimal digits. -/
  | unit (n : Nat)
deriving DecidableEq, Repr

/-- Where a string goes astray. -/
inductive StringFlaw where
  /-- The text ends between two characters of the string. -/
  | ended
  /-- The text ends within an escape. -/
  | endedEscape
  /-- A control character stands for itself. -/
  | control
  /-- No character has this letter behind a backslash. -/
  | badLetter
  /-- A unit is written with something other than hexadecimal digits. -/
  | badUnit
deriving DecidableEq, Repr

/-- A string as it is written, up to its end or its flaw. -/
structure Quoted where
  pieces : List Piece
  flaw? : Option StringFlaw := none
deriving DecidableEq, Repr

/-- The letters that may follow a backslash and the characters that they stand for. -/
def letters : List (Char × Char) :=
  [('"','"'),('\\','\\'),('/','/'),('b','\x08'),('f','\x0c'),('n','\n'),('r','\r'),('t','\t')]

/-- The four digits of a unit. -/
def unitText (n : Nat) : List Char :=
  [Text.Hex.digit (n / 4096 % 16),Text.Hex.digit (n / 256 % 16),Text.Hex.digit (n / 16 % 16),
   Text.Hex.digit (n % 16)]

def Piece.text : Piece → List Char
  | .plain c => [c]
  | .escaped letter => ['\\',letter]
  | .unit n => '\\' :: 'u' :: unitText n

def Quoted.text (q : Quoted) : List Char := '"' :: q.pieces.flatMap Piece.text ++ ['"']

/-- How a character is written: quote, backslash and control characters need an escape, by
    letter where there is one. -/
def Piece.ofChar (c : Char) : Piece :=
  if c = '"' then .escaped '"'
  else if c = '\\' then .escaped '\\'
  else if c = '\x08' then .escaped 'b'
  else if c = '\x0c' then .escaped 'f'
  else if c = '\n' then .escaped 'n'
  else if c = '\r' then .escaped 'r'
  else if c = '\t' then .escaped 't'
  else if c < ' ' then .unit c.toNat
  else .plain c

def Quoted.ofString (s : String) : Quoted := { pieces := s.toList.map Piece.ofChar }

/-! ## Numbers -/

/-- The power of ten behind a number. -/
structure Power where
  /-- The sign before the digits, if one is written. -/
  sign : List Char
  digits : List Char
deriving DecidableEq, Repr

/-- A number as it is written. -/
structure Numeral where
  negative : Bool := false
  whole : List Char
  /-- The digits behind a point. -/
  fraction? : Option (List Char) := none
  power? : Option Power := none
deriving DecidableEq, Repr

def Numeral.text (n : Numeral) : List Char :=
  (if n.negative then ['-'] else []) ++ n.whole ++
    (match n.fraction? with | some digits => '.' :: digits | none => []) ++
    (match n.power? with | some p => 'e' :: p.sign ++ p.digits | none => [])

def Numeral.ofNat (n : Nat) : Numeral := { whole := Decimal.text n }

/-! ## Values -/

/-- What stands where a value is due. -/
inductive Flaw where
  /-- Something that starts no value. -/
  | stray
  /-- The end of the text. -/
  | ended
  /-- A word with this first letter that is none of the three. -/
  | badWord (first : Char)
  /-- The end of the text within such a word. -/
  | endedWord (first : Char)
  | badNumber
  /-- The end of the text within a number. -/
  | endedNumber
  /-- No colon before the value. -/
  | noColon
  /-- The end of the text before the colon. -/
  | endedAtColon
deriving DecidableEq, Repr

/-- What follows the last entry of an array or an object. -/
inductive Ending where
  | closed
  /-- A comma before the closing bracket. -/
  | comma
  /-- Neither a comma nor the closing bracket. -/
  | stray
  | ended
  /-- The end of the text behind a comma. -/
  | endedAfterComma
deriving DecidableEq, Repr

/-- What a text holds. The keys of an object are strings, or what stands in their place. -/
inductive Tree where
  | null
  | bool (b : Bool)
  | number (n : Numeral)
  | string (q : Quoted)
  | array (elements : List Tree) (ending : Ending)
  | object (members : List (Tree × Tree)) (ending : Ending)
  | flawed (f : Flaw)

/-- Texts with commas between them. -/
def commaSeparated : List (List Char) → List Char
  | [] => []
  | [t] => t
  | t :: u :: rest => t ++ ',' :: commaSeparated (u :: rest)

mutual
/-- The text of a value, without blanks. -/
def Tree.text : Tree → List Char
  | .null => ['n','u','l','l']
  | .bool true => ['t','r','u','e']
  | .bool false => ['f','a','l','s','e']
  | .number n => n.text
  | .string q => q.text
  | .array elements _ => '[' :: commaSeparated (elementTexts elements) ++ [']']
  | .object members _ => '{' :: commaSeparated (memberTexts members) ++ ['}']
  | .flawed _ => []

def elementTexts : List Tree → List (List Char)
  | [] => []
  | t :: rest => t.text :: elementTexts rest

def memberTexts : List (Tree × Tree) → List (List Char)
  | [] => []
  | (key,t) :: rest => (key.text ++ ':' :: t.text) :: memberTexts rest
end

namespace Tree

def ofString (s : String) : Tree := .string (.ofString s)

def ofNat (n : Nat) : Tree := .number (.ofNat n)

def ofList (elements : List Tree) : Tree := .array elements .closed

/-- An object with these keys. -/
def ofMembers (members : List (String × Tree)) : Tree :=
  .object (members.map fun m => (ofString m.1,m.2)) .closed

/-- A value, or null where there is none. -/
def ofOption {α : Type} (f : α → Tree) : Option α → Tree
  | some a => f a
  | none => .null

end Tree

end Intake.Json
