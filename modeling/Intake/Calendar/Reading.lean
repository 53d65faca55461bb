import Intake.Calendar.Instant
import Intake.Decimal.Natural
import Intake.Text.Blank

/-!
Dates and moments read from texts. The pieces are read from left to right and
the first that does not fit is the answer; what the pieces name together is
looked at when nothing is left of the text. Blanks may stand before every number,
around the separators and at the end.
-/
namespace Intake.Calendar

open Decimal (isDigit value)
open Text (trimStart isBlank)

/-- Why a text is no date or no moment. -/
inductive Fault where
  | invalid
  | early
  | outOfRange
  | trailing
  /-- The moment lies outside the calendar although its clock reading lies inside. -/
  | impossible
deriving DecidableEq, Repr

def Fault.message : Fault → String
  | .invalid => "input contains invalid characters"
  | .early => "premature end of input"
  | .outOfRange => "input is out of range"
  | .trailing => "trailing input"
  | .impossible => "no possible date and time matching input"

/-- The greatest value that a number may have while it is read. -/
def numberLimit : Nat := 0x7fffffffffffffff

/-- A number of one digit or more, of at most `width` when a width is given. -/
def number (width : Option Nat) (s : List Char) : Except Fault (Nat × List Char) :=
  let run := s.takeWhile isDigit
  let digits := match width with
    | some w => run.take w
    | none => run
  if s.isEmpty then .error .early
  else if digits.isEmpty then .error .invalid
  else if numberLimit < value digits then .error .outOfRange
  else .ok (value digits,s.drop digits.length)

/-- A number of at most two digits within bounds. -/
def bounded (low high : Nat) (s : List Char) : Except Fault (Nat × List Char) := do
  let (n,s) ← number (some 2) (trimStart s)
  if low ≤ n ∧ n ≤ high then return (n,s) else throw .outOfRange

/-- A year: up to four digits, or a sign and any number of digits. -/
def year (s : List Char) : Except Fault (Int × List Char) := do
  let (n,s) ← match trimStart s with
    | '-' :: s => do let (n,s) ← number none s; pure (-(n : Int),s)
    | '+' :: s => do let (n,s) ← number none s; pure ((n : Int),s)
    | s => do let (n,s) ← number (some 4) s; pure ((n : Int),s)
  if -0x80000000 ≤ n ∧ n < 0x80000000 then return (n,s) else throw .outOfRange

/-- A separator with blanks before it. -/
def separator (c : Char) (s : List Char) : Except Fault (List Char) :=
  match trimStart s with
  | [] => .error .early
  | d :: s => if d = c then .ok s else .error .invalid

/-- Year, month and day, not yet looked at together. -/
def dateParts (s : List Char) : Except Fault ((Int × Nat × Nat) × List Char) := do
  let (y,s) ← year s
  let s ← separator '-' s
  let (m,s) ← bounded 1 12 s
  let s ← separator '-' s
  let (d,s) ← bounded 1 31 s
  return ((y,m,d),s)

def Date.read (s : List Char) : Except Fault Date := do
  let ((y,m,d),s) ← dateParts s
  if !(trimStart s).isEmpty then throw .trailing
  match Date.of? y m d with
  | some date => return date
  | none => throw .outOfRange

/-- The nanoseconds that digits after a point write, of which the first nine count. -/
def fractionNanos (digits : List Char) : Nat :=
  let counted := digits.take 9
  value counted * Nat.pow 10 (9 - counted.length)

/-- The digits after a point, if there is a point. -/
def fraction (s : List Char) : Except Fault (Nat × List Char) :=
  match s with
  | '.' :: s => do
    let (_,_) ← number (some 9) s
    return (fractionNanos (s.takeWhile isDigit),s.dropWhile isDigit)
  | s => .ok (0,s)

/-- Two digits. -/
def twoDigits (s : List Char) : Except Fault (Char × Char × List Char) :=
  match s with
  | [] => .error .early
  -- a character beyond ASCII is more than one byte and no digit either
  | [a] => if a.toNat < 128 then .error .early else .error .invalid
  | a :: b :: s => if isDigit a ∧ isDigit b then .ok (a,b,s) else .error .invalid

/-- Whether the text starts with `UTC` in any case. -/
def startsUtc : List Char → Bool
  | a :: b :: c :: _ => a.toUpper = 'U' && b.toUpper = 'T' && c.toUpper = 'C'
  | _ => false

/-- The offset from universal time in seconds. -/
def offset (s : List Char) : Except Fault (Int × List Char) :=
  if startsUtc s then .ok (0,s.drop 3)
  else do
    let signed (sign : Int) (s : List Char) : Except Fault (Int × List Char) := do
      let (a,b,s) ← twoDigits s
      let (c,d,s) ← twoDigits (s.dropWhile fun c => c = ':' || isBlank c)
      if 60 ≤ value [c,d] then throw .outOfRange
      return (sign * (value [a,b] * 3600 + value [c,d] * 60 : Nat),s)
    match s with
    | [] => throw .early
    | 'Z' :: s => return (0,s)
    | 'z' :: s => return (0,s)
    | '+' :: s => signed 1 s
    | '-' :: s => signed (-1) s
    | '\u2212' :: s => signed (-1) s
    | _ => throw .invalid

/-- What stands between date and time. -/
def dateEnd : List Char → Except Fault (List Char)
  | [] => .error .early
  | 'T' :: s => .ok s
  | 't' :: s => .ok s
  | ' ' :: s => .ok s
  | _ => .error .invalid

def Instant.read (s : List Char) : Except Fault Instant := do
  let ((y,mo,d),s) ← dateParts s
  let s ← dateEnd s
  let (h,s) ← bounded 0 23 s
  let s ← separator ':' s
  let (mi,s) ← bounded 0 59 s
  let s ← separator ':' s
  let (sec,s) ← bounded 0 60 s
  let (nano,s) ← fraction s
  let (off,s) ← offset (trimStart s)
  if !(trimStart s).isEmpty then throw .trailing
  let some date := Date.of? y mo d | throw .outOfRange
  if secondsPerDay ≤ off.natAbs then throw .outOfRange
  let second := h * 3600 + mi * 60 + min sec 59
  let leap := if sec = 60 then nanosPerSecond else 0
  match Instant.ofLocal? date second (nano + leap) off with
  | some t => return t
  | none => throw .impossible

end Intake.Calendar
