import Intake.Json.Fault
import Intake.Json.Tree

/-!
What the strings and numbers of a tree stand for (`Quoted.decode`,
`Numeral.number?`), and which faults its flaws are. An escaped string decodes to
the string (`decode_ofString`).
-/
namespace Intake.Json

/-! ## Strings -/

/-- The first half of a surrogate pair. -/
def isHigh (n : Nat) : Bool := decide (0xd800 ≤ n) && decide (n ≤ 0xdbff)

/-- The second half of a surrogate pair. -/
def isLow (n : Nat) : Bool := decide (0xdc00 ≤ n) && decide (n ≤ 0xdfff)

/-- The character written as a surrogate pair. -/
def pairChar (high low : Nat) : Char := Char.ofNat (0x10000 + (high - 0xd800) * 0x400 + (low - 0xdc00))

/-- The character that a letter behind a backslash stands for. -/
def letterChar (letter : Char) : Char := (letters.lookup letter).getD letter

def StringFlaw.fault : StringFlaw → Fault
  | .ended => .endOfString
  | .endedEscape => .endOfString
  | .control => .controlCharacter
  | .badLetter => .invalidEscape
  | .badUnit => .invalidEscape

/-- What is wrong where the first half of a pair is the last piece of a string. -/
def halfPairFault : Option StringFlaw → Fault
  | some .ended => .endOfString
  | some .endedEscape => .endOfString
  | some .badUnit => .invalidEscape
  | _ => .halfPair

/-- The characters of the pieces of a string, up to its flaw. -/
def decodePieces (flaw? : Option StringFlaw) : List Piece → Except Fault (List Char)
  | [] => match flaw? with
    | none => .ok []
    | some flaw => .error flaw.fault
  | .plain c :: rest => (c :: ·) <$> decodePieces flaw? rest
  | .escaped letter :: rest => (letterChar letter :: ·) <$> decodePieces flaw? rest
  | .unit n :: rest =>
    if isLow n then .error .loneSurrogate
    else if isHigh n then
      match rest with
      | .unit m :: rest =>
        if isLow m then (pairChar n m :: ·) <$> decodePieces flaw? rest else .error .loneSurrogate
      | _ :: _ => .error .halfPair
      | [] => .error (halfPairFault flaw?)
    else (Char.ofNat n :: ·) <$> decodePieces flaw? rest

def Quoted.decode (q : Quoted) : Except Fault String := String.ofList <$> decodePieces q.flaw? q.pieces

theorem decodePieces_ofChar (c : Char) (rest : List Piece) :
    decodePieces none (Piece.ofChar c :: rest) = (c :: ·) <$> decodePieces none rest := by
  unfold Piece.ofChar
  split
  · subst c; rfl
  split
  · subst c; rfl
  split
  · subst c; rfl
  split
  · subst c; rfl
  split
  · subst c; rfl
  split
  · subst c; rfl
  split
  · subst c; rfl
  split
  · rename_i control
    have small : c.toNat < 32 := control
    have low : isLow c.toNat = false := by simp [isLow]; omega
    have high : isHigh c.toNat = false := by simp [isHigh]; omega
    conv => lhs; unfold decodePieces
    simp [low,high]
  · rfl

@[simp] theorem decode_ofString (s : String) : (Quoted.ofString s).decode = .ok s := by
  have pieces (cs : List Char) : decodePieces none (cs.map Piece.ofChar) = .ok cs := by
    induction cs with
    | nil => rfl
    | cons c rest ih => rw [List.map_cons,decodePieces_ofChar,ih]; rfl
  show String.ofList <$> decodePieces none (s.toList.map Piece.ofChar) = .ok s
  rw [pieces]
  exact congrArg Except.ok String.ofList_toList

/-! ## Numbers -/

inductive Number where
  | integer (n : Int)
  | floating (f : Float)
deriving DecidableEq, Repr

/-- The greatest significand. -/
def significandLimit : Nat := 0xffffffffffffffff

/-- Takes digits into a significand as long as it stays within its limit, and
    answers with the digits that are left. -/
def absorb (n : Nat) : List Char → Nat × List Char
  | [] => (n,[])
  | c :: rest =>
    let m := 10 * n + Decimal.digitValue c
    if m ≤ significandLimit then absorb m rest else (n,c :: rest)

def powerOfTen (n : Nat) : Float := Float.ofScientific 1 false n

/-- The floating-point number `f · 10 ^ e`, none if it is too large. A power of ten below the
    least that a floating-point number holds is divided by in steps, at most `steps` of them. -/
def scaled (f : Float) (e : Int) : (steps : Nat) → Option Float
  | 0 => some f
  | steps+1 =>
    if e.natAbs ≤ 308 then
      if 0 ≤ e then
        let g := f * powerOfTen e.natAbs
        if g.isInf then none else some g
      else some (f / powerOfTen e.natAbs)
    else if f == 0 then some f
    else if 0 ≤ e then none
    else scaled (f / powerOfTen 308) (e + 308) steps

/-- The power of ten written behind a number. -/
def Power.value (p : Power) : Int :=
  if p.sign = ['-'] then -(Decimal.value p.digits : Int) else Decimal.value p.digits

/-- The number that a numeral stands for: an integer when it has neither fraction nor power and
    fits 64 bits, otherwise a floating-point number, and none when that is too large. -/
def Numeral.number? (n : Numeral) : Option Number :=
  let (significand,left) := absorb 0 n.whole
  let signed (f : Float) : Number := .floating (if n.negative then -f else f)
  if n.fraction?.isNone ∧ n.power?.isNone ∧ left.isEmpty then
    if !n.negative then some (.integer significand)
    else if significand = 0 ∨ 0x8000000000000000 < significand then some (signed significand.toFloat)
    else some (.integer (-significand))
  else
    let digits := n.fraction?.getD []
    let (significand,unused) := absorb significand digits
    let e := (left.length : Int) - (digits.length - unused.length) + (n.power?.map Power.value).getD 0
    (scaled significand.toFloat e 4).map signed

/-! ## Flaws -/

def Flaw.fault : Flaw → Fault
  | .stray => .expectedValue
  | .ended => .endOfValue
  | .badWord _ => .expectedWord
  | .endedWord _ => .endOfValue
  | .badNumber => .invalidNumber
  | .endedNumber => .endOfValue
  | .noColon => .expectedColon
  | .endedAtColon => .endOfObject

/-- What is wrong behind the last element of an array, if anything. -/
def Ending.ofArray : Ending → Except Fault Unit
  | .closed => .ok ()
  | .comma => .error .trailingComma
  | .stray => .error .expectedCommaInList
  | .ended => .error .endOfList
  | .endedAfterComma => .error .endOfValue

/-- What is wrong behind the last member of an object, if anything. -/
def Ending.ofObject : Ending → Except Fault Unit
  | .closed => .ok ()
  | .comma => .error .trailingComma
  | .stray => .error .expectedCommaInObject
  | .ended => .error .endOfObject
  | .endedAfterComma => .error .endOfValue

/-- The string that a key is. -/
def Tree.key : Tree → Except Fault String
  | .string q => q.decode
  | _ => .error .keyNotString

@[simp] theorem key_ofString (s : String) : (Tree.ofString s).key = .ok s := decode_ofString s

end Intake.Json
