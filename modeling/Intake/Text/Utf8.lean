import Intake.Decimal.Natural

/-!
Text in UTF-8. `decode` reads bytes as characters in their shortest form, no
surrogates among them, and says where the first sequence that is none starts and
how long it is. Decoding what a string is stored as gives its characters.
-/
namespace Intake.Text.Utf8

/-- Where bytes are no text. -/
structure Fault where
  /-- The number of bytes before the faulty sequence. -/
  start : Nat
  /-- Its length, or none when the bytes end within a character. -/
  length? : Option Nat
deriving DecidableEq, Repr

def Fault.message (f : Fault) : String :=
  match f.length? with
  | some n => s!"invalid utf-8 sequence of {n} bytes from index {f.start}"
  | none => s!"incomplete utf-8 byte sequence from index {f.start}"

/-- A byte within a character. -/
def isTail (b : UInt8) : Bool := decide (0x80 ≤ b) && decide (b ≤ 0xbf)

/-- The bytes that may follow the first byte of a character of three bytes. -/
def secondOfThree (a b : UInt8) : Bool :=
  if a = 0xe0 then decide (0xa0 ≤ b) && decide (b ≤ 0xbf)
  else if a = 0xed then decide (0x80 ≤ b) && decide (b ≤ 0x9f)
  else isTail b

/-- The bytes that may follow the first byte of a character of four bytes. -/
def secondOfFour (a b : UInt8) : Bool :=
  if a = 0xf0 then decide (0x90 ≤ b) && decide (b ≤ 0xbf)
  else if a = 0xf4 then decide (0x80 ≤ b) && decide (b ≤ 0x8f)
  else isTail b

/-- The low bits of a byte. -/
def low (bits : Nat) (b : UInt8) : Nat := b.toNat % Nat.pow 2 bits

/-- The characters of bytes that start `start` bytes into a text. -/
def decodeFrom (start : Nat) : List UInt8 → Except Fault (List Char)
  | [] => .ok []
  | a :: s =>
    if a < 0x80 then (Char.ofNat a.toNat :: ·) <$> decodeFrom (start + 1) s
    else if 0xc2 ≤ a ∧ a ≤ 0xdf then
      match s with
      | [] => .error ⟨start,none⟩
      | b :: s =>
        if isTail b then (Char.ofNat (low 5 a * 64 + low 6 b) :: ·) <$> decodeFrom (start + 2) s
        else .error ⟨start,some 1⟩
    else if 0xe0 ≤ a ∧ a ≤ 0xef then
      match s with
      | [] => .error ⟨start,none⟩
      | b :: s =>
        if !secondOfThree a b then .error ⟨start,some 1⟩
        else match s with
          | [] => .error ⟨start,none⟩
          | c :: s =>
            if isTail c then
              (Char.ofNat ((low 4 a * 64 + low 6 b) * 64 + low 6 c) :: ·) <$> decodeFrom (start + 3) s
            else .error ⟨start,some 2⟩
    else if 0xf0 ≤ a ∧ a ≤ 0xf4 then
      match s with
      | [] => .error ⟨start,none⟩
      | b :: s =>
        if !secondOfFour a b then .error ⟨start,some 1⟩
        else match s with
          | [] => .error ⟨start,none⟩
          | c :: s =>
            if !isTail c then .error ⟨start,some 2⟩
            else match s with
              | [] => .error ⟨start,none⟩
              | d :: s =>
                if isTail d then
                  (Char.ofNat (((low 3 a * 64 + low 6 b) * 64 + low 6 c) * 64 + low 6 d) :: ·) <$>
                    decodeFrom (start + 4) s
                else .error ⟨start,some 3⟩
    else .error ⟨start,some 1⟩

def decode (bytes : List UInt8) : Except Fault (List Char) := decodeFrom 0 bytes

/-- A string as the bytes that it is stored as. -/
def encode (s : String) : List UInt8 := s.toUTF8.data.toList

end Intake.Text.Utf8
