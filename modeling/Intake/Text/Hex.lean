/-!
Bytes written in hexadecimal: two digits a byte, high half first, in lower
case. Reading takes either case and refuses every other text.
-/
namespace Intake.Text.Hex

/-- The value of a digit in either case. -/
def digit? (c : Char) : Option Nat :=
  if '0' ≤ c ∧ c ≤ '9' then some (c.toNat - '0'.toNat)
  else if 'a' ≤ c ∧ c ≤ 'f' then some (c.toNat - 'a'.toNat + 10)
  else if 'A' ≤ c ∧ c ≤ 'F' then some (c.toNat - 'A'.toNat + 10)
  else none

/-- The digit of a value below sixteen. -/
def digit (n : Nat) : Char :=
  if n < 10 then Char.ofNat ('0'.toNat + n) else Char.ofNat ('a'.toNat + (n - 10))

def byteText (b : UInt8) : List Char := [digit (b.toNat / 16),digit (b.toNat % 16)]

def encode (bytes : List UInt8) : List Char := bytes.flatMap byteText

def decode? : List Char → Option (List UInt8)
  | [] => some []
  | [_] => none
  | high :: low :: rest => do
    let h ← digit? high
    let l ← digit? low
    let bytes ← decode? rest
    return UInt8.ofNat (16 * h + l) :: bytes

@[simp] theorem length_encode (bytes : List UInt8) : (encode bytes).length = 2 * bytes.length := by
  induction bytes with
  | nil => rfl
  | cons b rest ih => simp only [encode,List.flatMap_cons,List.length_append] at ih ⊢; simp [byteText,ih]; omega

/-- A decoded text has two digits a byte. -/
theorem length_of_decode? {s : List Char} {bytes : List UInt8} (h : decode? s = some bytes) :
    s.length = 2 * bytes.length := by
  fun_induction decode? s generalizing bytes with
  | case1 => simp_all
  | case2 => simp at h
  | case3 high low rest ih =>
    simp only [Option.bind_eq_bind,Option.bind_eq_some_iff] at h
    obtain ⟨h₁,_,l,_,tail,ht,hb⟩ := h
    obtain rfl : UInt8.ofNat (16 * h₁ + l) :: tail = bytes := by simpa using hb
    simp [ih ht]; omega

end Intake.Text.Hex
