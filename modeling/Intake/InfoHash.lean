import Intake.Text.Blank
import Intake.Text.Hex

/-!
Info hashes: the fingerprints of twenty bytes by which items are told apart. A
hash is written as forty digits in lower case and read in either case, with blanks
around it.
-/
namespace Intake

@[ext] structure InfoHash where
  bytes : List UInt8
  length_bytes : bytes.length = 20
deriving DecidableEq

/-- Why something is no info hash. -/
inductive InfoHash.Fault where
  /-- A text that is not forty hexadecimal digits. -/
  | malformed (text : String)
  /-- So many bytes. -/
  | wrongLength (bytes : Nat)
deriving DecidableEq, Repr

def InfoHash.Fault.message : InfoHash.Fault → String
  | .malformed text => text
  | .wrongLength bytes => s!"expected 20 bytes, got {bytes}"

namespace InfoHash

def ofBytes (bytes : List UInt8) : Except Fault InfoHash :=
  if h : bytes.length = 20 then .ok ⟨bytes,h⟩ else .error (.wrongLength bytes.length)

def text (h : InfoHash) : List Char := Text.Hex.encode h.bytes

def hex (h : InfoHash) : String := String.ofList h.text

def parse? (s : List Char) : Option InfoHash :=
  match Text.Hex.decode? (Text.trim s) with
  | some bytes => if h : bytes.length = 20 then some ⟨bytes,h⟩ else none
  | none => none

def parse (s : String) : Except Fault InfoHash :=
  match parse? s.toList with
  | some h => .ok h
  | none => .error (.malformed s)

/-- The hash as a message shows it. -/
def shown (h : InfoHash) : String := "InfoHash(" ++ h.hex ++ ")"

/-- The order of the bytes. -/
def le (a b : InfoHash) : Bool := decide (a.bytes ≤ b.bytes)

def sort (hashes : List InfoHash) : List InfoHash := hashes.mergeSort le

@[simp] theorem length_text (h : InfoHash) : h.text.length = 40 := by
  rw [text,Text.Hex.length_encode,h.length_bytes]

end InfoHash

end Intake
