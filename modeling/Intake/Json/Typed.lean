import Intake.Json.Check
import Intake.Json.Reader

/-!
Values of the basic kinds taken out of trees. A tree of another kind is refused
with what it holds and what is expected (`Tree.refuse`).
-/
namespace Intake.Json

variable {α κ : Type}

/-- The fault of a value of another kind than the expected one. -/
def Tree.refusal (expected : Expected) : Tree → Fault
  | .null => .wrongType .null expected
  | .bool b => .wrongType (.bool b) expected
  | .number n => match n.number? with
    | some (.integer i) => .wrongType (.integer i) expected
    | some (.floating f) => .wrongType (.floating f) expected
    | none => .numberOutOfRange
  | .string q => match q.decode with
    | .ok s => .wrongType (.string s) expected
    | .error fault => fault
  | .array _ _ => .wrongType .sequence expected
  | .object _ _ => .wrongType .map expected
  | .flawed f => f.fault

def Tree.refuse (expected : Expected) (t : Tree) : Except Fault α := .error (t.refusal expected)

def Tree.asString : Tree → Except Fault String
  | .string q => q.decode
  | t => t.refuse .string

/-- A string in some format. -/
def Tree.asFormatted (what : String) (read : String → Except Fault α) : Tree → Except Fault α
  | .string q => do read (← q.decode)
  | t => t.refuse (.formatted what)

def Tree.asBool : Tree → Except Fault Bool
  | .bool b => .ok b
  | t => t.refuse .boolean

def Tree.asUnit : Tree → Except Fault Unit
  | .null => .ok ()
  | t => t.refuse .unit

/-! ## Numbers -/

def Number.asUnsigned (bits : Nat) : Number → Except Fault Nat
  | .integer n =>
    if 0 ≤ n ∧ n.toNat < Nat.pow 2 bits then .ok n.toNat else .error (.outOfRange n (.unsigned bits))
  | .floating f => .error (.wrongType (.floating f) (.unsigned bits))

def Numeral.asUnsigned (bits : Nat) (n : Numeral) : Except Fault Nat :=
  match n.number? with
  | some m => m.asUnsigned bits
  | none => .error .numberOutOfRange

/-- A natural number of so many bits. -/
def Tree.asUnsigned (bits : Nat) : Tree → Except Fault Nat
  | .number n => n.asUnsigned bits
  | t => t.refuse (.unsigned bits)

/-- The characters of a string up to its first escape. -/
def plainRun : List Piece → List Char
  | .plain c :: rest => c :: plainRun rest
  | _ => []

/-- The number that a string starts with, and what is left of the characters before an escape. -/
def Quoted.numeral (q : Quoted) : Except Fault (Numeral × List Char) :=
  let run := plainRun q.pieces
  -- only in a text that breaks off here is the end of the run the end of the text
  let fault : Flaw → Fault
    | .endedNumber => if q.flaw? = some .ended ∧ run.length = q.pieces.length then .endOfValue else .invalidNumber
    | f => f.fault
  match run with
  | '-' :: s => (Numeral.read true s).mapError fault
  | c :: s => if Decimal.isDigit c then (Numeral.read false (c :: s)).mapError fault else .error .keyNotNumber
  | [] => .error .keyNotNumber

/-- A key that is a natural number between quotes. -/
def Tree.numericKey (bits : Nat) : Tree → Except Fault Nat
  | .string q => do
    let (numeral,rest) ← q.numeral
    let n ← numeral.asUnsigned bits
    if rest.isEmpty ∧ (plainRun q.pieces).length = q.pieces.length ∧ q.flaw?.isNone then return n
    throw .expectedQuote
  | _ => .error .keyNotString

/-! ## Null, lists and maps -/

/-- Null, or a value. -/
def Tree.asOption (read : Tree → Except Fault α) : Tree → Except Fault (Option α)
  | .null => .ok none
  | .flawed (.badWord 'n') => .error .expectedWord
  | .flawed (.endedWord 'n') => .error .endOfValue
  | t => some <$> read t

def asElements (read : Tree → Except Fault α) : List Tree → Except Fault (List α)
  | [] => .ok []
  | t :: rest => do
    let a ← read t
    let tail ← asElements read rest
    return a :: tail

def Tree.asList (read : Tree → Except Fault α) : Tree → Except Fault (List α)
  | .array elements ending => do
    let list ← asElements read elements
    ending.ofArray
    return list
  | t => t.refuse .sequence

def asEntries (key : Tree → Except Fault κ) (read : Tree → Except Fault α) :
    List (Tree × Tree) → Except Fault (List (κ × α))
  | [] => .ok []
  | (k,t) :: rest => do
    let k ← key k
    let a ← read t
    let tail ← asEntries key read rest
    return (k,a) :: tail

/-- The members of an object in the order of the text. -/
def Tree.asMap (key : Tree → Except Fault κ) (read : Tree → Except Fault α) :
    Tree → Except Fault (List (κ × α))
  | .object members ending => do
    let entries ← asEntries key read members
    ending.ofObject
    return entries
  | t => t.refuse .map

/-! ## Variants -/

/-- The value of the given name. -/
def variant (known : List (String × α)) (name : String) : Except Fault α :=
  match known.lookup name with
  | some a => .ok a
  | none => .error (.unknownVariant name (known.map (·.1)))

/-- A value given by its name, or by an object that has the name as its only key, with null. -/
def Tree.asVariant (known : List (String × α)) : Tree → Except Fault α
  | .string q => do variant known (← q.decode)
  | .object ((key,t) :: rest) ending => do
    let name ← key.key
    let a ← variant known name
    t.asUnit
    match rest, ending with
    | [], .closed => return a
    | [], .ended => throw .endOfObject
    | _, _ => throw .expectedValue
  | .object [] .ended => .error .endOfValue
  | .flawed .ended => .error .endOfValue
  | .flawed .noColon => .error .expectedColon
  | .flawed .endedAtColon => .error .endOfObject
  | _ => .error .expectedValue

/-! ## Whole texts -/

/-- A value and nothing after it. -/
def Document.as (read : Tree → Except Fault α) (d : Document) : Except Fault α := do
  let a ← read d.tree
  if d.complete then return a else throw .trailingCharacters

def readText (read : Tree → Except Fault α) (s : String) : Except Fault α :=
  (Document.read s.toList).as read

end Intake.Json
