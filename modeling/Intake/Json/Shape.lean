import Intake.Json.Typed

/-!
Structures in JSON. A structure is read from an object, whose unknown members
are skipped, or from an array of its fields in their order. What is read so far
is a draft; the draft is finished when all is read.
-/
namespace Intake.Json

variable {δ α β : Type}

/-- A field of a structure, read into a draft. -/
structure Slot (δ : Type) where
  name : String
  read : Tree → δ → Except Fault δ

/-- A field that is read as a value and put into the draft. -/
def Slot.of (name : String) (read : Tree → Except Fault β) (put : β → δ → δ) : Slot δ where
  name := name
  read t d := (put · d) <$> read t

structure Shape (δ α : Type) where
  title : String
  fields : List (Slot δ)
  start : δ
  /-- The structure of a draft, or the name of the first field that it lacks. -/
  finish : δ → Except String α

namespace Shape

def slot? (s : Shape δ α) (name : String) : Option (Slot δ) := s.fields.find? (·.name = name)

/-- Reads the members of an object, with the names of the fields read before. -/
def ofMembers (s : Shape δ α) (taken : List String) (d : δ) : List (Tree × Tree) → Except Fault δ
  | [] => .ok d
  | (key,t) :: rest => do
    let name ← key.key
    match s.slot? name with
    | none =>
      t.skip
      s.ofMembers taken d rest
    | some f =>
      if name ∈ taken then throw (.duplicateField name)
      let d ← f.read t d
      s.ofMembers (name :: taken) d rest

/-- Reads the elements of an array into the fields, one each. -/
def ofElements (ending : Ending) : List (Slot δ) → δ → List Tree → Except Fault δ
  | [], d, [] => match ending with
    | .closed => .ok d
    | .comma => .error .trailingComma
    | .ended => .error .endOfList
    | _ => .error .trailingCharacters
  | [], _, _ :: _ => .error .trailingCharacters
  | _ :: _, d, [] => do ending.ofArray; return d
  | f :: fields, d, t :: rest => do
    let d ← f.read t d
    ofElements ending fields d rest

/-- The place of a field among the fields. -/
def place (s : Shape δ α) (name : String) : Nat := s.fields.findIdx (·.name = name)

def read (s : Shape δ α) : Tree → Except Fault α
  | .object members ending => do
    let d ← s.ofMembers [] s.start members
    ending.ofObject
    (s.finish d).mapError .missingField
  | .array elements ending => do
    let d ← ofElements ending s.fields s.start elements
    (s.finish d).mapError fun name => .wrongLength (s.place name) s.title s.fields.length
  | t => t.refuse (.fields s.title)

end Shape

/-- A required field of a draft. -/
def required (name : String) : Option α → Except String α
  | some a => .ok a
  | none => .error name

end Intake.Json
