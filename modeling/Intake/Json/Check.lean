import Intake.Json.Meaning

/-!
Trees that hold a value of no particular kind. `Tree.skip` passes over a value
that nobody reads, at any depth: its strings need well-formed escapes only and its
numbers may be too large. `Tree.check` looks at a value as closely as if it were read.
-/
namespace Intake.Json

/-! ## Values that nobody reads -/

def Flaw.skipFault : Flaw → Fault
  | .endedNumber => .invalidNumber
  | f => f.fault

def Ending.skipArray : Ending → Except Fault Unit
  | .comma => .error .expectedValue
  | e => e.ofArray

def Ending.skipObject : Ending → Except Fault Unit
  | .comma => .error .keyNotString
  | .endedAfterComma => .error .endOfObject
  | e => e.ofObject

def Quoted.skip (q : Quoted) : Except Fault Unit :=
  match q.flaw? with
  | none => .ok ()
  | some flaw => .error flaw.fault

def Tree.skipKey : Tree → Except Fault Unit
  | .string q => q.skip
  | _ => .error .keyNotString

mutual
def Tree.skip : Tree → Except Fault Unit
  | .null => .ok ()
  | .bool _ => .ok ()
  | .number _ => .ok ()
  | .string q => q.skip
  | .array elements ending => do skipElements elements; ending.skipArray
  | .object members ending => do skipMembers members; ending.skipObject
  | .flawed f => .error f.skipFault

def skipElements : List Tree → Except Fault Unit
  | [] => .ok ()
  | t :: rest => do t.skip; skipElements rest

def skipMembers : List (Tree × Tree) → Except Fault Unit
  | [] => .ok ()
  | (key,t) :: rest => do key.skipKey; t.skip; skipMembers rest
end

/-! ## Values of any kind -/

mutual
/-- Whether the tree is a value with less than `depth` arrays and objects around each other. -/
def Tree.check (depth : Nat) : Tree → Except Fault Unit
  | .null => .ok ()
  | .bool _ => .ok ()
  | .number n => if n.number?.isSome then .ok () else .error .numberOutOfRange
  | .string q => do let _ ← q.decode
  | .array elements ending => do
    if depth ≤ 1 then throw .tooDeep
    checkElements (depth - 1) elements
    ending.ofArray
  | .object members ending => do
    if depth ≤ 1 then throw .tooDeep
    checkMembers (depth - 1) members
    ending.ofObject
  | .flawed f => .error f.fault

def checkElements (depth : Nat) : List Tree → Except Fault Unit
  | [] => .ok ()
  | t :: rest => do t.check depth; checkElements depth rest

def checkMembers (depth : Nat) : List (Tree × Tree) → Except Fault Unit
  | [] => .ok ()
  | (key,t) :: rest => do
    let _ ← key.key
    t.check depth
    checkMembers depth rest
end

end Intake.Json
