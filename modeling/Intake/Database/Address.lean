import Intake.Failure

/-!
Addresses of databases: a scheme with its colon, and behind two slashes a user, a
host and a number. An address is looked at before anything is sent to it: it has a
scheme, a host wherever it has a user or a number, and a number of 16 bits.
-/
namespace Intake.Database

/-- Why a text is no address. -/
inductive AddressFault where
  | noScheme
  /-- A user or a number stands without a host. -/
  | noHost
  /-- What follows the host and its colon is no number of 16 bits. -/
  | badNumber
deriving DecidableEq, Repr

def AddressFault.message : AddressFault → String
  | .noScheme => "relative URL without a base"
  | .noHost => "empty host"
  | .badNumber => "invalid port number"

/-- The text without the blanks before it and the breaks within it. -/
def cleaned (s : List Char) : List Char := (s.dropWhile (· ≤ ' ')).filter (· ∉ ['\t','\n','\r'])

def isSchemeChar (c : Char) : Bool := c.isAlphanum || c = '+' || c = '-' || c = '.'

/-- What follows the scheme and its colon. -/
def behindScheme? : List Char → Option (List Char)
  | [] => none
  | c :: s =>
    if c.isAlpha then
      match s.dropWhile isSchemeChar with
      | ':' :: s => some s
      | _ => none
    else none

/-- A character at which user, host and number end. -/
def endsAuthority (c : Char) : Bool := c = '/' || c = '?' || c = '#'

/-- The host and what follows it. A colon between brackets belongs to the host. -/
def cutHost (bracketed : Bool) : List Char → List Char × List Char
  | [] => ([],[])
  | c :: s =>
    if c = ':' ∧ ¬ bracketed then ([],c :: s)
    else
      let (host,rest) := cutHost (if c = '[' then true else if c = ']' then false else bracketed) s
      (c :: host,rest)

/-- What is wrong with host and number, if anything. -/
def hostFault? (s : List Char) : Option AddressFault :=
  match cutHost false s with
  | (_,[]) => none
  | ([],_ :: _) => some .noHost
  | (_,_ :: digits) => if digits.all Decimal.isDigit ∧ Decimal.value digits < 0x10000 then none else some .badNumber

/-- What is wrong with an address, if anything. -/
def addressFault? (address : String) : Option AddressFault :=
  match behindScheme? (cleaned address.toList) with
  | none => some .noScheme
  | some ('/' :: '/' :: s) =>
    let authority := s.takeWhile (!endsAuthority ·)
    let host := (authority.reverse.takeWhile (· ≠ '@')).reverse
    if '@' ∈ authority ∧ host.isEmpty ∧ authority.length < s.length then some .noHost else hostFault? host
  | some _ => none

end Intake.Database
