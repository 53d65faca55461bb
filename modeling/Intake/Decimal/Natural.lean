/-!
Natural numbers in decimal. `text` writes without leading zeros; `value` takes
a run of digits; `read?` takes the form in which settings are given: digits
behind an optional plus sign, up to a limit.
-/
namespace Intake.Decimal

/-- An ASCII digit. -/
def isDigit (c : Char) : Bool := decide ('0' ≤ c) && decide (c ≤ '9')

def digitValue (c : Char) : Nat := c.toNat - '0'.toNat

/-- The digit of a value below ten. -/
def digit (n : Nat) : Char := Char.ofNat ('0'.toNat + n)

def text (n : Nat) : List Char :=
  if n < 10 then [digit n] else text (n / 10) ++ [digit (n % 10)]

/-- The number that a run of digits writes. -/
def value (digits : List Char) : Nat := digits.foldl (fun n c => 10 * n + digitValue c) 0

/-- The number of a nonempty run of digits with nothing else, an optional plus
    sign before it, when it is at most `limit`. -/
def read? (limit : Nat) (s : List Char) : Option Nat :=
  let digits := match s with
    | '+' :: rest => rest
    | _ => s
  if digits.isEmpty || !digits.all isDigit || decide (limit < value digits) then none
  else some (value digits)

/-- A number with its sign. -/
def intText (n : Int) : List Char := if n < 0 then '-' :: text n.natAbs else text n.natAbs

/-- The text filled up with zeros on the left. -/
def padded (width n : Nat) : List Char :=
  List.replicate (width - (text n).length) '0' ++ text n

end Intake.Decimal
