import Intake.Decimal.Natural

/-!
The shortest decimal that reads back as a given binary floating-point number.
`nearest` works on the exact value `m · 2 ^ q`: it takes the coarsest decimal
grid with a point that rounds to the number and the nearest such point of it.
`Layout` says how digits and exponent are laid out as a text.
-/
namespace Intake.Decimal

/-- A finite positive floating-point number `m · 2 ^ q`. -/
structure Binary where
  significand : Nat
  exponent : Int
deriving DecidableEq, Repr

/-- The number with the given bits, its sign dropped; zero for bits that are no finite number. -/
def Binary.ofBits (bits : Nat) : Binary :=
  let fraction : Nat := bits % 0x10000000000000
  let scale : Nat := bits / 0x10000000000000 % 0x800
  if scale = 0 then ⟨fraction,-1074⟩
  else if scale = 2047 then ⟨0,0⟩
  else ⟨0x10000000000000 + fraction,(scale : Int) - 1075⟩

/-- The value `k · 10 ^ e`. -/
structure Point where
  digits : Nat
  exponent : Int
deriving DecidableEq, Repr

/-- Four times the number and the ends of the interval of reals that round to it,
    as numerators over one denominator, and whether the ends belong to it. -/
structure Interval where
  low : Nat
  middle : Nat
  high : Nat
  denominator : Nat
  closed : Bool

def Binary.interval (b : Binary) : Interval :=
  let up := Nat.pow 2 b.exponent.toNat
  -- below a power of two the numbers lie half as far apart
  let below := if b.significand = 0x10000000000000 ∧ -1074 < b.exponent then 1 else 2
  { low := (4 * b.significand - below) * up
    middle := 4 * b.significand * up
    high := (4 * b.significand + 2) * up
    denominator := 4 * Nat.pow 2 (-b.exponent).toNat
    closed := b.significand % 2 = 0 }

/-- Whether `k · 10 ^ e` lies in the interval. -/
def Interval.contains (i : Interval) (d : Point) : Bool :=
  let point := d.digits * Nat.pow 10 d.exponent.toNat * i.denominator
  let scale := Nat.pow 10 (-d.exponent).toNat
  if i.closed then decide (i.low * scale ≤ point) && decide (point ≤ i.high * scale)
  else decide (i.low * scale < point) && decide (point < i.high * scale)

/-- The grid of step `10 ^ e` has a point next to the number in the interval: the nearer one,
    of two equally near the even one. -/
def Interval.onGrid (i : Interval) (e : Int) : Option Point :=
  let numerator := i.middle * Nat.pow 10 (-e).toNat
  let unit := i.denominator * Nat.pow 10 e.toNat
  let k := numerator / unit
  let down : Point := ⟨k,e⟩
  let up : Point := ⟨k + 1,e⟩
  let rest := 2 * (numerator % unit)
  let downFits := decide (0 < k) && i.contains down
  let upFits := i.contains up
  if downFits && upFits then
    some (if rest < unit ∨ (rest = unit ∧ k % 2 = 0) then down else up)
  else if downFits then some down
  else if upFits then some up
  else none

/-- The first grid that fits, from step `10 ^ e` on to finer ones. -/
def Interval.search (i : Interval) : Nat → Int → Option Point
  | 0, _ => none
  | n+1, e => (i.onGrid e).or (i.search n (e - 1))

/-- The shortest decimal that rounds to a positive number. -/
def Binary.shortest (b : Binary) : Option Point :=
  let i := b.interval
  let size (n : Nat) : Int := (text n).length
  i.search 24 (size i.middle - size i.denominator + 1)

/-- How a shortest decimal is laid out. -/
structure Layout where
  /-- The least position of the point, seen from the first digit, that is written without exponent. -/
  least : Int
  /-- The greatest such position. -/
  most : Int
  /-- What stands before a nonnegative exponent. -/
  plus : List Char

/-- Digits with a point after the first `n`. -/
def pointed (digits : List Char) (n : Nat) : List Char := digits.take n ++ '.' :: digits.drop n

def Layout.text (l : Layout) (d : Point) : List Char :=
  let digits := Decimal.text d.digits
  let point := (digits.length : Int) + d.exponent
  if l.least ≤ point ∧ point ≤ l.most then
    if 0 ≤ d.exponent then digits ++ List.replicate d.exponent.toNat '0' ++ ['.','0']
    else if 0 < point then pointed digits point.toNat
    else ['0','.'] ++ List.replicate (-point).toNat '0' ++ digits
  else
    let mantissa := if digits.length = 1 then digits else pointed digits 1
    let power := point - 1
    mantissa ++ 'e' :: (if power < 0 then [] else l.plus) ++ intText power

/-- A floating-point number with its sign; a whole number keeps a zero behind the point. -/
def Layout.floatText (l : Layout) (f : Float) : String :=
  let bits := f.toBits.toNat
  let sign := if bits / 0x8000000000000000 = 1 then ['-'] else []
  let number := Binary.ofBits bits
  let size :=
    if number.significand = 0 then ['0','.','0'] else ((number.shortest).map l.text).getD []
  String.ofList (sign ++ size)

end Intake.Decimal
