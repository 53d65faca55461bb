import Intake.Calendar.Instant
import Intake.Decimal.Natural

/-!
Dates and moments as texts: `2024-01-02` and `2024-01-02T03:04:05.678Z`. A year
outside 0 to 9999 has a sign. Of the digits after the second as many are written
as hold the value: none, three, six or nine.
-/
namespace Intake.Calendar

open Decimal (padded)

def yearText (year : Int) : List Char :=
  if 0 ≤ year ∧ year ≤ 9999 then padded 4 year.toNat
  else (if year < 0 then '-' else '+') :: padded 4 year.natAbs

def Date.text (d : Date) : List Char :=
  yearText d.year ++ '-' :: padded 2 d.month ++ '-' :: padded 2 d.day

/-- The digits of a part of a second, with the point before them. -/
def fractionText (nano : Nat) : List Char :=
  if nano = 0 then []
  else if nano % 1000000 = 0 then '.' :: padded 3 (nano / 1000000)
  else if nano % 1000 = 0 then '.' :: padded 6 (nano / 1000)
  else '.' :: padded 9 nano

/-- The second of the minute, one more if the nanoseconds run on beyond it: 60 is a leap second. -/
def Instant.secondOfMinute (t : Instant) : Nat := t.second % 60 + t.nano / nanosPerSecond

def Instant.text (t : Instant) : List Char :=
  t.date.text ++ 'T' :: padded 2 (t.second / 3600) ++ ':' :: padded 2 (t.second / 60 % 60) ++
    ':' :: padded 2 t.secondOfMinute ++ fractionText (t.nano % nanosPerSecond) ++ ['Z']

end Intake.Calendar
