import Intake.Calendar.Date

/-!
Moments in universal time to the nanosecond. A leap second is a moment of its
own: its nanoseconds run on from the second before it, from 1000000000 up. They
may run on from any second, although no clock shows a leap second but after the
last second of a minute. `Instant.ofLocal?` takes a clock reading with its offset
from universal time.
-/
namespace Intake.Calendar

def secondsPerDay : Nat := 86400

def nanosPerSecond : Nat := 1000000000

/-- A second of the day and the nanoseconds since its start name a time of day. -/
def IsTime (second nano : Nat) : Prop := second < secondsPerDay ∧ nano < 2 * nanosPerSecond

instance (second nano : Nat) : Decidable (IsTime second nano) := by
  unfold IsTime; infer_instance

@[ext] structure Instant where
  date : Date
  /-- The second of the day. -/
  second : Nat
  /-- The nanoseconds since the start of the second. -/
  nano : Nat
  isTime : IsTime second nano
deriving DecidableEq

namespace Instant

def of? (date : Date) (second nano : Nat) : Option Instant :=
  if h : IsTime second nano then some ⟨date,second,nano,h⟩ else none

/-- The moment at which a clock `offset` seconds ahead of universal time shows the date and
    the second of the day. None if it lies outside the calendar. -/
def ofLocal? (date : Date) (second nano : Nat) (offset : Int) : Option Instant :=
  let s : Int := second - offset
  if s < 0 then do of? (← date.previous?) (s + secondsPerDay).toNat nano
  else if s < secondsPerDay then of? date s.toNat nano
  else do of? (← date.next?) (s - secondsPerDay).toNat nano

/-- Microseconds since the start of the year 2000, toward zero. The nanoseconds of a leap second
    count on into the next. -/
def microseconds (t : Instant) : Int :=
  ((t.date.dayNumber * secondsPerDay + t.second) * nanosPerSecond + t.nano).tdiv 1000

end Instant

end Intake.Calendar
