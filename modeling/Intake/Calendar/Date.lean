/-!
Days of the proleptic Gregorian calendar, from the first of January -262143 to
the last of December 262142. A `Date` is always a day of the calendar.
`Date.dayNumber` counts days from the first of January 2000.
-/
namespace Intake.Calendar

def isLeap (year : Int) : Bool :=
  decide (year % 4 = 0) && (decide (year % 100 ≠ 0) || decide (year % 400 = 0))

/-- The number of days of a month. -/
def daysIn (year : Int) (month : Nat) : Nat :=
  if month = 2 then (if isLeap year then 29 else 28)
  else if month = 4 ∨ month = 6 ∨ month = 9 ∨ month = 11 then 30
  else 31

/-- Year, month and day name a day of the calendar. -/
def IsDate (year : Int) (month day : Nat) : Prop :=
  -262143 ≤ year ∧ year ≤ 262142 ∧ 1 ≤ month ∧ month ≤ 12 ∧ 1 ≤ day ∧ day ≤ daysIn year month

instance (year : Int) (month day : Nat) : Decidable (IsDate year month day) := by
  unfold IsDate; infer_instance

@[ext] structure Date where
  year : Int
  month : Nat
  day : Nat
  isDate : IsDate year month day
deriving DecidableEq

namespace Date

/-- The day named by year, month and day, if there is one. -/
def of? (year : Int) (month day : Nat) : Option Date :=
  if h : IsDate year month day then some ⟨year,month,day,h⟩ else none

theorem of?_eq_some_iff {year : Int} {month day : Nat} {d : Date} :
    of? year month day = some d ↔ d.year = year ∧ d.month = month ∧ d.day = day := by
  unfold of?
  split
  · simp only [Option.some.injEq,Date.ext_iff]
    exact ⟨fun ⟨a,b,c⟩ => ⟨a.symm,b.symm,c.symm⟩,fun ⟨a,b,c⟩ => ⟨a.symm,b.symm,c.symm⟩⟩
  · rename_i none
    simp only [reduceCtorEq,false_iff]
    rintro ⟨rfl,rfl,rfl⟩
    exact none d.isDate

/-- The day after, unless it lies beyond the last year. -/
def next? (d : Date) : Option Date :=
  if d.day < daysIn d.year d.month then of? d.year d.month (d.day + 1)
  else if d.month < 12 then of? d.year (d.month + 1) 1
  else of? (d.year + 1) 1 1

/-- The day before, unless it lies before the first year. -/
def previous? (d : Date) : Option Date :=
  if 1 < d.day then of? d.year d.month (d.day - 1)
  else if 1 < d.month then of? d.year (d.month - 1) (daysIn d.year (d.month - 1))
  else of? (d.year - 1) 12 31

end Date

/-- The days between the first of January of year 1 and that of `year`. -/
def daysBefore (year : Int) : Int :=
  365 * (year - 1) + (year - 1) / 4 - (year - 1) / 100 + (year - 1) / 400

/-- The days of a year before a month. -/
def daysBeforeMonth (year : Int) (month : Nat) : Nat :=
  (List.range (month - 1)).foldl (fun days m => days + daysIn year (m + 1)) 0

/-- The number of days from the first of January 2000. -/
def Date.dayNumber (d : Date) : Int :=
  daysBefore d.year + daysBeforeMonth d.year d.month + (d.day - 1) - daysBefore 2000

end Intake.Calendar
