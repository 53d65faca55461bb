import Intake.Calendar.Instant
import Mathlib.Order.Monotone.Basic

/-!
Dates found again by their day numbers, and instants by their microseconds. Years and
months follow one another without a gap (`daysBefore_succ`, `daysBeforeMonth_succ`), so
that one year and one month hold a day (`ofDayNumber?_dayNumber`). An instant is found
again if it is no leap second and its nanoseconds are whole microseconds
(`ofMicroseconds?_microseconds_iff`).
-/
namespace Intake.Calendar

/-! ### Years -/

def daysInYear (year : Int) : Nat := if isLeap year then 366 else 365

theorem daysBefore_succ (year : Int) : daysBefore (year + 1) = daysBefore year + daysInYear year := by
  by_cases four : year % 4 = 0 <;> by_cases hundred : year % 100 = 0 <;> by_cases all : year % 400 = 0 <;>
    simp [daysInYear,isLeap,daysBefore,four,hundred,all] <;> omega

theorem daysBefore_lt_iff {year year' : Int} : daysBefore year < daysBefore year' ↔ year < year' := by
  have strict : StrictMono daysBefore := by
    refine strictMono_int_of_lt_succ fun year => ?_
    have long : 365 ≤ daysInYear year := by unfold daysInYear; split <;> decide
    rw [daysBefore_succ]
    omega
  exact strict.lt_iff_lt

/-- No two years hold one day. -/
theorem year_unique {n year year' : Int} (first : daysBefore year ≤ n) (last : n < daysBefore (year + 1))
    (first' : daysBefore year' ≤ n) (last' : n < daysBefore (year' + 1)) : year = year' := by
  have le : year < year' + 1 := daysBefore_lt_iff.mp (Int.lt_of_le_of_lt first last')
  have ge : year' < year + 1 := daysBefore_lt_iff.mp (Int.lt_of_le_of_lt first' last)
  omega

/-- The year that holds a day, or one of its neighbours. -/
def nearYear (n : Int) : Int := n * 400 / 146097 + 1

theorem nearYear_near {n year : Int} (first : daysBefore year ≤ n) (last : n < daysBefore (year + 1)) :
    nearYear n - 1 ≤ year ∧ year ≤ nearYear n + 1 := by
  unfold daysBefore at first last
  unfold nearYear
  omega

/-! ### Months -/

theorem daysBeforeMonth_succ (year : Int) {month : Nat} (first : 1 ≤ month) :
    daysBeforeMonth year (month + 1) = daysBeforeMonth year month + daysIn year month := by
  obtain ⟨m,rfl⟩ := Nat.exists_eq_add_of_le' first
  simp [daysBeforeMonth,List.range_succ]

theorem daysBeforeMonth_lt_iff (year : Int) {month month' : Nat} (first : 1 ≤ month) (first' : 1 ≤ month') :
    daysBeforeMonth year month < daysBeforeMonth year month' ↔ month < month' := by
  have strict : StrictMono fun m => daysBeforeMonth year (m + 1) := by
    refine strictMono_nat_of_lt_succ fun m => ?_
    have long : 0 < daysIn year (m + 1) := by unfold daysIn; split_ifs <;> decide
    rw [daysBeforeMonth_succ year (Nat.le_add_left 1 m)]
    omega
  obtain ⟨m,rfl⟩ := Nat.exists_eq_add_of_le' first
  obtain ⟨m',rfl⟩ := Nat.exists_eq_add_of_le' first'
  simpa using strict.lt_iff_lt

/-- The twelve months make up the year. -/
theorem daysBeforeMonth_thirteen (year : Int) : daysBeforeMonth year 13 = daysInYear year := by
  cases leap : isLeap year <;> simp [daysBeforeMonth,List.range_succ,daysIn,daysInYear,leap]

/-! ### Dates by their numbers -/

/-- The year that holds a day, counted from the first of January of year 1. -/
def yearOf? (n : Int) : Option Int :=
  [nearYear n - 1,nearYear n,nearYear n + 1].find? fun year => daysBefore year ≤ n ∧ n < daysBefore (year + 1)

/-- The month that holds a day of a year, counted from the first of January. -/
def monthOf? (year : Int) (n : Nat) : Option Nat :=
  (List.range' 1 12).find? fun month => daysBeforeMonth year month ≤ n ∧ n < daysBeforeMonth year (month + 1)

/-- The date of a day, counted from the first of January 2000. -/
def Date.ofDayNumber? (days : Int) : Option Date := do
  let n := days + daysBefore 2000
  let year ← yearOf? n
  let day := (n - daysBefore year).toNat
  let month ← monthOf? year day
  Date.of? year month (day - daysBeforeMonth year month + 1)

theorem find?_of_unique {α : Type} {p : α → Bool} {l : List α} {a : α} (member : a ∈ l) (holds : p a = true)
    (unique : ∀ b ∈ l, p b = true → b = a) : l.find? p = some a := by
  cases found : l.find? p with
  | none => exact absurd holds (List.find?_eq_none.mp found a member)
  | some b => rw [unique b (List.mem_of_find?_eq_some found) (List.find?_some found)]

theorem yearOf?_eq {n year : Int} (first : daysBefore year ≤ n) (last : n < daysBefore (year + 1)) :
    yearOf? n = some year := by
  obtain ⟨low,high⟩ := nearYear_near first last
  refine find?_of_unique ?_ (by simp [first,last]) fun other _ holds => ?_
  · simp only [List.mem_cons,List.not_mem_nil,or_false]
    omega
  · obtain ⟨first',last'⟩ : daysBefore other ≤ n ∧ n < daysBefore (other + 1) := by simpa using holds
    exact year_unique first' last' first last

theorem monthOf?_eq {year : Int} {month n : Nat} (low : 1 ≤ month) (high : month ≤ 12)
    (first : daysBeforeMonth year month ≤ n) (last : n < daysBeforeMonth year (month + 1)) :
    monthOf? year n = some month := by
  refine find?_of_unique (List.mem_range'_1.mpr ⟨low,by omega⟩) (by simp [first,last]) fun other inside holds => ?_
  obtain ⟨first',last'⟩ : daysBeforeMonth year other ≤ n ∧ n < daysBeforeMonth year (other + 1) := by simpa using holds
  have low' : 1 ≤ other := (List.mem_range'_1.mp inside).1
  have le := (daysBeforeMonth_lt_iff year low (by omega)).mp (Nat.lt_of_le_of_lt first last')
  have ge := (daysBeforeMonth_lt_iff year low' (by omega)).mp (Nat.lt_of_le_of_lt first' last)
  omega

theorem ofDayNumber?_dayNumber (d : Date) : Date.ofDayNumber? d.dayNumber = some d := by
  obtain ⟨-,-,low,high,one,last⟩ := d.isDate
  have month := daysBeforeMonth_succ d.year low
  have year : daysBeforeMonth d.year (d.month + 1) ≤ daysInYear d.year := by
    have whole := (daysBeforeMonth_lt_iff d.year (by decide : 1 ≤ 13) (Nat.le_add_left 1 d.month)).not
    rw [daysBeforeMonth_thirteen] at whole
    exact Nat.not_lt.mp (whole.mpr (by omega))
  have next := daysBefore_succ d.year
  have number : d.dayNumber + daysBefore 2000 =
      daysBefore d.year + (daysBeforeMonth d.year d.month + (d.day - 1) : Nat) := by
    unfold Date.dayNumber
    omega
  have inYear : yearOf? (d.dayNumber + daysBefore 2000) = some d.year := yearOf?_eq (by omega) (by omega)
  have day : (d.dayNumber + daysBefore 2000 - daysBefore d.year).toNat =
      daysBeforeMonth d.year d.month + (d.day - 1) := by omega
  have inMonth : monthOf? d.year (daysBeforeMonth d.year d.month + (d.day - 1)) = some d.month :=
    monthOf?_eq low high (Nat.le_add_right _ _) (by omega)
  have ofDay : daysBeforeMonth d.year d.month + (d.day - 1) - daysBeforeMonth d.year d.month + 1 = d.day := by omega
  simp only [Date.ofDayNumber?,inYear,Option.bind_eq_bind,Option.bind_some,day,inMonth,ofDay]
  exact Date.of?_eq_some_iff.mpr ⟨rfl,rfl,rfl⟩

/-! ### Instants by their microseconds -/

/-- The instant so many microseconds after the start of the year 2000. -/
def Instant.ofMicroseconds? (micros : Int) : Option Instant := do
  let date ← Date.ofDayNumber? (micros / 86400000000)
  Instant.of? date (micros % 86400000000 / 1000000).toNat (micros % 1000000 * 1000).toNat

theorem Instant.of?_eq_some_iff {date : Date} {second nano : Nat} {t : Instant} :
    of? date second nano = some t ↔ t.date = date ∧ t.second = second ∧ t.nano = nano := by
  unfold of?
  split
  · simp only [Option.some.injEq,Instant.ext_iff]
    exact ⟨fun ⟨a,b,c⟩ => ⟨a.symm,b.symm,c.symm⟩,fun ⟨a,b,c⟩ => ⟨a.symm,b.symm,c.symm⟩⟩
  · rename_i none
    simp only [reduceCtorEq,false_iff]
    rintro ⟨rfl,rfl,rfl⟩
    exact none t.isTime

/-- No leap second, and a whole number of microseconds. -/
def Instant.IsWhole (t : Instant) : Prop := t.nano < nanosPerSecond ∧ t.nano % 1000 = 0

instance (t : Instant) : Decidable t.IsWhole := by unfold Instant.IsWhole; infer_instance

/-- The microseconds of an instant tell all of it if it is whole. -/
theorem Instant.ofMicroseconds?_microseconds_iff (t : Instant) :
    ofMicroseconds? t.microseconds = some t ↔ t.IsWhole := by
  constructor
  · intro found
    obtain ⟨date,-,made⟩ := Option.bind_eq_some_iff.mp found
    obtain ⟨-,-,nano⟩ := of?_eq_some_iff.mp made
    rw [IsWhole,nano,nanosPerSecond]
    omega
  · rintro ⟨within,whole⟩
    obtain ⟨second,-⟩ := t.isTime
    have micros : t.microseconds = (t.date.dayNumber * 86400 + t.second) * 1000000 + (t.nano / 1000 : Nat) := by
      have split : (t.date.dayNumber * 86400 + t.second) * 1000000000 + t.nano =
          1000 * ((t.date.dayNumber * 86400 + t.second) * 1000000 + (t.nano / 1000 : Nat)) := by omega
      show ((t.date.dayNumber * 86400 + t.second) * 1000000000 + t.nano).tdiv 1000 = _
      rw [split]
      exact Int.mul_tdiv_cancel_left _ (by decide)
    unfold nanosPerSecond at within
    unfold secondsPerDay at second
    have days : t.microseconds / 86400000000 = t.date.dayNumber := by omega
    have inDay : (t.microseconds % 86400000000 / 1000000).toNat = t.second := by omega
    have inSecond : (t.microseconds % 1000000 * 1000).toNat = t.nano := by omega
    rw [ofMicroseconds?,days,ofDayNumber?_dayNumber,inDay,inSecond]
    exact of?_eq_some_iff.mpr ⟨rfl,rfl,rfl⟩

end Intake.Calendar
