import Intake.Calendar.Reading
import Intake.Calendar.Writing
import Intake.Proofs.Decimal
import Intake.Proofs.Text.Blank
import Mathlib.Tactic.SplitIfs

/-!
Dates read back as they were written (`read_date`), with years of any sign and length,
and moments as their texts show them (`read_instant`), with as many digits behind the
second as it has: the moment that was written, unless its nanoseconds run on beyond a
second after which no clock shows a leap second (`shown_eq_self_iff`).
-/
namespace Intake.Calendar

open Decimal
open Text (isBlank trimStart trimStart_cons)

section
variable {s rest : List Char}

theorem noBlank_of_digit {c : Char} (digit : isDigit c = true) : isBlank c = false := by
  have range : 48 ≤ c.toNat ∧ c.toNat ≤ 57 := by
    simp only [isDigit,Bool.and_eq_true,decide_eq_true_eq] at digit
    exact digit
  simp only [isBlank,Text.inRanges,Text.blankRanges,List.any_cons,List.any_nil,Bool.or_eq_false_iff,
    Bool.and_eq_false_iff,decide_eq_false_iff_not,and_true]
  omega

theorem trimStart_digits (filled : s ≠ []) (all : AllDigits s) (rest : List Char) :
    trimStart (s ++ rest) = s ++ rest := by
  obtain ⟨c,more,rfl⟩ := List.exists_cons_of_ne_nil filled
  exact trimStart_cons (noBlank_of_digit (all c List.mem_cons_self)) _

/-! ### Numbers -/

theorem number_append {width : Option Nat} (filled : s ≠ []) (all : AllDigits s) (ends : NoDigit rest)
    (fits : ∀ w ∈ width, s.length ≤ w) (small : value s ≤ numberLimit) :
    number width (s ++ rest) = .ok (value s,rest) := by
  have some_ : (s ++ rest).isEmpty = false := by
    obtain ⟨c,more,rfl⟩ := List.exists_cons_of_ne_nil filled
    rfl
  unfold number
  rw [takeWhile_digits all ends]
  cases width with
  | none => simp [filled,Nat.not_lt.mpr small]
  | some w => simp [filled,List.take_of_length_le (fits w rfl),Nat.not_lt.mpr small]

/-- A number in two digits. -/
theorem bounded_padded {low high n : Nat} (least : low ≤ n) (most : n ≤ high) (two : n < 100) (ends : NoDigit rest) :
    bounded low high (padded 2 n ++ rest) = .ok (n,rest) := by
  have wide : (padded 2 n).length = 2 := length_padded (by simpa using two) (by decide)
  have small : value (padded 2 n) ≤ numberLimit := by
    rw [value_padded,numberLimit]
    omega
  rw [bounded,trimStart_digits (padded_ne_nil 2 n) (allDigits_padded 2 n),
    number_append (padded_ne_nil 2 n) (allDigits_padded 2 n) ends (by simp [wide]) small,value_padded]
  simp only [bind,Except.bind]
  rw [if_pos ⟨least,most⟩]
  rfl

/-- The same before a colon. -/
theorem bounded_colon {high n : Nat} (most : n ≤ high) (two : n < 100) (s : List Char) :
    bounded 0 high (padded 2 n ++ ':' :: s) = .ok (n,':' :: s) :=
  bounded_padded (Nat.zero_le n) most two (noDigit_cons.mpr rfl)

theorem separator_cons {c : Char} (visible : isBlank c = false) (s : List Char) : separator c (c :: s) = .ok s := by
  rw [separator,trimStart_cons visible]
  exact if_pos rfl

/-! ### Dates -/

theorem number_year {width : Option Nat} {n : Nat} (near : n ≤ 262143) (ends : NoDigit rest)
    (fits : ∀ w ∈ width, (padded 4 n).length ≤ w) : number width (padded 4 n ++ rest) = .ok (n,rest) := by
  have small : value (padded 4 n) ≤ numberLimit := by
    rw [value_padded,numberLimit]
    omega
  rw [number_append (padded_ne_nil 4 n) (allDigits_padded 4 n) ends fits small,value_padded]

/-- A year without a sign has four digits. -/
theorem year_plain {n : Nat} (four : n ≤ 9999) (ends : NoDigit rest) :
    year (padded 4 n ++ rest) = .ok ((n : Int),rest) := by
  -- Under a name: the type checker could take the comparison with the number itself apart, one by one.
  obtain ⟨limit,named⟩ : ∃ limit : Int, limit = 0x80000000 := ⟨_,rfl⟩
  have bounds : -limit ≤ (n : Int) ∧ (n : Int) < limit := by omega
  have wide : (padded 4 n).length = 4 := length_padded (by omega) (by decide)
  have found := number_year (by omega) ends (by simp [wide] : ∀ w ∈ some 4, (padded 4 n).length ≤ w)
  obtain ⟨c,more,same⟩ := List.exists_cons_of_ne_nil (padded_ne_nil 4 n)
  have digit : isDigit c = true := allDigits_padded 4 n c (by simp [same])
  rw [year,trimStart_digits (padded_ne_nil 4 n) (allDigits_padded 4 n),same,List.cons_append]
  rw [same,List.cons_append] at found
  split
  · next start =>
    rw [(List.cons.inj start).1] at digit
    cases digit
  · next start =>
    rw [(List.cons.inj start).1] at digit
    cases digit
  · rw [← named]
    simp only [found,bind,Except.bind,pure,Except.pure]
    rw [if_pos bounds]

theorem year_signed {n : Nat} (near : n ≤ 262143) (ends : NoDigit rest) :
    year ('-' :: (padded 4 n ++ rest)) = .ok (-(n : Int),rest) ∧
      year ('+' :: (padded 4 n ++ rest)) = .ok ((n : Int),rest) := by
  obtain ⟨limit,named⟩ : ∃ limit : Int, limit = 0x80000000 := ⟨_,rfl⟩
  have below : -limit ≤ -(n : Int) ∧ -(n : Int) < limit := by omega
  have above : -limit ≤ (n : Int) ∧ (n : Int) < limit := by omega
  have found : number none (padded 4 n ++ rest) = .ok (n,rest) := number_year near ends (by simp)
  constructor
  · rw [year,trimStart_cons (by decide),← named]
    simp only [found,bind,Except.bind,pure,Except.pure]
    rw [if_pos below]
  · rw [year,trimStart_cons (by decide),← named]
    simp only [found,bind,Except.bind,pure,Except.pure]
    rw [if_pos above]

theorem year_text {y : Int} (early : -262143 ≤ y) (late : y ≤ 262142) (ends : NoDigit rest) :
    year (yearText y ++ rest) = .ok (y,rest) := by
  rw [yearText]
  split
  · next plain =>
    rw [year_plain (by omega) ends,Int.toNat_of_nonneg plain.1]
  · next signed =>
    obtain ⟨negative,positive⟩ := year_signed (by omega : y.natAbs ≤ 262143) ends
    by_cases below : y < 0
    · have same : -(y.natAbs : Int) = y := by omega
      rw [if_pos below,List.cons_append,negative,same]
    · have same : (y.natAbs : Int) = y := by omega
      rw [if_neg below,List.cons_append,positive,same]

theorem dateParts_text (d : Date) (ends : NoDigit rest) :
    dateParts (d.text ++ rest) = .ok ((d.year,d.month,d.day),rest) := by
  obtain ⟨early,late,january,december,first,last⟩ := d.isDate
  have most : d.day ≤ 31 := by
    refine Nat.le_trans last ?_
    rw [daysIn]
    split
    · split <;> decide
    · split <;> decide
  have dash : NoDigit ('-' :: (padded 2 d.month ++ '-' :: (padded 2 d.day ++ rest))) := noDigit_cons.mpr rfl
  have dash' : NoDigit ('-' :: (padded 2 d.day ++ rest)) := noDigit_cons.mpr rfl
  have text : d.text ++ rest =
      yearText d.year ++ '-' :: (padded 2 d.month ++ '-' :: (padded 2 d.day ++ rest)) := by simp [Date.text]
  rw [text,dateParts,year_text early late dash]
  simp only [bind,Except.bind,separator_cons (by decide : isBlank '-' = false),
    bounded_padded january december (by omega) dash',bounded_padded first most (by omega) ends]
  rfl

theorem of?_self (d : Date) : Date.of? d.year d.month d.day = some d := Date.of?_eq_some_iff.mpr ⟨rfl,rfl,rfl⟩

theorem read_date (d : Date) : Date.read d.text = .ok d := by
  have parts := dateParts_text d noDigit_nil
  rw [List.append_nil] at parts
  rw [Date.read,parts]
  simp only [bind,Except.bind,of?_self]
  rfl

/-! ### Moments -/

theorem fractionNanos_padded {width n : Nat} (short : width ≤ 9) (wide : 0 < width) (fits : n < 10 ^ width) :
    fractionNanos (padded width n) = n * 10 ^ (9 - width) := by
  have length := length_padded fits wide
  rw [fractionNanos,List.take_of_length_le (by omega),value_padded,length]
  rfl

theorem fraction_padded {width n : Nat} (short : width ≤ 9) (wide : 0 < width) (fits : n < 10 ^ width)
    (ends : NoDigit rest) :
    fraction ('.' :: (padded width n ++ rest)) = .ok (n * 10 ^ (9 - width),rest) := by
  have length := length_padded fits wide
  have small : value (padded width n) ≤ numberLimit := by
    have nine : n < 10 ^ 9 := Nat.lt_of_lt_of_le fits (Nat.pow_le_pow_right (by decide) short)
    rw [value_padded,numberLimit]
    omega
  rw [fraction,number_append (padded_ne_nil width n) (allDigits_padded width n) ends (by simp [length,short]) small]
  simp only [bind,Except.bind,takeWhile_digits (allDigits_padded width n) ends,
    dropWhile_digits (allDigits_padded width n) ends,fractionNanos_padded short wide fits]
  rfl

theorem fraction_text {nano : Nat} (small : nano < nanosPerSecond) :
    fraction (fractionText nano ++ ['Z']) = .ok (nano,['Z']) := by
  rw [nanosPerSecond] at small
  have zulu : NoDigit ['Z'] := noDigit_cons.mpr rfl
  rw [fractionText]
  split_ifs with none milli micro
  · rw [none]
    rfl
  · rw [List.cons_append,fraction_padded (by decide) (by decide) (by omega) zulu]
    have same : nano / 1000000 * 10 ^ (9 - 3) = nano := by omega
    rw [same]
  · rw [List.cons_append,fraction_padded (by decide) (by decide) (by omega) zulu]
    have same : nano / 1000 * 10 ^ (9 - 6) = nano := by omega
    rw [same]
  · rw [List.cons_append,fraction_padded (by decide) (by decide) (by omega) zulu]
    simp

end

theorem offset_zulu : offset (trimStart ['Z']) = .ok (0,[]) := rfl

/-- A clock that shows universal time shows the moment itself. -/
theorem ofLocal?_self (t : Instant) : Instant.ofLocal? t.date t.second t.nano 0 = some t := by
  have day : (t.second : Int) < secondsPerDay := by exact_mod_cast t.isTime.1
  rw [Instant.ofLocal?]
  simp only [Int.sub_zero]
  rw [if_neg (by omega),if_pos day,Instant.of?,Int.toNat_natCast,dif_pos t.isTime]

/-- The nanoseconds run on beyond the last second of a minute only. -/
def Instant.IsRegular (t : Instant) : Prop := nanosPerSecond ≤ t.nano → t.second % 60 = 59

instance (t : Instant) : Decidable t.IsRegular := by unfold Instant.IsRegular; infer_instance

theorem IsTime.carried {second nano : Nat} (time : IsTime second nano) (other : second % 60 ≠ 59) :
    IsTime (second + 1) (nano - nanosPerSecond) := by
  obtain ⟨day,short⟩ := time
  unfold IsTime
  simp only [secondsPerDay,nanosPerSecond] at day short ⊢
  omega

/-- The moment as its text shows it: nanoseconds that run on beyond another second than the last of a minute are
    those of the next second. -/
def Instant.shown (t : Instant) : Instant :=
  if irregular : nanosPerSecond ≤ t.nano ∧ t.second % 60 ≠ 59 then
    ⟨t.date,t.second + 1,t.nano - nanosPerSecond,t.isTime.carried irregular.2⟩
  else t

theorem Instant.date_shown (t : Instant) : t.shown.date = t.date := by
  rw [shown]
  split <;> rfl

theorem Instant.shown_eq_self_iff {t : Instant} : t.shown = t ↔ t.IsRegular := by
  rw [shown]
  split
  · next irregular =>
    refine iff_of_false (fun same => ?_) fun regular => irregular.2 (regular irregular.1)
    have next : t.second + 1 = t.second := congrArg Instant.second same
    omega
  · next regular => exact iff_of_true rfl fun long => not_not.mp fun other => regular ⟨long,other⟩

/-- The second of the minute is 60 in a leap second and below it else, and is that of the moment as it is shown. -/
theorem second_of_minute (t : Instant) :
    t.secondOfMinute ≤ 60 ∧ t.second / 60 * 60 + min t.secondOfMinute 59 = t.shown.second ∧
      t.nano % nanosPerSecond + (if t.secondOfMinute = 60 then nanosPerSecond else 0) = t.shown.nano := by
  obtain ⟨-,short⟩ := t.isTime
  have written : t.secondOfMinute = t.second % 60 + t.nano / 1000000000 := rfl
  by_cases irregular : nanosPerSecond ≤ t.nano ∧ t.second % 60 ≠ 59
  · rw [Instant.shown,dif_pos irregular]
    simp only [nanosPerSecond] at short irregular ⊢
    refine ⟨by omega,by omega,?_⟩
    rw [if_neg (by omega)]
    omega
  · rw [Instant.shown,dif_neg irregular]
    simp only [nanosPerSecond] at short irregular ⊢
    refine ⟨by omega,by omega,?_⟩
    by_cases leaps : 1000000000 ≤ t.nano
    · rw [if_pos (by omega)]
      omega
    · rw [if_neg (by omega)]
      omega

/-- What is written of a moment. -/
theorem text_instant (t : Instant) :
    t.text = t.date.text ++ 'T' :: (padded 2 (t.second / 3600) ++ ':' :: (padded 2 (t.second / 60 % 60) ++
      ':' :: (padded 2 t.secondOfMinute ++ (fractionText (t.nano % nanosPerSecond) ++ ['Z'])))) := by
  simp [Instant.text]

theorem noDigit_fraction (nano : Nat) : NoDigit (fractionText nano ++ ['Z']) := by
  rw [fractionText]
  split_ifs
  all_goals exact noDigit_cons.mpr rfl

/-- A moment is read back as its text shows it. -/
theorem read_instant (t : Instant) : Instant.read t.text = .ok t.shown := by
  obtain ⟨day,-⟩ := t.isTime
  obtain ⟨most,least,nanos⟩ := second_of_minute t
  have whole : t.second / 3600 * 3600 + t.second / 60 % 60 * 60 + min t.secondOfMinute 59 = t.shown.second := by omega
  rw [secondsPerDay] at day
  rw [text_instant,Instant.read,dateParts_text t.date (noDigit_cons.mpr rfl)]
  simp only [bind,Except.bind,dateEnd,separator_cons (by decide : isBlank ':' = false),
    bounded_colon (by omega : t.second / 3600 ≤ 23) (by omega),
    bounded_colon (by omega : t.second / 60 % 60 ≤ 59) (by omega),
    bounded_padded (Nat.zero_le t.secondOfMinute) most (by omega) (noDigit_fraction _),
    fraction_text (Nat.mod_lt t.nano (by decide)),offset_zulu]
  rw [← t.date_shown]
  simp only [of?_self,whole,nanos,ofLocal?_self]
  rfl

end Intake.Calendar
