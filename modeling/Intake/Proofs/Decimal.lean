import Intake.Decimal.Natural
import Mathlib.Algebra.GroupWithZero.Nat

/-!
Decimal numbers read back. A number is written in digits only, with no zero before
other digits (`head_text`), and has that value (`value_text`), also when it is filled
up with zeros (`value_padded`).
-/
namespace Intake.Decimal

/-! ### Digits -/

theorem digitValue_digit {n : Nat} (small : n < 10) : digitValue (digit n) = n := by
  have all : ∀ n < 10, digitValue (digit n) = n := by decide
  exact all n small

theorem isDigit_digit {n : Nat} (small : n < 10) : isDigit (digit n) = true := by
  have all : ∀ n < 10, isDigit (digit n) = true := by decide
  exact all n small

/-- Digits only. -/
def AllDigits (s : List Char) : Prop := ∀ c ∈ s, isDigit c = true

/-- A text that does not go on with a digit. -/
def NoDigit (s : List Char) : Prop := ∀ c ∈ s.head?, isDigit c = false

@[simp] theorem noDigit_nil : NoDigit [] := by
  intro c member
  cases member

@[simp] theorem noDigit_cons {c : Char} {s : List Char} : NoDigit (c :: s) ↔ isDigit c = false := by simp [NoDigit]

section
variable {s rest : List Char}

theorem takeWhile_digits (digits : AllDigits s) (ends : NoDigit rest) : (s ++ rest).takeWhile isDigit = s := by
  rw [List.takeWhile_append_of_pos digits]
  cases rest with
  | nil => simp
  | cons c rest => simp [noDigit_cons.mp ends]

theorem dropWhile_digits (digits : AllDigits s) (ends : NoDigit rest) : (s ++ rest).dropWhile isDigit = rest := by
  rw [List.dropWhile_append_of_pos digits]
  cases rest with
  | nil => rfl
  | cons c rest => simp [noDigit_cons.mp ends]

end

/-! ### Values -/

/-- The number that goes on with digits. -/
theorem foldl_digits (n : Nat) (s : List Char) :
    s.foldl (fun n c => 10 * n + digitValue c) n = n * 10 ^ s.length + value s := by
  induction s generalizing n with
  | nil => simp [value]
  | cons c s ih =>
    have whole : value (c :: s) = digitValue c * 10 ^ s.length + value s := by
      rw [value,List.foldl_cons,ih,Nat.mul_zero,Nat.zero_add]
    rw [List.foldl_cons,ih,whole,List.length_cons,Nat.pow_succ,Nat.add_mul,Nat.add_assoc,
      Nat.mul_comm (10 ^ s.length) 10,← Nat.mul_assoc,Nat.mul_comm n 10]

theorem value_append (s t : List Char) : value (s ++ t) = value s * 10 ^ t.length + value t := by
  rw [value,List.foldl_append,foldl_digits]
  rfl

theorem value_zeros (n : Nat) (s : List Char) : value (List.replicate n '0' ++ s) = value s := by
  induction n with
  | zero => rfl
  | succ n ih => exact ih

/-! ### Numbers as texts -/

theorem text_of_lt {n : Nat} (small : n < 10) : text n = [digit n] := by
  rw [text,if_pos small]

theorem text_of_le {n : Nat} (large : 10 ≤ n) : text n = text (n / 10) ++ [digit (n % 10)] := by
  rw [text,if_neg (Nat.not_lt.mpr large)]

theorem text_ne_nil (n : Nat) : text n ≠ [] := by
  rw [text]
  split <;> simp

theorem allDigits_text (n : Nat) : AllDigits (text n) := by
  fun_induction text n with
  | case1 n small =>
    intro c member
    rw [List.mem_singleton.mp member]
    exact isDigit_digit small
  | case2 n _ ih =>
    intro c member
    rcases List.mem_append.mp member with early | last
    · exact ih c early
    · rw [List.mem_singleton.mp last]
      exact isDigit_digit (Nat.mod_lt n (by decide))

@[simp] theorem value_text (n : Nat) : value (text n) = n := by
  fun_induction text n with
  | case1 n small => simp [value,digitValue_digit small]
  | case2 n _ ih =>
    have last : value [digit (n % 10)] = n % 10 := by simp [value,digitValue_digit (Nat.mod_lt n (by decide))]
    rw [value_append,ih,last]
    exact Nat.div_add_mod' n 10

/-- A number that starts with a zero is none other than zero. -/
theorem head_text (n : Nat) : (text n).head? = some '0' → text n = ['0'] := by
  fun_induction text n with
  | case1 n small =>
    intro zero
    rw [List.head?_cons,Option.some.injEq] at zero
    rw [zero]
  | case2 n large ih =>
    obtain ⟨c,rest,filled⟩ := List.exists_cons_of_ne_nil (text_ne_nil (n / 10))
    rw [filled] at ih
    rw [filled,List.cons_append,List.head?_cons]
    intro zero
    have none : value (text (n / 10)) = 0 := by rw [filled,ih zero]; rfl
    rw [value_text] at none
    omega

theorem length_text_le {w n : Nat} (fits : n < 10 ^ w) (wide : 0 < w) : (text n).length ≤ w := by
  induction w generalizing n with
  | zero => exact absurd wide (Nat.lt_irrefl 0)
  | succ w ih =>
    by_cases small : n < 10
    · simp [text_of_lt small]
    · have shorter : n / 10 < 10 ^ w := by
        rw [Nat.pow_succ] at fits
        omega
      have filled : 0 < w := by
        rcases Nat.eq_zero_or_pos w with rfl | filled
        · omega
        · exact filled
      have rest := ih shorter filled
      rw [text_of_le (Nat.not_lt.mp small)]
      simpa using rest

/-! ### Numbers filled up with zeros -/

theorem allDigits_padded (w n : Nat) : AllDigits (padded w n) := by
  intro c member
  rcases List.mem_append.mp member with zero | digit
  · rw [List.eq_of_mem_replicate zero]
    rfl
  · exact allDigits_text n c digit

@[simp] theorem value_padded (w n : Nat) : value (padded w n) = n := by
  rw [padded,value_zeros,value_text]

theorem length_padded {w n : Nat} (fits : n < 10 ^ w) (wide : 0 < w) : (padded w n).length = w := by
  have short := length_text_le fits wide
  rw [padded,List.length_append,List.length_replicate]
  omega

theorem padded_ne_nil (w n : Nat) : padded w n ≠ [] := by
  rw [padded]
  simp [text_ne_nil]

end Intake.Decimal
