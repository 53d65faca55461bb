import Intake.InfoHash
import Intake.Proofs.Text.Blank

/-!
Info hashes read back: forty digits in lower case are parsed to the twenty bytes that
they were written for (`parse_hex`).
-/
namespace Intake

namespace Text.Hex

theorem digit?_digit {n : Nat} (small : n < 16) : digit? (digit n) = some n := by
  have all : ∀ n < 16, digit? (digit n) = some n := by decide
  exact all n small

theorem noBlank_digit {n : Nat} (small : n < 16) : isBlank (digit n) = false := by
  have all : ∀ n < 16, isBlank (digit n) = false := by decide
  exact all n small

theorem decode?_encode (bytes : List UInt8) : decode? (encode bytes) = some bytes := by
  induction bytes with
  | nil => rfl
  | cons b rest ih =>
    have size : b.toNat < 256 := b.toNat_lt
    have whole : UInt8.ofNat (16 * (b.toNat / 16) + b.toNat % 16) = b := by
      rw [Nat.div_add_mod,UInt8.ofNat_toNat]
    show decode? (digit (b.toNat / 16) :: digit (b.toNat % 16) :: encode rest) = _
    rw [decode?,digit?_digit (by omega),digit?_digit (Nat.mod_lt _ (by decide)),ih]
    exact congrArg (fun c => some (c :: rest)) whole

theorem noBlank_encode (bytes : List UInt8) : ∀ c ∈ encode bytes, isBlank c = false := by
  intro c member
  obtain ⟨b,-,digit⟩ := List.mem_flatMap.mp member
  have size : b.toNat < 256 := b.toNat_lt
  simp only [byteText,List.mem_cons,List.not_mem_nil,or_false] at digit
  rcases digit with rfl | rfl
  · exact noBlank_digit (by omega)
  · exact noBlank_digit (Nat.mod_lt _ (by decide))

end Text.Hex

namespace InfoHash

theorem parse_hex (h : InfoHash) : parse h.hex = .ok h := by
  have trimmed : Text.trim h.text = h.text :=
    Text.trim_eq_self (fun c member => Text.Hex.noBlank_encode _ c (List.mem_of_mem_head? member))
      fun c member => Text.Hex.noBlank_encode _ c (List.mem_of_mem_getLast? member)
  have found : parse? h.text = some h := by
    rw [parse?,trimmed,text,Text.Hex.decode?_encode]
    exact dif_pos h.length_bytes
  rw [parse,hex,String.toList_ofList,found]

end InfoHash

end Intake
