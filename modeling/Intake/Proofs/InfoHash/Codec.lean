import Intake.Proofs.InfoHash
import Intake.Proofs.Json.Values
import Intake.Record.Json

/-!
Which texts are info hashes. Pairs of digits, and nothing else, are decoded, and what is
decoded is written as these digits in lower case (`exists_decode?_iff`,
`encode_of_decode?`). So a text is parsed just if forty digits are left when it is trimmed,
to the hash with these digits, and any other text is refused as it is; a JSON string is
read just as its text is parsed (`parse_exact`).
-/
namespace Intake

/-! ### Digits -/

namespace Text.Hex

/-- A hexadecimal digit in either case. -/
def IsDigit (c : Char) : Prop := ('0' ≤ c ∧ c ≤ '9') ∨ ('a' ≤ c ∧ c ≤ 'f') ∨ ('A' ≤ c ∧ c ≤ 'F')

theorem digit?_isSome_iff {c : Char} : (digit? c).isSome = true ↔ IsDigit c := by
  unfold digit? IsDigit
  split
  · simp_all
  split
  · simp_all
  split
  · simp_all
  · simp_all

theorem ascii_of_digit {c : Char} (digit : IsDigit c) : c.toNat < 128 := by
  have below {d : Char} (le : c ≤ d) (ascii : d.toNat < 128) : c.toNat < 128 := Nat.lt_of_le_of_lt le ascii
  rcases digit with ⟨-,le⟩ | ⟨-,le⟩ | ⟨-,le⟩
  · exact below le (by decide)
  · exact below le (by decide)
  · exact below le (by decide)

/-- A digit is written, in lower case, as it was read. -/
theorem digit_of_digit? {c : Char} {n : Nat} (value : digit? c = some n) : n < 16 ∧ digit n = c.toLower := by
  have ascii : ∀ k < 128, ∀ n ∈ digit? (Char.ofNat k), n < 16 ∧ digit n = (Char.ofNat k).toLower := by
    decide +kernel
  have small := ascii_of_digit (digit?_isSome_iff.mp (Option.isSome_of_mem value))
  have found := ascii c.toNat small n
  rw [Char.ofNat_toNat] at found
  exact found value

theorem byteText_of_digits {h l : Nat} (high : h < 16) (low : l < 16) :
    byteText (UInt8.ofNat (16 * h + l)) = [digit h,digit l] := by
  have value : (UInt8.ofNat (16 * h + l)).toNat = 16 * h + l := UInt8.toNat_ofNat_of_lt' (by show _ < 256; omega)
  have upper : (16 * h + l) / 16 = h := by omega
  have lower : (16 * h + l) % 16 = l := by omega
  rw [byteText,value,upper,lower]

theorem encode_of_decode? {s : List Char} {bytes : List UInt8} (read : decode? s = some bytes) :
    encode bytes = s.map Char.toLower := by
  fun_induction decode? s generalizing bytes with
  | case1 =>
    obtain rfl := Option.some.inj read
    rfl
  | case2 => cases read
  | case3 high low rest ih =>
    simp only [Option.bind_eq_bind,Option.bind_eq_some_iff,Option.pure_def,Option.some.injEq] at read
    obtain ⟨h,first,l,second,tail,others,rfl⟩ := read
    obtain ⟨small,upper⟩ := digit_of_digit? first
    obtain ⟨small',lower⟩ := digit_of_digit? second
    rw [encode,List.flatMap_cons,byteText_of_digits small small',← encode,ih others,upper,lower]
    rfl

theorem exists_decode?_iff {s : List Char} :
    (∃ bytes, decode? s = some bytes) ↔ s.length % 2 = 0 ∧ ∀ c ∈ s, IsDigit c := by
  fun_induction decode? s with
  | case1 => simp
  | case2 => simp
  | case3 high low rest ih =>
    have even : (high :: low :: rest).length % 2 = rest.length % 2 := by
      simp only [List.length_cons]
      omega
    simp only [Option.bind_eq_bind,Option.bind_eq_some_iff,Option.pure_def,Option.some.injEq,List.forall_mem_cons,even,
      ← digit?_isSome_iff,Option.isSome_iff_exists] at ih ⊢
    constructor
    · rintro ⟨_,h,first,l,second,tail,others,-⟩
      obtain ⟨pairs,digits⟩ := ih.mp ⟨tail,others⟩
      exact ⟨pairs,⟨h,first⟩,⟨l,second⟩,digits⟩
    · rintro ⟨pairs,⟨h,first⟩,⟨l,second⟩,digits⟩
      obtain ⟨tail,others⟩ := ih.mpr ⟨pairs,digits⟩
      exact ⟨_,h,first,l,second,tail,others,rfl⟩

end Text.Hex

/-! ### Info hashes -/

namespace InfoHash

/-- Forty hexadecimal digits. -/
structure IsWritten (s : List Char) : Prop where
  length : s.length = 40
  digits : ∀ c ∈ s, Text.Hex.IsDigit c

theorem parse?_eq_some_iff {s : List Char} {h : InfoHash} :
    parse? s = some h ↔ IsWritten (Text.trim s) ∧ h.text = (Text.trim s).map Char.toLower := by
  rw [parse?]
  constructor
  · intro found
    split at found
    case h_1 bytes read =>
      split at found
      case isTrue long =>
        obtain rfl := Option.some.inj found
        have digits := Text.Hex.exists_decode?_iff.mp ⟨bytes,read⟩
        refine ⟨⟨?_,digits.2⟩,Text.Hex.encode_of_decode? read⟩
        rw [Text.Hex.length_of_decode? read,long]
      case isFalse => cases found
    case h_2 => cases found
  · rintro ⟨⟨length,digits⟩,same⟩
    obtain ⟨bytes,read⟩ := Text.Hex.exists_decode?_iff.mpr ⟨by rw [length],digits⟩
    have written := Text.Hex.decode?_encode h.bytes
    rw [← text,same,← Text.Hex.encode_of_decode? read,Text.Hex.decode?_encode] at written
    obtain rfl := Option.some.inj written
    rw [read]
    exact dif_pos h.length_bytes

theorem exists_parse?_iff {s : List Char} : (∃ h, parse? s = some h) ↔ IsWritten (Text.trim s) := by
  constructor
  · rintro ⟨h,found⟩
    exact (parse?_eq_some_iff.mp found).1
  · rintro ⟨length,digits⟩
    obtain ⟨bytes,read⟩ := Text.Hex.exists_decode?_iff.mpr ⟨by rw [length],digits⟩
    have long : bytes.length = 20 := by
      have twice := Text.Hex.length_of_decode? read
      omega
    exact ⟨⟨bytes,long⟩,parse?_eq_some_iff.mpr ⟨⟨length,digits⟩,Text.Hex.encode_of_decode? read⟩⟩

theorem parse_eq_ok_iff {s : String} {h : InfoHash} : parse s = .ok h ↔ parse? s.toList = some h := by
  rw [parse]
  cases parse? s.toList <;> simp

theorem parse_eq_error_iff {s : String} {fault : Fault} :
    parse s = .error fault ↔ parse? s.toList = none ∧ fault = .malformed s := by
  rw [parse]
  cases parse? s.toList <;> simp [eq_comm]

/-- A string is read just as its text is parsed. -/
theorem ofTree_of_string {t : Json.Tree} {s : String} (string : t.asString = .ok s) :
    ofTree t = match parse s with
      | .ok h => .ok h
      | .error _ => .error (.refused ("Invalid info hash: " ++ s)) := by
  rw [ofTree,string]
  simp only [bind,Except.bind]
  cases parsed : parse s with
  | ok h => rfl
  | error fault =>
    obtain ⟨-,rfl⟩ := parse_eq_error_iff.mp parsed
    rfl

/-- A text is an info hash just if forty digits are left between the blanks at its ends, and these in lower case are
    what is written for the hash. Any other text is refused as it stands. What is written for a hash is parsed to the
    hash, and a JSON text of a string is read just as the string is parsed. -/
theorem parse_exact (s : String) :
    Text.Trims s.toList (Text.trim s.toList) ∧
      ((∃ h, parse s = .ok h) ↔ IsWritten (Text.trim s.toList)) ∧
      (∀ h, parse s = .ok h → h.hex = String.ofList ((Text.trim s.toList).map Char.toLower)) ∧
      (∀ fault, parse s = .error fault → fault = .malformed s ∧ fault.message = s) ∧
      (∀ h : InfoHash, parse h.hex = .ok h) ∧
      ∀ text t, Json.Holds text t → t.asString = .ok s → Json.readText ofTree text = match parse s with
        | .ok h => .ok h
        | .error _ => .error (.refused ("Invalid info hash: " ++ s)) := by
  refine ⟨Text.trims_trim s.toList,?_,?_,?_,parse_hex,?_⟩
  · simp only [parse_eq_ok_iff]
    exact exists_parse?_iff
  · intro h parsed
    rw [hex,(parse?_eq_some_iff.mp (parse_eq_ok_iff.mp parsed)).2]
  · intro fault refused
    obtain ⟨-,rfl⟩ := parse_eq_error_iff.mp refused
    exact ⟨rfl,rfl⟩
  · intro text t holds string
    rw [Json.readText_of_holds holds,ofTree_of_string string]

/-- Twenty characters of two bytes each are as many bytes as forty digits, and are no hash. -/
example : parse? (List.replicate 20 'é') = none := by decide +kernel

/-- Digits in both cases between blanks. -/
def spaced : List Char := '\u3000' :: (List.replicate 20 ['a','F']).flatten ++ ['\n']

theorem parse_exact_spaced :
    parse (String.ofList spaced) = .ok ⟨List.replicate 20 0xaf,rfl⟩ ∧
      Json.readText ofTree (String.ofList (Json.Tree.ofString (String.ofList spaced)).text) =
        .ok ⟨List.replicate 20 0xaf,rfl⟩ := by
  have found : parse? spaced = some ⟨List.replicate 20 0xaf,rfl⟩ := by decide +kernel
  have parsed : parse (String.ofList spaced) = .ok ⟨List.replicate 20 0xaf,rfl⟩ := by
    rw [parse_eq_ok_iff,String.toList_ofList]
    exact found
  obtain ⟨-,-,-,-,-,json⟩ := parse_exact (String.ofList spaced)
  refine ⟨parsed,?_⟩
  rw [json _ _ (Json.holds_text (Json.spelled_ofString _)) (Json.asString_ofString _),parsed]

end InfoHash

end Intake
