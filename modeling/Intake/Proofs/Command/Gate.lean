import Intake.Command.Import
import Intake.Proofs.Database.Refusal

/-!
The gate that lines pass before they are handed over. What passes is a valid record
(`valid_of_parseLine`), and yet the gate lets sizes through that the store refuses:
lines that pass are written together just if the sizes that are kept fit
(`write_of_passed`).
-/
namespace Intake.Command

open Database (answers Storable LastOf Server vast jobCounter)
open Json (Document)

/-! ### What a line is read as -/

@[simp] theorem isEmpty_trimmed (line : String) : (Text.trimmed line).isEmpty = (Text.trim line.toList).isEmpty := by
  rw [Text.trimmed,Bool.eq_iff_iff]
  simp

/-- Only a blank line is no record and no fault. -/
theorem parseLine_eq_none {line : String} : parseLine line = .ok none ↔ Text.trim line.toList = [] := by
  simp only [parseLine,isEmpty_trimmed]
  by_cases blank : Text.trim line.toList = []
  · simp [blank]
  · simp only [blank,iff_false,List.isEmpty_iff,if_false]
    cases Json.readText Record.ofTree (Text.trimmed line) with
    | error fault => simp
    | ok r => cases valid : r.validate <;> simp [valid]

theorem valid_of_parseLine {line : String} {r : Record} (passed : parseLine line = .ok (some r)) :
    r.validate = .ok () := by
  simp only [parseLine,isEmpty_trimmed] at passed
  by_cases blank : Text.trim line.toList = []
  · simp [blank] at passed
  · simp only [blank,List.isEmpty_iff,if_false] at passed
    cases read : Json.readText Record.ofTree (Text.trimmed line) with
    | error fault => simp [read] at passed
    | ok other =>
      cases valid : other.validate with
      | error cause => simp [read,valid] at passed
      | ok _ =>
        obtain rfl : other = r := by simpa [read,valid] using passed
        exact valid

theorem parseLine_of_read {text : List Char} {r : Record} (trimmed : Text.trim text = text) (filled : text ≠ [])
    (read : (Document.read text).as Record.ofTree = .ok r) (valid : r.validate = .ok ()) :
    parseLine (String.ofList text) = .ok (some r) := by
  have same : Text.trimmed (String.ofList text) = String.ofList text := by
    rw [Text.trimmed,String.toList_ofList,trimmed]
  have whole : Json.readText Record.ofTree (String.ofList text) = .ok r := by
    rw [Json.readText,String.toList_ofList,read]
  rw [parseLine,same]
  simp [filled,whole,valid]

theorem valid_of_passed {lines : List String} {batch : List Record}
    (passed : lines.map parseLine = batch.map fun r => .ok (some r)) : ∀ r ∈ batch, r.validate = .ok () := by
  intro r member
  have read : .ok (some r) ∈ lines.map parseLine := passed ▸ List.mem_map_of_mem member
  obtain ⟨line,-,here⟩ := List.mem_map.mp read
  exact valid_of_parseLine here

/-- A line that gives the fields of a record in their order: `byte` twenty times over for the info hash. -/
def plainLine (byte size : String) : String :=
  String.ofList ("[\"dht\",\"".toList ++ (List.replicate 20 byte.toList).flatten ++ "\",\"\",".toList ++
    size.toList ++ ",false,null,\"2000-01-01T00:00:00Z\"]".toList)

theorem parseLine_plain : parseLine (plainLine "02" "1") = .ok (some (.bare "dht" 2)) :=
  parseLine_of_read rfl (by simp) rfl (by decide +kernel)

theorem parseLine_vast : parseLine (plainLine "01" "9223372036854775808") = .ok (some vast) :=
  parseLine_of_read rfl (by simp) rfl (by decide +kernel)

def plainBytes : List UInt8 := (plainLine "02" "1").toList.map fun c => .ofNat c.toNat

/-! ### What the store makes of it -/

variable {σ : Type}

/-- Lines that pass the gate are written together by a server that carries out everything if no size that is kept
    is too large. Otherwise none of them is written, and one that is too large is named. -/
theorem write_of_passed (server : Server σ) (obliges : server.Obliges) (w : Writer) (lines : List String)
    (batch : List Record) (passed : lines.map parseLine = batch.map fun r => .ok (some r)) (filled : batch ≠ [])
    (s : σ) :
    (Storable batch → (w.write (answers server) batch s).1 = .ok (Writer.hashes batch)) ∧
      (¬ Storable batch → ∃ r, LastOf batch r ∧ 0x8000000000000000 ≤ r.size.toNat ∧
        (w.write (answers server) batch s).1 = .error (.invalidRecord (.sizeTooLarge r.infoHash r.size))) :=
  Database.write_of_obliges obliges w filled (valid_of_passed passed) s

theorem write_of_passed_plain :
    parseLine (plainLine "02" "1") = .ok (some (.bare "dht" 2)) ∧
      ((Writer.mk ⟨"nightly"⟩ []).write (answers jobCounter) [.bare "dht" 2] 0).1 =
        .ok [⟨List.replicate 20 2,List.length_replicate⟩] := by
  have written := write_of_passed jobCounter Database.jobCounter_obliges ⟨⟨"nightly"⟩,[]⟩ [plainLine "02" "1"]
    [.bare "dht" 2] (by simp [parseLine_plain]) (by simp) 0
  exact ⟨parseLine_plain,written.1 (Database.storable_of_forall (by decide))⟩

/-- A line that passes can keep the lines that are written with it from being written. -/
theorem passed_not_written :
    ¬ ∀ (server : Server Nat) (w : Writer) (lines : List String) (batch : List Record) (s : Nat),
      server.Obliges → batch ≠ [] → lines.map parseLine = batch.map (fun r => .ok (some r)) →
        ∃ hashes, (w.write (answers server) batch s).1 = .ok hashes := by
  intro all
  have passed : [plainLine "02" "1",plainLine "01" "9223372036854775808"].map parseLine =
      [Record.bare "dht" 2,vast].map fun r => .ok (some r) := by
    simp [parseLine_plain,parseLine_vast]
  have unfit : ¬ Storable [.bare "dht" 2,vast] := by
    intro storable
    have last : LastOf [.bare "dht" 2,vast] vast := ⟨[.bare "dht" 2],[],rfl,by simp [Writer.hashes]⟩
    exact absurd (storable vast last) (by decide)
  obtain ⟨hashes,written⟩ := all jobCounter ⟨⟨"nightly"⟩,[]⟩ _ _ 0 Database.jobCounter_obliges (by simp) passed
  obtain ⟨r,-,-,refused⟩ := (Database.write_of_obliges Database.jobCounter_obliges ⟨⟨"nightly"⟩,[]⟩ (by simp)
    (valid_of_passed passed) 0).2 unfit
  rw [refused] at written
  cases written

end Intake.Command
