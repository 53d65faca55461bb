import Intake.Json.Shape
import Intake.Proofs.Json.Values

/-!
Structures read back from objects that have all their fields. Each member is read into
the field of its name, in the order of the members (`ofMembers_fields`).
-/
namespace Intake.Json

variable {δ α : Type}

namespace Shape

theorem slot?_of_mem {s : Shape δ α} (distinct : (s.fields.map Slot.name).Nodup) {f : Slot δ}
    (member : f ∈ s.fields) : s.slot? f.name = some f := by
  rw [slot?]
  generalize s.fields = fields at distinct member
  induction fields with
  | nil => cases member
  | cons g rest ih =>
    obtain ⟨fresh,others⟩ := List.nodup_cons.mp distinct
    rcases List.mem_cons.mp member with rfl | later
    · exact List.find?_cons_of_pos (by simp)
    · have other : g.name ≠ f.name := fun same => fresh (same ▸ List.mem_map_of_mem later)
      rw [List.find?_cons_of_neg (by simpa using other),ih others later]

/-- Members under the names of fields are read into these one after the other. -/
theorem ofMembers_fields {s : Shape δ α} (distinct : (s.fields.map Slot.name).Nodup) {written : List (Slot δ × Tree)}
    (within : ∀ w ∈ written, w.1 ∈ s.fields) (once : (written.map (·.1.name)).Nodup) {taken : List String}
    (fresh : ∀ w ∈ written, w.1.name ∉ taken) (d : δ) :
    s.ofMembers taken d (written.map fun w => (Tree.ofString w.1.name,w.2)) =
      written.foldlM (fun d w => w.1.read w.2 d) d := by
  induction written generalizing taken d with
  | nil => rfl
  | cons w rest ih =>
    obtain ⟨new,others⟩ := List.nodup_cons.mp once
    obtain ⟨here,later⟩ := List.forall_mem_cons.mp within
    obtain ⟨free,clear⟩ := List.forall_mem_cons.mp fresh
    rw [List.map_cons,ofMembers,key_ofString,List.foldlM_cons]
    simp only [bind,Except.bind,slot?_of_mem distinct here,if_neg free]
    cases w.1.read w.2 d with
    | error fault => rfl
    | ok d =>
      refine ih later others ?_ d
      intro v member taken
      rcases List.mem_cons.mp taken with same | before
      · exact new (List.mem_map.mpr ⟨v,member,same⟩)
      · exact clear v member before

theorem names_zip {fields : List (Slot δ)} {trees : List Tree} (each : trees.length = fields.length) :
    (fields.zip trees).map (·.1.name) = fields.map Slot.name := by
  show (fields.zip trees).map (Slot.name ∘ Prod.fst) = _
  rw [← List.map_map,List.map_fst_zip (Nat.le_of_eq each.symm)]

/-- An object with all fields in their order. -/
theorem read_fields {s : Shape δ α} (distinct : (s.fields.map Slot.name).Nodup) {trees : List Tree}
    (each : trees.length = s.fields.length) {d : δ}
    (draft : (s.fields.zip trees).foldlM (fun d w => w.1.read w.2 d) s.start = .ok d) :
    s.read (.ofMembers ((s.fields.map Slot.name).zip trees)) = (s.finish d).mapError .missingField := by
  have members : ((s.fields.map Slot.name).zip trees).map (fun m => (Tree.ofString m.1,m.2)) =
      (s.fields.zip trees).map fun w => (Tree.ofString w.1.name,w.2) := by
    rw [List.zip_map_left,List.map_map]
    rfl
  have all : s.ofMembers [] s.start ((s.fields.zip trees).map fun w => (Tree.ofString w.1.name,w.2)) =
      (s.fields.zip trees).foldlM (fun d w => w.1.read w.2 d) s.start :=
    ofMembers_fields distinct (fun w member => (List.of_mem_zip member).1) (by rw [names_zip each]; exact distinct)
      (fun _ _ => List.not_mem_nil) s.start
  rw [Tree.ofMembers,members,Shape.read]
  simp only [bind,Except.bind,all,draft]
  rfl

end Shape

end Intake.Json
