import Intake.Proofs.Database.Refusal
import Intake.Proofs.Database.Repeats

/-!
What the statements for items hold. Together they insert a row for each item, the
entries and the hints of all, each once and in order, and delete the hints of those
items that have none (`Complete`), however the lists are cut into pieces
(`complete_itemStatements`).
-/
namespace Intake.Database

/-- The rows of `items` that a statement inserts. -/
def Statement.itemRows : Statement → List ItemRow
  | .insertItems rows => rows
  | _ => []

/-- The rows of `item_hints` that a statement inserts. -/
def Statement.hintRows : Statement → List HintRow
  | .insertHints rows => rows
  | _ => []

/-- The info hashes whose hints a statement deletes, if it deletes any. -/
def Statement.deletions : Statement → List (List InfoHash)
  | .deleteHints hashes => [hashes]
  | _ => []

/-- Statements that write some items, each once and in order: a row for each with its own size; of their entries those
    that are left when the last of each info hash and source takes the place of the first; the hints of the items that
    have one; and one deletion for those that have none, if there are any. -/
structure Complete (kept : List Item) (statements : List Statement) : Prop where
  items : (statements.flatMap Statement.itemRows).map (fun r => (r.infoHash,r.name,r.size,r.isPrivate,r.filesStatus)) =
    kept.map fun i => (i.infoHash,i.name,i.size.toNat,i.isPrivate,i.filesStatus)
  entries : Keyed.Collapsed (·.key) (kept.flatMap sourceRows) (statements.flatMap Statement.itemSourceRows)
  hints : statements.flatMap Statement.hintRows = kept.filterMap fun i => i.hint?.map (HintRow.mk i.infoHash)
  deletions : statements.flatMap Statement.deletions =
    if ∀ i ∈ kept, i.hint?.isSome then [] else [(kept.filter (·.hint?.isNone)).map (·.infoHash)]

theorem map_itemRows {items : List Item} {rows : List ItemRow} (all : itemRows items = .ok rows) :
    rows.map (fun r => (r.infoHash,r.name,r.size,r.isPrivate,r.filesStatus)) =
      items.map fun i => (i.infoHash,i.name,i.size.toNat,i.isPrivate,i.filesStatus) := by
  induction items generalizing rows with
  | nil =>
    cases all
    rfl
  | cons i rest ih =>
    by_cases fits : i.size.toNat < 0x8000000000000000
    · rw [itemRows_cons_of_lt fits] at all
      cases later : itemRows rest with
      | error cause =>
        rw [later] at all
        cases all
      | ok others =>
        rw [later] at all
        cases all
        rw [List.map_cons,List.map_cons,ih later]
    · rw [itemRows_cons_of_le (by omega)] at all
      cases all

theorem hashes_itemRows {items : List Item} {rows : List ItemRow} (all : itemRows items = .ok rows) :
    rows.map (·.infoHash) = items.map (·.infoHash) := by
  have same := congrArg (List.map (·.1)) (map_itemRows all)
  simpa [Function.comp_def] using same

theorem unhinted_eq_nil_iff {items : List Item} : unhinted items = [] ↔ ∀ i ∈ items, i.hint?.isSome = true := by
  simp [unhinted,Option.isSome_iff_ne_none]

theorem complete_itemStatements {items : List Item} {rows : List ItemRow} (all : itemRows items = .ok rows) :
    Complete items (itemStatements items rows) := by
  refine ⟨?_,?_,?_,?_⟩
  · rw [← map_itemRows all,itemStatements,List.flatMap_append,List.flatMap_append,List.flatMap_append,
      flatMap_pieces fun _ => rfl,flatMap_others fun _ => rfl,flatMap_others fun _ => rfl]
    split <;> simp [Statement.itemRows]
  · rw [itemSourceRows_itemStatements]
    exact Keyed.collapsed_lastAtFirst _ _
  · rw [itemStatements,List.flatMap_append,List.flatMap_append,List.flatMap_append,
      flatMap_others fun _ => rfl,flatMap_others fun _ => rfl,flatMap_pieces fun _ => rfl]
    split <;> simp [Statement.hintRows,Database.hintRows]
  · rw [itemStatements,List.flatMap_append,List.flatMap_append,List.flatMap_append,
      flatMap_others fun _ => rfl,flatMap_others fun _ => rfl,flatMap_others fun _ => rfl]
    by_cases known : ∀ i ∈ items, i.hint?.isSome = true
    · rw [if_pos known,unhinted_eq_nil_iff.mpr known]
      rfl
    · have some_ : (unhinted items).isEmpty = false := by simpa using mt unhinted_eq_nil_iff.mp known
      rw [if_neg known,some_]
      rfl

/-- The entries that are sent are those of which a database keeps the last. -/
theorem Complete.entries_eq {kept : List Item} {statements : List Statement} (complete : Complete kept statements) :
    statements.flatMap Statement.itemSourceRows = itemSourceRows kept :=
  (Keyed.collapsed_iff _).mp complete.entries

theorem Complete.hints_eq {kept : List Item} {statements : List Statement} (complete : Complete kept statements) :
    statements.flatMap Statement.hintRows = hintRows kept :=
  complete.hints

theorem Complete.around {kept : List Item} {statements : List Statement} (complete : Complete kept statements) :
    Complete kept (.begin :: statements ++ [.commit]) := by
  constructor
  · simpa [Statement.itemRows] using complete.items
  · simpa [Statement.itemSourceRows] using complete.entries
  · simpa [Statement.hintRows] using complete.hints
  · simpa [Statement.deletions] using complete.deletions

end Intake.Database
