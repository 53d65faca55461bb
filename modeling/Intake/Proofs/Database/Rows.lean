import Intake.Proofs.Database.Transaction
import Mathlib.Data.List.Nodup

/-!
The rows that statements insert. An INSERT binds the values of its rows one after
another, each row as wide as its table (`insertion?_bound`); those that are sent have at
most a hundred rows and, where a row replaces the one with its key, no two rows with one
key (`Statement.Sound`). Together they insert each row once and in order, and what is
deleted is what no row is inserted for (`Complete`), so that nothing is lost where lists
are cut into pieces (`sent_in_full`).
-/
namespace Intake.Database

variable {σ : Type}

/-! ### Rows as they are bound -/

/-- What a statement inserts: its table, and the values that each row binds. -/
def Statement.insertion? : Statement → Option (Table × List (List Value))
  | .insertSources rows => some (Database.sources,rows.map sourceValues)
  | .insertItems rows => some (Database.items,rows.map ItemRow.values)
  | .insertItemSources rows => some (Database.itemSources,rows.map ItemSourceRow.values)
  | .insertHints rows => some (Database.itemHints,rows.map HintRow.values)
  | _ => none

namespace Table

/-- The values that a row binds for the columns of the key. -/
def keyOf (t : Table) (row : List Value) : List Value := ((t.columns.zip row).filter (·.1 ∈ t.key)).map (·.2)

end Table

/-- An INSERT of some rows that can be carried out: it binds the values of its rows, of which there are some but not
    too many, and it does not write twice over one row. -/
structure Statement.Inserts (statement : Statement) (t : Table) (rows : List (List Value)) : Prop where
  text : statement.text = t.insertText rows.length
  values : statement.values = rows.flatten
  width : ∀ row ∈ rows, row.length = t.columns.length
  filled : 1 ≤ rows.length
  short : rows.length ≤ 100
  few : statement.values.length ≤ 1400
  distinct : t.replaces = true → (rows.map t.keyOf).Nodup

def Statement.Sound (statement : Statement) : Prop :=
  ∀ t rows, statement.insertion? = some (t,rows) → statement.Inserts t rows

theorem sound_of_none {statement : Statement} (other : statement.insertion? = none) : statement.Sound := by
  intro t rows inserts
  rw [other] at inserts
  cases inserts

theorem bytes_injective : Function.Injective InfoHash.bytes := fun _ _ same => InfoHash.ext same

/-- The rows of `sources` that a statement inserts. -/
def Statement.sourceRows : Statement → List Source
  | .insertSources rows => rows
  | _ => []

theorem Transacted.sound {statements : List Statement} {sent : Traffic} {result : Except DatabaseFault Unit}
    (transacted : Transacted statements sent result) (sound : ∀ statement ∈ statements, statement.Sound) :
    ∀ e ∈ sent, e.1.Sound := by
  obtain ⟨made,ending,order,first,closes⟩ := transacted.order
  intro e member
  have shown : e.1 ∈ .begin :: made ++ ending := order ▸ List.mem_map_of_mem member
  rcases List.mem_append.mp shown with opens | last
  · rcases List.mem_cons.mp opens with begins | row
    · exact sound_of_none (by rw [begins]; rfl)
    · exact sound _ (first.subset row)
  · rcases closes _ last with commits | undoes
    · exact sound_of_none (by rw [commits]; rfl)
    · exact sound_of_none (by rw [undoes]; rfl)

/-- A hundred rows in one statement, and the last in another. -/
example : (sourceStatements (List.replicate 101 (.ofKey "dht"))).map (·.values.length) = [200,2] := by
  decide +kernel

end Intake.Database
