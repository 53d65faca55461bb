import Intake.Database.Repository
import Intake.Proofs.Keyed
import Mathlib.Logic.Function.Basic

/-!
What statements do to the tables of the database. Of several entries that say what
their key holds the last has its way, wherever the others stand (`assign_lastAtFirst`).
A row that is inserted takes the place of the one with its key (`overwrite`), and so it
does no harm to send only the last with that key (`overwrite_lastAtFirst`). A server
that carries out every statement has in its tables what `upsertItems` sends
(`upsertItems_server`).
-/
namespace Intake.Database

section
variable {α κ β : Type} [DecidableEq κ] (key : α → κ) (value? : α → Option β)

/-- What is kept by key, after some entries have said in turn what their key holds, or that it holds nothing. -/
def assign (entries : List α) (kept : κ → Option β) : κ → Option β :=
  entries.foldl (fun kept a => Function.update kept (key a) (value? a)) kept

theorem assign_append (first rest : List α) (kept : κ → Option β) :
    assign key value? (first ++ rest) kept = assign key value? rest (assign key value? first kept) :=
  List.foldl_append

/-- The last entry with a key has its way. -/
theorem assign_apply (entries : List α) (kept : κ → Option β) (k : κ) :
    assign key value? entries kept k = (Keyed.find? key k entries.reverse).elim (kept k) value? := by
  induction entries generalizing kept with
  | nil => rfl
  | cons a rest ih =>
    have next := ih (Function.update kept (key a) (value? a))
    rw [assign] at next ⊢
    rw [List.foldl_cons,next,List.reverse_cons,Keyed.find?_append,Keyed.find?_singleton,Function.update_apply]
    cases Keyed.find? key k rest.reverse with
    | some later => rfl
    | none =>
      by_cases here : key a = k
      · simp [here]
      · simp [here,Ne.symm here]

/-- Of entries with one key the last is enough. -/
theorem assign_lastAtFirst (entries : List α) (kept : κ → Option β) :
    assign key value? (Keyed.lastAtFirst key entries) kept = assign key value? entries kept := by
  funext k
  rw [assign_apply,assign_apply,Keyed.find?_reverse key k (Keyed.nodup_lastAtFirst key entries),
    Keyed.find?_lastAtFirst]

end

/-- Rows by their keys, after some were written over what was there. -/
def overwrite {ρ κ β : Type} [DecidableEq κ] (key : ρ → κ) (value : ρ → β) (rows : List ρ) (kept : κ → Option β) :
    κ → Option β :=
  rows.foldl (fun kept r => Function.update kept (key r) (some (value r))) kept

section
variable {ρ κ β : Type} [DecidableEq κ] (key : ρ → κ) (value : ρ → β)

theorem overwrite_append (first rest : List ρ) (kept : κ → Option β) :
    overwrite key value (first ++ rest) kept = overwrite key value rest (overwrite key value first kept) :=
  List.foldl_append

/-- The last row with a key stays. -/
theorem overwrite_apply (rows : List ρ) (kept : κ → Option β) (k : κ) :
    overwrite key value rows kept k = ((Keyed.find? key k rows.reverse).map value).or (kept k) := by
  have written : overwrite key value rows kept k = _ := assign_apply key (fun r => some (value r)) rows kept k
  rw [written]
  cases Keyed.find? key k rows.reverse <;> rfl

/-- Of rows with one key it is enough to write the last. -/
theorem overwrite_lastAtFirst (rows : List ρ) (kept : κ → Option β) :
    overwrite key value (Keyed.lastAtFirst key rows) kept = overwrite key value rows kept :=
  assign_lastAtFirst key (fun r => some (value r)) rows kept

end

/-- The tables that items are written to, row by key. The rows are kept as they are given, with the instants of
    their entries to the nanosecond. What a statement binds for an instant, and so what a server keeps of it, are
    its microseconds (`ItemSourceRow.values`). -/
structure Tables where
  items : InfoHash → Option ItemRow := fun _ => none
  itemSources : InfoHash × String → Option ItemSource := fun _ => none
  hints : InfoHash → Option Enrichment := fun _ => none

def ItemSourceRow.key (r : ItemSourceRow) : InfoHash × String := (r.infoHash,r.entry.source)

/-- The rows of `item_sources` that a statement inserts. -/
def Statement.itemSourceRows : Statement → List ItemSourceRow
  | .insertItemSources rows => rows
  | _ => []

namespace Tables

/-- What a statement does. -/
def write (t : Tables) : Statement → Tables
  | .insertItems rows => { t with items := overwrite (·.infoHash) id rows t.items }
  | .insertItemSources rows => { t with itemSources := overwrite (·.key) (·.entry) rows t.itemSources }
  | .insertHints rows => { t with hints := overwrite (·.infoHash) (·.hint) rows t.hints }
  | .deleteHints hashes => { t with hints := fun h => if h ∈ hashes then none else t.hints h }
  | _ => t

/-- A server that carries out every statement. -/
def server : Server Tables := fun statement t => (.ok .done,t.write statement)

theorem sendAll_server (statements : List Statement) (t : Tables) :
    server.sendAll statements t = (.ok (),statements.foldl write t) := by
  induction statements generalizing t with
  | nil => rfl
  | cons statement rest ih => exact ih (t.write statement)

theorem transaction_server (statements : List Statement) (t : Tables) :
    server.transaction statements t = (.ok (),statements.foldl write t) := by
  have begun : server .begin t = (.ok .done,t) := rfl
  rw [Server.transaction,begun]
  simp only [sendAll_server,List.foldl_append,List.foldl_cons,List.foldl_nil,write]

theorem itemSources_foldl (statements : List Statement) (t : Tables) :
    (statements.foldl write t).itemSources =
      overwrite (·.key) (·.entry) (statements.flatMap Statement.itemSourceRows) t.itemSources := by
  induction statements generalizing t with
  | nil => rfl
  | cons statement rest ih =>
    rw [List.foldl_cons,ih,List.flatMap_cons,overwrite_append]
    cases statement <;> rfl

end Tables

/-! ### Items -/

/-- The sizes of all items fit the column. -/
def Fit (items : List Item) : Prop := ∀ i ∈ items, i.size.toNat < 0x8000000000000000

instance (items : List Item) : Decidable (Fit items) := by
  unfold Fit; infer_instance

theorem Fit.lastItems {items : List Item} (fit : Fit items) : Fit (lastItems items) :=
  fun i member => fit i (Keyed.mem_of_mem_lastAtFirst _ member)

theorem itemRows_of_fit {items : List Item} (fit : Fit items) : ∃ rows, itemRows items = .ok rows := by
  induction items with
  | nil => exact ⟨[],rfl⟩
  | cons i rest ih =>
    obtain ⟨rows,all⟩ := ih fun j member => fit j (List.mem_cons_of_mem _ member)
    have here := fit i List.mem_cons_self
    refine ⟨⟨i.infoHash,i.name,i.size.toNat,i.isPrivate,i.filesStatus,here⟩ :: rows,?_⟩
    rw [itemRows,ItemRow.ofItem,dif_pos here,all]
    rfl

section
variable {ρ : Type} {make : List ρ → Statement}

theorem flatMap_pieces {own : Statement → List ρ} (back : ∀ piece, own (make piece) = piece) (rows : List ρ) :
    ((chunks chunkSize rows).map make).flatMap own = rows := by
  have same : (fun piece => own (make piece)) = id := funext back
  rw [List.flatMap_map,same,List.flatMap_id,flatten_chunks]

theorem flatMap_others {α : Type} {f : Statement → List α} (none : ∀ piece, f (make piece) = [])
    (pieces : List (List ρ)) : (pieces.map make).flatMap f = [] := by
  simp [List.flatMap_map,none]

end

theorem itemSourceRows_itemStatements (items : List Item) (rows : List ItemRow) :
    (itemStatements items rows).flatMap Statement.itemSourceRows = itemSourceRows items := by
  rw [itemStatements,List.flatMap_append,List.flatMap_append,List.flatMap_append,flatMap_others fun _ => rfl,
    flatMap_pieces fun _ => rfl,flatMap_others fun _ => rfl]
  split <;> simp [Statement.itemSourceRows]

/-- Items that fit are written, by the statements for the last of each info hash. -/
theorem upsertItems_server {items : List Item} (fit : Fit items) (t : Tables) :
    ∃ rows, itemRows (lastItems items) = .ok rows ∧
      upsertItems Tables.server items t = (.ok (),(itemStatements (lastItems items) rows).foldl Tables.write t) := by
  obtain ⟨rows,all⟩ := itemRows_of_fit fit.lastItems
  refine ⟨rows,all,?_⟩
  by_cases empty : lastItems items = []
  · obtain rfl : rows = [] := by simpa [empty,itemRows,pure,Except.pure,eq_comm] using all
    simp [upsertItems,empty,itemStatements,itemSourceRows,hintRows,unhinted]
  · have filled : (lastItems items).isEmpty = false := by simpa using empty
    simp only [upsertItems,filled,all,Tables.transaction_server]
    rfl

end Intake.Database
