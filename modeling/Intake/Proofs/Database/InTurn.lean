import Intake.Proofs.Database.Provenance

/-!
Items and hints do not depend on how the items were batched. Of a batch the last
item of each info hash is written, in pieces, and what is known of its content is
inserted for some items and deleted for the others by statements of their own. All of
this leaves the two tables as if the items had been written in turn
(`upsert_in_turn`), so that a list of items may be split into batches anywhere.
-/
namespace Intake.Database

namespace Tables

/-- Writes an item: its row over the one with its info hash, and what is known of its content over what was,
    even if that is nothing. -/
def put (t : Tables) (i : Item) : Tables :=
  if fits : i.size.toNat < 0x8000000000000000 then
    { t with
      items := Function.update t.items i.infoHash
        (some ⟨i.infoHash,i.name,i.size.toNat,i.isPrivate,i.filesStatus,fits⟩)
      hints := Function.update t.hints i.infoHash i.hint? }
  else t

/-! ### Pieces -/

/-- Statements for the pieces of a list do what one for the whole of it does. -/
theorem foldl_pieces {ρ : Type} {make : List ρ → Statement} (none : ∀ t : Tables, t.write (make []) = t)
    (append : ∀ (t : Tables) first rest, (t.write (make first)).write (make rest) = t.write (make (first ++ rest)))
    (pieces : List (List ρ)) (t : Tables) : (pieces.map make).foldl write t = t.write (make pieces.flatten) := by
  induction pieces generalizing t with
  | nil => exact (none t).symm
  | cons piece rest ih => rw [List.map_cons,List.foldl_cons,ih,append,List.flatten_cons]

theorem foldl_itemStatements (items : List Item) (rows : List ItemRow) (t : Tables) :
    (itemStatements items rows).foldl write t =
      (((t.write (.insertItems rows)).write (.insertItemSources (itemSourceRows items))).write
        (.insertHints (hintRows items))).write (.deleteHints (unhinted items)) := by
  have whole {ρ : Type} (make : List ρ → Statement) (rows : List ρ) (none : ∀ t : Tables, t.write (make []) = t)
      (append : ∀ (t : Tables) first rest, (t.write (make first)).write (make rest) = t.write (make (first ++ rest)))
      (t : Tables) : ((chunks chunkSize rows).map make).foldl write t = t.write (make rows) := by
    rw [foldl_pieces none append,flatten_chunks]
  rw [itemStatements,List.foldl_append,List.foldl_append,List.foldl_append]
  rw [whole .insertItems rows,whole .insertItemSources,whole .insertHints]
  · by_cases all : unhinted items = []
    · simp [all,write]
    · simp [all]
  all_goals
    intros
    simp [write,overwrite]

end Tables

/-! ### Items -/

/-- The row of an item, if it has one. -/
def row? (i : Item) : Option ItemRow := (ItemRow.ofItem i).toOption

theorem overwrite_itemRows {items : List Item} {rows : List ItemRow} (all : itemRows items = .ok rows)
    (kept : InfoHash → Option ItemRow) :
    overwrite (·.infoHash) id rows kept = assign (·.infoHash) row? items kept := by
  induction items generalizing rows kept with
  | nil =>
    cases all
    rfl
  | cons i rest ih =>
    rw [itemRows] at all
    cases here : ItemRow.ofItem i with
    | error cause =>
      rw [here] at all
      cases all
    | ok row =>
      rw [here] at all
      cases later : itemRows rest with
      | error cause =>
        rw [later] at all
        cases all
      | ok tail =>
        rw [later] at all
        obtain rfl : row :: tail = rows := by simpa using Except.ok.inj all
        have hash : row.infoHash = i.infoHash := by
          rw [ItemRow.ofItem] at here
          split at here
          · cases here
            rfl
          · cases here
        have next := ih later (Function.update kept i.infoHash (some row))
        simp only [overwrite,assign,List.foldl_cons,hash,row?,here] at next ⊢
        exact next

/-! ### Hints -/

/-- Hints that are inserted for some items and deleted for the others are assigned to each, where no two
    items have one info hash. -/
theorem hints_of_distinct {items : List Item} (distinct : (items.map (·.infoHash)).Nodup)
    (kept : InfoHash → Option Enrichment) (h : InfoHash) :
    (if h ∈ unhinted items then none else overwrite (·.infoHash) (·.hint) (hintRows items) kept h) =
      assign (·.infoHash) (·.hint?) items kept h := by
  induction items generalizing kept with
  | nil => simp [unhinted,hintRows,overwrite,assign]
  | cons i rest ih =>
    rw [List.map_cons,List.nodup_cons] at distinct
    have next := ih distinct.2 (Function.update kept i.infoHash i.hint?)
    cases known : i.hint? with
    | some e =>
      have others : unhinted (i :: rest) = unhinted rest := by simp [unhinted,known]
      have first : hintRows (i :: rest) = ⟨i.infoHash,e⟩ :: hintRows rest := by simp [hintRows,known]
      rw [others,first]
      rw [known] at next
      simpa [overwrite,assign,known] using next
    | none =>
      have first : unhinted (i :: rest) = i.infoHash :: unhinted rest := by simp [unhinted,known]
      have others : hintRows (i :: rest) = hintRows rest := by simp [hintRows,known]
      have turn : assign (·.infoHash) (·.hint?) (i :: rest) kept h = _ := next.symm
      rw [first,others,turn,overwrite_apply,overwrite_apply,known]
      by_cases here : h = i.infoHash
      · have nowhere : Keyed.find? (·.infoHash) h (hintRows rest).reverse = none := by
          rw [Keyed.find?_eq_none,here]
          intro member
          refine distinct.1 ?_
          simp only [hintRows,List.map_reverse,List.mem_reverse,List.mem_map,List.mem_filterMap,
            Option.map_eq_some_iff] at member
          obtain ⟨row,⟨j,there,e,-,rfl⟩,same⟩ := member
          exact same ▸ List.mem_map_of_mem there
        rw [nowhere]
        simp [here]
      · simp [here]

/-! ### Batches -/

theorem items_upsert {items : List Item} (fit : Fit items) (t : Tables) :
    (upsert items t).items = assign (·.infoHash) row? items t.items := by
  obtain ⟨rows,all,written⟩ := upsertItems_server fit t
  rw [upsert,written,Tables.foldl_itemStatements]
  calc overwrite (·.infoHash) id rows t.items
    _ = assign (·.infoHash) row? (lastItems items) t.items := overwrite_itemRows all t.items
    _ = assign (·.infoHash) row? items t.items := assign_lastAtFirst _ _ items t.items

theorem hints_upsert {items : List Item} (fit : Fit items) (t : Tables) :
    (upsert items t).hints = assign (·.infoHash) (·.hint?) items t.hints := by
  obtain ⟨rows,-,written⟩ := upsertItems_server fit t
  have distinct : ((lastItems items).map (·.infoHash)).Nodup := Keyed.nodup_lastAtFirst _ _
  rw [upsert,written,Tables.foldl_itemStatements]
  calc (fun h => if h ∈ unhinted (lastItems items) then none
          else overwrite (·.infoHash) (·.hint) (hintRows (lastItems items)) t.hints h)
    _ = assign (·.infoHash) (·.hint?) (lastItems items) t.hints := funext fun h => hints_of_distinct distinct t.hints h
    _ = assign (·.infoHash) (·.hint?) items t.hints := assign_lastAtFirst _ _ items t.hints

theorem put_of_fit {i : Item} (fits : i.size.toNat < 0x8000000000000000) (t : Tables) :
    (t.put i).items = Function.update t.items i.infoHash (row? i) ∧
      (t.put i).hints = Function.update t.hints i.infoHash i.hint? := by
  simp [Tables.put,row?,ItemRow.ofItem,fits,Except.toOption]

theorem foldl_put {items : List Item} (fit : Fit items) (t : Tables) :
    (items.foldl Tables.put t).items = assign (·.infoHash) row? items t.items ∧
      (items.foldl Tables.put t).hints = assign (·.infoHash) (·.hint?) items t.hints := by
  induction items generalizing t with
  | nil => exact ⟨rfl,rfl⟩
  | cons i rest ih =>
    obtain ⟨item,hint⟩ := put_of_fit (fit i List.mem_cons_self) t
    obtain ⟨items,hints⟩ := ih (fun j member => fit j (List.mem_cons_of_mem i member)) (t.put i)
    rw [List.foldl_cons,items,hints,item,hint]
    exact ⟨rfl,rfl⟩

theorem foldl_upsert {pieces : List (List Item)} (fit : Fit pieces.flatten) (t : Tables) :
    (pieces.foldl (fun t piece => upsert piece t) t).items = assign (·.infoHash) row? pieces.flatten t.items ∧
      (pieces.foldl (fun t piece => upsert piece t) t).hints =
        assign (·.infoHash) (·.hint?) pieces.flatten t.hints := by
  induction pieces generalizing t with
  | nil => exact ⟨rfl,rfl⟩
  | cons piece rest ih =>
    rw [List.flatten_cons] at fit ⊢
    have here : Fit piece := fun i member => fit i (List.mem_append_left _ member)
    obtain ⟨items,hints⟩ := ih (fun i member => fit i (List.mem_append_right _ member)) (upsert piece t)
    rw [List.foldl_cons,items,hints,items_upsert here,hints_upsert here,assign_append,assign_append]
    exact ⟨rfl,rfl⟩

/-- Items that fit are written, and the tables of items and of hints are then what they are when the items are
    written in turn, whatever stood in them before. So they are the same however the items are split into
    batches. -/
theorem upsert_in_turn {items : List Item} (fit : Fit items) (t : Tables) :
    (upsertItems Tables.server items t).1 = .ok () ∧
      (upsert items t).items = (items.foldl Tables.put t).items ∧
      (upsert items t).hints = (items.foldl Tables.put t).hints ∧
      ∀ batches : List (List Item), batches.flatten = items →
        (batches.foldl (fun t batch => upsert batch t) t).items = (upsert items t).items ∧
          (batches.foldl (fun t batch => upsert batch t) t).hints = (upsert items t).hints := by
  obtain ⟨rows,-,written⟩ := upsertItems_server fit t
  obtain ⟨itemsPut,hintsPut⟩ := foldl_put fit t
  refine ⟨by rw [written],?_,?_,?_⟩
  · rw [items_upsert fit,itemsPut]
  · rw [hints_upsert fit,hintsPut]
  · rintro batches rfl
    rw [items_upsert fit,hints_upsert fit]
    exact foldl_upsert fit t

/-- An item is written with a hint, then twice without and with one in turn, over a hint that was there. -/
theorem upsert_in_turn_hinted :
    let known : Item := { discovered "dht" with hint? := some (.bare .movie) }
    let other : Item := { discovered "dht" with infoHash := ⟨List.replicate 20 2,List.length_replicate⟩ }
    let items := [known,other,discovered "rss",{ other with hint? := some (.bare .music) }]
    let t : Tables := { hints := fun _ => some (.bare .game) }
    Fit items ∧ (upsert items t).hints known.infoHash = none ∧
      (upsert items t).hints other.infoHash = some (.bare .music) := by
  intro known other items t
  have fit : Fit items := by decide
  have hints := (upsert_in_turn fit t).2.2.1
  refine ⟨fit,?_,?_⟩
  · rw [hints]
    decide
  · rw [hints]
    decide

end Intake.Database
