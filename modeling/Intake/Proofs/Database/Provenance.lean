import Intake.Proofs.Database.Tables

/-!
Where items were discovered, as `item_sources` tells it. Items that are written one
by one leave behind the last entry of every pair of an info hash and a source. Items
that are written at once leave behind the entries of the last item of each info
hash only (`itemSources_upsert`): what earlier items of the same info hash say of
other sources is not written. That is the only difference.
-/
namespace Intake.Database

/-- The rows of `item_sources` of an item. -/
def sourceRows (i : Item) : List ItemSourceRow := i.sources.map (ItemSourceRow.mk i.infoHash)

/-- The last item with an info hash. -/
def lastItem? (items : List Item) (h : InfoHash) : Option Item := Keyed.find? (·.infoHash) h items.reverse

/-- The last entry of an item for a source. -/
def entryOf? (i : Item) (source : String) : Option ItemSource := Keyed.find? (·.source) source i.sources.reverse

/-- The last entry for a pair of an info hash and a source. -/
def latest? (items : List Item) (k : InfoHash × String) : Option ItemSource :=
  (Keyed.find? (·.key) k (items.flatMap sourceRows).reverse).map (·.entry)

/-- The tables after items were written at once. -/
def upsert (items : List Item) (t : Tables) : Tables := (upsertItems Tables.server items t).2

/-- The tables after items were written one by one. -/
def upsertEach (items : List Item) (t : Tables) : Tables := items.foldl (fun t i => upsert [i] t) t

/-! ### The last entry -/

theorem find?_sourceRows (i : Item) (k : InfoHash × String) :
    (Keyed.find? (·.key) k (sourceRows i).reverse).map (·.entry) =
      if i.infoHash = k.1 then entryOf? i k.2 else none := by
  rw [sourceRows,← List.map_reverse,entryOf?]
  induction i.sources.reverse with
  | nil => simp
  | cons e rest ih =>
    rw [List.map_cons,Keyed.find?_cons,Keyed.find?_cons]
    by_cases hash : i.infoHash = k.1
    · rw [if_pos hash] at ih ⊢
      by_cases source : e.source = k.2
      · have here : (ItemSourceRow.mk i.infoHash e).key = k := Prod.ext hash source
        rw [if_pos here,if_pos source]
        rfl
      · have other : (ItemSourceRow.mk i.infoHash e).key ≠ k := fun same => source (congrArg Prod.snd same)
        rw [if_neg other,if_neg source]
        exact ih
    · have other : (ItemSourceRow.mk i.infoHash e).key ≠ k := fun same => hash (congrArg Prod.fst same)
      rw [if_neg other]
      exact ih.trans (by simp [hash])

theorem latest?_cons (i : Item) (rest : List Item) (k : InfoHash × String) :
    latest? (i :: rest) k = (latest? rest k).or (if i.infoHash = k.1 then entryOf? i k.2 else none) := by
  rw [latest?,List.flatMap_cons,List.reverse_append,Keyed.find?_append,Option.map_or,find?_sourceRows]
  rfl

theorem lastItem?_cons (i : Item) (rest : List Item) (h : InfoHash) :
    lastItem? (i :: rest) h = (lastItem? rest h).or (if i.infoHash = h then some i else none) := by
  rw [lastItem?,List.reverse_cons,Keyed.find?_append,Keyed.find?_singleton]
  rfl

/-- Where no two items have one info hash, the last entry is that of the item. -/
theorem latest?_of_nodup {items : List Item} (distinct : (items.map (·.infoHash)).Nodup)
    (k : InfoHash × String) : latest? items k = (lastItem? items k.1).bind (entryOf? · k.2) := by
  induction items with
  | nil => rfl
  | cons i rest ih =>
    rw [List.map_cons,List.nodup_cons] at distinct
    rw [latest?_cons,lastItem?_cons,ih distinct.2]
    by_cases here : i.infoHash = k.1
    · have nowhere : lastItem? rest k.1 = none := by
        rw [lastItem?,Keyed.find?_eq_none,← here]
        simpa using distinct.1
      simp [nowhere,here]
    · simp [here]

theorem latest?_of_none {items : List Item} {k : InfoHash × String} (nowhere : lastItem? items k.1 = none) :
    latest? items k = none := by
  induction items with
  | nil => rfl
  | cons i rest ih =>
    rw [lastItem?_cons,Option.or_eq_none_iff] at nowhere
    have other : i.infoHash ≠ k.1 := by simpa using nowhere.2
    rw [latest?_cons,ih nowhere.1,if_neg other]
    rfl

/-- The last entry of the last item with an info hash is the last for its pair. -/
theorem latest?_of_lastItem? {items : List Item} {k : InfoHash × String} {e : ItemSource}
    (kept : (lastItem? items k.1).bind (entryOf? · k.2) = some e) : latest? items k = some e := by
  induction items with
  | nil => cases kept
  | cons i rest ih =>
    rw [lastItem?_cons] at kept
    rw [latest?_cons]
    cases later : lastItem? rest k.1 with
    | some j =>
      rw [later] at kept
      rw [ih (by rw [later]; exact kept)]
      rfl
    | none =>
      rw [later,Option.none_or] at kept
      rw [latest?_of_none later,Option.none_or]
      by_cases here : i.infoHash = k.1
      · rw [if_pos here] at kept ⊢
        exact kept
      · rw [if_neg here] at kept
        cases kept

theorem lastItem?_lastItems (items : List Item) (h : InfoHash) : lastItem? (lastItems items) h = lastItem? items h := by
  rw [lastItem?,lastItems,Keyed.find?_reverse _ _ (Keyed.nodup_lastAtFirst _ _)]
  exact Keyed.find?_lastAtFirst _ h items

/-! ### The table -/

theorem itemSources_of_rows {items : List Item} (fit : Fit items) (t : Tables) :
    (upsert items t).itemSources =
      overwrite (·.key) (·.entry) ((lastItems items).flatMap sourceRows) t.itemSources := by
  obtain ⟨rows,-,written⟩ := upsertItems_server fit t
  rw [upsert,written,Tables.itemSources_foldl,itemSourceRows_itemStatements]
  exact overwrite_lastAtFirst _ _ _ _

theorem itemSources_upsert {items : List Item} (fit : Fit items) (t : Tables) (k : InfoHash × String) :
    (upsert items t).itemSources k = ((lastItem? items k.1).bind (entryOf? · k.2)).or (t.itemSources k) := by
  have distinct : ((lastItems items).map (·.infoHash)).Nodup := Keyed.nodup_lastAtFirst _ _
  rw [itemSources_of_rows fit,overwrite_apply,← lastItem?_lastItems,← latest?_of_nodup distinct,latest?]

theorem itemSources_upsertEach {items : List Item} (fit : Fit items) (t : Tables) (k : InfoHash × String) :
    (upsertEach items t).itemSources k = (latest? items k).or (t.itemSources k) := by
  induction items generalizing t with
  | nil => rfl
  | cons i rest ih =>
    have alone : Fit [i] := by
      intro j member
      rw [List.mem_singleton] at member
      exact fit j (member ▸ List.mem_cons_self)
    have first : lastItem? [i] k.1 = if i.infoHash = k.1 then some i else none := Keyed.find?_singleton _ _ _
    rw [upsertEach,List.foldl_cons]
    rw [← upsertEach,ih (fun j member => fit j (List.mem_cons_of_mem i member)),itemSources_upsert alone,
      latest?_cons,Option.or_assoc,first]
    split <;> rfl

/-- Items that fit are written, and at every pair the table holds the last entry of the last item with the
    info hash, which is then the last for the pair, or what it held before. It is the table of items that are
    written one by one just if the entries that earlier items alone have were there already. -/
theorem itemSources_at_once {items : List Item} (fit : Fit items) (t : Tables) :
    (upsertItems Tables.server items t).1 = .ok () ∧
      (∀ k, (upsert items t).itemSources k =
        ((lastItem? items k.1).bind (entryOf? · k.2)).or (t.itemSources k)) ∧
      (∀ k e, (lastItem? items k.1).bind (entryOf? · k.2) = some e → latest? items k = some e) ∧
      ((upsert items t).itemSources = (upsertEach items t).itemSources ↔
        ∀ k e, latest? items k = some e → (lastItem? items k.1).bind (entryOf? · k.2) = none →
          t.itemSources k = some e) := by
  obtain ⟨rows,-,written⟩ := upsertItems_server fit t
  refine ⟨by rw [written],itemSources_upsert fit t,fun k e => latest?_of_lastItem?,?_⟩
  constructor
  · intro same k e last dropped
    have here := congrFun same k
    rw [itemSources_upsert fit,itemSources_upsertEach fit,last,dropped] at here
    exact here
  · intro known
    funext k
    rw [itemSources_upsert fit,itemSources_upsertEach fit]
    cases kept : (lastItem? items k.1).bind (entryOf? · k.2) with
    | some e => rw [latest?_of_lastItem? kept]
    | none =>
      cases last : latest? items k with
      | none => rfl
      | some e => exact known k e last kept

/-- An item that a source has discovered. -/
def discovered (source : String) : Item where
  infoHash := ⟨List.replicate 20 1,List.length_replicate⟩
  name := ""
  size := .ofNat 1
  isPrivate := false
  filesStatus := .noInfo
  sources := [⟨source,some "nightly",⟨⟨2024,4,25,by decide⟩,43200,0,by decide⟩⟩]
  hint? := none

theorem fit_discovered : Fit [discovered "dht",discovered "rss"] := by decide

theorem itemSources_at_once_discovered :
    Fit [discovered "dht",discovered "rss"] ∧
      (upsert [discovered "dht",discovered "rss"] {}).itemSources ((discovered "rss").infoHash,"rss") =
        (discovered "rss").sources.head? :=
  ⟨fit_discovered,((itemSources_at_once fit_discovered {}).2.1 _).trans rfl⟩

/-- Of an item that two sources have discovered only the second is told when both are written at once. -/
theorem itemSources_depend_on_batches :
    ¬ ∀ (items : List Item) (t : Tables), Fit items →
      (upsert items t).itemSources = (upsertEach items t).itemSources := by
  intro same
  have here := congrFun (same _ {} fit_discovered) ((discovered "dht").infoHash,"dht")
  rw [itemSources_upsert fit_discovered,itemSources_upsertEach fit_discovered] at here
  exact absurd here (by decide)

end Intake.Database
