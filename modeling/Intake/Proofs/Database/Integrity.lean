import Intake.Proofs.Database.Rows

/-!
The rows that are sent for a batch of valid records meet the rules of the tables that
they are for (`Integral`). What a row binds is found by the name of its column
(`Table.bound?`). An info hash has twenty bytes and a size fits its column. An entry or a
hint comes behind the row of its item, in one transaction, since all rows of items come
first (`inserted_before`). Of each item that is written the hint is either inserted or
deleted, since the two are told apart by what is known of the item (`rows_integral`).
-/
namespace Intake.Database

variable {σ : Type}

/-- The value that a row binds for a column. -/
def Table.bound? (t : Table) (column : String) (row : List Value) : Option Value := (t.columns.zip row).lookup column

/-- The statement inserts this row into the table. -/
def Statement.Binds (statement : Statement) (t : Table) (row : List Value) : Prop :=
  ∃ rows, statement.insertion? = some (t,rows) ∧ row ∈ rows

/-- A row with this info hash is inserted into the table. -/
def Inserted (t : Table) (statements : List Statement) (hash : List UInt8) : Prop :=
  ∃ statement ∈ statements, ∃ row, statement.Binds t row ∧ t.bound? "info_hash" row = some (.bytes hash)

/-- The hint of this info hash is deleted. -/
def Deleted (statements : List Statement) (hash : List UInt8) : Prop :=
  ∃ hashes, .deleteHints hashes ∈ statements ∧ hash ∈ hashes.map (·.bytes)

/-- Statements whose rows meet the rules of their tables. -/
structure Integral (statements : List Statement) : Prop where
  sizes : ∀ statement ∈ statements, ∀ row, statement.Binds items row →
    ∃ hash size, items.bound? "info_hash" row = some (.bytes hash) ∧ hash.length = 20 ∧
      items.bound? "size" row = some (.integer size) ∧ 0 ≤ size ∧ size ≤ 0x7FFFFFFFFFFFFFFF
  /-- An entry or a hint refers to an item that was inserted since the transaction began. -/
  references : ∀ before statement after, statements = before ++ statement :: after →
    ∀ t row, t = itemSources ∨ t = itemHints → statement.Binds t row →
      ∃ earlier hash, before = .begin :: earlier ∧ (∀ other ∈ earlier, other.isOfItems = true) ∧
        t.bound? "info_hash" row = some (.bytes hash) ∧ Inserted items earlier hash
  /-- An outside catalogue and the name in it are known together, and a year has four digits. -/
  content : ∀ statement ∈ statements, ∀ row, statement.Binds itemHints row →
    ∃ source id year, itemHints.bound? "content_source" row = some source ∧
      itemHints.bound? "content_id" row = some id ∧ itemHints.bound? "release_year" row = some year ∧
      (source = .null ↔ id = .null) ∧ (year = .null ∨ ∃ n, year = .integer n ∧ 1000 ≤ n ∧ n ≤ 9999)
  apart : ∀ hash, Inserted itemHints statements hash → ¬ Deleted statements hash

/-! ### What rows bind -/

section
variable {statement : Statement} {row : List Value}

theorem binds_items : statement.Binds items row ↔ ∃ r ∈ statement.itemRows, r.values = row := by
  cases statement <;>
    simp [Statement.Binds,Statement.insertion?,Statement.itemRows,sources,items,itemSources,itemHints]

theorem binds_itemSources : statement.Binds itemSources row ↔ ∃ r ∈ statement.itemSourceRows, r.values = row := by
  cases statement <;>
    simp [Statement.Binds,Statement.insertion?,Statement.itemSourceRows,sources,items,itemSources,itemHints]

theorem binds_itemHints : statement.Binds itemHints row ↔ ∃ r ∈ statement.hintRows, r.values = row := by
  cases statement <;>
    simp [Statement.Binds,Statement.insertion?,Statement.hintRows,sources,items,itemSources,itemHints]

/-- All rows but those of sources are sent in a transaction of items. -/
theorem isOfItems_of_binds {t : Table} (other : t.name ≠ sources.name) (binds : statement.Binds t row) :
    statement.isOfItems = true := by
  obtain ⟨rows,inserts,-⟩ := binds
  cases statement with
  | insertSources =>
    obtain ⟨rfl,-⟩ := Prod.mk.inj (Option.some.inj inserts)
    exact absurd rfl other
  | insertItems | insertItemSources | insertHints => rfl
  | _ => cases inserts

end

section
variable {statements : List Statement} {hash : List UInt8}

/-- What is inserted into a table can be seen from the rows of the statements. -/
theorem inserted_of_binds {ρ : Type} {t : Table} {own : Statement → List ρ} {values : ρ → List Value}
    {infoHash : ρ → InfoHash}
    (binds : ∀ statement row, Statement.Binds statement t row ↔ ∃ r ∈ own statement, values r = row)
    (bound : ∀ r, t.bound? "info_hash" (values r) = some (.bytes (infoHash r).bytes)) :
    Inserted t statements hash ↔ ∃ r ∈ statements.flatMap own, (infoHash r).bytes = hash := by
  constructor
  · rintro ⟨statement,member,row,inserts,named⟩
    obtain ⟨r,inside,rfl⟩ := (binds statement row).mp inserts
    rw [bound r] at named
    cases named
    exact ⟨r,List.mem_flatMap.mpr ⟨statement,member,inside⟩,rfl⟩
  · rintro ⟨r,inside,rfl⟩
    obtain ⟨statement,member,inside⟩ := List.mem_flatMap.mp inside
    exact ⟨statement,member,values r,(binds statement (values r)).mpr ⟨r,inside,rfl⟩,bound r⟩

theorem inserted_items : Inserted items statements hash ↔
    ∃ r ∈ statements.flatMap Statement.itemRows, r.infoHash.bytes = hash :=
  inserted_of_binds (fun _ _ => binds_items) fun _ => rfl

theorem inserted_itemHints : Inserted itemHints statements hash ↔
    ∃ r ∈ statements.flatMap Statement.hintRows, r.infoHash.bytes = hash :=
  inserted_of_binds (fun _ _ => binds_itemHints) fun _ => rfl

theorem deleted_iff : Deleted statements hash ↔
    ∃ hashes ∈ statements.flatMap Statement.deletions, hash ∈ hashes.map (·.bytes) := by
  constructor
  · rintro ⟨hashes,member,inside⟩
    exact ⟨hashes,List.mem_flatMap.mpr ⟨_,member,List.mem_singleton_self hashes⟩,inside⟩
  · rintro ⟨hashes,member,inside⟩
    obtain ⟨statement,member,shown⟩ := List.mem_flatMap.mp member
    cases statement with
    | deleteHints others =>
      obtain rfl := List.mem_singleton.mp shown
      exact ⟨hashes,member,inside⟩
    | _ => cases shown

end

/-! ### Complete statements -/

theorem mem_hintRows {items : List Item} {r : HintRow} :
    r ∈ hintRows items ↔ ∃ i ∈ items, i.hint? = some r.hint ∧ i.infoHash = r.infoHash := by
  simp only [hintRows,List.mem_filterMap,Option.map_eq_some_iff]
  constructor
  · rintro ⟨i,member,e,known,rfl⟩
    exact ⟨i,member,known,rfl⟩
  · rintro ⟨i,member,known,same⟩
    exact ⟨i,member,r.hint,known,by rw [same]⟩

theorem mem_unhinted {items : List Item} {h : InfoHash} :
    h ∈ unhinted items ↔ ∃ i ∈ items, i.hint? = none ∧ i.infoHash = h := by
  simp [unhinted,and_assoc]

theorem mem_itemSourceRows {items : List Item} {r : ItemSourceRow} (member : r ∈ itemSourceRows items) :
    ∃ i ∈ items, i.infoHash = r.infoHash := by
  have entry := Keyed.mem_of_mem_lastAtFirst _ member
  obtain ⟨i,inside,entry⟩ := List.mem_flatMap.mp entry
  obtain ⟨e,-,rfl⟩ := List.mem_map.mp entry
  exact ⟨i,inside,rfl⟩

namespace Complete

variable {kept : List Item} {statements : List Statement} {hash : List UInt8}

theorem inserted_items_iff (complete : Complete kept statements) :
    Inserted Database.items statements hash ↔ ∃ i ∈ kept, i.infoHash.bytes = hash := by
  have same : (statements.flatMap Statement.itemRows).map (·.infoHash.bytes) = kept.map (·.infoHash.bytes) := by
    simpa [Function.comp_def] using congrArg (List.map fun r => r.1.bytes) complete.items
  rw [inserted_items,← List.mem_map,same,List.mem_map]

theorem inserted_itemHints_iff (complete : Complete kept statements) :
    Inserted itemHints statements hash ↔ ∃ i ∈ kept, i.hint?.isSome = true ∧ i.infoHash.bytes = hash := by
  rw [inserted_itemHints,complete.hints_eq]
  constructor
  · rintro ⟨r,member,rfl⟩
    obtain ⟨i,inside,known,same⟩ := mem_hintRows.mp member
    exact ⟨i,inside,by rw [known]; rfl,by rw [same]⟩
  · rintro ⟨i,inside,known,rfl⟩
    obtain ⟨e,known⟩ := Option.isSome_iff_exists.mp known
    exact ⟨⟨i.infoHash,e⟩,mem_hintRows.mpr ⟨i,inside,known,rfl⟩,rfl⟩

theorem deleted_iff (complete : Complete kept statements) :
    Deleted statements hash ↔ ∃ i ∈ kept, i.hint? = none ∧ i.infoHash.bytes = hash := by
  have listed : Deleted statements hash ↔ hash ∈ (unhinted kept).map (·.bytes) := by
    rw [Database.deleted_iff,complete.deletions]
    by_cases known : ∀ i ∈ kept, i.hint?.isSome = true
    · simp [if_pos known,unhinted_eq_nil_iff.mpr known]
    · rw [if_neg known]
      simp [unhinted]
  rw [listed,List.mem_map]
  constructor
  · rintro ⟨h,member,rfl⟩
    obtain ⟨i,inside,unknown,rfl⟩ := mem_unhinted.mp member
    exact ⟨i,inside,unknown,rfl⟩
  · rintro ⟨i,inside,unknown,rfl⟩
    exact ⟨i.infoHash,mem_unhinted.mpr ⟨i,inside,unknown,rfl⟩,rfl⟩

theorem inserted_iff (complete : Complete kept statements) :
    Inserted Database.items statements hash ↔ Inserted itemHints statements hash ∨ Deleted statements hash := by
  rw [complete.inserted_items_iff,complete.inserted_itemHints_iff,complete.deleted_iff]
  constructor
  · rintro ⟨i,inside,same⟩
    cases known : i.hint? with
    | none => exact .inr ⟨i,inside,known,same⟩
    | some e => exact .inl ⟨i,inside,by rw [known]; rfl,same⟩
  · rintro (⟨i,inside,-,same⟩ | ⟨i,inside,-,same⟩)
    · exact ⟨i,inside,same⟩
    · exact ⟨i,inside,same⟩

theorem apart (complete : Complete kept statements) (distinct : (kept.map (·.infoHash)).Nodup)
    (inserted : Inserted itemHints statements hash) : ¬ Deleted statements hash := by
  intro deleted
  obtain ⟨i,inside,known,rfl⟩ := complete.inserted_itemHints_iff.mp inserted
  obtain ⟨j,other,unknown,same⟩ := complete.deleted_iff.mp deleted
  -- The two have one info hash and are one item.
  have found := Keyed.find?_of_mem (·.infoHash) distinct inside
  rw [← bytes_injective same,Keyed.find?_of_mem (·.infoHash) distinct other] at found
  obtain rfl := Option.some.inj found
  rw [unknown] at known
  cases known

end Complete

/-! ### What is sent in a transaction -/

namespace Transacted

variable {statements : List Statement} {sent : Traffic} {result : Except DatabaseFault Unit}

/-- A row statement that is sent stands behind BEGIN and the statements before it. -/
theorem split_of_sent (transacted : Transacted statements sent result) {before after : List Statement}
    {statement : Statement} (split : sent.map (·.1) = before ++ statement :: after)
    (row : statement.isOfItems = true) : ∃ earlier rest, before = .begin :: earlier ∧
      statements = earlier ++ statement :: rest := by
  obtain ⟨made,ending,order,⟨left,rfl⟩,closes⟩ := transacted.order
  have no_ending : statement ∉ ending := by
    intro member
    rcases closes statement member with rfl | rfl <;> cases row
  rw [order] at split
  cases before with
  | nil =>
    obtain ⟨rfl,-⟩ := List.cons.inj split
    cases row
  | cons first earlier =>
    rw [List.cons_append,List.cons_append] at split
    obtain ⟨rfl,same⟩ := List.cons.inj split
    rcases List.append_eq_append_iff.mp same with ⟨more,-,last⟩ | ⟨more,here,last⟩
    · exact absurd (last ▸ List.mem_append_right more List.mem_cons_self) no_ending
    · cases more with
      | nil =>
        have ends : ending = statement :: after := last.symm
        exact absurd (ends ▸ List.mem_cons_self) no_ending
      | cons other more =>
        obtain ⟨rfl,-⟩ := List.cons.inj last
        exact ⟨earlier,more ++ left,rfl,by rw [here,List.append_assoc,List.cons_append]⟩

theorem mem_of_sent (transacted : Transacted statements sent result) {statement : Statement}
    (member : statement ∈ sent.map (·.1)) (row : statement.isOfItems = true) : statement ∈ statements := by
  obtain ⟨before,after,split⟩ := List.append_of_mem member
  obtain ⟨earlier,rest,-,rfl⟩ := transacted.split_of_sent split row
  exact List.mem_append_right earlier List.mem_cons_self

/-- Where the transaction was committed, all was sent. -/
theorem sent_of_ok (transacted : Transacted statements sent result)
    (done : result.mapError Failure.database = .ok ()) : sent.map (·.1) = .begin :: statements ++ [.commit] := by
  cases transacted with
  | unbegun | undone | uncommitted => cases done
  | committed well all => simp [all]

end Transacted

section
variable {kept : List Item} {rows : List ItemRow}

/-- Items are inserted before anything refers to them. -/
theorem inserted_before (all : itemRows kept = .ok rows) {before after : List Statement} {statement : Statement}
    (split : itemStatements kept rows = before ++ statement :: after) (other : statement.itemRows = []) {i : Item}
    (member : i ∈ kept) : Inserted items before i.infoHash.bytes := by
  have filled : ∀ insert ∈ (chunks chunkSize rows).map Statement.insertItems, insert.itemRows ≠ [] := by
    intro insert member empty
    obtain ⟨piece,inside,rfl⟩ := List.mem_map.mp member
    have long := (length_of_mem_chunks (by decide : 0 < chunkSize) inside).1
    rw [show piece = [] from empty] at long
    cases long
  rw [itemStatements,List.append_assoc,List.append_assoc] at split
  obtain ⟨more,rfl⟩ := prefix_of_none split other filled
  have hash : i.infoHash ∈ rows.map (·.infoHash) := by
    rw [hashes_itemRows all]
    exact List.mem_map_of_mem member
  obtain ⟨r,inside,same⟩ := List.mem_map.mp hash
  refine inserted_items.mpr ⟨r,?_,by rw [same]⟩
  rw [List.flatMap_append,flatMap_pieces fun _ => rfl]
  exact List.mem_append_left _ inside

/-- An entry or a hint that is inserted refers to an item. -/
theorem refers_of_binds (all : itemRows kept = .ok rows) {statement : Statement}
    (member : statement ∈ itemStatements kept rows) {t : Table} {row : List Value}
    (refers : t = itemSources ∨ t = itemHints) (binds : statement.Binds t row) :
    statement.itemRows = [] ∧ ∃ i ∈ kept, t.bound? "info_hash" row = some (.bytes i.infoHash.bytes) := by
  have complete := complete_itemStatements all
  rcases refers with rfl | rfl
  · obtain ⟨r,inside,rfl⟩ := binds_itemSources.mp binds
    have none : statement.itemRows = [] := by
      cases statement <;> first | rfl | cases inside
    have shown : r ∈ itemSourceRows kept := complete.entries_eq ▸ List.mem_flatMap.mpr ⟨statement,member,inside⟩
    obtain ⟨i,known,same⟩ := mem_itemSourceRows shown
    exact ⟨none,i,known,by rw [same]; rfl⟩
  · obtain ⟨r,inside,rfl⟩ := binds_itemHints.mp binds
    have none : statement.itemRows = [] := by
      cases statement <;> first | rfl | cases inside
    have shown : r ∈ hintRows kept := complete.hints_eq ▸ List.mem_flatMap.mpr ⟨statement,member,inside⟩
    obtain ⟨i,known,-,same⟩ := mem_hintRows.mp shown
    exact ⟨none,i,known,by rw [same]; rfl⟩

end

/-! ### Valid records -/

theorem paired_of_validate {e : Enrichment} (valid : e.validate = .ok ()) :
    (e.contentSource?.isSome = e.contentId?.isSome) ∧ ∀ year, e.releaseYear? = some year →
      1000 ≤ year.toNat ∧ year.toNat ≤ 9999 := by
  rw [Enrichment.validate] at valid
  split at valid
  case isTrue => cases valid
  case isFalse paired =>
    refine ⟨not_not.mp paired,?_⟩
    intro year known
    rw [known] at valid
    simp only at valid
    split at valid
    case isTrue range => exact range
    case isFalse => cases valid

theorem validate_of_hint {info : ImportInfo} {batch : List Record} (valid : ∀ r ∈ batch, r.validate = .ok ())
    {i : Item} (member : i ∈ lastItems (batch.map (Item.ofRecord info))) {e : Enrichment} (known : i.hint? = some e) :
    e.validate = .ok () := by
  obtain ⟨r,last,rfl⟩ := mem_lastItems_ofRecord.mp member
  have enriched : r.enrichment? = some e := known
  have passed := valid r last.mem
  rw [Record.validate] at passed
  split at passed
  · cases passed
  · rw [enriched] at passed
    simp only at passed
    cases checked : e.validate with
    | ok _ => rfl
    | error defect =>
      rw [checked] at passed
      cases passed

/-- What is bound for the content of a valid hint. -/
theorem content_of_valid {r : HintRow} (valid : r.hint.validate = .ok ()) :
    ∃ source id year, itemHints.bound? "content_source" r.values = some source ∧
      itemHints.bound? "content_id" r.values = some id ∧ itemHints.bound? "release_year" r.values = some year ∧
      (source = .null ↔ id = .null) ∧ (year = .null ∨ ∃ n, year = .integer n ∧ 1000 ≤ n ∧ n ≤ 9999) := by
  obtain ⟨paired,range⟩ := paired_of_validate valid
  refine ⟨_,_,_,rfl,rfl,rfl,?_,?_⟩
  · cases source : r.hint.contentSource? <;> cases id : r.hint.contentId? <;>
      simp [source,id,Value.ofOption] at paired ⊢
  · cases year : r.hint.releaseYear? with
    | none => exact .inl rfl
    | some y =>
      obtain ⟨low,high⟩ := range y year
      exact .inr ⟨y.toNat,rfl,by omega,by omega⟩

/-! ### Integrity -/

section
variable {kept : List Item} {rows : List ItemRow} {sent : Traffic} {result : Except DatabaseFault Unit}

/-- What is sent of the statements for valid items meets the rules of the tables, wherever a fault ends it. -/
theorem Transacted.integral (transacted : Transacted (itemStatements kept rows) sent result)
    (all : itemRows kept = .ok rows) (distinct : (kept.map (·.infoHash)).Nodup)
    (valid : ∀ i ∈ kept, ∀ e, i.hint? = some e → e.validate = .ok ()) : Integral (sent.map (·.1)) := by
  have complete := complete_itemStatements all
  constructor
  case sizes =>
    intro statement _ row binds
    obtain ⟨r,-,rfl⟩ := binds_items.mp binds
    have small := r.size_lt
    exact ⟨r.infoHash.bytes,r.size,rfl,r.infoHash.length_bytes,rfl,by omega,by omega⟩
  case references =>
    intro before statement after split t row refers binds
    have other : t.name ≠ sources.name := by
      rcases refers with rfl | rfl <;> decide
    obtain ⟨earlier,rest,rfl,whole⟩ := transacted.split_of_sent split (isOfItems_of_binds other binds)
    have member : statement ∈ itemStatements kept rows := by
      rw [whole]
      exact List.mem_append_right earlier List.mem_cons_self
    obtain ⟨none,i,inside,bound⟩ := refers_of_binds all member refers binds
    refine ⟨earlier,i.infoHash.bytes,rfl,?_,bound,inserted_before all whole none inside⟩
    intro earlier_one inside
    refine isOfItems_itemStatements kept rows earlier_one ?_
    rw [whole]
    exact List.mem_append_left _ inside
  case content =>
    intro statement member row binds
    have own := transacted.mem_of_sent member (isOfItems_of_binds (by decide) binds)
    obtain ⟨r,inside,rfl⟩ := binds_itemHints.mp binds
    have hinted : r ∈ hintRows kept := complete.hints_eq ▸ List.mem_flatMap.mpr ⟨statement,own,inside⟩
    obtain ⟨i,inside,known,-⟩ := mem_hintRows.mp hinted
    exact content_of_valid (valid i inside r.hint known)
  case apart =>
    rintro hash ⟨statement,member,row,binds,bound⟩ ⟨hashes,deletes,inside⟩
    have inserts := transacted.mem_of_sent member (isOfItems_of_binds (by decide) binds)
    exact complete.apart distinct ⟨statement,inserts,row,binds,bound⟩ ⟨hashes,transacted.mem_of_sent deletes rfl,inside⟩

theorem integral_nil : Integral [] where
  sizes _ member := absurd member List.not_mem_nil
  references _ _ _ split := absurd split (by simp)
  content _ member := absurd member List.not_mem_nil
  apart _ inserted := by
    obtain ⟨_,member,-⟩ := inserted
    cases member

end

theorem not_inserted_nil {t : Table} {hash : List UInt8} : ¬ Inserted t [] hash := by
  rintro ⟨_,member,-⟩
  cases member

theorem not_deleted_nil {hash : List UInt8} : ¬ Deleted [] hash := by
  rintro ⟨_,member,-⟩
  cases member

/-- The info hashes that are kept are those of the batch. -/
theorem exists_lastItems_ofRecord {info : ImportInfo} {batch : List Record} {hash : List UInt8} :
    (∃ i ∈ lastItems (batch.map (Item.ofRecord info)), i.infoHash.bytes = hash) ↔
      ∃ r ∈ batch, r.infoHash.bytes = hash := by
  constructor
  · rintro ⟨i,member,rfl⟩
    obtain ⟨r,last,rfl⟩ := mem_lastItems_ofRecord.mp member
    exact ⟨r,last.mem,rfl⟩
  · rintro ⟨r,member,rfl⟩
    have named : r.infoHash ∈ (lastItems (batch.map (Item.ofRecord info))).map Item.infoHash := by
      rw [lastItems,Keyed.mem_keys_lastAtFirst,List.map_map]
      exact List.mem_map_of_mem (f := Item.infoHash ∘ Item.ofRecord info) member
    obtain ⟨i,kept,same⟩ := List.mem_map.mp named
    exact ⟨i,kept,by rw [same]⟩

/-- Whatever the server replies, the rows that are sent for valid records meet the rules of the tables. If they are
    written, then the items of all info hashes of the batch are inserted, and of each of them the hint is either
    inserted or deleted. They are written if the sizes that are kept fit and the server carries out what is sent. -/
theorem rows_integral (server : Server σ) (info : ImportInfo) {batch : List Record}
    (valid : ∀ r ∈ batch, r.validate = .ok ()) (s : σ) :
    ∃ result t sent, upsertItems server.traced (batch.map (Item.ofRecord info)) (s,[]) = (result,t,sent) ∧
      Integral (sent.map (·.1)) ∧
      (result = .ok () → ∀ hash,
        (Inserted items (sent.map (·.1)) hash ↔ ∃ r ∈ batch, r.infoHash.bytes = hash) ∧
        (Inserted items (sent.map (·.1)) hash ↔
          Inserted itemHints (sent.map (·.1)) hash ∨ Deleted (sent.map (·.1)) hash)) ∧
      (Storable batch → Well sent → result = .ok ()) := by
  rcases upsertItems_cases server (batch.map (Item.ofRecord info)) s with ⟨empty,none⟩ |
    ⟨before,i,after,split,-,large,refused⟩ | ⟨-,-,rows,result,t,sent,all,run,transacted⟩
  · obtain rfl := List.map_eq_nil_iff.mp empty
    refine ⟨_,_,_,none,integral_nil,?_,fun _ _ => rfl⟩
    intro _ hash
    simp [not_inserted_nil,not_deleted_nil]
  · refine ⟨_,_,_,refused,integral_nil,by simp,?_⟩
    intro storable
    have fits := (fit_lastItems_iff info batch).mpr storable i (by simp [split])
    omega
  · have valid_hints (i : Item) (member : i ∈ lastItems (batch.map (Item.ofRecord info))) (e : Enrichment)
        (known : i.hint? = some e) : e.validate = .ok () := validate_of_hint valid member known
    refine ⟨_,t,sent,run,transacted.integral all (Keyed.nodup_lastAtFirst _ _) valid_hints,?_,?_⟩
    · intro done hash
      have complete := (complete_itemStatements all).around
      rw [transacted.sent_of_ok done]
      exact ⟨complete.inserted_items_iff.trans exists_lastItems_ofRecord,complete.inserted_iff⟩
    · intro _ well
      obtain ⟨rfl,-⟩ := transacted.whole well
      rfl

/-- Three records of two items. Of one of them something is known in the end. -/
def mixed : List Record :=
  [.bare "dht" 1,.bare "dht" 2,
    { Record.bare "rss" 1 with
      enrichment? := some
        { contentType := .movie
          contentSource? := some "tmdb"
          contentId? := some "603"
          releaseYear? := some (.ofNat 1999) } }]

theorem rows_integral_mixed :
    (∀ r ∈ mixed, r.validate = .ok ()) ∧
      ∃ t sent, upsertItems jobCounter.traced (mixed.map (Item.ofRecord ⟨"nightly"⟩)) (0,[]) = (.ok (),t,sent) ∧
        Integral (sent.map (·.1)) ∧ Inserted items (sent.map (·.1)) (List.replicate 20 1) ∧
        (Inserted itemHints (sent.map (·.1)) (List.replicate 20 2) ∨
          Deleted (sent.map (·.1)) (List.replicate 20 2)) := by
  have valid : ∀ r ∈ mixed, r.validate = .ok () := by decide +kernel
  have answer : (upsertItems jobCounter.traced (mixed.map (Item.ofRecord ⟨"nightly"⟩)) (0,[])).1 = .ok () := by
    decide +kernel
  obtain ⟨result,t,sent,run,integral,whole,-⟩ := rows_integral jobCounter ⟨"nightly"⟩ valid 0
  rw [run] at answer
  obtain rfl : result = .ok () := answer
  have first := (whole rfl (List.replicate 20 1)).1.mpr ⟨.bare "dht" 1,by simp [mixed],rfl⟩
  have second := (whole rfl (List.replicate 20 2)).1.mpr ⟨.bare "dht" 2,by simp [mixed],rfl⟩
  exact ⟨valid,t,sent,run,integral,first,(whole rfl _).2.mp second⟩

end Intake.Database
