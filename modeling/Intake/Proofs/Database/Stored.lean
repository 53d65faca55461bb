import Intake.Proofs.Database.Decoding

/-!
What is told of records that are written. The rows that are bound for records with info
hashes of their own tell of these and of nothing else (`rows_of_bound`). They have instants
in microseconds, which is all of those that are whole (`record?_ofRecord`). So rows carry
whole records, up to fractions of a microsecond (`rows_tell_records`).
-/
namespace Intake.Database

open Calendar (Instant)

variable {σ : Type}

/-! ### Records as they are told of -/

/-- What is told of a record that an import brings. -/
def Stored.ofRecord (info : ImportInfo) (r : Record) : Stored where
  infoHash := r.infoHash
  source := r.source
  importId? := some info.id
  published := r.publishedAt.microseconds
  name := r.name
  size := r.size
  isPrivate := r.isPrivate
  enrichment? := r.enrichment?

/-- The record that is told of, if its instant is in the calendar. -/
def Stored.record? (r : Stored) : Option Record :=
  (Instant.ofMicroseconds? r.published).map fun publishedAt =>
    { source := r.source
      infoHash := r.infoHash
      name := r.name
      size := r.size
      isPrivate := r.isPrivate
      enrichment? := r.enrichment?
      publishedAt }

theorem record?_ofRecord (info : ImportInfo) (r : Record) :
    (Stored.ofRecord info r).record? = some r ↔ r.publishedAt.IsWhole := by
  rw [← Instant.ofMicroseconds?_microseconds_iff]
  -- all but the instant is told as it is
  show (Instant.ofMicroseconds? r.publishedAt.microseconds).map (fun t => { r with publishedAt := t }) = some r ↔ _
  cases Instant.ofMicroseconds? r.publishedAt.microseconds with
  | none => simp
  | some t =>
    simp only [Option.map_some,Option.some.injEq]
    exact ⟨fun same => by rw [← same],fun same => by rw [same]⟩

/-- Records with whole instants are all that is told. -/
theorem records_ofRecord (info : ImportInfo) {records : List Record} (whole : ∀ r ∈ records, r.publishedAt.IsWhole) :
    (records.map (Stored.ofRecord info)).map Stored.record? = records.map some := by
  rw [List.map_map]
  exact List.map_congr_left fun r member => (record?_ofRecord info r).mpr (whole r member)

theorem read?_ofRecord (info : ImportInfo) {records : List Record} (distinct : (records.map (·.infoHash)).Nodup) :
    (Rows.telling (records.map (Stored.ofRecord info))).read? = some (records.map (Stored.ofRecord info)) := by
  refine read?_telling ?_
  rw [List.map_map]
  exact distinct

/-- Other rows tell of other records. -/
theorem telling_eq_iff {info info' : ImportInfo} {records records' : List Record}
    (distinct : (records.map (·.infoHash)).Nodup) (distinct' : (records'.map (·.infoHash)).Nodup) :
    Rows.telling (records.map (Stored.ofRecord info)) = Rows.telling (records'.map (Stored.ofRecord info')) ↔
      records.map (Stored.ofRecord info) = records'.map (Stored.ofRecord info') := by
  refine ⟨fun rows => ?_,congrArg Rows.telling⟩
  have read := read?_ofRecord info distinct
  rw [rows,read?_ofRecord info' distinct'] at read
  exact (Option.some.inj read).symm

/-! ### What is bound -/

/-- The rows that a statement binds for the columns of a table, which its text lists (`insertion?_bound`). -/
def Statement.rowsInto (t : Table) (statement : Statement) : List (List Value) :=
  match statement.insertion? with
  | some (other,rows) => if other.name = t.name then rows else []
  | none => []

def Rows.of (statements : List Statement) : Rows where
  items := statements.flatMap (·.rowsInto Database.items)
  itemSources := statements.flatMap (·.rowsInto Database.itemSources)
  itemHints := statements.flatMap (·.rowsInto Database.itemHints)

theorem flatMap_rowsInto {ρ : Type} {t : Table} {own : Statement → List ρ} {values : ρ → List Value}
    (each : ∀ statement : Statement, statement.rowsInto t = (own statement).map values) (statements : List Statement) :
    statements.flatMap (·.rowsInto t) = (statements.flatMap own).map values := by
  rw [List.map_flatMap]
  exact congrArg (statements.flatMap ·) (funext each)

theorem rows_of (statements : List Statement) :
    Rows.of statements = {
      items := (statements.flatMap Statement.itemRows).map ItemRow.values
      itemSources := (statements.flatMap Statement.itemSourceRows).map ItemSourceRow.values
      itemHints := (statements.flatMap Statement.hintRows).map HintRow.values } := by
  rw [Rows.of]
  congr 1
  · refine flatMap_rowsInto (fun statement => ?_) statements
    cases statement <;> rfl
  · refine flatMap_rowsInto (fun statement => ?_) statements
    cases statement <;> rfl
  · refine flatMap_rowsInto (fun statement => ?_) statements
    cases statement <;> rfl

theorem itemSourceRows_ofRecord (info : ImportInfo) {records : List Record}
    (distinct : (records.map (·.infoHash)).Nodup) :
    itemSourceRows (records.map (Item.ofRecord info)) =
      records.map fun r => ⟨r.infoHash,⟨r.source,some info.id,r.publishedAt⟩⟩ := by
  have single : (records.map (Item.ofRecord info)).flatMap (fun i => i.sources.map (ItemSourceRow.mk i.infoHash)) =
      records.map fun r => ⟨r.infoHash,⟨r.source,some info.id,r.publishedAt⟩⟩ := by
    induction records with
    | nil => rfl
    | cons r rest ih => simpa [Item.ofRecord] using ih (List.nodup_cons.mp distinct).2
  rw [itemSourceRows,single]
  refine Keyed.lastAtFirst_of_nodup _ ?_
  rw [List.map_map]
  refine List.Nodup.of_map Prod.fst ?_
  rw [List.map_map]
  exact distinct

theorem hintRows_ofRecord (info : ImportInfo) (records : List Record) :
    hintRows (records.map (Item.ofRecord info)) = (records.map (Stored.ofRecord info)).filterMap Stored.hint? := by
  rw [hintRows,List.filterMap_map,List.filterMap_map]
  rfl

theorem rows_of_complete {info : ImportInfo} {records : List Record} {statements : List Statement}
    (distinct : (records.map (·.infoHash)).Nodup) (complete : Complete (records.map (Item.ofRecord info)) statements) :
    Rows.of statements = Rows.telling (records.map (Stored.ofRecord info)) := by
  rw [rows_of,Rows.telling,complete.entries_eq,complete.hints_eq,itemSourceRows_ofRecord info distinct,hintRows_ofRecord]
  congr 1
  · let values (row : InfoHash × String × Nat × Bool × FilesStatus) : List Value :=
      [.bytes row.1.bytes,.text row.2.1,.integer row.2.2.1,.bool row.2.2.2.1,.text (Labelled.label row.2.2.2.2)]
    have items := congrArg (List.map values) complete.items
    rw [List.map_map,List.map_map,List.map_map] at items
    rw [List.map_map]
    exact items
  · rw [List.map_map,List.map_map]
    rfl

/-- These rows are bound when an import writes records, and all is carried out. -/
def Bound (info : ImportInfo) (records : List Record) (rows : Rows) : Prop :=
  ∃ (σ : Type) (server : Server σ) (s t : σ) (sent : Traffic),
    upsertItems server.traced (records.map (Item.ofRecord info)) (s,[]) = (.ok (),t,sent) ∧
      Rows.of (sent.map (·.1)) = rows

theorem lastItems_ofRecord (info : ImportInfo) {records : List Record} (distinct : (records.map (·.infoHash)).Nodup) :
    lastItems (records.map (Item.ofRecord info)) = records.map (Item.ofRecord info) := by
  refine Keyed.lastAtFirst_of_nodup _ ?_
  rw [List.map_map]
  exact distinct

/-- What is bound tells of the records, and of nothing else. -/
theorem rows_of_bound {info : ImportInfo} {records : List Record} {rows : Rows}
    (distinct : (records.map (·.infoHash)).Nodup) (bound : Bound info records rows) :
    rows = Rows.telling (records.map (Stored.ofRecord info)) := by
  obtain ⟨σ,server,s,t,sent,run,rfl⟩ := bound
  rcases upsertItems_cases server (records.map (Item.ofRecord info)) s with ⟨empty,none⟩ |
    ⟨before,i,after,-,-,-,refused⟩ | ⟨-,-,rows,result,u,made,all,done,transacted⟩
  · rw [none] at run
    cases run
    rw [List.map_eq_nil_iff.mp empty]
    rfl
  · rw [refused] at run
    cases run
  · rw [done] at run
    obtain ⟨answer,rest⟩ := Prod.mk.inj run
    obtain ⟨rfl,rfl⟩ := Prod.mk.inj rest
    rw [transacted.sent_of_ok answer]
    have complete := (complete_itemStatements all).around
    rw [lastItems_ofRecord info distinct] at complete ⊢
    exact rows_of_complete distinct complete

theorem ok_of_well (server : Server σ) (info : ImportInfo) {records : List Record}
    (distinct : (records.map (·.infoHash)).Nodup) (fits : ∀ r ∈ records, r.size.toNat < 0x8000000000000000) (s : σ) :
    ∃ result t sent, upsertItems server.traced (records.map (Item.ofRecord info)) (s,[]) = (result,t,sent) ∧
      (Well sent → result = .ok ()) := by
  rcases upsertItems_cases server (records.map (Item.ofRecord info)) s with ⟨-,none⟩ |
    ⟨before,i,after,split,-,large,-⟩ | ⟨-,-,rows,result,t,sent,-,run,transacted⟩
  · exact ⟨_,_,_,none,fun _ => rfl⟩
  · rw [lastItems_ofRecord info distinct] at split
    have member : i ∈ records.map (Item.ofRecord info) := by simp [split]
    obtain ⟨r,inside,rfl⟩ := List.mem_map.mp member
    exact absurd (fits r inside) (Nat.not_lt.mpr large)
  · refine ⟨_,_,_,run,fun well => ?_⟩
    rw [(transacted.whole well).1]
    rfl

/-- Rows carry the whole records, with their instants in microseconds. Records with info hashes of their own and sizes
    that fit are written if the database carries out what it is sent. The rows that are then bound tell of each
    record in its order, and tell all of it if its instant is whole. Two lists of records are bound by the same rows
    just if they differ in nothing but what their instants have beside microseconds. -/
theorem rows_tell_records (info : ImportInfo) {records : List Record} (distinct : (records.map (·.infoHash)).Nodup)
    (fits : ∀ r ∈ records, r.size.toNat < 0x8000000000000000) :
    (∀ {σ : Type} (server : Server σ) (s : σ), ∃ result t sent,
      upsertItems server.traced (records.map (Item.ofRecord info)) (s,[]) = (result,t,sent) ∧
        (Well sent → result = .ok ())) ∧
      ∀ rows, Bound info records rows →
        rows.read? = some (records.map (Stored.ofRecord info)) ∧
        (∀ r ∈ records, (Stored.ofRecord info r).record? = some r ↔ r.publishedAt.IsWhole) ∧
        ∀ info' records' rows', (records'.map (·.infoHash)).Nodup → Bound info' records' rows' →
          (rows = rows' ↔ records.map (Stored.ofRecord info) = records'.map (Stored.ofRecord info')) ∧
          (rows = rows' → (∀ r ∈ records ++ records', r.publishedAt.IsWhole) → records = records') := by
  refine ⟨fun server s => ok_of_well server info distinct fits s,?_⟩
  intro rows bound
  obtain rfl := rows_of_bound distinct bound
  refine ⟨read?_ofRecord info distinct,fun r _ => record?_ofRecord info r,?_⟩
  intro info' records' rows' distinct' bound'
  obtain rfl := rows_of_bound distinct' bound'
  refine ⟨telling_eq_iff distinct distinct',?_⟩
  intro same whole
  have records_of := congrArg (List.map Stored.record?) ((telling_eq_iff distinct distinct').mp same)
  rw [records_ofRecord info fun r member => whole r (List.mem_append_left _ member),
    records_ofRecord info' fun r member => whole r (List.mem_append_right _ member)] at records_of
  exact List.map_injective_iff.mpr (fun _ _ => Option.some.inj) records_of

theorem exists_bound {info : ImportInfo} {records : List Record}
    (answer : (upsertItems jobCounter.traced (records.map (Item.ofRecord info)) (0,[])).1 = .ok ()) :
    ∃ rows, Bound info records rows :=
  ⟨_,Nat,jobCounter,0,_,_,Prod.ext answer rfl,rfl⟩

/-- A record with all that can be known of an item, and one with nothing that can be left out. -/
def unlike : List Record :=
  [{ Record.bare "rss" 1 with
      isPrivate := true
      enrichment? := some
        { contentType := .tvShow
          contentSource? := some "tmdb"
          contentId? := some "1396"
          title? := some "A show"
          releaseDate? := some ⟨2008,1,20,by decide⟩
          releaseYear? := some (.ofNat 2008)
          episodes? := some (.ofEntries [(.ofNat 1,[.ofNat 2,.ofNat 1])])
          videoResolution? := some .v1080p
          videoSource? := some .dvd
          videoCodec? := some .x265
          video3d? := some .v3d
          videoModifier? := some .regional
          releaseGroup? := some "group" } },
    Record.bare "dht" 2]

theorem rows_tell_records_unlike :
    (unlike.map (·.infoHash)).Nodup ∧ (∀ r ∈ unlike, r.size.toNat < 0x8000000000000000) ∧
      ∃ rows, Bound ⟨"nightly"⟩ unlike rows ∧ rows.read? = some (unlike.map (Stored.ofRecord ⟨"nightly"⟩)) ∧
        ∀ r ∈ unlike, (Stored.ofRecord ⟨"nightly"⟩ r).record? = some r := by
  have distinct : (unlike.map (·.infoHash)).Nodup := by decide
  have fits : ∀ r ∈ unlike, r.size.toNat < 0x8000000000000000 := by decide
  have whole : ∀ r ∈ unlike, r.publishedAt.IsWhole := by decide
  have answer : (upsertItems jobCounter.traced (unlike.map (Item.ofRecord ⟨"nightly"⟩)) (0,[])).1 = .ok () := by
    decide +kernel
  obtain ⟨rows,bound⟩ := exists_bound answer
  obtain ⟨read,all,-⟩ := (rows_tell_records ⟨"nightly"⟩ distinct fits).2 rows bound
  exact ⟨distinct,fits,rows,bound,read,fun r member => (all r member).mpr (whole r member)⟩

/-- A tenth of a microsecond after the start of the year 2000. -/
def dawn : Instant := { (Record.bare "dht" 1).publishedAt with nano := 100, isTime := by decide }

/-- Rows do not tell moments within a microsecond apart. -/
theorem rows_drop_fractions :
    ¬ ∀ (info : ImportInfo) (records records' : List Record) (rows : Rows),
      (records.map (·.infoHash)).Nodup → (∀ r ∈ records, r.size.toNat < 0x8000000000000000) →
      (records'.map (·.infoHash)).Nodup → (∀ r ∈ records', r.size.toNat < 0x8000000000000000) →
      Bound info records rows → Bound info records' rows → records = records' := by
  intro claim
  have first : (upsertItems jobCounter.traced ([Record.bare "dht" 1].map (Item.ofRecord ⟨"nightly"⟩)) (0,[])).1 =
      .ok () := by decide +kernel
  have second : (upsertItems jobCounter.traced
      ([{ Record.bare "dht" 1 with publishedAt := dawn }].map (Item.ofRecord ⟨"nightly"⟩)) (0,[])).1 = .ok () := by
    decide +kernel
  obtain ⟨rows,bound⟩ := exists_bound first
  obtain ⟨rows',bound'⟩ := exists_bound second
  have same : rows = rows' := by
    rw [rows_of_bound (by decide) bound,rows_of_bound (by decide) bound']
    rfl
  subst same
  have equal := claim _ _ _ rows (by decide) (by decide) (by decide) (by decide) bound bound'
  exact absurd equal (by decide)

end Intake.Database
