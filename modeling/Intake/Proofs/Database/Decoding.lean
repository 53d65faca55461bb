import Intake.Proofs.Calendar.Days
import Intake.Proofs.Database.Integrity
import Intake.Proofs.Episodes

/-!
What rows tell. A value is read by the name of its column (`Table.column?`) as what the
column is for: an info hash, a label, a date, a JSON text. The rows of three tables with
one info hash tell of one record (`Stored`), and from rows that tell of records with info
hashes of their own these are read, all of them and in their order (`read?_telling`).
-/
namespace Intake.Database

open Calendar (Date Instant)

variable {α : Type}

/-! ### Values -/

namespace Value

def hash? : Value → Option InfoHash
  | .bytes b => if h : b.length = 20 then some ⟨b,h⟩ else none
  | _ => none

def text? : Value → Option String
  | .text s => some s
  | _ => none

def bool? : Value → Option Bool
  | .bool b => some b
  | _ => none

/-- A natural number below a bound. -/
def below? (bound : Nat) : Value → Option Nat
  | .integer n => if 0 ≤ n ∧ n < bound then some n.toNat else none
  | _ => none

def size? (v : Value) : Option UInt64 := (v.below? UInt64.size).map UInt64.ofNat

def year? (v : Value) : Option UInt16 := (v.below? UInt16.size).map UInt16.ofNat

def label? [Labelled α] (v : Value) : Option α := v.text?.bind Labelled.ofLabel?

def moment? : Value → Option Int
  | .moment micros => some micros
  | _ => none

def date? : Value → Option Date
  | .date days => Date.ofDayNumber? days
  | _ => none

def episodes? : Value → Option Episodes
  | .json s => (Json.readText Episodes.ofTree s).toOption
  | _ => none

/-- A value that may be null. -/
def orNull? (read : Value → Option α) : Value → Option (Option α)
  | .null => some none
  | v => (read v).map some

theorem hash?_bytes (h : InfoHash) : hash? (.bytes h.bytes) = some h := by
  rw [hash?,dif_pos h.length_bytes]

theorem below?_natCast {bound n : Nat} (small : n < bound) : below? bound (.integer n) = some n := by
  rw [below?,if_pos (by omega),Int.toNat_natCast]

theorem size?_toNat (n : UInt64) : size? (.integer n.toNat) = some n := by
  rw [size?,below?_natCast n.toNat_lt]
  simp

theorem year?_toNat (n : UInt16) : year? (.integer n.toNat) = some n := by
  rw [year?,below?_natCast n.toNat_lt]
  simp

theorem label?_label [Labelled α] (a : α) : label? (.text (Labelled.label a)) = some a :=
  Labelled.ofLabel?_label a

theorem date?_dayNumber (d : Date) : date? (.date d.dayNumber) = some d := Calendar.ofDayNumber?_dayNumber d

theorem episodes?_text (e : Episodes) : episodes? (.json (String.ofList e.toTree.text)) = some e := by
  rw [episodes?,Json.readText_of_holds (Json.holds_text e.spelled_episodes),e.read_episodes]
  rfl

theorem orNull?_ofOption {read : Value → Option α} {write : α → Value} (reads : ∀ a, read (write a) = some a)
    (filled : ∀ a, write a ≠ .null) (a? : Option α) : orNull? read (.ofOption write a?) = some a? := by
  cases a? with
  | none => rfl
  | some a =>
    rw [Value.ofOption,orNull?.eq_def]
    split
    · next null => exact absurd null (filled a)
    · rw [reads]
      rfl

theorem orNull?_text (s? : Option String) : orNull? text? (.ofOption .text s?) = some s? :=
  @orNull?_ofOption _ text? .text (fun _ => rfl) (fun _ => nofun) s?

theorem orNull?_label [Labelled α] (a? : Option α) : orNull? label? (labelValue a?) = some a? :=
  orNull?_ofOption label?_label (fun _ => nofun) a?

end Value

/-! ### Rows -/

/-- Reads what a row binds for a column. -/
def Table.column? (t : Table) (column : String) (read : Value → Option α) (row : List Value) : Option α :=
  (t.bound? column row).bind read

/-- What a row of `item_sources` tells. -/
structure StoredEntry where
  infoHash : InfoHash
  source : String
  importId? : Option String
  /-- Microseconds since the start of the year 2000. -/
  published : Int
deriving DecidableEq

def readEntryRow? (row : List Value) : Option StoredEntry := do
  let infoHash ← itemSources.column? "info_hash" Value.hash? row
  let source ← itemSources.column? "source" Value.text? row
  let importId? ← itemSources.column? "import_id" (Value.orNull? Value.text?) row
  let published ← itemSources.column? "published_at" Value.moment? row
  return { infoHash, source, importId?, published }

/-- What a row of `item_hints` tells. -/
def readHintRow? (row : List Value) : Option HintRow := do
  let infoHash ← itemHints.column? "info_hash" Value.hash? row
  let contentType ← itemHints.column? "content_type" Value.label? row
  let contentSource? ← itemHints.column? "content_source" (Value.orNull? Value.text?) row
  let contentId? ← itemHints.column? "content_id" (Value.orNull? Value.text?) row
  let title? ← itemHints.column? "title" (Value.orNull? Value.text?) row
  let releaseDate? ← itemHints.column? "release_date" (Value.orNull? Value.date?) row
  let releaseYear? ← itemHints.column? "release_year" (Value.orNull? Value.year?) row
  let episodes? ← itemHints.column? "episodes" (Value.orNull? Value.episodes?) row
  let videoResolution? ← itemHints.column? "video_resolution" (Value.orNull? Value.label?) row
  let videoSource? ← itemHints.column? "video_source" (Value.orNull? Value.label?) row
  let videoCodec? ← itemHints.column? "video_codec" (Value.orNull? Value.label?) row
  let video3d? ← itemHints.column? "video_3d" (Value.orNull? Value.label?) row
  let videoModifier? ← itemHints.column? "video_modifier" (Value.orNull? Value.label?) row
  let releaseGroup? ← itemHints.column? "release_group" (Value.orNull? Value.text?) row
  return {
    infoHash
    hint :=
      { contentType, contentSource?, contentId?, title?, releaseDate?, releaseYear?, episodes?, videoResolution?,
        videoSource?, videoCodec?, video3d?, videoModifier?, releaseGroup? } }

/-- What the tables tell of a record, and of the import that brought it. -/
structure Stored extends StoredEntry where
  name : String
  size : UInt64
  isPrivate : Bool
  /-- What is known of the content, if there is a row of `item_hints`. -/
  enrichment? : Option Enrichment
deriving DecidableEq

/-- What a row of `items` tells, with what other rows tell of the same item. -/
def readItemRow? (entries : List StoredEntry) (hints : List HintRow) (row : List Value) : Option Stored := do
  let infoHash ← items.column? "info_hash" Value.hash? row
  let name ← items.column? "name" Value.text? row
  let size ← items.column? "size" Value.size? row
  let isPrivate ← items.column? "private" Value.bool? row
  let entry ← Keyed.find? StoredEntry.infoHash infoHash entries
  let enrichment? := (Keyed.find? HintRow.infoHash infoHash hints).map (·.hint)
  return { entry with name, size, isPrivate, enrichment? }

/-- The rows that are bound for three tables. -/
structure Rows where
  items : List (List Value)
  itemSources : List (List Value)
  itemHints : List (List Value)
deriving DecidableEq

/-- The records that rows tell of. -/
def Rows.read? (rows : Rows) : Option (List Stored) := do
  let entries ← rows.itemSources.mapM readEntryRow?
  let hints ← rows.itemHints.mapM readHintRow?
  rows.items.mapM (readItemRow? entries hints)

/-! ### What is told -/

namespace Stored

def itemValues (r : Stored) : List Value :=
  [.bytes r.infoHash.bytes,.text r.name,.integer r.size.toNat,.bool r.isPrivate,
   .text (Labelled.label FilesStatus.noInfo)]

def entryValues (r : Stored) : List Value :=
  [.bytes r.infoHash.bytes,.text r.source,.ofOption .text r.importId?,.moment r.published]

def hint? (r : Stored) : Option HintRow := r.enrichment?.map (HintRow.mk r.infoHash)

end Stored

/-- The rows that tell of records. -/
def Rows.telling (records : List Stored) : Rows where
  items := records.map Stored.itemValues
  itemSources := records.map Stored.entryValues
  itemHints := (records.filterMap Stored.hint?).map HintRow.values

theorem readEntryRow?_values (r : Stored) : readEntryRow? r.entryValues = some r.toStoredEntry := by
  have infoHash : itemSources.column? "info_hash" Value.hash? r.entryValues = some r.infoHash := Value.hash?_bytes _
  have source : itemSources.column? "source" Value.text? r.entryValues = some r.source := rfl
  have importId : itemSources.column? "import_id" (Value.orNull? Value.text?) r.entryValues = some r.importId? :=
    Value.orNull?_text r.importId?
  have published : itemSources.column? "published_at" Value.moment? r.entryValues = some r.published := rfl
  simp only [readEntryRow?,infoHash,source,importId,published,Option.bind_eq_bind,Option.bind_some]
  rfl

theorem readHintRow?_values (r : HintRow) : readHintRow? r.values = some r := by
  have infoHash : itemHints.column? "info_hash" Value.hash? r.values = some r.infoHash := Value.hash?_bytes _
  have kind : itemHints.column? "content_type" Value.label? r.values = some r.hint.contentType :=
    Value.label?_label _
  have catalogue : itemHints.column? "content_source" (Value.orNull? Value.text?) r.values =
      some r.hint.contentSource? := Value.orNull?_text _
  have nameThere : itemHints.column? "content_id" (Value.orNull? Value.text?) r.values = some r.hint.contentId? :=
    Value.orNull?_text _
  have title : itemHints.column? "title" (Value.orNull? Value.text?) r.values = some r.hint.title? :=
    Value.orNull?_text _
  have date : itemHints.column? "release_date" (Value.orNull? Value.date?) r.values = some r.hint.releaseDate? :=
    Value.orNull?_ofOption Value.date?_dayNumber (fun _ => nofun) _
  have year : itemHints.column? "release_year" (Value.orNull? Value.year?) r.values = some r.hint.releaseYear? :=
    Value.orNull?_ofOption Value.year?_toNat (fun _ => nofun) _
  have episodes : itemHints.column? "episodes" (Value.orNull? Value.episodes?) r.values = some r.hint.episodes? :=
    Value.orNull?_ofOption Value.episodes?_text (fun _ => nofun) _
  have resolution : itemHints.column? "video_resolution" (Value.orNull? Value.label?) r.values =
      some r.hint.videoResolution? := Value.orNull?_label _
  have source : itemHints.column? "video_source" (Value.orNull? Value.label?) r.values = some r.hint.videoSource? :=
    Value.orNull?_label _
  have codec : itemHints.column? "video_codec" (Value.orNull? Value.label?) r.values = some r.hint.videoCodec? :=
    Value.orNull?_label _
  have depth : itemHints.column? "video_3d" (Value.orNull? Value.label?) r.values = some r.hint.video3d? :=
    Value.orNull?_label _
  have modifier : itemHints.column? "video_modifier" (Value.orNull? Value.label?) r.values =
      some r.hint.videoModifier? := Value.orNull?_label _
  have group : itemHints.column? "release_group" (Value.orNull? Value.text?) r.values = some r.hint.releaseGroup? :=
    Value.orNull?_text _
  simp only [readHintRow?,infoHash,kind,catalogue,nameThere,title,date,year,episodes,resolution,source,codec,depth,
    modifier,group,Option.bind_eq_bind,Option.bind_some]
  rfl

theorem mapM_map_some {β γ : Type} {write : α → β} {read : β → Option γ} {f : α → γ} {list : List α}
    (reads : ∀ a ∈ list, read (write a) = some (f a)) : (list.map write).mapM read = some (list.map f) := by
  induction list with
  | nil => rfl
  | cons a rest ih =>
    obtain ⟨first,others⟩ := List.forall_mem_cons.mp reads
    rw [List.map_cons,List.mapM_cons,first,ih others]
    rfl

theorem hashes_hints (records : List Stored) :
    (records.filterMap Stored.hint?).map (·.infoHash) =
      (records.filter (·.enrichment?.isSome)).map (·.infoHash) := by
  induction records with
  | nil => rfl
  | cons r rest ih =>
    cases known : r.enrichment? with
    | none => simpa [Stored.hint?,known] using ih
    | some e => simpa [Stored.hint?,known] using ih

section
variable {records : List Stored} (distinct : (records.map (·.infoHash)).Nodup) {r : Stored} (member : r ∈ records)
include distinct member

theorem find?_entries :
    Keyed.find? StoredEntry.infoHash r.infoHash (records.map Stored.toStoredEntry) = some r.toStoredEntry := by
  have apart : ((records.map Stored.toStoredEntry).map StoredEntry.infoHash).Nodup := by
    rw [List.map_map]
    exact distinct
  exact Keyed.find?_of_mem StoredEntry.infoHash apart (List.mem_map_of_mem member)

theorem find?_hints : Keyed.find? HintRow.infoHash r.infoHash (records.filterMap Stored.hint?) = r.hint? := by
  cases known : r.enrichment? with
  | some e =>
    have apart : ((records.filterMap Stored.hint?).map HintRow.infoHash).Nodup := by
      rw [hashes_hints]
      exact distinct.sublist (List.filter_sublist.map _)
    have hint : r.hint? = some ⟨r.infoHash,e⟩ := by simp [Stored.hint?,known]
    rw [hint]
    exact Keyed.find?_of_mem HintRow.infoHash apart (List.mem_filterMap.mpr ⟨r,member,hint⟩)
  | none =>
    have hint : r.hint? = none := by simp [Stored.hint?,known]
    rw [hint,Keyed.find?_eq_none,hashes_hints]
    intro there
    obtain ⟨other,inside,same⟩ := List.mem_map.mp there
    obtain ⟨inside,some⟩ := List.mem_filter.mp inside
    rw [List.inj_on_of_nodup_map distinct inside member same,known] at some
    cases some

theorem readItemRow?_values :
    readItemRow? (records.map Stored.toStoredEntry) (records.filterMap Stored.hint?) r.itemValues = some r := by
  have infoHash : items.column? "info_hash" Value.hash? r.itemValues = some r.infoHash := Value.hash?_bytes _
  have name : items.column? "name" Value.text? r.itemValues = some r.name := rfl
  have size : items.column? "size" Value.size? r.itemValues = some r.size := by
    have bound : items.bound? "size" r.itemValues = some (.integer r.size.toNat) := rfl
    rw [Table.column?,bound,Option.bind_some,Value.size?_toNat]
  have isPrivate : items.column? "private" Value.bool? r.itemValues = some r.isPrivate := rfl
  simp only [readItemRow?,infoHash,name,size,isPrivate,find?_entries distinct member,find?_hints distinct member,
    Option.bind_eq_bind,Option.bind_some,Stored.hint?,Option.map_map]
  show some { r with enrichment? := r.enrichment?.map id } = some r
  rw [Option.map_id]
  rfl

end

/-- Records with info hashes of their own are found in the rows that tell of them. -/
theorem read?_telling {records : List Stored} (distinct : (records.map (·.infoHash)).Nodup) :
    (Rows.telling records).read? = some records := by
  have entries : (records.map Stored.entryValues).mapM readEntryRow? = some (records.map Stored.toStoredEntry) :=
    mapM_map_some fun r _ => readEntryRow?_values r
  have hints : ((records.filterMap Stored.hint?).map HintRow.values).mapM readHintRow? =
      some ((records.filterMap Stored.hint?).map id) := mapM_map_some fun r _ => readHintRow?_values r
  have items : (records.map Stored.itemValues).mapM
      (readItemRow? (records.map Stored.toStoredEntry) (records.filterMap Stored.hint?)) = some (records.map id) := by
    refine mapM_map_some fun r member => ?_
    exact readItemRow?_values distinct member
  rw [List.map_id] at hints items
  simp only [Rows.read?,Rows.telling,entries,hints,items,Option.bind_eq_bind,Option.bind_some]

end Intake.Database
