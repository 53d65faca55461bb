import Intake.Item

/-!
The statements that are sent to the database: their texts, their rows, and the
values that each row binds, in the order of the columns of its table.
-/
namespace Intake.Database

open Calendar (Date Instant)
open Json (Tree)

/-- A value bound to a placeholder. -/
inductive Value where
  | null
  | bool (b : Bool)
  | integer (n : Int)
  | text (s : String)
  | bytes (b : List UInt8)
  | byteArrays (list : List (List UInt8))
  /-- Microseconds since the start of the year 2000. -/
  | moment (micros : Int)
  /-- Days since the first of January 2000. -/
  | date (days : Int)
  /-- The text of a JSON value. -/
  | json (text : String)
deriving DecidableEq, Repr

def Value.ofOption {α : Type} (f : α → Value) : Option α → Value
  | some a => f a
  | none => .null

/-! ## Tables -/

/-- A table, and what happens to a row whose key is there already. -/
structure Table where
  name : String
  columns : List String
  key : List String
  /-- The new row replaces the old one, which otherwise stays. -/
  replaces : Bool := true
  /-- Blanks stand inside the brackets of the list of columns. -/
  spaced : Bool := false

def sources : Table where
  name := "sources"
  columns := ["key","name"]
  key := ["key"]
  replaces := false

def items : Table where
  name := "items"
  columns := ["info_hash","name","size","private","files_status"]
  key := ["info_hash"]

def itemSources : Table where
  name := "item_sources"
  columns := ["info_hash","source","import_id","published_at"]
  key := ["info_hash","source"]

def itemHints : Table where
  name := "item_hints"
  columns := ["info_hash","content_type","content_source","content_id","title","release_date","release_year",
    "episodes","video_resolution","video_source","video_codec","video_3d","video_modifier","release_group"]
  key := ["info_hash"]
  spaced := true

/-- Placeholders for a row of `width` values, the first numbered `first`. -/
def placeholders (first width : Nat) : String :=
  "(" ++ ", ".intercalate ((List.range width).map fun i => s!"${first + i}") ++ ")"

namespace Table

def columnList (t : Table) : String :=
  let blank := if t.spaced then " " else ""
  "(" ++ blank ++ ", ".intercalate t.columns ++ blank ++ ")"

/-- What is done about a row whose key is there already. -/
def onConflict (t : Table) : String :=
  let set (column : String) := s!"{column} = EXCLUDED.{column}"
  let others := t.columns.filter (· ∉ t.key)
  " ON CONFLICT (" ++ ", ".intercalate t.key ++ ") DO " ++
    (if t.replaces then "UPDATE SET " ++ ", ".intercalate (others.map set ++ ["updated_at = NOW()"]) else "NOTHING")

/-- The text that inserts so many rows. -/
def insertText (t : Table) (rows : Nat) : String :=
  let width := t.columns.length
  "INSERT INTO " ++ t.name ++ " " ++ t.columnList ++ " VALUES " ++
    ", ".intercalate ((List.range rows).map fun i => placeholders (i * width + 1) width) ++ t.onConflict

end Table

/-! ## Rows -/

/-- A row of `items`. Its size fits 64 bits with a sign. -/
structure ItemRow where
  infoHash : InfoHash
  name : String
  size : Nat
  isPrivate : Bool
  filesStatus : FilesStatus
  size_lt : size < 0x8000000000000000
deriving DecidableEq

structure ItemSourceRow where
  infoHash : InfoHash
  entry : ItemSource
deriving DecidableEq

structure HintRow where
  infoHash : InfoHash
  hint : Enrichment
deriving DecidableEq

/-- What a job of the queue hands on. -/
structure Job where
  hashes : List InfoHash
deriving DecidableEq

def sourceValues (s : Source) : List Value := [.text s.key,.text s.name]

def ItemRow.values (r : ItemRow) : List Value :=
  [.bytes r.infoHash.bytes,.text r.name,.integer r.size,.bool r.isPrivate,.text (Labelled.label r.filesStatus)]

def ItemSourceRow.values (r : ItemSourceRow) : List Value :=
  [.bytes r.infoHash.bytes,.text r.entry.source,.ofOption .text r.entry.importId?,
   .moment r.entry.publishedAt.microseconds]

def labelValue {α : Type} [Labelled α] (a : Option α) : Value := .ofOption (fun a => .text (Labelled.label a)) a

def HintRow.values (r : HintRow) : List Value :=
  let h := r.hint
  [.bytes r.infoHash.bytes,
   .text (Labelled.label h.contentType),
   .ofOption .text h.contentSource?,
   .ofOption .text h.contentId?,
   .ofOption .text h.title?,
   .ofOption (fun d => .date d.dayNumber) h.releaseDate?,
   .ofOption (fun y => .integer y.toNat) h.releaseYear?,
   .ofOption (fun e => .json (String.ofList e.toTree.text)) h.episodes?,
   labelValue h.videoResolution?,
   labelValue h.videoSource?,
   labelValue h.videoCodec?,
   labelValue h.video3d?,
   labelValue h.videoModifier?,
   .ofOption .text h.releaseGroup?]

def Job.toTree (j : Job) : Tree := .ofMembers [("info_hashes",.ofList (j.hashes.map InfoHash.toTree))]

/-- The queue whose jobs process items. -/
def processItems : String := "process_items"

/-! ## Statements -/

inductive Statement where
  | begin
  | commit
  | rollback
  /-- Asks whether the database answers. -/
  | ping
  | insertSources (rows : List Source)
  | insertItems (rows : List ItemRow)
  | insertItemSources (rows : List ItemSourceRow)
  | insertHints (rows : List HintRow)
  | deleteHints (hashes : List InfoHash)
  | insertJob (job : Job)
deriving DecidableEq

namespace Statement

def text : Statement → String
  | .begin => "BEGIN"
  | .commit => "COMMIT"
  | .rollback => "ROLLBACK"
  | .ping => "SELECT 1"
  | .insertSources rows => sources.insertText rows.length
  | .insertItems rows => items.insertText rows.length
  | .insertItemSources rows => itemSources.insertText rows.length
  | .insertHints rows => itemHints.insertText rows.length
  | .deleteHints _ => "DELETE FROM item_hints WHERE info_hash = ANY($1)"
  | .insertJob _ => "INSERT INTO queue_jobs (queue, status, payload) VALUES ($1, 'pending', $2) RETURNING id"

def values : Statement → List Value
  | .begin => []
  | .commit => []
  | .rollback => []
  | .ping => []
  | .insertSources rows => rows.flatMap sourceValues
  | .insertItems rows => rows.flatMap ItemRow.values
  | .insertItemSources rows => rows.flatMap ItemSourceRow.values
  | .insertHints rows => rows.flatMap HintRow.values
  | .deleteHints hashes => [.byteArrays (hashes.map (·.bytes))]
  | .insertJob job => [.text processItems,.json (String.ofList job.toTree.text)]

end Statement

end Intake.Database
