import Intake.Calendar.Reading
import Intake.Calendar.Writing
import Intake.Json.Shape
import Intake.Record

/-!
Records and enrichments as JSON: `toTree` writes every field in its order, an
absent value as null, and `ofTree` takes the fields in any order.
-/
namespace Intake

open Calendar (Date Instant)
open Json (Tree Slot Shape required)

/-! ## Values of fields -/

def InfoHash.ofTree (t : Tree) : Except Json.Fault InfoHash := do
  let s ← t.asString
  match InfoHash.parse s with
  | .ok h => return h
  | .error fault => throw (.refused ("Invalid info hash: " ++ fault.message))

def InfoHash.toTree (h : InfoHash) : Tree := .ofString h.hex

def Calendar.Date.ofTree (t : Tree) : Except Json.Fault Date :=
  t.asFormatted "a formatted date string" fun s => (Date.read s.toList).mapError fun f => .refused f.message

def Calendar.Date.toTree (d : Date) : Tree := .ofString (String.ofList d.text)

def Calendar.Instant.ofTree (t : Tree) : Except Json.Fault Instant :=
  t.asFormatted "an RFC 3339 formatted date and time string" fun s =>
    (Instant.read s.toList).mapError fun f => .refused f.message

def Calendar.Instant.toTree (t : Instant) : Tree := .ofString (String.ofList t.text)

def Labelled.ofTree {α : Type} [Labelled α] (t : Tree) : Except Json.Fault α := t.asVariant entries

def Labelled.toTree {α : Type} [Labelled α] (a : α) : Tree := .ofString (label a)

/-! ## Enrichments -/

/-- An enrichment whose kind of content may not be known yet. -/
structure Enrichment.Draft extends Details where
  contentType? : Option ContentType := none

namespace Enrichment

def fields : List (Slot Draft) :=
  [.of "content_type" Labelled.ofTree fun v d => { d with contentType? := some v },
   .of "content_source" (·.asOption Tree.asString) fun v d => { d with contentSource? := v },
   .of "content_id" (·.asOption Tree.asString) fun v d => { d with contentId? := v },
   .of "title" (·.asOption Tree.asString) fun v d => { d with title? := v },
   .of "release_date" (·.asOption Date.ofTree) fun v d => { d with releaseDate? := v },
   .of "release_year" (·.asOption (·.asUnsigned 16)) fun v d => { d with releaseYear? := v.map UInt16.ofNat },
   .of "episodes" (·.asOption Episodes.ofTree) fun v d => { d with episodes? := v },
   .of "video_resolution" (·.asOption Labelled.ofTree) fun v d => { d with videoResolution? := v },
   .of "video_source" (·.asOption Labelled.ofTree) fun v d => { d with videoSource? := v },
   .of "video_codec" (·.asOption Labelled.ofTree) fun v d => { d with videoCodec? := v },
   .of "video_3d" (·.asOption Labelled.ofTree) fun v d => { d with video3d? := v },
   .of "video_modifier" (·.asOption Labelled.ofTree) fun v d => { d with videoModifier? := v },
   .of "release_group" (·.asOption Tree.asString) fun v d => { d with releaseGroup? := v }]

def Draft.finish (d : Draft) : Except String Enrichment := do
  let contentType ← required "content_type" d.contentType?
  return { d with contentType }

def shape : Shape Draft Enrichment where
  title := "Enrichment"
  fields := fields
  start := {}
  finish := Draft.finish

def ofTree (t : Tree) : Except Json.Fault Enrichment := shape.read t

/-- The fields under their names. -/
def members (e : Enrichment) : List (String × Tree) :=
  [("content_type",Labelled.toTree e.contentType),
   ("content_source",.ofOption .ofString e.contentSource?),
   ("content_id",.ofOption .ofString e.contentId?),
   ("title",.ofOption .ofString e.title?),
   ("release_date",.ofOption Date.toTree e.releaseDate?),
   ("release_year",.ofOption (fun y => .ofNat y.toNat) e.releaseYear?),
   ("episodes",.ofOption Episodes.toTree e.episodes?),
   ("video_resolution",.ofOption Labelled.toTree e.videoResolution?),
   ("video_source",.ofOption Labelled.toTree e.videoSource?),
   ("video_codec",.ofOption Labelled.toTree e.videoCodec?),
   ("video_3d",.ofOption Labelled.toTree e.video3d?),
   ("video_modifier",.ofOption Labelled.toTree e.videoModifier?),
   ("release_group",.ofOption .ofString e.releaseGroup?)]

def toTree (e : Enrichment) : Tree := .ofMembers e.members

end Enrichment

/-! ## Records -/

/-- The fields of a record that are read so far. -/
structure Record.Draft where
  source? : Option String := none
  infoHash? : Option InfoHash := none
  name? : Option String := none
  size? : Option UInt64 := none
  isPrivate : Bool := false
  enrichment? : Option Enrichment := none
  publishedAt? : Option Instant := none

namespace Record

def fields : List (Slot Draft) :=
  [.of "source" Tree.asString fun v d => { d with source? := some v },
   .of "info_hash" InfoHash.ofTree fun v d => { d with infoHash? := some v },
   .of "name" Tree.asString fun v d => { d with name? := some v },
   .of "size" (·.asUnsigned 64) fun v d => { d with size? := some (UInt64.ofNat v) },
   .of "private" Tree.asBool fun v d => { d with isPrivate := v },
   .of "enrichment" (·.asOption Enrichment.ofTree) fun v d => { d with enrichment? := v },
   .of "published_at" Instant.ofTree fun v d => { d with publishedAt? := some v }]

def Draft.finish (d : Draft) : Except String Record := do
  let source ← required "source" d.source?
  let infoHash ← required "info_hash" d.infoHash?
  let name ← required "name" d.name?
  let size ← required "size" d.size?
  let publishedAt ← required "published_at" d.publishedAt?
  return { source, infoHash, name, size, isPrivate := d.isPrivate, enrichment? := d.enrichment?, publishedAt }

def shape : Shape Draft Record where
  title := "Record"
  fields := fields
  start := {}
  finish := Draft.finish

def ofTree (t : Tree) : Except Json.Fault Record := shape.read t

def members (r : Record) : List (String × Tree) :=
  [("source",.ofString r.source),
   ("info_hash",r.infoHash.toTree),
   ("name",.ofString r.name),
   ("size",.ofNat r.size.toNat),
   ("private",.bool r.isPrivate),
   ("enrichment",.ofOption Enrichment.toTree r.enrichment?),
   ("published_at",r.publishedAt.toTree)]

def toTree (r : Record) : Tree := .ofMembers r.members

end Record

end Intake
