import Intake.Calendar.Instant
import Intake.Episodes
import Intake.InfoHash
import Intake.Label

/-!
Records: discovered items as they are handed to an import, with what earlier
stages found out about them (`Enrichment`). `Record.validate` holds the rules that
a record has to meet before it is written.
-/
namespace Intake

open Calendar (Date Instant)

/-- What may be known of the content of an item. -/
structure Details where
  /-- The outside catalogue that lists the content. -/
  contentSource? : Option String := none
  /-- The name of the content in that catalogue. -/
  contentId? : Option String := none
  title? : Option String := none
  releaseDate? : Option Date := none
  releaseYear? : Option UInt16 := none
  episodes? : Option Episodes := none
  videoResolution? : Option VideoResolution := none
  videoSource? : Option VideoSource := none
  videoCodec? : Option VideoCodec := none
  video3d? : Option Video3d := none
  videoModifier? : Option VideoModifier := none
  releaseGroup? : Option String := none
deriving DecidableEq

structure Enrichment extends Details where
  contentType : ContentType
deriving DecidableEq

/-- An enrichment that knows the kind of content only. -/
def Enrichment.bare (contentType : ContentType) : Enrichment := { contentType }

structure Record where
  /-- The key of the source that discovered the item. -/
  source : String
  infoHash : InfoHash
  name : String
  size : UInt64
  isPrivate : Bool := false
  enrichment? : Option Enrichment := none
  publishedAt : Instant
deriving DecidableEq

/-- What is wrong with an enrichment. -/
inductive Enrichment.Defect where
  /-- One of the outside catalogue and the name in it, without the other. -/
  | unpairedContent
  | yearOutOfRange (year : UInt16)
deriving DecidableEq, Repr

/-- Why a record, or what is read for one, is refused. -/
inductive Invalidity where
  | emptySource (infoHash : InfoHash)
  | enrichment (infoHash : InfoHash) (defect : Enrichment.Defect)
  /-- The size does not fit the column that holds it. -/
  | sizeTooLarge (infoHash : InfoHash) (size : UInt64)
  /-- No value of the vocabulary has this label. -/
  | unknownLabel (vocabulary label : String)
  /-- A refusal in words. -/
  | stated (text : String)
deriving DecidableEq

def Enrichment.Defect.message : Enrichment.Defect → String
  | .unpairedContent => "content_source and content_id must be set together"
  | .yearOutOfRange year => s!"release_year out of range: {year.toNat}"

def Invalidity.message : Invalidity → String
  | .emptySource h => "empty source for " ++ h.hex
  | .enrichment h defect => h.hex ++ ": Invalid record: " ++ defect.message
  | .sizeTooLarge h size => "size too large for " ++ h.hex ++ s!": {size.toNat}"
  | .unknownLabel vocabulary label => s!"unknown {vocabulary}: '{label}'"
  | .stated text => text

/-- The value of a label. -/
def label {α : Type} [Labelled α] (s : String) : Except Invalidity α :=
  match Labelled.ofLabel? s with
  | some a => .ok a
  | none => .error (.unknownLabel (Labelled.title α) s)

def Enrichment.validate (e : Enrichment) : Except Enrichment.Defect Unit :=
  if e.contentSource?.isSome ≠ e.contentId?.isSome then .error .unpairedContent
  else match e.releaseYear? with
    | some year => if 1000 ≤ year ∧ year ≤ 9999 then .ok () else .error (.yearOutOfRange year)
    | none => .ok ()

def Record.validate (r : Record) : Except Invalidity Unit :=
  if (Text.trim r.source.toList).isEmpty then .error (.emptySource r.infoHash)
  else match r.enrichment? with
    | some e => e.validate.mapError (.enrichment r.infoHash)
    | none => .ok ()

end Intake
