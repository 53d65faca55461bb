import Intake.Record.Json

/-!
What records become when they are written: items, the sources that discovered
them, and the entries that join an item to a source and to an import.
-/
namespace Intake

open Calendar (Instant)
open Json (Tree Slot Shape required)

/-- One run of an import. Its name is written with every item that it brings. -/
structure ImportInfo where
  id : String
deriving DecidableEq

structure Source where
  key : String
  name : String
deriving DecidableEq

/-- A source known by its key only. -/
def Source.ofKey (key : String) : Source := ⟨key,key⟩

/-- Where and when an item was discovered, and by which import it came. -/
structure ItemSource where
  source : String
  importId? : Option String
  publishedAt : Instant
deriving DecidableEq

structure Item where
  infoHash : InfoHash
  name : String
  size : UInt64
  isPrivate : Bool
  filesStatus : FilesStatus
  sources : List ItemSource
  /-- What is known of its content. -/
  hint? : Option Enrichment
deriving DecidableEq

/-- The item of a record, brought by an import. -/
def Item.ofRecord (info : ImportInfo) (r : Record) : Item where
  infoHash := r.infoHash
  name := r.name
  size := r.size
  isPrivate := r.isPrivate
  filesStatus := .noInfo
  sources := [⟨r.source,some info.id,r.publishedAt⟩]
  hint? := r.enrichment?

namespace ImportInfo

def shape : Shape (Option String) ImportInfo where
  title := "ImportInfo"
  fields := [.of "id" Tree.asString fun v _ => some v]
  start := none
  finish d := return ⟨← required "id" d⟩

def ofTree (t : Tree) : Except Json.Fault ImportInfo := shape.read t

def toTree (info : ImportInfo) : Tree := .ofMembers [("id",.ofString info.id)]

end ImportInfo

end Intake
