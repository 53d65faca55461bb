import Intake.Command.Import
import Intake.Proofs.Calendar.Reading
import Intake.Proofs.Command.Gate
import Intake.Proofs.Episodes
import Intake.Proofs.Json.Shape

/-!
Records read back from their JSON form, with all that is known of their content and
their moment as its text shows it (`read_record`). A line with this form between any
blanks is the record, or is refused for what is wrong with it (`parseLine_written`).
-/
namespace Intake

open Calendar (Date Instant)
open Json (Tree Shape Slot)

/-! ### Values of fields -/

theorem read_infoHash (h : InfoHash) : InfoHash.ofTree h.toTree = .ok h := by
  rw [InfoHash.toTree,InfoHash.ofTree,Json.asString_ofString]
  simp only [bind,Except.bind,InfoHash.parse_hex]
  rfl

theorem read_dateTree (d : Date) : Date.ofTree d.toTree = .ok d := by
  rw [Date.toTree,Date.ofTree,Json.asFormatted_ofString,String.toList_ofList,Calendar.read_date]
  rfl

theorem read_instantTree (t : Instant) : Instant.ofTree t.toTree = .ok t.shown := by
  rw [Instant.toTree,Instant.ofTree,Json.asFormatted_ofString,String.toList_ofList,Calendar.read_instant]
  rfl

theorem read_label {α : Type} [Labelled α] (a : α) : Labelled.ofTree (Labelled.toTree a) = .ok a :=
  Json.asVariant_ofString (Labelled.ofLabel?_label a)

/-! ### Enrichments -/

namespace Enrichment

theorem distinct_fields : (fields.map Slot.name).Nodup := by decide

/-- The draft that holds all of an enrichment. -/
def draft (e : Enrichment) : Draft := { e.toDetails with contentType? := some e.contentType }

theorem read_draft (e : Enrichment) :
    (fields.zip (e.members.map (·.2))).foldlM (fun d w => w.1.read w.2 d) shape.start = .ok e.draft := by
  have string (s? : Option String) : (Tree.ofOption .ofString s?).asOption Tree.asString = .ok s? := by
    simpa using Json.asOption_ofOption Json.asString_ofString (fun _ => trivial) s?
  have date (d? : Option Date) : (Tree.ofOption Date.toTree d?).asOption Date.ofTree = .ok d? := by
    simpa using Json.asOption_ofOption read_dateTree (fun _ => trivial) d?
  have year (y? : Option UInt16) : (Tree.ofOption (fun y => .ofNat y.toNat) y?).asOption (·.asUnsigned 16) =
      .ok (y?.map UInt16.toNat) :=
    Json.asOption_ofOption (fun y => Json.asUnsigned_ofNat (by decide) y.toNat_lt) (fun _ => trivial) y?
  have episodes (e? : Option Episodes) : (Tree.ofOption Episodes.toTree e?).asOption Episodes.ofTree = .ok e? := by
    simpa using Json.asOption_ofOption Episodes.read_episodes (fun _ => trivial) e?
  have labelled {α : Type} [Labelled α] (a? : Option α) :
      (Tree.ofOption Labelled.toTree a?).asOption Labelled.ofTree = .ok a? := by
    simpa using Json.asOption_ofOption read_label (fun _ => trivial) a?
  simp only [fields,members,List.map_cons,List.map_nil,List.zip_cons_cons,List.zip_nil_right,List.foldlM_cons,
    List.foldlM_nil,Slot.of,read_label,string,date,year,episodes,labelled,Functor.map,Except.map,bind,Except.bind]
  simp only [Option.map_map,Function.comp_def,UInt16.ofNat_toNat,Option.map_id']
  rfl

theorem read_enrichment (e : Enrichment) : ofTree e.toTree = .ok e := by
  have named : e.members = (shape.fields.map Slot.name).zip (e.members.map (·.2)) := rfl
  have whole := Shape.read_fields (s := shape) distinct_fields rfl (read_draft e)
  rw [ofTree,toTree,named,whole]
  rfl

theorem spelled (e : Enrichment) : e.toTree.Spelled e.toTree.text := by
  refine Json.spelled_ofMembers ?_
  have text (s : String) := Json.spelled_ofString s
  simp only [members,List.forall_mem_cons]
  exact ⟨text _,Json.spelled_ofOption text _,Json.spelled_ofOption text _,Json.spelled_ofOption text _,
    Json.spelled_ofOption (fun d => text _) _,Json.spelled_ofOption (fun y => Json.spelled_ofNat y.toNat) _,
    Json.spelled_ofOption Episodes.spelled_episodes _,Json.spelled_ofOption (fun a => text _) _,
    Json.spelled_ofOption (fun a => text _) _,Json.spelled_ofOption (fun a => text _) _,
    Json.spelled_ofOption (fun a => text _) _,Json.spelled_ofOption (fun a => text _) _,
    Json.spelled_ofOption text _,by simp⟩

end Enrichment

/-! ### Records -/

namespace Record

theorem distinct_fields : (fields.map Slot.name).Nodup := by decide

/-- The record with its moment as a text shows it. -/
def shown (r : Record) : Record := { r with publishedAt := r.publishedAt.shown }

theorem shown_eq_self_iff {r : Record} : r.shown = r ↔ r.publishedAt.IsRegular := by
  rw [← Instant.shown_eq_self_iff]
  exact ⟨congrArg publishedAt,fun same => by rw [shown,same]⟩

/-- The draft that holds all of a record, as its text shows it. -/
def draft (r : Record) : Draft where
  source? := some r.source
  infoHash? := some r.infoHash
  name? := some r.name
  size? := some r.size
  isPrivate := r.isPrivate
  enrichment? := r.enrichment?
  publishedAt? := some r.publishedAt.shown

theorem read_draft (r : Record) :
    (fields.zip (r.members.map (·.2))).foldlM (fun d w => w.1.read w.2 d) shape.start = .ok r.draft := by
  have size : (Tree.ofNat r.size.toNat).asUnsigned 64 = .ok r.size.toNat :=
    Json.asUnsigned_ofNat (by decide) r.size.toNat_lt
  have enrichment : (Tree.ofOption Enrichment.toTree r.enrichment?).asOption Enrichment.ofTree = .ok r.enrichment? := by
    simpa using Json.asOption_ofOption Enrichment.read_enrichment (fun _ => trivial) r.enrichment?
  have bool : (Tree.bool r.isPrivate).asBool = .ok r.isPrivate := rfl
  simp only [fields,members,List.map_cons,List.map_nil,List.zip_cons_cons,List.zip_nil_right,List.foldlM_cons,
    List.foldlM_nil,Slot.of,Json.asString_ofString,read_infoHash,size,bool,enrichment,read_instantTree,Functor.map,
    Except.map,bind,Except.bind,UInt64.ofNat_toNat]
  rfl

theorem read_record (r : Record) : ofTree r.toTree = .ok r.shown := by
  have named : r.members = (shape.fields.map Slot.name).zip (r.members.map (·.2)) := rfl
  have whole := Shape.read_fields (s := shape) distinct_fields rfl (read_draft r)
  rw [ofTree,toTree,named,whole]
  rfl

theorem spelled (r : Record) : r.toTree.Spelled r.toTree.text := by
  refine Json.spelled_ofMembers ?_
  have text (s : String) := Json.spelled_ofString s
  simp only [members,List.forall_mem_cons]
  exact ⟨text _,text _,text _,Json.spelled_ofNat _,Json.spelled_bool _,Json.spelled_ofOption Enrichment.spelled _,
    text _,by simp⟩

/-- The text that is written for a record stands between braces. -/
theorem text_braces (r : Record) : ∃ inner, r.toTree.text = '\x7b' :: inner ++ ['\x7d'] := by
  rw [toTree,Tree.ofMembers,Tree.text]
  exact ⟨_,rfl⟩

theorem read_text (r : Record) : Json.readText ofTree (String.ofList r.toTree.text) = .ok r.shown := by
  rw [Json.readText_of_holds (Json.holds_text r.spelled),read_record]

theorem trim_text (r : Record) : Text.trim r.toTree.text = r.toTree.text := by
  obtain ⟨inner,braces⟩ := r.text_braces
  rw [braces]
  refine Text.trim_eq_self ?_ ?_
  · intro c first
    obtain rfl : '\x7b' = c := by simpa using first
    decide
  · intro c last
    rw [List.getLast?_concat] at last
    obtain rfl := Option.some.inj last
    decide

end Record

/-- A record survives its JSON form, with its moment as the text shows it: its text is read as that record and
    nothing else, and a line with this text between any blanks is that record, or is refused for the rule that the
    record breaks. It is the record itself just if its nanoseconds do not run on beyond a second after which no
    clock shows a leap second. -/
theorem parseLine_written (r : Record) {before behind : List Char} (first : ∀ c ∈ before, Text.isBlank c = true)
    (last : ∀ c ∈ behind, Text.isBlank c = true) :
    Json.readText Record.ofTree (String.ofList r.toTree.text) = .ok r.shown ∧
      (r.shown = r ↔ r.publishedAt.IsRegular) ∧
      Command.parseLine (String.ofList (before ++ (r.toTree.text ++ behind))) = match r.validate with
        | .ok () => .ok (some r.shown)
        | .error cause => .error (.invalidRecord cause) := by
  refine ⟨r.read_text,Record.shown_eq_self_iff,?_⟩
  have trimmed : Text.trimmed (String.ofList (before ++ (r.toTree.text ++ behind))) = String.ofList r.toTree.text := by
    rw [Text.trimmed,String.toList_ofList,Text.trim_around first last,r.trim_text]
  have filled : (String.ofList r.toTree.text).isEmpty = false := by
    obtain ⟨inner,braces⟩ := r.text_braces
    rw [braces]
    simp
  have same : r.shown.validate = r.validate := rfl
  rw [Command.parseLine,trimmed,filled,r.read_text]
  cases valid : r.validate <;> simp [same,valid]

/-- A record with everything that is hard to write: characters that need escapes and others that do not, the
    greatest numbers, a season as a whole, and a leap second in a year before zero. -/
def intricate : Record where
  source := "\"a\\\n\u0001\u00e9😀/"
  infoHash := ⟨List.replicate 20 (.ofNat 0xaf),rfl⟩
  name := "\x7f\u2028"
  size := .ofNat 18446744073709551615
  isPrivate := true
  enrichment? := some
    { contentType := .tvShow
      contentSource? := some "tmdb"
      contentId? := some ""
      releaseDate? := some ⟨-1,2,28,by decide⟩
      releaseYear? := some (.ofNat 9999)
      episodes? := some (.ofEntries [(.ofNat 0,[]),(.ofNat 4294967295,[.ofNat 20,.ofNat 1])])
      videoCodec? := some .x265 }
  publishedAt := ⟨⟨-262143,12,31,by decide⟩,86399,1000000001,by decide⟩

theorem parseLine_written_intricate :
    intricate.validate = .ok () ∧
      Command.parseLine (String.ofList (['\u3000',' '] ++ (intricate.toTree.text ++ ['\r','\n']))) =
        .ok (some intricate) := by
  have valid : intricate.validate = .ok () := by decide +kernel
  have first : ∀ c ∈ ['\u3000',' '], Text.isBlank c = true := List.all_eq_true.mp rfl
  have last : ∀ c ∈ ['\r','\n'], Text.isBlank c = true := List.all_eq_true.mp rfl
  obtain ⟨-,same,parsed⟩ := parseLine_written intricate first last
  rw [valid,same.mpr (by decide)] at parsed
  exact ⟨valid,parsed⟩

/-- Four seconds past a minute, and a third of a second beyond the next. -/
def runOn : Record :=
  { Record.bare "dht" 1 with publishedAt := ⟨⟨2024,1,2,by decide⟩,86164,1333333333,by decide⟩ }

/-- What is read of a text is not always the record that was written: five seconds past the minute are read where
    the nanoseconds of the fourth run on. -/
theorem written_not_read : ¬ ∀ r : Record, Json.readText Record.ofTree (String.ofList r.toTree.text) = .ok r := by
  intro all
  have read := all runOn
  rw [runOn.read_text] at read
  have regular := Record.shown_eq_self_iff.mp (Except.ok.inj read)
  exact absurd regular (by decide)

end Intake
