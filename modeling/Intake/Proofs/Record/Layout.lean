import Intake.Proofs.Json.Layout
import Intake.Proofs.Record.Json

/-!
Layouts of records. The members of a record and those of its enrichment stand in any
order among others that have no meaning here; `private` may be left out where it is
false, and a value of an enrichment where it is null. Instead of either object there may
be the array of its values. All of these texts are read as the same record
(`read_layouts`).
-/
namespace Intake

open Json (Tree Slot Shape Holds)
open Relation (ReflTransGen)

/-! ### Enrichments -/

namespace Enrichment

/-- What a field holds without a member. -/
def implied? (name : String) : Option Tree := if name = "content_type" then none else some .null

/-- One layout of an enrichment and another one. -/
def Relaid : Tree → Tree → Prop := shape.Relaid implied? fun _ _ _ => False

theorem regular : shape.Regular implied? fun _ _ _ => False where
  distinct := distinct_fields
  swap := by
    simp only [shape,fields,List.pairwise_cons,List.forall_mem_cons,List.not_mem_nil,false_implies,implies_true,
      and_true,List.Pairwise.nil]
    and_intros <;> exact Shape.swaps_of fun _ _ _ => rfl
  idle := by
    have null : ∀ f ∈ fields, f.name ≠ "content_type" → f.read .null {} = .ok {} := by
      simp only [fields,List.forall_mem_cons,List.not_mem_nil,false_implies,implies_true,and_true]
      refine ⟨fun apart => absurd rfl apart,?_⟩
      and_intros <;> exact fun _ => rfl
    intro f member v implied
    obtain ⟨apart,rfl⟩ : f.name ≠ "content_type" ∧ .null = v := by simpa [implied?] using implied
    exact null f member apart
  keeps := by
    rintro _ _ _ ⟨⟩

theorem asOption_of_relaid {v v' : Tree} {e? : Option Enrichment} (relaid : Relaid v v')
    (read : v.asOption ofTree = .ok e?) : v'.asOption ofTree = .ok e? := by
  have nested : v.asOption ofTree = some <$> ofTree v ∧ v'.asOption ofTree = some <$> ofTree v' := by
    cases relaid <;> exact ⟨rfl,rfl⟩
  rw [nested.1] at read
  rw [nested.2]
  cases one : ofTree v with
  | error fault =>
    rw [one] at read
    cases read
  | ok e =>
    have other : ofTree v' = .ok e := regular.read_of_relaid relaid one
    rwa [other,← one]

theorem asOption_of_layouts {v v' : Tree} {e? : Option Enrichment} (relaid : ReflTransGen Relaid v v')
    (read : v.asOption ofTree = .ok e?) : v'.asOption ofTree = .ok e? := by
  induction relaid with
  | refl => exact read
  | tail _ step ih => exact asOption_of_relaid step ih

end Enrichment

/-! ### Records -/

namespace Record

/-- What a field holds without a member. -/
def implied? (name : String) : Option Tree :=
  if name = "private" then some (.bool false) else if name = "enrichment" then some .null else none

/-- Layouts of the value of a field. -/
def Within (name : String) (v v' : Tree) : Prop := name = "enrichment" ∧ ReflTransGen Enrichment.Relaid v v'

/-- One layout of a record and another one. -/
def Relaid : Tree → Tree → Prop := shape.Relaid implied? Within

theorem regular : shape.Regular implied? Within where
  distinct := distinct_fields
  swap := by
    simp only [shape,fields,List.pairwise_cons,List.forall_mem_cons,List.not_mem_nil,false_implies,implies_true,
      and_true,List.Pairwise.nil]
    and_intros <;> exact Shape.swaps_of fun _ _ _ => rfl
  idle := by
    simp only [shape,fields,List.forall_mem_cons,List.not_mem_nil,false_implies,implies_true,and_true]
    and_intros <;> intro v implied <;> simp [Slot.of,implied?] at implied
    · obtain rfl := implied
      rfl
    · obtain rfl := implied
      rfl
  keeps := by
    rintro _ v v' ⟨rfl,relaid⟩
    refine ⟨_,rfl,fun d e read => ?_⟩
    cases one : v.asOption Enrichment.ofTree with
    | error fault =>
      simp only [Slot.of,one] at read
      cases read
    | ok e? =>
      simpa only [Slot.of,one,Enrichment.asOption_of_layouts relaid one] using read

end Record

/-- A line that holds a record is the record, or is refused for the rule that the record breaks. -/
theorem Command.parseLine_of_holds {line : String} {t : Tree} {r : Record} (holds : Holds line t)
    (read : Record.ofTree t = .ok r) :
    parseLine line = match r.validate with
      | .ok () => .ok (some r)
      | .error cause => .error (.invalidRecord cause) := by
  have nested : t.IsNested := by
    cases t with
    | array | object => trivial
    | _ => cases read
  obtain ⟨trimmed,filled⟩ := Json.holds_trimmed holds nested
  have whole : Json.readText Record.ofTree (Text.trimmed line) = .ok r := by
    rw [Json.readText_of_holds trimmed,read]
  rw [parseLine,filled,whole]
  cases valid : r.validate <;> simp [valid]

/-- All layouts of a record are the same record: whatever text another layout has, the record is read from it,
    and a line with this text is taken, or refused, as the record is. -/
theorem Record.read_layouts {text text' : String} {t t' : Tree} {r : Record} (holds : Holds text t)
    (read : Json.readText Record.ofTree text = .ok r) (relaid : ReflTransGen Record.Relaid t t')
    (holds' : Holds text' t') :
    Json.readText Record.ofTree text' = .ok r ∧
      Command.parseLine text' = match r.validate with
        | .ok () => .ok (some r)
        | .error cause => .error (.invalidRecord cause) := by
  rw [Json.readText_of_holds holds] at read
  have again : Record.ofTree t' = .ok r := Record.regular.read_of_layouts relaid read
  rw [Json.readText_of_holds holds']
  exact ⟨again,Command.parseLine_of_holds holds' again⟩

/-- A film of which only the kind is known. -/
def film : Record where
  source := "dht"
  infoHash := intricate.infoHash
  name := "A film"
  size := 7
  enrichment? := some (.bare .movie)
  publishedAt := ⟨⟨1999,3,31,by decide⟩,61200,500,by decide⟩

/-- What is known of the film, as an object that names the absent title, and as an array. -/
def filmKind : Tree := .ofMembers [("title",.null),("content_type",.ofString "movie")]

def filmKindValues : Tree := .ofList (.ofString "movie" :: List.replicate 12 .null)

/-- The members of the film, save the one that is implied. -/
def filmMembers (enrichment : Tree) : List (String × Tree) :=
  [("published_at",film.publishedAt.toTree),("enrichment",enrichment),("size",.ofNat 7),("source",.ofString "dht"),
   ("info_hash",film.infoHash.toTree),("name",.ofString "A film")]

def filmObject : Tree := .ofMembers (filmMembers filmKind ++ [("private",.bool false)])

def filmNote : Tree := .ofList [.ofMembers [("seen",.ofNat 1)]]

/-- The film without what is implied and with a note. -/
def filmNoted : List (String × Tree) := ("note",filmNote) :: filmMembers filmKindValues

def filmArray : Tree :=
  .ofList [.ofString "dht",film.infoHash.toTree,.ofString "A film",.ofNat 7,.bool false,filmKindValues,
    film.publishedAt.toTree]

theorem relaid_filmKind : ReflTransGen Enrichment.Relaid filmKind filmKindValues := by
  have without (name : String) (other : name ≠ "content_type") :
      Shape.ValueOf Enrichment.implied? [(.ofString "content_type",.ofString "movie")] name .null := by
    refine .inr ⟨?_,if_neg other⟩
    simpa [Json.key_ofString] using other.symm
  refine .tail (.single (.drop [] _ (Json.key_ofString "title") rfl)) (.array ?_)
  refine .cons (.inl ⟨_,Json.key_ofString "content_type",List.mem_singleton_self _⟩) ?_
  iterate 12 refine .cons (without _ (by decide)) ?_
  exact .nil

theorem relaid_film : ReflTransGen Record.Relaid filmObject filmArray := by
  have spelled : filmNote.Spelled filmNote.text := by
    refine Json.spelled_ofList ?_
    simpa using Json.spelled_ofMembers (by simpa using Json.spelled_ofNat 1)
  let entry (m : String × Tree) : Tree × Tree := (.ofString m.1,m.2)
  have backwards : (filmNoted.map entry).Perm (filmNoted.reverse.map entry) :=
    (List.reverse_perm filmNoted).symm.map entry
  have value (name : String) (v : Tree) (member : (name,v) ∈ filmNoted.reverse) :
      Shape.ValueOf Record.implied? (filmNoted.reverse.map entry) name v :=
    .inl ⟨_,Json.key_ofString name,List.mem_map_of_mem member⟩
  have implied : Shape.ValueOf Record.implied? (filmNoted.reverse.map entry) "private" (.bool false) := by
    refine .inr ⟨?_,rfl⟩
    simp [filmNoted,filmMembers,entry,Json.key_ofString]
  refine .head (.inside [_] _ (Json.key_ofString "enrichment") ⟨rfl,relaid_filmKind⟩) ?_
  refine .head (.drop [_,_,_,_,_,_] [] (Json.key_ofString "private") rfl) ?_
  refine .head (.add [] _ (Json.key_ofString "note") (by decide) spelled) ?_
  refine .head (.reorder backwards) (.single (.array ?_))
  refine .cons (value "source" _ ?_) (.cons (value "info_hash" _ ?_) (.cons (value "name" _ ?_)
    (.cons (value "size" _ ?_) (.cons implied (.cons (value "enrichment" _ ?_) (.cons (value "published_at" _ ?_)
      .nil)))))) <;> simp [filmNoted,filmMembers]

theorem read_layouts_film :
    Json.readText Record.ofTree (String.ofList (' ' :: filmArray.text)) = .ok film ∧
      Command.parseLine (String.ofList (' ' :: filmArray.text)) = .ok (some film) := by
  have text (s : String) := Json.spelled_ofString s
  have object : filmObject.Spelled filmObject.text := by
    have kind : filmKind.Spelled filmKind.text :=
      Json.spelled_ofMembers (by simpa [List.forall_mem_cons] using ⟨.null,text "movie"⟩)
    refine Json.spelled_ofMembers ?_
    simp only [filmMembers,List.cons_append,List.nil_append,List.forall_mem_cons]
    exact ⟨text _,kind,Json.spelled_ofNat 7,text _,text _,text _,.false,by simp⟩
  have array : filmArray.Spelled filmArray.text := by
    have kind : filmKindValues.Spelled filmKindValues.text :=
      Json.spelled_ofList (by simpa [List.forall_mem_cons] using ⟨text "movie",.null⟩)
    refine Json.spelled_ofList ?_
    simp only [List.forall_mem_cons]
    exact ⟨text _,text _,text _,Json.spelled_ofNat 7,.false,kind,text _,by simp⟩
  have holds : Holds (String.ofList (' ' :: filmArray.text)) filmArray :=
    ⟨[' '],_,[],by simp [Json.Blanks,Json.isSpace],array,Json.blanks_nil,by simp⟩
  have read : Json.readText Record.ofTree (String.ofList filmObject.text) = .ok film := by
    have some? : (Record.ofTree filmObject).toOption = some film := by decide +kernel
    rw [Json.readText_of_holds (Json.holds_text object)]
    cases read : Record.ofTree filmObject <;> simp_all [Except.toOption]
  have valid : film.validate = .ok () := by decide +kernel
  have all := Record.read_layouts (Json.holds_text object) read relaid_film holds
  rwa [valid] at all

end Intake
