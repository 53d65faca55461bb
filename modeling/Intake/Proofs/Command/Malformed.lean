import Intake.Proofs.Command.Undisturbed
import Intake.Proofs.Text.Lines

/-!
What a line that is no record does to the others. If it is text it is skipped, and all
else is as if it were not there; but bytes that are no text end the import, and the
lines behind them are not read (`malformed_inserted`).
-/
namespace Intake.Command

open Text (Whole rawLines lineText)

/-- The bytes are neither a blank line nor one that passes the gate. -/
def Spoilt (m : List UInt8) : Prop :=
  ∀ text, Text.Utf8.decode m = .ok text → ∃ f, parseLine (String.ofList text) = .error f

/-- A line is put between the lines of a stream, before the first or behind the last. -/
inductive Inserted (m : List UInt8) : List UInt8 → List UInt8 → Prop where
  | between {before after : List UInt8} (whole : Whole before) :
      Inserted m (before ++ after) (before ++ (m ++ 0x0a :: after))
  /-- The stream ends without a line feed behind the new line. -/
  | last {before : List UInt8} (whole : Whole before) : Inserted m before (before ++ m)
  /-- The last line had no line feed. -/
  | behind {before line tail : List UInt8} (whole : Whole before) (plain : 0x0a ∉ line) (filled : line ≠ [])
      (ends : tail = [] ∨ tail = [0x0a]) : Inserted m (before ++ line) (before ++ (line ++ 0x0a :: (m ++ tail)))

/-- The bytes are a line with its line feed or without. -/
def IsLine (line raw : List UInt8) : Prop := raw = line ∨ raw = line ++ [0x0a]

theorem rawLines_between {m before : List UInt8} (plain : 0x0a ∉ m) (whole : Whole before) (after : List UInt8) :
    rawLines (before ++ (m ++ 0x0a :: after)) = rawLines before ++ (m ++ [0x0a]) :: rawLines after := by
  rw [Text.rawLines_append whole,Text.rawLines_cons plain]

theorem rawLines_last {m before : List UInt8} (plain : 0x0a ∉ m) (filled : m ≠ []) (whole : Whole before) :
    rawLines (before ++ m) = rawLines before ++ [m] := by
  rw [Text.rawLines_append whole,Text.rawLines_of_plain plain filled]

theorem rawLines_behind {m before line tail : List UInt8} (plain : 0x0a ∉ m) (filled : m ≠ []) (whole : Whole before)
    (unended : 0x0a ∉ line) (ends : tail = [] ∨ tail = [0x0a]) :
    rawLines (before ++ (line ++ 0x0a :: (m ++ tail))) = rawLines before ++ [line ++ [0x0a],m ++ tail] := by
  rw [Text.rawLines_append whole,Text.rawLines_cons unended]
  rcases ends with rfl | rfl
  · rw [List.append_nil,Text.rawLines_of_plain plain filled]
  · rw [Text.rawLines_cons plain,rawLines]

theorem forall₂_isLine (lines : List (List UInt8)) : List.Forall₂ IsLine lines lines :=
  List.forall₂_same.mpr fun _ _ => .inl rfl

theorem rawLines_of_inserted {m bytes bytes' : List UInt8} (plain : 0x0a ∉ m) (filled : m ≠ [])
    (inserted : Inserted m bytes bytes') :
    ∃ front front' line back, rawLines bytes = front ++ back ∧ rawLines bytes' = front' ++ line :: back ∧
      IsLine m line ∧ List.Forall₂ IsLine front front' := by
  cases inserted with
  | @between before after whole =>
    have old := Text.rawLines_append whole after
    exact ⟨_,_,_,_,old,rawLines_between plain whole after,.inr rfl,forall₂_isLine _⟩
  | last whole =>
    exact ⟨_,_,_,[],(List.append_nil _).symm,rawLines_last plain filled whole,.inl rfl,forall₂_isLine _⟩
  | @behind before line tail whole unended nonempty ends =>
    -- The line that had no line feed gets one, and is read as before.
    refine ⟨rawLines before ++ [line],rawLines before ++ [line ++ [0x0a]],m ++ tail,[],?_,?_,?_,?_⟩
    · rw [rawLines_last unended nonempty whole,List.append_nil]
    · rw [rawLines_behind plain filled whole unended ends,List.append_assoc]
      rfl
    · rcases ends with rfl | rfl
      · exact .inl (by simp)
      · exact .inr rfl
    · exact List.rel_append (forall₂_isLine _) (.cons (.inr rfl) .nil)

/-- There is such a stream for every place between the lines. -/
theorem exists_inserted {m bytes : List UInt8} {front back : List (List UInt8)} (plain : 0x0a ∉ m) (filled : m ≠ [])
    (raws : rawLines bytes = front ++ back) :
    ∃ bytes' front' line, Inserted m bytes bytes' ∧ rawLines bytes' = front' ++ line :: back ∧
      IsLine m line ∧ List.Forall₂ IsLine front front' := by
  by_cases more : back = []
  · subst more
    rw [List.append_nil] at raws
    obtain ⟨before,line,whole,unended,rfl⟩ := Text.exists_last bytes
    by_cases nonempty : line = []
    · rw [nonempty,List.append_nil] at raws ⊢
      have new := rawLines_last plain filled whole
      rw [raws] at new
      exact ⟨_,_,_,.last whole,new,.inl rfl,forall₂_isLine _⟩
    · have new := rawLines_behind plain filled whole unended (.inl rfl)
      rw [rawLines_last unended nonempty whole] at raws
      refine ⟨_,rawLines before ++ [line ++ [0x0a]],m,.behind whole unended nonempty (.inl rfl),?_,.inl rfl,?_⟩
      · rw [new]
        simp
      · rw [← raws]
        exact List.rel_append (forall₂_isLine _) (.cons (.inr rfl) .nil)
  · obtain ⟨before,after,whole,rfl,lines⟩ := Text.exists_before raws more
    rw [Text.rawLines_append whole,lines] at raws
    have new := rawLines_between plain whole after
    rw [lines,List.append_cancel_left raws] at new
    exact ⟨_,_,_,.between whole,new,.inr rfl,forall₂_isLine _⟩

/-! ### What lines are read as -/

theorem parseLine_congr {a b : String} (same : Text.trim a.toList = Text.trim b.toList) :
    parseLine a = parseLine b := by
  have trimmed : Text.trimmed a = Text.trimmed b := by rw [Text.trimmed,Text.trimmed,same]
  simp only [parseLine,trimmed]

/-- What a line is read as, if it is text. -/
def view (line : Except ReadFault String) : Option (Except Failure (Option Record)) := line.toOption.map parseLine

def inputLine (raw : List UInt8) : Except ReadFault String := (lineText raw).mapError .notText

theorem lines_of_bytes (bytes : List UInt8) :
    ({ content := .bytes bytes } : Input).lines = (rawLines bytes).map inputLine := by
  simp [Input.lines,Text.lines,inputLine,Function.comp_def]

theorem view_of_isLine {line raw : List UInt8} (isLine : IsLine line raw) :
    view (inputLine raw) = view (inputLine line) := by
  rcases isLine with rfl | rfl
  · rfl
  have same := Text.trim_lineText line
  cases ended : lineText (line ++ [0x0a]) <;> cases bare : lineText line <;> rw [ended,bare] at same
  case error.error => simp [view,inputLine,ended,bare,Except.mapError,Except.toOption]
  case error.ok | ok.error => cases same
  case ok.ok a b =>
    have read := parseLine_congr (Option.some.inj same)
    simp [view,inputLine,ended,bare,Except.mapError,Except.toOption,read]

theorem views_of_isLine {lines raws : List (List UInt8)} (alike : List.Forall₂ IsLine lines raws) :
    (raws.map inputLine).map view = (lines.map inputLine).map view := by
  induction alike with
  | nil => rfl
  | cons isLine rest ih => simp only [List.map_cons,view_of_isLine isLine,ih]

/-- A spoilt line that is text is read as no record, and one that is not is not read. -/
theorem view_of_spoilt {m raw : List UInt8} (spoilt : Spoilt m) (isLine : IsLine m raw) :
    (∀ text, Text.Utf8.decode m = .ok text → ∃ f, view (inputLine raw) = some (.error f)) ∧
      ∀ fault, Text.Utf8.decode m = .error fault → view (inputLine raw) = none := by
  rw [view_of_isLine isLine]
  have same := Text.toOption_lineText m
  constructor
  · intro text decoded
    obtain ⟨f,malformed⟩ := spoilt text decoded
    rw [decoded] at same
    cases line : lineText m with
    | error fault => simp [line,Except.toOption] at same
    | ok s =>
      have read : parseLine s = parseLine (String.ofList text) := by
        refine parseLine_congr ?_
        rw [String.toList_ofList]
        simpa [line,Except.toOption] using same
      exact ⟨f,by simp [view,inputLine,line,Except.mapError,Except.toOption,read,malformed]⟩
  · intro fault decoded
    rw [decoded] at same
    cases line : lineText m with
    | error fault => simp [view,inputLine,line,Except.mapError,Except.toOption]
    | ok s => simp [line,Except.toOption] at same

theorem filled_of_spoilt {m : List UInt8} (spoilt : Spoilt m) : m ≠ [] := by
  rintro rfl
  obtain ⟨f,malformed⟩ := spoilt [] rfl
  have blank : parseLine (String.ofList []) = .ok none := parseLine_eq_none.mpr rfl
  rw [blank] at malformed
  cases malformed

/-! ### Two imports -/

section
variable {settings : Settings} {info : ImportInfo} {now : Nat} {lines lines' : List (Except ReadFault String)}
  {result result' : Except ReadFault Summary} {committed committed' : List InfoHash}

/-- How an import ends, by what its lines are read as. -/
theorem Undisturbed.views (undisturbed : Undisturbed settings info now lines result committed) :
    (∃ readings, lines.map view = readings.map some ∧ result = .ok (tally readings) ∧
        committed.Perm (Writer.hashes (readings.filterMap record?))) ∨
      (none ∈ lines.map view ∧ ∃ fault, .error fault ∈ lines ∧ result = .error fault) := by
  obtain ⟨read,perm,⟨rfl,ended⟩ | ⟨fault,rest,rfl,ended⟩⟩ := undisturbed.ends
  · refine .inl ⟨read.map parseLine,?_,ended,perm⟩
    simp [view,Except.toOption]
  · exact .inr ⟨by simp [view,Except.toOption],fault,by simp,ended⟩

/-- A line more that is read as no record is one line more that is skipped. -/
theorem tally_insert (front back : List (Except Failure (Option Record))) (f : Failure) :
    tally (front ++ .error f :: back) =
        { tally (front ++ back) with
          lines := (tally (front ++ back)).lines + 1, skipped := (tally (front ++ back)).skipped + 1 } ∧
      (front ++ .error f :: back).filterMap record? = (front ++ back).filterMap record? := by
  have skips : isMalformed (.error f) = true := rfl
  have nothing : record? (.error f) = none := rfl
  have same : (front ++ .error f :: back).filterMap record? = (front ++ back).filterMap record? := by
    simp [nothing]
  refine ⟨?_,same⟩
  simp only [tally,same,List.length_append,List.length_cons,List.countP_append,List.countP_cons,skips,if_true,
    Nat.add_assoc]

/-- An import with one line more, if that line is read as no record. -/
theorem Undisturbed.inserted {now' : Nat} (undisturbed : Undisturbed settings info now lines result committed)
    (undisturbed' : Undisturbed settings info now' lines' result' committed')
    {front back : List (Option (Except Failure (Option Record)))} {f : Failure}
    (views : lines.map view = front ++ back)
    (views' : lines'.map view = front ++ some (.error f) :: back) :
    (∃ summary, result = .ok summary ∧ committed'.Perm committed ∧
        result' = .ok { summary with lines := summary.lines + 1, skipped := summary.skipped + 1 }) ∨
      ∃ fault fault', result = .error fault ∧ result' = .error fault' := by
  rcases undisturbed.views with ⟨readings,read,rfl,perm⟩ | ⟨unread,fault,-,rfl⟩
  · -- All lines of the one are text, and so are those of the other.
    obtain ⟨first,second,rfl,rfl,rfl⟩ := List.map_eq_append_iff.mp (read.symm.trans views)
    have whole : lines'.map view = (first ++ .error f :: second).map some := by simp [views']
    rcases undisturbed'.views with ⟨readings',read',rfl,perm'⟩ | ⟨unread,-⟩
    · obtain rfl := (List.map_inj_right fun _ _ => Option.some.inj).mp (whole.symm.trans read')
      obtain ⟨tallied,same⟩ := tally_insert first second f
      rw [same] at perm'
      exact .inl ⟨_,rfl,perm'.trans perm.symm,congrArg Except.ok tallied⟩
    · simp [whole] at unread
  · -- A line that is no text is among the lines of the other as well.
    have unread' : none ∈ lines'.map view := by
      rw [views] at unread
      simp only [views',List.mem_append,List.mem_cons] at unread ⊢
      tauto
    rcases undisturbed'.views with ⟨readings',read',-⟩ | ⟨-,fault',-,rfl⟩
    · simp [read'] at unread'
    · exact .inr ⟨fault,fault',rfl,rfl⟩

/-- An import with a line more that is no text. -/
theorem Undisturbed.unreadable (undisturbed : Undisturbed settings info now lines result committed)
    (unread : none ∈ lines.map view) : ∃ fault, .error fault ∈ lines ∧ result = .error fault := by
  rcases undisturbed.views with ⟨readings,read,-⟩ | ⟨-,stuck⟩
  · simp [read] at unread
  · exact stuck

end

theorem notText_of_bytes {bytes : List UInt8} {fault : ReadFault}
    (member : .error fault ∈ ({ content := .bytes bytes } : Input).lines) : ∃ cause, fault = .notText cause := by
  rw [lines_of_bytes] at member
  obtain ⟨raw,-,stuck⟩ := List.mem_map.mp member
  cases line : lineText raw with
  | ok s => simp [inputLine,line,Except.mapError] at stuck
  | error cause => exact ⟨cause,by simpa [inputLine,line,Except.mapError] using stuck.symm⟩

/-- A line is put into an input that is neither blank nor a record. If it is text, then the import goes on as it
    would without it, with one line more that is read and skipped. If it is none, then the import ends with a
    fault. Every input has such an import: the one that the program runs with a store and a queue that do all that
    they are asked. -/
theorem malformed_inserted {m bytes bytes' : List UInt8} (plain : 0x0a ∉ m) (spoilt : Spoilt m)
    (inserted : Inserted m bytes bytes') (settings : Settings) (info : ImportInfo) :
    (∀ now now' result result' committed committed',
        Undisturbed settings info now ({ content := .bytes bytes } : Input).lines result committed →
        Undisturbed settings info now' ({ content := .bytes bytes' } : Input).lines result' committed' →
      ((∃ text, Text.Utf8.decode m = .ok text) →
        (∃ summary, result = .ok summary ∧ committed'.Perm committed ∧
            result' = .ok { summary with lines := summary.lines + 1, skipped := summary.skipped + 1 }) ∨
          ∃ fault fault', result = .error fault ∧ result' = .error fault') ∧
      ∀ fault, Text.Utf8.decode m = .error fault → ∃ fault', result' = .error (.notText fault')) ∧
    ∀ {σ : Type} (k : Collaborator σ) (content : Content) (s : σ), (∀ call s, (k.respond call s).1 = .ok ()) →
      ∃ committed, Undisturbed settings info 0 ({ content } : Input).lines
        (runImport k settings info { content } s).1 committed := by
  refine ⟨?_,fun k content s obliges => undisturbed_import obliges settings info content s⟩
  intro now now' result result' committed committed' undisturbed undisturbed'
  obtain ⟨front,front',raw,back,raws,raws',isLine,alike⟩ :=
    rawLines_of_inserted plain (filled_of_spoilt spoilt) inserted
  obtain ⟨skipped,stuck⟩ := view_of_spoilt spoilt isLine
  have views : ({ content := .bytes bytes } : Input).lines.map view =
      (front.map inputLine).map view ++ (back.map inputLine).map view := by
    rw [lines_of_bytes,raws,List.map_append,List.map_append]
  have views' : ({ content := .bytes bytes' } : Input).lines.map view =
      (front.map inputLine).map view ++ view (inputLine raw) :: (back.map inputLine).map view := by
    rw [lines_of_bytes,raws',List.map_append,List.map_append,views_of_isLine alike]
    rfl
  constructor
  · rintro ⟨text,decoded⟩
    obtain ⟨f,malformed⟩ := skipped text decoded
    exact undisturbed.inserted undisturbed' views (by rw [views',malformed])
  · intro fault decoded
    obtain ⟨fault',member,ended⟩ := undisturbed'.unreadable (by simp [views',stuck fault decoded])
    obtain ⟨cause,rfl⟩ := notText_of_bytes member
    exact ⟨cause,ended⟩

/-- A store and a queue that do all that they are asked. -/
def agreeable : Collaborator Unit where
  note _ s := s
  respond _ s := (.ok (),s)

theorem spoilt_letter : Spoilt [0x78] := by
  intro text decoded
  have letter : Text.Utf8.decode [0x78] = .ok ['x'] := rfl
  obtain rfl : ['x'] = text := Except.ok.inj (letter.symm.trans decoded)
  have malformed : (parseLine (String.ofList ['x'])).toOption = none := by decide +kernel
  cases read : parseLine (String.ofList ['x']) with
  | error f => exact ⟨f,rfl⟩
  | ok r? => simp [read,Except.toOption] at malformed

/-- A letter is put behind the only line of an input. -/
theorem malformed_inserted_letter :
    ∃ committed committed',
      Undisturbed {} ⟨"nightly"⟩ 0 ({ content := .bytes (plainBytes ++ [0x0a]) } : Input).lines
        (.ok ⟨1,0,1,1,false,none⟩) committed ∧
      Undisturbed {} ⟨"nightly"⟩ 0 ({ content := .bytes (plainBytes ++ [0x0a] ++ [0x78]) } : Input).lines
        (.ok ⟨2,1,1,1,false,none⟩) committed' ∧ committed'.Perm committed := by
  have plain : 0x0a ∉ plainBytes := by decide +kernel
  have inserted : Inserted [0x78] (plainBytes ++ [0x0a]) (plainBytes ++ [0x0a] ++ [0x78]) := .last (.cons plain .nil)
  obtain ⟨law,imports⟩ := malformed_inserted (by decide) spoilt_letter inserted {} ⟨"nightly"⟩
  obtain ⟨committed,undisturbed⟩ := imports agreeable (.bytes (plainBytes ++ [0x0a])) () fun _ _ => rfl
  obtain ⟨committed',undisturbed'⟩ := imports agreeable (.bytes (plainBytes ++ [0x0a] ++ [0x78])) () fun _ _ => rfl
  have line : lineText (plainBytes ++ [0x0a]) = .ok (plainLine "02" "1") := by decide +kernel
  have views : ({ content := .bytes (plainBytes ++ [0x0a]) } : Input).lines.map view =
      [.ok (some (.bare "dht" 2))].map some := by
    rw [lines_of_bytes,Text.rawLines_cons plain,rawLines]
    simp [view,inputLine,line,Except.mapError,Except.toOption,parseLine_plain]
  have ended : (runImport agreeable {} ⟨"nightly"⟩ { content := .bytes (plainBytes ++ [0x0a]) } ()).1 =
      .ok ⟨1,0,1,1,false,none⟩ := by
    rcases undisturbed.views with ⟨readings,read,ended,-⟩ | ⟨unread,-⟩
    · obtain rfl := (List.map_inj_right fun _ _ => Option.some.inj).mp (views.symm.trans read)
      rw [ended]
      rfl
    · simp [views] at unread
  rcases (law 0 0 _ _ _ _ undisturbed undisturbed').1 ⟨['x'],rfl⟩ with ⟨summary,ok,perm,ok'⟩ | ⟨fault,-,stuck,-⟩
  · rw [ended] at ok undisturbed
    obtain rfl := Except.ok.inj ok
    exact ⟨committed,committed',undisturbed,ok' ▸ undisturbed',perm⟩
  · rw [ended] at stuck
    cases stuck

/-- A line that is no text is not skipped. -/
theorem malformed_not_skipped :
    ¬ ∀ (m bytes bytes' : List UInt8) (settings : Settings) (info : ImportInfo) (summary : Summary)
        (result' : Except ReadFault Summary) (committed committed' : List InfoHash), 0x0a ∉ m → Spoilt m →
      Inserted m bytes bytes' →
      Undisturbed settings info 0 ({ content := .bytes bytes } : Input).lines (.ok summary) committed →
      Undisturbed settings info 0 ({ content := .bytes bytes' } : Input).lines result' committed' →
      committed'.Perm committed ∧
        result' = .ok { summary with lines := summary.lines + 1, skipped := summary.skipped + 1 } := by
  intro all
  have spoilt : Spoilt [0xff] := by
    intro text decoded
    cases decoded
  obtain ⟨committed,undisturbed⟩ := undisturbed_import (k := agreeable) (fun _ _ => rfl) {} ⟨"nightly"⟩ (.bytes []) ()
  obtain ⟨committed',undisturbed'⟩ :=
    undisturbed_import (k := agreeable) (fun _ _ => rfl) {} ⟨"nightly"⟩ (.bytes [0xff]) ()
  have raw : rawLines [0xff] = [[0xff]] := Text.rawLines_of_plain (by decide) (by simp)
  have unread : none ∈ ({ content := .bytes [0xff] } : Input).lines.map view := by
    rw [lines_of_bytes,raw]
    exact List.mem_singleton.mpr rfl
  obtain ⟨fault,-,stuck⟩ := undisturbed'.unreadable unread
  have empty : ({ content := .bytes [] } : Input).lines = [] := by simp [lines_of_bytes,rawLines]
  rcases undisturbed.views with ⟨readings,-,ended,-⟩ | ⟨unread,-⟩
  · rw [ended] at undisturbed
    obtain ⟨-,ok⟩ :=
      all [0xff] [] [0xff] {} ⟨"nightly"⟩ _ _ _ _ (by decide) spoilt (.last .nil) undisturbed undisturbed'
    rw [stuck] at ok
    cases ok
  · simp [empty] at unread

end Intake.Command
