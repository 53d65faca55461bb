import Intake.Proofs.Json.Shape
import Mathlib.Data.List.Pairwise
import Mathlib.Data.List.Nodup
import Mathlib.Data.List.Perm.Subperm
import Mathlib.Logic.Relation

/-!
Layouts of an object. The members of an object may stand in any order, members that no
field is named for may come and go, and so may members that say of their field what is
so without them; and instead of an object there may be an array of the values of all
fields (`Relaid`). A structure is read from the one layout as from the other
(`read_of_relaid`), if its fields can be written in any order (`Regular`).
-/
namespace Intake.Json

variable {δ α : Type}

theorem bind_eq_ok_iff {ε β γ : Type} {x : Except ε β} {f : β → Except ε γ} {c : γ} :
    x >>= f = .ok c ↔ ∃ b, x = .ok b ∧ f b = .ok c := by
  cases x <;> simp [bind,Except.bind]

/-! ### Values that nobody reads -/

mutual
/-- A value is passed over, whatever it holds. -/
theorem skip_of_spelled {t : Tree} {s : List Char} (spelled : t.Spelled s) : t.skip = .ok () := by
  cases spelled with
  | array _ first more =>
    rw [Tree.skip,skipElements,skip_of_spelled first,skipElements_of_spelled more]
    rfl
  | object _ first more =>
    obtain ⟨key,value⟩ := skipMember_of_spelled first
    rw [Tree.skip,skipMembers,key,value,skipMembers_of_spelled more]
    rfl
  | _ => rfl

theorem skipElements_of_spelled {ts : List Tree} {s : List Char} (spelled : SpelledElements ts s) :
    skipElements ts = .ok () := by
  cases spelled with
  | close => rfl
  | comma _ _ next more =>
    rw [skipElements,skip_of_spelled next,skipElements_of_spelled more]
    rfl

theorem skipMember_of_spelled {m : Tree × Tree} {s : List Char} (spelled : SpelledMember m s) :
    m.1.skipKey = .ok () ∧ m.2.skip = .ok () := by
  cases spelled with
  | mk _ _ _ value => exact ⟨rfl,skip_of_spelled value⟩

theorem skipMembers_of_spelled {ms : List (Tree × Tree)} {s : List Char} (spelled : SpelledMembers ms s) :
    skipMembers ms = .ok () := by
  cases spelled with
  | close => rfl
  | comma _ _ next more =>
    obtain ⟨key,value⟩ := skipMember_of_spelled next
    rw [skipMembers,key,value,skipMembers_of_spelled more]
    rfl
end

/-! ### Steps in any order -/

/-- Two steps lead to the same in either order. -/
def Swaps {ε β : Type} (step : δ → β → Except ε δ) (x y : β) : Prop :=
  ∀ d e, step d x >>= (step · y) = .ok e ↔ step d y >>= (step · x) = .ok e

theorem foldlM_of_perm {ε β : Type} {step : δ → β → Except ε δ} {l l' : List β} (perm : l.Perm l')
    (swaps : l.Pairwise (Swaps step)) {d e : δ} (done : l.foldlM step d = .ok e) : l'.foldlM step d = .ok e := by
  induction perm generalizing d with
  | nil => exact done
  | cons x _ ih =>
    obtain ⟨-,others⟩ := List.pairwise_cons.mp swaps
    rw [List.foldlM_cons,bind_eq_ok_iff] at done ⊢
    obtain ⟨c,first,rest⟩ := done
    exact ⟨c,first,ih others rest⟩
  | swap x y l =>
    have exchange := (List.pairwise_cons.mp swaps).1 x List.mem_cons_self
    simp only [List.foldlM_cons,← bind_assoc] at done ⊢
    rw [bind_eq_ok_iff] at done ⊢
    obtain ⟨c,both,rest⟩ := done
    exact ⟨c,(exchange d c).mp both,rest⟩
  | trans first _ ih ih' =>
    have symm : ∀ {x y}, Swaps step x y → Swaps step y x := fun swap d e => (swap d e).symm
    exact ih' ((first.pairwise_iff symm).mp swaps) (ih swaps done)

/-! ### Members and fields -/

/-- Reads the value of a field into a draft. -/
def Slot.enter (d : δ) (w : Slot δ × Tree) : Except Fault δ := w.1.read w.2 d

namespace Shape

variable (s : Shape δ α)

/-- The field that a member is read into. -/
def slotOf? (m : Tree × Tree) : Option (Slot δ) :=
  match m.1.key with
  | .ok name => s.slot? name
  | .error _ => none

/-- The fields that members are read into, with their values. -/
def written (members : List (Tree × Tree)) : List (Slot δ × Tree) :=
  members.filterMap fun m => (s.slotOf? m).map (·,m.2)

/-- All keys are strings, and whatever is read into no field can be passed over. -/
def Sound (members : List (Tree × Tree)) : Prop :=
  ∀ m ∈ members, ∃ name, m.1.key = .ok name ∧ (s.slot? name = none → m.2.skip = .ok ())

variable {s}

theorem slot?_eq_some {name : String} {f : Slot δ} (found : s.slot? name = some f) :
    f ∈ s.fields ∧ f.name = name :=
  ⟨List.mem_of_find?_eq_some found,by simpa using List.find?_some found⟩

theorem slot?_eq_none {name : String} (unknown : name ∉ s.fields.map Slot.name) : s.slot? name = none :=
  List.find?_eq_none.mpr fun f member same => unknown (List.mem_map.mpr ⟨f,member,by simpa using same⟩)

theorem written_cons_none {m : Tree × Tree} {ms : List (Tree × Tree)} (unknown : s.slotOf? m = none) :
    s.written (m :: ms) = s.written ms := by
  simp [written,unknown]

theorem written_cons_some {m : Tree × Tree} {ms : List (Tree × Tree)} {f : Slot δ} (known : s.slotOf? m = some f) :
    s.written (m :: ms) = (f,m.2) :: s.written ms := by
  simp [written,known]

theorem mem_written {ms : List (Tree × Tree)} {f : Slot δ} {v : Tree} :
    (f,v) ∈ s.written ms ↔ ∃ key, (key,v) ∈ ms ∧ s.slotOf? (key,v) = some f := by
  simp only [written,List.mem_filterMap,Option.map_eq_some_iff,Prod.mk.injEq,Prod.exists]
  constructor
  · rintro ⟨key,_,member,_,slot,rfl,rfl⟩
    exact ⟨key,member,slot⟩
  · rintro ⟨key,member,slot⟩
    exact ⟨key,v,member,f,slot,rfl,rfl⟩

theorem slotOf?_eq_some {m : Tree × Tree} {f : Slot δ} (slot : s.slotOf? m = some f) :
    f ∈ s.fields ∧ m.1.key = .ok f.name := by
  rw [slotOf?] at slot
  cases named : m.1.key with
  | error fault => simp [named] at slot
  | ok name =>
    rw [named] at slot
    obtain ⟨member,rfl⟩ := slot?_eq_some slot
    exact ⟨member,rfl⟩

theorem slotOf?_of_key {m : Tree × Tree} {name : String} (named : m.1.key = .ok name) : s.slotOf? m = s.slot? name := by
  rw [slotOf?,named]

theorem written_append (ms ms' : List (Tree × Tree)) : s.written (ms ++ ms') = s.written ms ++ s.written ms' :=
  List.filterMap_append

theorem sound_of_subset {ms ms' : List (Tree × Tree)} (sound : s.Sound ms) (subset : ms' ⊆ ms) : s.Sound ms' :=
  fun m member => sound m (subset member)

theorem within_written (ms : List (Tree × Tree)) : ∀ w ∈ s.written ms, w.1 ∈ s.fields := by
  rintro ⟨f,v⟩ member
  obtain ⟨_,-,slot⟩ := mem_written.mp member
  exact (slotOf?_eq_some slot).1

theorem sound_cons {m : Tree × Tree} {ms : List (Tree × Tree)} {name : String} (key : m.1.key = .ok name) :
    s.Sound (m :: ms) ↔ (s.slot? name = none → m.2.skip = .ok ()) ∧ s.Sound ms := by
  simp [Sound,key]

section
variable {key t : Tree} {ms : List (Tree × Tree)} {name : String} {taken : List String} {d : δ}

theorem ofMembers_cons_unknown (named : key.key = .ok name) (unknown : s.slot? name = none) :
    s.ofMembers taken d ((key,t) :: ms) = t.skip >>= fun _ => s.ofMembers taken d ms := by
  rw [ofMembers,named]
  simp only [bind,Except.bind,unknown]

theorem ofMembers_cons_known {f : Slot δ} (named : key.key = .ok name) (known : s.slot? name = some f)
    (fresh : name ∉ taken) :
    s.ofMembers taken d ((key,t) :: ms) = f.read t d >>= fun d => s.ofMembers (name :: taken) d ms := by
  rw [ofMembers,named]
  simp only [bind,Except.bind,known,if_neg fresh]

theorem ofMembers_cons_twice {f : Slot δ} (named : key.key = .ok name) (known : s.slot? name = some f)
    (twice : name ∈ taken) : s.ofMembers taken d ((key,t) :: ms) = .error (.duplicateField name) := by
  rw [ofMembers,named]
  simp only [bind,Except.bind,known,if_pos twice]
  rfl

end

/-- Members are read if each of them can be, no field twice, and the fields are read one after the other. -/
theorem ofMembers_eq_ok_iff {taken : List String} {d e : δ} {ms : List (Tree × Tree)} :
    s.ofMembers taken d ms = .ok e ↔ s.Sound ms ∧ ((s.written ms).map (·.1.name)).Nodup ∧
      (∀ w ∈ s.written ms, w.1.name ∉ taken) ∧ (s.written ms).foldlM Slot.enter d = .ok e := by
  induction ms generalizing taken d with
  | nil => simp [ofMembers,Sound,written,pure,Except.pure]
  | cons m ms ih =>
    obtain ⟨key,t⟩ := m
    cases named : key.key with
    | error fault =>
      constructor
      · intro read
        rw [ofMembers,named] at read
        cases read
      · rintro ⟨sound,-⟩
        obtain ⟨name,same,-⟩ := sound _ List.mem_cons_self
        rw [named] at same
        cases same
    | ok name =>
      rw [sound_cons named]
      cases known : s.slot? name with
      | none =>
        have unknown : s.slotOf? (key,t) = none := by simp [slotOf?,named,known]
        rw [written_cons_none unknown,ofMembers_cons_unknown named known,bind_eq_ok_iff,ih]
        constructor
        · rintro ⟨_,skipped,sound,others⟩
          exact ⟨⟨fun _ => skipped,sound⟩,others⟩
        · rintro ⟨⟨skipped,sound⟩,others⟩
          exact ⟨(),skipped rfl,sound,others⟩
      | some f =>
        obtain ⟨-,rfl⟩ := slot?_eq_some known
        have field : s.slotOf? (key,t) = some f := by simp [slotOf?,named,known]
        rw [written_cons_some field]
        by_cases before : f.name ∈ taken
        · simp [ofMembers_cons_twice named known before,before]
        · rw [ofMembers_cons_known named known before]
          have apart : (∀ w ∈ s.written ms, w.1.name ∉ f.name :: taken) ↔
              f.name ∉ (s.written ms).map (·.1.name) ∧ ∀ w ∈ s.written ms, w.1.name ∉ taken := by
            simp only [List.mem_cons,not_or,List.mem_map,not_exists,not_and]
            exact ⟨fun all => ⟨fun w member => (all w member).1,fun w member => (all w member).2⟩,
              fun all w member => ⟨all.1 w member,all.2 w member⟩⟩
          simp only [bind_eq_ok_iff,ih,apart,List.map_cons,List.nodup_cons,List.forall_mem_cons,List.foldlM_cons,
            Slot.enter,reduceCtorEq,false_implies,true_and]
          constructor
          · rintro ⟨c,first,sound,once,⟨new,others⟩,rest⟩
            exact ⟨sound,⟨new,once⟩,⟨before,others⟩,c,first,rest⟩
          · rintro ⟨sound,⟨new,once⟩,⟨-,others⟩,c,first,rest⟩
            exact ⟨c,first,sound,once,⟨new,others⟩,rest⟩

/-! ### Objects and arrays -/

theorem read_object_iff {ms : List (Tree × Tree)} {a : α} :
    s.read (.object ms .closed) = .ok a ↔ s.Sound ms ∧ ((s.written ms).map (·.1.name)).Nodup ∧
      ∃ d, (s.written ms).foldlM Slot.enter s.start = .ok d ∧ s.finish d = .ok a := by
  have ended (d : δ) : (s.finish d).mapError Fault.missingField = .ok a ↔ s.finish d = .ok a := by
    cases s.finish d <;> simp [Except.mapError]
  have closed (d : δ) : (Ending.closed.ofObject >>= fun _ => (s.finish d).mapError Fault.missingField) =
      (s.finish d).mapError Fault.missingField := rfl
  simp only [read,closed,bind_eq_ok_iff,ofMembers_eq_ok_iff,ended,List.not_mem_nil,not_false_eq_true,implies_true,
    true_and]
  constructor
  · rintro ⟨d,⟨sound,once,read⟩,whole⟩
    exact ⟨sound,once,d,read,whole⟩
  · rintro ⟨sound,once,d,read,whole⟩
    exact ⟨d,⟨sound,once,read⟩,whole⟩

theorem ofElements_eq_foldlM {fields : List (Slot δ)} {trees : List Tree} (each : trees.length = fields.length)
    (d : δ) : ofElements .closed fields d trees = (fields.zip trees).foldlM Slot.enter d := by
  induction fields generalizing trees d with
  | nil =>
    obtain rfl := List.length_eq_zero_iff.mp each
    rfl
  | cons f fields ih =>
    obtain ⟨t,rest,rfl⟩ := List.exists_cons_of_length_eq_add_one each
    rw [ofElements,List.zip_cons_cons,List.foldlM_cons]
    simp only [ih (Nat.succ.inj each)]
    rfl

theorem read_array_of {trees : List Tree} (each : trees.length = s.fields.length) {d : δ} {a : α}
    (read : (s.fields.zip trees).foldlM Slot.enter s.start = .ok d) (whole : s.finish d = .ok a) :
    s.read (.array trees .closed) = .ok a := by
  rw [Shape.read,ofElements_eq_foldlM each,read]
  simp only [bind,Except.bind,whole]
  rfl

/-! ### Layouts -/

section Layouts

variable (s : Shape δ α) (implied? : String → Option Tree) (inner : String → Tree → Tree → Prop)

/-- The value of a field, be it a member or, without one, what it then stands for. -/
def ValueOf (ms : List (Tree × Tree)) (name : String) (v : Tree) : Prop :=
  (∃ key, key.key = .ok name ∧ (key,v) ∈ ms) ∨ (∀ m ∈ ms, m.1.key ≠ .ok name) ∧ implied? name = some v

/-- One layout and another one: `implied?` has the values that need not be written, and `inner` the layouts
    of values. -/
inductive Relaid : Tree → Tree → Prop where
  /-- The members stand in another order. -/
  | reorder {ms ms' : List (Tree × Tree)} (perm : ms.Perm ms') : Relaid (.object ms .closed) (.object ms' .closed)
  /-- There is another member, under a name that is not a field's. -/
  | add (before behind : List (Tree × Tree)) {key v : Tree} {name : String} {text : List Char}
      (named : key.key = .ok name) (unknown : name ∉ s.fields.map Slot.name) (spelled : v.Spelled text) :
      Relaid (.object (before ++ behind) .closed) (.object (before ++ (key,v) :: behind) .closed)
  /-- A member that need not be written is left out. -/
  | drop (before behind : List (Tree × Tree)) {key v : Tree} {name : String}
      (named : key.key = .ok name) (needless : implied? name = some v) :
      Relaid (.object (before ++ (key,v) :: behind) .closed) (.object (before ++ behind) .closed)
  /-- The value of a member has another layout. -/
  | inside (before behind : List (Tree × Tree)) {key v v' : Tree} {name : String}
      (named : key.key = .ok name) (within : inner name v v') :
      Relaid (.object (before ++ (key,v) :: behind) .closed) (.object (before ++ (key,v') :: behind) .closed)
  /-- The values of all fields stand in the order of these, without names. -/
  | array {ms : List (Tree × Tree)} {values : List Tree}
      (each : List.Forall₂ (ValueOf implied? ms) (s.fields.map Slot.name) values) :
      Relaid (.object ms .closed) (.array values .closed)

/-- A structure whose fields can be read in any order, and for which it does not matter whether values that need
    not be written are read, nor which layout inner values have. -/
structure Regular : Prop where
  distinct : (s.fields.map Slot.name).Nodup
  swap : s.fields.Pairwise fun f g => ∀ t u, Swaps Slot.enter (f,t) (g,u)
  idle : ∀ f ∈ s.fields, ∀ v, implied? f.name = some v → f.read v s.start = .ok s.start
  keeps : ∀ name v v', inner name v v' →
    ∃ f, s.slot? name = some f ∧ ∀ d e, f.read v d = .ok e → f.read v' d = .ok e

end Layouts

/-- Fields that take in values of their own. -/
theorem swaps_of {β γ : Type} {name name' : String} {read : Tree → Except Fault β} {read' : Tree → Except Fault γ}
    {put : β → δ → δ} {put' : γ → δ → δ} (apart : ∀ b c d, put' c (put b d) = put b (put' c d)) (t u : Tree) :
    Swaps Slot.enter (Slot.of name read put,t) (Slot.of name' read' put',u) := by
  intro d e
  show ((put · d) <$> read t >>= fun d => (put' · d) <$> read' u) = _ ↔
    ((put' · d) <$> read' u >>= fun d => (put · d) <$> read t) = _
  cases read t <;> cases read' u <;> simp [Functor.map,Except.map,bind,Except.bind,apart]

variable {implied? : String → Option Tree} {inner : String → Tree → Tree → Prop}

theorem read_added {before behind : List (Tree × Tree)} {key v : Tree} {name : String} {text : List Char} {a : α}
    (named : key.key = .ok name) (unknown : name ∉ s.fields.map Slot.name) (spelled : v.Spelled text)
    (read : s.read (.object (before ++ behind) .closed) = .ok a) :
    s.read (.object (before ++ (key,v) :: behind) .closed) = .ok a := by
  obtain ⟨sound,once,d,all,whole⟩ := read_object_iff.mp read
  have noSlot : s.slotOf? (key,v) = none := by rw [slotOf?_of_key named,slot?_eq_none unknown]
  have same : s.written (before ++ (key,v) :: behind) = s.written (before ++ behind) := by
    rw [written_append,written_cons_none noSlot,written_append]
  refine read_object_iff.mpr ⟨?_,by rw [same]; exact once,d,by rw [same]; exact all,whole⟩
  intro m member
  rcases List.mem_append.mp member with first | rest
  · exact sound m (List.mem_append_left _ first)
  rcases List.mem_cons.mp rest with rfl | last
  · exact ⟨name,named,fun _ => skip_of_spelled spelled⟩
  · exact sound m (List.mem_append_right _ last)

namespace Regular

variable (regular : s.Regular implied? inner)
include regular

theorem swaps {l : List (Slot δ × Tree)} (within : ∀ w ∈ l, w.1 ∈ s.fields) (once : (l.map (·.1.name)).Nodup) :
    l.Pairwise (Swaps Slot.enter) := by
  have : Std.Symm fun f g : Slot δ => ∀ t u, Swaps Slot.enter (f,t) (g,u) :=
    ⟨fun f g swap t u d e => (swap u t d e).symm⟩
  refine (List.pairwise_map.mp once).imp_of_mem fun {w x} here there apart => ?_
  exact regular.swap.forall (within w here) (within x there) (fun same => apart (congrArg Slot.name same)) w.2 x.2

theorem read_reordered {ms ms' : List (Tree × Tree)} {a : α} (perm : ms.Perm ms')
    (read : s.read (.object ms .closed) = .ok a) : s.read (.object ms' .closed) = .ok a := by
  obtain ⟨sound,once,d,all,whole⟩ := read_object_iff.mp read
  have entries : (s.written ms).Perm (s.written ms') := perm.filterMap _
  exact read_object_iff.mpr ⟨sound_of_subset sound perm.symm.subset,(entries.map _).nodup_iff.mp once,d,
    foldlM_of_perm entries (regular.swaps (within_written ms) once) all,whole⟩

theorem read_dropped {before behind : List (Tree × Tree)} {key v : Tree} {name : String} {a : α}
    (named : key.key = .ok name) (needless : implied? name = some v)
    (read : s.read (.object (before ++ (key,v) :: behind) .closed) = .ok a) :
    s.read (.object (before ++ behind) .closed) = .ok a := by
  -- the member is read first, where it changes nothing
  have first := regular.read_reordered List.perm_middle read
  obtain ⟨sound,once,d,all,whole⟩ := read_object_iff.mp first
  have others : s.Sound (before ++ behind) := sound_of_subset sound (List.subset_cons_self _ _)
  cases slot : s.slotOf? (key,v) with
  | none =>
    rw [written_cons_none slot] at once all
    exact read_object_iff.mpr ⟨others,once,d,all,whole⟩
  | some f =>
    obtain ⟨field,same⟩ := slotOf?_eq_some slot
    obtain rfl : name = f.name := Except.ok.inj (named.symm.trans same)
    rw [written_cons_some slot] at once all
    rw [List.foldlM_cons,Slot.enter,regular.idle f field v needless] at all
    exact read_object_iff.mpr ⟨others,(List.nodup_cons.mp once).2,d,all,whole⟩

theorem read_inside {before behind : List (Tree × Tree)} {key v v' : Tree} {name : String} {a : α}
    (named : key.key = .ok name) (within : inner name v v')
    (read : s.read (.object (before ++ (key,v) :: behind) .closed) = .ok a) :
    s.read (.object (before ++ (key,v') :: behind) .closed) = .ok a := by
  obtain ⟨sound,once,d,all,whole⟩ := read_object_iff.mp read
  obtain ⟨f,known,keeps⟩ := regular.keeps name v v' within
  have slot (u : Tree) : s.slotOf? (key,u) = some f := by rw [slotOf?_of_key named,known]
  have entries (u : Tree) :
      s.written (before ++ (key,u) :: behind) = s.written before ++ (f,u) :: s.written behind := by
    rw [written_append,written_cons_some (slot u)]
  rw [entries] at once all
  refine read_object_iff.mpr ⟨?_,by rw [entries]; simpa using once,d,?_,whole⟩
  · intro m member
    rcases List.mem_append.mp member with first | rest
    · exact sound m (List.mem_append_left _ first)
    rcases List.mem_cons.mp rest with rfl | last
    · refine ⟨name,named,fun unknown => ?_⟩
      rw [known] at unknown
      cases unknown
    · exact sound m (List.mem_append_right _ (List.mem_cons_of_mem _ last))
  · rw [entries]
    rw [List.foldlM_append,bind_eq_ok_iff] at all ⊢
    obtain ⟨c,start,rest⟩ := all
    rw [List.foldlM_cons] at rest
    obtain ⟨c',here,last⟩ := bind_eq_ok_iff.mp rest
    exact ⟨c,start,bind_eq_ok_iff.mpr ⟨c',keeps c c' here,last⟩⟩

theorem foldlM_idle {l : List (Slot δ × Tree)} (needless : ∀ w ∈ l, w.1 ∈ s.fields ∧ implied? w.1.name = some w.2) :
    l.foldlM Slot.enter s.start = .ok s.start := by
  induction l with
  | nil => rfl
  | cons w rest ih =>
    obtain ⟨⟨field,idle⟩,others⟩ := List.forall_mem_cons.mp needless
    rw [List.foldlM_cons,Slot.enter,regular.idle w.1 field w.2 idle]
    exact ih others

section
variable {ms : List (Tree × Tree)} {values : List Tree}
  (each : List.Forall₂ (ValueOf implied? ms) (s.fields.map Slot.name) values)
include each

/-- A field has the value of its member, or the one that is implied. -/
theorem written_or_implied {f : Slot δ} {v : Tree} (pair : (f,v) ∈ s.fields.zip values) :
    (f,v) ∈ s.written ms ∨ (∀ m ∈ ms, m.1.key ≠ .ok f.name) ∧ implied? f.name = some v := by
  obtain ⟨-,valued⟩ := List.forall₂_iff_zip.mp (List.forall₂_map_left_iff.mp each)
  rcases valued pair with ⟨key,named,member⟩ | implied
  · refine .inl (mem_written.mpr ⟨key,member,?_⟩)
    rw [slotOf?_of_key named,slot?_of_mem regular.distinct (List.of_mem_zip pair).1]
  · exact .inr implied

theorem written_subset (once : ((s.written ms).map (·.1.name)).Nodup) : s.written ms ⊆ s.fields.zip values := by
  have size : s.fields.length = values.length := by simpa using each.length_eq
  rintro ⟨f,t⟩ entry
  obtain ⟨key,member,slot⟩ := mem_written.mp entry
  obtain ⟨field,named⟩ := slotOf?_eq_some slot
  rw [← List.map_fst_zip (Nat.le_of_eq size)] at field
  obtain ⟨⟨_,v⟩,pair,rfl⟩ := List.mem_map.mp field
  rcases regular.written_or_implied each pair with here | ⟨absent,-⟩
  · have same := List.inj_on_of_nodup_map once here entry rfl
    rwa [← same]
  · exact absurd named (absent _ member)

/-- The values of all fields are those of the members, and others that are implied. -/
theorem values_split (once : ((s.written ms).map (·.1.name)).Nodup) :
    ∃ rest, (rest ++ s.written ms).Perm (s.fields.zip values) ∧
      ((rest ++ s.written ms).map (·.1.name)).Nodup ∧ ∀ w ∈ rest, w.1 ∈ s.fields ∧ implied? w.1.name = some w.2 := by
  have size : values.length = s.fields.length := by simpa using each.length_eq.symm
  obtain ⟨sub,same,sublist⟩ := List.subperm_of_subset (once.of_map _) (regular.written_subset each once)
  obtain ⟨rest,split⟩ := sublist.exists_perm_append
  have order : (rest ++ s.written ms).Perm (s.fields.zip values) :=
    List.perm_append_comm.trans (split.trans (same.append_right rest)).symm
  have apart : ((rest ++ s.written ms).map (·.1.name)).Nodup := by
    rw [(order.map _).nodup_iff,names_zip size]
    exact regular.distinct
  refine ⟨rest,order,apart,?_⟩
  rintro ⟨f,v⟩ left
  have pair : (f,v) ∈ s.fields.zip values := order.subset (List.mem_append_left _ left)
  refine ⟨(List.of_mem_zip pair).1,?_⟩
  rcases regular.written_or_implied each pair with here | ⟨-,implied⟩
  · rw [List.map_append] at apart
    exact absurd (List.mem_map_of_mem here) (List.disjoint_of_nodup_append apart (List.mem_map_of_mem left))
  · exact implied

end

theorem read_values {ms : List (Tree × Tree)} {values : List Tree} {a : α}
    (each : List.Forall₂ (ValueOf implied? ms) (s.fields.map Slot.name) values)
    (read : s.read (.object ms .closed) = .ok a) : s.read (.array values .closed) = .ok a := by
  obtain ⟨-,once,d,all,whole⟩ := read_object_iff.mp read
  obtain ⟨rest,order,apart,needless⟩ := regular.values_split each once
  have size : values.length = s.fields.length := by simpa using each.length_eq.symm
  have entered : (rest ++ s.written ms).foldlM Slot.enter s.start = .ok d := by
    rw [List.foldlM_append,regular.foldlM_idle needless]
    exact all
  have within : ∀ w ∈ rest ++ s.written ms, w.1 ∈ s.fields := fun w pair => (List.of_mem_zip (order.subset pair)).1
  exact read_array_of size (foldlM_of_perm order (regular.swaps within apart) entered) whole

/-- A structure is read from another layout as from the one. -/
theorem read_of_relaid {t t' : Tree} {a : α} (relaid : s.Relaid implied? inner t t') (read : s.read t = .ok a) :
    s.read t' = .ok a := by
  cases relaid with
  | reorder perm => exact regular.read_reordered perm read
  | add _ _ named unknown spelled => exact read_added named unknown spelled read
  | drop _ _ named needless => exact regular.read_dropped named needless read
  | inside _ _ named within => exact regular.read_inside named within read
  | array each => exact regular.read_values each read

/-- So it is from every layout that is reached. -/
theorem read_of_layouts {t t' : Tree} {a : α} (relaid : Relation.ReflTransGen (s.Relaid implied? inner) t t')
    (read : s.read t = .ok a) : s.read t' = .ok a := by
  induction relaid with
  | refl => exact read
  | tail _ step ih => exact regular.read_of_relaid step ih

end Regular

end Shape

end Intake.Json
