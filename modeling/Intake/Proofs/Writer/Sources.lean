import Intake.Proofs.Writer.Passes
import Mathlib.Data.List.Basic

/-!
Which sources a writer creates, and when. A source is durable when a batch with it
has been written to the end (`durable_iff`), and then it was created
(`created_of_durable`). A valid batch first creates just the sources that are not
durable (`Written.creations_of_valid`), so that its items never come before their
sources.
-/
namespace Intake

/-- The sources that a call creates. -/
def Call.creation? : Call → Option (List Source)
  | .createSources sources => some sources
  | _ => none

namespace Pass

/-- The batch was written to the end. -/
def Committed (p : Pass) : Prop := ∃ hashes, p.result = .ok hashes

/-- A record of the batch has the source. -/
def Has (p : Pass) (key : String) : Prop := ∃ r ∈ p.batch, r.source = key

/-- The calls for the batch that were to create sources. -/
def creations (p : Pass) : List (List Source) := p.exchanges.filterMap (·.1.creation?)

end Pass

/-- Sources with this key have been created. -/
def Created (exchanges : Exchanges) (key : String) : Prop :=
  ∃ sources, (.createSources sources,.ok ()) ∈ exchanges ∧ ∃ source ∈ sources, source.key = key

/-- The keys stand in the order in which the batch first has them. -/
def InOrderOf (batch : List Record) (keys : List String) : Prop :=
  keys.Pairwise fun a b => (batch.map (·.source)).idxOf a < (batch.map (·.source)).idxOf b

/-- The keys of the sources of a batch that are not durable, each once. -/
def Writer.freshKeys (w : Writer) (batch : List Record) : List String :=
  ((batch.map (·.source)).filter (· ∉ w.durable)).eraseDups

/-! ### The keys of a batch -/

theorem pairwise_idxOf_eraseDups (l : List String) (p : String → Bool) :
    (l.filter p).eraseDups.Pairwise fun a b => l.idxOf a < l.idxOf b := by
  induction l generalizing p with
  | nil => simp
  | cons x rest ih =>
    -- The other keys keep their order behind the first one.
    have later (q : String → Bool) (other : q x = false) :
        (rest.filter q).eraseDups.Pairwise fun a b => (x :: rest).idxOf a < (x :: rest).idxOf b := by
      refine (ih q).imp_of_mem ?_
      intro a b inA inB before
      have ne (c : String) (inside : c ∈ (rest.filter q).eraseDups) : x ≠ c := by
        rintro rfl
        have taken := (List.mem_filter.mp (List.mem_eraseDups.mp inside)).2
        simp [other] at taken
      rw [List.idxOf_cons_ne _ (ne a inA),List.idxOf_cons_ne _ (ne b inB)]
      omega
    by_cases taken : p x = true
    · rw [List.filter_cons_of_pos taken,List.eraseDups_cons,List.filter_filter,List.pairwise_cons]
      refine ⟨?_,later _ (by simp)⟩
      intro b inside
      have ne : x ≠ b := by
        have filtered := (List.mem_filter.mp (List.mem_eraseDups.mp inside)).2
        rintro rfl
        simp at filtered
      rw [List.idxOf_cons_self,List.idxOf_cons_ne _ ne]
      omega
    · rw [List.filter_cons_of_neg taken]
      exact later p (by simpa using taken)

/-- A list has an entry that is not of a kind just if there is a first one. -/
theorem forall_or_first {α : Type} {P : α → Prop} [DecidablePred P] (l : List α) :
    (∀ a ∈ l, P a) ∨ ∃ before a after, l = before ++ a :: after ∧ (∀ b ∈ before, P b) ∧ ¬ P a := by
  cases found : l.find? fun a => decide (¬ P a) with
  | none =>
    left
    intro a member
    simpa using List.find?_eq_none.mp found a member
  | some a =>
    obtain ⟨other,before,after,rfl,earlier⟩ := List.find?_eq_some_iff_append.mp found
    refine .inr ⟨before,a,after,rfl,?_,by simpa using other⟩
    intro b member
    simpa using earlier b member

namespace Writer

variable (w : Writer) (batch : List Record)

theorem freshSources_eq : w.freshSources batch = (w.freshKeys batch).map .ofKey := rfl

@[simp] theorem mem_freshKeys {key : String} :
    key ∈ w.freshKeys batch ↔ (∃ r ∈ batch, r.source = key) ∧ key ∉ w.durable := by
  simp [freshKeys,List.mem_eraseDups]

theorem freshKeys_inOrder : InOrderOf batch (w.freshKeys batch) := pairwise_idxOf_eraseDups _ _

theorem freshKeys_nodup : (w.freshKeys batch).Nodup :=
  (w.freshKeys_inOrder batch).imp fun before same => by simp [same] at before

theorem mem_durable_commit {key : String} :
    key ∈ (w.commit batch).durable ↔ key ∈ w.durable ∨ ∃ r ∈ batch, r.source = key := by
  have keys : (w.commit batch).durable = w.durable ++ w.freshKeys batch := by
    simp [commit,freshSources_eq,Source.ofKey,Function.comp_def]
  rw [keys,List.mem_append,mem_freshKeys]
  by_cases durable : key ∈ w.durable
  · simp [durable]
  · simp [durable]

theorem checkAll_of_valid {batch : List Record} (valid : ∀ r ∈ batch, r.validate = .ok ()) :
    checkAll batch = .ok () := by
  induction batch with
  | nil => rfl
  | cons r rest ih =>
    simp only [checkAll,valid r List.mem_cons_self]
    exact ih fun other member => valid other (List.mem_cons_of_mem _ member)

/-- Of the records that are not valid the first is named. -/
theorem checkAll_of_first {before rest : List Record} {r : Record} {cause : Invalidity}
    (earlier : ∀ q ∈ before, q.validate = .ok ()) (invalid : r.validate = .error cause) :
    checkAll (before ++ r :: rest) = .error cause := by
  induction before with
  | nil =>
    rw [List.nil_append,checkAll,invalid]
    rfl
  | cons q more ih =>
    rw [List.cons_append,checkAll,earlier q List.mem_cons_self]
    exact ih fun p member => earlier p (List.mem_cons_of_mem q member)

theorem valid_or_first (batch : List Record) :
    (∀ r ∈ batch, r.validate = .ok ()) ∨ ∃ before r rest cause, batch = before ++ r :: rest ∧
      (∀ q ∈ before, q.validate = .ok ()) ∧ r.validate = .error cause := by
  rcases forall_or_first (P := fun r => r.validate = .ok ()) batch with valid | ⟨before,r,rest,rfl,earlier,invalid⟩
  · exact .inl valid
  · cases here : r.validate with
    | ok _ => exact absurd here invalid
    | error cause => exact .inr ⟨before,r,rest,cause,rfl,earlier,here⟩

theorem plan_of_valid {batch : List Record} (filled : batch ≠ []) (valid : ∀ r ∈ batch, r.validate = .ok ()) :
    w.plan batch = .ok (w.calls batch) := by
  rw [plan,if_neg (by simpa using filled),checkAll_of_valid valid]

/-- The call that creates the sources of a batch, if there is one. -/
def creation (w : Writer) (batch : List Record) : List Call :=
  if w.freshKeys batch = [] then [] else [.createSources (w.freshSources batch)]

theorem calls_eq :
    w.calls batch =
      w.creation batch ++ [.upsertItems (batch.map (Item.ofRecord w.info)),.publish (hashes batch)] := by
  simp [calls,creation,freshSources_eq]

theorem creation_creates {key : String} (fresh : key ∈ w.freshKeys batch) :
    Created (gone (w.creation batch)) key := by
  have some_ : w.freshKeys batch ≠ [] := List.ne_nil_of_mem fresh
  refine ⟨w.freshSources batch,by simp [creation,some_,gone],.ofKey key,?_,rfl⟩
  rw [freshSources_eq]
  exact List.mem_map_of_mem fresh

end Writer

/-! ### The calls for a batch -/

section
variable {w u : Writer} {p : Pass}

theorem calls_of_gone (calls : List Call) : (gone calls).map (·.1) = calls := by simp [gone,Function.comp_def]

/-- The calls that are made for a batch are the first of those that write it. -/
theorem Written.calls_prefix (written : Written w p u) : p.exchanges.map (·.1) <+: w.calls p.batch := by
  have planned {batch : List Record} {calls : List Call} (plan : w.plan batch = .ok calls) :
      calls <+: w.calls batch := by
    rcases w.calls_of_plan plan with ⟨-,rfl⟩ | rfl
    · exact List.nil_prefix
    · exact List.prefix_rfl
  cases written with
  | refuse plan => exact List.nil_prefix
  | @fail batch made left call f plan =>
    rw [List.map_append,calls_of_gone]
    exact List.IsPrefix.trans ⟨left,by simp⟩ (planned plan)
  | commit plan =>
    rw [calls_of_gone]
    exact planned plan

/-- Every call before another one has gone well. -/
theorem Written.gone_before {made rest : Exchanges} {e : Call × Except Failure Unit} (written : Written w p u)
    (exchanges : p.exchanges = made ++ e :: rest) : made = gone (made.map (·.1)) := by
  have all (first : List Call) (more : Exchanges) (inside : gone first = made ++ more) :
      made = gone (made.map (·.1)) := by
    obtain ⟨earlier,-,rfl,rfl,-⟩ := List.map_eq_append_iff.mp inside
    rw [← gone,calls_of_gone]
  cases written with
  | refuse plan => simp at exchanges
  | @fail batch first left call f plan =>
    rcases List.append_eq_append_iff.mp exchanges with ⟨more,split,ends⟩ | ⟨more,split,-⟩
    · obtain rfl : more = [] := by
        cases more with
        | nil => rfl
        | cons x more => simp at ends
      exact all first [] (by simpa using split.symm)
    · exact all first more split
  | commit plan => exact all _ _ exchanges

/-- What a list begins with, and has no entry of a kind, ends before the first such entry. -/
theorem prefix_of_none {α : Type} {P : α → Prop} {first others before after : List α} {a : α}
    (same : first ++ others = before ++ a :: after) (here : P a) (none : ∀ x ∈ first, ¬ P x) : first <+: before := by
  rcases List.append_eq_append_iff.mp same with ⟨more,rfl,-⟩ | ⟨more,rfl,last⟩
  · exact List.prefix_append first more
  · cases more with
    | nil => exact ⟨[],by simp⟩
    | cons b more =>
      obtain ⟨rfl,-⟩ := List.cons.inj last
      exact absurd here (none a (List.mem_append_right before List.mem_cons_self))

/-- Before the items of a batch its sources are created, if any are new. -/
theorem Written.upsert {made rest : Exchanges} {items : List Item} {answer : Except Failure Unit}
    (written : Written w p u) (exchanges : p.exchanges = made ++ (.upsertItems items,answer) :: rest) :
    items = p.batch.map (Item.ofRecord w.info) ∧ made = gone (w.creation p.batch) := by
  have calls := written.calls_prefix
  rw [exchanges,List.map_append,List.map_cons,w.calls_eq] at calls
  obtain ⟨left,calls⟩ := calls
  rw [List.append_assoc,List.cons_append] at calls
  have creates : ∀ call ∈ w.creation p.batch, ¬ ∃ items, call = .upsertItems items := by
    intro call member
    simp only [Writer.creation] at member
    split at member
    · cases member
    · simp [List.mem_singleton.mp member]
  obtain ⟨more,first⟩ := prefix_of_none (P := fun call => ∃ items, call = .upsertItems items) calls.symm ⟨items,rfl⟩
    creates
  rw [← first,List.append_assoc,List.append_cancel_left_eq] at calls
  -- Of the two calls behind the sources, only the first is for items.
  cases more with
  | nil =>
    obtain ⟨same,-⟩ := List.cons.inj calls
    cases same
    exact ⟨rfl,by rw [written.gone_before exchanges,← first,List.append_nil]⟩
  | cons call more =>
    obtain ⟨-,last⟩ := List.cons.inj calls
    cases more with
    | nil => cases (List.cons.inj last).1
    | cons other more => simp at last

theorem Pass.creations_eq (p : Pass) : p.creations = (p.exchanges.map (·.1)).filterMap Call.creation? := by
  rw [creations,List.filterMap_map]
  rfl

/-- The sources created for a batch are those that were not durable before it. -/
theorem Written.creations_fresh {sources : List Source} (written : Written w p u) (created : sources ∈ p.creations) :
    sources = w.freshSources p.batch := by
  rw [Pass.creations_eq,List.mem_filterMap] at created
  obtain ⟨call,made,creates⟩ := created
  have planned := written.calls_prefix.subset made
  rw [w.calls_eq] at planned
  cases call with
  | createSources other =>
    obtain rfl : other = sources := by simpa [Call.creation?] using creates
    by_cases none : w.freshKeys p.batch = []
    · simp [Writer.creation,none] at planned
    · simpa [Writer.creation,none] using planned
  | upsertItems items => cases creates
  | publish hashes => cases creates

/-- A valid batch has its new sources created, in one call, and no other. -/
theorem Written.creations_of_valid (written : Written w p u) (filled : p.batch ≠ [])
    (valid : ∀ r ∈ p.batch, r.validate = .ok ()) :
    p.creations = if w.freshKeys p.batch = [] then [] else [(w.freshKeys p.batch).map .ofKey] := by
  have calls := written.calls_prefix
  have plan := w.plan_of_valid filled valid
  have begun : p.exchanges ≠ [] := by
    cases written with
    | refuse refused => rw [plan] at refused; cases refused
    | fail _ => simp
    | @commit batch made planned =>
      obtain rfl : w.calls batch = made := Except.ok.inj (plan.symm.trans planned)
      simp [gone,w.calls_eq]
  rw [Pass.creations_eq]
  rw [w.calls_eq] at calls
  obtain ⟨left,calls⟩ := calls
  have other (l : List Call) (rest : l ++ left = [.upsertItems (p.batch.map (Item.ofRecord w.info)),
      .publish (Writer.hashes p.batch)]) : l.filterMap Call.creation? = [] := by
    refine List.filterMap_eq_nil_iff.mpr ?_
    intro call member
    have planned := List.mem_append_left left member
    rw [rest] at planned
    rcases List.mem_pair.mp planned with rfl | rfl <;> rfl
  by_cases none : w.freshKeys p.batch = []
  · simp only [Writer.creation,none,if_true,List.nil_append] at calls ⊢
    exact other _ calls
  · simp only [Writer.creation,none,if_false] at calls ⊢
    cases exchanges : p.exchanges with
    | nil => exact absurd exchanges begun
    | cons e rest =>
      rw [exchanges] at calls
      have first : e.1 = .createSources (w.freshSources p.batch) := (List.cons.inj calls).1
      have creates : Call.creation? e.1 = some (w.freshSources p.batch) := by rw [first]; rfl
      rw [List.map_cons,List.filterMap_cons_some creates,other _ (List.cons.inj calls).2,w.freshSources_eq]

/-! ### A run of a writer -/

variable {passes : List Pass}

/-- A source is durable once a batch with it has been written to the end. -/
theorem durable_iff (serial : Serial w passes u) (start : w.durable = []) (key : String) :
    key ∈ u.durable ↔ ∃ p ∈ passes, p.Committed ∧ p.Has key := by
  refine serial.keeps (P := fun passes u => key ∈ u.durable ↔ ∃ p ∈ passes, p.Committed ∧ p.Has key)
    (by simp [start]) ?_
  intro passes v p u before written
  have more : key ∈ u.durable ↔ key ∈ v.durable ∨ (p.Committed ∧ p.Has key) := by
    cases written with
    | refuse plan => simp [Pass.Committed]
    | fail plan => simp [Pass.Committed]
    | commit plan => simp [Pass.Committed,Pass.Has,Writer.mem_durable_commit]
  rw [more,before]
  simp only [List.mem_append,List.mem_singleton,or_and_right,exists_or,exists_eq_left]

/-- A durable source was created for a batch that was written to the end. -/
theorem created_of_durable {key : String} (serial : Serial w passes u) (start : w.durable = [])
    (durable : key ∈ u.durable) : ∃ p ∈ passes, p.Committed ∧ Created p.exchanges key := by
  refine serial.keeps (P := fun passes u => key ∈ u.durable → ∃ p ∈ passes, p.Committed ∧ Created p.exchanges key)
    (by simp [start]) ?_ durable
  intro passes v p u before written durable
  by_cases earlier : key ∈ v.durable
  · obtain ⟨q,member,made⟩ := before earlier
    exact ⟨q,List.mem_append_left _ member,made⟩
  · cases written with
    | refuse plan => exact absurd durable earlier
    | fail plan => exact absurd durable earlier
    | @commit batch calls plan =>
      have has : ∃ r ∈ batch, r.source = key := ((v.mem_durable_commit batch).mp durable).resolve_left earlier
      have filled : batch ≠ [] := by
        rintro rfl
        simp at has
      rcases v.calls_of_plan plan with ⟨empty,-⟩ | rfl
      · exact absurd empty filled
      · refine ⟨_,List.mem_append_right _ (List.mem_singleton_self _),⟨_,rfl⟩,?_⟩
        obtain ⟨sources,made,source⟩ := v.creation_creates batch ((v.mem_freshKeys batch).mpr ⟨has,earlier⟩)
        refine ⟨sources,?_,source⟩
        rw [v.calls_eq,gone,List.map_append]
        exact List.mem_append_left _ made

/-! ### Sources and items -/

section
variable {σ : Type} (answers : Answers σ) (info : ImportInfo) (batches : List (List Record)) (s : σ)

/-- Items never come before their sources. Whatever batches are written and whatever is answered, when items
    are to be written, each of their sources has been created by a call that went well, for this batch or
    for an earlier one that was written to the end. -/
theorem items_after_sources {earlier later : List Pass} {p : Pass} {made rest : Exchanges} {items : List Item}
    {answer : Except Failure Unit} (run : (({ info } : Writer).passes answers batches s).1 = earlier ++ p :: later)
    (exchanges : p.exchanges = made ++ (.upsertItems items,answer) :: rest) :
    ∀ item ∈ items, ∀ origin ∈ item.sources,
      Created made origin.source ∨ ∃ q ∈ earlier, q.Committed ∧ Created q.exchanges origin.source := by
  have serial := serial_passes answers batches s (.nil (w := { info }))
  rw [List.nil_append,run] at serial
  obtain ⟨v,v',before,written⟩ := serial.before
  obtain ⟨rfl,rfl⟩ := written.upsert exchanges
  intro item member origin origin_member
  obtain ⟨r,inside,rfl⟩ := List.mem_map.mp member
  obtain rfl : origin = ⟨r.source,some v.info.id,r.publishedAt⟩ := by simpa [Item.ofRecord] using origin_member
  by_cases durable : r.source ∈ v.durable
  · exact .inr (created_of_durable before rfl durable)
  · exact .inl (v.creation_creates p.batch ((v.mem_freshKeys p.batch).mpr ⟨⟨r,inside,rfl⟩,durable⟩))

/-- Three batches. The first fails when its items are announced, after its source was created and its item
    written; the second has its source again and a new one; the third has no new source. -/
def retried : List Pass × Writer × Script :=
  ({ info := ⟨"nightly"⟩ } : Writer).passes Script.respond
    [[.bare "dht" 1],[.bare "dht" 2,.bare "rss" 3,.bare "dht" 4],[.bare "rss" 5]]
    ⟨[.ok (),.ok (),.error .importClosed],[]⟩

theorem items_after_sources_retried : ∃ q ∈ retried.1.take 2, q.Committed ∧ Created q.exchanges "rss" := by
  let item : Item := .ofRecord ⟨"nightly"⟩ (.bare "rss" 5)
  let third : Pass := ⟨[.bare "rss" 5],[(.upsertItems [item],.ok ()),(.publish [item.infoHash],.ok ())],
    .ok [item.infoHash]⟩
  have run : retried.1 = retried.1.take 2 ++ third :: [] := rfl
  have upsert : third.exchanges = [] ++ (.upsertItems [item],.ok ()) :: [(.publish [item.infoHash],.ok ())] := rfl
  have sources := items_after_sources _ _ _ _ run upsert item (List.mem_singleton_self _)
  rcases sources _ (List.mem_singleton_self _) with ⟨_,made,_⟩ | earlier
  · cases made
  · exact earlier

/-- Sources are created when they are needed and only then. Whatever batches are written and whatever is
    answered, a source is durable when a batch with it has been written to the end. A valid batch has its
    sources that are not durable created by one call, each once and in the order in which it first has
    them, and none if it has none. Hence a source is not created again once a batch with it was written to
    the end, and is created again for every valid batch with it as long as none was. -/
theorem creations_as_needed :
    let run := ({ info } : Writer).passes answers batches s
    (∀ key, run.2.1.isDurable key = true ↔ ∃ p ∈ run.1, p.Committed ∧ p.Has key) ∧
      ∀ earlier p later, run.1 = earlier ++ p :: later →
        (p.batch ≠ [] → (∀ r ∈ p.batch, r.validate = .ok ()) →
          ∃ keys : List String, keys.Nodup ∧ InOrderOf p.batch keys ∧
            (∀ key, key ∈ keys ↔ p.Has key ∧ ¬ ∃ q ∈ earlier, q.Committed ∧ q.Has key) ∧
            p.creations = if keys = [] then [] else [keys.map fun key => ⟨key,key⟩]) ∧
        (∀ key, (∃ q ∈ earlier, q.Committed ∧ q.Has key) →
          ∀ sources ∈ p.creations, ∀ source ∈ sources, source.key ≠ key) ∧
        (p.batch ≠ [] → (∀ r ∈ p.batch, r.validate = .ok ()) → ∀ key, p.Has key →
          (∀ q ∈ earlier, q.Has key → ¬ q.Committed) → ∃ sources, p.creations = [sources] ∧ ⟨key,key⟩ ∈ sources) := by
  intro run
  have serial := serial_passes answers batches s (.nil (w := { info }))
  rw [List.nil_append] at serial
  constructor
  · intro key
    rw [Writer.isDurable,List.contains_iff_mem]
    exact durable_iff serial rfl key
  intro earlier p later split
  have parts : run.1 = earlier ++ p :: later := split
  rw [parts] at serial
  obtain ⟨v,v',before,written⟩ := serial.before
  have durable (key : String) := durable_iff before rfl key
  refine ⟨?_,?_,?_⟩
  · intro filled valid
    refine ⟨v.freshKeys p.batch,v.freshKeys_nodup _,v.freshKeys_inOrder _,?_,written.creations_of_valid filled valid⟩
    intro key
    rw [v.mem_freshKeys,durable]
    rfl
  · intro key created sources member source inside same
    obtain rfl := written.creations_fresh member
    rw [v.freshSources_eq] at inside
    obtain ⟨fresh,fresh_member,rfl⟩ := List.mem_map.mp inside
    obtain rfl : fresh = key := same
    exact ((v.mem_freshKeys p.batch).mp fresh_member).2 ((durable fresh).mpr created)
  · intro filled valid key has failed
    have fresh : key ∈ v.freshKeys p.batch := by
      refine (v.mem_freshKeys p.batch).mpr ⟨has,?_⟩
      rw [durable]
      rintro ⟨q,member,committed,holds⟩
      exact failed q member holds committed
    refine ⟨(v.freshKeys p.batch).map .ofKey,?_,List.mem_map_of_mem fresh⟩
    rw [written.creations_of_valid filled valid,if_neg (List.ne_nil_of_mem fresh)]

theorem creations_as_needed_retried :
    retried.2.1.isDurable "dht" = true ∧
      ∃ p ∈ retried.1, p.batch = [.bare "dht" 2,.bare "rss" 3,.bare "dht" 4] ∧
        ∃ sources, p.creations = [sources] ∧ ⟨"dht","dht"⟩ ∈ sources := by
  have needed := creations_as_needed Script.respond ⟨"nightly"⟩
    [[.bare "dht" 1],[.bare "dht" 2,.bare "rss" 3,.bare "dht" 4],[.bare "rss" 5]]
    ⟨[.ok (),.ok (),.error .importClosed],[]⟩
  have second := needed.2 (retried.1.take 1) ⟨[.bare "dht" 2,.bare "rss" 3,.bare "dht" 4],_,_⟩ (retried.1.drop 2) rfl
  refine ⟨rfl,_,List.mem_of_mem_drop (i := 1) List.mem_cons_self,rfl,?_⟩
  refine second.2.2 (by simp) ?_ "dht" ⟨.bare "dht" 2,List.mem_cons_self,rfl⟩ ?_
  · intro r member
    rcases List.mem_cons.mp member with rfl | member
    · rfl
    rcases List.mem_pair.mp member with rfl | rfl <;> rfl
  · intro q member _
    obtain rfl := List.mem_singleton.mp member
    rintro ⟨hashes,ended⟩
    cases ended

end

end

end Intake
