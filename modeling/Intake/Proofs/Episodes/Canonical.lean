import Intake.Proofs.Episodes
import Intake.Proofs.Keyed
import Mathlib.Data.Finset.Dedup

/-!
Episodes have one form. Entries for seasons denote a map of sets in which the last entry
for a season counts (`denoted`), and this is the map that they are put into
(`season?_ofEntries`). Two maps that hold the same are the same list of seasons, since
both are in ascending order (`eq_of_season?`), and what is written for a map reads back as
the map. So a text of entries is read as what the entries denote, and it is written anew
with ascending seasons and episodes, in one way for all that denotes the same
(`read_canonical`).
-/
namespace Intake

open Json (Tree Fault)

theorem lookup_cons_ite {κ β : Type} [DecidableEq κ] (k n : κ) (b : β) (l : List (κ × β)) :
    ((n,b) :: l).lookup k = if k = n then some b else l.lookup k := by
  by_cases same : k = n
  · simp [same]
  · rw [List.lookup_cons,beq_eq_false_iff_ne.mpr same,if_neg same]

/-- Lists in ascending order that have the same members. -/
theorem eq_of_ascending {α : Type} (key : α → UInt32) {l l' : List α} (first : l.Pairwise fun a b => key a < key b)
    (second : l'.Pairwise fun a b => key a < key b) (same : ∀ a, a ∈ l ↔ a ∈ l') : l = l' :=
  Keyed.eq_of_ordered UInt32.lt_asymm first second same

namespace Numbers

theorem mem_ofList {n : UInt32} {l : List UInt32} : n ∈ (ofList l).toList ↔ n ∈ l := by
  induction l with
  | nil => simp [ofList,empty]
  | cons m rest ih =>
    show n ∈ insertInto m (ofList rest).toList ↔ _
    rw [mem_insertInto,ih,List.mem_cons]

/-- The numbers as a set, without an order. -/
def members (s : Numbers) : Finset UInt32 := s.toList.toFinset

@[simp] theorem members_ofList (l : List UInt32) : (ofList l).members = l.toFinset := by
  ext n
  simp [members,mem_ofList]

theorem members_injective : Function.Injective members := by
  intro s t same
  refine Numbers.ext (eq_of_ascending id s.ascending t.ascending ?_)
  intro n
  simpa [members] using Finset.ext_iff.mp same n

end Numbers

namespace Episodes

/-! ### What entries denote -/

/-- The set of episodes that the last entry for a season names, if there is one. -/
def denoted (entries : List (UInt32 × List UInt32)) (season : UInt32) : Option (Finset UInt32) :=
  (entries.reverse.lookup season).map List.toFinset

theorem lookup_putInto (season n : UInt32) (s : Numbers) (l : List (UInt32 × Numbers)) :
    (putInto n s l).lookup season = if season = n then some s else l.lookup season := by
  induction l with
  | nil => exact lookup_cons_ite season n s []
  | cons e rest ih =>
    rw [putInto]
    split
    · exact lookup_cons_ite season n s _
    split
    · rename_i _ same
      rw [lookup_cons_ite,lookup_cons_ite,same]
      split <;> rfl
    · rename_i _ other
      rw [lookup_cons_ite,lookup_cons_ite,ih]
      by_cases here : season = n
      · rw [if_pos here,if_pos here,if_neg (here ▸ other)]
      · rw [if_neg here,if_neg here]

theorem season?_put (season n : UInt32) (s : Numbers) (e : Episodes) :
    (e.put n s).season? season = if season = n then some s else e.season? season :=
  lookup_putInto season n s e.seasons

/-- The last entry for a season has its way. -/
theorem season?_foldl (season : UInt32) (entries : List (UInt32 × List UInt32)) (e : Episodes) :
    (entries.foldl (fun e entry => e.put entry.1 (.ofList entry.2)) e).season? season =
      ((entries.reverse.lookup season).map Numbers.ofList).or (e.season? season) := by
  induction entries generalizing e with
  | nil => rfl
  | cons entry rest ih =>
    rw [List.foldl_cons,ih,season?_put,List.reverse_cons,List.lookup_append,lookup_cons_ite,List.lookup_nil,
      Option.map_or,Option.or_assoc]
    split <;> rfl

theorem season?_ofEntries (season : UInt32) (entries : List (UInt32 × List UInt32)) :
    ((ofEntries entries).season? season).map Numbers.members = denoted entries season := by
  have last := season?_foldl season entries empty
  rw [ofEntries,last,denoted]
  cases entries.reverse.lookup season with
  | none => rfl
  | some l => simp

/-! ### Maps that hold the same -/

theorem mem_seasons_iff {e : Episodes} {n : UInt32} {s : Numbers} : (n,s) ∈ e.seasons ↔ e.season? n = some s := by
  constructor
  · intro member
    obtain ⟨before,after,split⟩ := List.append_of_mem member
    refine List.lookup_eq_some_iff.mpr ⟨before,after,split,?_⟩
    intro other earlier
    have less := (List.pairwise_append.mp (split ▸ e.ascending)).2.2 other earlier (n,s) List.mem_cons_self
    exact bne_iff_ne.mpr (UInt32.ne_of_lt less).symm
  · intro found
    obtain ⟨before,after,split,-⟩ := List.lookup_eq_some_iff.mp found
    rw [split]
    exact List.mem_append_right before List.mem_cons_self

theorem eq_of_season? {e e' : Episodes} (same : ∀ n, e.season? n = e'.season? n) : e = e' := by
  refine Episodes.ext (eq_of_ascending Prod.fst e.ascending e'.ascending ?_)
  rintro ⟨n,s⟩
  rw [mem_seasons_iff,mem_seasons_iff,same n]

theorem ofEntries_eq_iff {entries others : List (UInt32 × List UInt32)} :
    ofEntries entries = ofEntries others ↔ denoted entries = denoted others := by
  constructor
  · intro same
    funext season
    rw [← season?_ofEntries,← season?_ofEntries,same]
  · intro same
    refine eq_of_season? fun season => ?_
    have sets := congrFun same season
    rw [← season?_ofEntries,← season?_ofEntries] at sets
    exact Option.map_injective Numbers.members_injective sets

/-! ### Texts -/

theorem text_injective {e e' : Episodes} (same : e.toTree.text = e'.toTree.text) : e = e' := by
  have read (e : Episodes) : Json.readText ofTree (String.ofList e.toTree.text) = .ok e := by
    rw [Json.readText_of_holds (Json.holds_text (spelled_episodes e)),read_episodes]
  exact Except.ok.inj ((read e).symm.trans (same ▸ read e'))

/-- What is written has its seasons, and the episodes of each, in ascending order, and denotes the map. -/
theorem written_ascending (e : Episodes) : ∃ written : List (UInt32 × List UInt32),
    e.toTree = entriesTree written ∧ (written.map (·.1)).Pairwise (· < ·) ∧
      (∀ s ∈ written, s.2.Pairwise (· < ·)) ∧ ofEntries written = e := by
  refine ⟨e.seasons.map fun s => (s.1,s.2.toList),?_,?_,?_,ofEntries_seasons e⟩
  · exact toTree_eq_entriesTree e
  · rw [List.map_map]
    exact List.pairwise_map.mpr e.ascending
  · intro s member
    obtain ⟨season,-,rfl⟩ := List.mem_map.mp member
    exact season.2.ascending

/-- A text of entries is read as the map that the entries denote. What is written for the map names its seasons, and
    the episodes of each, in ascending order. Texts of entries are written anew in the same way just if the entries
    denote the same. -/
theorem read_canonical {entries others : List (UInt32 × List UInt32)} {text text' : String}
    (holds : Json.Holds text (entriesTree entries)) (holds' : Json.Holds text' (entriesTree others)) :
    ∃ e e', Json.readText ofTree text = .ok e ∧ Json.readText ofTree text' = .ok e' ∧
      (∀ season, (e.season? season).map Numbers.members = denoted entries season) ∧
      (∃ written, e.toTree.text = (entriesTree written).text ∧ (written.map (·.1)).Pairwise (· < ·) ∧
        (∀ s ∈ written, s.2.Pairwise (· < ·)) ∧ denoted written = denoted entries) ∧
      (e.toTree.text = e'.toTree.text ↔ denoted entries = denoted others) := by
  refine ⟨ofEntries entries,ofEntries others,?_,?_,fun season => season?_ofEntries season entries,?_,?_⟩
  · rw [Json.readText_of_holds holds,read_entries]
  · rw [Json.readText_of_holds holds',read_entries]
  · obtain ⟨written,tree,seasons,episodes,same⟩ := written_ascending (ofEntries entries)
    exact ⟨written,by rw [tree],seasons,episodes,ofEntries_eq_iff.mp same⟩
  · rw [← ofEntries_eq_iff]
    exact ⟨text_injective,fun same => by rw [same]⟩

/-- Entries that repeat seasons and episodes, in no order. -/
def repeated : List (UInt32 × List UInt32) := [(10,[3,1,3]),(2,[5]),(10,[2,1,1]),(2,[])]

theorem read_canonical_repeated : ∃ e,
    Json.readText ofTree (String.ofList (entriesTree repeated).text) = .ok e ∧
      e.toTree.text = (entriesTree [(2,[]),(10,[1,2])]).text := by
  have same : denoted repeated = denoted [(2,[]),(10,[1,2])] := by
    funext season
    by_cases two : season = 2
    · subst two
      rfl
    by_cases ten : season = 10
    · subst ten
      decide
    · simp [denoted,repeated,lookup_cons_ite,two,ten]
  obtain ⟨e,e',read,other,-,-,once⟩ := read_canonical (Json.holds_text (spelled_entries repeated))
    (Json.holds_text (spelled_entries [(2,[]),(10,[1,2])]))
  refine ⟨e,read,(once.mpr same).trans ?_⟩
  rw [Json.readText_of_holds (Json.holds_text (spelled_entries _)),read_entries] at other
  obtain rfl := Except.ok.inj other
  rfl

end Episodes

end Intake
