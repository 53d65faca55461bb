import Intake.Episodes
import Intake.Proofs.Json.Values

/-!
Episodes read back. Numbers and seasons in ascending order are put into a map just as
they stand (`ofEntries_seasons`), so that what is written for a map is read as the map
(`read_episodes`).
-/
namespace Intake

open Json (Tree Fault)

namespace Numbers

theorem insertInto_of_lt {n : UInt32} {l : List UInt32} (least : ∀ m ∈ l, n < m) : insertInto n l = n :: l := by
  cases l with
  | nil => rfl
  | cons m rest => rw [insertInto,if_pos (least m List.mem_cons_self)]

theorem ofList_ascending {l : List UInt32} (ascending : l.Pairwise (· < ·)) : (ofList l).toList = l := by
  induction ascending with
  | nil => rfl
  | cons least _ ih =>
    rw [ofList,insert]
    simp only [ih]
    exact insertInto_of_lt least

theorem ofList_toList (s : Numbers) : ofList s.toList = s := Numbers.ext (ofList_ascending s.ascending)

end Numbers

namespace Episodes

theorem putInto_of_lt {n : UInt32} (s : Numbers) {l : List (UInt32 × Numbers)} (most : ∀ e ∈ l, e.1 < n) :
    putInto n s l = l ++ [(n,s)] := by
  induction l with
  | nil => rfl
  | cons e rest ih =>
    obtain ⟨first,others⟩ := List.forall_mem_cons.mp most
    have other : ¬ n < e.1 ∧ n ≠ e.1 := ⟨UInt32.lt_asymm first,(UInt32.ne_of_lt first).symm⟩
    rw [putInto,if_neg other.1,if_neg other.2,ih others,List.cons_append]

theorem foldl_put {l : List (UInt32 × Numbers)} (e : Episodes) (ascending : (e.seasons ++ l).Pairwise (·.1 < ·.1)) :
    (l.foldl (fun e s => e.put s.1 s.2) e).seasons = e.seasons ++ l := by
  induction l generalizing e with
  | nil => simp
  | cons s rest ih =>
    have most : ∀ e' ∈ e.seasons, e'.1 < s.1 := fun e' member =>
      (List.pairwise_append.mp ascending).2.2 e' member s List.mem_cons_self
    have next : (e.put s.1 s.2).seasons = e.seasons ++ [s] := putInto_of_lt s.2 most
    rw [List.foldl_cons,ih (e.put s.1 s.2) (by simpa [next] using ascending),next]
    simp

theorem ofEntries_seasons (e : Episodes) : ofEntries (e.seasons.map fun s => (s.1,s.2.toList)) = e := by
  have whole := foldl_put empty (by simpa [empty] using e.ascending : (empty.seasons ++ e.seasons).Pairwise (·.1 < ·.1))
  refine Episodes.ext ?_
  rw [ofEntries,List.foldl_map]
  simpa [Numbers.ofList_toList,empty] using whole

theorem number_toNat (n : UInt32) : n.toNat < 2 ^ 32 := n.toNat_lt

/-- The object whose members are entries, in their order. -/
def entriesTree (entries : List (UInt32 × List UInt32)) : Tree :=
  .ofMembers (entries.map fun e =>
    (String.ofList (Decimal.text e.1.toNat),.ofList (e.2.map fun n => .ofNat n.toNat)))

theorem spelled_entries (entries : List (UInt32 × List UInt32)) :
    (entriesTree entries).Spelled (entriesTree entries).text := by
  refine Json.spelled_ofMembers ?_
  intro m member
  obtain ⟨e,-,rfl⟩ := List.mem_map.mp member
  refine Json.spelled_ofList ?_
  intro t number
  obtain ⟨n,-,rfl⟩ := List.mem_map.mp number
  exact Json.spelled_ofNat n.toNat

theorem read_entries (entries : List (UInt32 × List UInt32)) :
    ofTree (entriesTree entries) = .ok (ofEntries entries) := by
  have list (l : List UInt32) : (Tree.ofList (l.map fun n => .ofNat n.toNat)).asList (·.asUnsigned 32) =
      .ok (l.map UInt32.toNat) :=
    Json.asList_ofList fun n _ => Json.asUnsigned_ofNat (by decide) (number_toNat n)
  have whole : (entriesTree entries).asMap (·.numericKey 32) (·.asList (·.asUnsigned 32)) =
      .ok (entries.map fun e => (e.1.toNat,e.2.map UInt32.toNat)) :=
    Json.asMap_ofMembers (fun e _ => Json.numericKey_text (by decide) (number_toNat e.1)) fun e _ => list e.2
  rw [ofTree,whole]
  simp only [bind,Except.bind,List.map_map,Function.comp_def,UInt32.ofNat_toNat,List.map_id']
  rfl

/-- What is written for a map are its seasons as entries. -/
theorem toTree_eq_entriesTree (e : Episodes) : e.toTree = entriesTree (e.seasons.map fun s => (s.1,s.2.toList)) := by
  rw [toTree,entriesTree,List.map_map]
  rfl

theorem spelled_episodes (e : Episodes) : e.toTree.Spelled e.toTree.text := by
  rw [toTree_eq_entriesTree]
  exact spelled_entries _

theorem read_episodes (e : Episodes) : ofTree e.toTree = .ok e := by
  rw [toTree_eq_entriesTree,read_entries,ofEntries_seasons]

end Episodes

end Intake
