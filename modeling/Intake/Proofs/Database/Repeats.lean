import Intake.Proofs.Database.Provenance
import Mathlib.Data.List.Basic

/-!
What is left of repeats. Entries collapse to the last of each key, in the order in which
the keys first occur, and one list only is left of them (`Keyed.collapsed_iff`). The run
that keeps them comes to its end, and each position that it writes to on its way is in
range and holds an entry with the key that is written (`Keyed.runs_lastAtFirst`). So it is
with items by their info hashes, and with the entries of items by info hash and source
(`repeats_collapse`).
-/
namespace Intake.Keyed

variable {α κ : Type} [DecidableEq κ] (key : α → κ)

/-- What is left of entries when the last of each key takes the place of the first. -/
structure Collapsed (entries kept : List α) : Prop where
  /-- No two are left with one key. -/
  distinct : (kept.map key).Nodup
  /-- No key is lost, and none is new. -/
  covers : ∀ k, k ∈ kept.map key ↔ k ∈ entries.map key
  /-- The keys stand in the order in which they first occur. -/
  ordered : (kept.map key).Pairwise fun h k => (entries.map key).idxOf h < (entries.map key).idxOf k
  /-- Behind one that is left no other has its key. -/
  last : ∀ a ∈ kept, ∃ before after, entries = before ++ a :: after ∧ key a ∉ after.map key

/-- Entries are kept in turn, with this result. -/
structure Runs (entries result : List α) : Prop where
  ends : ∃ kept, putAll? key entries = some kept ∧ kept.entries.toList = result
  /-- A position that an entry is written to is in range, and what stands there has its key. -/
  inRange : ∀ before a after, entries = before ++ a :: after → ∃ kept, putAll? key before = some kept ∧
    ∀ i, kept.positions.lookup (key a) = some i → ∃ inside : i < kept.entries.size, key kept.entries[i] = key a

/-! ### The order of the keys -/

section
variable {l : List κ}

theorem pairwise_idxOf_append {keys : List κ} (inside : ∀ k ∈ keys, k ∈ l) (more : List κ)
    (ordered : keys.Pairwise fun h k => l.idxOf h < l.idxOf k) :
    keys.Pairwise fun h k => (l ++ more).idxOf h < (l ++ more).idxOf k := by
  refine ordered.imp_of_mem ?_
  intro h k inH inK less
  rw [List.idxOf_append_of_mem (inside h inH),List.idxOf_append_of_mem (inside k inK)]
  exact less

theorem idxOf_lt_of_new {h k : κ} (old : h ∈ l) (new : k ∉ l) : (l ++ [k]).idxOf h < (l ++ [k]).idxOf k := by
  rw [List.idxOf_append_of_mem old,List.idxOf_append_of_notMem new]
  exact Nat.lt_of_lt_of_le (List.idxOf_lt_length_of_mem old) (Nat.le_add_right _ _)

end

/-- One more entry moves no key that has occurred, and a new key comes behind all others. -/
theorem ordered_lastAtFirst (entries : List α) :
    ((lastAtFirst key entries).map key).Pairwise fun h k =>
      (entries.map key).idxOf h < (entries.map key).idxOf k := by
  induction entries using List.reverseRecOn with
  | nil => simp
  | append_singleton entries a ih =>
    have before := pairwise_idxOf_append (fun k => (mem_keys_lastAtFirst key).mp) [key a] ih
    rw [lastAtFirst_concat,keys_put,List.map_append,List.map_singleton]
    split
    case isTrue => exact before
    case isFalse fresh =>
      refine List.pairwise_append.mpr ⟨before,List.pairwise_singleton _ _,?_⟩
      intro h member k new
      rw [List.mem_singleton.mp new]
      exact idxOf_lt_of_new ((mem_keys_lastAtFirst key).mp member) (mt (mem_keys_lastAtFirst key).mpr fresh)

/-! ### The list that is left -/

theorem collapsed_lastAtFirst (entries : List α) : Collapsed key entries (lastAtFirst key entries) where
  distinct := nodup_lastAtFirst key entries
  covers _ := mem_keys_lastAtFirst key
  ordered := ordered_lastAtFirst key entries
  last _ := (mem_lastAtFirst key).mp

/-- What is left can be told from its keys. -/
theorem Collapsed.filterMap_keys {entries kept : List α} (collapsed : Collapsed key entries kept) :
    (kept.map key).filterMap (find? key · entries.reverse) = kept := by
  have found : ∀ a ∈ kept, find? key (key a) entries.reverse = some a := by
    intro a member
    obtain ⟨before,after,rfl,last⟩ := collapsed.last a member
    exact find?_reverse_of_last key last
  rw [List.filterMap_map]
  calc kept.filterMap ((find? key · entries.reverse) ∘ key)
    _ = kept.filterMap some := List.filterMap_congr found
    _ = kept := List.filterMap_some

/-- Nothing else is left. -/
theorem collapsed_iff {entries kept : List α} : Collapsed key entries kept ↔ kept = lastAtFirst key entries := by
  constructor
  · intro collapsed
    have own := collapsed_lastAtFirst key entries
    have keys : kept.map key = (lastAtFirst key entries).map key :=
      eq_of_ordered Nat.lt_asymm collapsed.ordered own.ordered fun k => (collapsed.covers k).trans (own.covers k).symm
    rw [← collapsed.filterMap_keys,keys,own.filterMap_keys]
  · rintro rfl
    exact collapsed_lastAtFirst key entries

/-- The last takes the place of the first. -/
example : lastAtFirst Prod.fst [(1,"dht"),(2,"dht"),(1,"rss")] = [(1,"rss"),(2,"dht")] := by decide

/-! ### The run -/

theorem runs_lastAtFirst (entries : List α) : Runs key entries (lastAtFirst key entries) where
  ends := by
    obtain ⟨kept,run,-,same⟩ := exists_putAll? key entries
    exact ⟨kept,run,by rw [same,lastAtFirst_eq]⟩
  inRange := by
    intro before a after _
    obtain ⟨kept,run,noted,-⟩ := exists_putAll? key before
    exact ⟨kept,run,fun i found => noted.inRange found⟩

end Intake.Keyed

namespace Intake.Database

open Keyed (Collapsed Runs)

/-- Items collapse to the last of each info hash. This changes nothing just if none is repeated, and so nothing the
    second time. The entries of items, of whatever sources, collapse to the last for each pair of an info hash and a
    source. Neither run writes out of the range of what it keeps. -/
theorem repeats_collapse (items : List Item) :
    ((∀ kept, kept = lastItems items ↔ Collapsed (·.infoHash) items kept) ∧
      lastItems (lastItems items) = lastItems items ∧
      (lastItems items = items ↔ (items.map (·.infoHash)).Nodup) ∧
      Runs (·.infoHash) items (lastItems items)) ∧
    (∀ rows, rows = itemSourceRows items ↔ Collapsed (·.key) (items.flatMap sourceRows) rows) ∧
      (itemSourceRows items = items.flatMap sourceRows ↔ ((items.flatMap sourceRows).map (·.key)).Nodup) ∧
      Runs (·.key) (items.flatMap sourceRows) (itemSourceRows items) := by
  have joined : itemSourceRows items = Keyed.lastAtFirst (·.key) (items.flatMap sourceRows) := rfl
  rw [joined]
  refine ⟨⟨?_,?_,?_,?_⟩,?_,?_,?_⟩
  · exact fun kept => (Keyed.collapsed_iff _).symm
  · exact Keyed.lastAtFirst_of_nodup _ (Keyed.nodup_lastAtFirst _ items)
  · exact Keyed.lastAtFirst_eq_self_iff _
  · exact Keyed.runs_lastAtFirst _ items
  · exact fun rows => (Keyed.collapsed_iff _).symm
  · exact Keyed.lastAtFirst_eq_self_iff _
  · exact Keyed.runs_lastAtFirst _ _

end Intake.Database
