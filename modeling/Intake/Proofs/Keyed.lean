import Intake.Keyed
import Mathlib.Data.List.Induction

/-!
What a list with one entry for each key holds. Putting an entry changes what is
found under its key and nothing else (`find?_put`), so that under each key
`lastAtFirst` holds the last entry (`find?_lastAtFirst`, `mem_lastAtFirst`), and no
two entries have one key (`nodup_lastAtFirst`).
-/
namespace Intake.Keyed

/-- Lists in one order that have the same members. -/
theorem eq_of_ordered {α : Type} {r : α → α → Prop} (asymm : ∀ {a b}, r a b → ¬ r b a) {l l' : List α}
    (first : l.Pairwise r) (second : l'.Pairwise r) (same : ∀ a, a ∈ l ↔ a ∈ l') : l = l' := by
  have distinct {l : List α} (ordered : l.Pairwise r) : l.Nodup := by
    refine List.Pairwise.imp ?_ ordered
    rintro a _ before rfl
    exact asymm before before
  have perm : l.Perm l' := (List.perm_ext_iff_of_nodup (distinct first) (distinct second)).mpr same
  refine perm.eq_of_pairwise ?_ first second
  intro a b _ _ before behind
  exact absurd behind (asymm before)

variable {α κ : Type} [DecidableEq κ] (key : α → κ)

@[simp] theorem find?_nil (k : κ) : find? key k [] = none := rfl

theorem find?_cons (k : κ) (a : α) (rest : List α) :
    find? key k (a :: rest) = if key a = k then some a else find? key k rest := by
  by_cases here : key a = k <;> simp [find?,here]

theorem find?_append (k : κ) (first rest : List α) :
    find? key k (first ++ rest) = (find? key k first).or (find? key k rest) :=
  List.find?_append

theorem find?_singleton (k : κ) (a : α) : find? key k [a] = if key a = k then some a else none :=
  find?_cons key k a []

theorem find?_eq_none {k : κ} {entries : List α} : find? key k entries = none ↔ k ∉ entries.map key := by
  simp [find?,List.find?_eq_none]

theorem find?_put (k : κ) (a : α) (entries : List α) :
    find? key k (put key a entries) = if key a = k then some a else find? key k entries := by
  induction entries with
  | nil => simp [put,find?_singleton]
  | cons b rest ih =>
    rw [put]
    by_cases same : key b = key a
    · rw [if_pos same,find?_cons,find?_cons,same]
      split <;> rfl
    · rw [if_neg same,find?_cons,find?_cons,ih]
      by_cases here : key b = k
      · rw [if_pos here,if_pos here,if_neg (fun there => same (here.trans there.symm))]
      · rw [if_neg here,if_neg here]

theorem nodup_put (a : α) {entries : List α} (distinct : (entries.map key).Nodup) :
    ((put key a entries).map key).Nodup := by
  rw [keys_put]
  split
  case isTrue => exact distinct
  case isFalse nowhere =>
    refine List.nodup_append.mpr ⟨distinct,by simp,?_⟩
    intro k old l new same
    rw [List.mem_singleton] at new
    exact nowhere (new ▸ same ▸ old)

/-- No two entries have one key. -/
theorem nodup_lastAtFirst (entries : List α) : ((lastAtFirst key entries).map key).Nodup := by
  induction entries using List.reverseRecOn with
  | nil => exact List.nodup_nil
  | append_singleton entries a ih =>
    rw [lastAtFirst_concat]
    exact nodup_put key a ih

/-- Where no two entries have one key, all are kept. -/
theorem lastAtFirst_of_nodup {entries : List α} (distinct : (entries.map key).Nodup) :
    lastAtFirst key entries = entries := by
  induction entries using List.reverseRecOn with
  | nil => rfl
  | append_singleton entries a ih =>
    rw [List.map_append,List.nodup_append] at distinct
    have fresh : key a ∉ entries.map key := fun before => distinct.2.2 _ before _ List.mem_cons_self rfl
    rw [lastAtFirst_concat,ih distinct.1,put_of_fresh key fresh]

theorem lastAtFirst_eq_self_iff {entries : List α} :
    lastAtFirst key entries = entries ↔ (entries.map key).Nodup := by
  constructor
  · intro same
    rw [← same]
    exact nodup_lastAtFirst key entries
  · exact lastAtFirst_of_nodup key

/-- Under each key the last entry is kept. -/
theorem find?_lastAtFirst (k : κ) (entries : List α) :
    find? key k (lastAtFirst key entries) = find? key k entries.reverse := by
  induction entries using List.reverseRecOn with
  | nil => rfl
  | append_singleton entries a ih =>
    rw [lastAtFirst_concat,find?_put,ih,List.reverse_append,List.reverse_singleton,List.singleton_append,find?_cons]

theorem mem_keys_lastAtFirst {k : κ} {entries : List α} :
    k ∈ (lastAtFirst key entries).map key ↔ k ∈ entries.map key := by
  have nowhere : k ∉ (lastAtFirst key entries).map key ↔ k ∉ entries.map key := by
    rw [← find?_eq_none,find?_lastAtFirst,find?_eq_none,List.map_reverse,List.mem_reverse]
  exact Decidable.not_iff_not.mp nowhere

/-- Where no two entries have one key, the first with a key is the last. -/
theorem find?_reverse (k : κ) {entries : List α} (distinct : (entries.map key).Nodup) :
    find? key k entries.reverse = find? key k entries := by
  induction entries with
  | nil => rfl
  | cons a rest ih =>
    rw [List.map_cons,List.nodup_cons] at distinct
    rw [List.reverse_cons,find?_append,ih distinct.2,find?_singleton,find?_cons]
    by_cases here : key a = k
    · subst here
      rw [(find?_eq_none key).mpr distinct.1]
      rfl
    · simp [here]

theorem find?_of_mem {b : α} {entries : List α} (distinct : (entries.map key).Nodup) (member : b ∈ entries) :
    find? key (key b) entries = some b := by
  induction entries with
  | nil => cases member
  | cons a rest ih =>
    rw [List.map_cons,List.nodup_cons] at distinct
    rw [find?_cons]
    rcases List.mem_cons.mp member with rfl | later
    · rw [if_pos rfl]
    · have other : key a ≠ key b := fun same => distinct.1 (same ▸ List.mem_map_of_mem later)
      rw [if_neg other]
      exact ih distinct.2 later

/-- An entry is the last with its key if no other with it stands behind. -/
theorem find?_reverse_of_last {b : α} {before after : List α} (last : key b ∉ after.map key) :
    find? key (key b) (before ++ b :: after).reverse = some b := by
  have nowhere : find? key (key b) after.reverse = none := by
    rw [find?_eq_none]
    simpa using last
  rw [List.reverse_append,List.reverse_cons,find?_append,find?_append,nowhere,find?_singleton,if_pos rfl]
  rfl

/-- An entry is kept just if no other with its key stands behind it. -/
theorem mem_lastAtFirst {b : α} {entries : List α} :
    b ∈ lastAtFirst key entries ↔ ∃ before after, entries = before ++ b :: after ∧ key b ∉ after.map key := by
  constructor
  · intro member
    have found := find?_of_mem key (nodup_lastAtFirst key entries) member
    rw [find?_lastAtFirst,find?,List.find?_eq_some_iff_append] at found
    obtain ⟨-,behind,before,split,others⟩ := found
    refine ⟨before.reverse,behind.reverse,?_,?_⟩
    · rw [← List.reverse_reverse entries,split]
      simp
    · intro again
      obtain ⟨a,inside,same⟩ := List.mem_map.mp again
      have other := others a (List.mem_reverse.mp inside)
      simp [same] at other
  · rintro ⟨before,after,rfl,last⟩
    have found : find? key (key b) (lastAtFirst key (before ++ b :: after)) = some b := by
      rw [find?_lastAtFirst,find?_reverse_of_last key last]
    exact List.mem_of_find?_eq_some found

theorem mem_of_mem_lastAtFirst {b : α} {entries : List α} (member : b ∈ lastAtFirst key entries) : b ∈ entries := by
  obtain ⟨before,after,rfl,-⟩ := (mem_lastAtFirst key).mp member
  exact List.mem_append_right before List.mem_cons_self

end Intake.Keyed
