import ArkInfra.Lib.HashMap
import Mathlib.Data.Finset.Card
import Mathlib.Data.List.Induction

/-!
# Maps with a bounded number of entries

A `BoundedMap` has room for a fixed number of entries.  A key that it holds can
always be written again; a new key is refused when the map is full.

The second part is about a sequence of writes whose outcome nobody looks at.
What the map holds under a key is the last value written to it
(`lastWrite_of_get`): a key that once got in is never refused later.  As long as
the writes have no more keys than the map has room, it holds all of them
(`get_of_lastWrite`).
-/

namespace ArkInfra

/-- A map with room for `capacity` entries. -/
structure BoundedMap (κ υ : Type) (capacity : Nat) where
  entries : HashMap κ υ
  room : entries.keys.length ≤ capacity

namespace BoundedMap

variable {κ υ : Type} [DecidableEq κ] {capacity : Nat}

def empty : BoundedMap κ υ capacity where
  entries := ∅
  room := Nat.zero_le capacity

def get (m : BoundedMap κ υ capacity) (k : κ) : Option υ :=
  m.entries.lookup k

/-- A write to the key finds its entry, or room for a new one. -/
def Accepts (m : BoundedMap κ υ capacity) (k : κ) : Prop :=
  k ∈ m.entries ∨ m.entries.keys.length < capacity

instance (m : BoundedMap κ υ capacity) (k : κ) : Decidable (m.Accepts k) :=
  inferInstanceAs (Decidable (_ ∨ _))

theorem length_keys_insert {m : BoundedMap κ υ capacity} {k : κ} (v : υ) (h : m.Accepts k) :
    (m.entries.insert k v).keys.length ≤ capacity := by
  rw [AList.keys_insert, List.length_cons]
  have hroom := m.room
  rcases h with hheld | hfree
  · have hmem : k ∈ m.entries.keys := AList.mem_keys.mp hheld
    have hpos := List.length_pos_of_mem hmem
    rw [List.length_erase_of_mem hmem]
    omega
  · have herase := (List.erase_sublist (a := k) (l := m.entries.keys)).length_le
    omega

/-- Write a value under a key; `none` when there is no room for it. -/
def insert (m : BoundedMap κ υ capacity) (k : κ) (v : υ) : Option (BoundedMap κ υ capacity) :=
  if h : m.Accepts k then some ⟨m.entries.insert k v, length_keys_insert v h⟩ else none

/-- The map after a write whose outcome nobody looks at. -/
def put (m : BoundedMap κ υ capacity) (k : κ) (v : υ) : BoundedMap κ υ capacity :=
  (m.insert k v).getD m

theorem get_eq_none_iff {m : BoundedMap κ υ capacity} {k : κ} :
    m.get k = none ↔ k ∉ m.entries :=
  AList.lookup_eq_none

theorem entries_put (m : BoundedMap κ υ capacity) (k : κ) (v : υ) :
    (m.put k v).entries = if m.Accepts k then m.entries.insert k v else m.entries := by
  unfold put insert
  split_ifs <;> rfl

/-- **What a write changes.** -/
theorem get_put (m : BoundedMap κ υ capacity) (k k' : κ) (v : υ) :
    (m.put k v).get k' = if k' = k ∧ m.Accepts k then some v else m.get k' := by
  rw [get, entries_put]
  by_cases haccepts : m.Accepts k
  · rw [if_pos haccepts, HashMap.lookup_insert_ite]
    simp only [haccepts, and_true, get]
  · rw [if_neg haccepts, if_neg fun h => haccepts h.2, get]

section Writes

def putAll (m : BoundedMap κ υ capacity) (writes : List (κ × υ)) : BoundedMap κ υ capacity :=
  writes.foldl (fun m write => m.put write.1 write.2) m

theorem putAll_concat (m : BoundedMap κ υ capacity) (writes : List (κ × υ)) (k : κ) (v : υ) :
    m.putAll (writes ++ [(k, v)]) = (m.putAll writes).put k v := by
  simp [putAll]

def lastWrite (k : κ) (writes : List (κ × υ)) : Option υ :=
  (writes.reverse.find? fun write => decide (write.1 = k)).map Prod.snd

theorem lastWrite_concat (k k' : κ) (writes : List (κ × υ)) (v : υ) :
    lastWrite k' (writes ++ [(k, v)]) = if k = k' then some v else lastWrite k' writes := by
  unfold lastWrite
  by_cases hkey : k = k' <;> simp [hkey]

theorem lastWrite_eq_none_iff {k : κ} {writes : List (κ × υ)} :
    lastWrite k writes = none ↔ ∀ write ∈ writes, write.1 ≠ k := by
  simp [lastWrite]

/-- Writes under renamed keys, where the key in question keeps its own name. -/
theorem lastWrite_map {κ' : Type} [DecidableEq κ'] (f : κ' → κ) {k : κ'}
    {writes : List (κ' × υ)} (hown : ∀ write ∈ writes, f write.1 = f k → write.1 = k) :
    lastWrite (f k) (writes.map (Prod.map f id)) = lastWrite k writes := by
  induction writes using List.reverseRecOn with
  | nil =>
    rfl
  | append_singleton writes write ih =>
    obtain ⟨k', v⟩ := write
    rw [List.map_append, List.map_singleton, Prod.map_apply, lastWrite_concat, lastWrite_concat,
      ih fun write hwrite => hown write (List.mem_append_left _ hwrite)]
    have hlast : f k' = f k → k' = k := hown (k', v) (by simp)
    by_cases hkey : k' = k
    · rw [if_pos hkey, if_pos (congrArg f hkey), id]
    · rw [if_neg hkey, if_neg (mt hlast hkey)]

/-- **What is held under a key is the last value written to it.** -/
theorem lastWrite_of_get {writes : List (κ × υ)} {k : κ} {v : υ}
    (h : ((empty : BoundedMap κ υ capacity).putAll writes).get k = some v) :
    lastWrite k writes = some v := by
  induction writes using List.reverseRecOn generalizing v with
  | nil =>
    cases h
  | append_singleton writes write ih =>
    obtain ⟨k', v'⟩ := write
    rw [putAll_concat, get_put] at h
    rw [lastWrite_concat]
    by_cases hkey : k' = k
    · subst hkey
      rw [if_pos rfl]
      split_ifs at h with haccepts
      · exact h
      · -- a key that is held is not refused
        have hheld : k' ∈ ((empty : BoundedMap κ υ capacity).putAll writes).entries := by
          by_contra hnot
          rw [get_eq_none_iff.mpr hnot] at h
          cases h
        exact absurd ⟨rfl, Or.inl hheld⟩ haccepts
    · rw [if_neg fun hsame => hkey hsame.1.symm] at h
      rw [if_neg hkey]
      exact ih h

theorem mem_of_lastWrite {writes : List (κ × υ)} {k : κ} {v : υ} (h : lastWrite k writes = some v) :
    (k, v) ∈ writes := by
  unfold lastWrite at h
  obtain ⟨write, hfound, rfl⟩ := Option.map_eq_some_iff.mp h
  have hkey : write.1 = k := by
    simpa using List.find?_some hfound
  rw [← hkey]
  exact List.mem_reverse.mp (List.mem_of_find?_eq_some hfound)

theorem get_putAll_ne_none {m : BoundedMap κ υ capacity} {k : κ} (h : m.get k ≠ none)
    (writes : List (κ × υ)) : (m.putAll writes).get k ≠ none := by
  induction writes using List.reverseRecOn with
  | nil =>
    exact h
  | append_singleton writes write ih =>
    obtain ⟨k', v⟩ := write
    rw [putAll_concat, get_put]
    split_ifs
    · exact Option.some_ne_none v
    · exact ih

def keysOf (writes : List (κ × υ)) : Finset κ :=
  (writes.map Prod.fst).toFinset

theorem keysOf_concat (writes : List (κ × υ)) (k : κ) (v : υ) :
    keysOf (writes ++ [(k, v)]) = Insert.insert k (keysOf writes) := by
  ext k'
  simp [keysOf]

theorem keys_putAll_subset (writes : List (κ × υ)) :
    ((empty : BoundedMap κ υ capacity).putAll writes).entries.keys.toFinset ⊆ keysOf writes := by
  intro k hk
  rw [List.mem_toFinset] at hk
  by_contra hnot
  have hunwritten : lastWrite k writes = none := by
    rw [lastWrite_eq_none_iff]
    intro write hwrite hkey
    exact hnot (List.mem_toFinset.mpr (List.mem_map.mpr ⟨write, hwrite, hkey⟩))
  obtain ⟨v, hv⟩ := Option.isSome_iff_exists.mp (AList.lookup_isSome.mpr (AList.mem_keys.mpr hk))
  rw [lastWrite_of_get hv] at hunwritten
  cases hunwritten

theorem accepts_of_card {writes : List (κ × υ)} {k : κ}
    (hroom : (Insert.insert k (keysOf writes)).card ≤ capacity) :
    ((empty : BoundedMap κ υ capacity).putAll writes).Accepts k := by
  by_cases hheld : k ∈ ((empty : BoundedMap κ υ capacity).putAll writes).entries
  · exact Or.inl hheld
  · right
    let keys := ((empty : BoundedMap κ υ capacity).putAll writes).entries.keys
    have hnew : k ∉ keys.toFinset := fun hk => hheld (AList.mem_keys.mpr (List.mem_toFinset.mp hk))
    have hsubset : Insert.insert k keys.toFinset ⊆ Insert.insert k (keysOf writes) :=
      Finset.insert_subset_insert k (keys_putAll_subset writes)
    have hcard := Finset.card_le_card hsubset
    have hsize : keys.toFinset.card = keys.length :=
      List.toFinset_card_of_nodup (AList.keys_nodup _)
    rw [Finset.card_insert_of_notMem hnew, hsize] at hcard
    exact Nat.lt_of_succ_le (Nat.le_trans hcard hroom)

/-- **As long as all keys fit into the map, it holds the last value of every
one.** -/
theorem get_of_lastWrite {writes : List (κ × υ)} {k : κ} {v : υ}
    (hroom : (keysOf writes).card ≤ capacity) (h : lastWrite k writes = some v) :
    ((empty : BoundedMap κ υ capacity).putAll writes).get k = some v := by
  induction writes using List.reverseRecOn generalizing v with
  | nil =>
    cases h
  | append_singleton writes write ih =>
    obtain ⟨k', v'⟩ := write
    rw [keysOf_concat] at hroom
    have hbefore : (keysOf writes).card ≤ capacity :=
      Nat.le_trans (Finset.card_le_card (Finset.subset_insert k' _)) hroom
    rw [lastWrite_concat] at h
    rw [putAll_concat, get_put]
    by_cases hkey : k' = k
    · rw [if_pos hkey] at h
      rw [if_pos ⟨hkey.symm, accepts_of_card hroom⟩, h]
    · rw [if_neg hkey] at h
      rw [if_neg fun hsame => hkey hsame.1.symm]
      exact ih hbefore h

end Writes

end BoundedMap

end ArkInfra
