import Mathlib.Algebra.Ring.Nat
import Mathlib.Data.List.AList
import Mathlib.Data.Finset.Basic

/-!
# Hash maps

A finite map is a Mathlib `AList`, an association list whose keys are pairwise
distinct.  The order of its entries plays the part of the unspecified
iteration order of a hash map: no definition that is built on this module may
depend on it except through a set of keys.

Besides `insert`, `lookup` and `erase`, which come from Mathlib, a hash map
needs the operations of the entry API: keep the entries that pass a test,
update a present entry in place, insert only when absent, and append to the
list stored under a key.  Every one of them is described by a single lookup
equation.  Code that visits the keys of a map takes a `KeyOrder`.
-/

namespace ArkInfra

abbrev HashMap (κ υ : Type) := AList (fun _ : κ => υ)

namespace HashMap

variable {κ υ : Type} [DecidableEq κ]

theorem lookup_insert_ite
    (m : HashMap κ υ) (k k' : κ) (v : υ) :
    (m.insert k v).lookup k' =
      if k' = k then some v else m.lookup k' := by
  by_cases h : k' = k
  · subst h
    simp
  · simp [AList.lookup_insert_ne h, h]

theorem lookup_erase_ite
    (m : HashMap κ υ) (k k' : κ) :
    (m.erase k).lookup k' =
      if k' = k then none else m.lookup k' := by
  by_cases h : k' = k
  · subst h
    simp
  · simp [AList.lookup_erase_ne h, h]

def retain (p : κ → υ → Bool) (m : HashMap κ υ) : HashMap κ υ where
  entries := m.entries.filter (fun x => p x.1 x.2)
  nodupKeys := m.nodupKeys.sublist List.filter_sublist

@[simp] theorem lookup_retain
    (p : κ → υ → Bool) (m : HashMap κ υ) (k : κ) :
    (retain p m).lookup k = (m.lookup k).filter (p k) := by
  apply Option.ext
  intro v
  have hl : v ∈ (retain p m).lookup k ↔
      (⟨k, v⟩ : Sigma fun _ : κ => υ) ∈ m.entries.filter (fun x => p x.1 x.2) :=
    AList.mem_lookup_iff
  have hr : v ∈ m.lookup k ↔ (⟨k, v⟩ : Sigma fun _ : κ => υ) ∈ m.entries :=
    AList.mem_lookup_iff
  change v ∈ (retain p m).lookup k ↔ _
  rw [hl, List.mem_filter, ← hr]
  simp only [Option.mem_def, Option.filter_eq_some_iff]

/-- The set of keys whose entry passes the test. -/
def keysWhere (p : κ → υ → Bool) (m : HashMap κ υ) : Finset κ :=
  ((m.entries.filter (fun x => p x.1 x.2)).map Sigma.fst).toFinset

@[simp] theorem mem_keysWhere
    {p : κ → υ → Bool} {m : HashMap κ υ} {k : κ} :
    k ∈ keysWhere p m ↔ ∃ v, m.lookup k = some v ∧ p k v = true := by
  simp only [keysWhere, List.mem_toFinset, List.mem_map, List.mem_filter]
  constructor
  · rintro ⟨⟨k', v⟩, ⟨hmem, hp⟩, rfl⟩
    exact ⟨v, AList.mem_lookup_iff.mpr hmem, hp⟩
  · rintro ⟨v, hv, hp⟩
    exact ⟨⟨k, v⟩, ⟨AList.mem_lookup_iff.mp hv, hp⟩, rfl⟩

def removeAll (s : Finset κ) (m : HashMap κ υ) : HashMap κ υ :=
  retain (fun k _ => decide (k ∉ s)) m

@[simp] theorem lookup_removeAll
    (s : Finset κ) (m : HashMap κ υ) (k : κ) :
    (removeAll s m).lookup k = if k ∈ s then none else m.lookup k := by
  unfold removeAll
  rw [lookup_retain]
  by_cases h : k ∈ s
  · simp [h]
  · cases hv : m.lookup k <;> simp [h]

@[simp] theorem removeAll_empty (m : HashMap κ υ) : removeAll ∅ m = m := by
  refine AList.ext ?_
  exact List.filter_eq_self.mpr fun x _ => by simp

/-- Update the entry of a key in place, when there is one. -/
def modify (k : κ) (f : υ → υ) (m : HashMap κ υ) : HashMap κ υ :=
  match m.lookup k with
  | some v => m.insert k (f v)
  | none => m

@[simp] theorem lookup_modify
    (k k' : κ) (f : υ → υ) (m : HashMap κ υ) :
    (modify k f m).lookup k' =
      if k' = k then (m.lookup k').map f else m.lookup k' := by
  unfold modify
  by_cases h : k' = k
  · subst h
    cases hv : m.lookup k' with
    | none => simp [hv]
    | some v => simp
  · cases hv : m.lookup k with
    | none => simp [h]
    | some v => simp [AList.lookup_insert_ne h, h]

/-- Insert an entry unless the key is already present. -/
def ensure (k : κ) (v : υ) (m : HashMap κ υ) : HashMap κ υ :=
  if k ∈ m then m else m.insert k v

@[simp] theorem lookup_ensure
    (k k' : κ) (v : υ) (m : HashMap κ υ) :
    (ensure k v m).lookup k' =
      if k' = k then some ((m.lookup k').getD v) else m.lookup k' := by
  unfold ensure
  by_cases hk : k ∈ m
  · by_cases h : k' = k
    · subst h
      obtain ⟨w, hw⟩ := Option.isSome_iff_exists.mp (AList.lookup_isSome.mpr hk)
      simp [hk, hw]
    · simp [hk, h]
  · by_cases h : k' = k
    · subst h
      have hnone : m.lookup k' = none := AList.lookup_eq_none.mpr hk
      simp [hk, hnone]
    · simp [hk, AList.lookup_insert_ne h, h]

/-- Append to the list stored under a key, starting from the empty list. -/
def pushAt (k : κ) (x : υ) (m : HashMap κ (List υ)) : HashMap κ (List υ) :=
  m.insert k ((m.lookup k).getD [] ++ [x])

@[simp] theorem getD_lookup_pushAt
    (k k' : κ) (x : υ) (m : HashMap κ (List υ)) :
    ((pushAt k x m).lookup k').getD [] =
      (m.lookup k').getD [] ++ if k' = k then [x] else [] := by
  unfold pushAt
  by_cases h : k' = k
  · subst h
    simp
  · simp [AList.lookup_insert_ne h, h]

section Groups

variable {α : Type}

def groupBy (key : α → κ) (xs : List α) : HashMap κ (List α) :=
  xs.foldl (fun m x => pushAt (key x) x m) ∅

theorem getD_lookup_groupBy (key : α → κ) (xs : List α) (k : κ) :
    ((groupBy key xs).lookup k).getD [] = xs.filter (fun x => decide (key x = k)) := by
  have hfold : ∀ m : HashMap κ (List α),
      ((xs.foldl (fun m x => pushAt (key x) x m) m).lookup k).getD [] =
        (m.lookup k).getD [] ++ xs.filter (fun x => decide (key x = k)) := by
    induction xs with
    | nil =>
      intro m
      simp
    | cons x xs ih =>
      intro m
      rw [List.foldl_cons, ih, getD_lookup_pushAt, List.append_assoc, List.filter_cons]
      by_cases h : k = key x
      · simp [h]
      · simp [h, Ne.symm h]
  exact (hfold ∅).trans (by simp)

theorem mem_groupBy {key : α → κ} {xs : List α} {k : κ} :
    k ∈ groupBy key xs ↔ ∃ x ∈ xs, key x = k := by
  have hfold : ∀ m : HashMap κ (List α),
      k ∈ xs.foldl (fun m x => pushAt (key x) x m) m ↔ k ∈ m ∨ ∃ x ∈ xs, key x = k := by
    induction xs with
    | nil =>
      intro m
      simp
    | cons x xs ih =>
      intro m
      rw [List.foldl_cons, ih, pushAt, AList.mem_insert, List.exists_mem_cons_iff]
      tauto
  exact (hfold ∅).trans (by simp)

/-- An order in which the keys of a map are visited. -/
structure KeyOrder {υ : Type} (m : HashMap κ υ) where
  keys : List κ
  perm : keys.Perm m.keys

end Groups

section Counters

/-- Count one more under a key, starting from zero. -/
def bump (k : κ) (m : HashMap κ Nat) : HashMap κ Nat :=
  m.insert k ((m.lookup k).getD 0 + 1)

def total (m : HashMap κ Nat) : Nat :=
  (m.entries.map Sigma.snd).sum

theorem total_eq_add_erase (k : κ) (m : HashMap κ Nat) :
    total m = (m.lookup k).getD 0 + total (m.erase k) := by
  by_cases hk : k ∈ m
  · obtain ⟨v, l₁, l₂, hnot, hentries, herase⟩ := List.exists_of_kerase (AList.mem_keys.mp hk)
    have hlookup : m.lookup k = some v := by
      rw [AList.lookup, hentries, List.dlookup_append, List.dlookup_eq_none.mpr hnot,
        Option.none_or, List.dlookup_cons_eq]
    have hrest : (m.erase k).entries = l₁ ++ l₂ := herase
    rw [hlookup, total, total, hentries, hrest]
    simp only [List.map_append, List.map_cons, List.sum_append, List.sum_cons, Option.getD_some]
    omega
  · have hnone : m.lookup k = none := AList.lookup_eq_none.mpr hk
    have herase : (m.erase k).entries = m.entries := by
      exact List.kerase_of_notMem_keys (fun h => hk (AList.mem_keys.mpr h))
    simp [total, hnone, herase]

@[simp] theorem total_bump (k : κ) (m : HashMap κ Nat) : total (bump k m) = total m + 1 := by
  have hentries : (bump k m).entries =
      ⟨k, (m.lookup k).getD 0 + 1⟩ :: (m.erase k).entries := by
    exact AList.entries_insert
  have hsum : total (bump k m) = (m.lookup k).getD 0 + 1 + total (m.erase k) := by
    rw [total, hentries, List.map_cons, List.sum_cons, total]
  rw [hsum, total_eq_add_erase k m]
  omega

end Counters

end HashMap

end ArkInfra
