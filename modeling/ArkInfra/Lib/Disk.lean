import ArkInfra.Lib.HashMap
import Mathlib.Data.List.Flatten
import Mathlib.Data.List.Perm.Basic

/-!
# Files behind names and handles

A name leads to a file, and so does the handle of a process that has opened it.
Renaming moves the name and leaves the handles: a process goes on writing to the
file it opened, whatever it is called by now.  A file whose name was given to
another file can still be written to, but nobody will find it.

A file is the list of the records that were appended to it.  Nothing is lost
while no name is given to a second file (`AllNamed`): then the records that can
be found are all that were ever written (`kept_eq`).
-/

namespace ArkInfra

/-- Files, and the names that lead to some of them. -/
structure Disk (κ α : Type) [DecidableEq κ] where
  names : HashMap κ Nat
  files : List (List α)
  valid : ∀ k i, names.lookup k = some i → i < files.length

namespace Disk

variable {κ α : Type} [DecidableEq κ]

def empty : Disk κ α where
  names := ∅
  files := []
  valid := by simp

def content (d : Disk κ α) (i : Nat) : List α :=
  d.files.getD i []

/-- Add a file under a name that leads nowhere. -/
def create (d : Disk κ α) (k : κ) : Disk κ α where
  names := d.names.insert k d.files.length
  files := d.files ++ [[]]
  valid := by
    intro k' i h
    rw [HashMap.lookup_insert_ite] at h
    rw [List.length_append, List.length_singleton]
    split_ifs at h
    · have hi := Option.some.inj h
      omega
    · have hi := d.valid k' i h
      omega

/-- Open the file of a name for appending, or create it. -/
def openAppend (d : Disk κ α) (k : κ) : Disk κ α × Nat :=
  match d.names.lookup k with
  | some i => (d, i)
  | none => (d.create k, d.files.length)

/-- Move the file of a name to another name, which may have been taken. -/
def rename (d : Disk κ α) (k k' : κ) : Option (Disk κ α) :=
  match h : d.names.lookup k with
  | none => none
  | some i => some {
      names := (d.names.erase k).insert k' i
      files := d.files
      valid := by
        intro k'' j hj
        rw [HashMap.lookup_insert_ite, HashMap.lookup_erase_ite] at hj
        split_ifs at hj
        · rw [← Option.some.inj hj]
          exact d.valid k i h
        · exact d.valid k'' j hj }

def append (d : Disk κ α) (i : Nat) (a : α) : Disk κ α where
  names := d.names
  files := d.files.modify i (· ++ [a])
  valid := by
    intro k j h
    rw [List.length_modify]
    exact d.valid k j h

def isNamed (d : Disk κ α) (i : Nat) : Bool :=
  d.names.entries.any fun entry => decide (entry.2 = i)

def kept (d : Disk κ α) : List α :=
  ((d.files.zipIdx.filter fun file => d.isNamed file.2).map Prod.fst).flatten

def AllNamed (d : Disk κ α) : Prop :=
  ∀ i < d.files.length, ∃ k, d.names.lookup k = some i

theorem isNamed_iff {d : Disk κ α} {i : Nat} :
    d.isNamed i = true ↔ ∃ k, d.names.lookup k = some i := by
  unfold isNamed
  rw [List.any_eq_true]
  constructor
  · rintro ⟨⟨k, j⟩, hmem, hj⟩
    obtain rfl : j = i := of_decide_eq_true hj
    exact ⟨k, AList.mem_lookup_iff.mpr hmem⟩
  · rintro ⟨k, hk⟩
    exact ⟨⟨k, i⟩, AList.mem_lookup_iff.mp hk, decide_eq_true rfl⟩

theorem kept_sublist (d : Disk κ α) : d.kept.Sublist d.files.flatten := by
  have hsub : (d.files.zipIdx.filter fun file => d.isNamed file.2).Sublist d.files.zipIdx :=
    List.filter_sublist
  have hfiles := hsub.map Prod.fst
  rw [List.zipIdx_map_fst] at hfiles
  exact hfiles.flatten

theorem kept_eq {d : Disk κ α} (h : d.AllNamed) : d.kept = d.files.flatten := by
  have hall : (d.files.zipIdx.filter fun file => d.isNamed file.2) = d.files.zipIdx := by
    rw [List.filter_eq_self]
    intro file hfile
    have hlt := (List.mem_zipIdx' hfile).1
    exact isNamed_iff.mpr (h file.2 hlt)
  rw [kept, hall, List.zipIdx_map_fst]

section Open

variable (d : Disk κ α) (k : κ)

theorem openAppend_lt : (d.openAppend k).2 < (d.openAppend k).1.files.length := by
  unfold openAppend
  split
  next i h => exact d.valid k i h
  next => simp [create]

theorem length_openAppend : d.files.length ≤ (d.openAppend k).1.files.length := by
  unfold openAppend
  split <;> simp [create]

theorem flatten_openAppend : (d.openAppend k).1.files.flatten = d.files.flatten := by
  unfold openAppend
  split <;> simp [create]

theorem name_of_openAppend {k' : κ} {i : Nat} (h : (d.openAppend k).1.names.lookup k' = some i) :
    k' = k ∨ d.names.lookup k' = some i := by
  unfold openAppend at h
  split at h
  next => exact Or.inr h
  next =>
    rw [create, HashMap.lookup_insert_ite] at h
    split_ifs at h with hk
    · exact Or.inl hk
    · exact Or.inr h

variable {d}

theorem AllNamed.openAppend (h : d.AllNamed) : (d.openAppend k).1.AllNamed := by
  unfold Disk.openAppend
  split
  next => exact h
  next hnone =>
    intro i hi
    rw [create, List.length_append, List.length_singleton] at hi
    rcases Nat.lt_or_ge i d.files.length with hlt | hge
    · obtain ⟨k', hk'⟩ := h i hlt
      refine ⟨k', ?_⟩
      have hne : k' ≠ k := by
        intro heq
        rw [heq, hnone] at hk'
        cases hk'
      rw [create, HashMap.lookup_insert_ite, if_neg hne, hk']
    · refine ⟨k, ?_⟩
      rw [create, HashMap.lookup_insert_ite, if_pos rfl]
      congr 1
      omega

end Open

section Rename

variable {d d' : Disk κ α} {k k' : κ}

theorem lookup_rename (h : d.rename k k' = some d') (name : κ) :
    ∃ i, d.names.lookup k = some i ∧ d'.files = d.files ∧
      d'.names.lookup name =
        if name = k' then some i else if name = k then none else d.names.lookup name := by
  unfold rename at h
  split at h
  next => cases h
  next i hi =>
    obtain rfl := Option.some.inj h
    refine ⟨i, hi, rfl, ?_⟩
    rw [HashMap.lookup_insert_ite, HashMap.lookup_erase_ite]

theorem files_rename (h : d.rename k k' = some d') : d'.files = d.files := by
  obtain ⟨i, -, hfiles, -⟩ := lookup_rename h k
  exact hfiles

theorem name_of_rename (h : d.rename k k' = some d') {name : κ} {i : Nat}
    (hname : d'.names.lookup name = some i) : name = k' ∨ ∃ j, d.names.lookup name = some j := by
  obtain ⟨j, hj, -, hlookup⟩ := lookup_rename h name
  rw [hlookup] at hname
  split_ifs at hname with hk'
  · exact Or.inl hk'
  · exact Or.inr ⟨i, hname⟩

theorem AllNamed.rename (hall : d.AllNamed) (h : d.rename k k' = some d')
    (hnew : d.names.lookup k' = none) : d'.AllNamed := by
  intro i hi
  rw [files_rename h] at hi
  obtain ⟨name, hname⟩ := hall i hi
  have hne : name ≠ k' := by
    intro heq
    rw [heq, hnew] at hname
    cases hname
  by_cases hk : name = k
  · obtain ⟨j, hj, -, hlookup⟩ := lookup_rename h k'
    rw [hk, hj] at hname
    exact ⟨k', by rw [hlookup, if_pos rfl, hname]⟩
  · obtain ⟨j, -, -, hlookup⟩ := lookup_rename h name
    exact ⟨name, by rw [hlookup, if_neg hne, if_neg hk, hname]⟩

end Rename

section Append

variable {d : Disk κ α} {i : Nat} (a : α)

theorem length_append : (d.append i a).files.length = d.files.length :=
  List.length_modify ..

theorem AllNamed.append (h : d.AllNamed) : (d.append i a).AllNamed := by
  intro j hj
  rw [length_append] at hj
  exact h j hj

theorem flatten_append (hi : i < d.files.length) :
    (d.append i a).files.flatten.Perm (d.files.flatten ++ [a]) := by
  have hsplit : ∀ (files : List (List α)) (i : Nat), i < files.length →
      (files.modify i (· ++ [a])).flatten.Perm (files.flatten ++ [a]) := by
    intro files
    induction files with
    | nil =>
      intro i hi
      cases hi
    | cons file files ih =>
      intro i hi
      cases i with
      | zero =>
        rw [List.modify_zero_cons, List.flatten_cons, List.flatten_cons, List.append_assoc,
          List.append_assoc]
        exact List.perm_append_comm.append_left file
      | succ i =>
        rw [List.modify_succ_cons, List.flatten_cons, List.flatten_cons, List.append_assoc]
        exact (ih i (Nat.lt_of_succ_lt_succ hi)).append_left file
  exact hsplit d.files i hi

end Append

end Disk

end ArkInfra
