import ArkInfra.Lib.HashMap
import Mathlib.Data.List.Dedup

/-!
# Cooldown gates

A gate remembers the time at which it last granted each key, and turns a key
away while its last grant is less than the cooldown ago.

A batch is a list of items that ask at one moment, each under its key.  If the
cooldown is not zero, no key of a batch is granted twice (`granted_nodup`); a
gate without memory grants every key of the batch (`mem_granted`).  Together
they count what a batch can pass (`length_granted_le`,
`length_granted_empty`).

Over any sequence of requests, whatever their times, the grants of one key are
the cooldown apart and therefore in the order of their times (`spaced_concat`).
-/

namespace ArkInfra

namespace Cooldown

variable {α κ : Type} [DecidableEq κ] (cooldown now : Nat)

/-- The memory of the gate after it has granted the key, or nothing if it turns
the key away. -/
def grant (last : HashMap κ Nat) (k : κ) : Option (HashMap κ Nat) :=
  match last.lookup k with
  | some prev => if now - prev < cooldown then none else some (last.insert k now)
  | none => some (last.insert k now)

def granted (key : α → κ) : HashMap κ Nat → List α → List α
  | _, [] => []
  | last, x :: xs =>
    match grant cooldown now last (key x) with
    | some last' => x :: granted key last' xs
    | none => granted key last xs

/-- How many of the keys pass a gate without memory. -/
def capacity (keys : List κ) : Nat :=
  if cooldown = 0 then keys.length else keys.dedup.length

/-- **What a key can meet with.** -/
theorem grant_cases (last : HashMap κ Nat) (k : κ) :
    (grant cooldown now last k = some (last.insert k now) ∧
        ∀ prev ∈ last.lookup k, cooldown ≤ now - prev) ∨
      (grant cooldown now last k = none ∧ ∃ prev ∈ last.lookup k, now - prev < cooldown) := by
  unfold grant
  cases hlast : last.lookup k with
  | none =>
    exact Or.inl ⟨rfl, by simp⟩
  | some prev =>
    by_cases hcool : now - prev < cooldown
    · exact Or.inr ⟨if_pos hcool, prev, rfl, hcool⟩
    · refine Or.inl ⟨if_neg hcool, ?_⟩
      rintro _ ⟨rfl⟩
      exact Nat.le_of_not_lt hcool

variable (key : α → κ)

theorem granted_cons_of_some {last last' : HashMap κ Nat} {x : α}
    (h : grant cooldown now last (key x) = some last') (xs : List α) :
    granted cooldown now key last (x :: xs) = x :: granted cooldown now key last' xs := by
  rw [granted, h]

theorem granted_cons_of_none {last : HashMap κ Nat} {x : α}
    (h : grant cooldown now last (key x) = none) (xs : List α) :
    granted cooldown now key last (x :: xs) = granted cooldown now key last xs := by
  rw [granted, h]

theorem granted_sublist (last : HashMap κ Nat) (xs : List α) :
    (granted cooldown now key last xs).Sublist xs := by
  induction xs generalizing last with
  | nil =>
    exact List.Sublist.slnil
  | cons x xs ih =>
    rcases grant_cases cooldown now last (key x) with ⟨h, -⟩ | ⟨h, -⟩
    · rw [granted_cons_of_some cooldown now key h]
      exact (ih _).cons_cons x
    · rw [granted_cons_of_none cooldown now key h]
      exact (ih _).cons x

theorem granted_zero (last : HashMap κ Nat) (xs : List α) : granted 0 now key last xs = xs := by
  induction xs generalizing last with
  | nil =>
    rfl
  | cons x xs ih =>
    rcases grant_cases 0 now last (key x) with ⟨h, -⟩ | ⟨-, prev, -, hcool⟩
    · rw [granted_cons_of_some 0 now key h, ih]
    · exact absurd hcool (Nat.not_lt_zero _)

theorem notMem_granted {cooldown : Nat} (hcooldown : 0 < cooldown) {last : HashMap κ Nat}
    {k : κ} (hlast : last.lookup k = some now) (xs : List α) :
    k ∉ (granted cooldown now key last xs).map key := by
  induction xs generalizing last with
  | nil =>
    exact List.not_mem_nil
  | cons x xs ih =>
    rcases grant_cases cooldown now last (key x) with ⟨h, hcool⟩ | ⟨h, -⟩
    · have hother : k ≠ key x := by
        rintro rfl
        have := hcool now hlast
        omega
      rw [granted_cons_of_some cooldown now key h, List.map_cons, List.mem_cons, not_or]
      refine ⟨hother, ih ?_⟩
      rw [HashMap.lookup_insert_ite, if_neg hother, hlast]
    · rw [granted_cons_of_none cooldown now key h]
      exact ih hlast

/-- **No key of a batch is granted twice.** -/
theorem granted_nodup {cooldown : Nat} (hcooldown : 0 < cooldown) (last : HashMap κ Nat)
    (xs : List α) : ((granted cooldown now key last xs).map key).Nodup := by
  induction xs generalizing last with
  | nil =>
    exact List.nodup_nil
  | cons x xs ih =>
    rcases grant_cases cooldown now last (key x) with ⟨h, -⟩ | ⟨h, -⟩
    · rw [granted_cons_of_some cooldown now key h, List.map_cons, List.nodup_cons]
      exact ⟨notMem_granted now key hcooldown (AList.lookup_insert last) xs, ih _⟩
    · rw [granted_cons_of_none cooldown now key h]
      exact ih last

/-- **Every key of a batch is granted** that the gate does not remember. -/
theorem mem_granted {last : HashMap κ Nat} {k : κ} (hlast : last.lookup k = none)
    {xs : List α} (hk : k ∈ xs.map key) : k ∈ (granted cooldown now key last xs).map key := by
  induction xs generalizing last with
  | nil =>
    cases hk
  | cons x xs ih =>
    by_cases hother : k = key x
    · subst hother
      rcases grant_cases cooldown now last (key x) with ⟨h, -⟩ | ⟨-, prev, hprev, -⟩
      · rw [granted_cons_of_some cooldown now key h]
        exact List.mem_cons_self
      · rw [hlast] at hprev
        cases hprev
    · have hk : k ∈ xs.map key := (List.mem_cons.mp hk).resolve_left hother
      rcases grant_cases cooldown now last (key x) with ⟨h, -⟩ | ⟨h, -⟩
      · rw [granted_cons_of_some cooldown now key h]
        refine List.mem_cons_of_mem _ (ih ?_ hk)
        rw [HashMap.lookup_insert_ite, if_neg hother, hlast]
      · rw [granted_cons_of_none cooldown now key h]
        exact ih hlast hk

/-- **A batch passes at most its capacity.** -/
theorem length_granted_le (last : HashMap κ Nat) (xs : List α) :
    (granted cooldown now key last xs).length ≤ capacity cooldown (xs.map key) := by
  have hsub := granted_sublist cooldown now key last xs
  unfold capacity
  split_ifs with hzero
  · rw [List.length_map]
    exact hsub.length_le
  · have hnodup := granted_nodup now key (Nat.pos_of_ne_zero hzero) last xs
    rw [← List.length_map key]
    refine (List.subperm_of_subset hnodup ?_).length_le
    intro k hk
    exact List.mem_dedup.mpr ((hsub.map key).subset hk)

/-- **A gate without memory lets the capacity pass.** -/
theorem length_granted_empty (xs : List α) :
    (granted cooldown now key ∅ xs).length = capacity cooldown (xs.map key) := by
  refine Nat.le_antisymm (length_granted_le cooldown now key ∅ xs) ?_
  unfold capacity
  split_ifs with hzero
  · rw [hzero, granted_zero, List.length_map]
  · rw [← List.length_map key]
    refine (List.subperm_of_subset (List.nodup_dedup _) ?_).length_le
    intro k hk
    exact mem_granted cooldown now key rfl (List.mem_dedup.mp hk)

theorem capacity_map {ν : Type} [DecidableEq ν] {f : κ → ν} (hf : Function.Injective f)
    (keys : List κ) : capacity cooldown (keys.map f) = capacity cooldown keys := by
  unfold capacity
  rw [List.dedup_map_of_injective hf, List.length_map, List.length_map]

theorem capacity_sublist {keys keys' : List κ} (h : keys.Sublist keys') :
    capacity cooldown keys ≤ capacity cooldown keys' := by
  unfold capacity
  split_ifs
  · exact h.length_le
  · refine (List.subperm_of_subset (List.nodup_dedup keys) ?_).length_le
    intro k hk
    exact List.mem_dedup.mpr (h.subset (List.mem_dedup.mp hk))

theorem capacity_le_length (keys : List κ) : capacity cooldown keys ≤ keys.length := by
  unfold capacity
  split_ifs
  · exact Nat.le_refl _
  · exact (List.dedup_sublist keys).length_le

section History

variable {cooldown}

/-- Grants of one key, in the order in which they were made, are at least the
cooldown apart. -/
def Spaced (cooldown : Nat) (grants : List (κ × Nat)) : Prop :=
  grants.Pairwise fun a b => a.1 = b.1 → a.2 + cooldown ≤ b.2

/-- The memory holds the latest grant of every key. -/
def Remembers (last : HashMap κ Nat) (grants : List (κ × Nat)) : Prop :=
  ∀ g ∈ grants, ∃ prev ∈ last.lookup g.1, g.2 ≤ prev

omit [DecidableEq κ] in
theorem spaced_nil : Spaced cooldown ([] : List (κ × Nat)) := by
  exact List.Pairwise.nil

theorem remembers_nil (last : HashMap κ Nat) : Remembers last [] := by
  intro g hg
  cases hg

/-- **One more grant**: it comes the cooldown after every grant of its key, also
when the times are not in order. -/
theorem spaced_concat (hcooldown : 0 < cooldown) {last last' : HashMap κ Nat}
    {grants : List (κ × Nat)} {k : κ} {now : Nat} (hspaced : Spaced cooldown grants)
    (hlast : Remembers last grants) (h : grant cooldown now last k = some last') :
    Spaced cooldown (grants ++ [(k, now)]) ∧ Remembers last' (grants ++ [(k, now)]) := by
  rcases grant_cases cooldown now last k with ⟨hgrant, hprev⟩ | ⟨hnone, _⟩
  · obtain rfl : last.insert k now = last' := Option.some.inj (hgrant.symm.trans h)
    have hgap : ∀ g ∈ grants, g.1 = k → g.2 + cooldown ≤ now := by
      rintro g hg rfl
      obtain ⟨prev, hmem, hle⟩ := hlast g hg
      have hcool := hprev prev hmem
      omega
    constructor
    · refine List.pairwise_append.mpr ⟨hspaced, List.pairwise_singleton _ _, ?_⟩
      intro a ha b hb hkey
      rw [List.mem_singleton.mp hb] at hkey ⊢
      exact hgap a ha hkey
    · intro g hg
      rw [HashMap.lookup_insert_ite]
      split_ifs with hkey
      · refine ⟨now, rfl, ?_⟩
        rcases List.mem_append.mp hg with hold | hnew
        · have hle := hgap g hold hkey
          omega
        · rw [List.mem_singleton.mp hnew]
      · rcases List.mem_append.mp hg with hold | hnew
        · exact hlast g hold
        · rw [List.mem_singleton.mp hnew] at hkey
          exact absurd rfl hkey
  · rw [hnone] at h
    cases h

end History

end Cooldown

end ArkInfra
