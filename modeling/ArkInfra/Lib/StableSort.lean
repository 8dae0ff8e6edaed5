import Mathlib.Data.List.Nodup
import Mathlib.Data.List.Perm.Basic
import Mathlib.Data.List.Sort

/-!
# What a truncated stable sort keeps

Sorting a list and keeping the first `n` elements is how a program keeps the
`n` best of them.  With a stable sort, ties are broken by the order of the list,
so the elements that are put before a given one can be counted in the list
itself (`rank`): those before it that are as good, and those behind it that are
better.  An element is kept when its rank is below `n`
(`mem_take_mergeSort_iff`), and nothing that is cut off is better than what is
kept (`exists_dropped_take_mergeSort`).
-/

namespace ArkInfra

namespace StableSort

variable {α : Type}

/-- How many elements a stable sort puts before the one that stands between
`before` and `behind`. -/
def rank (le : α → α → Bool) (before : List α) (x : α) (behind : List α) : Nat :=
  before.countP (fun y => le y x) + behind.countP (fun y => !le x y)

section Splits

variable {p q : List α} {x y : α}

/-- In a list without repetitions, what comes before `x` is in the part before
`x`. -/
theorem mem_of_pair_sublist_left (hnodup : (p ++ x :: q).Nodup)
    (h : [y, x].Sublist (p ++ x :: q)) : y ∈ p := by
  obtain ⟨_, hxq, _⟩ := List.nodup_append.mp hnodup
  have hx : x ∉ q := (List.nodup_cons.mp hxq).1
  obtain ⟨l₁, l₂, hpair, hl₁, hl₂⟩ := List.sublist_append_iff.mp h
  cases l₁ with
  | nil =>
    -- both would lie in `x :: q`, so `x` would occur twice
    obtain rfl : [y, x] = l₂ := hpair
    cases hl₂ with
    | cons _ hq => exact absurd (hq.subset (by simp)) hx
    | cons_cons _ hq => exact absurd (hq.subset (by simp)) hx
  | cons a l₁ =>
    obtain ⟨rfl, _⟩ := List.cons.inj hpair
    exact hl₁.subset (by simp)

theorem mem_of_pair_sublist_right (hnodup : (p ++ x :: q).Nodup)
    (h : [x, y].Sublist (p ++ x :: q)) : y ∈ q := by
  obtain ⟨_, _, hdisjoint⟩ := List.nodup_append.mp hnodup
  obtain ⟨l₁, l₂, hpair, hl₁, hl₂⟩ := List.sublist_append_iff.mp h
  cases l₁ with
  | nil =>
    obtain rfl : [x, y] = l₂ := hpair
    cases hl₂ with
    | cons _ hq => exact hq.subset (by simp)
    | cons_cons _ hq => exact hq.subset (by simp)
  | cons a l₁ =>
    obtain ⟨rfl, _⟩ := List.cons.inj hpair
    exact absurd rfl (hdisjoint x (hl₁.subset (by simp)) x (by simp))

/-- An element is among the first `n` exactly when fewer than `n` come before
it. -/
theorem mem_take_iff_length_lt (hnew : x ∉ p) (n : Nat) :
    x ∈ (p ++ x :: q).take n ↔ p.length < n := by
  rw [List.take_append, List.mem_append]
  constructor
  · rintro (hp | hq)
    · exact absurd (List.mem_of_mem_take hp) hnew
    · by_contra hle
      have hzero : n - p.length = 0 := by omega
      simp [hzero] at hq
  · intro hlt
    obtain ⟨k, hk⟩ : ∃ k, n - p.length = k + 1 := ⟨n - p.length - 1, by omega⟩
    rw [hk]
    exact Or.inr (by simp)

end Splits

variable {le : α → α → Bool}

theorem mem_before_iff (htrans : ∀ a b c, le a b = true → le b c = true → le a c = true)
    (htotal : ∀ a b, (le a b || le b a) = true) {before behind p q : List α} {x : α}
    (hnodup : (before ++ x :: behind).Nodup)
    (hsort : (before ++ x :: behind).mergeSort le = p ++ x :: q) (y : α) :
    y ∈ p ↔ (y ∈ before ∧ le y x = true) ∨ (y ∈ behind ∧ le x y = false) := by
  have hperm : (p ++ x :: q).Perm (before ++ x :: behind) :=
    hsort ▸ List.mergeSort_perm (before ++ x :: behind) le
  have hnodup' : (p ++ x :: q).Nodup := hperm.nodup_iff.mpr hnodup
  have hsorted : (p ++ x :: q).Pairwise (fun a b => le a b = true) :=
    hsort ▸ List.pairwise_mergeSort htrans htotal (before ++ x :: behind)
  have hstable : ∀ {a b}, le a b = true → [a, b].Sublist (before ++ x :: behind) →
      [a, b].Sublist (p ++ x :: q) := by
    intro a b hab hsub
    rw [← hsort]
    exact List.pair_sublist_mergeSort htrans htotal hab hsub
  obtain ⟨_, hxq, hpx⟩ := List.pairwise_append.mp hsorted
  obtain ⟨_, _, hdisjoint⟩ := List.nodup_append.mp hnodup'
  constructor
  · intro hy
    have hle : le y x = true := hpx y hy x (by simp)
    have hyl : y ∈ before ++ x :: behind := hperm.subset (List.mem_append_left _ hy)
    rcases List.mem_append.mp hyl with hbefore | hrest
    · exact Or.inl ⟨hbefore, hle⟩
    · rcases List.mem_cons.mp hrest with rfl | hbehind
      · exact absurd rfl (hdisjoint y hy y (by simp))
      · refine Or.inr ⟨hbehind, ?_⟩
        by_contra htie
        -- a tie behind `x` stays behind it
        have hsub : [x, y].Sublist (before ++ x :: behind) :=
          ((List.singleton_sublist.mpr hbehind).cons_cons x).trans
            (List.sublist_append_right before _)
        have hq := mem_of_pair_sublist_right hnodup' (hstable (by simpa using htie) hsub)
        exact absurd rfl (hdisjoint y hy y (List.mem_cons_of_mem x hq))
  · rintro (⟨hbefore, hle⟩ | ⟨hbehind, hlt⟩)
    · have hsub : [y, x].Sublist (before ++ x :: behind) :=
        (List.singleton_sublist.mpr hbefore).append (List.singleton_sublist.mpr (by simp))
      exact mem_of_pair_sublist_left hnodup' (hstable hle hsub)
    · have hys : y ∈ p ++ x :: q := hperm.symm.subset (by simp [hbehind])
      rcases List.mem_append.mp hys with hp | hrest
      · exact hp
      · rcases List.mem_cons.mp hrest with rfl | hq
        · have hrefl : le y y = true := by simpa using htotal y y
          rw [hrefl] at hlt
          cases hlt
        · rw [(List.pairwise_cons.mp hxq).1 y hq] at hlt
          cases hlt

/-- **The first `n` of a stable sort** are the elements of rank below `n`. -/
theorem mem_take_mergeSort_iff
    (htrans : ∀ a b c, le a b = true → le b c = true → le a c = true)
    (htotal : ∀ a b, (le a b || le b a) = true) {before behind : List α} {x : α}
    (hnodup : (before ++ x :: behind).Nodup) (n : Nat) :
    x ∈ ((before ++ x :: behind).mergeSort le).take n ↔ rank le before x behind < n := by
  have hmem : x ∈ (before ++ x :: behind).mergeSort le := by
    rw [List.mem_mergeSort]
    simp
  obtain ⟨p, q, hsort⟩ := List.append_of_mem hmem
  have hnodup' : (p ++ x :: q).Nodup :=
    hsort ▸ (List.mergeSort_perm _ le).nodup_iff.mpr hnodup
  obtain ⟨hp, _, hdisjoint⟩ := List.nodup_append.mp hnodup'
  have hperm : p.Perm (before.filter (fun y => le y x) ++ behind.filter (fun y => !le x y)) := by
    have hfiltered : (before.filter (fun y => le y x) ++
        behind.filter (fun y => !le x y)).Nodup :=
      hnodup.sublist
        (List.filter_sublist.append (List.filter_sublist.trans (List.sublist_cons_self x behind)))
    rw [List.perm_ext_iff_of_nodup hp hfiltered]
    intro y
    rw [mem_before_iff htrans htotal hnodup hsort y]
    simp
  have hnew : x ∉ p := fun hx => hdisjoint x hx x (by simp) rfl
  rw [hsort, mem_take_iff_length_lt hnew, hperm.length_eq, List.length_append,
    ← List.countP_eq_length_filter, ← List.countP_eq_length_filter, rank]

/-- **What is cut off is no better than what is kept.** -/
theorem exists_dropped_take_mergeSort
    (htrans : ∀ a b c, le a b = true → le b c = true → le a c = true)
    (htotal : ∀ a b, (le a b || le b a) = true) (l : List α) (n : Nat) :
    ∃ dropped, ((l.mergeSort le).take n ++ dropped).Perm l ∧
      ∀ x ∈ (l.mergeSort le).take n, ∀ y ∈ dropped, le x y = true := by
  refine ⟨(l.mergeSort le).drop n, ?_, ?_⟩
  · rw [List.take_append_drop]
    exact List.mergeSort_perm l le
  · have hsorted := List.pairwise_mergeSort htrans htotal l
    rw [← List.take_append_drop n (l.mergeSort le)] at hsorted
    exact (List.pairwise_append.mp hsorted).2.2

/-- **The keys come out in one order**, whatever the order of the list. -/
theorem map_mergeSort_eq_of_perm {β : Type} {key : α → β} {r : β → β → Prop}
    (hle : ∀ a b, le a b = true ↔ r (key a) (key b)) (hantisymm : ∀ x y, r x y → r y x → x = y)
    (htrans : ∀ a b c, le a b = true → le b c = true → le a c = true)
    (htotal : ∀ a b, (le a b || le b a) = true) {l l' : List α} (h : l.Perm l') :
    (l.mergeSort le).map key = (l'.mergeSort le).map key := by
  have hsorted : ∀ l : List α, ((l.mergeSort le).map key).Pairwise r := by
    intro l
    rw [List.pairwise_map]
    exact (List.pairwise_mergeSort htrans htotal l).imp fun hab => (hle _ _).mp hab
  have hperm : ((l.mergeSort le).map key).Perm ((l'.mergeSort le).map key) :=
    (((List.mergeSort_perm l le).trans h).trans (List.mergeSort_perm l' le).symm).map key
  exact hperm.eq_of_pairwise (fun x y _ _ => hantisymm x y) (hsorted l) (hsorted l')

theorem filter_append_filter_of_sorted {key : α → Nat} {l : List α}
    (h : l.Pairwise (fun a b => key a ≤ key b)) (n : Nat) :
    l.filter (fun a => decide (key a ≤ n)) ++ l.filter (fun a => decide (n < key a)) = l := by
  induction h with
  | nil =>
    rfl
  | @cons a l ha _ ih =>
    by_cases hle : key a ≤ n
    · simp [hle, Nat.not_lt.mpr hle, ih]
    · -- everything behind `a` is above the bound too
      have hlt : n < key a := Nat.not_le.mp hle
      have hnone : l.filter (fun b => decide (key b ≤ n)) = [] := by
        rw [List.filter_eq_nil_iff]
        intro b hb
        have := ha b hb
        simp only [decide_eq_true_eq, not_le]
        omega
      rw [hnone, List.nil_append] at ih
      simp [hle, hlt, hnone, ih]

end StableSort

end ArkInfra
