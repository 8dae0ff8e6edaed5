import Mathlib.Data.List.Induction

/-!
# Sliding windows

A window holds the latest items of a stream.  An arriving item is put at the
end, and the items that are too old for it are taken off the front, as long as
the front is too old.

When the times of the stream never decrease, this keeps exactly the items
whose time lies within the width of the window before the last one
(`foldl_push`), although only the front is ever looked at.
-/

namespace ArkInfra

namespace SlidingWindow

section SlidingWindow

variable {α : Type} (time : α → Nat) (width : Nat)

/-- Take the items before `now - width` off the front. -/
def trim (now : Nat) (items : List α) : List α :=
  items.dropWhile fun x => decide (time x < now - width)

/-- Add an item at the end and trim the window to its time. -/
def push (items : List α) (x : α) : List α :=
  trim time width (time x) (items ++ [x])

/-- The items with a time in `[now - width, now]`. -/
def within (now : Nat) (items : List α) : List α :=
  items.filter fun x => decide (now ≤ time x + width ∧ time x ≤ now)

def Sorted (items : List α) : Prop :=
  items.Pairwise fun x y => time x ≤ time y

variable {time} {width}

theorem sorted_concat {items : List α} {x : α} :
    Sorted time (items ++ [x]) ↔ Sorted time items ∧ ∀ y ∈ items, time y ≤ time x := by
  simp [Sorted, List.pairwise_append]

/-- On a sorted window, taking old items off the front removes every old
item. -/
theorem trim_eq_filter {items : List α} (hsorted : Sorted time items) (now : Nat) :
    trim time width now items = items.filter fun x => decide (now ≤ time x + width) := by
  induction items with
  | nil =>
    rfl
  | cons x items ih =>
    obtain ⟨hx, hrest⟩ := List.pairwise_cons.mp hsorted
    by_cases hold : time x < now - width
    · have hout : ¬ now ≤ time x + width := by
        omega
      rw [trim, List.dropWhile_cons_of_pos (by simpa using hold),
        List.filter_cons_of_neg (by simpa using hout)]
      exact ih hrest
    · -- the front is recent enough, so everything behind it is
      rw [trim, List.dropWhile_cons_of_neg (by simpa using hold)]
      symm
      rw [List.filter_eq_self]
      intro y hy
      have hxy : time x ≤ time y := by
        rcases List.mem_cons.mp hy with rfl | hmem
        · exact Nat.le_refl _
        · exact hx y hmem
      rw [decide_eq_true_eq]
      omega

/-- **One step.**  Pushing onto the window of a stream gives the window of the
longer stream. -/
theorem push_within {items : List α} {x : α} {earlier : Nat}
    (hsorted : Sorted time (items ++ [x])) (hseen : ∀ y ∈ items, time y ≤ earlier)
    (hearlier : earlier ≤ time x) :
    push time width (within time width earlier items) x =
      within time width (time x) (items ++ [x]) := by
  obtain ⟨hitems, hlast⟩ := sorted_concat.mp hsorted
  have hkept : Sorted time (within time width earlier items ++ [x]) := by
    refine sorted_concat.mpr ⟨hitems.sublist List.filter_sublist, ?_⟩
    intro y hy
    exact hlast y (List.mem_filter.mp hy).1
  rw [push, trim_eq_filter hkept, within, within, List.filter_append, List.filter_append,
    List.filter_filter]
  congr 1
  · refine List.filter_congr ?_
    intro y hy
    have hy := hseen y hy
    rw [← Bool.decide_and, decide_eq_decide]
    omega
  · simp

/-- **A whole stream.**  After a stream of nondecreasing times the window holds
exactly the items within its width before the last one. -/
theorem foldl_push {items : List α} {x : α} (hsorted : Sorted time (items ++ [x])) :
    (items ++ [x]).foldl (push time width) [] =
      within time width (time x) (items ++ [x]) := by
  induction items using List.reverseRecOn generalizing x with
  | nil =>
    simp [push, trim, within]
  | append_singleton items y ih =>
    obtain ⟨hitems, hlast⟩ := sorted_concat.mp hsorted
    rw [List.foldl_append, ih hitems]
    refine push_within hsorted ?_ (hlast y (by simp))
    intro z hz
    rcases List.mem_append.mp hz with hz | hz
    · exact (sorted_concat.mp hitems).2 z hz
    · obtain rfl := List.mem_singleton.mp hz
      exact Nat.le_refl _

end SlidingWindow

end SlidingWindow

end ArkInfra
