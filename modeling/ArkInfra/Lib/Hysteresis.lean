import Mathlib.Data.List.Induction
import Mathlib.Tactic.SplitIfs

/-!
# Latches with two thresholds

A latch keeps one value of a stream and replaces it only when a new value lies
beyond the threshold on the other side.  Values between the thresholds never
replace anything.

A latch that holds an extreme value is always on the side of the last extreme
value it was offered (`swings_foldl_latch`).  A latch that holds a value between
the thresholds never moves (`foldl_latch_of_not_extreme`).
-/

namespace ArkInfra

namespace Hysteresis

variable {V : Type} (high low : V → Bool)

def swings (a b : V) : Bool :=
  (high a && low b) || (low a && high b)

def extreme (a : V) : Bool :=
  high a || low a

def latch (kept new : V) : V :=
  if swings high low kept new then new else kept

/-- The last value that lies on one of the sides. -/
def lastExtreme (values : List V) : Option V :=
  (values.filter (extreme high low)).getLast?

variable {high low}

theorem extreme_of_swings {a b : V} (h : swings high low a b = true) :
    extreme high low a = true ∧ extreme high low b = true := by
  simp only [swings, Bool.or_eq_true, Bool.and_eq_true] at h
  rcases h with ⟨ha, hb⟩ | ⟨ha, hb⟩
  · simp [extreme, ha, hb]
  · simp [extreme, ha, hb]

theorem lastExtreme_append (values later : List V) :
    lastExtreme high low (values ++ later) =
      (lastExtreme high low later).or (lastExtreme high low values) := by
  unfold lastExtreme
  rw [List.filter_append, List.getLast?_append]

theorem lastExtreme_singleton {a : V} (h : extreme high low a = true) :
    lastExtreme high low [a] = some a := by
  simp [lastExtreme, h]

theorem lastExtreme_of_not_extreme {a : V} (h : ¬ extreme high low a = true) :
    lastExtreme high low [a] = none := by
  simp [lastExtreme, h]

theorem foldl_latch_of_not_extreme {a : V} (h : ¬ extreme high low a = true) (values : List V) :
    values.foldl (latch high low) a = a := by
  induction values with
  | nil =>
    rfl
  | cons b values ih =>
    have hstay : latch high low a b = a := by
      rw [latch, if_neg]
      intro hswings
      exact h (extreme_of_swings hswings).1
    rw [List.foldl_cons, hstay]
    exact ih

theorem extreme_foldl_latch {a : V} (h : extreme high low a = true) (values : List V) :
    extreme high low (values.foldl (latch high low) a) = true := by
  induction values generalizing a with
  | nil =>
    exact h
  | cons b values ih =>
    rw [List.foldl_cons]
    apply ih
    unfold latch
    split_ifs with hswings
    · exact (extreme_of_swings hswings).2
    · exact h

theorem swings_congr (hapart : ∀ a, ¬(high a = true ∧ low a = true)) {a b : V}
    (ha : extreme high low a = true) (hb : extreme high low b = true)
    (hstay : ¬ swings high low a b = true) (c : V) :
    swings high low a c = swings high low b c := by
  have hside : high a = high b ∧ low a = low b := by
    have hapartA := hapart a
    have hapartB := hapart b
    revert ha hb hstay hapartA hapartB
    unfold extreme swings
    cases high a <;> cases low a <;> cases high b <;> cases low b <;> simp
  rw [swings, swings, hside.1, hside.2]

/-- **The side of a latch** is that of the last extreme value. -/
theorem swings_foldl_latch (hapart : ∀ a, ¬(high a = true ∧ low a = true)) {a : V}
    (h : extreme high low a = true) (values : List V) (c : V) :
    swings high low (values.foldl (latch high low) a) c =
      swings high low ((lastExtreme high low values).getD a) c := by
  induction values using List.reverseRecOn with
  | nil =>
    rfl
  | append_singleton values b ih =>
    have hkept := extreme_foldl_latch h values
    rw [List.foldl_append, lastExtreme_append]
    change swings high low (latch high low (values.foldl (latch high low) a) b) c = _
    by_cases hb : extreme high low b = true
    · rw [lastExtreme_singleton hb]
      unfold latch
      split_ifs with hswings
      · rfl
      · exact swings_congr hapart hkept hb hswings c
    · have hstay : latch high low (values.foldl (latch high low) a) b =
          values.foldl (latch high low) a := by
        rw [latch, if_neg]
        intro hswings
        exact hb (extreme_of_swings hswings).2
      rw [hstay, lastExtreme_of_not_extreme hb, Option.none_or]
      exact ih

/-- **A swing away from a latch.**  It takes a first value beyond a threshold, and
then the last extreme value decides. -/
theorem swings_foldl_latch_iff (hapart : ∀ a, ¬(high a = true ∧ low a = true)) (a : V)
    (values : List V) (c : V) :
    swings high low (values.foldl (latch high low) a) c = true ↔
      extreme high low a = true ∧
        swings high low ((lastExtreme high low values).getD a) c = true := by
  constructor
  · intro h
    have hextreme : extreme high low a = true := by
      by_contra hnot
      rw [foldl_latch_of_not_extreme hnot] at h
      exact hnot (extreme_of_swings h).1
    rw [swings_foldl_latch hapart hextreme] at h
    exact ⟨hextreme, h⟩
  · rintro ⟨hextreme, h⟩
    rw [swings_foldl_latch hapart hextreme]
    exact h

end Hysteresis

end ArkInfra
