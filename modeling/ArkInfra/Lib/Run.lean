import Mathlib.Data.List.Basic
import Mathlib.Data.List.Induction

/-!
# Runs of a deterministic step function

A run feeds a list of inputs to a step function, one after the other.  An
invariant is established once per step and then holds in every state a run
reaches.  `Meets` restricts a run to inputs that satisfy a condition on the
state in which they arrive, which is how a property that needs a side
condition is stated about whole runs.
-/

namespace ArkInfra

namespace Run

variable {σ ι : Type}

/-- The state reached from `s` by processing the inputs in order. -/
def run (step : σ → ι → σ) (s : σ) (xs : List ι) : σ :=
  xs.foldl step s

@[simp] theorem run_nil (step : σ → ι → σ) (s : σ) :
    run step s [] = s := by
  rfl

@[simp] theorem run_cons (step : σ → ι → σ) (s : σ) (x : ι) (xs : List ι) :
    run step s (x :: xs) = run step (step s x) xs := by
  rfl

theorem run_append (step : σ → ι → σ) (s : σ) (xs ys : List ι) :
    run step s (xs ++ ys) = run step (run step s xs) ys := by
  simp [run]

theorem run_concat (step : σ → ι → σ) (s : σ) (xs : List ι) (x : ι) :
    run step s (xs ++ [x]) = step (run step s xs) x := by
  simp [run]

theorem run_history (xs : List ι) : run (fun seen x => seen ++ [x]) [] xs = xs := by
  induction xs using List.reverseRecOn with
  | nil =>
    rfl
  | append_singleton xs x ih =>
    rw [run_concat, ih]

/-- Every input of the run satisfies `C` in the state in which it arrives. -/
def Meets (step : σ → ι → σ) (C : σ → ι → Prop) : σ → List ι → Prop
  | _, [] => True
  | s, x :: xs => C s x ∧ Meets step C (step s x) xs

instance decidableMeets (step : σ → ι → σ) (C : σ → ι → Prop)
    [∀ s x, Decidable (C s x)] :
    ∀ s xs, Decidable (Meets step C s xs)
  | _, [] => isTrue trivial
  | s, x :: xs =>
    have := decidableMeets step C (step s x) xs
    inferInstanceAs (Decidable (C s x ∧ Meets step C (step s x) xs))

theorem meets_append {step : σ → ι → σ} {C : σ → ι → Prop} {s : σ}
    {xs ys : List ι} :
    Meets step C s (xs ++ ys) ↔
      Meets step C s xs ∧ Meets step C (run step s xs) ys := by
  induction xs generalizing s with
  | nil =>
    simp [Meets]
  | cons x xs ih =>
    simp [Meets, ih, and_assoc]

theorem meets_of_forall {step : σ → ι → σ} {C : ι → Prop} {s : σ}
    {xs : List ι} (h : ∀ x ∈ xs, C x) :
    Meets step (fun _ x => C x) s xs := by
  induction xs generalizing s with
  | nil =>
    trivial
  | cons x xs ih =>
    exact ⟨h x (by simp), ih fun y hy => h y (List.mem_cons_of_mem _ hy)⟩

theorem Meets.imp {step : σ → ι → σ} {C D : σ → ι → Prop} (h : ∀ s x, C s x → D s x) {s : σ}
    {xs : List ι} (hxs : Meets step C s xs) : Meets step D s xs := by
  induction xs generalizing s with
  | nil =>
    trivial
  | cons x xs ih =>
    exact ⟨h s x hxs.1, ih hxs.2⟩

theorem meets_and {step : σ → ι → σ} {C D : σ → ι → Prop} {s : σ} {xs : List ι} :
    Meets step (fun s x => C s x ∧ D s x) s xs ↔ Meets step C s xs ∧ Meets step D s xs := by
  induction xs generalizing s with
  | nil =>
    simp [Meets]
  | cons x xs ih =>
    simp only [Meets, ih]
    exact and_and_and_comm

/-- **Invariant rule.**  What every admitted step preserves holds at the end of
every admitted run. -/
theorem invariant_of_meets {step : σ → ι → σ} {C : σ → ι → Prop}
    {I : σ → Prop}
    (hstep : ∀ s x, I s → C s x → I (step s x))
    {s : σ} (hs : I s) {xs : List ι} (hxs : Meets step C s xs) :
    I (run step s xs) := by
  induction xs generalizing s with
  | nil =>
    exact hs
  | cons x xs ih =>
    exact ih (hstep s x hs hxs.1) hxs.2

theorem invariant {step : σ → ι → σ} {I : σ → Prop}
    (hstep : ∀ s x, I s → I (step s x))
    {s : σ} (hs : I s) (xs : List ι) :
    I (run step s xs) := by
  induction xs generalizing s with
  | nil =>
    exact hs
  | cons x xs ih =>
    exact ih (hstep s x hs)

theorem meets_of_invariant {step : σ → ι → σ} {C : σ → ι → Prop} {I : σ → Prop}
    (hstep : ∀ s x, I s → I (step s x)) (hmeets : ∀ s x, I s → C s x)
    {s : σ} (hs : I s) (xs : List ι) : Meets step C s xs := by
  induction xs generalizing s with
  | nil =>
    trivial
  | cons x xs ih =>
    exact ⟨hmeets s x hs, ih (hstep s x hs)⟩

theorem meets_at {step : σ → ι → σ} {C : σ → ι → Prop} {s : σ} {x : ι}
    {xs ys : List ι} (h : Meets step C s (xs ++ x :: ys)) :
    C (run step s xs) x := by
  exact (meets_append.mp h).2.1

/-- A property of every initial segment of `xs ++ [x]` is one of every initial
segment of `xs` and of the whole. -/
theorem forall_seen_concat {P : List ι → Prop} {xs : List ι} {x : ι} :
    (∀ seen rest, xs ++ [x] = seen ++ rest → P seen) ↔
      (∀ seen rest, xs = seen ++ rest → P seen) ∧ P (xs ++ [x]) := by
  constructor
  · intro h
    refine ⟨?_, h _ [] (by simp)⟩
    intro seen rest hsplit
    exact h seen (rest ++ [x]) (by simp [hsplit])
  · rintro ⟨hseen, hall⟩ seen rest hsplit
    rcases List.eq_nil_or_concat rest with rfl | ⟨rest', y, rfl⟩
    · obtain rfl : xs ++ [x] = seen := by simpa using hsplit
      exact hall
    · have hsplit' : xs ++ [x] = (seen ++ rest') ++ [y] := by
        simpa using hsplit
      exact hseen seen rest' (List.append_inj' hsplit' rfl).1

/-- **Exact conditions.**  If a step that starts where the property holds keeps
it exactly when its input meets the condition, then the runs that meet the
condition throughout are the ones that never leave the property. -/
theorem meets_iff_forall_seen {step : σ → ι → σ} {C : σ → ι → Prop} {s : σ}
    {P : List ι → Prop} {xs : List ι} (hnil : P [])
    (hstep : ∀ seen x rest, xs = seen ++ x :: rest → P seen →
      (C (run step s seen) x ↔ P (seen ++ [x]))) :
    Meets step C s xs ↔ ∀ seen rest, xs = seen ++ rest → P seen := by
  induction xs using List.reverseRecOn with
  | nil =>
    constructor
    · intro _ seen rest hsplit
      obtain ⟨rfl, rfl⟩ := List.append_eq_nil_iff.mp hsplit.symm
      exact hnil
    · intro _
      trivial
  | append_singleton xs x ih =>
    have ih := ih fun seen y rest hsplit =>
      hstep seen y (rest ++ [x]) (by simp [hsplit])
    rw [meets_append, forall_seen_concat, ih]
    constructor
    · rintro ⟨hseen, hx⟩
      exact ⟨hseen, (hstep xs x [] (by simp) (hseen xs [] (by simp))).mp hx.1⟩
    · rintro ⟨hseen, hall⟩
      exact ⟨hseen, (hstep xs x [] (by simp) (hseen xs [] (by simp))).mpr hall, trivial⟩

end Run

end ArkInfra
