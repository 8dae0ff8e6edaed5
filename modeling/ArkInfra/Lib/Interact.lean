import Mathlib.Data.List.Basic

/-!
# Programs that call out

A program that runs commands, writes files or waits is a tree: it is done, or
it makes a call and goes on in a way that depends on the answer.  A tree is also
what is left of a task that stands at an `await`, so a task that can be cut off
between two calls is a tree that is dropped.

A host answers every call, and may look at all the calls before it, so a
statement about every host is one about every behaviour of the environment.
`result` and `calls` run a program against a host; the calls of a sequence are
the calls of its parts one after the other (`calls_bind`, `calls_each`).
-/

namespace ArkInfra

/-- A program that makes calls of type `C`, each with its own type of answers. -/
inductive Interact (C : Type) (A : C → Type) (R : Type) where
  | done (r : R)
  | call (c : C) (next : A c → Interact C A R)

/-- The answers of an environment, given the calls made before. -/
def Host (C : Type) (A : C → Type) : Type :=
  List C → (c : C) → A c

namespace Interact

variable {C : Type} {A : C → Type} {R S : Type}

/-- Run a program, then another one that depends on its result. -/
def bind : Interact C A R → (R → Interact C A S) → Interact C A S
  | done r, f => f r
  | call c next, f => call c fun a => (next a).bind f

instance : Monad (Interact C A) where
  pure := done
  bind := bind

def perform (c : C) : Interact C A (A c) :=
  call c done

/-- The result of a program, when the calls `before` have been made. -/
def result (host : Host C A) : Interact C A R → List C → R
  | done r, _ => r
  | call c next, before => result host (next (host before c)) (before ++ [c])

/-- The calls of a program, when the calls `before` have been made. -/
def calls (host : Host C A) : Interact C A R → List C → List C
  | done _, _ => []
  | call c next, before => c :: calls host (next (host before c)) (before ++ [c])

section Run

variable (host : Host C A) (before : List C)

@[simp] theorem result_pure (r : R) : result host (pure r : Interact C A R) before = r :=
  rfl

@[simp] theorem calls_pure (r : R) : calls host (pure r : Interact C A R) before = [] :=
  rfl

@[simp] theorem result_done (r : R) : result host (done r : Interact C A R) before = r :=
  rfl

@[simp] theorem calls_done (r : R) : calls host (done r : Interact C A R) before = [] :=
  rfl

@[simp] theorem result_perform (c : C) :
    result host (perform c : Interact C A (A c)) before = host before c :=
  rfl

@[simp] theorem calls_perform (c : C) :
    calls host (perform c : Interact C A (A c)) before = [c] :=
  rfl

@[simp] theorem result_bind (p : Interact C A R) (f : R → Interact C A S) :
    result host (p >>= f) before =
      result host (f (result host p before)) (before ++ calls host p before) := by
  induction p generalizing before with
  | done r =>
    rw [calls_done, List.append_nil]
    rfl
  | call c next ih =>
    have hnext := ih (host before c) (before ++ [c])
    rw [List.append_assoc] at hnext
    exact hnext

/-- **The calls of a sequence** are those of its parts, one after the other. -/
@[simp] theorem calls_bind (p : Interact C A R) (f : R → Interact C A S) :
    calls host (p >>= f) before =
      calls host p before ++
        calls host (f (result host p before)) (before ++ calls host p before) := by
  induction p generalizing before with
  | done r =>
    rw [calls_done, List.append_nil, List.nil_append]
    rfl
  | call c next ih =>
    have hnext := ih (host before c) (before ++ [c])
    rw [List.append_assoc] at hnext
    exact congrArg (List.cons c) hnext

end Run

section Inject

variable {C' : Type} {A' : C' → Type} (f : C → C') (g : ∀ c, A' (f c) → A c)

/-- A program as one that can make other calls too. -/
def inject : Interact C A R → Interact C' A' R
  | done r => done r
  | call c next => call (f c) fun a => (next (g c a)).inject

/-- The host of the smaller program, when the calls `before` have been made. -/
def hostOf (host : Host C' A') (before : List C') : Host C A :=
  fun cs c => g c (host (before ++ cs.map f) (f c))

theorem run_inject (host : Host C' A') (p : Interact C A R) (before : List C') (cs : List C) :
    calls host (inject f g p) (before ++ cs.map f) =
        (calls (hostOf f g host before) p cs).map f ∧
      result host (inject f g p) (before ++ cs.map f) =
        result (hostOf f g host before) p cs := by
  induction p generalizing cs with
  | done r =>
    exact ⟨rfl, rfl⟩
  | call c next ih =>
    have hnext := ih (g c (host (before ++ cs.map f) (f c))) (cs ++ [c])
    rw [List.map_append, ← List.append_assoc] at hnext
    exact ⟨congrArg (List.cons (f c)) hnext.1, hnext.2⟩

@[simp] theorem calls_inject (host : Host C' A') (p : Interact C A R) (before : List C') :
    calls host (inject f g p) before = (calls (hostOf f g host before) p []).map f := by
  simpa using (run_inject f g host p before []).1

@[simp] theorem result_inject (host : Host C' A') (p : Interact C A R) (before : List C') :
    result host (inject f g p) before = result (hostOf f g host before) p [] := by
  simpa using (run_inject f g host p before []).2

end Inject

/-- Run a program for every element of a list, in order. -/
def each {α : Type} (f : α → Interact C A R) : List α → Interact C A (List R)
  | [] => pure []
  | a :: as => do
      let r ← f a
      let rs ← each f as
      pure (r :: rs)

section Each

variable {α : Type} (host : Host C A) (f : α → Interact C A R)

theorem length_result_each (as : List α) (before : List C) :
    (result host (each f as) before).length = as.length := by
  induction as generalizing before with
  | nil =>
    rfl
  | cons a as ih =>
    simp [each, ih]

theorem calls_each_append (as bs : List α) (before : List C) :
    calls host (each f (as ++ bs)) before =
      calls host (each f as) before ++
        calls host (each f bs) (before ++ calls host (each f as) before) := by
  induction as generalizing before with
  | nil =>
    simp [each]
  | cons a as ih =>
    simp [each, ih]

/-- **The calls for a list** are those of the first element and then those for
the rest. -/
theorem calls_each_cons (a : α) (as : List α) (before : List C) :
    calls host (each f (a :: as)) before =
      calls host (f a) before ++
        calls host (each f as) (before ++ calls host (f a) before) := by
  simp [each]

theorem exists_of_mem_calls_each {as : List α} {before : List C} {c : C}
    (h : c ∈ calls host (each f as) before) :
    ∃ a ∈ as, ∃ before', c ∈ calls host (f a) before' := by
  induction as generalizing before with
  | nil =>
    simp [each] at h
  | cons a as ih =>
    rw [calls_each_cons, List.mem_append] at h
    rcases h with h | h
    · exact ⟨a, List.mem_cons_self, before, h⟩
    · obtain ⟨a', ha', before', hc⟩ := ih h
      exact ⟨a', List.mem_cons_of_mem a ha', before', hc⟩

theorem calls_each_map {as : List α} {c : α → C}
    (h : ∀ a ∈ as, ∀ before, calls host (f a) before = [c a]) (before : List C) :
    calls host (each f as) before = as.map c := by
  induction as generalizing before with
  | nil =>
    rfl
  | cons a as ih =>
    rw [calls_each_cons, h a List.mem_cons_self,
      ih fun a' ha' => h a' (List.mem_cons_of_mem a ha')]
    rfl

theorem calls_each_replicate {as : List α} {c : C}
    (h : ∀ a ∈ as, ∀ before, calls host (f a) before = [c]) (before : List C) :
    calls host (each f as) before = List.replicate as.length c := by
  rw [calls_each_map host f h, List.map_const']

end Each

end Interact

end ArkInfra
