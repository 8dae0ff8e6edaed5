import Mathlib.Algebra.BigOperators.Group.Finset.Basic
import Mathlib.Algebra.Order.Group.Multiset
import Mathlib.Logic.Relation

/-!
# Depth-first search that collects results

A search graph has a list of edges at every vertex.  An edge contributes some
results, and it may lead on to a vertex.  The search from a vertex marks it and
goes through its edges in order: it reports the results of the edge first and
then searches from the vertex the edge leads to, unless that one is marked
already.

`Returns` is the search as a recursion without any bound: a derivation exists
exactly when the call comes back.  What a call did is described by `Explores`,
and the whole search by `visited_of_returns` and `found_of_returns`: it marks
the vertices that can be reached and reports the results of each of them once,
whatever cycles and shared vertices there are.
-/

namespace ArkInfra

structure SearchGraph (α ε β : Type) where
  /-- The edges at a vertex. -/
  out : α → List ε
  /-- Where an edge leads, if the search follows it. -/
  next : ε → Option α
  /-- What an edge contributes to the results. -/
  emit : ε → List β

namespace SearchGraph

variable {α ε β : Type}

/-- The marked vertices and the results so far. -/
structure State (α β : Type) where
  visited : Finset α
  found : List β

/-- A call of the search: from a vertex, or along the rest of its edges. -/
inductive Task (α ε : Type) where
  | vertex (u : α)
  | edges (es : List ε)

/-- An edge that is followed leads from `u` to `v`. -/
def Adj (G : SearchGraph α ε β) (u v : α) : Prop :=
  ∃ e ∈ G.out u, G.next e = some v

/-- The vertices that can be reached, the start included. -/
def Reaches (G : SearchGraph α ε β) : α → α → Prop :=
  Relation.ReflTransGen G.Adj

def results (G : SearchGraph α ε β) (u : α) : List β :=
  (G.out u).flatMap G.emit

def State.report (s : State α β) (results : List β) : State α β :=
  { s with found := s.found ++ results }

section Search

variable [DecidableEq α]

def State.mark (s : State α β) (u : α) : State α β :=
  { s with visited := insert u s.visited }

/-- A call that is made in state `s` comes back in state `t`. -/
inductive Returns (G : SearchGraph α ε β) : Task α ε → State α β → State α β → Prop
  | seen {u : α} {s : State α β} (h : u ∈ s.visited) : Returns G (.vertex u) s s
  | expand {u : α} {s t : State α β} (hnew : u ∉ s.visited)
      (hedges : Returns G (.edges (G.out u)) (s.mark u) t) : Returns G (.vertex u) s t
  | done {s : State α β} : Returns G (.edges []) s s
  | skip {e : ε} {es : List ε} {s t : State α β} (hnext : G.next e = none)
      (hrest : Returns G (.edges es) (s.report (G.emit e)) t) : Returns G (.edges (e :: es)) s t
  | follow {e : ε} {es : List ε} {v : α} {s r t : State α β} (hnext : G.next e = some v)
      (hcall : Returns G (.vertex v) (s.report (G.emit e)) r)
      (hrest : Returns G (.edges es) r t) : Returns G (.edges (e :: es)) s t

theorem Returns.unique {G : SearchGraph α ε β} {task : Task α ε} {s t t' : State α β}
    (h : G.Returns task s t) (h' : G.Returns task s t') : t' = t := by
  induction h generalizing t' with
  | seen hseen =>
    cases h' with
    | seen _ => rfl
    | expand hnew _ => exact absurd hseen hnew
  | expand hnew _ ih =>
    cases h' with
    | seen hseen => exact absurd hseen hnew
    | expand _ hedges => exact ih hedges
  | done =>
    cases h'
    rfl
  | skip hnext _ ih =>
    cases h' with
    | skip _ hrest => exact ih hrest
    | follow hnext' _ _ => simp [hnext] at hnext'
  | follow hnext _ _ ihcall ihrest =>
    cases h' with
    | skip hnext' _ => simp [hnext] at hnext'
    | follow hnext' hcall hrest =>
      obtain rfl := Option.some.inj (hnext.symm.trans hnext')
      obtain rfl := ihcall hcall
      exact ihrest hrest

def Task.Starts (G : SearchGraph α ε β) : Task α ε → α → Prop
  | .vertex u, v => v = u
  | .edges es, v => ∃ e ∈ es, G.next e = some v

/-- The results a call reports before it marks any vertex. -/
def Task.own (G : SearchGraph α ε β) : Task α ε → List β
  | .vertex _ => []
  | .edges es => es.flatMap G.emit

/-- What a call does: it marks its starts and everything reached from them that
was not marked before, and reports the results of each newly marked vertex. -/
structure Explores (G : SearchGraph α ε β) (task : Task α ε) (s t : State α β) : Prop where
  subset : s.visited ⊆ t.visited
  starts : ∀ v, task.Starts G v → v ∈ t.visited
  closed : ∀ v ∈ t.visited \ s.visited, ∀ w, G.Adj v w → w ∈ t.visited
  reached : ∀ v ∈ t.visited \ s.visited, ∃ u, task.Starts G u ∧ G.Reaches u v
  found_eq : (t.found : Multiset β) =
    s.found + task.own G + ∑ v ∈ t.visited \ s.visited, (G.results v : Multiset β)

variable {G : SearchGraph α ε β}

theorem Explores.of_visited_eq {task : Task α ε} {s : State α β}
    (hstarts : ∀ v, task.Starts G v → v ∈ s.visited) (hown : task.own G = []) :
    G.Explores task s s where
  subset := Finset.Subset.refl _
  starts := hstarts
  closed := by simp
  reached := by simp
  found_eq := by simp [hown]

theorem Explores.expand {u : α} {s t : State α β} (hnew : u ∉ s.visited)
    (h : G.Explores (.edges (G.out u)) (s.mark u) t) : G.Explores (.vertex u) s t := by
  have hu : u ∈ t.visited := h.subset (Finset.mem_insert_self u s.visited)
  have hsplit : t.visited \ s.visited = insert u (t.visited \ (s.mark u).visited) := by
    ext v
    simp only [State.mark, Finset.mem_insert, Finset.mem_sdiff, not_or]
    constructor
    · rintro ⟨hv, hold⟩
      by_cases hvu : v = u
      · exact Or.inl hvu
      · exact Or.inr ⟨hv, hvu, hold⟩
    · rintro (rfl | ⟨hv, _, hold⟩)
      · exact ⟨hu, hnew⟩
      · exact ⟨hv, hold⟩
  refine ⟨?_, ?_, ?_, ?_, ?_⟩
  · exact (Finset.subset_insert u s.visited).trans h.subset
  · rintro v rfl
    exact hu
  · intro v hv w hadj
    rw [hsplit, Finset.mem_insert] at hv
    rcases hv with rfl | hv
    · exact h.starts w hadj
    · exact h.closed v hv w hadj
  · intro v hv
    refine ⟨u, rfl, ?_⟩
    rw [hsplit, Finset.mem_insert] at hv
    rcases hv with rfl | hv
    · exact Relation.ReflTransGen.refl
    · obtain ⟨w, hadj, hreach⟩ := h.reached v hv
      exact Relation.ReflTransGen.head hadj hreach
  · have hout : u ∉ t.visited \ (s.mark u).visited := by simp [State.mark]
    rw [hsplit, Finset.sum_insert hout, h.found_eq]
    simp only [State.mark, Task.own, results, Multiset.coe_nil, add_zero, add_assoc]

theorem Explores.skip {e : ε} {es : List ε} {s t : State α β} (hnext : G.next e = none)
    (h : G.Explores (.edges es) (s.report (G.emit e)) t) : G.Explores (.edges (e :: es)) s t := by
  refine ⟨h.subset, ?_, h.closed, ?_, ?_⟩
  · rintro v ⟨e', he', hv⟩
    rcases List.mem_cons.mp he' with rfl | he'
    · simp [hnext] at hv
    · exact h.starts v ⟨e', he', hv⟩
  · intro v hv
    obtain ⟨u, ⟨e', he', hu⟩, hreach⟩ := h.reached v hv
    exact ⟨u, ⟨e', List.mem_cons_of_mem e he', hu⟩, hreach⟩
  · rw [h.found_eq]
    simp [State.report, Task.own]

theorem Explores.follow {e : ε} {es : List ε} {v : α} {s r t : State α β}
    (hnext : G.next e = some v) (hcall : G.Explores (.vertex v) (s.report (G.emit e)) r)
    (hrest : G.Explores (.edges es) r t) : G.Explores (.edges (e :: es)) s t := by
  have hcall_subset : s.visited ⊆ r.visited := hcall.subset
  have hsplit : t.visited \ s.visited =
      (r.visited \ s.visited) ∪ (t.visited \ r.visited) := by
    ext w
    simp only [Finset.mem_union, Finset.mem_sdiff]
    constructor
    · rintro ⟨hw, hold⟩
      by_cases hr : w ∈ r.visited
      · exact Or.inl ⟨hr, hold⟩
      · exact Or.inr ⟨hw, hr⟩
    · rintro (⟨hr, hold⟩ | ⟨hw, hr⟩)
      · exact ⟨hrest.subset hr, hold⟩
      · exact ⟨hw, fun hold => hr (hcall_subset hold)⟩
  have hdisjoint : Disjoint (r.visited \ s.visited) (t.visited \ r.visited) :=
    Finset.disjoint_of_subset_left Finset.sdiff_subset Finset.disjoint_sdiff
  refine ⟨hcall_subset.trans hrest.subset, ?_, ?_, ?_, ?_⟩
  · rintro w ⟨e', he', hw⟩
    rcases List.mem_cons.mp he' with rfl | he'
    · obtain rfl : v = w := Option.some.inj (hnext.symm.trans hw)
      exact hrest.subset (hcall.starts v rfl)
    · exact hrest.starts w ⟨e', he', hw⟩
  · intro w hw x hadj
    rw [hsplit, Finset.mem_union] at hw
    rcases hw with hw | hw
    · exact hrest.subset (hcall.closed w hw x hadj)
    · exact hrest.closed w hw x hadj
  · intro w hw
    rw [hsplit, Finset.mem_union] at hw
    rcases hw with hw | hw
    · obtain ⟨u, rfl, hreach⟩ := hcall.reached w hw
      exact ⟨u, ⟨e, List.mem_cons_self, hnext⟩, hreach⟩
    · obtain ⟨u, ⟨e', he', hu⟩, hreach⟩ := hrest.reached w hw
      exact ⟨u, ⟨e', List.mem_cons_of_mem e he', hu⟩, hreach⟩
  · rw [hsplit, Finset.sum_union hdisjoint, hrest.found_eq, hcall.found_eq]
    simp only [State.report, Task.own, List.flatMap_cons, ← Multiset.coe_add, Multiset.coe_nil,
      add_zero]
    -- the results of the call and those of the remaining edges change places
    ac_rfl

/-- **What a call does**, by induction on the calls it makes. -/
theorem Returns.explores {task : Task α ε} {s t : State α β} (h : G.Returns task s t) :
    G.Explores task s t := by
  induction h with
  | seen hseen =>
    exact .of_visited_eq (by rintro v rfl; exact hseen) rfl
  | expand hnew _ ih =>
    exact ih.expand hnew
  | done =>
    exact .of_visited_eq (by rintro v ⟨e, he, _⟩; cases he) rfl
  | skip hnext _ ih =>
    exact ih.skip hnext
  | follow hnext _ _ ihcall ihrest =>
    exact ihcall.follow hnext ihrest

/-- **The search is exact**: started with nothing marked it marks the vertices
that can be reached and no other. -/
theorem visited_of_returns {u : α} {t : State α β}
    (h : G.Returns (.vertex u) ⟨∅, []⟩ t) (v : α) : v ∈ t.visited ↔ G.Reaches u v := by
  have hexp := h.explores
  constructor
  · intro hv
    obtain ⟨w, rfl, hreach⟩ := hexp.reached v (by simpa using hv)
    exact hreach
  · intro hreach
    induction hreach with
    | refl =>
      exact hexp.starts u rfl
    | tail _ hadj ih =>
      exact hexp.closed _ (by simpa using ih) _ hadj

/-- **Every result once**: the search reports the results of the vertices it
marks, each as often as the vertex has it. -/
theorem found_of_returns {u : α} {t : State α β} (h : G.Returns (.vertex u) ⟨∅, []⟩ t) :
    (t.found : Multiset β) = ∑ v ∈ t.visited, (G.results v : Multiset β) := by
  simpa [Task.own] using h.explores.found_eq

end Search

end SearchGraph

end ArkInfra
