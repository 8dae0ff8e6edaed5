import ArkInfra.Core.GraphStep
import ArkInfra.Lib.StableSort

/-!
# What the cleanup removes

`cleanup_old_errors` collects two sets of ids, removes their nodes, filters the
edges three times and cuts them off at the capacity.  Here its result is stated
without the order of these steps.  `RemovesError` and `RemovesProcess` say which
nodes go, and `Spares` says of which edges this and their age leave anything.

A second cleanup at the same time finds nothing: every node that is left passed
the tests, every edge that is left is spared by empty sets, and the edges fit
already.
-/

namespace ArkInfra

namespace StateGraph

variable {F : Type}

/-- An error node that was not updated within the window. -/
def RemovesError (g : StateGraph F) (t : Nat) (id : String) : Prop :=
  ∃ node ∈ g.nodes.lookup id,
    node.nodeType = .error ∧ node.lastUpdate < t - g.errorWindowMs

/-- A process node that has ended, or that was not updated for ten minutes and is
not running. -/
def RemovesProcess (g : StateGraph F) (t : Nat) (id : String) : Prop :=
  ∃ node ∈ g.nodes.lookup id,
    node.nodeType = .process ∧
      ((node.metadata.lookup "state" = some "exit" ∨
          node.metadata.lookup "state" = some "zombie") ∨
        (node.lastUpdate < t - processTtlMs ∧ node.metadata.lookup "state" ≠ some "running"))

/-- The edge is not blocked by a removed error, touches no removed process, and
is within its lifetime. -/
def Spares (g : StateGraph F) (t : Nat) (e : Edge) : Prop :=
  ¬(e.edgeType = .blockedBy ∧ g.RemovesError t e.toId) ∧
    ¬ g.RemovesProcess t e.fromId ∧ ¬ g.RemovesProcess t e.toId ∧ t - edgeTtlMs ≤ e.ts

instance (g : StateGraph F) (t : Nat) (id : String) : Decidable (g.RemovesError t id) :=
  inferInstanceAs (Decidable (∃ node ∈ _, _))

instance (g : StateGraph F) (t : Nat) (id : String) : Decidable (g.RemovesProcess t id) :=
  inferInstanceAs (Decidable (∃ node ∈ _, _))

instance (g : StateGraph F) (t : Nat) (e : Edge) : Decidable (g.Spares t e) :=
  inferInstanceAs (Decidable (_ ∧ _ ∧ _ ∧ _))

section Found

variable (g : StateGraph F) (t : Nat) (id : String)

theorem mem_scanExpired_errors : id ∈ (g.scanExpired t).1 ↔ g.RemovesError t id := by
  simp [scanExpired, RemovesError, isExpiredError]

theorem mem_scanExpired_processes : id ∈ (g.scanExpired t).2 ↔ g.RemovesProcess t id := by
  simp only [scanExpired, HashMap.mem_keysWhere, RemovesProcess, Option.mem_def]
  refine exists_congr ?_
  intro node
  by_cases hty : node.nodeType = .process
  · simp [isDeadProcess, hty]
  · simp [isDeadProcess, hty]

/-- **The nodes.**  What is not removed is left as it is. -/
theorem lookup_cleanupOldErrors_ite :
    (g.cleanupOldErrors t).nodes.lookup id =
      if g.RemovesError t id ∨ g.RemovesProcess t id then none else g.nodes.lookup id := by
  simp only [cleanupOldErrors, removeExpired, HashMap.lookup_removeAll, mem_scanExpired_errors,
    mem_scanExpired_processes]
  by_cases herror : g.RemovesError t id
  · simp [herror]
  · by_cases hprocess : g.RemovesProcess t id
    · simp [hprocess]
    · simp [herror, hprocess]

/-- **The edges** that are left to the capacity guard. -/
theorem survivingEdges_eq_filter :
    g.survivingEdges t = g.edges.filter fun e => decide (g.Spares t e) := by
  unfold survivingEdges retainEdges
  simp only [List.filter_filter]
  refine List.filter_congr ?_
  intro e _
  rw [Bool.eq_iff_iff, decide_eq_true_iff (p := g.Spares t e)]
  simp only [mem_scanExpired_errors, mem_scanExpired_processes, Spares, Bool.and_eq_true,
    Bool.not_eq_true', Bool.and_eq_false_iff, decide_eq_true_eq, decide_eq_false_iff_not,
    ge_iff_le, not_and_or]
  constructor
  · rintro ⟨hts, ⟨hfrom, hto⟩, hblocked⟩
    exact ⟨hblocked, hfrom, hto, hts⟩
  · rintro ⟨hblocked, hfrom, hto, hts⟩
    exact ⟨hts, ⟨hfrom, hto⟩, hblocked⟩

end Found

section Capacity

theorem newer_trans (a b c : Edge) (hab : decide (b.ts ≤ a.ts) = true)
    (hbc : decide (c.ts ≤ b.ts) = true) : decide (c.ts ≤ a.ts) = true := by
  rw [decide_eq_true_eq] at hab hbc ⊢
  exact hbc.trans hab

theorem newer_total (a b : Edge) : (decide (b.ts ≤ a.ts) || decide (a.ts ≤ b.ts)) = true := by
  rw [Bool.or_eq_true, decide_eq_true_eq, decide_eq_true_eq]
  exact Nat.le_total b.ts a.ts

theorem length_capEdges_le (edges : List Edge) : (capEdges edges).length ≤ maxEdges := by
  unfold capEdges
  split_ifs with hmany
  · exact List.length_take_le _ _
  · exact Nat.le_of_not_lt hmany

theorem capEdges_of_lt {edges : List Edge} (h : maxEdges < edges.length) :
    (capEdges edges).length = maxEdges ∧
      ∃ dropped, (capEdges edges ++ dropped).Perm edges ∧
        ∀ kept ∈ capEdges edges, ∀ d ∈ dropped, d.ts ≤ kept.ts := by
  rw [capEdges, if_pos h]
  constructor
  · rw [List.length_take, List.length_mergeSort]
    exact Nat.min_eq_left (Nat.le_of_lt h)
  · obtain ⟨dropped, hperm, hnewer⟩ :=
      StableSort.exists_dropped_take_mergeSort newer_trans newer_total edges maxEdges
    refine ⟨dropped, hperm, ?_⟩
    intro kept hkept d hd
    simpa using hnewer kept hkept d hd

end Capacity

section Again

variable (g : StateGraph F) (t : Nat)

theorem not_removes_cleanupOldErrors (id : String) :
    ¬ (g.cleanupOldErrors t).RemovesError t id ∧ ¬ (g.cleanupOldErrors t).RemovesProcess t id := by
  have hkept : ∀ node ∈ (g.cleanupOldErrors t).nodes.lookup id,
      node ∈ g.nodes.lookup id ∧ ¬(g.RemovesError t id ∨ g.RemovesProcess t id) := by
    intro node hnode
    rw [lookup_cleanupOldErrors_ite] at hnode
    split_ifs at hnode with hremoved
    · cases hnode
    · exact ⟨hnode, hremoved⟩
  constructor
  · rintro ⟨node, hnode, hold⟩
    obtain ⟨hbefore, hspared⟩ := hkept node hnode
    exact hspared (Or.inl ⟨node, hbefore, hold⟩)
  · rintro ⟨node, hnode, hdead⟩
    obtain ⟨hbefore, hspared⟩ := hkept node hnode
    exact hspared (Or.inr ⟨node, hbefore, hdead⟩)

theorem scanExpired_cleanupOldErrors : (g.cleanupOldErrors t).scanExpired t = (∅, ∅) := by
  have hnone := not_removes_cleanupOldErrors g t
  refine Prod.ext ?_ ?_
  · refine Finset.eq_empty_of_forall_notMem ?_
    intro id
    rw [mem_scanExpired_errors]
    exact (hnone id).1
  · refine Finset.eq_empty_of_forall_notMem ?_
    intro id
    rw [mem_scanExpired_processes]
    exact (hnone id).2

theorem edges_cleanupOldErrors :
    (g.cleanupOldErrors t).edges = capEdges (g.edges.filter fun e => decide (g.Spares t e)) := by
  rw [cleanupOldErrors_edgeStore, EdgeStore.rebuildIndexes_edges, survivingEdges_eq_filter]

/-- **The edges.**  What is not spared goes; what is spared stays, unless the graph is
full of edges that are no older. -/
theorem mem_edges_cleanupOldErrors {e : Edge} (he : e ∈ g.edges) :
    (¬ g.Spares t e → e ∉ (g.cleanupOldErrors t).edges) ∧
      (g.Spares t e → e ∈ (g.cleanupOldErrors t).edges ∨
        ((g.cleanupOldErrors t).edges.length = maxEdges ∧
          ∀ kept ∈ (g.cleanupOldErrors t).edges, e.ts ≤ kept.ts)) := by
  rw [edges_cleanupOldErrors]
  refine ⟨?_, ?_⟩
  · intro hgone hleft
    exact hgone (of_decide_eq_true (List.mem_filter.mp (capEdges_subset hleft)).2)
  · intro hspared
    have hmem : e ∈ g.edges.filter fun e => decide (g.Spares t e) :=
      List.mem_filter.mpr ⟨he, decide_eq_true hspared⟩
    rcases Nat.lt_or_ge maxEdges (g.edges.filter fun e => decide (g.Spares t e)).length with
      hmany | hfits
    · obtain ⟨hlength, dropped, hperm, hnewest⟩ := capEdges_of_lt hmany
      rcases List.mem_append.mp (hperm.mem_iff.mpr hmem) with hkept | hdropped
      · exact Or.inl hkept
      · exact Or.inr ⟨hlength, fun kept hkept => hnewest kept hkept e hdropped⟩
    · rw [capEdges_of_le hfits]
      exact Or.inl hmem

theorem survivingEdges_cleanupOldErrors :
    (g.cleanupOldErrors t).survivingEdges t = (g.cleanupOldErrors t).edges := by
  rw [survivingEdges_eq_filter, List.filter_eq_self]
  intro e he
  obtain ⟨hfrom, hto⟩ :=
    And.intro (not_removes_cleanupOldErrors g t e.fromId) (not_removes_cleanupOldErrors g t e.toId)
  rw [edges_cleanupOldErrors] at he
  have hspared := (List.mem_filter.mp (capEdges_subset he)).2
  rw [decide_eq_true_eq] at hspared ⊢
  exact ⟨fun hblocked => hto.1 hblocked.2, hfrom.2, hto.2, hspared.2.2.2⟩

/-- **A second cleanup changes nothing.** -/
theorem cleanupOldErrors_idempotent :
    (g.cleanupOldErrors t).cleanupOldErrors t = g.cleanupOldErrors t := by
  have hfits : capEdges (g.cleanupOldErrors t).edges = (g.cleanupOldErrors t).edges := by
    apply capEdges_of_le
    rw [edges_cleanupOldErrors]
    exact length_capEdges_le _
  have hstore : EdgeStore.rebuildIndexes (capEdges ((g.cleanupOldErrors t).survivingEdges t)) =
      (g.cleanupOldErrors t).toEdgeStore := by
    rw [survivingEdges_cleanupOldErrors, hfits, cleanupOldErrors_edgeStore,
      EdgeStore.rebuildIndexes_edges]
  generalize hg' : g.cleanupOldErrors t = g' at hstore
  have hfound : g'.scanExpired t = (∅, ∅) := hg' ▸ scanExpired_cleanupOldErrors g t
  calc
    g'.cleanupOldErrors t
      = { g' with
          nodes := HashMap.removeAll (g'.scanExpired t).2
            (HashMap.removeAll (g'.scanExpired t).1 g'.nodes)
          toEdgeStore := EdgeStore.rebuildIndexes (capEdges (g'.survivingEdges t)) } := rfl
    _ = { g' with nodes := g'.nodes, toEdgeStore := g'.toEdgeStore } := by
        rw [hstore, hfound, HashMap.removeAll_empty, HashMap.removeAll_empty]
    _ = g' := rfl

end Again

/-- **The cleanup is exact and idempotent.**  At any time `t` and in any state, the
nodes that go are the expired errors and the dead processes, and no resource is
among them.  The edges that these nodes and the lifetime leave are kept in their
order if they fit, and else the newest of them are kept.  A second cleanup at the
same time changes nothing. -/
theorem cleanupOldErrors_exact (g : StateGraph F) (t : Nat) :
    let g' := g.cleanupOldErrors t
    let K := g.edges.filter fun e => decide (g.Spares t e)
    (∀ id, g'.nodes.lookup id =
      if g.RemovesError t id ∨ g.RemovesProcess t id then none else g.nodes.lookup id) ∧
    (∀ id, ∀ node ∈ g.nodes.lookup id, node.nodeType = .resource →
      g'.nodes.lookup id = some node) ∧
    (K.length ≤ maxEdges → g'.edges = K) ∧
    (maxEdges < K.length → g'.edges.length = maxEdges ∧
      ∃ dropped, (g'.edges ++ dropped).Perm K ∧
        ∀ kept ∈ g'.edges, ∀ d ∈ dropped, d.ts ≤ kept.ts) ∧
    g'.cleanupOldErrors t = g' := by
  intro g' K
  have hedges : g'.edges = capEdges K := edges_cleanupOldErrors g t
  refine ⟨lookup_cleanupOldErrors_ite g t, ?_, ?_, ?_, cleanupOldErrors_idempotent g t⟩
  · intro id node hnode hresource
    have hnode' : g.nodes.lookup id = some node := hnode
    rw [lookup_cleanupOldErrors_ite, if_neg]
    · exact hnode'
    · rintro (⟨other, hother, hty, _⟩ | ⟨other, hother, hty, _⟩)
      · rw [Option.mem_unique hother hnode, hresource] at hty
        cases hty
      · rw [Option.mem_unique hother hnode, hresource] at hty
        cases hty
  · intro hfits
    rw [hedges, capEdges_of_le hfits]
  · intro hmany
    rw [hedges]
    exact capEdges_of_lt hmany

end StateGraph

end ArkInfra
