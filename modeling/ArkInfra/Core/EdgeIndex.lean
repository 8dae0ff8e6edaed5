import ArkInfra.Core.GraphStep
import Mathlib.Data.List.Sort

/-!
# The edge vector and its indexes agree

The edges are stored three times: in a vector, in a set of keys that
`upsertEdge` consults, and under their source node.  `Consistent` says that
the three agree.  It holds of the empty store, `upsertEdge` preserves it, and
`rebuildIndexes` restores it from any vector without repeated keys; the
filters and the capacity guard of the cleanup only remove and reorder edges,
so they cannot repeat a key.

The handlers reach the edges through `upsertEdge` alone (`handle_edgeStore`),
hence every run keeps the three structures consistent, and the resources of a
process can be read off the vector.
-/

namespace ArkInfra

namespace EdgeStore

/-- The two indexes describe the vector, and no key occurs twice in it. -/
structure Consistent (s : EdgeStore) : Prop where
  keys_nodup : (s.edges.map edgeKey).Nodup
  edgeIndex_eq : s.edgeIndex = (s.edges.map edgeKey).toFinset
  edgeOutIndex_eq :
    ∀ x, (s.edgeOutIndex.lookup x).getD [] =
      (s.edges.filter (fun e => decide (e.fromId = x))).map indexedEdge

theorem Consistent.mem_edgeIndex {s : EdgeStore} (hs : s.Consistent) (k : EdgeKey) :
    k ∈ s.edgeIndex ↔ ∃ e ∈ s.edges, edgeKey e = k := by
  rw [hs.edgeIndex_eq, List.mem_toFinset, List.mem_map]

theorem consistent_empty : EdgeStore.empty.Consistent where
  keys_nodup := by simp [EdgeStore.empty]
  edgeIndex_eq := by simp [EdgeStore.empty]
  edgeOutIndex_eq := by
    intro x
    simp [EdgeStore.empty]

theorem upsertEdge_of_mem {s : EdgeStore} {edge : Edge}
    (h : edgeKey edge ∈ s.edgeIndex) : s.upsertEdge edge = (s, false) := by
  simp [upsertEdge, h]

theorem upsertEdge_edges (s : EdgeStore) (edge : Edge) :
    (s.upsertEdge edge).1.edges =
      if edgeKey edge ∈ s.edgeIndex then s.edges else s.edges ++ [edge] := by
  unfold upsertEdge
  by_cases h : edgeKey edge ∈ s.edgeIndex
  · simp [h]
  · simp [h]

theorem mem_upsertEdge {s : EdgeStore} {edge e : Edge} :
    e ∈ (s.upsertEdge edge).1.edges ↔ e ∈ s.edges ∨ (e = edge ∧ edgeKey e ∉ s.edgeIndex) := by
  rw [upsertEdge_edges]
  split_ifs with hkey
  · constructor
    · exact Or.inl
    · rintro (hold | ⟨rfl, hnew⟩)
      · exact hold
      · exact absurd hkey hnew
  · rw [List.mem_append, List.mem_singleton]
    constructor
    · rintro (hold | rfl)
      · exact Or.inl hold
      · exact Or.inr ⟨rfl, hkey⟩
    · rintro (hold | ⟨rfl, _⟩)
      · exact Or.inl hold
      · exact Or.inr rfl

theorem Consistent.upsertEdge {s : EdgeStore} (hs : s.Consistent) (edge : Edge) :
    (s.upsertEdge edge).1.Consistent := by
  by_cases h : edgeKey edge ∈ s.edgeIndex
  · rw [upsertEdge_of_mem h]
    exact hs
  · have hfresh : edgeKey edge ∉ s.edges.map edgeKey := by
      intro hmem
      apply h
      rw [hs.edgeIndex_eq, List.mem_toFinset]
      exact hmem
    simp only [EdgeStore.upsertEdge, if_neg h]
    refine ⟨?_, ?_, ?_⟩
    · rw [List.map_append, List.nodup_append_comm]
      exact List.nodup_cons.mpr ⟨hfresh, hs.keys_nodup⟩
    · rw [hs.edgeIndex_eq]
      ext k
      simp only [Finset.mem_insert, List.mem_toFinset, List.map_append, List.map_cons,
        List.map_nil, List.mem_append, List.mem_singleton]
      exact or_comm
    · intro x
      rw [HashMap.getD_lookup_pushAt, hs.edgeOutIndex_eq x, List.filter_append,
        List.map_append]
      by_cases hx : x = edge.fromId
      · subst hx
        simp
      · simp [hx, Ne.symm hx]

theorem Consistent.upsertEdges {s : EdgeStore} (hs : s.Consistent) (edges : List Edge) :
    (s.upsertEdges edges).Consistent := by
  unfold EdgeStore.upsertEdges
  induction edges generalizing s with
  | nil =>
    exact hs
  | cons edge edges ih =>
    exact ih (hs.upsertEdge edge)

theorem subset_upsertEdges {s : EdgeStore} {edges : List Edge} {e : Edge}
    (h : e ∈ s.edges) : e ∈ (s.upsertEdges edges).edges := by
  unfold EdgeStore.upsertEdges
  induction edges generalizing s with
  | nil =>
    exact h
  | cons edge edges ih =>
    apply ih
    rw [upsertEdge_edges]
    split_ifs
    · exact h
    · exact List.mem_append_left _ h

/-- An edge that is not upserted is there afterwards exactly when it was there. -/
theorem mem_upsertEdges_of_notMem {s : EdgeStore} {edges : List Edge} {e : Edge}
    (h : e ∉ edges) : e ∈ (s.upsertEdges edges).edges ↔ e ∈ s.edges := by
  constructor
  · intro he
    rcases mem_upsertEdges he with hold | hnew
    · exact hold
    · exact absurd hnew h
  · exact subset_upsertEdges

theorem mem_edgeIndex_upsertEdges {s : EdgeStore} {edges : List Edge} {k : EdgeKey} :
    k ∈ (s.upsertEdges edges).edgeIndex ↔ k ∈ s.edgeIndex ∨ ∃ e ∈ edges, edgeKey e = k := by
  unfold EdgeStore.upsertEdges
  induction edges generalizing s with
  | nil =>
    simp
  | cons edge edges ih =>
    have hone : k ∈ (s.upsertEdge edge).1.edgeIndex ↔ k ∈ s.edgeIndex ∨ edgeKey edge = k := by
      unfold EdgeStore.upsertEdge
      by_cases hkey : edgeKey edge ∈ s.edgeIndex
      · simp only [hkey, if_true]
        constructor
        · exact Or.inl
        · rintro (hold | rfl)
          · exact hold
          · exact hkey
      · simp only [hkey, if_false, Finset.mem_insert]
        rw [or_comm, eq_comm]
    simp only [List.foldl_cons, ih, hone, List.mem_cons, exists_eq_or_imp, or_assoc]

theorem length_upsertEdges (s : EdgeStore) (edges : List Edge) :
    (s.upsertEdges edges).edges.length ≤ s.edges.length + edges.length := by
  unfold EdgeStore.upsertEdges
  induction edges generalizing s with
  | nil =>
    exact Nat.le_refl _
  | cons edge edges ih =>
    have hone : (s.upsertEdge edge).1.edges.length ≤ s.edges.length + 1 := by
      rw [upsertEdge_edges]
      split_ifs
      · exact Nat.le_succ _
      · simp
    have hrest := ih (s.upsertEdge edge).1
    rw [List.foldl_cons, List.length_cons]
    omega

/-- After indexing a prefix of the vector, the indexes describe the prefix. -/
theorem foldl_indexEdge (l : List Edge) (s : EdgeStore) :
    (l.foldl indexEdge s).edgeIndex = s.edgeIndex ∪ (l.map edgeKey).toFinset ∧
    ∀ x, ((l.foldl indexEdge s).edgeOutIndex.lookup x).getD [] =
      (s.edgeOutIndex.lookup x).getD [] ++
        (l.filter (fun e => decide (e.fromId = x))).map indexedEdge := by
  induction l generalizing s with
  | nil =>
    simp
  | cons e l ih =>
    obtain ⟨hidx, hout⟩ := ih (s.indexEdge e)
    rw [List.foldl_cons]
    refine ⟨?_, ?_⟩
    · rw [hidx]
      ext k
      simp only [indexEdge, Finset.mem_union, Finset.mem_insert, List.map_cons,
        List.toFinset_cons]
      rw [or_assoc, or_left_comm]
    · intro x
      rw [hout x]
      simp only [indexEdge, HashMap.getD_lookup_pushAt, List.append_assoc]
      by_cases hx : x = e.fromId
      · subst hx
        simp
      · simp [hx, Ne.symm hx]

theorem consistent_rebuildIndexes {edges : List Edge}
    (h : (edges.map edgeKey).Nodup) : (rebuildIndexes edges).Consistent := by
  obtain ⟨hidx, hout⟩ :=
    foldl_indexEdge edges { edges := edges, edgeIndex := ∅, edgeOutIndex := ∅ }
  refine ⟨?_, ?_, ?_⟩
  · rw [rebuildIndexes_edges]
    exact h
  · rw [rebuildIndexes_edges]
    unfold rebuildIndexes
    rw [hidx]
    simp
  · intro x
    rw [rebuildIndexes_edges]
    unfold rebuildIndexes
    rw [hout x]
    simp

end EdgeStore

namespace StateGraph

variable {F : Type}

theorem retainEdges_sublist (errorIds deadPids : Finset String) (edgeCutoff : Nat)
    (edges : List Edge) :
    (retainEdges errorIds deadPids edgeCutoff edges).Sublist edges := by
  unfold retainEdges
  exact (List.filter_sublist.trans List.filter_sublist).trans List.filter_sublist

/-- As long as there is room for all edges, a cleanup drops exactly the edges
that do not survive it. -/
theorem mem_periodicCleanup {g : StateGraph F} {ts : Nat} {e : Edge}
    (hroom : g.shouldCleanup ts = true → g.edges.length ≤ maxEdges) :
    e ∈ (g.periodicCleanup ts).edges ↔
      e ∈ g.edges ∧ (g.shouldCleanup ts = true → e ∈ g.survivingEdges ts) := by
  unfold periodicCleanup
  split_ifs with hdue
  · have hlength : (g.survivingEdges ts).length ≤ maxEdges :=
      (retainEdges_sublist _ _ _ g.edges).length_le.trans (hroom hdue)
    change e ∈ (g.cleanupOldErrors ts).edges ↔ _
    rw [cleanupOldErrors_edgeStore, EdgeStore.rebuildIndexes_edges, capEdges_of_le hlength]
    constructor
    · intro he
      exact ⟨(mem_survivingEdges.mp he).1, fun _ => he⟩
    · intro he
      exact he.2 hdue
  · constructor
    · intro he
      exact ⟨he, fun h => absurd h hdue⟩
    · intro he
      exact he.1

theorem capEdges_keys_nodup {edges : List Edge} (h : (edges.map edgeKey).Nodup) :
    ((capEdges edges).map edgeKey).Nodup := by
  unfold capEdges
  split_ifs
  · -- sorting permutes the keys, truncation keeps a prefix of them
    have hperm := (List.mergeSort_perm edges (fun a b => decide (b.ts ≤ a.ts))).map edgeKey
    have hsorted := hperm.nodup_iff.mpr h
    exact hsorted.sublist ((List.take_sublist _ _).map edgeKey)
  · exact h

theorem consistent_cleanupOldErrors {g : StateGraph F} (hg : g.toEdgeStore.Consistent)
    (currentTs : Nat) :
    (g.cleanupOldErrors currentTs).toEdgeStore.Consistent := by
  rw [cleanupOldErrors_edgeStore]
  apply EdgeStore.consistent_rebuildIndexes
  apply capEdges_keys_nodup
  exact hg.keys_nodup.sublist ((retainEdges_sublist _ _ _ _).map edgeKey)

theorem consistent_periodicCleanup {g : StateGraph F} (hg : g.toEdgeStore.Consistent)
    (ts : Nat) : (g.periodicCleanup ts).toEdgeStore.Consistent := by
  unfold periodicCleanup
  split_ifs
  · exact consistent_cleanupOldErrors hg ts
  · exact hg

/-- Read through a consistent index, the resources of a process are the
`consumes` edges that leave it. -/
theorem getProcessResources_eq {g : StateGraph F} (hg : g.toEdgeStore.Consistent)
    (pid : Nat) :
    g.getProcessResources pid =
      (g.edges.filter
        (fun e => decide (e.edgeType = .consumes ∧ e.fromId = "pid-" ++ toString pid))).map
        (fun e => e.toId) := by
  have hlookup :
      g.getProcessResources pid =
        (((g.edgeOutIndex.lookup ("pid-" ++ toString pid)).getD []).filter
          (fun e => decide (e.edgeType = .consumes))).map (fun e => e.toId) := by
    simp only [getProcessResources]
    cases g.edgeOutIndex.lookup ("pid-" ++ toString pid) <;> rfl
  rw [hlookup, hg.edgeOutIndex_eq, List.filter_map, List.map_map, List.filter_filter]
  congr 1
  apply List.filter_congr
  intro e _
  exact (Bool.decide_and (e.edgeType = .consumes) _).symm

theorem targets_nodup {g : StateGraph F} (hg : g.toEdgeStore.Consistent)
    (ty : EdgeType) (x : String) :
    ((g.edges.filter (fun e => decide (e.edgeType = ty ∧ e.fromId = x))).map
      (fun e => e.toId)).Nodup := by
  have hkeys := hg.keys_nodup.sublist
    ((List.filter_sublist
      (p := fun e : Edge => decide (e.edgeType = ty ∧ e.fromId = x))).map edgeKey)
  rw [List.Nodup, List.pairwise_map] at hkeys ⊢
  refine hkeys.imp_of_mem ?_
  intro a b ha hb hne hto
  obtain ⟨hat, haf⟩ := of_decide_eq_true (List.mem_filter.mp ha).2
  obtain ⟨hbt, hbf⟩ := of_decide_eq_true (List.mem_filter.mp hb).2
  apply hne
  simp only [edgeKey, hat, haf, hbt, hbf, hto]

section Runs

variable [FloatArith F]

theorem consistent_applyEvent {g : StateGraph F} (hg : g.toEdgeStore.Consistent)
    (event : Event) : (g.applyEvent event).toEdgeStore.Consistent := by
  rw [applyEvent_edgeStore]
  apply consistent_periodicCleanup
  rw [handle_edgeStore]
  exact hg.upsertEdges _

theorem consistent_after (events : List Event) :
    (after events : StateGraph F).toEdgeStore.Consistent := by
  apply Run.invariant (I := fun g : StateGraph F => g.toEdgeStore.Consistent)
  · intro g event hg
    exact consistent_applyEvent hg event
  · exact EdgeStore.consistent_empty

/-- **The three edge structures agree after every run**, and the indexed
lookup of a process's resources is the plain scan of the vector. -/
theorem edgeStructures_agree (events : List Event) :
    let g : StateGraph F := after events
    (g.edges.map edgeKey).Nodup ∧
    (∀ k, k ∈ g.edgeIndex ↔ ∃ e ∈ g.edges, edgeKey e = k) ∧
    (∀ x, (g.edgeOutIndex.lookup x).getD [] =
      (g.edges.filter (fun e => decide (e.fromId = x))).map indexedEdge) ∧
    ∀ pid,
      g.getProcessResources pid =
        (g.edges.filter
          (fun e => decide (e.edgeType = .consumes ∧ e.fromId = "pid-" ++ toString pid))).map
          (fun e => e.toId) ∧
      (g.getProcessResources pid).Nodup := by
  intro g
  have hg : g.toEdgeStore.Consistent := consistent_after events
  refine ⟨hg.keys_nodup, hg.mem_edgeIndex, hg.edgeOutIndex_eq, ?_⟩
  intro pid
  refine ⟨getProcessResources_eq hg pid, ?_⟩
  rw [getProcessResources_eq hg pid]
  exact targets_nodup hg .consumes ("pid-" ++ toString pid)

end Runs

end StateGraph

end ArkInfra
