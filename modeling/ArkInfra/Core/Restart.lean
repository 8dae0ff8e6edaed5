import ArkInfra.Core.Cleanup
import ArkInfra.Core.EdgeIndex
import ArkInfra.Core.RootCause
import ArkInfra.Core.Staleness

/-!
# A process that starts again

Process ids are used again.  The start of a process puts a new node in the place
of the old one, but the edges of the old process are left alone: they belong to
the vector and its indexes, and only the cleanup takes edges away.  The end of a
process is meant to do that, since the cleanup drops the edges of the ended
processes it finds; a start that comes before the cleanup hides the end from it,
and the new process inherits the bindings, the waits and the blame of its
predecessor.

`restart_noEdges_iff` says when a start leaves no edge behind: when there is
none, or when the start itself makes a cleanup due that drops each of them for
another reason.
-/

namespace ArkInfra

namespace StateGraph

variable {F : Type}

theorem mem_capEdges_iff {before behind : List Edge} {e : Edge}
    (hnodup : (before ++ e :: behind).Nodup) :
    e ∈ capEdges (before ++ e :: behind) ↔
      before.countP (fun x => decide (e.ts ≤ x.ts)) +
        behind.countP (fun x => decide (e.ts < x.ts)) < maxEdges := by
  unfold capEdges
  split_ifs with hmany
  · rw [StableSort.mem_take_mergeSort_iff newer_trans newer_total hnodup]
    simp only [StableSort.rank, ← decide_not, Nat.not_le]
  · -- all edges are kept, and fewer than their number come before this one
    have hbefore := List.countP_le_length (p := fun x => decide (e.ts ≤ x.ts)) (l := before)
    have hbehind := List.countP_le_length (p := fun x => decide (e.ts < x.ts)) (l := behind)
    have hlength : before.length + (behind.length + 1) ≤ maxEdges := by
      simpa using hmany
    constructor
    · intro _
      omega
    · intro _
      simp

/-- The cleanup at the restart of `id` finds no reason to drop the edge: its
error has not expired, no other end of it is a dead process, and it is within
its lifetime.  The process at `id` is running again by then. -/
def KeptAtRestart (g : StateGraph F) (ts : Nat) (id : String) (e : Edge) : Prop :=
  ¬(e.edgeType = .blockedBy ∧ e.toId ≠ id ∧
      ∃ node ∈ g.nodes.lookup e.toId, isExpiredError (ts - g.errorWindowMs) node = true) ∧
  ¬(e.fromId ≠ id ∧
      ∃ node ∈ g.nodes.lookup e.fromId, isDeadProcess (ts - processTtlMs) node = true) ∧
  ¬(e.toId ≠ id ∧
      ∃ node ∈ g.nodes.lookup e.toId, isDeadProcess (ts - processTtlMs) node = true) ∧
  ts ≤ e.ts + edgeTtlMs

instance (g : StateGraph F) (ts : Nat) (id : String) : DecidablePred (g.KeptAtRestart ts id) :=
  fun _ => inferInstanceAs (Decidable (_ ∧ _ ∧ _ ∧ _))

/-- The edges that are left to the capacity guard. -/
def keptEdges (g : StateGraph F) (ts : Nat) (id : String) : List Edge :=
  g.edges.filter (fun e => decide (g.KeptAtRestart ts id e))

/-- Every edge out of `id` goes in a cleanup that is due: it is not kept, or
`maxEdges` of the kept edges come before it in the order of the capacity
guard. -/
def ClearedAtRestart (g : StateGraph F) (ts : Nat) (id : String) : Prop :=
  ∀ e ∈ g.edges, e.fromId = id →
    g.shouldCleanup ts = true ∧
    ∀ before behind, g.keptEdges ts id = before ++ e :: behind →
      maxEdges ≤ before.countP (fun x => decide (e.ts ≤ x.ts)) +
        behind.countP (fun x => decide (e.ts < x.ts))

section Steps

variable [FloatArith F]

theorem lookup_handle_of_starts (g : StateGraph F) {event : Event} {id : String}
    (hstart : event.Starts id) (x : String) :
    (g.handle event).nodes.lookup x =
      if x = id then some (processNode id event.ts (startMetadata event))
      else g.nodes.lookup x := by
  obtain ⟨hty, hvalue, pid, hpid, rfl⟩ := hstart
  have hpid' : event.pid = some pid := hpid
  simp only [handle, hty, handleProcessState, hpid', hvalue, if_true]
  exact HashMap.lookup_insert_ite _ _ _ _

theorem handle_edges_of_starts (g : StateGraph F) {event : Event} {id : String}
    (hstart : event.Starts id) : (g.handle event).edges = g.edges := by
  rw [handle_edgeStore]
  simp [assertedEdges, hstart.1, EdgeStore.upsertEdges]

theorem not_expired_started (event : Event) (id : String) (cutoff cutoff' : Nat) :
    isExpiredError cutoff (processNode id event.ts (startMetadata event)) = false ∧
      isDeadProcess cutoff' (processNode id event.ts (startMetadata event)) = false := by
  have hstate : (startMetadata event).lookup "state" = some "running" :=
    AList.lookup_insert _
  constructor
  · simp [isExpiredError, processNode]
  · simp [isDeadProcess, processNode, hstate]

theorem survivingEdges_of_starts (g : StateGraph F) {event : Event} {id : String}
    (hstart : event.Starts id) :
    (g.handle event).survivingEdges event.ts = g.keptEdges event.ts id := by
  have hends : ∀ (p : Node → Bool) (x : String),
      p (processNode id event.ts (startMetadata event)) = false →
      ((∃ node, (g.handle event).nodes.lookup x = some node ∧ p node = true) ↔
        x ≠ id ∧ ∃ node ∈ g.nodes.lookup x, p node = true) := by
    intro p x hp
    rw [lookup_handle_of_starts g hstart]
    by_cases hx : x = id
    · simp [hx, hp]
    · simp [hx]
  obtain ⟨herror, hdead⟩ :=
    not_expired_started event id (event.ts - g.errorWindowMs) (event.ts - processTtlMs)
  unfold survivingEdges keptEdges retainEdges
  simp only [List.filter_filter, handle_edges_of_starts g hstart]
  refine List.filter_congr ?_
  intro e _
  rw [Bool.eq_iff_iff, decide_eq_true_iff (p := g.KeptAtRestart event.ts id e)]
  simp only [scanExpired, handle_errorWindowMs, HashMap.mem_keysWhere, hends _ _ herror,
    hends _ _ hdead, KeptAtRestart, Bool.and_eq_true, Bool.not_eq_true', Bool.and_eq_false_iff,
    decide_eq_true_eq, decide_eq_false_iff_not, ge_iff_le, Nat.sub_le_iff_le_add]
  constructor
  · rintro ⟨hts, ⟨hfrom, hto⟩, hnotBlocked⟩
    exact ⟨not_and_or.mpr hnotBlocked, hfrom, hto, hts⟩
  · rintro ⟨hnotBlocked, hfrom, hto, hts⟩
    exact ⟨hts, ⟨hfrom, hto⟩, not_and_or.mp hnotBlocked⟩

/-- **One restart.** -/
theorem noEdges_applyEvent_iff {g : StateGraph F} (hg : g.toEdgeStore.Consistent)
    {event : Event} {id : String} (hstart : event.Starts id) :
    (∀ e ∈ (g.applyEvent event).edges, e.fromId ≠ id) ↔ g.ClearedAtRestart event.ts id := by
  have hnodup : (g.keptEdges event.ts id).Nodup :=
    (List.Nodup.of_map edgeKey hg.keys_nodup).sublist List.filter_sublist
  rw [applyEvent_edgeStore]
  by_cases hdue : g.shouldCleanup event.ts = true
  · have hedges : ((g.handle event).periodicCleanup event.ts).edges =
        capEdges (g.keptEdges event.ts id) := by
      rw [periodicCleanup, handle_shouldCleanup, if_pos hdue]
      change ((g.handle event).cleanupOldErrors event.ts).edges = _
      rw [cleanupOldErrors_edgeStore, EdgeStore.rebuildIndexes_edges,
        survivingEdges_of_starts g hstart]
    rw [hedges]
    constructor
    · intro hnone e he hfrom
      refine ⟨hdue, ?_⟩
      intro before behind hsplit
      by_contra hlt
      have hkept : e ∈ capEdges (g.keptEdges event.ts id) := by
        rw [hsplit, mem_capEdges_iff (hsplit ▸ hnodup)]
        exact Nat.lt_of_not_le hlt
      exact hnone e hkept hfrom
    · intro hcleared e he hfrom
      have hkept := capEdges_subset he
      obtain ⟨before, behind, hsplit⟩ := List.append_of_mem hkept
      have hrank := (hcleared e (List.mem_filter.mp hkept).1 hfrom).2 before behind hsplit
      rw [hsplit, mem_capEdges_iff (hsplit ▸ hnodup)] at he
      exact absurd he (Nat.not_lt.mpr hrank)
  · have hedges : ((g.handle event).periodicCleanup event.ts).edges = g.edges := by
      rw [periodicCleanup, handle_shouldCleanup, if_neg hdue, handle_edges_of_starts g hstart]
    rw [hedges]
    constructor
    · intro hnone e he hfrom
      exact absurd hfrom (hnone e he)
    · intro hcleared e he hfrom
      exact hdue (hcleared e he hfrom).1

end Steps

theorem findRootCauseById_of_noEdges {g : StateGraph F} (hg : g.toEdgeStore.Consistent)
    {id : String} (hnone : ∀ e ∈ g.edges, e.fromId ≠ id) : g.findRootCauseById id = [] := by
  have hout : (g.edgeOutIndex.lookup id).getD [] = [] := by
    rw [hg.edgeOutIndex_eq id, List.map_eq_nil_iff, List.filter_eq_nil_iff]
    intro e he
    simpa using hnone e he
  simp [findRootCauseById, Search.dfsBackward, hout]

section Runs

variable [FloatArith F]

/-- **What a restarted process inherits.**  Whenever a process is started, after
its predecessor has ended or not, the new process has no edge and no root cause
right after the event exactly when the state before the event was cleared for
it. -/
theorem restart_noEdges_iff (events : List Event) (event : Event) (id : String)
    (hstart : event.Starts id) :
    let g' : StateGraph F := after (events ++ [event])
    ((∀ e ∈ g'.edges, e.fromId ≠ id) ∧ g'.findRootCauseById id = []) ↔
      (after events : StateGraph F).ClearedAtRestart event.ts id := by
  intro g'
  have hedges : (∀ e ∈ g'.edges, e.fromId ≠ id) ↔
      (after events : StateGraph F).ClearedAtRestart event.ts id := by
    have hstep := noEdges_applyEvent_iff (consistent_after (F := F) events) hstart
    rwa [← after_concat] at hstep
  rw [← hedges]
  constructor
  · exact And.left
  · intro hnone
    exact ⟨hnone, findRootCauseById_of_noEdges (consistent_after _) hnone⟩

end Runs

/-- A process that used nothing leaves nothing behind. -/
theorem restart_noEdges_iff_unused :
    let start : Event := ⟨1000, .processState, "proc", none, some 7, "start", none⟩
    let exit : Event := ⟨4000, .processState, "proc", none, some 7, "exit", none⟩
    let restart : Event := ⟨5000, .processState, "proc", none, some 7, "start", none⟩
    let g : StateGraph Binary64 := after [start, exit]
    restart.Starts "pid-7" ∧ (∃ node ∈ g.nodes.lookup "pid-7", node.HasEnded) ∧
      g.ClearedAtRestart 5000 "pid-7" := by
  intro start exit restart g
  have hstart : restart.Starts "pid-7" := by
    decide
  refine ⟨hstart, by decide, ?_⟩
  exact (restart_noEdges_iff [start, exit] restart "pid-7" hstart).mp (by decide)

/-- **A process is blamed for the fault of its predecessor.**  The process uses a
device, the device fails and the process exits; the next process with its id
starts within the cleanup interval and is reported as blocked by the fault,
although it never used the device. -/
theorem restart_noEdges_reusedPid :
    let start : Event := ⟨1000, .processState, "proc", none, some 7, "start", none⟩
    let binding : Event := ⟨2000, .computeUtil, "gpu-0", none, some 7, "95", none⟩
    let fault : Event := ⟨3000, .errorHw, "gpu-0", none, none, "XID 79", none⟩
    let exit : Event := ⟨4000, .processState, "proc", none, some 7, "exit", none⟩
    let restart : Event := ⟨5000, .processState, "proc", none, some 7, "start", none⟩
    let g : StateGraph Binary64 := after [start, binding, fault, exit]
    let g' : StateGraph Binary64 := after [start, binding, fault, exit, restart]
    restart.Starts "pid-7" ∧
    (∃ node ∈ g.nodes.lookup "pid-7", node.HasEnded) ∧
    ¬(∀ e ∈ g'.edges, e.fromId ≠ "pid-7") ∧
    g'.findRootCauseById "pid-7" = ["error-gpu-0: XID 79"] := by
  decide

end StateGraph

end ArkInfra
