import ArkInfra.Core.Cleanup
import ArkInfra.Core.EdgeLife
import ArkInfra.Core.ProcessLife

/-!
# Who is blamed for an error

An error event blocks the processes that consume its entity.  It finds them
through the `Consumes` edges of the graph, which compute events put there and
which the cleanup may have dropped and later events put back.  A `BlockedBy`
edge makes the diagnosis point at a process, so it must not be derived from
anything but what the events of the run say.

`BlameEvidence` is what the run must contain for a process to be blamed: a compute
event that binds the process to a resource, and later an error event about that
resource.  Every edge of every state is accounted for in this sense
(`accounted_after`), and an error event blocks exactly the processes that are
bound to its entity when it arrives (`hasEdge_blockedBy_handle`).
-/

namespace ArkInfra

/-- The compute event says that the process uses the resource. -/
def Event.Binds (c : Event) (process resource : String) : Prop :=
  (c.eventType = .computeUtil ∨ c.eventType = .computeMem) ∧
    (∃ pid ∈ c.pid, pidNodeId c pid = process) ∧ entityNodeId c = resource

/-- The run binds the process to a resource and later reports the error of
that resource. -/
def BlameEvidence (events : List Event) (process error : String) : Prop :=
  ∃ before c between d later,
    events = before ++ c :: between ++ d :: later ∧
    c.Binds process (entityNodeId d) ∧
    d.eventType.isError = true ∧ errorNodeId d = error

theorem BlameEvidence.concat {events : List Event} {process error : String}
    (h : BlameEvidence events process error) (event : Event) :
    BlameEvidence (events ++ [event]) process error := by
  obtain ⟨before, c, between, d, later, rfl, hrest⟩ := h
  exact ⟨before, c, between, d, later ++ [event], by simp, hrest⟩

theorem evidence_of_binds {events : List Event} {c d : Event} {process : String}
    (hc : c ∈ events) (hbinds : c.Binds process (entityNodeId d))
    (herror : d.eventType.isError = true) :
    BlameEvidence (events ++ [d]) process (errorNodeId d) := by
  obtain ⟨before, between, rfl⟩ := List.append_of_mem hc
  exact ⟨before, c, between, d, [], by simp, hbinds, herror, rfl⟩

namespace StateGraph

variable {F : Type}

section Assertions

theorem binds_of_mem_bindingEdge {event : Event} {e : Edge} (h : e ∈ bindingEdge event) :
    event.Binds e.fromId e.toId := by
  unfold bindingEdge at h
  cases hty : event.eventType with
  | computeUtil | computeMem =>
    simp only [hty] at h
    obtain ⟨pid, hpid, rfl⟩ := Option.map_eq_some_iff.mp h
    exact ⟨by simp [hty], ⟨pid, hpid, rfl⟩, rfl⟩
  | processState | transportBw | transportDrop | storageIops | storageQDepth | errorHw
  | errorNet | topoLinkDown | intentRun | actionExec =>
    simp [hty] at h

variable [FloatArith F]

/-- An event asserts `BlockedBy` edges only if it reports an error, and then
from the processes that consume its entity. -/
theorem mem_assertedEdges_blockedBy {edges : List Edge} {event : Event} {e : Edge}
    (hblocked : e.edgeType = .blockedBy) :
    e ∈ assertedEdges F edges event ↔
      event.eventType.isError = true ∧
      ∃ c ∈ edges, c.edgeType = .consumes ∧ c.toId = entityNodeId event ∧
        ⟨.blockedBy, c.fromId, errorNodeId event, event.ts⟩ = e := by
  cases hty : event.eventType with
  | processState | intentRun | actionExec =>
    simp [assertedEdges, hty, EventType.isError]
  | computeUtil | computeMem =>
    simp only [assertedEdges, hty, EventType.isError, Bool.false_eq_true, false_and, iff_false]
    cases event.pid with
    | none =>
      simp
    | some pid =>
      intro he
      rw [List.mem_singleton.mp he] at hblocked
      cases hblocked
  | transportBw | transportDrop | storageIops | storageQDepth =>
    simp only [assertedEdges, hty, EventType.isError, Bool.false_eq_true, false_and, iff_false]
    cases waitingProcess F event with
    | none =>
      simp
    | some p =>
      intro he
      rw [List.mem_singleton.mp he] at hblocked
      cases hblocked
  | errorHw | errorNet | topoLinkDown =>
    simp only [assertedEdges, hty, EventType.isError, true_and, List.mem_map, List.mem_filter,
      Bool.and_eq_true, decide_eq_true_eq, and_assoc]

/-- **What an error event blocks**: the processes that are bound to its entity,
and no other. -/
theorem hasEdge_blockedBy_handle {g : StateGraph F} (hg : g.toEdgeStore.Consistent)
    {d : Event} (herror : d.eventType.isError = true) (process error : String) :
    (g.handle d).HasEdge ⟨.blockedBy, process, error⟩ ↔
      g.HasEdge ⟨.blockedBy, process, error⟩ ∨
        (error = errorNodeId d ∧ g.HasEdge ⟨.consumes, process, entityNodeId d⟩) := by
  have hafter : (g.handle d).toEdgeStore.Consistent := by
    rw [handle_edgeStore]
    exact hg.upsertEdges _
  have hasserted : (∃ e ∈ assertedEdges F g.edges d, edgeKey e = ⟨.blockedBy, process, error⟩) ↔
      error = errorNodeId d ∧ g.HasEdge ⟨.consumes, process, entityNodeId d⟩ := by
    constructor
    · rintro ⟨e, he, hkey⟩
      obtain ⟨_, c, hc, hty, hto, rfl⟩ :=
        (mem_assertedEdges_blockedBy (congrArg EdgeKey.edgeType hkey)).mp he
      obtain ⟨rfl, rfl⟩ : c.fromId = process ∧ errorNodeId d = error := by
        simpa [edgeKey] using hkey
      exact ⟨rfl, c, hc, by simp [edgeKey, hty, hto]⟩
    · rintro ⟨rfl, c, hc, hkey⟩
      obtain ⟨hty, hfrom, hto⟩ :
          c.edgeType = .consumes ∧ c.fromId = process ∧ c.toId = entityNodeId d := by
        simpa [edgeKey] using hkey
      refine ⟨⟨.blockedBy, process, errorNodeId d, d.ts⟩, ?_, rfl⟩
      rw [mem_assertedEdges_blockedBy rfl]
      exact ⟨herror, c, hc, hty, hto, by rw [hfrom]⟩
  unfold HasEdge
  rw [← hafter.mem_edgeIndex, ← hg.mem_edgeIndex, handle_edgeStore,
    EdgeStore.mem_edgeIndex_upsertEdges, hasserted]
  rfl

end Assertions

/-- Every binding and every blame of the graph goes back to events of the
run. -/
structure Accounted (events : List Event) (g : StateGraph F) : Prop where
  consumes : ∀ e ∈ g.edges, e.edgeType = .consumes → ∃ c ∈ events, c.Binds e.fromId e.toId
  blockedBy : ∀ e ∈ g.edges, e.edgeType = .blockedBy → BlameEvidence events e.fromId e.toId

section Runs

variable [FloatArith F]

theorem accounted_applyEvent {events : List Event} {g : StateGraph F}
    (hg : g.Accounted events) (event : Event) :
    (g.applyEvent event).Accounted (events ++ [event]) := by
  -- the cleanup only removes edges, so the edges are those the handler left
  have hedges : ∀ e ∈ (g.applyEvent event).edges, e ∈ (g.handle event).edges := by
    intro e he
    rw [applyEvent_edgeStore] at he
    exact edges_of_periodicCleanup he
  refine ⟨?_, ?_⟩
  · intro e he hty
    rcases (mem_handle_of_consumes hty).mp (hedges e he) with hold | ⟨hnew, _⟩
    · obtain ⟨c, hc, hbinds⟩ := hg.consumes e hold hty
      exact ⟨c, List.mem_append_left _ hc, hbinds⟩
    · exact ⟨event, by simp, binds_of_mem_bindingEdge hnew⟩
  · intro e he hty
    have hhandled := hedges e he
    rw [handle_edgeStore] at hhandled
    rcases EdgeStore.mem_upsertEdges hhandled with hold | hnew
    · exact (hg.blockedBy e hold hty).concat event
    · obtain ⟨herror, b, hb, hbty, hbto, rfl⟩ := (mem_assertedEdges_blockedBy hty).mp hnew
      -- the edge was derived from a binding, which has its own compute event
      obtain ⟨c, hc, hbinds⟩ := hg.consumes b hb hbty
      rw [hbto] at hbinds
      exact evidence_of_binds hc hbinds herror

theorem accounted_after (events : List Event) :
    (after events : StateGraph F).Accounted events := by
  induction events using List.reverseRecOn with
  | nil =>
    constructor <;> simp [after, new, EdgeStore.empty]
  | append_singleton events event ih =>
    rw [after_concat]
    exact accounted_applyEvent ih event

/-- **No false blame.**  In every state a run reaches, a `BlockedBy` edge has its
compute event and its later error event in the run.  Handling an error event
blocks the processes that consume its entity and no other one; the cleanup and
the signal update that follow in the same call add no edge, and where no
cleanup is due they remove none.  A cleanup that is due removes those of the
edges that it does not spare, whose error has expired, whose process is dead or
whose lifetime is over, and the oldest ones of a graph that is full. -/
theorem blockedBy_accounted (events : List Event) :
    (∀ e ∈ (after events : StateGraph F).edges, e.edgeType = .blockedBy →
      ∃ before c between d later,
        events = before ++ c :: between ++ d :: later ∧
        (c.eventType = .computeUtil ∨ c.eventType = .computeMem) ∧
        (∃ pid ∈ c.pid, e.fromId = pidNodeId c pid) ∧
        (d.eventType = .errorHw ∨ d.eventType = .errorNet ∨ d.eventType = .topoLinkDown) ∧
        e.toId = errorNodeId d ∧
        entityNodeId c = entityNodeId d) ∧
    ∀ before d later, events = before ++ d :: later →
      (d.eventType = .errorHw ∨ d.eventType = .errorNet ∨ d.eventType = .topoLinkDown) →
      ∀ p x,
        let g : StateGraph F := after before
        let blamed : Prop := g.HasEdge ⟨.blockedBy, p, x⟩ ∨
          (x = errorNodeId d ∧ g.HasEdge ⟨.consumes, p, entityNodeId d⟩)
        ((g.handle d).HasEdge ⟨.blockedBy, p, x⟩ ↔ blamed) ∧
        ((g.applyEvent d).HasEdge ⟨.blockedBy, p, x⟩ → blamed) ∧
        (g.shouldCleanup d.ts = false →
          ((g.applyEvent d).HasEdge ⟨.blockedBy, p, x⟩ ↔ blamed)) ∧
        (g.shouldCleanup d.ts = true →
          ∀ e ∈ (g.handle d).edges, edgeKey e = ⟨.blockedBy, p, x⟩ →
            (¬ (g.handle d).Spares d.ts e → e ∉ (g.applyEvent d).edges) ∧
            ((g.handle d).Spares d.ts e → e ∈ (g.applyEvent d).edges ∨
              ((g.applyEvent d).edges.length = maxEdges ∧
                ∀ kept ∈ (g.applyEvent d).edges, e.ts ≤ kept.ts))) := by
  have herror_iff : ∀ d : Event, d.eventType.isError = true ↔
      d.eventType = .errorHw ∨ d.eventType = .errorNet ∨ d.eventType = .topoLinkDown := by
    intro d
    cases d.eventType <;> simp [EventType.isError]
  refine ⟨?_, ?_⟩
  · intro e he hty
    obtain ⟨before, c, between, d, later, hsplit, ⟨hcompute, ⟨pid, hpid, hfrom⟩, hentity⟩,
      herror, hto⟩ := (accounted_after events).blockedBy e he hty
    exact ⟨before, c, between, d, later, hsplit, hcompute, ⟨pid, hpid, hfrom.symm⟩,
      (herror_iff d).mp herror, hto.symm, hentity⟩
  · intro before d later _ herror p x g blamed
    have hhandle : (g.handle d).HasEdge ⟨.blockedBy, p, x⟩ ↔ blamed :=
      hasEdge_blockedBy_handle (consistent_after before) ((herror_iff d).mpr herror) p x
    refine ⟨hhandle, ?_, ?_, ?_⟩
    · rintro ⟨e, he, hkey⟩
      rw [applyEvent_edgeStore] at he
      exact hhandle.mp ⟨e, edges_of_periodicCleanup he, hkey⟩
    · intro hnotDue
      have hsame : ((g.handle d).periodicCleanup d.ts) = g.handle d := by
        simp [periodicCleanup, hnotDue]
      rw [← hhandle]
      unfold HasEdge
      rw [applyEvent_edgeStore, hsame]
    · intro hdue e he _
      have hclean : (g.applyEvent d).edges = ((g.handle d).cleanupOldErrors d.ts).edges := by
        rw [applyEvent_edgeStore, periodicCleanup, handle_shouldCleanup, if_pos hdue]
      rw [hclean]
      exact mem_edges_cleanupOldErrors (g.handle d) d.ts he

end Runs

end StateGraph

end ArkInfra
