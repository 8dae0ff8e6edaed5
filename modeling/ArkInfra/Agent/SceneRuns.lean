import ArkInfra.Agent.Scene
import ArkInfra.Core.Blame
import ArkInfra.Core.Metadata
import ArkInfra.Core.NodeKinds
import ArkInfra.Core.ProcessExit
import ArkInfra.Lib.Binary64

/-!
# Scenes over whole runs

The identifier of scenes was written against a graph with many kinds of
metadata.  The graph it is given is the one that the handlers build, so what it
can name is decided by the events of the run.

`SceneEvidence` says what the events must contain for each scene.  Five of the
eleven scenes have such evidence, and in every state a run reaches the
identifier names nothing without it (`identifyScene_after`): blocked processes
and neural processors in bad health are never seen, since no handler writes
what the identifier looks for.  The processes of events that carry a node id
are stored under other names than the one the identifier looks up, so on a
graph of such events it finds nothing at all.
-/

namespace ArkInfra

/-- The transport event says that the process waits for the resource. -/
def Event.ReportsWait (F : Type) [FloatArith F] (c : Event) (process resource : String) : Prop :=
  ∃ p ∈ waitingProcess F c,
    pidNodeId c p.1 = process ∧ namespaceNodeId c (transportResourceBase c) = resource

namespace StateGraph

variable {F : Type} [FloatArith F]

theorem reportsWait_of_mem_assertedEdges {edges : List Edge} {event : Event} {e : Edge}
    (h : e ∈ assertedEdges F edges event) (hwaits : e.edgeType = .waitsOn) :
    event.ReportsWait F e.fromId e.toId := by
  cases hty : event.eventType with
  | processState | intentRun | actionExec =>
    simp [assertedEdges, hty] at h
  | computeUtil | computeMem =>
    simp only [assertedEdges, hty] at h
    cases hpid : event.pid with
    | none =>
      simp [hpid] at h
    | some pid =>
      simp only [hpid, List.mem_singleton] at h
      rw [h] at hwaits
      cases hwaits
  | transportBw | transportDrop | storageIops | storageQDepth =>
    simp only [assertedEdges, hty] at h
    cases hw : waitingProcess F event with
    | none =>
      simp [hw] at h
    | some p =>
      simp only [hw, List.mem_singleton] at h
      rw [h]
      exact ⟨p, hw, rfl, rfl⟩
  | errorHw | errorNet | topoLinkDown =>
    simp only [assertedEdges, hty, List.mem_map] at h
    obtain ⟨c, _, rfl⟩ := h
    cases hwaits

/-- **Every wait goes back to an event of the run.** -/
theorem reportsWait_after (events : List Event) {e : Edge}
    (he : e ∈ (after events : StateGraph F).edges) (hwaits : e.edgeType = .waitsOn) :
    ∃ c ∈ events, c.ReportsWait F e.fromId e.toId := by
  induction events using List.reverseRecOn with
  | nil =>
    simp [after, new, EdgeStore.empty] at he
  | append_singleton events event ih =>
    rw [after_concat, applyEvent_edgeStore] at he
    have hhandled := edges_of_periodicCleanup he
    rw [handle_edgeStore] at hhandled
    rcases EdgeStore.mem_upsertEdges hhandled with hold | hnew
    · obtain ⟨c, hc, hreports⟩ := ih hold
      exact ⟨c, List.mem_append_left _ hc, hreports⟩
    · exact ⟨event, by simp, reportsWait_of_mem_assertedEdges hnew hwaits⟩

end StateGraph

namespace SceneIdentifier

open StateGraph

/-- What the events of a run must contain for a process to be in a scene. -/
inductive SceneEvidence (F : Type) [FloatArith F] (events : List Event) (process : String) :
    SceneType → Prop
  | gpuOom (error : String) (hblame : BlameEvidence events process error) (hgpu : isGpu error = true)
      (d : Event) (hd : d ∈ events) (herror : d.eventType.isError = true)
      (hid : errorNodeId d = error) (hoom : isOom d.value = true) :
      SceneEvidence F events process .gpuOom
  | gpuError (error : String) (hblame : BlameEvidence events process error)
      (hgpu : isGpu error = true) (d : Event) (hd : d ∈ events)
      (herror : d.eventType.isError = true) (hid : errorNodeId d = error)
      (hhardware : isHardwareError d.value = true) : SceneEvidence F events process .gpuError
  | networkStall (resource : String) (hnetwork : isNetwork resource = true)
      (c : Event) (hc : c ∈ events) (hwait : c.ReportsWait F process resource) :
      SceneEvidence F events process .networkStall
  | processCrash (c : Event) (hc : c ∈ events) (hend : c.Ends process) (hvalue : c.value = "exit") :
      SceneEvidence F events process .processCrash
  | workloadStalled (resource : String) (c : Event) (hc : c ∈ events)
      (hbinds : c.Binds process resource) (u : Event) (hu : u ∈ events)
      (hcompute : u.eventType = .computeUtil ∨ u.eventType = .computeMem)
      (hid : entityNodeId u = resource) (x : F) (hx : FloatArith.parse u.value = some x)
      (hlow : FloatArith.lt x (FloatArith.ofNat 1) = true) :
      SceneEvidence F events process .workloadStalled

section Sources

variable {F : Type} [FloatArith F] {events : List Event} {id value : String}

theorem writes_of_metaOf {key : String}
    (h : (after events : StateGraph F).view.metaOf id key = some value) :
    ∃ event ∈ events, event.Writes id key value := by
  obtain ⟨node, hnode, hlookup⟩ := Option.bind_eq_some_iff.mp h
  exact metadata_after events id node hnode key value hlookup

theorem state_of_writes {event : Event} (h : event.Writes id "state" value) :
    value = "running" ∨ event.Ends id ∧ event.value = value := by
  simpa using h.inv

theorem error_of_writes {event : Event} (h : event.Writes id "error_type" value) :
    event.eventType.isError = true ∧ errorNodeId event = id ∧ event.value = value := by
  simpa using h.inv

theorem util_of_writes {event : Event} (h : event.Writes id "util" value) :
    (event.eventType = .computeUtil ∨ event.eventType = .computeMem) ∧
      entityNodeId event = id ∧ event.value = value := by
  simpa using h.inv

theorem exists_idle_of_isStalled {v : GraphView} {target : String} {words : List String}
    (h : (v.load F target words).isStalled = true) :
    ∃ e ∈ v.edgesOf target .consumes, ∃ x : F, v.numberOf F e.toId "util" = some x ∧
      FloatArith.lt x (FloatArith.ofNat 1) = true := by
  simp only [GraphView.Load.isStalled, GraphView.load, Bool.and_eq_true] at h
  obtain ⟨⟨hsome, hall⟩, _⟩ := h
  obtain ⟨e, he⟩ := List.exists_mem_of_length_pos (of_decide_eq_true hsome)
  have hlow := List.countP_eq_length.mp (of_decide_eq_true hall) e he
  refine ⟨e, he, ?_⟩
  cases hnumber : v.numberOf F e.toId "util" with
  | none =>
    simp [hnumber] at hlow
  | some x =>
    simp only [hnumber, Option.map_some, Option.getD_some] at hlow
    exact ⟨x, rfl, hlow⟩

end Sources

section Runs

variable {F : Type} [FloatArith F] {events : List Event} {pid : Nat} {scene : SceneType}

theorem error_after {e : Edge}
    (he : e ∈ (after events : StateGraph F).view.edgesOf (pidStr pid) .blockedBy) {node : Node}
    (hnode : (after events : StateGraph F).view.nodes.lookup e.toId = some node)
    {errorType : String} (htype : node.metadata.lookup "error_type" = some errorType) :
    BlameEvidence events (pidStr pid) node.id ∧
      ∃ d ∈ events, d.eventType.isError = true ∧ errorNodeId d = node.id ∧
        d.value = errorType := by
  obtain ⟨hmem, hfrom, hblocked⟩ := GraphView.mem_edgesOf.mp he
  have hid : node.id = e.toId := keyed_after events e.toId node hnode
  have hblame := (accounted_after events).blockedBy e hmem hblocked
  rw [hfrom, ← hid] at hblame
  obtain ⟨d, hd, hwrites⟩ := metadata_after events e.toId node hnode _ _ htype
  obtain ⟨herror, hnodeId, hvalue⟩ := error_of_writes hwrites
  exact ⟨hblame, d, hd, herror, by rw [hnodeId, hid], hvalue⟩

/-- **A scene has its evidence in the run.** -/
theorem evidence_of_found (h : Found F (after events : StateGraph F).view pid scene) :
    SceneEvidence F events (pidStr pid) scene := by
  cases h with
  | gpuOom e he node hnode hgpu errorType htype hoom =>
    obtain ⟨hblame, d, hd, herror, hid, rfl⟩ := error_after he hnode htype
    exact .gpuOom node.id hblame hgpu d hd herror hid hoom
  | gpuError e he node hnode hgpu errorType htype herror =>
    obtain ⟨hblame, d, hd, hisError, hid, rfl⟩ := error_after he hnode htype
    exact .gpuError node.id hblame hgpu d hd hisError hid herror
  | npuSubhealth e he node hnode key hkey value hvalue =>
    -- neither name is ever written
    have hnever : key ∉ writtenKeys := by
      rcases hkey with rfl | rfl <;> decide
    rw [metadata_key_after hnode hnever] at hvalue
    cases hvalue
  | networkStall e he hnetwork =>
    obtain ⟨hmem, hfrom, hwaits⟩ := GraphView.mem_edgesOf.mp he
    obtain ⟨c, hc, hreports⟩ := reportsWait_after events hmem hwaits
    rw [hfrom] at hreports
    exact .networkStall e.toId hnetwork c hc hreports
  | processCrash state hstate hcrash =>
    obtain ⟨c, hc, hwrites⟩ := writes_of_metaOf hstate
    rcases state_of_writes hwrites with rfl | ⟨hend, rfl⟩
    · exact absurd hcrash (by decide)
    · have hvalue : c.value = "exit" := by
        rcases hend.2.1 with hexit | hzombie
        · exact hexit
        · rw [hzombie] at hcrash
          exact absurd hcrash (by decide)
      exact .processCrash c hc hend hvalue
  | processBlocked state hstate hblocked =>
    obtain ⟨c, hc, hwrites⟩ := writes_of_metaOf hstate
    rcases state_of_writes hwrites with rfl | ⟨hend, rfl⟩
    · exact absurd hblocked (by decide)
    · rcases hend.2.1 with hexit | hzombie
      · rw [hexit] at hblocked
        exact absurd hblocked (by decide)
      · rw [hzombie] at hblocked
        exact absurd hblocked (by decide)
  | workloadStalled hstate hstalled =>
    obtain ⟨e, he, x, hx, hlow⟩ := exists_idle_of_isStalled hstalled
    obtain ⟨hmem, hfrom, hconsumes⟩ := GraphView.mem_edgesOf.mp he
    obtain ⟨c, hc, hbinds⟩ := (accounted_after events).consumes e hmem hconsumes
    rw [hfrom] at hbinds
    obtain ⟨text, htext, hparse⟩ := Option.bind_eq_some_iff.mp hx
    obtain ⟨u, hu, hwrites⟩ := writes_of_metaOf htext
    obtain ⟨hcompute, hid, rfl⟩ := util_of_writes hwrites
    exact .workloadStalled e.toId c hc hbinds u hu hcompute hid x hparse hlow

/-- The name under which the identifier looks a process up is that of a process
without a namespace. -/
theorem nodeId_eq_none {event : Event} {p : Nat} (h : pidNodeId event p = pidStr pid) :
    event.nodeId = none := by
  cases hn : event.nodeId with
  | none =>
    rfl
  | some n =>
    have hcolon : ':' ∈ (pidNodeId event p).toList := by
      simp [pidNodeId, namespaceNodeId, hn]
    rw [h, pidStr, String.toList_append, List.mem_append] at hcolon
    rcases hcolon with hcolon | hcolon
    · exact absurd hcolon (by decide)
    · exact absurd hcolon (colon_notMem_toString pid)

theorem SceneEvidence.exists_local (h : SceneEvidence F events (pidStr pid) scene) :
    ∃ event ∈ events, event.nodeId = none := by
  cases h with
  | gpuOom error hblame hgpu d hd herror hid hoom =>
    obtain ⟨before, c, between, d', later, rfl, ⟨_, ⟨p, _, hp⟩, _⟩, _⟩ := hblame
    exact ⟨c, by simp, nodeId_eq_none hp⟩
  | gpuError error hblame hgpu d hd herror hid hhardware =>
    obtain ⟨before, c, between, d', later, rfl, ⟨_, ⟨p, _, hp⟩, _⟩, _⟩ := hblame
    exact ⟨c, by simp, nodeId_eq_none hp⟩
  | networkStall resource hnetwork c hc hwait =>
    obtain ⟨p, _, hp, _⟩ := hwait
    exact ⟨c, hc, nodeId_eq_none hp⟩
  | processCrash c hc hend hvalue =>
    obtain ⟨_, _, p, _, hp⟩ := hend
    exact ⟨c, hc, nodeId_eq_none hp⟩
  | workloadStalled resource c hc hbinds u hu hcompute hid x hx hlow =>
    obtain ⟨_, ⟨p, _, hp⟩, _⟩ := hbinds
    exact ⟨c, hc, nodeId_eq_none hp⟩

end Runs

/-- **No scene without its events.**  In every state that a run reaches, an
identified scene has its evidence among the events; and when all events carry a
node id, nothing is ever identified. -/
theorem identifyScene_after {F : Type} [FloatArith F] (events : List Event) (pid : Nat) :
    (∀ scene, identifyScene F (after events : StateGraph F).view pid = some scene →
      SceneEvidence F events (pidStr pid) scene) ∧
    ((∀ event ∈ events, event.nodeId.isSome = true) →
      identifyScene F (after events : StateGraph F).view pid = none) := by
  have hevidence : ∀ scene, identifyScene F (after events : StateGraph F).view pid = some scene →
      SceneEvidence F events (pidStr pid) scene := by
    intro scene hscene
    exact evidence_of_found (found_of_identifyScene hscene)
  refine ⟨hevidence, ?_⟩
  intro hnamed
  cases hscene : identifyScene F (after events : StateGraph F).view pid with
  | none =>
    rfl
  | some scene =>
    obtain ⟨event, hmem, hnone⟩ := (hevidence scene hscene).exists_local
    have hsome := hnamed event hmem
    rw [hnone] at hsome
    cases hsome

/-- A device runs out of memory under a process. -/
def oomRun (nodeId : Option String) : List Event :=
  [{ ts := 1000, eventType := .computeUtil, entityId := "gpu-0", jobId := none, pid := some 7,
     value := "80", nodeId := nodeId },
   { ts := 2000, eventType := .errorHw, entityId := "gpu-0", jobId := none, pid := none,
     value := "XID 31 OOM", nodeId := nodeId }]

/-- The error is identified on the node itself, and not when its events carry
the name of the node. -/
theorem oomRun_identified :
    SceneEvidence Binary64 (oomRun none) (pidStr 7) .gpuOom ∧
      identifyScene Binary64 (after (oomRun (some "node-a")) : StateGraph Binary64).view 7 =
        none :=
  ⟨(identifyScene_after (oomRun none) 7).1 .gpuOom (by decide +kernel),
    (identifyScene_after (oomRun (some "node-a")) 7).2 (by decide)⟩

end SceneIdentifier

end ArkInfra
