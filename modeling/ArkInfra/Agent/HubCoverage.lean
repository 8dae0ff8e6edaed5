import ArkInfra.Agent.Forwarder
import ArkInfra.Core.ProcessLife
import Mathlib.Tactic.MkIffOfInductiveProp

/-!
# Does the hub know what the agent knows?

The hub answers questions about a process from the `consumes` edges it was
told of, so its graph should contain every binding of the graph of the agent
(`Covers`).  The forwarder sends a binding once and remembers it for ever,
while both graphs forget bindings, each at its own cleanups.  A binding that
returns after it was forgotten is not sent again, and the hub never hears of
it.

`KeepsUp` is a condition on the events, each in the state in which it arrives,
that excludes this and the ways in which the hub forgets earlier than the
agent.  `Tracks` is the invariant it preserves: the records of the hub outlive
those of the agent, and the hub has a copy of every binding of the agent.
-/

namespace ArkInfra

open StateGraph

/-- An edge of the agent as it stands in the graph of the hub. -/
def stampEdge (nodeId : String) (e : Edge) : Edge :=
  { e with
    fromId := nodeId ++ "::" ++ e.fromId
    toId := nodeId ++ "::" ++ e.toId }

namespace Deployment

variable {F : Type}

/-- The hub has every binding of the agent, behind the id of the node. -/
def Covers (s : Deployment F) (nodeId : String) : Prop :=
  ∀ e ∈ s.agent.edges, e.edgeType = .consumes →
    ∃ h ∈ s.hub.edges, h.edgeType = .consumes ∧
      h.fromId = nodeId ++ "::" ++ e.fromId ∧
      h.toId = nodeId ++ "::" ++ e.toId

instance (s : Deployment F) (nodeId : String) : Decidable (s.Covers nodeId) :=
  inferInstanceAs (Decidable (∀ e ∈ _, _))

section Condition

variable [FloatArith F]

/-- The hub can keep up with the event.

* The entity is not named like a process.
* A binding that is new to the graph of the agent is news to the forwarder,
  and new to the hub.
* A process that the event creates in the graph of the agent is unknown to the
  hub.
* When the event is forwarded and a cleanup of the hub is due, the hub has room
  for the edges the event adds, and the cleanup of the agent is due as well or
  would remove none of its bindings. -/
@[mk_iff]
structure KeepsUp (s : Deployment F) (event : Event) : Prop where
  entity : NotPid event.entityId
  binding : ∀ e ∈ bindingEdge event, edgeKey e ∉ s.agent.edgeIndex →
    (∀ pid ∈ event.pid, s.forwarder.IsNews event pid) ∧
      edgeKey (stampEdge s.forwarder.nodeId e) ∉ s.hub.edgeIndex
  process : ∀ x ∈ procOp F event, x.2.isEnsure = true →
    s.agent.nodes.lookup (pidId none x.1) = none →
    s.hub.nodes.lookup (pidId (some s.forwarder.nodeId) x.1) = none
  room : (s.forwarder.shouldForward event).2 = true → s.hub.shouldCleanup event.ts = true →
    s.hub.edges.length +
      (assertedEdges F s.hub.edges (Forwarder.stamp s.forwarder.nodeId event)).length ≤ maxEdges
  cleanup : (s.forwarder.shouldForward event).2 = true → s.hub.shouldCleanup event.ts = true →
    s.agent.shouldCleanup event.ts = true ∨
      ∀ e ∈ (s.agent.handle event).edges, e.edgeType = .consumes →
        (s.agent.handle event).Lasting event.ts e

instance (s : Deployment F) (event : Event) : Decidable (s.KeepsUp event) :=
  decidable_of_iff _ (keepsUp_iff s event).symm

end Condition

end Deployment

section Stamping

variable {nodeId : String} {event : Event}

@[simp] theorem stamp_ts : (Forwarder.stamp nodeId event).ts = event.ts := by
  rfl

@[simp] theorem stamp_nodeId : (Forwarder.stamp nodeId event).nodeId = some nodeId := by
  rfl

theorem bindingEdge_stamp (hlocal : event.nodeId = none) :
    bindingEdge (Forwarder.stamp nodeId event) =
      (bindingEdge event).map (stampEdge nodeId) := by
  cases hty : event.eventType <;> cases hpid : event.pid <;>
    simp [bindingEdge, Forwarder.stamp, hty, hpid, stampEdge, pidNodeId, entityNodeId,
      namespaceNodeId, hlocal]

theorem isBinding_stamp {e : Edge} (h : IsBinding none e) :
    IsBinding (some nodeId) (stampEdge nodeId e) where
  consumes := h.consumes
  source := by
    obtain ⟨pid, hpid⟩ := h.source
    refine ⟨pid, ?_⟩
    change nodeId ++ "::" ++ e.fromId = nodeId ++ "::" ++ ("pid-" ++ toString pid)
    rw [hpid]
    rfl
  target := by
    rintro ⟨pid, hpid⟩
    refine h.target ⟨pid, ?_⟩
    simpa [stampEdge, pidId] using hpid

/-- The copy of a lasting binding is lasting when the record of its process
outlives the one of the agent. -/
theorem lasting_stamp {F : Type} {agent hub : StateGraph F} {ts pid : Nat} {p : Proc} {e : Edge}
    (hlasting : agent.Lasting ts e) (hfrom : e.fromId = pidId none pid)
    (hp : p ∈ agent.procAt (pidId none pid))
    (houtlives :
      Outlives (hub.procAt (pidId (some nodeId) pid)) (agent.procAt (pidId none pid))) :
    hub.Lasting ts (stampEdge nodeId e) := by
  refine ⟨hlasting.1, ?_⟩
  intro q hq hdead
  have hcopy : (stampEdge nodeId e).fromId = pidId (some nodeId) pid := by
    simp [stampEdge, hfrom, pidId]
  rw [hcopy] at hq
  exact hlasting.2 p (by rw [hfrom]; exact hp) (houtlives.dead hp hq hdead)

end Stamping

namespace Deployment

variable {F : Type}

/-- What the deployment maintains as long as the hub keeps up: up to the time
`now`, the records of the hub outlive those of the agent, and the hub has a copy
of every binding of the agent. -/
structure Tracks (nodeId : String) (now : Nat) (s : Deployment F) : Prop where
  nodeId_eq : s.forwarder.nodeId = nodeId
  agent_typed : s.agent.PidTyped none
  hub_typed : s.hub.PidTyped (some nodeId)
  outlives : ∀ pid,
    Outlives (s.hub.procAt (pidId (some nodeId) pid)) (s.agent.procAt (pidId none pid))
  updated : ∀ pid, ∀ p ∈ s.agent.procAt (pidId none pid), p.lastUpdate ≤ now
  bindings : ∀ e ∈ s.agent.edges, e.edgeType = .consumes →
    IsBinding none e ∧ (s.agent.procAt e.fromId).isSome = true ∧
      stampEdge nodeId e ∈ s.hub.edges

theorem Tracks.covers {nodeId : String} {now : Nat} {s : Deployment F}
    (h : s.Tracks nodeId now) : s.Covers nodeId := by
  intro e he hc
  exact ⟨stampEdge nodeId e, (h.bindings e he hc).2.2, hc, rfl, rfl⟩

theorem tracks_start (nodeId : String) : (start nodeId : Deployment F).Tracks nodeId 0 where
  nodeId_eq := rfl
  agent_typed := pidTyped_new none
  hub_typed := pidTyped_new (some nodeId)
  outlives := fun _ => Outlives.of_none _
  updated := by
    intro pid p hp
    cases hp
  bindings := by simp [start, StateGraph.new, EdgeStore.empty]

section Steps

variable [FloatArith F]

/-- The hub after the delivery, before its cleanup. -/
def heard (s : Deployment F) (event : Event) : StateGraph F :=
  if (s.forwarder.shouldForward event).2 then
    s.hub.handle (Forwarder.stamp s.forwarder.nodeId event)
  else
    s.hub

theorem heard_of_forwarded {s : Deployment F} {event : Event}
    (h : (s.forwarder.shouldForward event).2 = true) :
    s.heard event = s.hub.handle (Forwarder.stamp s.forwarder.nodeId event) := by
  simp [heard, h]

theorem heard_of_withheld {s : Deployment F} {event : Event}
    (h : ¬ (s.forwarder.shouldForward event).2 = true) : s.heard event = s.hub := by
  simp [heard, h]

variable {s : Deployment F} {nodeId : String} {now : Nat} {event : Event}

theorem outlives_heard (ht : s.Tracks nodeId now) (hlocal : event.nodeId = none)
    (hts : now ≤ event.ts) (hk : s.KeepsUp event) (pid : Nat) :
    Outlives ((s.heard event).procAt (pidId (some nodeId) pid))
      ((s.agent.handle event).procAt (pidId none pid)) := by
  have hprocess := hk.process
  rw [ht.nodeId_eq] at hprocess
  have hnew : ∀ x ∈ procOp F event, x.1 = pid → x.2.isEnsure = true →
      s.agent.procAt (pidId none pid) = none →
      s.hub.procAt (pidId (some nodeId) pid) = none := by
    rintro x hx rfl hensure hnone
    exact Option.map_eq_none_iff.mpr
      (hprocess x hx hensure (Option.map_eq_none_iff.mp hnone))
  rw [procAt_handle s.agent hlocal hk.entity]
  by_cases hfwd : (s.forwarder.shouldForward event).2 = true
  · rw [heard_of_forwarded hfwd, ht.nodeId_eq, procAt_handle s.hub stamp_nodeId hk.entity]
    exact (ht.outlives pid).effectOn (procOp_valid F event)
      (fun p hp => (ht.updated pid p hp).trans hts) hnew
  · have hmention := Forwarder.procOp_of_withheld (Bool.eq_false_iff.mpr hfwd)
    rw [heard_of_withheld hfwd]
    refine (ht.outlives pid).effectOn_own hmention ?_
    intro x hx hpid
    exact hnew x hx hpid (by rw [hmention x hx]; rfl)

theorem forwarded_of_news {f : Forwarder F} {e : Edge} (he : e ∈ bindingEdge event)
    (hnews : ∀ pid ∈ event.pid, f.IsNews event pid) :
    (f.shouldForward event).2 = true := by
  unfold bindingEdge at he
  unfold Forwarder.shouldForward
  cases hty : event.eventType <;> simp only [hty] at he ⊢ <;>
    first
    | cases he
    | obtain ⟨pid, hpid, _⟩ := Option.map_eq_some_iff.mp he
      exact (f.forwardCompute_iff hpid).mpr (hnews pid hpid)

/-- The hub has heard of every binding the agent has after handling the
event. -/
theorem bindings_heard (ht : s.Tracks nodeId now) (hlocal : event.nodeId = none)
    (hk : s.KeepsUp event) {e : Edge} (hc : e.edgeType = .consumes)
    (he : e ∈ (s.agent.handle event).edges) :
    IsBinding none e ∧ ((s.agent.handle event).procAt e.fromId).isSome = true ∧
      stampEdge nodeId e ∈ (s.heard event).edges := by
  have hcopyType : (stampEdge nodeId e).edgeType = .consumes := hc
  rcases (mem_handle_of_consumes hc).mp he with hold | ⟨hnew, hkey⟩
  · obtain ⟨hbinding, hpresent, hcopy⟩ := ht.bindings e hold hc
    refine ⟨hbinding, ?_, ?_⟩
    · unfold procAt at hpresent ⊢
      rw [Option.isSome_map] at hpresent ⊢
      rw [lookup_handle]
      exact NodeWrite.isSome_effectAt hpresent
    · by_cases hfwd : (s.forwarder.shouldForward event).2 = true
      · rw [heard_of_forwarded hfwd]
        exact (mem_handle_of_consumes hcopyType).mpr (Or.inl hcopy)
      · rw [heard_of_withheld hfwd]
        exact hcopy
  · obtain ⟨hnews, hfresh⟩ := hk.binding e hnew hkey
    rw [ht.nodeId_eq] at hfresh
    obtain ⟨hbinding, _, hpresent⟩ := isBinding_of_mem_bindingEdge s.agent hlocal hk.entity hnew
    refine ⟨hbinding, hpresent, ?_⟩
    rw [heard_of_forwarded (forwarded_of_news hnew hnews), ht.nodeId_eq]
    refine (mem_handle_of_consumes hcopyType).mpr (Or.inr ⟨?_, hfresh⟩)
    rw [bindingEdge_stamp hlocal]
    exact Option.mem_map_of_mem _ hnew

theorem present_step (ht : s.Tracks nodeId now) (hlocal : event.nodeId = none)
    (hentity : NotPid event.entityId) {pid : Nat} {p : Proc}
    (hp : p ∈ (s.agent.handle event).procAt (pidId none pid))
    (halive : s.agent.shouldCleanup event.ts = true → ¬ p.Dead (event.ts - processTtlMs)) :
    ((s.step event).agent.procAt (pidId none pid)).isSome = true := by
  rw [step_agent, procAt_applyEvent ht.agent_typed hlocal hentity]
  split_ifs with hdue
  · exact Option.isSome_iff_exists.mpr ⟨p, Proc.mem_survivor.mpr ⟨hp, halive hdue⟩⟩
  · exact Option.isSome_iff_exists.mpr ⟨p, hp⟩

theorem bindings_step (ht : s.Tracks nodeId now) (hlocal : event.nodeId = none)
    (hts : now ≤ event.ts) (hk : s.KeepsUp event) {e : Edge}
    (hc : e.edgeType = .consumes) (he : e ∈ (s.step event).agent.edges) :
    IsBinding none e ∧ ((s.step event).agent.procAt e.fromId).isSome = true ∧
      stampEdge nodeId e ∈ (s.step event).hub.edges := by
  have hagent := pidTyped_handle ht.agent_typed hlocal hk.entity
  rw [step_agent, applyEvent_edgeStore] at he
  obtain ⟨hmem, hkept⟩ := lasting_of_mem_periodicCleanup hagent he
  obtain ⟨hbinding, hpresent, hheard⟩ := bindings_heard ht hlocal hk hc hmem
  have hkept := hkept hbinding
  rw [handle_shouldCleanup] at hkept
  obtain ⟨pid, hfrom⟩ := hbinding.source
  obtain ⟨p, hp⟩ := Option.isSome_iff_exists.mp hpresent
  have hpid : p ∈ (s.agent.handle event).procAt (pidId none pid) := by
    rw [← hfrom]
    exact hp
  refine ⟨hbinding, ?_, ?_⟩
  · rw [hfrom]
    exact present_step ht hlocal hk.entity hpid fun hdue => (hkept hdue).2 p hp
  have houtlives := outlives_heard ht hlocal hts hk pid
  by_cases hfwd : (s.forwarder.shouldForward event).2 = true
  · rw [heard_of_forwarded hfwd, ht.nodeId_eq] at hheard houtlives
    rw [step_hub_of_forwarded hfwd, ht.nodeId_eq, applyEvent_edgeStore]
    refine mem_periodicCleanup_of_lasting (pidTyped_handle ht.hub_typed stamp_nodeId hk.entity)
      (isBinding_stamp hbinding) hheard ?_
    rw [handle_shouldCleanup, stamp_ts]
    intro hdue
    -- the binding would outlast a cleanup of the agent, so it outlasts this one
    have hlasting : (s.agent.handle event).Lasting event.ts e := by
      rcases hk.cleanup hfwd hdue with hagentDue | hlasting
      · exact hkept hagentDue
      · exact hlasting e hmem hc
    have hroom := hk.room hfwd hdue
    rw [ht.nodeId_eq] at hroom
    exact ⟨lasting_stamp hlasting hfrom hpid houtlives, (length_handle_edges _ _).trans hroom⟩
  · rw [heard_of_withheld hfwd] at hheard
    rw [step_hub_of_withheld hfwd]
    exact hheard

/-- The records of the agent are filtered by its cleanup, and those of the hub
by its own. -/
theorem outlives_step (ht : s.Tracks nodeId now) (hlocal : event.nodeId = none)
    (hts : now ≤ event.ts) (hk : s.KeepsUp event) (pid : Nat) :
    Outlives ((s.step event).hub.procAt (pidId (some nodeId) pid))
      ((s.step event).agent.procAt (pidId none pid)) := by
  have hheard := outlives_heard ht hlocal hts hk pid
  have hagent : Outlives ((s.heard event).procAt (pidId (some nodeId) pid))
      ((s.step event).agent.procAt (pidId none pid)) := by
    rw [step_agent, procAt_applyEvent ht.agent_typed hlocal hk.entity]
    split_ifs
    · exact hheard.survivor_own _
    · exact hheard
  by_cases hfwd : (s.forwarder.shouldForward event).2 = true
  · rw [heard_of_forwarded hfwd, ht.nodeId_eq] at hagent
    rw [step_hub_of_forwarded hfwd, ht.nodeId_eq,
      procAt_applyEvent ht.hub_typed stamp_nodeId hk.entity]
    split_ifs
    · exact hagent.survivor_kept _
    · exact hagent
  · rw [heard_of_withheld hfwd] at hagent
    rw [step_hub_of_withheld hfwd]
    exact hagent

theorem updated_step (ht : s.Tracks nodeId now) (hlocal : event.nodeId = none)
    (hts : now ≤ event.ts) (hentity : NotPid event.entityId) (pid : Nat) :
    ∀ p ∈ (s.step event).agent.procAt (pidId none pid), p.lastUpdate ≤ event.ts := by
  have hold : ∀ p ∈ s.agent.procAt (pidId none pid), p.lastUpdate ≤ event.ts :=
    fun p hp => (ht.updated pid p hp).trans hts
  have hhandle : ∀ p ∈ (s.agent.handle event).procAt (pidId none pid),
      p.lastUpdate ≤ event.ts := by
    rw [procAt_handle s.agent hlocal hentity]
    exact ProcOp.effectOn_induction (P := fun o => ∀ p ∈ o, p.lastUpdate ≤ event.ts) hold
      fun x _ _ => ProcOp.lastUpdate_effect hold
  rw [step_agent, procAt_applyEvent ht.agent_typed hlocal hentity]
  split_ifs
  · intro p hp
    exact hhandle p (Proc.mem_survivor.mp hp).1
  · exact hhandle

/-- **One step keeps the invariant** when the hub keeps up with the event. -/
theorem tracks_step (ht : s.Tracks nodeId now) (hlocal : event.nodeId = none)
    (hts : now ≤ event.ts) (hk : s.KeepsUp event) :
    (s.step event).Tracks nodeId event.ts where
  nodeId_eq := by simp [step, ht.nodeId_eq]
  agent_typed := pidTyped_applyEvent ht.agent_typed hlocal hk.entity
  hub_typed := by
    by_cases hfwd : (s.forwarder.shouldForward event).2 = true
    · rw [step_hub_of_forwarded hfwd, ht.nodeId_eq]
      exact pidTyped_applyEvent ht.hub_typed stamp_nodeId hk.entity
    · rw [step_hub_of_withheld hfwd]
      exact ht.hub_typed
  outlives := outlives_step ht hlocal hts hk
  updated := updated_step ht hlocal hts hk.entity
  bindings := fun _ he hc => bindings_step ht hlocal hts hk hc he

end Steps

section Runs

variable [FloatArith F]

theorem tracks_run {nodeId : String} {events : List Event}
    (hlocal : ∀ event ∈ events, event.nodeId = none) (hord : Ordered events)
    (h : Run.Meets step KeepsUp (start nodeId : Deployment F) events) :
    (Run.run step (start nodeId : Deployment F) events).Tracks nodeId (lastTs events) := by
  induction events using List.reverseRecOn with
  | nil =>
    exact tracks_start nodeId
  | append_singleton events event ih =>
    obtain ⟨hbefore, hlast⟩ := Run.meets_append.mp h
    have htracks := ih (fun x hx => hlocal x (List.mem_append_left _ hx))
      (hord.sublist (List.sublist_append_left _ _)) hbefore
    rw [Run.run_concat, lastTs_concat]
    exact tracks_step htracks (hlocal event (by simp)) (lastTs_le hord) hlast.1

/-- **The hub covers the agent as long as it keeps up.**  In every run of local
events with nondecreasing timestamps whose events all meet the condition, the
hub has every binding of the agent after every step. -/
theorem covers_of_keepsUp (nodeId : String) (events : List Event)
    (hlocal : ∀ event ∈ events, event.nodeId = none) (hord : Ordered events)
    (h : Run.Meets step KeepsUp (start nodeId : Deployment F) events) :
    ∀ seen rest, events = seen ++ rest →
      (Run.run step (start nodeId : Deployment F) seen).Covers nodeId := by
  rintro seen rest rfl
  have hseen := (Run.meets_append.mp h).1
  exact (tracks_run (fun x hx => hlocal x (List.mem_append_left _ hx))
    (hord.sublist (List.sublist_append_left _ _)) hseen).covers

/-- A process is bound to a resource that fails, ends, and is forgotten by both
sides when another process is bound.  The error reaches the hub when only its
own cleanup is due. -/
theorem covers_of_keepsUp_secondProcess :
    let events : List Event :=
      [⟨1000, .computeUtil, "gpu-0", none, some 7, "95", none⟩,
        ⟨32000, .computeUtil, "gpu-0", none, some 7, "96", none⟩,
        ⟨40000, .errorHw, "gpu-0", none, none, "XID_79", none⟩,
        ⟨50000, .processState, "proc-7", none, some 7, "exit", none⟩,
        ⟨75000, .computeUtil, "gpu-1", none, some 8, "50", none⟩]
    (∀ seen rest, events = seen ++ rest →
      (Run.run step (start "node-a" : Deployment Binary64) seen).Covers "node-a") ∧
    (Run.run step (start "node-a" : Deployment Binary64) events).agent.edges.length = 1 := by
  refine ⟨covers_of_keepsUp _ _ (by decide) (by decide) (by decide), by decide⟩

/-- **A binding that returns is not sent again.**  Process 7 uses `gpu-0`, is
reported to have ended, and uses `gpu-0` once more.  Both graphs have dropped
the first binding by then; the agent records the second, and the forwarder,
which remembers the first, withholds it. -/
theorem covers_reusedPid :
    let events : List Event :=
      [⟨1000, .computeUtil, "gpu-0", none, some 7, "95", none⟩,
        ⟨32000, .processState, "proc-7", none, some 7, "exit", none⟩,
        ⟨33000, .computeUtil, "gpu-0", none, some 7, "95", none⟩]
    let s : Deployment Binary64 := Run.run step (start "node-a") events
    Ordered events ∧ (∀ event ∈ events, event.nodeId = none) ∧
    s.agent.getProcessResources 7 = ["gpu-0"] ∧ s.hub.edges = [] ∧
    ¬ s.Covers "node-a" := by
  decide

end Runs

end Deployment

end ArkInfra
