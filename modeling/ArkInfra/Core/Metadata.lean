import ArkInfra.Core.GraphStep

/-!
# Where metadata comes from

Nodes carry free-form metadata, and whoever reads the graph looks entries up by
name.  Which names can be there at all, and what their values can be, is
decided by the handlers: `Event.Writes` lists the entries an event can write
under an id, and every entry of every state a run reaches was written by an
event of the run (`metadata_after`).  A reader that looks for any other name
looks for something that is never there (`metadata_key_after`).
-/

namespace ArkInfra

/-- The metadata entries that an event can write under an id. -/
inductive Event.Writes (event : Event) (id : String) : String → String → Prop
  | job (jobId : String) (hstart : event.Starts id) (hjob : event.jobId = some jobId) :
      Event.Writes event id "job_id" jobId
  | started (hstart : event.Starts id) : Event.Writes event id "state" "running"
  | waiting (hdrop : event.eventType = .transportDrop) (hpid : 0 < dropPid event)
      (hid : pidNodeId event (dropPid event) = id) : Event.Writes event id "state" "running"
  | ended (hend : event.Ends id) : Event.Writes event id "state" event.value
  | util (hcompute : event.eventType = .computeUtil ∨ event.eventType = .computeMem)
      (hid : entityNodeId event = id) : Event.Writes event id "util" event.value
  | transport (hid : namespaceNodeId event (transportResourceBase event) = id) :
      Event.Writes event id (transportKey event.eventType) event.value
  | error (herror : event.eventType.isError = true) (hid : errorNodeId event = id) :
      Event.Writes event id "error_type" event.value
  | signal (key value : String) (hkey : key ∈ ["unit", "window_ms", "value"]) :
      Event.Writes event id key value

/-- The names of metadata entries that are ever written. -/
def writtenKeys : List String :=
  ["job_id", "state", "util", "bw", "drop", "unknown", "error_type", "unit", "window_ms", "value"]

theorem transportKey_mem (ty : EventType) : transportKey ty ∈ ["bw", "drop", "unknown"] := by
  cases ty <;> decide

theorem Event.Writes.inv {event : Event} {id key value : String}
    (h : event.Writes id key value) :
    key = "job_id" ∨
    (key = "state" ∧ (value = "running" ∨ event.Ends id ∧ event.value = value)) ∨
    (key = "util" ∧ (event.eventType = .computeUtil ∨ event.eventType = .computeMem) ∧
      entityNodeId event = id ∧ event.value = value) ∨
    key ∈ ["bw", "drop", "unknown"] ∨
    (key = "error_type" ∧ event.eventType.isError = true ∧ errorNodeId event = id ∧
      event.value = value) ∨
    key ∈ ["unit", "window_ms", "value"] := by
  cases h with
  | job jobId hstart hjob => exact .inl rfl
  | started hstart => exact .inr (.inl ⟨rfl, .inl rfl⟩)
  | waiting hdrop hpid hid => exact .inr (.inl ⟨rfl, .inl rfl⟩)
  | ended hend => exact .inr (.inl ⟨rfl, .inr ⟨hend, rfl⟩⟩)
  | util hcompute hid => exact .inr (.inr (.inl ⟨rfl, hcompute, hid, rfl⟩))
  | transport hid => exact .inr (.inr (.inr (.inl (transportKey_mem _))))
  | error herror hid => exact .inr (.inr (.inr (.inr (.inl ⟨rfl, herror, hid, rfl⟩))))
  | signal key value hkey => exact .inr (.inr (.inr (.inr (.inr hkey))))

theorem Event.Writes.key_mem {event : Event} {id key value : String}
    (h : event.Writes id key value) : key ∈ writtenKeys := by
  have hinv := h.inv
  simp only [List.mem_cons, List.not_mem_nil, or_false] at hinv
  rcases hinv with rfl | ⟨rfl, _⟩ | ⟨rfl, _⟩ | (rfl | rfl | rfl) | ⟨rfl, _⟩ | rfl | rfl | rfl
  all_goals decide

namespace Node

/-- Every metadata entry of the node was written under the id by an event. -/
def Sourced (events : List Event) (id : String) (node : Node) : Prop :=
  ∀ key value, node.metadata.lookup key = some value → ∃ event ∈ events, event.Writes id key value

theorem Sourced.concat {events : List Event} {id : String} {node : Node}
    (h : node.Sourced events id) (event : Event) : node.Sourced (events ++ [event]) id := by
  intro key value hlookup
  obtain ⟨e, he, hwrites⟩ := h key value hlookup
  exact ⟨e, List.mem_append_left _ he, hwrites⟩

end Node

namespace NodeWrite

/-- The entries that a write brings are written by the event. -/
def Brings (event : Event) (id : String) : NodeWrite → Prop
  | .ensure node => ∀ key value, node.metadata.lookup key = some value → event.Writes id key value
  | .insert node => ∀ key value, node.metadata.lookup key = some value → event.Writes id key value
  | .touch _ key value _ => event.Writes id key value

/-- A write that brings entries of the event keeps every entry accounted for. -/
theorem sourced_effect {events : List Event} {event : Event} {id : String} {w : NodeWrite}
    (hw : w.Brings event id) {o : Option Node}
    (ho : ∀ node ∈ o, node.Sourced (events ++ [event]) id) :
    ∀ node ∈ w.effect o, node.Sourced (events ++ [event]) id := by
  have hmem : event ∈ events ++ [event] := by simp
  intro node hnode key value hlookup
  cases w with
  | ensure new =>
    obtain rfl : o.getD new = node := by simpa [effect] using hnode
    cases o with
    | none => exact ⟨event, hmem, hw key value hlookup⟩
    | some old => exact ho old rfl key value hlookup
  | insert new =>
    obtain rfl : new = node := by simpa [effect] using hnode
    exact ⟨event, hmem, hw key value hlookup⟩
  | touch i key' value' ts =>
    obtain ⟨old, hold, rfl⟩ := Option.map_eq_some_iff.mp hnode
    simp only at hlookup
    rw [HashMap.lookup_insert_ite] at hlookup
    split_ifs at hlookup with hkey
    · cases hlookup
      rw [hkey]
      exact ⟨event, hmem, hw⟩
    · exact ho old hold key value hlookup

end NodeWrite

theorem lookup_startMetadata {event : Event} {key value : String}
    (h : (startMetadata event).lookup key = some value) :
    (key = "state" ∧ value = "running") ∨ (key = "job_id" ∧ event.jobId = some value) := by
  unfold startMetadata at h
  rw [HashMap.lookup_insert_ite] at h
  split_ifs at h with hkey
  · cases h
    exact Or.inl ⟨hkey, rfl⟩
  · cases hjob : event.jobId with
    | none =>
      simp [hjob] at h
    | some jobId =>
      simp only [hjob] at h
      rw [HashMap.lookup_insert_ite] at h
      split_ifs at h with hkey'
      · cases h
        exact Or.inr ⟨hkey', rfl⟩
      · simp at h

theorem lookup_signalNode {F : Type} [FloatArith F] {point : SignalPoint F} {key value : String}
    (h : (StateGraph.signalNode point).metadata.lookup key = some value) :
    key ∈ ["unit", "window_ms", "value"] := by
  unfold StateGraph.signalNode at h
  simp only at h
  rw [HashMap.lookup_insert_ite] at h
  split_ifs at h with hunit
  · simp [hunit]
  · rw [HashMap.lookup_insert_ite] at h
    split_ifs at h with hwindow
    · simp [hwindow]
    · cases hvalue : point.value with
      | number v =>
        rw [hvalue] at h
        simp only at h
        rw [HashMap.lookup_insert_ite] at h
        split_ifs at h with hkey
        · simp [hkey]
        · simp at h
      | _ =>
        simp [hvalue] at h

theorem isDrop_of_waitingProcess {F : Type} [FloatArith F] {event : Event}
    {p : Nat × HashMap String String} (h : waitingProcess F event = some p) :
    p.2 = ∅ ∨ event.eventType = .transportDrop ∧ p = (dropPid event, runningMetadata) ∧
      0 < dropPid event := by
  unfold waitingProcess at h
  cases hpid : event.pid with
  | none =>
    simp only [hpid] at h
    split_ifs at h with hdrop hpos
    cases h
    exact Or.inr ⟨hdrop, rfl, hpos⟩
  | some pid =>
    simp only [hpid] at h
    split_ifs at h with hdrop hpos
    · cases h
      exact Or.inr ⟨hdrop, rfl, hpos⟩
    · cases h
      exact Or.inl rfl

theorem lookup_waitingProcess {F : Type} [FloatArith F] {event : Event}
    {p : Nat × HashMap String String} (h : waitingProcess F event = some p) {key value : String}
    (hlookup : p.2.lookup key = some value) :
    event.Writes (pidNodeId event p.1) key value := by
  rcases isDrop_of_waitingProcess h with hnone | ⟨hdrop, rfl, hpos⟩
  · simp [hnone] at hlookup
  · unfold runningMetadata at hlookup
    simp only at hlookup
    rw [HashMap.lookup_insert_ite] at hlookup
    split_ifs at hlookup with hkey
    · cases hlookup
      rw [hkey]
      exact .waiting hdrop hpos rfl
    · simp at hlookup

section Brings

variable {event : Event} {w : NodeWrite}

theorem brings_of_mem_processWrites (hty : event.eventType = .processState)
    (h : w ∈ processWrites event) : w.Brings event w.target := by
  unfold processWrites at h
  cases hpid : event.pid with
  | none =>
    simp [hpid] at h
  | some pid =>
    simp only [hpid] at h
    split_ifs at h with hvalue hend
    · rw [List.mem_singleton.mp h]
      have hstart : event.Starts (pidNodeId event pid) := ⟨hty, hvalue, pid, hpid, rfl⟩
      intro key value hlookup
      rcases lookup_startMetadata hlookup with ⟨rfl, rfl⟩ | ⟨rfl, hjob⟩
      · exact .started hstart
      · exact .job value hstart hjob
    · rw [List.mem_singleton.mp h]
      exact .ended ⟨hty, hend, pid, hpid, rfl⟩
    · simp at h

theorem brings_of_mem_computeWrites
    (hty : event.eventType = .computeUtil ∨ event.eventType = .computeMem)
    (h : w ∈ computeWrites event) : w.Brings event w.target := by
  simp only [computeWrites, List.cons_append, List.nil_append, List.mem_cons] at h
  rcases h with rfl | rfl | h
  · intro key value hlookup
    simp [resourceNode] at hlookup
  · exact .util hty rfl
  · cases hpid : event.pid with
    | none =>
      simp [hpid] at h
    | some pid =>
      simp only [hpid, List.mem_singleton] at h
      rw [h]
      intro key value hlookup
      simp [processNode] at hlookup

theorem brings_of_mem_transportWrites {F : Type} [FloatArith F]
    (h : w ∈ transportWrites F event) : w.Brings event w.target := by
  simp only [transportWrites, List.cons_append, List.nil_append, List.mem_cons] at h
  rcases h with rfl | rfl | h
  · intro key value hlookup
    simp [resourceNode] at hlookup
  · exact .transport rfl
  · cases hw : waitingProcess F event with
    | none =>
      simp [hw] at h
    | some p =>
      simp only [hw, List.mem_singleton] at h
      rw [h]
      intro key value hlookup
      exact lookup_waitingProcess hw hlookup

theorem brings_errorNode (herror : event.eventType.isError = true) :
    (NodeWrite.ensure (errorNode (errorNodeId event) event)).Brings event (errorNodeId event) := by
  intro key value hlookup
  simp only [errorNode] at hlookup
  rw [HashMap.lookup_insert_ite] at hlookup
  split_ifs at hlookup with hkey
  · cases hlookup
    rw [hkey]
    exact .error herror rfl
  · simp at hlookup

/-- **What an event writes is accounted for.** -/
theorem brings_of_mem_nodeWrites {F : Type} [FloatArith F] (h : w ∈ nodeWrites F event) :
    w.Brings event w.target := by
  unfold nodeWrites at h
  cases hty : event.eventType with
  | processState =>
    simp only [hty] at h
    exact brings_of_mem_processWrites hty h
  | computeUtil | computeMem =>
    simp only [hty] at h
    exact brings_of_mem_computeWrites (by simp [hty]) h
  | transportBw | transportDrop | storageIops | storageQDepth =>
    simp only [hty] at h
    exact brings_of_mem_transportWrites h
  | errorHw | errorNet | topoLinkDown =>
    simp only [hty, List.mem_singleton] at h
    rw [h]
    exact brings_errorNode (by rw [hty]; rfl)
  | intentRun | actionExec =>
    simp [hty] at h

end Brings

namespace StateGraph

variable {F : Type} [FloatArith F]

/-- Every metadata entry of the graph was written by an event. -/
def MetadataSourced (events : List Event) (g : StateGraph F) : Prop :=
  ∀ id, ∀ node ∈ g.nodes.lookup id, node.Sourced events id

theorem metadataSourced_applyEvent {events : List Event} {g : StateGraph F}
    (hg : g.MetadataSourced events) (event : Event) :
    (g.applyEvent event).MetadataSourced (events ++ [event]) := by
  intro id
  unfold applyEvent
  rw [lookup_updateSignals]
  refine NodeWrite.effectAt_induction
    (P := fun o => ∀ node ∈ o, node.Sourced (events ++ [event]) id) ?_ ?_
  · intro w hw htarget o ho
    refine NodeWrite.sourced_effect ?_ ho
    obtain ⟨point, _, _, rfl, _⟩ := mem_signalWrites hw
    intro key value hlookup
    exact .signal key value (lookup_signalNode hlookup)
  · intro node hnode
    have hhandled := lookup_of_periodicCleanup hnode
    rw [lookup_handle] at hhandled
    refine NodeWrite.effectAt_induction
      (P := fun o => ∀ node ∈ o, node.Sourced (events ++ [event]) id) ?_ ?_ node hhandled
    · intro w hw htarget o ho
      rw [← htarget] at ho ⊢
      exact NodeWrite.sourced_effect (brings_of_mem_nodeWrites hw) ho
    · intro node hnode
      exact (hg id node hnode).concat event

/-- **Every metadata entry goes back to an event of the run.** -/
theorem metadata_after (events : List Event) :
    (after events : StateGraph F).MetadataSourced events := by
  induction events using List.reverseRecOn with
  | nil =>
    intro id node hnode
    simp [after, new] at hnode
  | append_singleton events event ih =>
    rw [after_concat]
    exact metadataSourced_applyEvent ih event

theorem metadata_key_after {events : List Event} {id : String} {node : Node}
    (hnode : (after events : StateGraph F).nodes.lookup id = some node) {key : String}
    (hkey : key ∉ writtenKeys) : node.metadata.lookup key = none := by
  cases hlookup : node.metadata.lookup key with
  | none =>
    rfl
  | some value =>
    obtain ⟨event, _, hwrites⟩ := metadata_after events id node hnode key value hlookup
    exact absurd hwrites.key_mem hkey

end StateGraph

end ArkInfra
