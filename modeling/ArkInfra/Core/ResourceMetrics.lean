import ArkInfra.Core.GraphStep

/-!
# The metrics of a resource

Six types of events report a value of a resource, and the graph keeps the values
in the metadata of its node.  Rules and scene analyzers look for the utilization
under `util`, for the operations of a store under `iops` and for its queue under
`qdepth`.  The handlers choose the key in two places: the compute handler takes
`util` for both of its types, and the transport handler, which also serves the
storage events, has no key for them and takes `unknown`.

`MetricsStored` is the intended property of a run: every resource holds the
latest value of every type under the key of that type.  `metricsStored_iff` says
which runs have it, as long as no id is used both for a resource and for
something else.
-/

namespace ArkInfra

/-- The types of events that report a value of a resource. -/
inductive Metric where
  | util
  | mem
  | bw
  | drop
  | iops
  | qdepth
deriving DecidableEq, Repr

namespace Metric

/-- The key under which the value is looked for. -/
def key : Metric → String
  | .util => "util"
  -- the handler's own key: the memory is looked for under `mem_usage`, which
  -- no handler writes
  | .mem => "util"
  | .bw => "bw"
  | .drop => "drop"
  | .iops => "iops"
  | .qdepth => "qdepth"

/-- The key under which the handlers store the value. -/
def storedKey : Metric → String
  | .util => "util"
  | .mem => "util"
  | .bw => transportKey .transportBw
  | .drop => transportKey .transportDrop
  | .iops => transportKey .storageIops
  | .qdepth => transportKey .storageQDepth

def IsStorage (m : Metric) : Prop :=
  m = .iops ∨ m = .qdepth

instance : DecidablePred IsStorage :=
  fun _ => inferInstanceAs (Decidable (_ ∨ _))

theorem storedKey_of_not_isStorage {m : Metric} (h : ¬ m.IsStorage) : m.storedKey = m.key := by
  cases m with
  | iops => exact absurd (Or.inl rfl) h
  | qdepth => exact absurd (Or.inr rfl) h
  | _ => rfl

/-- The other type that is stored under the key of the type. -/
def partner : Metric → Option Metric
  | .util => some .mem
  | .mem => some .util
  | _ => none

theorem key_eq_storedKey_iff {m m' : Metric} (hne : m' ≠ m) :
    m'.key = m.storedKey ↔ m.partner = some m' := by
  revert hne
  cases m <;> cases m' <;> decide

theorem partner_ne {m m' : Metric} (h : m.partner = some m') : m' ≠ m := by
  revert h
  cases m <;> cases m' <;> decide

end Metric

namespace Event

def metric (event : Event) : Option Metric :=
  match event.eventType with
  | .computeUtil => some .util
  | .computeMem => some .mem
  | .transportBw => some .bw
  | .transportDrop => some .drop
  | .storageIops => some .iops
  | .storageQDepth => some .qdepth
  | _ => none

/-- The id of the resource an event reports about. -/
def resourceId (event : Event) : String :=
  match event.eventType with
  | .computeUtil | .computeMem => entityNodeId event
  | _ => namespaceNodeId event (transportResourceBase event)

/-- The event reports the metric of the resource. -/
def Reports (event : Event) (m : Metric) (r : String) : Prop :=
  event.metric = some m ∧ event.resourceId = r

instance (event : Event) (m : Metric) (r : String) : Decidable (event.Reports m r) :=
  inferInstanceAs (Decidable (_ ∧ _))

/-- The handler of the event stores its value under the key of the resource. -/
def StoresUnder (event : Event) (key r : String) : Prop :=
  ∃ m ∈ event.metric, m.storedKey = key ∧ event.resourceId = r

instance (event : Event) (key r : String) : Decidable (event.StoresUnder key r) :=
  inferInstanceAs (Decidable (∃ m ∈ _, _))

end Event

/-- The value of the last event of the list that satisfies the predicate. -/
def lastValue (p : Event → Prop) [DecidablePred p] (events : List Event) : Option String :=
  ((events.filter fun e => decide (p e)).getLast?).map fun e => e.value

theorem lastValue_concat (p : Event → Prop) [DecidablePred p] (events : List Event)
    (event : Event) :
    lastValue p (events ++ [event]) =
      if p event then some event.value else lastValue p events := by
  unfold lastValue
  rw [List.filter_append]
  split_ifs with h
  · simp [h]
  · simp [h]

theorem lastValue_eq_none {p : Event → Prop} [DecidablePred p] {events : List Event}
    (h : ∀ e ∈ events, ¬ p e) : lastValue p events = none := by
  have hempty : (events.filter fun e => decide (p e)) = [] := by
    apply List.filter_eq_nil_iff.mpr
    intro e he
    simpa using h e he
  simp [lastValue, hempty]

theorem exists_of_lastValue {p : Event → Prop} [DecidablePred p] {events : List Event}
    {v : String} (h : lastValue p events = some v) : ∃ e ∈ events, p e := by
  by_contra hnone
  rw [lastValue_eq_none fun e he hp => hnone ⟨e, he, hp⟩] at h
  cases h

/-- The latest value of a metric of a resource. -/
def latestValue (m : Metric) (r : String) (events : List Event) : Option String :=
  lastValue (fun e => e.Reports m r) events

/-- The value the handlers stored last under a key of a resource. -/
def storedValue (key r : String) (events : List Event) : Option String :=
  lastValue (fun e => e.StoresUnder key r) events

theorem latestValue_concat (m : Metric) (r : String) (events : List Event) (event : Event) :
    latestValue m r (events ++ [event]) =
      if event.Reports m r then some event.value else latestValue m r events := by
  exact lastValue_concat _ _ _

theorem storedValue_concat (key r : String) (events : List Event) (event : Event) :
    storedValue key r (events ++ [event]) =
      if event.StoresUnder key r then some event.value else storedValue key r events := by
  exact lastValue_concat _ _ _

/-- The keys of the metrics, as they are looked for and as they are stored. -/
def metricKeys : List String :=
  ["util", "bw", "drop", "iops", "qdepth", "unknown"]

theorem Metric.key_mem (m : Metric) : m.key ∈ metricKeys := by
  cases m <;> decide

theorem Metric.storedKey_mem (m : Metric) : m.storedKey ∈ metricKeys := by
  cases m <;> decide

theorem storedValue_key_mem {key r v : String} {events : List Event}
    (h : storedValue key r events = some v) : key ∈ metricKeys := by
  obtain ⟨e, _, m, _, hkey, _⟩ := exists_of_lastValue h
  rw [← hkey]
  exact m.storedKey_mem

theorem storedValue_of_isStorage {m : Metric} (hm : m.IsStorage) (r : String)
    (events : List Event) : storedValue m.key r events = none := by
  apply lastValue_eq_none
  rintro e _ ⟨m', _, hkey, _⟩
  rcases hm with rfl | rfl
  · cases m' <;> exact absurd hkey (by decide)
  · cases m' <;> exact absurd hkey (by decide)

section Writes

variable {F : Type} [FloatArith F]

/-- A write that stores no resource, and changes nothing of one but its state. -/
def NodeWrite.SparesMetrics (event : Event) : NodeWrite → Prop
  | .ensure node => node.nodeType ≠ .resource
  | .insert node => node.nodeType ≠ .resource ∧ event.Starts node.id
  | .touch _ key _ _ => key = "state"

/-- The writes of an event that reports a metric: its resource first, and then
a process that is missing. -/
theorem nodeWrites_of_metric {event : Event} {m : Metric} (h : event.metric = some m) :
    ∃ tail, (∀ w ∈ tail, w.SparesMetrics event) ∧
      nodeWrites F event =
        [.ensure (resourceNode event.resourceId event.ts),
          .touch event.resourceId m.storedKey event.value event.ts] ++ tail := by
  have hcompute : ∃ tail, (∀ w ∈ tail, w.SparesMetrics event) ∧
      computeWrites event =
        [.ensure (resourceNode (entityNodeId event) event.ts),
          .touch (entityNodeId event) "util" event.value event.ts] ++ tail := by
    refine ⟨_, ?_, rfl⟩
    cases event.pid <;> simp [NodeWrite.SparesMetrics, processNode]
  have htransport : ∃ tail, (∀ w ∈ tail, w.SparesMetrics event) ∧
      transportWrites F event =
        [.ensure (resourceNode (namespaceNodeId event (transportResourceBase event)) event.ts),
          .touch (namespaceNodeId event (transportResourceBase event))
            (transportKey event.eventType) event.value event.ts] ++ tail := by
    refine ⟨_, ?_, rfl⟩
    cases waitingProcess F event <;> simp [NodeWrite.SparesMetrics, processNode]
  unfold Event.metric at h
  unfold nodeWrites Event.resourceId
  cases hty : event.eventType with
  | computeUtil | computeMem =>
    simp only [hty] at h
    cases h
    exact hcompute
  | transportBw | transportDrop | storageIops | storageQDepth =>
    simp only [hty] at h
    cases h
    simpa only [hty, Metric.storedKey] using htransport
  | processState | errorHw | errorNet | topoLinkDown | intentRun | actionExec =>
    simp [hty] at h

theorem sparesMetrics_of_no_metric {event : Event} (h : event.metric = none) :
    ∀ w ∈ nodeWrites F event, w.SparesMetrics event := by
  intro w hw
  unfold nodeWrites at hw
  unfold Event.metric at h
  cases hty : event.eventType with
  | computeUtil | computeMem | transportBw | transportDrop | storageIops | storageQDepth =>
    simp [hty] at h
  | processState =>
    simp only [hty, processWrites] at hw
    cases hpid : event.pid with
    | none =>
      simp [hpid] at hw
    | some pid =>
      simp only [hpid] at hw
      split_ifs at hw with hstart hend
      · rw [List.mem_singleton.mp hw]
        exact ⟨by simp [processNode], hty, hstart, pid, hpid, rfl⟩
      · rw [List.mem_singleton.mp hw]
        exact rfl
      · simp at hw
  | errorHw | errorNet | topoLinkDown =>
    simp only [hty, List.mem_singleton] at hw
    rw [hw]
    simp [NodeWrite.SparesMetrics, errorNode]
  | intentRun | actionExec =>
    simp [hty] at hw

end Writes

section Mirror

/-- The node holds exactly the given values under the metric keys, if it is a
resource, and it is one if there is any value. -/
def Mirrors (held : String → Option String) (o : Option Node) : Prop :=
  (∀ key v, held key = some v → ∃ node ∈ o, node.nodeType = .resource) ∧
    ∀ node ∈ o, node.nodeType = .resource → ∀ key ∈ metricKeys,
      node.metadata.lookup key = held key

variable {held : String → Option String} {o : Option Node}

theorem Mirrors.held_eq_none (h : Mirrors held o)
    (hno : ∀ node ∈ o, node.nodeType ≠ .resource) (key : String) : held key = none := by
  cases hkey : held key with
  | none =>
    rfl
  | some v =>
    obtain ⟨node, hnode, hty⟩ := h.1 key v hkey
    exact absurd hty (hno node hnode)

theorem mirrors_of_free (hheld : ∀ key, held key = none)
    (hfree : ∀ node ∈ o, node.nodeType = .resource → ∀ key ∈ metricKeys,
      node.metadata.lookup key = none) : Mirrors held o := by
  constructor
  · intro key v hkey
    rw [hheld key] at hkey
    cases hkey
  · intro node hnode hty key hkey
    rw [hheld key]
    exact hfree node hnode hty key hkey

theorem mirrors_of_not_resource (hheld : ∀ key, held key = none)
    (hno : ∀ node ∈ o, node.nodeType ≠ .resource) : Mirrors held o := by
  apply mirrors_of_free hheld
  intro node hnode hty
  exact absurd hty (hno node hnode)

theorem Mirrors.touch (h : Mirrors held o) {id key value : String} {ts : Nat}
    (hkey : key ∉ metricKeys) : Mirrors held ((NodeWrite.touch id key value ts).effect o) := by
  constructor
  · intro k v hk
    obtain ⟨node, hnode, hty⟩ := h.1 k v hk
    rw [Option.mem_def] at hnode
    subst hnode
    exact ⟨_, rfl, hty⟩
  · intro node hnode hty k hk
    obtain ⟨old, hold, rfl⟩ := Option.map_eq_some_iff.mp hnode
    have hne : k ≠ key := fun heq => hkey (heq ▸ hk)
    rw [AList.lookup_insert_ne hne]
    exact h.2 old hold hty k hk

/-- A write that spares metrics keeps the record, unless it starts a process in
the place of a resource. -/
theorem Mirrors.effect {event : Event} {id : String}
    (h : Mirrors held o ∧ (event.Starts id → ∀ node ∈ o, node.nodeType ≠ .resource))
    {w : NodeWrite} (hw : w.SparesMetrics event) (htarget : w.target = id) :
    Mirrors held (w.effect o) ∧
      (event.Starts id → ∀ node ∈ w.effect o, node.nodeType ≠ .resource) := by
  obtain ⟨hmirror, hstart⟩ := h
  cases w with
  | ensure new =>
    cases o with
    | some old =>
      exact ⟨hmirror, hstart⟩
    | none =>
      have hno : ∀ node ∈ (NodeWrite.ensure new).effect none, node.nodeType ≠ .resource := by
        intro node hnode
        cases hnode
        exact hw
      exact ⟨mirrors_of_not_resource (hmirror.held_eq_none (by simp)) hno, fun _ => hno⟩
  | insert new =>
    obtain ⟨hty, hstarts⟩ := hw
    have hno : ∀ node ∈ (NodeWrite.insert new).effect o, node.nodeType ≠ .resource := by
      intro node hnode
      cases hnode
      exact hty
    have hid : event.Starts id := htarget ▸ hstarts
    exact ⟨mirrors_of_not_resource (hmirror.held_eq_none (hstart hid)) hno, fun _ => hno⟩
  | touch i key value ts =>
    obtain rfl : key = "state" := hw
    refine ⟨hmirror.touch (by decide), ?_⟩
    intro hid node hnode
    obtain ⟨old, hold, rfl⟩ := Option.map_eq_some_iff.mp hnode
    exact hstart hid old hold

theorem Mirrors.effectAt {event : Event} {id : String} (h : Mirrors held o)
    (hstart : event.Starts id → ∀ node ∈ o, node.nodeType ≠ .resource)
    {ws : List NodeWrite} (hws : ∀ w ∈ ws, w.SparesMetrics event) :
    Mirrors held (NodeWrite.effectAt id ws o) := by
  have hboth := NodeWrite.effectAt_induction
    (P := fun o => Mirrors held o ∧ (event.Starts id → ∀ node ∈ o, node.nodeType ≠ .resource))
    (fun w hw htarget _ ho => Mirrors.effect ho (hws w hw) htarget) ⟨h, hstart⟩
  exact hboth.1

/-- The two writes of a metric to its resource: the node is created if it is
missing, and holds the new value. -/
theorem Mirrors.metric (h : Mirrors held o) (hres : ∀ node ∈ o, node.nodeType = .resource)
    {id key value : String} {ts : Nat} :
    Mirrors (fun k => if k = key then some value else held k)
      (NodeWrite.effectAt id [.ensure (resourceNode id ts), .touch id key value ts] o) := by
  have hcreated : Mirrors held (some (o.getD (resourceNode id ts))) := by
    cases o with
    | some old =>
      exact h
    | none =>
      have hnone := h.held_eq_none (by simp)
      refine ⟨fun k v hk => ⟨_, rfl, rfl⟩, ?_⟩
      intro node hnode _ k _
      cases hnode
      rw [hnone k]
      rfl
  have hty : (o.getD (resourceNode id ts)).nodeType = .resource := by
    cases o with
    | some old => exact hres old rfl
    | none => rfl
  simp only [NodeWrite.effectAt_cons, NodeWrite.effectAt_nil, NodeWrite.target, resourceNode,
    if_true, NodeWrite.effect, Option.map_some]
  refine ⟨fun k v hk => ⟨_, rfl, hty⟩, ?_⟩
  intro node hnode _ k hk
  cases hnode
  simp only [HashMap.lookup_insert_ite]
  split_ifs with hkey
  · rfl
  · exact hcreated.2 _ rfl hty k hk

end Mirror

/-- The node holds a value under a metric key. -/
def Node.HoldsMetric (node : Node) : Prop :=
  ∃ key ∈ metricKeys, (node.metadata.lookup key).isSome = true

instance : DecidablePred Node.HoldsMetric :=
  fun _ => inferInstanceAs (Decidable (∃ key ∈ metricKeys, _))

namespace StateGraph

variable {F : Type} [FloatArith F]

theorem signalNode_free (point : SignalPoint F) :
    ∀ key ∈ metricKeys, (signalNode point).metadata.lookup key = none := by
  intro key hkey
  have hne : key ≠ "unit" ∧ key ≠ "window_ms" ∧ key ≠ "value" := by
    revert key
    decide
  obtain ⟨hunit, hwindow, hvalue⟩ := hne
  unfold signalNode
  rw [AList.lookup_insert_ne hunit, AList.lookup_insert_ne hwindow]
  cases point.value with
  | number v => exact AList.lookup_insert_ne hvalue
  | _ => rfl

/-- The ids of resources are used for nothing else: a report finds its resource
or nothing, no process starts under the id of a resource, and no signal takes
the place of a node with metrics. -/
def SeparateMetricIds (g : StateGraph F) (event : Event) : Prop :=
  (event.metric.isSome = true →
    ∀ node ∈ g.nodes.lookup event.resourceId, node.nodeType = .resource) ∧
  (∀ pid ∈ event.pid, event.Starts (pidNodeId event pid) →
    ∀ node ∈ g.nodes.lookup (pidNodeId event pid), node.nodeType ≠ .resource) ∧
  ∀ w ∈ signalWrites g.signals event,
    ∀ node ∈ (g.handle event).nodes.lookup w.target, ¬ node.HoldsMetric

/-- The resource nodes hold under every metric key what was stored there last. -/
def MetricsMirrored (g : StateGraph F) (events : List Event) : Prop :=
  ∀ r, Mirrors (fun key => storedValue key r events) (g.nodes.lookup r)

/-- At the resource of a report, the key of its type is stored and no other. -/
theorem storesUnder_resourceId_iff {event : Event} {m : Metric} (hmetric : event.metric = some m)
    (key : String) : event.StoresUnder key event.resourceId ↔ key = m.storedKey := by
  constructor
  · rintro ⟨m', hm', rfl, _⟩
    rw [Option.mem_unique hm' hmetric]
  · rintro rfl
    exact ⟨m, hmetric, rfl, rfl⟩

theorem mirrors_handle {g : StateGraph F} {events : List Event} (hg : g.MetricsMirrored events)
    {event : Event} (hsep : g.SeparateMetricIds event) :
    (g.handle event).MetricsMirrored (events ++ [event]) := by
  intro r
  simp only [lookup_handle, storedValue_concat]
  have hstart : event.Starts r → ∀ node ∈ g.nodes.lookup r, node.nodeType ≠ .resource := by
    rintro hstarts
    obtain ⟨pid, hpid, rfl⟩ := hstarts.2.2
    exact hsep.2.1 pid hpid hstarts
  cases hmetric : event.metric with
  | none =>
    have hkeep : ∀ key, ¬ event.StoresUnder key r := by
      rintro key ⟨m, hm, _⟩
      rw [hmetric] at hm
      cases hm
    simp only [hkeep, if_false]
    exact (hg r).effectAt hstart (sparesMetrics_of_no_metric hmetric)
  | some m =>
    obtain ⟨tail, htail, hwrites⟩ := nodeWrites_of_metric (F := F) hmetric
    rw [hwrites, NodeWrite.effectAt_append]
    by_cases hr : event.resourceId = r
    · subst hr
      simp only [storesUnder_resourceId_iff hmetric]
      have hno : ¬ event.Starts event.resourceId := by
        rintro ⟨hty, _⟩
        simp [Event.metric, hty] at hmetric
      apply Mirrors.effectAt _ (fun h => absurd h hno) htail
      exact (hg _).metric (hsep.1 (by simp [hmetric]))
    · have hkeep : ∀ key, ¬ event.StoresUnder key r := by
        rintro key ⟨_, _, _, hres⟩
        exact hr hres
      simp only [hkeep, if_false]
      have hother : NodeWrite.effectAt r
          [.ensure (resourceNode event.resourceId event.ts),
            .touch event.resourceId m.storedKey event.value event.ts] (g.nodes.lookup r) =
          g.nodes.lookup r := by
        apply NodeWrite.effectAt_of_ne
        intro w hw
        rcases List.mem_pair.mp hw with rfl | rfl
        · exact hr
        · exact hr
      rw [hother]
      exact (hg r).effectAt hstart htail

omit [FloatArith F] in
theorem mirrors_periodicCleanup {g : StateGraph F} {events : List Event}
    (hg : g.MetricsMirrored events) (ts : Nat) : (g.periodicCleanup ts).MetricsMirrored events := by
  intro r
  refine ⟨?_, ?_⟩
  · intro key v hkey
    obtain ⟨node, hnode, hty⟩ := (hg r).1 key v hkey
    refine ⟨node, ?_, hty⟩
    unfold periodicCleanup
    split_ifs
    · change node ∈ (g.cleanupOldErrors ts).nodes.lookup r
      rw [lookup_cleanupOldErrors, Option.mem_def, Option.filter_eq_some_iff]
      refine ⟨hnode, ?_⟩
      simp [isExpired, isExpiredError, isDeadProcess, hty]
    · exact hnode
  · intro node hnode
    exact (hg r).2 node (lookup_of_periodicCleanup hnode)

/-- **One event** with separate ids. -/
theorem mirrors_applyEvent {g : StateGraph F} {events : List Event}
    (hg : g.MetricsMirrored events) {event : Event} (hsep : g.SeparateMetricIds event) :
    (g.applyEvent event).MetricsMirrored (events ++ [event]) := by
  have hhandled := mirrors_handle hg hsep
  have hcleaned := mirrors_periodicCleanup hhandled event.ts
  intro r
  change Mirrors _
    ((((g.handle event).periodicCleanup event.ts).updateSignals event).nodes.lookup r)
  rw [lookup_updateSignals]
  refine NodeWrite.effectAt_induction
    (P := Mirrors fun key => storedValue key r (events ++ [event])) ?_ (hcleaned r)
  intro w hw htarget o _
  have hfree : ∀ key, storedValue key r (events ++ [event]) = none := by
    intro key
    cases hkey : storedValue key r (events ++ [event]) with
    | none =>
      rfl
    | some v =>
      obtain ⟨node, hnode, hty⟩ := (hhandled r).1 key v hkey
      have hmem := storedValue_key_mem hkey
      have hholds : node.HoldsMetric := by
        refine ⟨key, hmem, ?_⟩
        rw [(hhandled r).2 node hnode hty key hmem]
        exact Option.isSome_of_mem hkey
      simp only [periodicCleanup_signals, handle_signals] at hw
      exact absurd hholds (hsep.2.2 w hw node (htarget ▸ hnode))
  obtain ⟨point, _, rfl⟩ := List.mem_map.mp hw
  apply mirrors_of_free hfree
  intro node hnode _
  cases hnode
  exact signalNode_free point

/-- **Every run** with separate ids. -/
theorem mirrors_after {events : List Event}
    (hsep : Run.Meets applyEvent SeparateMetricIds (new : StateGraph F) events) :
    (after events : StateGraph F).MetricsMirrored events := by
  induction events using List.reverseRecOn with
  | nil =>
    intro r
    refine mirrors_of_not_resource (fun _ => rfl) ?_
    intro node hnode
    cases hnode
  | append_singleton events event ih =>
    obtain ⟨hinit, hlast⟩ := Run.meets_append.mp hsep
    rw [after_concat]
    exact mirrors_applyEvent (ih hinit) hlast.1

/-- After the events, every resource holds the latest value of every metric
under the key of the metric. -/
def MetricsStored (F : Type) [FloatArith F] (events : List Event) : Prop :=
  ∀ r m v, latestValue m r events = some v →
    ∃ node ∈ (after events : StateGraph F).nodes.lookup r,
      node.nodeType = .resource ∧ node.metadata.lookup m.key = some v

/-- The event is no storage event, and a compute event repeats the latest value
of the other compute type of its resource. -/
def KeepsValues (seen : List Event) (event : Event) : Prop :=
  ∀ m ∈ event.metric, ¬ m.IsStorage ∧
    ∀ other ∈ m.partner, ∀ v ∈ latestValue other event.resourceId seen, v = event.value

instance (seen : List Event) (event : Event) : Decidable (KeepsValues seen event) :=
  inferInstanceAs (Decidable (∀ m ∈ _, _ ∧ _))

instance (g : StateGraph F) (event : Event) : Decidable (g.SeparateMetricIds event) :=
  inferInstanceAs (Decidable ((_ → ∀ node ∈ _, _) ∧ (∀ pid ∈ _, _) ∧ ∀ w ∈ _, _))

/-- In a run with separate ids the metrics are stored when the value stored last
under the key of a metric is its latest one. -/
theorem metricsStored_iff_storedValue {events : List Event}
    (hsep : Run.Meets applyEvent SeparateMetricIds (new : StateGraph F) events) :
    MetricsStored F events ↔
      ∀ r m v, latestValue m r events = some v → storedValue m.key r events = some v := by
  have hmirror := mirrors_after hsep
  constructor
  · intro hstored r m v hv
    obtain ⟨node, hnode, hty, hkey⟩ := hstored r m v hv
    rw [← hkey]
    exact ((hmirror r).2 node hnode hty m.key m.key_mem).symm
  · intro hstored r m v hv
    have hkey := hstored r m v hv
    obtain ⟨node, hnode, hty⟩ := (hmirror r).1 m.key v hkey
    refine ⟨node, hnode, hty, ?_⟩
    rw [(hmirror r).2 node hnode hty m.key m.key_mem]
    exact hkey

/-- A value that is stored under the key of another metric is one of the metric
that shares the key. -/
theorem partner_of_storesUnder {event : Event} {m m' : Metric} {r : String}
    (hm : event.metric = some m) (hother : ¬ event.Reports m' r)
    (hstores : event.StoresUnder m'.key r) : m.partner = some m' := by
  obtain ⟨m₁, hm₁, hkey, hr⟩ := hstores
  obtain rfl : m₁ = m := Option.mem_unique hm₁ hm
  have hne : m' ≠ m₁ := by
    rintro rfl
    exact hother ⟨hm, hr⟩
  exact (Metric.key_eq_storedKey_iff hne).mp hkey.symm

/-- **One event** keeps the stored values exact under the condition, and only
under it. -/
theorem keepsValues_iff {seen : List Event} {event : Event}
    (hseen : ∀ r m v, latestValue m r seen = some v → storedValue m.key r seen = some v) :
    KeepsValues seen event ↔
      ∀ r m v, latestValue m r (seen ++ [event]) = some v →
        storedValue m.key r (seen ++ [event]) = some v := by
  constructor
  · intro hkeeps r m' v hv
    rw [latestValue_concat] at hv
    rw [storedValue_concat]
    by_cases hreports : event.Reports m' r
    · rw [if_pos hreports] at hv
      obtain ⟨hm, hr⟩ := hreports
      have hkey := Metric.storedKey_of_not_isStorage (hkeeps m' hm).1
      rw [if_pos ⟨m', hm, hkey, hr⟩]
      exact hv
    · rw [if_neg hreports] at hv
      split_ifs with hstores
      · obtain ⟨m, hm, _, hr⟩ := id hstores
        have hshare := partner_of_storesUnder hm hreports hstores
        rw [(hkeeps m hm).2 m' hshare v (hr ▸ hv)]
      · exact hseen r m' v hv
  · intro hafter m hm
    refine ⟨?_, ?_⟩
    · intro hstorage
      have hlast : latestValue m event.resourceId (seen ++ [event]) = some event.value := by
        rw [latestValue_concat, if_pos ⟨hm, rfl⟩]
      have hstored := hafter _ _ _ hlast
      rw [storedValue_of_isStorage hstorage] at hstored
      cases hstored
    · intro other hshare v hv
      have hne : other ≠ m := Metric.partner_ne hshare
      have hother : ¬ event.Reports other event.resourceId := by
        rintro ⟨hm', _⟩
        exact hne (Option.mem_unique hm' hm)
      have hlast : latestValue other event.resourceId (seen ++ [event]) = some v := by
        rw [latestValue_concat, if_neg hother]
        exact hv
      have hstored := hafter _ _ _ hlast
      have hkey := (Metric.key_eq_storedKey_iff hne).mpr hshare
      rw [storedValue_concat, if_pos ⟨m, hm, hkey.symm, rfl⟩] at hstored
      exact (Option.some.inj hstored).symm

/-- **Which runs store the metrics.**  As long as the ids of resources are used
for nothing else, every resource holds the latest value of every type of report
after every event exactly when there is no storage event, and no compute event
whose value differs from the latest one of the other compute type of its
resource. -/
theorem metricsStored_iff (events : List Event)
    (hsep : Run.Meets applyEvent SeparateMetricIds (new : StateGraph F) events) :
    Run.Meets (fun seen event => seen ++ [event]) KeepsValues [] events ↔
      ∀ seen rest, events = seen ++ rest → MetricsStored F seen := by
  have hinit : ∀ seen rest, events = seen ++ rest →
      (MetricsStored F seen ↔
        ∀ r m v, latestValue m r seen = some v → storedValue m.key r seen = some v) := by
    rintro seen rest rfl
    exact metricsStored_iff_storedValue (Run.meets_append.mp hsep).1
  rw [Run.meets_iff_forall_seen
    (P := fun seen => ∀ r m v, latestValue m r seen = some v → storedValue m.key r seen = some v)]
  · constructor
    · intro h seen rest hsplit
      exact (hinit seen rest hsplit).mpr (h seen rest hsplit)
    · intro h seen rest hsplit
      exact (hinit seen rest hsplit).mp (h seen rest hsplit)
  · intro r m v hv
    cases hv
  · intro seen event rest _ hseen
    rw [Run.run_history]
    exact keepsValues_iff hseen

/-- Reports of three types about two resources, one of them with a process that
was started before. -/
theorem metricsStored_iff_threeTypes :
    let start : Event := ⟨1000, .processState, "proc", none, some 7, "start", none⟩
    let util : Event := ⟨2000, .computeUtil, "gpu-0", none, some 7, "95", none⟩
    let drop : Event := ⟨3000, .transportDrop, "network-pid-7", none, none, "4", none⟩
    let bw : Event := ⟨4000, .transportBw, "network", none, some 7, "0.5", none⟩
    let events := [start, util, drop, bw]
    Run.Meets applyEvent SeparateMetricIds (new : StateGraph Binary64) events ∧
    Run.Meets (fun seen event => seen ++ [event]) KeepsValues [] events ∧
    MetricsStored Binary64 events := by
  intro start util drop bw events
  have hsep : Run.Meets applyEvent SeparateMetricIds (new : StateGraph Binary64) events := by
    decide +kernel
  have hkeeps : Run.Meets (fun seen event => seen ++ [event]) KeepsValues [] events := by
    decide +kernel
  exact ⟨hsep, hkeeps, (metricsStored_iff events hsep).mp hkeeps events []
    (List.append_nil _).symm⟩

/-- **Storage values are not where they are looked for.**  The operations and
the queue of a store go to one key that is neither `iops` nor `qdepth`, and the
second value replaces the first; on a GPU the used memory replaces the
utilization. -/
theorem metricsStored_storage :
    let iops : Event := ⟨1000, .storageIops, "nvme0", none, none, "50", none⟩
    let qdepth : Event := ⟨2000, .storageQDepth, "nvme0", none, none, "200", none⟩
    let util : Event := ⟨3000, .computeUtil, "gpu-0", none, none, "95", none⟩
    let mem : Event := ⟨4000, .computeMem, "gpu-0", none, none, "40", none⟩
    let events := [iops, qdepth, util, mem]
    let g : StateGraph Binary64 := after events
    Run.Meets applyEvent SeparateMetricIds (new : StateGraph Binary64) events ∧
    (g.nodes.lookup "nvme0").map (fun node => (node.nodeType, node.metadata.entries)) =
      some (.resource, [⟨"unknown", "200"⟩]) ∧
    (g.nodes.lookup "gpu-0").map (fun node => (node.nodeType, node.metadata.entries)) =
      some (.resource, [⟨"util", "40"⟩]) ∧
    ¬ MetricsStored Binary64 events ∧
    ¬ MetricsStored Binary64 [util, mem] := by
  refine ⟨by decide +kernel, by decide +kernel, by decide +kernel, ?_, ?_⟩
  · intro hstored
    have hiops := hstored "nvme0" .iops "50" (by decide)
    revert hiops
    decide +kernel
  · intro hstored
    have hutil := hstored "gpu-0" .util "95" (by decide)
    revert hutil
    decide +kernel

end StateGraph

end ArkInfra
