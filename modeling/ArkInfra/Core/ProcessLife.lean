import ArkInfra.Core.EdgeIndex
import ArkInfra.Core.ProcessRecord

/-!
# The life of a process and its bindings

The processes of one cluster node live in one namespace of ids (`pidId`).  As
long as no entity is named like a process, the nodes at these ids are exactly
the process nodes (`PidTyped`), and the graph can be reduced to their records
(`procAt`): every event acts on the records by at most one operation
(`procOp`), the cleanup filters them, and the signal update leaves them alone.

The `consumes` edges are the bindings of processes to resources.  An event adds
the binding it reports (`bindingEdge`) and no other, and the cleanup keeps
exactly those that are young enough and whose process is not dead (`Lasting`),
as long as the capacity guard does not interfere.
-/

namespace ArkInfra

section PidIds

def pidId (ns : Option String) (pid : Nat) : String :=
  match ns with
  | some n => n ++ "::" ++ ("pid-" ++ toString pid)
  | none => "pid-" ++ toString pid

/-- The id belongs to a process of the namespace. -/
def IsPid (ns : Option String) (id : String) : Prop :=
  ∃ pid, id = pidId ns pid

def NotPid (entityId : String) : Prop :=
  Text.startsWith entityId "pid-" = false

instance (entityId : String) : Decidable (NotPid entityId) :=
  inferInstanceAs (Decidable (_ = _))

theorem isPid_pidId (ns : Option String) (pid : Nat) : IsPid ns (pidId ns pid) :=
  ⟨pid, rfl⟩

theorem pidNodeId_eq (event : Event) (pid : Nat) :
    pidNodeId event pid = pidId event.nodeId pid := by
  unfold pidNodeId namespaceNodeId pidId
  cases event.nodeId <;> rfl

theorem namespaceNodeId_injective (event : Event) :
    Function.Injective (namespaceNodeId event) := by
  intro x y h
  unfold namespaceNodeId at h
  cases hn : event.nodeId with
  | none =>
    simpa [hn] using h
  | some n =>
    simpa [hn] using h

@[simp] theorem pidId_inj {ns : Option String} {p q : Nat} :
    pidId ns p = pidId ns q ↔ p = q := by
  constructor
  · intro h
    have hrepr : p.repr = q.repr := by
      cases ns with
      | none =>
        simpa [pidId] using h
      | some n =>
        simpa [pidId] using h
    have hdigits : Nat.toDigits 10 p = Nat.toDigits 10 q := by
      rw [← Nat.toList_repr, ← Nat.toList_repr, hrepr]
    have hvalue := congrArg (fun cs => Nat.ofDigitChars 10 cs 0) hdigits
    simpa using hvalue
  · rintro rfl
    rfl

theorem not_isPid_namespaceNodeId (event : Event) {x : String} (hx : NotPid x) :
    ¬ IsPid event.nodeId (namespaceNodeId event x) := by
  rintro ⟨pid, h⟩
  rw [← pidNodeId_eq] at h
  obtain rfl := namespaceNodeId_injective event h
  have hstart : Text.startsWith ("pid-" ++ toString pid) "pid-" = true := by
    rw [Text.startsWith_iff, String.toList_append]
    exact List.prefix_append _ _
  rw [NotPid, hstart] at hx
  cases hx

theorem not_isPid_error (event : Event) : ¬ IsPid event.nodeId (errorNodeId event) := by
  apply not_isPid_namespaceNodeId
  simp [NotPid, Text.startsWith, List.isPrefixOf]

theorem notPid_transportResourceBase {event : Event} (h : NotPid event.entityId) :
    NotPid (transportResourceBase event) := by
  unfold transportResourceBase
  split_ifs
  · cases Text.stripPrefix event.entityId "network-pid-" with
    | none =>
      exact h
    | some rest =>
      change NotPid "network"
      decide
  · exact h

theorem notPid_of_namesResource {event : Event} {base : String} (h : NotPid event.entityId)
    (hbase : event.NamesResource base) : NotPid base := by
  rcases hbase with rfl | rfl
  · exact h
  · exact notPid_transportResourceBase h

theorem count_s_toString (n : Nat) : (toString n).toList.count 's' = 0 := by
  rw [List.count_eq_zero]
  intro h
  rw [Nat.toString_eq_repr, Nat.toList_repr] at h
  have hdigit := Nat.isDigit_of_mem_toDigits (by decide) (by decide) h
  exact absurd hdigit (by decide)

/-- The node of a signal of the namespace is no process: it has at least one
`s` more than the name of the namespace. -/
theorem not_isPid_signalNode {F : Type} [FloatArith F] {event : Event}
    {point : SignalPoint F} (hentity : point.entityId = entityFromEvent event) :
    ¬ IsPid event.nodeId (StateGraph.signalNode point).id := by
  rintro ⟨pid, h⟩
  have hcount := congrArg (fun id : String => id.toList.count 's') h
  have hsignal : "signal::".toList.count 's' = 1 := by
    decide
  have hpid : "pid-".toList.count 's' = 0 := by
    decide
  unfold entityFromEvent at hentity
  unfold pidId at hcount
  cases hn : event.nodeId with
  | none =>
    simp only [hn, StateGraph.signalNode, String.toList_append, List.count_append, hsignal,
      hpid, count_s_toString] at hcount
    omega
  | some n =>
    rw [hn] at hentity
    simp only [hn, StateGraph.signalNode, hentity, String.toList_append, List.count_append,
      hsignal, hpid, count_s_toString] at hcount
    omega

end PidIds

section NodeRecords

def Proc.ofNode (node : Node) : Proc where
  state := node.metadata.lookup "state"
  lastUpdate := node.lastUpdate

theorem isDeadProcess_iff {node : Node} (h : node.nodeType = .process) (cutoff : Nat) :
    StateGraph.isDeadProcess cutoff node = true ↔ (Proc.ofNode node).Dead cutoff := by
  simp [StateGraph.isDeadProcess, h, Proc.Dead, Proc.Ended, Proc.ofNode]

/-- What a `process.state` event does to the record of its process. -/
def processOp (event : Event) : Option (Nat × ProcOp) :=
  match event.pid with
  | none => none
  | some pid =>
    if event.value = "start" then some (pid, .start)
    else if event.value = "exit" ∨ event.value = "zombie" then
      some (pid, .finish event.value)
    else none

/-- The process an event speaks about, and what the event does to its record. -/
def procOp (F : Type) [FloatArith F] (event : Event) : Option (Nat × ProcOp) :=
  match event.eventType with
  | .processState => processOp event
  | .computeUtil | .computeMem => event.pid.map fun pid => (pid, .ensure none)
  | .transportBw | .transportDrop | .storageIops | .storageQDepth =>
    (waitingProcess F event).map fun p => (p.1, .ensure (p.2.lookup "state"))
  | .errorHw | .errorNet | .topoLinkDown | .intentRun | .actionExec => none

theorem processOp_cases {event : Event} {x : Nat × ProcOp} (hx : x ∈ processOp event) :
    x.2 = .start ∨
      (x.2 = .finish event.value ∧ (event.value = "exit" ∨ event.value = "zombie")) := by
  unfold processOp at hx
  cases hpid : event.pid with
  | none =>
    simp [hpid] at hx
  | some pid =>
    simp only [hpid] at hx
    split_ifs at hx with hstart hend
    · cases hx
      exact Or.inl rfl
    · cases hx
      exact Or.inr ⟨rfl, hend⟩
    · cases hx

theorem procOp_valid (F : Type) [FloatArith F] (event : Event) :
    ∀ x ∈ procOp F event, x.2.Valid := by
  intro x hx
  unfold procOp at hx
  cases hty : event.eventType with
  | processState =>
    simp only [hty] at hx
    rcases processOp_cases hx with hstart | ⟨hfinish, hvalue⟩
    · rw [hstart]
      trivial
    · rw [hfinish]
      exact hvalue
  | computeUtil | computeMem =>
    simp only [hty] at hx
    obtain ⟨_, _, rfl⟩ := Option.map_eq_some_iff.mp hx
    exact Or.inl rfl
  | transportBw | transportDrop | storageIops | storageQDepth =>
    simp only [hty] at hx
    obtain ⟨p, hp, rfl⟩ := Option.map_eq_some_iff.mp hx
    exact state_of_mentioned (waitingProcess_metadata hp)
  | errorHw | errorNet | topoLinkDown | intentRun | actionExec =>
    simp [hty] at hx

theorem startMetadata_state (event : Event) :
    (startMetadata event).lookup "state" = some "running" := by
  exact AList.lookup_insert _

section Writes

variable {ns : Option String} {p pid ts : Nat} (o : Option Node)

theorem effectAt_process_insert (metadata : HashMap String String) :
    (NodeWrite.effectAt (pidId ns pid)
      [.insert (processNode (pidId ns p) ts metadata)] o).map Proc.ofNode =
      if p = pid then some { state := metadata.lookup "state", lastUpdate := ts }
      else o.map Proc.ofNode := by
  by_cases hp : p = pid
  · simp [NodeWrite.target, NodeWrite.effect, processNode, Proc.ofNode, hp]
  · simp [NodeWrite.target, processNode, hp]

theorem effectAt_process_touch (value : String) :
    (NodeWrite.effectAt (pidId ns pid)
      [.touch (pidId ns p) "state" value ts] o).map Proc.ofNode =
      if p = pid then (ProcOp.finish value).effect ts (o.map Proc.ofNode)
      else o.map Proc.ofNode := by
  by_cases hp : p = pid
  · cases o with
    | none =>
      simp [NodeWrite.target, NodeWrite.effect, ProcOp.effect, hp]
    | some node =>
      simp [NodeWrite.target, NodeWrite.effect, ProcOp.effect, Proc.ofNode, hp]
  · simp [NodeWrite.target, hp]

theorem effectAt_process_ensure (metadata : HashMap String String) :
    (NodeWrite.effectAt (pidId ns pid)
      [.ensure (processNode (pidId ns p) ts metadata)] o).map Proc.ofNode =
      if p = pid then
        (ProcOp.ensure (metadata.lookup "state")).effect ts (o.map Proc.ofNode)
      else o.map Proc.ofNode := by
  by_cases hp : p = pid
  · cases o with
    | none =>
      simp [NodeWrite.target, NodeWrite.effect, ProcOp.effect, processNode, Proc.ofNode, hp]
    | some node =>
      simp [NodeWrite.target, NodeWrite.effect, ProcOp.effect, processNode, hp]
  · simp [NodeWrite.target, processNode, hp]

end Writes

end NodeRecords

namespace StateGraph

variable {F : Type}

def procAt (g : StateGraph F) (id : String) : Option Proc :=
  (g.nodes.lookup id).map Proc.ofNode

/-- The process nodes are the nodes at the process ids of the namespace. -/
def PidTyped (ns : Option String) (g : StateGraph F) : Prop :=
  ∀ id node, g.nodes.lookup id = some node → (node.nodeType = .process ↔ IsPid ns id)

theorem pidTyped_new (ns : Option String) : PidTyped ns (new : StateGraph F) := by
  intro id node h
  simp [new] at h

section Handle

variable [FloatArith F] {ns : Option String}

theorem stores_nodeWrites {event : Event} (h : NotPid event.entityId) :
    ∀ w ∈ nodeWrites F event,
      w.Stores fun id ty => ty = .process ↔ IsPid event.nodeId id := by
  have hpid : ∀ pid, IsPid event.nodeId (pidNodeId event pid) := by
    intro pid
    rw [pidNodeId_eq]
    exact isPid_pidId event.nodeId pid
  intro w hw
  cases writeOf_of_mem hw with
  | resource base hbase =>
    have hnot := not_isPid_namespaceNodeId event (notPid_of_namesResource h hbase)
    simp [NodeWrite.Stores, resourceNode, hnot]
  | mention pid metadata _ =>
    simp [NodeWrite.Stores, processNode, hpid]
  | start id hstart =>
    obtain ⟨_, _, pid, _, rfl⟩ := hstart
    simp [NodeWrite.Stores, processNode, hpid]
  | error =>
    simp [NodeWrite.Stores, errorNode, not_isPid_error event]
  | metric base key _ _ =>
    trivial
  | finish id _ =>
    trivial

theorem pidTyped_handle {g : StateGraph F} (hg : g.PidTyped ns) {event : Event}
    (hns : event.nodeId = ns) (h : NotPid event.entityId) :
    (g.handle event).PidTyped ns := by
  subst hns
  intro id node hnode
  rw [lookup_handle] at hnode
  exact NodeWrite.nodeType_effectAt
    (P := fun id ty => ty = .process ↔ IsPid event.nodeId id)
    (stores_nodeWrites h) (hg id) node hnode

section Records

variable {event : Event} (pid : Nat) (o : Option Node)

theorem effectAt_processWrites :
    (NodeWrite.effectAt (pidId event.nodeId pid) (processWrites event) o).map Proc.ofNode =
      ProcOp.effectOn event.ts pid (processOp event) (o.map Proc.ofNode) := by
  unfold processWrites processOp
  cases event.pid with
  | none =>
    rfl
  | some p =>
    simp only [pidNodeId_eq]
    split_ifs with hstart hend
    · simp only [effectAt_process_insert, ProcOp.effectOn, ProcOp.effect, startMetadata_state]
    · simp only [effectAt_process_touch, ProcOp.effectOn]
    · rfl

theorem effectAt_computeWrites (h : NotPid event.entityId) :
    (NodeWrite.effectAt (pidId event.nodeId pid) (computeWrites event) o).map Proc.ofNode =
      ProcOp.effectOn event.ts pid (event.pid.map fun p => (p, .ensure none))
        (o.map Proc.ofNode) := by
  have hentity : entityNodeId event ≠ pidId event.nodeId pid := by
    intro heq
    exact not_isPid_namespaceNodeId event h ⟨pid, heq⟩
  unfold computeWrites
  cases event.pid with
  | none =>
    simp [NodeWrite.target, resourceNode, hentity, ProcOp.effectOn]
  | some p =>
    simp only [pidNodeId_eq]
    rw [NodeWrite.effectAt_append, effectAt_process_ensure, NodeWrite.effectAt_of_ne]
    · rfl
    · simp [NodeWrite.target, resourceNode, hentity]

theorem effectAt_transportWrites (F : Type) [FloatArith F] (h : NotPid event.entityId) :
    (NodeWrite.effectAt (pidId event.nodeId pid) (transportWrites F event) o).map Proc.ofNode =
      ProcOp.effectOn event.ts pid
        ((waitingProcess F event).map fun p => (p.1, .ensure (p.2.lookup "state")))
        (o.map Proc.ofNode) := by
  have htransport :
      namespaceNodeId event (transportResourceBase event) ≠ pidId event.nodeId pid := by
    intro heq
    exact not_isPid_namespaceNodeId event (notPid_transportResourceBase h) ⟨pid, heq⟩
  unfold transportWrites
  cases waitingProcess F event with
  | none =>
    simp [NodeWrite.target, resourceNode, htransport, ProcOp.effectOn]
  | some p =>
    simp only [pidNodeId_eq]
    rw [NodeWrite.effectAt_append, effectAt_process_ensure, NodeWrite.effectAt_of_ne]
    · rfl
    · simp [NodeWrite.target, resourceNode, htransport]

end Records

/-- **What a handler does to the record of a process.**  The other writes of
an event go to other ids. -/
theorem procAt_handle (g : StateGraph F) {event : Event} (hns : event.nodeId = ns)
    (h : NotPid event.entityId) (pid : Nat) :
    (g.handle event).procAt (pidId ns pid) =
      ProcOp.effectOn event.ts pid (procOp F event) (g.procAt (pidId ns pid)) := by
  subst hns
  have herror : errorNodeId event ≠ pidId event.nodeId pid := by
    intro heq
    exact not_isPid_error event ⟨pid, heq⟩
  unfold procAt
  rw [lookup_handle]
  generalize g.nodes.lookup (pidId event.nodeId pid) = o
  unfold nodeWrites procOp
  cases event.eventType with
  | processState =>
    exact effectAt_processWrites pid o
  | computeUtil | computeMem =>
    exact effectAt_computeWrites pid o h
  | transportBw | transportDrop | storageIops | storageQDepth =>
    exact effectAt_transportWrites pid o F h
  | errorHw | errorNet | topoLinkDown =>
    simp [NodeWrite.target, errorNode, herror, ProcOp.effectOn]
  | intentRun | actionExec =>
    rfl

end Handle

section Cleanup

variable {ns : Option String}

theorem pidTyped_periodicCleanup {g : StateGraph F} (hg : g.PidTyped ns) (ts : Nat) :
    (g.periodicCleanup ts).PidTyped ns := by
  intro id node hnode
  exact hg id node (lookup_of_periodicCleanup hnode)

theorem procAt_periodicCleanup {g : StateGraph F} (hg : g.PidTyped ns) (ts pid : Nat) :
    (g.periodicCleanup ts).procAt (pidId ns pid) =
      if g.shouldCleanup ts = true then
        Proc.survivor (ts - processTtlMs) (g.procAt (pidId ns pid))
      else g.procAt (pidId ns pid) := by
  unfold periodicCleanup
  split_ifs
  · change ((g.cleanupOldErrors ts).nodes.lookup (pidId ns pid)).map Proc.ofNode = _
    rw [lookup_cleanupOldErrors]
    unfold procAt
    cases hnode : g.nodes.lookup (pidId ns pid) with
    | none =>
      rfl
    | some node =>
      have hty : node.nodeType = .process := (hg _ node hnode).mpr (isPid_pidId ns pid)
      have hexp : g.isExpired ts node = isDeadProcess (ts - processTtlMs) node := by
        simp [isExpired, isExpiredError, hty]
      have hdead := isDeadProcess_iff hty (ts - processTtlMs)
      by_cases h : (Proc.ofNode node).Dead (ts - processTtlMs)
      · simp [Proc.survivor, Option.filter_some, hexp, hdead.mpr h, h]
      · have halive : isDeadProcess (ts - processTtlMs) node = false :=
          Bool.eq_false_iff.mpr fun hd => h (hdead.mp hd)
        simp [Proc.survivor, Option.filter_some, hexp, halive, h]
  · rfl

theorem mem_deadPids {g : StateGraph F} (hg : g.PidTyped ns) {id : String} {ts : Nat} :
    id ∈ (g.scanExpired ts).2 ↔
      IsPid ns id ∧ ∃ p ∈ g.procAt id, p.Dead (ts - processTtlMs) := by
  simp only [scanExpired, HashMap.mem_keysWhere, procAt]
  constructor
  · rintro ⟨node, hnode, hdead⟩
    have hty : node.nodeType = .process := by
      by_contra hne
      simp [isDeadProcess, hne] at hdead
    exact ⟨(hg id node hnode).mp hty, Proc.ofNode node, by simp [hnode],
      (isDeadProcess_iff hty _).mp hdead⟩
  · rintro ⟨hpid, p, hp, hdead⟩
    obtain ⟨node, hnode, rfl⟩ := Option.map_eq_some_iff.mp hp
    have hty : node.nodeType = .process := (hg id node hnode).mpr hpid
    exact ⟨node, hnode, (isDeadProcess_iff hty _).mpr hdead⟩

/-- A binding of a process of the namespace to something that is none. -/
structure IsBinding (ns : Option String) (e : Edge) : Prop where
  consumes : e.edgeType = .consumes
  source : IsPid ns e.fromId
  target : ¬ IsPid ns e.toId

/-- A binding outlasts a cleanup: it is young enough and its process is not
dead. -/
def Lasting (g : StateGraph F) (ts : Nat) (e : Edge) : Prop :=
  ts - edgeTtlMs ≤ e.ts ∧ ∀ p ∈ g.procAt e.fromId, ¬ p.Dead (ts - processTtlMs)

instance (g : StateGraph F) (ts : Nat) (e : Edge) : Decidable (g.Lasting ts e) :=
  inferInstanceAs (Decidable (_ ∧ _))

theorem mem_survivingEdges_of_isBinding {g : StateGraph F} (hg : g.PidTyped ns) {ts : Nat}
    {e : Edge} (hb : IsBinding ns e) :
    e ∈ g.survivingEdges ts ↔ e ∈ g.edges ∧ g.Lasting ts e := by
  rw [mem_survivingEdges]
  constructor
  · rintro ⟨hmem, _, hfrom, _, hts⟩
    refine ⟨hmem, hts, ?_⟩
    intro p hp hdead
    exact hfrom ((mem_deadPids hg).mpr ⟨hb.source, p, hp, hdead⟩)
  · rintro ⟨hmem, hts, halive⟩
    refine ⟨hmem, by simp [hb.consumes], ?_, ?_, hts⟩
    · intro hfrom
      obtain ⟨_, p, hp, hdead⟩ := (mem_deadPids hg).mp hfrom
      exact halive p hp hdead
    · intro hto
      exact hb.target ((mem_deadPids hg).mp hto).1

theorem lasting_of_mem_periodicCleanup {g : StateGraph F} (hg : g.PidTyped ns) {ts : Nat}
    {e : Edge} (he : e ∈ (g.periodicCleanup ts).edges) :
    e ∈ g.edges ∧ (IsBinding ns e → g.shouldCleanup ts = true → g.Lasting ts e) := by
  unfold periodicCleanup at he
  split_ifs at he with hdue
  · change e ∈ (g.cleanupOldErrors ts).edges at he
    rw [cleanupOldErrors_edgeStore, EdgeStore.rebuildIndexes_edges] at he
    have hsurv := capEdges_subset he
    exact ⟨(mem_survivingEdges.mp hsurv).1,
      fun hb _ => ((mem_survivingEdges_of_isBinding hg hb).mp hsurv).2⟩
  · exact ⟨he, fun _ h => absurd h hdue⟩

theorem mem_periodicCleanup_of_lasting {g : StateGraph F} (hg : g.PidTyped ns) {ts : Nat}
    {e : Edge} (hb : IsBinding ns e) (he : e ∈ g.edges)
    (hlast : g.shouldCleanup ts = true → g.Lasting ts e ∧ g.edges.length ≤ maxEdges) :
    e ∈ (g.periodicCleanup ts).edges := by
  rw [mem_periodicCleanup fun hdue => (hlast hdue).2]
  refine ⟨he, ?_⟩
  intro hdue
  exact (mem_survivingEdges_of_isBinding hg hb).mpr ⟨he, (hlast hdue).1⟩

end Cleanup

section Steps

variable [FloatArith F] {ns : Option String}

theorem not_isPid_signalWrites {engine : SignalEngine F} {event : Event} {w : NodeWrite}
    (hw : w ∈ signalWrites engine event) : ¬ IsPid event.nodeId w.target := by
  obtain ⟨point, _, _, rfl, _, hentity, _⟩ := mem_signalWrites hw
  exact not_isPid_signalNode hentity

theorem pidTyped_updateSignals {g : StateGraph F} (hg : g.PidTyped ns) {event : Event}
    (hns : event.nodeId = ns) : (g.updateSignals event).PidTyped ns := by
  subst hns
  intro id node hnode
  rw [lookup_updateSignals] at hnode
  refine NodeWrite.nodeType_effectAt
    (P := fun id ty => ty = .process ↔ IsPid event.nodeId id) ?_ (hg id) node hnode
  intro w hw
  have hnot := not_isPid_signalWrites hw
  obtain ⟨point, _, _, rfl, _⟩ := mem_signalWrites hw
  constructor
  · intro hty
    cases hty
  · intro hpid
    exact absurd hpid hnot

theorem procAt_updateSignals (g : StateGraph F) {event : Event} (hns : event.nodeId = ns)
    (pid : Nat) :
    (g.updateSignals event).procAt (pidId ns pid) = g.procAt (pidId ns pid) := by
  subst hns
  unfold procAt
  rw [lookup_updateSignals, NodeWrite.effectAt_of_ne]
  intro w hw htarget
  exact not_isPid_signalWrites hw ⟨pid, htarget⟩

theorem pidTyped_applyEvent {g : StateGraph F} (hg : g.PidTyped ns) {event : Event}
    (hns : event.nodeId = ns) (h : NotPid event.entityId) :
    (g.applyEvent event).PidTyped ns := by
  exact pidTyped_updateSignals
    (pidTyped_periodicCleanup (pidTyped_handle hg hns h) event.ts) hns

theorem procAt_applyEvent {g : StateGraph F} (hg : g.PidTyped ns) {event : Event}
    (hns : event.nodeId = ns) (h : NotPid event.entityId) (pid : Nat) :
    (g.applyEvent event).procAt (pidId ns pid) =
      if g.shouldCleanup event.ts = true then
        Proc.survivor (event.ts - processTtlMs) ((g.handle event).procAt (pidId ns pid))
      else (g.handle event).procAt (pidId ns pid) := by
  unfold applyEvent
  rw [procAt_updateSignals _ hns, procAt_periodicCleanup (pidTyped_handle hg hns h),
    handle_shouldCleanup]

end Steps

section Bindings

variable [FloatArith F]

def bindingEdge (event : Event) : Option Edge :=
  match event.eventType with
  | .computeUtil | .computeMem =>
    event.pid.map fun pid =>
      { edgeType := .consumes
        fromId := pidNodeId event pid
        toId := entityNodeId event
        ts := event.ts }
  | _ => none

theorem mem_handle_of_consumes {g : StateGraph F} {event : Event} {e : Edge}
    (hc : e.edgeType = .consumes) :
    e ∈ (g.handle event).edges ↔
      e ∈ g.edges ∨ (e ∈ bindingEdge event ∧ edgeKey e ∉ g.edgeIndex) := by
  -- the edges of all other events are of another type
  have hother : (∀ x ∈ assertedEdges F g.edges event, x.edgeType ≠ .consumes) →
      bindingEdge event = none →
      (e ∈ (g.toEdgeStore.upsertEdges (assertedEdges F g.edges event)).edges ↔
        e ∈ g.edges ∨ (e ∈ bindingEdge event ∧ edgeKey e ∉ g.edgeIndex)) := by
    intro htypes hnone
    rw [EdgeStore.mem_upsertEdges_of_notMem fun he => htypes e he hc, hnone]
    simp
  rw [handle_edgeStore]
  cases hty : event.eventType with
  | computeUtil | computeMem =>
    cases hpid : event.pid with
    | none =>
      exact hother (by simp [assertedEdges, hty, hpid]) (by simp [bindingEdge, hty, hpid])
    | some pid =>
      simp only [assertedEdges, bindingEdge, hty, hpid, EdgeStore.upsertEdges,
        List.foldl_cons, List.foldl_nil, EdgeStore.mem_upsertEdge, Option.map_some,
        Option.mem_def, Option.some.injEq, eq_comm]
  | transportBw | transportDrop | storageIops | storageQDepth =>
    refine hother ?_ (by simp [bindingEdge, hty])
    cases hw : waitingProcess F event <;> simp [assertedEdges, hty, hw]
  | errorHw | errorNet | topoLinkDown =>
    refine hother ?_ (by simp [bindingEdge, hty])
    intro x hx
    simp only [assertedEdges, hty, List.mem_map] at hx
    obtain ⟨_, _, rfl⟩ := hx
    simp
  | processState | intentRun | actionExec =>
    exact hother (by simp [assertedEdges, hty]) (by simp [bindingEdge, hty])

/-- The binding an event records leads from its process to its entity, and the
process is in the graph afterwards. -/
theorem isBinding_of_mem_bindingEdge (g : StateGraph F) {ns : Option String} {event : Event}
    (hns : event.nodeId = ns) (h : NotPid event.entityId) {e : Edge}
    (he : e ∈ bindingEdge event) :
    IsBinding ns e ∧ e.ts = event.ts ∧
      ((g.handle event).procAt e.fromId).isSome = true := by
  have hcompute : ∀ pid, event.pid = some pid →
      procOp F event = some (pid, .ensure none) →
      ((g.handle event).procAt (pidNodeId event pid)).isSome = true := by
    intro pid _ hop
    rw [pidNodeId_eq, procAt_handle g rfl h, hop]
    simp [ProcOp.effectOn, ProcOp.effect]
  subst hns
  unfold bindingEdge at he
  cases hty : event.eventType with
  | computeUtil | computeMem =>
    simp only [hty] at he
    obtain ⟨pid, hpid, rfl⟩ := Option.map_eq_some_iff.mp he
    refine ⟨⟨rfl, ⟨pid, pidNodeId_eq event pid⟩, not_isPid_namespaceNodeId event h⟩, rfl, ?_⟩
    exact hcompute pid hpid (by simp [procOp, hty, hpid])
  | processState | transportBw | transportDrop | storageIops | storageQDepth | errorHw
  | errorNet | topoLinkDown | intentRun | actionExec =>
    simp [hty] at he

theorem length_handle_edges (g : StateGraph F) (event : Event) :
    (g.handle event).edges.length ≤
      g.edges.length + (assertedEdges F g.edges event).length := by
  rw [handle_edgeStore]
  exact EdgeStore.length_upsertEdges _ _

end Bindings

end StateGraph

end ArkInfra
