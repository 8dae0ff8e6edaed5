import ArkInfra.Core.Graph
import ArkInfra.Lib.Run
import Mathlib.Tactic.SplitIfs

/-!
# What one event can do to the graph

Every handler writes nodes in one of three ways (insert, insert when absent,
set a metadata entry of a present node) and adds edges only through
`upsertEdge`.  Which nodes are written depends on the event alone, and which
edges are added on the event and the present edges.  This module states both
once, together with the effect of the cleanup and of the signal update, so
that an invariant of the graph can be proved write by write without looking at
the handlers again.
-/

namespace ArkInfra

inductive NodeWrite where
  | ensure (node : Node)
  | insert (node : Node)
  | touch (id key value : String) (ts : Nat)

namespace NodeWrite

def target : NodeWrite → String
  | .ensure node => node.id
  | .insert node => node.id
  | .touch id _ _ _ => id

def apply (nodes : HashMap String Node) : NodeWrite → HashMap String Node
  | .ensure node => ensureNode nodes node
  | .insert node => nodes.insert node.id node
  | .touch id key value ts => touchNode nodes id key value ts

def effect : NodeWrite → Option Node → Option Node
  | .ensure node, old => some (old.getD node)
  | .insert node, _ => some node
  | .touch _ key value ts, old =>
    old.map fun node =>
      { node with metadata := node.metadata.insert key value, lastUpdate := ts }

theorem lookup_apply (nodes : HashMap String Node) (w : NodeWrite) (id : String) :
    (w.apply nodes).lookup id =
      if w.target = id then w.effect (nodes.lookup id) else nodes.lookup id := by
  cases w with
  | ensure node =>
    simp only [apply, ensureNode, HashMap.lookup_ensure, target, effect, eq_comm]
  | insert node =>
    simp only [apply, HashMap.lookup_insert_ite, target, effect, eq_comm]
  | touch i key value ts =>
    simp only [apply, touchNode, HashMap.lookup_modify, target, effect, eq_comm]

def applyAll (nodes : HashMap String Node) (ws : List NodeWrite) :
    HashMap String Node :=
  ws.foldl apply nodes

def effectAt (id : String) (ws : List NodeWrite) (old : Option Node) : Option Node :=
  ws.foldl (fun o w => if w.target = id then w.effect o else o) old

@[simp] theorem effectAt_nil (id : String) (old : Option Node) :
    effectAt id [] old = old := by
  rfl

@[simp] theorem effectAt_cons (id : String) (w : NodeWrite) (ws : List NodeWrite)
    (old : Option Node) :
    effectAt id (w :: ws) old =
      effectAt id ws (if w.target = id then w.effect old else old) := by
  rfl

theorem effectAt_append (id : String) (ws vs : List NodeWrite) (old : Option Node) :
    effectAt id (ws ++ vs) old = effectAt id vs (effectAt id ws old) := by
  simp [effectAt]

theorem lookup_applyAll (nodes : HashMap String Node) (ws : List NodeWrite)
    (id : String) :
    (applyAll nodes ws).lookup id = effectAt id ws (nodes.lookup id) := by
  induction ws generalizing nodes with
  | nil =>
    rfl
  | cons w ws ih =>
    change (applyAll (w.apply nodes) ws).lookup id = _
    rw [ih, lookup_apply, effectAt_cons]

theorem effectAt_of_ne {id : String} {ws : List NodeWrite}
    (h : ∀ w ∈ ws, w.target ≠ id) (old : Option Node) :
    effectAt id ws old = old := by
  induction ws generalizing old with
  | nil =>
    rfl
  | cons w ws ih =>
    rw [effectAt_cons, if_neg (h w (by simp))]
    exact ih (fun w' hw' => h w' (List.mem_cons_of_mem _ hw')) old

/-- A property of the node at an id that every write to the id preserves is
preserved by a list of writes. -/
theorem effectAt_induction {P : Option Node → Prop} {id : String}
    {ws : List NodeWrite} {old : Option Node}
    (hstep : ∀ w ∈ ws, w.target = id → ∀ o, P o → P (w.effect o))
    (hold : P old) : P (effectAt id ws old) := by
  induction ws generalizing old with
  | nil =>
    exact hold
  | cons w ws ih =>
    rw [effectAt_cons]
    apply ih (fun w' hw' => hstep w' (List.mem_cons_of_mem _ hw'))
    by_cases ht : w.target = id
    · rw [if_pos ht]
      exact hstep w (by simp) ht old hold
    · rw [if_neg ht]
      exact hold

/-- A write that stores only nodes whose id and type are related by `P`. -/
def Stores (P : String → NodeType → Prop) : NodeWrite → Prop
  | .ensure node => P node.id node.nodeType
  | .insert node => P node.id node.nodeType
  | .touch _ _ _ _ => True

def StoresProcess : NodeWrite → Prop
  | .ensure node => node.nodeType = .process
  | .insert node => node.nodeType = .process
  | .touch _ _ _ _ => False

instance : DecidablePred StoresProcess
  | .ensure node => inferInstanceAs (Decidable (node.nodeType = .process))
  | .insert node => inferInstanceAs (Decidable (node.nodeType = .process))
  | .touch _ _ _ _ => inferInstanceAs (Decidable False)

/-- A relation between ids and types is kept by writes that store only nodes in
the relation. -/
theorem nodeType_effectAt {P : String → NodeType → Prop} {ws : List NodeWrite}
    (hws : ∀ w ∈ ws, w.Stores P) {id : String} {old : Option Node}
    (hold : ∀ node, old = some node → P id node.nodeType) :
    ∀ node, effectAt id ws old = some node → P id node.nodeType := by
  refine effectAt_induction
    (P := fun o => ∀ node, o = some node → P id node.nodeType) ?_ hold
  intro w hw htarget o ho node hnode
  have hstores := hws w hw
  cases w with
  | ensure new =>
    obtain rfl : o.getD new = node := by simpa [effect] using hnode
    cases o with
    | none =>
      change P id new.nodeType
      rw [← htarget]
      exact hstores
    | some n =>
      exact ho n rfl
  | insert new =>
    obtain rfl : new = node := by simpa [effect] using hnode
    rw [← htarget]
    exact hstores
  | touch i key value ts =>
    obtain ⟨n, hn, rfl⟩ := Option.map_eq_some_iff.mp hnode
    exact ho n hn

theorem isSome_effectAt {id : String} {ws : List NodeWrite} {old : Option Node}
    (h : old.isSome = true) : (effectAt id ws old).isSome = true := by
  refine effectAt_induction (P := fun o => o.isSome = true) ?_ h
  intro w _ _ o ho
  cases w with
  | ensure node => rfl
  | insert node => rfl
  | touch i key value ts => simpa [effect] using ho

theorem id_effectAt {id : String} {ws : List NodeWrite} {old : Option Node}
    (hold : ∀ node ∈ old, node.id = id) : ∀ node ∈ effectAt id ws old, node.id = id := by
  refine effectAt_induction (P := fun o => ∀ node ∈ o, node.id = id) ?_ hold
  intro w _ htarget o ho node hnode
  cases w with
  | ensure new =>
    obtain rfl : o.getD new = node := by simpa [effect] using hnode
    cases o with
    | none => exact htarget
    | some n => exact ho n rfl
  | insert new =>
    obtain rfl : new = node := by simpa [effect] using hnode
    exact htarget
  | touch i key value ts =>
    obtain ⟨n, hn, rfl⟩ := Option.map_eq_some_iff.mp hnode
    exact ho n hn

/-- What every write to the id brings about holds after the writes, when there
is one. -/
theorem effectAt_of_mem {P : Option Node → Prop} {id : String} {ws : List NodeWrite}
    {old : Option Node} (hmem : ∃ w ∈ ws, w.target = id) (hold : old = none ∨ P old)
    (hstep : ∀ w ∈ ws, w.target = id → ∀ o, o = none ∨ P o → P (w.effect o)) :
    P (effectAt id ws old) := by
  induction ws generalizing old with
  | nil =>
    simp at hmem
  | cons w ws ih =>
    rw [effectAt_cons]
    have hrest := fun w' hw' => hstep w' (List.mem_cons_of_mem w hw')
    by_cases ht : w.target = id
    · rw [if_pos ht]
      refine effectAt_induction (fun w' hw' ht' o ho => hrest w' hw' ht' o (Or.inr ho)) ?_
      exact hstep w List.mem_cons_self ht old hold
    · rw [if_neg ht]
      obtain ⟨w', hw', ht'⟩ := hmem
      rcases List.mem_cons.mp hw' with rfl | hw'
      · exact absurd ht' ht
      · exact ih ⟨w', hw', ht'⟩ hold hrest

/-- What every write to the id leaves there, whatever stood before, stands there
after the writes, when there is one. -/
theorem effectAt_of_writes {P : Option Node → Prop} {id : String} {ws : List NodeWrite}
    {old : Option Node} (hmem : ∃ w ∈ ws, w.target = id)
    (hstep : ∀ w ∈ ws, w.target = id → ∀ o, P (w.effect o)) : P (effectAt id ws old) := by
  obtain ⟨w, hw, ht⟩ := hmem
  obtain ⟨front, back, rfl⟩ := List.append_of_mem hw
  rw [effectAt_append, effectAt_cons, if_pos ht]
  refine effectAt_induction ?_ (hstep w hw ht _)
  intro w' hw' ht' o _
  exact hstep w' (by simp [hw']) ht' o

theorem isSome_effectAt_of_ensure {ws : List NodeWrite} {node : Node}
    (h : .ensure node ∈ ws) {old : Option Node} :
    (effectAt node.id ws old).isSome = true := by
  induction ws generalizing old with
  | nil =>
    simp at h
  | cons w ws ih =>
    rw [effectAt_cons]
    rcases List.mem_cons.mp h with rfl | hmem
    · apply isSome_effectAt
      simp [target, effect]
    · exact ih hmem

end NodeWrite

open NodeWrite

/-- The process whose wait a transport event records, with the metadata of a
node created for it. -/
def waitingProcess (F : Type) [FloatArith F] (event : Event) :
    Option (Nat × HashMap String String) :=
  if event.eventType = .transportDrop then
    if 0 < dropPid event then some (dropPid event, runningMetadata) else none
  else if event.eventType = .transportBw then
    match event.pid with
    | some pid => if StateGraph.shouldCreateWaitson F event then some (pid, ∅) else none
    | none => none
  else
    none

/-- The writes of a `process.state` event. -/
def processWrites (event : Event) : List NodeWrite :=
  match event.pid with
  | none => []
  | some pid =>
    if event.value = "start" then
      [.insert (processNode (pidNodeId event pid) event.ts (startMetadata event))]
    else if event.value = "exit" ∨ event.value = "zombie" then
      [.touch (pidNodeId event pid) "state" event.value event.ts]
    else
      []

def computeWrites (event : Event) : List NodeWrite :=
  [.ensure (resourceNode (entityNodeId event) event.ts),
    .touch (entityNodeId event) "util" event.value event.ts] ++
  match event.pid with
  | none => []
  | some pid => [.ensure (processNode (pidNodeId event pid) event.ts ∅)]

/-- The writes of a transport or storage event. -/
def transportWrites (F : Type) [FloatArith F] (event : Event) : List NodeWrite :=
  let resourceId := namespaceNodeId event (transportResourceBase event)
  [.ensure (resourceNode resourceId event.ts),
    .touch resourceId (transportKey event.eventType) event.value event.ts] ++
  match waitingProcess F event with
  | none => []
  | some p => [.ensure (processNode (pidNodeId event p.1) event.ts p.2)]

def nodeWrites (F : Type) [FloatArith F] (event : Event) : List NodeWrite :=
  match event.eventType with
  | .processState => processWrites event
  | .computeUtil | .computeMem => computeWrites event
  | .transportBw | .transportDrop | .storageIops | .storageQDepth =>
    transportWrites F event
  | .errorHw | .errorNet | .topoLinkDown => [.ensure (errorNode (errorNodeId event) event)]
  | .intentRun | .actionExec => []

/-- A process that is first seen waiting gets no metadata or that of a running
one. -/
theorem waitingProcess_metadata {F : Type} [FloatArith F] {event : Event}
    {p : Nat × HashMap String String} (h : waitingProcess F event = some p) :
    p.2 = ∅ ∨ p.2 = runningMetadata := by
  unfold waitingProcess at h
  cases hpid : event.pid with
  | none =>
    simp only [hpid] at h
    split_ifs at h
    cases h
    exact Or.inr rfl
  | some pid =>
    simp only [hpid] at h
    split_ifs at h
    · cases h
      exact Or.inr rfl
    · cases h
      exact Or.inl rfl

theorem state_of_mentioned {metadata : HashMap String String}
    (h : metadata = ∅ ∨ metadata = runningMetadata) :
    metadata.lookup "state" = none ∨ metadata.lookup "state" = some "running" := by
  rcases h with rfl | rfl
  · exact Or.inl rfl
  · exact Or.inr (AList.lookup_insert _)

/-- The event starts the process with the given node id. -/
def Event.Starts (event : Event) (id : String) : Prop :=
  event.eventType = .processState ∧ event.value = "start" ∧
    ∃ pid ∈ event.pid, pidNodeId event pid = id

/-- The event reports the end of the process with the given node id. -/
def Event.Ends (event : Event) (id : String) : Prop :=
  event.eventType = .processState ∧ (event.value = "exit" ∨ event.value = "zombie") ∧
    ∃ pid ∈ event.pid, pidNodeId event pid = id

instance (event : Event) (id : String) : Decidable (event.Starts id) :=
  inferInstanceAs (Decidable (_ ∧ _ ∧ ∃ pid ∈ _, _))

instance (event : Event) (id : String) : Decidable (event.Ends id) :=
  inferInstanceAs (Decidable (_ ∧ _ ∧ ∃ pid ∈ _, _))

/-- The name of the resource the event speaks about. -/
def Event.NamesResource (event : Event) (base : String) : Prop :=
  base = event.entityId ∨ base = transportResourceBase event

/-- The writes an event can make, with what they write. -/
inductive ExactWriteOf (event : Event) : NodeWrite → Prop
  | resource (base : String) (hbase : event.NamesResource base) :
      ExactWriteOf event (.ensure (resourceNode (namespaceNodeId event base) event.ts))
  | metric (base key : String) (hbase : event.NamesResource base)
      (hkey : key = "util" ∨ ∃ ty, key = transportKey ty) :
      ExactWriteOf event (.touch (namespaceNodeId event base) key event.value event.ts)
  | mention (pid : Nat) (metadata : HashMap String String)
      (hmetadata : metadata = ∅ ∨ metadata = runningMetadata) :
      ExactWriteOf event (.ensure (processNode (pidNodeId event pid) event.ts metadata))
  | start (id : String) (h : event.Starts id) :
      ExactWriteOf event (.insert (processNode id event.ts (startMetadata event)))
  | finish (id : String) (h : event.Ends id) :
      ExactWriteOf event (.touch id "state" event.value event.ts)
  | error : ExactWriteOf event (.ensure (errorNode (errorNodeId event) event))

/-- **What an event can write.** -/
theorem exactWriteOf_of_mem {F : Type} [FloatArith F] {event : Event} {w : NodeWrite}
    (h : w ∈ nodeWrites F event) : ExactWriteOf event w := by
  unfold nodeWrites at h
  cases hty : event.eventType with
  | processState =>
    simp only [hty, processWrites] at h
    cases hpid : event.pid with
    | none =>
      simp [hpid] at h
    | some pid =>
      simp only [hpid] at h
      split_ifs at h with hstart hend
      · rw [List.mem_singleton.mp h]
        exact .start _ ⟨hty, hstart, pid, hpid, rfl⟩
      · rw [List.mem_singleton.mp h]
        exact .finish _ ⟨hty, hend, pid, hpid, rfl⟩
      · simp at h
  | computeUtil | computeMem =>
    simp only [hty, computeWrites, List.cons_append, List.nil_append, List.mem_cons] at h
    rcases h with rfl | rfl | h
    · exact .resource _ (Or.inl rfl)
    · exact .metric _ _ (Or.inl rfl) (Or.inl rfl)
    · cases hpid : event.pid with
      | none =>
        simp [hpid] at h
      | some pid =>
        simp only [hpid, List.mem_singleton] at h
        rw [h]
        exact .mention pid ∅ (Or.inl rfl)
  | transportBw | transportDrop | storageIops | storageQDepth =>
    simp only [hty, transportWrites, List.cons_append, List.nil_append, List.mem_cons] at h
    rcases h with rfl | rfl | h
    · exact .resource _ (Or.inr rfl)
    · exact .metric _ _ (Or.inr rfl) (Or.inr ⟨_, rfl⟩)
    · cases hw : waitingProcess F event with
      | none =>
        simp [hw] at h
      | some p =>
        simp only [hw, List.mem_singleton] at h
        rw [h]
        exact .mention p.1 p.2 (waitingProcess_metadata hw)
  | errorHw | errorNet | topoLinkDown =>
    simp only [hty, List.mem_singleton] at h
    rw [h]
    exact .error
  | intentRun | actionExec =>
    simp [hty] at h

/-- The six kinds of writes an event can make, as far as the states of
processes are concerned. -/
inductive WriteOf (event : Event) : NodeWrite → Prop
  | resource (base : String) (hbase : event.NamesResource base) :
      WriteOf event (.ensure (resourceNode (namespaceNodeId event base) event.ts))
  | metric (base key : String) (hbase : event.NamesResource base) (hkey : key ≠ "state") :
      WriteOf event (.touch (namespaceNodeId event base) key event.value event.ts)
  | mention (pid : Nat) (metadata : HashMap String String)
      (hstate : metadata.lookup "state" = none ∨ metadata.lookup "state" = some "running") :
      WriteOf event (.ensure (processNode (pidNodeId event pid) event.ts metadata))
  | start (id : String) (h : event.Starts id) :
      WriteOf event (.insert (processNode id event.ts (startMetadata event)))
  | finish (id : String) (h : event.Ends id) :
      WriteOf event (.touch id "state" event.value event.ts)
  | error : WriteOf event (.ensure (errorNode (errorNodeId event) event))

theorem transportKey_ne_state (ty : EventType) : transportKey ty ≠ "state" := by
  cases ty <;> decide

theorem ExactWriteOf.writeOf {event : Event} {w : NodeWrite} (h : ExactWriteOf event w) :
    WriteOf event w := by
  cases h with
  | resource base hbase =>
    exact .resource base hbase
  | metric base key hbase hkey =>
    refine .metric base key hbase ?_
    rcases hkey with rfl | ⟨ty, rfl⟩
    · decide
    · exact transportKey_ne_state ty
  | mention pid metadata hmetadata =>
    exact .mention pid metadata (state_of_mentioned hmetadata)
  | start id hstart =>
    exact .start id hstart
  | finish id hend =>
    exact .finish id hend
  | error =>
    exact .error

theorem writeOf_of_mem {F : Type} [FloatArith F] {event : Event} {w : NodeWrite}
    (h : w ∈ nodeWrites F event) : WriteOf event w := by
  exact (exactWriteOf_of_mem h).writeOf

/-- An event makes at most one write, or it writes a resource first and then
stores processes only. -/
theorem nodeWrites_shape (F : Type) [FloatArith F] (event : Event) :
    (∀ w ∈ nodeWrites F event, nodeWrites F event = [w]) ∨
      ∃ rid key tail, (∀ w ∈ tail, w.StoresProcess) ∧
        nodeWrites F event =
          [.ensure (resourceNode rid event.ts), .touch rid key event.value event.ts] ++ tail := by
  unfold nodeWrites
  cases event.eventType with
  | processState =>
    left
    intro w hw
    simp only [processWrites] at hw ⊢
    cases hpid : event.pid with
    | none =>
      simp [hpid] at hw
    | some pid =>
      simp only [hpid] at hw ⊢
      split_ifs at hw ⊢
      · rw [List.mem_singleton.mp hw]
      · rw [List.mem_singleton.mp hw]
      · simp at hw
  | computeUtil | computeMem =>
    right
    refine ⟨entityNodeId event, "util", _, ?_, rfl⟩
    cases event.pid with
    | none => simp
    | some pid => simp [StoresProcess, processNode]
  | transportBw | transportDrop | storageIops | storageQDepth =>
    right
    refine ⟨_, _, _, ?_, rfl⟩
    cases waitingProcess F event with
    | none => simp
    | some p => simp [StoresProcess, processNode]
  | errorHw | errorNet | topoLinkDown | intentRun | actionExec =>
    left
    simp

/-- The edges an event adds to the graph, unless they exist. -/
def assertedEdges (F : Type) [FloatArith F] (edges : List Edge) (event : Event) :
    List Edge :=
  match event.eventType with
  | .computeUtil | .computeMem =>
    match event.pid with
    | none => []
    | some pid =>
      [{ edgeType := .consumes
         fromId := pidNodeId event pid
         toId := entityNodeId event
         ts := event.ts }]
  | .transportBw | .transportDrop | .storageIops | .storageQDepth =>
    match waitingProcess F event with
    | none => []
    | some p =>
      [{ edgeType := .waitsOn
         fromId := pidNodeId event p.1
         toId := namespaceNodeId event (transportResourceBase event)
         ts := event.ts }]
  | .errorHw | .errorNet | .topoLinkDown =>
    (edges.filter
      (fun e => decide (e.edgeType = .consumes) &&
        decide (e.toId = entityNodeId event))).map
      (fun e =>
        { edgeType := .blockedBy
          fromId := e.fromId
          toId := errorNodeId event
          ts := event.ts })
  | .processState | .intentRun | .actionExec => []

/-- The two kinds of edges an event can assert: one edge from a process to a
resource, both of which it also writes, or edges to its error node from the
processes that consume its entity. -/
inductive EdgeOf (F : Type) [FloatArith F] (edges : List Edge) (event : Event) : Edge → Prop
  | binding (edgeType : EdgeType) (pid : Nat) (base : String) (metadata : HashMap String String)
      (hbase : event.NamesResource base)
      (htype : edgeType ≠ .blockedBy)
      (hfrom : .ensure (processNode (pidNodeId event pid) event.ts metadata) ∈ nodeWrites F event)
      (hto : .ensure (resourceNode (namespaceNodeId event base) event.ts) ∈ nodeWrites F event)
      (honly : assertedEdges F edges event =
        [⟨edgeType, pidNodeId event pid, namespaceNodeId event base, event.ts⟩]) :
      EdgeOf F edges event ⟨edgeType, pidNodeId event pid, namespaceNodeId event base, event.ts⟩
  | block (c : Edge) (hc : c ∈ edges) (hentity : c.toId = entityNodeId event)
      (hto : .ensure (errorNode (errorNodeId event) event) ∈ nodeWrites F event) :
      EdgeOf F edges event ⟨.blockedBy, c.fromId, errorNodeId event, event.ts⟩

/-- **What an event can assert.** -/
theorem edgeOf_of_mem {F : Type} [FloatArith F] {edges : List Edge} {event : Event} {e : Edge}
    (h : e ∈ assertedEdges F edges event) : EdgeOf F edges event e := by
  cases hty : event.eventType with
  | processState | intentRun | actionExec =>
    simp [assertedEdges, hty] at h
  | computeUtil | computeMem =>
    cases hpid : event.pid with
    | none =>
      simp [assertedEdges, hty, hpid] at h
    | some pid =>
      have honly : assertedEdges F edges event =
          [⟨.consumes, pidNodeId event pid, entityNodeId event, event.ts⟩] := by
        simp [assertedEdges, hty, hpid]
      obtain rfl := List.mem_singleton.mp (honly ▸ h)
      refine .binding .consumes pid event.entityId ∅ (Or.inl rfl) (by decide) ?_ ?_ honly
      · simp [nodeWrites, hty, computeWrites, hpid]
      · simp [nodeWrites, hty, computeWrites, entityNodeId]
  | transportBw | transportDrop | storageIops | storageQDepth =>
    cases hw : waitingProcess F event with
    | none =>
      simp [assertedEdges, hty, hw] at h
    | some p =>
      have honly : assertedEdges F edges event =
          [⟨.waitsOn, pidNodeId event p.1,
            namespaceNodeId event (transportResourceBase event), event.ts⟩] := by
        simp [assertedEdges, hty, hw]
      obtain rfl := List.mem_singleton.mp (honly ▸ h)
      refine .binding .waitsOn p.1 _ p.2 (Or.inr rfl) (by decide) ?_ ?_ honly
      · simp [nodeWrites, hty, transportWrites, hw]
      · simp [nodeWrites, hty, transportWrites]
  | errorHw | errorNet | topoLinkDown =>
    simp only [assertedEdges, hty, List.mem_map, List.mem_filter, Bool.and_eq_true,
      decide_eq_true_eq] at h
    obtain ⟨c, ⟨hc, _, hentity⟩, rfl⟩ := h
    exact .block c hc hentity (by simp [nodeWrites, hty])

namespace EdgeStore

@[simp] theorem rebuildIndexes_edges (edges : List Edge) :
    (rebuildIndexes edges).edges = edges := by
  have key : ∀ (l : List Edge) (s : EdgeStore),
      (l.foldl indexEdge s).edges = s.edges := by
    intro l
    induction l with
    | nil =>
      intro s
      rfl
    | cons e l ih =>
      intro s
      rw [List.foldl_cons, ih]
      rfl
  exact key edges _

theorem mem_upsertEdges {s : EdgeStore} {edges : List Edge} {e : Edge}
    (h : e ∈ (s.upsertEdges edges).edges) : e ∈ s.edges ∨ e ∈ edges := by
  unfold upsertEdges at h
  induction edges generalizing s with
  | nil =>
    exact Or.inl h
  | cons edge edges ih =>
    rcases ih h with hs | hs
    · unfold upsertEdge at hs
      simp only at hs
      split_ifs at hs
      · exact Or.inl hs
      · rcases List.mem_append.mp hs with hs | hs
        · exact Or.inl hs
        · exact Or.inr (by simp [List.mem_singleton.mp hs])
    · exact Or.inr (List.mem_cons_of_mem _ hs)

end EdgeStore

namespace StateGraph

variable {F : Type}

section Handle

variable [FloatArith F]

theorem handleTransportEvent_eq (g : StateGraph F) (event : Event) :
    g.handleTransportEvent event =
      { g with
        nodes := applyAll g.nodes (transportWrites F event)
        toEdgeStore :=
          match waitingProcess F event with
          | none => g.toEdgeStore
          | some p =>
            (g.toEdgeStore.upsertEdge
              { edgeType := .waitsOn
                fromId := pidNodeId event p.1
                toId := namespaceNodeId event (transportResourceBase event)
                ts := event.ts }).1 } := by
  unfold handleTransportEvent transportWrites waitingProcess
  by_cases hd : event.eventType = .transportDrop
  · by_cases hp : 0 < dropPid event
    · simp [hd, hp, applyAll, apply]
    · simp [hd, hp, applyAll, apply]
  · by_cases hb : event.eventType = .transportBw
    · cases hpid : event.pid with
      | none =>
        simp [hb, applyAll, apply]
      | some pid =>
        by_cases hw : shouldCreateWaitson F event
        · simp [hb, hw, applyAll, apply]
        · simp [hb, hw, applyAll, apply]
    · simp [hd, hb, applyAll, apply]

/-- **What a handler does**: its node writes, and upserts of the edges the
event asserts. -/
theorem handle_eq (g : StateGraph F) (event : Event) :
    g.handle event =
      { g with
        nodes := applyAll g.nodes (nodeWrites F event)
        toEdgeStore := g.toEdgeStore.upsertEdges (assertedEdges F g.edges event) } := by
  unfold handle nodeWrites assertedEdges
  cases event.eventType with
  | processState =>
    simp only [handleProcessState, processWrites]
    cases event.pid with
    | none =>
      rfl
    | some pid =>
      by_cases hs : event.value = "start"
      · simp [hs, applyAll, apply, processNode, EdgeStore.upsertEdges]
      · by_cases he : event.value = "exit" ∨ event.value = "zombie"
        · simp [hs, he, applyAll, apply, EdgeStore.upsertEdges]
        · simp [hs, he, applyAll, EdgeStore.upsertEdges]
  | computeUtil | computeMem =>
    simp only [handleComputeEvent, computeWrites]
    cases event.pid with
    | none =>
      rfl
    | some pid =>
      rfl
  | transportBw | transportDrop | storageIops | storageQDepth =>
    simp only [handleStorageEvent, handleTransportEvent_eq]
    cases waitingProcess F event with
    | none =>
      rfl
    | some p =>
      rfl
  | errorHw | errorNet | topoLinkDown =>
    simp only [handleTopoEvent, handleErrorEvent, EdgeStore.upsertEdges,
      List.foldl_map]
    rfl
  | intentRun | actionExec =>
    rfl

theorem lookup_handle (g : StateGraph F) (event : Event) (id : String) :
    (g.handle event).nodes.lookup id =
      effectAt id (nodeWrites F event) (g.nodes.lookup id) := by
  rw [handle_eq, lookup_applyAll]

@[simp] theorem handle_edgeStore (g : StateGraph F) (event : Event) :
    (g.handle event).toEdgeStore =
      g.toEdgeStore.upsertEdges (assertedEdges F g.edges event) := by
  rw [handle_eq]

@[simp] theorem handle_signals (g : StateGraph F) (event : Event) :
    (g.handle event).signals = g.signals := by
  rw [handle_eq]

@[simp] theorem handle_errorWindowMs (g : StateGraph F) (event : Event) :
    (g.handle event).errorWindowMs = g.errorWindowMs := by
  rw [handle_eq]

@[simp] theorem handle_cleanupIntervalMs (g : StateGraph F) (event : Event) :
    (g.handle event).cleanupIntervalMs = g.cleanupIntervalMs := by
  rw [handle_eq]

@[simp] theorem handle_lastCleanupTs (g : StateGraph F) (event : Event) :
    (g.handle event).lastCleanupTs = g.lastCleanupTs := by
  rw [handle_eq]

end Handle

section Cleanup

/-- The nodes a cleanup at the given time removes. -/
def isExpired (g : StateGraph F) (currentTs : Nat) (node : Node) : Bool :=
  isExpiredError (currentTs - g.errorWindowMs) node ||
    isDeadProcess (currentTs - processTtlMs) node

theorem lookup_cleanupOldErrors (g : StateGraph F) (currentTs : Nat) (id : String) :
    (g.cleanupOldErrors currentTs).nodes.lookup id =
      (g.nodes.lookup id).filter (fun node => !g.isExpired currentTs node) := by
  simp only [cleanupOldErrors, removeExpired, scanExpired, HashMap.lookup_removeAll,
    HashMap.mem_keysWhere]
  cases h : g.nodes.lookup id with
  | none =>
    simp
  | some node =>
    simp only [Option.some.injEq, exists_eq_left', isExpired, Option.filter_some]
    cases isExpiredError (currentTs - g.errorWindowMs) node <;>
      cases isDeadProcess (currentTs - processTtlMs) node <;> simp

theorem isExpired_of_mem_scanExpired {g : StateGraph F} {ts : Nat} {id : String}
    (h : id ∈ (g.scanExpired ts).1 ∨ id ∈ (g.scanExpired ts).2) :
    ∃ node ∈ g.nodes.lookup id, g.isExpired ts node = true := by
  simp only [scanExpired, HashMap.mem_keysWhere] at h
  rcases h with ⟨node, hnode, hexp⟩ | ⟨node, hnode, hexp⟩
  · exact ⟨node, hnode, by simp [isExpired, hexp]⟩
  · exact ⟨node, hnode, by simp [isExpired, hexp]⟩

/-- The edges a cleanup at the given time keeps, before the capacity guard. -/
def survivingEdges (g : StateGraph F) (currentTs : Nat) : List Edge :=
  retainEdges (g.scanExpired currentTs).1 (g.scanExpired currentTs).2
    (currentTs - edgeTtlMs) g.edges

@[simp] theorem cleanupOldErrors_edgeStore (g : StateGraph F) (currentTs : Nat) :
    (g.cleanupOldErrors currentTs).toEdgeStore =
      EdgeStore.rebuildIndexes (capEdges (g.survivingEdges currentTs)) := by
  rfl

theorem capEdges_of_le {edges : List Edge} (h : edges.length ≤ maxEdges) :
    capEdges edges = edges := by
  rw [capEdges, if_neg (Nat.not_lt.mpr h)]

theorem capEdges_subset {edges : List Edge} {e : Edge} (h : e ∈ capEdges edges) :
    e ∈ edges := by
  unfold capEdges at h
  split_ifs at h
  · exact (List.mergeSort_perm edges _).mem_iff.mp (List.mem_of_mem_take h)
  · exact h

/-- The cleanup keeps an edge when it is young enough, touches no dead process
and is not blocked by an expired error. -/
theorem mem_survivingEdges {g : StateGraph F} {currentTs : Nat} {e : Edge} :
    e ∈ g.survivingEdges currentTs ↔
      e ∈ g.edges ∧
      ¬(e.edgeType = .blockedBy ∧ e.toId ∈ (g.scanExpired currentTs).1) ∧
      e.fromId ∉ (g.scanExpired currentTs).2 ∧
      e.toId ∉ (g.scanExpired currentTs).2 ∧
      currentTs - edgeTtlMs ≤ e.ts := by
  simp only [survivingEdges, retainEdges, List.mem_filter, Bool.not_eq_true',
    Bool.and_eq_true, decide_eq_true_eq, Bool.and_eq_false_iff, decide_eq_false_iff_not,
    ge_iff_le, not_and_or, and_assoc]

@[simp] theorem periodicCleanup_signals (g : StateGraph F) (ts : Nat) :
    (g.periodicCleanup ts).signals = g.signals := by
  unfold periodicCleanup
  split_ifs <;> rfl

@[simp] theorem periodicCleanup_errorWindowMs (g : StateGraph F) (ts : Nat) :
    (g.periodicCleanup ts).errorWindowMs = g.errorWindowMs := by
  unfold periodicCleanup
  split_ifs <;> rfl

@[simp] theorem periodicCleanup_cleanupIntervalMs (g : StateGraph F) (ts : Nat) :
    (g.periodicCleanup ts).cleanupIntervalMs = g.cleanupIntervalMs := by
  unfold periodicCleanup
  split_ifs <;> rfl

@[simp] theorem periodicCleanup_lastCleanupTs (g : StateGraph F) (ts : Nat) :
    (g.periodicCleanup ts).lastCleanupTs =
      if g.shouldCleanup ts = true then ts else g.lastCleanupTs := by
  unfold periodicCleanup
  split_ifs <;> rfl

theorem lookup_of_periodicCleanup {g : StateGraph F} {ts : Nat} {id : String}
    {node : Node} (h : (g.periodicCleanup ts).nodes.lookup id = some node) :
    g.nodes.lookup id = some node := by
  unfold periodicCleanup at h
  split_ifs at h
  · rw [lookup_cleanupOldErrors, Option.filter_eq_some_iff] at h
    exact h.1
  · exact h

theorem edges_of_periodicCleanup {g : StateGraph F} {ts : Nat} {e : Edge}
    (h : e ∈ (g.periodicCleanup ts).edges) : e ∈ g.edges := by
  unfold periodicCleanup at h
  split_ifs at h
  · change e ∈ (g.cleanupOldErrors ts).edges at h
    rw [cleanupOldErrors_edgeStore, EdgeStore.rebuildIndexes_edges] at h
    exact (mem_survivingEdges.mp (capEdges_subset h)).1
  · exact h

/-- The cleanup is due before an event is handled exactly when it is due
afterwards. -/
@[simp] theorem handle_shouldCleanup [FloatArith F] (g : StateGraph F) (event : Event)
    (ts : Nat) : (g.handle event).shouldCleanup ts = g.shouldCleanup ts := by
  simp [shouldCleanup]

end Cleanup

section Signals

variable [FloatArith F]

def signalWrites (engine : SignalEngine F) (event : Event) : List NodeWrite :=
  (engine.onEvent event).2.map fun point => .insert (signalNode point)

theorem updateSignals_nodes (g : StateGraph F) (event : Event) :
    (g.updateSignals event).nodes = applyAll g.nodes (signalWrites g.signals event) := by
  simp only [updateSignals, signalWrites, applyAll, List.foldl_map]
  rfl

theorem lookup_updateSignals (g : StateGraph F) (event : Event) (id : String) :
    (g.updateSignals event).nodes.lookup id =
      effectAt id (signalWrites g.signals event) (g.nodes.lookup id) := by
  rw [updateSignals_nodes, lookup_applyAll]

/-- The signal update stores resources only: a node of another type was there
before. -/
theorem lookup_of_updateSignals {g : StateGraph F} {event : Event} {id : String}
    {node : Node} (h : (g.updateSignals event).nodes.lookup id = some node)
    (hty : node.nodeType ≠ .resource) : g.nodes.lookup id = some node := by
  rw [lookup_updateSignals] at h
  refine effectAt_induction
    (P := fun o => o = some node → g.nodes.lookup id = some node) ?_ (fun h => h) h
  intro w hw _ o _ hnode
  obtain ⟨point, hpoint, rfl⟩ := List.mem_map.mp hw
  obtain rfl : signalNode point = node := by simpa [effect] using hnode
  exact absurd rfl hty

@[simp] theorem updateSignals_errorWindowMs (g : StateGraph F) (event : Event) :
    (g.updateSignals event).errorWindowMs = g.errorWindowMs := by
  rfl

/-- Every signal write inserts a resource node of a registered signal that the
event matches. -/
theorem mem_signalWrites {engine : SignalEngine F} {event : Event} {w : NodeWrite}
    (h : w ∈ signalWrites engine event) :
    ∃ (point : SignalPoint F) (spec : SignalSpec),
      spec ∈ engine.registry ∧
      w = .insert (signalNode point) ∧
      point.name = spec.name ∧
      point.entityId = entityFromEvent event ∧
      (extractSample spec event : Option F).isSome = true := by
  obtain ⟨point, hpoint, rfl⟩ := List.mem_map.mp h
  obtain ⟨spec, hspec, hname, hentity, _, hsample⟩ := mem_onEvent hpoint
  exact ⟨point, spec, hspec, rfl, hname, hentity, hsample⟩

theorem signalWrites_eq_nil (engine : SignalEngine F) {event : Event}
    (hdrop : event.eventType ≠ .transportDrop) (hutil : event.eventType ≠ .computeUtil) :
    signalWrites engine event = [] := by
  apply List.eq_nil_iff_forall_not_mem.mpr
  intro w hw
  obtain ⟨_, spec, _, _, _, _, hsample⟩ := mem_signalWrites hw
  simp [extractSample, hdrop, hutil] at hsample

@[simp] theorem applyEvent_errorWindowMs (g : StateGraph F) (event : Event) :
    (g.applyEvent event).errorWindowMs = g.errorWindowMs := by
  simp [applyEvent]

@[simp] theorem applyEvent_cleanupIntervalMs (g : StateGraph F) (event : Event) :
    (g.applyEvent event).cleanupIntervalMs = g.cleanupIntervalMs := by
  simp [applyEvent, updateSignals]

@[simp] theorem applyEvent_lastCleanupTs (g : StateGraph F) (event : Event) :
    (g.applyEvent event).lastCleanupTs =
      if g.shouldCleanup event.ts = true then event.ts else g.lastCleanupTs := by
  simp [applyEvent, updateSignals]

@[simp] theorem applyEvent_registry (g : StateGraph F) (event : Event) :
    (g.applyEvent event).signals.registry = g.signals.registry := by
  simp [applyEvent, updateSignals]

theorem applyEvent_edgeStore (g : StateGraph F) (event : Event) :
    (g.applyEvent event).toEdgeStore =
      ((g.handle event).periodicCleanup event.ts).toEdgeStore := by
  rfl

end Signals

section Runs

variable [FloatArith F]

/-- The graph reached from `StateGraph::new` by processing the events. -/
def after (events : List Event) : StateGraph F :=
  Run.run applyEvent new events

theorem after_concat (events : List Event) (event : Event) :
    (after (events ++ [event]) : StateGraph F) = (after events).applyEvent event := by
  exact Run.run_concat _ _ _ _

end Runs

end StateGraph

end ArkInfra
