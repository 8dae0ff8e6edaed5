import ArkInfra.Core.Signal
import Mathlib.Data.Finset.Insert

/-!
# The state graph

`core/src/graph.rs`: the causal graph that is built from the event stream.
Nodes are kept in a map, edges in a vector with two indexes beside it, one for
membership and one for the edges that leave a node.  Each event is handled,
old nodes and edges are removed when the periodic cleanup is due, and the
signals of the event are written back as resource nodes.

Every handler of the source returns `Ok(())`, so a handler is a total function
on the graph here and only `processEvent` keeps the result type of the source.
The locks of the source are taken one section at a time; the sections of one
call are separate definitions (`handle`, `scanExpired`, `removeExpired`,
`updateSignals`).
-/

namespace ArkInfra

/-- Edges older than this are dropped by the cleanup. -/
def edgeTtlMs : Nat := 60 * 60 * 1000

/-- The cleanup keeps at most this many edges. -/
def maxEdges : Nat := 100000

def defaultCleanupIntervalMs : Nat := 30000

/-- A process without an explicit end is stale after ten minutes. -/
def processTtlMs : Nat := 10 * 60 * 1000

/-- The three kinds of derived edges. -/
inductive EdgeType where
  | consumes
  | waitsOn
  | blockedBy
deriving DecidableEq, Repr

/-- An edge of the graph. -/
structure Edge where
  edgeType : EdgeType
  fromId : String
  toId : String
  ts : Nat
deriving DecidableEq, Repr

/-- The kinds of nodes. -/
inductive NodeType where
  | process
  | resource
  | error
deriving DecidableEq, Repr

/-- A node of the graph with its free-form metadata. -/
structure Node where
  id : String
  nodeType : NodeType
  lastUpdate : Nat
  metadata : HashMap String String
deriving DecidableEq

/-- What identifies an edge: everything but its timestamp. -/
structure EdgeKey where
  edgeType : EdgeType
  fromId : String
  toId : String
deriving DecidableEq, Repr

/-- An edge as it is stored under its source node. -/
structure IndexedEdge where
  edgeType : EdgeType
  toId : String
deriving DecidableEq, Repr

structure EdgeStore where
  edges : List Edge
  edgeIndex : Finset EdgeKey
  edgeOutIndex : HashMap String (List IndexedEdge)

/-- The state graph over a floating-point arithmetic. -/
structure StateGraph (F : Type) extends EdgeStore where
  nodes : HashMap String Node
  signals : SignalEngine F
  errorWindowMs : Nat
  cleanupIntervalMs : Nat
  lastCleanupTs : Nat

def edgeKey (edge : Edge) : EdgeKey where
  edgeType := edge.edgeType
  fromId := edge.fromId
  toId := edge.toId

def indexedEdge (edge : Edge) : IndexedEdge where
  edgeType := edge.edgeType
  toId := edge.toId

namespace EdgeStore

def empty : EdgeStore where
  edges := []
  edgeIndex := ∅
  edgeOutIndex := ∅

/-- Add an edge unless an edge with its key exists; tells whether it was
added. -/
def upsertEdge (s : EdgeStore) (edge : Edge) : EdgeStore × Bool :=
  let key := edgeKey edge
  if key ∈ s.edgeIndex then (s, false)
  else
    ({ edges := s.edges ++ [edge]
       edgeIndex := insert key s.edgeIndex
       edgeOutIndex := HashMap.pushAt edge.fromId (indexedEdge edge) s.edgeOutIndex },
      true)

/-- Put one edge of the vector into both indexes. -/
def indexEdge (s : EdgeStore) (edge : Edge) : EdgeStore :=
  { s with
    edgeIndex := insert (edgeKey edge) s.edgeIndex
    edgeOutIndex := HashMap.pushAt edge.fromId (indexedEdge edge) s.edgeOutIndex }

/-- Clear both indexes and fill them from the vector. -/
def rebuildIndexes (edges : List Edge) : EdgeStore :=
  edges.foldl indexEdge { edges := edges, edgeIndex := ∅, edgeOutIndex := ∅ }

def upsertEdges (s : EdgeStore) (edges : List Edge) : EdgeStore :=
  edges.foldl (fun s edge => (s.upsertEdge edge).1) s

end EdgeStore

/-- Prefix a node id with the namespace of the event, if it has one. -/
def namespaceNodeId (event : Event) (nodeId : String) : String :=
  match event.nodeId with
  | some nodeIdPrefix => nodeIdPrefix ++ "::" ++ nodeId
  | none => nodeId

def pidNodeId (event : Event) (pid : Nat) : String :=
  namespaceNodeId event ("pid-" ++ toString pid)

/-- The id of the error node of the event's entity. -/
def errorNodeId (event : Event) : String :=
  namespaceNodeId event ("error-" ++ event.entityId)

/-- The id of the resource node of the event's entity. -/
def entityNodeId (event : Event) : String :=
  namespaceNodeId event event.entityId

/-- Set a metadata entry and the update time of a present node. -/
def touchNode (nodes : HashMap String Node) (id key value : String) (ts : Nat) :
    HashMap String Node :=
  HashMap.modify id
    (fun node => { node with metadata := node.metadata.insert key value, lastUpdate := ts })
    nodes

/-- Insert a node under its id unless the id is taken. -/
def ensureNode (nodes : HashMap String Node) (node : Node) : HashMap String Node :=
  HashMap.ensure node.id node nodes

def resourceNode (id : String) (ts : Nat) : Node where
  id := id
  nodeType := .resource
  lastUpdate := ts
  metadata := ∅

def processNode (id : String) (ts : Nat) (metadata : HashMap String String) : Node where
  id := id
  nodeType := .process
  lastUpdate := ts
  metadata := metadata

/-- The metadata of a process that is first seen by a drop event. -/
def runningMetadata : HashMap String String :=
  (∅ : HashMap String String).insert "state" "running"

def startMetadata (event : Event) : HashMap String String :=
  let metadata :=
    match event.jobId with
    | some jobId => (∅ : HashMap String String).insert "job_id" jobId
    | none => ∅
  metadata.insert "state" "running"

def errorNode (id : String) (event : Event) : Node where
  id := id
  nodeType := .error
  lastUpdate := event.ts
  metadata := (∅ : HashMap String String).insert "error_type" event.value

/-- The resource a transport or storage event is about: the per-process ids of
the network probe share one resource. -/
def transportResourceBase (event : Event) : String :=
  if Text.startsWith event.entityId "network-" then
    match Text.stripPrefix event.entityId "network-pid-" with
    | some _ => "network"
    | none => event.entityId
  else
    event.entityId

/-- The metadata key a transport or storage event is stored under. -/
def transportKey : EventType → String
  | .transportBw => "bw"
  | .transportDrop => "drop"
  | _ => "unknown"

/-- The pid of a drop event, zero when there is none. -/
def dropPid (event : Event) : Nat :=
  match event.pid with
  | some pid => pid
  | none =>
    match Text.stripPrefix event.entityId "network-pid-" with
    | some pidStr => (Text.parseUnsigned (2 ^ 32) pidStr).getD 0
    | none => 0

namespace StateGraph

variable {F : Type}

/-- The graph of `StateGraph::new`. -/
def new : StateGraph F where
  toEdgeStore := EdgeStore.empty
  nodes := ∅
  signals := SignalEngine.new defaultMvp
  errorWindowMs := 5 * 60 * 1000
  cleanupIntervalMs := defaultCleanupIntervalMs
  lastCleanupTs := 0

/-- `process.state`: a start creates the process node anew, an exit or zombie
marks an existing one. -/
def handleProcessState (g : StateGraph F) (event : Event) : StateGraph F :=
  match event.pid with
  | none => g
  | some pid =>
    let pidStr := pidNodeId event pid
    if event.value = "start" then
      { g with
        nodes := g.nodes.insert pidStr
          (processNode pidStr event.ts (startMetadata event)) }
    else if event.value = "exit" ∨ event.value = "zombie" then
      { g with nodes := touchNode g.nodes pidStr "state" event.value event.ts }
    else
      g

/-- `compute.util` and `compute.mem`: refresh the resource and, with a pid,
record that the process consumes it. -/
def handleComputeEvent (g : StateGraph F) (event : Event) : StateGraph F :=
  let resourceId := entityNodeId event
  let nodes := ensureNode g.nodes (resourceNode resourceId event.ts)
  let nodes := touchNode nodes resourceId "util" event.value event.ts
  match event.pid with
  | none => { g with nodes := nodes }
  | some pid =>
    let pidStr := pidNodeId event pid
    { g with
      nodes := ensureNode nodes (processNode pidStr event.ts ∅)
      toEdgeStore :=
        (g.toEdgeStore.upsertEdge
          { edgeType := .consumes
            fromId := pidStr
            toId := resourceId
            ts := event.ts }).1 }

section Arithmetic

variable [FloatArith F]

/-- A bandwidth report counts as blocking when it says so or is below one. -/
def shouldCreateWaitson (F : Type) [FloatArith F] (event : Event) : Bool :=
  Text.contains event.value "IO_WAIT" ||
    FloatArith.lt ((FloatArith.parse event.value : Option F).getD (FloatArith.ofNat 1000))
      (FloatArith.ofNat 1)

/-- `transport.*` and `storage.*`: refresh the resource; a drop, and a blocking
bandwidth report, record that the process waits on it. -/
def handleTransportEvent (g : StateGraph F) (event : Event) : StateGraph F :=
  let resourceId := namespaceNodeId event (transportResourceBase event)
  let nodes := ensureNode g.nodes (resourceNode resourceId event.ts)
  let nodes := touchNode nodes resourceId (transportKey event.eventType) event.value event.ts
  let waitOn (pid : Nat) (metadata : HashMap String String) : StateGraph F :=
    let pidStr := pidNodeId event pid
    { g with
      nodes := ensureNode nodes (processNode pidStr event.ts metadata)
      toEdgeStore :=
        (g.toEdgeStore.upsertEdge
          { edgeType := .waitsOn
            fromId := pidStr
            toId := resourceId
            ts := event.ts }).1 }
  if event.eventType = .transportDrop then
    let pid := dropPid event
    if 0 < pid then waitOn pid runningMetadata else { g with nodes := nodes }
  else if event.eventType = .transportBw then
    match event.pid with
    | some pid =>
      if shouldCreateWaitson F event then waitOn pid ∅ else { g with nodes := nodes }
    | none => { g with nodes := nodes }
  else
    { g with nodes := nodes }

def handleStorageEvent (g : StateGraph F) (event : Event) : StateGraph F :=
  g.handleTransportEvent event

/-- `error.*`: create the error node unless it exists, and block every process
that consumes the entity on it. -/
def handleErrorEvent (g : StateGraph F) (event : Event) : StateGraph F :=
  let errorId := errorNodeId event
  let nodes := ensureNode g.nodes (errorNode errorId event)
  let resourceId := entityNodeId event
  let affectedPids :=
    (g.edges.filter
      (fun e => decide (e.edgeType = .consumes) && decide (e.toId = resourceId))).map
      (fun e => e.fromId)
  { g with
    nodes := nodes
    toEdgeStore :=
      affectedPids.foldl
        (fun s pidStr =>
          (s.upsertEdge
            { edgeType := .blockedBy
              fromId := pidStr
              toId := errorId
              ts := event.ts }).1)
        g.toEdgeStore }

def handleTopoEvent (g : StateGraph F) (event : Event) : StateGraph F :=
  g.handleErrorEvent event

def handle (g : StateGraph F) (event : Event) : StateGraph F :=
  match event.eventType with
  | .processState => g.handleProcessState event
  | .computeUtil | .computeMem => g.handleComputeEvent event
  | .transportBw | .transportDrop => g.handleTransportEvent event
  | .storageIops | .storageQDepth => g.handleStorageEvent event
  | .errorHw | .errorNet => g.handleErrorEvent event
  | .topoLinkDown => g.handleTopoEvent event
  | .intentRun | .actionExec => g

end Arithmetic

/-- An error node whose last report is before the cutoff. -/
def isExpiredError (cutoffTs : Nat) (node : Node) : Bool :=
  decide (node.nodeType = .error) && decide (node.lastUpdate < cutoffTs)

/-- A process that ended, or that is not running and was not heard of since
the cutoff. -/
def isDeadProcess (processCutoff : Nat) (node : Node) : Bool :=
  if node.nodeType ≠ .process then false
  else
    let state := node.metadata.lookup "state"
    let isExplicitlyDead := decide (state = some "exit" ∨ state = some "zombie")
    let isStaleNonRunning :=
      decide (node.lastUpdate < processCutoff) && decide (state ≠ some "running")
    isExplicitlyDead || isStaleNonRunning

/-- The first section of the cleanup: the ids of the error nodes and of the
process nodes to remove. -/
def scanExpired (g : StateGraph F) (currentTs : Nat) : Finset String × Finset String :=
  let cutoffTs := currentTs - g.errorWindowMs
  let processCutoff := currentTs - processTtlMs
  (HashMap.keysWhere (fun _ node => isExpiredError cutoffTs node) g.nodes,
    HashMap.keysWhere (fun _ node => isDeadProcess processCutoff node) g.nodes)

/-- Keep the newest edges when there are too many. -/
def capEdges (edges : List Edge) : List Edge :=
  if maxEdges < edges.length then
    (edges.mergeSort (fun a b => decide (b.ts ≤ a.ts))).take maxEdges
  else
    edges

/-- The edges that survive a cleanup, before the capacity guard. -/
def retainEdges (errorIds deadPids : Finset String) (edgeCutoff : Nat)
    (edges : List Edge) : List Edge :=
  let edges := edges.filter
    (fun e => !(decide (e.edgeType = .blockedBy) && decide (e.toId ∈ errorIds)))
  let edges := edges.filter
    (fun e => decide (e.fromId ∉ deadPids) && decide (e.toId ∉ deadPids))
  edges.filter (fun e => decide (e.ts ≥ edgeCutoff))

/-- The second section of the cleanup: remove the nodes that were found, their
edges and the edges past their lifetime. -/
def removeExpired (g : StateGraph F) (currentTs : Nat)
    (errorIds deadPids : Finset String) : StateGraph F :=
  let edgeCutoff := currentTs - edgeTtlMs
  let nodes := HashMap.removeAll errorIds g.nodes
  let nodes := HashMap.removeAll deadPids nodes
  let edges := capEdges (retainEdges errorIds deadPids edgeCutoff g.edges)
  { g with
    nodes := nodes
    toEdgeStore := EdgeStore.rebuildIndexes edges }

/-- `cleanup_old_errors`. -/
def cleanupOldErrors (g : StateGraph F) (currentTs : Nat) : StateGraph F :=
  let found := g.scanExpired currentTs
  g.removeExpired currentTs found.1 found.2

/-- The cleanup is due: it never ran, or long enough ago. -/
def shouldCleanup (g : StateGraph F) (ts : Nat) : Bool :=
  decide (g.lastCleanupTs = 0) || decide (ts - g.lastCleanupTs ≥ g.cleanupIntervalMs)

def periodicCleanup (g : StateGraph F) (ts : Nat) : StateGraph F :=
  if g.shouldCleanup ts then
    { g.cleanupOldErrors ts with lastCleanupTs := ts }
  else
    g

section Arithmetic

variable [FloatArith F]

/-- The resource node a signal point is stored in. -/
def signalNode (point : SignalPoint F) : Node where
  id := "signal::" ++ point.name ++ "::" ++ point.entityId
  nodeType := .resource
  lastUpdate := point.ts
  metadata :=
    let metadata : HashMap String String :=
      match point.value with
      | .number v => (∅ : HashMap String String).insert "value" (FloatArith.display v)
      | _ => ∅
    (metadata.insert "window_ms" (toString point.windowMs)).insert "unit" point.unit

/-- Offer the event to the signal engine and store the emitted points. -/
def updateSignals (g : StateGraph F) (event : Event) : StateGraph F :=
  let emitted := g.signals.onEvent event
  { g with
    signals := emitted.1
    nodes := emitted.2.foldl
      (fun nodes point => nodes.insert (signalNode point).id (signalNode point)) g.nodes }

def applyEvent (g : StateGraph F) (event : Event) : StateGraph F :=
  ((g.handle event).periodicCleanup event.ts).updateSignals event

/-- `process_event`. -/
def processEvent (g : StateGraph F) (event : Event) : Except String (StateGraph F) :=
  .ok (g.applyEvent event)

end Arithmetic

/-- The processes that are not marked as ended. -/
def getActiveProcesses (g : StateGraph F) : List Node :=
  (g.nodes.entries.map (fun x => x.2)).filter
    (fun node => decide (node.nodeType = .process) &&
      decide (node.metadata.lookup "state" ≠ some "exit") &&
      decide (node.metadata.lookup "state" ≠ some "zombie"))

/-- The resources consumed by a process without a namespace. -/
def getProcessResources (g : StateGraph F) (pid : Nat) : List String :=
  let pidStr := "pid-" ++ toString pid
  match g.edgeOutIndex.lookup pidStr with
  | some edges =>
    (edges.filter (fun e => decide (e.edgeType = .consumes))).map (fun e => e.toId)
  | none => []

end StateGraph

end ArkInfra
