import ArkInfra.Core.Graph
import ArkInfra.Lib.DepthFirst
import Mathlib.Data.Finset.Card

/-!
# The search for root causes

`core/src/graph.rs`, `find_root_cause_by_id`: a depth-first search from a
process along the `BlockedBy` edges whose target is still a node.  It reports
every error node and every awaited resource it meets.  The visited set ends the
search on cycles.

The recursion of the model carries fuel.  Every call marks a new node, so one
unit for each node of the graph and two more are enough: with that much fuel
the search is the unbounded recursion of `SearchGraph.Returns`
(`returns_findRootCauseById`), which therefore ends on every graph.  What it
reports is then a matter of reachability (`findRootCauseById_sum`): the causes
of every node that is reached, each once.
-/

namespace ArkInfra

/-- The visited nodes and the causes found so far. -/
structure Search where
  visited : Finset String
  causes : List String
deriving DecidableEq

namespace Search

def push (s : Search) (cause : String) : Search :=
  { s with causes := s.causes ++ [cause] }

def errorDesc (toId : String) (node : Node) : String :=
  toId ++ ": " ++ (node.metadata.lookup "error_type").getD "未知错误"

/-- Follow one outgoing edge, with `recurse` for the search from its target. -/
def visitEdge (nodes : HashMap String Node) (recurse : String → Search → Search) (s : Search)
    (edge : IndexedEdge) : Search :=
  match edge.edgeType with
  | .blockedBy =>
    match nodes.lookup edge.toId with
    | some node =>
      recurse edge.toId
        (if node.nodeType = .error then s.push (errorDesc edge.toId node) else s)
    | none => s
  | .waitsOn => s.push ("等待资源: " ++ edge.toId)
  | .consumes => s

/-- The search from a node. -/
def dfsBackward (edgeOutIndex : HashMap String (List IndexedEdge)) (nodes : HashMap String Node) :
    Nat → String → Search → Search
  | 0, _, s => s
  | fuel + 1, nodeId, s =>
    if nodeId ∈ s.visited then
      s
    else
      ((edgeOutIndex.lookup nodeId).getD []).foldl
        (visitEdge nodes (dfsBackward edgeOutIndex nodes fuel))
        { s with visited := insert nodeId s.visited }

/-- How many nodes of the graph have not been visited. -/
def remaining (nodes : HashMap String Node) (s : Search) : Nat :=
  (nodes.keys.toFinset \ s.visited).card

theorem remaining_mono {nodes : HashMap String Node} {s t : Search}
    (h : s.visited ⊆ t.visited) : t.remaining nodes ≤ s.remaining nodes :=
  Finset.card_le_card (Finset.sdiff_subset_sdiff (Finset.Subset.refl _) h)

theorem remaining_insert {nodes : HashMap String Node} {s : Search} {id : String}
    (hnode : id ∈ nodes) (hnew : id ∉ s.visited) :
    ({ s with visited := insert id s.visited } : Search).remaining nodes + 1 =
      s.remaining nodes := by
  have hmem : id ∈ nodes.keys.toFinset \ s.visited := by
    simp [hnew, AList.mem_keys.mp hnode]
  unfold remaining
  rw [Finset.sdiff_insert]
  exact Finset.card_erase_add_one hmem

/-- The errors and awaited resources an edge reports. -/
def edgeCauses (nodes : HashMap String Node) (edge : IndexedEdge) : List String :=
  match edge.edgeType with
  | .blockedBy =>
    match nodes.lookup edge.toId with
    | some node => if node.nodeType = .error then [errorDesc edge.toId node] else []
    | none => []
  | .waitsOn => ["等待资源: " ++ edge.toId]
  | .consumes => []

/-- The node an edge leads on to: the target of a `BlockedBy` edge, as long as
it is a node of the graph. -/
def blocker (nodes : HashMap String Node) (edge : IndexedEdge) : Option String :=
  if edge.edgeType = .blockedBy ∧ (nodes.lookup edge.toId).isSome = true then some edge.toId
  else none

def causeGraph (edgeOutIndex : HashMap String (List IndexedEdge)) (nodes : HashMap String Node) :
    SearchGraph String IndexedEdge String where
  out := fun id => (edgeOutIndex.lookup id).getD []
  next := blocker nodes
  emit := edgeCauses nodes

def toState (s : Search) : SearchGraph.State String String where
  visited := s.visited
  found := s.causes

/-- **One edge** reports its causes and goes on from its blocker. -/
theorem visitEdge_eq (nodes : HashMap String Node) (recurse : String → Search → Search)
    (s : Search) (edge : IndexedEdge) :
    visitEdge nodes recurse s edge =
      match blocker nodes edge with
      | some id => recurse id { s with causes := s.causes ++ edgeCauses nodes edge }
      | none => { s with causes := s.causes ++ edgeCauses nodes edge } := by
  unfold visitEdge blocker edgeCauses
  cases edge.edgeType with
  | consumes =>
    simp
  | waitsOn =>
    simp [push]
  | blockedBy =>
    cases nodes.lookup edge.toId with
    | none =>
      simp
    | some node =>
      by_cases herror : node.nodeType = .error
      · simp [herror, push]
      · simp [herror]

theorem mem_of_blocker {nodes : HashMap String Node} {edge : IndexedEdge} {id : String}
    (h : blocker nodes edge = some id) : id ∈ nodes := by
  unfold blocker at h
  split_ifs at h with hpresent
  obtain rfl := Option.some.inj h
  exact AList.lookup_isSome.mp hpresent.2

variable {edgeOutIndex : HashMap String (List IndexedEdge)} {nodes : HashMap String Node}

/-- If the calls made with at most `m` nodes left come back, so does the loop
over a list of edges. -/
theorem returns_foldl_visitEdge {m : Nat} {recurse : String → Search → Search}
    (hrec : ∀ id s, id ∈ nodes → s.remaining nodes ≤ m →
      (causeGraph edgeOutIndex nodes).Returns (.vertex id) s.toState (recurse id s).toState)
    (edges : List IndexedEdge) {s : Search} (hs : s.remaining nodes ≤ m) :
    (causeGraph edgeOutIndex nodes).Returns (.edges edges) s.toState
      (edges.foldl (visitEdge nodes recurse) s).toState := by
  induction edges generalizing s with
  | nil =>
    exact .done
  | cons edge edges ih =>
    let reported : Search := { s with causes := s.causes ++ edgeCauses nodes edge }
    rw [List.foldl_cons, visitEdge_eq]
    cases hnext : blocker nodes edge with
    | none =>
      exact .skip hnext (ih (s := reported) hs)
    | some id =>
      have hcall := hrec id reported (mem_of_blocker hnext) hs
      refine .follow hnext hcall (ih ?_)
      exact (remaining_mono hcall.explores.subset).trans hs

theorem returns_dfsBackward {fuel : Nat} {id : String} {s : Search} (hnode : id ∈ nodes)
    (hfuel : s.remaining nodes < fuel) :
    (causeGraph edgeOutIndex nodes).Returns (.vertex id) s.toState
      (dfsBackward edgeOutIndex nodes fuel id s).toState := by
  induction fuel generalizing id s with
  | zero =>
    exact absurd hfuel (Nat.not_lt_zero _)
  | succ fuel ih =>
    rw [dfsBackward]
    split_ifs with hvisited
    · exact .seen hvisited
    · let marked : Search := { s with visited := insert id s.visited }
      have hcount : marked.remaining nodes + 1 = s.remaining nodes :=
        remaining_insert hnode hvisited
      refine .expand hvisited (returns_foldl_visitEdge (s := marked) ?_ _ (Nat.le_refl _))
      intro id' t hnode' ht
      exact ih hnode' (by omega)

theorem returns_dfsBackward_start {fuel : Nat} (id : String) {s : Search}
    (hfuel : s.remaining nodes + 1 < fuel) :
    (causeGraph edgeOutIndex nodes).Returns (.vertex id) s.toState
      (dfsBackward edgeOutIndex nodes fuel id s).toState := by
  obtain ⟨fuel, rfl⟩ : ∃ n, fuel = n + 1 := ⟨fuel - 1, by omega⟩
  rw [dfsBackward]
  split_ifs with hvisited
  · exact .seen hvisited
  · let marked : Search := { s with visited := insert id s.visited }
    have hmarked : marked.remaining nodes ≤ s.remaining nodes :=
      remaining_mono (Finset.subset_insert id s.visited)
    refine .expand hvisited (returns_foldl_visitEdge (s := marked) ?_ _ hmarked)
    intro id' t hnode' ht
    exact returns_dfsBackward hnode' (by omega)

end Search

namespace StateGraph

variable {F : Type}

/-- The root causes of a node, by its full id. -/
def findRootCauseById (g : StateGraph F) (nodeId : String) : List String :=
  (Search.dfsBackward g.edgeOutIndex g.nodes (g.nodes.keys.length + 2) nodeId
    { visited := ∅, causes := [] }).causes

/-- The root causes of a process without a namespace. -/
def findRootCause (g : StateGraph F) (pid : Nat) : List String :=
  g.findRootCauseById ("pid-" ++ toString pid)

/-- **The search ends**: with enough fuel it is the unbounded recursion. -/
theorem returns_findRootCauseById (g : StateGraph F) (nodeId : String) {fuel : Nat}
    (hfuel : g.nodes.keys.length + 2 ≤ fuel) :
    (Search.causeGraph g.edgeOutIndex g.nodes).Returns (.vertex nodeId) ⟨∅, []⟩
      (Search.dfsBackward g.edgeOutIndex g.nodes fuel nodeId
        { visited := ∅, causes := [] }).toState := by
  have hremaining : (⟨∅, []⟩ : Search).remaining g.nodes ≤ g.nodes.keys.length := by
    unfold Search.remaining
    rw [Finset.sdiff_empty]
    exact List.toFinset_card_le _
  have henough : (⟨∅, []⟩ : Search).remaining g.nodes + 1 < fuel := by
    omega
  exact Search.returns_dfsBackward_start nodeId henough

/-- A `BlockedBy` edge leads from the one id to the other, which is a node. -/
def BlockedOn (g : StateGraph F) (u v : String) : Prop :=
  ⟨.blockedBy, v⟩ ∈ (g.edgeOutIndex.lookup u).getD [] ∧ v ∈ g.nodes

/-- The report of an error at the end of a `BlockedBy` edge. -/
def errorCause (g : StateGraph F) (edge : IndexedEdge) : Option String :=
  if edge.edgeType = .blockedBy then
    ((g.nodes.lookup edge.toId).filter fun node => decide (node.nodeType = .error)).map
      fun node => edge.toId ++ ": " ++ (node.metadata.lookup "error_type").getD "未知错误"
  else none

/-- The report of a resource at the end of a `WaitsOn` edge. -/
def waitCause (edge : IndexedEdge) : Option String :=
  if edge.edgeType = .waitsOn then some ("等待资源: " ++ edge.toId) else none

/-- The causes at one id: an error for each of its `BlockedBy` edges to an
error node, and a resource for each of its `WaitsOn` edges. -/
def causesAt (g : StateGraph F) (u : String) : Multiset String :=
  (((g.edgeOutIndex.lookup u).getD []).filterMap g.errorCause : Multiset String) +
    ((g.edgeOutIndex.lookup u).getD []).filterMap waitCause

theorem edgeCauses_eq (g : StateGraph F) (edge : IndexedEdge) :
    Search.edgeCauses g.nodes edge = (g.errorCause edge).toList ++ (waitCause edge).toList := by
  unfold Search.edgeCauses errorCause waitCause
  cases edge.edgeType with
  | consumes =>
    rfl
  | waitsOn =>
    rfl
  | blockedBy =>
    cases g.nodes.lookup edge.toId with
    | none =>
      rfl
    | some node =>
      by_cases herror : node.nodeType = .error
      · simp [herror, Search.errorDesc, Option.filter_some]
      · simp [herror, Option.filter_some]

theorem results_causeGraph (g : StateGraph F) (u : String) :
    ((Search.causeGraph g.edgeOutIndex g.nodes).results u : Multiset String) = g.causesAt u := by
  unfold SearchGraph.results causesAt
  change ((((g.edgeOutIndex.lookup u).getD []).flatMap (Search.edgeCauses g.nodes) :
    List String) : Multiset String) = _
  induction (g.edgeOutIndex.lookup u).getD [] with
  | nil =>
    rfl
  | cons edge edges ih =>
    have hsplit : ∀ f : IndexedEdge → Option String,
        (((edge :: edges).filterMap f : List String) : Multiset String) =
          (f edge).toList + edges.filterMap f := by
      intro f
      cases hf : f edge <;> simp [hf]
    rw [List.flatMap_cons, ← Multiset.coe_add, ih, edgeCauses_eq, hsplit, hsplit,
      ← Multiset.coe_add]
    ac_rfl

theorem adj_causeGraph (g : StateGraph F) (u v : String) :
    (Search.causeGraph g.edgeOutIndex g.nodes).Adj u v ↔ g.BlockedOn u v := by
  constructor
  · rintro ⟨⟨edgeType, toId⟩, hedge, hnext⟩
    have hv := Search.mem_of_blocker hnext
    simp only [Search.causeGraph, Search.blocker] at hnext
    split_ifs at hnext with hpresent
    obtain ⟨rfl, _⟩ := hpresent
    obtain rfl := Option.some.inj hnext
    exact ⟨hedge, hv⟩
  · rintro ⟨hedge, hv⟩
    refine ⟨_, hedge, ?_⟩
    simp [Search.causeGraph, Search.blocker, AList.lookup_isSome.mpr hv]

/-- **The root causes are those of the reachable nodes.**  On every edge index
and node map, the search ends, and what it reports is the sum of the causes at
the ids that can be reached from the start along `BlockedBy` edges to nodes of
the graph, each id counted once. -/
theorem findRootCauseById_sum (g : StateGraph F) (s : String) :
    (∃ t, (Search.causeGraph g.edgeOutIndex g.nodes).Returns (.vertex s) ⟨∅, []⟩ t) ∧
    (∀ t, (Search.causeGraph g.edgeOutIndex g.nodes).Returns (.vertex s) ⟨∅, []⟩ t →
      t.found = g.findRootCauseById s) ∧
    ∃ reached : Finset String,
      (∀ u, u ∈ reached ↔ Relation.ReflTransGen g.BlockedOn s u) ∧
      (g.findRootCauseById s : Multiset String) = ∑ u ∈ reached, g.causesAt u := by
  have hreturns := returns_findRootCauseById g s (Nat.le_refl _)
  refine ⟨⟨_, hreturns⟩, ?_, (Search.dfsBackward g.edgeOutIndex g.nodes
    (g.nodes.keys.length + 2) s ⟨∅, []⟩).visited, ?_, ?_⟩
  · intro t ht
    exact congrArg SearchGraph.State.found (hreturns.unique ht)
  · intro u
    have hadj : (Search.causeGraph g.edgeOutIndex g.nodes).Adj = g.BlockedOn := by
      funext a b
      exact propext (adj_causeGraph g a b)
    rw [← hadj]
    exact SearchGraph.visited_of_returns hreturns u
  · have hfound := SearchGraph.found_of_returns hreturns
    simp only [results_causeGraph] at hfound
    exact hfound

/-- Two processes that block each other, one of them also on an error. -/
example :
    let error : Node :=
      ⟨"error-gpu", .error, 0, (∅ : HashMap String String).insert "error_type" "xid"⟩
    let process : Node := ⟨"pid-1", .process, 0, ∅⟩
    let g : StateGraph Unit :=
      { (new : StateGraph Unit) with
        nodes := ((∅ : HashMap String Node).insert "pid-1" process).insert "error-gpu" error
        edgeOutIndex :=
          ((∅ : HashMap String (List IndexedEdge)).insert "pid-1"
            [⟨.blockedBy, "error-gpu"⟩, ⟨.blockedBy, "error-gone"⟩]).insert "error-gpu"
            [⟨.blockedBy, "pid-1"⟩, ⟨.waitsOn, "network"⟩] }
    g.findRootCauseById "pid-1" = ["error-gpu: xid", "等待资源: network"] := by
  decide

end StateGraph

end ArkInfra
