import ArkInfra.Core.EdgeLife
import ArkInfra.Core.NodeKinds

/-!
# One graph, many clocks

The hub keeps the state of all nodes in one graph.  Ids are prefixed with the
node, so the events of one node never write to the entries of another
(`not_inNamespace_target`).  The cleanup, however, takes the time of whatever
event triggers it as the time of the whole graph: an event of a node whose
clock is ahead expires the errors, processes and edges of all others.

`LeavesInPlace` says that the state of a node that is current by the node's own
clock stays where it is.  `otherClock_leavesInPlace` proves it for events of
another node under the condition that none of them triggers a cleanup at a
time by which something has expired that is current by the clock of the first.
-/

namespace ArkInfra

/-- The id lies in the namespace of the node. -/
def InNamespace (n id : String) : Prop :=
  Text.startsWith id (n ++ "::") = true

instance (n id : String) : Decidable (InNamespace n id) :=
  inferInstanceAs (Decidable (_ = _))

/-- The latest timestamp among the events of the node. -/
def latestTs (n : String) (events : List Event) : Nat :=
  ((events.filter (fun e => decide (e.nodeId = some n))).map (fun e => e.ts)).foldr max 0

section Namespaces

theorem inNamespace_iff {n id : String} :
    InNamespace n id ↔ ∃ rest, id.toList = n.toList ++ ':' :: ':' :: rest := by
  have hsep : "::".toList = [':', ':'] := by
    decide
  rw [InNamespace, Text.startsWith_iff, String.toList_append, hsep]
  constructor
  · rintro ⟨rest, h⟩
    exact ⟨rest, by rw [← h]; simp⟩
  · rintro ⟨rest, h⟩
    exact ⟨rest, by rw [h]; simp⟩

/-- What is prefixed with a node id lies in the namespace of that node only. -/
theorem inNamespace_namespaceNodeId {a b : String} (ha : PlainNodeId a) (hb : PlainNodeId b)
    {event : Event} (hnode : event.nodeId = some b) (x : String) :
    InNamespace a (namespaceNodeId event x) ↔ a = b := by
  have hsep : "::".toList = [':', ':'] := by
    decide
  have hid : (namespaceNodeId event x).toList = b.toList ++ ':' :: ':' :: x.toList := by
    simp [namespaceNodeId, hnode, hsep]
  have hfirst : ∀ (n : String) (rest : List Char), PlainNodeId n →
      (n.toList ++ ':' :: rest).takeWhile (fun c => c ≠ ':') = n.toList := by
    intro n rest hn
    rw [List.takeWhile_append_of_pos]
    · simp
    · intro c hc
      have hne : c ≠ ':' := by
        rintro rfl
        exact hn hc
      simpa using hne
  rw [inNamespace_iff, hid]
  constructor
  · rintro ⟨rest, h⟩
    have htake := congrArg (List.takeWhile (fun c => c ≠ ':')) h
    rw [hfirst b _ hb, hfirst a _ ha] at htake
    exact String.toList_inj.mp htake.symm
  · rintro rfl
    exact ⟨x.toList, rfl⟩

theorem WriteOf.target_eq {event : Event} {w : NodeWrite} (h : WriteOf event w) :
    ∃ x, w.target = namespaceNodeId event x := by
  cases h with
  | resource base _ => exact ⟨base, rfl⟩
  | metric base key _ _ => exact ⟨base, rfl⟩
  | mention pid metadata _ => exact ⟨"pid-" ++ toString pid, rfl⟩
  | start id hstart =>
    obtain ⟨_, _, pid, _, rfl⟩ := hstart
    exact ⟨"pid-" ++ toString pid, rfl⟩
  | finish id hend =>
    obtain ⟨_, _, pid, _, rfl⟩ := hend
    exact ⟨"pid-" ++ toString pid, rfl⟩
  | error => exact ⟨"error-" ++ event.entityId, rfl⟩

theorem not_inNamespace_target {F : Type} [FloatArith F] {a b : String} (hne : a ≠ b)
    (ha : PlainNodeId a) (hb : PlainNodeId b) {event : Event} (hnode : event.nodeId = some b)
    {w : NodeWrite} (hw : w ∈ nodeWrites F event) : ¬ InNamespace a w.target := by
  obtain ⟨x, hx⟩ := (writeOf_of_mem hw).target_eq
  rw [hx, inNamespace_namespaceNodeId ha hb hnode]
  exact hne

theorem kindOf_errorNodeId_of_node {event : Event} {n : String} (hnode : event.nodeId = some n)
    (hn : PlainNodeId n) : kindOf (errorNodeId event) = .error := by
  have hlocal : localPart (errorNodeId event) = ("error-" ++ event.entityId).toList := by
    apply localPart_namespaceNodeId
    · intro m hm
      rw [hnode] at hm
      obtain rfl : n = m := by simpa using hm
      exact hn
    · intro hnone
      rw [hnode] at hnone
      cases hnone
  unfold kindOf
  rw [hlocal, String.toList_append, if_neg, if_pos]
  · exact List.isPrefixOf_iff_prefix.mpr (List.prefix_append _ _)
  · simp

end Namespaces

namespace StateGraph

variable {F : Type}

/-- An error of the node inside the error window at time `t`. -/
def CurrentError (n : String) (t : Nat) (g : StateGraph F) (id : String) (node : Node) : Prop :=
  InNamespace n id ∧ node.nodeType = .error ∧ t - g.errorWindowMs ≤ node.lastUpdate

/-- An edge of the node within its lifetime at time `t`, whose ends have not
expired by then. -/
def CurrentEdge (n : String) (t : Nat) (g : StateGraph F) (e : Edge) : Prop :=
  InNamespace n e.fromId ∧ t - edgeTtlMs ≤ e.ts ∧
    (∀ node ∈ g.nodes.lookup e.fromId, ¬ g.isExpired t node = true) ∧
    ∀ node ∈ g.nodes.lookup e.toId, ¬ g.isExpired t node = true

/-- The errors and edges of the node that are current at time `t` are still in
the second graph. -/
structure LeavesInPlace (n : String) (t : Nat) (g g' : StateGraph F) : Prop where
  errors : ∀ id node, g.nodes.lookup id = some node → CurrentError n t g id node →
    g'.nodes.lookup id = some node
  edges : ∀ e ∈ g.edges, CurrentEdge n t g e → e ∈ g'.edges

instance (n : String) (t : Nat) (g : StateGraph F) (id : String) (node : Node) :
    Decidable (CurrentError n t g id node) :=
  inferInstanceAs (Decidable (_ ∧ _ ∧ _))

instance (n : String) (t : Nat) (g : StateGraph F) (e : Edge) :
    Decidable (CurrentEdge n t g e) :=
  inferInstanceAs (Decidable (_ ∧ _ ∧ (∀ node ∈ _, _) ∧ ∀ node ∈ _, _))

/-- When the event triggers a cleanup, what is current for the node at time `t`
is current at the time of the event as well. -/
def SparesCurrent (n : String) (t : Nat) (g : StateGraph F) (event : Event) : Prop :=
  g.shouldCleanup event.ts = true →
    (∀ x ∈ g.nodes.entries, CurrentError n t g x.1 x.2 → CurrentError n event.ts g x.1 x.2) ∧
    ∀ e ∈ g.edges, CurrentEdge n t g e → CurrentEdge n event.ts g e

instance (n : String) (t : Nat) (g : StateGraph F) (event : Event) :
    Decidable (g.SparesCurrent n t event) :=
  inferInstanceAs (Decidable (_ → (∀ x ∈ _, _) ∧ ∀ e ∈ _, _))

theorem isExpired_congr {g g' : StateGraph F} (h : g'.errorWindowMs = g.errorWindowMs) (t : Nat)
    (node : Node) : g'.isExpired t node = g.isExpired t node := by
  unfold isExpired
  rw [h]

section OtherNode

variable [FloatArith F] {a b : String} {event : Event}

/-- The handler of another node's event leaves the entries of a namespace
alone. -/
theorem lookup_handle_of_inNamespace (hne : a ≠ b) (ha : PlainNodeId a) (hb : PlainNodeId b)
    (hnode : event.nodeId = some b) (g : StateGraph F) {id : String} (hid : InNamespace a id) :
    (g.handle event).nodes.lookup id = g.nodes.lookup id := by
  rw [lookup_handle]
  apply NodeWrite.effectAt_of_ne
  intro w hw htarget
  apply not_inNamespace_target hne ha hb hnode hw
  rw [htarget]
  exact hid

/-- An error that is current at time `t` survives an event of another node. -/
theorem error_applyEvent_otherNode (hne : a ≠ b) (ha : PlainNodeId a) (hb : PlainNodeId b)
    (hnode : event.nodeId = some b) {g : StateGraph F} (hreg : g.signals.registry = defaultMvp)
    {t : Nat} (hclock : g.SparesCurrent a t event) {id : String} {node : Node}
    (hkind : kindOf id = .error) (hlookup : g.nodes.lookup id = some node)
    (hcurrent : CurrentError a t g id node) :
    (g.applyEvent event).nodes.lookup id = some node := by
  have hhandle := lookup_handle_of_inNamespace hne ha hb hnode g hcurrent.1
  have hclean : ((g.handle event).periodicCleanup event.ts).nodes.lookup id = some node := by
    unfold periodicCleanup
    split_ifs with hdue
    · rw [handle_shouldCleanup] at hdue
      have hnow : CurrentError a event.ts g id node :=
        (hclock hdue).1 ⟨id, node⟩ (AList.mem_lookup_iff.mp hlookup) hcurrent
      obtain ⟨_, hty, hts⟩ := hnow
      change ((g.handle event).cleanupOldErrors event.ts).nodes.lookup id = some node
      rw [lookup_cleanupOldErrors, hhandle, hlookup]
      simp [Option.filter_some, isExpired, isExpiredError, isDeadProcess, hty,
        Nat.not_lt.mpr hts]
    · rw [hhandle]
      exact hlookup
  unfold applyEvent
  rw [lookup_updateSignals, NodeWrite.effectAt_of_ne]
  · exact hclean
  · intro w hw htarget
    -- the name of a signal node is that of a resource
    obtain ⟨point, spec, hspec, rfl, hname, _⟩ := mem_signalWrites hw
    have hresource := kindOf_signalNode
      (by simpa [hreg] using hspec : spec ∈ defaultMvp) hname
    rw [show (signalNode point).id = id from htarget, hkind] at hresource
    cases hresource

/-- An entry of a namespace that has not expired at time `t` does not expire
through an event of another node. -/
theorem notExpired_applyEvent_otherNode (hne : a ≠ b) (ha : PlainNodeId a)
    (hb : PlainNodeId b) (hnode : event.nodeId = some b) {g : StateGraph F} {t : Nat}
    {id : String} (hid : InNamespace a id)
    (h : ∀ node ∈ g.nodes.lookup id, ¬ g.isExpired t node = true) :
    ∀ node ∈ (g.applyEvent event).nodes.lookup id,
      ¬ (g.applyEvent event).isExpired t node = true := by
  intro node hlookup hexp
  rw [isExpired_congr (applyEvent_errorWindowMs g event)] at hexp
  have hty : node.nodeType ≠ .resource := by
    intro hres
    simp [isExpired, isExpiredError, isDeadProcess, hres] at hexp
  have hhandle := lookup_of_periodicCleanup (lookup_of_updateSignals hlookup hty)
  rw [lookup_handle_of_inNamespace hne ha hb hnode g hid] at hhandle
  exact h node hhandle hexp

/-- An edge that is current at time `t` survives an event of another node, and
stays current. -/
theorem edge_applyEvent_otherNode (hne : a ≠ b) (ha : PlainNodeId a) (hb : PlainNodeId b)
    (hnode : event.nodeId = some b) {g : StateGraph F} {t : Nat}
    (hclock : g.SparesCurrent a t event) (hroom : g.FitsEdges event) {e : Edge}
    (hto : InNamespace a e.toId) (he : e ∈ g.edges) (hcurrent : CurrentEdge a t g e) :
    e ∈ (g.applyEvent event).edges ∧ CurrentEdge a t (g.applyEvent event) e := by
  obtain ⟨hfrom, hts, hfromAlive, htoAlive⟩ := hcurrent
  refine ⟨?_, hfrom, hts, notExpired_applyEvent_otherNode hne ha hb hnode hfrom hfromAlive,
    notExpired_applyEvent_otherNode hne ha hb hnode hto htoAlive⟩
  have hkept : e ∈ (g.handle event).edges := by
    rw [handle_edgeStore]
    exact EdgeStore.subset_upsertEdges he
  rw [applyEvent_edgeStore, mem_periodicCleanup fun _ => hroom]
  refine ⟨hkept, ?_⟩
  intro hdue
  rw [handle_shouldCleanup] at hdue
  obtain ⟨_, htsNow, hfromNow, htoNow⟩ :=
    (hclock hdue).2 e he ⟨hfrom, hts, hfromAlive, htoAlive⟩
  have hnotListed : ∀ id, InNamespace a id →
      (∀ node ∈ g.nodes.lookup id, ¬ g.isExpired event.ts node = true) →
      ¬ (id ∈ ((g.handle event).scanExpired event.ts).1 ∨
        id ∈ ((g.handle event).scanExpired event.ts).2) := by
    intro id hid halive hlisted
    obtain ⟨node, hlookup, hexp⟩ := isExpired_of_mem_scanExpired hlisted
    rw [lookup_handle_of_inNamespace hne ha hb hnode g hid] at hlookup
    rw [isExpired_congr (handle_errorWindowMs g event)] at hexp
    exact halive node hlookup hexp
  have hfromListed := hnotListed _ hfrom hfromNow
  have htoListed := hnotListed _ hto htoNow
  refine mem_survivingEdges.mpr ⟨hkept, ?_, ?_, ?_, htsNow⟩
  · intro hblocked
    exact htoListed (Or.inl hblocked.2)
  · intro hdead
    exact hfromListed (Or.inr hdead)
  · intro hdead
    exact htoListed (Or.inr hdead)

end OtherNode

section Reachable

variable [FloatArith F]

/-- Error nodes are named as such, and the edges out of a namespace stay in
it. -/
structure Namespaced (n : String) (g : StateGraph F) : Prop where
  registry : g.signals.registry = defaultMvp
  errors : ∀ id node, g.nodes.lookup id = some node → node.nodeType = .error →
    kindOf id = .error
  edges : ∀ e ∈ g.edges, InNamespace n e.fromId → InNamespace n e.toId

theorem inNamespace_assertedEdges {n m : String} (hn : PlainNodeId n) (hm : PlainNodeId m)
    {event : Event} (hnode : event.nodeId = some m) {g : StateGraph F} (hg : g.Namespaced n)
    {e : Edge} (he : e ∈ assertedEdges F g.edges event) (hfrom : InNamespace n e.fromId) :
    InNamespace n e.toId := by
  have hinside := inNamespace_namespaceNodeId hn hm hnode
  cases edgeOf_of_mem he with
  | binding edgeType pid base metadata _ _ _ _ _ =>
    exact (hinside _).mpr ((hinside _).mp hfrom)
  | block c hc hentity _ =>
    -- the blocked process consumes the entity, so it is of the same node
    have hconsumed := hg.edges c hc hfrom
    rw [hentity] at hconsumed
    exact (hinside _).mpr ((hinside _).mp hconsumed)

theorem namespaced_applyEvent {n m : String} (hn : PlainNodeId n) (hm : PlainNodeId m)
    {event : Event} (hnode : event.nodeId = some m) {g : StateGraph F} (hg : g.Namespaced n) :
    (g.applyEvent event).Namespaced n where
  registry := by
    rw [applyEvent_registry]
    exact hg.registry
  errors := by
    intro id node hlookup hty
    have hclean := lookup_of_updateSignals hlookup (by rw [hty]; simp)
    have hhandle := lookup_of_periodicCleanup hclean
    rw [lookup_handle] at hhandle
    refine NodeWrite.nodeType_effectAt (P := fun id ty => ty = .error → kindOf id = .error)
      ?_ (hg.errors id) node hhandle hty
    intro w hw
    cases writeOf_of_mem hw with
    | error => exact fun _ => kindOf_errorNodeId_of_node hnode hm
    | resource base _ => exact fun h => nomatch h
    | mention pid metadata _ => exact fun h => nomatch h
    | start id _ => exact fun h => nomatch h
    | metric base key _ _ => trivial
    | finish id _ => trivial
  edges := by
    intro e he hfrom
    rw [applyEvent_edgeStore] at he
    have hhandle := edges_of_periodicCleanup he
    rw [handle_edgeStore] at hhandle
    rcases EdgeStore.mem_upsertEdges hhandle with hold | hnew
    · exact hg.edges e hold hfrom
    · exact inNamespace_assertedEdges hn hm hnode hg hnew hfrom

theorem namespaced_after {n : String} (hn : PlainNodeId n) {events : List Event}
    (h : ∀ event ∈ events, ∃ m, event.nodeId = some m ∧ PlainNodeId m) :
    (after events : StateGraph F).Namespaced n := by
  refine Run.invariant_of_meets (I := Namespaced n)
    (C := fun _ event => ∃ m, event.nodeId = some m ∧ PlainNodeId m) ?_ ?_
    (Run.meets_of_forall h)
  · rintro g event hg ⟨m, hnode, hm⟩
    exact namespaced_applyEvent hn hm hnode hg
  · exact ⟨rfl, by simp [new], by simp [new, EdgeStore.empty]⟩

end Reachable

section Runs

variable [FloatArith F]

/-- **The clock of another node.**  After any interleaving of events of the
nodes `a` and `b`, events of `b` alone leave in place what is current by the
latest time of `a`, as long as none of them triggers a cleanup by whose time
some of it has expired and the edges fit into the graph. -/
theorem otherClock_leavesInPlace (a b : String) (hne : a ≠ b) (ha : PlainNodeId a)
    (hb : PlainNodeId b) (seen rest : List Event)
    (hseen : ∀ x ∈ seen, x.nodeId = some a ∨ x.nodeId = some b)
    (hrest : ∀ x ∈ rest, x.nodeId = some b)
    (hroom : Run.Meets applyEvent FitsEdges (after seen : StateGraph F) rest)
    (hclock : Run.Meets applyEvent (SparesCurrent a (latestTs a seen))
      (after seen : StateGraph F) rest) :
    ∀ done left, rest = done ++ left →
      LeavesInPlace a (latestTs a seen) (after seen : StateGraph F) (after (seen ++ done)) := by
  rintro done left rfl
  rw [Run.meets_append] at hroom hclock
  have hstart : (after seen : StateGraph F).Namespaced a := by
    apply namespaced_after ha
    intro x hx
    rcases hseen x hx with hxa | hxb
    · exact ⟨a, hxa, ha⟩
    · exact ⟨b, hxb, hb⟩
  have hdone : ∀ x ∈ done, x.nodeId = some b := fun x hx => hrest x (by simp [hx])
  have hmeets : Run.Meets applyEvent
      (fun g x => (FitsEdges g x ∧ SparesCurrent a (latestTs a seen) g x) ∧ x.nodeId = some b)
      (after seen : StateGraph F) done :=
    Run.meets_and.mpr ⟨Run.meets_and.mpr ⟨hroom.1, hclock.1⟩, Run.meets_of_forall hdone⟩
  have hafter : (after (seen ++ done) : StateGraph F) = Run.run applyEvent (after seen) done :=
    Run.run_append _ _ _ _
  rw [hafter]
  constructor
  · intro id node hlookup hcurrent
    have hkind := hstart.errors id node hlookup hcurrent.2.1
    refine (Run.invariant_of_meets
      (I := fun g : StateGraph F => g.signals.registry = defaultMvp ∧
        g.nodes.lookup id = some node ∧ CurrentError a (latestTs a seen) g id node)
      ?_ ⟨hstart.registry, hlookup, hcurrent⟩ hmeets).2.1
    rintro g x ⟨hreg, hlookup, hcurrent⟩ ⟨⟨_, hclock⟩, hnode⟩
    refine ⟨by simpa using hreg, ?_, ?_⟩
    · exact error_applyEvent_otherNode hne ha hb hnode hreg hclock hkind hlookup hcurrent
    · simpa [CurrentError] using hcurrent
  · intro e he hcurrent
    have hto := hstart.edges e he hcurrent.1
    refine (Run.invariant_of_meets
      (I := fun g : StateGraph F => e ∈ g.edges ∧ CurrentEdge a (latestTs a seen) g e)
      ?_ ⟨he, hcurrent⟩ hmeets).1
    rintro g x ⟨he, hcurrent⟩ ⟨⟨hroom, hclock⟩, hnode⟩
    exact edge_applyEvent_otherNode hne ha hb hnode hclock hroom hto he hcurrent

/-- An event of `node-b` that is half a minute ahead and triggers a cleanup
leaves the error and the binding of `node-a` in place. -/
theorem otherClock_leavesInPlace_halfMinute :
    let seen : List Event :=
      [⟨1000, .computeUtil, "gpu-0", none, some 7, "95", some "node-a"⟩,
        ⟨2000, .errorHw, "gpu-0", none, none, "XID_79", some "node-a"⟩]
    let rest : List Event :=
      [⟨32000, .computeUtil, "gpu-0", none, some 7, "90", some "node-b"⟩]
    let g : StateGraph Binary64 := after seen
    g.shouldCleanup 32000 = true ∧ g.edges.length = 2 ∧
    LeavesInPlace "node-a" (latestTs "node-a" seen) g (after (seen ++ rest)) := by
  refine ⟨by decide, by decide, ?_⟩
  exact otherClock_leavesInPlace "node-a" "node-b" (by decide) (by decide) (by decide) _
    [⟨32000, .computeUtil, "gpu-0", none, some 7, "90", some "node-b"⟩]
    (by decide) (by decide) (by decide) (by decide) _ [] (List.append_nil _).symm

end Runs

/-- **A fast clock expires the errors of others.**  The error of `node-a` is
its latest event; one event of `node-b`, whose clock is a little more than five
minutes ahead, removes it. -/
theorem otherClock_leavesInPlace_fastNode :
    let fault : Event := ⟨1000, .errorHw, "gpu-0", none, none, "XID_79", some "node-a"⟩
    let fast : Event := ⟨302000, .computeUtil, "gpu-0", none, some 7, "95", some "node-b"⟩
    let g : StateGraph Binary64 := after [fault]
    let g' : StateGraph Binary64 := after ([fault] ++ [fast])
    (g.nodes.lookup "node-a::error-gpu-0").isSome = true ∧
    g'.nodes.lookup "node-a::error-gpu-0" = none ∧
    Run.Meets applyEvent FitsEdges g [fast] ∧
    ¬ LeavesInPlace "node-a" (latestTs "node-a" [fault]) g g' := by
  refine ⟨by decide, by decide, by decide, ?_⟩
  intro hplace
  have hkept := hplace.errors "node-a::error-gpu-0" _ rfl (by decide)
  revert hkept
  decide

end StateGraph

end ArkInfra
