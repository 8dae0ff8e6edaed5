import ArkInfra.Core.GraphStep
import Mathlib.Tactic.MkIffOfInductiveProp

/-!
# Typed referential integrity

The graph names its nodes by concatenation: `pid-<n>` for processes,
`error-<entity>` for errors, the entity itself for resources, each optionally
behind `<node>::`, and `signal::<name>::<entity>` for signals.  As long as the
ids that arrive from outside do not imitate these shapes, the kind of a node
can be read off its id (`kindOf`), so that two ids of different kinds never
coincide.

`WellTyped` combines this with the endpoints of the edges.  It is preserved by
every node write of the right kind, by the edges the handlers assert, by the
cleanup, which removes a node together with the edges at it, and by the signal
update.
-/

namespace ArkInfra

/-- What follows the first `::`. -/
def afterSeparator : List Char → Option (List Char)
  | [] => none
  | [_] => none
  | a :: b :: rest =>
    if a = ':' ∧ b = ':' then some rest else afterSeparator (b :: rest)

def localPart (id : String) : List Char :=
  (afterSeparator id.toList).getD id.toList

def kindOf (id : String) : NodeType :=
  if "pid-".toList.isPrefixOf (localPart id) then .process
  else if "error-".toList.isPrefixOf (localPart id) then .error
  else .resource

/-- A text without `:` in front does not change what follows the separator. -/
theorem afterSeparator_append {p : List Char} (hp : ':' ∉ p) (s : List Char) :
    afterSeparator (p ++ s) = afterSeparator s := by
  induction p with
  | nil =>
    rfl
  | cons c p ih =>
    have hc : c ≠ ':' := by
      rintro rfl
      simp at hp
    have hrest := ih (by
      intro hmem
      exact hp (List.mem_cons_of_mem _ hmem))
    rw [List.cons_append]
    cases hps : p ++ s with
    | nil =>
      have hs : s = [] := (List.append_eq_nil_iff.mp hps).2
      rw [hs]
      rfl
    | cons d ds =>
      rw [afterSeparator, if_neg (fun h => hc h.1), ← hps]
      exact hrest

@[simp] theorem afterSeparator_separator (s : List Char) :
    afterSeparator (':' :: ':' :: s) = some s := by
  simp [afterSeparator]

theorem afterSeparator_eq_none {s : List Char} (h : ¬ [':', ':'] <:+: s) :
    afterSeparator s = none := by
  induction s with
  | nil =>
    rfl
  | cons a s ih =>
    cases s with
    | nil =>
      rfl
    | cons b rest =>
      have hne : ¬ (a = ':' ∧ b = ':') := by
        rintro ⟨rfl, rfl⟩
        exact h ⟨[], rest, rfl⟩
      rw [afterSeparator, if_neg hne]
      apply ih
      intro hinf
      exact h (hinf.trans (List.suffix_cons a _).isInfix)

/-- Node ids from outside contain no `:`. -/
def PlainNodeId (nodeId : String) : Prop :=
  ':' ∉ nodeId.toList

/-- Entity ids from outside do not look like ids the graph builds. -/
@[mk_iff]
structure PlainEntity (entityId : String) : Prop where
  no_separator : Text.contains entityId "::" = false
  no_pid : Text.startsWith entityId "pid-" = false
  no_error : Text.startsWith entityId "error-" = false

@[mk_iff]
structure PlainIds (event : Event) : Prop where
  nodeId : ∀ n ∈ event.nodeId, PlainNodeId n
  entityId : PlainEntity event.entityId

instance : DecidablePred PlainNodeId :=
  fun nodeId => inferInstanceAs (Decidable (':' ∉ nodeId.toList))

instance : DecidablePred PlainEntity := fun entityId =>
  decidable_of_iff _ (plainEntity_iff entityId).symm

instance : DecidablePred PlainIds := fun event =>
  decidable_of_iff _ (plainIds_iff event).symm

/-- Behind a plain namespace, the local part of an id is what was prefixed. -/
theorem localPart_namespaceNodeId {event : Event} {x : String}
    (hnode : ∀ n ∈ event.nodeId, PlainNodeId n)
    (hx : event.nodeId = none → afterSeparator x.toList = none) :
    localPart (namespaceNodeId event x) = x.toList := by
  unfold localPart namespaceNodeId
  cases hn : event.nodeId with
  | none =>
    simp [hx hn]
  | some n =>
    have hsep : "::".toList = [':', ':'] := by
      decide
    simp only [String.toList_append, List.append_assoc, hsep, List.cons_append,
      List.nil_append]
    rw [afterSeparator_append (hnode n hn), afterSeparator_separator]
    rfl

theorem colon_notMem_toString (n : Nat) : ':' ∉ (toString n).toList := by
  intro h
  rw [Nat.toString_eq_repr, Nat.toList_repr] at h
  have hdigit := Nat.isDigit_of_mem_toDigits (by decide) (by decide) h
  exact absurd hdigit (by decide)

theorem kindOf_pidNodeId {event : Event}
    (hnode : ∀ n ∈ event.nodeId, PlainNodeId n) (pid : Nat) :
    kindOf (pidNodeId event pid) = .process := by
  have hlocal : localPart (pidNodeId event pid) = ("pid-" ++ toString pid).toList := by
    apply localPart_namespaceNodeId hnode
    intro _
    have hcolon : ':' ∉ ("pid-" ++ toString pid).toList := by
      rw [String.toList_append, List.mem_append]
      rintro (h | h)
      · exact absurd h (by decide)
      · exact colon_notMem_toString pid h
    have h := afterSeparator_append hcolon []
    rw [List.append_nil] at h
    rw [h]
    rfl
  unfold kindOf
  rw [hlocal, String.toList_append, if_pos]
  exact List.isPrefixOf_iff_prefix.mpr (List.prefix_append _ _)

theorem afterSeparator_plain {entityId : String} (h : PlainEntity entityId) :
    afterSeparator entityId.toList = none := by
  apply afterSeparator_eq_none
  have hsep := h.no_separator
  unfold Text.contains at hsep
  simpa using of_decide_eq_false hsep

theorem kindOf_errorNodeId {event : Event} (h : PlainIds event) :
    kindOf (errorNodeId event) = .error := by
  have hlocal : localPart (errorNodeId event) = ("error-" ++ event.entityId).toList := by
    apply localPart_namespaceNodeId h.nodeId
    intro _
    rw [String.toList_append, afterSeparator_append (by decide)]
    exact afterSeparator_plain h.entityId
  unfold kindOf
  rw [hlocal, String.toList_append, if_neg, if_pos]
  · exact List.isPrefixOf_iff_prefix.mpr (List.prefix_append _ _)
  · simp

theorem kindOf_namespaceNodeId {event : Event} {entityId : String}
    (hnode : ∀ n ∈ event.nodeId, PlainNodeId n) (h : PlainEntity entityId) :
    kindOf (namespaceNodeId event entityId) = .resource := by
  have hlocal : localPart (namespaceNodeId event entityId) = entityId.toList :=
    localPart_namespaceNodeId hnode fun _ => afterSeparator_plain h
  have hpid : "pid-".toList.isPrefixOf entityId.toList = false := h.no_pid
  have herror : "error-".toList.isPrefixOf entityId.toList = false := h.no_error
  unfold kindOf
  rw [hlocal, hpid, herror]
  rfl

theorem plainEntity_transportResourceBase {event : Event}
    (h : PlainEntity event.entityId) : PlainEntity (transportResourceBase event) := by
  unfold transportResourceBase
  split_ifs
  · cases Text.stripPrefix event.entityId "network-pid-" with
    | none =>
      exact h
    | some rest =>
      change PlainEntity "network"
      exact ⟨by decide, by decide, by decide⟩
  · exact h

theorem plainEntity_of_namesResource {event : Event} {base : String}
    (h : PlainEntity event.entityId) (hbase : event.NamesResource base) : PlainEntity base := by
  rcases hbase with rfl | rfl
  · exact h
  · exact plainEntity_transportResourceBase h

theorem kindOf_signalNode {F : Type} [FloatArith F] {point : SignalPoint F}
    {spec : SignalSpec} (hspec : spec ∈ defaultMvp) (hname : point.name = spec.name) :
    kindOf (StateGraph.signalNode point).id = .resource := by
  have hlocal : ∀ name : String,
      localPart ("signal::" ++ name ++ "::" ++ point.entityId) =
        (name ++ "::" ++ point.entityId).toList := by
    intro name
    have hsignal : "signal::".toList = "signal".toList ++ [':', ':'] := by
      decide
    unfold localPart
    simp only [String.toList_append, List.append_assoc, hsignal]
    rw [afterSeparator_append (by decide)]
    simp
  have hid : (StateGraph.signalNode point).id =
      "signal::" ++ point.name ++ "::" ++ point.entityId := by
    rfl
  have hcases : point.name = "network.tcp.retransmit_rate_1m" ∨
      point.name = "hardware.gpu.util_avg_1m" := by
    rw [hname]
    simp only [defaultMvp, List.mem_cons, List.not_mem_nil, or_false] at hspec
    rcases hspec with rfl | rfl
    · exact Or.inl rfl
    · exact Or.inr rfl
  unfold kindOf
  rw [hid, hlocal]
  rcases hcases with h | h <;> rw [h] <;> simp [String.toList_append]

def EdgeType.targetType : EdgeType → NodeType
  | .consumes => .resource
  | .waitsOn => .resource
  | .blockedBy => .error

namespace StateGraph

variable {F : Type}

/-- Both endpoints of an edge are present, and their ids are of the right
kinds. -/
structure EdgeTyped (nodes : HashMap String Node) (e : Edge) : Prop where
  from_present : (nodes.lookup e.fromId).isSome = true
  from_kind : kindOf e.fromId = .process
  to_present : (nodes.lookup e.toId).isSome = true
  to_kind : kindOf e.toId = e.edgeType.targetType

/-- Every node has the kind its id names, and every edge is typed. -/
structure WellTyped (g : StateGraph F) : Prop where
  nodes_kind : ∀ id node, g.nodes.lookup id = some node → node.nodeType = kindOf id
  edges_typed : ∀ e ∈ g.edges, EdgeTyped g.nodes e

/-- A write that stores nodes of the kind their id names. -/
def Kinded (w : NodeWrite) : Prop :=
  w.Stores fun id ty => ty = kindOf id

section Handle

variable [FloatArith F]

theorem kinded_nodeWrites {event : Event} (h : PlainIds event) :
    ∀ w ∈ nodeWrites F event, Kinded w := by
  intro w hw
  cases writeOf_of_mem hw with
  | resource base hbase =>
    exact (kindOf_namespaceNodeId h.nodeId (plainEntity_of_namesResource h.entityId hbase)).symm
  | mention pid metadata _ =>
    exact (kindOf_pidNodeId h.nodeId pid).symm
  | start id hstart =>
    obtain ⟨_, _, pid, _, rfl⟩ := hstart
    exact (kindOf_pidNodeId h.nodeId pid).symm
  | error =>
    exact (kindOf_errorNodeId h).symm
  | metric base key _ _ =>
    trivial
  | finish id _ =>
    trivial

theorem edgeTyped_assertedEdges {g : StateGraph F} (hg : g.WellTyped) {event : Event}
    (h : PlainIds event) {e : Edge} (he : e ∈ assertedEdges F g.edges event) :
    EdgeTyped (g.handle event).nodes e := by
  have hnew : ∀ node, NodeWrite.ensure node ∈ nodeWrites F event →
      ((g.handle event).nodes.lookup node.id).isSome = true := by
    intro node hnode
    rw [lookup_handle]
    exact NodeWrite.isSome_effectAt_of_ensure hnode
  cases edgeOf_of_mem he with
  | binding edgeType pid base metadata hbase htype hfrom hto _ =>
    have hresource : kindOf (namespaceNodeId event base) = .resource :=
      kindOf_namespaceNodeId h.nodeId (plainEntity_of_namesResource h.entityId hbase)
    have htarget : edgeType.targetType = .resource := by
      cases edgeType with
      | consumes =>
        rfl
      | waitsOn =>
        rfl
      | blockedBy =>
        exact absurd rfl htype
    exact ⟨hnew _ hfrom, kindOf_pidNodeId h.nodeId pid, hnew _ hto,
      hresource.trans htarget.symm⟩
  | block c hc _ hto =>
    -- the blocked process is the source of an edge that is typed already
    have hold := hg.edges_typed c hc
    refine ⟨?_, hold.from_kind, hnew _ hto, kindOf_errorNodeId h⟩
    rw [lookup_handle]
    exact NodeWrite.isSome_effectAt hold.from_present

theorem wellTyped_handle {g : StateGraph F} (hg : g.WellTyped) {event : Event}
    (h : PlainIds event) : (g.handle event).WellTyped where
  nodes_kind := by
    intro id node hnode
    rw [lookup_handle] at hnode
    exact NodeWrite.nodeType_effectAt (kinded_nodeWrites h) (hg.nodes_kind id) node hnode
  edges_typed := by
    intro e he
    rw [handle_edgeStore] at he
    rcases EdgeStore.mem_upsertEdges he with hold | hnew
    · have ht := hg.edges_typed e hold
      refine ⟨?_, ht.from_kind, ?_, ht.to_kind⟩
      · rw [lookup_handle]
        exact NodeWrite.isSome_effectAt ht.from_present
      · rw [lookup_handle]
        exact NodeWrite.isSome_effectAt ht.to_present
    · exact edgeTyped_assertedEdges hg h hnew

end Handle

theorem isSome_cleanupOldErrors {g : StateGraph F} {currentTs : Nat} {id : String}
    (h : (g.nodes.lookup id).isSome = true)
    (herror : id ∉ (g.scanExpired currentTs).1)
    (hdead : id ∉ (g.scanExpired currentTs).2) :
    ((g.cleanupOldErrors currentTs).nodes.lookup id).isSome = true := by
  simp only [cleanupOldErrors, removeExpired, HashMap.lookup_removeAll]
  rw [if_neg hdead, if_neg herror]
  exact h

/-- The cleanup removes an error node only together with the edges that are
blocked by it, and a process node only together with all its edges. -/
theorem wellTyped_cleanupOldErrors {g : StateGraph F} (hg : g.WellTyped)
    (currentTs : Nat) : (g.cleanupOldErrors currentTs).WellTyped where
  nodes_kind := by
    intro id node hnode
    rw [lookup_cleanupOldErrors, Option.filter_eq_some_iff] at hnode
    exact hg.nodes_kind id node hnode.1
  edges_typed := by
    intro e he
    rw [cleanupOldErrors_edgeStore, EdgeStore.rebuildIndexes_edges] at he
    obtain ⟨hmem, herror, hfrom, hto, _⟩ := mem_survivingEdges.mp (capEdges_subset he)
    have ht := hg.edges_typed e hmem
    -- an expired id names an error, so only the target of `blockedBy` can be one
    have hkind : ∀ id, id ∈ (g.scanExpired currentTs).1 → kindOf id = .error := by
      intro id hid
      simp only [scanExpired, HashMap.mem_keysWhere] at hid
      obtain ⟨node, hnode, hexp⟩ := hid
      simp only [isExpiredError, Bool.and_eq_true, decide_eq_true_eq] at hexp
      rw [← hg.nodes_kind id node hnode]
      exact hexp.1
    refine ⟨?_, ht.from_kind, ?_, ht.to_kind⟩
    · refine isSome_cleanupOldErrors ht.from_present ?_ hfrom
      intro hmem
      have := hkind _ hmem
      rw [ht.from_kind] at this
      cases this
    · refine isSome_cleanupOldErrors ht.to_present ?_ hto
      intro hmem
      have htarget := hkind _ hmem
      rw [ht.to_kind] at htarget
      apply herror
      refine ⟨?_, hmem⟩
      cases hty : e.edgeType <;> simp [hty, EdgeType.targetType] at htarget ⊢

theorem wellTyped_periodicCleanup {g : StateGraph F} (hg : g.WellTyped) (ts : Nat) :
    (g.periodicCleanup ts).WellTyped := by
  unfold periodicCleanup
  split_ifs
  · have h := wellTyped_cleanupOldErrors hg ts
    exact ⟨h.nodes_kind, h.edges_typed⟩
  · exact hg

section Runs

variable [FloatArith F]

theorem wellTyped_updateSignals {g : StateGraph F} (hg : g.WellTyped)
    (hreg : g.signals.registry = defaultMvp) (event : Event) :
    (g.updateSignals event).WellTyped where
  nodes_kind := by
    intro id node hnode
    rw [lookup_updateSignals] at hnode
    refine NodeWrite.nodeType_effectAt (P := fun id ty => ty = kindOf id) ?_
      (hg.nodes_kind id) node hnode
    intro w hw
    obtain ⟨point, spec, hspec, rfl, hname, _⟩ := mem_signalWrites hw
    rw [hreg] at hspec
    exact (kindOf_signalNode hspec hname).symm
  edges_typed := by
    intro e he
    have ht := hg.edges_typed e he
    refine ⟨?_, ht.from_kind, ?_, ht.to_kind⟩
    · rw [lookup_updateSignals]
      exact NodeWrite.isSome_effectAt ht.from_present
    · rw [lookup_updateSignals]
      exact NodeWrite.isSome_effectAt ht.to_present

theorem wellTyped_applyEvent {g : StateGraph F} (hg : g.WellTyped)
    (hreg : g.signals.registry = defaultMvp) {event : Event} (h : PlainIds event) :
    (g.applyEvent event).WellTyped := by
  unfold applyEvent
  apply wellTyped_updateSignals
  · exact wellTyped_periodicCleanup (wellTyped_handle hg h) event.ts
  · simpa using hreg

theorem wellTyped_after {events : List Event} (h : ∀ event ∈ events, PlainIds event) :
    (after events : StateGraph F).WellTyped := by
  have key : (after events : StateGraph F).WellTyped ∧
      (after events : StateGraph F).signals.registry = defaultMvp := by
    refine Run.invariant_of_meets
      (I := fun g : StateGraph F => g.WellTyped ∧ g.signals.registry = defaultMvp)
      (C := fun _ event => PlainIds event) ?_ ?_ (Run.meets_of_forall h)
    · intro g event hg hplain
      exact ⟨wellTyped_applyEvent hg.1 hg.2 hplain, by simpa using hg.2⟩
    · exact ⟨⟨by simp [new], by simp [new, EdgeStore.empty]⟩, rfl⟩
  exact key.1

/-- **Typed referential integrity.**  Over plain ids, every edge of every
reachable state leads from a present process to a present resource, or to a
present error when it is `blockedBy`. -/
theorem edges_referentialIntegrity (events : List Event)
    (h : ∀ event ∈ events, PlainIds event) :
    let g : StateGraph F := after events
    ∀ e ∈ g.edges,
      (∃ node, g.nodes.lookup e.fromId = some node ∧ node.nodeType = .process) ∧
      ∃ node, g.nodes.lookup e.toId = some node ∧ node.nodeType = e.edgeType.targetType := by
  intro g e he
  have hg : g.WellTyped := wellTyped_after h
  have ht := hg.edges_typed e he
  obtain ⟨source, hsource⟩ := Option.isSome_iff_exists.mp ht.from_present
  obtain ⟨target, htarget⟩ := Option.isSome_iff_exists.mp ht.to_present
  refine ⟨⟨source, hsource, ?_⟩, target, htarget, ?_⟩
  · rw [hg.nodes_kind _ _ hsource]
    exact ht.from_kind
  · rw [hg.nodes_kind _ _ htarget]
    exact ht.to_kind

/-- A consumed resource that fails: the process, the resource and the error of
the three edges are all there. -/
theorem edges_referentialIntegrity_faultyGpu :
    let events : List Event :=
      [⟨1000, .computeUtil, "gpu-0", none, some 7, "95", some "node-a"⟩,
        ⟨1500, .transportDrop, "network-pid-7", none, none, "retransmit", some "node-a"⟩,
        ⟨2000, .errorHw, "gpu-0", none, none, "XID_79", some "node-a"⟩]
    let g : StateGraph Binary64 := after events
    g.edges.length = 3 ∧
    ∀ e ∈ g.edges,
      (∃ node, g.nodes.lookup e.fromId = some node ∧ node.nodeType = .process) ∧
      ∃ node, g.nodes.lookup e.toId = some node ∧
        node.nodeType = e.edgeType.targetType := by
  refine ⟨by decide, edges_referentialIntegrity _ (by decide)⟩

end Runs

end StateGraph

end ArkInfra
