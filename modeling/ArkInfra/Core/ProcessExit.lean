import ArkInfra.Core.ProcessLife

/-!
# Processes that have ended

The end of a process marks its node, and the next cleanup removes the node.
Both make the process disappear from the list of active processes, but only
the mark is remembered by the graph: once the node is gone, any later event
that mentions the process creates it anew, as if it had never ended.  A drop
report even creates it in state `running`, in which no cleanup will ever touch
it again.

`exited_staysGone_iff` says when an ended process stays off the list: exactly
as long as no event recreates its node.
-/

namespace ArkInfra

def Node.IsActive (node : Node) : Prop :=
  node.nodeType = .process ∧ node.metadata.lookup "state" ≠ some "exit" ∧
    node.metadata.lookup "state" ≠ some "zombie"

def ActiveAt (o : Option Node) : Prop :=
  ∃ node ∈ o, node.IsActive

@[simp] theorem activeAt_some {node : Node} : ActiveAt (some node) ↔ node.IsActive := by
  simp [ActiveAt]

@[simp] theorem not_activeAt_none : ¬ ActiveAt none := by
  simp [ActiveAt]

section Writes

variable {event : Event} {id : String}

theorem WriteOf.isPid_target {w : NodeWrite} (h : WriteOf event w) (hs : w.StoresProcess) :
    IsPid event.nodeId w.target := by
  cases h with
  | mention pid metadata _ =>
    exact ⟨pid, pidNodeId_eq event pid⟩
  | start _ hstart =>
    obtain ⟨_, _, pid, _, rfl⟩ := hstart
    exact ⟨pid, pidNodeId_eq event pid⟩
  | resource base _ => cases hs
  | error => cases hs
  | metric base key _ _ => cases hs
  | finish _ _ => cases hs

theorem not_activeAt_effectAt_some (hstart : ¬ event.Starts id) {ws : List NodeWrite}
    (hws : ∀ w ∈ ws, WriteOf event w) {old : Node} (h : ¬ old.IsActive) :
    ¬ ActiveAt (NodeWrite.effectAt id ws (some old)) := by
  have key : ∃ node, NodeWrite.effectAt id ws (some old) = some node ∧ ¬ node.IsActive := by
    refine NodeWrite.effectAt_induction
      (P := fun o => ∃ node, o = some node ∧ ¬ node.IsActive) ?_ ⟨old, rfl, h⟩
    rintro w hw htarget _ ⟨node, rfl, hnode⟩
    cases hws w hw with
    | resource base _ | mention pid metadata _ | error =>
      exact ⟨node, rfl, hnode⟩
    | metric base key _ hkey =>
      refine ⟨_, rfl, ?_⟩
      simpa only [Node.IsActive, AList.lookup_insert_ne (Ne.symm hkey)] using hnode
    | start _ hthis =>
      obtain rfl : _ = id := htarget
      exact absurd hthis hstart
    | finish _ hend =>
      refine ⟨_, rfl, ?_⟩
      simp only [Node.IsActive, AList.lookup_insert]
      rcases hend.2.1 with hvalue | hvalue
      · simp [hvalue]
      · simp [hvalue]
  obtain ⟨node, heq, hnode⟩ := key
  rw [heq, activeAt_some]
  exact hnode

/-- An event that stores a resource at the id does so before it mentions a
process there. -/
theorem not_activeAt_resourceFirst (hstart : ¬ event.Starts id) {rid key : String}
    {tail : List NodeWrite} (htail : ∀ w ∈ tail, WriteOf event w) (hrid : rid = id) :
    ¬ ActiveAt (NodeWrite.effectAt id
      ([.ensure (resourceNode rid event.ts), .touch rid key event.value event.ts] ++ tail)
      none) := by
  rw [NodeWrite.effectAt_append]
  simp only [NodeWrite.effectAt_cons, NodeWrite.effectAt_nil, NodeWrite.target, resourceNode,
    hrid, if_true, NodeWrite.effect, Option.getD_none, Option.map_some]
  apply not_activeAt_effectAt_some hstart htail
  simp [Node.IsActive]

end Writes

namespace StateGraph

variable {F : Type}

/-- The process with the node id is listed as active. -/
def Active (g : StateGraph F) (id : String) : Prop :=
  ∃ node ∈ g.getActiveProcesses, node.id = id

instance (g : StateGraph F) (id : String) : Decidable (g.Active id) :=
  inferInstanceAs (Decidable (∃ node ∈ g.getActiveProcesses, node.id = id))

def Keyed (g : StateGraph F) : Prop :=
  ∀ id, ∀ node ∈ g.nodes.lookup id, node.id = id

theorem active_iff {g : StateGraph F} (hg : g.Keyed) {id : String} :
    g.Active id ↔ ActiveAt (g.nodes.lookup id) := by
  have hlisted : ∀ node, node ∈ g.getActiveProcesses ↔
      (∃ key, g.nodes.lookup key = some node) ∧ node.IsActive := by
    intro node
    simp only [getActiveProcesses, List.mem_filter, List.mem_map, Node.IsActive,
      Bool.and_eq_true, decide_eq_true_eq, and_assoc]
    constructor
    · rintro ⟨⟨⟨key, _⟩, hmem, rfl⟩, hactive⟩
      exact ⟨⟨key, AList.mem_lookup_iff.mpr hmem⟩, hactive⟩
    · rintro ⟨⟨key, hkey⟩, hactive⟩
      exact ⟨⟨⟨key, node⟩, AList.mem_lookup_iff.mp hkey, rfl⟩, hactive⟩
  constructor
  · rintro ⟨node, hnode, rfl⟩
    obtain ⟨⟨key, hkey⟩, hactive⟩ := (hlisted node).mp hnode
    obtain rfl := hg key node hkey
    exact ⟨node, hkey, hactive⟩
  · rintro ⟨node, hnode, hactive⟩
    exact ⟨node, (hlisted node).mpr ⟨⟨id, hnode⟩, hactive⟩, hg id node hnode⟩

section Steps

variable [FloatArith F]

theorem keyed_applyEvent {g : StateGraph F} (hg : g.Keyed) (event : Event) :
    (g.applyEvent event).Keyed := by
  intro id
  unfold applyEvent
  rw [lookup_updateSignals]
  apply NodeWrite.id_effectAt
  intro node hnode
  have hhandle := lookup_of_periodicCleanup hnode
  rw [lookup_handle] at hhandle
  exact NodeWrite.id_effectAt (hg id) node hhandle

theorem keyed_after (events : List Event) : (after events : StateGraph F).Keyed := by
  refine Run.invariant (I := Keyed) ?_ ?_ events
  · intro g event hg
    exact keyed_applyEvent hg event
  · intro id node hnode
    simp [new] at hnode

/-- The event creates a process node at the id: there is no node, some write of
the event goes there, and every such write stores a process. -/
def Recreates (g : StateGraph F) (event : Event) (id : String) : Prop :=
  g.nodes.lookup id = none ∧
    (∃ w ∈ nodeWrites F event, w.target = id) ∧
    ∀ w ∈ nodeWrites F event, w.target = id → w.StoresProcess

instance (g : StateGraph F) (event : Event) (id : String) :
    Decidable (g.Recreates event id) :=
  inferInstanceAs (Decidable (_ ∧ (∃ w ∈ _, _) ∧ ∀ w ∈ _, _))

theorem not_activeAt_handle {g : StateGraph F} {event : Event} {id : String}
    (hstart : ¬ event.Starts id) (hrec : ¬ g.Recreates event id)
    (h : ¬ ActiveAt (g.nodes.lookup id)) :
    ¬ ActiveAt ((g.handle event).nodes.lookup id) := by
  have hws : ∀ w ∈ nodeWrites F event, WriteOf event w := fun w hw => writeOf_of_mem hw
  rw [lookup_handle]
  cases hold : g.nodes.lookup id with
  | some old =>
    apply not_activeAt_effectAt_some hstart hws
    simpa [hold] using h
  | none =>
    by_cases hmem : ∃ w ∈ nodeWrites F event, w.target = id
    · -- some write to the id stores no process
      have hother : ∃ w ∈ nodeWrites F event, w.target = id ∧ ¬ w.StoresProcess := by
        by_contra hall
        apply hrec
        refine ⟨hold, hmem, ?_⟩
        intro w hw htarget
        by_contra hnot
        exact hall ⟨w, hw, htarget, hnot⟩
      obtain ⟨w, hw, htarget, hnot⟩ := hother
      rcases nodeWrites_shape F event with hone | ⟨rid, key, tail, htail, hshape⟩
      · rw [hone w hw, NodeWrite.effectAt_cons, if_pos htarget, NodeWrite.effectAt_nil]
        cases hws w hw with
        | resource base _ => simp [NodeWrite.effect, resourceNode, Node.IsActive]
        | error => simp [NodeWrite.effect, errorNode, Node.IsActive]
        | metric base key _ _ => simp [NodeWrite.effect]
        | finish _ _ => simp [NodeWrite.effect]
        | mention pid metadata _ => exact absurd rfl hnot
        | start _ _ => exact absurd rfl hnot
      · rw [hshape] at hw hws ⊢
        have hrid : rid = id := by
          rcases List.mem_append.mp hw with hfirst | hlast
          · simp only [List.mem_cons, List.not_mem_nil, or_false] at hfirst
            rcases hfirst with rfl | rfl
            · exact htarget
            · exact htarget
          · exact absurd (htail w hlast) hnot
        exact not_activeAt_resourceFirst hstart
          (fun v hv => hws v (List.mem_append_right _ hv)) hrid
    · rw [NodeWrite.effectAt_of_ne]
      · exact not_activeAt_none
      · intro w hw htarget
        exact hmem ⟨w, hw, htarget⟩

theorem activeAt_of_applyEvent {g : StateGraph F} {event : Event} {id : String}
    (h : ActiveAt ((g.applyEvent event).nodes.lookup id)) :
    ActiveAt ((g.handle event).nodes.lookup id) := by
  obtain ⟨node, hnode, hactive⟩ := h
  have hclean := lookup_of_updateSignals hnode (by rw [hactive.1]; simp)
  exact ⟨node, lookup_of_periodicCleanup hclean, hactive⟩

theorem not_activeAt_of_ends {g : StateGraph F} {event : Event} {id : String}
    (h : event.Ends id) : ¬ ActiveAt ((g.applyEvent event).nodes.lookup id) := by
  intro hactive
  have hhandle := activeAt_of_applyEvent hactive
  obtain ⟨hty, hvalue, pid, hpid, rfl⟩ := h
  have hnotStart : event.value ≠ "start" := by
    rcases hvalue with hv | hv <;> simp [hv]
  have hpid' : event.pid = some pid := hpid
  rw [lookup_handle] at hhandle
  simp only [nodeWrites, hty, processWrites, hpid', hnotStart, hvalue, if_false, if_true,
    NodeWrite.effectAt_cons, NodeWrite.effectAt_nil, NodeWrite.target, NodeWrite.effect]
    at hhandle
  obtain ⟨node, hnode, _, hexit, hzombie⟩ := hhandle
  obtain ⟨old, _, rfl⟩ := Option.map_eq_some_iff.mp hnode
  simp only [AList.lookup_insert] at hexit hzombie
  rcases hvalue with hv | hv
  · exact hexit (by rw [hv])
  · exact hzombie (by rw [hv])

theorem activeAt_of_recreates {g : StateGraph F} {event : Event} {id : String}
    (h : g.Recreates event id) : ActiveAt ((g.applyEvent event).nodes.lookup id) := by
  obtain ⟨hnone, hmem, hstores⟩ := h
  have hcreated : ∃ node ∈ (g.handle event).nodes.lookup id,
      node.IsActive ∧ node.lastUpdate = event.ts := by
    rw [lookup_handle, hnone]
    refine NodeWrite.effectAt_of_mem
      (P := fun o => ∃ node ∈ o, node.IsActive ∧ node.lastUpdate = event.ts)
      hmem (Or.inl rfl) ?_
    intro w hw htarget o ho
    have hprocess := hstores w hw htarget
    cases writeOf_of_mem hw with
    | mention pid metadata hstate =>
      rcases ho with rfl | ⟨node, rfl, hnode⟩
      · refine ⟨_, rfl, ⟨rfl, ?_, ?_⟩, rfl⟩ <;>
          rcases hstate with hs | hs <;> simp [processNode, hs]
      · exact ⟨node, rfl, hnode⟩
    | start _ _ =>
      refine ⟨_, rfl, ⟨rfl, ?_, ?_⟩, rfl⟩ <;>
        simp [processNode, startMetadata_state]
    | resource base _ => cases hprocess
    | error => cases hprocess
    | metric base key _ _ => cases hprocess
    | finish _ _ => cases hprocess
  obtain ⟨node, hnode, hactive, hupdate⟩ := hcreated
  have hclean : ((g.handle event).periodicCleanup event.ts).nodes.lookup id = some node := by
    unfold periodicCleanup
    split_ifs
    · change ((g.handle event).cleanupOldErrors event.ts).nodes.lookup id = some node
      have hyoung : ¬ event.ts < event.ts - processTtlMs := by
        omega
      rw [lookup_cleanupOldErrors, hnode]
      simp [Option.filter_some, isExpired, isExpiredError, isDeadProcess, hactive.1,
        hactive.2.1, hactive.2.2, hupdate, hyoung]
    · exact hnode
  have hpid : IsPid event.nodeId id := by
    obtain ⟨w, hw, htarget⟩ := hmem
    rw [← htarget]
    exact (writeOf_of_mem hw).isPid_target (hstores w hw htarget)
  refine ⟨node, ?_, hactive⟩
  unfold applyEvent
  rw [lookup_updateSignals, NodeWrite.effectAt_of_ne]
  · exact hclean
  · intro w hw htarget
    rw [← htarget] at hpid
    exact not_isPid_signalWrites hw hpid

end Steps

section Runs

variable [FloatArith F]

/-- **When an ended process stays gone.**  After an exit or zombie event for a
process, and with no start event for it since, the process is off the list of
active processes in every state reached if and only if no event recreates its
node. -/
theorem exited_staysGone_iff (earlier later : List Event) (last : Event) (id : String)
    (hend : last.Ends id) (hstart : ∀ x ∈ later, ¬ x.Starts id) :
    Run.Meets applyEvent (fun g x => ¬ g.Recreates x id)
        (after (earlier ++ [last]) : StateGraph F) later ↔
      ∀ seen rest, later = seen ++ rest →
        ¬ (after (earlier ++ last :: seen) : StateGraph F).Active id := by
  have hafter : ∀ seen, (after (earlier ++ last :: seen) : StateGraph F) =
      Run.run applyEvent (after (earlier ++ [last])) seen := by
    intro seen
    rw [List.append_cons]
    exact Run.run_append _ _ _ _
  apply Run.meets_iff_forall_seen
  · rw [active_iff (keyed_after _), after_concat]
    exact not_activeAt_of_ends hend
  · intro seen x rest hsplit hgone
    have hx : ¬ x.Starts id := hstart x (by simp [hsplit])
    rw [active_iff (keyed_after _)] at hgone
    rw [← hafter, active_iff (keyed_after _), ← List.cons_append, ← List.append_assoc,
      after_concat]
    constructor
    · intro hrec hactive
      exact not_activeAt_handle hx hrec hgone (activeAt_of_applyEvent hactive)
    · intro hnot hrec
      exact hnot (activeAt_of_recreates hrec)

/-- A process that ends and is still reported by a compute event before the
cleanup stays gone. -/
theorem exited_staysGone_iff_lateReport :
    let start : Event := ⟨1000, .processState, "proc", none, some 7, "start", none⟩
    let last : Event := ⟨2000, .processState, "proc", none, some 7, "exit", none⟩
    let report : Event := ⟨3000, .computeUtil, "gpu-0", none, some 7, "95", none⟩
    ∀ seen rest, [report] = seen ++ rest →
      ¬ (after ([start] ++ last :: seen) : StateGraph Binary64).Active "pid-7" := by
  exact (exited_staysGone_iff [_] [_] _ "pid-7" (by decide) (by decide)).mp (by decide)

end Runs

/-- **A late drop report revives the process.**  The exit and the cleanup in
the same call remove the node; the drop report then creates it in state
`running`. -/
theorem exited_staysGone_lateDrop :
    let start : Event := ⟨1000, .processState, "proc", none, some 7, "start", none⟩
    let last : Event := ⟨32000, .processState, "proc", none, some 7, "exit", none⟩
    let drop : Event := ⟨33000, .transportDrop, "eth0", none, some 7, "retransmit", none⟩
    start.Starts "pid-7" ∧ last.Ends "pid-7" ∧ ¬ drop.Starts "pid-7" ∧
    ¬ (after [start, last] : StateGraph Binary64).Active "pid-7" ∧
    (after [start, last, drop] : StateGraph Binary64).Active "pid-7" := by
  decide

end StateGraph

end ArkInfra
