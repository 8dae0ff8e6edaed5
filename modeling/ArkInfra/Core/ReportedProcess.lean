import ArkInfra.Core.EdgeLife
import ArkInfra.Core.ProcessExit

/-!
# Processes that keep reporting

The cleanup takes a process for dead when it has ended, or when it is not in
state `running` and was not updated for `processTtlMs`.  A report about a
process that is already known neither sets its state nor renews the time of its
node, so a process that is first seen by a compute or bandwidth report is judged
by the time of that first report, however often it reports later.

`reported_staysInGraph` says which runs keep a reporting process and the errors
that block it: those in which every report finds the process absent, running, or
updated at the time of the report, and those in which every cleanup finds it
running or updated lately.
-/

namespace ArkInfra

/-- The pid a report is about: the one it carries, when it is a compute event, a
drop, or a bandwidth report that counts as blocking. -/
def Event.reportedPid (F : Type) [FloatArith F] (event : Event) : Option Nat :=
  match event.eventType with
  | .computeUtil | .computeMem => event.pid
  | .transportDrop =>
    match event.pid with
    | some pid => some pid
    | none => if 0 < dropPid event then some (dropPid event) else none
  | .transportBw => if StateGraph.shouldCreateWaitson F event then event.pid else none
  | _ => none

/-- The event reports about the process with the node id. -/
def Event.ReportsProcess (F : Type) [FloatArith F] (event : Event) (id : String) : Prop :=
  ∃ pid ∈ event.reportedPid F, pidNodeId event pid = id

instance (F : Type) [FloatArith F] (event : Event) (id : String) :
    Decidable (event.ReportsProcess F id) :=
  inferInstanceAs (Decidable (∃ pid ∈ _, _))

/-- A process that has not ended, and is running or was updated at the time or
later. -/
structure Node.LivesSince (t : Nat) (node : Node) : Prop where
  active : node.IsActive
  renewed : node.metadata.lookup "state" = some "running" ∨ t ≤ node.lastUpdate

section Writes

variable {event : Event} {id : String}

theorem reportedPid_of_waitingProcess {F : Type} [FloatArith F]
    {p : Nat × HashMap String String} (h : waitingProcess F event = some p) :
    event.reportedPid F = some p.1 := by
  unfold waitingProcess at h
  unfold Event.reportedPid
  cases hpid : event.pid with
  | none =>
    simp only [hpid] at h
    split_ifs at h with hdrop hpos
    cases h
    simp [hdrop, hpos]
  | some pid =>
    simp only [hpid] at h
    split_ifs at h with hdrop hpos hbw hwaits
    · cases h
      simp [hdrop, dropPid, hpid]
    · cases h
      simp [hbw, hwaits]

theorem reportsProcess_of_ensure {F : Type} [FloatArith F] {metadata : HashMap String String}
    (h : .ensure (processNode id event.ts metadata) ∈ nodeWrites F event) :
    event.ReportsProcess F id := by
  unfold nodeWrites at h
  cases hty : event.eventType with
  | processState =>
    simp only [hty, processWrites] at h
    cases hpid : event.pid with
    | none =>
      simp [hpid] at h
    | some pid =>
      simp only [hpid] at h
      split_ifs at h <;> simp at h
  | computeUtil | computeMem =>
    cases hpid : event.pid with
    | none =>
      simp [hty, computeWrites, hpid, processNode, resourceNode] at h
    | some pid =>
      have hsame : id = pidNodeId event pid ∧ metadata = ∅ := by
        simpa [hty, computeWrites, hpid, processNode, resourceNode] using h
      exact ⟨pid, by simp [Event.reportedPid, hty, hpid], hsame.1.symm⟩
  | transportBw | transportDrop | storageIops | storageQDepth =>
    cases hw : waitingProcess F event with
    | none =>
      simp [hty, transportWrites, hw, processNode, resourceNode] at h
    | some p =>
      have hsame : id = pidNodeId event p.1 ∧ metadata = p.2 := by
        simpa [hty, transportWrites, hw, processNode, resourceNode] using h
      exact ⟨p.1, reportedPid_of_waitingProcess hw, hsame.1.symm⟩
  | errorHw | errorNet | topoLinkDown =>
    simp [hty, processNode, errorNode] at h
  | intentRun | actionExec =>
    simp [hty] at h

theorem WriteOf.not_ended_effect {w : NodeWrite} (h : WriteOf event w)
    (hend : ¬ event.Ends id) (htarget : w.target = id) {o : Option Node}
    (ho : ∀ node ∈ o, node.nodeType = .process → node.IsActive) :
    ∀ node ∈ w.effect o, node.nodeType = .process → node.IsActive := by
  have hensure : ∀ new : Node,
      (new.nodeType = .process → new.IsActive) →
      ∀ node ∈ (NodeWrite.ensure new).effect o, node.nodeType = .process → node.IsActive := by
    intro new hnew node hnode
    obtain rfl : o.getD new = node := by simpa [NodeWrite.effect] using hnode
    cases o with
    | none => exact hnew
    | some old => exact ho old rfl
  cases h with
  | resource base _ =>
    exact hensure _ fun hty => by cases hty
  | error =>
    exact hensure _ fun hty => by cases hty
  | mention pid metadata hstate =>
    apply hensure
    intro hty
    refine ⟨hty, ?_, ?_⟩
    · rcases hstate with hs | hs <;> simp [processNode, hs]
    · rcases hstate with hs | hs <;> simp [processNode, hs]
  | metric base key _ hkey =>
    intro node hnode
    obtain ⟨old, hold, rfl⟩ := Option.map_eq_some_iff.mp hnode
    simpa only [Node.IsActive, AList.lookup_insert_ne (Ne.symm hkey)] using ho old hold
  | start _ _ =>
    intro node hnode hty
    cases hnode
    exact ⟨hty, by simp [processNode, startMetadata_state],
      by simp [processNode, startMetadata_state]⟩
  | finish _ hthis =>
    obtain rfl : _ = id := htarget
    exact absurd hthis hend

/-- Without its end, a process that lives since `t` does so after every write of
an event that is not older. -/
theorem WriteOf.livesSince_effect {w : NodeWrite} (h : WriteOf event w)
    (hend : ¬ event.Ends id) (htarget : w.target = id) {t : Nat} (hts : t ≤ event.ts)
    {o : Option Node} (ho : ∃ node ∈ o, node.LivesSince t) :
    ∃ node ∈ w.effect o, node.LivesSince t := by
  obtain ⟨node, rfl, hnode⟩ := ho
  cases h with
  | resource base _ | error | mention pid metadata _ =>
    exact ⟨node, rfl, hnode⟩
  | metric base key _ hkey =>
    refine ⟨_, rfl, ?_, Or.inr hts⟩
    simpa only [Node.IsActive, AList.lookup_insert_ne (Ne.symm hkey)] using hnode.active
  | start _ _ =>
    refine ⟨_, rfl, ⟨rfl, ?_, ?_⟩, Or.inr hts⟩
    · simp [processNode, startMetadata_state]
    · simp [processNode, startMetadata_state]
  | finish _ hthis =>
    obtain rfl : _ = id := htarget
    exact absurd hthis hend

end Writes

namespace StateGraph

variable {F : Type}

section Cleanup

variable {g : StateGraph F} {id : String}

theorem not_isExpired_of_livesSince {node : Node} {t ts : Nat} (h : node.LivesSince t)
    (hts : ts ≤ t + processTtlMs) : g.isExpired ts node = false := by
  obtain ⟨⟨hty, hexit, hzombie⟩, hrenewed⟩ := h
  have hfresh : node.lastUpdate < ts - processTtlMs →
      node.metadata.lookup "state" = some "running" := by
    intro hold
    rcases hrenewed with hrun | hupdate
    · exact hrun
    · omega
  simp only [isExpired, isExpiredError, isDeadProcess, hty, hexit, hzombie]
  simpa using hfresh

theorem lookup_periodicCleanup_of_livesSince {node : Node} {t ts : Nat}
    (hnode : node ∈ g.nodes.lookup id)
    (hlives : g.shouldCleanup ts = true → node.LivesSince t) (hts : ts ≤ t + processTtlMs) :
    node ∈ (g.periodicCleanup ts).nodes.lookup id := by
  unfold periodicCleanup
  split_ifs with hdue
  · change node ∈ (g.cleanupOldErrors ts).nodes.lookup id
    rw [lookup_cleanupOldErrors, Option.mem_def, Option.filter_eq_some_iff]
    exact ⟨hnode, by simp [not_isExpired_of_livesSince (hlives hdue) hts]⟩
  · exact hnode

end Cleanup

section Steps

variable [FloatArith F] {g : StateGraph F} {event : Event} {id : String}

/-- The event stores a process at the id and nothing else, and finds no node
there or a process. -/
def StoresReport (g : StateGraph F) (event : Event) (id : String) : Prop :=
  (∃ w ∈ nodeWrites F event, w.target = id) ∧
  (∀ w ∈ nodeWrites F event, w.target = id → w.StoresProcess) ∧
  ∀ node ∈ g.nodes.lookup id, node.nodeType = .process

/-- A report about the process stores it, and no signal takes the place of its
node. -/
def KeepsReported (id : String) (g : StateGraph F) (event : Event) : Prop :=
  (event.ReportsProcess F id → g.StoresReport event id) ∧
  ∀ w ∈ signalWrites g.signals event, w.target ≠ id

/-- A report about the process finds no node, or one that is running or was updated at
the time of the report. -/
def RefreshingReport (id : String) (g : StateGraph F) (event : Event) : Prop :=
  event.ReportsProcess F id → ∀ node ∈ g.nodes.lookup id,
    node.metadata.lookup "state" = some "running" ∨ node.lastUpdate = event.ts

/-- A cleanup that is due finds the process running, or updated within
`processTtlMs`. -/
def NeverStale (id : String) (g : StateGraph F) (event : Event) : Prop :=
  g.shouldCleanup event.ts = true → ∀ node ∈ (g.handle event).nodes.lookup id,
    node.metadata.lookup "state" = some "running" ∨ event.ts ≤ node.lastUpdate + processTtlMs

instance (g : StateGraph F) (event : Event) (id : String) :
    Decidable (g.StoresReport event id) :=
  inferInstanceAs (Decidable ((∃ w ∈ _, _) ∧ (∀ w ∈ _, _) ∧ ∀ node ∈ _, _))

instance (id : String) (g : StateGraph F) (event : Event) :
    Decidable (g.KeepsReported id event) :=
  inferInstanceAs (Decidable ((_ → _) ∧ ∀ w ∈ _, _))

instance (id : String) (g : StateGraph F) (event : Event) :
    Decidable (g.RefreshingReport id event) :=
  inferInstanceAs (Decidable (_ → ∀ node ∈ _, _))

instance (id : String) (g : StateGraph F) (event : Event) :
    Decidable (g.NeverStale id event) :=
  inferInstanceAs (Decidable (_ → ∀ node ∈ _, _))

/-- The node at the id is no process that has ended. -/
def NotEnded (g : StateGraph F) (id : String) : Prop :=
  ∀ node ∈ g.nodes.lookup id, node.nodeType = .process → node.IsActive

theorem notEnded_handle (hg : g.NotEnded id) (hend : ¬ event.Ends id) :
    (g.handle event).NotEnded id := by
  unfold NotEnded
  rw [lookup_handle]
  refine NodeWrite.effectAt_induction
    (P := fun o => ∀ node ∈ o, node.nodeType = .process → node.IsActive) ?_ hg
  intro w hw htarget o ho
  exact (writeOf_of_mem hw).not_ended_effect hend htarget ho

theorem notEnded_applyEvent (hg : g.NotEnded id) (hend : ¬ event.Ends id) :
    (g.applyEvent event).NotEnded id := by
  intro node hnode hty
  have hclean := lookup_of_updateSignals hnode (by rw [hty]; simp)
  exact notEnded_handle hg hend node (lookup_of_periodicCleanup hclean) hty

/-- A report leaves a process at the id, with a property that the process found there has
and a new one gets. -/
theorem process_handle_of_stores {P : Node → Prop} (hstores : g.StoresReport event id)
    (hfound : ∀ node ∈ g.nodes.lookup id, P node)
    (hnew : ∀ i metadata, P (processNode i event.ts metadata)) :
    ∃ node ∈ (g.handle event).nodes.lookup id, node.nodeType = .process ∧ P node := by
  obtain ⟨hmem, hprocess, htype⟩ := hstores
  rw [lookup_handle]
  refine NodeWrite.effectAt_of_mem
    (P := fun o => ∃ node ∈ o, node.nodeType = .process ∧ P node) hmem ?_ ?_
  · cases hnode : g.nodes.lookup id with
    | none => exact Or.inl rfl
    | some node => exact Or.inr ⟨node, rfl, htype node hnode, hfound node hnode⟩
  · intro w hw htarget o ho
    have hwrite := hprocess w hw htarget
    cases writeOf_of_mem hw with
    | mention pid metadata _ =>
      rcases ho with rfl | ⟨node, rfl, hnode⟩
      · exact ⟨_, rfl, rfl, hnew _ _⟩
      · exact ⟨node, rfl, hnode⟩
    | start _ _ => exact ⟨_, rfl, rfl, hnew _ _⟩
    | resource base _ => cases hwrite
    | error => cases hwrite
    | metric base key _ _ => cases hwrite
    | finish _ _ => cases hwrite

theorem livesSince_handle_of_fresh (hg : g.NotEnded id) (hend : ¬ event.Ends id)
    (hstores : g.StoresReport event id)
    (hfresh : ∀ node ∈ g.nodes.lookup id,
      node.metadata.lookup "state" = some "running" ∨ node.lastUpdate = event.ts) :
    ∃ node ∈ (g.handle event).nodes.lookup id, node.LivesSince event.ts := by
  obtain ⟨node, hnode, hty, hrenewed⟩ :=
    process_handle_of_stores hstores hfresh fun _ _ => Or.inr rfl
  exact ⟨node, hnode, notEnded_handle hg hend node hnode hty,
    hrenewed.imp_right fun hupdate => hupdate.ge⟩

theorem livesSince_handle {t : Nat} (h : ∃ node ∈ g.nodes.lookup id, node.LivesSince t)
    (hend : ¬ event.Ends id) (hts : t ≤ event.ts) :
    ∃ node ∈ (g.handle event).nodes.lookup id, node.LivesSince t := by
  rw [lookup_handle]
  refine NodeWrite.effectAt_induction (P := fun o => ∃ node ∈ o, node.LivesSince t) ?_ h
  intro w hw htarget o ho
  exact (writeOf_of_mem hw).livesSince_effect hend htarget hts ho

/-- Behind the handler, a process that lives since `processTtlMs` ago stays. -/
theorem lookup_applyEvent_of_livesSince {node : Node} {t : Nat}
    (hnode : node ∈ (g.handle event).nodes.lookup id)
    (hlives : g.shouldCleanup event.ts = true → node.LivesSince t)
    (hts : event.ts ≤ t + processTtlMs)
    (hsignal : ∀ w ∈ signalWrites g.signals event, w.target ≠ id) :
    node ∈ (g.applyEvent event).nodes.lookup id := by
  unfold applyEvent
  rw [lookup_updateSignals, NodeWrite.effectAt_of_ne]
  · refine lookup_periodicCleanup_of_livesSince hnode ?_ hts
    rw [handle_shouldCleanup]
    exact hlives
  · simpa only [periodicCleanup_signals, handle_signals] using hsignal

theorem active_applyEvent_of_neverStale {node : Node}
    (hnode : node ∈ (g.handle event).nodes.lookup id) (hactive : node.IsActive)
    (hstale : g.NeverStale id event)
    (hsignal : ∀ w ∈ signalWrites g.signals event, w.target ≠ id) :
    ∃ node ∈ (g.applyEvent event).nodes.lookup id, node.IsActive := by
  refine ⟨node, lookup_applyEvent_of_livesSince (t := event.ts - processTtlMs) hnode ?_ ?_ hsignal,
    hactive⟩
  · intro hdue
    refine ⟨hactive, (hstale hdue node hnode).imp_right fun hlate => ?_⟩
    omega
  · omega

end Steps

section Edges

variable [FloatArith F] {g : StateGraph F} {event : Event}

/-- **Which block survives an event**: one within its lifetime whose process and
error are still there. -/
theorem mem_applyEvent_of_blocked (hroom : g.FitsEdges event) {e : Edge}
    (he : e ∈ (g.handle event).edges) (hts : event.ts ≤ e.ts + edgeTtlMs)
    (hfrom : ∃ node ∈ (g.applyEvent event).nodes.lookup e.fromId, node.nodeType = .process)
    (hto : ∃ node ∈ (g.applyEvent event).nodes.lookup e.toId, node.nodeType = .error) :
    e ∈ (g.applyEvent event).edges := by
  obtain ⟨process, hprocess, hprocessTy⟩ := hfrom
  obtain ⟨error, herror, herrorTy⟩ := hto
  rw [applyEvent_edgeStore, mem_periodicCleanup fun _ => hroom]
  refine ⟨he, ?_⟩
  intro hdue
  rw [handle_shouldCleanup] at hdue
  have hfromKept := notMem_scanExpired hprocess (by rw [hprocessTy]; simp) hdue
  have htoKept := notMem_scanExpired herror (by rw [herrorTy]; simp) hdue
  refine mem_survivingEdges.mpr ⟨he, ?_, hfromKept.2, htoKept.2, ?_⟩
  · intro hblocked
    exact htoKept.1 hblocked.2
  · omega

end Edges

section Runs

variable [FloatArith F]

/-- Some report about the process is at most `processTtlMs` old. -/
def ReportedLately (F : Type) [FloatArith F] (events : List Event) (id : String) : Prop :=
  ∃ report ∈ events, report.ReportsProcess F id ∧ lastTs events ≤ report.ts + processTtlMs

/-- The event comes before the first report about the process, or when some
report is at most `processTtlMs` old. -/
def TimelyReports (F : Type) [FloatArith F] (id : String) (seen : List Event) (event : Event) :
    Prop :=
  (∃ report ∈ seen ++ [event], report.ReportsProcess F id) →
    ReportedLately F (seen ++ [event]) id

instance (events : List Event) (id : String) : Decidable (ReportedLately F events id) :=
  inferInstanceAs (Decidable (∃ report ∈ _, _))

instance (id : String) (seen : List Event) (event : Event) :
    Decidable (TimelyReports F id seen event) :=
  inferInstanceAs (Decidable ((∃ report ∈ _, _) → _))

/-- An error that blocked the process at some time, and whose node stayed in the
graph since, blocks it at the end, unless the lifetime of the edge is over. -/
def BlocksKept (F : Type) [FloatArith F] (events : List Event) (id : String) : Prop :=
  ∀ seen rest, events = seen ++ rest →
    ∀ e ∈ (after seen : StateGraph F).edges, e.edgeType = .blockedBy → e.fromId = id →
      lastTs events ≤ e.ts + edgeTtlMs →
      (∀ since later, rest = since ++ later →
        ∃ node ∈ (after (seen ++ since) : StateGraph F).nodes.lookup e.toId,
          node.nodeType = .error) →
      e ∈ (after events : StateGraph F).edges

theorem notEnded_after {events : List Event} {id : String} (hend : ∀ x ∈ events, ¬ x.Ends id) :
    (after events : StateGraph F).NotEnded id := by
  refine Run.invariant_of_meets (I := fun g : StateGraph F => g.NotEnded id)
    (C := fun _ x => ¬ Event.Ends x id) ?_ ?_ (Run.meets_of_forall hend)
  · intro g event hg hevent
    exact notEnded_applyEvent hg hevent
  · intro node hnode
    cases hnode

/-- With fresh reports, a process that was reported within `processTtlMs` lives since
the report. -/
theorem livesSince_after {events : List Event} {id : String} (hord : Ordered events)
    (hkeeps : Run.Meets applyEvent (KeepsReported id) (new : StateGraph F) events)
    (hfresh : Run.Meets applyEvent (RefreshingReport id) (new : StateGraph F) events)
    (hend : ∀ x ∈ events, ¬ x.Ends id) :
    ∀ report ∈ events, report.ReportsProcess F id →
      lastTs events ≤ report.ts + processTtlMs →
      ∃ node ∈ (after events : StateGraph F).nodes.lookup id, node.LivesSince report.ts := by
  induction events using List.reverseRecOn with
  | nil =>
    intro report hreport
    cases hreport
  | append_singleton events x ih =>
    intro report hmem hreport hlate
    obtain ⟨hinit, hx, _⟩ := Run.meets_append.mp hkeeps
    obtain ⟨hfreshInit, hfreshX, _⟩ := Run.meets_append.mp hfresh
    have hendInit : ∀ y ∈ events, ¬ y.Ends id := fun y hy => hend y (by simp [hy])
    have hendX : ¬ x.Ends id := hend x (by simp)
    rw [lastTs_concat] at hlate
    rw [after_concat]
    have hhandled : ∃ node ∈ ((after events : StateGraph F).handle x).nodes.lookup id,
        node.LivesSince report.ts := by
      rcases List.mem_append.mp hmem with hold | hlast
      · have hle := lastTs_le hord
        have hbefore : report.ts ≤ x.ts :=
          (List.pairwise_append.mp hord).2.2 report hold x (by simp)
        have hlives := ih (hord.sublist (List.sublist_append_left _ _)) hinit hfreshInit
          hendInit report hold hreport (by omega)
        exact livesSince_handle hlives hendX hbefore
      · obtain rfl : report = x := by simpa using hlast
        exact livesSince_handle_of_fresh (notEnded_after hendInit) hendX (hx.1 hreport)
          (hfreshX hreport)
    obtain ⟨node, hnode, hlives⟩ := hhandled
    exact ⟨node, lookup_applyEvent_of_livesSince hnode (fun _ => hlives) hlate hx.2, hlives⟩

/-- A process that no cleanup finds stale is there in every state after its first
report. -/
theorem active_after_of_neverStale {events : List Event} {id : String}
    (hkeeps : Run.Meets applyEvent (KeepsReported id) (new : StateGraph F) events)
    (hstale : Run.Meets applyEvent (NeverStale id) (new : StateGraph F) events)
    (hend : ∀ x ∈ events, ¬ x.Ends id)
    (hreported : ∃ report ∈ events, report.ReportsProcess F id) :
    ∃ node ∈ (after events : StateGraph F).nodes.lookup id, node.IsActive := by
  induction events using List.reverseRecOn with
  | nil =>
    obtain ⟨_, hmem, _⟩ := hreported
    cases hmem
  | append_singleton events x ih =>
    obtain ⟨hinit, hx, _⟩ := Run.meets_append.mp hkeeps
    obtain ⟨hstaleInit, hstaleX, _⟩ := Run.meets_append.mp hstale
    have hendInit : ∀ y ∈ events, ¬ y.Ends id := fun y hy => hend y (by simp [hy])
    have hendX : ¬ x.Ends id := hend x (by simp)
    rw [after_concat]
    have hhandled : ∃ node ∈ ((after events : StateGraph F).handle x).nodes.lookup id,
        node.IsActive := by
      obtain ⟨report, hmem, hreport⟩ := hreported
      rcases List.mem_append.mp hmem with hold | hlast
      · obtain ⟨node, hnode, hactive⟩ := ih hinit hstaleInit hendInit ⟨report, hold, hreport⟩
        obtain ⟨node', hnode', hlives⟩ := livesSince_handle (t := 0)
          ⟨node, hnode, hactive, Or.inr (Nat.zero_le _)⟩ hendX (Nat.zero_le _)
        exact ⟨node', hnode', hlives.active⟩
      · obtain rfl : report = x := by simpa using hlast
        obtain ⟨node, hnode, hty, _⟩ := process_handle_of_stores (P := fun _ => True)
          (hx.1 hreport) (fun _ _ => trivial) fun _ _ => trivial
        exact ⟨node, hnode, notEnded_handle (notEnded_after hendInit) hendX node hnode hty⟩
    obtain ⟨node, hnode, hactive⟩ := hhandled
    exact active_applyEvent_of_neverStale hnode hactive hstaleX hx.2

theorem reported_of_mem_edges (events : List Event) :
    ∀ e ∈ (after events : StateGraph F).edges,
      ∃ report ∈ events, report.ReportsProcess F e.fromId := by
  induction events using List.reverseRecOn with
  | nil =>
    intro e he
    simp [after, new, EdgeStore.empty] at he
  | append_singleton events x ih =>
    intro e he
    rw [after_concat, applyEvent_edgeStore] at he
    have hhandle := edges_of_periodicCleanup he
    rw [handle_edgeStore] at hhandle
    rcases EdgeStore.mem_upsertEdges hhandle with hold | hnew
    · obtain ⟨report, hmem, hreport⟩ := ih e hold
      exact ⟨report, List.mem_append_left _ hmem, hreport⟩
    · cases edgeOf_of_mem hnew with
      | binding edgeType pid base metadata _ _ hfrom _ _ =>
        exact ⟨x, by simp, reportsProcess_of_ensure hfrom⟩
      | block c hc _ _ =>
        obtain ⟨report, hmem, hreport⟩ := ih c hc
        exact ⟨report, List.mem_append_left _ hmem, hreport⟩

/-- With fresh and timely reports, the process is there in every state after its first
report. -/
theorem process_of_timely {events : List Event} {id : String} (hord : Ordered events)
    (hkeeps : Run.Meets applyEvent (KeepsReported id) (new : StateGraph F) events)
    (hfresh : Run.Meets applyEvent (RefreshingReport id) (new : StateGraph F) events)
    (hend : ∀ x ∈ events, ¬ x.Ends id)
    (htimely : Run.Meets (fun seen x => seen ++ [x]) (TimelyReports F id) [] events)
    (hreported : ∃ report ∈ events, report.ReportsProcess F id) :
    ∃ node ∈ (after events : StateGraph F).nodes.lookup id, node.nodeType = .process := by
  rcases List.eq_nil_or_concat' events with rfl | ⟨seen, x, rfl⟩
  · obtain ⟨_, hmem, _⟩ := hreported
    cases hmem
  · have hlast := (Run.meets_append.mp htimely).2.1
    rw [Run.run_history] at hlast
    obtain ⟨report, hmem, hreport, hlate⟩ := hlast hreported
    obtain ⟨node, hnode, hlives⟩ :=
      livesSince_after hord hkeeps hfresh hend report hmem hreport hlate
    exact ⟨node, hnode, hlives.active.1⟩

/-- The errors that block a process block it as long as they are there, if it is there
in every state after its first report. -/
theorem blocksKept_of_process {events : List Event} {id : String} (hord : Ordered events)
    (hroom : Run.Meets applyEvent FitsEdges (new : StateGraph F) events)
    (hprocess : ∀ seen rest, events = seen ++ rest →
      (∃ report ∈ seen, report.ReportsProcess F id) →
        ∃ node ∈ (after seen : StateGraph F).nodes.lookup id, node.nodeType = .process) :
    BlocksKept F events id := by
  intro seen rest hsplit e he hblocked hfrom hlife herror
  subst hsplit
  -- the events since the edge was seen, the last one first
  induction rest using List.reverseRecOn with
  | nil =>
    simpa using he
  | append_singleton rest x ih =>
    rw [← List.append_assoc] at hord hroom hlife hprocess ⊢
    obtain ⟨hroom, hroomX, _⟩ := Run.meets_append.mp hroom
    have hle := lastTs_le hord
    rw [lastTs_concat] at hlife
    have hbefore : e ∈ (after (seen ++ rest) : StateGraph F).edges := by
      refine ih ?_ (hord.sublist (List.sublist_append_left _ _)) hroom ?_ (by omega)
      · intro since later hsince
        exact herror since (later ++ [x]) (by simp [hsince])
      · intro seen' rest' hsplit
        exact hprocess seen' (rest' ++ [x]) (by rw [hsplit, List.append_assoc])
    have hthere := hprocess _ [] (List.append_nil _).symm (by
      obtain ⟨report, hmem, hreport⟩ := reported_of_mem_edges _ e hbefore
      exact ⟨report, List.mem_append_left _ hmem, hfrom ▸ hreport⟩)
    have herrorX := herror (rest ++ [x]) [] (by simp)
    rw [← List.append_assoc] at herrorX
    rw [after_concat] at hthere herrorX ⊢
    refine mem_applyEvent_of_blocked hroomX ?_ hlife (hfrom ▸ hthere) herrorX
    rw [handle_edgeStore]
    exact EdgeStore.subset_upsertEdges hbefore

/-- **Reporting processes stay.**  In a run with nondecreasing timestamps and at
most `maxEdges` edges, without the end of the process, and in which every report
stores it: if every report about it is fresh, or no cleanup finds it stale, the
process is in the graph whenever it was reported within `processTtlMs`.  If no
cleanup finds it stale, or every report is fresh and it never paused longer than
that since its first one, the errors that block it do so for as long as they and
the lifetime of the edge last. -/
theorem reported_staysInGraph (events : List Event) (id : String) (hord : Ordered events)
    (hroom : Run.Meets applyEvent FitsEdges (new : StateGraph F) events)
    (hkeeps : Run.Meets applyEvent (KeepsReported id) (new : StateGraph F) events)
    (hend : ∀ x ∈ events, ¬ x.Ends id) :
    let fresh := Run.Meets applyEvent (RefreshingReport id) (new : StateGraph F) events
    let neverStale := Run.Meets applyEvent (NeverStale id) (new : StateGraph F) events
    (fresh ∨ neverStale → ReportedLately F events id →
      ∃ node ∈ (after events : StateGraph F).nodes.lookup id, node.nodeType = .process) ∧
    ((fresh ∧ Run.Meets (fun seen x => seen ++ [x]) (TimelyReports F id) [] events) ∨ neverStale →
      BlocksKept F events id) := by
  intro fresh neverStale
  have hactive : neverStale → ∀ seen rest, events = seen ++ rest →
      (∃ report ∈ seen, report.ReportsProcess F id) →
        ∃ node ∈ (after seen : StateGraph F).nodes.lookup id, node.nodeType = .process := by
    rintro hstale seen rest rfl hreported
    obtain ⟨node, hnode, hactive⟩ := active_after_of_neverStale (Run.meets_append.mp hkeeps).1
      (Run.meets_append.mp hstale).1 (fun x hx => hend x (List.mem_append_left _ hx)) hreported
    exact ⟨node, hnode, hactive.1⟩
  refine ⟨?_, ?_⟩
  · rintro (hfresh | hstale) ⟨report, hmem, hreport, hlate⟩
    · obtain ⟨node, hnode, hlives⟩ :=
        livesSince_after hord hkeeps hfresh hend report hmem hreport hlate
      exact ⟨node, hnode, hlives.active.1⟩
    · exact hactive hstale events [] (List.append_nil _).symm ⟨report, hmem, hreport⟩
  · rintro (⟨hfresh, htimely⟩ | hstale)
    · refine blocksKept_of_process hord hroom ?_
      rintro seen rest rfl hreported
      exact process_of_timely (hord.sublist (List.sublist_append_left _ _))
        (Run.meets_append.mp hkeeps).1 (Run.meets_append.mp hfresh).1
        (fun x hx => hend x (List.mem_append_left _ hx)) (Run.meets_append.mp htimely).1 hreported
    · exact blocksKept_of_process hord hroom (hactive hstale)

/-- A process that is first seen by a drop report runs from then on: the reports
of a quarter of an hour keep it and the error that blocks it.  One that is first seen
by a utilization report stays for ten minutes, with its error. -/
theorem reported_staysInGraph_droppedFirst :
    let drop : Event := ⟨1000, .transportDrop, "network-pid-7", none, none, "4", none⟩
    let util : Event := ⟨500000, .computeUtil, "gpu-0", none, some 7, "95", none⟩
    let error : Event := ⟨800000, .errorHw, "gpu-0", none, none, "XID 79", none⟩
    let again : Event := ⟨900000, .computeUtil, "gpu-0", none, some 7, "95", none⟩
    let events := [drop, util, error, again]
    let later := [util, error, again]
    ((∃ node ∈ (after events : StateGraph Binary64).nodes.lookup "pid-7",
        node.nodeType = .process) ∧
      BlocksKept Binary64 events "pid-7" ∧
      (after events : StateGraph Binary64).HasEdge ⟨.blockedBy, "pid-7", "error-gpu-0"⟩) ∧
    BlocksKept Binary64 later "pid-7" ∧
      (after later : StateGraph Binary64).HasEdge ⟨.blockedBy, "pid-7", "error-gpu-0"⟩ := by
  intro drop util error again events later
  have hstays := reported_staysInGraph (F := Binary64) events "pid-7" (by decide)
    (by decide +kernel) (by decide +kernel) (by decide)
  have hlater := reported_staysInGraph (F := Binary64) later "pid-7" (by decide)
    (by decide +kernel) (by decide +kernel) (by decide)
  refine ⟨⟨hstays.1 (Or.inl ?_) ?_, hstays.2 (Or.inl ⟨?_, ?_⟩), ?_⟩, hlater.2 (Or.inr ?_), ?_⟩
  all_goals decide +kernel

end Runs

/-- **A process that keeps reporting is purged.**  It was first seen by a
utilization report eleven minutes ago and reports again; the second report does
not renew its node, and the cleanup of the same call removes the process with
the edge to an error that is still there. -/
theorem reported_staysInGraph_firstSeenByUtil :
    let first : Event := ⟨1000, .computeUtil, "gpu-0", none, some 7, "95", none⟩
    let error : Event := ⟨590000, .errorHw, "gpu-0", none, none, "XID 79", none⟩
    let again : Event := ⟨661000, .computeUtil, "gpu-0", none, some 7, "95", none⟩
    let events := [first, error, again]
    let g : StateGraph Binary64 := after events
    Ordered events ∧
    Run.Meets applyEvent FitsEdges (new : StateGraph Binary64) events ∧
    Run.Meets (fun seen x => seen ++ [x]) (TimelyReports Binary64 "pid-7") [] events ∧
    (∀ x ∈ events, ¬ x.Ends "pid-7") ∧
    ReportedLately Binary64 events "pid-7" ∧
    (after [first, error] : StateGraph Binary64).HasEdge ⟨.blockedBy, "pid-7", "error-gpu-0"⟩ ∧
    (∃ node ∈ g.nodes.lookup "error-gpu-0", node.nodeType = .error) ∧
    g.nodes.lookup "pid-7" = none ∧
    g.edges = [] := by
  decide +kernel

end StateGraph

end ArkInfra

