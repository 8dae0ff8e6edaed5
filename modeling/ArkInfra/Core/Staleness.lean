import ArkInfra.Core.GraphStep

/-!
# How stale the graph can be

Nothing is removed from the graph except by the cleanup, which runs at most
once per interval and takes its time from the events.  `RecentSince L` says
that nothing in the graph would be removed for its age by a cleanup at time
`L`.  A cleanup at time `L` establishes it, and events that are not older than
`L` keep it, because what they store or update carries their own time.

With nondecreasing timestamps the graph is therefore always recent since its
last cleanup, and the last cleanup is less than one interval ago
(`recentlyCleaned_after`).  A cleanup at time zero is taken for none by the
code; it only makes the next cleanup come earlier.
-/

namespace ArkInfra

def Node.HasEnded (node : Node) : Prop :=
  node.nodeType = .process ∧
    (node.metadata.lookup "state" = some "exit" ∨ node.metadata.lookup "state" = some "zombie")

instance (node : Node) : Decidable node.HasEnded :=
  inferInstanceAs (Decidable (_ ∧ (_ ∨ _)))

/-- A node that a cleanup at time `t` with the given error window has no reason
to remove: an error is inside the window, and an ended process was updated at
that time or later. -/
structure Node.RecentAt (window t : Nat) (node : Node) : Prop where
  error : node.nodeType = .error → t ≤ node.lastUpdate + window
  ended : node.HasEnded → t ≤ node.lastUpdate

theorem Node.recentAt_of_le {window t : Nat} {node : Node} (h : t ≤ node.lastUpdate) :
    node.RecentAt window t where
  error := fun _ => h.trans (Nat.le_add_right _ _)
  ended := fun _ => h

theorem WriteOf.recentAt_effect {event : Event} {w : NodeWrite} (h : WriteOf event w)
    {window t : Nat} (hts : t ≤ event.ts) {o : Option Node}
    (ho : ∀ node ∈ o, node.RecentAt window t) :
    ∀ node ∈ w.effect o, node.RecentAt window t := by
  -- a stored node and a touched node carry the time of the event
  have hensure : ∀ new : Node, new.lastUpdate = event.ts →
      ∀ node ∈ NodeWrite.effect (.ensure new) o, node.RecentAt window t := by
    intro new hnew node hnode
    obtain rfl : o.getD new = node := by simpa [NodeWrite.effect] using hnode
    cases o with
    | none => exact Node.recentAt_of_le (hnew ▸ hts)
    | some old => exact ho old rfl
  have htouch : ∀ id key value,
      ∀ node ∈ NodeWrite.effect (.touch id key value event.ts) o, node.RecentAt window t := by
    intro id key value node hnode
    obtain ⟨old, _, rfl⟩ := Option.map_eq_some_iff.mp hnode
    exact Node.recentAt_of_le hts
  cases h with
  | resource base _ => exact hensure _ rfl
  | mention pid metadata _ => exact hensure _ rfl
  | error => exact hensure _ rfl
  | metric base key _ _ => exact htouch _ _ _
  | finish id _ => exact htouch _ _ _
  | start id _ =>
    intro node hnode
    obtain rfl : processNode id event.ts (startMetadata event) = node := by
      simpa [NodeWrite.effect] using hnode
    exact Node.recentAt_of_le hts

namespace StateGraph

variable {F : Type}

/-- Nothing in the graph is due for removal by its age at time `t`. -/
structure RecentSince (g : StateGraph F) (t : Nat) : Prop where
  edges : ∀ e ∈ g.edges, t ≤ e.ts + edgeTtlMs
  nodes : ∀ id, ∀ node ∈ g.nodes.lookup id, node.RecentAt g.errorWindowMs t

theorem recentSince_cleanupOldErrors (g : StateGraph F) (t : Nat) :
    (g.cleanupOldErrors t).RecentSince t := by
  refine ⟨?_, ?_⟩
  · intro e he
    rw [cleanupOldErrors_edgeStore, EdgeStore.rebuildIndexes_edges] at he
    obtain ⟨_, _, _, _, hts⟩ := mem_survivingEdges.mp (capEdges_subset he)
    omega
  · intro id node hnode
    rw [lookup_cleanupOldErrors, Option.mem_def, Option.filter_eq_some_iff] at hnode
    have hkept : g.isExpired t node = false := by simpa using hnode.2
    rw [isExpired, Bool.or_eq_false_iff] at hkept
    refine ⟨?_, ?_⟩
    · intro hty
      have hyoung : ¬ node.lastUpdate < t - g.errorWindowMs := by
        simpa [isExpiredError, hty] using hkept.1
      change t ≤ node.lastUpdate + g.errorWindowMs
      omega
    · rintro ⟨hty, hstate⟩
      simp [isDeadProcess, hty, hstate] at hkept

/-- At time `t` the last cleanup is less than one interval ago, and nothing in
the graph was too old for it. -/
structure RecentlyCleaned (g : StateGraph F) (t : Nat) : Prop where
  before : g.lastCleanupTs ≤ t
  interval : t < g.lastCleanupTs + g.cleanupIntervalMs
  recent : g.RecentSince g.lastCleanupTs

theorem recentlyCleaned_new : (new : StateGraph F).RecentlyCleaned 0 where
  before := Nat.le_refl _
  interval := by simp [new, defaultCleanupIntervalMs]
  recent := ⟨fun _ _ => Nat.zero_le _, fun _ _ _ => Node.recentAt_of_le (Nat.zero_le _)⟩

section Steps

variable [FloatArith F]

theorem recentSince_handle {g : StateGraph F} {t : Nat} (hg : g.RecentSince t) {event : Event}
    (hts : t ≤ event.ts) : (g.handle event).RecentSince t := by
  refine ⟨?_, ?_⟩
  · intro e he
    rw [handle_edgeStore] at he
    rcases EdgeStore.mem_upsertEdges he with hold | hnew
    · exact hg.edges e hold
    · have hets : e.ts = event.ts := by
        cases edgeOf_of_mem hnew <;> rfl
      rw [hets]
      exact hts.trans (Nat.le_add_right _ _)
  · intro id node hnode
    rw [handle_errorWindowMs]
    rw [lookup_handle] at hnode
    refine NodeWrite.effectAt_induction
      (P := fun o => ∀ node ∈ o, node.RecentAt g.errorWindowMs t) ?_ (hg.nodes id) node hnode
    intro w hw _ o ho
    exact (writeOf_of_mem hw).recentAt_effect hts ho

theorem recentSince_updateSignals {g : StateGraph F} {t : Nat} (hg : g.RecentSince t)
    (event : Event) : (g.updateSignals event).RecentSince t := by
  refine ⟨hg.edges, ?_⟩
  intro id node hnode
  have hold : node.nodeType ≠ .resource → node.RecentAt g.errorWindowMs t :=
    fun hty => hg.nodes id node (lookup_of_updateSignals hnode hty)
  refine ⟨?_, ?_⟩
  · intro hty
    exact (hold (by simp [hty])).error hty
  · intro hended
    exact (hold (by simp [hended.1])).ended hended

/-- **One event.**  Either the cleanup runs, at the time of the event, or the
last one is less than an interval ago. -/
theorem recentlyCleaned_applyEvent {g : StateGraph F} {t : Nat} (hg : g.RecentlyCleaned t)
    {event : Event} (hts : t ≤ event.ts) : (g.applyEvent event).RecentlyCleaned event.ts := by
  have hbefore : g.lastCleanupTs ≤ event.ts := hg.before.trans hts
  have hpositive : 0 < g.cleanupIntervalMs := by
    have := hg.before
    have := hg.interval
    omega
  by_cases hdue : g.shouldCleanup event.ts = true
  · have hrecent : ((g.handle event).periodicCleanup event.ts).RecentSince event.ts := by
      have hclean := recentSince_cleanupOldErrors (g.handle event) event.ts
      rw [periodicCleanup, handle_shouldCleanup, if_pos hdue]
      exact ⟨hclean.edges, hclean.nodes⟩
    refine ⟨?_, ?_, ?_⟩ <;>
      rw [applyEvent_lastCleanupTs, if_pos hdue]
    · rw [applyEvent_cleanupIntervalMs]
      omega
    · exact recentSince_updateSignals hrecent event
  · have hsoon : event.ts < g.lastCleanupTs + g.cleanupIntervalMs := by
      simp only [shouldCleanup, Bool.or_eq_true, decide_eq_true_eq, not_or] at hdue
      omega
    have hrecent : ((g.handle event).periodicCleanup event.ts).RecentSince g.lastCleanupTs := by
      rw [periodicCleanup, handle_shouldCleanup, if_neg hdue]
      exact recentSince_handle hg.recent hbefore
    refine ⟨?_, ?_, ?_⟩ <;>
      rw [applyEvent_lastCleanupTs, if_neg hdue]
    · exact hbefore
    · rw [applyEvent_cleanupIntervalMs]
      exact hsoon
    · exact recentSince_updateSignals hrecent event

end Steps

section Runs

variable [FloatArith F]

theorem recentlyCleaned_after {events : List Event} (hord : Ordered events) :
    (after events : StateGraph F).RecentlyCleaned (lastTs events) := by
  induction events using List.reverseRecOn with
  | nil =>
    exact recentlyCleaned_new
  | append_singleton events event ih =>
    rw [after_concat, lastTs_concat]
    exact recentlyCleaned_applyEvent (ih (hord.sublist (List.sublist_append_left _ _)))
      (lastTs_le hord)

/-- **Bounded staleness.**  In a run with nondecreasing timestamps, after each
event every edge is younger than its lifetime plus one cleanup interval, every
error node younger than the error window plus one interval, and every ended
process was updated within one interval. -/
theorem staleness_bounded (events : List Event) (hord : Ordered events) :
    ∀ seen event rest, events = seen ++ event :: rest →
      let g : StateGraph F := after (seen ++ [event])
      (∀ e ∈ g.edges, event.ts < e.ts + edgeTtlMs + g.cleanupIntervalMs) ∧
      (∀ id, ∀ node ∈ g.nodes.lookup id, node.nodeType = .error →
        event.ts < node.lastUpdate + g.errorWindowMs + g.cleanupIntervalMs) ∧
      ∀ id, ∀ node ∈ g.nodes.lookup id, node.nodeType = .process →
        (node.metadata.lookup "state" = some "exit" ∨
          node.metadata.lookup "state" = some "zombie") →
        event.ts < node.lastUpdate + g.cleanupIntervalMs := by
  intro seen event rest hsplit g
  have hseen : Ordered (seen ++ [event]) := by
    have hsublist : (seen ++ [event]).Sublist (seen ++ [event] ++ rest) :=
      List.sublist_append_left _ _
    rw [← List.append_cons, ← hsplit] at hsublist
    exact hord.sublist hsublist
  have hclean : g.RecentlyCleaned event.ts := by
    have h := recentlyCleaned_after (F := F) hseen
    rwa [lastTs_concat] at h
  have hinterval := hclean.interval
  refine ⟨?_, ?_, ?_⟩
  · intro e he
    have := hclean.recent.edges e he
    omega
  · intro id node hnode hty
    have := (hclean.recent.nodes id node hnode).error hty
    omega
  · intro id node hnode hty hstate
    have := (hclean.recent.nodes id node hnode).ended ⟨hty, hstate⟩
    omega

/-- An ended process is still in the graph at the end of the interval, and is
within the bound. -/
theorem staleness_bounded_exitedProcess :
    let start : Event := ⟨1000, .processState, "proc", none, some 7, "start", none⟩
    let exit : Event := ⟨2000, .processState, "proc", none, some 7, "exit", none⟩
    let later : Event := ⟨30999, .actionExec, "proc", none, none, "noop", none⟩
    let g : StateGraph Binary64 := after [start, exit, later]
    Ordered [start, exit, later] ∧
    (∃ node ∈ g.nodes.lookup "pid-7", node.nodeType = .process ∧
      node.metadata.lookup "state" = some "exit" ∧ node.lastUpdate = 2000) ∧
    ∀ id, ∀ node ∈ g.nodes.lookup id, node.nodeType = .process →
      (node.metadata.lookup "state" = some "exit" ∨
        node.metadata.lookup "state" = some "zombie") →
      30999 < node.lastUpdate + g.cleanupIntervalMs := by
  intro start exit later g
  exact ⟨by decide, by decide,
    (staleness_bounded [start, exit, later] (by decide) [start, exit] later [] rfl).2.2⟩

end Runs

end StateGraph

end ArkInfra
