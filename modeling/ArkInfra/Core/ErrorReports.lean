import ArkInfra.Core.GraphStep

/-!
# How long a reported error stays in the graph

A report of an error should leave an error node with the reported content, and
the node should stay until the error window has passed since the latest
report.  The handler creates the node on the first report and leaves it alone
on every later one, so a repeated report refreshes neither the content nor the
update time that the cleanup looks at.

`RecentErrorsKept` is the intended property of a run, and
`recentErrorsKept_iff` says which runs have it: those in which every report
finds no node under its error id, or one that already carries its value and
time.  The other way an error node can lose its content is another event that
writes to the very id of the error, which `SparesErrors` excludes.
-/

namespace ArkInfra

namespace StateGraph

variable {F : Type}

/-- The error node of a report is present with its value and time. -/
def Reported (g : StateGraph F) (report : Event) : Prop :=
  ∃ node ∈ g.nodes.lookup (errorNodeId report),
    node.nodeType = .error ∧
    node.metadata.lookup "error_type" = some report.value ∧
    node.lastUpdate = report.ts

/-- `report` is the latest error event of its entity in the run. -/
def LatestReport (events : List Event) (report : Event) : Prop :=
  ∃ earlier later, events = earlier ++ report :: later ∧
    report.eventType.isError = true ∧
    ∀ x ∈ later, x.eventType.isError = true →
      ¬(x.nodeId = report.nodeId ∧ x.entityId = report.entityId)

/-- Every latest report inside the error window is in the graph. -/
def RecentErrorsKept (g : StateGraph F) (events : List Event) : Prop :=
  ∀ report, LatestReport events report →
    lastTs events - g.errorWindowMs ≤ report.ts → g.Reported report

/-- A report arrives when no node has its error id, or when the node already
says what it reports. -/
def FreshReport (g : StateGraph F) (event : Event) : Prop :=
  event.eventType.isError = true →
    g.nodes.lookup (errorNodeId event) = none ∨ g.Reported event

/-- Unless it reports an error, the event writes to no error node. -/
def SparesErrors [FloatArith F] (g : StateGraph F) (event : Event) : Prop :=
  event.eventType.isError = false →
    ∀ w ∈ nodeWrites F event ++ signalWrites g.signals event,
      ∀ node ∈ g.nodes.lookup w.target, node.nodeType ≠ .error

instance (g : StateGraph F) (report : Event) : Decidable (g.Reported report) :=
  inferInstanceAs (Decidable (∃ node ∈ _, _))

instance (g : StateGraph F) (event : Event) : Decidable (g.FreshReport event) :=
  inferInstanceAs (Decidable (_ → _))

instance [FloatArith F] (g : StateGraph F) (event : Event) :
    Decidable (g.SparesErrors event) :=
  inferInstanceAs (Decidable (_ → _))

/-- A report that is latest in a longer run and is not its last event was
latest before. -/
theorem latestReport_concat {events : List Event} {event report : Event}
    (h : LatestReport (events ++ [event]) report) :
    (report = event ∧ event.eventType.isError = true) ∨ LatestReport events report := by
  obtain ⟨earlier, later, hsplit, herror, hlater⟩ := h
  rcases List.eq_nil_or_concat later with rfl | ⟨later', x, rfl⟩
  · obtain ⟨_, h₂⟩ := List.append_inj' hsplit rfl
    obtain rfl : event = report := by simpa using h₂
    exact Or.inl ⟨rfl, herror⟩
  · have hsplit' : events ++ [event] = (earlier ++ report :: later') ++ [x] := by
      simpa using hsplit
    obtain ⟨h₁, _⟩ := List.append_inj' hsplit' rfl
    right
    exact ⟨earlier, later', h₁, herror, fun y hy => hlater y (by simp [hy])⟩

theorem latestReport_last {event : Event} (events : List Event)
    (h : event.eventType.isError = true) : LatestReport (events ++ [event]) event := by
  exact ⟨events, [], rfl, h, by simp⟩

theorem reported_periodicCleanup {g : StateGraph F} {report : Event} {ts : Nat}
    (h : g.Reported report) (hts : ts - g.errorWindowMs ≤ report.ts) :
    (g.periodicCleanup ts).Reported report := by
  obtain ⟨node, hnode, htype, hvalue, hupdate⟩ := h
  unfold periodicCleanup
  split_ifs
  · refine ⟨node, ?_, htype, hvalue, hupdate⟩
    change (g.cleanupOldErrors ts).nodes.lookup (errorNodeId report) = some node
    rw [lookup_cleanupOldErrors, hnode]
    have hyoung : ¬ report.ts < ts - g.errorWindowMs := by
      omega
    simp [Option.filter_some, isExpired, isExpiredError, isDeadProcess, htype, hupdate,
      hyoung]
  · exact ⟨node, hnode, htype, hvalue, hupdate⟩

section Steps

variable [FloatArith F]

theorem nodeWrites_of_isError {event : Event} (h : event.eventType.isError = true) :
    nodeWrites F event = [.ensure (errorNode (errorNodeId event) event)] := by
  unfold nodeWrites
  cases hty : event.eventType <;> simp [hty, EventType.isError] at h ⊢

theorem signalWrites_of_isError (engine : SignalEngine F) {event : Event}
    (h : event.eventType.isError = true) : signalWrites engine event = [] := by
  apply signalWrites_eq_nil
  · intro hty
    simp [hty, EventType.isError] at h
  · intro hty
    simp [hty, EventType.isError] at h

theorem lookup_handle_of_isError (g : StateGraph F) {event : Event}
    (h : event.eventType.isError = true) (id : String) :
    (g.handle event).nodes.lookup id =
      if errorNodeId event = id then
        some ((g.nodes.lookup id).getD (errorNode (errorNodeId event) event))
      else g.nodes.lookup id := by
  rw [lookup_handle, nodeWrites_of_isError h]
  rfl

theorem lookup_updateSignals_of_isError (g : StateGraph F) {event : Event}
    (h : event.eventType.isError = true) (id : String) :
    (g.updateSignals event).nodes.lookup id = g.nodes.lookup id := by
  rw [lookup_updateSignals, signalWrites_of_isError _ h]
  rfl

theorem reported_applyEvent_self {g : StateGraph F} {event : Event}
    (h : event.eventType.isError = true) (hfresh : g.FreshReport event) :
    (g.applyEvent event).Reported event := by
  have hhandle : (g.handle event).Reported event := by
    unfold Reported
    rw [lookup_handle_of_isError g h, if_pos rfl]
    rcases hfresh h with hnone | ⟨node, hnode, hrest⟩
    · rw [hnone]
      refine ⟨_, rfl, rfl, ?_, rfl⟩
      exact AList.lookup_insert _
    · rw [hnode]
      exact ⟨node, rfl, hrest⟩
  have hclean : ((g.handle event).periodicCleanup event.ts).Reported event :=
    reported_periodicCleanup hhandle (Nat.sub_le _ _)
  unfold applyEvent
  obtain ⟨node, hnode, hrest⟩ := hclean
  exact ⟨node, by rw [lookup_updateSignals_of_isError _ h]; exact hnode, hrest⟩

theorem freshReport_of_reported {g : StateGraph F} {event : Event}
    (h : (g.applyEvent event).Reported event) : g.FreshReport event := by
  intro herror
  cases hold : g.nodes.lookup (errorNodeId event) with
  | none =>
    exact Or.inl rfl
  | some old =>
    right
    obtain ⟨node, hnode, hrest⟩ := h
    unfold applyEvent at hnode
    rw [lookup_updateSignals_of_isError _ herror] at hnode
    have hmid := lookup_of_periodicCleanup hnode
    rw [lookup_handle_of_isError g herror, if_pos rfl, hold] at hmid
    obtain rfl : old = node := by simpa using hmid
    exact ⟨old, hold, hrest⟩

theorem reported_applyEvent_other {g : StateGraph F} {event report : Event}
    (hspare : g.SparesErrors event) (h : g.Reported report)
    (hts : event.ts - g.errorWindowMs ≤ report.ts) :
    (g.applyEvent event).Reported report := by
  have hhandle : (g.handle event).nodes.lookup (errorNodeId report) =
      g.nodes.lookup (errorNodeId report) := by
    obtain ⟨node, hnode, htype, _⟩ := h
    cases herror : event.eventType.isError with
    | true =>
      rw [lookup_handle_of_isError g herror, hnode]
      simp
    | false =>
      rw [lookup_handle]
      apply NodeWrite.effectAt_of_ne
      intro w hw htarget
      exact hspare herror w (by simp [hw]) node (by rw [htarget]; exact hnode) htype
  have hmid : (g.handle event).Reported report := by
    unfold Reported
    rw [hhandle]
    exact h
  have hclean : ((g.handle event).periodicCleanup event.ts).Reported report :=
    reported_periodicCleanup hmid (by simpa using hts)
  have hsignals : ((g.handle event).periodicCleanup event.ts).signals = g.signals := by
    simp
  have hkeep : (g.applyEvent event).nodes.lookup (errorNodeId report) =
      ((g.handle event).periodicCleanup event.ts).nodes.lookup (errorNodeId report) := by
    unfold applyEvent
    cases herror : event.eventType.isError with
    | true =>
      exact lookup_updateSignals_of_isError _ herror _
    | false =>
      rw [lookup_updateSignals, hsignals]
      apply NodeWrite.effectAt_of_ne
      intro w hw htarget
      obtain ⟨node, hnode, htype, _⟩ := h
      exact hspare herror w (by simp [hw]) node (by rw [htarget]; exact hnode) htype
  unfold Reported
  rw [hkeep]
  exact hclean

/-- One step keeps the recent errors when its event is fresh and spares the
error nodes. -/
theorem recentErrorsKept_concat {g : StateGraph F} {events : List Event} {event : Event}
    (hord : Ordered (events ++ [event])) (hspare : g.SparesErrors event)
    (hfresh : g.FreshReport event) (h : g.RecentErrorsKept events) :
    (g.applyEvent event).RecentErrorsKept (events ++ [event]) := by
  intro report hlatest hts
  rw [lastTs_concat, applyEvent_errorWindowMs] at hts
  rcases latestReport_concat hlatest with ⟨rfl, herror⟩ | hbefore
  · exact reported_applyEvent_self herror hfresh
  · have hle := lastTs_le hord
    refine reported_applyEvent_other hspare (h report hbefore ?_) hts
    omega

end Steps

section Runs

variable [FloatArith F]

/-- **When recent errors are kept.**  In a run with nondecreasing timestamps
whose other events spare the error nodes, every state reached keeps the recent
errors if and only if every report is fresh when it arrives. -/
theorem recentErrorsKept_iff (events : List Event) (hord : Ordered events)
    (hspare : Run.Meets applyEvent SparesErrors (new : StateGraph F) events) :
    Run.Meets applyEvent FreshReport (new : StateGraph F) events ↔
      ∀ seen rest, events = seen ++ rest →
        (after seen : StateGraph F).RecentErrorsKept seen := by
  apply Run.meets_iff_forall_seen
  · rintro report ⟨earlier, later, hnil, _⟩
    simp at hnil
  · intro seen event rest hsplit hkept
    have hfirst : (seen ++ [event]).Sublist events := by
      rw [hsplit]
      simp
    have hspare : (after seen : StateGraph F).SparesErrors event := by
      rw [hsplit] at hspare
      exact Run.meets_at hspare
    rw [after_concat]
    constructor
    · intro hfresh
      exact recentErrorsKept_concat (hord.sublist hfirst) hspare hfresh hkept
    · intro hafter herror
      have hself := hafter event (latestReport_last seen herror)
        (by rw [lastTs_concat]; exact Nat.sub_le _ _)
      exact freshReport_of_reported hself herror

/-- An error that is reported, expires and is reported anew is kept each time:
the cleanup has removed its first node before the second report. -/
theorem recentErrorsKept_iff_afterExpiry :
    let events : List Event :=
      [⟨1000, .errorHw, "gpu-0", none, none, "XID_79", none⟩,
        ⟨302000, .computeUtil, "gpu-0", none, some 7, "95", none⟩,
        ⟨303000, .errorHw, "gpu-0", none, none, "XID_48", none⟩]
    (∀ seen rest, events = seen ++ rest →
      (after seen : StateGraph Binary64).RecentErrorsKept seen) ∧
    ((after events : StateGraph Binary64).nodes.lookup "error-gpu-0").isSome = true := by
  refine ⟨(recentErrorsKept_iff _ (by decide) (by decide)).mp (by decide), by decide⟩

end Runs

/-- **A repeated report is dropped.**  The second XID on `gpu-0` finds the node
of the first, does not refresh it, and the cleanup of the same call removes it
by its old time: right after the report no error node is left. -/
theorem recentErrorsKept_repeatedXid :
    let first : Event := ⟨1000, .errorHw, "gpu-0", none, none, "XID_79", none⟩
    let second : Event := ⟨302000, .errorHw, "gpu-0", none, none, "XID_48", none⟩
    let g : StateGraph Binary64 := after [first, second]
    Ordered [first, second] ∧
    g.nodes.lookup "error-gpu-0" = none ∧
    ¬ g.RecentErrorsKept [first, second] := by
  refine ⟨by decide, by decide, ?_⟩
  intro hkept
  have hreported := hkept _ (latestReport_last [_] rfl) (by decide)
  revert hreported
  decide

end StateGraph

end ArkInfra
