import ArkInfra.Core.SignalStays

/-!
# The age of a signal

A point of a signal is stored in a node of the graph.  The node is written
again only when another event of the signal arrives, the cleanup spares it
because it is a resource, and the matcher does not look at its age.

`reported_after` says where such a node comes from: some event of the run
matched its signal.  A rule on the retransmission rate therefore speaks about
the current window as long as the retransmissions go on (`StaysActive`).  When
they stop, the node stays (`showing_after`), and a rule with the target zero
matches in every later state, so the condition is exact
(`signalRule_current_iff`).
-/

namespace ArkInfra

open NodeWrite

section Origin

variable {F : Type} [FloatArith F]

variable (F) in
/-- Some event matched a signal whose node has this id. -/
def Reported (events : List Event) (id : String) : Prop :=
  ∃ event ∈ events, ∃ spec ∈ defaultMvp,
    (extractSample spec event : Option F).isSome = true ∧
      id = "signal::" ++ spec.name ++ "::" ++ entityFromEvent event

theorem Reported.mono {events events' : List Event} (hsub : events ⊆ events') {id : String}
    (h : Reported F events id) : Reported F events' id := by
  obtain ⟨event, hevent, hspec⟩ := h
  exact ⟨event, hsub hevent, hspec⟩

/-- A node that carries a value was reported. -/
def ValueReported (F : Type) [FloatArith F] (events : List Event) (node? : Option Node) : Prop :=
  ∀ node ∈ node?, (node.metadata.lookup "value").isSome = true → Reported F events node.id

theorem ValueReported.effect {events : List Event} {node? : Option Node} {w : NodeWrite}
    (h : ValueReported F events node?) (hw : w.Spares "value") :
    ValueReported F events (w.effect node?) := by
  intro node hnode hvalue
  cases w with
  | ensure new =>
    obtain rfl : node?.getD new = node := by simpa [NodeWrite.effect] using hnode
    cases node? with
    | none =>
      change (new.metadata.lookup "value").isSome = true at hvalue
      rw [show new.metadata.lookup "value" = none from hw] at hvalue
      cases hvalue
    | some old =>
      exact h old rfl hvalue
  | insert new =>
    obtain rfl : new = node := by simpa [NodeWrite.effect] using hnode
    rw [show new.metadata.lookup "value" = none from hw] at hvalue
    cases hvalue
  | touch id key value ts =>
    obtain ⟨old, hold, rfl⟩ := Option.map_eq_some_iff.mp hnode
    rw [AList.lookup_insert_ne (Ne.symm hw)] at hvalue
    exact h old hold hvalue

/-- **One event.** -/
theorem valueReported_applyEvent {g : StateGraph F} {events : List Event} {event : Event}
    (hregistry : g.signals.registry = defaultMvp)
    (h : ∀ id, ValueReported F events (g.nodes.lookup id)) (id : String) :
    ValueReported F (events ++ [event]) ((g.applyEvent event).nodes.lookup id) := by
  have hold : ∀ node?, ValueReported F events node? →
      ValueReported F (events ++ [event]) node? := by
    intro node? hnode node hmem hvalue
    exact (hnode node hmem hvalue).mono (by simp)
  have hhandle : ValueReported F (events ++ [event]) ((g.handle event).nodes.lookup id) := by
    rw [StateGraph.lookup_handle]
    refine effectAt_induction ?_ (hold _ (h id))
    intro w hw _ node? hnode
    exact hnode.effect (spares_value_of_mem hw)
  have hclean : ValueReported F (events ++ [event])
      (((g.handle event).periodicCleanup event.ts).nodes.lookup id) := by
    intro node hmem hvalue
    exact hhandle node (StateGraph.lookup_of_periodicCleanup hmem) hvalue
  unfold StateGraph.applyEvent
  rw [StateGraph.lookup_updateSignals]
  refine effectAt_induction ?_ hclean
  intro w hw _ node? _ node hmem _
  -- the signal update inserts the nodes of signals that the event matches
  obtain ⟨point, spec, hspec, rfl, hname, hentity, hmatch⟩ := StateGraph.mem_signalWrites hw
  obtain rfl : StateGraph.signalNode point = node := by simpa [NodeWrite.effect] using hmem
  rw [StateGraph.periodicCleanup_signals, StateGraph.handle_signals, hregistry] at hspec
  refine ⟨event, by simp, spec, hspec, hmatch, ?_⟩
  rw [← hname, ← hentity]
  rfl

/-- **A whole run.**  Every node with a value is the node of a signal that some
event of the run matched. -/
theorem reported_after (events : List Event) (id : String) :
    ValueReported F events ((StateGraph.after events : StateGraph F).nodes.lookup id) := by
  have key : (StateGraph.after events : StateGraph F).signals.registry = defaultMvp ∧
      ∀ id, ValueReported F events ((StateGraph.after events : StateGraph F).nodes.lookup id) := by
    induction events using List.reverseRecOn with
    | nil =>
      refine ⟨rfl, ?_⟩
      intro id node hmem
      cases hmem
    | append_singleton events event ih =>
      rw [StateGraph.after_concat]
      exact ⟨by simpa using ih.1, valueReported_applyEvent ih.1 ih.2⟩
  exact key.2 id

end Origin

section Age

variable {F : Type} [FloatCompare F]

variable (F) in
def isRetransmit (event : Event) : Bool :=
  (extractSample retransmitRate event : Option F).isSome

variable (F) in
/-- Some retransmission lies in the last window and step of the run. -/
def RecentRetransmit (events : List Event) : Prop :=
  ∃ event ∈ events, isRetransmit F event = true ∧ event.ts ≤ lastTs events ∧
    lastTs events ≤ event.ts + retransmitRate.window.windowMs + retransmitRate.window.stepMs

variable (F) in
/-- After these events the next one is a retransmission, or comes at most a
window and a step after the latest one. -/
def StaysActive (seen : List Event) (event : Event) : Prop :=
  isRetransmit F event = true ∨
    ∀ latest ∈ (seen.filter (isRetransmit F)).getLast?,
      event.ts ≤ latest.ts + retransmitRate.window.windowMs + retransmitRate.window.stepMs

instance (seen : List Event) (event : Event) : Decidable (StaysActive F seen event) :=
  inferInstanceAs (Decidable (_ ∨ _))

instance (events : List Event) : Decidable (RecentRetransmit F events) :=
  inferInstanceAs (Decidable (∃ event ∈ events, _ ∧ _ ∧ _))

theorem exists_retransmit_of_match {events recent : List Event} {edges : List Edge}
    {entityIdPattern : Option String} {op : ComparisonOp} {target : String}
    {valueType : ValueType}
    (h : RuleMatcher.matchConditionWithSnapshot recent edges
      (StateGraph.after events : StateGraph F).nodes
      (.signal retransmitRate.name entityIdPattern op target valueType : Condition F) = true) :
    ∃ event ∈ events, isRetransmit F event = true := by
  obtain ⟨node, hmem, hstart, hmatch⟩ := (RuleMatcher.matchesSignals_iff _).mp h
  obtain ⟨id, hid⟩ := RuleMatcher.mem_nodeValues.mp hmem
  have hvalue : (node.metadata.lookup "value").isSome = true := by
    unfold RuleMatcher.matchesSignal at hmatch
    cases hlookup : node.metadata.lookup "value" with
    | none =>
      simp [hlookup] at hmatch
    | some value =>
      rfl
  obtain ⟨event, hevent, spec, hspec, hsample, heq⟩ := reported_after events id node hid hvalue
  rw [heq] at hstart
  obtain rfl := eq_retransmitRate_of_startsWith hspec hstart
  exact ⟨event, hevent, hsample⟩

/-- A step is active exactly when the run after it, if it has retransmissions,
has a recent one. -/
theorem staysActive_iff {seen : List Event} {event : Event}
    (hordered : Ordered (seen ++ [event])) :
    StaysActive F seen event ↔
      ((∃ e ∈ seen ++ [event], isRetransmit F e = true) →
        RecentRetransmit F (seen ++ [event])) := by
  have hlast := lastTs_concat seen event
  obtain ⟨hseen, -, hbefore⟩ := List.pairwise_append.mp hordered
  have hbefore : ∀ e ∈ seen, e.ts ≤ event.ts := fun e he => hbefore e he event (by simp)
  constructor
  · rintro hactive ⟨drop, hdrop, hretransmit⟩
    rcases hactive with hown | hlatest
    · exact ⟨event, by simp, hown, by omega, by omega⟩
    · rcases List.mem_append.mp hdrop with hdrop | hdrop
      · -- there is a latest retransmission before the event
        have hne : seen.filter (isRetransmit F) ≠ [] :=
          List.ne_nil_of_mem (List.mem_filter.mpr ⟨hdrop, hretransmit⟩)
        obtain ⟨latest, hsome⟩ := Option.ne_none_iff_exists'.mp
          (mt List.getLast?_eq_none_iff.mp hne)
        obtain ⟨hmem, hlatestRetransmit⟩ := List.mem_filter.mp (List.mem_of_getLast? hsome)
        have hle := hlatest latest hsome
        have hts := hbefore latest hmem
        exact ⟨latest, by simp [hmem], hlatestRetransmit, by omega, by omega⟩
      · obtain rfl := List.mem_singleton.mp hdrop
        exact ⟨drop, by simp, hretransmit, by omega, by omega⟩
  · intro hrecent
    by_cases hown : isRetransmit F event = true
    · exact Or.inl hown
    · refine Or.inr ?_
      intro latest hsome
      obtain ⟨hmem, hlatestRetransmit⟩ := List.mem_filter.mp (List.mem_of_getLast? hsome)
      obtain ⟨drop, hdrop, hretransmit, -, hwindow⟩ :=
        hrecent ⟨latest, by simp [hmem], hlatestRetransmit⟩
      have hdrop : drop ∈ seen := by
        rcases List.mem_append.mp hdrop with hdrop | hdrop
        · exact hdrop
        · rw [List.mem_singleton.mp hdrop] at hretransmit
          exact absurd hretransmit hown
      -- the latest retransmission is no older than the recent one
      obtain ⟨front, hfront⟩ := List.getLast?_eq_some_iff.mp hsome
      have hsorted := hseen.sublist (List.filter_sublist (p := isRetransmit F) (l := seen))
      have hin := List.mem_filter.mpr ⟨hdrop, hretransmit⟩
      rw [hfront] at hsorted hin
      have hle : drop.ts ≤ latest.ts := by
        rcases List.mem_append.mp hin with hin | hin
        · exact (List.pairwise_append.mp hsorted).2.2 drop hin latest (by simp)
        · rw [List.mem_singleton.mp hin]
      omega

variable (F) in
/-- In every state reached, a rule on the rate with a target that is not negative
matches only if there is a recent retransmission. -/
def SignalRuleCurrent (events : List Event) : Prop :=
  ∀ seen rest, events = seen ++ rest →
    ∀ (recent : List Event) (edges : List Edge) (entityIdPattern : Option String) (target : String),
      NonNegative F target →
      RuleMatcher.matchConditionWithSnapshot recent edges
        (StateGraph.after seen : StateGraph F).nodes
        (.signal retransmitRate.name entityIdPattern .gt target .numeric : Condition F) = true →
      RecentRetransmit F seen

/-- The event starts no process whose id is one of the nodes of the rate. -/
def KeepsRateNodes (event : Event) : Prop :=
  ∀ id, event.Starts id →
    Text.startsWith id (RuleMatcher.signalPrefix retransmitRate.name) = false

theorem match_of_retransmit (hrates : PrintsRates F) {events recent : List Event}
    {edges : List Edge} (hkeeps : ∀ event ∈ events, KeepsRateNodes event) {drop : Event}
    (hdrop : drop ∈ events) (hretransmit : isRetransmit F drop = true) :
    RuleMatcher.matchConditionWithSnapshot recent edges
      (StateGraph.after events : StateGraph F).nodes
      (.signal retransmitRate.name none .gt "0" .numeric : Condition F) = true := by
  obtain ⟨sample, hsample⟩ := Option.isSome_iff_exists.mp hretransmit
  have hne : (samplesOf retransmitRate (entityFromEvent drop) events : List (Nat × F)) ≠ [] :=
    List.ne_nil_of_mem (List.mem_filterMap.mpr ⟨drop, hdrop, contribution_own hsample⟩)
  have hstarts : ∀ event ∈ events, ¬ event.Starts (rateNodeId (entityFromEvent drop)) := by
    intro event hevent hstart
    have hbegins := hkeeps event hevent _ hstart
    rw [startsWith_rateNodeId] at hbegins
    cases hbegins
  obtain ⟨node, hnode, hid, -, text, htext, habove⟩ := showing_after hrates hstarts hne
  refine (RuleMatcher.matchesSignals_iff _).mpr
    ⟨node, RuleMatcher.mem_nodeValues.mpr ⟨_, hnode⟩, ?_, ?_⟩
  · rw [hid]
    exact startsWith_rateNodeId _
  · simp only [RuleMatcher.matchesSignal, Option.any_none, Bool.false_eq_true, if_false,
      show node.metadata.lookup "value" = some text from htext]
    exact habove

/-- **When a rule on the rate is about the current window.**  In a run with
events in order, it is so in every state reached if no event comes later than a
window and a step after the latest retransmission, unless it is one itself.  And
only if: where no process takes the id of a node of the rate, a later event finds
a state in which a rule with the target zero matches on an old rate. -/
theorem signalRule_current_iff (hrates : PrintsRates F) {events : List Event}
    (hordered : Ordered events) :
    (Run.Meets (fun seen event => seen ++ [event]) (StaysActive F) [] events →
      SignalRuleCurrent F events) ∧
    ((∀ event ∈ events, KeepsRateNodes event) →
      (SignalRuleCurrent F events ↔
        Run.Meets (fun seen event => seen ++ [event]) (StaysActive F) [] events)) := by
  have hmeets : Run.Meets (fun seen event => seen ++ [event]) (StaysActive F) [] events ↔
      ∀ seen rest, events = seen ++ rest →
        (∃ e ∈ seen, isRetransmit F e = true) → RecentRetransmit F seen := by
    refine Run.meets_iff_forall_seen (by simp) ?_
    intro seen event rest hsplit _
    rw [Run.run_history]
    have hsplit : events = (seen ++ [event]) ++ rest := by simp [hsplit]
    rw [hsplit] at hordered
    exact staysActive_iff (List.pairwise_append.mp hordered).1
  have hcurrent : Run.Meets (fun seen event => seen ++ [event]) (StaysActive F) [] events →
      SignalRuleCurrent F events := by
    intro hactive seen rest hsplit recent edges entityIdPattern target _ hmatch
    exact hmeets.mp hactive seen rest hsplit (exists_retransmit_of_match hmatch)
  refine ⟨hcurrent, fun hkeeps => ⟨fun h => hmeets.mpr ?_, hcurrent⟩⟩
  rintro seen rest hsplit ⟨drop, hdrop, hretransmit⟩
  refine h seen rest hsplit [] [] none "0" hrates.zero
    (match_of_retransmit hrates (fun event hevent => hkeeps event ?_) hdrop hretransmit)
  rw [hsplit]
  exact List.mem_append_left _ hevent

/-- The rule that some node retransmits at all. -/
def anyRetransmit : Condition Binary64 :=
  .signal retransmitRate.name none .gt "0" .numeric

def jobAt (ts : Nat) : Event where
  ts := ts
  eventType := .intentRun
  entityId := "job"
  jobId := none
  pid := none
  value := ""
  nodeId := none

theorem keepsRateNodes_of_type {event : Event} (h : event.eventType ≠ .processState) :
    KeepsRateNodes event := by
  rintro id ⟨hty, -⟩
  exact absurd hty h

theorem keepsRateNodes_dropAndJob (ts : Nat) :
    ∀ event ∈ [retransmitAt 1000 "a", jobAt ts], KeepsRateNodes event := by
  intro event hevent
  rcases List.mem_pair.mp hevent with rfl | rfl
  · exact keepsRateNodes_of_type (by decide)
  · exact keepsRateNodes_of_type (by simp [jobAt])

/-- Half a minute after a retransmission the rule is about the current window; if
the next event comes an hour later, it is not. -/
theorem signalRule_current_iff_halfMinute :
    RecentRetransmit Binary64 [retransmitAt 1000 "a", jobAt 31000] ∧
    SignalRuleCurrent Binary64 [retransmitAt 1000 "a", jobAt 31000] ∧
    ¬ SignalRuleCurrent Binary64 [retransmitAt 1000 "a", jobAt 3601000] := by
  refine ⟨by decide +kernel, ?_, ?_⟩
  · exact (signalRule_current_iff printsRates_binary64 (by decide)).1 (by decide +kernel)
  · intro hcurrent
    have hmeets := ((signalRule_current_iff printsRates_binary64 (by decide)).2
      (keepsRateNodes_dropAndJob 3601000)).mp hcurrent
    exact absurd hmeets (by decide +kernel)

/-- **An old signal keeps a rule firing.**  An hour after the only
retransmission, with events in order and a target that is not negative, the
rule still matches. -/
theorem signalRule_stale :
    Ordered [retransmitAt 1000 "a", jobAt 3601000] ∧
    (FloatArith.parse "0" : Option Binary64).any (fun target =>
      FloatCompare.le (FloatArith.ofNat 0) target) = true ∧
    RuleMatcher.matchConditionWithSnapshot [] []
      (StateGraph.after [retransmitAt 1000 "a", jobAt 3601000] : StateGraph Binary64).nodes
      anyRetransmit = true ∧
    ¬ RecentRetransmit Binary64 [retransmitAt 1000 "a", jobAt 3601000] := by
  refine ⟨by decide, by decide +kernel, ?_, by decide +kernel⟩
  exact match_of_retransmit printsRates_binary64 (keepsRateNodes_dropAndJob 3601000)
    List.mem_cons_self (by decide +kernel)

end Age

end ArkInfra
