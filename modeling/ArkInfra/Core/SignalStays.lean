import ArkInfra.Core.GraphStep
import ArkInfra.Core.RuleMatcher
import ArkInfra.Core.SignalWindow
import ArkInfra.Lib.Binary64Text

/-!
# The rate that stays

The first retransmission of an entity writes its rate into a node of the graph.
Nothing takes the rate away again: a later write to the node is another rate
above zero, the handlers keep the node and its value, and the cleanup spares it
because it is a resource.  Only the start of a process whose id is that of the
node replaces it.

`showing_after` says so for whole runs.  It needs of the arithmetic that the
rate of at least one retransmission is printed as a number above zero, which
`printsRates_binary64` proves of the doubles.
-/

namespace ArkInfra

open NodeWrite

/-- The write sets no metadata entry under the key. -/
def NodeWrite.Spares (key : String) : NodeWrite → Prop
  | .ensure node => node.metadata.lookup key = none
  | .insert node => node.metadata.lookup key = none
  | .touch _ touched _ _ => touched ≠ key

section Writes

variable {F : Type} [FloatArith F]

theorem startMetadata_value (event : Event) : (startMetadata event).lookup "value" = none := by
  unfold startMetadata
  cases event.jobId <;> rfl

theorem transportKey_ne_value (ty : EventType) : transportKey ty ≠ "value" := by
  cases ty <;> decide

theorem spares_value_of_mem {event : Event} {w : NodeWrite} (h : w ∈ nodeWrites F event) :
    w.Spares "value" := by
  cases exactWriteOf_of_mem h with
  | resource base hbase =>
    rfl
  | metric base key hbase hkey =>
    rcases hkey with rfl | ⟨ty, rfl⟩
    · exact (by decide : "util" ≠ "value")
    · exact transportKey_ne_value ty
  | mention pid metadata hmetadata =>
    rcases hmetadata with rfl | rfl
    · rfl
    · rfl
  | start id hstart =>
    exact startMetadata_value event
  | finish id hend =>
    exact (by decide : "state" ≠ "value")
  | error =>
    rfl

end Writes

/-- The node of the retransmission rate of an entity. -/
def rateNodeId (entity : String) : String :=
  "signal::" ++ retransmitRate.name ++ "::" ++ entity

theorem startsWith_rateNodeId (entity : String) :
    Text.startsWith (rateNodeId entity) (RuleMatcher.signalPrefix retransmitRate.name) = true := by
  refine (Text.startsWith_iff _ _).mpr ⟨entity.toList, ?_⟩
  simp [rateNodeId, RuleMatcher.signalPrefix]

/-- The ids that begin as the nodes of the retransmission rate do are those of
no other signal. -/
theorem eq_retransmitRate_of_startsWith {spec : SignalSpec} (hspec : spec ∈ defaultMvp)
    {entity : String}
    (h : Text.startsWith ("signal::" ++ spec.name ++ "::" ++ entity)
      (RuleMatcher.signalPrefix retransmitRate.name) = true) : spec = retransmitRate := by
  rcases List.mem_pair.mp hspec with rfl | rfl
  · rfl
  · obtain ⟨rest, hrest⟩ := (Text.startsWith_iff _ _).mp h
    have hchar := congrArg (fun cs => cs[8]?) hrest
    simp [RuleMatcher.signalPrefix, retransmitRate, defaultMvp] at hchar

section Rates

variable (F : Type) [FloatCompare F]

/-- The text is read as a number that is not negative. -/
def NonNegative (text : String) : Prop :=
  ∃ x ∈ (FloatArith.parse text : Option F), FloatCompare.le (FloatArith.ofNat 0) x = true

def AboveZero (text : String) : Prop :=
  RuleMatcher.compareValue F text "0" .gt .numeric = true

def rateOf (n : Nat) : F :=
  FloatArith.div (FloatArith.ofNat n)
    (FloatArith.div (FloatArith.ofNat retransmitRate.window.windowMs) (FloatArith.ofNat 1000))

/-- Zero is read as a number that is not negative, and the rate of one
retransmission or more is printed as a number above it. -/
structure PrintsRates : Prop where
  zero : NonNegative F "0"
  positive : ∀ n, 0 < n → AboveZero F (FloatArith.display (rateOf F n))

variable {F} in
theorem aboveZero_of_parse {text : String} {x zero : F} (hzero : FloatArith.parse "0" = some zero)
    (hx : FloatArith.parse text = some x) (hlt : FloatArith.lt zero x = true) :
    AboveZero F text := by
  simp only [AboveZero, RuleMatcher.compareValue, hx, hzero]
  exact hlt

end Rates

theorem printsRates_binary64 : PrintsRates Binary64 where
  zero := ⟨.fin false 0 (-1074), by decide +kernel, by decide +kernel⟩
  positive := by
    intro n hn
    have hminute : FloatArith.div (FloatArith.ofNat retransmitRate.window.windowMs)
        (FloatArith.ofNat 1000) = Binary64.fin false 8444249301319680 (-47) := by
      decide +kernel
    have hcount : (Binary64.round false n 1).Positive 53 :=
      Binary64.round_positive (c := 0) (by decide) (by omega) (by decide)
    have hrate : (rateOf Binary64 n).Positive 112 := by
      unfold rateOf
      rw [hminute]
      exact Binary64.div_positive (b := 6) hcount (by decide) (by decide +kernel) (by decide)
    obtain ⟨x, hparse, c, hx⟩ := Binary64.parse_display_positive hrate (by decide)
    exact aboveZero_of_parse (show Binary64.parse "0" = some (.fin false 0 (-1074)) by
      decide +kernel) hparse (Binary64.lt_of_positive hx (-1074))

section Stays

variable {F : Type} [FloatCompare F]

variable (F) in
structure ShowsRate (id : String) (node : Node) : Prop where
  id : node.id = id
  resource : node.nodeType = .resource
  value : ∃ text ∈ node.metadata.lookup "value", AboveZero F text

variable (F) in
/-- There is a node that shows a rate above zero. -/
def Showing (id : String) (node? : Option Node) : Prop :=
  ∃ node ∈ node?, ShowsRate F id node

theorem Showing.effect {id : String} {node? : Option Node} {w : NodeWrite}
    (h : Showing F id node?) (hw : w.Spares "value") (hkeeps : ∀ new, w ≠ .insert new) :
    Showing F id (w.effect node?) := by
  obtain ⟨node, rfl, hshows⟩ := h
  cases w with
  | ensure new =>
    exact ⟨node, rfl, hshows⟩
  | insert new =>
    exact absurd rfl (hkeeps new)
  | touch target key value ts =>
    refine ⟨_, rfl, hshows.id, hshows.resource, ?_⟩
    rw [AList.lookup_insert_ne (Ne.symm hw)]
    exact hshows.value

theorem showing_handle {g : StateGraph F} {event : Event} {id : String}
    (hstarts : ¬ event.Starts id) (h : Showing F id (g.nodes.lookup id)) :
    Showing F id ((g.handle event).nodes.lookup id) := by
  rw [StateGraph.lookup_handle]
  refine effectAt_induction ?_ h
  intro w hw htarget node? hnode
  refine hnode.effect (spares_value_of_mem hw) ?_
  rintro new rfl
  cases exactWriteOf_of_mem hw with
  | start started hstart =>
    obtain rfl : started = id := htarget
    exact hstarts hstart

theorem showing_periodicCleanup {g : StateGraph F} {id : String} (ts : Nat)
    (h : Showing F id (g.nodes.lookup id)) :
    Showing F id ((g.periodicCleanup ts).nodes.lookup id) := by
  obtain ⟨node, hnode, hshows⟩ := h
  have hfresh : g.isExpired ts node = false := by
    simp [StateGraph.isExpired, StateGraph.isExpiredError, StateGraph.isDeadProcess,
      hshows.resource]
  unfold StateGraph.periodicCleanup
  split_ifs
  · refine ⟨node, ?_, hshows⟩
    change (g.cleanupOldErrors ts).nodes.lookup id = some node
    rw [StateGraph.lookup_cleanupOldErrors, show g.nodes.lookup id = some node from hnode]
    simp [hfresh]
  · exact ⟨node, hnode, hshows⟩

theorem shows_pointAt (hrates : PrintsRates F) {entity : String} {ts : Nat}
    {samples : List (Nat × F)} (hne : samples ≠ []) :
    ShowsRate F (rateNodeId entity)
      (StateGraph.signalNode (Track.pointAt retransmitRate entity ts samples)) where
  id := rfl
  resource := rfl
  value := by
    refine ⟨FloatArith.display (rateOf F samples.length), ?_, hrates.positive _ ?_⟩
    · have hvalue : aggregate retransmitRate (samples.map Prod.snd) = rateOf F samples.length := by
        rw [rateOf, ← List.length_map (f := Prod.snd)]
        rfl
      simp only [StateGraph.signalNode, Track.pointAt, hvalue]
      rw [AList.lookup_insert_ne (by decide), AList.lookup_insert_ne (by decide),
        AList.lookup_insert]
      rfl
    · exact List.length_pos_iff.mpr hne

/-- A point whose node is that of the rate of an entity is one of its points. -/
theorem mem_pointsOf_of_id {engine : SignalEngine F} {event : Event} {entity : String}
    (hregistry : engine.registry = defaultMvp) {point : SignalPoint F}
    (hpoint : point ∈ (engine.onEvent event).2)
    (hid : (StateGraph.signalNode point).id = rateNodeId entity) :
    point ∈ pointsOf retransmitRate entity (engine.onEvent event).2 := by
  obtain ⟨spec, hspec, hname, -⟩ := mem_onEvent hpoint
  rw [hregistry] at hspec
  have hstart := startsWith_rateNodeId entity
  rw [← hid, StateGraph.signalNode, hname] at hstart
  obtain rfl := eq_retransmitRate_of_startsWith hspec hstart
  refine List.mem_filter.mpr ⟨hpoint, decide_eq_true ⟨hname, ?_⟩⟩
  have hlist := congrArg String.toList hid
  simp only [StateGraph.signalNode, rateNodeId, hname, String.toList_append] at hlist
  exact String.toList_injective (List.append_cancel_left hlist)

/-- What the signal update writes at the node of a rate is a rate above zero. -/
theorem showing_signalWrite (hrates : PrintsRates F) {engine : SignalEngine F} {event : Event}
    {entity : String} {track : Track F} (hregistry : engine.registry = defaultMvp)
    (htrack : Tracks engine retransmitRate entity track) {w : NodeWrite}
    (hw : w ∈ StateGraph.signalWrites engine event) (htarget : w.target = rateNodeId entity)
    (node? : Option Node) : Showing F (rateNodeId entity) (w.effect node?) := by
  obtain ⟨point, hpoint, rfl⟩ := List.mem_map.mp hw
  have hmem := mem_pointsOf_of_id hregistry hpoint htarget
  have hstep := htrack.onEvent (hregistry ▸ keyedApart_defaultMvp)
    (hregistry ▸ retransmitRate_mem) event
  cases hx : (contribution retransmitRate entity event : Option (Nat × F)) with
  | none =>
    simp only [hx] at hstep
    rw [hstep.2] at hmem
    cases hmem
  | some x =>
    simp only [hx] at hstep
    rw [hstep.2, Track.emit] at hmem
    split_ifs at hmem
    · obtain rfl := List.mem_singleton.mp hmem
      exact ⟨_, rfl, shows_pointAt hrates (track.slide_ne_nil retransmitRate x)⟩
    · cases hmem

theorem exists_signalWrite {engine : SignalEngine F} {event : Event} {entity : String}
    {x : Nat × F} (hregistry : engine.registry = defaultMvp)
    (htrack : Tracks engine retransmitRate entity .empty)
    (hx : contribution retransmitRate entity event = some x) :
    ∃ w ∈ StateGraph.signalWrites engine event, w.target = rateNodeId entity := by
  have hstep := htrack.onEvent (hregistry ▸ keyedApart_defaultMvp)
    (hregistry ▸ retransmitRate_mem) event
  simp only [hx] at hstep
  have hpoint : Track.pointAt retransmitRate entity x.1 (Track.empty.slide retransmitRate x) ∈
      pointsOf retransmitRate entity (engine.onEvent event).2 := by
    rw [hstep.2]
    exact List.mem_singleton_self _
  exact ⟨_, List.mem_map.mpr ⟨_, (List.mem_filter.mp hpoint).1, rfl⟩, rfl⟩

theorem signals_after (events : List Event) :
    (StateGraph.after events : StateGraph F).signals =
      (SignalEngine.mvp F).afterEvents events := by
  induction events using List.reverseRecOn with
  | nil =>
    rfl
  | append_singleton events event ih =>
    rw [StateGraph.after_concat, SignalEngine.afterEvents, Run.run_concat]
    rw [StateGraph.applyEvent, StateGraph.updateSignals]
    simp only [StateGraph.periodicCleanup_signals, StateGraph.handle_signals, ih]
    rfl

/-- **A whole run.**  Once an entity has contributed to the rate, its node shows a
rate above zero, unless a process of that id starts. -/
theorem showing_after (hrates : PrintsRates F) {events : List Event} {entity : String}
    (hstarts : ∀ event ∈ events, ¬ event.Starts (rateNodeId entity))
    (hne : (samplesOf retransmitRate entity events : List (Nat × F)) ≠ []) :
    Showing F (rateNodeId entity)
      ((StateGraph.after events : StateGraph F).nodes.lookup (rateNodeId entity)) := by
  induction events using List.reverseRecOn with
  | nil =>
    exact absurd rfl hne
  | append_singleton events event ih =>
    have htrack := (mvp_tracks (F := F) retransmitRate_mem entity events).1
    rw [← signals_after] at htrack
    have hregistry : (StateGraph.after events : StateGraph F).signals.registry = defaultMvp := by
      rw [signals_after, SignalEngine.registry_afterEvents]
      rfl
    rw [StateGraph.after_concat, StateGraph.applyEvent, StateGraph.lookup_updateSignals,
      StateGraph.periodicCleanup_signals, StateGraph.handle_signals]
    have hwrite : ∀ w ∈ StateGraph.signalWrites (StateGraph.after events : StateGraph F).signals
        event, w.target = rateNodeId entity →
          ∀ o, Showing F (rateNodeId entity) (w.effect o) := by
      intro w hw htarget o
      exact showing_signalWrite hrates hregistry htrack hw htarget o
    by_cases hold : (samplesOf retransmitRate entity events : List (Nat × F)) = []
    · -- the sample is the first one of its entity, so a point is due
      rw [hold] at htrack
      rw [samplesOf_append, hold, List.nil_append] at hne
      cases hx : (contribution retransmitRate entity event : Option (Nat × F)) with
      | none =>
        simp [samplesOf, hx] at hne
      | some x =>
        exact effectAt_of_writes (exists_signalWrite hregistry htrack hx) hwrite
    · refine effectAt_induction (fun w hw htarget o _ => hwrite w hw htarget o) ?_
      refine showing_periodicCleanup event.ts (showing_handle (hstarts event (by simp)) ?_)
      exact ih (fun e he => hstarts e (by simp [he])) hold

end Stays

end ArkInfra
