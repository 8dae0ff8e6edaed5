import ArkInfra.Core.RuleMatcher

/-!
# The rule engine

`core/src/rules/mod.rs`, the matching side.  `matchRules` gives the rules that
match, `matchFirst` the first of them, and `matchFirstSimple` the first rule
whose event conditions match, for callers without a graph.

The source has a second copy of the pattern matching for the simplified path;
it is a second copy here too.  `matchesPattern_copy` and its companions say
that the copies agree.
-/

namespace ArkInfra

/-- A rule file that was not loaded. -/
structure RuleSkipSample where
  path : String
  reason : String
  detail : String
deriving DecidableEq, Repr

structure RuleLoadStats where
  loadedRules : Nat
  legacyTotal : Nat
  legacyMigratableTotal : Nat
  legacyUnsupportedTotal : Nat
  skippedRules : Nat
  skippedByReason : HashMap String Nat
  skippedSamples : List RuleSkipSample
deriving DecidableEq

def RuleLoadStats.default : RuleLoadStats where
  loadedRules := 0
  legacyTotal := 0
  legacyMigratableTotal := 0
  legacyUnsupportedTotal := 0
  skippedRules := 0
  skippedByReason := ∅
  skippedSamples := []

structure RuleEngine (F : Type) where
  rules : List (Rule F)
  loadStats : RuleLoadStats

def Condition.isEvent {F : Type} : Condition F → Bool
  | .event .. => true
  | _ => false

namespace RuleEngine

section PatternsCopy

def findParts : List String → List Char → Bool
  | [], _ => true
  | part :: parts, text =>
    match Split.breakOn part.toList text with
    | some (_, rest) => findParts parts rest
    | none => false

def scanParts (anchoredStart : Bool) (parts : List String) (text : List Char) : Bool :=
  match parts with
  | [] => true
  | part :: rest =>
    if anchoredStart then
      if part.toList.isPrefixOf text then findParts rest (text.drop part.toList.length)
      else false
    else
      findParts (part :: rest) text

def matchesSinglePattern (text pattern : String) : Bool :=
  if pattern = "" then decide (text = "")
  else if pattern = "*" then true
  else if !Text.contains pattern "*" then decide (text = pattern)
  else
    let anchoredStart := !Text.startsWith pattern "*"
    let anchoredEnd := !Text.endsWith pattern "*"
    let parts := (Text.split pattern "*").filter (fun p => decide (p ≠ ""))
    if parts.isEmpty then true
    else if scanParts anchoredStart parts text.toList then
      if anchoredEnd then parts.getLast?.all (fun last => Text.endsWith text last) else true
    else
      false

def matchesPattern (text pattern : String) : Bool :=
  (Text.split pattern "|").any fun p => matchesSinglePattern text (Text.trim p)

def matchesValuePattern (text pattern : String) : Bool :=
  ((Text.split pattern "|").map Text.trim).any fun p =>
    decide (p ≠ "") && Text.contains text p

end PatternsCopy

variable {F : Type}

/-- The evidence of a graph and a list of events. -/
def evidence (graph : StateGraph F) (events : List Event) : RuleMatcher.Evidence where
  events := events
  edges := graph.edges
  nodes := graph.nodes

theorem within_of_same {graph graph' : StateGraph F} {events events' : List Event}
    (hevents : ∀ event, event ∈ events → event ∈ events')
    (hedges : ∀ edge, edge ∈ graph.edges → edge ∈ graph'.edges)
    (hnodes : ∀ id, graph.nodes.lookup id = graph'.nodes.lookup id) :
    (evidence graph events).Within (evidence graph' events') := by
  refine ⟨hevents, hedges, ?_⟩
  intro id node hid
  exact (hnodes id).symm.trans hid

variable [FloatCompare F]

/-- The copy of the event test: a value that is no number fails a threshold. -/
def matchesEvent (eventType : String) (entityIdPattern valuePattern : Option String)
    (valueThreshold : Option F) (event : Event) : Bool :=
  if event.eventType.toText ≠ eventType then false
  else if entityIdPattern.any (fun pattern => !matchesPattern event.entityId pattern) then false
  else if valuePattern.any (fun pattern => !matchesValuePattern event.value pattern) then false
  else if
      valueThreshold.any (fun threshold =>
        match (FloatArith.parse event.value : Option F) with
        | some value => FloatArith.lt value threshold
        | none => true) then
    false
  else
    true

def matchesEventCondition (events : List Event) : Condition F → Bool
  | .event eventType entityIdPattern valuePattern valueThreshold =>
    events.any fun event =>
      matchesEvent eventType entityIdPattern valuePattern valueThreshold event
  | _ => false

/-- All event conditions of the rule match, and there is one. -/
def matchesSimply (events : List Event) (rule : Rule F) : Bool :=
  let eventConditions := rule.conditions.filter Condition.isEvent
  if eventConditions.isEmpty then false
  else eventConditions.all (matchesEventCondition events)

/-- The rule matches on the graph and the events. -/
def matchesFully (graph : StateGraph F) (events : List Event) (rule : Rule F) : Bool :=
  RuleMatcher.matchAllConditions rule.conditions events graph

def matchRules (engine : RuleEngine F) (graph : StateGraph F) (events : List Event) :
    List (Rule F) :=
  engine.rules.filter (matchesFully graph events)

def matchFirst (engine : RuleEngine F) (graph : StateGraph F) (events : List Event) :
    Option (Rule F) :=
  engine.rules.find? (matchesFully graph events)

def matchFirstSimple (engine : RuleEngine F) (events : List Event) : Option (Rule F) :=
  engine.rules.find? (matchesSimply events)

section Monotonicity

open RuleMatcher (Evidence matchCondition_mono)

theorem matchesFully_iff {graph : StateGraph F} {events : List Event} {rule : Rule F} :
    matchesFully graph events rule = true ↔
      ∀ condition ∈ rule.conditions, (evidence graph events).Satisfies condition := by
  simp [matchesFully, RuleMatcher.matchAllConditions, Evidence.Satisfies, evidence]

theorem matchesFully_mono {graph graph' : StateGraph F} {events events' : List Event}
    (h : (evidence graph events).Within (evidence graph' events')) {rule : Rule F}
    (hrule : matchesFully graph events rule = true) :
    matchesFully graph' events' rule = true := by
  rw [matchesFully_iff] at hrule ⊢
  intro condition hmem
  exact matchCondition_mono h condition (hrule condition hmem)

theorem matchRules_sublist (engine : RuleEngine F) {graph graph' : StateGraph F}
    {events events' : List Event}
    (h : (evidence graph events).Within (evidence graph' events')) :
    (engine.matchRules graph events).Sublist (engine.matchRules graph' events') := by
  exact List.monotone_filter_right engine.rules fun rule => matchesFully_mono h

/-- **Matching is monotone in the evidence.**  A condition that matches goes on
matching when events, edges or nodes are added; the matching rules are then a
superset in the same order; and lists of events and of edges with the same
elements give the same answers. -/
theorem matching_monotone (engine : RuleEngine F) :
    (∀ (e e' : Evidence) (condition : Condition F), e.Within e' →
        e.Satisfies condition → e'.Satisfies condition) ∧
      (∀ (graph graph' : StateGraph F) (events events' : List Event),
        (evidence graph events).Within (evidence graph' events') →
        (engine.matchRules graph events).Sublist (engine.matchRules graph' events')) ∧
      ∀ (graph graph' : StateGraph F) (events events' : List Event),
        (∀ event, event ∈ events ↔ event ∈ events') →
        (∀ edge, edge ∈ graph.edges ↔ edge ∈ graph'.edges) →
        (∀ id, graph.nodes.lookup id = graph'.nodes.lookup id) →
        (∀ condition : Condition F, (evidence graph events).Satisfies condition ↔
          (evidence graph' events').Satisfies condition) ∧
        engine.matchRules graph events = engine.matchRules graph' events' := by
  refine ⟨fun e e' condition h => matchCondition_mono h condition,
    fun graph graph' events events' => engine.matchRules_sublist, ?_⟩
  intro graph graph' events events' hevents hedges hnodes
  have hthere : (evidence graph events).Within (evidence graph' events') :=
    within_of_same (fun event => (hevents event).mp) (fun edge => (hedges edge).mp) hnodes
  have hback : (evidence graph' events').Within (evidence graph events) :=
    within_of_same (fun event => (hevents event).mpr) (fun edge => (hedges edge).mpr)
      fun id => (hnodes id).symm
  constructor
  · intro condition
    exact ⟨matchCondition_mono hthere condition, matchCondition_mono hback condition⟩
  · -- each list is a sublist of the other
    exact (engine.matchRules_sublist hthere).antisymm (engine.matchRules_sublist hback)

def sampleRule (conditions : List (Condition Binary64)) : Rule Binary64 where
  id := some "network.retransmit"
  name := "retransmit"
  scene := "retransmit"
  priority := 10
  reasonCodes := []
  conditions := conditions
  rootCausePattern := { primary := "network", secondary := none }
  solutionSteps := []
  relatedEvidences := ["transport.drop"]
  applicability := { minConfidence := defaultMinConfidence, requiredEvents := none }

def sampleEvent (ts : Nat) (eventType : EventType) (entityId value : String) : Event where
  ts := ts
  eventType := eventType
  entityId := entityId
  jobId := none
  pid := none
  value := value
  nodeId := none

/-- A drop on a RoCE link, or a process that waits on one. -/
def sampleConditions : List (Condition Binary64) :=
  [.any [.all [.event "transport.drop" (some "roce-* | eth*") none (some (.fin false 10 0))],
    .graph "waits_on" none (some "roce-*")]]

def sampleEngine (rules : List (Rule Binary64)) : RuleEngine Binary64 where
  rules := rules
  loadStats := .default

/-- The rule fires on one drop, and goes on firing when other reports and the
same drop come in before it. -/
theorem matching_monotone_moreReports :
    ((sampleEngine [sampleRule sampleConditions]).matchRules .new
        [sampleEvent 5 .transportDrop "roce-mlx5_0" "12.5"]).length = 1 ∧
      ((sampleEngine [sampleRule sampleConditions]).matchRules .new
        [sampleEvent 5 .transportDrop "roce-mlx5_0" "12.5"]).Sublist
        ((sampleEngine [sampleRule sampleConditions]).matchRules .new
          [sampleEvent 3 .transportBw "eth0" "0.5",
            sampleEvent 5 .transportDrop "roce-mlx5_0" "12.5",
            sampleEvent 5 .transportDrop "roce-mlx5_0" "12.5"]) := by
  refine ⟨by decide +kernel, (matching_monotone _).2.1 _ _ _ _ ⟨?_, ?_, ?_⟩⟩
  · intro event hevent
    exact List.mem_cons_of_mem _ (List.mem_cons_of_mem _ hevent)
  · exact List.Subset.refl _
  · intro id node hid
    exact hid

end Monotonicity

section SimplePath

theorem findParts_copy : findParts = RuleMatcher.findParts := by
  funext parts
  induction parts with
  | nil =>
    rfl
  | cons part parts ih =>
    funext text
    simp only [findParts, RuleMatcher.findParts]
    cases Split.breakOn part.toList text with
    | none =>
      rfl
    | some found =>
      exact congrFun ih found.2

theorem scanParts_copy : scanParts = RuleMatcher.scanParts := by
  funext anchoredStart parts text
  cases parts with
  | nil =>
    rfl
  | cons part parts =>
    simp only [scanParts, RuleMatcher.scanParts, findParts_copy]

theorem matchesSinglePattern_copy :
    matchesSinglePattern = RuleMatcher.matchesSinglePattern := by
  funext text pattern
  simp only [matchesSinglePattern, RuleMatcher.matchesSinglePattern, scanParts_copy]

theorem matchesPattern_copy : matchesPattern = RuleMatcher.matchesPattern := by
  funext text pattern
  simp only [matchesPattern, RuleMatcher.matchesPattern, matchesSinglePattern_copy]

theorem matchesValuePattern_copy :
    matchesValuePattern = RuleMatcher.matchesValuePattern := by
  rfl

theorem matchesEvent_copy :
    (matchesEvent : _ → _ → _ → Option F → _ → _) = RuleMatcher.matchesEvent := by
  funext eventType entityIdPattern valuePattern valueThreshold event
  unfold matchesEvent RuleMatcher.matchesEvent
  rw [matchesPattern_copy, matchesValuePattern_copy]
  cases valueThreshold with
  | none =>
    rfl
  | some threshold =>
    cases (FloatArith.parse event.value : Option F) with
    | none =>
      rfl
    | some value =>
      simp

theorem matchesEventCondition_iff (graph : StateGraph F) {events : List Event}
    {condition : Condition F} (h : condition.isEvent = true) :
    matchesEventCondition events condition = true ↔
      (evidence graph events).Satisfies condition := by
  cases condition with
  | event eventType entityIdPattern valuePattern valueThreshold =>
    simp only [matchesEventCondition, matchesEvent_copy]
    rfl
  | _ =>
    cases h

theorem matchesSimply_iff (graph : StateGraph F) {events : List Event} {rule : Rule F} :
    matchesSimply events rule = true ↔
      (∃ condition ∈ rule.conditions, condition.isEvent = true) ∧
        ∀ condition ∈ rule.conditions, condition.isEvent = true →
          (evidence graph events).Satisfies condition := by
  have hall : (rule.conditions.filter Condition.isEvent).all (matchesEventCondition events) =
      true ↔ ∀ condition ∈ rule.conditions, condition.isEvent = true →
        (evidence graph events).Satisfies condition := by
    simp only [List.all_eq_true, List.mem_filter, and_imp]
    constructor
    · intro h condition hmem hevent
      exact (matchesEventCondition_iff graph hevent).mp (h condition hmem hevent)
    · intro h condition hmem hevent
      exact (matchesEventCondition_iff graph hevent).mpr (h condition hmem hevent)
  unfold matchesSimply
  dsimp only
  split_ifs with hnone
  · simp only [List.isEmpty_iff, List.filter_eq_nil_iff] at hnone
    constructor
    · intro h
      cases h
    · rintro ⟨⟨condition, hmem, hevent⟩, _⟩
      exact absurd hevent (hnone condition hmem)
  · rw [hall]
    have hsome : ∃ condition ∈ rule.conditions, condition.isEvent = true := by
      simpa [List.isEmpty_iff, List.filter_eq_nil_iff] using hnone
    exact (and_iff_right hsome).symm

/-- Top-level event conditions and nothing else. -/
def OnlyEvents (rule : Rule F) : Prop :=
  rule.conditions ≠ [] ∧ ∀ condition ∈ rule.conditions, condition.isEvent = true

theorem matchesSimply_eq_of_onlyEvents (graph : StateGraph F) (events : List Event)
    {rule : Rule F} (h : OnlyEvents rule) :
    matchesSimply events rule = matchesFully graph events rule := by
  rw [Bool.eq_iff_iff, matchesSimply_iff graph, matchesFully_iff]
  obtain ⟨hne, hevents⟩ := h
  obtain ⟨condition, hmem⟩ := List.exists_mem_of_ne_nil _ hne
  constructor
  · rintro ⟨_, hall⟩ c hc
    exact hall c hc (hevents c hc)
  · intro hall
    exact ⟨⟨condition, hmem, hevents condition hmem⟩, fun c hc _ => hall c hc⟩

theorem matchesSimply_of_matchesFully {graph : StateGraph F} {events : List Event}
    {rule : Rule F} (hevent : ∃ condition ∈ rule.conditions, condition.isEvent = true)
    (h : matchesFully graph events rule = true) : matchesSimply events rule = true := by
  rw [matchesSimply_iff graph]
  rw [matchesFully_iff] at h
  exact ⟨hevent, fun condition hmem _ => h condition hmem⟩

theorem find?_congr_of_forall {α : Type} {p q : α → Bool} {xs : List α}
    (h : ∀ x ∈ xs, p x = q x) : xs.find? p = xs.find? q := by
  induction xs with
  | nil =>
    rfl
  | cons x xs ih =>
    simp only [List.find?_cons, h x (by simp), ih fun y hy => h y (List.mem_cons_of_mem _ hy)]

theorem exists_find?_le {α : Type} {p : α → Bool} {xs : List α} {i : Nat} {x : α}
    (hi : xs[i]? = some x) (hx : p x = true) :
    ∃ (j : Nat) (y : α), j ≤ i ∧ xs[j]? = some y ∧ xs.find? p = some y ∧
      ∀ k < j, ∀ z, xs[k]? = some z → p z = false := by
  have hmem : x ∈ xs := List.mem_of_getElem? hi
  obtain ⟨y, hy⟩ := Option.isSome_iff_exists.mp (List.find?_isSome.mpr ⟨x, hmem, hx⟩)
  obtain ⟨_, j, hlt, hget, hbefore⟩ := List.find?_eq_some_iff_getElem.mp hy
  have hfirst : ∀ k < j, ∀ z, xs[k]? = some z → p z = false := by
    intro k hk z hz
    obtain ⟨hlt', hget'⟩ := List.getElem?_eq_some_iff.mp hz
    have := hbefore k hk
    rw [hget'] at this
    simpa using this
  refine ⟨j, y, ?_, List.getElem?_eq_some_iff.mpr ⟨hlt, hget⟩, hy, hfirst⟩
  by_contra hij
  have := hfirst i (by omega) x hi
  rw [hx] at this
  cases this

/-- **The fast matcher agrees with the full one.**  `matchFirst` is the head of
`matchRules`; on rules of event conditions the simplified path gives the same
rule; and where the full one stops at a rule with an event condition, at the
position `i`, the simplified one stops there or before. -/
theorem matchFirstSimple_agrees (engine : RuleEngine F) (graph : StateGraph F)
    (events : List Event) :
    engine.matchFirst graph events = (engine.matchRules graph events).head? ∧
      ((∀ rule ∈ engine.rules, OnlyEvents rule) →
        engine.matchFirstSimple events = engine.matchFirst graph events) ∧
      ∀ rule : Rule F, engine.matchFirst graph events = some rule →
        (∃ condition ∈ rule.conditions, condition.isEvent = true) →
        ∃ (i j : Nat) (found : Rule F),
          (engine.rules[i]? = some rule ∧ matchesFully graph events rule = true ∧
            ∀ k < i, ∀ earlier, engine.rules[k]? = some earlier →
              matchesFully graph events earlier = false) ∧
          j ≤ i ∧ engine.rules[j]? = some found ∧ engine.matchFirstSimple events = some found ∧
            ∀ k < j, ∀ earlier, engine.rules[k]? = some earlier →
              matchesSimply events earlier = false := by
  refine ⟨(List.head?_filter).symm, ?_, ?_⟩
  · intro honly
    apply find?_congr_of_forall
    intro rule hmem
    exact matchesSimply_eq_of_onlyEvents graph events (honly rule hmem)
  · intro rule hfirst hevent
    have hrule : matchesFully graph events rule = true := List.find?_some hfirst
    obtain ⟨n, hn⟩ := List.mem_iff_getElem?.mp (List.mem_of_find?_eq_some hfirst)
    obtain ⟨i, found, _, hi, hfound, hbefore⟩ := exists_find?_le hn hrule
    obtain rfl : rule = found := Option.some.inj (hfirst.symm.trans hfound)
    obtain ⟨j, found, hji, hj, hfound, hearlier⟩ :=
      exists_find?_le hi (matchesSimply_of_matchesFully hevent hrule)
    exact ⟨i, j, found, ⟨hi, hrule, hbefore⟩, hji, hj, hfound, hearlier⟩

/-- Both paths find a rule of one event condition. -/
theorem matchFirstSimple_agrees_oneRule :
    ((sampleEngine [sampleRule [.event "transport.drop" none none none]]).matchFirst .new
        [sampleEvent 5 .transportDrop "eth0" "1"]).isSome = true ∧
      (sampleEngine [sampleRule [.event "transport.drop" none none none]]).matchFirstSimple
          [sampleEvent 5 .transportDrop "eth0" "1"] =
        (sampleEngine [sampleRule [.event "transport.drop" none none none]]).matchFirst .new
          [sampleEvent 5 .transportDrop "eth0" "1"] := by
  refine ⟨by decide +kernel, (matchFirstSimple_agrees _ _ _).2.1 ?_⟩
  intro rule hmem
  obtain rfl := List.mem_singleton.mp hmem
  constructor
  · simp [sampleRule]
  · intro condition hcondition
    obtain rfl := List.mem_singleton.mp hcondition
    rfl

end SimplePath

end RuleEngine

end ArkInfra
