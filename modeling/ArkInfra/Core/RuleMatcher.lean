import ArkInfra.Core.Graph
import ArkInfra.Core.Rule

/-!
# The rule matcher

`core/src/rules/matcher.rs`: a condition is evaluated on the recent events and
on a snapshot of the graph.  Every leaf asks for one piece of evidence, an
event, an edge or a node, that passes its tests; `any` and `all` combine the
answers.

`matchCondition_mono` is the induction over the tree: what matches on some
evidence matches on more.
-/

namespace ArkInfra

namespace RuleMatcher

section Patterns

/-- Find the parts of a pattern in the text one after the other. -/
def findParts : List String → List Char → Bool
  | [], _ => true
  | part :: parts, text =>
    match Split.breakOn part.toList text with
    | some (_, rest) => findParts parts rest
    | none => false

/-- The loop over the parts of a pattern; the cursor is the rest of the text. -/
def scanParts (anchoredStart : Bool) (parts : List String) (text : List Char) : Bool :=
  match parts with
  | [] => true
  | part :: rest =>
    if anchoredStart then
      if part.toList.isPrefixOf text then findParts rest (text.drop part.toList.length)
      else false
    else
      findParts (part :: rest) text

/-- Match one pattern with the wildcard `*`. -/
def matchesSinglePattern (text pattern : String) : Bool :=
  if pattern = "" then decide (text = "")
  else if pattern = "*" then true
  else if !Text.contains pattern "*" then decide (text = pattern)
  else
    let anchoredStart := !Text.startsWith pattern "*"
    let anchoredEnd := !Text.endsWith pattern "*"
    let parts := (Text.split pattern "*").filter (fun p => decide (p ≠ ""))
    if parts.isEmpty then true
    else if scanParts anchoredStart parts text.toList then
      if anchoredEnd then parts.getLast?.all (fun last => Text.endsWith text last) else true
    else
      false

/-- Match one of the alternatives of a pattern. -/
def matchesPattern (text pattern : String) : Bool :=
  (Text.split pattern "|").any fun p => matchesSinglePattern text (Text.trim p)

/-- One of the alternatives occurs in the text. -/
def matchesValuePattern (text pattern : String) : Bool :=
  ((Text.split pattern "|").map Text.trim).any fun p =>
    decide (p ≠ "") && Text.contains text p

end Patterns

def edgeTypeStr : EdgeType → String
  | .consumes => "consumes"
  | .waitsOn => "waits_on"
  | .blockedBy => "blocked_by"

def nodeTypeStr : NodeType → String
  | .process => "process"
  | .resource => "resource"
  | .error => "error"

section Comparison

variable {F : Type} [FloatCompare F]

/-- The tolerance of a numeric comparison, `0.001`. -/
def tolerance : F :=
  FloatArith.div (FloatArith.ofNat 1) (FloatArith.ofNat 1000)

/-- Compare two numbers; `contains` compares their texts. -/
def compareNumbers (actual target : F) (actualStr targetStr : String) : ComparisonOp → Bool
  | .gt => FloatArith.lt target actual
  | .lt => FloatArith.lt actual target
  | .eq => FloatArith.lt (FloatCompare.abs (FloatCompare.sub actual target)) tolerance
  | .gte => FloatCompare.le target actual
  | .lte => FloatCompare.le actual target
  | .ne => FloatCompare.le tolerance (FloatCompare.abs (FloatCompare.sub actual target))
  | .contains => Text.contains actualStr targetStr

/-- Compare two texts; the orderings have no meaning there. -/
def compareStrings (actualStr target : String) : ComparisonOp → Bool
  | .eq => decide (actualStr = target)
  | .ne => decide (actualStr ≠ target)
  | .contains => Text.contains actualStr target
  | _ => false

variable (F) in
/-- Compare a value with the target of a condition. -/
def compareValue (actualStr target : String) (op : ComparisonOp) (valueType : ValueType) : Bool :=
  match valueType with
  | .numeric =>
    match (FloatArith.parse actualStr : Option F) with
    | none => false
    | some actual =>
      match (FloatArith.parse target : Option F) with
      | none => false
      | some targetVal => compareNumbers actual targetVal actualStr target op
  | .string => compareStrings actualStr target op
  | .auto =>
    match (FloatArith.parse actualStr : Option F), (FloatArith.parse target : Option F) with
    | some actual, some targetVal => compareNumbers actual targetVal actualStr target op
    | _, _ => compareStrings actualStr target op

variable (F) in
/-- Test one metadata entry of a node. -/
def matchMetricCondition (metric : MetricCondition) (metadata : HashMap String String) : Bool :=
  match metadata.lookup metric.key with
  | none => false
  | some actualStr => compareValue F actualStr metric.target metric.op metric.valueType

end Comparison

section Leaves

variable {F : Type} [FloatCompare F]

/-- The test of an event condition on one event. -/
def matchesEvent (eventType : String) (entityIdPattern valuePattern : Option String)
    (valueThreshold : Option F) (event : Event) : Bool :=
  if event.eventType.toText ≠ eventType then false
  else if entityIdPattern.any (fun pattern => !matchesPattern event.entityId pattern) then false
  else if valuePattern.any (fun pattern => !matchesValuePattern event.value pattern) then false
  else
    match valueThreshold with
    | none => true
    | some threshold =>
      match (FloatArith.parse event.value : Option F) with
      | some value => !FloatArith.lt value threshold
      | none => false

/-- The test of a graph condition on one edge. -/
def matchesEdge (edgeType : String) (fromPattern toPattern : Option String) (edge : Edge) : Bool :=
  if edgeTypeStr edge.edgeType ≠ edgeType then false
  else if fromPattern.any (fun pattern => !matchesPattern edge.fromId pattern) then false
  else if toPattern.any (fun pattern => !matchesPattern edge.toId pattern) then false
  else true

variable (F) in
/-- The test of a metric condition on one node. -/
def matchesMetrics (nodeType entityIdPattern : Option String) (metrics : List MetricCondition)
    (node : Node) : Bool :=
  if nodeType.any (fun nt => decide (nodeTypeStr node.nodeType ≠ nt)) then false
  else if entityIdPattern.any (fun pattern => !matchesPattern node.id pattern) then false
  else metrics.all fun metric => matchMetricCondition F metric node.metadata

/-- The beginning of the ids of the nodes of a signal. -/
def signalPrefix (signal : String) : String :=
  "signal::" ++ signal ++ "::"

variable (F) in
/-- The test of a signal condition on one node of that signal. -/
def matchesSignal (signal : String) (entityIdPattern : Option String) (op : ComparisonOp)
    (target : String) (valueType : ValueType) (node : Node) : Bool :=
  let entityPart := (Text.stripPrefix node.id (signalPrefix signal)).getD ""
  if entityIdPattern.any (fun pattern => !matchesPattern entityPart pattern) then false
  else
    match node.metadata.lookup "value" with
    | none => false
    | some actual => compareValue F actual target op valueType

def nodeValues (nodes : HashMap String Node) : List Node :=
  nodes.entries.map fun x => x.2

variable (F) in
/-- The nodes of the signal, latest first, with one that passes. -/
def matchesSignals (signal : String) (entityIdPattern : Option String) (op : ComparisonOp)
    (target : String) (valueType : ValueType) (nodes : HashMap String Node) : Bool :=
  let candidates :=
    (nodeValues nodes).filter fun node => Text.startsWith node.id (signalPrefix signal)
  if candidates.isEmpty then false
  else
    let candidates := candidates.mergeSort fun a b => decide (a.lastUpdate ≤ b.lastUpdate)
    candidates.reverse.any fun node => matchesSignal F signal entityIdPattern op target valueType node

end Leaves

variable {F : Type} [FloatCompare F]

mutual

/-- Evaluate a condition on the events and a snapshot of the graph. -/
def matchConditionWithSnapshot (events : List Event) (edges : List Edge)
    (nodes : HashMap String Node) : Condition F → Bool
  | .event eventType entityIdPattern valuePattern valueThreshold =>
    events.any fun event =>
      matchesEvent eventType entityIdPattern valuePattern valueThreshold event
  | .graph edgeType fromPattern toPattern =>
    edges.any fun edge => matchesEdge edgeType fromPattern toPattern edge
  | .metric nodeType entityIdPattern metrics =>
    (nodeValues nodes).any fun node => matchesMetrics F nodeType entityIdPattern metrics node
  | .signal signal entityIdPattern op target valueType =>
    matchesSignals F signal entityIdPattern op target valueType nodes
  | .any conditions => matchAny events edges nodes conditions
  | .all conditions => matchAll events edges nodes conditions

/-- The loop of `any`: stop at the first condition that matches. -/
def matchAny (events : List Event) (edges : List Edge) (nodes : HashMap String Node) :
    List (Condition F) → Bool
  | [] => false
  | condition :: conditions =>
    if matchConditionWithSnapshot events edges nodes condition then true
    else matchAny events edges nodes conditions

/-- The loop of `all`: stop at the first condition that fails. -/
def matchAll (events : List Event) (edges : List Edge) (nodes : HashMap String Node) :
    List (Condition F) → Bool
  | [] => true
  | condition :: conditions =>
    if !matchConditionWithSnapshot events edges nodes condition then false
    else matchAll events edges nodes conditions

end

/-- `match_all_conditions` on a graph. -/
def matchAllConditions (conditions : List (Condition F)) (events : List Event)
    (graph : StateGraph F) : Bool :=
  matchAll events graph.edges graph.nodes conditions

section Loops

variable (events : List Event) (edges : List Edge) (nodes : HashMap String Node)

@[simp] theorem matchAny_eq_any (conditions : List (Condition F)) :
    matchAny events edges nodes conditions =
      conditions.any (matchConditionWithSnapshot events edges nodes) := by
  induction conditions with
  | nil =>
    rfl
  | cons condition conditions ih =>
    simp only [matchAny, ih, List.any_cons]
    cases matchConditionWithSnapshot events edges nodes condition <;> rfl

@[simp] theorem matchAll_eq_all (conditions : List (Condition F)) :
    matchAll events edges nodes conditions =
      conditions.all (matchConditionWithSnapshot events edges nodes) := by
  induction conditions with
  | nil =>
    rfl
  | cons condition conditions ih =>
    simp only [matchAll, ih, List.all_cons]
    cases matchConditionWithSnapshot events edges nodes condition <;> rfl

theorem mem_nodeValues {nodes : HashMap String Node} {node : Node} :
    node ∈ nodeValues nodes ↔ ∃ id, nodes.lookup id = some node := by
  simp only [nodeValues, List.mem_map]
  constructor
  · rintro ⟨⟨id, node'⟩, hmem, rfl⟩
    exact ⟨id, AList.mem_lookup_iff.mpr hmem⟩
  · rintro ⟨id, hid⟩
    exact ⟨⟨id, node⟩, AList.mem_lookup_iff.mp hid, rfl⟩

theorem matchesSignals_iff {signal : String} {entityIdPattern : Option String}
    {op : ComparisonOp} {target : String} {valueType : ValueType} :
    matchesSignals F signal entityIdPattern op target valueType nodes = true ↔
      ∃ node ∈ nodeValues nodes, Text.startsWith node.id (signalPrefix signal) = true ∧
        matchesSignal F signal entityIdPattern op target valueType node = true := by
  unfold matchesSignals
  dsimp only
  split_ifs with hnone
  · simp only [false_iff, not_exists, not_and]
    rintro node hmem hstart _
    rw [List.isEmpty_iff, List.filter_eq_nil_iff] at hnone
    exact hnone node hmem hstart
  · simp only [List.any_reverse, List.any_eq_true, List.mem_mergeSort, List.mem_filter, and_assoc]

end Loops

section Monotonicity

structure Evidence where
  events : List Event
  edges : List Edge
  nodes : HashMap String Node

namespace Evidence

/-- Every event and every edge occurs in the other evidence, and every id leads
to the same node there. -/
structure Within (e e' : Evidence) : Prop where
  events : e.events ⊆ e'.events
  edges : e.edges ⊆ e'.edges
  nodes : ∀ id node, e.nodes.lookup id = some node → e'.nodes.lookup id = some node

theorem Within.nodeValues {e e' : Evidence} (h : e.Within e') :
    RuleMatcher.nodeValues e.nodes ⊆ RuleMatcher.nodeValues e'.nodes := by
  intro node hmem
  obtain ⟨id, hid⟩ := mem_nodeValues.mp hmem
  exact mem_nodeValues.mpr ⟨id, h.nodes id node hid⟩

def Satisfies (e : Evidence) (condition : Condition F) : Prop :=
  matchConditionWithSnapshot e.events e.edges e.nodes condition = true

end Evidence

theorem any_mono {α : Type} {p : α → Bool} {xs ys : List α} (h : xs ⊆ ys)
    (hxs : xs.any p = true) : ys.any p = true := by
  obtain ⟨x, hx, hp⟩ := List.any_eq_true.mp hxs
  exact List.any_eq_true.mpr ⟨x, h hx, hp⟩

mutual

/-- **More evidence never hides a match.** -/
theorem matchCondition_mono {e e' : Evidence} (h : e.Within e') :
    ∀ condition : Condition F, e.Satisfies condition → e'.Satisfies condition
  | .event .., hc => any_mono h.events hc
  | .graph .., hc => any_mono h.edges hc
  | .metric .., hc => any_mono h.nodeValues hc
  | .signal .., hc => by
    obtain ⟨node, hmem, hnode⟩ := (matchesSignals_iff e.nodes).mp hc
    exact (matchesSignals_iff e'.nodes).mpr ⟨node, h.nodeValues hmem, hnode⟩
  | .any conditions, hc => matchAny_mono h conditions hc
  | .all conditions, hc => matchAll_mono h conditions hc

theorem matchAny_mono {e e' : Evidence} (h : e.Within e') :
    ∀ conditions : List (Condition F),
      matchAny e.events e.edges e.nodes conditions = true →
        matchAny e'.events e'.edges e'.nodes conditions = true
  | [], hc => hc
  | condition :: conditions, hc => by
    have hhead := matchCondition_mono h condition
    have htail := matchAny_mono h conditions
    simp only [matchAny_eq_any, List.any_cons, Bool.or_eq_true] at hc htail ⊢
    exact hc.imp hhead htail

theorem matchAll_mono {e e' : Evidence} (h : e.Within e') :
    ∀ conditions : List (Condition F),
      matchAll e.events e.edges e.nodes conditions = true →
        matchAll e'.events e'.edges e'.nodes conditions = true
  | [], hc => hc
  | condition :: conditions, hc => by
    have hhead := matchCondition_mono h condition
    have htail := matchAll_mono h conditions
    simp only [matchAll_eq_all, List.all_cons, Bool.and_eq_true] at hc htail ⊢
    exact hc.imp hhead htail

end

end Monotonicity

end RuleMatcher

end ArkInfra
