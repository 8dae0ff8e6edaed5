import ArkInfra.Core.Rule
import ArkInfra.Lib.YamlDoc

/-!
# Rules in YAML

The decoding that `serde` derives for `RuleWire`, from a document.  A struct is
read from a mapping: unknown keys are ignored, an absent or null optional field
is `None`, and a field with a default may be absent.  A string field takes the
text of any scalar as it stands in the document, all other fields take what it
resolves to.

The conditions are an untagged enumeration: the value is buffered with its
scalars resolved, so that a string there must be a string, and read as a list
of conditions or else as a record with the optional keys `all` and `any`.  A
condition is tagged by its key `type`.

So the texts of a document decide about the strings of a rule, but not about
whether it can be read (`isSome_readFields_rewritten`).
-/

namespace ArkInfra

open Yaml

namespace RuleYaml

section Fields

/-- An optional field: absent, null, or a value. -/
def optional {V α : Type} (isNull : V → Bool) (read : V → Option α) :
    Option V → Option (Option α)
  | none => some none
  | some value => if isNull value then some none else (read value).map some

/-- A field with a default, which only its absence gives. -/
def withDefault {V α : Type} (default : α) (read : V → Option α) : Option V → Option α
  | none => some default
  | some value => read value

def stringList (doc : Doc) : Option (List String) :=
  doc.asSequence.bind fun items => items.mapM Doc.text

/-- A field that takes what its scalars resolve to. -/
def resolved {α : Type} (read : Plain → Option α) (doc : Doc) : Option α :=
  read doc.toValue

def readBool : Plain → Option Bool
  | .bool b => some b
  | _ => none

def readU32 : Plain → Option Nat
  | .number text => Text.parseUnsigned (2 ^ 32) text
  | _ => none

def readF64 {F : Type} [FloatArith F] : Plain → Option F
  | .number text => FloatArith.parse text
  | _ => none

end Fields

section Conditions

def readComparisonOp (value : Plain) : Option ComparisonOp := do
  match ← value.asStr with
  | "gt" => some .gt
  | "lt" => some .lt
  | "eq" => some .eq
  | "gte" => some .gte
  | "lte" => some .lte
  | "ne" => some .ne
  | "contains" => some .contains
  | _ => none

def readValueType (value : Plain) : Option ValueType := do
  match ← value.asStr with
  | "numeric" => some .numeric
  | "string" => some .string
  | "auto" => some .auto
  | _ => none

def readMetricCondition (value : Plain) : Option MetricCondition := do
  let entries ← value.asMapping
  let key ← (Mapping.lookup "key" entries).bind Value.asStr
  let op ← (Mapping.lookup "op" entries).bind readComparisonOp
  let target ← (Mapping.lookup "target" entries).bind Value.asStr
  let valueType ← withDefault defaultValueType readValueType (Mapping.lookup "value_type" entries)
  return { key := key, op := op, target := target, valueType := valueType }

variable {F : Type} [FloatArith F]

/-- The conditions without conditions inside. -/
def readLeaf (type : String) (entries : Mapping Empty) : Option (Condition F) :=
  match type with
  | "event" => do
      let eventType ← (Mapping.lookup "event_type" entries).bind Value.asStr
      let entityIdPattern ←
        optional Value.isNull Value.asStr (Mapping.lookup "entity_id_pattern" entries)
      let valuePattern ← optional Value.isNull Value.asStr (Mapping.lookup "value_pattern" entries)
      let valueThreshold ← optional Value.isNull readF64 (Mapping.lookup "value_threshold" entries)
      return .event eventType entityIdPattern valuePattern valueThreshold
  | "graph" => do
      let edgeType ← (Mapping.lookup "edge_type" entries).bind Value.asStr
      let fromPattern ← optional Value.isNull Value.asStr (Mapping.lookup "from_pattern" entries)
      let toPattern ← optional Value.isNull Value.asStr (Mapping.lookup "to_pattern" entries)
      return .graph edgeType fromPattern toPattern
  | "metric" => do
      let nodeType ← optional Value.isNull Value.asStr (Mapping.lookup "node_type" entries)
      let entityIdPattern ←
        optional Value.isNull Value.asStr (Mapping.lookup "entity_id_pattern" entries)
      let items ← (Mapping.lookup "metrics" entries).bind Value.asSequence
      let metrics ← items.mapM readMetricCondition
      return .metric nodeType entityIdPattern metrics
  | "signal" => do
      let signal ← (Mapping.lookup "signal" entries).bind Value.asStr
      let entityIdPattern ←
        optional Value.isNull Value.asStr (Mapping.lookup "entity_id_pattern" entries)
      let op ← (Mapping.lookup "op" entries).bind readComparisonOp
      let target ← (Mapping.lookup "target" entries).bind Value.asStr
      let valueType ←
        withDefault defaultValueType readValueType (Mapping.lookup "value_type" entries)
      return .signal signal entityIdPattern op target valueType
  | _ => none

mutual

/-- A condition, tagged by its `type`. -/
def readCondition : Plain → Option (Condition F)
  | .mapping entries =>
    match (Mapping.lookup "type" entries).bind Value.asStr with
    | some "any" => (readNested entries).map Condition.any
    | some "all" => (readNested entries).map Condition.all
    | some type => readLeaf type entries
    | none => none
  | _ => none

/-- The list under the key `conditions`. -/
def readNested : List (Plain × Plain) → Option (List (Condition F))
  | [] => none
  | (key, value) :: entries =>
    if key.isKey "conditions" then
      match value with
      | .sequence items => readConditions items
      | _ => none
    else
      readNested entries

def readConditions : List Plain → Option (List (Condition F))
  | [] => some []
  | item :: items => do
      let condition ← readCondition item
      let conditions ← readConditions items
      return condition :: conditions

end

def readConditionList (value : Plain) : Option (List (Condition F)) :=
  value.asSequence.bind readConditions

/-- The conditions of a rule: a list, or the record of the legacy syntax. -/
def readConditionsWire (value : Plain) : Option (ConditionsWire F) :=
  match readConditionList value with
  | some conditions => some (.new conditions)
  | none => do
      let entries ← value.asMapping
      let all ← optional Value.isNull readConditionList (Mapping.lookup "all" entries)
      let any ← optional Value.isNull readConditionList (Mapping.lookup "any" entries)
      return .legacy all any

end Conditions

section Rules

def readRootCausePattern (doc : Doc) : Option RootCausePattern := do
  let entries ← doc.asMapping
  let primary ← (Mapping.lookup "primary" entries).bind Doc.text
  let secondary ← optional Doc.isNull stringList (Mapping.lookup "secondary" entries)
  return { primary := primary, secondary := secondary }

def readSolutionStep (doc : Doc) : Option SolutionStep := do
  let entries ← doc.asMapping
  let step ← (Mapping.lookup "step" entries).bind (resolved readU32)
  let action ← (Mapping.lookup "action" entries).bind Doc.text
  let command ← optional Doc.isNull Doc.text (Mapping.lookup "command" entries)
  let manual ← withDefault false (resolved readBool) (Mapping.lookup "manual" entries)
  return { step := step, action := action, command := command, manual := manual }

def readSolutionSteps (doc : Doc) : Option (List SolutionStep) :=
  doc.asSequence.bind fun items => items.mapM readSolutionStep

variable {F : Type} [FloatArith F]

def readApplicability (doc : Doc) : Option (Applicability F) := do
  let entries ← doc.asMapping
  let minConfidence ←
    withDefault defaultMinConfidence (resolved readF64) (Mapping.lookup "min_confidence" entries)
  let requiredEvents ← optional Doc.isNull stringList (Mapping.lookup "required_events" entries)
  return { minConfidence := minConfidence, requiredEvents := requiredEvents }

/-- The fields of a rule besides its id and its conditions, which are given. -/
def readFields (entries : List (Plain × Doc)) (id : Option String)
    (conditions : ConditionsWire F) : Option (RuleWire F) := do
  let name ← (Mapping.lookup "name" entries).bind Doc.text
  let scene ← (Mapping.lookup "scene" entries).bind Doc.text
  let priority ← (Mapping.lookup "priority" entries).bind (resolved readU32)
  let reasonCodes ← withDefault [] stringList (Mapping.lookup "reason_codes" entries)
  let rootCausePattern ←
    (Mapping.lookup "root_cause_pattern" entries).bind readRootCausePattern
  let solutionSteps ← (Mapping.lookup "solution_steps" entries).bind readSolutionSteps
  let relatedEvidences ← (Mapping.lookup "related_evidences" entries).bind stringList
  let applicability ← (Mapping.lookup "applicability" entries).bind readApplicability
  return {
    id := id
    name := name
    scene := scene
    priority := priority
    reasonCodes := reasonCodes
    conditions := conditions
    rootCausePattern := rootCausePattern
    solutionSteps := solutionSteps
    relatedEvidences := relatedEvidences
    applicability := applicability }

theorem fields_of_readFields {entries : List (Plain × Doc)} {id : Option String}
    {conditions : ConditionsWire F} {wire : RuleWire F}
    (h : readFields entries id conditions = some wire) :
    (Mapping.lookup "scene" entries).bind Doc.text = some wire.scene ∧
      (Mapping.lookup "priority" entries).bind (resolved readU32) = some wire.priority := by
  simp only [readFields, Option.bind_eq_bind, Option.bind_eq_some_iff, Option.pure_def,
    Option.some.injEq] at h
  obtain ⟨_, _, scene, hscene, priority, hpriority, _, _, _, _, _, _, _, _, _, _, rfl⟩ := h
  exact ⟨Option.bind_eq_some_iff.mpr hscene, Option.bind_eq_some_iff.mpr hpriority⟩

end Rules

section Rewritten

/-- Whether the reader succeeds does not depend on the texts of the scalars. -/
def ByValue {α : Type} (read : Doc → Option α) : Prop :=
  ∀ doc : Doc, (read doc.rewritten).isSome = (read doc).isSome

theorem byValue_text : ByValue Doc.text :=
  Doc.isSome_text_rewritten

theorem byValue_resolved {α : Type} (read : Plain → Option α) : ByValue (resolved read) := by
  intro doc
  rw [resolved, Doc.toValue_rewritten, resolved]

variable {α : Type} {read : Doc → Option α}

theorem ByValue.bind (h : ByValue read) (field : Option Doc) :
    ((field.map Doc.rewritten).bind read).isSome = (field.bind read).isSome := by
  cases field with
  | none => rfl
  | some doc => exact h doc

theorem ByValue.optional (h : ByValue read) (field : Option Doc) :
    (optional Doc.isNull read (field.map Doc.rewritten)).isSome =
      (optional Doc.isNull read field).isSome := by
  cases field with
  | none => rfl
  | some doc =>
    simp only [Option.map_some, RuleYaml.optional, Doc.isNull_rewritten]
    split_ifs
    · rfl
    · rw [Option.isSome_map, Option.isSome_map]
      exact h doc

theorem ByValue.withDefault (h : ByValue read) (default : α) (field : Option Doc) :
    (withDefault default read (field.map Doc.rewritten)).isSome =
      (withDefault default read field).isSome := by
  cases field with
  | none => rfl
  | some doc => exact h doc

theorem isSome_mapM_cons (item : Doc) (items : List Doc) :
    ((item :: items).mapM read).isSome = ((read item).isSome && (items.mapM read).isSome) := by
  rw [List.mapM_cons]
  cases read item with
  | none => rfl
  | some a => cases items.mapM read <;> rfl

theorem ByValue.mapM (h : ByValue read) (items : List Doc) :
    ((items.map Doc.rewritten).mapM read).isSome = (items.mapM read).isSome := by
  induction items with
  | nil => rfl
  | cons item items ih =>
    rw [List.map_cons, isSome_mapM_cons, isSome_mapM_cons, ih, h item]

theorem ByValue.sequence (h : ByValue read) :
    ByValue fun doc => doc.asSequence.bind fun items => items.mapM read := by
  intro doc
  simp only [Doc.asSequence_rewritten]
  cases doc.asSequence with
  | none => rfl
  | some items => exact h.mapM items

theorem ByValue.mapping {read : List (Plain × Doc) → Option α}
    (h : ∀ entries, (read (Doc.ofEntries (Doc.toEntries entries))).isSome =
      (read entries).isSome) : ByValue fun doc => doc.asMapping.bind read := by
  intro doc
  simp only [Doc.asMapping_rewritten]
  cases doc.asMapping with
  | none => rfl
  | some entries => exact h entries

theorem isSome_bind_congr {β : Type} {field field' : Option α} {rest rest' : α → Option β}
    (hfield : field'.isSome = field.isSome) (hrest : ∀ a a', (rest' a').isSome = (rest a).isSome) :
    (field'.bind rest').isSome = (field.bind rest).isSome := by
  cases field with
  | none =>
    rw [Option.isSome_none, Option.isSome_eq_false_iff, Option.isNone_iff_eq_none] at hfield
    rw [hfield]
    rfl
  | some a =>
    obtain ⟨a', rfl⟩ := Option.isSome_iff_exists.mp hfield
    exact hrest a a'

theorem byValue_stringList : ByValue stringList :=
  byValue_text.sequence

theorem byValue_readRootCausePattern : ByValue readRootCausePattern := by
  refine ByValue.mapping fun entries => ?_
  simp only [Option.bind_eq_bind, Doc.lookup_ofEntries_toEntries]
  refine isSome_bind_congr (byValue_text.bind _) fun _ _ => ?_
  refine isSome_bind_congr (byValue_stringList.optional _) fun _ _ => ?_
  rfl

theorem byValue_readSolutionStep : ByValue readSolutionStep := by
  refine ByValue.mapping fun entries => ?_
  simp only [Option.bind_eq_bind, Doc.lookup_ofEntries_toEntries]
  refine isSome_bind_congr ((byValue_resolved _).bind _) fun _ _ => ?_
  refine isSome_bind_congr (byValue_text.bind _) fun _ _ => ?_
  refine isSome_bind_congr (byValue_text.optional _) fun _ _ => ?_
  refine isSome_bind_congr ((byValue_resolved _).withDefault _ _) fun _ _ => ?_
  rfl

variable {F : Type} [FloatArith F]

theorem byValue_readApplicability :
    ByValue (readApplicability : Doc → Option (Applicability F)) := by
  refine ByValue.mapping fun entries => ?_
  simp only [Option.bind_eq_bind, Doc.lookup_ofEntries_toEntries]
  refine isSome_bind_congr ((byValue_resolved _).withDefault _ _) fun _ _ => ?_
  refine isSome_bind_congr (byValue_stringList.optional _) fun _ _ => ?_
  rfl

/-- **A rule that is written again can be read when it could be before.** -/
theorem isSome_readFields_rewritten (entries : List (Plain × Doc)) (id : Option String)
    (conditions : ConditionsWire F) :
    (readFields (Doc.ofEntries (Doc.toEntries entries)) id conditions).isSome =
      (readFields entries id conditions).isSome := by
  simp only [readFields, Option.bind_eq_bind, Doc.lookup_ofEntries_toEntries]
  refine isSome_bind_congr (byValue_text.bind _) fun _ _ => ?_
  refine isSome_bind_congr (byValue_text.bind _) fun _ _ => ?_
  refine isSome_bind_congr ((byValue_resolved _).bind _) fun _ _ => ?_
  refine isSome_bind_congr (byValue_stringList.withDefault _ _) fun _ _ => ?_
  refine isSome_bind_congr (byValue_readRootCausePattern.bind _) fun _ _ => ?_
  refine isSome_bind_congr (byValue_readSolutionStep.sequence.bind _) fun _ _ => ?_
  refine isSome_bind_congr (byValue_stringList.bind _) fun _ _ => ?_
  refine isSome_bind_congr (byValue_readApplicability.bind _) fun _ _ => ?_
  rfl

end Rewritten

end RuleYaml

open RuleYaml

/-- The derived decoding of a rule. -/
def RuleWire.decode {F : Type} [FloatArith F] (doc : Doc) : Option (RuleWire F) := do
  let entries ← doc.asMapping
  let id ← optional Doc.isNull Doc.text (Mapping.lookup "id" entries)
  let conditions ← (Mapping.lookup "conditions" entries).bind (resolved readConditionsWire)
  readFields entries id conditions

end ArkInfra
