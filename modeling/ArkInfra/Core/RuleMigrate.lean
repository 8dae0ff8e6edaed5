import ArkInfra.Core.RuleMatcher
import ArkInfra.Core.RuleYaml
import ArkInfra.Lib.Path

/-!
# The rule migration tool

`core/src/bin/rules-migrate.rs`: a rule file is rewritten so that its
conditions are in the new syntax.  The tool works on the YAML value of the
file, which it edits in place: it adds an id when the key is absent, replaces
legacy conditions that it supports, and leaves the others in place with three
marker keys.  The values may have tags.

The loader normalizes legacy conditions on its own (`RuleWire.normalize`).
`migrateRuleValue_preserves` says that the two agree: the rewritten value is
read as a rule with the same meaning.
-/

namespace ArkInfra

open Yaml RuleYaml

namespace RulesMigrate

inductive MigrateStatus where
  | migrated
  | partialMigration
  | unchanged
deriving DecidableEq, Repr

structure MigrateResult where
  status : MigrateStatus
  unsupportedOps : List String
deriving DecidableEq, Repr

def knownPacks : List String :=
  ["core", "nvidia", "ascend", "k8s", "legacy"]

/-- The first known pack that follows a component `rules`. -/
def inferPackFrom : List String → String
  | part :: next :: rest =>
    if part = "rules" ∧ next ∈ knownPacks then next else inferPackFrom (next :: rest)
  | _ => "legacy"

/-- The pack of a file by its path. -/
def inferPack (path : PathBuf) : String :=
  inferPackFrom (path.components.map Component.asStr)

section Tool

variable {T : Type}

mutual

/-- Whether the tool supports a condition, with what it does not support. -/
def supportsCondition : Value T → Bool × List String
  | .mapping entries =>
    match Mapping.lookup "type" entries with
    | none => (false, ["condition_missing_type"])
    | some type =>
      match type.asStr with
      | none => (false, ["condition_type_not_string"])
      | some ty =>
        if ty = "event" ∨ ty = "graph" ∨ ty = "metric" then (true, [])
        else if ty = "all" ∨ ty = "any" then supportsNested ty entries
        else (false, ["unsupported_type_" ++ ty])
  | .tag _ value => supportsCondition value
  | _ => (false, ["condition_not_mapping"])

/-- The list under the key `conditions` of a condition of the given type. -/
def supportsNested (ty : String) : List (Value T × Value T) → Bool × List String
  | [] => (false, [ty ++ "_missing_conditions"])
  | (key, value) :: entries =>
    if key.isKey "conditions" then supportsSequence ty value else supportsNested ty entries

def supportsSequence (ty : String) : Value T → Bool × List String
  | .sequence items => supportsConditions items
  | .tag _ value => supportsSequence ty value
  | _ => (false, [ty ++ "_missing_conditions"])

/-- Every condition of a list is checked, also after one that fails. -/
def supportsConditions : List (Value T) → Bool × List String
  | [] => (true, [])
  | item :: items =>
    let head := supportsCondition item
    let tail := supportsConditions items
    (head.1 && tail.1, head.2 ++ tail.2)

end

/-- Add an id when the key is absent. -/
def ensureRuleId (map : Mapping T) (pack : String) : Mapping T :=
  match Mapping.lookup "id" map with
  | some _ => map
  | none =>
    let scene := ((Mapping.lookup "scene" map).bind Value.asStr).getD "unknown_scene"
    Mapping.insert "id" (.string (pack ++ "." ++ scene)) map

structure Rewrite (T : Type) where
  newConditions : Value T
  notes : List String
  unsupported : List String

/-- The conditions of a legacy record in the new syntax, null when the tool does
not support them; nothing when the record has neither list. -/
def rewriteConditions (legacyMap : Mapping T) : Option (Rewrite T) :=
  let all := (Mapping.lookup "all" legacyMap).bind Value.asSequence
  let any := (Mapping.lookup "any" legacyMap).bind Value.asSequence
  match all, any with
  | some allSeq, none =>
    let supported := supportsConditions allSeq
    if supported.1 then some ⟨.sequence allSeq, [], supported.2⟩
    else
      some ⟨.null, ["legacy all-conditions contains unsupported condition"], supported.2⟩
  | none, some anySeq =>
    let supported := supportsConditions anySeq
    if supported.1 then
      let wrapper :=
        Mapping.insert "conditions" (.sequence anySeq)
          (Mapping.insert "type" (.string "any") [])
      some ⟨.sequence [.mapping wrapper], [], supported.2⟩
    else
      some ⟨.null, ["legacy any-conditions contains unsupported condition"], supported.2⟩
  | some _, some _ =>
    some ⟨.null, ["legacy conditions contains both all and any"], ["legacy_all_and_any"]⟩
  | none, none => none

def migrateMapping (pack : String) (map : Mapping T) : Mapping T × MigrateResult :=
  let map := ensureRuleId map pack
  match Mapping.lookup "conditions" map with
  | none => (map, ⟨.unchanged, []⟩)
  | some conditions =>
    match conditions.asMapping.bind rewriteConditions with
    | none => (map, ⟨.unchanged, []⟩)
    | some rewritten =>
      if rewritten.newConditions.isNull then
        let map := Mapping.insert "migration_incomplete" (.bool true) map
        let map := Mapping.insert "migration_notes"
          (.sequence (rewritten.notes.map Value.string)) map
        let map := Mapping.insert "migration_legacy_conditions" conditions map
        (map, ⟨.partialMigration, rewritten.unsupported⟩)
      else
        let map := Mapping.insert "conditions" rewritten.newConditions map
        let map := Mapping.insert "migration_incomplete" (.bool false) map
        let map := Mapping.insert "migration_notes"
          (.sequence [.string
            "migrated legacy conditions (all/any) to normalized syntax"]) map
        (map, ⟨.migrated, rewritten.unsupported⟩)

/-- Rewrite the value of a rule file in place: the value after the call, and what
the call returns. -/
def migrateRuleValue (path : PathBuf) (value : Value T) :
    Value T × Except String MigrateResult :=
  match value.updateMapping (migrateMapping (inferPack path)) with
  | none => (value, .error "rule must be YAML mapping")
  | some (value', result) => (value', .ok result)

def touchedKeys : List String :=
  ["id", "conditions", "migration_incomplete", "migration_notes", "migration_legacy_conditions"]

/-- What a call makes of entries that have an id. -/
inductive MigrationOf (map : Mapping T) : Mapping T × MigrateResult → Prop
  | unchanged
      (hnone : (Mapping.lookup "conditions" map).bind
        (fun conditions => conditions.asMapping.bind rewriteConditions) = none) :
      MigrationOf map (map, ⟨.unchanged, []⟩)
  | marked (conditions : Value T) (rewritten : Rewrite T)
      (hc : Mapping.lookup "conditions" map = some conditions)
      (hrewrite : conditions.asMapping.bind rewriteConditions = some rewritten)
      (hnull : rewritten.newConditions.isNull = true) :
      MigrationOf map
        (Mapping.insert "migration_legacy_conditions" conditions
          (Mapping.insert "migration_notes" (.sequence (rewritten.notes.map Value.string))
            (Mapping.insert "migration_incomplete" (.bool true) map)),
          ⟨.partialMigration, rewritten.unsupported⟩)
  | migrated (conditions : Value T) (rewritten : Rewrite T)
      (hc : Mapping.lookup "conditions" map = some conditions)
      (hrewrite : conditions.asMapping.bind rewriteConditions = some rewritten)
      (hnull : rewritten.newConditions.isNull = false) :
      MigrationOf map
        (Mapping.insert "migration_notes"
          (.sequence [.string "migrated legacy conditions (all/any) to normalized syntax"])
          (Mapping.insert "migration_incomplete" (.bool false)
            (Mapping.insert "conditions" rewritten.newConditions map)),
          ⟨.migrated, rewritten.unsupported⟩)

/-- **What the tool does to the entries of a rule.** -/
theorem migrationOf_migrateMapping (pack : String) (map : Mapping T) :
    MigrationOf (ensureRuleId map pack) (migrateMapping pack map) := by
  unfold migrateMapping
  dsimp only
  cases hc : Mapping.lookup "conditions" (ensureRuleId map pack) with
  | none =>
    exact .unchanged (by rw [hc, Option.bind_none])
  | some conditions =>
    cases hrewrite : conditions.asMapping.bind rewriteConditions with
    | none =>
      simp only [hrewrite]
      exact .unchanged (by rw [hc, Option.bind_some, hrewrite])
    | some rewritten =>
      simp only [hrewrite]
      split_ifs with hnull
      · exact .marked conditions rewritten hc hrewrite hnull
      · exact .migrated conditions rewritten hc hrewrite (by simpa using hnull)

end Tool

section Effect

/-- The id the tool writes when there is none. -/
def inferredId (path : PathBuf) (map : Mapping Empty) : String :=
  inferPack path ++ "." ++ ((Mapping.lookup "scene" map).bind Value.asStr).getD "unknown_scene"

def migrateConditions (conditions : Plain) : Plain :=
  match conditions.asMapping.bind rewriteConditions with
  | none => conditions
  | some rewritten =>
    if rewritten.newConditions.isNull then conditions else rewritten.newConditions

/-- The value of the condition that the tool writes for `any`. -/
def anyWrapper (items : List Plain) : Plain :=
  .mapping
    (Mapping.insert "conditions" (.sequence items) (Mapping.insert "type" (.string "any") []))

/-- What the tool does to conditions: it keeps them, or replaces a record in which
exactly one of the keys has a list, all of it supported. -/
inductive MigratesConditions : Plain → Plain → Prop
  | kept (value : Plain) : MigratesConditions value value
  | all {map : Mapping Empty} {items : List Plain}
      (hall : Mapping.lookup "all" map = some (.sequence items))
      (hany : (Mapping.lookup "any" map).bind Value.asSequence = none)
      (hsupported : (supportsConditions items).1 = true) :
      MigratesConditions (.mapping map) (.sequence items)
  | any {map : Mapping Empty} {items : List Plain}
      (hany : Mapping.lookup "any" map = some (.sequence items))
      (hall : (Mapping.lookup "all" map).bind Value.asSequence = none)
      (hsupported : (supportsConditions items).1 = true) :
      MigratesConditions (.mapping map) (.sequence [anyWrapper items])

theorem lookup_of_asSequence {map : Mapping Empty} {key : String} {items : List Plain}
    (h : (Mapping.lookup key map).bind Value.asSequence = some items) :
    Mapping.lookup key map = some (.sequence items) := by
  obtain ⟨value, hlookup, hvalue⟩ := Option.bind_eq_some_iff.mp h
  rw [hlookup, Value.eq_sequence_of_asSequence hvalue]

theorem migratesConditions (value : Plain) :
    MigratesConditions value (migrateConditions value) := by
  unfold migrateConditions
  cases hmapping : value.asMapping with
  | none =>
    exact .kept _
  | some map =>
    rw [Value.eq_mapping_of_asMapping hmapping, Option.bind_some]
    unfold rewriteConditions
    dsimp only
    cases hall : (Mapping.lookup "all" map).bind Value.asSequence with
    | some items =>
      cases hany : (Mapping.lookup "any" map).bind Value.asSequence with
      | some items' =>
        exact .kept _
      | none =>
        dsimp only
        split_ifs with hsupported
        · exact .all (lookup_of_asSequence hall) hany hsupported
        · exact .kept _
    | none =>
      cases hany : (Mapping.lookup "any" map).bind Value.asSequence with
      | some items =>
        dsimp only
        split_ifs with hsupported
        · exact .any (lookup_of_asSequence hany) hall hsupported
        · exact .kept _
      | none =>
        exact .kept _

/-- What the tool does to a mapping, key by key. -/
structure Migrates (path : PathBuf) (map map' : Mapping Empty) : Prop where
  id : Mapping.lookup "id" map' =
    some ((Mapping.lookup "id" map).getD (.string (inferredId path map)))
  conditions : Mapping.lookup "conditions" map' =
    (Mapping.lookup "conditions" map).map migrateConditions
  others : ∀ key, key ∉ touchedKeys → Mapping.lookup key map' = Mapping.lookup key map

theorem lookup_ensureRuleId (path : PathBuf) (map : Mapping Empty) (key : String) :
    Mapping.lookup key (ensureRuleId map (inferPack path)) =
      if key = "id" then some ((Mapping.lookup "id" map).getD (.string (inferredId path map)))
      else Mapping.lookup key map := by
  unfold ensureRuleId
  cases hid : Mapping.lookup "id" map with
  | some value =>
    by_cases hkey : key = "id"
    · subst hkey
      simp [hid]
    · simp [hkey]
  | none =>
    simp only [Mapping.lookup_insert]
    rfl

theorem lookup_ensureRuleId_of_ne (path : PathBuf) (map : Mapping Empty) {key : String}
    (hkey : key ≠ "id") :
    Mapping.lookup key (ensureRuleId map (inferPack path)) = Mapping.lookup key map := by
  rw [lookup_ensureRuleId, if_neg hkey]

/-- **The effect of the tool.**  Every mapping is rewritten. -/
theorem exists_migrates (path : PathBuf) (map : Mapping Empty) :
    ∃ map' result, migrateRuleValue path (.mapping map) = (.mapping map', .ok result) ∧
      Migrates path map map' := by
  refine ⟨_, _, rfl, ?_⟩
  have hid := lookup_ensureRuleId path map "id"
  have hcond := lookup_ensureRuleId_of_ne path map (show "conditions" ≠ "id" by decide)
  have hothers : ∀ key, key ∉ touchedKeys →
      Mapping.lookup key (ensureRuleId map (inferPack path)) = Mapping.lookup key map := by
    intro key hkey
    apply lookup_ensureRuleId_of_ne
    rintro rfl
    exact hkey (by decide)
  have hcall := migrationOf_migrateMapping (inferPack path) map
  generalize migrateMapping (inferPack path) map = called at hcall
  rw [if_pos rfl] at hid
  cases hcall with
  | unchanged hnone =>
    refine ⟨hid, ?_, hothers⟩
    rw [hcond] at hnone ⊢
    cases hc : Mapping.lookup "conditions" map with
    | none => rfl
    | some conditions =>
      rw [hc, Option.bind_some] at hnone
      simp [migrateConditions, hnone]
  | marked conditions rewritten hc hrewrite hnull =>
    rw [hcond] at hc
    refine ⟨?_, ?_, ?_⟩
    · simp [Mapping.lookup_insert, hid]
    · simp [Mapping.lookup_insert, hcond, hc, migrateConditions, hrewrite, hnull]
    · intro key hkey
      rw [← hothers key hkey]
      simp only [touchedKeys, List.mem_cons, not_or] at hkey
      simp [Mapping.lookup_insert, hkey]
  | migrated conditions rewritten hc hrewrite hnull =>
    rw [hcond] at hc
    refine ⟨?_, ?_, ?_⟩
    · simp [Mapping.lookup_insert, hid]
    · simp [Mapping.lookup_insert, hc, migrateConditions, hrewrite, hnull]
    · intro key hkey
      rw [← hothers key hkey]
      simp only [touchedKeys, List.mem_cons, not_or] at hkey
      simp [Mapping.lookup_insert, hkey]

end Effect

section Meaning

variable {F : Type}

/-- Two rules say the same: all fields but the id and the conditions are equal,
an id is kept, and the conditions match on the same evidence. -/
structure SameMeaning [FloatCompare F] (rule rule' : Rule F) : Prop where
  fields : { rule' with id := rule.id, conditions := rule.conditions } = rule
  id : ∀ id, rule.id = some id → rule'.id = some id
  conditions : ∀ events edges nodes,
    RuleMatcher.matchAll events edges nodes rule'.conditions =
      RuleMatcher.matchAll events edges nodes rule.conditions

section Decode

variable [FloatArith F]

theorem readFields_congr {entries entries' : List (Plain × Doc)}
    (h : ∀ key, key ∉ touchedKeys → Mapping.lookup key entries' = Mapping.lookup key entries)
    (id : Option String) (conditions : ConditionsWire F) :
    readFields entries' id conditions = readFields entries id conditions := by
  unfold readFields
  rw [h "name" (by decide), h "scene" (by decide), h "priority" (by decide),
    h "reason_codes" (by decide), h "root_cause_pattern" (by decide),
    h "solution_steps" (by decide), h "related_evidences" (by decide),
    h "applicability" (by decide)]

theorem readFields_eq_map (entries : List (Plain × Doc)) (id id' : Option String)
    (conditions conditions' : ConditionsWire F) :
    readFields entries id' conditions' =
      (readFields entries id conditions).map
        fun wire => { wire with id := id', conditions := conditions' } := by
  simp only [readFields, Option.map_bind, Option.bind_eq_bind, Function.comp_def]
  rfl

theorem id_conditions_of_readFields {entries : List (Plain × Doc)} {id : Option String}
    {conditions : ConditionsWire F} {wire : RuleWire F}
    (h : readFields entries id conditions = some wire) :
    wire.id = id ∧ wire.conditions = conditions := by
  rw [readFields_eq_map entries id id conditions conditions, Option.map_eq_some_iff] at h
  obtain ⟨_, _, rfl⟩ := h
  exact ⟨rfl, rfl⟩

/-- The id that the loader finds in a document. -/
def readId (entries : List (Plain × Doc)) : Option (Option String) :=
  optional Doc.isNull Doc.text (Mapping.lookup "id" entries)

theorem decode_mapping (entries : List (Plain × Doc)) :
    (RuleWire.decode (.mapping entries) : Option (RuleWire F)) =
      (readId entries).bind fun id =>
        ((Mapping.lookup "conditions" (Doc.toEntries entries)).bind readConditionsWire).bind
          fun conditions => readFields entries id conditions := by
  have hconditions : (Mapping.lookup "conditions" (Doc.toEntries entries)).bind
      (readConditionsWire : Plain → Option (ConditionsWire F)) =
        (Mapping.lookup "conditions" entries).bind (resolved readConditionsWire) := by
    rw [Doc.lookup_toEntries, Option.bind_map]
    rfl
  rw [hconditions]
  rfl

theorem exists_of_decode {doc : Doc} {wire : RuleWire F} (h : RuleWire.decode doc = some wire) :
    ∃ entries conditions, doc = .mapping entries ∧ readId entries = some wire.id ∧
      Mapping.lookup "conditions" (Doc.toEntries entries) = some conditions ∧
      readConditionsWire conditions = some wire.conditions ∧
      readFields entries wire.id wire.conditions = some wire := by
  cases doc with
  | mapping entries =>
    rw [decode_mapping] at h
    obtain ⟨id, hid, h⟩ := Option.bind_eq_some_iff.mp h
    obtain ⟨conditions, hconditions, h⟩ := Option.bind_eq_some_iff.mp h
    obtain ⟨value, hvalue, hread⟩ := Option.bind_eq_some_iff.mp hconditions
    obtain ⟨rfl, rfl⟩ := id_conditions_of_readFields h
    exact ⟨entries, value, rfl, hid, hvalue, hread, h⟩
  | _ =>
    cases h

theorem Migrates.others_ofEntries {path : PathBuf} {map map' : Mapping Empty}
    (h : Migrates path map map') {key : String} (hkey : key ∉ touchedKeys) :
    Mapping.lookup key (Doc.ofEntries map') = Mapping.lookup key (Doc.ofEntries map) := by
  rw [Doc.lookup_ofEntries, h.others key hkey, Doc.lookup_ofEntries]

theorem decode_of_migrates {path : PathBuf} {map map' : Mapping Empty} (h : Migrates path map map')
    {id id' : Option String} {conditions conditions' : ConditionsWire F} {wire : RuleWire F}
    (hid : readId (Doc.ofEntries map') = some id')
    (hconditions : (Mapping.lookup "conditions" map').bind readConditionsWire =
      some conditions')
    (hwire : readFields (Doc.ofEntries map) id conditions = some wire) :
    RuleWire.decode (.ofValue (.mapping map')) =
      some { wire with id := id', conditions := conditions' } := by
  rw [Doc.ofValue, decode_mapping, hid, Doc.toEntries_ofEntries, hconditions, Option.bind_some,
    Option.bind_some, readFields_congr fun _ => h.others_ofEntries,
    readFields_eq_map _ id id' conditions conditions', hwire]
  rfl

/-- The id after the migration: the one that is written for the value of the id, or
the one of the tool. -/
theorem readId_of_migrates {path : PathBuf} {map map' : Mapping Empty}
    (h : Migrates path map map') :
    readId (Doc.ofEntries map') =
      if (Mapping.lookup "id" map).isSome then readId (Doc.ofEntries map)
      else some (some (inferredId path map)) := by
  rw [readId, readId, Doc.lookup_ofEntries, Doc.lookup_ofEntries, h.id]
  cases Mapping.lookup "id" map with
  | some value => rfl
  | none => rfl

/-- The conditions that the loader takes from a value. -/
def conditionsOf (value : Plain) : Option (List (Condition F)) :=
  (readConditionsWire value).bind fun wire => (wire.normalize.toOption).map Prod.fst

theorem conditionsOf_eq_some_iff {value : Plain} {conditions : List (Condition F)} :
    conditionsOf value = some conditions ↔
      ∃ wire status, readConditionsWire value = some wire ∧
        wire.normalize = .ok (conditions, status) := by
  unfold conditionsOf
  rw [Option.bind_eq_some_iff]
  constructor
  · rintro ⟨wire, hread, hnormal⟩
    obtain ⟨result, hresult, rfl⟩ := Option.map_eq_some_iff.mp hnormal
    exact ⟨wire, result.2, hread, toOption_eq_some_iff.mp hresult⟩
  · rintro ⟨wire, status, hread, hnormal⟩
    exact ⟨wire, hread, by rw [hnormal]; rfl⟩

theorem conditionsOf_sequence (items : List Plain) :
    (conditionsOf (.sequence items) : Option (List (Condition F))) = readConditions items := by
  unfold conditionsOf readConditionsWire readConditionList
  simp only [Value.asSequence, Option.bind_some]
  cases (readConditions items : Option (List (Condition F))) <;> rfl

theorem readConditionsWire_mapping (map : Mapping Empty) :
    (readConditionsWire (.mapping map) : Option (ConditionsWire F)) =
      (optional Value.isNull readConditionList (Mapping.lookup "all" map)).bind fun all =>
        (optional Value.isNull readConditionList (Mapping.lookup "any" map)).bind fun any =>
          some (.legacy all any) := by
  rfl

theorem conditionsOf_anyWrapper (items : List Plain) :
    (conditionsOf (.sequence [anyWrapper items]) : Option (List (Condition F))) =
      (readConditions items).map fun conditions => [.any conditions] := by
  rw [conditionsOf_sequence]
  change ((readConditions items).map Condition.any).bind _ = _
  cases (readConditions items : Option (List (Condition F))) <;> rfl

end Decode

variable [FloatCompare F]

theorem matchAll_singleton_all (events : List Event) (edges : List Edge)
    (nodes : HashMap String Node) (conditions : List (Condition F)) :
    RuleMatcher.matchAll events edges nodes [.all conditions] =
      RuleMatcher.matchAll events edges nodes conditions := by
  simp only [RuleMatcher.matchAll_eq_all, List.all_cons, List.all_nil, Bool.and_true,
    RuleMatcher.matchConditionWithSnapshot]

theorem exists_lists_of_conditionsOf {map : Mapping Empty} {conditions : List (Condition F)}
    (h : conditionsOf (.mapping map) = some conditions) :
    ∃ all any, optional Value.isNull readConditionList (Mapping.lookup "all" map) = some all ∧
      optional Value.isNull readConditionList (Mapping.lookup "any" map) = some any ∧
        ((ConditionsWire.legacy all any).normalize.toOption).map Prod.fst = some conditions := by
  rw [conditionsOf, readConditionsWire_mapping] at h
  obtain ⟨wire, hwire, hnormal⟩ := Option.bind_eq_some_iff.mp h
  obtain ⟨all, hall, hwire⟩ := Option.bind_eq_some_iff.mp hwire
  obtain ⟨any, hany, hwire⟩ := Option.bind_eq_some_iff.mp hwire
  obtain rfl := Option.some.inj hwire
  exact ⟨all, any, hall, hany, hnormal⟩

theorem exists_of_readConditionList {items : List Plain} {list : Option (List (Condition F))}
    (h : optional Value.isNull readConditionList (some (.sequence items)) = some list) :
    ∃ inner, readConditions items = some inner ∧ list = some inner := by
  obtain ⟨inner, hinner, hlist⟩ := Option.map_eq_some_iff.mp h
  exact ⟨inner, hinner, hlist.symm⟩

theorem conditionsOf_all {map : Mapping Empty} {items : List Plain}
    (hall : Mapping.lookup "all" map = some (.sequence items))
    {conditions : List (Condition F)} (h : conditionsOf (.mapping map) = some conditions) :
    ∃ inner, readConditions items = some inner ∧ conditions = [.all inner] := by
  obtain ⟨all, any, hlist, _, hnormal⟩ := exists_lists_of_conditionsOf h
  rw [hall] at hlist
  obtain ⟨inner, hinner, rfl⟩ := exists_of_readConditionList hlist
  cases any with
  | some _ =>
    cases hnormal
  | none =>
    obtain rfl := Option.some.inj hnormal
    exact ⟨inner, hinner, rfl⟩

theorem conditionsOf_any {map : Mapping Empty} {items : List Plain}
    (hany : Mapping.lookup "any" map = some (.sequence items))
    {conditions : List (Condition F)} (h : conditionsOf (.mapping map) = some conditions) :
    ∃ inner, readConditions items = some inner ∧ conditions = [.any inner] := by
  obtain ⟨all, any, _, hlist, hnormal⟩ := exists_lists_of_conditionsOf h
  rw [hany] at hlist
  obtain ⟨inner, hinner, rfl⟩ := exists_of_readConditionList hlist
  cases all with
  | some _ =>
    cases hnormal
  | none =>
    obtain rfl := Option.some.inj hnormal
    exact ⟨inner, hinner, rfl⟩

/-- **The conditions keep their meaning.** -/
theorem conditionsOf_migrated {value value' : Plain} (hmigrates : MigratesConditions value value')
    {conditions : List (Condition F)} (h : conditionsOf value = some conditions) :
    ∃ conditions' : List (Condition F), conditionsOf value' = some conditions' ∧
      ∀ events edges nodes, RuleMatcher.matchAll events edges nodes conditions' =
        RuleMatcher.matchAll events edges nodes conditions := by
  cases hmigrates with
  | kept =>
    exact ⟨conditions, h, fun _ _ _ => rfl⟩
  | all hall _ _ =>
    obtain ⟨inner, hinner, rfl⟩ := conditionsOf_all hall h
    refine ⟨inner, by rw [conditionsOf_sequence, hinner], ?_⟩
    intro events edges nodes
    exact (matchAll_singleton_all events edges nodes inner).symm
  | any hany _ _ =>
    obtain ⟨inner, hinner, rfl⟩ := conditionsOf_any hany h
    exact ⟨[.any inner], by rw [conditionsOf_anyWrapper, hinner]; rfl, fun _ _ _ => rfl⟩

/-- **Migration preserves meaning.**  A value that the loader reads as a rule is
rewritten, and the loader reads the new value as a rule that says the same. -/
theorem migrateRuleValue_preserves (path : PathBuf) {value : Plain} {wire : RuleWire F}
    {rule : Rule F} {status : LegacySyntaxStatus}
    (hdecode : RuleWire.decode (.ofValue value) = some wire)
    (hnormalize : wire.normalize = .ok (rule, status)) :
    ∃ value' result wire' rule' status',
      migrateRuleValue path value = (value', .ok result) ∧
      RuleWire.decode (.ofValue value') = some wire' ∧ wire'.normalize = .ok (rule', status') ∧
      SameMeaning rule rule' := by
  obtain ⟨entries, cvalue, hdoc, hid, hcvalue, hcread, hfields⟩ := exists_of_decode hdecode
  -- the document of a value is a mapping when the value is one
  obtain ⟨map, rfl, rfl⟩ : ∃ map, value = .mapping map ∧ entries = Doc.ofEntries map := by
    have hmapping := Doc.asMapping_ofValue value
    rw [hdoc] at hmapping
    obtain ⟨map, hmap, hentries⟩ := Option.map_eq_some_iff.mp hmapping.symm
    exact ⟨map, Value.eq_mapping_of_asMapping hmap, hentries.symm⟩
  rw [Doc.toEntries_ofEntries] at hcvalue
  obtain ⟨map', result, hmigrate, heffect⟩ := exists_migrates path map
  -- the conditions of the rule are what the loader takes from their value
  obtain ⟨conditions, hcnormal, rfl⟩ := RuleWire.normalize_eq_ok_iff.mp hnormalize
  have hof : conditionsOf cvalue = some conditions :=
    conditionsOf_eq_some_iff.mpr ⟨_, _, hcread, hcnormal⟩
  obtain ⟨conditions', hof', hmatch⟩ := conditionsOf_migrated (migratesConditions cvalue) hof
  obtain ⟨cwire', status', hcread', hcnormal'⟩ := conditionsOf_eq_some_iff.mp hof'
  have hconditions' : (Mapping.lookup "conditions" map').bind readConditionsWire =
      some cwire' := by
    rw [heffect.conditions, hcvalue]
    exact hcread'
  obtain ⟨id', hid', hkept⟩ : ∃ id', readId (Doc.ofEntries map') = some id' ∧
      ∀ id, wire.id = some id → id' = some id := by
    rw [readId_of_migrates heffect]
    cases hlookup : Mapping.lookup "id" map with
    | some value =>
      exact ⟨wire.id, hid, fun _ h => h⟩
    | none =>
      -- without the key there is no id
      refine ⟨_, rfl, fun id hsome => ?_⟩
      rw [readId, Doc.lookup_ofEntries, hlookup, hsome] at hid
      cases hid
  exact ⟨_, result, _, _, status', hmigrate, decode_of_migrates heffect hid' hconditions' hfields,
    RuleWire.normalize_eq_ok_iff.mpr ⟨conditions', hcnormal', rfl⟩, rfl, hkept, hmatch⟩

/-- A rule file with the given conditions and without an id. -/
def sampleFile (conditions : Plain) : Plain :=
  .mapping
    [(.string "name", .string "legacy"),
      (.string "scene", .string "legacy_scene"),
      (.string "priority", .number "1"),
      (.string "conditions", conditions),
      (.string "root_cause_pattern", .mapping [(.string "primary", .string "x")]),
      (.string "solution_steps", .sequence [.mapping
        [(.string "step", .number "1"), (.string "action", .string "noop")]]),
      (.string "related_evidences", .sequence [.string "transport.drop"]),
      (.string "applicability", .mapping [(.string "min_confidence", .number "0.5")])]

/-- Legacy conditions: a drop, or an edge and a node together. -/
def sampleLegacyConditions : Plain :=
  .mapping [(.string "any", .sequence
    [.mapping [(.string "type", .string "event"),
        (.string "event_type", .string "transport.drop"),
        (.string "value_threshold", .number "10")],
      .mapping [(.string "type", .string "all"), (.string "conditions", .sequence
        [.mapping [(.string "type", .string "graph"), (.string "edge_type", .string "waits_on")],
          .mapping [(.string "type", .string "metric"), (.string "metrics", .sequence [])]])]])]

/-- The nested legacy rule is migrated. -/
theorem migrateRuleValue_preserves_nestedAny :
    ∃ (wire : RuleWire Binary64) (rule : Rule Binary64) (status : LegacySyntaxStatus)
      (value' : Plain) (result : MigrateResult) (wire' : RuleWire Binary64)
      (rule' : Rule Binary64) (status' : LegacySyntaxStatus),
      RuleWire.decode (.ofValue (sampleFile sampleLegacyConditions)) = some wire ∧
      wire.normalize = .ok (rule, status) ∧
      migrateRuleValue (.ofText "rules/legacy/test.yaml") (sampleFile sampleLegacyConditions) =
        (value', .ok result) ∧
      RuleWire.decode (.ofValue value') = some wire' ∧ wire'.normalize = .ok (rule', status') ∧
      SameMeaning rule rule' := by
  have hloads : ((RuleWire.decode (.ofValue (sampleFile sampleLegacyConditions)) :
      Option (RuleWire Binary64)).bind fun wire => wire.normalize.toOption).isSome = true := by
    decide +kernel
  obtain ⟨⟨rule, status⟩, hrule⟩ := Option.isSome_iff_exists.mp hloads
  obtain ⟨wire, hwire, hnormal⟩ := Option.bind_eq_some_iff.mp hrule
  have hok : wire.normalize = .ok (rule, status) := toOption_eq_some_iff.mp hnormal
  obtain ⟨value', result, wire', rule', status', h⟩ :=
    migrateRuleValue_preserves (.ofText "rules/legacy/test.yaml") hwire hok
  exact ⟨wire, rule, status, value', result, wire', rule', status', hwire, hok, h⟩

end Meaning

end RulesMigrate

end ArkInfra
