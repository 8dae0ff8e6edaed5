import ArkInfra.Core.RuleMigrateRun

/-!
# The id of a migrated rule

The loader gives a rule without an id the one of its manifest pack and scene;
the migration tool writes an id of its own, from the path of the file and the
packs it knows.  An id that is in the file is written back with the text its value
is printed with, which need not be the text that the loader has read.  The tool
may also repair a file: conditions in which one of the keys `all` and `any` has a
list that it supports are replaced, whatever the other key has, while the loader
does not read them.

`idOfText_migrateText_iff` says exactly when the loader takes a document under
the same id before and after the migration.
-/

namespace ArkInfra

open Yaml RuleYaml

namespace RulesMigrate

open RuleLoad

section Text

variable (F : Type) [FloatCompare F]

/-- The rule of a document, as the loader reads it. -/
def ruleOfText (text : YamlText) : Option (Rule F) :=
  (text.bind RuleWire.decode).bind fun wire => wire.normalize.toOption.map Prod.fst

/-- The id under which the loader takes a document of the given pack. -/
def idOfText (pack : String) (text : YamlText) : Option String :=
  (ruleOfText F text).bind fun rule => finalId rule pack

/-- The scene of a rule in which all fields besides the id and the conditions can be
read. -/
def sceneOf (entries : List (Plain × Doc)) : Option String :=
  (readFields entries none (.new []) : Option (RuleWire F)).map fun wire => wire.scene

/-- The conditions of a mapping can be loaded. -/
def conditionsLoad (map : Mapping Empty) : Bool :=
  ((Mapping.lookup "conditions" map).bind
    (conditionsOf : Plain → Option (List (Condition F)))).isSome

/-- The id of a rule from the id in its file. -/
def finalIdOf (id : Option String) (pack scene : String) : Option String :=
  match id with
  | some id => if Text.trim id ≠ "" then some id else none
  | none => some (pack ++ "." ++ scene)

variable {F}

theorem ruleOfText_mapping (entries : List (Plain × Doc)) :
    ruleOfText F (some (.mapping entries)) =
      (readId entries).bind fun id =>
        ((Mapping.lookup "conditions" (Doc.toEntries entries)).bind conditionsOf).bind
          fun conditions => (readFields entries none (.new [])).map fun wire =>
            { wire.toRule conditions with id := id } := by
  rw [ruleOfText, Option.bind_some, decode_mapping]
  cases readId entries with
  | none =>
    rfl
  | some id =>
    cases Mapping.lookup "conditions" (Doc.toEntries entries) with
    | none =>
      rfl
    | some value =>
      simp only [Option.bind_some, conditionsOf]
      cases (readConditionsWire value : Option (ConditionsWire F)) with
      | none =>
        rfl
      | some conditions =>
        simp only [Option.bind_some, readFields_eq_map entries none id (.new []) conditions]
        cases (readFields entries none (.new []) : Option (RuleWire F)) with
        | none =>
          cases conditions.normalize <;> rfl
        | some wire =>
          simp only [Option.map_some, Option.bind_some, RuleWire.normalize]
          cases conditions.normalize <;> rfl

theorem idOfText_mapping (pack : String) (entries : List (Plain × Doc)) :
    idOfText F pack (some (.mapping entries)) =
      (readId entries).bind fun id =>
        if conditionsLoad F (Doc.toEntries entries) then
          (sceneOf F entries).bind (finalIdOf id pack)
        else none := by
  rw [idOfText, ruleOfText_mapping, conditionsLoad, sceneOf]
  cases readId entries with
  | none =>
    rfl
  | some id =>
    cases (Mapping.lookup "conditions" (Doc.toEntries entries)).bind
      (conditionsOf : Plain → Option (List (Condition F))) with
    | none =>
      rfl
    | some conditions =>
      cases (readFields entries none (.new []) : Option (RuleWire F)) <;> rfl

section Repair

variable (F) in
/-- One of the keys has a list that the tool supports and the loader can read,
the other has something that is neither a list nor null. -/
structure HalfLegacy (map : Mapping Empty) (key other : String) (items : List Plain)
    (value : Plain) : Prop where
  list : Mapping.lookup key map = some (.sequence items)
  supported : (supportsConditions items).1 = true
  readable : (readConditions items : Option (List (Condition F))).isSome = true
  other : Mapping.lookup other map = some value
  notList : value.asSequence = none
  notNull : value.isNull = false

variable (F) in
/-- Conditions that the loader does not read and the tool replaces. -/
inductive Repairable : Plain → Prop
  | all {map : Mapping Empty} {items : List Plain} {value : Plain}
      (h : HalfLegacy F map "all" "any" items value) : Repairable (.mapping map)
  | any {map : Mapping Empty} {items : List Plain} {value : Plain}
      (h : HalfLegacy F map "any" "all" items value) : Repairable (.mapping map)

theorem migrateConditions_mapping (map : Mapping Empty) :
    migrateConditions (.mapping map) =
      match rewriteConditions map with
      | none => .mapping map
      | some rewritten =>
        if rewritten.newConditions.isNull then .mapping map else rewritten.newConditions := by
  rfl

theorem HalfLegacy.asSequence_list {map : Mapping Empty} {key other : String} {items : List Plain}
    {value : Plain} (h : HalfLegacy F map key other items value) :
    (Mapping.lookup key map).bind Value.asSequence = some items := by
  rw [h.list]
  rfl

theorem HalfLegacy.asSequence_other {map : Mapping Empty} {key other : String} {items : List Plain}
    {value : Plain} (h : HalfLegacy F map key other items value) :
    (Mapping.lookup other map).bind Value.asSequence = none := by
  rw [h.other]
  exact h.notList

theorem optional_eq_none_of_halfLegacy {map : Mapping Empty} {key other : String}
    {items : List Plain} {value : Plain} (h : HalfLegacy F map key other items value) :
    optional Value.isNull (readConditionList : Plain → Option (List (Condition F)))
      (Mapping.lookup other map) = none := by
  simp [h.other, RuleYaml.optional, h.notNull, readConditionList, h.notList]

theorem conditionsOf_eq_none_of_repairable {value : Plain} (h : Repairable F value) :
    (conditionsOf value : Option (List (Condition F))) = none := by
  cases h with
  | all h =>
    rw [conditionsOf, readConditionsWire_mapping, optional_eq_none_of_halfLegacy h]
    cases optional Value.isNull (readConditionList : Plain → Option (List (Condition F)))
      (Mapping.lookup "all" _) <;> rfl
  | any h =>
    rw [conditionsOf, readConditionsWire_mapping, optional_eq_none_of_halfLegacy h]
    rfl

theorem isSome_conditionsOf_migrated_of_repairable {value : Plain} (h : Repairable F value) :
    (conditionsOf (migrateConditions value) :
      Option (List (Condition F))).isSome = true := by
  cases h with
  | @all map items value h =>
    have hmigrate : migrateConditions (.mapping map) = .sequence items := by
      rw [migrateConditions_mapping, rewriteConditions, h.asSequence_list, h.asSequence_other]
      simp only [h.supported, if_true]
      rfl
    rw [hmigrate, conditionsOf_sequence]
    exact h.readable
  | @any map items value h =>
    have hmigrate : migrateConditions (.mapping map) = .sequence [anyWrapper items] := by
      rw [migrateConditions_mapping, rewriteConditions, h.asSequence_list, h.asSequence_other]
      simp only [h.supported, if_true]
      rfl
    rw [hmigrate, conditionsOf_anyWrapper, Option.isSome_map]
    exact h.readable

/-- A key without a list: the loader takes it as absent, or cannot read it. -/
theorem optional_cases_of_notList {value : Option Plain}
    (hlist : value.bind Value.asSequence = none) :
    optional Value.isNull (readConditionList : Plain → Option (List (Condition F))) value =
        some none ∨
      ∃ v, value = some v ∧ v.asSequence = none ∧ v.isNull = false := by
  cases value with
  | none =>
    exact Or.inl rfl
  | some v =>
    cases hnull : v.isNull with
    | true =>
      left
      simp [RuleYaml.optional, hnull]
    | false =>
      exact Or.inr ⟨v, rfl, hlist, hnull⟩

theorem optional_list {value : Option Plain} {items : List Plain}
    {inner : List (Condition F)} (hlist : value = some (.sequence items))
    (hinner : readConditions items = some inner) :
    optional Value.isNull readConditionList value = some (some inner) := by
  rw [hlist]
  change (readConditions items).map some = _
  rw [hinner]
  rfl

/-- **What the tool makes loadable** are the repairable conditions. -/
theorem conditionsOf_migrated_iff (value : Plain) :
    (conditionsOf (migrateConditions value) : Option (List (Condition F))).isSome = true ↔
      (conditionsOf value : Option (List (Condition F))).isSome = true ∨ Repairable F value := by
  constructor
  · intro hafter
    by_cases hbefore : (conditionsOf value : Option (List (Condition F))).isSome = true
    · exact Or.inl hbefore
    · right
      rw [Option.not_isSome_iff_eq_none] at hbefore
      generalize hmigrated : migrateConditions value = value' at hafter
      have hcases := migratesConditions value
      rw [hmigrated] at hcases
      cases hcases with
      | kept =>
        rw [hbefore] at hafter
        cases hafter
      | @all map items hall hany hsupported =>
        rw [conditionsOf_sequence] at hafter
        obtain ⟨inner, hinner⟩ := Option.isSome_iff_exists.mp hafter
        rcases optional_cases_of_notList (F := F) hany with habsent | ⟨v, hv, hnotList, hnotNull⟩
        · rw [conditionsOf, readConditionsWire_mapping, optional_list hall hinner,
            habsent] at hbefore
          cases hbefore
        · exact .all ⟨hall, hsupported, hafter, hv, hnotList, hnotNull⟩
      | @any map items hany hall hsupported =>
        rw [conditionsOf_anyWrapper, Option.isSome_map] at hafter
        obtain ⟨inner, hinner⟩ := Option.isSome_iff_exists.mp hafter
        rcases optional_cases_of_notList (F := F) hall with habsent | ⟨v, hv, hnotList, hnotNull⟩
        · rw [conditionsOf, readConditionsWire_mapping, optional_list hany hinner,
            habsent] at hbefore
          cases hbefore
        · exact .any ⟨hany, hsupported, hafter, hv, hnotList, hnotNull⟩
  · rintro (hbefore | hrepair)
    · obtain ⟨conditions, hconditions⟩ := Option.isSome_iff_exists.mp hbefore
      obtain ⟨conditions', hconditions', _⟩ :=
        conditionsOf_migrated (migratesConditions value) hconditions
      rw [hconditions']
      rfl
    · exact isSome_conditionsOf_migrated_of_repairable hrepair

end Repair

section Keeps

/-- The document has an id that the loader accepts, or none. -/
def usableId (entries : List (Plain × Doc)) : Bool :=
  match readId entries with
  | some none => true
  | some (some id) => decide (Text.trim id ≠ "")
  | none => false

/-- A text that the loader does not take for an id. -/
def Blank (text : Option String) : Prop :=
  ∀ id, text = some id → Text.trim id = ""

/-- The loader gives the rule the same id after the tool.  Without an id in the file
the one of the loader is the one of the tool; with a null id, the text of the scene
is written back unchanged; with any other id, the text of the id is. -/
def SameId (pack : String) (path : PathBuf) (entries : List (Plain × Doc)) (scene : String) :
    Prop :=
  match Mapping.lookup "id" entries with
  | none => pack ++ "." ++ scene = inferredId path (Doc.toEntries entries)
  | some id =>
    if id.isNull then ∀ doc, Mapping.lookup "scene" entries = some doc → doc.Stable
    else id.Stable ∨ (Blank id.text ∧ Blank id.toValue.scalarText)

variable (F) in
/-- A file of the given pack keeps its id when the tool rewrites it under the
given path: if the rule can be loaded, its id stays; and the file is not repaired. -/
def KeepsId (pack : String) (path : PathBuf) : YamlText → Prop
  | some (.mapping entries) =>
    ∀ scene, sceneOf F entries = some scene →
      (conditionsLoad F (Doc.toEntries entries) = true → SameId pack path entries scene) ∧
      (usableId (Doc.ofEntries (Doc.toEntries entries)) = true → ∀ conditions,
        Mapping.lookup "conditions" (Doc.toEntries entries) = some conditions →
          ¬ Repairable F conditions)
  | _ => True

theorem conditionsLoad_of_migrates {path : PathBuf} {map map' : Mapping Empty}
    (h : Migrates path map map') :
    conditionsLoad F map' = true ↔ conditionsLoad F map = true ∨
      ∃ conditions, Mapping.lookup "conditions" map = some conditions ∧
        Repairable F conditions := by
  rw [conditionsLoad, conditionsLoad, h.conditions]
  cases Mapping.lookup "conditions" map with
  | none =>
    simp
  | some conditions =>
    simpa using conditionsOf_migrated_iff conditions

theorem conditionsLoad_eq_false_of_repairable {map : Mapping Empty} {conditions : Plain}
    (hlookup : Mapping.lookup "conditions" map = some conditions)
    (h : Repairable F conditions) : conditionsLoad F map = false := by
  simp [conditionsLoad, hlookup, conditionsOf_eq_none_of_repairable h]

theorem isSome_sceneOf_of_migrates {path : PathBuf} {entries : List (Plain × Doc)}
    {map' : Mapping Empty} (h : Migrates path (Doc.toEntries entries) map') :
    (sceneOf F (Doc.ofEntries map')).isSome = (sceneOf F entries).isSome := by
  rw [sceneOf, sceneOf, readFields_congr fun _ => h.others_ofEntries, Option.isSome_map,
    Option.isSome_map, isSome_readFields_rewritten]

/-- The scene before and after the tool: the text of the same scalar, and the text
that is written for its value. -/
theorem exists_scene_of_migrates {path : PathBuf} {entries : List (Plain × Doc)}
    {map' : Mapping Empty} (h : Migrates path (Doc.toEntries entries) map') {scene : String}
    (hscene : sceneOf F entries = some scene) :
    ∃ doc scene', Mapping.lookup "scene" entries = some doc ∧ doc.text = some scene ∧
      doc.toValue.scalarText = some scene' ∧ sceneOf F (Doc.ofEntries map') = some scene' := by
  have hsome := isSome_sceneOf_of_migrates (F := F) h
  rw [hscene] at hsome
  obtain ⟨scene', hscene'⟩ := Option.isSome_iff_exists.mp hsome
  obtain ⟨wire, hwire, rfl⟩ := Option.map_eq_some_iff.mp hscene
  obtain ⟨wire', hwire', rfl⟩ := Option.map_eq_some_iff.mp hscene'
  obtain ⟨doc, hdoc, htext⟩ := Option.bind_eq_some_iff.mp (fields_of_readFields hwire).1
  refine ⟨doc, wire'.scene, hdoc, htext, ?_, hscene'⟩
  have hwritten := (fields_of_readFields hwire').1
  rw [h.others_ofEntries (by decide), Doc.lookup_ofEntries, Doc.lookup_toEntries, hdoc] at hwritten
  simpa using hwritten

theorem finalIdOf_inferredId (path : PathBuf) (map : Mapping Empty) (pack scene : String) :
    finalIdOf (some (inferredId path map)) pack scene = some (inferredId path map) := by
  have hnonblank : Text.trim (inferredId path map) ≠ "" := by
    refine Text.trim_ne_empty (c := '.') ?_ (by decide)
    simp [inferredId]
  simp [finalIdOf, hnonblank]

/-- Two ids in a file are loaded as the same one when they are equal or both blank. -/
theorem finalIdOf_eq_iff (id id' pack scene scene' : String) :
    finalIdOf (some id') pack scene' = finalIdOf (some id) pack scene ↔
      id' = id ∨ (Text.trim id = "" ∧ Text.trim id' = "") := by
  unfold finalIdOf
  dsimp only
  split_ifs with hid' hid
  · simp [hid]
  · simp only [not_not] at hid
    simp only [false_iff, not_or]
    refine ⟨?_, fun h => hid' h.2⟩
    rintro rfl
    exact hid' hid
  · rename_i hid
    simp only [not_not] at hid'
    simp only [false_iff, not_or]
    refine ⟨?_, fun h => hid h.1⟩
    rintro rfl
    exact hid hid'
  · rename_i hid
    simp only [not_not] at hid hid'
    simp [hid, hid']

/-- What is loaded before and after, for a condition that can only be added. -/
theorem ite_eq_ite_iff_of_added {x y : Option String} {before after : Bool} {added : Prop}
    (hafter : after = true ↔ before = true ∨ added) (hadded : added → before = false) :
    ((if after then x else none) = if before then y else none) ↔
      (before = true → x = y) ∧ (added → x = none) := by
  cases hbefore : before with
  | true =>
    have hnot : ¬ added := by
      intro h
      rw [hbefore] at hadded
      cases hadded h
    have hafter' : after = true := hafter.mpr (Or.inl hbefore)
    simp [hafter', hnot]
  | false =>
    by_cases h : added
    · have hafter' : after = true := hafter.mpr (Or.inr h)
      simp [hafter', h]
    · have hafter' : after = false := by
        rw [← Bool.not_eq_true, hafter, hbefore]
        simp [h]
      simp [hafter', h]

theorem usableId_eq_isSome_finalIdOf {entries : List (Plain × Doc)} {id : Option String}
    (hread : readId entries = some id) (pack scene : String) :
    usableId entries = (finalIdOf id pack scene).isSome := by
  cases id with
  | none =>
    simp [usableId, hread, finalIdOf]
  | some id =>
    by_cases hblank : Text.trim id = ""
    · simp [usableId, hread, finalIdOf, hblank]
    · simp [usableId, hread, finalIdOf, hblank]

theorem readId_of_lookup {entries : List (Plain × Doc)} {id : Doc}
    (hid : Mapping.lookup "id" entries = some id) :
    readId entries = (if id.isNull then some none else id.text.map some) ∧
      readId (Doc.ofEntries (Doc.toEntries entries)) =
        if id.isNull then some none else id.toValue.scalarText.map some := by
  constructor
  · rw [readId, hid]
    rfl
  · rw [readId, Doc.lookup_ofEntries_toEntries, hid, Option.map_some, RuleYaml.optional,
      Doc.isNull_rewritten, Doc.rewritten, Doc.text_ofValue]

/-- **The ids that the loader takes before and after the tool** from a rule that it can
read both times. -/
theorem exists_finalIds {path : PathBuf} {entries : List (Plain × Doc)} {map' : Mapping Empty}
    (h : Migrates path (Doc.toEntries entries) map') (pack : String) {scene scene' : String}
    {doc : Doc} (hdoc : Mapping.lookup "scene" entries = some doc)
    (hscene : doc.text = some scene) (hscene' : doc.toValue.scalarText = some scene') :
    (readId entries = none ∧ readId (Doc.ofEntries map') = none ∧
      SameId pack path entries scene ∧
      usableId (Doc.ofEntries (Doc.toEntries entries)) = false) ∨
    ∃ id id', readId entries = some id ∧ readId (Doc.ofEntries map') = some id' ∧
      (finalIdOf id' pack scene' = finalIdOf id pack scene ↔ SameId pack path entries scene) ∧
      usableId (Doc.ofEntries (Doc.toEntries entries)) =
        (finalIdOf id' pack scene').isSome := by
  have hafter := readId_of_migrates h
  rw [Doc.lookup_toEntries, Option.isSome_map] at hafter
  unfold SameId
  cases hid : Mapping.lookup "id" entries with
  | none =>
    -- the loader's id against the one that the tool wrote
    rw [hid] at hafter
    refine .inr ⟨none, _, by rw [readId, hid]; rfl, hafter, ?_, ?_⟩
    · rw [finalIdOf_inferredId]
      exact ⟨fun hsame => (Option.some.inj hsame).symm, fun hsame => congrArg some hsame.symm⟩
    · rw [finalIdOf_inferredId, usableId, readId, Doc.lookup_ofEntries_toEntries, hid]
      rfl
  | some id =>
    obtain ⟨hbefore, hwritten⟩ := readId_of_lookup hid
    rw [hid] at hafter
    have hafter : readId (Doc.ofEntries map') =
        readId (Doc.ofEntries (Doc.toEntries entries)) := hafter
    cases hnull : id.isNull with
    | true =>
      rw [hnull, if_pos rfl] at hbefore hwritten
      refine .inr ⟨none, none, hbefore, hafter.trans hwritten, ?_,
        usableId_eq_isSome_finalIdOf hwritten pack scene'⟩
      simp only [hnull, if_true, finalIdOf, hdoc, Option.some.injEq, forall_eq', Doc.Stable,
        hscene, hscene', String.append_right_inj]
    | false =>
      rw [hnull, if_neg Bool.false_ne_true] at hbefore hwritten
      have hboth := Doc.isSome_scalarText_toValue id
      cases htext : id.text with
      | none =>
        rw [htext, Option.isSome_none, Option.isSome_eq_false_iff,
          Option.isNone_iff_eq_none] at hboth
        rw [htext] at hbefore
        rw [hboth] at hwritten
        refine .inl ⟨hbefore, hafter.trans hwritten, ?_, by rw [usableId, hwritten]; rfl⟩
        simp [hnull, Doc.Stable, hboth, htext]
      | some text =>
        rw [htext] at hboth hbefore
        obtain ⟨text', htext'⟩ := Option.isSome_iff_exists.mp hboth
        rw [htext'] at hwritten
        refine .inr ⟨some text, some text', hbefore, hafter.trans hwritten, ?_,
          usableId_eq_isSome_finalIdOf hwritten pack scene'⟩
        rw [finalIdOf_eq_iff]
        simp [hnull, Doc.Stable, Blank, htext, htext']

/-- **When a file keeps its id.** -/
theorem idOfText_migrates_iff {path : PathBuf} {entries : List (Plain × Doc)}
    {map' : Mapping Empty} (h : Migrates path (Doc.toEntries entries) map') (pack : String) :
    idOfText F pack (some (.ofValue (.mapping map'))) =
        idOfText F pack (some (.mapping entries)) ↔
      KeepsId F pack path (some (.mapping entries)) := by
  have hload := conditionsLoad_of_migrates (F := F) h
  have hadded : (∃ conditions, Mapping.lookup "conditions" (Doc.toEntries entries) =
      some conditions ∧ Repairable F conditions) →
        conditionsLoad F (Doc.toEntries entries) = false := by
    rintro ⟨conditions, hlookup, hrepair⟩
    exact conditionsLoad_eq_false_of_repairable hlookup hrepair
  have hkeeps : KeepsId F pack path (some (.mapping entries)) ↔
      ∀ scene, sceneOf F entries = some scene →
        (conditionsLoad F (Doc.toEntries entries) = true → SameId pack path entries scene) ∧
        (usableId (Doc.ofEntries (Doc.toEntries entries)) = true →
          ¬ ∃ conditions, Mapping.lookup "conditions" (Doc.toEntries entries) =
            some conditions ∧ Repairable F conditions) := by
    simp only [KeepsId, not_exists, not_and]
  rw [hkeeps, Doc.ofValue, idOfText_mapping, idOfText_mapping, Doc.toEntries_ofEntries]
  cases hscene : sceneOf F entries with
  | none =>
    have hnone := isSome_sceneOf_of_migrates (F := F) h
    rw [hscene, Option.isSome_none, Option.isSome_eq_false_iff,
      Option.isNone_iff_eq_none] at hnone
    simp [hnone]
  | some scene =>
    obtain ⟨doc, scene', hdoc, htext, htext', hafter⟩ := exists_scene_of_migrates h hscene
    simp only [hafter, Option.bind_some, Option.some.injEq, forall_eq']
    rcases exists_finalIds h pack hdoc htext htext' with
      ⟨hread, hread', hsame, husable⟩ | ⟨id, id', hread, hread', hsame, husable⟩
    · -- an id that is no scalar: the rule is not loaded, before or after
      simp [hread, hread', hsame, husable]
    · rw [hread, hread', Option.bind_some, Option.bind_some,
        ite_eq_ite_iff_of_added hload hadded, hsame, husable]
      refine and_congr_right fun _ => ?_
      cases finalIdOf id' pack scene' <;> simp

theorem exists_migrateText (path : PathBuf) (entries : List (Plain × Doc)) :
    ∃ map', migrateText path (some (.mapping entries)) = some (.ofValue (.mapping map')) ∧
      Migrates path (Doc.toEntries entries) map' := by
  obtain ⟨map', result, hmigrate, hmigrates⟩ := exists_migrates path (Doc.toEntries entries)
  refine ⟨map', ?_, hmigrates⟩
  simp only [migrateText, Doc.toValue, hmigrate]

theorem migrateText_of_asMapping (path : PathBuf) {doc : Doc} (h : doc.asMapping = none) :
    migrateText path (some doc) = some doc := by
  cases doc with
  | mapping entries => cases h
  | sequence items => rfl
  | scalar text kind => cases kind <;> rfl

theorem idOfText_migrateText_iff (pack : String) (path : PathBuf) (text : YamlText) :
    idOfText F pack (migrateText path text) = idOfText F pack text ↔
      KeepsId F pack path text := by
  cases text with
  | none =>
    simp [migrateText, KeepsId]
  | some doc =>
    cases doc with
    | mapping entries =>
      obtain ⟨map', htext, hmigrates⟩ := exists_migrateText path entries
      rw [htext]
      exact idOfText_migrates_iff hmigrates pack
    | _ =>
      rw [migrateText_of_asMapping path rfl]
      simp [KeepsId]

/-- The id `1.50` is loaded as it stands, and the tool writes the number `1.5`. -/
example :
    let id : Doc := .scalar "1.50" (.number "1.5")
    let text : YamlText := (Doc.ofValue (sampleFile (.sequence []))).asMapping.map fun entries =>
      .mapping ((.string "id", id) :: entries)
    idOfText Binary64 "core" text = some "1.50" ∧
      idOfText Binary64 "core" (migrateText (.ofText "rules/core/drops.yaml") text) =
        some "1.5" ∧ ¬ id.Stable := by
  decide +kernel

theorem isSome_ruleOfText_migrateText (path : PathBuf) {text : YamlText}
    (h : (ruleOfText F text).isSome = true) :
    (ruleOfText F (migrateText path text)).isSome = true := by
  obtain ⟨rule, hrule⟩ := Option.isSome_iff_exists.mp h
  obtain ⟨wire, hwire, _⟩ := Option.bind_eq_some_iff.mp hrule
  obtain ⟨doc, rfl, hdecode⟩ := Option.bind_eq_some_iff.mp hwire
  obtain ⟨entries, _, rfl, hid, _⟩ := exists_of_decode hdecode
  obtain ⟨map', htext, hmigrates⟩ := exists_migrateText path entries
  rw [ruleOfText_mapping] at hrule
  obtain ⟨_, _, hrule⟩ := Option.bind_eq_some_iff.mp hrule
  obtain ⟨conditions, hconditions, hrule⟩ := Option.bind_eq_some_iff.mp hrule
  obtain ⟨fields, hfields, _⟩ := Option.map_eq_some_iff.mp hrule
  have hload : conditionsLoad F map' = true := by
    rw [conditionsLoad_of_migrates hmigrates, conditionsLoad, hconditions]
    exact Or.inl rfl
  obtain ⟨conditions', hconditions'⟩ := Option.isSome_iff_exists.mp hload
  have hscene : sceneOf F entries = some fields.scene := by
    rw [sceneOf, hfields, Option.map_some]
  obtain ⟨scene, scene', hdoc, hbefore, hafter, hscene'⟩ :=
    exists_scene_of_migrates hmigrates hscene
  obtain ⟨fields', hfields', _⟩ := Option.map_eq_some_iff.mp hscene'
  -- the id could be read, so it is read again
  rcases exists_finalIds hmigrates "" hdoc hbefore hafter with
    ⟨hnone, _⟩ | ⟨_, id', _, hid', _⟩
  · rw [hid] at hnone
    cases hnone
  · rw [htext, Doc.ofValue, ruleOfText_mapping, hid', Doc.toEntries_ofEntries, hconditions',
      hfields']
    rfl

end Keeps

end Text

end RulesMigrate

end ArkInfra
