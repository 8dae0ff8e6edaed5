import ArkInfra.Core.RuleLoadOrder

/-!
# The rule checks of `ark doctor`

`agent/src/doctor.rs`: one check validates the rule files on its own, with its own
walk through the rules directory and its own idea of what a rule file must
contain; another one loads the rules the way the agent does.  The walk passes over
what it cannot read and over the fixtures, and does not look at the manifest.

`validated_load` says what the first check is worth: when it passes, and the
loader takes no file that the check does not look at, the second check fails on
account of the manifest, of a file in the place of a directory, or of the ids, none
of which the first one looks at; the loader skips nothing.
-/

namespace ArkInfra

namespace Doctor

open Yaml RuleFiles RuleLoad

inductive CheckStatus where
  | ok
  | warn
  | fail
deriving DecidableEq, Repr

structure CheckItem where
  name : String
  status : CheckStatus
  detail : String
  suggestion : Option String
deriving DecidableEq, Repr

section Collect

variable {C : Type} (fs : FileSystem C)

/-- The components of a path behind those of the base, or all of them. -/
def relativeTo (base path : PathBuf) : List Component :=
  if base.components.isPrefixOf path.components then
    path.components.drop base.components.length
  else path.components

def isFixtures (rulesDir path : PathBuf) : Bool :=
  decide (relativeTo rulesDir path = [.normal "fixtures"])

def isCandidate (path : PathBuf) : Bool :=
  isRuleFile path && decide (path.fileName ≠ some "manifest.yaml")

def pushCandidate (files : List PathBuf) (path : PathBuf) : List PathBuf :=
  if isCandidate path then files ++ [path] else files

/-- `collect_rule_files` of the doctor. -/
def collectRuleFiles (fuel : Nat) (rulesDir : PathBuf) : Option (List PathBuf) :=
  (fs.sweep (isFixtures rulesDir) pushCandidate fuel [rulesDir] 0 []).map fun files =>
    files.mergeSort fun a b => decide (a.components ≤ b.components)

end Collect

section Validate

variable {F : Type} (fs : FileSystem YamlText) (decoder : YamlDecoder YamlText F)
  (explain : YamlText → String)

def getYamlString (map : Mapping Empty) (key : String) : Option String :=
  (Mapping.lookup key map).bind Value.asStr

def readU64 : Plain → Option Nat
  | .number text => Text.parseUnsigned (2 ^ 64) text
  | _ => none

def getYamlU64 (map : Mapping Empty) (key : String) : Option Nat :=
  (Mapping.lookup key map).bind readU64

/-- The variables of the loop over the files. -/
structure Findings where
  sceneOwner : HashMap String String
  errors : List String

def Findings.empty : Findings where
  sceneOwner := ∅
  errors := []

def Findings.push (s : Findings) (error : String) : Findings :=
  { s with errors := s.errors ++ [error] }

def checkScene (path : PathBuf) (scene : Option String) (s : Findings) : Findings :=
  match scene with
  | none => s.push (path.text ++ ": missing scene")
  | some scene =>
    let owned := { s with sceneOwner := s.sceneOwner.insert scene path.text }
    match s.sceneOwner.lookup scene with
    | none => owned
    | some prev =>
      owned.push ("scene duplicated: " ++ scene ++ " in " ++ prev ++ " and " ++ path.text)

def checkPriority (path : PathBuf) (priority : Option Nat) (s : Findings) : Findings :=
  match priority with
  | none => s.push (path.text ++ ": missing/invalid priority")
  | some p =>
    if 1 ≤ p ∧ p ≤ 100 then s
    else s.push (path.text ++ ": priority " ++ toString p ++ " out of range 1..=100")

def checkWire (path : PathBuf) (content : YamlText) (s : Findings) : Findings :=
  match decoder.rule content with
  | .error e => s.push (path.text ++ ": deserialize failed: " ++ e)
  | .ok wire =>
    match wire.normalize with
    | .error e => s.push (path.text ++ ": normalize failed: " ++ e)
    | .ok _ => s

def validateFile (s : Findings) (path : PathBuf) : Findings :=
  match fs.readToString path with
  | .error e => s.push (path.text ++ ": read failed: " ++ e)
  | .ok content =>
    match content with
    | none => s.push (path.text ++ ": yaml parse failed: " ++ explain content)
    | some doc =>
      match doc.toValue.asMapping with
      | none => s.push (path.text ++ ": rule must be YAML object")
      | some map =>
        checkWire decoder path content
          (checkPriority path (getYamlU64 map "priority")
            (checkScene path (getYamlString map "scene") s))

def verdict (count : Nat) : List String → CheckItem
  | [] =>
    { name := "rules validate"
      status := .ok
      detail := toString count ++ " files validated"
      suggestion := none }
  | first :: rest =>
    { name := "rules validate"
      status := .fail
      detail := toString (rest.length + 1) ++ " errors (first: " ++ first ++ ")"
      suggestion := some "fix rule schema/priority/scene conflicts" }

def checkRulesValidate (fuel : Nat) (rulesDir : PathBuf) : Option CheckItem :=
  (collectRuleFiles fs fuel rulesDir).map fun files =>
    verdict files.length (files.foldl (validateFile fs decoder explain) .empty).errors

def loadStatus (stats : RuleLoadStats) : CheckStatus :=
  if 0 < stats.skippedRules then .fail
  else if stats.loadedRules = 0 ∨ 0 < stats.legacyTotal then .warn
  else .ok

def loadSuggestion (stats : RuleLoadStats) : Option String :=
  match loadStatus stats with
  | .ok => none
  | .warn =>
    if stats.loadedRules = 0 then
      some "add rules under rules/ packs and verify manifest.yaml"
    else
      some ("migrate remaining legacy rules with \x60cargo run -p ark-core --bin rules-migrate" ++
        " -- rules --dry-run\x60")
  | .fail => some "fix skipped rules and re-run with ARK_RULES_STRICT=1"

def loadItem : Except String (RuleEngine F) → CheckItem
  | .ok engine =>
    { name := "rules package"
      status := loadStatus engine.loadStats
      detail := "loaded=" ++ toString engine.loadStats.loadedRules ++ ", skipped=" ++
        toString engine.loadStats.skippedRules ++ ", legacy=" ++
        toString engine.loadStats.legacyTotal
      suggestion := loadSuggestion engine.loadStats }
  | .error e =>
    { name := "rules package"
      status := .fail
      detail := "failed to load rules: " ++ e
      suggestion := some "check rules manifest and YAML syntax" }

def checkRulesLoad (fuel : Nat) (strict : Option String) (rulesDir : PathBuf) :
    Option CheckItem :=
  (loadFromDir fs decoder fuel strict rulesDir).map loadItem

end Validate

section Passed

variable {F : Type} {fs : FileSystem YamlText} {decoder : YamlDecoder YamlText F}
  {explain : YamlText → String}

/-- What a file must be for the check to pass, with its scene. -/
inductive Validated (fs : FileSystem YamlText) (decoder : YamlDecoder YamlText F) (path : PathBuf)
    (scene : String) : Prop
  | mk (entries : List (Plain × Doc)) (priority : Nat) (wire : RuleWire F) (rule : Rule F)
      (status : LegacySyntaxStatus)
      (hread : fs.readToString path = .ok (some (.mapping entries)))
      (hscene : getYamlString (Doc.toEntries entries) "scene" = some scene)
      (hpriority : getYamlU64 (Doc.toEntries entries) "priority" = some priority)
      (hrange : 1 ≤ priority ∧ priority ≤ 100)
      (hwire : decoder.rule (some (.mapping entries)) = .ok wire)
      (hnormal : wire.normalize = .ok (rule, status)) : Validated fs decoder path scene

theorem Validated.unique {path : PathBuf} {scene scene' : String}
    (h : Validated fs decoder path scene) (h' : Validated fs decoder path scene') :
    scene = scene' := by
  obtain ⟨entries, _, _, _, _, hread, hscene, _⟩ := h
  obtain ⟨entries', _, _, _, _, hread', hscene', _⟩ := h'
  rw [hread] at hread'
  cases hread'
  exact Option.some.inj (hscene.symm.trans hscene')

theorem errors_push_ne_nil (s : Findings) (error : String) : (s.push error).errors ≠ [] := by
  simp [Findings.push]

theorem checkWire_passed {path : PathBuf} {content : YamlText} {s : Findings}
    (h : (checkWire decoder path content s).errors = []) :
    checkWire decoder path content s = s ∧
      ∃ wire rule status, decoder.rule content = .ok wire ∧
        wire.normalize = .ok (rule, status) := by
  unfold checkWire at h ⊢
  cases hdecode : decoder.rule content with
  | error e =>
    rw [hdecode] at h
    exact absurd h (errors_push_ne_nil _ _)
  | ok wire =>
    simp only [hdecode] at h ⊢
    cases hnormal : wire.normalize with
    | error e =>
      rw [hnormal] at h
      exact absurd h (errors_push_ne_nil _ _)
    | ok result =>
      exact ⟨rfl, wire, result.1, result.2, rfl, hnormal⟩

theorem checkPriority_passed {path : PathBuf} {priority : Option Nat} {s : Findings}
    (h : (checkPriority path priority s).errors = []) :
    checkPriority path priority s = s ∧ ∃ p, priority = some p ∧ 1 ≤ p ∧ p ≤ 100 := by
  unfold checkPriority at h ⊢
  cases priority with
  | none =>
    exact absurd h (errors_push_ne_nil _ _)
  | some p =>
    dsimp only at h ⊢
    split_ifs at h ⊢ with hrange
    · exact ⟨rfl, p, rfl, hrange⟩
    · exact absurd h (errors_push_ne_nil _ _)

theorem checkScene_passed {path : PathBuf} {scene : Option String} {s : Findings}
    (h : (checkScene path scene s).errors = []) :
    s.errors = [] ∧ ∃ name, scene = some name ∧ s.sceneOwner.lookup name = none ∧
      (checkScene path scene s).sceneOwner = s.sceneOwner.insert name path.text := by
  unfold checkScene at h ⊢
  cases scene with
  | none =>
    exact absurd h (errors_push_ne_nil _ _)
  | some name =>
    dsimp only at h ⊢
    cases hfree : s.sceneOwner.lookup name with
    | some prev =>
      rw [hfree] at h
      exact absurd h (errors_push_ne_nil _ _)
    | none =>
      rw [hfree] at h
      exact ⟨h, name, rfl, hfree, rfl⟩

/-- **One file**: without an error it is a rule, of a scene that is new. -/
theorem validateFile_passed {path : PathBuf} {s : Findings}
    (h : (validateFile fs decoder explain s path).errors = []) :
    s.errors = [] ∧ ∃ scene, Validated fs decoder path scene ∧
      s.sceneOwner.lookup scene = none ∧
      (validateFile fs decoder explain s path).sceneOwner =
        s.sceneOwner.insert scene path.text := by
  unfold validateFile at h ⊢
  cases hread : fs.readToString path with
  | error e =>
    rw [hread] at h
    exact absurd h (errors_push_ne_nil _ _)
  | ok content =>
    simp only [hread] at h ⊢
    cases content with
    | none =>
      exact absurd h (errors_push_ne_nil _ _)
    | some doc =>
      simp only [Doc.asMapping_toValue] at h ⊢
      cases doc with
      | mapping entries =>
        simp only [Doc.asMapping, Option.map_some] at h ⊢
        obtain ⟨hsame, wire, rule, status, hwire, hnormal⟩ := checkWire_passed h
        rw [hsame] at h ⊢
        obtain ⟨hsame, priority, hpriority, hrange⟩ := checkPriority_passed h
        rw [hsame] at h ⊢
        obtain ⟨herrors, scene, hscene, hfree, howner⟩ := checkScene_passed h
        exact ⟨herrors, scene, ⟨entries, priority, wire, rule, status, hread, hscene, hpriority,
          hrange, hwire, hnormal⟩, hfree, howner⟩
      | scalar _ _ | sequence _ =>
        exact absurd h (errors_push_ne_nil _ _)

def Differ (fs : FileSystem YamlText) (decoder : YamlDecoder YamlText F) (path path' : PathBuf) :
    Prop :=
  ∀ scene scene', Validated fs decoder path scene → Validated fs decoder path' scene' →
    scene ≠ scene'

instance (fs : FileSystem YamlText) (decoder : YamlDecoder YamlText F) :
    Std.Symm (Differ fs decoder) where
  symm := fun _ _ h scene scene' hvalid hvalid' => (h scene' scene hvalid' hvalid).symm

/-- **All files**: without an error they are rules, of different scenes that are new. -/
theorem validateFiles_passed {files : List PathBuf} {s : Findings}
    (h : (files.foldl (validateFile fs decoder explain) s).errors = []) :
    s.errors = [] ∧ (∀ path ∈ files, ∃ scene, Validated fs decoder path scene) ∧
      (∀ path ∈ files, ∀ scene, Validated fs decoder path scene →
        s.sceneOwner.lookup scene = none) ∧
      files.Pairwise (Differ fs decoder) := by
  induction files generalizing s with
  | nil =>
    exact ⟨h, by simp, by simp, List.Pairwise.nil⟩
  | cons path files ih =>
    obtain ⟨hfirst, hrules, hnew, hpairs⟩ := ih h
    obtain ⟨herrors, scene, hvalid, hfree, howner⟩ := validateFile_passed hfirst
    rw [howner] at hnew
    -- a later file has another scene, since this one is taken
    have hlater : ∀ path' ∈ files, ∀ scene', Validated fs decoder path' scene' →
        scene' ≠ scene ∧ s.sceneOwner.lookup scene' = none := by
      intro path' hpath' scene' hvalid'
      have hnone := hnew path' hpath' scene' hvalid'
      rw [HashMap.lookup_insert_ite] at hnone
      split_ifs at hnone with hsame
      exact ⟨hsame, hnone⟩
    refine ⟨herrors, ?_, ?_, ?_⟩
    · intro path' hpath'
      rcases List.mem_cons.mp hpath' with rfl | hmem
      · exact ⟨scene, hvalid⟩
      · exact hrules path' hmem
    · intro path' hpath' scene' hvalid'
      rcases List.mem_cons.mp hpath' with rfl | hmem
      · rw [← hvalid.unique hvalid']
        exact hfree
      · exact (hlater path' hmem scene' hvalid').2
    · refine List.pairwise_cons.mpr ⟨?_, hpairs⟩
      intro path' hpath' scene' scene'' hvalid' hvalid''
      rw [← hvalid.unique hvalid']
      exact (hlater path' hpath' scene'' hvalid'').1.symm

end Passed

section Cover

variable {root : PathBuf}

variable (root) in
theorem isFixtures_descend (names : List String) :
    isFixtures root (root.descend names) = decide (names = ["fixtures"]) := by
  have hrelative : relativeTo root (root.descend names) = names.map .normal := by
    simp [relativeTo]
  have hfixtures : [Component.normal "fixtures"] = ["fixtures"].map .normal := rfl
  rw [isFixtures, hrelative, hfixtures]
  simp only [Component.map_normal_injective.eq_iff]

theorem open_below (above names : List String) (habove : above ≠ []) :
    FileTree.Open (isFixtures root) (root.descend above) names := by
  induction names generalizing above with
  | nil =>
    trivial
  | cons name names ih =>
    cases names with
    | nil =>
      trivial
    | cons name' names =>
      have hchild : (root.descend above).child name = root.descend (above ++ [name]) := by
        simp [PathBuf.descend]
      rw [FileTree.Open, hchild, isFixtures_descend]
      refine ⟨?_, ih (above ++ [name]) (by simp)⟩
      simp [List.append_eq_singleton_iff, habove]

/-- The check looks at the place: it is no manifest and not among the fixtures. -/
def Inspected (names : List String) : Prop :=
  names.getLast? ≠ some "manifest.yaml" ∧ (names.head? = some "fixtures" → names.length = 1)

theorem open_of_inspected {names : List String} (h : Inspected names) :
    FileTree.Open (isFixtures root) root names := by
  cases names with
  | nil =>
    trivial
  | cons name names =>
    cases names with
    | nil =>
      trivial
    | cons name' names =>
      have hname : name ≠ "fixtures" := by
        rintro rfl
        simpa using h.2 rfl
      have hskip := isFixtures_descend root [name]
      refine ⟨?_, open_below [name] (name' :: names) (by simp)⟩
      simpa [hname] using hskip

theorem foldl_pushCandidate (visited files : List PathBuf) :
    visited.foldl pushCandidate files = files ++ visited.filter isCandidate := by
  induction visited generalizing files with
  | nil =>
    simp
  | cons path visited ih =>
    by_cases hpath : isCandidate path = true <;> simp [ih, pushCandidate, hpath]

variable {C : Type} {tree : FileTree C}

variable (root) in
/-- **The check looks at every rule file**, but for manifests and fixtures. -/
theorem mem_collectRuleFiles (htree : tree.WellFormed) (hdir : tree.isDir = true) {fuel : Nat}
    (hfuel : tree.dirCount ≤ fuel) (order : ReadOrder) :
    ∃ files, collectRuleFiles (tree.fileSystem root order) fuel root = some files ∧
      ∀ names, RuleFileAt tree names → Inspected names → root.descend names ∈ files := by
  have hstack : ∀ path ∈ [root], ∃ entries, tree.resolve root path = some (.dir entries) := by
    intro path hpath
    rw [List.mem_singleton.mp hpath, FileTree.resolve_root]
    cases tree with
    | file content =>
      cases hdir
    | dir entries =>
      exact ⟨entries, rfl⟩
  have hcount : ([root].map (tree.dirsAt root)).sum ≤ fuel := by
    rw [List.map_singleton, List.sum_singleton]
    exact (FileTree.dirsAt_le _).trans hfuel
  obtain ⟨visited, hsweep, hvisited⟩ := FileTree.sweep_fileSystem pushCandidate order
    (isFixtures root) htree fuel [root] 0 [] hstack hcount
  refine ⟨_, by rw [collectRuleFiles, hsweep, Option.map_some], ?_⟩
  intro names hrule hinspected
  have hne := RuleFileAt.ne_nil hdir hrule
  have hplace : (root.descend names).components = placeOf root names :=
    PathBuf.components_descend root names
  have hcandidate : isCandidate (root.descend names) = true := by
    obtain ⟨above, name, rfl⟩ := List.eq_nil_or_concat names |>.resolve_left hne
    have hlast : (root.descend (above.concat name)).fileName = some name := by
      simp [PathBuf.fileName]
    have hname : name ≠ "manifest.yaml" := by
      simpa using hinspected.1
    rw [isCandidate, isRuleFile_eq hplace hne, hrule.2, hlast]
    simpa using hname
  rw [List.mem_mergeSort, foldl_pushCandidate, List.nil_append, List.mem_filter]
  refine ⟨?_, hcandidate⟩
  refine hvisited root (by simp) tree (FileTree.resolve_root root tree) names ?_
    (open_of_inspected hinspected)
  exact (FileTree.mem_paths_iff htree).mpr hrule.1

end Cover

section Rules

variable {F : Type} [FloatArith F] {explain : YamlText → String}

theorem parseUnsigned_unique {bound bound' n n' : Nat} {text : String}
    (h : Text.parseUnsigned bound text = some n) (h' : Text.parseUnsigned bound' text = some n') :
    n = n' := by
  unfold Text.parseUnsigned at h h'
  dsimp only at h h'
  split_ifs at h h'
  exact (Option.some.inj h).symm.trans (Option.some.inj h')

theorem text_of_asStr {doc : Doc} {text : String} (h : doc.toValue.asStr = some text) :
    doc.text = some text := by
  cases doc with
  | scalar text kind =>
    cases kind with
    | string => exact h
    | _ => cases h
  | _ =>
    cases h

theorem readU32_of_readU64 {value : Plain} {n n' : Nat} (h : readU64 value = some n)
    (h' : RuleYaml.readU32 value = some n') : n' = n := by
  cases value with
  | number text =>
    exact parseUnsigned_unique h' h
  | _ =>
    cases h

theorem fields_of_decode {entries : List (Plain × Doc)} {wire : RuleWire F}
    (h : RuleWire.decode (.mapping entries) = some wire) :
    (Mapping.lookup "scene" entries).bind Doc.text = some wire.scene ∧
      (Mapping.lookup "priority" entries).bind (RuleYaml.resolved RuleYaml.readU32) =
        some wire.priority := by
  simp only [RuleWire.decode, Doc.asMapping, Option.bind_eq_bind, Option.bind_some,
    Option.bind_eq_some_iff] at h
  obtain ⟨_, _, _, _, hfields⟩ := h
  exact RuleYaml.fields_of_readFields hfields

/-- The loader takes a file that passed for a rule, unless its id is blank. -/
theorem Validated.loads {fs : FileSystem YamlText} {path : PathBuf} {scene : String}
    (h : Validated fs (yamlDecoder explain : YamlDecoder YamlText F) path scene) (label : String) :
    isSkipped fs (yamlDecoder explain : YamlDecoder YamlText F) (path, label) = false ∧
      ∀ rule, ruleOf fs (yamlDecoder explain : YamlDecoder YamlText F) (path, label) = some rule →
        rule.scene = scene ∧ 1 ≤ rule.priority ∧ rule.priority ≤ 100 := by
  obtain ⟨entries, priority, wire, rule, status, hread, hscene, hpriority, hrange, hwire,
    hnormal⟩ := h
  have hdecode : RuleWire.decode (.mapping entries) = some wire := by
    simp only [yamlDecoder, Option.bind_some] at hwire
    split at hwire
    next decoded hdecoded =>
      cases hwire
      exact hdecoded
    next =>
      cases hwire
  obtain ⟨hwireScene, hwirePriority⟩ := fields_of_decode hdecode
  have hsameScene : wire.scene = scene := by
    rw [getYamlString, Doc.lookup_toEntries, Option.bind_map] at hscene
    obtain ⟨doc, hdoc, htext⟩ := Option.bind_eq_some_iff.mp hscene
    rw [hdoc, Option.bind_some, text_of_asStr htext] at hwireScene
    exact (Option.some.inj hwireScene).symm
  have hsamePriority : wire.priority = priority := by
    rw [getYamlU64, Doc.lookup_toEntries, Option.bind_map] at hpriority
    obtain ⟨doc, hdoc, hnumber⟩ := Option.bind_eq_some_iff.mp hpriority
    rw [hdoc, Option.bind_some] at hwirePriority
    exact readU32_of_readU64 hnumber hwirePriority
  have hrule : ruleOf fs (yamlDecoder explain : YamlDecoder YamlText F) (path, label) =
      (finalId rule label).map fun id => { rule with id := some id } := by
    simp only [ruleOf, hread, hwire, hnormal]
  obtain ⟨conditions, _, rfl⟩ := RuleWire.normalize_eq_ok_iff.mp hnormal
  refine ⟨?_, ?_⟩
  · cases hid : finalId (wire.toRule conditions) label with
    | none =>
      simp [isSkipped, hasBlankId, hread, hwire, hnormal, finalId_eq_none hid]
    | some id =>
      simp [isSkipped, hrule, hid]
  · intro loaded hloaded
    rw [hrule] at hloaded
    obtain ⟨id, _, rfl⟩ := Option.map_eq_some_iff.mp hloaded
    rw [← hsamePriority] at hrange
    exact ⟨hsameScene, hrange⟩

/-- A rule that gets its id from its pack, whose name has no dot. -/
def PlainId (fs : FileSystem YamlText) (decoder : YamlDecoder YamlText F)
    (file : PathBuf × String) : Prop :=
  '.' ∉ file.2.toList ∧ ∀ content wire, fs.readToString file.1 = .ok content →
    decoder.rule content = .ok wire → wire.id = none

theorem Validated.fileId {fs : FileSystem YamlText} {file : PathBuf × String} {scene : String}
    (h : Validated fs (yamlDecoder explain : YamlDecoder YamlText F) file.1 scene)
    (hplain : PlainId fs (yamlDecoder explain : YamlDecoder YamlText F) file) :
    fileId fs (yamlDecoder explain : YamlDecoder YamlText F) file =
      some (file.2 ++ "." ++ scene) := by
  obtain ⟨entries, priority, wire, rule, status, hread, hscene, hpriority, hrange, hwire,
    hnormal⟩ := id h
  have hid := hplain.2 _ _ hread hwire
  obtain ⟨conditions, _, rfl⟩ := RuleWire.normalize_eq_ok_iff.mp hnormal
  have hfinal : finalId (wire.toRule conditions) file.2 =
      some (file.2 ++ "." ++ (wire.toRule conditions).scene) := by
    simp only [finalId, RuleWire.toRule, hid]
  have hrule : ruleOf fs (yamlDecoder explain : YamlDecoder YamlText F) file =
      some { wire.toRule conditions with
        id := some (file.2 ++ "." ++ (wire.toRule conditions).scene) } := by
    simp only [ruleOf, hread, hwire, hnormal, hfinal, Option.map_some]
  have hsame := ((h.loads file.2).2 _ hrule).1
  rw [RuleLoad.fileId, hrule, Option.bind_some, ← hsame]

end Rules

section Load

variable {F : Type} {explain : YamlText → String}

theorem errors_of_status {count : Nat} {errors : List String}
    (h : (verdict count errors).status = .ok) : errors = [] := by
  cases errors with
  | nil =>
    rfl
  | cons first rest =>
    cases h

theorem status_ne_fail {engine : RuleEngine F} (h : engine.loadStats.skippedRules = 0) :
    (loadItem (.ok engine)).status ≠ .fail := by
  simp only [loadItem, loadStatus, h, lt_irrefl, if_false]
  split_ifs <;> decide

theorem readToString_of_components {C : Type} {tree : FileTree C} {root path path' : PathBuf}
    (h : path.components = path'.components) (order order' : ReadOrder) :
    (tree.fileSystem root order).readToString path =
      (tree.fileSystem root order').readToString path' := by
  simp only [FileTree.fileSystem, FileTree.resolve, FileTree.locate, h]

theorem Validated.congr {fs fs' : FileSystem YamlText} {decoder : YamlDecoder YamlText F}
    {path path' : PathBuf} (h : fs.readToString path = fs'.readToString path') {scene : String}
    (hvalid : Validated fs decoder path scene) : Validated fs' decoder path' scene := by
  cases hvalid with
  | mk entries priority wire rule status hread hscene hpriority hrange hwire hnormal =>
    exact .mk entries priority wire rule status (h ▸ hread) hscene hpriority hrange hwire hnormal

/-- The files of a load have passed: each is a rule, and those at different places are
rules of different scenes. -/
structure AllPassed (fs : FileSystem YamlText) (decoder : YamlDecoder YamlText F)
    (files : List (PathBuf × String)) : Prop where
  valid : ∀ file ∈ files, ∃ scene, Validated fs decoder file.1 scene
  differ : ∀ file ∈ files, ∀ file' ∈ files, file.1.components ≠ file'.1.components →
    Differ fs decoder file.1 file'.1

/-- The check looks at the file: it is a rule file below the rules directory, no
manifest and not among the fixtures. -/
def LookedAt (tree : FileTree YamlText) (root : PathBuf) (file : PathBuf × String) : Prop :=
  ∃ names, RuleFileAt tree names ∧ Inspected names ∧ file.1.components = placeOf root names

variable [FloatArith F] {tree : FileTree YamlText} {root : PathBuf} {fuel : Nat}

/-- **What the check says about the files of the loader.** -/
theorem allPassed_of_ok (htree : tree.WellFormed) (hdir : tree.isDir = true)
    (hfuel : tree.dirCount ≤ fuel) (order order' : ReadOrder)
    {explain' : YamlText → String} {item : CheckItem}
    (hitem : checkRulesValidate (tree.fileSystem root order)
      (yamlDecoder explain : YamlDecoder YamlText F) explain' fuel root = some item)
    (hok : item.status = .ok) {files : List (PathBuf × String)}
    (hplaces : ∀ file ∈ files, LookedAt tree root file) :
    AllPassed (tree.fileSystem root order') (yamlDecoder explain : YamlDecoder YamlText F)
      files := by
  obtain ⟨looked, hlooked, hcover⟩ := mem_collectRuleFiles root htree hdir hfuel order
  rw [checkRulesValidate, hlooked] at hitem
  obtain rfl := Option.some.inj hitem
  obtain ⟨_, hrules, _, hpairs⟩ := validateFiles_passed (errors_of_status hok)
  -- the place of a file, which was looked at
  have hplace : ∀ file ∈ files, ∃ path ∈ looked, path.components = file.1.components := by
    intro file hfile
    obtain ⟨names, hrule, hinspected, hcomponents⟩ := hplaces file hfile
    refine ⟨root.descend names, hcover names hrule hinspected, ?_⟩
    rw [hcomponents]
    exact PathBuf.components_descend root names
  constructor
  · intro file hfile
    obtain ⟨path, hpath, hsame⟩ := hplace file hfile
    obtain ⟨scene, hvalid⟩ := hrules path hpath
    exact ⟨scene, hvalid.congr (readToString_of_components hsame order order')⟩
  · intro file hfile file' hfile' hne scene scene' hvalid hvalid'
    obtain ⟨path, hpath, hsame⟩ := hplace file hfile
    obtain ⟨path', hpath', hsame'⟩ := hplace file' hfile'
    have hpaths : path ≠ path' := by
      rintro rfl
      exact hne (hsame.symm.trans hsame')
    exact hpairs.forall hpath hpath' hpaths scene scene'
      (hvalid.congr (readToString_of_components hsame.symm order' order))
      (hvalid'.congr (readToString_of_components hsame'.symm order' order))

section Files

variable {fs : FileSystem YamlText} {files : List (PathBuf × String)}
  (hpassed : AllPassed fs (yamlDecoder explain : YamlDecoder YamlText F) files)
  (hsorted : files.Pairwise fun a b => a.1.components < b.1.components)

include hpassed

theorem AllPassed.isSkipped {file : PathBuf × String} (hfile : file ∈ files) :
    isSkipped fs (yamlDecoder explain : YamlDecoder YamlText F) file = false := by
  obtain ⟨scene, hvalid⟩ := hpassed.valid file hfile
  exact (hvalid.loads file.2).1

theorem AllPassed.exists_content {file : PathBuf × String} (hfile : file ∈ files) :
    ∃ content, fs.readToString file.1 = .ok content := by
  obtain ⟨_, _, _, _, _, _, hread, _⟩ := hpassed.valid file hfile
  exact ⟨_, hread⟩

theorem AllPassed.skippedRules {strict : Option String} {engine : RuleEngine F}
    (hloaded : loadCollected fs (yamlDecoder explain) strict files = .ok engine) :
    engine.loadStats.skippedRules = 0 := by
  obtain ⟨s, haccounts, _, rfl⟩ := exists_of_loadCollected hloaded
  rw [haccounts.skipped, List.countP_eq_zero]
  intro file hfile
  simpa using hpassed.isSkipped hfile

/-- **Which loads fail**: those of two files with the same id. -/
theorem AllPassed.status_loadItem (strict : Option String) :
    (loadItem (loadCollected fs (yamlDecoder explain : YamlDecoder YamlText F) strict
        files)).status = .fail ↔
      ¬ (files.filterMap (fileId fs (yamlDecoder explain : YamlDecoder YamlText F))).Nodup := by
  have hiff : (∃ engine, loadCollected fs (yamlDecoder explain : YamlDecoder YamlText F) strict
      files = .ok engine) ↔ _ :=
    exists_loadCollected_iff fun file hfile => hpassed.exists_content hfile
  cases hresult : loadCollected fs (yamlDecoder explain : YamlDecoder YamlText F) strict files with
  | error e =>
    refine iff_of_true rfl fun hnodup => ?_
    obtain ⟨engine, hengine⟩ := hiff.mpr ⟨hnodup, fun _ file hfile => hpassed.isSkipped hfile⟩
    rw [hresult] at hengine
    cases hengine
  | ok engine =>
    exact iff_of_false (status_ne_fail (hpassed.skippedRules hresult))
      (not_not_intro (hiff.mp ⟨engine, hresult⟩).1)

include hsorted

theorem AllPassed.nodup_scene :
    ((files.filterMap (ruleOf fs (yamlDecoder explain : YamlDecoder YamlText F))).map
      Rule.scene).Nodup := by
  rw [List.Nodup, List.pairwise_map, List.pairwise_filterMap]
  refine hsorted.imp_of_mem ?_
  intro a b ha hb hlt rule hrule rule' hrule'
  obtain ⟨scene, hvalid⟩ := hpassed.valid a ha
  obtain ⟨scene', hvalid'⟩ := hpassed.valid b hb
  rw [((hvalid.loads a.2).2 rule hrule).1, ((hvalid'.loads b.2).2 rule' hrule').1]
  exact hpassed.differ a ha b hb hlt.ne scene scene' hvalid hvalid'

theorem AllPassed.rules_of_loadCollected {strict : Option String} {engine : RuleEngine F}
    (hloaded : loadCollected fs (yamlDecoder explain) strict files = .ok engine) :
    engine.rules.length +
        files.countP (hasBlankId fs (yamlDecoder explain : YamlDecoder YamlText F)) =
      files.length ∧
      (engine.rules.map Rule.scene).Nodup ∧
      ∀ rule ∈ engine.rules, 1 ≤ rule.priority ∧ rule.priority ≤ 100 := by
  have hskipped := hpassed.skippedRules hloaded
  obtain ⟨s, haccounts, _, rfl⟩ := exists_of_loadCollected hloaded
  have hperm : (sortRules s.rules).Perm s.rules := List.mergeSort_perm _ _
  refine ⟨?_, ?_, ?_⟩
  · have hcounted := haccounts.counted
    rw [haccounts.loaded, hskipped] at hcounted
    simp only [hperm.length_eq]
    omega
  · refine (hperm.map Rule.scene).nodup_iff.mpr ?_
    rw [haccounts.rules]
    exact hpassed.nodup_scene hsorted
  · intro rule hrule
    have hmem := hperm.mem_iff.mp hrule
    rw [haccounts.rules] at hmem
    obtain ⟨file, hfile, hruleOf⟩ := List.mem_filterMap.mp hmem
    obtain ⟨scene, hvalid⟩ := hpassed.valid file hfile
    exact ((hvalid.loads file.2).2 rule hruleOf).2

theorem AllPassed.nodup_fileId
    (hplain : ∀ file ∈ files, PlainId fs (yamlDecoder explain : YamlDecoder YamlText F) file) :
    (files.filterMap (fileId fs (yamlDecoder explain : YamlDecoder YamlText F))).Nodup := by
  rw [List.Nodup, List.pairwise_filterMap]
  refine hsorted.imp_of_mem ?_
  intro a b ha hb hlt id hid id' hid' heq
  obtain ⟨scene, hvalid⟩ := hpassed.valid a ha
  obtain ⟨scene', hvalid'⟩ := hpassed.valid b hb
  have hscenes := hpassed.differ a ha b hb hlt.ne scene scene' hvalid hvalid'
  rw [hvalid.fileId (hplain a ha)] at hid
  rw [hvalid'.fileId (hplain b hb)] at hid'
  rw [← Option.some.inj hid, ← Option.some.inj hid'] at heq
  -- the first dot ends the name of the pack
  exact hscenes (Text.append_sep_injective (c := '.') (by decide) (hplain a ha).1 (hplain b hb).1
    heq).2

end Files

end Load

/-- **A load that succeeds** could read its manifest and its directories. -/
theorem readable_of_status {F : Type} [FloatArith F] {tree : FileTree YamlText} {root : PathBuf}
    {order : ReadOrder} {fuel : Nat} {decoder : YamlDecoder YamlText F} {strict : Option String}
    {loaded : CheckItem} (hdir : tree.isDir = true)
    (hloaded : checkRulesLoad (tree.fileSystem root order) decoder fuel strict root = some loaded)
    (hstatus : loaded.status ≠ .fail) :
    ∃ manifest, readManifest (tree.fileSystem root order) decoder.manifest root = .ok manifest ∧
      NoIoErrors root tree root manifest := by
  obtain ⟨result, hresult, rfl⟩ := Option.map_eq_some_iff.mp hloaded
  cases result with
  | error e =>
    exact absurd rfl hstatus
  | ok engine =>
    obtain ⟨entries, hentries⟩ : ∃ entries, tree.resolve root root = some (.dir entries) := by
      rw [FileTree.resolve_root]
      cases tree with
      | file content => cases hdir
      | dir entries => exact ⟨entries, rfl⟩
    have hexists : (tree.fileSystem root order).pathExists root = true := by
      simp [FileTree.fileSystem]
    rw [loadFromDir, hexists] at hresult
    obtain ⟨files, hfiles, _⟩ := andThen_eq_ok hresult
    exact noIoErrors_of_collectRuleFiles order ⟨entries, hentries⟩ hfiles

section Sample

def sampleError (_ : YamlText) : String := "deserialize error"

/-- One rule without an id, and a fixture that is no YAML. -/
def fixtureTree : FileTree YamlText :=
  .dir
    [("drops.yaml", .file (some (ruleFileWithId .null))),
      ("fixtures", .dir [("case.yaml", .file none)])]

def dropsFile : PathBuf × String :=
  ((PathBuf.ofText "rules").child "drops.yaml", "legacy")

theorem readManifest_fixtureTree :
    readManifest (fixtureTree.fileSystem (.ofText "rules") .reversed)
        (yamlDecoder sampleError : YamlDecoder YamlText Binary64).manifest (.ofText "rules") =
      .ok none := by
  rfl

theorem noIoErrors_fixtureTree :
    NoIoErrors (.ofText "rules") fixtureTree (.ofText "rules") none := by
  refine ⟨⟨_, rfl⟩, ?_, ?_⟩
  · intro pack hpack
    cases hpack
  · intro _ content hget
    cases hget

theorem collectRuleFiles_fixtureTree :
    RuleFiles.collectRuleFiles (fixtureTree.fileSystem (.ofText "rules") .reversed) 2
        (yamlDecoder sampleError : YamlDecoder YamlText Binary64).manifest (.ofText "rules") =
      some (.ok [dropsFile]) := by
  have htaken : takenFiles (collectWith (fixtureTree.fileSystem (.ofText "rules") .reversed) 2
      (.ofText "rules") none) = some [dropsFile] := by
    decide +kernel
  refine (collectRuleFiles_of_takenFiles readManifest_fixtureTree htaken).trans ?_
  simp [sortFiles]

theorem checkRulesValidate_fixtureTree :
    checkRulesValidate (fixtureTree.fileSystem (.ofText "rules") .listed)
        (yamlDecoder sampleError : YamlDecoder YamlText Binary64) sampleError 2 (.ofText "rules") =
      some (verdict 1 []) := by
  have hswept : (fixtureTree.fileSystem (.ofText "rules") .listed).sweep
      (isFixtures (.ofText "rules")) pushCandidate 2 [.ofText "rules"] 0 [] =
        some [dropsFile.1] := by
    decide +kernel
  have herrors : ([dropsFile.1].foldl (validateFile (fixtureTree.fileSystem (.ofText "rules")
      .listed) (yamlDecoder sampleError : YamlDecoder YamlText Binary64) sampleError)
        .empty).errors = [] := by
    decide +kernel
  rw [checkRulesValidate, collectRuleFiles, hswept]
  simp only [Option.map_some, List.mergeSort_singleton, herrors]
  rfl

theorem lookedAt_dropsFile : LookedAt fixtureTree (.ofText "rules") dropsFile := by
  refine ⟨["drops.yaml"], ⟨⟨_, rfl⟩, by decide⟩, ⟨by decide, fun _ => rfl⟩, rfl⟩

end Sample

end Doctor

end ArkInfra
