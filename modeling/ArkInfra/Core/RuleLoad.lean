import ArkInfra.Core.RuleEngine
import ArkInfra.Core.RulePlaces
import ArkInfra.Core.RuleYaml

/-!
# Loading the rules

`core/src/rules/mod.rs`, `RuleEngine::load_from_dir`: the collected files are
read in the order of their paths.  A file that is no rule is counted as skipped;
a rule without an id gets one from its pack and scene; two rules with one id end
the load.  The rules are then sorted by priority, and in strict mode a skipped
file is an error.

`Accounts` says what the loader's state is after some of the files, and the
results about a load are read off from it.
-/

namespace ArkInfra

/-- What `serde_yaml` makes of the content of a file. -/
structure YamlDecoder (C F : Type) where
  manifest : C → Except String RulesManifest
  rule : C → Except String (RuleWire F)

namespace RuleLoad

open RuleFiles

def classifySkipReason (err : String) : String :=
  if Text.contains err "invalid type: map, expected a sequence" then "unsupported_syntax"
  else if Text.contains err "missing field" then "missing_field"
  else "deserialize_error"

def skip (stats : RuleLoadStats) (path reason detail : String) : RuleLoadStats :=
  { stats with
    skippedByReason := HashMap.bump reason stats.skippedByReason
    skippedRules := stats.skippedRules + 1
    skippedSamples := stats.skippedSamples ++
      [{ path := path, reason := reason, detail := detail }] }

def countLegacy (stats : RuleLoadStats) : LegacySyntaxStatus → RuleLoadStats
  | .migrated =>
    { stats with
      legacyTotal := stats.legacyTotal + 1
      legacyMigratableTotal := stats.legacyMigratableTotal + 1 }
  | .none => stats

section Load

variable {C F : Type}

/-- The id of a rule; a blank one is not accepted. -/
def finalId (rule : Rule F) (pack : String) : Option String :=
  match rule.id with
  | some id => if Text.trim id ≠ "" then some id else none
  | none => some (pack ++ "." ++ rule.scene)

/-- The variables of the loop over the files. -/
structure LoadState (F : Type) where
  rules : List (Rule F)
  stats : RuleLoadStats
  idOwner : HashMap String String

def LoadState.empty : LoadState F where
  rules := []
  stats := .default
  idOwner := ∅

/-- What is done with a file that was decoded. -/
def loadRule (s : LoadState F) (path : PathBuf) (pack : String) (wire : RuleWire F) :
    Except String (LoadState F) :=
  match wire.normalize with
  | .ok (rule, legacyStatus) =>
    let stats := countLegacy s.stats legacyStatus
    match finalId rule pack with
    | none => .ok { s with stats := stats }
    | some id =>
      match s.idOwner.lookup id with
      | some owner =>
        .error ("规则 ID 冲突: id=`" ++ id ++ "` 文件冲突: " ++ owner ++ " <-> " ++ path.text)
      | none =>
        .ok
          { rules := s.rules ++ [{ rule with id := some id }]
            stats := { stats with loadedRules := stats.loadedRules + 1 }
            idOwner := s.idOwner.insert id path.text }
  | .error e =>
    let stats :=
      { s.stats with
        legacyTotal := s.stats.legacyTotal + 1
        legacyUnsupportedTotal := s.stats.legacyUnsupportedTotal + 1 }
    .ok { s with stats := skip stats path.text "unsupported_legacy_condition" e }

variable (fs : FileSystem C) (decoder : YamlDecoder C F)

def loadFile (s : LoadState F) (file : PathBuf × String) : Except String (LoadState F) :=
  match fs.readToString file.1 with
  | .error e => .error ("读取规则文件失败 " ++ file.1.text ++ ": " ++ e)
  | .ok content =>
    match decoder.rule content with
    | .ok wire => loadRule s file.1 file.2 wire
    | .error e => .ok { s with stats := skip s.stats file.1.text (classifySkipReason e) e }

def loadFiles : List (PathBuf × String) → LoadState F → Except String (LoadState F)
  | [], s => .ok s
  | file :: files, s =>
    match loadFile fs decoder s file with
    | .error e => .error e
    | .ok s => loadFiles files s

/-- Sort by priority, the highest first; rules of one priority keep their order. -/
def sortRules (rules : List (Rule F)) : List (Rule F) :=
  rules.mergeSort fun a b => decide (b.priority ≤ a.priority)

/-- The value of `ARK_RULES_STRICT` turns the strict mode on. -/
def isStrict (strict : Option String) : Bool :=
  match strict with
  | some v => decide (v = "1") || decide (Text.toAsciiLowercase v = "true")
  | none => false

def maybeFailInStrictMode (strict : Option String) (stats : RuleLoadStats) :
    Except String Unit :=
  if isStrict strict && decide (0 < stats.skippedRules) then
    .error ("严格模式启用 (ARK_RULES_STRICT=1)，规则加载跳过 " ++ toString stats.skippedRules ++
      " 条，请修复后重试")
  else
    .ok ()

/-- What follows the collection of the files. -/
def loadCollected (strict : Option String) (files : List (PathBuf × String)) :
    Except String (RuleEngine F) :=
  match loadFiles fs decoder files .empty with
  | .error e => .error e
  | .ok s =>
    match maybeFailInStrictMode strict s.stats with
    | .error e => .error e
    | .ok () => .ok { rules := sortRules s.rules, loadStats := s.stats }

/-- Load the rules of a directory; without the directory there are none. -/
def loadFromDir (fuel : Nat) (strict : Option String) (dir : PathBuf) :
    Outcome (RuleEngine F) :=
  if !fs.pathExists dir then some (.ok { rules := [], loadStats := .default })
  else
    (collectRuleFiles fs fuel decoder.manifest dir).andThen fun files =>
      some (loadCollected fs decoder strict files)

def ruleFiles (fuel : Nat) (dir : PathBuf) : Outcome (List (PathBuf × String)) :=
  if fs.pathExists dir then collectRuleFiles fs fuel decoder.manifest dir else some (.ok [])

end Load

section Step

variable {C F : Type} (fs : FileSystem C) (decoder : YamlDecoder C F)

def ruleOf (file : PathBuf × String) : Option (Rule F) :=
  match fs.readToString file.1 with
  | .error _ => none
  | .ok content =>
    match decoder.rule content with
    | .error _ => none
    | .ok wire =>
      match wire.normalize with
      | .error _ => none
      | .ok (rule, _) =>
        (finalId rule file.2).map fun id => { rule with id := some id }

def hasBlankId (file : PathBuf × String) : Bool :=
  match fs.readToString file.1 with
  | .error _ => false
  | .ok content =>
    match decoder.rule content with
    | .error _ => false
    | .ok wire =>
      match wire.normalize with
      | .error _ => false
      | .ok (rule, _) => rule.id.any fun id => decide (Text.trim id = "")

def isSkipped (file : PathBuf × String) : Bool :=
  (ruleOf fs decoder file).isNone && !hasBlankId fs decoder file

/-- The id under which the rule of a file is loaded. -/
def fileId (file : PathBuf × String) : Option String :=
  (ruleOf fs decoder file).bind Rule.id

/-- What a file can do to the state: every way through the loop body. -/
inductive LoadsFile (s : LoadState F) (file : PathBuf × String) : LoadState F → Prop
  | undecodable (e : String)
      (hrule : ruleOf fs decoder file = none)
      (hblank : hasBlankId fs decoder file = false) :
      LoadsFile s file
        { s with stats := skip s.stats file.1.text (classifySkipReason e) e }
  | unsupported (e : String)
      (hrule : ruleOf fs decoder file = none)
      (hblank : hasBlankId fs decoder file = false) :
      LoadsFile s file
        { s with
          stats := skip
            { s.stats with
              legacyTotal := s.stats.legacyTotal + 1
              legacyUnsupportedTotal := s.stats.legacyUnsupportedTotal + 1 }
            file.1.text "unsupported_legacy_condition" e }
  | blank (status : LegacySyntaxStatus)
      (hrule : ruleOf fs decoder file = none)
      (hblank : hasBlankId fs decoder file = true) :
      LoadsFile s file { s with stats := countLegacy s.stats status }
  | loaded (rule : Rule F) (id : String) (status : LegacySyntaxStatus)
      (hrule : ruleOf fs decoder file = some rule)
      (hblank : hasBlankId fs decoder file = false)
      (hid : rule.id = some id)
      (hnonblank : Text.trim id ≠ "")
      (hfresh : s.idOwner.lookup id = none) :
      LoadsFile s file
        { rules := s.rules ++ [rule]
          stats := { countLegacy s.stats status with
            loadedRules := (countLegacy s.stats status).loadedRules + 1 }
          idOwner := s.idOwner.insert id file.1.text }

variable {fs decoder}

theorem finalId_eq_some {rule : Rule F} {pack id : String} (h : finalId rule pack = some id) :
    Text.trim id ≠ "" ∧ (rule.id.any fun id => decide (Text.trim id = "")) = false := by
  unfold finalId at h
  cases hid : rule.id with
  | some id' =>
    rw [hid] at h
    by_cases hblank : Text.trim id' = ""
    · simp [hblank] at h
    · have heq : id' = id := by
        simpa [hblank] using h
      rw [← heq]
      exact ⟨hblank, by simpa using hblank⟩
  | none =>
    rw [hid] at h
    have heq : pack ++ "." ++ rule.scene = id := Option.some.inj h
    refine ⟨Text.trim_ne_empty (c := '.') ?_ (by decide), rfl⟩
    simp [← heq]

theorem finalId_eq_none {rule : Rule F} {pack : String} (h : finalId rule pack = none) :
    (rule.id.any fun id => decide (Text.trim id = "")) = true := by
  unfold finalId at h
  cases hid : rule.id with
  | some id =>
    rw [hid] at h
    by_cases hblank : Text.trim id = ""
    · simpa using hblank
    · simp [hblank] at h
  | none =>
    rw [hid] at h
    cases h

theorem loadsFile_of_loadFile {s s' : LoadState F} {file : PathBuf × String}
    (h : loadFile fs decoder s file = .ok s') : LoadsFile fs decoder s file s' := by
  unfold loadFile at h
  cases hread : fs.readToString file.1 with
  | error e =>
    rw [hread] at h
    cases h
  | ok content =>
    simp only [hread] at h
    cases hdecode : decoder.rule content with
    | error e =>
      rw [hdecode] at h
      cases h
      apply LoadsFile.undecodable
      · simp [ruleOf, hread, hdecode]
      · simp [hasBlankId, hread, hdecode]
    | ok wire =>
      simp only [hdecode, loadRule] at h
      cases hnormal : wire.normalize with
      | error e =>
        rw [hnormal] at h
        cases h
        apply LoadsFile.unsupported
        · simp [ruleOf, hread, hdecode, hnormal]
        · simp [hasBlankId, hread, hdecode, hnormal]
      | ok result =>
        obtain ⟨rule, status⟩ := result
        simp only [hnormal] at h
        cases hid : finalId rule file.2 with
        | none =>
          rw [hid] at h
          cases h
          apply LoadsFile.blank
          · simp [ruleOf, hread, hdecode, hnormal, hid]
          · simp [hasBlankId, hread, hdecode, hnormal, finalId_eq_none hid]
        | some id =>
          simp only [hid] at h
          cases hfresh : s.idOwner.lookup id with
          | some owner =>
            rw [hfresh] at h
            cases h
          | none =>
            rw [hfresh] at h
            cases h
            refine LoadsFile.loaded { rule with id := some id } id status ?_ ?_ rfl
              (finalId_eq_some hid).1 hfresh
            · simp [ruleOf, hread, hdecode, hnormal, hid]
            · simp [hasBlankId, hread, hdecode, hnormal, (finalId_eq_some hid).2]

end Step

section Run

variable {C F : Type} (fs : FileSystem C) (decoder : YamlDecoder C F)

@[simp] theorem countLegacy_loadedRules (stats : RuleLoadStats) (status : LegacySyntaxStatus) :
    (countLegacy stats status).loadedRules = stats.loadedRules := by
  cases status <;> rfl

@[simp] theorem countLegacy_skippedRules (stats : RuleLoadStats) (status : LegacySyntaxStatus) :
    (countLegacy stats status).skippedRules = stats.skippedRules := by
  cases status <;> rfl

@[simp] theorem countLegacy_skippedByReason (stats : RuleLoadStats)
    (status : LegacySyntaxStatus) :
    (countLegacy stats status).skippedByReason = stats.skippedByReason := by
  cases status <;> rfl

@[simp] theorem countLegacy_skippedSamples (stats : RuleLoadStats)
    (status : LegacySyntaxStatus) :
    (countLegacy stats status).skippedSamples = stats.skippedSamples := by
  cases status <;> rfl

structure SkipsCounted (stats : RuleLoadStats) : Prop where
  reasons : HashMap.total stats.skippedByReason = stats.skippedRules
  samples : stats.skippedSamples.length = stats.skippedRules

theorem SkipsCounted.skip {stats : RuleLoadStats} (h : SkipsCounted stats)
    (path reason detail : String) : SkipsCounted (skip stats path reason detail) := by
  constructor
  · simp [RuleLoad.skip, h.reasons]
  · simp [RuleLoad.skip, h.samples]

/-- The state of the loader after the files `seen`. -/
structure Accounts (seen : List (PathBuf × String)) (s : LoadState F) : Prop where
  rules : s.rules = seen.filterMap (ruleOf fs decoder)
  loaded : s.stats.loadedRules = s.rules.length
  /-- A file with a blank id is neither loaded nor skipped. -/
  counted : s.stats.loadedRules + s.stats.skippedRules +
    seen.countP (hasBlankId fs decoder) = seen.length
  skips : SkipsCounted s.stats
  skipped : s.stats.skippedRules = seen.countP (isSkipped fs decoder)
  owners : ∀ id, s.idOwner.lookup id = none ↔ ∀ rule ∈ s.rules, rule.id ≠ some id
  distinct : (s.rules.map Rule.id).Nodup
  nonblank : ∀ rule ∈ s.rules, ∃ id, rule.id = some id ∧ Text.trim id ≠ ""

theorem accounts_empty : Accounts fs decoder [] (LoadState.empty : LoadState F) := by
  refine ⟨rfl, rfl, rfl, ⟨rfl, rfl⟩, rfl, ?_, List.nodup_nil, ?_⟩
  · intro id
    simp [LoadState.empty]
  · intro rule hrule
    cases hrule

variable {fs decoder}

/-- **One file.** -/
theorem Accounts.step {seen : List (PathBuf × String)} {s s' : LoadState F}
    {file : PathBuf × String} (h : Accounts fs decoder seen s)
    (hstep : LoadsFile fs decoder s file s') : Accounts fs decoder (seen ++ [file]) s' := by
  have hcounted := h.counted
  cases hstep with
  | undecodable e hrule hblank =>
    refine ⟨?_, h.loaded, ?_, h.skips.skip _ _ _, ?_, h.owners, h.distinct, h.nonblank⟩
    · simp [h.rules, hrule]
    · simp [skip, hblank]
      omega
    · simp [skip, isSkipped, hrule, hblank, h.skipped]
  | unsupported e hrule hblank =>
    refine ⟨?_, h.loaded, ?_, ?_, ?_, h.owners, h.distinct, h.nonblank⟩
    · simp [h.rules, hrule]
    · simp [skip, hblank]
      omega
    · apply SkipsCounted.skip
      exact ⟨h.skips.reasons, h.skips.samples⟩
    · simp [skip, isSkipped, hrule, hblank, h.skipped]
  | blank status hrule hblank =>
    refine ⟨?_, ?_, ?_, ⟨?_, ?_⟩, ?_, h.owners, h.distinct, h.nonblank⟩
    · simp [h.rules, hrule]
    · simpa using h.loaded
    · simp [hblank]
      omega
    · simpa using h.skips.reasons
    · simpa using h.skips.samples
    · simp [isSkipped, hblank, h.skipped]
  | loaded rule id status hrule hblank hid hnonblank hfresh =>
    have hnew := (h.owners id).mp hfresh
    refine ⟨?_, ?_, ?_, ⟨?_, ?_⟩, ?_, ?_, ?_, ?_⟩
    · simp [h.rules, hrule]
    · simp [h.loaded]
    · simp [hblank]
      omega
    · simpa using h.skips.reasons
    · simpa using h.skips.samples
    · simp [isSkipped, hrule, h.skipped]
    · intro id'
      rw [HashMap.lookup_insert_ite]
      by_cases heq : id' = id
      · simp [heq, hid]
      · simp [heq, h.owners, or_imp, forall_and, hid, Ne.symm heq]
    · rw [List.map_append, List.nodup_append]
      refine ⟨h.distinct, by simp, ?_⟩
      intro a ha b hb heq
      obtain ⟨rule', hmem, rfl⟩ := List.mem_map.mp ha
      rw [List.map_singleton, List.mem_singleton] at hb
      exact hnew rule' hmem (heq.trans (hb.trans hid))
    · intro rule' hrule'
      rcases List.mem_append.mp hrule' with hmem | hmem
      · exact h.nonblank rule' hmem
      · rw [List.mem_singleton.mp hmem]
        exact ⟨id, hid, hnonblank⟩

/-- **All files.** -/
theorem Accounts.run {seen files : List (PathBuf × String)} {s s' : LoadState F}
    (h : Accounts fs decoder seen s) (hrun : loadFiles fs decoder files s = .ok s') :
    Accounts fs decoder (seen ++ files) s' := by
  induction files generalizing seen s with
  | nil =>
    cases hrun
    rw [List.append_nil]
    exact h
  | cons file files ih =>
    cases hfile : loadFile fs decoder s file with
    | error e =>
      simp [loadFiles, hfile] at hrun
    | ok s₁ =>
      simp only [loadFiles, hfile] at hrun
      rw [List.append_cons]
      exact ih (h.step (loadsFile_of_loadFile hfile)) hrun

end Run

section Result

variable {C F : Type} {fs : FileSystem C} {decoder : YamlDecoder C F}

/-- **A load that succeeds** went through its files, with a state that accounts
for them. -/
theorem exists_of_loadCollected {strict : Option String} {files : List (PathBuf × String)}
    {engine : RuleEngine F} (h : loadCollected fs decoder strict files = .ok engine) :
    ∃ s, Accounts fs decoder files s ∧ maybeFailInStrictMode strict s.stats = .ok () ∧
      engine = { rules := sortRules s.rules, loadStats := s.stats } := by
  unfold loadCollected at h
  cases hload : loadFiles fs decoder files .empty with
  | error e =>
    rw [hload] at h
    cases h
  | ok s =>
    simp only [hload] at h
    cases hstrict : maybeFailInStrictMode strict s.stats with
    | error e =>
      rw [hstrict] at h
      cases h
    | ok u =>
      rw [hstrict] at h
      cases h
      exact ⟨s, (accounts_empty fs decoder).run hload, hstrict, rfl⟩

theorem loadCollected_nil (strict : Option String) :
    loadCollected fs decoder strict [] = .ok { rules := [], loadStats := .default } := by
  simp [loadCollected, loadFiles, LoadState.empty, maybeFailInStrictMode, RuleLoadStats.default,
    sortRules]

/-- A load is what happens to its files, also when the directory is missing. -/
theorem loadFromDir_eq (fuel : Nat) (strict : Option String) (dir : PathBuf) :
    loadFromDir fs decoder fuel strict dir =
      (ruleFiles fs decoder fuel dir).andThen fun files =>
        some (loadCollected fs decoder strict files) := by
  unfold loadFromDir ruleFiles
  by_cases hexists : fs.pathExists dir = true
  · simp [hexists]
  · simp [hexists, Outcome.andThen, loadCollected_nil]

theorem loadFromDir_of_ruleFiles {fuel : Nat} {dir : PathBuf} {files : List (PathBuf × String)}
    (hfiles : ruleFiles fs decoder fuel dir = some (.ok files)) (strict : Option String) :
    loadFromDir fs decoder fuel strict dir = some (loadCollected fs decoder strict files) := by
  rw [loadFromDir_eq, hfiles]
  rfl

theorem loadCollected_of_load {fuel : Nat} {strict : Option String} {dir : PathBuf}
    {engine : RuleEngine F} {files : List (PathBuf × String)}
    (h : loadFromDir fs decoder fuel strict dir = some (.ok engine))
    (hfiles : ruleFiles fs decoder fuel dir = some (.ok files)) :
    loadCollected fs decoder strict files = .ok engine := by
  rw [loadFromDir_of_ruleFiles hfiles] at h
  exact Option.some.inj h

end Result

section Criterion

variable {C F : Type} {fs : FileSystem C} {decoder : YamlDecoder C F}

theorem Accounts.filterMap_id {seen : List (PathBuf × String)} {s : LoadState F}
    (h : Accounts fs decoder seen s) :
    s.rules.filterMap Rule.id = seen.filterMap (fileId fs decoder) := by
  rw [h.rules, List.filterMap_filterMap]
  rfl

theorem Accounts.nodup_fileId {seen : List (PathBuf × String)} {s : LoadState F}
    (h : Accounts fs decoder seen s) : (seen.filterMap (fileId fs decoder)).Nodup := by
  have hids : (s.rules.map Rule.id).filterMap id = s.rules.filterMap Rule.id := by
    rw [List.filterMap_map]
    rfl
  rw [← h.filterMap_id, ← hids]
  refine h.distinct.filterMap ?_
  intro a a' id ha ha'
  exact ha.trans ha'.symm

theorem maybeFailInStrictMode_eq_ok_iff {strict : Option String} {stats : RuleLoadStats} :
    maybeFailInStrictMode strict stats = .ok () ↔
      (isStrict strict = true → stats.skippedRules = 0) := by
  unfold maybeFailInStrictMode
  cases isStrict strict with
  | false =>
    simp
  | true =>
    by_cases hskipped : stats.skippedRules = 0
    · simp [hskipped]
    · simp [hskipped, Nat.pos_of_ne_zero hskipped]

theorem Accounts.exists_loadFile {seen : List (PathBuf × String)} {s : LoadState F}
    (h : Accounts fs decoder seen s) {file : PathBuf × String} {content : C}
    (hread : fs.readToString file.1 = .ok content)
    (hfresh : ∀ id, fileId fs decoder file = some id →
      id ∉ seen.filterMap (fileId fs decoder)) :
    ∃ s', loadFile fs decoder s file = .ok s' := by
  unfold loadFile
  simp only [hread]
  cases hdecode : decoder.rule content with
  | error e =>
    exact ⟨_, rfl⟩
  | ok wire =>
    simp only [loadRule]
    cases hnormal : wire.normalize with
    | error e =>
      exact ⟨_, rfl⟩
    | ok result =>
      obtain ⟨rule, status⟩ := result
      cases hid : finalId rule file.2 with
      | none =>
        simp only [hid]
        exact ⟨_, rfl⟩
      | some id =>
        have hfile : fileId fs decoder file = some id := by
          simp [fileId, ruleOf, hread, hdecode, hnormal, hid]
        have howner : s.idOwner.lookup id = none := by
          rw [h.owners]
          intro rule' hrule' hid'
          apply hfresh id hfile
          rw [← h.filterMap_id]
          exact List.mem_filterMap.mpr ⟨rule', hrule', hid'⟩
        simp only [hid, howner]
        exact ⟨_, rfl⟩

theorem Accounts.exists_loadFiles {seen files : List (PathBuf × String)} {s : LoadState F}
    (h : Accounts fs decoder seen s)
    (hread : ∀ file ∈ files, ∃ content, fs.readToString file.1 = .ok content)
    (hnodup : ((seen ++ files).filterMap (fileId fs decoder)).Nodup) :
    ∃ s', loadFiles fs decoder files s = .ok s' := by
  induction files generalizing seen s with
  | nil =>
    exact ⟨s, rfl⟩
  | cons file files ih =>
    obtain ⟨content, hcontent⟩ := hread file (by simp)
    have hfresh : ∀ id, fileId fs decoder file = some id →
        id ∉ seen.filterMap (fileId fs decoder) := by
      intro id hid hmem
      rw [List.filterMap_append, List.nodup_append] at hnodup
      exact hnodup.2.2 id hmem id (List.mem_filterMap.mpr ⟨file, by simp, hid⟩) rfl
    obtain ⟨s₁, hs₁⟩ := h.exists_loadFile hcontent hfresh
    rw [List.append_cons] at hnodup
    obtain ⟨s', hs'⟩ := ih (h.step (loadsFile_of_loadFile hs₁))
      (fun file' hfile' => hread file' (List.mem_cons_of_mem _ hfile')) hnodup
    exact ⟨s', by simp only [loadFiles, hs₁, hs']⟩

theorem exists_content_of_loadFiles {files : List (PathBuf × String)} {s s' : LoadState F}
    (h : loadFiles fs decoder files s = .ok s') :
    ∀ file ∈ files, ∃ content, fs.readToString file.1 = .ok content := by
  induction files generalizing s with
  | nil =>
    intro file hfile
    cases hfile
  | cons file files ih =>
    cases hstep : loadFile fs decoder s file with
    | error e =>
      simp [loadFiles, hstep] at h
    | ok s₁ =>
      simp only [loadFiles, hstep] at h
      intro file' hfile'
      rcases List.mem_cons.mp hfile' with rfl | hmem
      · cases hread : fs.readToString file'.1 with
        | error e =>
          simp [loadFile, hread] at hstep
        | ok content =>
          exact ⟨content, rfl⟩
      · exact ih h file' hmem

theorem exists_content_of_loadCollected {strict : Option String}
    {files : List (PathBuf × String)} {engine : RuleEngine F}
    (h : loadCollected fs decoder strict files = .ok engine) :
    ∀ file ∈ files, ∃ content, fs.readToString file.1 = .ok content := by
  unfold loadCollected at h
  cases hload : loadFiles fs decoder files .empty with
  | error e =>
    rw [hload] at h
    cases h
  | ok s =>
    exact exists_content_of_loadFiles hload

/-- **When a load succeeds**, given that its files can be read: the ids are
distinct, and in strict mode every file is a rule. -/
theorem exists_loadCollected_iff {strict : Option String} {files : List (PathBuf × String)}
    (hread : ∀ file ∈ files, ∃ content, fs.readToString file.1 = .ok content) :
    (∃ engine, loadCollected fs decoder strict files = .ok engine) ↔
      (files.filterMap (fileId fs decoder)).Nodup ∧
        (isStrict strict = true → ∀ file ∈ files, isSkipped fs decoder file = false) := by
  constructor
  · rintro ⟨engine, hengine⟩
    obtain ⟨s, haccounts, hstrict, _⟩ := exists_of_loadCollected hengine
    refine ⟨haccounts.nodup_fileId, ?_⟩
    intro hon file hfile
    have hzero := maybeFailInStrictMode_eq_ok_iff.mp hstrict hon
    rw [haccounts.skipped] at hzero
    simpa using List.countP_eq_zero.mp hzero file hfile
  · rintro ⟨hnodup, hskipped⟩
    obtain ⟨s, hs⟩ := (accounts_empty fs decoder).exists_loadFiles hread hnodup
    have haccounts := (accounts_empty fs decoder).run hs
    have hstrict : maybeFailInStrictMode strict s.stats = .ok () := by
      rw [maybeFailInStrictMode_eq_ok_iff]
      intro hon
      rw [haccounts.skipped, List.countP_eq_zero]
      intro file hfile
      simp [hskipped hon file hfile]
    simp only [loadCollected, hs, hstrict]
    exact ⟨_, rfl⟩

end Criterion

section Accounting

variable {C F : Type} (fs : FileSystem C) (decoder : YamlDecoder C F)

def Contributed (engine : RuleEngine F) (file : PathBuf × String) : Prop :=
  ∃ rule, ruleOf fs decoder file = some rule ∧ rule ∈ engine.rules

/-- Every file is accounted for, and in strict mode every file is loaded. -/
structure AllAccounted (strict : Option String) (files : List (PathBuf × String))
    (engine : RuleEngine F) : Prop where
  counted : engine.loadStats.loadedRules + engine.loadStats.skippedRules = files.length
  reasons : engine.loadStats.skippedRules = HashMap.total engine.loadStats.skippedByReason
  samples : engine.loadStats.skippedRules = engine.loadStats.skippedSamples.length
  strict : isStrict strict = true → ∀ file ∈ files, Contributed fs decoder engine file

/-- **A load accounts for its files exactly when none of them has a blank id.** -/
theorem allAccounted_iff (fuel : Nat) (strict : Option String) (dir : PathBuf)
    (engine : RuleEngine F) (files : List (PathBuf × String))
    (hload : loadFromDir fs decoder fuel strict dir = some (.ok engine))
    (hfiles : ruleFiles fs decoder fuel dir = some (.ok files)) :
    AllAccounted fs decoder strict files engine ↔
      ∀ file ∈ files, hasBlankId fs decoder file = false := by
  obtain ⟨s, haccounts, hstrict, rfl⟩ :=
    exists_of_loadCollected (loadCollected_of_load hload hfiles)
  have hcounted := haccounts.counted
  constructor
  · rintro ⟨hall, _, _, _⟩
    have hzero : files.countP (hasBlankId fs decoder) = 0 := by
      simp only at hall
      omega
    intro file hfile
    simpa using List.countP_eq_zero.mp hzero file hfile
  · intro hnone
    have hzero : files.countP (hasBlankId fs decoder) = 0 := by
      rw [List.countP_eq_zero]
      intro file hfile
      simp [hnone file hfile]
    refine ⟨?_, haccounts.skips.reasons.symm, haccounts.skips.samples.symm, ?_⟩
    · simp only
      omega
    · intro hon
      -- nothing was skipped, so there are as many rules as files
      have hskipped := maybeFailInStrictMode_eq_ok_iff.mp hstrict hon
      have hlength : (files.filterMap (ruleOf fs decoder)).length = files.length := by
        rw [← haccounts.rules, ← haccounts.loaded]
        omega
      intro file hfile
      obtain ⟨rule, hrule⟩ := Option.isSome_iff_exists.mp
        (List.filterMap_length_eq_length.mp hlength file hfile)
      refine ⟨rule, hrule, ?_⟩
      rw [sortRules, List.mem_mergeSort, haccounts.rules]
      exact List.mem_filterMap.mpr ⟨file, hfile, hrule⟩

end Accounting

section Yaml

open Yaml RuleYaml

def readManifestPack (doc : Doc) : Option ManifestPack := do
  let entries ← doc.asMapping
  let name ← (Mapping.lookup "name" entries).bind Doc.text
  let enabled ← withDefault true (resolved readBool) (Mapping.lookup "enabled" entries)
  let dir ← (Mapping.lookup "dir" entries).bind Doc.text
  return { name := name, enabled := enabled, dir := dir }

def readManifestLegacy (doc : Doc) : Option ManifestLegacy := do
  let entries ← doc.asMapping
  let enabled ← withDefault true (resolved readBool) (Mapping.lookup "enabled" entries)
  let _ ← withDefault [] stringList (Mapping.lookup "patterns" entries)
  let _ ← withDefault [] stringList (Mapping.lookup "exclude" entries)
  return { enabled := enabled }

/-- The manifest; without the key `legacy` the legacy files are off. -/
def readRulesManifest (doc : Doc) : Option RulesManifest := do
  let entries ← doc.asMapping
  let version ← (Mapping.lookup "version" entries).bind (resolved RuleYaml.readU32)
  let packs ← withDefault []
    (fun doc => doc.asSequence.bind fun items => items.mapM readManifestPack)
    (Mapping.lookup "packs" entries)
  let legacy ← withDefault { enabled := false } readManifestLegacy
    (Mapping.lookup "legacy" entries)
  return { version := version, packs := packs, legacy := legacy }

/-- The content of a file: a YAML document, or no YAML at all. -/
abbrev YamlText := Option Doc

/-- The decoder of YAML documents, with the texts of its errors. -/
def yamlDecoder {F : Type} [FloatArith F] (explain : YamlText → String) :
    YamlDecoder YamlText F where
  manifest := fun text =>
    match text.bind readRulesManifest with
    | some manifest => .ok manifest
    | none => .error (explain text)
  rule := fun text =>
    match text.bind RuleWire.decode with
    | some wire => .ok wire
    | none => .error (explain text)

def ruleFileWithId (id : Plain) : Doc :=
  .ofValue (.mapping
    [(.string "id", id),
      (.string "name", .string "drops"),
      (.string "scene", .string "network_stall"),
      (.string "priority", .number "10"),
      (.string "conditions", .sequence [.mapping
        [(.string "type", .string "event"), (.string "event_type", .string "transport.drop")]]),
      (.string "root_cause_pattern", .mapping [(.string "primary", .string "x")]),
      (.string "solution_steps", .sequence []),
      (.string "related_evidences", .sequence []),
      (.string "applicability", .mapping [])])

def oneRuleDir (id : Plain) : FileSystem YamlText :=
  (FileTree.dir [("drops.yaml", .file (some (ruleFileWithId id)))]).fileSystem
    (.ofText "rules") .listed

def sampleDecoder : YamlDecoder YamlText Binary64 :=
  yamlDecoder fun _ => "deserialize error"

theorem ruleFiles_oneRuleDir (id : Plain) :
    ruleFiles (oneRuleDir id) sampleDecoder 1 (.ofText "rules") =
      some (.ok [((PathBuf.ofText "rules").child "drops.yaml", "legacy")]) := by
  have hmanifest : readManifest (oneRuleDir id) sampleDecoder.manifest (.ofText "rules") =
      .ok none := by
    rfl
  have haccept : isLegacyFile (oneRuleDir id) ((PathBuf.ofText "rules").child "drops.yaml") =
      true := by
    rfl
  have htaken : takenFiles (collectWith (oneRuleDir id) 1 (.ofText "rules") none) =
      some [((PathBuf.ofText "rules").child "drops.yaml", "legacy")] := by
    change some (take (isLegacyFile (oneRuleDir id)) "legacy" .empty
      ((PathBuf.ofText "rules").child "drops.yaml")).out = _
    simp [take, haccept, Collected.empty]
  have hexists : (oneRuleDir id).pathExists (.ofText "rules") = true := by
    rfl
  rw [ruleFiles, if_pos hexists, collectRuleFiles_of_takenFiles hmanifest htaken]
  simp [sortFiles]

/-- With a proper id the file is accounted for. -/
theorem allAccounted_properId :
    ∃ (engine : RuleEngine Binary64) (files : List (PathBuf × String)),
      loadFromDir (oneRuleDir (.string "net.stall")) sampleDecoder 1 (some "1")
        (.ofText "rules") = some (.ok engine) ∧
      ruleFiles (oneRuleDir (.string "net.stall")) sampleDecoder 1 (.ofText "rules") =
        some (.ok files) ∧
      AllAccounted (oneRuleDir (.string "net.stall")) sampleDecoder (some "1") files engine := by
  have hfiles := ruleFiles_oneRuleDir (.string "net.stall")
  obtain ⟨engine, hengine⟩ : ∃ engine, loadCollected (oneRuleDir (.string "net.stall"))
      sampleDecoder (some "1") [((PathBuf.ofText "rules").child "drops.yaml", "legacy")] =
        .ok engine := ⟨_, rfl⟩
  have hload : loadFromDir (oneRuleDir (.string "net.stall")) sampleDecoder 1 (some "1")
      (.ofText "rules") = some (.ok engine) := by
    rw [loadFromDir_of_ruleFiles hfiles, hengine]
  refine ⟨engine, _, hload, hfiles, ?_⟩
  refine (allAccounted_iff _ _ 1 _ _ engine _ hload hfiles).mpr ?_
  intro file hfile
  rw [List.mem_singleton.mp hfile]
  decide +kernel

/-- **In strict mode a rule with a blank id is dropped without a word**: the load
succeeds, with no rule and no skipped file. -/
theorem blankId_dropped :
    ∃ (engine : RuleEngine Binary64) (files : List (PathBuf × String)),
      loadFromDir (oneRuleDir (.string "")) sampleDecoder 1 (some "1") (.ofText "rules") =
        some (.ok engine) ∧
      ruleFiles (oneRuleDir (.string "")) sampleDecoder 1 (.ofText "rules") =
        some (.ok files) ∧
      files.length = 1 ∧ engine.rules = [] ∧
      engine.loadStats.loadedRules + engine.loadStats.skippedRules = 0 ∧
      ¬ AllAccounted (oneRuleDir (.string "")) sampleDecoder (some "1") files engine := by
  have hfiles := ruleFiles_oneRuleDir (.string "")
  have hengine : loadCollected (oneRuleDir (.string "")) sampleDecoder (some "1")
      [((PathBuf.ofText "rules").child "drops.yaml", "legacy")] =
        .ok { rules := sortRules [], loadStats := .default } := by
    rfl
  have hload : loadFromDir (oneRuleDir (.string "")) sampleDecoder 1 (some "1")
      (.ofText "rules") = some (.ok { rules := sortRules [], loadStats := .default }) := by
    rw [loadFromDir_of_ruleFiles hfiles, hengine]
  refine ⟨_, _, hload, hfiles, rfl, by simp [sortRules], rfl, ?_⟩
  rintro ⟨hcounted, _, _, _⟩
  simp [RuleLoadStats.default] at hcounted

end Yaml

end RuleLoad

end ArkInfra
