import ArkInfra.Core.RuleFiles

/-!
# Where the rule files lie

The collection of `RuleFiles` in terms of the names that lead to a file from the
rules directory: a file below an enabled pack belongs to the first such pack,
and a file in the directory itself or below `legacy/` is a legacy file
(`expectedLabel`).  The directories of the packs are relative and do not go up;
they may overlap.
-/

namespace ArkInfra

namespace RuleFiles

def relNames (dir : String) : List String :=
  (PathBuf.relativeComponents dir).map Component.asStr

def RelativeDir (dir : String) : Prop :=
  Text.startsWith dir "/" = false ∧ Component.parentDir ∉ PathBuf.relativeComponents dir

/-- The pack directory contains what the names lead to. -/
def packContains (pack : ManifestPack) (names : List String) : Bool :=
  (relNames pack.dir).isPrefixOf names

/-- A file for the legacy stage: directly in the rules directory, other than the
manifest, or below `legacy/`. -/
def isLegacyPlace (names : List String) : Bool :=
  (decide (names.length = 1) && decide (names ≠ ["manifest.yaml"])) ||
    ["legacy"].isPrefixOf names

/-- The label of a file: its first enabled pack, or `legacy`. -/
def expectedLabel (manifest : Option RulesManifest) (names : List String) : Option String :=
  match (enabledPacks manifest).find? fun pack => packContains pack names with
  | some pack => some pack.name
  | none => if legacyOn manifest && isLegacyPlace names then some "legacy" else none

def isRuleName (names : List String) : Bool :=
  decide (names.getLast?.bind PathBuf.extensionOf = some "yaml") ||
    decide (names.getLast?.bind PathBuf.extensionOf = some "yml")

def RuleFileAt {C : Type} (tree : FileTree C) (names : List String) : Prop :=
  (∃ content, tree.get? names = some (.file content)) ∧ isRuleName names = true

/-- The components of the path the names stand for. -/
def placeOf (root : PathBuf) (names : List String) : List Component :=
  root.components ++ names.map .normal

theorem placeOf_injective (root : PathBuf) : Function.Injective (placeOf root) := by
  intro names names' h
  exact Component.map_normal_injective (List.append_cancel_left h)

theorem components_relNames {dir : String} (h : RelativeDir dir) :
    PathBuf.relativeComponents dir = (relNames dir).map .normal := by
  -- a piece of a path leaves a name or goes up
  have hnormal : ∀ c ∈ PathBuf.relativeComponents dir, Component.normal c.asStr = c := by
    intro c hc
    obtain ⟨piece, _, hpiece⟩ := List.mem_filterMap.mp hc
    unfold Component.ofPiece at hpiece
    split_ifs at hpiece with hskip hup
    · obtain rfl := Option.some.inj hpiece
      exact absurd hc h.2
    · obtain rfl := Option.some.inj hpiece
      rfl
  rw [relNames, List.map_map]
  exact ((List.map_congr_left hnormal).trans (List.map_id _)).symm

theorem components_join {root : PathBuf} {dir : String} (h : RelativeDir dir) :
    (root.join dir).components = placeOf root (relNames dir) := by
  rw [PathBuf.join, if_neg (by simp [h.1]), placeOf, ← components_relNames h]

theorem components_descend_join (root : PathBuf) {dir : String} (h : RelativeDir dir)
    (rest : List String) :
    ((root.join dir).descend rest).components = placeOf root (relNames dir ++ rest) := by
  rw [PathBuf.components_descend, components_join h, placeOf, placeOf, List.map_append,
    List.append_assoc]

theorem isRuleFile_eq {root path : PathBuf} {names : List String}
    (h : path.components = placeOf root names) (hne : names ≠ []) :
    isRuleFile path = isRuleName names := by
  obtain ⟨names, name, rfl⟩ := List.eq_nil_or_concat names |>.resolve_left hne
  have hlast : path.fileName = some name := by
    simp [PathBuf.fileName, h, placeOf]
  simp [isRuleFile, isRuleName, PathBuf.extension, hlast]

section Places

variable {C : Type} {root : PathBuf} {tree : FileTree C} (htree : tree.WellFormed)
  (hroot : tree.isDir = true)

include hroot in
theorem RuleFileAt.ne_nil {names : List String} (h : RuleFileAt tree names) : names ≠ [] := by
  rintro rfl
  obtain ⟨⟨content, hget⟩, _⟩ := h
  obtain rfl := Option.some.inj hget
  cases hroot

include htree hroot in
theorem offers_packStage {dir : String} (hdir : RelativeDir dir) (label : String)
    (c : List Component) :
    (packStage root tree root dir label).Offers c ↔
      ∃ names, RuleFileAt tree names ∧ c = placeOf root names ∧ relNames dir <+: names := by
  have hresolve : tree.resolve root (root.join dir) = tree.get? (relNames dir) := by
    exact FileTree.resolve_of_components (components_join hdir)
  constructor
  · rintro ⟨path, hpath, haccept, rfl⟩
    obtain ⟨t, ht, rest, hrest, rfl⟩ := FileTree.mem_filesAt.mp hpath
    rw [hresolve] at ht
    have hget : ∃ content, tree.get? (relNames dir ++ rest) = some (.file content) := by
      rw [FileTree.get?_append, ht]
      exact (FileTree.mem_paths_iff (htree.get? ht)).mp hrest
    have hplace := components_descend_join root hdir rest
    have hne : relNames dir ++ rest ≠ [] := by
      intro hnil
      obtain ⟨content, hget⟩ := hget
      rw [hnil] at hget
      obtain rfl := Option.some.inj hget
      cases hroot
    refine ⟨relNames dir ++ rest, ⟨hget, ?_⟩, hplace, List.prefix_append _ _⟩
    rw [← isRuleFile_eq hplace hne]
    exact haccept
  · rintro ⟨names, hfile, rfl, rest, rfl⟩
    obtain ⟨content, hget⟩ := hfile.1
    rw [FileTree.get?_append] at hget
    obtain ⟨t, ht, hrest⟩ := Option.bind_eq_some_iff.mp hget
    have hplace := components_descend_join root hdir rest
    refine ⟨(root.join dir).descend rest, ?_, ?_, hplace⟩
    · refine FileTree.mem_filesAt.mpr ⟨t, hresolve.trans ht, rest, ?_, rfl⟩
      exact (FileTree.mem_paths_iff (htree.get? ht)).mpr ⟨content, hrest⟩
    · exact (isRuleFile_eq hplace (hfile.ne_nil hroot)).trans hfile.2

/-- The rules directory offers the rule files in it, other than the manifest. -/
theorem offers_rootStage (c : List Component) :
    (rootStage root tree root).Offers c ↔
      ∃ names, RuleFileAt tree names ∧ c = placeOf root names ∧
        names.length = 1 ∧ names ≠ ["manifest.yaml"] := by
  have hplace : ∀ name, (root.child name).components = placeOf root [name] := by
    intro name
    rfl
  have haccept : ∀ name, (rootStage root tree root).accept (root.child name) = true ↔
      RuleFileAt tree [name] ∧ name ≠ "manifest.yaml" := by
    intro name
    have hisFile : (tree.fileSystem root .listed).isFile (root.child name) = true ↔
        ∃ content, tree.get? [name] = some (.file content) := by
      simp only [FileTree.fileSystem, FileTree.resolve_of_components (hplace name)]
      cases hget : tree.get? [name] with
      | none =>
        simp
      | some t =>
        cases t <;> simp [FileTree.isDir]
    simp only [rootStage, isLegacyFile, Bool.and_eq_true, hisFile, RuleFileAt,
      isRuleFile_eq (hplace name) (List.cons_ne_nil _ _), PathBuf.fileName_child, ne_eq,
      Option.some.injEq, decide_not, Bool.not_eq_true', decide_eq_false_iff_not]
  constructor
  · rintro ⟨path, hpath, hok, rfl⟩
    obtain ⟨name, _, rfl⟩ := List.mem_map.mp hpath
    obtain ⟨hfile, hne⟩ := (haccept name).mp hok
    exact ⟨[name], hfile, hplace name, rfl, by simpa using hne⟩
  · rintro ⟨names, hfile, rfl, hlength, hne⟩
    obtain ⟨name, rfl⟩ := List.length_eq_one_iff.mp hlength
    obtain ⟨content, hget⟩ := hfile.1
    refine ⟨root.child name, List.mem_map_of_mem ?_, (haccept name).mpr ⟨hfile, ?_⟩, rfl⟩
    · cases tree with
      | file content =>
        cases hget
      | dir entries =>
        obtain ⟨t, hentry, _⟩ := Option.bind_eq_some_iff.mp hget
        simp only [FileTree.namesAt, FileTree.resolve_root]
        exact List.mem_map.mpr ⟨_, FileTree.mem_of_lookup hentry, rfl⟩
    · simpa using hne

theorem exists_firstOffer_cons (stage : Stage) (stages : List Stage) (c : List Component)
    (label : String) :
    (∃ path, path.components = c ∧ Stage.FirstOffer (stage :: stages) path label) ↔
      (stage.Offers c ∧ label = stage.label) ∨
        (¬ stage.Offers c ∧
          ∃ path, path.components = c ∧ Stage.FirstOffer stages path label) := by
  constructor
  · rintro ⟨path, rfl, ⟨hmem, haccept, hlabel⟩ | ⟨hno, hrest⟩⟩
    · exact Or.inl ⟨⟨path, hmem, haccept, rfl⟩, hlabel⟩
    · exact Or.inr ⟨hno, path, rfl, hrest⟩
  · rintro (⟨⟨path, hmem, haccept, rfl⟩, hlabel⟩ | ⟨hno, path, rfl, hrest⟩)
    · exact ⟨path, rfl, Or.inl ⟨hmem, haccept, hlabel⟩⟩
    · exact ⟨path, rfl, Or.inr ⟨hno, hrest⟩⟩

theorem exists_offers_of_firstOffer {stages : List Stage} {path : PathBuf} {label : String}
    (h : Stage.FirstOffer stages path label) :
    ∃ stage ∈ stages, stage.Offers path.components := by
  induction stages with
  | nil =>
    cases h
  | cons stage stages ih =>
    rcases h with ⟨hmem, haccept, _⟩ | ⟨_, hrest⟩
    · exact ⟨stage, by simp, path, hmem, haccept, rfl⟩
    · obtain ⟨stage', hmem, ho⟩ := ih hrest
      exact ⟨stage', List.mem_cons_of_mem _ hmem, ho⟩

theorem relativeDir_legacy : RelativeDir "legacy" := by
  constructor <;> decide

include htree hroot

theorem exists_place_of_offers {manifest : Option RulesManifest}
    (hdirs : ∀ pack ∈ enabledPacks manifest, RelativeDir pack.dir) {stage : Stage}
    (hstage : stage ∈ stages root tree root manifest) {c : List Component} (h : stage.Offers c) :
    ∃ names, RuleFileAt tree names ∧ c = placeOf root names := by
  rcases List.mem_append.mp hstage with hstage | hstage
  · obtain ⟨pack, hpack, rfl⟩ := List.mem_map.mp hstage
    obtain ⟨names, hfile, hc, _⟩ := (offers_packStage htree hroot (hdirs pack hpack) _ c).mp h
    exact ⟨names, hfile, hc⟩
  · split_ifs at hstage
    · rcases List.mem_pair.mp hstage with rfl | rfl
      · obtain ⟨names, hfile, hc, _⟩ := (offers_rootStage c).mp h
        exact ⟨names, hfile, hc⟩
      · obtain ⟨names, hfile, hc, _⟩ :=
          (offers_packStage htree hroot relativeDir_legacy _ c).mp h
        exact ⟨names, hfile, hc⟩
    · cases hstage

section Label

variable {names : List String} (hfile : RuleFileAt tree names)

include hfile

omit htree hroot in
theorem exists_placeOf_iff (root : PathBuf) {P : List String → Prop} :
    (∃ names', RuleFileAt tree names' ∧ placeOf root names = placeOf root names' ∧ P names') ↔
      P names := by
  constructor
  · rintro ⟨names', _, hplace, hnames⟩
    rw [placeOf_injective root hplace]
    exact hnames
  · intro hnames
    exact ⟨names, hfile, rfl, hnames⟩

theorem offers_pack_placeOf {dir : String} (hdir : RelativeDir dir) (label : String) :
    (packStage root tree root dir label).Offers (placeOf root names) ↔ relNames dir <+: names := by
  rw [offers_packStage htree hroot hdir, exists_placeOf_iff hfile]

omit htree hroot in
theorem offers_root_placeOf :
    (rootStage root tree root).Offers (placeOf root names) ↔
      names.length = 1 ∧ names ≠ ["manifest.yaml"] := by
  rw [offers_rootStage, exists_placeOf_iff hfile]

theorem exists_firstOffer_packs (packs : List ManifestPack)
    (hdirs : ∀ pack ∈ packs, RelativeDir pack.dir) (rest : List Stage) (label : String) :
    (∃ path, path.components = placeOf root names ∧
        Stage.FirstOffer (packStages root tree root packs ++ rest) path label) ↔
      match packs.find? fun pack => packContains pack names with
      | some pack => label = pack.name
      | none => ∃ path, path.components = placeOf root names ∧
          Stage.FirstOffer rest path label := by
  induction packs with
  | nil =>
    rfl
  | cons pack packs ih =>
    have hrest := ih fun pack' hpack' => hdirs pack' (List.mem_cons_of_mem _ hpack')
    have hoffers : (packStage root tree root pack.dir pack.name).Offers (placeOf root names) ↔
        relNames pack.dir <+: names := by
      exact offers_pack_placeOf htree hroot hfile (hdirs pack (by simp)) pack.name
    have hcons : packStages root tree root (pack :: packs) ++ rest =
        packStage root tree root pack.dir pack.name :: (packStages root tree root packs ++ rest) := by
      rfl
    rw [hcons, exists_firstOffer_cons, hoffers, hrest]
    by_cases hcontains : relNames pack.dir <+: names
    · have hfind : packContains pack names = true := by
        exact List.isPrefixOf_iff_prefix.mpr hcontains
      simp [hfind, hcontains, packStage]
    · have hfind : packContains pack names = false := by
        rw [← Bool.not_eq_true]
        exact fun h => hcontains (List.isPrefixOf_iff_prefix.mp h)
      simp [hfind, hcontains]

theorem exists_firstOffer_legacy (label : String) :
    (∃ path, path.components = placeOf root names ∧
        Stage.FirstOffer (legacyStages root tree root) path label) ↔
      isLegacyPlace names = true ∧ label = "legacy" := by
  rw [legacyStages, exists_firstOffer_cons, exists_firstOffer_cons, offers_root_placeOf hfile,
    offers_pack_placeOf htree hroot hfile relativeDir_legacy]
  have hlegacy : relNames "legacy" = ["legacy"] := by
    decide
  have hlabel : (rootStage root tree root).label = "legacy" ∧
      (packStage root tree root "legacy" "legacy").label = "legacy" := ⟨rfl, rfl⟩
  have hplace : isLegacyPlace names = true ↔
      (names.length = 1 ∧ names ≠ ["manifest.yaml"]) ∨ ["legacy"] <+: names := by
    simp [isLegacyPlace]
  rw [hlegacy, hlabel.1, hlabel.2, hplace]
  simp only [Stage.FirstOffer, and_false, exists_false]
  tauto

end Label

/-- **What is collected**: the rule files that have a label, each under it. -/
theorem exists_firstOffer_iff {manifest : Option RulesManifest}
    (hdirs : ∀ pack ∈ enabledPacks manifest, RelativeDir pack.dir) (c : List Component)
    (label : String) :
    (∃ path, path.components = c ∧
        Stage.FirstOffer (stages root tree root manifest) path label) ↔
      ∃ names, RuleFileAt tree names ∧ c = placeOf root names ∧
        expectedLabel manifest names = some label := by
  have hlabel : ∀ names, RuleFileAt tree names →
      ((∃ path, path.components = placeOf root names ∧
        Stage.FirstOffer (stages root tree root manifest) path label) ↔
      expectedLabel manifest names = some label) := by
    intro names hfile
    rw [stages, exists_firstOffer_packs htree hroot hfile _ hdirs, expectedLabel]
    cases (enabledPacks manifest).find? fun pack => packContains pack names with
    | some pack =>
      simp [eq_comm]
    | none =>
      by_cases hon : legacyOn manifest = true
      · simp only [hon, if_true, exists_firstOffer_legacy htree hroot hfile, Bool.true_and]
        by_cases hplace : isLegacyPlace names = true <;> simp [hplace, eq_comm]
      · simp [hon, Stage.FirstOffer]
  constructor
  · rintro ⟨path, rfl, hoffer⟩
    obtain ⟨stage, hstage, ho⟩ := exists_offers_of_firstOffer hoffer
    obtain ⟨names, hfile, hc⟩ := exists_place_of_offers htree hroot hdirs hstage ho
    exact ⟨names, hfile, hc, (hlabel names hfile).mp ⟨path, hc, hoffer⟩⟩
  · rintro ⟨names, hfile, rfl, hexpected⟩
    exact (hlabel names hfile).mpr hexpected

end Places

end RuleFiles

end ArkInfra
