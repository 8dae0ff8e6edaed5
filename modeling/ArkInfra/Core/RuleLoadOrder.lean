import ArkInfra.Core.RuleLoad

/-!
# Loading is exactly once and in a fixed order

A rules directory is a directory tree with a manifest, or without one, whose
pack directories are relative and do not go up.  Every rule file in it is
collected once, under the label its place has, and a load does not depend on the
order in which directories are listed: the collected files are sorted, and the
sort by priority is stable.
-/

namespace ArkInfra

section StableSort

variable {α : Type} {le : α → α → Bool}

/-- **A stable sort** keeps the relation of the list between elements that are
equal for the order. -/
theorem pairwise_mergeSort_of_pairwise
    (trans : ∀ a b c, le a b = true → le b c = true → le a c = true)
    (total : ∀ a b, (le a b || le b a) = true) {R : α → α → Prop} {l : List α}
    (h : l.Pairwise R) :
    (l.mergeSort le).Pairwise fun a b => le b a = false ∨ (le a b = true ∧ R a b) := by
  induction l with
  | nil =>
    simp
  | cons a l ih =>
    rw [List.pairwise_cons] at h
    obtain ⟨l₁, l₂, hsort, hrest, hbefore⟩ := List.mergeSort_cons trans total a l
    have hsorted := List.pairwise_mergeSort trans total (a :: l)
    rw [hsort, List.pairwise_append, List.pairwise_cons] at hsorted
    have hpairs := ih h.2
    rw [hrest, List.pairwise_append] at hpairs
    rw [hsort, List.pairwise_append, List.pairwise_cons]
    refine ⟨hpairs.1, ⟨?_, hpairs.2.1⟩, ?_⟩
    · intro b hb
      have hmem : b ∈ l := by
        rw [← (List.mergeSort_perm l le).mem_iff, hrest]
        exact List.mem_append_right _ hb
      exact Or.inr ⟨hsorted.2.1.1 b hb, h.1 b hmem⟩
    · intro b hb c hc
      rcases List.mem_cons.mp hc with rfl | hc
      · exact Or.inl (by simpa using hbefore b hb)
      · exact hpairs.2.2 b hb c hc

end StableSort

namespace RuleLoad

open RuleFiles

section Order

variable {C F : Type} {fs : FileSystem C} {decoder : YamlDecoder C F}

/-- The rules with the files they come from, the highest priority first and, at
equal priority, in the order of the paths. -/
structure LoadOrder (fs : FileSystem C) (decoder : YamlDecoder C F)
    (files : List (PathBuf × String)) (rules : List (Rule F))
    (loaded : List (PathBuf × Rule F)) : Prop where
  rules : rules = loaded.map Prod.snd
  mem : ∀ path rule, (path, rule) ∈ loaded ↔
    ∃ pack, (path, pack) ∈ files ∧ ruleOf fs decoder (path, pack) = some rule
  order : loaded.Pairwise fun a b => b.2.priority < a.2.priority ∨
    (b.2.priority = a.2.priority ∧ a.1.components < b.1.components)

/-- The rules of some files, with their paths. -/
def labelled (fs : FileSystem C) (decoder : YamlDecoder C F)
    (files : List (PathBuf × String)) : List (PathBuf × Rule F) :=
  files.filterMap fun file => (ruleOf fs decoder file).map fun rule => (file.1, rule)

theorem map_snd_labelled (files : List (PathBuf × String)) :
    (labelled fs decoder files).map Prod.snd = files.filterMap (ruleOf fs decoder) := by
  simp [labelled, List.map_filterMap, Function.comp_def]

theorem pairwise_labelled {files : List (PathBuf × String)}
    (h : files.Pairwise fun a b => a.1.components < b.1.components) :
    (labelled fs decoder files).Pairwise fun a b => a.1.components < b.1.components := by
  rw [labelled, List.pairwise_filterMap]
  refine h.imp ?_
  intro a b hab a' ha' b' hb'
  obtain ⟨_, _, rfl⟩ := Option.map_eq_some_iff.mp ha'
  obtain ⟨_, _, rfl⟩ := Option.map_eq_some_iff.mp hb'
  exact hab

theorem exists_loadOrder {files : List (PathBuf × String)}
    (h : files.Pairwise fun a b => a.1.components < b.1.components) :
    ∃ loaded, LoadOrder fs decoder files
      (sortRules (files.filterMap (ruleOf fs decoder))) loaded := by
  refine ⟨(labelled fs decoder files).mergeSort fun a b =>
    decide (b.2.priority ≤ a.2.priority), ?_, ?_, ?_⟩
  · rw [← map_snd_labelled, sortRules, List.map_mergeSort]
    intro a _ b _
    rfl
  · intro path rule
    rw [List.mem_mergeSort, labelled, List.mem_filterMap]
    constructor
    · rintro ⟨⟨path', pack⟩, hmem, hrule⟩
      obtain ⟨rule', hrule', heq⟩ := Option.map_eq_some_iff.mp hrule
      obtain ⟨rfl, rfl⟩ := Prod.mk.inj heq
      exact ⟨pack, hmem, hrule'⟩
    · rintro ⟨pack, hmem, hrule⟩
      exact ⟨(path, pack), hmem, by simp [hrule]⟩
  · refine (pairwise_mergeSort_of_pairwise ?_ ?_ (pairwise_labelled h)).imp ?_
    · intro a b c hab hbc
      simp only [decide_eq_true_eq] at hab hbc ⊢
      omega
    · intro a b
      simp only [Bool.or_eq_true, decide_eq_true_eq]
      omega
    · rintro a b (hlt | ⟨hle, hpath⟩)
      · simp only [decide_eq_false_iff_not] at hlt
        omega
      · simp only [decide_eq_true_eq] at hle
        rcases Nat.lt_or_eq_of_le hle with hlt | heq
        · exact Or.inl hlt
        · exact Or.inr ⟨heq, hpath⟩

theorem loadCollected_congr {fs' : FileSystem C} (h : fs.readToString = fs'.readToString)
    (strict : Option String) (files : List (PathBuf × String)) :
    loadCollected fs decoder strict files = loadCollected fs' decoder strict files := by
  have hfile : loadFile fs decoder = loadFile fs' decoder := by
    funext s file
    rw [loadFile, loadFile, h]
  have hfiles : ∀ s, loadFiles fs decoder files s = loadFiles fs' decoder files s := by
    induction files with
    | nil =>
      intro s
      rfl
    | cons file files ih =>
      intro s
      rw [loadFiles, loadFiles, hfile]
      cases loadFile fs' decoder s file with
      | error e =>
        rfl
      | ok s' =>
        exact ih s'
  rw [loadCollected, loadCollected, hfiles]

end Order

section Directory

variable {C F : Type}

/-- The manifest of a tree: a file that is read as a manifest of version 1, or no
entry at all. -/
def ManifestAt (tree : FileTree C) (decoder : YamlDecoder C F) : Option RulesManifest → Prop
  | none => tree.get? ["manifest.yaml"] = none
  | some manifest => ∃ content, tree.get? ["manifest.yaml"] = some (.file content) ∧
      decoder.manifest content = .ok manifest ∧ manifest.version = 1

/-- A rules directory that can be read without errors.  The directories of the
packs are relative and may overlap. -/
structure RulesDirectory (decoder : YamlDecoder C F) where
  tree : FileTree C
  manifest : Option RulesManifest
  wellFormed : tree.WellFormed
  isDir : tree.isDir = true
  manifestAt : ManifestAt tree decoder manifest
  relative : ∀ pack ∈ enabledPacks manifest, RelativeDir pack.dir
  packDirs : ∀ pack ∈ enabledPacks manifest, ∀ content,
    tree.get? (relNames pack.dir) ≠ some (.file content)
  legacyDir : legacyOn manifest = true → ∀ content, tree.get? ["legacy"] ≠ some (.file content)

theorem eq_of_sorted_of_mem_iff {files files' : List (PathBuf × String)}
    (h : files.Pairwise fun a b => a.1.components < b.1.components)
    (h' : files'.Pairwise fun a b => a.1.components < b.1.components)
    (hmem : ∀ file, file ∈ files ↔ file ∈ files') : files = files' := by
  have hantisymm : Std.Antisymm fun a b : PathBuf × String =>
      a.1.components < b.1.components :=
    ⟨fun a b hab hba => absurd hba (lt_asymm hab)⟩
  have hirrefl : Std.Irrefl fun a b : PathBuf × String => a.1.components < b.1.components :=
    ⟨fun a => lt_irrefl a.1.components⟩
  exact h.eq_of_mem_iff h' hmem

namespace RulesDirectory

variable {decoder : YamlDecoder C F} (d : RulesDirectory decoder) (root : PathBuf)

theorem relativeDir_manifest : RelativeDir "manifest.yaml" := by
  constructor <;> decide

theorem resolve_join {dir : String} (h : RelativeDir dir) :
    d.tree.resolve root (root.join dir) = d.tree.get? (relNames dir) := by
  exact FileTree.resolve_of_components (components_join h)

theorem readManifest_eq (order : ReadOrder) :
    readManifest (d.tree.fileSystem root order) decoder.manifest root = .ok d.manifest := by
  have hnames : relNames "manifest.yaml" = ["manifest.yaml"] := by
    decide
  have hresolve := d.resolve_join root relativeDir_manifest
  rw [hnames] at hresolve
  have hat := d.manifestAt
  cases hmanifest : d.manifest with
  | none =>
    rw [hmanifest] at hat
    simp [readManifest, FileTree.fileSystem, hresolve, show d.tree.get? _ = _ from hat]
  | some manifest =>
    rw [hmanifest] at hat
    obtain ⟨content, hget, hdecode, hversion⟩ := hat
    simp [readManifest, FileTree.fileSystem, hresolve, hget, hdecode, hversion]

theorem noIoErrors : NoIoErrors root d.tree root d.manifest := by
  refine ⟨?_, ?_, ?_⟩
  · rw [FileTree.resolve_root]
    cases htree : d.tree with
    | file content =>
      have hdir := d.isDir
      rw [htree] at hdir
      cases hdir
    | dir entries =>
      exact ⟨entries, rfl⟩
  · intro pack hpack content
    rw [d.resolve_join root (d.relative pack hpack)]
    exact d.packDirs pack hpack content
  · intro hlegacy content
    rw [d.resolve_join root relativeDir_legacy]
    exact d.legacyDir hlegacy content

variable {fuel : Nat} (hfuel : d.tree.dirCount ≤ fuel)

include hfuel

/-- **The collection**: sorted by path, every rule file at the place of its label
once. -/
theorem exists_collected (order : ReadOrder) :
    ∃ files, collectRuleFiles (d.tree.fileSystem root order) fuel decoder.manifest root =
        some (.ok files) ∧
      files.Pairwise (fun a b => a.1.components < b.1.components) ∧
      ∀ path label, (path, label) ∈ files ↔
        Stage.FirstOffer (stages root d.tree root d.manifest) path label := by
  exact collectRuleFiles_tree d.wellFormed hfuel order (d.readManifest_eq root order)
    (d.noIoErrors root)

theorem exists_collected_all :
    ∃ files : List (PathBuf × String),
      (∀ order, collectRuleFiles (d.tree.fileSystem root order) fuel decoder.manifest root =
        some (.ok files)) ∧
      files.Pairwise (fun a b => a.1.components < b.1.components) ∧
      ∀ c label, (c, label) ∈ files.map (fun file => (file.1.components, file.2)) ↔
        ∃ names, RuleFileAt d.tree names ∧ c = placeOf root names ∧
          expectedLabel d.manifest names = some label := by
  obtain ⟨files, _, hsorted, hmem⟩ := d.exists_collected root hfuel .listed
  refine ⟨files, ?_, hsorted, ?_⟩
  · intro order
    obtain ⟨files', hfiles', hsorted', hmem'⟩ := d.exists_collected root hfuel order
    have heq : files' = files := by
      apply eq_of_sorted_of_mem_iff hsorted' hsorted
      rintro ⟨path, label⟩
      rw [hmem', hmem]
    rw [hfiles', heq]
  · intro c label
    rw [← exists_firstOffer_iff d.wellFormed d.isDir d.relative, List.mem_map]
    constructor
    · rintro ⟨⟨path, label'⟩, hfile, heq⟩
      obtain ⟨rfl, rfl⟩ := Prod.mk.inj heq
      exact ⟨path, rfl, (hmem path label').mp hfile⟩
    · rintro ⟨path, rfl, hoffer⟩
      exact ⟨(path, label), (hmem path label).mpr hoffer, rfl⟩

omit hfuel in
theorem loadFromDir_of_collected {files : List (PathBuf × String)} {order : ReadOrder}
    (hfiles : collectRuleFiles (d.tree.fileSystem root order) fuel decoder.manifest root =
      some (.ok files)) (strict : Option String) :
    loadFromDir (d.tree.fileSystem root order) decoder fuel strict root =
      some (loadCollected (d.tree.fileSystem root order) decoder strict files) := by
  have hexists : (d.tree.fileSystem root order).pathExists root = true := by
    simp [FileTree.fileSystem]
  refine loadFromDir_of_ruleFiles ?_ strict
  rw [ruleFiles, if_pos hexists, hfiles]

/-- **Rule loading is exactly once and independent of the order of the listings.**
The collection ends with every rule file at a place with a label, once and
sorted by path; every two orders give the same result; and the rules of a load
have distinct ids that are not blank, in the order of their priorities and, at
equal priority, of their paths. -/
theorem load_exactlyOnce_orderFree :
    (∃ files : List (PathBuf × String),
      (∀ order, collectRuleFiles (d.tree.fileSystem root order) fuel decoder.manifest root =
        some (.ok files)) ∧
      files.Pairwise (fun a b => a.1.components < b.1.components) ∧
      (∀ c label, (c, label) ∈ files.map (fun file => (file.1.components, file.2)) ↔
        ∃ names, RuleFileAt d.tree names ∧ c = placeOf root names ∧
          expectedLabel d.manifest names = some label) ∧
      ∀ (order : ReadOrder) (strict : Option String) (engine : RuleEngine F),
        loadFromDir (d.tree.fileSystem root order) decoder fuel strict root =
            some (.ok engine) →
          (engine.rules.map Rule.id).Nodup ∧
          (∀ rule ∈ engine.rules, ∃ id, rule.id = some id ∧ Text.trim id ≠ "") ∧
          ∃ loaded, LoadOrder (d.tree.fileSystem root order) decoder files engine.rules
            loaded) ∧
    ∀ (order order' : ReadOrder) (strict : Option String),
      loadFromDir (d.tree.fileSystem root order) decoder fuel strict root =
        loadFromDir (d.tree.fileSystem root order') decoder fuel strict root := by
  obtain ⟨files, hfiles, hsorted, hmem⟩ := d.exists_collected_all root hfuel
  refine ⟨⟨files, hfiles, hsorted, hmem, ?_⟩, ?_⟩
  · intro order strict engine hload
    rw [d.loadFromDir_of_collected root (hfiles order)] at hload
    obtain ⟨s, haccounts, _, rfl⟩ := exists_of_loadCollected (Option.some.inj hload)
    have hperm : (sortRules s.rules).Perm s.rules := List.mergeSort_perm _ _
    refine ⟨?_, ?_, ?_⟩
    · exact (hperm.map Rule.id).nodup_iff.mpr haccounts.distinct
    · intro rule hrule
      exact haccounts.nonblank rule (hperm.mem_iff.mp hrule)
    · simp only [haccounts.rules]
      exact exists_loadOrder hsorted
  · intro order order' strict
    have hread : (d.tree.fileSystem root order).readToString =
        (d.tree.fileSystem root order').readToString := by
      rfl
    rw [d.loadFromDir_of_collected root (hfiles order),
      d.loadFromDir_of_collected root (hfiles order'), loadCollected_congr hread]

end RulesDirectory

end Directory

section Sample

open Yaml

/-- Two packs, the directory of the first inside the directory of the second. -/
def overlapManifest : Doc :=
  .ofValue (.mapping
    [(.string "version", .number "1"),
      (.string "packs", .sequence
        [.mapping [(.string "name", .string "sub"), (.string "dir", .string "core/sub")],
          .mapping [(.string "name", .string "core"), (.string "dir", .string "./core/")]]),
      (.string "legacy", .mapping [])])

def overlapTree : FileTree YamlText :=
  .dir
    [("manifest.yaml", .file (some overlapManifest)),
      ("core", .dir [("sub", .dir
        [("drops.yml", .file (some (ruleFileWithId (.string "net.stall"))))])])]

theorem enabledPacks_overlap : enabledPacks (readRulesManifest overlapManifest) =
    [{ name := "sub", enabled := true, dir := "core/sub" },
      { name := "core", enabled := true, dir := "./core/" }] := by
  rfl

def overlapDirectory : RulesDirectory sampleDecoder where
  tree := overlapTree
  manifest := readRulesManifest overlapManifest
  wellFormed := by
    simp [overlapTree, FileTree.WellFormed, FileTree.WellFormedEntries]
  isDir := rfl
  manifestAt := ⟨some overlapManifest, rfl, rfl, rfl⟩
  relative := by
    intro pack hpack
    rw [enabledPacks_overlap] at hpack
    rcases List.mem_pair.mp hpack with rfl | rfl <;> constructor <;> decide
  packDirs := by
    intro pack hpack content hget
    rw [enabledPacks_overlap] at hpack
    rcases List.mem_pair.mp hpack with rfl | rfl <;> cases hget
  legacyDir := by
    intro _ content hget
    cases hget

/-- The rule file belongs to the first pack that contains it, and is loaded. -/
theorem load_exactlyOnce_orderFree_overlap :
    overlapDirectory.tree.dirCount ≤ 3 ∧
    ∃ (files : List (PathBuf × String)) (engine : RuleEngine Binary64),
      (∀ order, collectRuleFiles (overlapTree.fileSystem (.ofText "rules") order) 3
        sampleDecoder.manifest (.ofText "rules") = some (.ok files)) ∧
      files.map Prod.snd = ["sub"] ∧
      (∀ order, loadFromDir (overlapTree.fileSystem (.ofText "rules") order) sampleDecoder 3
        (some "1") (.ofText "rules") = some (.ok engine)) ∧
      engine.loadStats.loadedRules = 1 ∧ (engine.rules.map Rule.id).Nodup := by
  have hfuel : overlapDirectory.tree.dirCount ≤ 3 := by
    decide
  obtain ⟨⟨files, hfiles, _, _, hload⟩, hsame⟩ :=
    overlapDirectory.load_exactlyOnce_orderFree (.ofText "rules") hfuel
  obtain ⟨file, hfile⟩ : ∃ file : PathBuf × String,
      file = (((PathBuf.ofText "rules").join "core/sub").child "drops.yml", "sub") := ⟨_, rfl⟩
  have hcollected : collectRuleFiles (overlapTree.fileSystem (.ofText "rules") .listed) 3
      sampleDecoder.manifest (.ofText "rules") = some (.ok [file]) := by
    have htaken : takenFiles (collectWith (overlapTree.fileSystem (.ofText "rules") .listed) 3
        (.ofText "rules") (readRulesManifest overlapManifest)) = some [file] := by
      rw [hfile]
      decide +kernel
    have hmanifest := overlapDirectory.readManifest_eq (.ofText "rules") .listed
    refine (collectRuleFiles_of_takenFiles hmanifest htaken).trans ?_
    simp [sortFiles]
  have heq : files = [file] := by
    have hlisted := (hfiles .listed).symm.trans hcollected
    simpa using hlisted
  obtain ⟨engine, hengine, hcount⟩ : ∃ engine : RuleEngine Binary64,
      loadCollected (overlapTree.fileSystem (.ofText "rules") .listed) sampleDecoder (some "1")
        [file] = .ok engine ∧ engine.loadStats.loadedRules = 1 := by
    rw [hfile]
    exact ⟨_, rfl, rfl⟩
  have hok : ∀ order, loadFromDir (overlapTree.fileSystem (.ofText "rules") order) sampleDecoder
      3 (some "1") (.ofText "rules") = some (.ok engine) := by
    intro order
    have hlisted := overlapDirectory.loadFromDir_of_collected (.ofText "rules") hcollected
      (some "1")
    exact (hsame order .listed (some "1")).trans (hlisted.trans (congrArg some hengine))
  refine ⟨hfuel, files, engine, hfiles, ?_, hok, hcount, ?_⟩
  · rw [heq, hfile]
    rfl
  · exact (hload .listed (some "1") engine (hok .listed)).1

end Sample

end RuleLoad

end ArkInfra
