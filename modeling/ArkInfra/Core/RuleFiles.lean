import ArkInfra.Lib.FileSystem
import Mathlib.Data.Finset.Insert
import Mathlib.Data.List.Sort

/-!
# Collecting the rule files

`core/src/rules/mod.rs`, `collect_rule_files`: the rules directory may have a
manifest that lists packs, each with a directory; the files below an enabled
pack belong to it, and a file that was seen before is not taken again.  Without
a manifest, or when it enables the legacy files, the files in the directory
itself and below `legacy/` follow.  The result is sorted by path.

The functions work on an arbitrary file system.  The second half is about
directory trees: `collectRuleFiles_tree` says which files are collected, by the
order of the stages alone, so that the order in which directories are listed
has no influence.
-/

namespace ArkInfra

structure ManifestPack where
  name : String
  enabled : Bool
  dir : String
deriving DecidableEq, Repr

structure ManifestLegacy where
  enabled : Bool
deriving DecidableEq, Repr

structure RulesManifest where
  version : Nat
  packs : List ManifestPack
  legacy : ManifestLegacy
deriving DecidableEq, Repr

namespace RuleFiles

def isRuleFile (path : PathBuf) : Bool :=
  decide (path.extension = some "yaml") || decide (path.extension = some "yml")

/-- The paths seen so far and the files taken, with their packs. -/
structure Collected where
  seen : Finset (List Component)
  out : List (PathBuf × String)

def Collected.empty : Collected where
  seen := ∅
  out := []

/-- Take a file that passes the test and was not seen before. -/
def take (accept : PathBuf → Bool) (pack : String) (s : Collected) (path : PathBuf) : Collected :=
  if accept path = true ∧ path.components ∉ s.seen then
    { seen := insert path.components s.seen
      out := s.out ++ [(path, pack)] }
  else
    s

def walkErrors : FileSystem.WalkErrors where
  readFailed := fun dir e => "读取规则目录失败 " ++ dir.text ++ ": " ++ e
  entryFailed := fun e => "读取目录项失败: " ++ e

/-- A result that may be missing for want of fuel, or be an error. -/
abbrev Outcome (α : Type) := Option (Except String α)

def Outcome.andThen {α β : Type} (x : Outcome α) (f : α → Outcome β) : Outcome β :=
  match x with
  | none => none
  | some (.error e) => some (.error e)
  | some (.ok a) => f a

section Collect

variable {C : Type} (fs : FileSystem C) (fuel : Nat)

def collectRulesRecursively (root : PathBuf) (pack : String) (s : Nat × Collected) :
    Outcome (Nat × Collected) :=
  fs.walk walkErrors (take isRuleFile pack) fuel [root] s.1 s.2

/-- The test of a file in the rules directory itself. -/
def isLegacyFile (path : PathBuf) : Bool :=
  fs.isFile path && isRuleFile path && decide (path.fileName ≠ some "manifest.yaml")

/-- The loop over the entries of the rules directory. -/
def takeLegacyEntries : List (Except String PathBuf) → Collected → Except String Collected
  | [], s => .ok s
  | .error e :: _, _ => .error ("读取目录项失败: " ++ e)
  | .ok path :: entries, s => takeLegacyEntries entries (take (isLegacyFile fs) "legacy" s path)

def collectLegacyRules (dirPath : PathBuf) (s : Nat × Collected) : Outcome (Nat × Collected) :=
  match fs.readDir s.1 dirPath with
  | .error e => some (.error ("读取规则目录失败: " ++ e))
  | .ok entries =>
    match takeLegacyEntries fs entries s.2 with
    | .error e => some (.error e)
    | .ok collected =>
      let legacyDir := dirPath.join "legacy"
      if fs.pathExists legacyDir then
        collectRulesRecursively fs fuel legacyDir "legacy" (s.1 + 1, collected)
      else
        some (.ok (s.1 + 1, collected))

/-- The loop over the enabled packs; a pack without its directory is skipped. -/
def collectPacks (dirPath : PathBuf) :
    List ManifestPack → Nat × Collected → Outcome (Nat × Collected)
  | [], s => some (.ok s)
  | pack :: packs, s =>
    let packDir := dirPath.join pack.dir
    if !fs.pathExists packDir then collectPacks dirPath packs s
    else
      (collectRulesRecursively fs fuel packDir pack.name s).andThen
        (collectPacks dirPath packs)

def sortFiles (files : List (PathBuf × String)) : List (PathBuf × String) :=
  files.mergeSort fun a b => decide (a.1.components ≤ b.1.components)

/-- The manifest of the rules directory, if it has one. -/
def readManifest (parseManifest : C → Except String RulesManifest) (dirPath : PathBuf) :
    Except String (Option RulesManifest) :=
  let manifestPath := dirPath.join "manifest.yaml"
  if fs.pathExists manifestPath then
    match fs.readToString manifestPath with
    | .error e => .error ("读取规则 manifest 失败 " ++ manifestPath.text ++ ": " ++ e)
    | .ok manifestRaw =>
      match parseManifest manifestRaw with
      | .error e => .error ("解析规则 manifest 失败 " ++ manifestPath.text ++ ": " ++ e)
      | .ok manifest =>
        if manifest.version ≠ 1 then
          .error ("规则 manifest version 不支持: " ++ toString manifest.version ++
            " (expected 1)")
        else
          .ok (some manifest)
  else
    .ok none

/-- The files of the packs and then the legacy files. -/
def collectWith (dirPath : PathBuf) : Option RulesManifest → Outcome (Nat × Collected)
  | some manifest =>
    (collectPacks fs fuel dirPath (manifest.packs.filter fun p => p.enabled)
      (0, .empty)).andThen fun s =>
        if manifest.legacy.enabled then collectLegacyRules fs fuel dirPath s else some (.ok s)
  | none => collectLegacyRules fs fuel dirPath (0, .empty)

def collectRuleFiles (parseManifest : C → Except String RulesManifest) (dirPath : PathBuf) :
    Outcome (List (PathBuf × String)) :=
  match readManifest fs parseManifest dirPath with
  | .error e => some (.error e)
  | .ok manifest =>
    (collectWith fs fuel dirPath manifest).andThen fun s => some (.ok (sortFiles s.2.out))

end Collect

section Stages

/-- One stage of the collection: files that are offered under a label. -/
structure Stage where
  accept : PathBuf → Bool
  label : String
  files : List PathBuf

namespace Stage

/-- The stage offers the path with these components. -/
def Offers (stage : Stage) (components : List Component) : Prop :=
  ∃ path ∈ stage.files, stage.accept path = true ∧ path.components = components

/-- The file is taken in the first stage that offers its path. -/
def FirstOffer : List Stage → PathBuf → String → Prop
  | [], _, _ => False
  | stage :: stages, path, label =>
    (path ∈ stage.files ∧ stage.accept path = true ∧ label = stage.label) ∨
      (¬ stage.Offers path.components ∧ FirstOffer stages path label)

end Stage

/-- Every path that was taken is marked as seen, and is taken once. -/
structure Collected.Valid (s : Collected) : Prop where
  nodup : (s.out.map fun file => file.1.components).Nodup
  seen : ∀ file ∈ s.out, file.1.components ∈ s.seen

theorem Collected.valid_empty : Collected.empty.Valid := by
  constructor
  · exact List.nodup_nil
  · intro file hfile
    cases hfile

theorem take_valid {s : Collected} (h : s.Valid) (accept : PathBuf → Bool) (pack : String)
    (path : PathBuf) : (take accept pack s path).Valid := by
  unfold take
  split_ifs with htake
  · constructor
    · rw [List.map_append, List.map_singleton, List.nodup_append]
      refine ⟨h.nodup, by simp, ?_⟩
      intro c hc c' hc' heq
      obtain ⟨file, hfile, rfl⟩ := List.mem_map.mp hc
      rw [List.mem_singleton] at hc'
      apply htake.2
      rw [← hc', ← heq]
      exact h.seen file hfile
    · intro file hfile
      rcases List.mem_append.mp hfile with hfile | hfile
      · exact Finset.mem_insert_of_mem (h.seen file hfile)
      · rw [List.mem_singleton] at hfile
        rw [hfile]
        exact Finset.mem_insert_self _ _
  · exact h

/-- What a number of stages do to the collection: a file is taken under the label
of the first stage that offers it, unless its path was seen before. -/
structure Gathers (stages : List Stage) (s s' : Collected) : Prop where
  mem : ∀ path label, (path, label) ∈ s'.out ↔
    (path, label) ∈ s.out ∨ (path.components ∉ s.seen ∧ Stage.FirstOffer stages path label)
  seen : ∀ components, components ∈ s'.seen ↔
    components ∈ s.seen ∨ ∃ stage ∈ stages, stage.Offers components
  valid : s.Valid → s'.Valid

theorem Gathers.refl (s : Collected) : Gathers [] s s := by
  constructor
  · intro path label
    simp [Stage.FirstOffer]
  · intro components
    simp
  · exact id

theorem Stage.firstOffer_append (stages stages' : List Stage) (path : PathBuf) (label : String) :
    FirstOffer (stages ++ stages') path label ↔
      FirstOffer stages path label ∨
        ((∀ stage ∈ stages, ¬ stage.Offers path.components) ∧ FirstOffer stages' path label) := by
  induction stages with
  | nil =>
    simp [FirstOffer]
  | cons stage stages ih =>
    simp only [List.cons_append, FirstOffer, ih, List.mem_cons, forall_eq_or_imp]
    rw [and_or_left, or_assoc, and_assoc]

theorem Gathers.append {stages stages' : List Stage} {s s' s'' : Collected}
    (h : Gathers stages s s') (h' : Gathers stages' s' s'') :
    Gathers (stages ++ stages') s s'' := by
  constructor
  · intro path label
    rw [h'.mem, h.mem, h.seen, Stage.firstOffer_append]
    push Not
    rw [or_assoc, and_assoc, ← and_or_left]
  · intro components
    rw [h'.seen, h.seen]
    simp only [List.mem_append]
    constructor
    · rintro ((hs | ⟨stage, hmem, ho⟩) | ⟨stage, hmem, ho⟩)
      · exact Or.inl hs
      · exact Or.inr ⟨stage, Or.inl hmem, ho⟩
      · exact Or.inr ⟨stage, Or.inr hmem, ho⟩
    · rintro (hs | ⟨stage, hmem | hmem, ho⟩)
      · exact Or.inl (Or.inl hs)
      · exact Or.inl (Or.inr ⟨stage, hmem, ho⟩)
      · exact Or.inr ⟨stage, hmem, ho⟩
  · intro hs
    exact h'.valid (h.valid hs)

theorem gathers_single_iff {stage : Stage} {s s' : Collected} :
    Gathers [stage] s s' ↔
      (∀ path label, (path, label) ∈ s'.out ↔ (path, label) ∈ s.out ∨
        (path.components ∉ s.seen ∧ path ∈ stage.files ∧ stage.accept path = true ∧
          label = stage.label)) ∧
      (∀ components, components ∈ s'.seen ↔
        components ∈ s.seen ∨ stage.Offers components) ∧
      (s.Valid → s'.Valid) := by
  constructor
  · rintro ⟨hmem, hseen, hvalid⟩
    refine ⟨?_, ?_, hvalid⟩
    · simpa [Stage.FirstOffer] using hmem
    · simpa using hseen
  · rintro ⟨hmem, hseen, hvalid⟩
    refine ⟨?_, ?_, hvalid⟩
    · simpa [Stage.FirstOffer] using hmem
    · simpa using hseen

/-- **A stage takes what was not seen before**, in whatever order its files are
visited. -/
theorem gathers_foldl {stage : Stage} {visited : List PathBuf}
    (hperm : visited.Perm stage.files)
    (hnodup : (stage.files.map PathBuf.components).Nodup) (s : Collected) :
    Gathers [stage] s (visited.foldl (take stage.accept stage.label) s) := by
  -- the stage depends on the files through membership only
  have hfiles : ∀ path, path ∈ stage.files ↔ path ∈ visited := by
    intro path
    exact hperm.mem_iff.symm
  have hdistinct : (visited.map PathBuf.components).Nodup := by
    exact (hperm.map PathBuf.components).nodup_iff.mpr hnodup
  clear hnodup hperm
  rw [gathers_single_iff]
  simp only [Stage.Offers, hfiles]
  clear hfiles
  induction visited generalizing s with
  | nil =>
    simp
  | cons path visited ih =>
    rw [List.map_cons, List.nodup_cons] at hdistinct
    have hne : ∀ path' ∈ visited, path'.components ≠ path.components := by
      intro path' hpath' heq
      exact hdistinct.1 (heq ▸ List.mem_map_of_mem hpath')
    obtain ⟨hmem, hseen, hvalid⟩ := ih (take stage.accept stage.label s path) hdistinct.2
    rw [List.foldl_cons]
    refine ⟨?_, ?_, fun hs => hvalid (take_valid hs _ _ _)⟩
    · intro path' label
      rw [hmem]
      by_cases htake : stage.accept path = true ∧ path.components ∉ s.seen
      · simp only [take, if_pos htake, List.mem_append, Prod.mk.injEq,
          Finset.mem_insert, List.mem_cons]
        grind
      · simp only [take, if_neg htake, List.mem_cons]
        grind
    · intro components
      rw [hseen]
      by_cases htake : stage.accept path = true ∧ path.components ∉ s.seen
      · simp only [take, if_pos htake, Finset.mem_insert, List.mem_cons]
        grind
      · simp only [take, if_neg htake, List.mem_cons]
        grind

theorem gathers_of_files_nil {stage : Stage} (h : stage.files = []) (s : Collected) :
    Gathers [stage] s s := by
  have hnil : ([] : List PathBuf).Perm stage.files := by
    rw [h]
  exact gathers_foldl hnil (by simp [h]) s

/-- **What was taken, in the end.** -/
theorem mem_out_of_gathers {stages : List Stage} {s : Collected}
    (h : Gathers stages .empty s) (path : PathBuf) (label : String) :
    (path, label) ∈ sortFiles s.out ↔ Stage.FirstOffer stages path label := by
  rw [sortFiles, List.mem_mergeSort, h.mem]
  simp [Collected.empty]

theorem sorted_out_of_gathers {stages : List Stage} {s : Collected}
    (h : Gathers stages .empty s) :
    (sortFiles s.out).Pairwise fun a b => a.1.components < b.1.components := by
  have hnodup : ((sortFiles s.out).map fun file => file.1.components).Nodup := by
    refine ((List.mergeSort_perm s.out _).map _).nodup_iff.mpr ?_
    exact (h.valid Collected.valid_empty).nodup
  have hsorted : (sortFiles s.out).Pairwise fun a b =>
      decide (a.1.components ≤ b.1.components) = true := by
    apply List.pairwise_mergeSort
    · intro a b c hab hbc
      simp only [decide_eq_true_eq] at hab hbc ⊢
      exact le_trans hab hbc
    · intro a b
      simp only [Bool.or_eq_true, decide_eq_true_eq]
      exact le_total _ _
  refine (hsorted.and (List.pairwise_map.mp hnodup)).imp ?_
  intro a b h
  exact lt_of_le_of_ne (of_decide_eq_true h.1) h.2

end Stages

section Tree

variable {C : Type} (root : PathBuf) (tree : FileTree C) (dirPath : PathBuf)

/-- What a pack offers: the files below its directory. -/
def packStage (dir label : String) : Stage where
  accept := isRuleFile
  label := label
  files := tree.filesAt root (dirPath.join dir)

def rootStage : Stage where
  accept := isLegacyFile (tree.fileSystem root .listed)
  label := "legacy"
  files := (tree.namesAt root dirPath).map dirPath.child

def packStages (packs : List ManifestPack) : List Stage :=
  packs.map fun pack => packStage root tree dirPath pack.dir pack.name

def legacyStages : List Stage :=
  [rootStage root tree dirPath, packStage root tree dirPath "legacy" "legacy"]

/-- The enabled packs, in the order of the manifest. -/
def enabledPacks : Option RulesManifest → List ManifestPack
  | some manifest => manifest.packs.filter fun p => p.enabled
  | none => []

def legacyOn : Option RulesManifest → Bool
  | some manifest => manifest.legacy.enabled
  | none => true

/-- The stages of a collection with the given manifest. -/
def stages (manifest : Option RulesManifest) : List Stage :=
  packStages root tree dirPath (enabledPacks manifest) ++
    if legacyOn manifest then legacyStages root tree dirPath else []

/-- What stands where a directory is expected is a directory. -/
structure NoIoErrors (manifest : Option RulesManifest) : Prop where
  isDir : ∃ entries, tree.resolve root dirPath = some (.dir entries)
  packs : ∀ pack ∈ enabledPacks manifest,
    ∀ content, tree.resolve root (dirPath.join pack.dir) ≠ some (.file content)
  legacy : legacyOn manifest = true →
    ∀ content, tree.resolve root (dirPath.join "legacy") ≠ some (.file content)

theorem stages_shape (manifest : Option RulesManifest) :
    stages root tree.shape dirPath manifest = stages root tree dirPath manifest := by
  have haccept : isLegacyFile (tree.shape.fileSystem root .listed) =
      isLegacyFile (tree.fileSystem root .listed) := by
    funext path
    simp [isLegacyFile, FileTree.fileSystem, Option.any_map]
  simp [stages, packStages, legacyStages, packStage, rootStage, haccept]

variable {root tree dirPath} {fuel : Nat} (htree : tree.WellFormed) (hfuel : tree.dirCount ≤ fuel)
  (order : ReadOrder)

include htree hfuel

theorem collectRulesRecursively_tree {dir : String} (label : String)
    {entries : List (String × FileTree C)}
    (hdir : tree.resolve root (dirPath.join dir) = some (.dir entries)) (s : Nat × Collected) :
    ∃ s', collectRulesRecursively (tree.fileSystem root order) fuel (dirPath.join dir) label s =
        some (.ok s') ∧ Gathers [packStage root tree dirPath dir label] s.2 s'.2 := by
  have hstack : ∀ path ∈ [dirPath.join dir],
      ∃ entries, tree.resolve root path = some (.dir entries) := by
    intro path hpath
    rw [List.mem_singleton.mp hpath]
    exact ⟨entries, hdir⟩
  have hcount : ([dirPath.join dir].map (tree.dirsAt root)).sum ≤ fuel := by
    rw [List.map_singleton, List.sum_singleton]
    exact (FileTree.dirsAt_le _).trans hfuel
  obtain ⟨calls, visited, hperm, hwalk⟩ := FileTree.walk_fileSystem walkErrors
    (take isRuleFile label) order htree fuel [dirPath.join dir] s.1 s.2 hstack hcount
  rw [List.flatMap_singleton] at hperm
  have hgathers : Gathers [packStage root tree dirPath dir label] s.2
      (visited.foldl (take isRuleFile label) s.2) := by
    exact gathers_foldl hperm (FileTree.nodup_components_filesAt htree _) s.2
  exact ⟨_, hwalk, hgathers⟩

theorem collectPacks_tree (packs : List ManifestPack)
    (hpacks : ∀ pack ∈ packs, ∀ content,
      tree.resolve root (dirPath.join pack.dir) ≠ some (.file content)) (s : Nat × Collected) :
    ∃ s', collectPacks (tree.fileSystem root order) fuel dirPath packs s = some (.ok s') ∧
      Gathers (packStages root tree dirPath packs) s.2 s'.2 := by
  induction packs generalizing s with
  | nil =>
    exact ⟨s, rfl, Gathers.refl _⟩
  | cons pack packs ih =>
    have hrest : ∀ pack' ∈ packs, ∀ content,
        tree.resolve root (dirPath.join pack'.dir) ≠ some (.file content) := by
      intro pack' hpack'
      exact hpacks pack' (List.mem_cons_of_mem _ hpack')
    cases hdir : tree.resolve root (dirPath.join pack.dir) with
    | none =>
      obtain ⟨s', hs', hgathers⟩ := ih hrest s
      refine ⟨s', ?_, ?_⟩
      · rw [← hs']
        simp [collectPacks, FileTree.fileSystem, hdir]
      · refine Gathers.append (gathers_of_files_nil ?_ s.2) hgathers
        simp [packStage, FileTree.filesAt, hdir]
    | some t =>
      cases t with
      | file content =>
        exact absurd hdir (hpacks pack (by simp) content)
      | dir entries =>
        obtain ⟨s₁, hs₁, hgathers₁⟩ :=
          collectRulesRecursively_tree htree hfuel order pack.name hdir s
        obtain ⟨s', hs', hgathers⟩ := ih hrest s₁
        refine ⟨s', ?_, Gathers.append hgathers₁ hgathers⟩
        rw [← hs', collectPacks, hs₁]
        simp [FileTree.fileSystem, hdir, Outcome.andThen]

omit htree hfuel in
theorem takeLegacyEntries_ok {fs : FileSystem C} (paths : List PathBuf) (s : Collected) :
    takeLegacyEntries fs (paths.map .ok) s =
      .ok (paths.foldl (take (isLegacyFile fs) "legacy") s) := by
  induction paths generalizing s with
  | nil =>
    rfl
  | cons path paths ih =>
    exact ih _

theorem collectLegacyRules_tree {entries : List (String × FileTree C)}
    (hentries : tree.resolve root dirPath = some (.dir entries))
    (hlegacy : ∀ content, tree.resolve root (dirPath.join "legacy") ≠ some (.file content))
    (s : Nat × Collected) :
    ∃ s', collectLegacyRules (tree.fileSystem root order) fuel dirPath s = some (.ok s') ∧
      Gathers (legacyStages root tree dirPath) s.2 s'.2 := by
  obtain ⟨names, hnames⟩ : ∃ names, names = order.order s.1 (entries.map Prod.fst) := ⟨_, rfl⟩
  have hfiles : (rootStage root tree dirPath).files =
      (entries.map Prod.fst).map dirPath.child := by
    simp [rootStage, FileTree.namesAt, hentries]
  have hperm : (names.map dirPath.child).Perm (rootStage root tree dirPath).files := by
    rw [hnames, hfiles]
    exact (order.perm _ _).map _
  have hdistinct : ((rootStage root tree dirPath).files.map PathBuf.components).Nodup := by
    rw [hfiles, List.map_map]
    refine (htree.resolve hentries).1.map ?_
    intro name name' h
    simpa using h
  have hgathers := gathers_foldl hperm hdistinct s.2
  have hread : (tree.fileSystem root order).readDir s.1 dirPath =
      .ok ((names.map dirPath.child).map .ok) := by
    simp [FileTree.fileSystem, hentries, hnames]
  have htake : takeLegacyEntries (tree.fileSystem root order)
      ((names.map dirPath.child).map .ok) s.2 =
      .ok ((names.map dirPath.child).foldl (take (rootStage root tree dirPath).accept
        "legacy") s.2) := by
    exact takeLegacyEntries_ok _ _
  cases hdir : tree.resolve root (dirPath.join "legacy") with
  | none =>
    refine ⟨(s.1 + 1, _), ?_, hgathers.append (gathers_of_files_nil ?_ _)⟩
    · simp only [collectLegacyRules, hread, htake]
      simp [FileTree.fileSystem, hdir, rootStage]
    · simp [packStage, FileTree.filesAt, hdir]
  | some t =>
    cases t with
    | file content =>
      exact absurd hdir (hlegacy content)
    | dir entries' =>
      obtain ⟨s', hs', hgathers'⟩ := collectRulesRecursively_tree htree hfuel order
        "legacy" hdir (s.1 + 1, _)
      refine ⟨s', ?_, hgathers.append hgathers'⟩
      simp only [collectLegacyRules, hread, htake]
      rw [if_pos (by simp [FileTree.fileSystem, hdir])]
      exact hs'

/-- **The stages of the collection**, whatever the manifest enables. -/
theorem collectWith_tree {manifest : Option RulesManifest}
    (hio : NoIoErrors root tree dirPath manifest) :
    ∃ s', collectWith (tree.fileSystem root order) fuel dirPath manifest = some (.ok s') ∧
      Gathers (stages root tree dirPath manifest) .empty s'.2 := by
  obtain ⟨entries, hentries⟩ := hio.isDir
  cases manifest with
  | none =>
    exact collectLegacyRules_tree htree hfuel order hentries (hio.legacy rfl) (0, .empty)
  | some m =>
    obtain ⟨s₁, hs₁, hgathers₁⟩ := collectPacks_tree htree hfuel order
      (enabledPacks (some m)) hio.packs (0, .empty)
    rw [enabledPacks] at hs₁
    by_cases hlegacy : m.legacy.enabled = true
    · obtain ⟨s', hs', hgathers⟩ := collectLegacyRules_tree htree hfuel order hentries
        (hio.legacy hlegacy) s₁
      refine ⟨s', ?_, ?_⟩
      · rw [← hs', collectWith, hs₁]
        simp [Outcome.andThen, hlegacy]
      · rw [stages, if_pos (show legacyOn (some m) = true from hlegacy)]
        exact hgathers₁.append hgathers
    · refine ⟨s₁, ?_, ?_⟩
      · rw [collectWith, hs₁]
        simp [Outcome.andThen, hlegacy]
      · rw [stages, if_neg (show ¬ legacyOn (some m) = true from hlegacy), List.append_nil]
        exact hgathers₁

/-- **The collection ends, with the files in order of their paths**, each under
the label of the first stage that offers it. -/
theorem collectRuleFiles_tree {parseManifest : C → Except String RulesManifest}
    {manifest : Option RulesManifest}
    (hmanifest : readManifest (tree.fileSystem root order) parseManifest dirPath = .ok manifest)
    (hio : NoIoErrors root tree dirPath manifest) :
    ∃ files, collectRuleFiles (tree.fileSystem root order) fuel parseManifest dirPath =
        some (.ok files) ∧
      files.Pairwise (fun a b => a.1.components < b.1.components) ∧
      ∀ path label, (path, label) ∈ files ↔
        Stage.FirstOffer (stages root tree dirPath manifest) path label := by
  obtain ⟨s', hs', hgathers⟩ := collectWith_tree htree hfuel order hio
  refine ⟨sortFiles s'.2.out, ?_, sorted_out_of_gathers hgathers, mem_out_of_gathers hgathers⟩
  simp [collectRuleFiles, hmanifest, hs', Outcome.andThen]

section Converse

/-! A collection that succeeds met no file where a directory is expected. -/

omit htree hfuel

theorem ne_file_of_collectRulesRecursively {path : PathBuf} {label : String}
    {s s' : Nat × Collected}
    (h : collectRulesRecursively (tree.fileSystem root order) fuel path label s =
      some (.ok s')) (content : C) : tree.resolve root path ≠ some (.file content) := by
  intro hfile
  unfold collectRulesRecursively at h
  cases fuel with
  | zero =>
    cases h
  | succ fuel =>
    simp [FileSystem.walk, FileTree.fileSystem, hfile] at h

theorem andThen_eq_ok {α β : Type} {x : Outcome α} {f : α → Outcome β} {b : β}
    (h : x.andThen f = some (.ok b)) : ∃ a, x = some (.ok a) ∧ f a = some (.ok b) := by
  cases x with
  | none =>
    cases h
  | some result =>
    cases result with
    | error e =>
      cases h
    | ok a =>
      exact ⟨a, rfl, h⟩

theorem ne_file_of_collectPacks {packs : List ManifestPack} {s s' : Nat × Collected}
    (h : collectPacks (tree.fileSystem root order) fuel dirPath packs s = some (.ok s')) :
    ∀ pack ∈ packs, ∀ content,
      tree.resolve root (dirPath.join pack.dir) ≠ some (.file content) := by
  induction packs generalizing s with
  | nil =>
    intro pack hpack
    cases hpack
  | cons pack packs ih =>
    intro pack' hpack' content
    rw [collectPacks] at h
    by_cases hexists : (tree.fileSystem root order).pathExists (dirPath.join pack.dir) = true
    · rw [hexists] at h
      obtain ⟨s₁, hs₁, hrest⟩ := andThen_eq_ok h
      rcases List.mem_cons.mp hpack' with rfl | hmem
      · exact ne_file_of_collectRulesRecursively order hs₁ content
      · exact ih hrest pack' hmem content
    · rcases List.mem_cons.mp hpack' with rfl | hmem
      · intro hfile
        simp [FileTree.fileSystem, hfile] at hexists
      · rw [Bool.not_eq_true] at hexists
        rw [hexists] at h
        exact ih h pack' hmem content

theorem ne_file_of_collectLegacyRules {s s' : Nat × Collected}
    (h : collectLegacyRules (tree.fileSystem root order) fuel dirPath s = some (.ok s'))
    (content : C) : tree.resolve root (dirPath.join "legacy") ≠ some (.file content) := by
  intro hfile
  unfold collectLegacyRules at h
  cases hread : (tree.fileSystem root order).readDir s.1 dirPath with
  | error e =>
    simp [hread] at h
  | ok entries =>
    simp only [hread] at h
    cases htake : takeLegacyEntries (tree.fileSystem root order) entries s.2 with
    | error e =>
      simp [htake] at h
    | ok collected =>
      have hexists : (tree.fileSystem root order).pathExists (dirPath.join "legacy") =
          true := by
        simp [FileTree.fileSystem, hfile]
      simp only [htake, hexists, if_true] at h
      exact ne_file_of_collectRulesRecursively order h content hfile

/-- **A collection that succeeds** read its manifest and its directories. -/
theorem noIoErrors_of_collectRuleFiles {parseManifest : C → Except String RulesManifest}
    {files : List (PathBuf × String)}
    (hdir : ∃ entries, tree.resolve root dirPath = some (.dir entries))
    (h : collectRuleFiles (tree.fileSystem root order) fuel parseManifest dirPath =
      some (.ok files)) :
    ∃ manifest, readManifest (tree.fileSystem root order) parseManifest dirPath =
      .ok manifest ∧ NoIoErrors root tree dirPath manifest := by
  unfold collectRuleFiles at h
  cases hmanifest : readManifest (tree.fileSystem root order) parseManifest dirPath with
  | error e =>
    simp [hmanifest] at h
  | ok manifest =>
    simp only [hmanifest] at h
    obtain ⟨s, hs, _⟩ := andThen_eq_ok h
    refine ⟨manifest, rfl, hdir, ?_, ?_⟩
    · cases manifest with
      | none =>
        intro pack hpack
        cases hpack
      | some m =>
        obtain ⟨s₁, hs₁, _⟩ := andThen_eq_ok hs
        exact ne_file_of_collectPacks order hs₁
    · intro hlegacy
      cases manifest with
      | none =>
        exact ne_file_of_collectLegacyRules order hs
      | some m =>
        obtain ⟨s₁, _, hrest⟩ := andThen_eq_ok hs
        rw [if_pos (show m.legacy.enabled = true from hlegacy)] at hrest
        exact ne_file_of_collectLegacyRules order hrest

end Converse

end Tree

/-- What was taken, if the collection came to an end. -/
def takenFiles (x : Outcome (Nat × Collected)) : Option (List (PathBuf × String)) :=
  x.bind fun result => result.toOption.map fun s => s.2.out

theorem collectRuleFiles_of_takenFiles {C : Type} {fs : FileSystem C} {fuel : Nat}
    {parse : C → Except String RulesManifest} {dir : PathBuf} {manifest : Option RulesManifest}
    {files : List (PathBuf × String)} (hmanifest : readManifest fs parse dir = .ok manifest)
    (h : takenFiles (collectWith fs fuel dir manifest) = some files) :
    collectRuleFiles fs fuel parse dir = some (.ok (sortFiles files)) := by
  obtain ⟨result, hresult, htaken⟩ := Option.bind_eq_some_iff.mp h
  cases result with
  | error e =>
    cases htaken
  | ok s =>
    obtain rfl := Option.some.inj htaken
    simp [collectRuleFiles, hmanifest, hresult, Outcome.andThen]

end RuleFiles

end ArkInfra
