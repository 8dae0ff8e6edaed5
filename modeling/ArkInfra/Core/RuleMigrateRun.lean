import ArkInfra.Core.RuleLoad
import ArkInfra.Core.RuleMigrate

/-!
# Running the migration tool

`core/src/bin/rules-migrate.rs`, `run` with `--in-place`: the tool collects the
YAML files below its input, except those named `manifest.yaml`, and writes the
migrated value of each back to the file, with the texts its scalars are printed
with.

On a directory tree the run ends.  It leaves the shape of the tree, and a file
below the input has the migrated content afterwards (`runInPlace_tree`).
-/

namespace ArkInfra

open Yaml

namespace RulesMigrate

section Collect

variable {C : Type}

def isYamlFile (path : PathBuf) : Bool :=
  decide (path.extension = some "yaml") || decide (path.extension = some "yml")

def isToolFile (path : PathBuf) : Bool :=
  isYamlFile path && decide (path.fileName ≠ some "manifest.yaml")

def walkErrors : FileSystem.WalkErrors where
  readFailed := fun dir e => "read_dir failed " ++ dir.text ++ ": " ++ e
  entryFailed := fun e => "read_dir entry failed: " ++ e

def keepFile (files : List PathBuf) (path : PathBuf) : List PathBuf :=
  if isToolFile path then files ++ [path] else files

def collectFiles (fs : FileSystem C) (fuel : Nat) (input : PathBuf) :
    RuleFiles.Outcome (List PathBuf) :=
  if fs.isFile input then some (.ok (if isYamlFile input then [input] else []))
  else if !fs.isDir input then some (.error ("input does not exist: " ++ input.text))
  else
    RuleFiles.Outcome.andThen (fs.walk walkErrors keepFile fuel [input] 0 []) fun s =>
      some (.ok (s.2.mergeSort fun a b => decide (a.components ≤ b.components)))

end Collect

structure Summary where
  migratedRules : Nat
  partialRules : Nat
  failedRules : Nat
  unchangedRules : Nat
  unsupportedOps : HashMap String Nat

def Summary.default : Summary where
  migratedRules := 0
  partialRules := 0
  failedRules := 0
  unchangedRules := 0
  unsupportedOps := ∅

def Summary.fail (summary : Summary) : Summary :=
  { summary with failedRules := summary.failedRules + 1 }

def Summary.count (summary : Summary) (result : MigrateResult) : Summary :=
  let summary :=
    { summary with
      unsupportedOps := result.unsupportedOps.foldl (fun m op => HashMap.bump op m)
        summary.unsupportedOps }
  match result.status with
  | .unchanged => { summary with unchangedRules := summary.unchangedRules + 1 }
  | .migrated => { summary with migratedRules := summary.migratedRules + 1 }
  | .partialMigration => { summary with partialRules := summary.partialRules + 1 }

section Run

open RuleLoad

def write (root : PathBuf) (tree : FileTree YamlText) (path : PathBuf) (text : YamlText) :
    FileTree YamlText :=
  match tree.locate root path with
  | some names => tree.overwrite text names
  | none => tree

variable (root : PathBuf) (order : ReadOrder)

def migrateFile (s : FileTree YamlText × Summary) (file : PathBuf) :
    Except String (FileTree YamlText × Summary) :=
  match (s.1.fileSystem root order).readToString file with
  | .error e => .error ("read failed " ++ file.text ++ ": " ++ e)
  | .ok none => .ok (s.1, s.2.fail)
  | .ok (some doc) =>
    match migrateRuleValue file doc.toValue with
    | (_, .error _) => .ok (s.1, s.2.fail)
    | (value, .ok result) =>
      .ok (write root s.1 file (some (.ofValue value)), s.2.count result)

def migrateFiles : List PathBuf → FileTree YamlText × Summary →
    Except String (FileTree YamlText × Summary)
  | [], s => .ok s
  | file :: files, s =>
    match migrateFile root order s file with
    | .error e => .error e
    | .ok s => migrateFiles files s

/-- The tool with `--in-place` and no filter. -/
def runInPlace (fuel : Nat) (input : PathBuf) (tree : FileTree YamlText) :
    RuleFiles.Outcome (FileTree YamlText × Summary) :=
  (collectFiles (tree.fileSystem root order) fuel input).andThen fun files =>
    some (migrateFiles root order files (tree, .default))

end Run

section Effect

open RuleLoad

def migrateText (path : PathBuf) : YamlText → YamlText
  | none => none
  | some doc =>
    match migrateRuleValue path doc.toValue with
    | (value, .ok _) => some (.ofValue value)
    | (_, .error _) => some doc

variable {root : PathBuf} (order : ReadOrder)

/-- **One file**: its content is migrated, the rest of the tree stays. -/
theorem exists_migrateFile {tree : FileTree YamlText} {file : PathBuf} {names : List String}
    {text : YamlText} (hnames : tree.locate root file = some names)
    (htext : tree.content? names = some text) (summary : Summary) :
    ∃ tree' summary', migrateFile root order (tree, summary) file = .ok (tree', summary') ∧
      tree'.shape = tree.shape ∧
      ∀ names', tree'.content? names' =
        if names' = names then some (migrateText file text) else tree.content? names' := by
  have hread : (tree.fileSystem root order).readToString file = .ok text :=
    FileTree.readToString_eq_ok_iff.mpr ⟨names, hnames, htext⟩
  have hkept : ∀ names', tree.content? names' =
      if names' = names then some text else tree.content? names' := by
    intro names'
    split_ifs with heq
    · rw [heq, htext]
    · rfl
  unfold migrateFile
  simp only [hread]
  cases text with
  | none =>
    exact ⟨tree, _, rfl, rfl, hkept⟩
  | some doc =>
    rcases hmigrate : migrateRuleValue file doc.toValue with ⟨value, result⟩
    cases result with
    | error e =>
      simp only [migrateText, hmigrate]
      exact ⟨tree, _, rfl, rfl, hkept⟩
    | ok result =>
      simp only [migrateText, hmigrate]
      refine ⟨_, _, rfl, ?_, ?_⟩
      · simp [write, hnames]
      · intro names'
        simp [write, hnames, FileTree.content?_overwrite, htext]

/-- **All files**, each once. -/
theorem exists_migrateFiles {tree : FileTree YamlText} {input : PathBuf} {base : List String}
    (hbase : tree.locate root input = some base) (rests : List (List String))
    (hnodup : rests.Nodup)
    (hfiles : ∀ rest ∈ rests, (tree.content? (base ++ rest)).isSome = true) (summary : Summary) :
    ∃ tree' summary',
      migrateFiles root order (rests.map input.descend) (tree, summary) =
        .ok (tree', summary') ∧
      tree'.shape = tree.shape ∧
      (∀ rest ∈ rests, tree'.content? (base ++ rest) =
        (tree.content? (base ++ rest)).map (migrateText (input.descend rest))) ∧
      ∀ names, (∀ rest ∈ rests, names ≠ base ++ rest) →
        tree'.content? names = tree.content? names := by
  induction rests generalizing tree summary with
  | nil =>
    exact ⟨tree, summary, rfl, rfl, by simp, fun _ _ => rfl⟩
  | cons rest rests ih =>
    rw [List.nodup_cons] at hnodup
    obtain ⟨text, htext⟩ := Option.isSome_iff_exists.mp (hfiles rest (by simp))
    have hget : (tree.get? (base ++ rest)).isSome = true := by
      unfold FileTree.content? at htext
      cases hget : tree.get? (base ++ rest) with
      | none =>
        simp [hget] at htext
      | some t =>
        rfl
    obtain ⟨tree₁, summary₁, hstep, hshape₁, hcontent₁⟩ :=
      exists_migrateFile order (FileTree.locate_descend hbase hget) htext summary
    -- the other files are still what they were
    have hother : ∀ rest' ∈ rests, tree₁.content? (base ++ rest') =
        tree.content? (base ++ rest') := by
      intro rest' hrest'
      rw [hcontent₁, if_neg]
      intro heq
      rw [List.append_cancel_left heq] at hrest'
      exact hnodup.1 hrest'
    have hbase₁ : tree₁.locate root input = some base := by
      rw [← FileTree.locate_shape, hshape₁, FileTree.locate_shape, hbase]
    have hfiles₁ : ∀ rest' ∈ rests, (tree₁.content? (base ++ rest')).isSome = true := by
      intro rest' hrest'
      rw [hother rest' hrest']
      exact hfiles rest' (List.mem_cons_of_mem _ hrest')
    obtain ⟨tree', summary', hrun, hshape, hin, hout⟩ := ih hbase₁ hnodup.2 hfiles₁ summary₁
    refine ⟨tree', summary', ?_, hshape.trans hshape₁, ?_, ?_⟩
    · simp only [List.map_cons, migrateFiles, hstep]
      exact hrun
    · intro rest' hrest'
      rcases List.mem_cons.mp hrest' with rfl | hmem
      · have hself : ∀ other ∈ rests, base ++ rest' ≠ base ++ other := by
          intro other hother' heq
          rw [List.append_cancel_left heq] at hnodup
          exact hnodup.1 hother'
        rw [hout _ hself, hcontent₁, if_pos rfl, htext, Option.map_some]
      · rw [hin rest' hmem, hother rest' hmem]
    · intro names hnames
      have hrests : ∀ rest' ∈ rests, names ≠ base ++ rest' := by
        intro rest' hrest'
        exact hnames rest' (List.mem_cons_of_mem _ hrest')
      rw [hout names hrests, hcontent₁, if_neg (hnames rest (by simp))]

theorem exists_eq_map_of_perm {α β : Type} {f : α → β} {l : List β} {l' : List α}
    (h : l.Perm (l'.map f)) : ∃ l₀ : List α, l = l₀.map f ∧ l₀.Perm l' := by
  have hcomp : Relation.Comp (fun x y => x = List.map f y) (fun x y => x.Perm y) l l' := by
    rw [List.eq_map_comp_perm]
    exact h
  exact hcomp

theorem foldl_keepFile (visited files : List PathBuf) :
    visited.foldl keepFile files = files ++ visited.filter isToolFile := by
  induction visited generalizing files with
  | nil =>
    simp
  | cons path visited ih =>
    rw [List.foldl_cons, ih, keepFile, List.filter_cons]
    split_ifs <;> simp

/-- The files of the tool: those below the input that it rewrites, each once. -/
theorem exists_collectFiles {tree : FileTree YamlText} {input : PathBuf} {fuel : Nat}
    {entries : List (String × FileTree YamlText)} (htree : tree.WellFormed)
    (hfuel : tree.dirCount ≤ fuel) (hdir : tree.resolve root input = some (.dir entries)) :
    ∃ rests : List (List String),
      collectFiles (tree.fileSystem root order) fuel input =
        some (.ok (rests.map input.descend)) ∧
      rests.Nodup ∧
      ∀ rest, rest ∈ rests ↔
        rest ∈ (FileTree.dir entries).paths ∧ isToolFile (input.descend rest) = true := by
  have hstack : ∀ path ∈ [input], ∃ entries, tree.resolve root path = some (.dir entries) := by
    intro path hpath
    rw [List.mem_singleton.mp hpath]
    exact ⟨entries, hdir⟩
  have hcount : ([input].map (tree.dirsAt root)).sum ≤ fuel := by
    rw [List.map_singleton, List.sum_singleton]
    exact (FileTree.dirsAt_le _).trans hfuel
  obtain ⟨calls, visited, hperm, hwalk⟩ := FileTree.walk_fileSystem walkErrors keepFile order
    htree fuel [input] 0 [] hstack hcount
  have hpaths : (FileTree.dir entries).paths.Nodup :=
    FileTree.nodup_paths (htree.resolve hdir)
  -- what is visited are the paths below the input, in some order
  have hvisited : visited.Perm ((FileTree.dir entries).paths.map input.descend) := by
    simpa [FileTree.filesAt, hdir] using hperm
  have hsorted : ((visited.filter isToolFile).mergeSort fun a b =>
      decide (a.components ≤ b.components)).Perm
      (((FileTree.dir entries).paths.filter fun rest => isToolFile (input.descend rest)).map
        input.descend) := by
    refine (List.mergeSort_perm _ _).trans ((hvisited.filter isToolFile).trans ?_)
    rw [List.filter_map]
    rfl
  obtain ⟨rests, hmap, hrests⟩ := exists_eq_map_of_perm hsorted
  refine ⟨rests, ?_, hrests.nodup_iff.mpr (hpaths.filter _), ?_⟩
  · have hisFile : (tree.fileSystem root order).isFile input = false := by
      simp [FileTree.fileSystem, hdir, FileTree.isDir]
    have hisDir : (tree.fileSystem root order).isDir input = true := by
      simp [FileTree.fileSystem, hdir, FileTree.isDir]
    rw [collectFiles, hisFile, hisDir, hwalk, foldl_keepFile, List.nil_append, ← hmap]
    rfl
  · intro rest
    rw [hrests.mem_iff, List.mem_filter]

/-- What the tool makes of a tree, for an input at the place `base`.  The shape
stays; below the input the files that the tool rewrites have their migrated
content, all others are what they were. -/
structure Rewritten (input : PathBuf) (base : List String) (tree tree' : FileTree YamlText) :
    Prop where
  shape : tree'.shape = tree.shape
  migrated : ∀ rest, isToolFile (input.descend rest) = true → tree'.content? (base ++ rest) =
    (tree.content? (base ++ rest)).map (migrateText (input.descend rest))
  kept : ∀ names, (∀ rest, names = base ++ rest → isToolFile (input.descend rest) = false) →
    tree'.content? names = tree.content? names

/-- **The run of the tool.** -/
theorem runInPlace_tree {tree : FileTree YamlText} {input : PathBuf} {fuel : Nat}
    {base : List String} {entries : List (String × FileTree YamlText)}
    (htree : tree.WellFormed) (hfuel : tree.dirCount ≤ fuel)
    (hbase : tree.locate root input = some base)
    (hdir : tree.get? base = some (.dir entries)) :
    ∃ tree' summary, runInPlace root order fuel input tree = some (.ok (tree', summary)) ∧
      Rewritten input base tree tree' := by
  have hresolve : tree.resolve root input = some (.dir entries) := by
    rw [FileTree.resolve, hbase, Option.bind_some, hdir]
  obtain ⟨rests, hcollect, hnodup, hmem⟩ := exists_collectFiles order htree hfuel hresolve
  have hget : ∀ rest, tree.get? (base ++ rest) = (FileTree.dir entries).get? rest := by
    intro rest
    rw [FileTree.get?_append, hdir, Option.bind_some]
  have hpaths : ∀ rest, rest ∈ (FileTree.dir entries).paths ↔
      (tree.content? (base ++ rest)).isSome = true := by
    intro rest
    rw [FileTree.mem_paths_iff (htree.resolve hresolve), FileTree.content?, hget]
    cases (FileTree.dir entries).get? rest with
    | none =>
      simp
    | some t =>
      cases t <;> simp
  obtain ⟨tree', summary, hrun, hshape, hin, hout⟩ := exists_migrateFiles order hbase rests hnodup
    (fun rest hrest => (hpaths rest).mp ((hmem rest).mp hrest).1) .default
  refine ⟨tree', summary, ?_, hshape, ?_, ?_⟩
  · rw [runInPlace, hcollect]
    exact congrArg some hrun
  · intro rest htool
    by_cases hrest : rest ∈ rests
    · exact hin rest hrest
    · -- there is no file at this place
      have hnone : tree.content? (base ++ rest) = none := by
        rw [← Option.not_isSome_iff_eq_none, ← hpaths]
        exact fun hpath => hrest ((hmem rest).mpr ⟨hpath, htool⟩)
      have hother : ∀ rest' ∈ rests, base ++ rest ≠ base ++ rest' := by
        intro rest' hrest' heq
        rw [List.append_cancel_left heq] at hrest
        exact hrest hrest'
      rw [hout _ hother, hnone, Option.map_none]
  · intro names hnames
    apply hout
    intro rest hrest heq
    have htool := ((hmem rest).mp hrest).2
    rw [hnames rest heq] at htool
    cases htool

end Effect

end RulesMigrate

end ArkInfra
