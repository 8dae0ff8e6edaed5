import ArkInfra.Core.RuleMigrateRun

/-!
# The options of the migration tool

`core/src/bin/rules-migrate.rs`, the rest of it: the arguments, the filter, the
three places an output can go to, the dry run and the exit code.  The tool reads
its files one after the other and may write between two reads, so a real run may
read what it has written itself, which a dry run never does.

`dryRun_predicts` says that this makes no difference to the default mode and to
`--in-place`: the dry run has the counts and the exit code of the real one.  In
the default mode it is the order of the files that sees to it, since the name of
an output sorts before the name it is made from.  With `--out-dir` nothing keeps
an output from landing on a file that is read later.
-/

namespace ArkInfra

open Yaml

namespace RulesMigrate

open RuleFiles RuleLoad

structure Cli where
  input : Option PathBuf
  outDir : Option PathBuf
  inPlace : Bool
  dryRun : Bool
  filterPack : Option String
  strict : Bool

def Cli.default : Cli where
  input := none
  outDir := none
  inPlace := false
  dryRun := false
  filterPack := none
  strict := false

def usage : String :=
  "Usage: rules-migrate <INPUT> [--out-dir <DIR>] [--in-place] [--dry-run] " ++
    "[--filter-pack <pack>] [--strict]"

def parseArgsFrom : Cli → List String → Except String Cli
  | cli, [] => .ok cli
  | cli, arg :: args =>
    if arg = "--out-dir" then
      match args with
      | [] => .error "--out-dir requires value"
      | dir :: args => parseArgsFrom { cli with outDir := some (.ofText dir) } args
    else if arg = "--in-place" then
      parseArgsFrom { cli with inPlace := true } args
    else if arg = "--dry-run" then
      parseArgsFrom { cli with dryRun := true } args
    else if arg = "--filter-pack" then
      match args with
      | [] => .error "--filter-pack requires value"
      | pack :: args => parseArgsFrom { cli with filterPack := some pack } args
    else if arg = "--strict" then
      parseArgsFrom { cli with strict := true } args
    else if arg = "-h" ∨ arg = "--help" then
      .error usage
    else if Text.startsWith arg "-" then
      .error ("unknown option: " ++ arg ++ "\n" ++ usage)
    else if cli.input.isSome then
      .error ("multiple input paths provided\n" ++ usage)
    else
      parseArgsFrom { cli with input := some (.ofText arg) } args

def checkCli (cli : Cli) : Except String (PathBuf × Cli) :=
  match cli.input with
  | none => .error usage
  | some input =>
    if cli.inPlace && cli.outDir.isSome then
      .error "--in-place cannot be used with --out-dir"
    else
      .ok (input, cli)

/-- The arguments, with the input that they must name. -/
def parseArgs (args : List String) : Except String (PathBuf × Cli) :=
  match parseArgsFrom .default args with
  | .error e => .error e
  | .ok cli => checkCli cli

def matchesPackFilter (path : PathBuf) (filterPack : Option String) : Bool :=
  match filterPack with
  | none => true
  | some pack =>
    let normalized := String.ofList (path.text.toList.map fun c => if c = '\x5c' then '/' else c)
    Text.contains normalized ("/rules/" ++ pack ++ "/") ||
      Text.endsWith normalized ("/rules/" ++ pack)

/-- A path behind a directory; an absolute one takes its place. -/
def joinPath (dir : PathBuf) (components : List Component) : PathBuf :=
  if components.head? = some .rootDir then
    ⟨"/".intercalate (components.map Component.asStr), components⟩
  else
    ⟨PathBuf.joinText dir.text ("/".intercalate (components.map Component.asStr)),
      dir.components ++ components⟩

/-- The path with its last component replaced. -/
def withFileName (path : PathBuf) (name : String) : PathBuf :=
  joinPath ⟨"/".intercalate (path.components.dropLast.map Component.asStr),
    path.components.dropLast⟩ [.normal name]

def outputPath (cli : Cli) (inputBase file : PathBuf) : Except String PathBuf :=
  if cli.inPlace then .ok file
  else
    match cli.outDir with
    | some outDir =>
      let rel :=
        if inputBase.components <+: file.components then
          file.components.drop inputBase.components.length
        else
          file.components
      -- an output without an extension would get one, but the files have theirs
      .ok (joinPath outDir rel)
    | none =>
      match file.fileName with
      | none => .error ("invalid file name: " ++ file.text)
      | some name => .ok (withFileName file (PathBuf.stemOf name ++ ".migrated.yaml"))

/-- What the tool has written so far, and its counts.  Files are told apart by the
components of their paths. -/
structure ToolState where
  written : HashMap (List Component) YamlText
  summary : Summary

/-- What the tool works on: the files as they are at first, and what keeps a path
from being written, besides a directory in its place. -/
structure Workspace where
  fs : FileSystem YamlText
  writable : PathBuf → Except String Unit

namespace Workspace

variable (ws : Workspace)

/-- Read a file, which the tool may have written itself. -/
def read (s : ToolState) (file : PathBuf) : Except String YamlText :=
  match s.written.lookup file.components with
  | some text => .ok text
  | none => ws.fs.readToString file

def writeMigrated (s : ToolState) (path : PathBuf) (value : Plain) : Except String ToolState :=
  if ws.fs.isDir path then
    .error ("write failed " ++ path.text ++ ": Is a directory (os error 21)")
  else
    match ws.writable path with
    | .error e => .error e
    | .ok () =>
      .ok { s with written := s.written.insert path.components (some (.ofValue value)) }

/-- The end of the loop body: write the value, unless the run is dry. -/
def finish (cli : Cli) (inputBase file : PathBuf) (s : ToolState) (value : Plain) :
    ToolState × Option String :=
  if cli.dryRun then (s, none)
  else
    match outputPath cli inputBase file with
    | .error e => (s, some e)
    | .ok out =>
      match ws.writeMigrated s out value with
      | .error e => (s, some e)
      | .ok s => (s, none)

/-- The loop body, with the error that ends the run. -/
def migrateFile (cli : Cli) (inputBase : PathBuf) (s : ToolState) (file : PathBuf) :
    ToolState × Option String :=
  if !matchesPackFilter file cli.filterPack then (s, none)
  else
    match ws.read s file with
    | .error e => (s, some ("read failed " ++ file.text ++ ": " ++ e))
    | .ok none => ({ s with summary := s.summary.fail }, none)
    | .ok (some doc) =>
      match migrateRuleValue file doc.toValue with
      | (_, .error _) => ({ s with summary := s.summary.fail }, none)
      | (value, .ok result) =>
        ws.finish cli inputBase file { s with summary := s.summary.count result } value

def migrateFiles (cli : Cli) (inputBase : PathBuf) :
    List PathBuf → ToolState → ToolState × Option String
  | [], s => (s, none)
  | file :: files, s =>
    match ws.migrateFile cli inputBase s file with
    | (s, some e) => (s, some e)
    | (s, none) => migrateFiles cli inputBase files s

/-- The directory that outputs keep their place below. -/
def inputBase (input : PathBuf) : PathBuf :=
  if ws.fs.isDir input then input
  else if input.components.dropLast = input.components then .ofText "."
  else ⟨"/".intercalate (input.components.dropLast.map Component.asStr), input.components.dropLast⟩

def start : ToolState where
  written := ∅
  summary := .default

/-- `run`; without a result when the walk of the input does not end. -/
def run (fuel : Nat) (input : PathBuf) (cli : Cli) : Option (ToolState × Option String) :=
  match collectFiles ws.fs fuel input with
  | none => none
  | some (.error e) => some (start, some e)
  | some (.ok files) => some (ws.migrateFiles cli (ws.inputBase input) files start)

def exitCode (cli : Cli) (result : ToolState × Option String) : Nat :=
  match result.2 with
  | some _ => 1
  | none =>
    if cli.strict &&
        (decide (0 < result.1.summary.partialRules) || decide (0 < result.1.summary.failedRules))
    then 1 else 0

/-- `main`: the exit code, and what was written and counted. -/
def main (fuel : Nat) (args : List String) : Option (Nat × ToolState) :=
  match parseArgs args with
  | .error _ => some (2, start)
  | .ok (input, cli) =>
    (ws.run fuel input cli).map fun result => (exitCode cli result, result.1)

end Workspace

section Arguments

def Cli.asDryRun (cli : Cli) : Cli :=
  { cli with dryRun := true }

theorem parseArgsFrom_append_dryRun {cli cli' : Cli} {args : List String}
    (h : parseArgsFrom cli args = .ok cli') :
    parseArgsFrom cli (args ++ ["--dry-run"]) = .ok cli'.asDryRun := by
  fun_induction parseArgsFrom cli args with
  | case1 cli =>
    cases h
    rfl
  | case3 cli dir args ih =>
    exact ih h
  | case7 cli pack args _ _ _ ih =>
    simpa [parseArgsFrom] using ih h
  | case4 cli args _ ih | case5 cli args _ _ ih | case8 cli args _ _ _ _ ih =>
    rw [List.cons_append, parseArgsFrom.eq_def]
    simpa using ih h
  | case12 cli arg args hout hin hdry hpack hstrict hhelp hdash hone ih =>
    rw [List.cons_append, parseArgsFrom.eq_def]
    simpa [hout, hin, hdry, hpack, hstrict, hhelp, hdash, hone] using ih h
  | case2 | case6 | case9 | case10 | case11 =>
    -- the arguments are refused
    cases h

theorem checkCli_asDryRun {cli : Cli} {result : PathBuf × Cli} (h : checkCli cli = .ok result) :
    checkCli cli.asDryRun = .ok (result.1, result.2.asDryRun) := by
  unfold checkCli at h ⊢
  change (match cli.input with
    | none => _
    | some input => if cli.inPlace && cli.outDir.isSome then _ else _) = _
  cases hinput : cli.input with
  | none =>
    rw [hinput] at h
    cases h
  | some input =>
    rw [hinput] at h
    dsimp only at h ⊢
    split_ifs at h ⊢
    cases h
    rfl

theorem parseArgs_append_dryRun {args : List String} {input : PathBuf} {cli : Cli}
    (h : parseArgs args = .ok (input, cli)) :
    parseArgs (args ++ ["--dry-run"]) = .ok (input, cli.asDryRun) := by
  unfold parseArgs at h ⊢
  cases hfrom : parseArgsFrom .default args with
  | error e =>
    rw [hfrom] at h
    cases h
  | ok cli' =>
    rw [hfrom] at h
    rw [parseArgsFrom_append_dryRun hfrom]
    exact checkCli_asDryRun h

end Arguments

section Outputs

theorem components_withFileName (path : PathBuf) (name : String) :
    (withFileName path name).components = path.components.dropLast ++ [.normal name] := by
  rfl

theorem components_eq_of_fileName {path : PathBuf} {name : String}
    (h : path.fileName = some name) :
    path.components = path.components.dropLast ++ [.normal name] := by
  unfold PathBuf.fileName at h
  split at h
  next name' hlast =>
    rw [Option.some.inj h] at hlast
    exact (List.dropLast_append_getLast? _ hlast).symm
  next => cases h

/-- In the names of the default mode the new piece stands before the extension. -/
theorem migrated_lt {name : String}
    (h : PathBuf.extensionOf name = some "yaml" ∨ PathBuf.extensionOf name = some "yml") :
    (PathBuf.stemOf name ++ ".migrated.yaml").toList < name.toList := by
  have hlt : ∀ e : String, name = PathBuf.stemOf name ++ "." ++ e →
      ".migrated.yaml".toList < ".".toList ++ e.toList →
      (PathBuf.stemOf name ++ ".migrated.yaml").toList < name.toList := by
    intro e hname he
    have hlist := congrArg String.toList hname
    rw [String.toList_append, String.toList_append, List.append_assoc] at hlist
    rw [hlist, String.toList_append]
    exact List.append_left_lt he
  rcases h with h | h
  · exact hlt _ (PathBuf.eq_stemOf_append h).1 (by decide)
  · exact hlt _ (PathBuf.eq_stemOf_append h).1 (by decide)

/-- **Where an output goes**, when there is no directory for it: to the file itself
or to a path that is sorted before it. -/
theorem exists_outputPath {cli : Cli} (hout : cli.outDir = none) (inputBase : PathBuf)
    {file : PathBuf} (hfile : isYamlFile file = true) :
    ∃ out, outputPath cli inputBase file = .ok out ∧ out.components ≤ file.components := by
  unfold outputPath
  by_cases hplace : cli.inPlace = true
  · rw [if_pos hplace]
    exact ⟨file, rfl, le_refl _⟩
  · rw [if_neg hplace, hout]
    cases hname : file.fileName with
    | none =>
      simp [isYamlFile, PathBuf.extension, hname] at hfile
    | some name =>
      refine ⟨_, rfl, le_of_lt ?_⟩
      rw [components_withFileName, components_eq_of_fileName hname, List.dropLast_concat]
      apply List.append_left_lt
      rw [List.cons_lt_cons_iff]
      apply Or.inl
      apply Component.normal_lt_normal
      apply migrated_lt
      simpa [isYamlFile, PathBuf.extension, hname] using hfile

end Outputs

section Collected

variable {C : Type} {fs : FileSystem C} {fuel : Nat} {input : PathBuf} {files : List PathBuf}

theorem collectFiles_sorted (h : collectFiles fs fuel input = some (.ok files)) :
    (∀ file ∈ files, isYamlFile file = true) ∧
      files.Pairwise fun a b => a.components ≤ b.components := by
  unfold collectFiles at h
  split_ifs at h with hfile hyaml hdir
  · cases h
    simpa using hyaml
  · cases h
    simp
  · cases h
  · obtain ⟨⟨calls, found⟩, hwalk, hfound⟩ := RuleFiles.andThen_eq_ok h
    cases hfound
    have hkept : ∀ file ∈ found, isYamlFile file = true := by
      refine FileSystem.walk_invariant (P := fun found => ∀ file ∈ found, isYamlFile file = true)
        ?_ (by simp) hwalk
      intro found path hfound file hmem
      unfold keepFile at hmem
      split_ifs at hmem with htool
      · rcases List.mem_append.mp hmem with hmem | hmem
        · exact hfound file hmem
        · rw [List.mem_singleton.mp hmem]
          exact (Bool.and_eq_true_iff.mp htool).1
      · exact hfound file hmem
    refine ⟨fun file hmem => hkept file (List.mem_mergeSort.mp hmem), ?_⟩
    refine (List.pairwise_mergeSort ?_ ?_ found).imp of_decide_eq_true
    · intro a b c hab hbc
      rw [decide_eq_true_eq] at hab hbc ⊢
      exact hab.trans hbc
    · intro a b
      rw [Bool.or_eq_true, decide_eq_true_eq, decide_eq_true_eq]
      exact le_total _ _

/-- On a tree the files are collected, each once, or the input does not exist. -/
theorem exists_collectFiles_tree {tree : FileTree RuleLoad.YamlText} (root : PathBuf)
    (order : ReadOrder) (htree : tree.WellFormed) (hfuel : tree.dirCount ≤ fuel)
    (input : PathBuf) :
    (∃ e, collectFiles (tree.fileSystem root order) fuel input = some (.error e)) ∨
      ∃ files, collectFiles (tree.fileSystem root order) fuel input = some (.ok files) ∧
        files.Pairwise fun a b => a.components < b.components := by
  cases hresolve : tree.resolve root input with
  | none =>
    refine .inl ⟨"input does not exist: " ++ input.text, ?_⟩
    simp [collectFiles, FileTree.fileSystem, hresolve]
  | some t =>
    cases t with
    | file content =>
      refine .inr ⟨if isYamlFile input then [input] else [], ?_, ?_⟩
      · simp [collectFiles, FileTree.fileSystem, hresolve, FileTree.isDir]
      · split_ifs <;> simp
    | dir entries =>
      obtain ⟨rests, hcollect, hnodup, -⟩ := exists_collectFiles order htree hfuel hresolve
      refine .inr ⟨_, hcollect, ?_⟩
      have hne : (rests.map input.descend).Pairwise
          fun a b => a.components ≠ b.components := by
        rw [List.pairwise_map]
        refine hnodup.imp ?_
        intro rest rest' hrest heq
        rw [PathBuf.components_descend, PathBuf.components_descend] at heq
        exact hrest (Component.map_normal_injective (List.append_cancel_left heq))
      have hsorted := (collectFiles_sorted hcollect).2
      exact hsorted.imp₂ (fun _ _ hle hne => lt_of_le_of_ne hle hne) hne

end Collected

namespace Workspace

variable {ws : Workspace}

/-- A value that the tool writes: what it makes of the content that a file has at
first, at the path that is meant for it. -/
def IsOutput (ws : Workspace) (cli : Cli) (inputBase : PathBuf) (path : List Component)
    (text : YamlText) : Prop :=
  ∃ file out doc value result, ws.fs.readToString file = .ok (some doc) ∧
    migrateRuleValue file doc.toValue = (value, .ok result) ∧
    outputPath cli inputBase file = .ok out ∧ path = out.components ∧
    text = some (.ofValue value)

def CanWrite (ws : Workspace) (path : PathBuf) : Prop :=
  ws.fs.isDir path = false ∧ ws.writable path = .ok ()

/-- Every path that is meant for the output of a file can be written. -/
def OutputsWritable (ws : Workspace) (cli : Cli) (fuel : Nat) (input : PathBuf) : Prop :=
  ∀ files, collectFiles ws.fs fuel input = some (.ok files) → ∀ file ∈ files,
    matchesPackFilter file cli.filterPack = true →
      ∀ out, outputPath cli (ws.inputBase input) file = .ok out → ws.CanWrite out

section Step

variable {cli : Cli} {inputBase file out : PathBuf} {s : ToolState}

/-- **One file**: as long as the tool has not written to it, the dry run does the
same with it, and all that the real run adds is its output. -/
theorem exists_migrateFile_dry (hdry : cli.dryRun = false)
    (hout : outputPath cli inputBase file = .ok out)
    (hwrite : matchesPackFilter file cli.filterPack = true → ws.CanWrite out)
    (hfresh : s.written.lookup file.components = none) :
    ∃ s' stop, ws.migrateFile cli inputBase s file = (s', stop) ∧
      ws.migrateFile cli.asDryRun inputBase ⟨∅, s.summary⟩ file = (⟨∅, s'.summary⟩, stop) ∧
      (s'.written = s.written ∨ ∃ text, ws.IsOutput cli inputBase out.components text ∧
        s'.written = s.written.insert out.components text) := by
  have hread : ws.read s file = ws.fs.readToString file := by
    rw [read, hfresh]
  have hread' : ws.read ⟨∅, s.summary⟩ file = ws.fs.readToString file := by
    rfl
  have hfilter : cli.asDryRun.filterPack = cli.filterPack := by
    rfl
  unfold migrateFile
  rw [hread, hread', hfilter]
  by_cases hmatch : matchesPackFilter file cli.filterPack = true
  · have hwritable := hwrite hmatch
    rw [hmatch]
    cases htext : ws.fs.readToString file with
    | error e =>
      exact ⟨s, _, rfl, rfl, .inl rfl⟩
    | ok text =>
      cases text with
      | none =>
        exact ⟨_, none, rfl, rfl, .inl rfl⟩
      | some doc =>
        rcases hmigrate : migrateRuleValue file doc.toValue with ⟨value, result⟩
        cases result with
        | error e =>
          simp only [hmigrate]
          exact ⟨_, none, rfl, rfl, .inl rfl⟩
        | ok result =>
          simp only [hmigrate, finish, hdry, hout, writeMigrated, hwritable.1, hwritable.2]
          exact ⟨_, none, rfl, rfl,
            .inr ⟨_, ⟨file, out, doc, _, _, htext, hmigrate, hout, rfl, rfl⟩, rfl⟩⟩
  · rw [Bool.not_eq_true] at hmatch
    rw [hmatch]
    exact ⟨s, none, rfl, rfl, .inl rfl⟩

end Step

/-- **All files**, when no output lands on a file that is still to be read. -/
theorem exists_migrateFiles_dry {cli : Cli} {inputBase : PathBuf} (hdry : cli.dryRun = false)
    {files : List PathBuf} {s : ToolState}
    (hout : ∀ file ∈ files, ∃ out, outputPath cli inputBase file = .ok out ∧
      out.components ≤ file.components ∧
      (matchesPackFilter file cli.filterPack = true → ws.CanWrite out))
    (hsorted : files.Pairwise fun a b => a.components < b.components)
    (hfresh : ∀ file ∈ files, s.written.lookup file.components = none)
    (hwritten : ∀ path text, s.written.lookup path = some text →
      ws.IsOutput cli inputBase path text) :
    ∃ s' stop, ws.migrateFiles cli inputBase files s = (s', stop) ∧
      ws.migrateFiles cli.asDryRun inputBase files ⟨∅, s.summary⟩ = (⟨∅, s'.summary⟩, stop) ∧
      ∀ path text, s'.written.lookup path = some text → ws.IsOutput cli inputBase path text := by
  induction files generalizing s with
  | nil =>
    exact ⟨s, none, rfl, rfl, hwritten⟩
  | cons file files ih =>
    obtain ⟨out, hpath, hle, hwrite⟩ := hout file (by simp)
    rw [List.pairwise_cons] at hsorted
    obtain ⟨s₁, stop, hreal, hdryStep, hs₁⟩ :=
      exists_migrateFile_dry hdry hpath hwrite (hfresh file (by simp))
    have hwritten₁ : ∀ path text, s₁.written.lookup path = some text →
        ws.IsOutput cli inputBase path text := by
      intro path text hlookup
      rcases hs₁ with hs₁ | ⟨text₁, houtput, hs₁⟩
      · rw [hs₁] at hlookup
        exact hwritten path text hlookup
      · rw [hs₁] at hlookup
        by_cases heq : path = out.components
        · rw [heq, AList.lookup_insert] at hlookup
          rw [heq, ← Option.some.inj hlookup]
          exact houtput
        · rw [AList.lookup_insert_ne heq] at hlookup
          exact hwritten path text hlookup
    -- the output is at most the file, and the files behind it are greater
    have hfresh₁ : ∀ next ∈ files, s₁.written.lookup next.components = none := by
      intro next hnext
      have hkept := hfresh next (List.mem_cons_of_mem _ hnext)
      rcases hs₁ with hs₁ | ⟨text₁, -, hs₁⟩
      · rw [hs₁, hkept]
      · have hlt : out.components < next.components := hle.trans_lt (hsorted.1 next hnext)
        rw [hs₁, AList.lookup_insert_ne hlt.ne', hkept]
    cases stop with
    | some e =>
      refine ⟨s₁, some e, ?_, ?_, hwritten₁⟩
      · rw [migrateFiles, hreal]
      · rw [migrateFiles, hdryStep]
    | none =>
      obtain ⟨s', stop, hrest, hdryRest, hs'⟩ := ih
        (fun next hnext => hout next (List.mem_cons_of_mem _ hnext)) hsorted.2 hfresh₁ hwritten₁
      refine ⟨s', stop, ?_, ?_, hs'⟩
      · rw [migrateFiles, hreal]
        exact hrest
      · rw [migrateFiles, hdryStep]
        exact hdryRest

/-- **A dry run predicts the real one.**  When every output path can be written, and
without `--out-dir`, the run with `--dry-run` behind the arguments writes nothing
and has the counts and the exit code of the run without it.  All that the latter
writes are the migrated values of contents the tree has had before. -/
theorem dryRun_predicts {tree : FileTree YamlText} {root : PathBuf} {order : ReadOrder}
    {fuel : Nat} {args : List String} {input : PathBuf} {cli : Cli}
    (hfs : ws.fs = tree.fileSystem root order) (htree : tree.WellFormed)
    (hfuel : tree.dirCount ≤ fuel) (hargs : parseArgs args = .ok (input, cli))
    (hdry : cli.dryRun = false) (hout : cli.outDir = none)
    (hwrite : ws.OutputsWritable cli fuel input) :
    ∃ code s, ws.main fuel args = some (code, s) ∧
      ws.main fuel (args ++ ["--dry-run"]) = some (code, ⟨∅, s.summary⟩) ∧
      ∀ path text, s.written.lookup path = some text →
        ws.IsOutput cli (ws.inputBase input) path text := by
  unfold main run
  rw [hargs, parseArgs_append_dryRun hargs]
  dsimp only
  rcases exists_collectFiles_tree root order htree hfuel input with
    ⟨e, hcollect⟩ | ⟨files, hcollect, hsorted⟩
  · rw [← hfs] at hcollect
    rw [hcollect]
    exact ⟨1, start, rfl, rfl, fun path text h => absurd h (by simp [start])⟩
  · rw [← hfs] at hcollect
    rw [hcollect]
    have hyaml := (collectFiles_sorted hcollect).1
    have hpath : ∀ file ∈ files, ∃ out, outputPath cli (ws.inputBase input) file = .ok out ∧
        out.components ≤ file.components ∧
        (matchesPackFilter file cli.filterPack = true → ws.CanWrite out) := by
      intro file hfile
      obtain ⟨out, hfileOut, hle⟩ :=
        exists_outputPath hout (ws.inputBase input) (hyaml file hfile)
      exact ⟨out, hfileOut, hle, fun hmatch =>
        hwrite files hcollect file hfile hmatch out hfileOut⟩
    obtain ⟨s, stop, hreal, hdryRun, hwritten⟩ := exists_migrateFiles_dry hdry hpath
      hsorted (s := start) (fun file _ => rfl) (fun path text h => absurd h (by simp [start]))
    refine ⟨exitCode cli (s, stop), s, ?_, ?_, hwritten⟩
    · simp only [hreal, Option.map_some]
    · have hsame : ws.migrateFiles cli.asDryRun (ws.inputBase input) files start =
          (⟨∅, s.summary⟩, stop) := hdryRun
      simp only [hsame, Option.map_some]
      rfl

/-- A directory in which the output of an earlier run stands beside its rule. -/
def migratedTree : FileTree YamlText :=
  .dir [("rules", .dir
    [("drops.migrated.yaml", .file none), ("drops.yaml", .file (some (.mapping [])))])]

/-- The tree of the sample, where nothing but its directories keeps a path from being
written. -/
def migratedWorkspace : Workspace where
  fs := migratedTree.fileSystem (.ofText "") .reversed
  writable := fun _ => .ok ()

theorem collectFiles_migratedWorkspace {files : List PathBuf}
    (h : collectFiles migratedWorkspace.fs 2 (.ofText "rules") = some (.ok files)) {file : PathBuf}
    (hfile : file ∈ files) :
    file = (PathBuf.ofText "rules").child "drops.migrated.yaml" ∨
      file = (PathBuf.ofText "rules").child "drops.yaml" := by
  have hwalk : migratedWorkspace.fs.walk walkErrors keepFile 2 [.ofText "rules"] 0 [] =
      some (.ok (1, [(PathBuf.ofText "rules").child "drops.yaml",
        (PathBuf.ofText "rules").child "drops.migrated.yaml"])) := by
    rfl
  have hfile' : migratedWorkspace.fs.isFile (.ofText "rules") = false := rfl
  have hdir : migratedWorkspace.fs.isDir (.ofText "rules") = true := rfl
  rw [collectFiles, hfile', hdir, hwalk] at h
  cases h
  rw [List.mem_mergeSort] at hfile
  simpa [or_comm] using hfile

theorem dryRun_predicts_stale :
    ∃ code s, migratedWorkspace.main 2 ["rules", "--strict"] = some (code, s) ∧
      migratedWorkspace.main 2 ["rules", "--strict", "--dry-run"] =
        some (code, ⟨∅, s.summary⟩) ∧
      ∀ path text, s.written.lookup path = some text →
        migratedWorkspace.IsOutput
          { Cli.default with input := some (.ofText "rules"), strict := true }
          (migratedWorkspace.inputBase (.ofText "rules")) path text := by
  have htree : migratedTree.WellFormed := by
    simp [migratedTree, FileTree.WellFormed, FileTree.WellFormedEntries]
  refine dryRun_predicts rfl htree (by decide)
    (show parseArgs ["rules", "--strict"] = .ok (.ofText "rules", _) from rfl) rfl rfl ?_
  intro files hfiles file hfile _ out hout
  rcases collectFiles_migratedWorkspace hfiles hfile with rfl | rfl
  · cases hout
    exact ⟨rfl, rfl⟩
  · cases hout
    exact ⟨rfl, rfl⟩

end Workspace

end RulesMigrate

end ArkInfra
