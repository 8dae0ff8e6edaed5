import ArkInfra.Core.RuleLoadOrder
import ArkInfra.Core.RuleMigrateIds

/-!
# Migrating a rules directory in place

The tool rewrites the files of a rules directory and leaves its shape, so the
loader collects the same files before and after.  Whether it loads them under
the same ids is decided file by file (`FileKeepsId`):
`migrateInPlace_sameIds_iff` says for every rules directory when the load after
the migration has the files and ids of the load before it.
-/

namespace ArkInfra

open Yaml RuleYaml

namespace RulesMigrate

open RuleLoad

section Directory

open RuleFiles

variable {F : Type} [FloatCompare F] {explain : YamlText → String}

section Files

variable {fs : FileSystem YamlText} {file : PathBuf × String} {text : YamlText}
  (hread : fs.readToString file.1 = .ok text)

include hread

theorem ruleOf_eq_of_read :
    ruleOf fs (yamlDecoder explain : YamlDecoder YamlText F) file =
      (ruleOfText F text).bind fun rule =>
        (finalId rule file.2).map fun id => { rule with id := some id } := by
  simp only [ruleOf, hread, ruleOfText, yamlDecoder]
  cases (text.bind RuleWire.decode : Option (RuleWire F)) with
  | none =>
    rfl
  | some wire =>
    simp only [Option.bind_some]
    cases wire.normalize <;> rfl

theorem fileId_eq_of_read :
    fileId fs (yamlDecoder explain : YamlDecoder YamlText F) file =
      idOfText F file.2 text := by
  rw [fileId, ruleOf_eq_of_read hread, idOfText]
  cases ruleOfText F text with
  | none =>
    rfl
  | some rule =>
    simp only [Option.bind_some]
    cases finalId rule file.2 <;> rfl

theorem isSkipped_eq_of_read :
    isSkipped fs (yamlDecoder explain : YamlDecoder YamlText F) file =
      (ruleOfText F text).isNone := by
  have hblank : hasBlankId fs (yamlDecoder explain : YamlDecoder YamlText F) file =
      (ruleOfText F text).any fun rule => rule.id.any fun id => decide (Text.trim id = "") := by
    simp only [hasBlankId, hread, ruleOfText, yamlDecoder]
    cases (text.bind RuleWire.decode : Option (RuleWire F)) with
    | none =>
      rfl
    | some wire =>
      simp only [Option.bind_some]
      cases wire.normalize <;> rfl
  rw [isSkipped, ruleOf_eq_of_read hread, hblank]
  cases ruleOfText F text with
  | none =>
    rfl
  | some rule =>
    simp only [Option.bind_some, Option.any_some]
    cases hid : finalId rule file.2 with
    | none =>
      simp [finalId_eq_none hid]
    | some id =>
      rfl

end Files

/-- The pairs of a file and the id its rule is loaded under. -/
def loadedPairs (fs : FileSystem YamlText) (decoder : YamlDecoder YamlText F)
    (files : List (PathBuf × String)) : List (PathBuf × String) :=
  files.filterMap fun file => (fileId fs decoder file).map fun id => (file.1, id)

omit [FloatCompare F] in
theorem mem_loadedPairs_iff {fs : FileSystem YamlText} {decoder : YamlDecoder YamlText F}
    {files : List (PathBuf × String)}
    (hsorted : files.Pairwise fun a b => a.1.components < b.1.components)
    {file : PathBuf × String} (hfile : file ∈ files) (id : String) :
    (file.1, id) ∈ loadedPairs fs decoder files ↔ fileId fs decoder file = some id := by
  have hnodup : (files.map fun file => file.1.components).Nodup := by
    exact List.pairwise_map.mpr (hsorted.imp fun h => ne_of_lt h)
  rw [loadedPairs, List.mem_filterMap]
  constructor
  · rintro ⟨file', hfile', hpair⟩
    obtain ⟨id', hid', heq⟩ := Option.map_eq_some_iff.mp hpair
    obtain ⟨hpath, rfl⟩ := Prod.mk.inj heq
    have hsame : file' = file :=
      List.inj_on_of_nodup_map hnodup hfile' hfile (congrArg PathBuf.components hpath)
    rw [← hsame]
    exact hid'
  · intro hid
    exact ⟨file, hfile, by simp [hid]⟩

variable (F) in
/-- The file keeps its id, if the tool rewrites it. -/
def FileKeepsId (root : PathBuf) (tree : FileTree YamlText) (dir : PathBuf)
    (base : List String) (file : PathBuf × String) : Prop :=
  ∀ rest text, tree.locate root file.1 = some (base ++ rest) →
    isToolFile (dir.descend rest) = true → tree.content? (base ++ rest) = some text →
      KeepsId F file.2 (dir.descend rest) text

section Rewritten

variable {root dir : PathBuf} {base : List String} {tree tree' : FileTree YamlText}
  (h : Rewritten dir base tree tree') {order : ReadOrder} (order' : ReadOrder)

include h

theorem exists_read_rewritten {file : PathBuf × String} {text : YamlText}
    (hread : (tree.fileSystem root order).readToString file.1 = .ok text) :
    ∃ text', (tree'.fileSystem root order').readToString file.1 = .ok text' ∧
      ((ruleOfText F text).isSome = true → (ruleOfText F text').isSome = true) ∧
      (idOfText F file.2 text' = idOfText F file.2 text ↔
        FileKeepsId F root tree dir base file) := by
  obtain ⟨names, hnames, htext⟩ := FileTree.readToString_eq_ok_iff.mp hread
  have hnames' : tree'.locate root file.1 = some names := by
    rw [FileTree.locate_of_shape h.shape, hnames]
  by_cases htool : ∃ rest, names = base ++ rest ∧ isToolFile (dir.descend rest) = true
  · obtain ⟨rest, rfl, hrest⟩ := htool
    refine ⟨migrateText (dir.descend rest) text, ?_, ?_, ?_⟩
    · refine FileTree.readToString_eq_ok_iff.mpr ⟨_, hnames', ?_⟩
      rw [h.migrated rest hrest, htext, Option.map_some]
    · exact isSome_ruleOfText_migrateText (dir.descend rest)
    · rw [idOfText_migrateText_iff]
      constructor
      · intro hkeeps rest' text' hlocate _ hcontent
        rw [hnames] at hlocate
        obtain rfl := List.append_cancel_left (Option.some.inj hlocate)
        rw [htext] at hcontent
        obtain rfl := Option.some.inj hcontent
        exact hkeeps
      · intro hkeeps
        exact hkeeps rest text hnames hrest htext
  · have hother : ∀ rest, names = base ++ rest → isToolFile (dir.descend rest) = false := by
      intro rest hrest
      rw [← Bool.not_eq_true]
      exact fun htrue => htool ⟨rest, hrest, htrue⟩
    refine ⟨text, ?_, id, ?_⟩
    · refine FileTree.readToString_eq_ok_iff.mpr ⟨names, hnames', ?_⟩
      rw [h.kept names hother, htext]
    · simp only [true_iff]
      intro rest text' hlocate htrue _
      rw [hnames] at hlocate
      rw [hother rest (Option.some.inj hlocate)] at htrue
      cases htrue

theorem readManifest_rewritten (hbase : tree.locate root dir = some base)
    (parse : YamlText → Except String RulesManifest) :
    readManifest (tree'.fileSystem root order') parse dir =
      readManifest (tree.fileSystem root order) parse dir := by
  have hcomponents : (dir.join "manifest.yaml").components =
      (dir.child "manifest.yaml").components := by
    rfl
  have hlocate : tree.locate root (dir.join "manifest.yaml") =
      tree.locate root (dir.child "manifest.yaml") := by
    rw [FileTree.locate, FileTree.locate, hcomponents]
  have hread : (tree'.fileSystem root order').readToString (dir.join "manifest.yaml") =
      (tree.fileSystem root order).readToString (dir.join "manifest.yaml") := by
    apply FileTree.readToString_congr h.shape
    intro names hnames
    apply h.kept
    intro rest hrest
    rw [hlocate, FileTree.locate_child (FileTree.leading_of_locate hbase), hbase,
      Option.bind_some] at hnames
    split_ifs at hnames
    have hname : rest = ["manifest.yaml"] := by
      rw [hrest] at hnames
      exact (List.append_cancel_left (Option.some.inj hnames)).symm
    rw [hname]
    simp [isToolFile]
  have hexists : (tree'.fileSystem root order').pathExists (dir.join "manifest.yaml") =
      (tree.fileSystem root order).pathExists (dir.join "manifest.yaml") := by
    have hmap := congrArg Option.isSome
      (FileTree.map_shape_resolve h.shape root (dir.join "manifest.yaml"))
    rw [Option.isSome_map, Option.isSome_map] at hmap
    exact hmap
  rw [readManifest, readManifest, hread, hexists]

/-- **The files are the same after the tool**, whatever the orders. -/
theorem collectRuleFiles_rewritten {fuel : Nat} (htree : tree.WellFormed)
    (hfuel : tree.dirCount ≤ fuel) (hbase : tree.locate root dir = some base)
    {entries : List (String × FileTree YamlText)} (hdir : tree.get? base = some (.dir entries))
    {parse : YamlText → Except String RulesManifest} {files : List (PathBuf × String)}
    (hfiles : collectRuleFiles (tree.fileSystem root order) fuel parse dir =
      some (.ok files)) :
    files.Pairwise (fun a b => a.1.components < b.1.components) ∧
      collectRuleFiles (tree'.fileSystem root order') fuel parse dir = some (.ok files) := by
  have hresolve : ∃ entries, tree.resolve root dir = some (.dir entries) :=
    ⟨entries, by rw [FileTree.resolve, hbase, Option.bind_some, hdir]⟩
  obtain ⟨manifest, hmanifest, hio⟩ := noIoErrors_of_collectRuleFiles order hresolve hfiles
  obtain ⟨files₁, hfiles₁, hsorted₁, hmem₁⟩ :=
    collectRuleFiles_tree htree hfuel order hmanifest hio
  have heq₁ : files = files₁ := by
    simpa using hfiles.symm.trans hfiles₁
  -- the same for the tree that the tool leaves
  have htree' : tree'.WellFormed := by
    rw [← FileTree.wellFormed_shape, h.shape, FileTree.wellFormed_shape]
    exact htree
  have hfuel' : tree'.dirCount ≤ fuel := by
    rw [← FileTree.dirCount_shape, h.shape, FileTree.dirCount_shape]
    exact hfuel
  have hmanifest' : readManifest (tree'.fileSystem root order') parse dir = .ok manifest := by
    rw [readManifest_rewritten h order' hbase, hmanifest]
  have hio' : NoIoErrors root tree' dir manifest :=
    ⟨FileTree.exists_dir_of_shape h.shape hio.isDir,
      fun pack hpack => FileTree.ne_file_of_shape h.shape (hio.packs pack hpack),
      fun hlegacy => FileTree.ne_file_of_shape h.shape (hio.legacy hlegacy)⟩
  obtain ⟨files', hfiles', hsorted', hmem'⟩ :=
    collectRuleFiles_tree htree' hfuel' order' hmanifest' hio'
  have hstages : stages root tree' dir manifest = stages root tree dir manifest := by
    rw [← stages_shape, h.shape, stages_shape]
  have heq : files' = files := by
    rw [heq₁]
    apply eq_of_sorted_of_mem_iff hsorted' hsorted₁
    rintro ⟨path, label⟩
    rw [hmem', hmem₁, hstages]
  rw [heq] at hfiles' hsorted'
  exact ⟨hsorted', hfiles'⟩

theorem exists_loadCollected_rewritten {strict : Option String}
    {files : List (PathBuf × String)} {engine : RuleEngine F}
    (hload : loadCollected (tree.fileSystem root order) (yamlDecoder explain) strict files =
      .ok engine)
    (hread : ∀ file ∈ files, ∃ text,
      (tree.fileSystem root order).readToString file.1 = .ok text)
    (hids : ∀ file ∈ files,
      fileId (tree'.fileSystem root order') (yamlDecoder explain : YamlDecoder YamlText F) file =
        fileId (tree.fileSystem root order) (yamlDecoder explain : YamlDecoder YamlText F) file) :
    ∃ engine' : RuleEngine F,
      loadCollected (tree'.fileSystem root order') (yamlDecoder explain) strict files =
        .ok engine' := by
  have hread' : ∀ file ∈ files, ∃ text,
      (tree'.fileSystem root order').readToString file.1 = .ok text := by
    intro file hfile
    obtain ⟨text, htext⟩ := hread file hfile
    obtain ⟨text', htext', _⟩ := exists_read_rewritten (F := F) h order' htext
    exact ⟨text', htext'⟩
  obtain ⟨hnodup, hskipped⟩ := (exists_loadCollected_iff hread).mp ⟨engine, hload⟩
  refine (exists_loadCollected_iff hread').mpr ⟨?_, ?_⟩
  · rw [List.filterMap_congr hids]
    exact hnodup
  · intro hon file hfile
    obtain ⟨text, htext⟩ := hread file hfile
    obtain ⟨text', htext', hrule, _⟩ := exists_read_rewritten (F := F) h order' htext
    have hbefore := hskipped hon file hfile
    rw [isSkipped_eq_of_read htext] at hbefore
    rw [isSkipped_eq_of_read htext']
    simp only [Option.isNone_eq_false_iff] at hbefore ⊢
    exact hrule hbefore

end Rewritten

/-- The load after the tool has the files and ids of the load before it. -/
def SameIds (decoder : YamlDecoder YamlText F) (fuel : Nat) (strict : Option String)
    (dir : PathBuf) (fs fs' : FileSystem YamlText) (files : List (PathBuf × String)) : Prop :=
  ∃ (engine' : RuleEngine F) (files' : List (PathBuf × String)),
    loadFromDir fs' decoder fuel strict dir = some (.ok engine') ∧
    ruleFiles fs' decoder fuel dir = some (.ok files') ∧
    ∀ pair, pair ∈ loadedPairs fs' decoder files' ↔ pair ∈ loadedPairs fs decoder files

section Load

variable {root dir : PathBuf} {tree tree' : FileTree YamlText} {base : List String}
  {entries : List (String × FileTree YamlText)} {fuel : Nat} (htree : tree.WellFormed)
  (hfuel : tree.dirCount ≤ fuel) (hbase : tree.locate root dir = some base)
  (hdir : tree.get? base = some (.dir entries)) {strict : Option String}

include htree hfuel hbase hdir

theorem ruleFiles_rewritten (h : Rewritten dir base tree tree') (order order' : ReadOrder)
    {files : List (PathBuf × String)}
    (hfiles : ruleFiles (tree.fileSystem root order)
      (yamlDecoder explain : YamlDecoder YamlText F) fuel dir = some (.ok files)) :
    files.Pairwise (fun a b => a.1.components < b.1.components) ∧
      ruleFiles (tree'.fileSystem root order')
        (yamlDecoder explain : YamlDecoder YamlText F) fuel dir = some (.ok files) := by
  have hresolve : tree.resolve root dir = some (.dir entries) := by
    rw [FileTree.resolve, hbase, Option.bind_some, hdir]
  have hexists : (tree.fileSystem root order).pathExists dir = true := by
    simp [FileTree.fileSystem, hresolve]
  have hexists' : (tree'.fileSystem root order').pathExists dir = true := by
    obtain ⟨entries', hentries'⟩ := FileTree.exists_dir_of_shape h.shape ⟨entries, hresolve⟩
    simp [FileTree.fileSystem, hentries']
  rw [ruleFiles, if_pos hexists] at hfiles
  rw [ruleFiles, if_pos hexists']
  exact collectRuleFiles_rewritten h order' htree hfuel hbase hdir hfiles

theorem sameIds_iff_of_rewritten (h : Rewritten dir base tree tree')
    (order order' : ReadOrder) {engine : RuleEngine F} {files : List (PathBuf × String)}
    (hload : loadFromDir (tree.fileSystem root order) (yamlDecoder explain) fuel strict dir =
      some (.ok engine))
    (hfiles : ruleFiles (tree.fileSystem root order)
      (yamlDecoder explain : YamlDecoder YamlText F) fuel dir = some (.ok files)) :
    SameIds (yamlDecoder explain : YamlDecoder YamlText F) fuel strict dir
        (tree.fileSystem root order) (tree'.fileSystem root order') files ↔
      ∀ file ∈ files, FileKeepsId F root tree dir base file := by
  have hcollected := loadCollected_of_load hload hfiles
  have hread := exists_content_of_loadCollected hcollected
  obtain ⟨hsorted, hfiles'⟩ := ruleFiles_rewritten htree hfuel hbase hdir h order order' hfiles
  -- file by file: the id stays exactly when the file keeps it
  have hkeeps : ∀ file ∈ files,
      (fileId (tree'.fileSystem root order') (yamlDecoder explain : YamlDecoder YamlText F) file =
        fileId (tree.fileSystem root order) (yamlDecoder explain : YamlDecoder YamlText F) file ↔
        FileKeepsId F root tree dir base file) := by
    intro file hfile
    obtain ⟨text, htext⟩ := hread file hfile
    obtain ⟨text', htext', _, hiff⟩ := exists_read_rewritten (F := F) h order' htext
    rw [fileId_eq_of_read htext', fileId_eq_of_read htext]
    exact hiff
  constructor
  · rintro ⟨engine', files₁, _, hfiles₁, hpairs⟩ file hfile
    obtain rfl : files₁ = files := by
      simpa using hfiles₁.symm.trans hfiles'
    rw [← hkeeps file hfile]
    apply Option.ext
    intro id
    rw [← mem_loadedPairs_iff hsorted hfile, ← mem_loadedPairs_iff hsorted hfile]
    exact hpairs (file.1, id)
  · intro hall
    have hids : ∀ file ∈ files,
        fileId (tree'.fileSystem root order') (yamlDecoder explain : YamlDecoder YamlText F)
            file =
          fileId (tree.fileSystem root order) (yamlDecoder explain : YamlDecoder YamlText F)
            file := by
      intro file hfile
      exact (hkeeps file hfile).mpr (hall file hfile)
    obtain ⟨engine', hengine'⟩ := exists_loadCollected_rewritten h order' hcollected hread hids
    refine ⟨engine', files, ?_, hfiles', ?_⟩
    · rw [loadFromDir_of_ruleFiles hfiles', hengine']
    · have hlists : loadedPairs (tree'.fileSystem root order')
          (yamlDecoder explain : YamlDecoder YamlText F) files =
          loadedPairs (tree.fileSystem root order)
            (yamlDecoder explain : YamlDecoder YamlText F) files := by
        apply List.filterMap_congr
        intro file hfile
        rw [hids file hfile]
      intro pair
      rw [hlists]

end Load

end Directory

section Sample

open RuleFiles

/-- A manifest with one pack, whose directory has its name. -/
def onePackManifest (pack : String) : Doc :=
  .ofValue (.mapping
    [(.string "version", .number "1"),
      (.string "packs", .sequence
        [.mapping [(.string "name", .string pack), (.string "dir", .string pack)]])])

/-- A directory `rules` with one pack, and in it a rule without an id. -/
def packTree (pack : String) : FileTree YamlText :=
  .dir [("rules", .dir
    [("manifest.yaml", .file (some (onePackManifest pack))),
      (pack, .dir [("drops.yaml", .file (some (.ofValue (sampleFile (.sequence [])))))])])]

def packFs (pack : String) : FileSystem YamlText :=
  (packTree pack).fileSystem (.ofText "") .listed

def packFile (pack : String) : PathBuf × String :=
  (((PathBuf.ofText "rules").join pack).child "drops.yaml", pack)

theorem ruleFiles_packTree (pack : String) (manifest : Option RulesManifest)
    (hmanifest : readManifest (packFs pack) sampleDecoder.manifest (.ofText "rules") =
      .ok manifest)
    (htaken : takenFiles (collectWith (packFs pack) 3 (.ofText "rules") manifest) =
      some [packFile pack])
    (hexists : (packFs pack).pathExists (.ofText "rules") = true) :
    ruleFiles (packFs pack) sampleDecoder 3 (.ofText "rules") =
      some (.ok [packFile pack]) := by
  rw [ruleFiles, if_pos hexists, collectRuleFiles_of_takenFiles hmanifest htaken]
  simp [sortFiles]

theorem loadFromDir_packTree {pack : String} {engine : RuleEngine Binary64}
    (hfiles : ruleFiles (packFs pack) sampleDecoder 3 (.ofText "rules") =
      some (.ok [packFile pack]))
    (hengine : loadCollected (packFs pack) sampleDecoder none [packFile pack] = .ok engine) :
    loadFromDir (packFs pack) sampleDecoder 3 none (.ofText "rules") = some (.ok engine) := by
  rw [loadFromDir_of_ruleFiles hfiles, hengine]

/-- The rule file of the sample keeps its id exactly when its document does. -/
theorem fileKeepsId_packTree_iff {pack : String}
    (hlocate : (packTree pack).locate (.ofText "") (packFile pack).1 =
      some ["rules", pack, "drops.yaml"])
    (hcontent : (packTree pack).content? ["rules", pack, "drops.yaml"] =
      some (some (.ofValue (sampleFile (.sequence []))))) :
    FileKeepsId Binary64 (.ofText "") (packTree pack) (.ofText "rules") ["rules"]
        (packFile pack) ↔
      idOfText Binary64 pack (migrateText ((PathBuf.ofText "rules").descend [pack, "drops.yaml"])
        (some (.ofValue (sampleFile (.sequence []))))) =
          idOfText Binary64 pack (some (.ofValue (sampleFile (.sequence [])))) := by
  rw [idOfText_migrateText_iff]
  constructor
  · intro h
    refine h [pack, "drops.yaml"] _ hlocate ?_ hcontent
    rfl
  · intro h rest text hrest _ htext
    rw [hlocate] at hrest
    obtain rfl : [pack, "drops.yaml"] = rest := by
      simpa using hrest
    change (packTree pack).content? ["rules", pack, "drops.yaml"] = some text at htext
    rw [hcontent] at htext
    obtain rfl := Option.some.inj htext
    exact h

end Sample

end RulesMigrate

end ArkInfra
