import ArkInfra.Lib.FileTree
import Mathlib.Data.List.Perm.Basic

/-!
# Reading a file system

The calls a program reads a file system with, as a record of functions: the
answers may be errors, and the entries of a directory come in an order that may
be another one at every call.  `walk` visits the files below some directories
with an explicit stack; on an arbitrary file system it need not end, so it has
fuel.

`FileTree.fileSystem` is the file system of a directory tree that is mounted at
a path.  There `walk` ends and visits every file below the directories exactly
once, in some order (`walk_fileSystem`).
-/

namespace ArkInfra

/-- What a program can ask a file system with contents of type `C`. -/
structure FileSystem (C : Type) where
  pathExists : PathBuf → Bool
  isDir : PathBuf → Bool
  isFile : PathBuf → Bool
  /-- The entries of a directory, as the call with the given number lists them. -/
  readDir : Nat → PathBuf → Except String (List (Except String PathBuf))
  readToString : PathBuf → Except String C

namespace FileSystem

variable {C σ : Type}

structure WalkErrors where
  readFailed : PathBuf → String → String
  entryFailed : String → String

/-- Go through the entries of a directory: push the directories, visit the rest. -/
def visitEntries (fs : FileSystem C) (errors : WalkErrors) (visit : σ → PathBuf → σ) :
    List (Except String PathBuf) → List PathBuf → σ → Except String (List PathBuf × σ)
  | [], stack, s => .ok (stack, s)
  | .error e :: _, _, _ => .error (errors.entryFailed e)
  | .ok path :: entries, stack, s =>
    if fs.isDir path then visitEntries fs errors visit entries (path :: stack) s
    else visitEntries fs errors visit entries stack (visit s path)

/-- Visit the files below the directories on the stack.  The number of calls of
`readDir` is passed on. -/
def walk (fs : FileSystem C) (errors : WalkErrors) (visit : σ → PathBuf → σ) :
    Nat → List PathBuf → Nat → σ → Option (Except String (Nat × σ))
  | _, [], calls, s => some (.ok (calls, s))
  | 0, _ :: _, _, _ => none
  | fuel + 1, dir :: stack, calls, s =>
    match fs.readDir calls dir with
    | .error e => some (.error (errors.readFailed dir e))
    | .ok entries =>
      match visitEntries fs errors visit entries stack s with
      | .error e => some (.error e)
      | .ok (stack, s) => walk fs errors visit fuel stack (calls + 1) s

/-- Go through the entries of a directory and pass over what is an error: push the
directories that are not to be skipped, visit what is no directory. -/
def sweepEntries (fs : FileSystem C) (skips : PathBuf → Bool) (visit : σ → PathBuf → σ) :
    List (Except String PathBuf) → List PathBuf → σ → List PathBuf × σ
  | [], stack, s => (stack, s)
  | .error _ :: entries, stack, s => sweepEntries fs skips visit entries stack s
  | .ok path :: entries, stack, s =>
    if fs.isDir path then
      if skips path then sweepEntries fs skips visit entries stack s
      else sweepEntries fs skips visit entries (path :: stack) s
    else sweepEntries fs skips visit entries stack (visit s path)

/-- A walk that passes over what cannot be read. -/
def sweep (fs : FileSystem C) (skips : PathBuf → Bool) (visit : σ → PathBuf → σ) :
    Nat → List PathBuf → Nat → σ → Option σ
  | _, [], _, s => some s
  | 0, _ :: _, _, _ => none
  | fuel + 1, dir :: stack, calls, s =>
    match fs.readDir calls dir with
    | .error _ => sweep fs skips visit fuel stack (calls + 1) s
    | .ok entries =>
      let next := sweepEntries fs skips visit entries stack s
      sweep fs skips visit fuel next.1 (calls + 1) next.2

section Invariant

variable {fs : FileSystem C} {errors : WalkErrors} {visit : σ → PathBuf → σ} {P : σ → Prop}

theorem visitEntries_invariant (hvisit : ∀ s path, P s → P (visit s path))
    {entries : List (Except String PathBuf)} {stack stack' : List PathBuf} {s s' : σ} (hs : P s)
    (h : visitEntries fs errors visit entries stack s = .ok (stack', s')) : P s' := by
  induction entries generalizing stack s with
  | nil =>
    cases h
    exact hs
  | cons entry entries ih =>
    cases entry with
    | error e =>
      cases h
    | ok path =>
      rw [visitEntries] at h
      split_ifs at h
      · exact ih hs h
      · exact ih (hvisit s path hs) h

/-- **What every visit keeps, the walk keeps**, on any file system. -/
theorem walk_invariant (hvisit : ∀ s path, P s → P (visit s path)) {fuel calls calls' : Nat}
    {stack : List PathBuf} {s s' : σ} (hs : P s)
    (h : walk fs errors visit fuel stack calls s = some (.ok (calls', s'))) : P s' := by
  induction fuel generalizing stack calls s with
  | zero =>
    cases stack with
    | nil =>
      cases h
      exact hs
    | cons dir stack =>
      cases h
  | succ fuel ih =>
    cases stack with
    | nil =>
      cases h
      exact hs
    | cons dir stack =>
      rw [walk] at h
      cases hread : fs.readDir calls dir with
      | error e =>
        rw [hread] at h
        cases h
      | ok entries =>
        rw [hread] at h
        dsimp only at h
        cases hentries : visitEntries fs errors visit entries stack s with
        | error e =>
          rw [hentries] at h
          cases h
        | ok result =>
          rw [hentries] at h
          exact ih (visitEntries_invariant hvisit hs hentries) h

end Invariant

end FileSystem

/-- The order in which the calls of `readDir` list the entries of a directory. -/
structure ReadOrder where
  order : Nat → List String → List String
  perm : ∀ call names, (order call names).Perm names

def ReadOrder.listed : ReadOrder where
  order := fun _ names => names
  perm := fun _ names => List.Perm.refl names

def ReadOrder.reversed : ReadOrder where
  order := fun _ names => names.reverse
  perm := fun _ names => names.reverse_perm

namespace FileTree

variable {α : Type}

/-- The names that the components of a path lead to, when the names of a place in
the tree are given.  Nothing is known above the root. -/
def locateFrom (tree : FileTree α) : List String → List Component → Option (List String)
  | names, [] => some names
  | names, .normal name :: rest =>
    if (tree.get? (names ++ [name])).isSome then locateFrom tree (names ++ [name]) rest else none
  | names, .parentDir :: rest =>
    if names ≠ [] ∧ (tree.get? names).any FileTree.isDir = true then
      locateFrom tree names.dropLast rest
    else none
  | names, _ :: rest => locateFrom tree names rest

/-- The place of a path in a tree that is mounted at `root`. -/
def locate (root : PathBuf) (tree : FileTree α) (path : PathBuf) : Option (List String) :=
  if root.components <+: path.components then
    locateFrom tree [] (path.components.drop root.components.length)
  else
    none

def resolve (root : PathBuf) (tree : FileTree α) (path : PathBuf) : Option (FileTree α) :=
  (tree.locate root path).bind tree.get?

/-- The names in the directory that a path leads to. -/
def namesAt (root : PathBuf) (tree : FileTree α) (path : PathBuf) : List String :=
  match tree.resolve root path with
  | some (.dir entries) => entries.map Prod.fst
  | _ => []

/-- The file system of a tree that is mounted at `root`. -/
def fileSystem (root : PathBuf) (tree : FileTree α) (order : ReadOrder) : FileSystem α where
  pathExists := fun path => (tree.resolve root path).isSome
  isDir := fun path => (tree.resolve root path).any FileTree.isDir
  isFile := fun path => (tree.resolve root path).any fun t => !t.isDir
  readDir := fun call path =>
    match tree.resolve root path with
    | some (.dir entries) =>
      .ok ((order.order call (entries.map Prod.fst)).map fun name => .ok (path.child name))
    | some (.file _) => .error "Not a directory (os error 20)"
    | none => .error "No such file or directory (os error 2)"
  readToString := fun path =>
    match tree.resolve root path with
    | some (.file content) => .ok content
    | some (.dir _) => .error "Is a directory (os error 21)"
    | none => .error "No such file or directory (os error 2)"

section Resolve

variable {root : PathBuf} {tree : FileTree α}

theorem locateFrom_concat (tree : FileTree α) (names : List String) (path : List Component)
    (name : String) :
    locateFrom tree names (path ++ [.normal name]) =
      (locateFrom tree names path).bind fun names' =>
        if (tree.get? (names' ++ [name])).isSome then some (names' ++ [name]) else none := by
  induction path generalizing names with
  | nil =>
    rfl
  | cons c path ih =>
    cases c with
    | normal name' =>
      simp only [List.cons_append, locateFrom]
      split_ifs
      · exact ih _
      · rfl
    | parentDir =>
      simp only [List.cons_append, locateFrom]
      split_ifs
      · exact ih _
      · rfl
    | rootDir =>
      exact ih _
    | curDir =>
      exact ih _

theorem locate_child {path : PathBuf} (hroot : root.components <+: path.components)
    (name : String) :
    tree.locate root (path.child name) =
      (tree.locate root path).bind fun names =>
        if (tree.get? (names ++ [name])).isSome then some (names ++ [name]) else none := by
  have hroot' : root.components <+: (path.child name).components :=
    hroot.trans (List.prefix_append _ _)
  rw [locate, locate, if_pos hroot, if_pos hroot', PathBuf.components_child,
    List.drop_append_of_le_length hroot.length_le, locateFrom_concat]

theorem leading_of_locate {path : PathBuf} {names : List String}
    (h : tree.locate root path = some names) : root.components <+: path.components := by
  unfold locate at h
  split_ifs at h with hroot
  exact hroot

theorem leading_of_resolve {path : PathBuf} {t : FileTree α}
    (h : tree.resolve root path = some t) : root.components <+: path.components := by
  obtain ⟨names, hnames, _⟩ := Option.bind_eq_some_iff.mp h
  exact leading_of_locate hnames

theorem locate_descend {path : PathBuf} {base names : List String}
    (hbase : tree.locate root path = some base)
    (hnames : (tree.get? (base ++ names)).isSome = true) :
    tree.locate root (path.descend names) = some (base ++ names) := by
  induction names generalizing path base with
  | nil =>
    simpa using hbase
  | cons name names ih =>
    rw [List.append_cons] at hnames ⊢
    have hname : (tree.get? (base ++ [name])).isSome = true := by
      rw [get?_append] at hnames
      exact Option.isSome_of_isSome_bind hnames
    apply ih _ hnames
    rw [locate_child (leading_of_locate hbase), hbase, Option.bind_some, if_pos hname]

/-- **A child path leads to the entry.** -/
theorem resolve_child {path : PathBuf} (hroot : root.components <+: path.components)
    (name : String) :
    tree.resolve root (path.child name) =
      (tree.resolve root path).bind fun t => t.child? name := by
  have hget : ∀ names, tree.get? (names ++ [name]) =
      (tree.get? names).bind fun t => t.child? name := by
    intro names
    simp [get?_append, get?]
  rw [resolve, resolve, locate_child hroot]
  cases tree.locate root path with
  | none =>
    rfl
  | some names =>
    simp only [Option.bind_some, ← hget]
    cases hchild : tree.get? (names ++ [name]) <;> simp [hchild]

theorem resolve_descend {path : PathBuf} (hroot : root.components <+: path.components)
    (names : List String) :
    tree.resolve root (path.descend names) =
      (tree.resolve root path).bind fun t => t.get? names := by
  induction names generalizing path with
  | nil =>
    cases htree : tree.resolve root path <;> simp [htree, get?]
  | cons name names ih =>
    rw [PathBuf.descend_cons, ih (hroot.trans (List.prefix_append _ _)), resolve_child hroot]
    simp only [get?, Option.bind_assoc]

@[simp] theorem resolve_root (root : PathBuf) (tree : FileTree α) :
    tree.resolve root root = some tree := by
  simp [resolve, locate, locateFrom, get?]

theorem resolve_of_components {path : PathBuf} {names : List String}
    (h : path.components = root.components ++ names.map .normal) :
    tree.resolve root path = tree.get? names := by
  have hdescend : tree.resolve root path = tree.resolve root (root.descend names) := by
    rw [resolve, resolve, locate, locate, h, PathBuf.components_descend]
  rw [hdescend, resolve_descend List.prefix_rfl, resolve_root, Option.bind_some]

theorem WellFormed.resolve {path : PathBuf} {t : FileTree α} (htree : tree.WellFormed)
    (h : tree.resolve root path = some t) : t.WellFormed := by
  obtain ⟨names, _, hget⟩ := Option.bind_eq_some_iff.mp h
  exact htree.get? hget

theorem dirCount_entry_le {tree t : FileTree α} {name : String}
    (h : tree.child? name = some t) : t.dirCount ≤ tree.dirCount := by
  cases tree with
  | file content =>
    cases h
  | dir entries =>
    obtain ⟨l₁, l₂, rfl⟩ := List.append_of_mem (mem_of_lookup h)
    simp only [dirCount, dirCountOfEntries_eq, List.map_append, List.map_cons, List.sum_append,
      List.sum_cons]
    omega

theorem dirCount_get?_le {tree t : FileTree α} {names : List String}
    (h : tree.get? names = some t) : t.dirCount ≤ tree.dirCount := by
  induction names generalizing tree with
  | nil =>
    obtain rfl := Option.some.inj h
    exact le_rfl
  | cons name names ih =>
    obtain ⟨t', hentry, hrest⟩ := Option.bind_eq_some_iff.mp h
    exact (ih hrest).trans (dirCount_entry_le hentry)

theorem dirCount_resolve_le {path : PathBuf} {t : FileTree α}
    (h : tree.resolve root path = some t) : t.dirCount ≤ tree.dirCount := by
  obtain ⟨names, _, hget⟩ := Option.bind_eq_some_iff.mp h
  exact dirCount_get?_le hget

end Resolve

section Walk

variable (root : PathBuf) (tree : FileTree α)

def filesAt (path : PathBuf) : List PathBuf :=
  match tree.resolve root path with
  | some t => t.paths.map path.descend
  | none => []

/-- The number of directories at or below a path. -/
def dirsAt (path : PathBuf) : Nat :=
  match tree.resolve root path with
  | some t => t.dirCount
  | none => 0

variable {root tree}

theorem filesAt_file {path : PathBuf} {content : α}
    (h : tree.resolve root path = some (.file content)) : tree.filesAt root path = [path] := by
  simp [filesAt, h, paths]

theorem resolve_child_of_mem {path : PathBuf} {entries : List (String × FileTree α)}
    (htree : tree.WellFormed) (h : tree.resolve root path = some (.dir entries))
    {entry : String × FileTree α} (hentry : entry ∈ entries) :
    tree.resolve root (path.child entry.1) = some entry.2 := by
  rw [resolve_child (leading_of_resolve h), h]
  exact lookup_of_mem (htree.resolve h).1 hentry

theorem filesAt_dir {path : PathBuf} {entries : List (String × FileTree α)}
    (htree : tree.WellFormed) (h : tree.resolve root path = some (.dir entries)) :
    tree.filesAt root path =
      (entries.map Prod.fst).flatMap fun name => tree.filesAt root (path.child name) := by
  have hentries : ∀ entry ∈ entries, tree.filesAt root (path.child entry.1) =
      (entry.2.paths.map (entry.1 :: ·)).map path.descend := by
    intro entry hentry
    simp [filesAt, resolve_child_of_mem htree h hentry, Function.comp_def]
  rw [List.flatMap_map, List.flatMap_congr hentries]
  simp only [filesAt, h, paths, pathsOfEntries_eq, List.map_flatMap]

theorem dirsAt_dir {path : PathBuf} {entries : List (String × FileTree α)}
    (htree : tree.WellFormed) (h : tree.resolve root path = some (.dir entries)) :
    tree.dirsAt root path =
      ((entries.map Prod.fst).map fun name => tree.dirsAt root (path.child name)).sum + 1 := by
  have hentries : ∀ entry ∈ entries, tree.dirsAt root (path.child entry.1) =
      entry.2.dirCount := by
    intro entry hentry
    simp [dirsAt, resolve_child_of_mem htree h hentry]
  have hself : tree.dirsAt root path = dirCountOfEntries entries + 1 := by
    simp [dirsAt, h, dirCount]
  rw [hself, dirCountOfEntries_eq, List.map_map, ← List.map_congr_left hentries]
  rfl

section Run

variable {σ : Type} (errors : FileSystem.WalkErrors) (visit : σ → PathBuf → σ) (order : ReadOrder)

def isSubdir (root : PathBuf) (tree : FileTree α) (path : PathBuf) (name : String) : Bool :=
  (tree.resolve root (path.child name)).any FileTree.isDir

theorem visitEntries_fileSystem (path : PathBuf) (names : List String) (stack : List PathBuf)
    (s : σ) :
    (tree.fileSystem root order).visitEntries errors visit
        (names.map fun name => .ok (path.child name)) stack s =
      .ok (((names.filter (isSubdir root tree path)).map path.child).reverse ++ stack,
        ((names.filter fun name => !isSubdir root tree path name).map path.child).foldl visit s) := by
  induction names generalizing stack s with
  | nil =>
    rfl
  | cons name names ih =>
    rw [List.map_cons, FileSystem.visitEntries]
    by_cases hdir : isSubdir root tree path name = true
    · have hfs : (tree.fileSystem root order).isDir (path.child name) = true := hdir
      rw [if_pos hfs, ih]
      simp [hdir]
    · have hfs : ¬ (tree.fileSystem root order).isDir (path.child name) = true := hdir
      rw [if_neg hfs, ih]
      simp [hdir]

theorem exists_of_isSubdir {path : PathBuf} {name : String}
    (h : isSubdir root tree path name = true) :
    ∃ entries, tree.resolve root (path.child name) = some (.dir entries) := by
  unfold isSubdir at h
  cases ht : tree.resolve root (path.child name) with
  | none =>
    simp [ht] at h
  | some t =>
    cases t with
    | file content =>
      simp [ht, isDir] at h
    | dir entries =>
      exact ⟨entries, rfl⟩

theorem filesAt_of_not_isSubdir (htree : tree.WellFormed) {path : PathBuf}
    {entries : List (String × FileTree α)}
    (h : tree.resolve root path = some (.dir entries)) {name : String}
    (hname : name ∈ entries.map Prod.fst) (hdir : ¬ isSubdir root tree path name = true) :
    tree.filesAt root (path.child name) = [path.child name] := by
  obtain ⟨entry, hentry, rfl⟩ := List.mem_map.mp hname
  have hresolve := resolve_child_of_mem htree h hentry
  cases ht : entry.2 with
  | file content =>
    rw [ht] at hresolve
    exact filesAt_file hresolve
  | dir entries =>
    simp [isSubdir, hresolve, ht, isDir] at hdir

/-- Reading a directory leaves fewer directories to read, whichever of its entries
are pushed. -/
theorem dirsAt_pushed (htree : tree.WellFormed) {path : PathBuf}
    {entries : List (String × FileTree α)}
    (h : tree.resolve root path = some (.dir entries)) {names : List String}
    (hperm : names.Perm (entries.map Prod.fst)) (pushed : String → Bool) :
    (((names.filter pushed).map path.child).map (tree.dirsAt root)).sum + 1 ≤
      tree.dirsAt root path := by
  have hsplit := ((List.filter_append_perm pushed names).map
    fun name => tree.dirsAt root (path.child name)).sum_nat
  have hall := (hperm.map fun name => tree.dirsAt root (path.child name)).sum_nat
  rw [List.map_append, List.sum_append] at hsplit
  rw [dirsAt_dir htree h, List.map_map, Function.comp_def]
  omega

theorem eq_nil_of_dirsAt (htree : tree.WellFormed) {stack : List PathBuf}
    (hstack : ∀ path ∈ stack, ∃ entries, tree.resolve root path = some (.dir entries))
    (h : (stack.map (tree.dirsAt root)).sum ≤ 0) : stack = [] := by
  cases stack with
  | nil =>
    rfl
  | cons path stack =>
    obtain ⟨entries, hentries⟩ := hstack path (by simp)
    rw [List.map_cons, List.sum_cons, dirsAt_dir htree hentries] at h
    omega

/-- **One directory**: its names in the order of the call, and what is left on the
stack when some of its subdirectories are pushed. -/
theorem exists_listing (htree : tree.WellFormed) {fuel : Nat} {path : PathBuf}
    {stack : List PathBuf} (calls : Nat)
    (hstack : ∀ p ∈ path :: stack, ∃ entries, tree.resolve root p = some (.dir entries))
    (hfuel : ((path :: stack).map (tree.dirsAt root)).sum ≤ fuel + 1) {pushed : String → Bool}
    (hpushed : ∀ name, pushed name = true → isSubdir root tree path name = true) :
    ∃ (entries : List (String × FileTree α)) (names : List String),
      tree.resolve root path = some (.dir entries) ∧
      names.Perm (entries.map Prod.fst) ∧
      (tree.fileSystem root order).readDir calls path =
        .ok (names.map fun name => .ok (path.child name)) ∧
      (∀ p ∈ ((names.filter pushed).map path.child).reverse ++ stack,
        ∃ entries, tree.resolve root p = some (.dir entries)) ∧
      ((((names.filter pushed).map path.child).reverse ++ stack).map
        (tree.dirsAt root)).sum ≤ fuel := by
  obtain ⟨entries, hentries⟩ := hstack path (by simp)
  have hperm := order.perm calls (entries.map Prod.fst)
  refine ⟨entries, order.order calls (entries.map Prod.fst), hentries, hperm, ?_, ?_, ?_⟩
  · simp [fileSystem, hentries]
  · intro p hmem
    rcases List.mem_append.mp hmem with hmem | hmem
    · obtain ⟨name, hname, rfl⟩ := List.mem_map.mp (List.mem_reverse.mp hmem)
      exact exists_of_isSubdir (hpushed name (List.mem_filter.mp hname).2)
    · exact hstack p (List.mem_cons_of_mem _ hmem)
  · have hless := dirsAt_pushed htree hentries hperm pushed
    rw [List.map_cons, List.sum_cons] at hfuel
    rw [List.map_append, List.sum_append, List.map_reverse, List.sum_reverse]
    omega

/-- The files of a directory and the files below its subdirectories are the
files below it. -/
theorem filesAt_visited (htree : tree.WellFormed) {path : PathBuf}
    {entries : List (String × FileTree α)}
    (h : tree.resolve root path = some (.dir entries)) {names : List String}
    (hperm : names.Perm (entries.map Prod.fst)) :
    ((names.filter fun name => !isSubdir root tree path name).map path.child ++
      ((names.filter (isSubdir root tree path)).map path.child).flatMap
        (tree.filesAt root)).Perm (tree.filesAt root path) := by
  have hfiles : (names.filter fun name => !isSubdir root tree path name).map path.child =
      (names.filter fun name => !isSubdir root tree path name).flatMap
        fun name => tree.filesAt root (path.child name) := by
    rw [List.map_eq_flatMap]
    apply List.flatMap_congr
    intro name hname
    obtain ⟨hmem, hdir⟩ := List.mem_filter.mp hname
    exact (filesAt_of_not_isSubdir htree h (hperm.mem_iff.mp hmem) (by simpa using hdir)).symm
  rw [hfiles, List.flatMap_map, ← List.flatMap_append, filesAt_dir htree h]
  apply List.Perm.flatMap_right
  have hsplit := List.filter_append_perm (isSubdir root tree path) names
  exact (List.perm_append_comm.trans hsplit).trans hperm

/-- **A walk through a tree** ends, and visits every file at or below the
directories on the stack once. -/
theorem walk_fileSystem (htree : tree.WellFormed) (fuel : Nat) (stack : List PathBuf)
    (calls : Nat) (s : σ)
    (hstack : ∀ path ∈ stack, ∃ entries, tree.resolve root path = some (.dir entries))
    (hfuel : (stack.map (tree.dirsAt root)).sum ≤ fuel) :
    ∃ (calls' : Nat) (visited : List PathBuf),
      visited.Perm (stack.flatMap (tree.filesAt root)) ∧
      (tree.fileSystem root order).walk errors visit fuel stack calls s =
        some (.ok (calls', visited.foldl visit s)) := by
  induction fuel generalizing stack calls s with
  | zero =>
    obtain rfl := eq_nil_of_dirsAt htree hstack hfuel
    exact ⟨calls, [], List.Perm.refl _, rfl⟩
  | succ fuel ih =>
    cases stack with
    | nil =>
      exact ⟨calls, [], List.Perm.refl _, rfl⟩
    | cons path stack =>
      obtain ⟨entries, names, hentries, hperm, hread, hpushed, hsum⟩ :=
        exists_listing order htree calls hstack hfuel fun _ => id
      obtain ⟨calls', visited, hvisited, hwalk⟩ := ih _ (calls + 1)
        (((names.filter fun name => !isSubdir root tree path name).map path.child).foldl
          visit s) hpushed hsum
      refine ⟨calls', (names.filter fun name => !isSubdir root tree path name).map
        path.child ++ visited, ?_, ?_⟩
      · rw [List.flatMap_cons]
        refine List.Perm.trans ?_
          ((filesAt_visited htree hentries hperm).append_right (stack.flatMap _))
        rw [List.append_assoc]
        apply List.Perm.append_left
        refine hvisited.trans ?_
        rw [List.flatMap_append]
        exact ((List.reverse_perm _).flatMap_right _).append_right _
      · simp only [FileSystem.walk, hread]
        rw [visitEntries_fileSystem]
        simp only [hwalk, List.foldl_append]

section Sweep

variable (skips : PathBuf → Bool)

/-- No directory on the way from the path down the names is skipped. -/
def Open : PathBuf → List String → Prop
  | _, [] => True
  | _, [_] => True
  | path, name :: name' :: names =>
    skips (path.child name) = false ∧ Open (path.child name) (name' :: names)

/-- The name leads to a directory that is not skipped. -/
def isOpenSubdir (root : PathBuf) (tree : FileTree α) (path : PathBuf) (name : String) : Bool :=
  isSubdir root tree path name && !skips (path.child name)

theorem sweepEntries_fileSystem (path : PathBuf) (names : List String) (stack : List PathBuf)
    (s : σ) :
    (tree.fileSystem root order).sweepEntries skips visit
        (names.map fun name => .ok (path.child name)) stack s =
      (((names.filter (isOpenSubdir skips root tree path)).map path.child).reverse ++ stack,
        ((names.filter fun name => !isSubdir root tree path name).map path.child).foldl visit s) := by
  induction names generalizing stack s with
  | nil =>
    rfl
  | cons name names ih =>
    rw [List.map_cons, FileSystem.sweepEntries]
    by_cases hdir : isSubdir root tree path name = true
    · have hfs : (tree.fileSystem root order).isDir (path.child name) = true := hdir
      rw [if_pos hfs, ih, ih]
      by_cases hskip : skips (path.child name) = true
      · simp [isOpenSubdir, hdir, hskip]
      · simp [isOpenSubdir, hdir, hskip]
    · have hfs : ¬ (tree.fileSystem root order).isDir (path.child name) = true := hdir
      rw [if_neg hfs, ih]
      simp [isOpenSubdir, hdir]

/-- What is visited below a directory: its files, and what is visited below the
directories that are pushed. -/
theorem mem_of_visited (htree : tree.WellFormed) {path : PathBuf}
    {entries : List (String × FileTree α)}
    (h : tree.resolve root path = some (.dir entries)) {names : List String}
    (hperm : names.Perm (entries.map Prod.fst)) {visited : List PathBuf}
    (hvisited : ∀ name ∈ names.filter (isOpenSubdir skips root tree path),
      ∀ t, tree.resolve root (path.child name) = some t → ∀ below ∈ t.paths,
        Open skips (path.child name) below → (path.child name).descend below ∈ visited)
    {below : List String} (hbelow : below ∈ (FileTree.dir entries).paths)
    (hopen : Open skips path below) :
    path.descend below ∈ (names.filter fun name => !isSubdir root tree path name).map path.child ++
      visited := by
  rw [paths, pathsOfEntries_eq] at hbelow
  obtain ⟨entry, hentry, hmem⟩ := List.mem_flatMap.mp hbelow
  obtain ⟨rest, hrest, rfl⟩ := List.mem_map.mp hmem
  have hname : entry.1 ∈ names := hperm.mem_iff.mpr (List.mem_map_of_mem hentry)
  have hresolve := resolve_child_of_mem htree h hentry
  cases ht : entry.2 with
  | file content =>
    rw [ht] at hresolve hrest
    obtain rfl := List.mem_singleton.mp hrest
    have hfile : isSubdir root tree path entry.1 = false := by
      simp [isSubdir, hresolve, isDir]
    apply List.mem_append_left
    exact List.mem_map.mpr ⟨entry.1, List.mem_filter.mpr ⟨hname, by simp [hfile]⟩, rfl⟩
  | dir entries' =>
    rw [ht] at hresolve hrest
    apply List.mem_append_right
    cases rest with
    | nil =>
      -- a directory is not a file of its own
      simp [paths, pathsOfEntries_eq] at hrest
    | cons name rest =>
      have hsubdir : isOpenSubdir skips root tree path entry.1 = true := by
        simp [isOpenSubdir, isSubdir, hresolve, isDir, hopen.1]
      exact hvisited entry.1 (List.mem_filter.mpr ⟨hname, hsubdir⟩) _ hresolve _ hrest hopen.2

/-- **A sweep through a tree** ends, and visits every file below the directories on
the stack that is not in a skipped directory. -/
theorem sweep_fileSystem (htree : tree.WellFormed) (fuel : Nat) (stack : List PathBuf)
    (calls : Nat) (s : σ)
    (hstack : ∀ path ∈ stack, ∃ entries, tree.resolve root path = some (.dir entries))
    (hfuel : (stack.map (tree.dirsAt root)).sum ≤ fuel) :
    ∃ visited : List PathBuf,
      (tree.fileSystem root order).sweep skips visit fuel stack calls s =
        some (visited.foldl visit s) ∧
      ∀ path ∈ stack, ∀ t, tree.resolve root path = some t → ∀ names ∈ t.paths,
        Open skips path names → path.descend names ∈ visited := by
  induction fuel generalizing stack calls s with
  | zero =>
    obtain rfl := eq_nil_of_dirsAt htree hstack hfuel
    exact ⟨[], rfl, by simp⟩
  | succ fuel ih =>
    cases stack with
    | nil =>
      exact ⟨[], rfl, by simp⟩
    | cons path stack =>
      obtain ⟨entries, names, hentries, hperm, hread, hopened, hsum⟩ :=
        exists_listing order htree calls hstack hfuel
          fun name (hopen : isOpenSubdir skips root tree path name = true) =>
            (Bool.and_eq_true_iff.mp hopen).1
      obtain ⟨visited, hsweep, hvisited⟩ := ih _ (calls + 1)
        (((names.filter fun name => !isSubdir root tree path name).map path.child).foldl
          visit s) hopened hsum
      refine ⟨(names.filter fun name => !isSubdir root tree path name).map path.child ++
        visited, ?_, ?_⟩
      · simp only [FileSystem.sweep, hread]
        rw [sweepEntries_fileSystem]
        simp only [hsweep, List.foldl_append]
      · intro path' hpath' t ht below hbelow hopen
        rcases List.mem_cons.mp hpath' with rfl | hrest
        · obtain rfl := Option.some.inj (hentries.symm.trans ht)
          refine mem_of_visited skips htree hentries hperm ?_ hbelow hopen
          intro name hname t
          apply hvisited
          exact List.mem_append_left _ (List.mem_reverse.mpr (List.mem_map_of_mem hname))
        · exact List.mem_append_right _
            (hvisited path' (List.mem_append_right _ hrest) t ht below hbelow hopen)

end Sweep

end Run

theorem mem_filesAt {path file : PathBuf} :
    file ∈ tree.filesAt root path ↔
      ∃ t, tree.resolve root path = some t ∧ ∃ names ∈ t.paths, path.descend names = file := by
  unfold filesAt
  cases tree.resolve root path <;> simp

theorem nodup_components_filesAt (htree : tree.WellFormed) (path : PathBuf) :
    ((tree.filesAt root path).map PathBuf.components).Nodup := by
  unfold filesAt
  cases ht : tree.resolve root path with
  | none =>
    simp
  | some t =>
    rw [List.map_map]
    refine (nodup_paths (htree.resolve ht)).map ?_
    intro names names' h
    simp only [Function.comp_apply, PathBuf.components_descend] at h
    exact Component.map_normal_injective (List.append_cancel_left h)

theorem dirsAt_le (path : PathBuf) : tree.dirsAt root path ≤ tree.dirCount := by
  unfold dirsAt
  cases ht : tree.resolve root path with
  | none =>
    exact Nat.zero_le _
  | some t =>
    exact dirCount_resolve_le ht

end Walk

section Contents

variable {root : PathBuf} {tree : FileTree α}

theorem locateFrom_shape (tree : FileTree α) (names : List String) (path : List Component) :
    locateFrom tree.shape names path = locateFrom tree names path := by
  induction path generalizing names with
  | nil =>
    rfl
  | cons c path ih =>
    cases c with
    | normal name =>
      simp only [locateFrom, get?_shape, Option.isSome_map, ih]
    | parentDir =>
      simp only [locateFrom, get?_shape, Option.any_map, isDir_shape, ih]
    | rootDir =>
      exact ih _
    | curDir =>
      exact ih _

@[simp] theorem locate_shape (root : PathBuf) (tree : FileTree α) (path : PathBuf) :
    tree.shape.locate root path = tree.locate root path := by
  simp only [locate, locateFrom_shape]

@[simp] theorem resolve_shape (root : PathBuf) (tree : FileTree α) (path : PathBuf) :
    tree.shape.resolve root path = (tree.resolve root path).map shape := by
  rw [resolve, resolve, locate_shape, Option.map_bind]
  congr 1
  funext names
  exact get?_shape tree names

@[simp] theorem filesAt_shape (root : PathBuf) (tree : FileTree α) (path : PathBuf) :
    tree.shape.filesAt root path = tree.filesAt root path := by
  unfold filesAt
  rw [resolve_shape]
  cases tree.resolve root path <;> simp

@[simp] theorem namesAt_shape (root : PathBuf) (tree : FileTree α) (path : PathBuf) :
    tree.shape.namesAt root path = tree.namesAt root path := by
  unfold namesAt
  rw [resolve_shape]
  cases tree.resolve root path with
  | none =>
    rfl
  | some t =>
    cases t with
    | file content =>
      rfl
    | dir entries =>
      simp [shape, shapeOfEntries_eq, Function.comp_def]

/-- **What is read** is the content at the place of the path. -/
theorem readToString_eq_ok_iff {order : ReadOrder} {path : PathBuf} {content : α} :
    (tree.fileSystem root order).readToString path = .ok content ↔
      ∃ names, tree.locate root path = some names ∧ tree.content? names = some content := by
  simp only [fileSystem, resolve]
  cases tree.locate root path with
  | none =>
    simp
  | some names =>
    simp only [Option.bind_some, content?, Option.some.injEq, exists_eq_left']
    cases tree.get? names with
    | none =>
      simp
    | some t =>
      cases t <;> simp

section SameShape

variable {tree' : FileTree α} (hshape : tree'.shape = tree.shape)

include hshape

theorem locate_of_shape (root path : PathBuf) : tree'.locate root path = tree.locate root path := by
  rw [← locate_shape root tree', hshape, locate_shape]

theorem map_shape_resolve (root path : PathBuf) :
    (tree'.resolve root path).map shape = (tree.resolve root path).map shape := by
  rw [← resolve_shape, hshape, resolve_shape]

theorem exists_dir_of_shape {path : PathBuf}
    (h : ∃ entries, tree.resolve root path = some (.dir entries)) :
    ∃ entries, tree'.resolve root path = some (.dir entries) := by
  obtain ⟨entries, hentries⟩ := h
  have hmap := map_shape_resolve hshape root path
  rw [hentries] at hmap
  obtain ⟨t, ht, hdir⟩ := Option.map_eq_some_iff.mp hmap
  cases t with
  | file content =>
    simp [shape] at hdir
  | dir entries' =>
    exact ⟨entries', ht⟩

theorem ne_file_of_shape {path : PathBuf}
    (h : ∀ content, tree.resolve root path ≠ some (.file content)) (content : α) :
    tree'.resolve root path ≠ some (.file content) := by
  intro hfile
  have hmap := map_shape_resolve hshape root path
  rw [hfile] at hmap
  obtain ⟨t, ht, hshape'⟩ := Option.map_eq_some_iff.mp hmap.symm
  cases t with
  | file content' =>
    exact h content' ht
  | dir entries =>
    simp [shape] at hshape'

theorem readToString_congr {order order' : ReadOrder} {path : PathBuf}
    (h : ∀ names, tree.locate root path = some names →
      tree'.content? names = tree.content? names) :
    (tree'.fileSystem root order').readToString path =
      (tree.fileSystem root order).readToString path := by
  have hmap := map_shape_resolve hshape root path
  simp only [fileSystem, resolve, locate_of_shape hshape] at hmap ⊢
  cases hlocate : tree.locate root path with
  | none =>
    rfl
  | some names =>
    have hcontent := h names hlocate
    simp only [hlocate, Option.bind_some, content?] at hmap hcontent ⊢
    cases hget : tree.get? names with
    | none =>
      rw [hget, Option.map_none, Option.map_eq_none_iff] at hmap
      rw [hmap]
    | some t =>
      rw [hget] at hmap hcontent
      obtain ⟨t', ht', hsame⟩ := Option.map_eq_some_iff.mp hmap
      rw [ht'] at hcontent ⊢
      cases t <;> cases t' <;> simp_all [shape]

end SameShape

end Contents

end FileTree

end ArkInfra
