import ArkInfra.Lib.Path
import Mathlib.Algebra.Ring.Nat
import Mathlib.Data.List.Nodup

/-!
# Directory trees

A finite tree of directories and files with contents of any type.  `get?`
follows names downwards, and `paths` lists the files of a tree by the names
that lead to them, each once when the names in every directory are distinct
(`WellFormed`).  `overwrite` puts another content into a file; it leaves the
`shape` of the tree, which is the tree without the contents.
-/

namespace ArkInfra

inductive FileTree (α : Type) where
  | file (content : α)
  | dir (entries : List (String × FileTree α))

namespace FileTree

variable {α : Type}

def child? (tree : FileTree α) (name : String) : Option (FileTree α) :=
  match tree with
  | .file _ => none
  | .dir entries => entries.lookup name

def get? (tree : FileTree α) : List String → Option (FileTree α)
  | [] => some tree
  | name :: names => (tree.child? name).bind fun t => t.get? names

def isDir : FileTree α → Bool
  | .file _ => false
  | .dir _ => true

mutual

/-- The names in every directory are distinct. -/
def WellFormed : FileTree α → Prop
  | .file _ => True
  | .dir entries => (entries.map Prod.fst).Nodup ∧ WellFormedEntries entries

def WellFormedEntries : List (String × FileTree α) → Prop
  | [] => True
  | (_, tree) :: entries => WellFormed tree ∧ WellFormedEntries entries

end

mutual

def paths : FileTree α → List (List String)
  | .file _ => [[]]
  | .dir entries => pathsOfEntries entries

def pathsOfEntries : List (String × FileTree α) → List (List String)
  | [] => []
  | (name, tree) :: entries => (paths tree).map (name :: ·) ++ pathsOfEntries entries

end

mutual

def dirCount : FileTree α → Nat
  | .file _ => 0
  | .dir entries => dirCountOfEntries entries + 1

def dirCountOfEntries : List (String × FileTree α) → Nat
  | [] => 0
  | (_, tree) :: entries => dirCount tree + dirCountOfEntries entries

end

/-- The content of the file that the names lead to. -/
def content? (tree : FileTree α) (names : List String) : Option α :=
  match tree.get? names with
  | some (.file content) => some content
  | _ => none

/-- Put another content into the file that the names lead to. -/
def overwrite (content : α) : List String → FileTree α → FileTree α
  | [], .file _ => .file content
  | [], .dir entries => .dir entries
  | _ :: _, .file old => .file old
  | name :: names, .dir entries =>
    .dir (entries.map fun entry =>
      (entry.1, if entry.1 = name then overwrite content names entry.2 else entry.2))

mutual

/-- The tree without the contents of its files. -/
def shape : FileTree α → FileTree Unit
  | .file _ => .file ()
  | .dir entries => .dir (shapeOfEntries entries)

def shapeOfEntries : List (String × FileTree α) → List (String × FileTree Unit)
  | [] => []
  | (name, tree) :: entries => (name, shape tree) :: shapeOfEntries entries

end

section Entries

theorem wellFormedEntries_iff {entries : List (String × FileTree α)} :
    WellFormedEntries entries ↔ ∀ entry ∈ entries, entry.2.WellFormed := by
  induction entries with
  | nil =>
    simp [WellFormedEntries]
  | cons entry entries ih =>
    simp [WellFormedEntries, ih]

theorem pathsOfEntries_eq (entries : List (String × FileTree α)) :
    pathsOfEntries entries =
      entries.flatMap fun entry => entry.2.paths.map (entry.1 :: ·) := by
  induction entries with
  | nil =>
    rfl
  | cons entry entries ih =>
    simp [pathsOfEntries, ih]

theorem dirCountOfEntries_eq (entries : List (String × FileTree α)) :
    dirCountOfEntries entries = (entries.map fun entry => entry.2.dirCount).sum := by
  induction entries with
  | nil =>
    rfl
  | cons entry entries ih =>
    simp [dirCountOfEntries, ih]

theorem mem_of_lookup {entries : List (String × FileTree α)} {name : String}
    {tree : FileTree α} (h : entries.lookup name = some tree) : (name, tree) ∈ entries := by
  obtain ⟨l₁, l₂, rfl, _⟩ := List.lookup_eq_some_iff.mp h
  simp

theorem lookup_of_mem {entries : List (String × FileTree α)}
    (hnodup : (entries.map Prod.fst).Nodup) {entry : String × FileTree α}
    (h : entry ∈ entries) : entries.lookup entry.1 = some entry.2 := by
  induction entries with
  | nil =>
    cases h
  | cons head entries ih =>
    rw [List.map_cons, List.nodup_cons] at hnodup
    rcases List.mem_cons.mp h with rfl | hmem
    · exact List.lookup_cons_self
    · have hne : entry.1 ≠ head.1 := by
        intro heq
        apply hnodup.1
        rw [← heq]
        exact List.mem_map_of_mem hmem
      rw [List.lookup_cons, beq_false_of_ne hne]
      exact ih hnodup.2 hmem

theorem lookup_map_entries {β : Type} (f : String → FileTree α → FileTree β)
    (entries : List (String × FileTree α)) (name : String) :
    (entries.map fun entry => (entry.1, f entry.1 entry.2)).lookup name =
      (entries.lookup name).map (f name) := by
  induction entries with
  | nil =>
    rfl
  | cons entry entries ih =>
    obtain ⟨key, tree⟩ := entry
    by_cases hkey : name = key
    · subst hkey
      simp
    · simpa [List.lookup_cons, beq_false_of_ne hkey] using ih

end Entries

theorem WellFormed.entry {tree t : FileTree α} (h : tree.WellFormed) {name : String}
    (hentry : tree.child? name = some t) : t.WellFormed := by
  cases tree with
  | file content =>
    cases hentry
  | dir entries =>
    exact wellFormedEntries_iff.mp h.2 _ (mem_of_lookup hentry)

theorem WellFormed.get? {tree t : FileTree α} (h : tree.WellFormed) {names : List String}
    (hget : tree.get? names = some t) : t.WellFormed := by
  induction names generalizing tree with
  | nil =>
    obtain rfl := Option.some.inj hget
    exact h
  | cons name names ih =>
    obtain ⟨t', hentry, hrest⟩ := Option.bind_eq_some_iff.mp hget
    exact ih (h.entry hentry) hrest

theorem get?_append (tree : FileTree α) (names names' : List String) :
    tree.get? (names ++ names') = (tree.get? names).bind fun t => t.get? names' := by
  induction names generalizing tree with
  | nil =>
    rfl
  | cons name names ih =>
    simp only [List.cons_append, FileTree.get?, Option.bind_assoc, ih]

/-- **The files of a tree are what its names lead to.** -/
theorem mem_paths_iff {tree : FileTree α} (h : tree.WellFormed) {names : List String} :
    names ∈ tree.paths ↔ ∃ content, tree.get? names = some (.file content) := by
  induction names generalizing tree with
  | nil =>
    cases tree with
    | file content =>
      simp [paths, FileTree.get?]
    | dir entries =>
      simp [paths, pathsOfEntries_eq, FileTree.get?]
  | cons name names ih =>
    cases tree with
    | file content =>
      simp [paths, FileTree.get?, child?]
    | dir entries =>
      have hwf := wellFormedEntries_iff.mp h.2
      simp only [paths, pathsOfEntries_eq, List.mem_flatMap, List.mem_map, FileTree.get?,
        child?]
      constructor
      · rintro ⟨entry, hmem, names', hnames', heq⟩
        obtain ⟨rfl, rfl⟩ := List.cons.inj heq
        rw [lookup_of_mem h.1 hmem]
        exact (ih (hwf _ hmem)).mp hnames'
      · rintro ⟨content, hget⟩
        obtain ⟨t, hlookup, hrest⟩ := Option.bind_eq_some_iff.mp hget
        have hmem := mem_of_lookup hlookup
        exact ⟨(name, t), hmem, names, (ih (hwf _ hmem)).mpr ⟨content, hrest⟩, rfl⟩

mutual

theorem nodup_paths : ∀ {tree : FileTree α}, tree.WellFormed → tree.paths.Nodup
  | .file _, _ => by simp [paths]
  | .dir entries, h => nodup_pathsOfEntries h.1 h.2

theorem nodup_pathsOfEntries : ∀ {entries : List (String × FileTree α)},
    (entries.map Prod.fst).Nodup → WellFormedEntries entries → (pathsOfEntries entries).Nodup
  | [], _, _ => by simp [pathsOfEntries]
  | (name, tree) :: entries, hnodup, hwf => by
    rw [List.map_cons, List.nodup_cons] at hnodup
    have hhead : (paths tree).Nodup := nodup_paths hwf.1
    have htail := nodup_pathsOfEntries hnodup.2 hwf.2
    rw [pathsOfEntries, List.nodup_append]
    refine ⟨hhead.map (List.cons_injective), htail, ?_⟩
    intro a ha b hb heq
    -- the first name tells the entries apart
    obtain ⟨names, _, rfl⟩ := List.mem_map.mp ha
    rw [pathsOfEntries_eq] at hb
    obtain ⟨entry, hmem, hb⟩ := List.mem_flatMap.mp hb
    obtain ⟨names', _, rfl⟩ := List.mem_map.mp hb
    obtain ⟨rfl, _⟩ := List.cons.inj heq
    exact hnodup.1 (List.mem_map.mpr ⟨entry, hmem, rfl⟩)

end

section Shape

theorem shapeOfEntries_eq (entries : List (String × FileTree α)) :
    shapeOfEntries entries = entries.map fun entry => (entry.1, entry.2.shape) := by
  induction entries with
  | nil =>
    rfl
  | cons entry entries ih =>
    simp [shapeOfEntries, ih]

@[simp] theorem isDir_shape (tree : FileTree α) : tree.shape.isDir = tree.isDir := by
  cases tree <;> simp [shape, isDir]

@[simp] theorem child?_shape (tree : FileTree α) (name : String) :
    tree.shape.child? name = (tree.child? name).map shape := by
  cases tree with
  | file content =>
    rfl
  | dir entries =>
    rw [shape, shapeOfEntries_eq]
    exact lookup_map_entries (fun _ => shape) entries name

@[simp] theorem get?_shape (tree : FileTree α) (names : List String) :
    tree.shape.get? names = (tree.get? names).map shape := by
  induction names generalizing tree with
  | nil =>
    rfl
  | cons name names ih =>
    simp only [FileTree.get?, child?_shape]
    cases tree.child? name with
    | none =>
      rfl
    | some t =>
      exact ih t

mutual

@[simp] theorem paths_shape : ∀ tree : FileTree α, tree.shape.paths = tree.paths
  | .file _ => by simp [shape, paths]
  | .dir entries => by simp [shape, paths, pathsOfEntries_shape entries]

theorem pathsOfEntries_shape : ∀ entries : List (String × FileTree α),
    pathsOfEntries (shapeOfEntries entries) = pathsOfEntries entries
  | [] => rfl
  | (_, tree) :: entries => by
    simp [shapeOfEntries, pathsOfEntries, paths_shape tree, pathsOfEntries_shape entries]

end

mutual

@[simp] theorem wellFormed_shape : ∀ tree : FileTree α, tree.shape.WellFormed ↔ tree.WellFormed
  | .file _ => by simp [shape, WellFormed]
  | .dir entries => by
    have hnames : (shapeOfEntries entries).map Prod.fst = entries.map Prod.fst := by
      simp [shapeOfEntries_eq, Function.comp_def]
    rw [shape, WellFormed, WellFormed, hnames, wellFormedEntries_shape entries]

theorem wellFormedEntries_shape : ∀ entries : List (String × FileTree α),
    WellFormedEntries (shapeOfEntries entries) ↔ WellFormedEntries entries
  | [] => by simp [shapeOfEntries, WellFormedEntries]
  | (_, tree) :: entries => by
    simp [shapeOfEntries, WellFormedEntries, wellFormed_shape tree,
      wellFormedEntries_shape entries]

end

mutual

@[simp] theorem dirCount_shape : ∀ tree : FileTree α, tree.shape.dirCount = tree.dirCount
  | .file _ => by simp [shape, dirCount]
  | .dir entries => by simp [shape, dirCount, dirCountOfEntries_shape entries]

theorem dirCountOfEntries_shape : ∀ entries : List (String × FileTree α),
    dirCountOfEntries (shapeOfEntries entries) = dirCountOfEntries entries
  | [] => rfl
  | (_, tree) :: entries => by
    simp [shapeOfEntries, dirCountOfEntries, dirCount_shape tree,
      dirCountOfEntries_shape entries]

end

end Shape

section Overwrite

@[simp] theorem shape_overwrite (content : α) (names : List String) (tree : FileTree α) :
    (tree.overwrite content names).shape = tree.shape := by
  induction names generalizing tree with
  | nil =>
    cases tree <;> simp [overwrite, shape]
  | cons name names ih =>
    cases tree with
    | file old =>
      rfl
    | dir entries =>
      simp only [overwrite, shape, shapeOfEntries_eq, List.map_map, FileTree.dir.injEq]
      apply List.map_congr_left
      intro entry _
      by_cases hname : entry.1 = name
      · simp [hname, ih]
      · simp [hname]

theorem child?_overwrite (content : α) (name : String) (names : List String)
    (tree : FileTree α) (name' : String) :
    (tree.overwrite content (name :: names)).child? name' =
      (tree.child? name').map fun t => if name' = name then t.overwrite content names else t := by
  cases tree with
  | file old =>
    rfl
  | dir entries =>
    exact lookup_map_entries
      (fun key t => if key = name then t.overwrite content names else t) entries name'

theorem content?_cons (tree : FileTree α) (name : String) (names : List String) :
    tree.content? (name :: names) = (tree.child? name).bind fun t => t.content? names := by
  simp only [content?, FileTree.get?]
  cases tree.child? name <;> rfl

/-- **Only the file itself gets the content.** -/
theorem content?_overwrite (content : α) (names : List String) (tree : FileTree α)
    (names' : List String) :
    (tree.overwrite content names).content? names' =
      if names' = names then (tree.content? names).map fun _ => content
      else tree.content? names' := by
  induction names generalizing tree names' with
  | nil =>
    cases tree with
    | file old =>
      cases names' with
      | nil =>
        rfl
      | cons name names' =>
        simp [overwrite, content?, FileTree.get?, child?]
    | dir entries =>
      cases names' with
      | nil =>
        rfl
      | cons name names' =>
        simp [overwrite]
  | cons name names ih =>
    cases names' with
    | nil =>
      cases tree <;> simp [overwrite, content?, FileTree.get?]
    | cons name' names' =>
      rw [content?_cons, child?_overwrite]
      by_cases hname : name' = name
      · subst hname
        simp only [content?_cons, List.cons.injEq, true_and, if_true]
        cases tree.child? name' with
        | none =>
          simp
        | some t =>
          simpa using ih t names'
      · simp only [hname, List.cons.injEq, false_and, if_false, content?_cons]
        cases tree.child? name' <;> rfl

end Overwrite

end FileTree

end ArkInfra
