import ArkInfra.Lib.Text
import Mathlib.Data.Char
import Mathlib.Data.List.Lex
import Mathlib.Data.Prod.Lex

/-!
# Paths

A path has a spelling, which is what is printed, and components, which is what
it is compared and looked up by: repeated separators and the current directory
inside a path leave no component.  Paths are ordered by their components, names
by their characters, which is the order of their bytes.
-/

namespace ArkInfra

inductive Component where
  | rootDir
  | curDir
  | parentDir
  | normal (name : String)
deriving DecidableEq, Repr

namespace Component

/-- The text of a component. -/
def asStr : Component → String
  | rootDir => "/"
  | curDir => "."
  | parentDir => ".."
  | normal name => name

/-- What components are ordered by: the kind first, then the name. -/
def rank : Component → Nat ×ₗ List Char
  | rootDir => toLex (0, [])
  | curDir => toLex (1, [])
  | parentDir => toLex (2, [])
  | normal name => toLex (3, name.toList)

theorem rank_injective : Function.Injective rank := by
  intro a b h
  cases a <;> cases b <;> simp_all [rank, String.toList_inj]

instance : LinearOrder Component :=
  LinearOrder.lift' rank rank_injective

theorem normal_lt_normal {name name' : String} (h : name.toList < name'.toList) :
    normal name < normal name' := by
  change rank (normal name) < rank (normal name')
  rw [rank, rank, Prod.Lex.toLex_lt_toLex]
  exact Or.inr ⟨rfl, h⟩

theorem map_normal_injective : Function.Injective (List.map normal) := by
  apply List.map_injective_iff.mpr
  intro name name' h
  exact normal.inj h

/-- The component that a piece of a path stands for, if it leaves one. -/
def ofPiece (piece : String) : Option Component :=
  if piece = "" ∨ piece = "." then none
  else if piece = ".." then some parentDir
  else some (normal piece)

end Component

structure PathBuf where
  text : String
  components : List Component
deriving DecidableEq, Repr

namespace PathBuf

/-- The components of a path that follows another one. -/
def relativeComponents (text : String) : List Component :=
  (Text.split text "/").filterMap Component.ofPiece

def ofText (text : String) : PathBuf where
  text := text
  components :=
    if Text.startsWith text "/" then .rootDir :: relativeComponents text
    else if (Text.split text "/").head? = some "." then .curDir :: relativeComponents text
    else relativeComponents text

/-- The spelling of a path with something appended. -/
def joinText (text name : String) : String :=
  if text = "" ∨ Text.endsWith text "/" = true then text ++ name else text ++ "/" ++ name

/-- Append a path; an absolute one takes the place of the first. -/
def join (path : PathBuf) (text : String) : PathBuf :=
  if Text.startsWith text "/" then ofText text
  else
    { text := joinText path.text text
      components := path.components ++ relativeComponents text }

def child (path : PathBuf) (name : String) : PathBuf where
  text := joinText path.text name
  components := path.components ++ [.normal name]

def descend (path : PathBuf) (names : List String) : PathBuf :=
  names.foldl child path

def fileName (path : PathBuf) : Option String :=
  match path.components.getLast? with
  | some (.normal name) => some name
  | _ => none

/-- What follows the last dot of a name; a dot at its beginning does not count. -/
def extensionOf (name : String) : Option String :=
  let back := name.toList.reverse
  match back.dropWhile (fun c => decide (c ≠ '.')) with
  | [] => none
  | [_] => none
  | _ => some (String.ofList (back.takeWhile (fun c => decide (c ≠ '.'))).reverse)

def extension (path : PathBuf) : Option String :=
  path.fileName.bind extensionOf

/-- What stands before the last dot of a name. -/
def stemOf (name : String) : String :=
  match name.toList.reverse.dropWhile (fun c => decide (c ≠ '.')) with
  | [] => name
  | [_] => name
  | _ :: rest => String.ofList rest.reverse

def withExtensionOf (name extension : String) : String :=
  if extension = "" then stemOf name else stemOf name ++ "." ++ extension

/-- A name is its stem, a dot and its extension, in which there is no other dot. -/
theorem eq_stemOf_append {name e : String} (h : extensionOf name = some e) :
    name = stemOf name ++ "." ++ e ∧ '.' ∉ e.toList := by
  have hsplit := List.takeWhile_append_dropWhile (l := name.toList.reverse)
    (p := fun c => decide (c ≠ '.'))
  have hhead := List.head?_dropWhile_not (fun c => decide (c ≠ '.')) name.toList.reverse
  unfold extensionOf at h
  unfold stemOf
  dsimp only at h
  split at h
  next => cases h
  next => cases h
  next rest hnil hone =>
    rw [← Option.some.inj h]
    refine ⟨?_, ?_⟩
    · cases hrest : name.toList.reverse.dropWhile (fun c => decide (c ≠ '.')) with
      | nil => exact absurd hrest hnil
      | cons c rest =>
        cases rest with
        | nil => exact absurd hrest (hone c)
        | cons d rest =>
          have hdot : c = '.' := by
            rw [hrest] at hhead
            simpa using hhead
          rw [hrest, hdot] at hsplit
          have hname := congrArg List.reverse hsplit
          rw [List.reverse_reverse, List.reverse_append, List.reverse_cons] at hname
          apply String.toList_inj.mp
          simpa using hname.symm
    · intro hmem
      rw [String.toList_ofList, List.mem_reverse] at hmem
      simpa using List.mem_takeWhile_imp hmem

theorem stemOf_eq_self {name : String} (h : extensionOf name = none) : stemOf name = name := by
  unfold extensionOf at h
  unfold stemOf
  dsimp only at h
  split at h
  next hnil => rw [hnil]
  next hone => rw [hone]
  next => cases h

theorem withExtensionOf_injective (name : String) {e e' : String} (he : e ≠ "") (he' : e' ≠ "")
    (h : withExtensionOf name e = withExtensionOf name e') : e = e' := by
  rw [withExtensionOf, withExtensionOf, if_neg he, if_neg he'] at h
  exact (String.append_right_inj _).mp h

theorem withExtensionOf_ne (name : String) {extension : String} (h : '.' ∈ extension.toList) :
    withExtensionOf name extension ≠ name := by
  have hne : extension ≠ "" := by
    rintro rfl
    cases h
  intro heq
  rw [withExtensionOf, if_neg hne] at heq
  cases he : extensionOf name with
  | none =>
    have hlength := congrArg String.length heq
    rw [stemOf_eq_self he, String.length_append, String.length_append] at hlength
    have hdot : ".".length = 1 := rfl
    omega
  | some e =>
    obtain ⟨hname, hdot⟩ := eq_stemOf_append he
    have hsame := (String.append_right_inj _).mp (heq.trans hname)
    rw [hsame] at h
    exact hdot h

@[simp] theorem components_child (path : PathBuf) (name : String) :
    (path.child name).components = path.components ++ [.normal name] := by
  rfl

@[simp] theorem fileName_child (path : PathBuf) (name : String) :
    (path.child name).fileName = some name := by
  simp [fileName]

@[simp] theorem descend_nil (path : PathBuf) : path.descend [] = path := by
  rfl

@[simp] theorem descend_cons (path : PathBuf) (name : String) (names : List String) :
    path.descend (name :: names) = (path.child name).descend names := by
  rfl

@[simp] theorem components_descend (path : PathBuf) (names : List String) :
    (path.descend names).components = path.components ++ names.map .normal := by
  induction names generalizing path with
  | nil =>
    simp
  | cons name names ih =>
    simp [ih]

end PathBuf

end ArkInfra
