import ArkInfra.Lib.Split
import Mathlib.Data.List.TakeWhile

/-!
# Byte offsets into a text

Positions in a string are counted in bytes of its UTF-8 encoding.  A slice that
begins or ends inside a character, or behind the end of the string, does not
exist: the program stops there.  The slices here return `none` in that case, so
that a computation with offsets can be checked to never ask for one.

An offset is good when it is the length of a part that the text begins with
(`sliceFrom_byteLen`, `sliceTo_byteLen`); the searches return such offsets.
-/

namespace ArkInfra

namespace Utf8

def byteLen : List Char → Nat
  | [] => 0
  | c :: cs => c.utf8Size + byteLen cs

def sliceFrom : List Char → Nat → Option (List Char)
  | cs, 0 => some cs
  | [], _ + 1 => none
  | c :: cs, n + 1 =>
    if c.utf8Size ≤ n + 1 then sliceFrom cs (n + 1 - c.utf8Size) else none

def sliceTo : List Char → Nat → Option (List Char)
  | _, 0 => some []
  | [], _ + 1 => none
  | c :: cs, n + 1 =>
    if c.utf8Size ≤ n + 1 then (sliceTo cs (n + 1 - c.utf8Size)).map (c :: ·) else none

/-- The offset of the first occurrence of a text. -/
def find (pat cs : List Char) : Option Nat :=
  (Split.breakOn pat cs).map fun x => byteLen x.1

/-- The offset of the first character that passes the test. -/
def findChar (p : Char → Bool) (cs : List Char) : Option Nat :=
  if cs.any p then some (byteLen (cs.takeWhile fun c => !p c)) else none

@[simp] theorem byteLen_append (a b : List Char) : byteLen (a ++ b) = byteLen a + byteLen b := by
  induction a with
  | nil =>
    simp [byteLen]
  | cons c a ih =>
    simp [byteLen, ih, Nat.add_assoc]

theorem exists_utf8Size_add (c : Char) (n : Nat) :
    ∃ k, c.utf8Size + n = k + 1 ∧ c.utf8Size ≤ k + 1 ∧ k + 1 - c.utf8Size = n := by
  obtain ⟨k, hk⟩ := Nat.exists_eq_succ_of_ne_zero (Nat.ne_of_gt c.utf8Size_pos)
  exact ⟨k + n, by omega, by omega, by omega⟩

theorem sliceFrom_cons_add (c : Char) (cs : List Char) (n : Nat) :
    sliceFrom (c :: cs) (c.utf8Size + n) = sliceFrom cs n := by
  obtain ⟨k, hoffset, hle, hrest⟩ := exists_utf8Size_add c n
  rw [hoffset, sliceFrom, if_pos hle, hrest]

theorem sliceTo_cons_add (c : Char) (cs : List Char) (n : Nat) :
    sliceTo (c :: cs) (c.utf8Size + n) = (sliceTo cs n).map (c :: ·) := by
  obtain ⟨k, hoffset, hle, hrest⟩ := exists_utf8Size_add c n
  rw [hoffset, sliceTo, if_pos hle, hrest]

/-- **Slicing behind a part.** -/
theorem sliceFrom_byteLen (a b : List Char) : sliceFrom (a ++ b) (byteLen a) = some b := by
  induction a with
  | nil =>
    cases b <;> rfl
  | cons c a ih =>
    rw [List.cons_append, byteLen, sliceFrom_cons_add, ih]

/-- **Slicing off a part.** -/
theorem sliceTo_byteLen (a b : List Char) : sliceTo (a ++ b) (byteLen a) = some a := by
  induction a with
  | nil =>
    cases b <;> rfl
  | cons c a ih =>
    rw [List.cons_append, byteLen, sliceTo_cons_add, ih]
    rfl

theorem findChar_not_getD (p : Char → Bool) (cs : List Char) :
    (findChar (fun c => !p c) cs).getD (byteLen cs) = byteLen (cs.takeWhile p) := by
  unfold findChar
  split_ifs with hany
  · simp
  · have hall : ∀ c ∈ cs, p c = true := by
      simpa using hany
    rw [List.takeWhile_eq_self_iff.mpr hall]
    rfl

end Utf8

end ArkInfra
