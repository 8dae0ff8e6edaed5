import ArkInfra.Lib.Text
import ArkInfra.Lib.Utf8
import Mathlib.Algebra.Group.Nat.Defs

/-!
# Targets read from cause texts

`cluster_fix` of `agent/src/main.rs` asks the hub for the causes of a job and
sends a shutdown command to every process it can name.  When the answer holds no
process list, the targets are read from the cause texts by
`extract_node_and_pid`: it looks for a node and a pid around `::pid-`, then
around `: pid-`, then around ` pid-`.

`extractNodeAndPid` is that function with its byte offsets; the outer `none` is a
slice that does not exist, and `extractNodeAndPid_eq` says that none is asked for.

The second and the third search want the digits right behind the marker.  The
first one takes the first digits anywhere behind it, so a number from the rest of
the message can become a pid: `named_iff` says for which texts.
-/

namespace ArkInfra

namespace CauseText

/-- The number that a text begins with, up to `pid_end`. -/
def parsePid (pidStr : List Char) : Option (Option Nat) :=
  let pidEnd := (Utf8.findChar (fun c => !Text.isDigit c) pidStr).getD (Utf8.byteLen pidStr)
  (Utf8.sliceTo pidStr pidEnd).map fun digits =>
    Text.parseUnsigned (2 ^ 32) (String.ofList digits)

/-- The search for `node::pid-1234`. -/
def extractDoubleColon (causeStr : List Char) : Option (Option (String × Nat)) :=
  match Utf8.find "::pid-".toList causeStr with
  | none => some none
  | some pos => do
      let nodePart ← Utf8.sliceTo causeStr pos
      let behind ← Utf8.sliceFrom causeStr (pos + 6)
      match Utf8.findChar Text.isDigit behind with
      | none => some none
      | some pidStart =>
        let pidStr ← Utf8.sliceFrom causeStr (pos + 6 + pidStart)
        let pid ← parsePid pidStr
        some (pid.map fun pid => (String.ofList nodePart, pid))

/-- The search for a marker with the node before it and the digits right behind
it; `width` is the number that the source adds to the offset of the marker. -/
def extractMarked (marker : String) (width : Nat) (causeStr : List Char) :
    Option (Option (String × Nat)) :=
  match Utf8.find marker.toList causeStr with
  | none => some none
  | some nodeEnd => do
      let nodePart ← Utf8.sliceTo causeStr nodeEnd
      let pidStr ← Utf8.sliceFrom causeStr (nodeEnd + width)
      let pid ← parsePid pidStr
      some (pid.map fun pid => (Text.trim (String.ofList nodePart), pid))

/-- The search for `node: pid-1234`. -/
def extractColon : List Char → Option (Option (String × Nat)) :=
  extractMarked ": pid-" 6

/-- The search for `node pid-1234`. -/
def extractSpace : List Char → Option (Option (String × Nat)) :=
  extractMarked " pid-" 5

/-- `extract_node_and_pid`. -/
def extractNodeAndPid (causeStr : String) : Option (Option (String × Nat)) := do
  match ← extractDoubleColon causeStr.toList with
  | some found => some (some found)
  | none =>
    match ← extractColon causeStr.toList with
    | some found => some (some found)
    | none => extractSpace causeStr.toList

/-- The pid that the digits at the beginning of a text write. -/
def leadingPid (cs : List Char) : Option Nat :=
  Text.parseUnsigned (2 ^ 32) (String.ofList (cs.takeWhile Text.isDigit))

/-- The pid that the first digits of a text write. -/
def firstPid (cs : List Char) : Option Nat :=
  leadingPid (cs.dropWhile fun c => !Text.isDigit c)

def readDoubleColon (causeStr : List Char) : Option (String × Nat) :=
  match Split.breakOn "::pid-".toList causeStr with
  | none => none
  | some (node, behind) => (firstPid behind).map fun pid => (String.ofList node, pid)

def readMarked (marker : String) (causeStr : List Char) : Option (String × Nat) :=
  match Split.breakOn marker.toList causeStr with
  | none => none
  | some (node, behind) => (leadingPid behind).map fun pid => (Text.trim (String.ofList node), pid)

theorem readMarked_of_breakOn {marker : String} {cs node behind : List Char} {pid : Nat}
    (hfound : Split.breakOn marker.toList cs = some (node, behind))
    (hpid : leadingPid behind = some pid) :
    readMarked marker cs = some (Text.trim (String.ofList node), pid) := by
  simp [readMarked, hfound, hpid]

section Offsets

theorem parsePid_eq (pidStr : List Char) : parsePid pidStr = some (leadingPid pidStr) := by
  have hslice := Utf8.sliceTo_byteLen (pidStr.takeWhile Text.isDigit)
    (pidStr.dropWhile Text.isDigit)
  rw [List.takeWhile_append_dropWhile] at hslice
  unfold parsePid
  dsimp only
  rw [Utf8.findChar_not_getD, hslice]
  rfl

theorem extractMarked_eq {marker : String} (hmarker : marker.toList ≠ []) (causeStr : List Char) :
    extractMarked marker (Utf8.byteLen marker.toList) causeStr =
      some (readMarked marker causeStr) := by
  unfold extractMarked readMarked Utf8.find
  cases hfound : Split.breakOn marker.toList causeStr with
  | none =>
    rfl
  | some found =>
    obtain ⟨node, behind⟩ := found
    obtain ⟨rfl, _⟩ := (Split.breakOn_eq_some_iff hmarker).mp hfound
    have hnode := Utf8.sliceTo_byteLen node (marker.toList ++ behind)
    have hpid := Utf8.sliceFrom_byteLen (node ++ marker.toList) behind
    rw [Utf8.byteLen_append] at hpid
    rw [List.append_assoc] at hpid
    simp [hnode, hpid, parsePid_eq]

theorem extractDoubleColon_eq (causeStr : List Char) :
    extractDoubleColon causeStr = some (readDoubleColon causeStr) := by
  unfold extractDoubleColon readDoubleColon Utf8.find
  cases hfound : Split.breakOn "::pid-".toList causeStr with
  | none =>
    rfl
  | some found =>
    obtain ⟨node, behind⟩ := found
    obtain ⟨rfl, _⟩ := (Split.breakOn_eq_some_iff (by decide)).mp hfound
    have hnode := Utf8.sliceTo_byteLen node ("::pid-".toList ++ behind)
    have hbehind := Utf8.sliceFrom_byteLen (node ++ "::pid-".toList) behind
    have hwidth : Utf8.byteLen "::pid-".toList = 6 := by
      decide
    rw [Utf8.byteLen_append, hwidth] at hbehind
    rw [List.append_assoc] at hbehind ⊢
    simp only [Option.map_some, hnode, hbehind, Option.bind_eq_bind, Option.bind_some]
    unfold Utf8.findChar
    split_ifs with hdigit
    · have hpid := Utf8.sliceFrom_byteLen
        (node ++ "::pid-".toList ++ behind.takeWhile fun c => !Text.isDigit c)
        (behind.dropWhile fun c => !Text.isDigit c)
      rw [Utf8.byteLen_append, Utf8.byteLen_append, hwidth, List.append_assoc,
        List.takeWhile_append_dropWhile, List.append_assoc] at hpid
      simp only [hpid, parsePid_eq, Option.bind_some]
      rfl
    · -- without a digit there is nothing to parse
      have hnone : behind.dropWhile (fun c => !Text.isDigit c) = [] := by
        rw [List.dropWhile_eq_nil_iff]
        simpa using hdigit
      simp [firstPid, hnone, leadingPid, Text.parseUnsigned]

/-- **No slice is missing, and the three searches are tried in turn.** -/
theorem extractNodeAndPid_eq (causeStr : String) :
    extractNodeAndPid causeStr =
      some ((readDoubleColon causeStr.toList <|> readMarked ": pid-" causeStr.toList) <|>
        readMarked " pid-" causeStr.toList) := by
  have hcolon : extractColon causeStr.toList = some (readMarked ": pid-" causeStr.toList) :=
    extractMarked_eq (by decide) causeStr.toList
  have hspace : extractSpace causeStr.toList = some (readMarked " pid-" causeStr.toList) :=
    extractMarked_eq (by decide) causeStr.toList
  unfold extractNodeAndPid
  rw [extractDoubleColon_eq, hcolon, hspace]
  cases readDoubleColon causeStr.toList with
  | some found =>
    rfl
  | none =>
    cases readMarked ": pid-" causeStr.toList <;> rfl

end Offsets

def beginsWithDigit (cs : List Char) : Bool :=
  cs.head?.any Text.isDigit

structure IsRun (digits rest : List Char) : Prop where
  nonempty : digits ≠ []
  digit : ∀ c ∈ digits, Text.isDigit c = true
  maximal : beginsWithDigit rest = false

/-- The texts that stand between a node and a pid. -/
inductive Marker where
  | doubleColon
  | colon
  | space
deriving DecidableEq, Repr

namespace Marker

def text : Marker → String
  | doubleColon => "::pid-"
  | colon => ": pid-"
  | space => " pid-"

/-- What may stand between the node and the marker. -/
def Gap : Marker → List Char → Prop
  | doubleColon, gap => gap = []
  | _, gap => ∀ c ∈ gap, Text.isWhitespace c = true

end Marker

/-- In a text that stands behind `before`, the pid is named behind a marker that
has the node immediately before it. -/
def Mentions (before text : List Char) (node : String) (pid : Nat) : Prop :=
  ∃ (marker : Marker) (gap front digits rest : List Char),
    text = front ++ (marker.text.toList ++ (digits ++ rest)) ∧
      node.toList ++ gap <:+ before ++ front ∧ marker.Gap gap ∧
        IsRun digits rest ∧ Text.digitsValue digits = pid

def Named (causeStr node : String) (pid : Nat) : Prop :=
  Mentions [] causeStr.toList node pid

/-- The first number behind the first `::pid-` does not stand right behind it,
and nothing further on in the text names that number on the same node. -/
def TakesStray (causeStr : String) : Prop :=
  ∃ node behind pid, Split.breakOn "::pid-".toList causeStr.toList = some (node, behind) ∧
    beginsWithDigit behind = false ∧ firstPid behind = some pid ∧
      ¬ Mentions (node ++ "::pid-".toList) behind (String.ofList node) pid

section Numbers

theorem takeWhile_of_isRun {digits rest : List Char} (hrun : IsRun digits rest) :
    (digits ++ rest).takeWhile Text.isDigit = digits := by
  rw [List.takeWhile_append_of_pos hrun.digit]
  cases rest with
  | nil =>
    simp
  | cons c rest =>
    have hc : Text.isDigit c = false := by
      simpa [beginsWithDigit] using hrun.maximal
    simp [hc]

/-- **The digits at the beginning of a text.** -/
theorem leadingPid_eq_some_iff {cs : List Char} {pid : Nat} :
    leadingPid cs = some pid ↔
      ∃ digits rest, cs = digits ++ rest ∧ IsRun digits rest ∧
        Text.digitsValue digits = pid ∧ pid < 2 ^ 32 := by
  constructor
  · intro h
    have hdigits : ∀ c ∈ cs.takeWhile Text.isDigit, Text.isDigit c = true :=
      fun c hc => List.mem_takeWhile_imp hc
    rw [leadingPid, Text.parseUnsigned_of_digits _ hdigits] at h
    split_ifs at h with hnumber
    obtain rfl := Option.some.inj h
    refine ⟨_, cs.dropWhile Text.isDigit, List.takeWhile_append_dropWhile.symm, ?_, rfl, hnumber.2⟩
    refine ⟨hnumber.1, hdigits, ?_⟩
    have hstop := List.head?_dropWhile_not Text.isDigit cs
    unfold beginsWithDigit
    cases hhead : (cs.dropWhile Text.isDigit).head? with
    | none =>
      rfl
    | some c =>
      simpa [hhead] using hstop
  · rintro ⟨digits, rest, rfl, hrun, rfl, hlt⟩
    rw [leadingPid, takeWhile_of_isRun hrun, Text.parseUnsigned_of_digits _ hrun.digit,
      if_pos ⟨hrun.nonempty, hlt⟩]

theorem firstPid_of_beginsWithDigit {cs : List Char} (h : beginsWithDigit cs = true) :
    firstPid cs = leadingPid cs := by
  cases cs with
  | nil =>
    rfl
  | cons c cs =>
    have hc : Text.isDigit c = true := by
      simpa [beginsWithDigit] using h
    simp [firstPid, hc]

theorem isRun_toString {suffix : List Char} (pid : Nat) (h : beginsWithDigit suffix = false) :
    IsRun (toString pid).toList suffix where
  nonempty := Text.toString_ne_nil pid
  digit := fun _ hc => Text.isDigit_of_mem_toString hc
  maximal := h

theorem beginsWithDigit_of_isRun {digits rest : List Char} (hrun : IsRun digits rest) :
    beginsWithDigit (digits ++ rest) = true := by
  obtain ⟨c, digits, rfl⟩ := List.exists_cons_of_ne_nil hrun.nonempty
  simpa [beginsWithDigit] using hrun.digit c List.mem_cons_self

end Numbers

section Naming

theorem Mentions.of_behind {before text : List Char} {node : String} {pid : Nat}
    (h : Mentions before text node pid) : Mentions [] (before ++ text) node pid := by
  obtain ⟨marker, gap, front, digits, rest, rfl, hnode, hgap, hrun, hpid⟩ := h
  refine ⟨marker, gap, before ++ front, digits, rest, by simp, ?_, hgap, hrun, hpid⟩
  simpa using hnode

theorem Mentions.occurs {before text : List Char} {node : String} {pid : Nat}
    (h : Mentions before text node pid) : "pid-".toList <:+: text := by
  obtain ⟨marker, gap, front, digits, rest, rfl, _⟩ := h
  have hmarker : "pid-".toList <:+: marker.text.toList := by
    cases marker <;> decide
  exact hmarker.trans ⟨front, digits ++ rest, by simp⟩

theorem mentions_of_readMarked (marker : Marker) (hmarker : marker ≠ .doubleColon)
    {cs : List Char} {node : String} {pid : Nat}
    (h : readMarked marker.text cs = some (node, pid)) : Mentions [] cs node pid := by
  have hne : marker.text.toList ≠ [] := by
    cases marker <;> decide
  unfold readMarked at h
  cases hfound : Split.breakOn marker.text.toList cs with
  | none =>
    simp [hfound] at h
  | some found =>
    obtain ⟨front, behind⟩ := found
    simp only [hfound, Option.map_eq_some_iff] at h
    obtain ⟨pid', hpid, heq⟩ := h
    obtain ⟨rfl, rfl⟩ := Prod.mk.inj heq
    obtain ⟨rfl, _⟩ := (Split.breakOn_eq_some_iff hne).mp hfound
    obtain ⟨digits, rest, rfl, hrun, hvalue, _⟩ := leadingPid_eq_some_iff.mp hpid
    obtain ⟨before, after, htrim, _, hafter⟩ := Text.exists_trim (String.ofList front)
    rw [String.toList_ofList] at htrim
    have hgap : marker.Gap after := by
      cases marker with
      | doubleColon =>
        exact absurd rfl hmarker
      | colon =>
        exact hafter
      | space =>
        exact hafter
    refine ⟨marker, after, front, digits, rest, by simp, ⟨before, ?_⟩, hgap, hrun, hvalue⟩
    rw [List.nil_append, ← List.append_assoc, ← htrim]

theorem readDoubleColon_eq_some_iff {cs : List Char} {node : String} {pid : Nat} :
    readDoubleColon cs = some (node, pid) ↔
      ∃ behind, Split.breakOn "::pid-".toList cs = some (node.toList, behind) ∧
        firstPid behind = some pid := by
  unfold readDoubleColon
  cases hfound : Split.breakOn "::pid-".toList cs with
  | none =>
    simp
  | some found =>
    obtain ⟨front, behind⟩ := found
    simp only [Option.map_eq_some_iff, Prod.mk.injEq]
    constructor
    · rintro ⟨pid', hpid, rfl, rfl⟩
      exact ⟨behind, by simp, hpid⟩
    · rintro ⟨behind', heq, hpid⟩
      obtain ⟨rfl, rfl⟩ := Prod.mk.inj (Option.some.inj heq)
      exact ⟨pid, hpid, by simp, rfl⟩

/-- What the first search finds right behind its marker is named in the text. -/
theorem mentions_of_beginsWithDigit (node : List Char) {behind : List Char} {pid : Nat}
    (hdigit : beginsWithDigit behind = true) (hpid : firstPid behind = some pid) :
    Mentions [] (node ++ "::pid-".toList ++ behind) (String.ofList node) pid := by
  rw [firstPid_of_beginsWithDigit hdigit] at hpid
  obtain ⟨digits, rest, rfl, hrun, hvalue, _⟩ := leadingPid_eq_some_iff.mp hpid
  exact ⟨.doubleColon, [], node, digits, rest, by simp [Marker.text], by simp, rfl, hrun, hvalue⟩

theorem marker_behind {front behind tail : List Char} {marker : Marker}
    (h : front ++ (marker.text.toList ++ tail) = "::pid-".toList ++ behind) :
    tail = behind ∨
      ∃ between, front = "::pid-".toList ++ between ∧
        behind = between ++ (marker.text.toList ++ tail) := by
  by_cases hlong : "::pid-".toList.length ≤ front.length
  · have hwithin : "::pid-".toList <+: front :=
      List.prefix_of_prefix_length_le ⟨behind, h.symm⟩ (List.prefix_append _ _) hlong
    obtain ⟨between, rfl⟩ := hwithin
    rw [List.append_assoc] at h
    exact Or.inr ⟨between, rfl, (List.append_cancel_left h).symm⟩
  · -- no marker begins with a later character of the first one
    left
    have hshort : front.length < 6 := by
      simpa using hlong
    rcases front with _ | ⟨c₁, _ | ⟨c₂, _ | ⟨c₃, _ | ⟨c₄, _ | ⟨c₅, _ | ⟨c₆, front⟩⟩⟩⟩⟩⟩ <;>
      cases marker <;> simp_all [Marker.text]

/-- **Where the first number is not right behind the first marker, the text names
it only if it does so further on.** -/
theorem mentions_behind (node : List Char) {behind : List Char} {pid : Nat}
    (hdigit : beginsWithDigit behind = false)
    (h : Mentions [] (node ++ "::pid-".toList ++ behind) (String.ofList node) pid) :
    Mentions (node ++ "::pid-".toList) behind (String.ofList node) pid := by
  obtain ⟨marker, gap, front, digits, rest, htext, hnode, hgap, hrun, hpid⟩ := h
  rw [String.toList_ofList, List.nil_append] at hnode
  have hlength : node.length ≤ front.length := by
    have hle := hnode.length_le
    rw [List.length_append] at hle
    omega
  have hwithin : node <+: front :=
    List.prefix_of_prefix_length_le ⟨"::pid-".toList ++ behind, by simp⟩
      ⟨marker.text.toList ++ (digits ++ rest), htext.symm⟩ hlength
  obtain ⟨front, rfl⟩ := hwithin
  rw [List.append_assoc, List.append_assoc] at htext
  rcases marker_behind (List.append_cancel_left htext).symm with hbehind | ⟨between, rfl, hbehind⟩
  · rw [← hbehind, beginsWithDigit_of_isRun hrun] at hdigit
    cases hdigit
  · exact ⟨marker, gap, between, digits, rest, hbehind, by simpa using hnode, hgap, hrun, hpid⟩

/-- **When the targets read from a text are named in it.** -/
theorem named_iff (causeStr : String) :
    (∀ node pid, extractNodeAndPid causeStr = some (some (node, pid)) → Named causeStr node pid) ↔
      ¬ TakesStray causeStr := by
  rw [extractNodeAndPid_eq]
  constructor
  · rintro hall ⟨node, behind, pid, hfound, hdigit, hpid, hnot⟩
    have hread : readDoubleColon causeStr.toList = some (String.ofList node, pid) :=
      readDoubleColon_eq_some_iff.mpr ⟨behind, by simpa using hfound, hpid⟩
    have hnamed := hall (String.ofList node) pid (by simp [hread])
    obtain ⟨htext, _⟩ := (Split.breakOn_eq_some_iff (by decide)).mp hfound
    rw [Named, htext] at hnamed
    exact hnot (mentions_behind node hdigit hnamed)
  · intro hstray node pid hanswer
    cases hfirst : readDoubleColon causeStr.toList with
    | some found =>
      obtain rfl : found = (node, pid) := by
        simpa [hfirst] using hanswer
      obtain ⟨behind, hfound, hpid⟩ := readDoubleColon_eq_some_iff.mp hfirst
      obtain ⟨htext, _⟩ := (Split.breakOn_eq_some_iff (by decide)).mp hfound
      rw [Named, htext]
      by_cases hdigit : beginsWithDigit behind = true
      · simpa using mentions_of_beginsWithDigit node.toList hdigit hpid
      · apply Mentions.of_behind
        by_contra hnot
        exact hstray ⟨node.toList, behind, pid, hfound, by simpa using hdigit, hpid,
          by simpa using hnot⟩
    | none =>
      cases hsecond : readMarked ": pid-" causeStr.toList with
      | some found =>
        obtain rfl : found = (node, pid) := by
          simpa [hfirst, hsecond] using hanswer
        exact mentions_of_readMarked .colon (by decide) hsecond
      | none =>
        have hthird : readMarked " pid-" causeStr.toList = some (node, pid) := by
          simpa [hfirst, hsecond] using hanswer
        exact mentions_of_readMarked .space (by decide) hthird

end Naming

section Written

variable {node suffix : String} {pid : Nat}

theorem leadingPid_written (hpid : pid < 2 ^ 32) (hend : beginsWithDigit suffix.toList = false) :
    leadingPid ((toString pid).toList ++ suffix.toList) = some pid :=
  leadingPid_eq_some_iff.mpr
    ⟨_, _, rfl, isRun_toString pid hend, Text.digitsValue_toString pid, hpid⟩

theorem notMem_marker {c : Char} (hc : Text.isDigit c = true) : c ∉ "::pid-".toList := by
  intro hmem
  have hmarker : "::pid-".toList.all (fun d => !Text.isDigit d) = true := by
    decide
  have hnot := List.all_eq_true.mp hmarker c hmem
  rw [hc] at hnot
  cases hnot

theorem not_occurs_behind (hsuffix : ¬ "pid-".toList <:+: suffix.toList) :
    ¬ "::pid-".toList <:+: "pid-".toList ++ ((toString pid).toList ++ suffix.toList) := by
  obtain ⟨c, digits, hdigits⟩ := List.exists_cons_of_ne_nil (Text.toString_ne_nil pid)
  have hall : ∀ d ∈ c :: digits, d ∉ "::pid-".toList := by
    intro d hd
    rw [← hdigits] at hd
    exact notMem_marker (Text.isDigit_of_mem_toString hd)
  rw [hdigits, List.cons_append, Split.occurs_append_cons_iff (hall c List.mem_cons_self)]
  rintro (hbefore | hbehind)
  · exact absurd hbefore (by decide)
  · have hmarker : ¬ "::pid-".toList <:+: suffix.toList :=
      fun hoccurs => hsuffix (List.IsInfix.trans (by decide) hoccurs)
    exact Split.not_occurs_append (by decide)
      (fun d hd => hall d (List.mem_cons_of_mem c hd)) hmarker hbehind

theorem breakOn_written (marker : Marker) (hmarker : marker ≠ .space)
    (hnode : ¬ "pid-".toList <:+: node.toList) (behind : List Char) :
    Split.breakOn marker.text.toList (node.toList ++ marker.text.toList ++ behind) =
      some (node.toList, behind) := by
  have hne : marker.text.toList ≠ [] := by
    cases marker <;> decide
  refine (Split.breakOn_eq_some_iff hne).mpr ⟨rfl, ?_⟩
  intro hoccurs
  have hpid : "pid-".toList <:+: node.toList ++ marker.text.toList.dropLast :=
    List.IsInfix.trans (by cases marker <;> decide) hoccurs
  -- the marker begins with a colon, and what is left of it is too short
  obtain ⟨rest, hrest, hshort⟩ : ∃ rest, marker.text.toList.dropLast = ':' :: rest ∧
      ¬ "pid-".toList <:+: rest := by
    cases marker with
    | doubleColon =>
      exact ⟨":pid".toList, by decide, by decide⟩
    | colon =>
      exact ⟨" pid".toList, by decide, by decide⟩
    | space =>
      exact absurd rfl hmarker
  rw [hrest, Split.occurs_append_cons_iff (by decide)] at hpid
  exact hpid.elim hnode hshort

theorem readDoubleColon_written (hnode : ¬ "pid-".toList <:+: node.toList) (hpid : pid < 2 ^ 32)
    (hend : beginsWithDigit suffix.toList = false) :
    readDoubleColon (node ++ "::pid-" ++ toString pid ++ suffix).toList = some (node, pid) := by
  have hfirst : firstPid ((toString pid).toList ++ suffix.toList) = some pid := by
    rw [firstPid_of_beginsWithDigit (beginsWithDigit_of_isRun (isRun_toString pid hend)),
      leadingPid_written hpid hend]
  have hfound := breakOn_written .doubleColon (by decide) hnode
    ((toString pid).toList ++ suffix.toList)
  refine readDoubleColon_eq_some_iff.mpr ⟨_, ?_, hfirst⟩
  simpa [Marker.text] using hfound

theorem readDoubleColon_colon (hnode : ¬ "pid-".toList <:+: node.toList)
    (hsuffix : ¬ "pid-".toList <:+: suffix.toList) :
    readDoubleColon (node ++ ": pid-" ++ toString pid ++ suffix).toList = none := by
  have htext : (node ++ ": pid-" ++ toString pid ++ suffix).toList = (node.toList ++ [':']) ++
      ' ' :: ("pid-".toList ++ ((toString pid).toList ++ suffix.toList)) := by
    simp
  have hnot : ¬ "::pid-".toList <:+: (node ++ ": pid-" ++ toString pid ++ suffix).toList := by
    rw [htext, Split.occurs_append_cons_iff (by decide)]
    rintro (hbefore | hbehind)
    · have hoccurs : "pid-".toList <:+: node.toList ++ ':' :: [] :=
        List.IsInfix.trans (by decide) hbefore
      rcases (Split.occurs_append_cons_iff (by decide)).mp hoccurs with hoccurs | hoccurs
      · exact hnode hoccurs
      · exact absurd hoccurs (by decide)
    · exact not_occurs_behind hsuffix hbehind
  have hbreak := (Split.breakOn_eq_none_iff (by decide)).mpr hnot
  rw [readDoubleColon, hbreak]

theorem readMarked_written (htrim : Text.trim node = node)
    (hnode : ¬ "pid-".toList <:+: node.toList) (hpid : pid < 2 ^ 32)
    (hend : beginsWithDigit suffix.toList = false) :
    readMarked ": pid-" (node ++ ": pid-" ++ toString pid ++ suffix).toList = some (node, pid) := by
  have hfound := breakOn_written .colon (by decide) hnode
    ((toString pid).toList ++ suffix.toList)
  have htext : (node ++ ": pid-" ++ toString pid ++ suffix).toList =
      node.toList ++ Marker.colon.text.toList ++ ((toString pid).toList ++ suffix.toList) := by
    simp [Marker.text]
  rw [← htext] at hfound
  have hread := readMarked_of_breakOn hfound (leadingPid_written hpid hend)
  rw [String.ofList_toList, htrim] at hread
  exact hread

end Written

/-- **Targets read from cause texts.**  No text makes the function stop at a bad
slice.  What it returns is named in the text exactly if the first search does not
take a stray number, and the two documented forms are read back. -/
theorem extractNodeAndPid_named (causeStr node suffix : String) (pid : Nat) :
    (∃ answer, extractNodeAndPid causeStr = some answer) ∧
      ((∀ node pid, extractNodeAndPid causeStr = some (some (node, pid)) →
            Named causeStr node pid) ↔
          ¬ TakesStray causeStr) ∧
      (Text.trim node = node → ¬ Text.contains node "pid-" → pid < 2 ^ 32 →
        beginsWithDigit suffix.toList = false → ¬ Text.contains suffix "pid-" →
          extractNodeAndPid (node ++ "::pid-" ++ toString pid ++ suffix) =
              some (some (node, pid)) ∧
            extractNodeAndPid (node ++ ": pid-" ++ toString pid ++ suffix) =
              some (some (node, pid))) := by
  refine ⟨⟨_, extractNodeAndPid_eq causeStr⟩, named_iff causeStr, ?_⟩
  intro htrim hnode hpid hend hsuffix
  have hfree : ¬ "pid-".toList <:+: node.toList := by
    simpa [Text.contains] using hnode
  have hrest : ¬ "pid-".toList <:+: suffix.toList := by
    simpa [Text.contains] using hsuffix
  constructor
  · rw [extractNodeAndPid_eq, readDoubleColon_written hfree hpid hend]
    rfl
  · rw [extractNodeAndPid_eq, readDoubleColon_colon hfree hrest,
      readMarked_written htrim hfree hpid hend]
    rfl

/-- A text with a number further on that is no pid, and the documented forms of
one cause. -/
theorem extractNodeAndPid_named_waitsOn :
    (∃ answer, extractNodeAndPid "node-a: pid-7 retry in 30 s" = some answer) ∧
      extractNodeAndPid ("node-a" ++ "::pid-" ++ toString 1234 ++ " WaitsOn network") =
        some (some ("node-a", 1234)) ∧
      extractNodeAndPid ("node-a" ++ ": pid-" ++ toString 1234 ++ " WaitsOn network") =
        some (some ("node-a", 1234)) := by
  obtain ⟨hanswer, _, hforms⟩ := extractNodeAndPid_named "node-a: pid-7 retry in 30 s" "node-a"
    " WaitsOn network" 1234
  exact ⟨hanswer, hforms (by decide +kernel) (by decide +kernel) (by decide) (by decide +kernel)
    (by decide +kernel)⟩

/-- A cause without a pid: the delay further on in its text is taken for one. -/
theorem extractNodeAndPid_named_unknown :
    extractNodeAndPid "node-a::pid-unknown, retry in 30 s" = some (some ("node-a", 30)) ∧
      ¬ Named "node-a::pid-unknown, retry in 30 s" "node-a" 30 := by
  refine ⟨by decide +kernel, ?_⟩
  intro hnamed
  have htext : "node-a::pid-unknown, retry in 30 s".toList =
      "node-a".toList ++ "::pid-".toList ++ "unknown, retry in 30 s".toList := by
    decide +kernel
  rw [Named, htext] at hnamed
  have hbehind := mentions_behind "node-a".toList (by decide +kernel) hnamed
  exact absurd hbehind.occurs (by decide +kernel)

end CauseText

end ArkInfra
