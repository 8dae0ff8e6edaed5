import ArkInfra.Lib.Text
import Mathlib.Algebra.Group.Nat.Defs

/-!
# Killing a process group

`agent/src/exec/mod.rs`: `kill_process_tree` looks up the process group of a
process in `/proc/<pid>/stat` and kills the whole group.  The kernel writes

    pid (comm) state ppid pgrp ...

where `comm` is the name of the command, which the process chooses and the
kernel does not escape.  `get_process_group` cuts the line at white space and
takes the fifth field, which is the group as long as the name is one word.  With
two words the fifth field is the parent, a number as well; with four words or
more it is a word of the name.

`getProcessGroup_iff` says for which lines the lookup gives the group.
-/

namespace ArkInfra

/-- The line of a process in `/proc/<pid>/stat`. -/
structure StatLine where
  pid : UInt32
  comm : String
  state : Char
  ppid : UInt32
  pgrp : UInt32
  rest : String
  /-- The state is one letter. -/
  state_letter : state.isAlpha = true
  /-- The fields that follow are set off. -/
  rest_apart : rest.toList.head?.all Text.isWhitespace = true

namespace StatLine

def text (line : StatLine) : String :=
  toString line.pid.toNat ++ " (" ++ line.comm ++ ") " ++ String.singleton line.state ++ " " ++
    toString line.ppid.toNat ++ " " ++ toString line.pgrp.toNat ++ line.rest

/-- The words the name is cut into, with its parentheses. -/
def nameWords (line : StatLine) : List String :=
  Text.splitWhitespace ("(" ++ line.comm ++ ")")

/-- The lines whose fifth word is the process group: the name is one word; or
two words, and the parent leads the group; or at least four words, and the
fourth one happens to be the number of the group. -/
def Readable (line : StatLine) : Prop :=
  match line.nameWords with
  | [_] => True
  | [_, _] => line.ppid = line.pgrp
  | _ :: _ :: _ :: word :: _ => Text.parseUnsigned (2 ^ 32) word = some line.pgrp.toNat
  | _ => False

end StatLine

structure KillOutput where
  success : Bool
  stderr : String

/-- The process group in the content of the stat file, which could be read or
not. -/
def getProcessGroup (pid : UInt32) (statContent : Except String String) : Except String Nat :=
  match statContent with
  | .error e => .error ("读取 /proc/" ++ toString pid.toNat ++ "/stat 失败: " ++ e)
  | .ok content =>
    let fields := Text.splitWhitespace content
    if fields.length < 5 then .error "stat 文件格式错误"
    else
      match Text.parseUnsignedResult (2 ^ 32) (fields.getD 4 "") with
      | .ok pgid => .ok pgid
      | .error e => .error ("解析进程组 ID 失败: " ++ e)

def killArgs (pid : UInt32) (pgid : Except String Nat) : List String :=
  match pgid with
  | .ok pgid => ["-9", "-" ++ toString pgid]
  | .error _ => ["-9", toString pid.toNat]

/-- The outcome of the kill command; a process that is gone counts as killed. -/
def killResult : Except String KillOutput → Except String Unit
  | .error e => .error ("执行 kill 失败: " ++ e)
  | .ok output =>
    if output.success then .ok ()
    else if Text.contains output.stderr "No such process" then .ok ()
    else .error ("kill 失败: " ++ output.stderr)

/-- The command that is run for a process, and the result of the call. -/
def killProcessTree (pid : UInt32) (statContent : Except String String)
    (kill : List String → Except String KillOutput) : List String × Except String Unit :=
  let args := killArgs pid (getProcessGroup pid statContent)
  (args, killResult (kill args))

section Fields

theorem not_whitespace_of_range {c : Char} (hlow : 33 ≤ c.toNat) (hhigh : c.toNat ≤ 126) :
    Text.isWhitespace c = false := by
  have hrange : ∀ n, 33 ≤ n → n ≤ 126 → Text.isWhitespace (Char.ofNat n) = false := by
    decide
  have hc := hrange c.toNat hlow hhigh
  rwa [Char.ofNat_toNat] at hc

theorem toNat_of_isDigit {c : Char} (h : Text.isDigit c = true) :
    48 ≤ c.toNat ∧ c.toNat ≤ 57 := by
  simp only [Text.isDigit, Bool.and_eq_true, decide_eq_true_eq, Char.le_def] at h
  exact h

theorem toNat_of_isAlpha {c : Char} (h : c.isAlpha = true) :
    65 ≤ c.toNat ∧ c.toNat ≤ 122 := by
  rcases (Bool.or_eq_true _ _).mp h with hupper | hlower
  · have hupper : 65 ≤ c.toNat ∧ c.toNat ≤ 90 := of_decide_eq_true hupper
    omega
  · obtain ⟨hlow, hhigh⟩ := (Bool.and_eq_true _ _).mp hlower
    have hlow : 97 ≤ c.toNat := of_decide_eq_true hlow
    have hhigh : c.toNat ≤ 122 := of_decide_eq_true hhigh
    omega

theorem words_toString (n : Nat) :
    Split.words Text.isWhitespace (toString n).toList = [(toString n).toList] := by
  apply Split.words_of_free
  · rw [Nat.toString_eq_repr, Nat.toList_repr]
    exact Nat.toDigits_ne_nil
  · intro c hc
    obtain ⟨hlow, hhigh⟩ := toNat_of_isDigit (Text.isDigit_of_mem_toString hc)
    exact not_whitespace_of_range (by omega) (by omega)

theorem parseUnsigned_state (line : StatLine) (bound : Nat) :
    Text.parseUnsigned bound (String.singleton line.state) = none := by
  obtain ⟨hlow, _⟩ := toNat_of_isAlpha line.state_letter
  cases hparse : Text.parseUnsigned bound (String.singleton line.state) with
  | none =>
    rfl
  | some n =>
    rcases Text.mem_of_parseUnsigned hparse (c := line.state) (by simp) with hplus | hdigit
    · rw [hplus] at hlow
      exact absurd hlow (by decide)
    · have hhigh := (toNat_of_isDigit hdigit).2
      omega

namespace StatLine

theorem toList_text (line : StatLine) :
    line.text.toList =
      (toString line.pid.toNat).toList ++ ' ' :: (("(" ++ line.comm ++ ")").toList ++ ' ' ::
        ([line.state] ++ ' ' :: ((toString line.ppid.toNat).toList ++ ' ' ::
          ((toString line.pgrp.toNat).toList ++ line.rest.toList)))) := by
  have hopen : " (".toList = [' ', '('] := by decide
  have hclose : ") ".toList = [')', ' '] := by decide
  have hspace : " ".toList = [' '] := by decide
  have hleft : "(".toList = ['('] := by decide
  have hright : ")".toList = [')'] := by decide
  simp [text, hopen, hclose, hspace, hleft, hright]

/-- **The words of a line.** -/
theorem splitWhitespace_text (line : StatLine) :
    ∃ tail, Text.splitWhitespace line.text =
      [toString line.pid.toNat] ++ line.nameWords ++
        [String.singleton line.state, toString line.ppid.toNat, toString line.pgrp.toNat] ++
        tail := by
  have hspace : Text.isWhitespace ' ' = true := by decide
  have hstate : Split.words Text.isWhitespace [line.state] = [[line.state]] := by
    apply Split.words_of_free
    · simp
    · intro c hc
      obtain ⟨hlow, hhigh⟩ := toNat_of_isAlpha line.state_letter
      rw [List.mem_singleton.mp hc]
      exact not_whitespace_of_range (by omega) (by omega)
  obtain ⟨tail, htail⟩ : ∃ tail, Split.words Text.isWhitespace
      ((toString line.pgrp.toNat).toList ++ line.rest.toList) =
        (toString line.pgrp.toNat).toList :: tail := by
    cases hrest : line.rest.toList with
    | nil =>
      exact ⟨[], by rw [List.append_nil, words_toString]⟩
    | cons c rest =>
      have hc : Text.isWhitespace c = true := by
        simpa [hrest] using line.rest_apart
      exact ⟨_, by rw [Split.words_append_cons _ _ hc, words_toString]; rfl⟩
  refine ⟨tail.map String.ofList, ?_⟩
  rw [Text.splitWhitespace, toList_text, Split.words_append_cons _ _ hspace,
    Split.words_append_cons _ _ hspace, Split.words_append_cons _ _ hspace,
    Split.words_append_cons _ _ hspace, words_toString, words_toString, hstate, htail]
  simp only [nameWords, Text.splitWhitespace, List.map_append, List.map_cons, List.map_nil,
    String.ofList_toList, List.append_assoc]
  rfl

theorem nameWords_ne_nil (line : StatLine) : line.nameWords ≠ [] := by
  have hwords : Split.words Text.isWhitespace ("(" ++ line.comm ++ ")").toList ≠ [] := by
    refine Split.words_ne_nil (c := '(') ?_ (by decide)
    simp only [String.toList_append]
    exact List.mem_append_left _ (List.mem_append_left _ (by decide))
  simpa [nameWords, Text.splitWhitespace] using hwords

end StatLine

end Fields

theorem getProcessGroup_text_iff (line : StatLine) (n : Nat) :
    getProcessGroup line.pid (.ok line.text) = .ok n ↔
      ∃ field, (Text.splitWhitespace line.text)[4]? = some field ∧
        Text.parseUnsigned (2 ^ 32) field = some n := by
  unfold getProcessGroup
  dsimp only
  by_cases hshort : (Text.splitWhitespace line.text).length < 5
  · rw [if_pos hshort, List.getElem?_eq_none (by omega)]
    simp
  · have hfield : (Text.splitWhitespace line.text)[4]? =
        some ((Text.splitWhitespace line.text).getD 4 "") := by
      rw [List.getD_eq_getElem?_getD, List.getElem?_eq_getElem (by omega)]
      rfl
    rw [if_neg hshort, hfield]
    simp only [Option.some.injEq, exists_eq_left']
    rw [← Text.parseUnsignedResult_eq_ok_iff (by decide)]
    cases Text.parseUnsignedResult (2 ^ 32) ((Text.splitWhitespace line.text).getD 4 "") <;> simp

/-- **The lookup by the number of words in the name.** -/
theorem getProcessGroup_eq_pgrp_iff (line : StatLine) :
    getProcessGroup line.pid (.ok line.text) = .ok line.pgrp.toNat ↔ line.Readable := by
  obtain ⟨tail, hwords⟩ := line.splitWhitespace_text
  have hread : ∀ n : UInt32, Text.parseUnsigned (2 ^ 32) (toString n.toNat) = some n.toNat :=
    fun n => Text.parseUnsigned_toString n.toNat_lt
  rw [getProcessGroup_text_iff, hwords, StatLine.Readable]
  -- the field read is the fifth: one word of the name more moves it one field to the left
  match hname : line.nameWords with
  | [] => exact absurd hname line.nameWords_ne_nil
  | [_] =>
    simp only [List.cons_append, List.nil_append, List.getElem?_cons_succ,
      List.getElem?_cons_zero, Option.some.injEq, exists_eq_left', hread]
  | [_, _] =>
    simp only [List.cons_append, List.nil_append, List.getElem?_cons_succ,
      List.getElem?_cons_zero, Option.some.injEq, exists_eq_left', hread, UInt32.toNat_inj]
  | [_, _, _] => simp [parseUnsigned_state]
  | _ :: _ :: _ :: word :: _ => simp

/-- **Which lines lead to the right group.**  The lookup returns the process group,
and the one command that is run kills that group, exactly on the readable
lines. -/
theorem getProcessGroup_iff (line : StatLine) (kill : List String → Except String KillOutput) :
    (getProcessGroup line.pid (.ok line.text) = .ok line.pgrp.toNat ∧
      (killProcessTree line.pid (.ok line.text) kill).1 =
        ["-9", "-" ++ toString line.pgrp.toNat]) ↔
      line.Readable := by
  rw [← getProcessGroup_eq_pgrp_iff]
  constructor
  · exact And.left
  · intro h
    exact ⟨h, by simp only [killProcessTree, h, killArgs]⟩

/-- **A name with a space.**  The parent of the process is the first process of the
system; it is taken for the group, and the command kills every process there
is. -/
theorem getProcessGroup_twoWords :
    let line : StatLine := ⟨4242, "tmux: server", 'S', 1, 4242, " 4242 0 -1", rfl, rfl⟩
    let kill : List String → Except String KillOutput := fun _ => .ok ⟨true, ""⟩
    line.text = "4242 (tmux: server) S 1 4242 4242 0 -1" ∧
    getProcessGroup 4242 (.ok line.text) = .ok 1 ∧
    (killProcessTree 4242 (.ok line.text) kill).1 = ["-9", "-1"] := by
  decide

end ArkInfra
