import Mathlib.Data.List.Basic
import Mathlib.Tactic.SplitIfs

/-!
# Text files as bytes

A file is a list of bytes.  Text is written to it in UTF-8 and read back line
by line: a line ends after a newline byte, or where the file ends.  Every byte
of a character outside ASCII has its top bit set, so a text without a newline
character leaves no newline byte, and a file that was written record by record
splits into those records again (`rawLines_lines`).
-/

namespace ArkInfra

abbrev Bytes := List UInt8

namespace TextFile

def newline : UInt8 := 10

def encode (s : String) : Bytes :=
  s.toByteArray.data.toList

/-- The text of a sequence of bytes, if they are valid UTF-8. -/
def decode (bytes : Bytes) : Option String :=
  String.fromUTF8? ⟨bytes.toArray⟩

/-- The lines of a file with their newline bytes; only the last one may have
none. -/
def rawLines : Bytes → List Bytes
  | [] => []
  | b :: bs =>
    if b = newline then
      [b] :: rawLines bs
    else
      match rawLines bs with
      | [] => [[b]]
      | line :: lines => (b :: line) :: lines

section Utf8

theorem encode_eq_flatMap (s : String) :
    encode s = s.toList.flatMap String.utf8EncodeChar := by
  unfold encode
  rw [← String.utf8Encode_toList]
  simp [List.utf8Encode]

theorem encode_append (s t : String) :
    encode (s ++ t) = encode s ++ encode t := by
  simp only [encode_eq_flatMap, String.toList_append, List.flatMap_append]

theorem decode_encode (s : String) :
    decode (encode s) = some s := by
  have hbytes : (⟨(encode s).toArray⟩ : ByteArray) = s.toByteArray := by
    simp [encode]
  unfold decode String.fromUTF8?
  rw [dif_pos (by rw [hbytes]; exact s.isValidUTF8)]
  rfl

theorem encode_of_decode {bytes : Bytes} {s : String} (h : decode bytes = some s) :
    encode s = bytes := by
  unfold decode String.fromUTF8? at h
  split_ifs at h with hvalid
  obtain rfl := Option.some.inj h
  simp [encode, String.fromUTF8]

theorem decode_append {a b : Bytes} {s t : String}
    (ha : decode a = some s) (hb : decode b = some t) :
    decode (a ++ b) = some (s ++ t) := by
  rw [← encode_of_decode ha, ← encode_of_decode hb, ← encode_append]
  exact decode_encode (s ++ t)

theorem newline_mem_utf8EncodeChar {c : Char} (h : newline ∈ String.utf8EncodeChar c) :
    c = '\n' := by
  have key : ∀ n, newline = UInt8.ofNat n → n % 256 = 10 := by
    intro n hn
    have := congrArg UInt8.toNat hn
    simpa [newline] using this.symm
  simp only [String.utf8EncodeChar] at h
  split_ifs at h with h₁ h₂ h₃
  · rw [List.mem_singleton] at h
    have hmod := key _ h
    apply Char.ext
    apply UInt32.toNat_inj.mp
    change c.val.toNat = 10
    omega
  -- the bytes of a longer encoding are all at least 128
  all_goals
    simp only [List.mem_cons, List.not_mem_nil, or_false] at h
  · rcases h with h | h <;> exact absurd (key _ h) (by omega)
  · rcases h with h | h | h <;> exact absurd (key _ h) (by omega)
  · rcases h with h | h | h | h <;> exact absurd (key _ h) (by omega)

theorem newline_notMem_encode {s : String} (h : '\n' ∉ s.toList) :
    newline ∉ encode s := by
  intro hmem
  rw [encode_eq_flatMap, List.mem_flatMap] at hmem
  obtain ⟨c, hc, hnl⟩ := hmem
  rw [newline_mem_utf8EncodeChar hnl] at hc
  exact h hc

end Utf8

section Lines

theorem rawLines_append_newline {line : Bytes} (h : newline ∉ line) (rest : Bytes) :
    rawLines (line ++ newline :: rest) = (line ++ [newline]) :: rawLines rest := by
  induction line with
  | nil =>
    simp [rawLines]
  | cons b line ih =>
    obtain ⟨hb, hline⟩ := not_or.mp (mt List.mem_cons.mpr h)
    rw [List.cons_append, rawLines, if_neg (Ne.symm hb), ih hline]
    rfl

theorem rawLines_of_notMem {line : Bytes} (h : newline ∉ line) (hne : line ≠ []) :
    rawLines line = [line] := by
  induction line with
  | nil =>
    exact absurd rfl hne
  | cons b line ih =>
    obtain ⟨hb, hline⟩ := not_or.mp (mt List.mem_cons.mpr h)
    rw [rawLines, if_neg (Ne.symm hb)]
    cases line with
    | nil =>
      rfl
    | cons b' line =>
      rw [ih hline (by simp)]

/-- **A file of records.**  What was written as newline terminated records with
a last piece without newline is read back as those lines. -/
theorem rawLines_lines {records : List Bytes} (h : ∀ r ∈ records, newline ∉ r)
    {tail : Bytes} (htail : newline ∉ tail) :
    rawLines ((records.map (· ++ [newline])).flatten ++ tail) =
      records.map (· ++ [newline]) ++ (if tail = [] then [] else [tail]) := by
  induction records with
  | nil =>
    by_cases hnil : tail = []
    · simp [hnil, rawLines]
    · simp [hnil, rawLines_of_notMem htail hnil]
  | cons r records ih =>
    have hr : newline ∉ r := h r (by simp)
    have hrecords : ∀ r' ∈ records, newline ∉ r' := by
      intro r' hr'
      exact h r' (List.mem_cons_of_mem _ hr')
    simp only [List.map_cons, List.flatten_cons, List.append_assoc, List.cons_append,
      List.nil_append]
    rw [rawLines_append_newline hr, ih hrecords]

end Lines

end TextFile

end ArkInfra
