import ArkInfra.Core.RuleMatcher
import ArkInfra.Lib.Glob
import ArkInfra.Lib.Utf8

/-!
# Wildcard patterns of the rules

`core/src/rules/matcher.rs` matches the ids of a rule with a scan that moves a
cursor through the text.  The cursor is a byte offset, and every turn of the
loop slices the text at it.  `matchesPatternSliced` is that computation with the
offsets of the source; `none` is a slice that does not exist.  `matchesPattern`
of the matcher keeps the rest of the text in the place of the cursor, and the two
agree (`matchesPatternSliced_eq`).

The scan takes the first occurrence of every part of the pattern and looks at
the end of the text only once, behind the loop.  `matchesPattern_glob` says that
it decides the meaning of the pattern all the same.
-/

namespace ArkInfra

namespace RuleMatcher

/-- Why the loop over the parts stops early: a part is not found, or a slice
does not exist. -/
inductive ScanStop where
  | mismatch
  | badSlice
deriving DecidableEq, Repr

/-- One turn of the loop: the cursor behind the part. -/
def scanPart (text : String) (anchored : Bool) (part : String) (cursor : Nat) :
    Except ScanStop Nat :=
  match Utf8.sliceFrom text.toList cursor with
  | none => .error .badSlice
  | some rest =>
    if anchored then
      if part.toList.isPrefixOf rest then .ok (cursor + Utf8.byteLen part.toList)
      else .error .mismatch
    else
      match Utf8.find part.toList rest with
      | some found => .ok (cursor + (found + Utf8.byteLen part.toList))
      | none => .error .mismatch

/-- The loop over the parts; only the first turn can be anchored. -/
def scanCursor (text : String) : Bool → List String → Nat → Except ScanStop Nat
  | _, [], cursor => .ok cursor
  | anchored, part :: parts, cursor =>
    match scanPart text anchored part cursor with
    | .ok cursor => scanCursor text false parts cursor
    | .error stop => .error stop

/-- `matches_single_pattern` with its byte offsets. -/
def matchesSinglePatternSliced (text pattern : String) : Option Bool :=
  if pattern = "" then some (decide (text = ""))
  else if pattern = "*" then some true
  else if !Text.contains pattern "*" then some (decide (text = pattern))
  else
    let anchoredStart := !Text.startsWith pattern "*"
    let anchoredEnd := !Text.endsWith pattern "*"
    let parts := (Text.split pattern "*").filter (fun p => decide (p ≠ ""))
    if parts.isEmpty then some true
    else
      match scanCursor text anchoredStart parts 0 with
      | .error .badSlice => none
      | .error .mismatch => some false
      | .ok _ =>
        some (if anchoredEnd then parts.getLast?.all (fun last => Text.endsWith text last)
          else true)

/-- The loop over the alternatives stops at the first one that matches. -/
def anySliced (text : String) : List String → Option Bool
  | [] => some false
  | p :: alternatives =>
    match matchesSinglePatternSliced text (Text.trim p) with
    | none => none
    | some true => some true
    | some false => anySliced text alternatives

/-- `matches_pattern` with its byte offsets. -/
def matchesPatternSliced (text pattern : String) : Option Bool :=
  anySliced text (Text.split pattern "|")

section Cursor

variable {text : String}

theorem scanPart_search {front rest : List Char} (htext : text.toList = front ++ rest)
    (part : String) :
    scanPart text false part (Utf8.byteLen front) =
      match Split.breakOn part.toList rest with
      | some (before, _) => .ok (Utf8.byteLen (front ++ before ++ part.toList))
      | none => .error .mismatch := by
  unfold scanPart
  rw [htext, Utf8.sliceFrom_byteLen]
  cases hfound : Split.breakOn part.toList rest with
  | none =>
    simp [Utf8.find, hfound]
  | some found =>
    simp [Utf8.find, hfound]

/-- The loop never loses the cursor, and ends as the scan of the rest does. -/
theorem scanCursor_search {parts : List String} (hparts : ∀ p ∈ parts, p ≠ "")
    {front rest : List Char} (htext : text.toList = front ++ rest) :
    (findParts parts rest = true ∧
        ∃ cursor, scanCursor text false parts (Utf8.byteLen front) = .ok cursor) ∨
      (findParts parts rest = false ∧
        scanCursor text false parts (Utf8.byteLen front) = .error .mismatch) := by
  induction parts generalizing front rest with
  | nil =>
    exact Or.inl ⟨rfl, _, rfl⟩
  | cons part parts ih =>
    have hpart : part.toList ≠ [] := by
      simpa using hparts part List.mem_cons_self
    have hturn := scanPart_search htext part
    cases hfound : Split.breakOn part.toList rest with
    | none =>
      rw [hfound] at hturn
      exact Or.inr ⟨by simp [findParts, hfound], by simp [scanCursor, hturn]⟩
    | some found =>
      obtain ⟨before, rest'⟩ := found
      rw [hfound] at hturn
      obtain ⟨hsplit, _⟩ := (Split.breakOn_eq_some_iff hpart).mp hfound
      have htext' : text.toList = (front ++ before ++ part.toList) ++ rest' := by
        simp [htext, hsplit]
      have hrest := ih (fun p hp => hparts p (List.mem_cons_of_mem _ hp)) htext'
      simpa only [findParts, hfound, scanCursor, hturn] using hrest

/-- **The cursor stands for the rest of the text.** -/
theorem scanCursor_eq (text : String) {parts : List String} (hparts : ∀ p ∈ parts, p ≠ "")
    (anchored : Bool) :
    (scanParts anchored parts text.toList = true ∧
        ∃ cursor, scanCursor text anchored parts 0 = .ok cursor) ∨
      (scanParts anchored parts text.toList = false ∧
        scanCursor text anchored parts 0 = .error .mismatch) := by
  cases parts with
  | nil =>
    exact Or.inl ⟨rfl, _, rfl⟩
  | cons part parts =>
    cases anchored with
    | false =>
      exact scanCursor_search hparts (List.nil_append _).symm
    | true =>
      by_cases hleads : part.toList.isPrefixOf text.toList = true
      · obtain ⟨rest, hrest⟩ := List.isPrefixOf_iff_prefix.mp hleads
        have hturn : scanPart text true part 0 = .ok (Utf8.byteLen part.toList) := by
          simp [scanPart, Utf8.sliceFrom, hleads]
        have hloop := scanCursor_search (fun p hp => hparts p (List.mem_cons_of_mem _ hp))
          hrest.symm
        have hdrop : text.toList.drop part.toList.length = rest := by
          rw [← hrest, List.drop_left]
        simpa only [scanParts, if_true, if_pos hleads, hdrop, scanCursor, hturn] using hloop
      · have hturn : scanPart text true part 0 = .error .mismatch := by
          simp [scanPart, Utf8.sliceFrom, hleads]
        exact Or.inr ⟨by simp [scanParts, hleads], by simp [scanCursor, hturn]⟩

theorem matchesSinglePatternSliced_eq (text pattern : String) :
    matchesSinglePatternSliced text pattern = some (matchesSinglePattern text pattern) := by
  have hparts : ∀ p ∈ (Text.split pattern "*").filter (fun p => decide (p ≠ "")), p ≠ "" := by
    intro p hp
    simpa using (List.mem_filter.mp hp).2
  have hscan := scanCursor_eq text hparts (!Text.startsWith pattern "*")
  unfold matchesSinglePatternSliced matchesSinglePattern
  split_ifs with hempty hstar hplain
  · rfl
  · rfl
  · rfl
  · dsimp only
    by_cases hnone : ((Text.split pattern "*").filter fun p => decide (p ≠ "")).isEmpty = true
    · rw [if_pos hnone, if_pos hnone]
    · rw [if_neg hnone, if_neg hnone]
      rcases hscan with ⟨hfound, cursor, hcursor⟩ | ⟨hfound, hcursor⟩
      · rw [hcursor, if_pos hfound]
      · rw [hcursor, hfound]
        rfl

theorem anySliced_eq (text : String) (alternatives : List String) :
    anySliced text alternatives =
      some (alternatives.any fun p => matchesSinglePattern text (Text.trim p)) := by
  induction alternatives with
  | nil =>
    rfl
  | cons p alternatives ih =>
    rw [anySliced, matchesSinglePatternSliced_eq, List.any_cons]
    cases matchesSinglePattern text (Text.trim p) with
    | true => rfl
    | false => exact ih

/-- **The offsets of the scan are good**, and it decides the same. -/
theorem matchesPatternSliced_eq (text pattern : String) :
    matchesPatternSliced text pattern = some (matchesPattern text pattern) := by
  exact anySliced_eq text _

end Cursor

section Meaning

/-- **The greedy scan** finds the parts if they occur in order at all. -/
theorem findParts_iff {parts : List String} (hparts : ∀ p ∈ parts, p ≠ "") (text : List Char) :
    findParts parts text = true ↔ Glob.Occur (parts.map String.toList) text := by
  induction parts generalizing text with
  | nil =>
    simp [findParts, Glob.Occur]
  | cons part parts ih =>
    have hpart : part.toList ≠ [] := by
      simpa using hparts part List.mem_cons_self
    have ih := ih fun p hp => hparts p (List.mem_cons_of_mem _ hp)
    rw [List.map_cons]
    cases hfound : Split.breakOn part.toList text with
    | none =>
      simp [findParts, hfound, Glob.not_occur_of_breakOn hpart hfound]
    | some found =>
      obtain ⟨before, rest⟩ := found
      rw [Glob.occur_cons_iff_of_breakOn hpart hfound, ← ih rest]
      simp [findParts, hfound]

theorem map_toList_parts (pattern : String) :
    ((Text.split pattern "*").filter fun p => decide (p ≠ "")).map String.toList =
      (Split.pieces ['*'] 0 pattern.toList).filter fun p => decide (p ≠ []) := by
  have hpieces := Text.map_toList_split pattern "*"
  have hstar : "*".toList = ['*'] := by
    decide
  rw [hstar] at hpieces
  rw [← hpieces, List.filter_map]
  congr 1
  refine List.filter_congr ?_
  intro p _
  simp

variable {pattern : String} {first : List Char} {others : List (List Char)}

/-- The scan over the parts, with the first one at the beginning of the text. -/
theorem scanParts_iff (hpieces : Split.pieces ['*'] 0 pattern.toList = first :: others)
    (text : List Char) :
    scanParts (decide (first ≠ [])) ((Text.split pattern "*").filter fun p => decide (p ≠ ""))
        text = true ↔
      ∃ rest, text = first ++ rest ∧ Glob.Occur others rest := by
  have hmap := map_toList_parts pattern
  rw [hpieces] at hmap
  have hnonempty : ∀ p ∈ (Text.split pattern "*").filter fun p => decide (p ≠ ""), p ≠ "" := by
    intro p hp
    simpa using (List.mem_filter.mp hp).2
  generalize (Text.split pattern "*").filter (fun p => decide (p ≠ "")) = parts
    at hmap hnonempty ⊢
  by_cases hfirst : first = []
  · subst hfirst
    rw [List.filter_cons_of_neg (by simp)] at hmap
    have hscan : scanParts (decide (([] : List Char) ≠ [])) parts text = findParts parts text := by
      cases parts <;> rfl
    rw [hscan, findParts_iff hnonempty, hmap, Glob.occur_filter_iff]
    simp
  · rw [List.filter_cons_of_pos (by simpa using hfirst)] at hmap
    cases parts with
    | nil =>
      simp at hmap
    | cons part parts =>
      obtain ⟨hpart, hrest⟩ := List.cons.inj hmap
      have hothers : ∀ rest, findParts parts rest = true ↔ Glob.Occur others rest := by
        intro rest
        rw [findParts_iff fun p hp => hnonempty p (List.mem_cons_of_mem _ hp), hrest,
          Glob.occur_filter_iff]
      have hanchored : decide (first ≠ []) = true := by
        simpa using hfirst
      rw [hanchored, scanParts, if_pos rfl, hpart]
      constructor
      · intro h
        split_ifs at h with hleads
        obtain ⟨rest, rfl⟩ := List.isPrefixOf_iff_prefix.mp hleads
        rw [List.drop_left] at h
        exact ⟨rest, rfl, (hothers rest).mp h⟩
      · rintro ⟨rest, rfl, hoccur⟩
        rw [if_pos (List.isPrefixOf_iff_prefix.mpr (List.prefix_append _ _)), List.drop_left]
        exact (hothers rest).mpr hoccur

/-- The test behind the loop: the text ends with the last piece, unless that is
empty. -/
theorem last_parts {init : List (List Char)} {last : List Char}
    (hpieces : Split.pieces ['*'] 0 pattern.toList = first :: (init ++ [last]))
    (hlast : last ≠ []) (text : String) :
    (((Text.split pattern "*").filter fun p => decide (p ≠ "")).getLast?.all
        fun last => Text.endsWith text last) = true ↔ last <:+ text.toList := by
  have hmap := map_toList_parts pattern
  rw [hpieces] at hmap
  have hend : (((Text.split pattern "*").filter fun p => decide (p ≠ "")).map
      String.toList).getLast? = some last := by
    have hkept : [last].filter (fun p => decide (p ≠ [])) = [last] :=
      List.filter_cons_of_pos (by simpa using hlast)
    rw [hmap, ← List.cons_append, List.filter_append, hkept, List.getLast?_concat]
  rw [List.getLast?_map] at hend
  obtain ⟨part, hpart, rfl⟩ := Option.map_eq_some_iff.mp hend
  rw [hpart]
  simp [Text.endsWith]

/-- **A pattern with stars** matches as its meaning says. -/
theorem starred_iff (hpieces : Split.pieces ['*'] 0 pattern.toList = first :: others)
    (hjoin : pattern.toList = Glob.join '*' first others) (hfirst : '*' ∉ first)
    (hothers : ∀ p ∈ others, '*' ∉ p) (hstar : others ≠ []) (text : String) :
    (scanParts (!Text.startsWith pattern "*")
          ((Text.split pattern "*").filter fun p => decide (p ≠ "")) text.toList = true ∧
        ((!Text.endsWith pattern "*") = true →
          (((Text.split pattern "*").filter fun p => decide (p ≠ "")).getLast?.all
            fun last => Text.endsWith text last) = true)) ↔
      Glob.Matches '*' pattern.toList text.toList := by
  have hstarList : "*".toList = ['*'] := by
    decide
  have hstart : (!Text.startsWith pattern "*") = decide (first ≠ []) := by
    have h := Glob.star_leads_join_iff hfirst hstar
    rw [← hjoin, ← hstarList, ← Text.startsWith_iff] at h
    rw [Bool.eq_iff_iff, Bool.not_eq_true', ← Bool.not_eq_true, h, decide_eq_true_eq]
  obtain ⟨init, last, rfl⟩ := (List.eq_nil_or_concat' others).resolve_left hstar
  have hend : (!Text.endsWith pattern "*") = true ↔ last ≠ [] := by
    have h : ['*'] <:+ pattern.toList ↔ last = [] := by
      rw [hjoin]
      exact Glob.star_ends_join_iff (hothers last (by simp))
    rw [Bool.not_eq_true', ← Bool.not_eq_true, Text.endsWith, hstarList,
      List.isSuffixOf_iff_suffix, h]
  rw [hstart, scanParts_iff hpieces, hend, hjoin, Glob.matches_join_iff hfirst hothers]
  by_cases hlast : last = []
  · subst hlast
    simp [Glob.follow_concat_nil_iff, Glob.occur_concat_nil_iff]
  · simp only [last_parts hpieces hlast, Glob.follow_concat_iff]
    constructor
    · rintro ⟨⟨rest, htext, hoccur⟩, hsuffix⟩
      refine ⟨rest, htext, hoccur, ?_⟩
      rw [htext] at hsuffix
      exact Glob.suffix_of_suffix_append (hsuffix hlast) hoccur.length_last_le
    · rintro ⟨rest, htext, hoccur, hsuffix⟩
      refine ⟨⟨rest, htext, hoccur⟩, ?_⟩
      intro _
      rw [htext]
      exact hsuffix.trans (List.suffix_append _ _)

theorem starred_answer (anchoredStart anchoredEnd : Bool) (parts : List String) (text : String) :
    (if parts.isEmpty then true
      else if scanParts anchoredStart parts text.toList then
        if anchoredEnd then parts.getLast?.all (fun last => Text.endsWith text last) else true
      else false) = true ↔
      scanParts anchoredStart parts text.toList = true ∧
        (anchoredEnd = true → parts.getLast?.all (fun last => Text.endsWith text last) = true) := by
  cases parts with
  | nil =>
    simp [scanParts]
  | cons part parts =>
    cases scanParts anchoredStart (part :: parts) text.toList <;>
      cases anchoredEnd <;> simp

/-- **One alternative.** -/
theorem matchesSinglePattern_iff (text pattern : String) :
    matchesSinglePattern text pattern = true ↔
      Glob.Matches '*' pattern.toList text.toList := by
  have hstarList : "*".toList = ['*'] := by
    decide
  have hcontains : Text.contains pattern "*" = decide ('*' ∈ pattern.toList) := by
    simp [Text.contains, hstarList, List.singleton_infix_iff]
  unfold matchesSinglePattern
  by_cases hempty : pattern = ""
  · subst hempty
    simp [Glob.matches_nil_iff]
  by_cases hopen : pattern = "*"
  · subst hopen
    rw [if_neg (by decide), if_pos rfl, hstarList, Glob.matches_star_iff]
    simp only [true_iff]
    exact ⟨text.toList, [], by simp, .nil⟩
  rw [if_neg hempty, if_neg hopen, hcontains]
  by_cases hstar : '*' ∈ pattern.toList
  · obtain ⟨first, others, hpieces, hjoin, hfirst, hothers⟩ :=
      Glob.exists_join_pieces '*' pattern.toList
    have hsome : others ≠ [] := by
      rintro rfl
      rw [hjoin] at hstar
      simp [Glob.join, hfirst] at hstar
    rw [← starred_iff hpieces hjoin hfirst hothers hsome, if_neg (by simpa using hstar)]
    exact starred_answer _ _ _ _
  · have hown : Glob.Matches '*' (pattern.toList ++ []) text.toList ↔
        ∃ rest, text.toList = pattern.toList ++ rest ∧ Glob.Matches '*' [] rest :=
      Glob.matches_append_iff hstar
    rw [List.append_nil] at hown
    rw [if_pos (by simpa using hstar), hown]
    simp [Glob.matches_nil_iff, String.toList_inj]

end Meaning

/-- **Pattern matching is glob matching.**  For every text and every pattern the
scan asks for no slice that does not exist, and it answers whether one of the
alternatives, trimmed, matches the whole text. -/
theorem matchesPattern_glob (text pattern : String) :
    ∃ answer, matchesPatternSliced text pattern = some answer ∧
      (answer = true ↔
        ∃ p ∈ Text.split pattern "|",
          Glob.Matches '*' (Text.trim p).toList text.toList) := by
  refine ⟨_, matchesPatternSliced_eq text pattern, ?_⟩
  simp only [matchesPattern, List.any_eq_true, matchesSinglePattern_iff]

-- The part that is searched for is three bytes long, and so is the character before it.
example : matchesPatternSliced "节点-0" "gpu-* | *点*0" = some true := by
  decide

end RuleMatcher

end ArkInfra
