import ArkInfra.Lib.Split
import Mathlib.Data.List.Infix

/-!
# Wildcard patterns

A pattern is a list of characters in which one of them, the star, stands for any
string and every other one for itself (`Matches`).

A pattern is cut at its stars into pieces.  The text has to begin with the first
piece, the others have to follow one after the other with arbitrary gaps, and
the last one has to end the text (`matches_cut`).  The gaps may be chosen
greedily: the first occurrence of a piece leaves the longest rest, and a longer
rest is never worse (`Occur.prepend`).  The last piece needs no gap of its own:
if the pieces occur in order and the text ends with the last one, the text ends
with it behind the others (`follow_concat_iff`).
-/

namespace ArkInfra

namespace Glob

variable {α : Type}

inductive Matches (star : α) : List α → List α → Prop
  | nil : Matches star [] []
  | skip {pattern text : List α} (skipped : List α) (h : Matches star pattern text) :
      Matches star (star :: pattern) (skipped ++ text)
  | char {pattern text : List α} {c : α} (hc : c ≠ star) (h : Matches star pattern text) :
      Matches star (c :: pattern) (c :: text)

/-- A pattern with the first piece `first` and the others behind a star each. -/
def join (star : α) (first : List α) (others : List (List α)) : List α :=
  first ++ others.flatMap (star :: ·)

/-- The pieces occur in order, without overlaps, and the last one ends the
text. -/
def Follow : List (List α) → List α → Prop
  | [], text => text = []
  | piece :: pieces, text =>
    ∃ skipped rest, text = skipped ++ piece ++ rest ∧ Follow pieces rest

/-- The pieces occur in order and without overlaps. -/
def Occur : List (List α) → List α → Prop
  | [], _ => True
  | piece :: pieces, text =>
    ∃ skipped rest, text = skipped ++ piece ++ rest ∧ Occur pieces rest

theorem suffix_of_suffix_append {last front rest : List α} (h : last <:+ front ++ rest)
    (hlength : last.length ≤ rest.length) : last <:+ rest := by
  exact List.suffix_of_suffix_length_le h (List.suffix_append front rest) hlength

section Semantics

variable {star : α}

theorem matches_nil_iff {text : List α} : Matches star [] text ↔ text = [] := by
  constructor
  · rintro ⟨⟩
    rfl
  · rintro rfl
    exact .nil

theorem matches_star_iff {pattern text : List α} :
    Matches star (star :: pattern) text ↔
      ∃ skipped rest, text = skipped ++ rest ∧ Matches star pattern rest := by
  constructor
  · intro h
    cases h with
    | skip skipped h => exact ⟨skipped, _, rfl, h⟩
    | char hc _ => exact absurd rfl hc
  · rintro ⟨skipped, rest, rfl, h⟩
    exact .skip skipped h

theorem matches_append_iff {piece : List α} (hpiece : star ∉ piece) {pattern text : List α} :
    Matches star (piece ++ pattern) text ↔
      ∃ rest, text = piece ++ rest ∧ Matches star pattern rest := by
  induction piece generalizing text with
  | nil =>
    simp
  | cons c piece ih =>
    obtain ⟨hc, hpiece⟩ := not_or.mp (mt List.mem_cons.mpr hpiece)
    constructor
    · intro h
      cases h with
      | skip skipped h => exact absurd rfl hc
      | char _ h =>
        obtain ⟨rest, rfl, hrest⟩ := (ih hpiece).mp h
        exact ⟨rest, rfl, hrest⟩
    · rintro ⟨rest, rfl, hrest⟩
      exact .char (Ne.symm hc) ((ih hpiece).mpr ⟨rest, rfl, hrest⟩)

theorem matches_flatMap_iff {pieces : List (List α)} (hfree : ∀ p ∈ pieces, star ∉ p)
    {text : List α} : Matches star (pieces.flatMap (star :: ·)) text ↔ Follow pieces text := by
  induction pieces generalizing text with
  | nil =>
    exact matches_nil_iff
  | cons piece pieces ih =>
    have hpiece : star ∉ piece := hfree piece List.mem_cons_self
    have ih : ∀ text, Matches star (pieces.flatMap (star :: ·)) text ↔ Follow pieces text :=
      fun _ => ih fun p hp => hfree p (List.mem_cons_of_mem _ hp)
    rw [List.flatMap_cons, List.cons_append, matches_star_iff]
    constructor
    · rintro ⟨skipped, rest, rfl, h⟩
      obtain ⟨rest, rfl, hrest⟩ := (matches_append_iff hpiece).mp h
      exact ⟨skipped, rest, by simp, (ih rest).mp hrest⟩
    · rintro ⟨skipped, rest, rfl, hrest⟩
      refine ⟨skipped, piece ++ rest, by simp, ?_⟩
      exact (matches_append_iff hpiece).mpr ⟨rest, rfl, (ih rest).mpr hrest⟩

/-- **A pattern that is cut at its stars.** -/
theorem matches_join_iff {first : List α} {others : List (List α)} (hfirst : star ∉ first)
    (hothers : ∀ p ∈ others, star ∉ p) {text : List α} :
    Matches star (join star first others) text ↔
      ∃ rest, text = first ++ rest ∧ Follow others rest := by
  rw [join, matches_append_iff hfirst]
  simp only [matches_flatMap_iff hothers]

theorem star_leads_join_iff {first : List α} {others : List (List α)} (hfirst : star ∉ first)
    (hothers : others ≠ []) : [star] <+: join star first others ↔ first = [] := by
  obtain ⟨piece, pieces, rfl⟩ := List.exists_cons_of_ne_nil hothers
  cases first with
  | nil =>
    simp [join]
  | cons c first =>
    have hc : star ≠ c := by
      rintro rfl
      exact hfirst List.mem_cons_self
    simp [join, hc]

theorem star_ends_join_iff {first last : List α} {others : List (List α)} (hlast : star ∉ last) :
    [star] <:+ join star first (others ++ [last]) ↔ last = [] := by
  have hjoin : join star first (others ++ [last]) =
      join star first others ++ star :: last := by
    simp [join]
  rw [hjoin]
  constructor
  · intro h
    rcases List.eq_nil_or_concat' last with rfl | ⟨front, c, rfl⟩
    · rfl
    · have hc : star = c := by
        have hend : [star] <:+ (join star first others ++ star :: front) ++ [c] := by
          simpa using h
        have hone := suffix_of_suffix_append hend (by simp)
        simpa using hone.eq_of_length rfl
      exact absurd (by simp [hc]) hlast
  · rintro rfl
    exact List.suffix_append _ _

end Semantics

section Pieces

theorem Occur.prepend {pieces : List (List α)} {text : List α} (h : Occur pieces text)
    (front : List α) : Occur pieces (front ++ text) := by
  cases pieces with
  | nil =>
    trivial
  | cons piece pieces =>
    obtain ⟨skipped, rest, rfl, hrest⟩ := h
    exact ⟨front ++ skipped, rest, by simp, hrest⟩

theorem occur_nil_cons_iff {pieces : List (List α)} {text : List α} :
    Occur ([] :: pieces) text ↔ Occur pieces text := by
  constructor
  · rintro ⟨skipped, rest, rfl, hrest⟩
    rw [List.append_nil]
    exact hrest.prepend skipped
  · intro h
    exact ⟨[], text, rfl, h⟩

theorem Occur.cons_congr {pieces pieces' : List (List α)}
    (h : ∀ text, Occur pieces text ↔ Occur pieces' text) (piece : List α) (text : List α) :
    Occur (piece :: pieces) text ↔ Occur (piece :: pieces') text := by
  simp only [Occur, h]

theorem occur_filter_iff [DecidableEq α] (pieces : List (List α)) (text : List α) :
    Occur (pieces.filter fun p => decide (p ≠ [])) text ↔ Occur pieces text := by
  induction pieces generalizing text with
  | nil =>
    rfl
  | cons piece pieces ih =>
    by_cases hpiece : piece = []
    · subst hpiece
      rw [List.filter_cons_of_neg (by simp), occur_nil_cons_iff]
      exact ih text
    · rw [List.filter_cons_of_pos (by simpa using hpiece)]
      exact Occur.cons_congr ih piece text

theorem occur_concat_nil_iff [DecidableEq α] {pieces : List (List α)} {text : List α} :
    Occur (pieces ++ [[]]) text ↔ Occur pieces text := by
  rw [← occur_filter_iff (pieces ++ [[]]), ← occur_filter_iff pieces]
  simp

theorem follow_concat_nil_iff {pieces : List (List α)} {text : List α} :
    Follow (pieces ++ [[]]) text ↔ Occur pieces text := by
  induction pieces generalizing text with
  | nil =>
    constructor
    · intro _
      trivial
    · intro _
      exact ⟨text, [], by simp, rfl⟩
  | cons piece pieces ih =>
    simp only [List.cons_append, Follow, Occur, ih]

theorem Occur.length_last_le {pieces : List (List α)} {last text : List α}
    (h : Occur (pieces ++ [last]) text) : last.length ≤ text.length := by
  induction pieces generalizing text with
  | nil =>
    obtain ⟨skipped, rest, rfl, _⟩ := h
    simp only [List.length_append]
    omega
  | cons piece pieces ih =>
    obtain ⟨skipped, rest, rfl, hrest⟩ := h
    have := ih hrest
    simp only [List.length_append]
    omega

/-- **The last piece.**  That the text ends with it need not be tied to where it
was found. -/
theorem follow_concat_iff {pieces : List (List α)} {last text : List α} :
    Follow (pieces ++ [last]) text ↔ Occur (pieces ++ [last]) text ∧ last <:+ text := by
  induction pieces generalizing text with
  | nil =>
    constructor
    · rintro ⟨skipped, rest, rfl, rfl⟩
      exact ⟨⟨skipped, [], rfl, trivial⟩, by simp⟩
    · rintro ⟨_, skipped, rfl⟩
      exact ⟨skipped, [], by simp, rfl⟩
  | cons piece pieces ih =>
    constructor
    · rintro ⟨skipped, rest, rfl, hrest⟩
      obtain ⟨hoccur, hlast⟩ := ih.mp hrest
      exact ⟨⟨skipped, rest, rfl, hoccur⟩, hlast.trans (List.suffix_append _ _)⟩
    · rintro ⟨⟨skipped, rest, rfl, hoccur⟩, hlast⟩
      refine ⟨skipped, rest, rfl, ih.mpr ⟨hoccur, ?_⟩⟩
      exact suffix_of_suffix_append hlast hoccur.length_last_le

end Pieces

section Cuts

variable [DecidableEq α]

theorem occur_cons_iff_of_breakOn {piece : List α} (hpiece : piece ≠ [])
    {pieces : List (List α)} {text before rest : List α}
    (hfirst : Split.breakOn piece text = some (before, rest)) :
    Occur (piece :: pieces) text ↔ Occur pieces rest := by
  obtain ⟨rfl, hearly⟩ := (Split.breakOn_eq_some_iff hpiece).mp hfirst
  constructor
  · rintro ⟨skipped, rest', hsplit, hrest⟩
    -- the first occurrence begins no later than this one
    have hle : before.length ≤ skipped.length := by
      by_contra hlt
      apply hearly
      have hthere : skipped ++ piece <+: before ++ piece ++ rest := ⟨rest', hsplit.symm⟩
      have hfront : skipped ++ piece <+: before ++ piece.dropLast := by
        refine List.prefix_of_prefix_length_le hthere
          (Split.append_dropLast_leads piece before rest) ?_
        simp only [List.length_append, List.length_dropLast]
        omega
      exact (List.suffix_append skipped piece).isInfix.trans hfront.isInfix
    have hend : rest' <:+ before ++ piece ++ rest := ⟨skipped ++ piece, hsplit.symm⟩
    have htail : rest' <:+ rest := by
      refine suffix_of_suffix_append hend ?_
      have hlength := congrArg List.length hsplit
      simp only [List.length_append] at hlength
      omega
    obtain ⟨front, rfl⟩ := htail
    exact hrest.prepend front
  · intro hrest
    exact ⟨before, rest, rfl, hrest⟩

theorem not_occur_of_breakOn {piece : List α} (hpiece : piece ≠ []) {pieces : List (List α)}
    {text : List α} (hnone : Split.breakOn piece text = none) : ¬ Occur (piece :: pieces) text := by
  rintro ⟨skipped, rest, rfl, _⟩
  exact (Split.breakOn_eq_none_iff hpiece).mp hnone ⟨skipped, rest, rfl⟩

theorem exists_join_pieces (star : α) (pattern : List α) :
    ∃ first others, Split.pieces [star] 0 pattern = first :: others ∧
      pattern = join star first others ∧ star ∉ first ∧ ∀ p ∈ others, star ∉ p := by
  induction pattern with
  | nil =>
    exact ⟨[], [], rfl, rfl, by simp, by simp⟩
  | cons c pattern ih =>
    obtain ⟨first, others, hpieces, hjoin, hfirst, hothers⟩ := ih
    by_cases hc : c = star
    · subst hc
      refine ⟨[], first :: others, ?_, ?_, by simp, ?_⟩
      · simp [Split.pieces, hpieces]
      · simp [hjoin, join]
      · intro p hp
        rcases List.mem_cons.mp hp with rfl | hp
        · exact hfirst
        · exact hothers p hp
    · refine ⟨c :: first, others, ?_, ?_, ?_, hothers⟩
      · simp [Split.pieces, hpieces, Ne.symm hc]
      · simp [hjoin, join]
      · simp [hfirst, Ne.symm hc]

end Cuts

end Glob

end ArkInfra
