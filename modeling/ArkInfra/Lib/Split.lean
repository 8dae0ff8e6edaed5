import Mathlib.Data.List.Infix
import Mathlib.Tactic.SplitIfs

/-!
# Splitting at a separator

`pieces` cuts a list at every occurrence of a separator, from left to right and
without overlaps.  `breakOn` finds the first occurrence, and `pieces_eq` says
that cutting is breaking again and again.  `breakOn_eq_some_iff` describes the
first occurrence without reference to the scan: the separator does not occur in
the first part, even if all but the last element of the separator is appended
to it.  `exists_of_pieces` and `pieces_of_first` read off the first two pieces.

`words` cuts at every element that separates and leaves out the empty pieces.
The last section is about separators that are one element twice: where parts
without the element are joined by it, it is never doubled.
-/

namespace ArkInfra

namespace Split

variable {α : Type}

theorem append_dropLast_leads (sep a b : List α) : a ++ sep.dropLast <+: a ++ sep ++ b := by
  have hshorter : a ++ sep.dropLast <+: a ++ sep :=
    (List.prefix_append_right_inj a).mpr (List.dropLast_prefix sep)
  exact hshorter.trans (List.prefix_append _ _)

theorem eq_nil_of_leading {sep a b : List α} (hleading : sep <+: a ++ sep ++ b)
    (hfirst : ¬ sep <:+: a ++ sep.dropLast) : a = [] := by
  by_contra ha
  have hlength : sep.length ≤ (a ++ sep.dropLast).length := by
    have hpos : 0 < a.length := List.length_pos_iff.mpr ha
    simp only [List.length_append, List.length_dropLast]
    omega
  have hwithin := List.prefix_of_prefix_length_le hleading (append_dropLast_leads sep a b) hlength
  exact hfirst hwithin.isInfix

theorem not_infix_dropLast {sep : List α} (hsep : sep ≠ []) : ¬ sep <:+: sep.dropLast := by
  intro hoccurs
  have hpos : 0 < sep.length := List.length_pos_iff.mpr hsep
  have hlength := hoccurs.length_le
  simp only [List.length_dropLast] at hlength
  omega

theorem leads_of_leads_append_cons {sep a b : List α} {c : α} (hc : c ∉ sep)
    (h : sep <+: a ++ c :: b) : sep <+: a := by
  by_cases hshort : sep.length ≤ a.length
  · exact List.prefix_of_prefix_length_le h (List.prefix_append a _) hshort
  · have hlong : (a ++ [c]).length ≤ sep.length := by
      simp only [List.length_append, List.length_singleton]
      omega
    have hwithin : a ++ [c] <+: sep :=
      List.prefix_of_prefix_length_le ⟨b, by simp⟩ h hlong
    exact absurd (hwithin.subset (by simp)) hc

/-- **An element that the separator lacks divides its occurrences.** -/
theorem occurs_append_cons_iff {sep a b : List α} {c : α} (hc : c ∉ sep) :
    sep <:+: a ++ c :: b ↔ sep <:+: a ∨ sep <:+: b := by
  constructor
  · intro h
    induction a with
    | nil =>
      rw [List.nil_append, List.infix_cons_iff] at h
      rcases h with hleading | hoccurs
      · exact Or.inl (leads_of_leads_append_cons (a := []) hc hleading).isInfix
      · exact Or.inr hoccurs
    | cons d a ih =>
      rw [List.cons_append, List.infix_cons_iff] at h
      rcases h with hleading | hoccurs
      · exact Or.inl (leads_of_leads_append_cons (a := d :: a) hc hleading).isInfix
      · exact (ih hoccurs).imp_left fun ha => ha.trans (List.suffix_cons d a).isInfix
  · rintro (ha | hb)
    · exact ha.trans (List.prefix_append a _).isInfix
    · exact hb.trans ⟨a ++ [c], [], by simp⟩

theorem not_occurs_append {sep a b : List α} (hsep : sep ≠ []) (ha : ∀ c ∈ a, c ∉ sep)
    (hb : ¬ sep <:+: b) : ¬ sep <:+: a ++ b := by
  induction a with
  | nil =>
    exact hb
  | cons c a ih =>
    intro hoccurs
    have hfirst := ha c List.mem_cons_self
    rcases (occurs_append_cons_iff (a := []) hfirst).mp hoccurs with hnil | hrest
    · exact hsep (List.infix_nil.mp hnil)
    · exact ih (fun d hd => ha d (List.mem_cons_of_mem c hd)) hrest

variable [DecidableEq α]

/-- What comes before and after the first occurrence of the separator. -/
def breakOn (sep : List α) : List α → Option (List α × List α)
  | [] => none
  | c :: cs =>
    if sep <+: c :: cs then
      some ([], (c :: cs).drop sep.length)
    else
      (breakOn sep cs).map (fun x => (c :: x.1, x.2))

/-- The pieces between the separators, after `skip` elements that belong to a
separator. -/
def pieces (sep : List α) : Nat → List α → List (List α)
  | _, [] => [[]]
  | skip + 1, _ :: cs => pieces sep skip cs
  | 0, c :: cs =>
    if sep <+: c :: cs then
      [] :: pieces sep (sep.length - 1) cs
    else
      (pieces sep 0 cs).modifyHead (c :: ·)

theorem pieces_skip (sep : List α) (skip : Nat) (cs : List α) :
    pieces sep skip cs = pieces sep 0 (cs.drop skip) := by
  induction skip generalizing cs with
  | zero =>
    rfl
  | succ skip ih =>
    cases cs with
    | nil =>
      rfl
    | cons c cs =>
      exact ih cs

/-- **Cutting is breaking at the first separator and cutting the rest.** -/
theorem pieces_eq {sep : List α} (hsep : sep ≠ []) (cs : List α) :
    pieces sep 0 cs =
      match breakOn sep cs with
      | none => [cs]
      | some (a, b) => a :: pieces sep 0 b := by
  induction cs with
  | nil =>
    rfl
  | cons c cs ih =>
    by_cases hfront : sep <+: c :: cs
    · obtain ⟨n, hn⟩ : ∃ n, sep.length = n + 1 :=
        Nat.exists_eq_succ_of_ne_zero (by simpa using hsep)
      simp [pieces, breakOn, hfront, hn, pieces_skip sep n cs]
    · simp only [pieces, breakOn, if_neg hfront, ih]
      cases breakOn sep cs <;> simp

theorem breakOn_eq_none_iff {sep : List α} (hsep : sep ≠ []) {cs : List α} :
    breakOn sep cs = none ↔ ¬ sep <:+: cs := by
  induction cs with
  | nil =>
    simp [breakOn, hsep]
  | cons c cs ih =>
    by_cases hfront : sep <+: c :: cs
    · simp [breakOn, hfront, hfront.isInfix]
    · simp [breakOn, hfront, ih, List.infix_cons_iff]

/-- **The first occurrence of the separator.** -/
theorem breakOn_eq_some_iff {sep : List α} (hsep : sep ≠ []) {cs a b : List α} :
    breakOn sep cs = some (a, b) ↔ cs = a ++ sep ++ b ∧ ¬ sep <:+: a ++ sep.dropLast := by
  induction cs generalizing a with
  | nil =>
    simp [breakOn, hsep]
  | cons c cs ih =>
    by_cases hfront : sep <+: c :: cs
    · obtain ⟨rest, hrest⟩ := hfront
      have hbreak : breakOn sep (c :: cs) = some ([], rest) := by
        simp [breakOn, ← hrest]
      rw [hbreak]
      constructor
      · rintro ⟨rfl, rfl⟩
        exact ⟨by simpa using hrest.symm, not_infix_dropLast hsep⟩
      · rintro ⟨hsplit, hfirst⟩
        obtain rfl := eq_nil_of_leading ⟨rest, hrest.trans hsplit⟩ hfirst
        have hsame : sep ++ rest = sep ++ b := by
          rw [hrest, hsplit]
          simp
        rw [List.append_cancel_left hsame]
    · rw [breakOn, if_neg hfront, Option.map_eq_some_iff]
      constructor
      · rintro ⟨⟨a', b'⟩, hfound, heq⟩
        obtain ⟨rfl, rfl⟩ := Prod.mk.inj heq
        obtain ⟨hsplit, hfirst⟩ := ih.mp hfound
        refine ⟨by simp [hsplit], ?_⟩
        rw [List.cons_append, List.infix_cons_iff]
        rintro (hleading | hoccurs)
        · apply hfront
          rw [hsplit]
          exact hleading.trans (append_dropLast_leads sep (c :: a') b')
        · exact hfirst hoccurs
      · rintro ⟨hsplit, hfirst⟩
        cases a with
        | nil =>
          exact absurd ⟨b, by simpa using hsplit.symm⟩ hfront
        | cons d a' =>
          obtain ⟨rfl, htail⟩ := List.cons.inj hsplit
          refine ⟨(a', b), ih.mpr ⟨by simpa using htail, ?_⟩, rfl⟩
          intro hoccurs
          apply hfirst
          rw [List.cons_append, List.infix_cons_iff]
          exact Or.inr hoccurs

/-- The first two pieces: the separator stands between them and after the
second one, unless the list ends there. -/
theorem exists_of_pieces {sep : List α} (hsep : sep ≠ []) {cs a b : List α}
    {tail : List (List α)} (h : pieces sep 0 cs = a :: b :: tail) :
    ¬ sep <:+: a ++ sep.dropLast ∧
      ∃ rest, cs = a ++ sep ++ b ++ rest ∧ (rest = [] ∨ sep <+: rest) := by
  rw [pieces_eq hsep] at h
  cases hfirst : breakOn sep cs with
  | none =>
    simp [hfirst] at h
  | some found =>
    obtain ⟨a', after⟩ := found
    rw [hfirst] at h
    obtain ⟨rfl, hafter⟩ := List.cons.inj h
    obtain ⟨hsplit, hearly⟩ := (breakOn_eq_some_iff hsep).mp hfirst
    refine ⟨hearly, ?_⟩
    rw [pieces_eq hsep] at hafter
    cases hsecond : breakOn sep after with
    | none =>
      rw [hsecond] at hafter
      obtain ⟨rfl, _⟩ := List.cons.inj hafter
      exact ⟨[], by simp [hsplit], Or.inl rfl⟩
    | some found =>
      obtain ⟨b', rest⟩ := found
      rw [hsecond] at hafter
      obtain ⟨rfl, _⟩ := List.cons.inj hafter
      obtain ⟨hsplit', _⟩ := (breakOn_eq_some_iff hsep).mp hsecond
      exact ⟨sep ++ rest, by simp [hsplit, hsplit'], Or.inr (List.prefix_append _ _)⟩

theorem pieces_of_first {sep : List α} (hsep : sep ≠ []) {a b rest : List α}
    (ha : ¬ sep <:+: a ++ sep.dropLast) (hb : ¬ sep <:+: b ++ sep.dropLast)
    (hrest : rest = [] ∨ sep <+: rest) :
    ∃ tail, pieces sep 0 (a ++ sep ++ b ++ rest) = a :: b :: tail := by
  have hfirst : breakOn sep (a ++ sep ++ b ++ rest) = some (a, b ++ rest) :=
    (breakOn_eq_some_iff hsep).mpr ⟨by simp, ha⟩
  rw [pieces_eq hsep, hfirst]
  dsimp only
  rw [pieces_eq hsep]
  rcases hrest with rfl | ⟨more, rfl⟩
  · have hlast : breakOn sep (b ++ []) = none := by
      rw [List.append_nil, breakOn_eq_none_iff hsep]
      intro hoccurs
      exact hb (hoccurs.trans (List.prefix_append _ _).isInfix)
    rw [hlast, List.append_nil]
    exact ⟨[], rfl⟩
  · have hnext : breakOn sep (b ++ (sep ++ more)) = some (b, more) :=
      (breakOn_eq_some_iff hsep).mpr ⟨by simp, hb⟩
    rw [hnext]
    exact ⟨_, rfl⟩

section Words

variable {α : Type} {p : α → Bool}

/-- The longest runs without a separating element. -/
def words (p : α → Bool) (cs : List α) : List (List α) :=
  (cs.splitOnP p).filter fun word => !word.isEmpty

theorem words_append_cons (a b : List α) {sep : α} (hsep : p sep = true) :
    words p (a ++ sep :: b) = words p a ++ words p b := by
  rw [words, List.splitOnP_append_cons a b hsep, List.filter_append, words, words]

theorem splitOnP_of_free {cs : List α} (hfree : ∀ c ∈ cs, p c = false) : cs.splitOnP p = [cs] := by
  induction cs with
  | nil =>
    rfl
  | cons c cs ih =>
    rw [List.splitOnP_cons_eq_if_modifyHead, hfree c List.mem_cons_self,
      ih fun d hd => hfree d (List.mem_cons_of_mem c hd)]
    rfl

theorem words_of_free {cs : List α} (hne : cs ≠ []) (hfree : ∀ c ∈ cs, p c = false) :
    words p cs = [cs] := by
  rw [words, splitOnP_of_free hfree]
  simpa using hne

theorem words_ne_nil {cs : List α} {c : α} (hc : c ∈ cs) (hchar : p c = false) :
    words p cs ≠ [] := by
  induction cs with
  | nil =>
    cases hc
  | cons d cs ih =>
    by_cases hd : p d = true
    · have hmem : c ∈ cs := by
        rcases List.mem_cons.mp hc with rfl | hmem
        · rw [hchar] at hd
          cases hd
        · exact hmem
      have hsplit := words_append_cons [] cs hd
      rw [List.nil_append] at hsplit
      rw [hsplit]
      exact List.append_ne_nil_of_right_ne_nil _ (ih hmem)
    · -- the first element begins a word
      obtain ⟨first, rest, hfirst⟩ := List.exists_cons_of_ne_nil (List.splitOnP_ne_nil p cs)
      rw [words, List.splitOnP_cons_eq_if_modifyHead, if_neg hd, hfirst]
      simp

end Words

section Doubled

variable {α : Type} {a : α}

theorem doubled_infix_append_cons {p rest : List α} (hp : a ∉ p) :
    [a, a] <:+: p ++ a :: rest ↔ [a] <+: rest ∨ [a, a] <:+: rest := by
  induction p with
  | nil =>
    rw [List.nil_append, List.infix_cons_iff, List.cons_prefix_cons]
    simp
  | cons c p ih =>
    obtain ⟨hc, hp⟩ := not_or.mp (fun h => hp (List.mem_cons.mpr h))
    rw [List.cons_append, List.infix_cons_iff, List.cons_prefix_cons, ih hp]
    simp [hc]

/-- Parts that are not empty and free of the separator, each followed by one
separator, give no doubled one. -/
theorem not_doubled_infix_flatMap {parts : List (List α)}
    (hparts : ∀ p ∈ parts, p ≠ [] ∧ a ∉ p) :
    ¬ [a, a] <:+: parts.flatMap (fun p => p ++ [a]) := by
  induction parts with
  | nil =>
    simp
  | cons p parts ih =>
    have hrest := ih fun q hq => hparts q (List.mem_cons_of_mem p hq)
    have hsplit : (p :: parts).flatMap (fun p => p ++ [a]) =
        p ++ a :: parts.flatMap (fun p => p ++ [a]) := by
      simp
    rw [hsplit, doubled_infix_append_cons (hparts p List.mem_cons_self).2]
    rintro (hleading | hoccurs)
    · cases parts with
      | nil =>
        simp at hleading
      | cons q parts =>
        obtain ⟨hne, hfree⟩ := hparts q (by simp)
        obtain ⟨c, q, rfl⟩ := List.exists_cons_of_ne_nil hne
        simp only [List.flatMap_cons, List.cons_append, List.cons_prefix_cons] at hleading
        exact hfree (by simp [hleading.1])
    · exact hrest hoccurs

theorem intercalate_append_sep {parts : List (List α)} (hne : parts ≠ []) :
    [a].intercalate parts ++ [a] = parts.flatMap (fun p => p ++ [a]) := by
  induction parts with
  | nil =>
    exact absurd rfl hne
  | cons p parts ih =>
    cases parts with
    | nil =>
      simp
    | cons q parts =>
      rw [List.intercalate_cons_cons, List.flatMap_cons, ← ih (by simp)]
      simp

end Doubled

end Split

end ArkInfra
