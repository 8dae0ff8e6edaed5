import ArkInfra.Lib.Split
import ArkInfra.Lib.Text

/-!
# The text of an IP address

The addresses of the standard library and how they are written: four decimal
numbers with dots for version 4; for version 6 eight hexadecimal segments with
colons, in which the longest run of at least two zero segments is left out and
its place marked by a double colon, and the notation with dots for an address
that maps one of version 4.

What matters about the text here is where it has a double colon
(`doubleColon_display_iff`): exactly in the version 6 addresses with two
neighbouring zero segments.
-/

namespace ArkInfra

structure Ipv4Addr where
  octets : List Nat
  length_eq : octets.length = 4
  lt : ∀ x ∈ octets, x < 256

structure Ipv6Addr where
  segments : List Nat
  length_eq : segments.length = 8
  lt : ∀ x ∈ segments, x < 65536

inductive IpAddr where
  | v4 (addr : Ipv4Addr)
  | v6 (addr : Ipv6Addr)

namespace IpAddr

def displayOctets (octets : List Nat) : String :=
  ".".intercalate (octets.map toString)

def hex (n : Nat) : String :=
  String.ofList (Nat.toDigits 16 n)

structure Span where
  start : Nat
  len : Nat

/-- Go on to the segment at the index, with the longest run of zeros and the
run that is still open. -/
def nextSpan (spans : Span × Span) (segment : Nat × Nat) : Span × Span :=
  if segment.1 = 0 then
    let current : Span :=
      { start := if spans.2.len = 0 then segment.2 else spans.2.start
        len := spans.2.len + 1 }
    (if current.len > spans.1.len then current else spans.1, current)
  else
    (spans.1, ⟨0, 0⟩)

def zeroSpans (segments : List Nat) : Span × Span :=
  segments.zipIdx.foldl nextSpan (⟨0, 0⟩, ⟨0, 0⟩)

def fmtSubslice (chunk : List Nat) : String :=
  ":".intercalate (chunk.map hex)

/-- The octets of the mapped version 4 address. -/
def toIpv4Mapped (segments : List Nat) : Option (List Nat) :=
  match segments with
  | [0, 0, 0, 0, 0, 0xffff, ab, cd] => some [ab / 256, ab % 256, cd / 256, cd % 256]
  | _ => none

def displaySegments (segments : List Nat) : String :=
  match toIpv4Mapped segments with
  | some octets => "::ffff:" ++ displayOctets octets
  | none =>
    let zeroes := (zeroSpans segments).1
    if zeroes.len > 1 then
      fmtSubslice (segments.take zeroes.start) ++ "::" ++
        fmtSubslice (segments.drop (zeroes.start + zeroes.len))
    else
      fmtSubslice segments

def display : IpAddr → String
  | .v4 addr => displayOctets addr.octets
  | .v6 addr => displaySegments addr.segments

section Digits

theorem colon_notMem_hex (n : Nat) : ':' ∉ (hex n).toList := by
  have hdigit : ∀ k < 16, ':' ≠ Nat.digitChar k := by
    decide
  rw [hex, String.toList_ofList]
  induction n using Nat.strong_induction_on with
  | _ n ih =>
    rw [Nat.toDigits_eq_if (by decide)]
    split_ifs with hsmall
    · rw [List.mem_singleton]
      exact hdigit n hsmall
    · rw [List.mem_append, List.mem_singleton]
      rintro (hrest | hlast)
      · exact ih (n / 16) (Nat.div_lt_self (by omega) (by decide)) hrest
      · exact hdigit (n % 16) (Nat.mod_lt n (by decide)) hlast

theorem hex_ne_nil (n : Nat) : (hex n).toList ≠ [] := by
  rw [hex, String.toList_ofList]
  exact Nat.toDigits_ne_nil

theorem colon_notMem_displayOctets (octets : List Nat) : ':' ∉ (displayOctets octets).toList := by
  have hdigits : ∀ n : Nat, ':' ∉ (toString n).toList := by
    intro n hmem
    exact absurd (Text.isDigit_of_mem_toString hmem) (by decide)
  rw [displayOctets, String.toList_intercalate, List.map_map]
  induction octets with
  | nil =>
    simp
  | cons n octets ih =>
    cases octets with
    | nil =>
      simpa using hdigits n
    | cons m octets =>
      simp only [List.map_cons, List.intercalate_cons_cons, List.mem_append, not_or]
      exact ⟨⟨hdigits n, by decide⟩, ih⟩

end Digits

section Zeros

/-- The open run is as long as the zeros at the end, and the longest run has
two of them exactly when two neighbours are zero. -/
structure SpansOf (segments : List Nat) (spans : Span × Span) : Prop where
  le : spans.2.len ≤ spans.1.len
  current : 0 < spans.2.len ↔ segments.getLast? = some 0
  longest : 1 < spans.1.len ↔ [0, 0] <:+: segments

theorem doubled_infix_concat {segments : List Nat} {x : Nat} :
    [0, 0] <:+: segments ++ [x] ↔
      [0, 0] <:+: segments ∨ (segments.getLast? = some 0 ∧ x = 0) := by
  rw [List.infix_concat_iff]
  constructor
  · rintro (hsuffix | hold)
    · obtain ⟨front, hfront⟩ := hsuffix
      have hsplit : front ++ [0] ++ [0] = segments ++ [x] := by simpa using hfront
      obtain ⟨rfl, hx⟩ := List.append_inj' hsplit rfl
      exact Or.inr ⟨by simp, by simpa using hx.symm⟩
    · exact Or.inl hold
  · rintro (hold | ⟨hlast, rfl⟩)
    · exact Or.inr hold
    · obtain ⟨front, rfl⟩ := List.getLast?_eq_some_iff.mp hlast
      exact Or.inl ⟨front, by simp⟩

theorem nextSpan_of_zero (spans : Span × Span) (i : Nat) :
    (nextSpan spans (0, i)).2.len = spans.2.len + 1 ∧
      (nextSpan spans (0, i)).1.len = max spans.1.len (spans.2.len + 1) := by
  simp only [nextSpan, if_true, true_and]
  by_cases hmore : spans.2.len + 1 > spans.1.len
  · rw [if_pos hmore, Nat.max_eq_right (Nat.le_of_lt hmore)]
  · rw [if_neg hmore, Nat.max_eq_left (Nat.le_of_not_lt hmore)]

theorem spansOf_zeroSpans (segments : List Nat) : SpansOf segments (zeroSpans segments) := by
  induction segments using List.reverseRecOn with
  | nil =>
    refine ⟨Nat.le_refl _, ?_, ?_⟩
    · simp [zeroSpans]
    · simp [zeroSpans]
  | append_singleton segments x ih =>
    have hstep : zeroSpans (segments ++ [x]) =
        nextSpan (zeroSpans segments) (x, segments.length) := by
      simp [zeroSpans, List.zipIdx_append]
    obtain ⟨hle, hcurrent, hlongest⟩ := ih
    rw [hstep]
    by_cases hx : x = 0
    · subst hx
      obtain ⟨hnext, hlongest'⟩ := nextSpan_of_zero (zeroSpans segments) segments.length
      refine ⟨?_, ?_, ?_⟩
      · rw [hnext, hlongest']
        exact Nat.le_max_right _ _
      · simp [hnext]
      · rw [hlongest', doubled_infix_concat, ← hlongest, ← hcurrent]
        omega
    · simp only [nextSpan, hx, if_false]
      refine ⟨Nat.zero_le _, ?_, ?_⟩
      · simp [hx]
      · rw [doubled_infix_concat, hlongest]
        simp [hx]

theorem doubled_of_toIpv4Mapped {segments octets : List Nat}
    (h : toIpv4Mapped segments = some octets) : [0, 0] <:+: segments := by
  unfold toIpv4Mapped at h
  split at h
  · exact ⟨[], [0, 0, 0, 0xffff, _, _], rfl⟩
  · cases h

end Zeros

/-- The address is one of version 6 with two neighbouring zero segments. -/
def Shortened : IpAddr → Prop
  | .v4 _ => False
  | .v6 addr => [0, 0] <:+: addr.segments

instance : DecidablePred Shortened
  | .v4 _ => inferInstanceAs (Decidable False)
  | .v6 _ => inferInstanceAs (Decidable (_ <:+: _))

theorem not_doubleColon_fmtSubslice {front : List Char} (hfront : ':' ∉ front)
    (segments : List Nat) :
    ¬ [':', ':'] <:+: front ++ (fmtSubslice segments).toList ++ [':'] := by
  have hsep : ":".toList = [':'] := by
    decide
  rw [fmtSubslice, String.toList_intercalate, hsep, List.map_map, List.append_assoc]
  cases segments with
  | nil =>
    rw [List.map_nil, List.intercalate_nil, List.nil_append,
      Split.doubled_infix_append_cons hfront]
    simp
  | cons n segments =>
    have hparts : ∀ p ∈ (front ++ (hex n).toList) :: segments.map (String.toList ∘ hex),
        p ≠ [] ∧ ':' ∉ p := by
      intro p hp
      rcases List.mem_cons.mp hp with rfl | hp
      · refine ⟨by simp [hex_ne_nil n], ?_⟩
        rw [List.mem_append, not_or]
        exact ⟨hfront, colon_notMem_hex n⟩
      · obtain ⟨m, _, rfl⟩ := List.mem_map.mp hp
        exact ⟨hex_ne_nil m, colon_notMem_hex m⟩
    have hjoin := Split.not_doubled_infix_flatMap hparts
    rw [Split.intercalate_append_sep (by simp), List.map_cons, List.flatMap_cons]
    simpa using hjoin

/-- **Where an address has a double colon**, with a text free of colons before
it and a colon after it. -/
theorem doubleColon_display_iff {front : List Char} (hfront : ':' ∉ front) (ip : IpAddr) :
    [':', ':'] <:+: front ++ ip.display.toList ++ [':'] ↔ ip.Shortened := by
  have hsep : "::".toList = [':', ':'] := by
    decide
  have hoccurs : ∀ a b : String,
      [':', ':'] <:+: front ++ (a ++ "::" ++ b).toList ++ [':'] := by
    intro a b
    refine ⟨front ++ a.toList, b.toList ++ [':'], ?_⟩
    simp [hsep]
  cases ip with
  | v4 addr =>
    have hfree : ':' ∉ front ++ (displayOctets addr.octets).toList := by
      rw [List.mem_append, not_or]
      exact ⟨hfront, colon_notMem_displayOctets _⟩
    rw [display, Split.doubled_infix_append_cons hfree]
    simp [Shortened]
  | v6 addr =>
    rw [display, displaySegments, Shortened]
    cases hmapped : toIpv4Mapped addr.segments with
    | some octets =>
      refine iff_of_true ?_ (doubled_of_toIpv4Mapped hmapped)
      have htext : "::ffff:" ++ displayOctets octets =
          "" ++ "::" ++ ("ffff:" ++ displayOctets octets) := by
        rw [← String.toList_inj]
        simp only [String.toList_append]
        rfl
      dsimp only
      rw [htext]
      exact hoccurs _ _
    | none =>
      have hspans := (spansOf_zeroSpans addr.segments).longest
      dsimp only
      split_ifs with hrun
      · exact iff_of_true (hoccurs _ _) (hspans.mp hrun)
      · exact iff_of_false (not_doubleColon_fmtSubslice hfront _) (fun h => hrun (hspans.mpr h))

end IpAddr

end ArkInfra
