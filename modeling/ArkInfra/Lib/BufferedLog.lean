import Mathlib.Data.List.Basic
import Mathlib.Data.List.Flatten
import Mathlib.Data.List.Infix

/-!
# Logging through a buffer

A writer logs entries, each as a line.  A line is put into a buffer, and the
buffer is written out; a line that is too long for the buffer is written to the
file itself.  A single write may take less than it was given, and it may fail.
What a failed call has put into the buffer stays there, and the next call writes
it out before its own line; what it has not written of a long line is dropped.

The `Account` of a writer is what it has tried to log, what it has written, piece
by piece, and what is in its buffer.  `Kept` says how they fit together: the
pieces are the lines of the attempts, in their order, without gap or repetition,
as far as the buffer has been written, and that is at least to the end of the
last line whose call was acknowledged.  Where no write takes a part only, every
piece consists of whole lines (`Whole`).
-/

namespace ArkInfra

namespace BufferedLog

variable {ε β : Type}

/-- A call that has returned: the part of the line that the writer has taken. -/
structure Attempt (ε β : Type) where
  entry : ε
  part : List β
  acknowledged : Bool

/-- What a writer has done: the calls that have returned, the pieces it has
written, its buffer, and the call it is in, with the part taken so far. -/
structure Account (ε β : Type) where
  attempts : List (Attempt ε β)
  pieces : List (List β)
  buffered : List β
  current : Option (ε × List β)

namespace Account

def empty : Account ε β where
  attempts := []
  pieces := []
  buffered := []
  current := none

/-- The part taken in the call that the writer is in. -/
def begun (a : Account ε β) : List β :=
  (a.current.map Prod.snd).getD []

def taken (a : Account ε β) : List β :=
  (a.attempts.map Attempt.part).flatten ++ a.begun

/-- Put the line of the current entry into the buffer. -/
def push (a : Account ε β) (e : ε) (line : List β) : Account ε β :=
  { a with buffered := a.buffered ++ line, current := some (e, line) }

def write (a : Account ε β) (piece rest : List β) : Account ε β :=
  { a with pieces := a.pieces ++ [piece], buffered := rest }

/-- Write a piece of the line of the current entry. -/
def writeLine (a : Account ε β) (e : ε) (part piece : List β) : Account ε β :=
  { a with pieces := a.pieces ++ [piece], current := some (e, part ++ piece) }

def finish (a : Account ε β) (e : ε) (part : List β) (acknowledged : Bool) : Account ε β :=
  { a with attempts := a.attempts ++ [⟨e, part, acknowledged⟩], current := none }

end Account

open Account

variable (line : ε → List β) (uncut : Prop)

/-- What a writer may do next; where it is `uncut`, a write takes all it was
given. -/
inductive Step : Account ε β → Account ε β → Prop
  | stay (a : Account ε β) : Step a a
  | start (a : Account ε β) (e : ε) (hcurrent : a.current = none) :
      Step a { a with current := some (e, []) }
  | push (a : Account ε β) (e : ε) (hcurrent : a.current = some (e, [])) :
      Step a (a.push e (line e))
  | write (a : Account ε β) (piece rest : List β) (hbuffered : a.buffered = piece ++ rest)
      (huncut : uncut → rest = []) : Step a (a.write piece rest)
  | writeLine (a : Account ε β) (e : ε) (part piece : List β)
      (hcurrent : a.current = some (e, part)) (hbuffered : a.buffered = [])
      (hpiece : piece ≠ []) (hline : part ++ piece <+: line e)
      (huncut : uncut → part ++ piece = line e) : Step a (a.writeLine e part piece)
  | fail (a : Account ε β) (e : ε) (part : List β) (hcurrent : a.current = some (e, part)) :
      Step a (a.finish e part false)
  | acknowledge (a : Account ε β) (e : ε) (hcurrent : a.current = some (e, line e))
      (hbuffered : a.buffered = []) : Step a (a.finish e (line e) true)

section Kept

/-- What was written are the lines of the attempts. -/
structure Kept (a : Account ε β) : Prop where
  parts : ∀ attempt ∈ a.attempts, attempt.part <+: line attempt.entry ∧
    (attempt.acknowledged = true → attempt.part = line attempt.entry)
  current : ∀ e part, a.current = some (e, part) → part <+: line e
  stream : a.pieces.flatten ++ a.buffered = a.taken
  acknowledged : ∀ before attempt after, a.attempts = before ++ attempt :: after →
    attempt.acknowledged = true →
      (before.map Attempt.part).flatten ++ attempt.part <+: a.pieces.flatten

variable {line uncut} {a a' : Account ε β}

theorem kept_empty : Kept line (empty : Account ε β) := by
  constructor
  · simp [empty]
  · intro e part h
    cases h
  · rfl
  · intro before attempt after h
    simp [empty] at h

theorem Kept.acknowledged_of_pieces (h : Kept line a) {pieces : List (List β)}
    (hpieces : a.pieces <+: pieces) {before after : List (Attempt ε β)} {attempt : Attempt ε β}
    (hattempts : a.attempts = before ++ attempt :: after) (hack : attempt.acknowledged = true) :
    (before.map Attempt.part).flatten ++ attempt.part <+: pieces.flatten := by
  obtain ⟨more, rfl⟩ := hpieces
  rw [List.flatten_append]
  exact (h.acknowledged before attempt after hattempts hack).trans (List.prefix_append _ _)

theorem Kept.finish (h : Kept line a) {e : ε} {part : List β} {acknowledged : Bool}
    (hcurrent : a.current = some (e, part))
    (hack : acknowledged = true → part = line e ∧ a.buffered = []) :
    Kept line (a.finish e part acknowledged) where
  parts := by
    intro attempt hattempt
    rcases List.mem_append.mp hattempt with hold | hnew
    · exact h.parts attempt hold
    · rw [List.mem_singleton.mp hnew]
      exact ⟨h.current e part hcurrent, fun hacknowledged => (hack hacknowledged).1⟩
  current := by
    intro e part hnone
    cases hnone
  stream := by
    have hstream := h.stream
    simpa [taken, begun, Account.finish, hcurrent] using hstream
  acknowledged := by
    intro before attempt after hattempts hacknowledged
    rcases List.eq_nil_or_concat after with rfl | ⟨after', last, rfl⟩
    · -- the call that returns now
      obtain ⟨rfl, hnew⟩ := List.append_inj' hattempts rfl
      obtain rfl := List.singleton_inj.mp hnew
      obtain ⟨_, hempty⟩ := hack hacknowledged
      have hstream := h.stream
      rw [hempty, List.append_nil, taken, begun, hcurrent] at hstream
      change _ <+: a.pieces.flatten
      rw [hstream]
      exact List.prefix_rfl
    · have hsplit : a.attempts ++ [⟨e, part, acknowledged⟩] =
          (before ++ attempt :: after') ++ [last] := by
        simpa [Account.finish] using hattempts
      exact h.acknowledged before attempt after' (List.append_inj' hsplit rfl).1 hacknowledged

/-- **One step.** -/
theorem Kept.step (h : Kept line a) (hstep : Step line uncut a a') : Kept line a' := by
  cases hstep with
  | stay =>
    exact h
  | start e hcurrent =>
    have hstream := h.stream
    refine ⟨h.parts, ?_, ?_, h.acknowledged⟩
    · rintro e' part ⟨⟩
      exact List.nil_prefix
    · simpa [taken, begun, hcurrent] using hstream
  | push e hcurrent =>
    have hstream := h.stream
    refine ⟨h.parts, ?_, ?_, h.acknowledged⟩
    · rintro e' part ⟨⟩
      exact List.prefix_rfl
    · rw [taken, begun, hcurrent] at hstream
      simp only [Option.map_some, Option.getD_some, List.append_nil] at hstream
      rw [taken, Account.push, ← List.append_assoc, hstream]
      rfl
  | write piece rest hbuffered huncut =>
    have hstream := h.stream
    refine ⟨h.parts, h.current, ?_, ?_⟩
    · rw [hbuffered] at hstream
      simpa [taken, begun, Account.write] using hstream
    · intro before attempt after
      exact h.acknowledged_of_pieces (List.prefix_append _ _)
  | writeLine e part piece hcurrent hbuffered hpiece hline huncut =>
    have hstream := h.stream
    refine ⟨h.parts, ?_, ?_, ?_⟩
    · rintro e' part' ⟨⟩
      exact hline
    · rw [taken, begun, hcurrent, hbuffered] at hstream
      simp only [Option.map_some, Option.getD_some, List.append_nil] at hstream
      simp [taken, begun, Account.writeLine, hbuffered, hstream]
    · intro before attempt after
      exact h.acknowledged_of_pieces (List.prefix_append _ _)
  | fail e part hcurrent =>
    exact h.finish hcurrent (fun hfalse => by cases hfalse)
  | acknowledge e hcurrent hbuffered =>
    exact h.finish hcurrent fun _ => ⟨rfl, hbuffered⟩

end Kept

section Whole

def Whole (bytes : List β) : Prop :=
  ∃ entries : List ε, bytes = (entries.map line).flatten

/-- Nothing was torn: the pieces and the buffer are whole lines, and of the current
line all was taken or nothing. -/
structure Untorn (a : Account ε β) : Prop where
  pieces : ∀ piece ∈ a.pieces, Whole line piece
  buffered : Whole line a.buffered
  current : ∀ e part, a.current = some (e, part) → part = [] ∨ part = line e

variable {line} {a a' : Account ε β}

theorem untorn_empty : Untorn line (empty : Account ε β) := by
  refine ⟨by simp [empty], ⟨[], rfl⟩, ?_⟩
  intro e part h
  cases h

theorem mem_concat_whole {pieces : List (List β)} {piece : List β}
    (h : ∀ piece ∈ pieces, Whole line piece) (hpiece : Whole line piece) :
    ∀ piece' ∈ pieces ++ [piece], Whole line piece' := by
  intro piece' hmem
  rcases List.mem_append.mp hmem with hold | hnew
  · exact h piece' hold
  · rw [List.mem_singleton.mp hnew]
    exact hpiece

/-- **One step** in which no write takes a part only. -/
theorem Untorn.step (h : Untorn line a) (hstep : Step line True a a') : Untorn line a' := by
  cases hstep with
  | stay =>
    exact h
  | start e hcurrent =>
    refine ⟨h.pieces, h.buffered, ?_⟩
    rintro e' part ⟨⟩
    exact .inl rfl
  | push e hcurrent =>
    obtain ⟨entries, hentries⟩ := h.buffered
    refine ⟨h.pieces, ⟨entries ++ [e], ?_⟩, ?_⟩
    · simp [Account.push, hentries]
    · rintro e' part ⟨⟩
      exact .inr rfl
  | write piece rest hbuffered huncut =>
    have hall : a.buffered = piece := by
      rw [hbuffered, huncut trivial, List.append_nil]
    refine ⟨mem_concat_whole h.pieces (hall ▸ h.buffered), ⟨[], huncut trivial⟩, h.current⟩
  | writeLine e part piece hcurrent hbuffered hpiece hline huncut =>
    have hall := huncut trivial
    refine ⟨mem_concat_whole h.pieces ⟨[e], ?_⟩, h.buffered, ?_⟩
    · rcases h.current e part hcurrent with rfl | rfl
      · simpa using hall
      · exact absurd (by simpa using hall) hpiece
    · rintro e' part' ⟨⟩
      exact .inr hall
  | fail e part hcurrent =>
    refine ⟨h.pieces, h.buffered, ?_⟩
    rintro e' part' ⟨⟩
  | acknowledge e hcurrent hbuffered =>
    refine ⟨h.pieces, h.buffered, ?_⟩
    rintro e' part' ⟨⟩

end Whole

end BufferedLog

end ArkInfra
