import ArkInfra.Lib.Run
import Mathlib.Data.List.DropRight

/-!
# Buffers of the last elements

A queue that gives up its oldest element when it is full.  After any number of
pushes it holds the last elements, as many as its size (`run_push`); a size of
zero works as one, because the room is made before the element comes in.
-/

namespace ArkInfra

namespace RingBuffer

variable {α : Type}

/-- Append an element; at capacity the oldest one goes. -/
def push (size : Nat) (buffer : List α) (x : α) : List α :=
  (if buffer.length ≥ size then buffer.drop 1 else buffer) ++ [x]

/-- **The last elements stay.** -/
theorem run_push (size : Nat) (xs : List α) :
    Run.run (push size) [] xs = xs.rtake (max size 1) := by
  obtain ⟨n, hn⟩ : ∃ n, max size 1 = n + 1 := ⟨max size 1 - 1, by omega⟩
  induction xs using List.reverseRecOn with
  | nil =>
    simp
  | append_singleton xs x ih =>
    rw [Run.run_concat, ih, hn, List.rtake_concat_succ, push]
    congr 1
    have hlength : (xs.rtake (n + 1)).length = min (n + 1) xs.length := by
      rw [List.rtake, List.length_drop]
      omega
    split_ifs with hfull
    · rw [List.rtake, List.rtake, List.drop_drop, List.drop_eq_drop_iff]
      omega
    · rw [List.rtake, List.rtake]
      congr 1
      omega

end RingBuffer

end ArkInfra
