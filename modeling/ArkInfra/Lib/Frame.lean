import ArkInfra.Lib.TextFile
import Mathlib.Algebra.Group.Nat.Defs

/-!
# Frames with a length in front

A frame is a nonempty body behind its length, which is written as four bytes,
the most significant one first.  A stream of frames is their concatenation.
`readU32_writeU32` is the round trip of the length.
-/

namespace ArkInfra

/-- The four bytes of a number below `2 ^ 32`, the most significant one first. -/
def writeU32 (n : Nat) : Bytes :=
  [UInt8.ofNat (n / 2 ^ 24), UInt8.ofNat (n / 2 ^ 16), UInt8.ofNat (n / 2 ^ 8), UInt8.ofNat n]

/-- Take four bytes off the input and read them as a number. -/
def readU32 : Bytes → Option (Nat × Bytes)
  | a :: b :: c :: d :: rest =>
    some (a.toNat * 2 ^ 24 + b.toNat * 2 ^ 16 + c.toNat * 2 ^ 8 + d.toNat, rest)
  | _ => none

theorem readU32_writeU32 {n : Nat} (h : n < 2 ^ 32) (rest : Bytes) :
    readU32 (writeU32 n ++ rest) = some (n, rest) := by
  simp only [writeU32, List.cons_append, List.nil_append, readU32, UInt8.toNat_ofNat']
  congr 2
  omega

theorem length_of_readU32 {input rest : Bytes} {n : Nat} (h : readU32 input = some (n, rest)) :
    input.length = rest.length + 4 := by
  unfold readU32 at h
  split at h
  · obtain ⟨_, rfl⟩ := Prod.mk.inj (Option.some.inj h)
    rfl
  · cases h

structure Frame where
  body : Bytes
  nonempty : 0 < body.length
  short : body.length < 2 ^ 32

namespace Frame

def length (frame : Frame) : Nat :=
  frame.body.length

def write (frame : Frame) : Bytes :=
  writeU32 frame.length ++ frame.body

theorem readU32_frame (frame : Frame) (rest : Bytes) :
    readU32 (writeU32 frame.length ++ (frame.body ++ rest)) =
      some (frame.length, frame.body ++ rest) :=
  readU32_writeU32 frame.short _

def stream (frames : List Frame) : Bytes :=
  frames.flatMap write

@[simp] theorem stream_nil : stream [] = [] := by
  rfl

@[simp] theorem stream_cons (frame : Frame) (frames : List Frame) :
    stream (frame :: frames) = writeU32 frame.length ++ (frame.body ++ stream frames) := by
  simp [stream, write]

@[simp] theorem stream_append (frames frames' : List Frame) :
    stream (frames ++ frames') = stream frames ++ stream frames' := by
  simp [stream]

/-- A frame of the same length whose body begins as given and is filled up with
zeros. -/
def refill (frame : Frame) (start : Bytes) (hstart : start.length ≤ frame.length) : Frame where
  body := start ++ List.replicate (frame.length - start.length) 0
  nonempty := by
    have hpos : 0 < frame.length := frame.nonempty
    simp only [List.length_append, List.length_replicate]
    omega
  short := by
    have hshort : frame.length < 2 ^ 32 := frame.short
    simp only [List.length_append, List.length_replicate]
    omega

theorem body_refill (frame : Frame) {start : Bytes} (hstart : start.length ≤ frame.length) :
    (frame.refill start hstart).body =
      start ++ List.replicate (frame.length - start.length) 0 := by
  rfl

theorem length_refill (frame : Frame) {start : Bytes} (hstart : start.length ≤ frame.length) :
    (frame.refill start hstart).length = frame.length := by
  rw [length, refill]
  simp only [List.length_append, List.length_replicate]
  omega

end Frame

end ArkInfra
