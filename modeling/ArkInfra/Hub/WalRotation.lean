import ArkInfra.Hub.Wal

/-!
# What rotation keeps of the log

Rotation overwrites the single older segment.  Over any run without I/O
errors, the two files still hold the last records in order and on record
boundaries, and records are discarded only while more than the limit remains
on disk.

The state of a run is described by a split of the appended records into the
discarded ones, those in the rotated file and those in the active file
(`Segments`); an append moves the split and keeps the description.
-/

namespace ArkInfra

open TextFile

def WalOp.event? : WalOp → Option Event
  | .append event _ _ => some event
  | .reopen => none

namespace WalState

variable (json : SerdeJson)

/-- The operation meets no I/O error, neither one that it reports nor a later one: its
write is not cut short. -/
def Succeeds (state : WalState) : WalOp → Prop
  | .append event fault _ =>
    (state.makeRoom (json.line event)).interruption (json.line event) fault = none
  | .reopen => True

instance (state : WalState) (op : WalOp) : Decidable (state.Succeeds json op) :=
  match op with
  | .append event fault _ =>
    inferInstanceAs (Decidable
      ((state.makeRoom (json.line event)).interruption (json.line event) fault = none))
  | .reopen => inferInstanceAs (Decidable True)

def bytesOnDisk (state : WalState) : Nat :=
  (state.files.rotated.getD []).length + state.fileLen

/-- The appended records are the discarded ones, those of the rotated file and
those of the active file, one after the other. -/
structure Segments (state : WalState) (discarded older recent : List Event) : Prop where
  rotated_eq : state.files.rotated.getD [] = json.lines older
  active_eq : state.files.active = some (json.lines recent)
  discarded_large : discarded ≠ [] → state.maxBytes.toNat < state.bytesOnDisk
  active_small : 0 < state.maxBytes.toNat →
    state.fileLen ≤ state.maxBytes.toNat ∨ recent.length = 1
  unlimited_keeps : state.maxBytes.toNat = 0 → discarded = [] ∧ older = []

variable {json}

theorem le_of_not_needsRotation {state : WalState} {line : Bytes}
    (h : state.needsRotation line = false) (hlimit : 0 < state.maxBytes.toNat)
    (hlen : state.fileLen + line.length ≤ maxFileLen) :
    state.fileLen + line.length ≤ state.maxBytes.toNat := by
  simp only [needsRotation, hlimit, decide_true, Bool.true_and, decide_eq_false_iff_not] at h
  unfold saturatingAdd at h
  unfold maxFileLen at hlen
  omega

theorem lt_of_needsRotation {state : WalState} {line : Bytes}
    (h : state.needsRotation line = true) :
    0 < state.maxBytes.toNat ∧ state.maxBytes.toNat < state.fileLen + line.length := by
  simp only [needsRotation, Bool.and_eq_true, decide_eq_true_eq] at h
  unfold saturatingAdd at h
  omega

theorem maxBytes_run (state : WalState) (ops : List WalOp) :
    (Run.run (step json) state ops).maxBytes = state.maxBytes := by
  refine Run.invariant (I := fun s : WalState => s.maxBytes = state.maxBytes) ?_ rfl ops
  intro s op hs
  rw [step_maxBytes, hs]

theorem Segments.join {state : WalState} {discarded older recent : List Event}
    (h : state.Segments json discarded older recent) {event : Event}
    (hrot : state.needsRotation (json.line event) = false)
    (hlen : (state.fileLen + (json.line event).length) ≤ maxFileLen) :
    (state.write (json.line event)).Segments json discarded older (recent ++ [event]) := by
  constructor
  · exact h.rotated_eq
  · simp [write, h.active_eq]
  · intro hne
    have hlarge := h.discarded_large hne
    simp only [bytesOnDisk, fileLen_write] at hlarge ⊢
    exact Nat.lt_of_lt_of_le hlarge (by simp only [write]; omega)
  · intro hlimit
    left
    rw [fileLen_write]
    exact le_of_not_needsRotation hrot hlimit hlen
  · exact h.unlimited_keeps

/-- A record that does not fit starts a new active file, and what was in the
rotated file is given up. -/
theorem Segments.rotate {state : WalState} {discarded older recent : List Event}
    (h : state.Segments json discarded older recent) {event : Event}
    (hrot : state.needsRotation (json.line event) = true) :
    (state.rotateWal.write (json.line event)).Segments json (discarded ++ older) recent
      [event] := by
  obtain ⟨hlimit, hlarge⟩ := lt_of_needsRotation hrot
  have hactive : state.fileLen = (json.lines recent).length := by
    simp [fileLen, h.active_eq]
  rw [rotateWal_eq h.active_eq]
  constructor
  · rfl
  · simp [write]
  · intro _
    simpa [bytesOnDisk, write, fileLen, ← hactive] using hlarge
  · intro _
    right
    rfl
  · intro hzero
    change state.maxBytes.toNat = 0 at hzero
    omega

theorem Segments.append {state : WalState} {discarded older recent : List Event}
    (h : state.Segments json discarded older recent) {event : Event} {fault : Option Nat}
    (hok : (state.makeRoom (json.line event)).interruption (json.line event) fault = none)
    (report : WriteReport) :
    ∃ discarded' older' recent',
      discarded' ++ older' ++ recent' = discarded ++ older ++ recent ++ [event] ∧
      (state.appendWalEvent json event fault report).1.Segments json discarded' older'
        recent' := by
  obtain ⟨hbytes, hlen⟩ := appendedBytes_of_complete hok
  rw [appendWalEvent_fst, hbytes]
  cases hrot : state.needsRotation (json.line event) with
  | false =>
    have hroom : state.makeRoom (json.line event) = state := makeRoom_of_noRotation hrot
    rw [hroom] at hlen ⊢
    exact ⟨discarded, older, recent ++ [event], by simp, h.join hrot hlen⟩
  | true =>
    have hroom : state.makeRoom (json.line event) = state.rotateWal := by
      simp [makeRoom, hrot]
    rw [hroom]
    exact ⟨discarded ++ older, recent, [event], by simp, h.rotate hrot⟩

theorem Segments.reopen {state : WalState} {discarded older recent : List Event}
    (h : state.Segments json discarded older recent) :
    (state.step json .reopen).Segments json discarded older recent := by
  have hsame : state.step json .reopen = state := by
    cases state with
    | mk files maxBytes =>
      cases files with
      | mk active rotated =>
        have hactive : active = some (json.lines recent) := h.active_eq
        subst hactive
        rfl
  rw [hsame]
  exact h

theorem segments_run {state : WalState} (hstate : state.Segments json [] [] [])
    {ops : List WalOp} (hops : Run.Meets (step json) (Succeeds json) state ops) :
    ∃ discarded older recent,
      ops.filterMap WalOp.event? = discarded ++ older ++ recent ∧
      (Run.run (step json) state ops).Segments json discarded older recent := by
  induction ops using List.reverseRecOn with
  | nil =>
    exact ⟨[], [], [], rfl, hstate⟩
  | append_singleton ops op ih =>
    obtain ⟨hbefore, hlast⟩ := Run.meets_append.mp hops
    obtain ⟨discarded, older, recent, hsplit, hseg⟩ := ih hbefore
    rw [Run.run_concat]
    cases op with
    | reopen =>
      refine ⟨discarded, older, recent, ?_, hseg.reopen⟩
      rw [List.filterMap_append, hsplit]
      exact List.append_nil _
    | append event fault report =>
      obtain ⟨discarded', older', recent', hsplit', hseg'⟩ := hseg.append hlast.1 report
      refine ⟨discarded', older', recent', ?_, hseg'⟩
      rw [hsplit', List.filterMap_append, hsplit]
      rfl

theorem segments_openWalWriter (maxBytes : UInt64) :
    Segments json ⟨WalFiles.empty.openActive, maxBytes⟩ [] [] [] := by
  constructor
  · rfl
  · rfl
  · simp
  · intro _
    left
    simp [fileLen, WalFiles.openActive, WalFiles.empty]
  · simp

/-- **Rotation keeps a long enough, contiguous tail.**  From an empty directory,
after any appends and restarts without I/O error, the appended records are
`discarded`, those of the rotated file and those of the active file.  Something
is discarded only when more than the limit is on disk.  With a positive limit
the active file stays within it or holds a single record; with the limit zero,
which switches rotation off, all records are in the active file. -/
theorem rotation_keepsTail (json : SerdeJson) (maxBytes : UInt64) (ops : List WalOp)
    (hops : Run.Meets (step json) (Succeeds json)
      ⟨WalFiles.empty.openActive, maxBytes⟩ ops) :
    let state := Run.run (step json) ⟨WalFiles.empty.openActive, maxBytes⟩ ops
    ∃ discarded older recent,
      ops.filterMap WalOp.event? = discarded ++ older ++ recent ∧
      state.files.rotated.getD [] = json.lines older ∧
      state.files.active = some (json.lines recent) ∧
      (discarded ≠ [] → maxBytes.toNat < state.bytesOnDisk) ∧
      (0 < maxBytes.toNat → state.fileLen ≤ maxBytes.toNat ∨ recent.length = 1) ∧
      (maxBytes.toNat = 0 → discarded = [] ∧ older = []) := by
  intro state
  obtain ⟨discarded, older, recent, hsplit, hseg⟩ :=
    segments_run (segments_openWalWriter maxBytes) hops
  have hmax : state.maxBytes = maxBytes := maxBytes_run _ ops
  rw [← hmax]
  exact ⟨discarded, older, recent, hsplit, hseg.rotated_eq, hseg.active_eq,
    hseg.discarded_large, hseg.active_small, hseg.unlimited_keeps⟩

/-- Three records under a limit of one and a half: the first is discarded, the
other two fill the two files. -/
theorem rotation_keepsTail_threeRecords :
    let event : Event := ⟨1000, .errorHw, "gpu-0", none, none, "XID_79", some "node-a"⟩
    let ops : List WalOp :=
      [.append event none .atOnce, .append event none .later, .reopen,
        .append event none .atOnce]
    let maxBytes : UInt64 := 170
    let state := Run.run (step compactJson) ⟨WalFiles.empty.openActive, maxBytes⟩ ops
    state.files.rotated = some (compactJson.line event) ∧
    state.files.active = some (compactJson.line event) ∧
    ∃ discarded older recent,
      ops.filterMap WalOp.event? = discarded ++ older ++ recent ∧
      state.files.rotated.getD [] = compactJson.lines older ∧
      state.files.active = some (compactJson.lines recent) ∧
      (discarded ≠ [] → maxBytes.toNat < state.bytesOnDisk) ∧
      (0 < maxBytes.toNat → state.fileLen ≤ maxBytes.toNat ∨ recent.length = 1) ∧
      (maxBytes.toNat = 0 → discarded = [] ∧ older = []) := by
  refine ⟨by decide +kernel, by decide +kernel, rotation_keepsTail _ _ _ ?_⟩
  decide +kernel

/-- **A limit of zero switches rotation off**, so the active file outgrows it
and holds more than one record. -/
theorem rotation_off_outgrowsLimit :
    let event : Event := ⟨1000, .errorHw, "gpu-0", none, none, "XID_79", some "node-a"⟩
    let ops : List WalOp := [.append event none .atOnce, .append event none .atOnce]
    let state := Run.run (step compactJson) ⟨WalFiles.empty.openActive, 0⟩ ops
    Run.Meets (step compactJson) (Succeeds compactJson)
      ⟨WalFiles.empty.openActive, 0⟩ ops ∧
    ¬ (state.fileLen ≤ 0 ∨ ∃ e, state.files.active = some (compactJson.lines [e])) := by
  intro event ops state
  refine ⟨by decide +kernel, ?_⟩
  have hactive : state.files.active = some (compactJson.lines [event, event]) := by
    decide +kernel
  rintro (hlen | ⟨e, he⟩)
  · revert hlen
    decide +kernel
  · -- a file with one record has one line
    rw [hactive, Option.some.injEq] at he
    have htwo := compactJson_lawful.oneLine.rawLines_lines [event, event] (by simp : newline ∉ [])
    have hone := compactJson_lawful.oneLine.rawLines_lines [e] (by simp : newline ∉ [])
    rw [he, hone] at htwo
    simpa using congrArg List.length htwo

end WalState

end ArkInfra
