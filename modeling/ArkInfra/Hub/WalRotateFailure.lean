import ArkInfra.Hub.Wal

/-!
# Rotations that fail half way

`rotate_wal` flushes, removes `<path>.1`, renames `<path>` to `<path>.1` and
opens a new file at `<path>`, and returns at the first step that fails.  Only
the last step replaces the handle of the writer, so after a failed reopen the
handle still leads to the file that is now `<path>.1`, and the next rotation
removes that file in its second step.

Here the writer is modelled with its handle, which Hub/Wal leaves out: as long
as no step fails, the handle leads to the file at `<path>` and the two models
agree (`appendWalEvent_eq`).  `failedRotation_keepsSegment` says when the
records of the active file survive a failed rotation until the next append that
returns `Ok`: when no rotation in between removes `<path>.1` while the handle
leads to it.
-/

namespace ArkInfra

open TextFile

/-- The file the handle of the writer leads to: the one at `<path>`, the one at
`<path>.1`, or one that has no name any more. -/
inductive WalHandle where
  | active
  | rotated
  | unlinked (bytes : Bytes)
  deriving DecidableEq

/-- The steps of `rotate_wal`. -/
inductive RotateStep where
  | flush
  | remove
  | rename
  | reopen
  deriving DecidableEq

structure OpenWal where
  files : WalFiles
  handle : WalHandle
  maxBytes : UInt64
  deriving DecidableEq

/-- One call of `append_wal_event`, and the step that fails if it rotates. -/
structure WalCall where
  event : Event
  fault : Option RotateStep

namespace OpenWal

def ofFiles (files : WalFiles) (maxBytes : UInt64) : OpenWal where
  files := files.openActive
  handle := .active
  maxBytes := maxBytes

def segment (w : OpenWal) : Bytes :=
  match w.handle with
  | .active => w.files.active.getD []
  | .rotated => w.files.rotated.getD []
  | .unlinked bytes => bytes

/-- Append bytes to the file behind the handle. -/
def write (w : OpenWal) (bytes : Bytes) : OpenWal :=
  match w.handle with
  | .active => { w with files := { w.files with active := some (w.segment ++ bytes) } }
  | .rotated => { w with files := { w.files with rotated := some (w.segment ++ bytes) } }
  | .unlinked _ => { w with handle := .unlinked (w.segment ++ bytes) }

/-- Remove `<path>.1`; a handle to it keeps the file without a name. -/
def removeRotated (w : OpenWal) : OpenWal :=
  { w with
    files := { w.files with rotated := none }
    handle := if w.handle = .rotated then .unlinked w.segment else w.handle }

/-- Rename `<path>` to `<path>.1`; the handle follows the file. -/
def renameActive (w : OpenWal) : OpenWal :=
  { w with
    files := { active := none, rotated := w.files.active }
    handle :=
      match w.handle with
      | .active => .rotated
      | .rotated => .unlinked w.segment
      | .unlinked bytes => .unlinked bytes }

/-- Open `<path>` for appending and take the new handle. -/
def openActive (w : OpenWal) : OpenWal :=
  { w with
    files := w.files.openActive
    handle := .active }

/-- `rotate_wal`, with the step that failed. -/
def rotateWal (w : OpenWal) (fault : Option RotateStep) : OpenWal × Option RotateStep :=
  if fault = some .flush then
    (w, some .flush)
  else if w.files.rotated.isSome ∧ fault = some .remove then
    (w, some .remove)
  else
    let w := if w.files.rotated.isSome then w.removeRotated else w
    if w.files.active.isSome ∧ fault = some .rename then
      (w, some .rename)
    else
      let w := if w.files.active.isSome then w.renameActive else w
      if fault = some .reopen then
        (w, some .reopen)
      else
        (w.openActive, none)

/-- The record would take the file behind the handle over the limit. -/
def needsRotation (w : OpenWal) (line : Bytes) : Bool :=
  decide (0 < w.maxBytes.toNat) &&
    decide (saturatingAdd w.segment.length line.length > w.maxBytes.toNat)

/-- `append_wal_event`: a failed rotation is returned before anything is
written. -/
def appendWalEvent (json : SerdeJson) (w : OpenWal) (call : WalCall) :
    OpenWal × Except RotateStep WalAppendResult :=
  let line := json.line call.event
  if w.needsRotation line then
    match w.rotateWal call.fault with
    | (w, some failed) => (w, .error failed)
    | (w, none) =>
      let w := w.write line
      (w, .ok { rotated := true, sizeBytes := w.segment.length })
  else
    let w := w.write line
    (w, .ok { rotated := false, sizeBytes := w.segment.length })

section Shapes

variable (maxBytes : UInt64)

/-- The handle leads to `<path>`. -/
def attached (bytes : Bytes) (older : Option Bytes) : OpenWal where
  files := { active := some bytes, rotated := older }
  handle := .active
  maxBytes := maxBytes

/-- The reopen of a rotation failed: the handle leads to `<path>.1`. -/
def stale (bytes : Bytes) : OpenWal where
  files := { active := none, rotated := some bytes }
  handle := .rotated
  maxBytes := maxBytes

/-- The next rotation removed `<path>.1` and its reopen failed too: the file
behind the handle has no name. -/
def orphaned (bytes : Bytes) : OpenWal where
  files := { active := none, rotated := none }
  handle := .unlinked bytes
  maxBytes := maxBytes

end Shapes

section Steps

variable (json : SerdeJson)

/-- The writer after the call. -/
def step (w : OpenWal) (call : WalCall) : OpenWal :=
  (w.appendWalEvent json call).1

def Fails (w : OpenWal) (call : WalCall) : Prop :=
  (w.appendWalEvent json call).2.isOk = false

/-- The rotation of the call gets as far as removing `<path>.1`. -/
def Removes (w : OpenWal) (call : WalCall) : Prop :=
  w.needsRotation (json.line call.event) = true ∧ w.files.rotated.isSome = true ∧
    call.fault ≠ some .flush ∧ call.fault ≠ some .remove

/-- The call does not remove `<path>.1` while the handle leads to it. -/
def KeepsSegment (w : OpenWal) (call : WalCall) : Prop :=
  w.handle = .rotated → ¬ w.Removes json call

instance (w : OpenWal) (call : WalCall) : Decidable (w.Fails json call) :=
  inferInstanceAs (Decidable (_ = _))

instance (w : OpenWal) (call : WalCall) : Decidable (w.Removes json call) :=
  inferInstanceAs (Decidable (_ ∧ _ ∧ _ ∧ _))

instance (w : OpenWal) (call : WalCall) : Decidable (w.KeepsSegment json call) :=
  inferInstanceAs (Decidable (_ → _))

/-- What a call does to a writer, and whether it returns `Ok`. -/
inductive AppendOf (call : WalCall) : OpenWal → OpenWal → Bool → Prop
  | join {m : UInt64} (bytes : Bytes) (older : Option Bytes) :
      AppendOf call (attached m bytes older)
        (attached m (bytes ++ json.line call.event) older) true
  | rotate {m : UInt64} (bytes : Bytes) (older : Option Bytes) :
      AppendOf call (attached m bytes older)
        (attached m (json.line call.event) (some bytes)) true
  | stuck {m : UInt64} (bytes : Bytes) (older older' : Option Bytes) :
      AppendOf call (attached m bytes older) (attached m bytes older') false
  | detach {m : UInt64} (bytes : Bytes) (older : Option Bytes) :
      AppendOf call (attached m bytes older) (stale m bytes) false
  | joinStale {m : UInt64} (bytes : Bytes) (hkeep : ¬ (stale m bytes).Removes json call) :
      AppendOf call (stale m bytes) (stale m (bytes ++ json.line call.event)) true
  | stuckStale {m : UInt64} (bytes : Bytes) (hkeep : ¬ (stale m bytes).Removes json call) :
      AppendOf call (stale m bytes) (stale m bytes) false
  | lose {m : UInt64} (bytes : Bytes) (hremove : (stale m bytes).Removes json call) :
      AppendOf call (stale m bytes) (attached m (json.line call.event) none) true
  | orphan {m : UInt64} (bytes : Bytes) (hremove : (stale m bytes).Removes json call) :
      AppendOf call (stale m bytes) (orphaned m bytes) false
  | joinOrphan {m : UInt64} (bytes : Bytes) :
      AppendOf call (orphaned m bytes) (orphaned m (bytes ++ json.line call.event)) true
  | stuckOrphan {m : UInt64} (bytes : Bytes) :
      AppendOf call (orphaned m bytes) (orphaned m bytes) false
  | restart {m : UInt64} (bytes : Bytes) :
      AppendOf call (orphaned m bytes) (attached m (json.line call.event) none) true

inductive Shape : OpenWal → Prop
  | attached (m : UInt64) (bytes : Bytes) (older : Option Bytes) : Shape (attached m bytes older)
  | stale (m : UInt64) (bytes : Bytes) : Shape (stale m bytes)
  | orphaned (m : UInt64) (bytes : Bytes) : Shape (orphaned m bytes)

variable {json}

theorem appendWalEvent_of_fits {w : OpenWal} {call : WalCall}
    (h : w.needsRotation (json.line call.event) = false) :
    w.step json call = w.write (json.line call.event) ∧
      (w.appendWalEvent json call).2.isOk = true := by
  simp only [step, appendWalEvent, h, Bool.false_eq_true, if_false, true_and]
  rfl

theorem appendWalEvent_of_rotated {w w' : OpenWal} {call : WalCall}
    (h : w.needsRotation (json.line call.event) = true)
    (hrotate : w.rotateWal call.fault = (w', none)) :
    w.step json call = w'.write (json.line call.event) ∧
      (w.appendWalEvent json call).2.isOk = true := by
  simp only [step, appendWalEvent, h, if_true, hrotate, true_and]
  rfl

theorem appendWalEvent_of_failed {w w' : OpenWal} {call : WalCall} {failed : RotateStep}
    (h : w.needsRotation (json.line call.event) = true)
    (hrotate : w.rotateWal call.fault = (w', some failed)) :
    w.step json call = w' ∧ (w.appendWalEvent json call).2.isOk = false := by
  simp only [step, appendWalEvent, h, if_true, hrotate, true_and]
  rfl

theorem rotateWal_attached (m : UInt64) (bytes : Bytes) (older : Option Bytes)
    (fault : Option RotateStep) :
    (∃ older' failed, (attached m bytes older).rotateWal fault =
      (attached m bytes older', some failed)) ∨
    (attached m bytes older).rotateWal fault = (stale m bytes, some .reopen) ∨
    (attached m bytes older).rotateWal fault = (attached m [] (some bytes), none) := by
  cases fault with
  | none =>
    exact Or.inr (Or.inr (by cases older <;> rfl))
  | some failed =>
    cases failed with
    | flush => exact Or.inl ⟨older, .flush, rfl⟩
    | remove =>
      cases older with
      | none => exact Or.inr (Or.inr rfl)
      | some old => exact Or.inl ⟨some old, .remove, rfl⟩
    | rename => exact Or.inl ⟨none, .rename, by cases older <;> rfl⟩
    | reopen => exact Or.inr (Or.inl (by cases older <;> rfl))

theorem appendOf_attached (m : UInt64) (bytes : Bytes) (older : Option Bytes)
    (call : WalCall) :
    AppendOf json call (attached m bytes older) ((attached m bytes older).step json call)
      ((attached m bytes older).appendWalEvent json call).2.isOk := by
  cases hneeds : (attached m bytes older).needsRotation (json.line call.event) with
  | false =>
    obtain ⟨hstep, hok⟩ := appendWalEvent_of_fits hneeds
    rw [hstep, hok]
    exact .join bytes older
  | true =>
    rcases rotateWal_attached m bytes older call.fault with
      ⟨older', failed, hrotate⟩ | hrotate | hrotate
    · obtain ⟨hstep, hok⟩ := appendWalEvent_of_failed hneeds hrotate
      rw [hstep, hok]
      exact .stuck bytes older older'
    · obtain ⟨hstep, hok⟩ := appendWalEvent_of_failed hneeds hrotate
      rw [hstep, hok]
      exact .detach bytes older
    · obtain ⟨hstep, hok⟩ := appendWalEvent_of_rotated hneeds hrotate
      rw [hstep, hok]
      exact .rotate bytes older

/-- A rotation that gets past the removal takes away the segment, whether or not
the new file can be opened. -/
theorem rotateWal_stale (m : UInt64) (bytes : Bytes) (fault : Option RotateStep) :
    ((fault = some .flush ∨ fault = some .remove) ∧
        ∃ failed, (stale m bytes).rotateWal fault = (stale m bytes, some failed)) ∨
      (fault ≠ some .flush ∧ fault ≠ some .remove) ∧
        ((stale m bytes).rotateWal fault = (attached m [] none, none) ∨
          (stale m bytes).rotateWal fault = (orphaned m bytes, some .reopen)) := by
  cases fault with
  | none => exact Or.inr ⟨by simp, Or.inl rfl⟩
  | some failed =>
    cases failed with
    | flush => exact Or.inl ⟨Or.inl rfl, .flush, rfl⟩
    | remove => exact Or.inl ⟨Or.inr rfl, .remove, rfl⟩
    | rename =>
      -- there is no file to rename, so the step is not taken
      exact Or.inr ⟨by simp, Or.inl rfl⟩
    | reopen => exact Or.inr ⟨by simp, Or.inr rfl⟩

theorem appendOf_stale (m : UInt64) (bytes : Bytes) (call : WalCall) :
    AppendOf json call (stale m bytes) ((stale m bytes).step json call)
      ((stale m bytes).appendWalEvent json call).2.isOk := by
  cases hneeds : (stale m bytes).needsRotation (json.line call.event) with
  | false =>
    obtain ⟨hstep, hok⟩ := appendWalEvent_of_fits hneeds
    rw [hstep, hok]
    refine .joinStale bytes ?_
    rintro ⟨hneeds', _⟩
    rw [hneeds] at hneeds'
    cases hneeds'
  | true =>
    rcases rotateWal_stale m bytes call.fault with
      ⟨hfault, failed, hrotate⟩ | ⟨⟨hflush, hremove⟩, hrotate | hrotate⟩
    · obtain ⟨hstep, hok⟩ := appendWalEvent_of_failed hneeds hrotate
      rw [hstep, hok]
      refine .stuckStale bytes ?_
      rintro ⟨_, _, hflush, hremove⟩
      exact hfault.elim hflush hremove
    · obtain ⟨hstep, hok⟩ := appendWalEvent_of_rotated hneeds hrotate
      rw [hstep, hok]
      exact .lose bytes ⟨hneeds, rfl, hflush, hremove⟩
    · obtain ⟨hstep, hok⟩ := appendWalEvent_of_failed hneeds hrotate
      rw [hstep, hok]
      exact .orphan bytes ⟨hneeds, rfl, hflush, hremove⟩

theorem rotateWal_orphaned (m : UInt64) (bytes : Bytes) (fault : Option RotateStep) :
    (∃ failed, (orphaned m bytes).rotateWal fault = (orphaned m bytes, some failed)) ∨
    (orphaned m bytes).rotateWal fault = (attached m [] none, none) := by
  cases fault with
  | none => exact Or.inr rfl
  | some failed =>
    cases failed with
    | flush => exact Or.inl ⟨.flush, rfl⟩
    | remove => exact Or.inr rfl
    | rename => exact Or.inr rfl
    | reopen => exact Or.inl ⟨.reopen, rfl⟩

theorem appendOf_orphaned (m : UInt64) (bytes : Bytes) (call : WalCall) :
    AppendOf json call (orphaned m bytes) ((orphaned m bytes).step json call)
      ((orphaned m bytes).appendWalEvent json call).2.isOk := by
  cases hneeds : (orphaned m bytes).needsRotation (json.line call.event) with
  | false =>
    obtain ⟨hstep, hok⟩ := appendWalEvent_of_fits hneeds
    rw [hstep, hok]
    exact .joinOrphan bytes
  | true =>
    rcases rotateWal_orphaned m bytes call.fault with ⟨failed, hrotate⟩ | hrotate
    · obtain ⟨hstep, hok⟩ := appendWalEvent_of_failed hneeds hrotate
      rw [hstep, hok]
      exact .stuckOrphan bytes
    · obtain ⟨hstep, hok⟩ := appendWalEvent_of_rotated hneeds hrotate
      rw [hstep, hok]
      exact .restart bytes

/-- **What a call does.** -/
theorem Shape.appendOf {w : OpenWal} (h : w.Shape) (call : WalCall) :
    AppendOf json call w (w.step json call) (w.appendWalEvent json call).2.isOk := by
  cases h with
  | attached m bytes older => exact appendOf_attached m bytes older call
  | stale m bytes => exact appendOf_stale m bytes call
  | orphaned m bytes => exact appendOf_orphaned m bytes call

theorem AppendOf.shape {call : WalCall} {w w' : OpenWal} {ok : Bool}
    (h : AppendOf json call w w' ok) : w'.Shape := by
  cases h with
  | join | rotate | stuck | lose | restart => exact .attached _ _ _
  | detach | joinStale | stuckStale => exact .stale _ _
  | orphan | joinOrphan | stuckOrphan => exact .orphaned _ _

theorem shape_run (files : WalFiles) (maxBytes : UInt64) (calls : List WalCall) :
    (Run.run (step json) (ofFiles files maxBytes) calls).Shape := by
  refine Run.invariant (I := Shape) ?_ (.attached _ _ _) calls
  intro w call hw
  exact (hw.appendOf call).shape

end Steps

section Outcomes

variable {json : SerdeJson} {m : UInt64} {bytes : Bytes} {call : WalCall}

theorem attached_fails {older : Option Bytes} (h : (attached m bytes older).Fails json call) :
    (∃ older', (attached m bytes older).step json call = attached m bytes older') ∨
      (attached m bytes older).step json call = stale m bytes := by
  have hcall : AppendOf json call _ _ _ := appendOf_attached m bytes older call
  unfold Fails at h
  rw [h] at hcall
  generalize (attached m bytes older).step json call = next at hcall ⊢
  cases hcall with
  | stuck _ _ older' => exact Or.inl ⟨older', rfl⟩
  | detach => exact Or.inr rfl

theorem attached_succeeds {older : Option Bytes}
    (h : ¬ (attached m bytes older).Fails json call) :
    (attached m bytes older).step json call =
        attached m (bytes ++ json.line call.event) older ∨
      (attached m bytes older).step json call =
        attached m (json.line call.event) (some bytes) := by
  have hcall : AppendOf json call _ _ _ := appendOf_attached m bytes older call
  unfold Fails at h
  rw [Bool.not_eq_false] at h
  rw [h] at hcall
  generalize (attached m bytes older).step json call = next at hcall ⊢
  cases hcall with
  | join => exact Or.inl rfl
  | rotate => exact Or.inr rfl

theorem stale_fails (h : (stale m bytes).Fails json call) :
    (¬ (stale m bytes).Removes json call ∧ (stale m bytes).step json call = stale m bytes) ∨
      ((stale m bytes).Removes json call ∧
        (stale m bytes).step json call = orphaned m bytes) := by
  have hcall : AppendOf json call _ _ _ := appendOf_stale m bytes call
  unfold Fails at h
  rw [h] at hcall
  generalize (stale m bytes).step json call = next at hcall ⊢
  cases hcall with
  | stuckStale _ hkeep => exact Or.inl ⟨hkeep, rfl⟩
  | orphan _ hremove => exact Or.inr ⟨hremove, rfl⟩

theorem stale_succeeds (h : ¬ (stale m bytes).Fails json call) :
    (¬ (stale m bytes).Removes json call ∧
        (stale m bytes).step json call = stale m (bytes ++ json.line call.event)) ∨
      ((stale m bytes).Removes json call ∧
        (stale m bytes).step json call = attached m (json.line call.event) none) := by
  have hcall : AppendOf json call _ _ _ := appendOf_stale m bytes call
  unfold Fails at h
  rw [Bool.not_eq_false] at h
  rw [h] at hcall
  generalize (stale m bytes).step json call = next at hcall ⊢
  cases hcall with
  | joinStale _ hkeep => exact Or.inl ⟨hkeep, rfl⟩
  | lose _ hremove => exact Or.inr ⟨hremove, rfl⟩

theorem orphaned_fails (h : (orphaned m bytes).Fails json call) :
    (orphaned m bytes).step json call = orphaned m bytes := by
  have hcall : AppendOf json call _ _ _ := appendOf_orphaned m bytes call
  unfold Fails at h
  rw [h] at hcall
  generalize (orphaned m bytes).step json call = next at hcall ⊢
  cases hcall with
  | stuckOrphan => rfl

theorem orphaned_succeeds (h : ¬ (orphaned m bytes).Fails json call) :
    (orphaned m bytes).step json call = orphaned m (bytes ++ json.line call.event) ∨
      (orphaned m bytes).step json call = attached m (json.line call.event) none := by
  have hcall : AppendOf json call _ _ _ := appendOf_orphaned m bytes call
  unfold Fails at h
  rw [Bool.not_eq_false] at h
  rw [h] at hcall
  generalize (orphaned m bytes).step json call = next at hcall ⊢
  cases hcall with
  | joinOrphan => exact Or.inl rfl
  | restart => exact Or.inr rfl

end Outcomes

/-- **As long as nothing fails**, the handle leads to `<path>` and the files are
those of the model without it. -/
theorem appendWalEvent_eq {json : SerdeJson} {m : UInt64} {bytes : Bytes}
    {older : Option Bytes} {call : WalCall} (hfault : call.fault = none)
    (hok : (WalState.appendWalEvent json ⟨⟨some bytes, older⟩, m⟩ call.event none
      .atOnce).2.isOk = true) :
    ∃ bytes' older',
      (attached m bytes older).step json call = attached m bytes' older' ∧
      (WalState.appendWalEvent json ⟨⟨some bytes, older⟩, m⟩ call.event none .atOnce).1 =
        ⟨⟨some bytes', older'⟩, m⟩ := by
  obtain ⟨hbytes, _⟩ := WalState.appendedBytes_of_complete (WalState.interruption_of_ok hok)
  rw [WalState.appendWalEvent_fst, hbytes]
  cases hneeds : (attached m bytes older).needsRotation (json.line call.event) with
  | false =>
    have hroom : WalState.needsRotation ⟨⟨some bytes, older⟩, m⟩ (json.line call.event) =
        false := hneeds
    rw [WalState.makeRoom_of_noRotation hroom]
    exact ⟨bytes ++ json.line call.event, older, (appendWalEvent_of_fits hneeds).1, rfl⟩
  | true =>
    have hroom : WalState.needsRotation ⟨⟨some bytes, older⟩, m⟩ (json.line call.event) =
        true := hneeds
    have hrotate : (attached m bytes older).rotateWal call.fault =
        (attached m [] (some bytes), none) := by
      rw [hfault]
      cases older <;> rfl
    have hactive : (WalState.mk ⟨some bytes, older⟩ m).files.active = some bytes := rfl
    refine ⟨json.line call.event, some bytes, (appendWalEvent_of_rotated hneeds hrotate).1, ?_⟩
    rw [WalState.makeRoom, if_pos hroom, WalState.rotateWal_eq hactive]
    rfl

/-- Every byte of the segment is on disk: it begins one of the two files. -/
def OnDisk (w : OpenWal) (bytes : Bytes) : Prop :=
  bytes <+: w.files.active.getD [] ∨ bytes <+: w.files.rotated.getD []

instance (w : OpenWal) (bytes : Bytes) : Decidable (w.OnDisk bytes) :=
  inferInstanceAs (Decidable (_ ∨ _))

section Windows

variable {json : SerdeJson} {m : UInt64} {bytes : Bytes}

/-- While calls fail, the segment stays behind the handle; it loses its name
exactly when a rotation removes `<path>.1` under a stale handle. -/
inductive Pending (json : SerdeJson) (w : OpenWal) (calls : List WalCall) (m : UInt64)
    (bytes : Bytes) : Prop
  | attached (older : Option Bytes) (hrun : Run.run (step json) w calls = attached m bytes older)
      (hkeeps : Run.Meets (step json) (KeepsSegment json) w calls)
  | stale (hrun : Run.run (step json) w calls = stale m bytes)
      (hkeeps : Run.Meets (step json) (KeepsSegment json) w calls)
  | orphaned (hrun : Run.run (step json) w calls = orphaned m bytes)
      (hlost : ¬ Run.Meets (step json) (KeepsSegment json) w calls)

theorem meets_concat (json : SerdeJson) (w : OpenWal) (calls : List WalCall)
    (call : WalCall) :
    Run.Meets (step json) (KeepsSegment json) w (calls ++ [call]) ↔
      Run.Meets (step json) (KeepsSegment json) w calls ∧
        (Run.run (step json) w calls).KeepsSegment json call := by
  rw [Run.meets_append]
  simp [Run.Meets]

theorem Pending.fails {w : OpenWal} {calls : List WalCall} {call : WalCall}
    (h : Pending json w calls m bytes)
    (hfails : (Run.run (step json) w calls).Fails json call) :
    Pending json w (calls ++ [call]) m bytes := by
  have hrunNext := Run.run_concat (step json) w calls call
  have hmeets := meets_concat json w calls call
  cases h with
  | attached older hrun hkeeps =>
    rw [hrun] at hfails hrunNext hmeets
    have hkeeps' := hmeets.mpr ⟨hkeeps, fun hhandle => by cases hhandle⟩
    rcases attached_fails hfails with ⟨older', hstep⟩ | hstep
    · exact .attached older' (hrunNext.trans hstep) hkeeps'
    · exact .stale (hrunNext.trans hstep) hkeeps'
  | stale hrun hkeeps =>
    rw [hrun] at hfails hrunNext hmeets
    rcases stale_fails hfails with ⟨hkeep, hstep⟩ | ⟨hremove, hstep⟩
    · exact .stale (hrunNext.trans hstep) (hmeets.mpr ⟨hkeeps, fun _ => hkeep⟩)
    · exact .orphaned (hrunNext.trans hstep) fun hall => (hmeets.mp hall).2 rfl hremove
  | orphaned hrun hlost =>
    rw [hrun] at hfails hrunNext
    exact .orphaned (hrunNext.trans (orphaned_fails hfails)) fun hall => hlost (hmeets.mp hall).1

theorem pending_of_fails {older : Option Bytes} {calls : List WalCall}
    (hfails : Run.Meets (step json) (Fails json) (attached m bytes older) calls) :
    Pending json (attached m bytes older) calls m bytes := by
  induction calls using List.reverseRecOn with
  | nil =>
    exact .attached older rfl trivial
  | append_singleton calls call ih =>
    obtain ⟨hinit, hlast, _⟩ := Run.meets_append.mp hfails
    exact (ih hinit).fails hlast

theorem onDisk_nil (w : OpenWal) : w.OnDisk [] := by
  exact Or.inl List.nil_prefix

/-- A segment that is on disk beside nothing but one record is the beginning of
that record. -/
theorem prefix_of_onDisk {line : Bytes}
    (h : (attached m line none).OnDisk bytes ∨ ∃ b, (orphaned m b).OnDisk bytes) :
    bytes <+: line := by
  have hnil : bytes <+: [] → bytes <+: line := by
    intro hempty
    rw [List.prefix_nil.mp hempty]
    exact List.nil_prefix
  rcases h with (hactive | hrotated) | ⟨b, hactive | hrotated⟩
  · exact hactive
  · exact hnil hrotated
  · exact hnil hactive
  · exact hnil hrotated

/-- **The next call that returns `Ok`.**  The segment is on disk when it never
lost its name, and otherwise only if the new record repeats it. -/
theorem Pending.succeeds {w : OpenWal} {calls : List WalCall} {call : WalCall}
    (h : Pending json w calls m bytes)
    (hok : ¬ (Run.run (step json) w calls).Fails json call) :
    (Run.Meets (step json) (KeepsSegment json) w (calls ++ [call]) →
      (Run.run (step json) w (calls ++ [call])).OnDisk bytes) ∧
    ((Run.run (step json) w (calls ++ [call])).OnDisk bytes →
      Run.Meets (step json) (KeepsSegment json) w (calls ++ [call]) ∨
        bytes <+: json.line call.event) := by
  rw [meets_concat, Run.run_concat]
  cases h with
  | attached older hrun hkeeps =>
    rw [hrun] at hok ⊢
    refine ⟨fun _ => ?_, fun _ => Or.inl ⟨hkeeps, fun hhandle => by cases hhandle⟩⟩
    rcases attached_succeeds hok with hstep | hstep
    · rw [hstep]
      exact Or.inl (List.prefix_append _ _)
    · rw [hstep]
      exact Or.inr (List.prefix_refl _)
  | stale hrun hkeeps =>
    rw [hrun] at hok ⊢
    rcases stale_succeeds hok with ⟨hkeep, hstep⟩ | ⟨hremove, hstep⟩
    · rw [hstep]
      exact ⟨fun _ => Or.inr (List.prefix_append _ _),
        fun _ => Or.inl ⟨hkeeps, fun _ => hkeep⟩⟩
    · rw [hstep]
      exact ⟨fun hall => absurd hremove (hall.2 rfl),
        fun hdisk => Or.inr (prefix_of_onDisk (Or.inl hdisk))⟩
  | orphaned hrun hlost =>
    rw [hrun] at hok ⊢
    refine ⟨fun hall => absurd hall.1 hlost, fun hdisk => Or.inr ?_⟩
    rcases orphaned_succeeds hok with hstep | hstep
    · rw [hstep] at hdisk
      exact prefix_of_onDisk (m := m) (Or.inr ⟨_, hdisk⟩)
    · rw [hstep] at hdisk
      exact prefix_of_onDisk (Or.inl hdisk)

/-- **Which failed rotations keep the active segment.**  Let a rotation fail in
a writer that was opened on any files and used in any way, and let `next` be the
first append after it that returns `Ok`.  If no rotation in between removes
`<path>.1` while the handle leads to it, everything that was in the active file
is in one of the two files afterwards; and if one does, nothing but a repetition
of the segment by the record of `next` can be there. -/
theorem failedRotation_keepsSegment (json : SerdeJson) (files : WalFiles) (maxBytes : UInt64)
    (before between : List WalCall) (call next : WalCall)
    (hcall : (Run.run (step json) (ofFiles files maxBytes) before).Fails json call)
    (hbetween : Run.Meets (step json) (Fails json)
      (Run.run (step json) (ofFiles files maxBytes) (before ++ [call])) between)
    (hnext : ¬ (Run.run (step json) (ofFiles files maxBytes)
      (before ++ call :: between)).Fails json next) :
    let w := Run.run (step json) (ofFiles files maxBytes) before
    let done := Run.run (step json) w (call :: between ++ [next])
    let keeps := Run.Meets (step json) (KeepsSegment json) w (call :: between ++ [next])
    (keeps → done.OnDisk (w.files.active.getD [])) ∧
    (done.OnDisk (w.files.active.getD []) →
      keeps ∨ w.files.active.getD [] <+: json.line next.event) := by
  have hshape : (Run.run (step json) (ofFiles files maxBytes) before).Shape :=
    shape_run files maxBytes before
  rw [Run.run_concat] at hbetween
  rw [Run.run_append] at hnext
  generalize Run.run (step json) (ofFiles files maxBytes) before = w at *
  have hfails : Run.Meets (step json) (Fails json) w (call :: between) := ⟨hcall, hbetween⟩
  cases hshape with
  | attached m bytes older =>
    exact (pending_of_fails hfails).succeeds hnext
  | stale m bytes =>
    exact ⟨fun _ => onDisk_nil _, fun _ => Or.inr List.nil_prefix⟩
  | orphaned m bytes =>
    exact ⟨fun _ => onDisk_nil _, fun _ => Or.inr List.nil_prefix⟩

end Windows

/-- A rename that fails keeps the segment in place, and the next append rotates
it. -/
theorem failedRotation_keepsSegment_rename :
    let first : Event := ⟨1000, .errorHw, "gpu-0", none, none, "XID_79", some "node-a"⟩
    let second : Event := ⟨2000, .errorHw, "gpu-1", none, none, "XID_31", some "node-a"⟩
    let w := Run.run (step compactJson) (ofFiles .empty 170) [⟨first, none⟩]
    let done := Run.run (step compactJson) w [⟨second, some .rename⟩, ⟨second, none⟩]
    w.files.active = some (compactJson.line first) ∧
    done.OnDisk (w.files.active.getD []) := by
  intro first second
  have hkeeps := (failedRotation_keepsSegment compactJson .empty 170 [⟨first, none⟩] []
    ⟨second, some .rename⟩ ⟨second, none⟩ (by decide +kernel) trivial (by decide +kernel)).1
    (by decide +kernel)
  exact ⟨by decide +kernel, hkeeps⟩

/-- **A failed reopen loses the segment.**  The rotation has already moved the
active file to `<path>.1` when its reopen fails; the next append rotates again,
removes that file, finds nothing to rename and returns `Ok`. -/
theorem failedRotation_keepsSegment_reopen :
    let first : Event := ⟨1000, .errorHw, "gpu-0", none, none, "XID_79", some "node-a"⟩
    let second : Event := ⟨2000, .errorHw, "gpu-1", none, none, "XID_31", some "node-a"⟩
    let w := Run.run (step compactJson) (ofFiles .empty 170) [⟨first, none⟩]
    let failed := w.appendWalEvent compactJson ⟨second, some .reopen⟩
    let done := failed.1.appendWalEvent compactJson ⟨second, none⟩
    w.files.active = some (compactJson.line first) ∧
    failed.2.isOk = false ∧
    failed.1.files = { active := none, rotated := some (compactJson.line first) } ∧
    done.2.isOk = true ∧
    done.1.files = { active := some (compactJson.line second), rotated := none } ∧
    ¬ done.1.OnDisk (compactJson.line first) := by
  decide +kernel

end OpenWal

end ArkInfra
