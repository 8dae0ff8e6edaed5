import ArkInfra.Core.EventJson
import ArkInfra.Lib.Run
import ArkInfra.Lib.TextFile
import Mathlib.Algebra.Group.Nat.Defs
import Mathlib.Tactic.SplitIfs

/-!
# The write-ahead log of the hub

`hub/src/wal.rs`, the writing side: every accepted event is appended to a file
as one line of JSON, and when the file would outgrow its limit it becomes the
rotated file `<path>.1`, in the place of an older one.

The log is the only user of its two files, so the open handle of the writer
always leads to the file at `path`; a file is represented by its bytes, and a
missing one by `none`.  `metadata` reports the length after all completed
writes.  A write may be cut short after any proper beginning of its bytes, by
an error or by a crash, which the environment decides (`fault`); a file cannot
grow beyond the largest offset of the system.

The file is an asynchronous one: `write_all` may return `Ok` before the bytes are
in the file, and what becomes of them then is reported by a later call or not at
all.  Whether the call itself reports is up to the environment too (`report`).
-/

namespace ArkInfra

open TextFile

namespace SerdeJson

/-- The bytes of `to_vec`. -/
def toVec (json : SerdeJson) (event : Event) : Bytes :=
  encode (json.toText event)

/-- The record of an event: its JSON and a newline. -/
def line (json : SerdeJson) (event : Event) : Bytes :=
  json.toVec event ++ [newline]

def lines (json : SerdeJson) (events : List Event) : Bytes :=
  (events.map json.line).flatten

end SerdeJson

/-- The files at `<path>` and `<path>.1`. -/
structure WalFiles where
  active : Option Bytes
  rotated : Option Bytes
  deriving DecidableEq

/-- An open writer. -/
structure WalState where
  files : WalFiles
  maxBytes : UInt64
  deriving DecidableEq

structure WalAppendResult where
  rotated : Bool
  sizeBytes : Nat
  deriving DecidableEq

inductive WalError where
  | writeFailed
  deriving DecidableEq

/-- When the failure of a write is reported: by the call that makes it, or after that
call has returned `Ok`. -/
inductive WriteReport where
  | atOnce
  | later
  deriving DecidableEq

/-- The error that the call itself returns for a failed write. -/
def WriteReport.error : WriteReport → Option WalError
  | .atOnce => some .writeFailed
  | .later => none

/-- The largest length of a file, the largest signed 64-bit offset. -/
def maxFileLen : Nat :=
  2 ^ 63 - 1

/-- Addition of unsigned 64-bit numbers that stops at the largest one. -/
def saturatingAdd (a b : Nat) : Nat :=
  min (a + b) (2 ^ 64 - 1)

/-- Multiplication of unsigned 64-bit numbers that stops at the largest one. -/
def saturatingMul (a b : Nat) : Nat :=
  min (a * b) (2 ^ 64 - 1)

namespace WalFiles

def empty : WalFiles where
  active := none
  rotated := none

/-- Open the active file for appending; a missing one is created. -/
def openActive (files : WalFiles) : WalFiles :=
  { files with active := some (files.active.getD []) }

end WalFiles

def openWalWriter (files : WalFiles) (walMaxMb : UInt64) : WalState where
  files := files.openActive
  maxBytes := UInt64.ofNat (saturatingMul walMaxMb.toNat (1024 * 1024))

namespace WalState

def fileLen (state : WalState) : Nat :=
  (state.files.active.getD []).length

def write (state : WalState) (bytes : Bytes) : WalState :=
  { state with
    files := { state.files with active := some (state.files.active.getD [] ++ bytes) } }

/-- Remove the rotated file, move the active file to its place and open a new
active file. -/
def rotateWal (state : WalState) : WalState :=
  let removed : WalFiles :=
    if state.files.rotated.isSome then { state.files with rotated := none } else state.files
  let renamed : WalFiles :=
    match removed.active with
    | some bytes => { active := none, rotated := some bytes }
    | none => removed
  { state with files := renamed.openActive }

/-- The record would take the active file over the limit; a limit of zero means
none. -/
def needsRotation (state : WalState) (line : Bytes) : Bool :=
  decide (0 < state.maxBytes.toNat) &&
    decide (saturatingAdd state.fileLen line.length > state.maxBytes.toNat)

def makeRoom (state : WalState) (line : Bytes) : WalState :=
  if state.needsRotation line then state.rotateWal else state

/-- After how many bytes the write of a record stops early, if it does: at a
fault, or where the file can grow no further. -/
def interruption (state : WalState) (line : Bytes) (fault : Option Nat) : Option Nat :=
  match fault with
  | some written => some written
  | none =>
    if state.fileLen + line.length ≤ maxFileLen then none
    else some (maxFileLen - state.fileLen)

/-- `write_all` of one record.  An interrupted write leaves a proper beginning
of the record in the file. -/
def writeAll (state : WalState) (line : Bytes) (fault : Option Nat) (report : WriteReport) :
    WalState × Option WalError :=
  match state.interruption line fault with
  | some written => (state.write (line.dropLast.take written), report.error)
  | none => (state.write line, none)

def appendWalEvent (json : SerdeJson) (state : WalState) (event : Event)
    (fault : Option Nat) (report : WriteReport) : WalState × Except WalError WalAppendResult :=
  let line := json.line event
  let rotated := state.needsRotation line
  match (state.makeRoom line).writeAll line fault report with
  | (state, some error) => (state, .error error)
  | (state, none) => (state, .ok { rotated := rotated, sizeBytes := state.fileLen })

end WalState

/-- One use of the log: an append, whose write may be cut short, or a restart
that opens the files again with the same limit. -/
inductive WalOp where
  | append (event : Event) (fault : Option Nat) (report : WriteReport)
  | reopen

namespace WalState

variable (json : SerdeJson)

def step (state : WalState) : WalOp → WalState
  | .append event fault report => (state.appendWalEvent json event fault report).1
  | .reopen => { state with files := state.files.openActive }

/-- The event of an append that returns `Ok`. -/
def acknowledges (state : WalState) : WalOp → Option Event
  | .append event fault report =>
    match (state.appendWalEvent json event fault report).2 with
    | .ok _ => some event
    | .error _ => none
  | .reopen => none

/-- The events whose append returned `Ok`, in order. -/
def acknowledged (state : WalState) : List WalOp → List Event
  | [] => []
  | op :: ops =>
    (state.acknowledges json op).toList ++ acknowledged (state.step json op) ops

def appendedBytes (state : WalState) (event : Event) (fault : Option Nat) : Bytes :=
  match (state.makeRoom (json.line event)).interruption (json.line event) fault with
  | some written => (json.line event).dropLast.take written
  | none => json.line event

def NoRotation (state : WalState) : WalOp → Prop
  | .append event _ _ => state.needsRotation (json.line event) = false
  | .reopen => True

instance (state : WalState) (op : WalOp) : Decidable (state.NoRotation json op) :=
  match op with
  | .append event _ _ => inferInstanceAs (Decidable (state.needsRotation (json.line event) = false))
  | .reopen => inferInstanceAs (Decidable True)

variable {json}

theorem acknowledged_concat (state : WalState) (ops : List WalOp) (op : WalOp) :
    state.acknowledged json (ops ++ [op]) =
      state.acknowledged json ops ++
        ((Run.run (step json) state ops).acknowledges json op).toList := by
  induction ops generalizing state with
  | nil =>
    simp [acknowledged]
  | cons op' ops ih =>
    simp [acknowledged, ih]

@[simp] theorem fileLen_write (state : WalState) (bytes : Bytes) :
    (state.write bytes).fileLen = state.fileLen + bytes.length := by
  simp [write, fileLen]

theorem rotateWal_eq {state : WalState} {bytes : Bytes}
    (h : state.files.active = some bytes) :
    state.rotateWal =
      { state with files := { active := some [], rotated := some bytes } } := by
  unfold rotateWal
  cases state.files.rotated <;> simp [h, WalFiles.openActive]

theorem makeRoom_of_noRotation {state : WalState} {line : Bytes}
    (h : state.needsRotation line = false) : state.makeRoom line = state := by
  simp [makeRoom, h]

theorem appendWalEvent_of_interruption {state : WalState} {event : Event}
    {fault : Option Nat} {written : Nat}
    (h : (state.makeRoom (json.line event)).interruption (json.line event) fault =
      some written) :
    state.appendWalEvent json event fault .atOnce =
      ((state.makeRoom (json.line event)).write ((json.line event).dropLast.take written),
        .error .writeFailed) := by
  simp only [appendWalEvent, writeAll, h, WriteReport.error]

theorem appendWalEvent_of_complete {state : WalState} {event : Event} {fault : Option Nat}
    (h : (state.makeRoom (json.line event)).interruption (json.line event) fault = none)
    (report : WriteReport) :
    state.appendWalEvent json event fault report =
      ((state.makeRoom (json.line event)).write (json.line event),
        .ok
          { rotated := state.needsRotation (json.line event)
            sizeBytes := ((state.makeRoom (json.line event)).write (json.line event)).fileLen }) := by
  simp only [appendWalEvent, writeAll, h]

theorem appendWalEvent_fst (state : WalState) (event : Event) (fault : Option Nat)
    (report : WriteReport) :
    (state.appendWalEvent json event fault report).1 =
      (state.makeRoom (json.line event)).write (state.appendedBytes json event fault) := by
  unfold appendedBytes
  cases hint : (state.makeRoom (json.line event)).interruption (json.line event) fault with
  | some written =>
    -- the file is the same whenever the failure is reported
    cases report <;> simp only [appendWalEvent, writeAll, hint, WriteReport.error]
  | none =>
    rw [appendWalEvent_of_complete hint]

theorem le_maxFileLen_of_complete {state : WalState} {line : Bytes} {fault : Option Nat}
    (h : state.interruption line fault = none) :
    state.fileLen + line.length ≤ maxFileLen := by
  cases fault with
  | some written =>
    cases h
  | none =>
    by_contra hlen
    simp [interruption, hlen] at h

theorem interruption_of_ok {state : WalState} {event : Event} {fault : Option Nat}
    (h : (state.appendWalEvent json event fault .atOnce).2.isOk = true) :
    (state.makeRoom (json.line event)).interruption (json.line event) fault = none := by
  cases hint : (state.makeRoom (json.line event)).interruption (json.line event) fault with
  | some written =>
    rw [appendWalEvent_of_interruption hint] at h
    cases h
  | none =>
    rfl

theorem appendedBytes_of_complete {state : WalState} {event : Event} {fault : Option Nat}
    (h : (state.makeRoom (json.line event)).interruption (json.line event) fault = none) :
    state.appendedBytes json event fault = json.line event ∧
      (state.makeRoom (json.line event)).fileLen + (json.line event).length ≤ maxFileLen := by
  rw [appendedBytes, h]
  exact ⟨rfl, le_maxFileLen_of_complete h⟩

@[simp] theorem step_maxBytes (state : WalState) (op : WalOp) :
    (state.step json op).maxBytes = state.maxBytes := by
  cases op with
  | append event fault report =>
    have hroom : (state.makeRoom (json.line event)).maxBytes = state.maxBytes := by
      unfold makeRoom
      split_ifs <;> rfl
    rw [step, appendWalEvent_fst]
    exact hroom
  | reopen =>
    rfl

theorem meets_noRotation_of_unlimited {state : WalState} (h : state.maxBytes = 0)
    (ops : List WalOp) : Run.Meets (step json) (NoRotation json) state ops := by
  refine Run.meets_of_invariant (I := fun s : WalState => s.maxBytes = 0) ?_ ?_ h ops
  · intro s op hs
    rw [step_maxBytes, hs]
  · intro s op hs
    cases op with
    | append event fault report =>
      simp [NoRotation, needsRotation, hs]
    | reopen =>
      trivial

end WalState

namespace SerdeJson

@[simp] theorem lines_append (json : SerdeJson) (a b : List Event) :
    json.lines (a ++ b) = json.lines a ++ json.lines b := by
  simp [lines]

@[simp] theorem lines_singleton (json : SerdeJson) (event : Event) :
    json.lines [event] = json.line event := by
  simp [lines]

theorem OneLine.newline_notMem_toVec {json : SerdeJson} (h : json.OneLine) (event : Event) :
    newline ∉ json.toVec event := by
  exact newline_notMem_encode (h.newline_notMem event)

theorem OneLine.rawLines_lines {json : SerdeJson} (h : json.OneLine) (events : List Event)
    {tail : Bytes} (htail : newline ∉ tail) :
    rawLines (json.lines events ++ tail) =
      events.map json.line ++ (if tail = [] then [] else [tail]) := by
  have hrecords : ∀ r ∈ events.map json.toVec, newline ∉ r := by
    intro r hr
    obtain ⟨event, _, rfl⟩ := List.mem_map.mp hr
    exact h.newline_notMem_toVec event
  have key := TextFile.rawLines_lines hrecords htail
  rw [List.map_map] at key
  exact key

end SerdeJson

end ArkInfra
