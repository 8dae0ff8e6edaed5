import ArkInfra.Agent.ArkFix
import ArkInfra.Agent.IpcClient
import ArkInfra.Lib.BufferedLog
import ArkInfra.Lib.Disk
import ArkInfra.Lib.Interleave
import ArkInfra.Lib.Path

/-!
# The audit log

`agent/src/audit.rs`: every `ark fix` opens the log, appends a line for what it
did and rotates the log when the line would take it over its size.  The size is
the one the process has counted since it opened the log; a rotation renames the
log after the second it happens in.

The lines go through a `BufWriter`, which is flushed in every call.  When a flush
fails, what is left of the line stays in the buffer, and the next call, a rotation
or the end of the process writes it out.

Several commands may be at work at once, each with its own handle, buffer and
count, so a process may append to a log that another one has renamed, or rename
the log that another one has just begun.  `auditLog_kept` says what survives in
every interleaving, whatever fails: every process has written its lines in order,
without gap or repetition, up to the end of the last acknowledged one at least,
and nothing that was written is lost unless two rotations fall into one second and
the second takes the name of the first.
-/

namespace ArkInfra

open ArkFix Json BufferedLog

namespace ArkFix.AuditLogEntry

/-- The derived serializer. -/
def value (entry : AuditLogEntry) : Value :=
  .object
    [("timestamp", .string entry.timestamp), ("user", .string entry.user),
      ("action", .string entry.action), ("target_pid", .number entry.targetPid),
      ("target_job_id", Json.ofOption .string entry.targetJobId),
      ("result", .string entry.result), ("details", .string entry.details)]

def line (entry : AuditLogEntry) : Bytes :=
  entry.value.toVec ++ [TextFile.newline]

end ArkFix.AuditLogEntry

/-- The name of the log in its directory, and the size that it may have. -/
structure AuditLogger where
  logName : String
  maxSize : Nat

namespace AuditLogger

def new (logName : String) (maxSizeMb : Nat) : AuditLogger where
  logName := logName
  maxSize := maxSizeMb * 1024 * 1024

/-- The name that the log gets in a rotation. -/
def rotatedName (logger : AuditLogger) (timestamp : String) : String :=
  PathBuf.withExtensionOf logger.logName (timestamp ++ ".log")

/-- What all processes see: the files, and the seconds in which the log was
renamed. -/
structure Directory where
  disk : Disk String Bytes
  renamedAt : List String

/-- The size of the buffer of a `BufWriter`. -/
def capacity : Nat := 8192

/-- The writer of a process: its handle, the size it has counted, and its buffer. -/
structure Writer where
  handle : Nat
  currentSize : Nat
  buffer : Bytes

/-- Where a process stands, between two calls to the file system.  In a call of
`log`, the entry is the one that it logs; where no buffer is named it is empty. -/
inductive Stage where
  | opening
  | measuring (handle : Nat)
  | ready (w : Writer)
  | logging (w : Writer) (entry : AuditLogEntry)
  | rotating (w : Writer) (entry : AuditLogEntry)
  | moving (handle currentSize : Nat) (entry : AuditLogEntry)
  | reopening (handle currentSize : Nat) (entry : AuditLogEntry)
  | accepting (w : Writer) (entry : AuditLogEntry)
  | makingRoom (w : Writer) (entry : AuditLogEntry)
  | writingLine (handle currentSize : Nat) (entry : AuditLogEntry) (part rest : Bytes)
      (hline : part ++ rest = entry.line)
  | flushing (w : Writer) (entry : AuditLogEntry)
  | closing (w : Writer)
  | ended (lost : Bytes)

/-- A process: the entries that it has yet to log, the calls of `log` that have
returned, and the pieces that it has written. -/
structure Task where
  todo : List AuditLogEntry
  attempts : List (Attempt AuditLogEntry UInt8)
  pieces : List Bytes
  stage : Stage

/-- A call to the file system: its time, to the second, whether the system lets it
succeed, and how much a write takes of its bytes, if not all. -/
structure Moment where
  timestamp : String
  allowed : Bool
  taken : Option Nat

/-- What a write takes of its bytes; nothing, when it fails. -/
def Moment.takes (moment : Moment) (bytes : Bytes) : Bytes :=
  if moment.allowed then
    match moment.taken with
    | none => bytes
    | some n => bytes.take n
  else
    []

def Moment.Uncut (moment : Moment) : Prop :=
  moment.taken = none

def enter (entries : List AuditLogEntry) : Task where
  todo := entries
  attempts := []
  pieces := []
  stage := .opening

def sizeOf (disk : Disk String Bytes) (handle : Nat) : Nat :=
  (disk.content handle).flatten.length

/-- The first half of `rotate_log`, behind its flush. -/
def renameLog (logger : AuditLogger) (dir : Directory) (moment : Moment) : Option Directory :=
  if moment.allowed then
    (dir.disk.rename logger.logName (logger.rotatedName moment.timestamp)).map fun disk =>
      { disk := disk, renamedAt := dir.renamedAt ++ [moment.timestamp] }
  else
    none

/-- Open the log, or create it. -/
def openLog (logger : AuditLogger) (dir : Directory) : Directory × Nat :=
  ({ dir with disk := (dir.disk.openAppend logger.logName).1 },
    (dir.disk.openAppend logger.logName).2)

theorem takes_append_drop (moment : Moment) (bytes : Bytes) :
    moment.takes bytes ++ bytes.drop (moment.takes bytes).length = bytes := by
  unfold Moment.takes
  split
  · split
    · simp
    next n _ =>
      rw [List.length_take]
      rcases Nat.le_total n bytes.length with hle | hle
      · rw [Nat.min_eq_left hle, List.take_append_drop]
      · rw [Nat.min_eq_right hle, List.take_of_length_le hle, List.drop_length, List.append_nil]
  · rfl

theorem takes_of_uncut {moment : Moment} {bytes : Bytes} (huncut : moment.Uncut)
    (h : moment.takes bytes ≠ []) : moment.takes bytes = bytes := by
  unfold Moment.takes at h ⊢
  rw [show moment.taken = none from huncut] at h ⊢
  split_ifs at h ⊢
  · rfl
  · exact absurd rfl h

/-- Return from `log` with an error. -/
def Task.fail (task : Task) (w : Writer) (entry : AuditLogEntry) (part : Bytes) : Task :=
  { task with attempts := task.attempts ++ [⟨entry, part, false⟩], stage := .ready w }

/-- Return from `log`. -/
def Task.succeed (task : Task) (w : Writer) (entry : AuditLogEntry) : Task :=
  { task with
    attempts := task.attempts ++ [⟨entry, entry.line, true⟩]
    stage := .ready { w with currentSize := w.currentSize + entry.line.length } }

def writePiece (dir : Directory) (task : Task) (handle : Nat) (piece : Bytes) (stage : Stage) :
    Directory × Task :=
  ({ dir with disk := dir.disk.append handle piece },
    { task with pieces := task.pieces ++ [piece], stage := stage })

/-- One write of `flush_buf`, for a buffer that is not empty: what the system does not
take stays in the buffer. -/
def flushSome (dir : Directory) (task : Task) (w : Writer) (moment : Moment)
    (again : Writer → Stage) (failed : Task) : Directory × Task :=
  let piece := moment.takes w.buffer
  if piece = [] then (dir, failed)
  else
    writePiece dir task w.handle piece (again { w with buffer := w.buffer.drop piece.length })

/-- The end of `write_all`: a line as long as the buffer is written to the file. -/
def place (w : Writer) (entry : AuditLogEntry) : Stage :=
  if capacity ≤ entry.line.length then
    .writingLine w.handle w.currentSize entry [] entry.line rfl
  else
    .flushing { w with buffer := w.buffer ++ entry.line } entry

/-- The start of `write_all`: copy the line, or make room for it. -/
def accept (w : Writer) (entry : AuditLogEntry) : Stage :=
  let spare := capacity - w.buffer.length
  if entry.line.length < spare then
    .flushing { w with buffer := w.buffer ++ entry.line } entry
  else if spare < entry.line.length then .makingRoom w entry
  else place w entry

/-- The next call of a process to the file system, or a step between two of them.  A
call of `log` that fails returns its error; the logger has the handle and the count it
had before, but for a rotation that has taken place. -/
def runSection (logger : AuditLogger) (dir : Directory) (task : Task) (moment : Moment) :
    Directory × Task :=
  match task.stage with
  | .opening =>
    if moment.allowed then
      let (dir, handle) := logger.openLog dir
      (dir, { task with stage := .measuring handle })
    else
      (dir, { task with stage := .ended [] })
  | .measuring handle =>
    if moment.allowed then
      (dir, { task with stage := .ready ⟨handle, sizeOf dir.disk handle, []⟩ })
    else
      (dir, { task with stage := .ended [] })
  | .ready w =>
    match task.todo with
    | [] => (dir, { task with stage := .closing w })
    | entry :: todo => (dir, { task with todo := todo, stage := .logging w entry })
  | .logging w entry =>
    if w.currentSize + entry.line.length > logger.maxSize then
      (dir, { task with stage := .rotating w entry })
    else
      (dir, { task with stage := .accepting w entry })
  | .rotating w entry =>
    if w.buffer = [] then (dir, { task with stage := .moving w.handle w.currentSize entry })
    else flushSome dir task w moment (.rotating · entry) (task.fail w entry [])
  | .moving handle currentSize entry =>
    match logger.renameLog dir moment with
    | some dir => (dir, { task with stage := .reopening handle currentSize entry })
    | none => (dir, task.fail ⟨handle, currentSize, []⟩ entry [])
  | .reopening handle currentSize entry =>
    if moment.allowed then
      let (dir, handle) := logger.openLog dir
      (dir, { task with stage := .accepting ⟨handle, 0, []⟩ entry })
    else
      (dir, task.fail ⟨handle, currentSize, []⟩ entry [])
  | .accepting w entry => (dir, { task with stage := accept w entry })
  | .makingRoom w entry =>
    if w.buffer = [] then (dir, { task with stage := place w entry })
    else flushSome dir task w moment (.makingRoom · entry) (task.fail w entry [])
  | .writingLine handle currentSize entry part rest hline =>
    if rest = [] then (dir, { task with stage := .flushing ⟨handle, currentSize, []⟩ entry })
    else
      let piece := moment.takes rest
      if piece = [] then (dir, task.fail ⟨handle, currentSize, []⟩ entry part)
      else
        writePiece dir task handle piece
          (.writingLine handle currentSize entry (part ++ piece) (rest.drop piece.length) (by
            rw [List.append_assoc, takes_append_drop, hline]))
  | .flushing w entry =>
    if w.buffer = [] then (dir, task.succeed w entry)
    else flushSome dir task w moment (.flushing · entry) (task.fail w entry entry.line)
  | .closing w =>
    -- the writer is dropped, and what it cannot write is lost
    if w.buffer = [] then (dir, { task with stage := .ended [] })
    else flushSome dir task w moment .closing { task with stage := .ended w.buffer }
  | .ended _ => (dir, task)

/-- Processes on one directory, in any interleaving. -/
abbrev Processes : Type :=
  Pool Directory Task

abbrev Step : Type :=
  Pool.Action (List AuditLogEntry) Moment

def step (logger : AuditLogger) : Processes → Step → Processes :=
  Pool.step enter logger.runSection

/-- Processes that come upon a directory. -/
def run (logger : AuditLogger) (disk : Disk String Bytes) (steps : List Step) : Processes :=
  Run.run logger.step ⟨⟨disk, []⟩, []⟩ steps

section Names

variable (logger : AuditLogger)

theorem rotatedName_injective : Function.Injective logger.rotatedName := by
  intro s t h
  have hne : ∀ u : String, u ++ ".log" ≠ "" := by
    intro u hu
    simpa using congrArg String.length hu
  exact (String.append_left_inj _).mp
    (PathBuf.withExtensionOf_injective logger.logName (hne s) (hne t) h)

theorem rotatedName_ne (timestamp : String) : logger.rotatedName timestamp ≠ logger.logName :=
  PathBuf.withExtensionOf_ne logger.logName (by simp)

end Names

section Account

/-- The buffer of a process, and at the end what was left of it. -/
def Stage.buffered : Stage → Bytes
  | .ready w | .closing w => w.buffer
  | .logging w _ | .rotating w _ | .accepting w _ | .makingRoom w _ | .flushing w _ => w.buffer
  | .ended lost => lost
  | _ => []

/-- The entry that a process is logging, and the part of its line that the writer has
taken. -/
def Stage.current : Stage → Option (AuditLogEntry × Bytes)
  | .opening | .measuring _ | .ready _ | .closing _ | .ended _ => none
  | .writingLine _ _ entry part _ _ => some (entry, part)
  | .flushing _ entry => some (entry, entry.line)
  | .logging _ entry | .rotating _ entry | .accepting _ entry => some (entry, [])
  | .moving _ _ entry | .reopening _ _ entry | .makingRoom _ entry => some (entry, [])

def Stage.handle : Stage → Option Nat
  | .opening | .ended _ => none
  | .ready w | .closing w => some w.handle
  | .logging w _ | .rotating w _ | .accepting w _ | .makingRoom w _ | .flushing w _ => some w.handle
  | .measuring handle | .moving handle _ _ | .reopening handle _ _ => some handle
  | .writingLine handle _ _ _ _ _ => some handle

def Task.account (task : Task) : Account AuditLogEntry UInt8 where
  attempts := task.attempts
  pieces := task.pieces
  buffered := task.stage.buffered
  current := task.stage.current

/-- The entries that a process was started with: those it has tried to log, the one
that it is logging and those that are left. -/
def Task.asked (task : Task) : List AuditLogEntry :=
  task.attempts.map Attempt.entry ++ (task.stage.current.map Prod.fst).toList ++ task.todo

inductive DiskEffect (logger : AuditLogger) (dir : Directory) (task : Task) :
    Directory → Task → Prop
  | none {task' : Task} (hhandle : task'.stage.handle = task.stage.handle ∨
      task'.stage.handle = Option.none) (hpieces : task'.pieces = task.pieces) :
      DiskEffect logger dir task dir task'
  | opened {task' : Task} (hhandle : task'.stage.handle = some (logger.openLog dir).2)
      (hpieces : task'.pieces = task.pieces) :
      DiskEffect logger dir task (logger.openLog dir).1 task'
  | renamed {dir' : Directory} {task' : Task} (moment : Moment)
      (hrename : logger.renameLog dir moment = some dir')
      (hhandle : task'.stage.handle = task.stage.handle) (hpieces : task'.pieces = task.pieces) :
      DiskEffect logger dir task dir' task'
  | wrote {task' : Task} {handle : Nat} (piece : Bytes) (hbefore : task.stage.handle = some handle)
      (hhandle : task'.stage.handle = some handle)
      (hpieces : task'.pieces = task.pieces ++ [piece]) :
      DiskEffect logger dir task { dir with disk := dir.disk.append handle piece } task'

structure SectionSpec (logger : AuditLogger) (moment : Moment) (dir : Directory) (task : Task)
    (next : Directory × Task) : Prop where
  account : BufferedLog.Step AuditLogEntry.line moment.Uncut task.account next.2.account
  asked : next.2.asked = task.asked
  disk : DiskEffect logger dir task next.1 next.2

variable {logger : AuditLogger} {moment : Moment} {dir : Directory} {task : Task}

theorem stay_of_stage {stage : Stage} (hbuffered : stage.buffered = task.stage.buffered)
    (hcurrent : stage.current = task.stage.current) :
    BufferedLog.Step AuditLogEntry.line moment.Uncut task.account
      (Task.account { task with stage := stage }) := by
  have hsame : Task.account { task with stage := stage } = task.account := by
    simp only [Task.account, hbuffered, hcurrent]
  rw [hsame]
  exact .stay _

theorem SectionSpec.of_stage {stage : Stage} (hbuffered : stage.buffered = task.stage.buffered)
    (hcurrent : stage.current = task.stage.current) (hhandle : stage.handle = task.stage.handle) :
    SectionSpec logger moment dir task (dir, { task with stage := stage }) := by
  refine ⟨stay_of_stage hbuffered hcurrent, ?_, .none (.inl hhandle) rfl⟩
  simp only [Task.asked, hcurrent]

theorem SectionSpec.of_fail {w : Writer} {entry : AuditLogEntry} {part : Bytes}
    (hbuffered : w.buffer = task.stage.buffered)
    (hcurrent : task.stage.current = some (entry, part))
    (hhandle : task.stage.handle = some w.handle) :
    SectionSpec logger moment dir task (dir, task.fail w entry part) := by
  refine ⟨?_, ?_, .none (.inl hhandle.symm) rfl⟩
  · have hfinish : (task.fail w entry part).account = task.account.finish entry part false := by
      simp only [Task.account, Task.fail, Account.finish, Stage.buffered, Stage.current, hbuffered]
    rw [hfinish]
    exact .fail _ entry part hcurrent
  · rw [Task.asked, Task.asked, hcurrent]
    simp [Task.fail, Stage.current]

theorem SectionSpec.of_push {w : Writer} {entry : AuditLogEntry}
    (hbuffered : w.buffer = task.stage.buffered) (hcurrent : task.stage.current = some (entry, []))
    (hhandle : task.stage.handle = some w.handle) :
    SectionSpec logger moment dir task
      (dir, { task with
        stage := .flushing { w with buffer := w.buffer ++ entry.line } entry }) := by
  refine ⟨?_, ?_, .none (.inl hhandle.symm) rfl⟩
  · have hpush : Task.account { task with
        stage := .flushing { w with buffer := w.buffer ++ entry.line } entry } =
          task.account.push entry entry.line := by
      simp only [Task.account, Account.push, Stage.buffered, Stage.current, hbuffered]
    rw [hpush]
    exact .push _ entry hcurrent
  · rw [Task.asked, Task.asked, hcurrent]
    rfl

theorem SectionSpec.of_place {w : Writer} {entry : AuditLogEntry}
    (hbuffered : w.buffer = task.stage.buffered) (hcurrent : task.stage.current = some (entry, []))
    (hhandle : task.stage.handle = some w.handle)
    (hempty : capacity ≤ entry.line.length → w.buffer = []) :
    SectionSpec logger moment dir task (dir, { task with stage := place w entry }) := by
  unfold place
  split_ifs with hlong
  · refine .of_stage ?_ hcurrent.symm hhandle.symm
    rw [← hbuffered, hempty hlong]
    rfl
  · exact .of_push hbuffered hcurrent hhandle

theorem SectionSpec.of_flushSome {w : Writer} {again : Writer → Stage} {failed : Task}
    (hbuffered : w.buffer = task.stage.buffered) (hhandle : task.stage.handle = some w.handle)
    (hagain : ∀ w', (again w').buffered = w'.buffer ∧ (again w').current = task.stage.current ∧
      (again w').handle = some w'.handle)
    (hfailed : SectionSpec logger moment dir task (dir, failed)) :
    SectionSpec logger moment dir task (flushSome dir task w moment again failed) := by
  unfold flushSome
  dsimp only
  split_ifs with hpiece
  · exact hfailed
  · obtain ⟨hrest, hcurrent, hagainHandle⟩ :=
      hagain { w with buffer := w.buffer.drop (moment.takes w.buffer).length }
    refine ⟨?_, ?_, .wrote _ hhandle hagainHandle rfl⟩
    · have hwrite : (writePiece dir task w.handle (moment.takes w.buffer)
          (again { w with buffer := w.buffer.drop (moment.takes w.buffer).length })).2.account =
          task.account.write (moment.takes w.buffer)
            (w.buffer.drop (moment.takes w.buffer).length) := by
        simp only [writePiece, Task.account, Account.write, hrest, hcurrent]
      rw [hwrite]
      refine .write _ _ _ ?_ ?_
      · change task.stage.buffered = _
        rw [takes_append_drop, hbuffered]
      · intro huncut
        rw [takes_of_uncut huncut hpiece, List.drop_length]
    · simp only [writePiece, Task.asked, hcurrent]

theorem SectionSpec.of_writeLine {handle currentSize : Nat} {entry : AuditLogEntry}
    {part rest : Bytes} {hline : part ++ rest = entry.line}
    (hstage : task.stage = .writingLine handle currentSize entry part rest hline)
    (hpiece : moment.takes rest ≠ [])
    (hline' : (part ++ moment.takes rest) ++ rest.drop (moment.takes rest).length = entry.line) :
    SectionSpec logger moment dir task
      (writePiece dir task handle (moment.takes rest) (.writingLine handle currentSize entry
        (part ++ moment.takes rest) (rest.drop (moment.takes rest).length) hline')) := by
  have hcurrent : task.account.current = some (entry, part) := by
    simp only [Task.account, hstage, Stage.current]
  have hbuffered : task.account.buffered = [] := by
    simp only [Task.account, hstage, Stage.buffered]
  refine ⟨?_, ?_, .wrote _ (by rw [hstage]; rfl) rfl rfl⟩
  · have hwrite : (writePiece dir task handle (moment.takes rest) (.writingLine handle currentSize
        entry (part ++ moment.takes rest) (rest.drop (moment.takes rest).length)
          hline')).2.account = task.account.writeLine entry part (moment.takes rest) := by
      simp only [writePiece, Task.account, Account.writeLine, Stage.buffered, Stage.current, hstage]
    rw [hwrite]
    refine .writeLine _ entry part _ hcurrent hbuffered hpiece ⟨_, hline'⟩ ?_
    intro huncut
    rw [takes_of_uncut huncut hpiece, hline]
  · simp only [writePiece, Task.asked, Stage.current, hstage, Option.map_some]

theorem SectionSpec.of_openLog {stage : Stage} (hbuffered : stage.buffered = task.stage.buffered)
    (hcurrent : stage.current = task.stage.current)
    (hhandle : stage.handle = some (logger.openLog dir).2) :
    SectionSpec logger moment dir task
      ((logger.openLog dir).1, { task with stage := stage }) := by
  refine ⟨stay_of_stage hbuffered hcurrent, ?_, .opened hhandle rfl⟩
  simp only [Task.asked, hcurrent]

/-- **What one section does.** -/
theorem runSection_spec (logger : AuditLogger) (dir : Directory) (task : Task) (moment : Moment) :
    SectionSpec logger moment dir task (logger.runSection dir task moment) := by
  obtain ⟨todo, attempts, pieces, stage⟩ := task
  unfold runSection
  cases stage with
  | opening =>
    dsimp only
    split_ifs
    · exact .of_openLog rfl rfl rfl
    · exact ⟨.stay _, rfl, .none (.inr rfl) rfl⟩
  | measuring handle =>
    dsimp only
    split_ifs
    · exact .of_stage rfl rfl rfl
    · exact ⟨.stay _, rfl, .none (.inr rfl) rfl⟩
  | ready w =>
    cases todo with
    | nil =>
      exact .of_stage rfl rfl rfl
    | cons entry todo =>
      exact ⟨.start _ entry rfl, by simp [Task.asked, Stage.current], .none (.inl rfl) rfl⟩
  | logging w entry =>
    dsimp only
    split_ifs <;> exact .of_stage rfl rfl rfl
  | rotating w entry =>
    dsimp only
    split_ifs with hempty
    · exact .of_stage hempty.symm rfl rfl
    · exact .of_flushSome rfl rfl (fun _ => ⟨rfl, rfl, rfl⟩) (.of_fail rfl rfl rfl)
  | moving handle currentSize entry =>
    dsimp only
    cases hrename : logger.renameLog dir moment with
    | none =>
      exact .of_fail rfl rfl rfl
    | some dir' =>
      exact ⟨.stay _, rfl, .renamed moment hrename rfl rfl⟩
  | reopening handle currentSize entry =>
    dsimp only
    split_ifs
    · exact .of_openLog rfl rfl rfl
    · exact .of_fail rfl rfl rfl
  | accepting w entry =>
    unfold accept
    dsimp only
    split_ifs with hfits hlonger
    · exact .of_push rfl rfl rfl
    · exact .of_stage rfl rfl rfl
    · refine .of_place rfl rfl rfl fun hlong => ?_
      -- a line that is as long as the whole buffer finds it empty
      rw [← List.length_eq_zero_iff]
      unfold capacity at hfits hlonger hlong
      omega
  | makingRoom w entry =>
    dsimp only
    split_ifs with hempty
    · exact .of_place rfl rfl rfl fun _ => hempty
    · exact .of_flushSome rfl rfl (fun _ => ⟨rfl, rfl, rfl⟩) (.of_fail rfl rfl rfl)
  | writingLine handle currentSize entry part rest hline =>
    dsimp only
    split_ifs with hdone hpiece
    · have hall : part = entry.line := by
        rw [← hline, hdone, List.append_nil]
      refine .of_stage rfl ?_ rfl
      simp only [Stage.current, hall]
    · exact .of_fail rfl rfl rfl
    · exact .of_writeLine rfl hpiece _
  | flushing w entry =>
    dsimp only
    split_ifs with hempty
    · exact ⟨.acknowledge _ entry rfl hempty, by simp [Task.asked, Task.succeed, Stage.current],
        .none (.inl rfl) rfl⟩
    · exact .of_flushSome rfl rfl (fun _ => ⟨rfl, rfl, rfl⟩) (.of_fail rfl rfl rfl)
  | closing w =>
    dsimp only
    split_ifs with hempty
    · exact ⟨stay_of_stage hempty.symm rfl, rfl, .none (.inr rfl) rfl⟩
    · exact .of_flushSome rfl rfl (fun _ => ⟨rfl, rfl, rfl⟩)
        ⟨.stay _, rfl, .none (.inr rfl) rfl⟩
  | ended lost =>
    exact ⟨.stay _, rfl, .none (.inl rfl) rfl⟩

end Account

section Kept

variable (logger : AuditLogger) (disk : Disk String Bytes)

/-- No two rotations fall into one second, and none into a second whose name was
taken before. -/
def FreshNames (renamedAt : List String) : Prop :=
  renamedAt.Nodup ∧ ∀ t ∈ renamedAt, disk.names.lookup (logger.rotatedName t) = none

/-- What holds of the directory: while the names of the rotations are fresh every file
has a name, and every name is that of the log, of a rotation, or an old one. -/
structure Sound (dir : Directory) : Prop where
  named : FreshNames logger disk dir.renamedAt → dir.disk.AllNamed
  origin : ∀ name i, dir.disk.names.lookup name = some i →
    name = logger.logName ∨ (∃ t ∈ dir.renamedAt, name = logger.rotatedName t) ∨
      disk.names.lookup name ≠ none

def HoldsFile (dir : Directory) (task : Task) : Prop :=
  ∀ handle, task.stage.handle = some handle → handle < dir.disk.files.length

variable {logger disk} {dir dir' : Directory} {task task' : Task}

theorem FreshNames.init {renamedAt : List String} {t : String}
    (h : FreshNames logger disk (renamedAt ++ [t])) : FreshNames logger disk renamedAt :=
  ⟨(List.nodup_append.mp h.1).1, fun t' ht' => h.2 t' (List.mem_append_left _ ht')⟩

theorem Sound.openLog (h : Sound logger disk dir) : Sound logger disk (logger.openLog dir).1 where
  named := fun hfresh => (h.named hfresh).openAppend logger.logName
  origin := by
    intro name i hname
    rcases Disk.name_of_openAppend _ _ hname with rfl | hold
    · exact Or.inl rfl
    · exact h.origin name i hold

theorem Sound.renameLog (h : Sound logger disk dir) {moment : Moment}
    (hrename : logger.renameLog dir moment = some dir') : Sound logger disk dir' := by
  unfold AuditLogger.renameLog at hrename
  split_ifs at hrename
  obtain ⟨disk', hdisk', rfl⟩ := Option.map_eq_some_iff.mp hrename
  refine ⟨?_, ?_⟩
  · intro hfresh
    refine (h.named hfresh.init).rename hdisk' ?_
    -- a name that is taken is the log, or has the second of a rotation, or is old
    cases htaken : dir.disk.names.lookup (logger.rotatedName moment.timestamp) with
    | none => rfl
    | some i =>
      rcases h.origin _ i htaken with hlog | ⟨t, ht, heq⟩ | hold
      · exact absurd hlog (rotatedName_ne logger moment.timestamp)
      · obtain rfl := rotatedName_injective logger heq
        exact absurd rfl ((List.nodup_append.mp hfresh.1).2.2 _ ht _ (List.mem_singleton_self _))
      · exact absurd (hfresh.2 _ (List.mem_append_right _ (List.mem_singleton_self _))) hold
  · intro name i hname
    rcases Disk.name_of_rename hdisk' hname with rfl | ⟨j, hold⟩
    · exact Or.inr (Or.inl ⟨moment.timestamp, by simp, rfl⟩)
    · rcases h.origin name j hold with hlog | ⟨t, ht, heq⟩ | hthere
      · exact Or.inl hlog
      · exact Or.inr (Or.inl ⟨t, List.mem_append_left _ ht, heq⟩)
      · exact Or.inr (Or.inr hthere)

theorem files_renameLog {moment : Moment} (hrename : logger.renameLog dir moment = some dir') :
    dir'.disk.files = dir.disk.files := by
  unfold AuditLogger.renameLog at hrename
  split_ifs at hrename
  obtain ⟨disk', hdisk', rfl⟩ := Option.map_eq_some_iff.mp hrename
  exact Disk.files_rename hdisk'

/-- **One section** of a process keeps the directory sound, leaves the process with a
handle to a file, and takes no file away; what it adds to the files are the pieces
that it adds to its own. -/
theorem DiskEffect.sound (h : DiskEffect logger dir task dir' task') (hdir : Sound logger disk dir)
    (htask : HoldsFile dir task) :
    Sound logger disk dir' ∧ HoldsFile dir' task' ∧
      dir.disk.files.length ≤ dir'.disk.files.length ∧
      ∃ new, dir'.disk.files.flatten.Perm (dir.disk.files.flatten ++ new) ∧
        task'.pieces = task.pieces ++ new := by
  cases h with
  | none hhandle hpieces =>
    refine ⟨hdir, ?_, Nat.le_refl _, [], by simp, by simp [hpieces]⟩
    intro handle hsome
    rcases hhandle with hsame | hnone
    · exact htask handle (hsame ▸ hsome)
    · rw [hnone] at hsome
      cases hsome
  | opened hhandle hpieces =>
    refine ⟨hdir.openLog, ?_, Disk.length_openAppend _ _, [], ?_, by simp [hpieces]⟩
    · intro handle hsome
      rw [hhandle] at hsome
      obtain rfl := Option.some.inj hsome
      exact Disk.openAppend_lt _ _
    · rw [List.append_nil, openLog, Disk.flatten_openAppend]
  | renamed moment hrename hhandle hpieces =>
    have hfiles := files_renameLog hrename
    refine ⟨hdir.renameLog hrename, ?_, by rw [hfiles], [], ?_, by simp [hpieces]⟩
    · intro handle hsome
      rw [hfiles]
      exact htask handle (hhandle ▸ hsome)
    · rw [hfiles, List.append_nil]
  | @wrote _ handle piece hbefore hhandle hpieces =>
    have hlt := htask handle hbefore
    refine ⟨⟨fun hfresh => (hdir.named hfresh).append piece, hdir.origin⟩, ?_,
      (Disk.length_append _).ge, [piece], Disk.flatten_append piece hlt, hpieces⟩
    intro handle' hsome
    rw [hhandle] at hsome
    obtain rfl := Option.some.inj hsome
    exact hlt.trans_eq (Disk.length_append _).symm

variable (logger disk) in
/-- What holds of the processes: the files are those of before and the pieces that the
processes have written. -/
structure Written (p : Processes) : Prop where
  shared : Sound logger disk p.shared
  handles : ∀ (i : Nat) task, p.calls[i]? = some task → HoldsFile p.shared task
  files : p.shared.disk.files.flatten.Perm
    (disk.files.flatten ++ (p.calls.map Task.pieces).flatten)

theorem Written.step {p : Processes} (h : Written logger disk p) (action : Step) :
    Written logger disk (logger.step p action) := by
  cases action with
  | call entries =>
    refine ⟨h.shared, ?_, ?_⟩
    · intro i task htask handle hhandle
      rcases Pool.getElem?_concat_cases htask with ⟨_, rfl⟩ | hold
      · cases hhandle
      · exact h.handles i task hold handle hhandle
    · simpa [AuditLogger.step, Pool.step, enter] using h.files
  | advance i moment =>
    unfold AuditLogger.step
    cases hi : p.calls[i]? with
    | none =>
      rw [Pool.step_advance_none hi]
      exact h
    | some task =>
      rw [Pool.step_advance hi]
      obtain ⟨hshared, hholds, hlength, new, hfiles, hpieces⟩ :=
        (runSection_spec logger p.shared task moment).disk.sound h.shared (h.handles i task hi)
      refine ⟨hshared, ?_, ?_⟩
      · intro j other hother handle hhandle
        rcases Pool.getElem?_set_cases hother with ⟨_, rfl⟩ | ⟨_, hold⟩
        · exact hholds handle hhandle
        · exact (h.handles j other hold handle hhandle).trans_le hlength
      · have hcalls := (Pool.flatten_map_set hi hpieces).append_left disk.files.flatten
        have hbefore := h.files.append_right new
        rw [List.append_assoc] at hbefore
        exact (hfiles.trans hbefore).trans hcalls.symm

/-- **Every interleaving.** -/
theorem written_run (hdisk : disk.AllNamed) (steps : List Step) :
    Written logger disk (logger.run disk steps) := by
  refine Run.invariant (fun p action hp => hp.step action) ?_ steps
  refine ⟨⟨fun _ => hdisk, ?_⟩, by simp, by simp⟩
  intro name i hname
  exact Or.inr (Or.inr (by simp [hname]))

theorem asked_run (steps : List Step) :
    (logger.run disk steps).calls.map Task.asked = Pool.callArgs steps := by
  unfold run AuditLogger.step
  rw [Pool.map_calls_run fun dir task moment => (runSection_spec logger dir task moment).asked]
  simp [Task.asked, enter, Stage.current]

theorem kept_run (steps : List Step) :
    ∀ task ∈ (logger.run disk steps).calls, Kept AuditLogEntry.line task.account := by
  refine Pool.forall_calls_of_meets (C := fun _ _ => True)
    (J := fun (task : Task) => Kept AuditLogEntry.line task.account) (fun _ => kept_empty) ?_
    (by simp) (Run.meets_of_forall fun _ _ => trivial)
  intro p i task moment _ hkept
  exact hkept.step (runSection_spec logger p.shared task moment).account

theorem untorn_run {steps : List Step}
    (huncut : ∀ i moment, .advance i moment ∈ steps → moment.Uncut) :
    ∀ task ∈ (logger.run disk steps).calls, Untorn AuditLogEntry.line task.account := by
  refine Pool.forall_calls_of_meets
    (C := fun _ (action : Step) => ∀ i moment, action = .advance i moment → moment.Uncut)
    (J := fun (task : Task) => Untorn AuditLogEntry.line task.account) (fun _ => untorn_empty) ?_
    (by simp) (Run.meets_of_forall ?_)
  · intro p i task moment hmoment huntorn
    have hstep := (runSection_spec logger p.shared task moment).account
    rw [eq_true (hmoment i moment rfl)] at hstep
    exact huntorn.step hstep
  · rintro action haction i moment rfl
    exact huncut i moment haction

end Kept

/-- **What the audit log keeps.**  Any number of commands log to one directory in any
interleaving; any of their calls may fail, and a write may take a part of its bytes.
On disk there is nothing but what was there before and what the commands wrote, each
piece once; as long as no two rotations fall into one second, and none into the second
of a file that was there before, all of it is there.  Every command tries to log the
entries it was given.  What it has written are their lines, in order and without gap or
repetition, up to the end of the last acknowledged one at least; of an entry whose call
has failed it may be a part.  If no write takes a part only, all pieces are whole
lines. -/
theorem auditLog_kept (logger : AuditLogger) (disk : Disk String Bytes) (hdisk : disk.AllNamed)
    (steps : List Step) :
    let p := logger.run disk steps
    let written := disk.kept ++ (p.calls.map Task.pieces).flatten
    p.shared.disk.kept.Subperm written ∧
      (FreshNames logger disk p.shared.renamedAt → p.shared.disk.kept.Perm written) ∧
      p.calls.map Task.asked = Pool.callArgs steps ∧
      ∀ task ∈ p.calls, Kept AuditLogEntry.line task.account ∧
        ((∀ i moment, .advance i moment ∈ steps → moment.Uncut) →
          ∀ piece ∈ task.pieces, Whole AuditLogEntry.line piece) := by
  intro p written
  have hwritten : Written logger disk p := written_run hdisk steps
  have hpieces : written = disk.files.flatten ++ (p.calls.map Task.pieces).flatten := by
    rw [← Disk.kept_eq hdisk]
  refine ⟨?_, ?_, asked_run steps, fun task htask => ⟨kept_run steps task htask, ?_⟩⟩
  · rw [hpieces]
    exact (Disk.kept_sublist p.shared.disk).subperm.trans hwritten.files.subperm
  · intro hfresh
    rw [hpieces, Disk.kept_eq (hwritten.shared.named hfresh)]
    exact hwritten.files
  · intro huncut
    exact (untorn_run huncut task htask).pieces

def oldLog : Disk String Bytes :=
  ((Disk.empty.openAppend "audit.log").1).append 0 [123, 125, 10]

theorem allNamed_oldLog : oldLog.AllNamed := by
  have hempty : (Disk.empty : Disk String Bytes).AllNamed := by
    intro i hi
    cases hi
  exact (hempty.openAppend "audit.log").append _

def entryOf (targetPid : Nat) : AuditLogEntry where
  timestamp := "2026-01-01T00:00:00+00:00"
  user := "root"
  action := "SIGUSR1"
  targetPid := targetPid
  targetJobId := none
  result := "success"
  details := ""

/-- The next sections of a command, in which all goes well. -/
def advances (i n : Nat) (timestamp : String) : List Step :=
  List.replicate n (.advance i ⟨timestamp, true, none⟩)

/-- Two commands that open the log together and both find it full. -/
def twoRotations (first second : String) : List Step :=
  [.call [entryOf 7], .call [entryOf 8]] ++ advances 0 2 first ++ advances 1 2 first ++
    advances 0 8 first ++ advances 1 8 second

/-- A write that takes five bytes of a line and then fails, a line of another command,
and the next line of the first one. -/
def tornLine : List Step :=
  [.call [entryOf 7, entryOf 9], .call [entryOf 8]] ++ advances 0 5 "20260101_000000" ++
    [.advance 0 ⟨"20260101_000000", true, some 5⟩,
      .advance 0 ⟨"20260101_000000", false, none⟩] ++
    advances 1 7 "20260101_000000" ++ advances 0 5 "20260101_000000"

/-- A second apart two rotations keep the old log; in one second its lines are lost,
and the line of the first command is what is found under its name.  A torn line is
completed behind the line of another command. -/
theorem auditLog_kept_secondApart :
    ((new "audit.log" 0).run oldLog
        (twoRotations "20260101_000000" "20260101_000001")).shared.disk.kept.Perm
      [[123, 125, 10], (entryOf 7).line, (entryOf 8).line] ∧
    ((new "audit.log" 0).run oldLog
        (twoRotations "20260101_000000" "20260101_000000")).shared.disk.kept =
      [(entryOf 7).line, (entryOf 8).line] ∧
    ((new "audit.log" 1).run oldLog tornLine).shared.disk.kept =
      [[123, 125, 10], (entryOf 7).line.take 5, (entryOf 8).line,
        (entryOf 7).line.drop 5 ++ (entryOf 9).line] := by
  refine ⟨?_, by decide +kernel, by decide +kernel⟩
  refine ((auditLog_kept (new "audit.log" 0) oldLog allNamed_oldLog
    (twoRotations "20260101_000000" "20260101_000001")).2.1
      ⟨by decide +kernel, by decide +kernel⟩).trans (.of_eq ?_)
  decide +kernel

end AuditLogger

end ArkInfra
