import ArkInfra.Hub.Ingest
import ArkInfra.Hub.Wal
import ArkInfra.Lib.Text

/-!
# Replaying the write-ahead log

`hub/src/wal.rs`, the reading side: at startup the rotated file and then the
active file are read line by line.  A blank line is skipped, a line that is no
event is counted as corrupted and skipped, and an event goes through the
pipeline of the hub.  The lines come from the asynchronous reader, which fails
on a line that is not valid UTF-8; this error ends the replay, and with it the
start of the hub.

Besides the state of the hub and the statistics, the model records which events
were offered to the deduplication (`offered`).  `replaySurvives_iff` is the
exact condition under which a replay gets past every damaged line: that each
line is valid UTF-8.
-/

namespace ArkInfra

open TextFile

structure WalReplayStats where
  replayed : Nat
  corruptedLines : Nat
  dedupDropped : Nat
  processFailed : Nat
  deriving DecidableEq

namespace WalReplayStats

def zero : WalReplayStats where
  replayed := 0
  corruptedLines := 0
  dedupDropped := 0
  processFailed := 0

def mergeReplayStats (total delta : WalReplayStats) : WalReplayStats where
  replayed := total.replayed + delta.replayed
  corruptedLines := total.corruptedLines + delta.corruptedLines
  dedupDropped := total.dedupDropped + delta.dedupDropped
  processFailed := total.processFailed + delta.processFailed

def count (stats : WalReplayStats) : IngestOutcome → WalReplayStats
  | .stored => { stats with replayed := stats.replayed + 1 }
  | .dedupDropped => { stats with dedupDropped := stats.dedupDropped + 1 }
  | .processFailed => { stats with processFailed := stats.processFailed + 1 }

def total (stats : WalReplayStats) : Nat :=
  stats.replayed + stats.corruptedLines + stats.dedupDropped + stats.processFailed

end WalReplayStats

inductive ReplayError where
  | invalidUtf8
  deriving DecidableEq

structure Replay (F : Type) where
  hub : HubState F
  stats : WalReplayStats
  offered : List Event

def chomp (s : String) : String :=
  match s.toList.reverse with
  | '\n' :: '\r' :: cs => String.ofList cs.reverse
  | '\n' :: cs => String.ofList cs.reverse
  | _ => s

namespace Replay

variable {F : Type} [FloatArith F]

section Replay

variable (cfg : HubConfig) (json : SerdeJson)

/-- A parsed event goes through the pipeline. -/
def offer (r : Replay F) (event : Event) : Replay F where
  hub := (r.hub.ingest cfg event).1
  stats := r.stats.count (r.hub.ingest cfg event).2
  offered := r.offered ++ [event]

def skipCorrupted (r : Replay F) : Replay F :=
  { r with stats := { r.stats with corruptedLines := r.stats.corruptedLines + 1 } }

def replayLine (r : Replay F) (line : String) : Replay F :=
  let trimmed := Text.trim line
  if trimmed = "" then r
  else
    match json.fromStr trimmed with
    | some event => r.offer cfg event
    | none => r.skipCorrupted

def replayLines (r : Replay F) : List Bytes → Replay F × Option ReplayError
  | [] => (r, none)
  | raw :: rest =>
    match decode raw with
    | none => (r, some .invalidUtf8)
    | some text => replayLines (r.replayLine cfg json (chomp text)) rest

/-- Replay one file, if it exists, and add its statistics to the total. -/
def replayWalFile (total : Replay F) (file : Option Bytes) : Replay F × Option ReplayError :=
  match file with
  | none => (total, none)
  | some bytes =>
    match replayLines cfg json { total with stats := .zero } (rawLines bytes) with
    | (r, some error) => ({ r with stats := total.stats }, some error)
    | (r, none) => ({ r with stats := total.stats.mergeReplayStats r.stats }, none)

end Replay

end Replay

/-- How a replay ended: the state it left in the hub, the events it offered,
and its result. -/
structure ReplayOutcome (F : Type) where
  hub : HubState F
  offered : List Event
  result : Except ReplayError WalReplayStats

open Replay in
def replayWal {F : Type} [FloatArith F] (cfg : HubConfig) (json : SerdeJson)
    (files : WalFiles) (hub : HubState F) : ReplayOutcome F :=
  let start : Replay F := { hub := hub, stats := .zero, offered := [] }
  if files.active.isNone && files.rotated.isNone then
    { hub := hub, offered := [], result := .ok .zero }
  else
    match replayWalFile cfg json start files.rotated with
    | (r, some error) => { hub := r.hub, offered := r.offered, result := .error error }
    | (r, none) =>
      match replayWalFile cfg json r files.active with
      | (r, some error) => { hub := r.hub, offered := r.offered, result := .error error }
      | (r, none) => { hub := r.hub, offered := r.offered, result := .ok r.stats }

inductive LineKind where
  | blank
  | event (event : Event)
  | corrupted
  deriving DecidableEq

namespace LineKind

def event? : LineKind → Option Event
  | .event e => some e
  | _ => none

/-- The kind of a line, whether or not it is valid UTF-8. -/
def ofLine (json : SerdeJson) (raw : Bytes) : LineKind :=
  match decode raw with
  | none => .corrupted
  | some text =>
    if Text.trim (chomp text) = "" then .blank
    else
      match json.fromStr (Text.trim (chomp text)) with
      | some e => .event e
      | none => .corrupted

end LineKind

/-- The lines of the log, those of the rotated file first. -/
def WalFiles.lines (files : WalFiles) : List Bytes :=
  rawLines (files.rotated.getD []) ++ rawLines (files.active.getD [])

/-- The replay ends well: the events on the lines were offered in file order,
the lines that are neither blank nor an event were counted as corrupted, and
every line that is not blank was counted once. -/
def ReplaySurvives {F : Type} [FloatArith F] (cfg : HubConfig) (json : SerdeJson)
    (files : WalFiles) (hub : HubState F) : Prop :=
  let kinds := files.lines.map (LineKind.ofLine json)
  ∃ stats, (replayWal cfg json files hub).result = .ok stats ∧
    (replayWal cfg json files hub).offered = kinds.filterMap LineKind.event? ∧
    stats.corruptedLines = kinds.count .corrupted ∧
    stats.replayed + stats.corruptedLines + stats.dedupDropped + stats.processFailed =
      kinds.countP (fun kind => decide (kind ≠ .blank))

theorem chomp_append_newline {s : String} {c : Char} (h : s.toList.getLast? = some c)
    (hc : c ≠ '\r') : chomp (s ++ "\n") = s := by
  obtain ⟨cs, hcs⟩ := List.getLast?_eq_some_iff.mp h
  have hrev : (s ++ "\n").toList.reverse = '\n' :: c :: cs.reverse := by
    simp [hcs]
  have hs : s = String.ofList (cs ++ [c]) := by
    rw [← hcs, String.ofList_toList]
  unfold chomp
  rw [hrev]
  split
  · rename_i hmatch
    simp only [List.cons.injEq, true_and] at hmatch
    exact absurd hmatch.1 hc
  · rename_i hmatch
    simp only [List.cons.injEq, true_and] at hmatch
    rw [← hmatch, hs]
    simp
  · rename_i hother
    exact absurd rfl (hother _)

namespace SerdeJson

variable {json : SerdeJson}

theorem decode_line (json : SerdeJson) (event : Event) :
    decode (json.line event) = some (json.toText event ++ "\n") := by
  exact decode_append (decode_encode _) (by decide)

theorem OneLine.ends_toText (h : json.OneLine) (event : Event) :
    (json.toText event).toList.head? = some '\x7b' ∧
      (json.toText event).toList.getLast? = some '\x7d' := by
  obtain ⟨body, hbody⟩ := h.isObject event
  rw [hbody]
  exact ⟨rfl, List.getLast?_concat⟩

theorem OneLine.chomp_toText (h : json.OneLine) (event : Event) :
    chomp (json.toText event ++ "\n") = json.toText event := by
  exact chomp_append_newline (h.ends_toText event).2 (by decide)

theorem OneLine.trim_toText (h : json.OneLine) (event : Event) :
    Text.trim (json.toText event) = json.toText event := by
  obtain ⟨hhead, hlast⟩ := h.ends_toText event
  exact Text.trim_eq_self hhead hlast (by decide) (by decide)

theorem OneLine.ofLine_line (h : json.OneLine) {event : Event}
    (hread : json.fromStr (json.toText event) = some event) :
    LineKind.ofLine json (json.line event) = .event event := by
  have hne : json.toText event ≠ "" := by
    intro hempty
    have hhead := (h.ends_toText event).1
    rw [hempty] at hhead
    cases hhead
  unfold LineKind.ofLine
  rw [decode_line]
  simp only [h.chomp_toText, h.trim_toText, if_neg hne, hread]

theorem Lawful.ofLine_line (h : json.Lawful) (event : Event) :
    LineKind.ofLine json (json.line event) = .event event := by
  exact h.oneLine.ofLine_line (h.fromStr_toText event)

/-- The lines of a log that was not rotated: its records, and a piece of another
one at the end. -/
theorem OneLine.walLines_eq (h : json.OneLine) {files : WalFiles} {events : List Event}
    {tail : Bytes} (hrotated : files.rotated = none)
    (hactive : files.active = some (json.lines events ++ tail)) (htail : newline ∉ tail) :
    files.lines = events.map json.line ++ (if tail = [] then [] else [tail]) := by
  unfold WalFiles.lines
  rw [hrotated, hactive]
  exact h.rawLines_lines events htail

end SerdeJson

namespace WalReplayStats

theorem mergeReplayStats_count (a b : WalReplayStats) (o : IngestOutcome) :
    a.mergeReplayStats (b.count o) = (a.mergeReplayStats b).count o := by
  cases o with
  | stored => simp [mergeReplayStats, count, Nat.add_assoc]
  | dedupDropped => simp [mergeReplayStats, count, Nat.add_assoc]
  | processFailed => simp [mergeReplayStats, count, Nat.add_assoc]

@[simp] theorem total_count (a : WalReplayStats) (o : IngestOutcome) :
    (a.count o).total = a.total + 1 := by
  cases o with
  | stored =>
    simp only [count, total]
    omega
  | dedupDropped =>
    simp only [count, total]
    omega
  | processFailed =>
    simp only [count, total]
    omega

@[simp] theorem corruptedLines_count (a : WalReplayStats) (o : IngestOutcome) :
    (a.count o).corruptedLines = a.corruptedLines := by
  cases o <;> rfl

end WalReplayStats

namespace Replay

variable {F : Type} [FloatArith F] {cfg : HubConfig} {json : SerdeJson}

/-- What a line does to the replay, by its kind. -/
def byKind (cfg : HubConfig) (r : Replay F) : LineKind → Replay F
  | .blank => r
  | .event e => r.offer cfg e
  | .corrupted => r.skipCorrupted

theorem replayLine_eq_byKind (r : Replay F) {raw : Bytes} {text : String}
    (h : decode raw = some text) :
    r.replayLine cfg json (chomp text) = r.byKind cfg (.ofLine json raw) := by
  unfold replayLine LineKind.ofLine
  rw [h]
  simp only
  split_ifs
  · rfl
  · cases json.fromStr (Text.trim (chomp text)) with
    | some e => rfl
    | none => rfl

theorem replayLines_of_valid (r : Replay F) {raws : List Bytes}
    (h : ∀ raw ∈ raws, (decode raw).isSome = true) :
    r.replayLines cfg json raws =
      (Run.run (byKind cfg) r (raws.map (.ofLine json)), none) := by
  induction raws generalizing r with
  | nil =>
    rfl
  | cons raw raws ih =>
    obtain ⟨text, htext⟩ := Option.isSome_iff_exists.mp (h raw (by simp))
    rw [replayLines, htext]
    simp only
    rw [replayLine_eq_byKind r htext, ih _ fun raw' h' => h raw' (List.mem_cons_of_mem _ h')]
    rfl

theorem replayLines_of_invalid (r : Replay F) {raws : List Bytes} {raw : Bytes}
    (hmem : raw ∈ raws) (h : decode raw = none) :
    (r.replayLines cfg json raws).2 = some .invalidUtf8 := by
  induction raws generalizing r with
  | nil =>
    simp at hmem
  | cons raw' raws ih =>
    rw [replayLines]
    cases hdec : decode raw' with
    | none =>
      rfl
    | some text =>
      rcases List.mem_cons.mp hmem with rfl | hmem
      · rw [h] at hdec
        cases hdec
      · exact ih _ hmem

theorem run_byKind_merge (r : Replay F) (stats : WalReplayStats) (kinds : List LineKind) :
    Run.run (byKind cfg) { r with stats := stats.mergeReplayStats r.stats } kinds =
      { Run.run (byKind cfg) r kinds with
        stats := stats.mergeReplayStats (Run.run (byKind cfg) r kinds).stats } := by
  induction kinds generalizing r with
  | nil =>
    rfl
  | cons kind kinds ih =>
    rw [Run.run_cons, Run.run_cons, ← ih]
    congr 1
    cases kind with
    | blank => rfl
    | event e => simp [byKind, offer, WalReplayStats.mergeReplayStats_count]
    | corrupted => rfl

theorem replayWalFile_of_valid (r : Replay F) {file : Option Bytes}
    (h : ∀ raw ∈ rawLines (file.getD []), (decode raw).isSome = true) :
    r.replayWalFile cfg json file =
      (Run.run (byKind cfg) r ((rawLines (file.getD [])).map (.ofLine json)), none) := by
  cases file with
  | none =>
    rfl
  | some bytes =>
    have hlines : ∀ raw ∈ rawLines bytes, (decode raw).isSome = true := h
    simp only [replayWalFile, replayLines_of_valid _ hlines, Option.getD_some]
    rw [← run_byKind_merge]
    rfl

theorem replayWalFile_of_invalid (cfg : HubConfig) (json : SerdeJson) (r : Replay F)
    {file : Option Bytes} {raw : Bytes}
    (hmem : raw ∈ rawLines (file.getD [])) (h : decode raw = none) :
    (r.replayWalFile cfg json file).2 = some .invalidUtf8 := by
  cases file with
  | none =>
    simp [rawLines] at hmem
  | some bytes =>
    have herror : (replayLines cfg json { r with stats := .zero } (rawLines bytes)).2 =
        some .invalidUtf8 := replayLines_of_invalid _ hmem h
    cases hres : replayLines cfg json { r with stats := .zero } (rawLines bytes) with
    | mk r' e =>
      rw [hres] at herror
      obtain rfl : e = some .invalidUtf8 := herror
      simp only [replayWalFile, hres]

section Counts

theorem run_byKind_offered (r : Replay F) (kinds : List LineKind) :
    (Run.run (byKind cfg) r kinds).offered =
      r.offered ++ kinds.filterMap LineKind.event? := by
  induction kinds generalizing r with
  | nil =>
    simp
  | cons kind kinds ih =>
    rw [Run.run_cons, ih]
    cases kind with
    | blank => rfl
    | event e => simp [byKind, offer, LineKind.event?]
    | corrupted => rfl

theorem run_byKind_corruptedLines (r : Replay F) (kinds : List LineKind) :
    (Run.run (byKind cfg) r kinds).stats.corruptedLines =
      r.stats.corruptedLines + kinds.count .corrupted := by
  induction kinds generalizing r with
  | nil =>
    rfl
  | cons kind kinds ih =>
    rw [Run.run_cons, ih]
    cases kind with
    | blank => simp [byKind]
    | event e => simp [byKind, offer]
    | corrupted =>
      simp only [byKind, skipCorrupted, List.count_cons_self]
      omega

theorem run_byKind_total (r : Replay F) (kinds : List LineKind) :
    (Run.run (byKind cfg) r kinds).stats.total =
      r.stats.total + kinds.countP (fun kind => decide (kind ≠ .blank)) := by
  induction kinds generalizing r with
  | nil =>
    rfl
  | cons kind kinds ih =>
    rw [Run.run_cons, ih]
    cases kind with
    | blank =>
      simp [byKind]
    | event e =>
      simp only [byKind, offer, WalReplayStats.total_count]
      simp
      omega
    | corrupted =>
      simp only [byKind, skipCorrupted, WalReplayStats.total]
      simp
      omega

end Counts

end Replay

section Outcome

open Replay

variable {F : Type} [FloatArith F]

theorem replayWal_of_valid (cfg : HubConfig) (json : SerdeJson) {files : WalFiles}
    (hub : HubState F) (h : ∀ raw ∈ files.lines, (decode raw).isSome = true) :
    let r := Run.run (byKind cfg) { hub := hub, stats := .zero, offered := [] }
      (files.lines.map (.ofLine json))
    replayWal cfg json files hub =
      { hub := r.hub, offered := r.offered, result := .ok r.stats } := by
  have hrotated : ∀ raw ∈ rawLines (files.rotated.getD []), (decode raw).isSome = true := by
    intro raw hraw
    exact h raw (List.mem_append_left _ hraw)
  have hactive : ∀ raw ∈ rawLines (files.active.getD []), (decode raw).isSome = true := by
    intro raw hraw
    exact h raw (List.mem_append_right _ hraw)
  unfold replayWal
  split_ifs with hnone
  · obtain ⟨ha, hr⟩ := (Bool.and_eq_true _ _).mp hnone
    rw [Option.isNone_iff_eq_none] at ha hr
    simp [WalFiles.lines, ha, hr, rawLines]
  · simp only [replayWalFile_of_valid _ hrotated, replayWalFile_of_valid _ hactive]
    rw [← Run.run_append, ← List.map_append]
    rfl

theorem replayWal_of_invalid (cfg : HubConfig) (json : SerdeJson) {files : WalFiles}
    (hub : HubState F) {raw : Bytes} (hmem : raw ∈ files.lines) (h : decode raw = none) :
    (replayWal cfg json files hub).result = .error .invalidUtf8 := by
  have hexists : ¬ (files.active.isNone && files.rotated.isNone) = true := by
    intro hnone
    obtain ⟨ha, hr⟩ := (Bool.and_eq_true _ _).mp hnone
    rw [Option.isNone_iff_eq_none] at ha hr
    simp [WalFiles.lines, ha, hr, rawLines] at hmem
  unfold replayWal
  rw [if_neg hexists]
  cases hfirst : replayWalFile cfg json { hub := hub, stats := .zero, offered := [] }
      files.rotated with
  | mk r₁ e₁ =>
    cases e₁ with
    | some error =>
      cases error
      rfl
    | none =>
      -- the rotated file was read to its end, so the line is in the active one
      have hactive : raw ∈ rawLines (files.active.getD []) := by
        rcases List.mem_append.mp hmem with hrot | hact
        · have herror := replayWalFile_of_invalid cfg json
            { hub := hub, stats := .zero, offered := [] } hrot h
          rw [hfirst] at herror
          cases herror
        · exact hact
      have herror := replayWalFile_of_invalid cfg json r₁ hactive h
      cases hsecond : replayWalFile cfg json r₁ files.active with
      | mk r₂ e₂ =>
        rw [hsecond] at herror
        obtain rfl : e₂ = some .invalidUtf8 := herror
        simp only [hsecond]

/-- **When a replay survives the content of its files**: exactly when every
line of both files is valid UTF-8. -/
theorem replaySurvives_iff (cfg : HubConfig) (json : SerdeJson) (files : WalFiles)
    (hub : HubState F) :
    ReplaySurvives cfg json files hub ↔
      ∀ raw ∈ files.lines, (decode raw).isSome = true := by
  constructor
  · rintro ⟨stats, hresult, _⟩ raw hraw
    by_contra hinvalid
    have hnone : decode raw = none := by
      simpa using hinvalid
    rw [replayWal_of_invalid cfg json hub hraw hnone] at hresult
    cases hresult
  · intro hvalid
    have hrun := replayWal_of_valid cfg json hub hvalid
    refine ⟨_, by rw [hrun], ?_, ?_, ?_⟩
    · rw [hrun]
      exact run_byKind_offered _ _
    · rw [run_byKind_corruptedLines]
      exact Nat.zero_add _
    · change WalReplayStats.total _ = _
      rw [run_byKind_total]
      exact Nat.zero_add _

/-- **A character that is cut off stops the hub.**  The first line of the active
file ends inside a three-byte character; the replay fails there and never
reaches the intact record on the second line. -/
theorem replaySurvives_cutCharacter :
    let cut : Bytes := [0x7b, 0xe4, 0xb8]
    let event : Event := ⟨1000, .errorHw, "gpu-0", none, none, "XID_79", some "node-a"⟩
    let cfg : HubConfig :=
      { hasher := fun fields => fields.ts.toUInt64, dedupWindowMs := 5000, eventBufferSize := 8 }
    let files : WalFiles :=
      { active := some (cut ++ newline :: compactJson.line event), rotated := none }
    let outcome := replayWal cfg compactJson files (.fresh : HubState Binary64)
    files.lines.map (LineKind.ofLine compactJson) = [.corrupted, .event event] ∧
    outcome.result = .error .invalidUtf8 ∧
    outcome.offered = [] ∧
    ¬ ReplaySurvives cfg compactJson files (.fresh : HubState Binary64) := by
  intro cut event cfg files outcome
  have hlines : files.lines = [cut ++ [newline], compactJson.line event] := by
    have hrecord := compactJson_lawful.oneLine.rawLines_lines [event] (by simp : newline ∉ [])
    change [] ++ rawLines (cut ++ newline :: compactJson.line event) = _
    rw [List.nil_append, rawLines_append_newline (by decide)]
    simpa using hrecord
  have hcut : decode (cut ++ [newline]) = none := by
    decide
  have hresult : outcome.result = .error .invalidUtf8 := by
    refine replayWal_of_invalid cfg compactJson _ ?_ hcut
    rw [hlines]
    simp
  refine ⟨?_, hresult, by decide +kernel, ?_⟩
  · have hcorrupted : LineKind.ofLine compactJson (cut ++ [newline]) = .corrupted := by
      simp only [LineKind.ofLine, hcut]
    rw [hlines, List.map_cons, List.map_singleton, hcorrupted, compactJson_lawful.ofLine_line]
  · rintro ⟨stats, hok, _⟩
    rw [hresult] at hok
    cases hok

end Outcome

end ArkInfra
