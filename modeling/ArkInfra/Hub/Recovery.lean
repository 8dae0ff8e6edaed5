import ArkInfra.Hub.Replay

/-!
# Crash recovery

The live hub runs every event through the deduplication, the graph and the
buffer, and logs what it stored.  A replay of the log sends the logged events
through the same pipeline a second time, with a new deduplication store.  The
live store was also purged by events that were rejected and are not in the log,
so the two stores differ; but with nondecreasing timestamps an event that the
second store still remembers would have been remembered by the first one too
(`accepts_accepted`).  Hence the replay rejects nothing, and it rebuilds the
graph and the buffer that the live hub had.
-/

namespace ArkInfra

open TextFile

namespace Dedup

variable (hasher : HashedFields → UInt64) (windowMs : Nat)

/-- The accepted events of a stream that follows the events already seen. -/
def acceptedAfter (seen : List Event) : List Event → List Event
  | [] => []
  | e :: events =>
    (if accepts hasher windowMs seen e then [e] else []) ++
      acceptedAfter (seen ++ [e]) events

/-- The accepted events of a stream, in order. -/
def accepted (events : List Event) : List Event :=
  acceptedAfter hasher windowMs [] events

variable {hasher windowMs}

theorem accepted_concat (events : List Event) (e : Event) :
    accepted hasher windowMs (events ++ [e]) =
      accepted hasher windowMs events ++
        (if accepts hasher windowMs events e then [e] else []) := by
  have key : ∀ seen, acceptedAfter hasher windowMs seen (events ++ [e]) =
      acceptedAfter hasher windowMs seen events ++
        (if accepts hasher windowMs (seen ++ events) e then [e] else []) := by
    induction events with
    | nil =>
      intro seen
      simp [acceptedAfter]
    | cons x events ih =>
      intro seen
      simp [acceptedAfter, ih]
  exact key []

theorem exists_of_mem_accepted {events : List Event} {x : Event}
    (h : x ∈ accepted hasher windowMs events) :
    ∃ before later, events = before ++ x :: later ∧
      accepts hasher windowMs before x = true := by
  induction events using List.reverseRecOn with
  | nil =>
    simp [accepted, acceptedAfter] at h
  | append_singleton events e ih =>
    rw [accepted_concat] at h
    rcases List.mem_append.mp h with h | h
    · obtain ⟨before, later, rfl, hacc⟩ := ih h
      exact ⟨before, later ++ [e], by simp, hacc⟩
    · split_ifs at h with hacc
      · obtain rfl := List.mem_singleton.mp h
        exact ⟨events, [], rfl, hacc⟩
      · cases h

/-- **The second pass rejects nothing.**  An event that is accepted after an
ordered stream is also accepted after the accepted part of the stream. -/
theorem accepts_accepted {events : List Event} {e : Event}
    (hord : Ordered (events ++ [e])) (h : accepts hasher windowMs events e = true) :
    accepts hasher windowMs (accepted hasher windowMs events) e = true := by
  by_contra hrejected
  rw [Bool.not_eq_true, accepts_eq_false_iff] at hrejected
  obtain ⟨a, x, b, hsplit, _, hkey, hcutoff⟩ := hrejected
  have hmem : x ∈ accepted hasher windowMs events := by
    rw [hsplit]
    simp
  obtain ⟨before, later, rfl, hacc⟩ := exists_of_mem_accepted hmem
  -- no event of the stream had a later cutoff than `e` itself
  have hlive : accepts hasher windowMs (before ++ x :: later) e = false := by
    refine (accepts_eq_false_iff _ e).mpr ⟨before, x, later, rfl, hacc, hkey, ?_⟩
    intro y hy
    have hye : y.ts ≤ e.ts := by
      rcases List.mem_append.mp hy with hy | hy
      · exact (List.pairwise_append.mp hord).2.2 y (by simp [hy]) e (by simp)
      · rw [List.mem_singleton.mp hy]
    have hx := hcutoff e (by simp)
    omega
  rw [h] at hlive
  cases hlive

end Dedup

structure LiveHub (F : Type) where
  hub : HubState F
  wal : WalState

namespace LiveHub

variable {F : Type} [FloatArith F] (cfg : HubConfig) (json : SerdeJson)

/-- The pipeline of a received event: ingest it, and log it if it was stored. -/
def handleEvent (s : LiveHub F) (event : Event) :
    LiveHub F × Option (Except WalError WalAppendResult) :=
  match s.hub.ingest cfg event with
  | (hub, .stored) =>
    let (wal, result) := s.wal.appendWalEvent json event none .atOnce
    ({ hub := hub, wal := wal }, some result)
  | (hub, _) => ({ s with hub := hub }, none)

def step (s : LiveHub F) (event : Event) : LiveHub F :=
  (s.handleEvent cfg json event).1

def plainAppend : Except WalError WalAppendResult → Bool
  | .ok result => !result.rotated
  | .error _ => false

/-- If the event is logged, then without I/O error and without rotation. -/
def LogsPlainly (s : LiveHub F) (event : Event) : Prop :=
  ∀ result ∈ (s.handleEvent cfg json event).2, plainAppend result = true

instance (s : LiveHub F) (event : Event) : Decidable (s.LogsPlainly cfg json event) :=
  inferInstanceAs (Decidable (∀ result ∈ (s.handleEvent cfg json event).2, _))

def start (maxBytes : UInt64) : LiveHub F where
  hub := .fresh
  wal := ⟨WalFiles.empty.openActive, maxBytes⟩

end LiveHub

namespace HubState

variable {F : Type} [FloatArith F]

/-- The hub that has stored the given events and rejected none. -/
def afterStored (cfg : HubConfig) (events : List Event) : HubState F where
  graph := .after events
  eventBuffer := Run.run (pushEvent cfg.eventBufferSize) [] events
  dedupStore := Dedup.storeAfter cfg.hasher cfg.dedupWindowMs events

theorem afterStored_concat (cfg : HubConfig) (events : List Event) (e : Event) :
    (afterStored cfg (events ++ [e]) : HubState F) =
      (afterStored cfg events).record cfg e
        (Dedup.storeAfter cfg.hasher cfg.dedupWindowMs (events ++ [e])) := by
  simp only [afterStored, record, StateGraph.after_concat, Run.run_concat]

end HubState

section Recovery

open Dedup

variable {F : Type} [FloatArith F] {cfg : HubConfig} {json : SerdeJson}

/-- The live hub after a stream: the accepted events are in the graph, in the
buffer and in the log; the deduplication has seen all events. -/
structure LiveHub.Tracks (cfg : HubConfig) (json : SerdeJson) (s : LiveHub F)
    (events : List Event) : Prop where
  hub_eq : s.hub =
    { HubState.afterStored cfg (accepted cfg.hasher cfg.dedupWindowMs events) with
      dedupStore := storeAfter cfg.hasher cfg.dedupWindowMs events }
  files_eq : s.wal.files =
    { active := some (json.lines (accepted cfg.hasher cfg.dedupWindowMs events))
      rotated := none }

theorem LiveHub.appendWalEvent_of_plain {wal : WalState} {event : Event}
    (h : plainAppend (wal.appendWalEvent json event none .atOnce).2 = true) :
    (wal.appendWalEvent json event none .atOnce).1 = wal.write (json.line event) := by
  cases hint : (wal.makeRoom (json.line event)).interruption (json.line event) none with
  | some written =>
    rw [WalState.appendWalEvent_of_interruption hint] at h
    cases h
  | none =>
    rw [WalState.appendWalEvent_of_complete hint] at h ⊢
    have hrot : wal.needsRotation (json.line event) = false := by
      simpa [plainAppend] using h
    rw [WalState.makeRoom_of_noRotation hrot]

theorem LiveHub.tracks_start (maxBytes : UInt64) :
    (LiveHub.start maxBytes : LiveHub F).Tracks cfg json [] := by
  constructor
  · rfl
  · rfl

theorem LiveHub.tracks_step {s : LiveHub F} {events : List Event} {e : Event}
    (h : s.Tracks cfg json events) (hplain : s.LogsPlainly cfg json e) :
    (s.step cfg json e).Tracks cfg json (events ++ [e]) := by
  have hverdict : (acceptEventWithDedup cfg.hasher e s.hub.dedupStore cfg.dedupWindowMs).2 =
      accepts cfg.hasher cfg.dedupWindowMs events e := by
    rw [h.hub_eq]
    rfl
  have hstore : (acceptEventWithDedup cfg.hasher e s.hub.dedupStore cfg.dedupWindowMs).1 =
      storeAfter cfg.hasher cfg.dedupWindowMs (events ++ [e]) := by
    rw [h.hub_eq, storeAfter_concat]
  cases hacc : accepts cfg.hasher cfg.dedupWindowMs events e with
  | false =>
    have hingest := HubState.ingest_of_rejected (hverdict.trans hacc)
    have hstep : s.step cfg json e = { s with hub := (s.hub.ingest cfg e).1 } := by
      simp only [step, handleEvent, hingest]
    have hsame : accepted cfg.hasher cfg.dedupWindowMs (events ++ [e]) =
        accepted cfg.hasher cfg.dedupWindowMs events := by
      simp [accepted_concat, hacc]
    rw [hstep]
    constructor
    · rw [hsame, hingest, hstore, h.hub_eq]
    · rw [hsame]
      exact h.files_eq
  | true =>
    have hingest := HubState.ingest_of_accepted (hverdict.trans hacc)
    have hlog : plainAppend (s.wal.appendWalEvent json e none .atOnce).2 = true := by
      apply hplain
      simp only [handleEvent, hingest]
      rfl
    have hstep : s.step cfg json e =
        { hub := (s.hub.ingest cfg e).1, wal := s.wal.write (json.line e) } := by
      simp only [step, handleEvent, hingest, appendWalEvent_of_plain hlog]
    have hmore : accepted cfg.hasher cfg.dedupWindowMs (events ++ [e]) =
        accepted cfg.hasher cfg.dedupWindowMs events ++ [e] := by
      simp [accepted_concat, hacc]
    rw [hstep]
    constructor
    · rw [hmore, hingest, hstore, HubState.afterStored_concat, h.hub_eq]
      rfl
    · rw [hmore]
      simp [WalState.write, h.files_eq]

theorem LiveHub.tracks_run (maxBytes : UInt64) {events : List Event}
    (hplain : Run.Meets (LiveHub.step cfg json) (LiveHub.LogsPlainly cfg json)
      (LiveHub.start maxBytes : LiveHub F) events) :
    (Run.run (LiveHub.step cfg json) (LiveHub.start maxBytes : LiveHub F) events).Tracks
      cfg json events := by
  induction events using List.reverseRecOn with
  | nil =>
    exact tracks_start maxBytes
  | append_singleton events e ih =>
    obtain ⟨hbefore, hlast⟩ := Run.meets_append.mp hplain
    rw [Run.run_concat]
    exact tracks_step (ih hbefore) hlast.1

theorem Replay.run_offer_accepted {events : List Event} (hord : Ordered events) :
    let stored := accepted cfg.hasher cfg.dedupWindowMs events
    Run.run (Replay.offer cfg) ({ hub := .fresh, stats := .zero, offered := [] } : Replay F)
        stored =
      { hub := .afterStored cfg stored
        stats := { WalReplayStats.zero with replayed := stored.length }
        offered := stored } := by
  intro stored
  induction events using List.reverseRecOn with
  | nil =>
    rfl
  | append_singleton events e ih =>
    have hbefore := ih (List.pairwise_append.mp hord).1
    cases hacc : accepts cfg.hasher cfg.dedupWindowMs events e with
    | false =>
      have hsame : stored = accepted cfg.hasher cfg.dedupWindowMs events := by
        simp [stored, accepted_concat, hacc]
      rw [hsame]
      exact hbefore
    | true =>
      have hmore : stored = accepted cfg.hasher cfg.dedupWindowMs events ++ [e] := by
        simp [stored, accepted_concat, hacc]
      have hingest : (HubState.afterStored cfg
          (accepted cfg.hasher cfg.dedupWindowMs events) : HubState F).ingest cfg e = _ :=
        HubState.ingest_of_accepted (accepts_accepted hord hacc)
      rw [hmore, Run.run_concat, hbefore]
      simp only [Replay.offer, hingest, HubState.afterStored_concat, storeAfter_concat,
        WalReplayStats.count, WalReplayStats.zero, List.length_append, List.length_singleton]
      rfl

theorem byKind_run_lines (hjson : json.Lawful) (r : Replay F) (events : List Event) :
    Run.run (Replay.byKind cfg) r ((events.map json.line).map (LineKind.ofLine json)) =
      Run.run (Replay.offer cfg) r events := by
  induction events generalizing r with
  | nil =>
    rfl
  | cons e events ih =>
    rw [List.map_cons, List.map_cons, Run.run_cons, Run.run_cons, hjson.ofLine_line]
    exact ih _

/-- **Crash recovery reproduces the live state.**  After any stream with
nondecreasing timestamps that the hub logged without I/O error and rotation, a
replay of the log into a fresh hub accepts every record, and leaves the graph
and the buffer that the live hub had. -/
theorem replayWal_reproducesLive (json : SerdeJson) (hjson : json.Lawful)
    (cfg : HubConfig) (maxBytes : UInt64) (events : List Event) (hord : Ordered events)
    (hplain : Run.Meets (LiveHub.step cfg json) (LiveHub.LogsPlainly cfg json)
      (LiveHub.start maxBytes : LiveHub F) events) :
    let live := Run.run (LiveHub.step cfg json) (LiveHub.start maxBytes : LiveHub F) events
    let outcome := replayWal cfg json live.wal.files (.fresh : HubState F)
    outcome.result =
        .ok
          { replayed := live.wal.files.lines.length
            corruptedLines := 0
            dedupDropped := 0
            processFailed := 0 } ∧
      outcome.hub.graph = live.hub.graph ∧
      outcome.hub.eventBuffer = live.hub.eventBuffer := by
  intro live outcome
  have htracks : live.Tracks cfg json events := LiveHub.tracks_run maxBytes hplain
  have hlines : live.wal.files.lines =
      (accepted cfg.hasher cfg.dedupWindowMs events).map json.line := by
    have hactive : live.wal.files.active =
        some (json.lines (accepted cfg.hasher cfg.dedupWindowMs events) ++ []) := by
      rw [htracks.files_eq, List.append_nil]
    have hrecords := hjson.oneLine.walLines_eq (by rw [htracks.files_eq]) hactive (by simp)
    simpa using hrecords
  have hvalid : ∀ raw ∈ live.wal.files.lines, (decode raw).isSome = true := by
    intro raw hraw
    rw [hlines] at hraw
    obtain ⟨event, _, rfl⟩ := List.mem_map.mp hraw
    rw [json.decode_line]
    rfl
  have hrun := replayWal_of_valid cfg json (.fresh : HubState F) hvalid
  rw [hlines, byKind_run_lines hjson, Replay.run_offer_accepted hord] at hrun
  rw [show outcome = _ from hrun, htracks.hub_eq, hlines, List.length_map]
  exact ⟨rfl, rfl, rfl⟩

end Recovery

/-- A stream with a duplicate, which the live hub rejects and does not log. -/
theorem replayWal_reproducesLive_duplicate :
    let first : Event := ⟨1000, .computeUtil, "gpu-0", none, some 7, "95", some "node-a"⟩
    let second : Event := ⟨2000, .errorHw, "gpu-0", none, none, "XID_79", some "node-a"⟩
    let cfg : HubConfig :=
      { hasher := fun fields => fields.ts.toUInt64, dedupWindowMs := 5000, eventBufferSize := 8 }
    let live := Run.run (LiveHub.step cfg compactJson)
      (LiveHub.start 0 : LiveHub Binary64) [first, first, second]
    let outcome := replayWal cfg compactJson live.wal.files (.fresh : HubState Binary64)
    live.hub.eventBuffer = [first, second] ∧
    outcome.result =
        .ok
          { replayed := live.wal.files.lines.length
            corruptedLines := 0
            dedupDropped := 0
            processFailed := 0 } ∧
      outcome.hub.graph = live.hub.graph ∧
      outcome.hub.eventBuffer = live.hub.eventBuffer := by
  refine ⟨by decide +kernel, ?_⟩
  exact replayWal_reproducesLive compactJson compactJson_lawful _ 0 _ (by decide)
    (by decide +kernel)

end ArkInfra
