import ArkInfra.Hub.Replay

/-!
# Torn appends

A crash or a write error can leave the beginning of a record at the end of the
active file.  The writer opens the file again in append mode and writes the
next record right behind it, so that the two make up one line.  The record
whose append returned `Ok` is then lost together with the torn one.

`acknowledged_survive` is the positive side: as long as every append that
completes starts at the end of a record, and an append that has returned `Ok`
does complete, a replay succeeds and offers all the acknowledged records in
order, wherever the other appends were cut.  The cuts themselves must not fall
inside a character, since the replay fails on such a line.
-/

namespace ArkInfra

open TextFile

namespace WalState

variable (json : SerdeJson)

/-- The active file is empty or ends with a whole line. -/
def AtBoundary (state : WalState) : Prop :=
  ∀ b ∈ (state.files.active.getD []).getLast?, b = newline

/-- A complete write starts at the end of a record, an interrupted one cuts its
record between two characters. -/
def CleanWrite (state : WalState) (event : Event) : Option Nat → Prop
  | none => state.AtBoundary
  | some written => (decode ((json.toVec event).take written)).isSome = true

/-- The write of an append is clean, and if the append returns `Ok` the write
completes. -/
def CleanTail (state : WalState) : WalOp → Prop
  | .append event fault report =>
    state.CleanWrite json event (state.interruption (json.line event) fault) ∧
      (report = .later → state.interruption (json.line event) fault = none)
  | .reopen => True

instance (state : WalState) : Decidable state.AtBoundary :=
  inferInstanceAs (Decidable (∀ b ∈ (state.files.active.getD []).getLast?, b = newline))

instance (state : WalState) (event : Event) (interruption : Option Nat) :
    Decidable (state.CleanWrite json event interruption) :=
  match interruption with
  | none => inferInstanceAs (Decidable state.AtBoundary)
  | some written =>
    inferInstanceAs (Decidable ((decode ((json.toVec event).take written)).isSome = true))

instance (state : WalState) (op : WalOp) : Decidable (state.CleanTail json op) :=
  match op with
  | .append event fault report =>
    inferInstanceAs (Decidable
      (state.CleanWrite json event (state.interruption (json.line event) fault) ∧
        (report = .later → state.interruption (json.line event) fault = none)))
  | .reopen => inferInstanceAs (Decidable True)

/-- The active file holds the acknowledged records and the torn pieces of one
more line. -/
structure TornLog (state : WalState) (acked : List Event) (tail : Bytes) : Prop where
  rotated_eq : state.files.rotated = none
  active_eq : state.files.active = some (json.lines acked ++ tail)
  tail_line : newline ∉ tail
  tail_valid : (decode tail).isSome = true

variable {json}

theorem TornLog.tail_eq_nil {state : WalState} {acked : List Event} {tail : Bytes}
    (h : state.TornLog json acked tail) (hb : state.AtBoundary) : tail = [] := by
  by_contra hne
  have hlast : (state.files.active.getD []).getLast? = some (tail.getLast hne) := by
    rw [h.active_eq, Option.getD_some, List.getLast?_append_of_ne_nil _ hne,
      List.getLast?_eq_some_getLast hne]
  have hnl := hb _ hlast
  exact h.tail_line (hnl ▸ List.getLast_mem hne)

/-- A record that is written behind a record boundary is complete on its
line. -/
theorem TornLog.complete {state : WalState} {acked : List Event}
    (h : state.TornLog json acked []) (event : Event) :
    (state.write (json.line event)).TornLog json (acked ++ [event]) [] := by
  constructor
  · exact h.rotated_eq
  · simp [write, h.active_eq]
  · exact h.tail_line
  · exact h.tail_valid

theorem TornLog.cut {state : WalState} {acked : List Event} {tail : Bytes}
    (hjson : json.Lawful) (h : state.TornLog json acked tail) {event : Event} {written : Nat}
    (hvalid : (decode ((json.toVec event).take written)).isSome = true) :
    (state.write ((json.toVec event).take written)).TornLog json acked
      (tail ++ (json.toVec event).take written) := by
  constructor
  · exact h.rotated_eq
  · simp [write, h.active_eq]
  · intro hmem
    rcases List.mem_append.mp hmem with hmem | hmem
    · exact h.tail_line hmem
    · exact hjson.oneLine.newline_notMem_toVec event (List.mem_of_mem_take hmem)
  · obtain ⟨s, hs⟩ := Option.isSome_iff_exists.mp h.tail_valid
    obtain ⟨t, ht⟩ := Option.isSome_iff_exists.mp hvalid
    rw [decode_append hs ht]
    rfl

theorem tornLog_step {state : WalState} {acked : List Event} {tail : Bytes}
    (hjson : json.Lawful) (h : state.TornLog json acked tail) {op : WalOp}
    (hrot : state.NoRotation json op) (hclean : state.CleanTail json op) :
    ∃ tail', (state.step json op).TornLog json
      (acked ++ (state.acknowledges json op).toList) tail' := by
  cases op with
  | reopen =>
    refine ⟨tail, ?_⟩
    constructor
    · exact h.rotated_eq
    · simp [step, WalFiles.openActive, acknowledges, h.active_eq]
    · exact h.tail_line
    · exact h.tail_valid
  | append event fault report =>
    have hroom : state.makeRoom (json.line event) = state := makeRoom_of_noRotation hrot
    obtain ⟨hclean, hcompletes⟩ := hclean
    cases hint : state.interruption (json.line event) fault with
    | none =>
      rw [hint] at hclean
      obtain rfl := h.tail_eq_nil hclean
      rw [← hroom] at hint
      have happend := appendWalEvent_of_complete hint report
      refine ⟨[], ?_⟩
      simp only [step, acknowledges, happend, hroom]
      exact h.complete event
    | some written =>
      -- a write that is cut short was reported by its own call
      obtain rfl : report = .atOnce := by
        cases report with
        | atOnce =>
          rfl
        | later =>
          rw [hcompletes rfl] at hint
          cases hint
      rw [hint] at hclean
      rw [← hroom] at hint
      have happend := appendWalEvent_of_interruption hint
      have hdrop : (json.line event).dropLast = json.toVec event := by
        simp [SerdeJson.line]
      refine ⟨tail ++ (json.toVec event).take written, ?_⟩
      simp only [step, acknowledges, happend, hroom, hdrop, Option.toList_none,
        List.append_nil]
      exact h.cut hjson hclean

theorem tornLog_run (hjson : json.Lawful) {state : WalState}
    (hstate : state.TornLog json [] []) {ops : List WalOp}
    (hrot : Run.Meets (step json) (NoRotation json) state ops)
    (hclean : Run.Meets (step json) (CleanTail json) state ops) :
    ∃ tail, (Run.run (step json) state ops).TornLog json
      (state.acknowledged json ops) tail := by
  induction ops using List.reverseRecOn with
  | nil =>
    exact ⟨[], hstate⟩
  | append_singleton ops op ih =>
    obtain ⟨hrot, hrotLast⟩ := Run.meets_append.mp hrot
    obtain ⟨hclean, hcleanLast⟩ := Run.meets_append.mp hclean
    obtain ⟨tail, htail⟩ := ih hrot hclean
    rw [Run.run_concat, acknowledged_concat]
    exact tornLog_step hjson htail hrotLast.1 hcleanLast.1

theorem tornLog_openActive (maxBytes : UInt64) :
    TornLog json ⟨WalFiles.empty.openActive, maxBytes⟩ [] [] := by
  constructor
  · rfl
  · rfl
  · simp
  · decide

theorem TornLog.lines_valid {state : WalState} {acked : List Event} {tail : Bytes}
    (hjson : json.Lawful) (h : state.TornLog json acked tail) :
    ∀ raw ∈ state.files.lines, (decode raw).isSome = true := by
  intro raw hraw
  rw [hjson.oneLine.walLines_eq h.rotated_eq h.active_eq h.tail_line] at hraw
  rcases List.mem_append.mp hraw with hrecord | hrest
  · obtain ⟨event, _, rfl⟩ := List.mem_map.mp hrecord
    rw [json.decode_line]
    rfl
  · split_ifs at hrest with hnil
    · cases hrest
    · rw [List.mem_singleton.mp hrest]
      exact h.tail_valid

/-- **Acknowledged records survive** any crashes and write errors, in runs
without rotation whose completed appends all start at the end of a record, whose
interrupted ones are cut between characters and in which every append that
returned `Ok` completes: a later replay succeeds and offers every record whose
append returned `Ok`, in order. -/
theorem acknowledged_survive {F : Type} [FloatArith F] (json : SerdeJson)
    (hjson : json.Lawful) (maxBytes : UInt64) (ops : List WalOp)
    (hrot : Run.Meets (step json) (NoRotation json)
      ⟨WalFiles.empty.openActive, maxBytes⟩ ops)
    (hclean : Run.Meets (step json) (CleanTail json)
      ⟨WalFiles.empty.openActive, maxBytes⟩ ops)
    (cfg : HubConfig) (hub : HubState F) :
    let state := Run.run (step json) ⟨WalFiles.empty.openActive, maxBytes⟩ ops
    let outcome := replayWal cfg json state.files hub
    (∃ stats, outcome.result = .ok stats) ∧
    (acknowledged json ⟨WalFiles.empty.openActive, maxBytes⟩ ops).Sublist outcome.offered := by
  intro state outcome
  obtain ⟨tail, htorn⟩ := tornLog_run hjson (tornLog_openActive maxBytes) hrot hclean
  have hrun := replayWal_of_valid cfg json hub (htorn.lines_valid hjson)
  refine ⟨⟨_, by rw [show outcome = _ from hrun]⟩, ?_⟩
  rw [show outcome = _ from hrun, Replay.run_byKind_offered,
    hjson.oneLine.walLines_eq htorn.rotated_eq htorn.active_eq htorn.tail_line,
    List.map_append, List.filterMap_append, List.map_map, List.filterMap_map]
  have hacked : ∀ events : List Event,
      events.filterMap (LineKind.event? ∘ LineKind.ofLine json ∘ json.line) = events := by
    intro events
    induction events with
    | nil =>
      rfl
    | cons event events ih =>
      simp [hjson.ofLine_line, LineKind.event?, ih]
  rw [hacked]
  simp

/-- A write that completes after its call has returned is there, one that fails at
its first byte leaves the file at the end of a record, and a last one that is cut
leaves a tail that nothing follows. -/
theorem acknowledged_survive_cutTail :
    let first : Event := ⟨1000, .errorHw, "gpu-0", none, none, "XID_79", some "node-a"⟩
    let second : Event := ⟨2000, .errorHw, "gpu-1", none, none, "XID_48", some "node-a"⟩
    let cfg : HubConfig :=
      { hasher := fun fields => fields.ts.toUInt64, dedupWindowMs := 5000, eventBufferSize := 8 }
    let ops : List WalOp :=
      [.append first none .later, .append second (some 0) .atOnce, .reopen,
        .append second none .atOnce, .append first (some 20) .atOnce]
    let state := Run.run (step compactJson) ⟨WalFiles.empty.openActive, 0⟩ ops
    let outcome := replayWal cfg compactJson state.files (.fresh : HubState Binary64)
    acknowledged compactJson ⟨WalFiles.empty.openActive, 0⟩ ops = [first, second] ∧
    (∃ stats, outcome.result = .ok stats) ∧
    (acknowledged compactJson ⟨WalFiles.empty.openActive, 0⟩ ops).Sublist
      outcome.offered := by
  refine ⟨by decide +kernel, ?_⟩
  exact acknowledged_survive compactJson compactJson_lawful 0 _
    (meets_noRotation_of_unlimited rfl _) (by decide +kernel) _ _

section Glued

variable {torn next : Event} {written : Nat}

theorem lines_glued (hjson : json.Lawful) {files : WalFiles} {acked : List Event}
    (hrotated : files.rotated = none)
    (hactive : files.active =
      some (json.lines acked ++ ((json.toVec torn).take written ++ json.line next))) :
    files.lines =
      acked.map json.line ++ [(json.toVec torn).take written ++ json.line next] := by
  have hrecords : ∀ r ∈ acked.map json.toVec ++
      [(json.toVec torn).take written ++ json.toVec next], newline ∉ r := by
    intro r hr hmem
    rcases List.mem_append.mp hr with hr | hr
    · obtain ⟨event, _, rfl⟩ := List.mem_map.mp hr
      exact hjson.oneLine.newline_notMem_toVec event hmem
    · rw [List.mem_singleton.mp hr] at hmem
      rcases List.mem_append.mp hmem with hmem | hmem
      · exact hjson.oneLine.newline_notMem_toVec torn (List.mem_of_mem_take hmem)
      · exact hjson.oneLine.newline_notMem_toVec next hmem
  have key := rawLines_lines hrecords (by simp : newline ∉ [])
  unfold WalFiles.lines
  rw [hrotated, hactive]
  simp only [List.map_append, List.map_map, List.map_singleton, List.flatten_append,
    List.flatten_singleton, List.append_nil, if_true, List.append_assoc] at key
  exact key

theorem decode_glued {cut : String}
    (hcut : decode ((json.toVec torn).take written) = some cut) :
    decode ((json.toVec torn).take written ++ json.line next) =
      some (cut ++ json.toText next ++ "\n") := by
  rw [String.append_assoc]
  exact decode_append hcut (json.decode_line next)

/-- The shared line counts as corrupted, unless the two texts together happen to
be an event. -/
theorem ofLine_glued (hjson : json.Lawful) {cut : String} {c : Char}
    (hcut : decode ((json.toVec torn).take written) = some cut)
    (hhead : cut.toList.head? = some c) (hc : Text.isWhitespace c = false)
    (hread : json.fromStr (cut ++ json.toText next) = none) :
    LineKind.ofLine json ((json.toVec torn).take written ++ json.line next) =
      .corrupted := by
  have hfirst : (cut ++ json.toText next).toList.head? = some c := by
    rw [String.toList_append, List.head?_append, hhead]
    rfl
  have hlast : (cut ++ json.toText next).toList.getLast? = some '\x7d' := by
    rw [String.toList_append, List.getLast?_append, (hjson.oneLine.ends_toText next).2]
    rfl
  have hne : cut ++ json.toText next ≠ "" := by
    intro hempty
    rw [hempty] at hfirst
    cases hfirst
  unfold LineKind.ofLine
  rw [decode_glued hcut]
  simp only [chomp_append_newline hlast (by decide),
    Text.trim_eq_self hfirst hlast hc (by decide), if_neg hne, hread]

end Glued

/-- **A torn record takes the next one with it.**  The second append is cut
after twenty bytes; the hub restarts, the third append returns `Ok`, and its
record ends up on the line of the torn one, which the replay skips. -/
theorem acknowledged_lost_afterTornAppend :
    let first : Event := ⟨1000, .errorHw, "gpu-0", none, none, "XID_79", some "node-a"⟩
    let torn : Event := ⟨2000, .errorHw, "gpu-1", none, none, "XID_48", some "node-a"⟩
    let third : Event := ⟨3000, .errorHw, "gpu-2", none, none, "XID_63", some "node-a"⟩
    let cfg : HubConfig :=
      { hasher := fun fields => fields.ts.toUInt64, dedupWindowMs := 5000, eventBufferSize := 8 }
    let ops : List WalOp :=
      [.append first none .atOnce, .append torn (some 20) .atOnce, .reopen,
        .append third none .atOnce]
    let state := Run.run (step compactJson) ⟨WalFiles.empty.openActive, 0⟩ ops
    let outcome := replayWal cfg compactJson state.files (.fresh : HubState Binary64)
    Run.Meets (step compactJson) (NoRotation compactJson)
      ⟨WalFiles.empty.openActive, 0⟩ ops ∧
    acknowledged compactJson ⟨WalFiles.empty.openActive, 0⟩ ops = [first, third] ∧
    outcome.offered = [first] ∧
    ¬ (acknowledged compactJson ⟨WalFiles.empty.openActive, 0⟩ ops).Sublist
      outcome.offered := by
  intro first torn third cfg ops state outcome
  have hjson := compactJson_lawful
  have hacked : acknowledged compactJson ⟨WalFiles.empty.openActive, 0⟩ ops =
      [first, third] := by
    decide +kernel
  have hcut : decode ((compactJson.toVec torn).take 20) =
      some "\x7b\"ts\":2000,\"event_ty" := by
    decide +kernel
  have hread : compactJson.fromStr ("\x7b\"ts\":2000,\"event_ty" ++
      compactJson.toText third) = none := by
    decide +kernel
  have hlines : state.files.lines = [first].map compactJson.line ++
      [(compactJson.toVec torn).take 20 ++ compactJson.line third] := by
    exact lines_glued hjson (by decide +kernel) (by decide +kernel)
  have hvalid : ∀ raw ∈ state.files.lines, (decode raw).isSome = true := by
    intro raw hraw
    rw [hlines] at hraw
    rcases List.mem_pair.mp hraw with rfl | rfl
    · rw [SerdeJson.decode_line]
      rfl
    · rw [decode_glued hcut]
      rfl
  have hoffered : outcome.offered = [first] := by
    have hrun := replayWal_of_valid cfg compactJson (.fresh : HubState Binary64) hvalid
    rw [show outcome = _ from hrun, Replay.run_byKind_offered, hlines]
    simp [hjson.ofLine_line, ofLine_glued hjson hcut rfl (by decide) hread, LineKind.event?]
  refine ⟨meets_noRotation_of_unlimited rfl ops, hacked, hoffered, ?_⟩
  rw [hacked, hoffered]
  intro hsub
  simpa using hsub.length_le

end WalState

end ArkInfra
