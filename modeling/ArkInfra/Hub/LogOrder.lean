import ArkInfra.Hub.Ingest
import ArkInfra.Hub.Wal
import ArkInfra.Lib.Interleave

/-!
# The order of the log

Every connection of the hub is a task of its own.  For each event it receives
it runs the deduplication, the graph, the buffer of recent events and the log
one after the other; each of the four is atomic under its own lock, and between
two of them any other connection may run.

The shared state carries a history beside the data of the hub: the events in
the order in which they were applied to the graph, and, by their place in that
order, the events that went into the buffer and the records of the log.
`Faithful` ties the history to the data.  Two connections can pass each other
between the graph and the log (`logOrder_overtaken`); as long as none does, the
buffer and the log are in the order of application (`logOrder_of_noOvertaking`).
-/

namespace ArkInfra

open TextFile Dedup

/-- A piece of the log: the bytes of one append, with the number of its event
when the append succeeded. -/
structure WalRecord where
  number : Option Nat
  bytes : Bytes
deriving DecidableEq

def WalRecord.content (records : List WalRecord) : Bytes :=
  (records.map WalRecord.bytes).flatten

theorem WalRecord.content_append (records records' : List WalRecord) :
    content (records ++ records') = content records ++ content records' := by
  simp [content]

theorem WalRecord.content_singleton (record : WalRecord) : content [record] = record.bytes := by
  simp [content]

namespace WalState

/-- The records are those that rotation has given up, those of the rotated file
and those of the active file, one after the other. -/
def HoldsRecords (state : WalState) (records : List WalRecord) : Prop :=
  ∃ gone older recent, records = gone ++ older ++ recent ∧
    state.files.rotated.getD [] = WalRecord.content older ∧
    state.files.active.getD [] = WalRecord.content recent

theorem HoldsRecords.makeRoom {state : WalState} {records : List WalRecord}
    (h : state.HoldsRecords records) (line : Bytes) :
    (state.makeRoom line).HoldsRecords records := by
  obtain ⟨gone, older, recent, rfl, holder, hrecent⟩ := h
  unfold WalState.makeRoom
  split_ifs
  · -- the active file takes the place of the rotated one
    refine ⟨gone ++ older, recent, [], by simp, ?_, ?_⟩
    · rw [← hrecent]
      unfold rotateWal
      cases hactive : state.files.active <;>
        cases hrotated : state.files.rotated <;> simp [hactive, WalFiles.openActive, hrotated]
    · unfold rotateWal
      cases hactive : state.files.active <;>
        cases hrotated : state.files.rotated <;>
          simp [hactive, WalFiles.openActive, WalRecord.content]
  · exact ⟨gone, older, recent, rfl, holder, hrecent⟩

theorem HoldsRecords.append {json : SerdeJson} {state : WalState} {records : List WalRecord}
    (h : state.HoldsRecords records) (event : Event) (fault : Option Nat) (number : Option Nat) :
    (state.appendWalEvent json event fault .atOnce).1.HoldsRecords
      (records ++ [⟨number, state.appendedBytes json event fault⟩]) := by
  rw [appendWalEvent_fst]
  obtain ⟨gone, older, recent, rfl, holder, hrecent⟩ := h.makeRoom (json.line event)
  refine ⟨gone, older, recent ++ [⟨number, state.appendedBytes json event fault⟩],
    by simp, holder, ?_⟩
  rw [WalRecord.content_append, WalRecord.content_singleton, ← hrecent]
  rfl

end WalState

/-- What has been done so far.  Events are numbered in the order in which they
were applied to the graph. -/
structure History where
  applied : List Event
  buffered : List Nat
  records : List WalRecord

/-- The numbers of the events whose append succeeded, in the order of their
records. -/
def History.logged (history : History) : List Nat :=
  history.records.filterMap WalRecord.number

theorem History.logged_record (history : History) (record : WalRecord) :
    History.logged { history with records := history.records ++ [record] } =
      history.logged ++ record.number.toList := by
  simp only [logged, List.filterMap_append]
  cases hnumber : record.number <;> simp [hnumber]

structure SharedHub (F : Type) where
  hub : HubState F
  wal : Option WalState
  history : History

inductive Stage where
  | idle
  | accepted (event : Event)
  | applied (number : Nat) (event : Event)
  | buffered (number : Nat) (event : Event)

/-- A connection: the events it will still receive, and the one at hand. -/
structure HubConnection where
  incoming : List Event
  stage : Stage

namespace HubConnection

def accept (incoming : List Event) : HubConnection where
  incoming := incoming
  stage := .idle

/-- The number of the event that is applied and not yet in the buffer. -/
def unbuffered (c : HubConnection) : Option Nat :=
  match c.stage with
  | .applied number _ => some number
  | _ => none

/-- The number of the event that is applied and not yet logged. -/
def unlogged (c : HubConnection) : Option Nat :=
  match c.stage with
  | .applied number _ => some number
  | .buffered number _ => some number
  | _ => none

def numbered (c : HubConnection) : Option (Nat × Event) :=
  match c.stage with
  | .applied number event => some (number, event)
  | .buffered number event => some (number, event)
  | _ => none

end HubConnection

namespace SharedHub

variable {F : Type}

def start (hub : HubState F) (wal : Option WalState) : SharedHub F where
  hub := hub
  wal := wal
  history :=
    { applied := []
      buffered := []
      records :=
        match wal with
        | some wal =>
          [⟨none, wal.files.rotated.getD []⟩, ⟨none, wal.files.active.getD []⟩]
        | none => [] }

variable [FloatArith F] (cfg : HubConfig) (json : SerdeJson)

/-- The next atomic step of a connection.  The environment decides whether the
write of an append is cut short. -/
def runSection (s : SharedHub F) (c : HubConnection) (fault : Option Nat) :
    SharedHub F × HubConnection :=
  match c.stage with
  | .idle =>
    match c.incoming with
    | [] => (s, c)
    | event :: incoming =>
      let (store, accepted) :=
        acceptEventWithDedup cfg.hasher event s.hub.dedupStore cfg.dedupWindowMs
      ({ s with hub := { s.hub with dedupStore := store } },
        { incoming := incoming, stage := if accepted then .accepted event else .idle })
  | .accepted event =>
    match s.hub.graph.processEvent event with
    | .error _ => (s, { c with stage := .idle })
    | .ok graph =>
      ({ s with
          hub := { s.hub with graph := graph }
          history := { s.history with applied := s.history.applied ++ [event] } },
        { c with stage := .applied s.history.applied.length event })
  | .applied number event =>
    ({ s with
        hub :=
          { s.hub with
            eventBuffer := HubState.pushEvent cfg.eventBufferSize s.hub.eventBuffer event }
        history := { s.history with buffered := s.history.buffered ++ [number] } },
      { c with stage := .buffered number event })
  | .buffered number event =>
    match s.wal with
    | none => (s, { c with stage := .idle })
    | some wal =>
      let (next, result) := wal.appendWalEvent json event fault .atOnce
      ({ s with
          wal := some next
          history :=
            { s.history with
              records := s.history.records ++
                [⟨if result.isOk then some number else none,
                  wal.appendedBytes json event fault⟩] } },
        { c with stage := .idle })

inductive SectionOf (s : SharedHub F) (c : HubConnection) (fault : Option Nat) :
    SharedHub F × HubConnection → Prop
  | quiet (store : DedupStore) (c' : HubConnection) (hc : c.unbuffered = none)
      (hc' : c'.unlogged = none) (hnumbered : c'.numbered = none) :
      SectionOf s c fault ({ s with hub := { s.hub with dedupStore := store } }, c')
  | apply (event : Event) (hstage : c.stage = .accepted event) :
      SectionOf s c fault
        ({ s with
            hub := { s.hub with graph := s.hub.graph.applyEvent event }
            history := { s.history with applied := s.history.applied ++ [event] } },
          { c with stage := .applied s.history.applied.length event })
  | push (number : Nat) (event : Event) (hstage : c.stage = .applied number event) :
      SectionOf s c fault
        ({ s with
            hub :=
              { s.hub with
                eventBuffer := HubState.pushEvent cfg.eventBufferSize s.hub.eventBuffer event }
            history := { s.history with buffered := s.history.buffered ++ [number] } },
          { c with stage := .buffered number event })
  | append (number : Nat) (event : Event) (wal : WalState)
      (hstage : c.stage = .buffered number event) (hwal : s.wal = some wal) :
      SectionOf s c fault
        ({ s with
            wal := some (wal.appendWalEvent json event fault .atOnce).1
            history :=
              { s.history with
                records := s.history.records ++
                  [⟨if (wal.appendWalEvent json event fault .atOnce).2.isOk then some number
                      else none,
                    wal.appendedBytes json event fault⟩] } },
          { c with stage := .idle })

theorem sectionOf (s : SharedHub F) (c : HubConnection) (fault : Option Nat) :
    SectionOf cfg json s c fault (s.runSection cfg json c fault) := by
  unfold runSection
  cases hstage : c.stage with
  | idle =>
    have hnone : c.unbuffered = none := by
      simp [HubConnection.unbuffered, hstage]
    cases c.incoming with
    | nil =>
      exact .quiet s.hub.dedupStore c hnone (by simp [HubConnection.unlogged, hstage])
        (by simp [HubConnection.numbered, hstage])
    | cons event incoming =>
      simp only
      split <;> exact .quiet _ _ hnone rfl rfl
  | accepted event =>
    exact .apply event hstage
  | applied number event =>
    exact .push number event hstage
  | buffered number event =>
    cases hwal : s.wal with
    | none =>
      have hsame : s = { s with hub := { s.hub with dedupStore := s.hub.dedupStore } } := rfl
      simp only
      rw [hsame]
      exact .quiet _ _ (by simp [HubConnection.unbuffered, hstage]) rfl rfl
    | some wal =>
      exact .append number event wal hstage hwal

end SharedHub

/-- There is a log, and the append of the event to it succeeds. -/
def SharedHub.logs {F : Type} (json : SerdeJson) (s : SharedHub F) (fault : Option Nat)
    (event : Event) : Bool :=
  s.wal.any fun wal => (wal.appendWalEvent json event fault .atOnce).2.isOk

/-- When connection `i` is about to write to the buffer, or to the log with success,
every other connection that still has to do so holds an event that was applied
later. -/
def Stage.PassesNone (calls : List HubConnection) (i : Nat) (logs : Event → Bool) : Stage → Prop
  | .idle => True
  | .accepted _ => True
  | .applied number _ => Pool.First HubConnection.unbuffered calls i number
  | .buffered number event =>
    logs event = true → Pool.First HubConnection.unlogged calls i number

instance (calls : List HubConnection) (i : Nat) (logs : Event → Bool) (stage : Stage) :
    Decidable (stage.PassesNone calls i logs) :=
  match stage with
  | .idle => isTrue trivial
  | .accepted _ => isTrue trivial
  | .applied number _ =>
    inferInstanceAs (Decidable (Pool.First HubConnection.unbuffered calls i number))
  | .buffered number _ =>
    inferInstanceAs (Decidable (_ → Pool.First HubConnection.unlogged calls i number))

abbrev HubPool (F : Type) := Pool (SharedHub F) HubConnection

/-- A connection is accepted, or one takes its next step. -/
abbrev HubAction := Pool.Action (List Event) (Option Nat)

namespace HubPool

variable {F : Type}

def start (hub : HubState F) (wal : Option WalState) : HubPool F where
  shared := .start hub wal
  calls := []

/-- The connection that takes its step does not pass another one. -/
def NoOvertaking (json : SerdeJson) (p : HubPool F) : HubAction → Prop
  | .call _ => True
  | .advance i fault => ∀ c ∈ p.calls[i]?, c.stage.PassesNone p.calls i (p.shared.logs json fault)

instance (json : SerdeJson) (p : HubPool F) (action : HubAction) :
    Decidable (p.NoOvertaking json action) :=
  match action with
  | .call _ => isTrue trivial
  | .advance i _ => inferInstanceAs (Decidable (∀ c ∈ p.calls[i]?, _))

/-- The buffer and the log take their events in turn. -/
structure InOrder (p : HubPool F) : Prop where
  buffer : Pool.InTurn HubConnection.unbuffered p.calls p.shared.history.applied.length
    p.shared.history.buffered
  log : Pool.InTurn HubConnection.unlogged p.calls p.shared.history.applied.length
    p.shared.history.logged

theorem inOrder_start (hub : HubState F) (wal : Option WalState) : (start hub wal).InOrder where
  buffer := Pool.inTurn_nil 0
  log := by
    cases wal <;> exact Pool.inTurn_nil 0

variable [FloatArith F] (cfg : HubConfig) (json : SerdeJson)

def step (p : HubPool F) (action : HubAction) : HubPool F :=
  Pool.step HubConnection.accept (SharedHub.runSection cfg json) p action

variable {cfg json}

/-- **One step** that passes no other connection keeps the order. -/
theorem inOrder_step {p : HubPool F} {action : HubAction} (h : p.InOrder)
    (hturn : p.NoOvertaking json action) : (p.step cfg json action).InOrder := by
  cases action with
  | call incoming =>
    exact ⟨h.buffer.enter rfl, h.log.enter rfl⟩
  | advance i fault =>
    cases hc : p.calls[i]? with
    | none =>
      rw [step, Pool.step_advance_none hc]
      exact h
    | some c =>
      have hturn := hturn c hc
      rw [step, Pool.step_advance hc]
      have hsection := SharedHub.sectionOf cfg json p.shared c fault
      generalize p.shared.runSection cfg json c fault = result at hsection ⊢
      cases hsection with
      | quiet store c' hbuffer hlog hnumbered =>
        have hnone : c'.unbuffered = none := by
          cases hstage : c'.stage <;>
            simp_all [HubConnection.unbuffered, HubConnection.unlogged]
        refine ⟨h.buffer.keep hc ?_, h.log.keep hc ?_⟩
        · simp [hnone]
        · simp [hlog]
      | apply event hstage =>
        have hlength : (p.shared.history.applied ++ [event]).length =
            p.shared.history.applied.length + 1 := by
          simp
        constructor
        · change Pool.InTurn _ _ (p.shared.history.applied ++ [event]).length _
          rw [hlength]
          exact h.buffer.draw i rfl
        · change Pool.InTurn _ _ (p.shared.history.applied ++ [event]).length _
          rw [hlength]
          exact h.log.draw i rfl
      | push number event hstage =>
        have hnumber : c.unbuffered = some number := by
          simp [HubConnection.unbuffered, hstage]
        have hfirst : Pool.First HubConnection.unbuffered p.calls i number := by
          rw [hstage] at hturn
          exact hturn
        refine ⟨h.buffer.finish hc hnumber rfl hfirst, h.log.keep hc ?_⟩
        intro n hn
        rw [← hn]
        simp [HubConnection.unlogged, hstage]
      | append number event wal hstage hwal =>
        have hnumber : c.unlogged = some number := by
          simp [HubConnection.unlogged, hstage]
        have hfirst : p.shared.logs json fault event = true →
            Pool.First HubConnection.unlogged p.calls i number := by
          rw [hstage] at hturn
          exact hturn
        refine ⟨h.buffer.keep hc (fun n hn => by cases hn), ?_⟩
        change Pool.InTurn _ _ p.shared.history.applied.length _
        rw [History.logged_record]
        cases hok : (wal.appendWalEvent json event fault .atOnce).2.isOk with
        | true =>
          exact h.log.finish hc hnumber rfl
            (hfirst (by simp [SharedHub.logs, hwal, hok]))
        | false =>
          rw [if_neg (by decide), Option.toList_none, List.append_nil]
          exact h.log.keep hc (fun n hn => by cases hn)

end HubPool

section Faithful

variable {F : Type} [FloatArith F]

/-- The history is that of the data: the graph has taken in the applied events
one after the other, the buffer ends with the events that were put there, the
log holds the records, and the record of a successful append is the line of its
event. -/
structure SharedHub.Faithful (json : SerdeJson) (hub : HubState F) (s : SharedHub F) : Prop where
  graph : s.hub.graph = Run.run StateGraph.applyEvent hub.graph s.history.applied
  buffer : s.hub.eventBuffer.map some <:+
    hub.eventBuffer.map some ++ s.history.buffered.map fun n => s.history.applied[n]?
  log : ∀ wal ∈ s.wal, wal.HoldsRecords s.history.records
  buffered_applied : ∀ n ∈ s.history.buffered, n < s.history.applied.length
  record_line : ∀ record ∈ s.history.records, ∀ n ∈ record.number,
    ∃ event, s.history.applied[n]? = some event ∧ record.bytes = json.line event

/-- A connection knows the number of its event. -/
def SharedHub.Knows (s : SharedHub F) (c : HubConnection) : Prop :=
  ∀ x ∈ c.numbered, s.history.applied[x.1]? = some x.2

omit [FloatArith F] in
theorem SharedHub.knows_iff {s : SharedHub F} {c : HubConnection} {number : Nat} {event : Event}
    (h : c.numbered = some (number, event)) :
    s.Knows c ↔ s.history.applied[number]? = some event := by
  simp [Knows, h]

variable {cfg : HubConfig} {json : SerdeJson} {hub : HubState F}

theorem SharedHub.faithful_start (wal : Option WalState) :
    (SharedHub.start hub wal).Faithful json hub where
  graph := rfl
  buffer := by
    simp [SharedHub.start]
  log := by
    rintro wal rfl
    refine ⟨[], [⟨none, wal.files.rotated.getD []⟩], [⟨none, wal.files.active.getD []⟩], rfl, ?_,
      ?_⟩
    · rw [WalRecord.content_singleton]
    · rw [WalRecord.content_singleton]
  buffered_applied := by
    simp [SharedHub.start]
  record_line := by
    cases wal <;> simp [SharedHub.start]

theorem getElem?_applied {applied : List Event} {n : Nat} {event : Event}
    (h : applied[n]? = some event) (later : List Event) :
    (applied ++ later)[n]? = some event := by
  rw [List.getElem?_append_left (List.getElem?_eq_some_iff.mp h).1]
  exact h

theorem map_getElem?_applied {applied : List Event} {numbers : List Nat}
    (h : ∀ n ∈ numbers, n < applied.length) (later : List Event) :
    (numbers.map fun n => (applied ++ later)[n]?) = numbers.map fun n => applied[n]? := by
  refine List.map_congr_left ?_
  intro n hn
  exact List.getElem?_append_left (h n hn)

theorem HubState.pushEvent_suffix {buffer : List Event} {all : List (Option Event)}
    (h : buffer.map some <:+ all) (size : Nat) (event : Event) :
    (pushEvent size buffer event).map some <:+ all ++ [some event] := by
  have hkept : (if buffer.length ≥ size then buffer.drop 1 else buffer).map some <:+ all := by
    split_ifs
    · exact (List.IsSuffix.map some (List.drop_suffix 1 buffer)).trans h
    · exact h
  obtain ⟨gone, hgone⟩ := hkept
  refine ⟨gone, ?_⟩
  rw [pushEvent, List.map_append, ← List.append_assoc, hgone]
  rfl

/-- **One step.** -/
theorem SharedHub.Faithful.runSection {s : SharedHub F} {c : HubConnection} (fault : Option Nat)
    (h : s.Faithful json hub) (hc : s.Knows c) :
    (s.runSection cfg json c fault).1.Faithful json hub ∧
      (s.runSection cfg json c fault).1.Knows (s.runSection cfg json c fault).2 ∧
      ∃ later, (s.runSection cfg json c fault).1.history.applied =
        s.history.applied ++ later := by
  have hsection := SharedHub.sectionOf cfg json s c fault
  generalize s.runSection cfg json c fault = result at hsection ⊢
  cases hsection with
  | quiet store c' hbuffer hlog hnumbered =>
    refine ⟨⟨h.graph, h.buffer, h.log, h.buffered_applied, h.record_line⟩, ?_, [], by simp⟩
    simp [Knows, hnumbered]
  | apply event hstage =>
    refine ⟨⟨?_, ?_, h.log, ?_, ?_⟩, ?_, [event], rfl⟩
    · change StateGraph.applyEvent _ _ = Run.run _ _ (_ ++ [event])
      rw [Run.run_concat, h.graph]
    · have hbuffer := h.buffer
      rw [← map_getElem?_applied h.buffered_applied [event]] at hbuffer
      exact hbuffer
    · intro n hn
      have hlt := h.buffered_applied n hn
      change n < (s.history.applied ++ [event]).length
      rw [List.length_append]
      omega
    · intro record hrecord n hn
      obtain ⟨e, he, hline⟩ := h.record_line record hrecord n hn
      exact ⟨e, getElem?_applied he [event], hline⟩
    · exact (knows_iff rfl).mpr (by simp)
  | push number event hstage =>
    have hnumber : s.history.applied[number]? = some event :=
      (knows_iff (by simp [HubConnection.numbered, hstage])).mp hc
    refine ⟨⟨h.graph, ?_, h.log, ?_, h.record_line⟩, ?_, [], by simp⟩
    · have hmore := HubState.pushEvent_suffix h.buffer cfg.eventBufferSize event
      rw [List.append_assoc, ← hnumber] at hmore
      simpa using hmore
    · intro n hn
      rcases List.mem_append.mp hn with hn | hn
      · exact h.buffered_applied n hn
      · rw [List.mem_singleton.mp hn]
        exact (List.getElem?_eq_some_iff.mp hnumber).1
    · exact (knows_iff rfl).mpr hnumber
  | append number event wal hstage hwal =>
    have hnumber : s.history.applied[number]? = some event :=
      (knows_iff (by simp [HubConnection.numbered, hstage])).mp hc
    refine ⟨⟨h.graph, h.buffer, ?_, h.buffered_applied, ?_⟩, ?_, [], by simp⟩
    · intro next hnext
      obtain rfl := Option.some.inj hnext
      exact (h.log wal hwal).append event fault _
    · intro record hrecord n hn
      rcases List.mem_append.mp hrecord with hrecord | hrecord
      · exact h.record_line record hrecord n hn
      · obtain rfl := List.mem_singleton.mp hrecord
        cases hok : (wal.appendWalEvent json event fault .atOnce).2.isOk with
        | true =>
          obtain rfl : number = n := by simpa [hok] using hn
          have hcomplete := WalState.interruption_of_ok hok
          exact ⟨event, hnumber, (WalState.appendedBytes_of_complete hcomplete).1⟩
        | false =>
          simp [hok] at hn
    · intro x hx
      cases hx

end Faithful

namespace HubPool

variable {F : Type} [FloatArith F]

/-- **The log is in the order of application** in every state of every run in
which no connection passes another between the graph and the log; so is the
buffer.  Events are numbered in the order in which they were applied, and
`Faithful` says which bytes of the log and which entries of the buffer are
theirs. -/
theorem logOrder_of_noOvertaking (cfg : HubConfig) (json : SerdeJson) (hub : HubState F)
    (wal : Option WalState) {actions : List HubAction}
    (hturns : Run.Meets (step cfg json) (NoOvertaking json) (start hub wal) actions)
    {seen rest : List HubAction} (hactions : actions = seen ++ rest) :
    (Run.run (step cfg json) (start hub wal) seen).shared.history.logged.Pairwise (· < ·) ∧
    (Run.run (step cfg json) (start hub wal) seen).shared.history.buffered.Pairwise (· < ·) ∧
    (Run.run (step cfg json) (start hub wal) seen).shared.Faithful json hub := by
  rw [hactions] at hturns
  have hseen := (Run.meets_append.mp hturns).1
  have horder : (Run.run (step cfg json) (start hub wal) seen).InOrder :=
    Run.invariant_of_meets (fun p action hp haction => inOrder_step hp haction)
      (inOrder_start hub wal) hseen
  have hfaithful : Pool.Holds (SharedHub.Faithful json hub) SharedHub.Knows
      (Run.run (step cfg json) (start hub wal) seen) := by
    refine Pool.invariant_of_meets ?_ ?_ ?_ ⟨SharedHub.faithful_start wal, by simp [start]⟩ hseen
    · intro s incoming _ x hx
      cases hx
    · intro s c fault hs hc
      obtain ⟨hnext, hknows, _⟩ := hs.runSection fault hc
      exact ⟨hnext, hknows⟩
    · intro p i j c d fault _ hc hd _ hp x hx
      obtain ⟨_, _, later, hlater⟩ := hp.shared.runSection fault (hp.calls i c hc)
      rw [hlater]
      exact getElem?_applied (hp.calls j d hd x hx) later
  exact ⟨horder.log.sorted, horder.buffer.sorted, hfaithful.shared⟩

section Samples

/-- Some hasher, a window of a minute and a buffer of ten events. -/
def sampleConfig : HubConfig where
  hasher := fun fields => UInt64.ofNat fields.ts
  dedupWindowMs := 60000
  eventBufferSize := 10

def processAt (ts : Nat) (value node : String) : Event where
  ts := ts
  eventType := .processState
  entityId := "proc"
  jobId := none
  pid := some 7
  value := value
  nodeId := some node

/-- A new hub with an empty log without limit. -/
def sampleStart : HubPool Binary64 :=
  start .fresh (some ⟨WalFiles.empty.openActive, 0⟩)

/-- Two connections that work at the same time and pass each other nowhere. -/
def pipelined : List HubAction :=
  [.call [processAt 1000 "start" "a"], .call [processAt 2000 "exit" "a"],
    .advance 0 none, .advance 0 none, .advance 1 none, .advance 1 none,
    .advance 0 none, .advance 1 none, .advance 0 none, .advance 1 none]

theorem logOrder_of_noOvertaking_pipelined :
    (Run.run (step sampleConfig compactJson) sampleStart pipelined).shared.history.logged.Pairwise
        (· < ·) ∧
      (Run.run (step sampleConfig compactJson) sampleStart pipelined).shared.history.logged =
        [0, 1] := by
  have hturns : Run.Meets (step sampleConfig compactJson) (NoOvertaking compactJson) sampleStart
      pipelined := by
    decide +kernel
  obtain ⟨hlogged, _, _⟩ := logOrder_of_noOvertaking sampleConfig compactJson _ _ hturns
    (List.append_nil _).symm
  exact ⟨hlogged, by decide +kernel⟩

/-- The second connection takes all its steps while the first one is between
the graph and the buffer. -/
def overtaken : List HubAction :=
  [.call [processAt 1000 "start" "a"], .call [processAt 2000 "exit" "a"],
    .advance 0 none, .advance 0 none, .advance 1 none, .advance 1 none,
    .advance 1 none, .advance 1 none, .advance 0 none, .advance 0 none]

/-- **Two connections pass each other.**  A process is started on one
connection and reported as ended on another.  The graph has the start before
the exit, the buffer and the log have the exit before the start, and both
appends succeeded; a graph that is rebuilt from the log has the process
running, where the hub has it ended. -/
theorem logOrder_overtaken :
    let p := Run.run (step sampleConfig compactJson) sampleStart overtaken
    let start := processAt 1000 "start" "a"
    let exit := processAt 2000 "exit" "a"
    p.shared.history.applied = [start, exit] ∧
    p.shared.history.logged = [1, 0] ∧
    p.shared.hub.eventBuffer = [exit, start] ∧
    p.shared.wal.map WalState.files =
      some { active := some (compactJson.lines [exit, start]), rotated := none } ∧
    ¬ p.shared.history.logged.Pairwise (· < ·) ∧
    ¬ p.shared.history.buffered.Pairwise (· < ·) ∧
    (p.shared.hub.graph.nodes.lookup "a::pid-7").map (fun node => node.metadata.lookup "state") =
      some (some "exit") ∧
    ((StateGraph.after [exit, start] : StateGraph Binary64).nodes.lookup "a::pid-7").map
      (fun node => node.metadata.lookup "state") = some (some "running") := by
  decide +kernel

end Samples

end HubPool

end ArkInfra
