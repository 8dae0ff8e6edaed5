import ArkInfra.Hub.K8sController
import ArkInfra.Hub.Recovery
import ArkInfra.Lib.RingBuffer

/-!
# Questions about recent events

`hub/src/main.rs`: the routes `preflight` and `training_slow` answer from the
buffer of recent events alone.  The buffer is bounded, so what they see of a
node or a job is what was stored last: `eventBuffer_after` says for every stream
of events which those are.

`preflight` and the fault controller judge the same events by rules of their
own.  `preflight_after` puts the two side by side: a node that the controller
isolates is not healthy for as long as the event is in the window, except when
a network error spells its broken link in capitals.  `trainingSlow_after` says
what the verdict on a slow job rests on, and what the events of other jobs do to
it: nothing while the job's own events are in the buffer, and once they have
pushed them out, a verdict without any evidence.
-/

namespace ArkInfra

open Dedup

namespace HubState

variable {F : Type} [FloatArith F]

def after (cfg : HubConfig) (events : List Event) : HubState F :=
  Run.run (fun hub event => (hub.ingest cfg event).1) .fresh events

def stored (cfg : HubConfig) (events : List Event) : List Event :=
  accepted cfg.hasher cfg.dedupWindowMs events

/-- What was stored is in the graph and in the buffer; the deduplication has seen
all events. -/
theorem after_eq (cfg : HubConfig) (events : List Event) :
    (after cfg events : HubState F) =
      { afterStored cfg (stored cfg events) with
        dedupStore := storeAfter cfg.hasher cfg.dedupWindowMs events } := by
  induction events using List.reverseRecOn with
  | nil =>
    rfl
  | append_singleton events e ih =>
    have hstore : (acceptEventWithDedup cfg.hasher e
        (after cfg events : HubState F).dedupStore cfg.dedupWindowMs).1 =
          storeAfter cfg.hasher cfg.dedupWindowMs (events ++ [e]) := by
      rw [ih, storeAfter_concat]
    have hverdict : (acceptEventWithDedup cfg.hasher e
        (after cfg events : HubState F).dedupStore cfg.dedupWindowMs).2 =
          accepts cfg.hasher cfg.dedupWindowMs events e := by
      rw [ih]
      rfl
    have hstep : (after cfg (events ++ [e]) : HubState F) =
        ((after cfg events : HubState F).ingest cfg e).1 := Run.run_concat _ _ _ _
    rw [hstep, stored, accepted_concat]
    cases hacc : accepts cfg.hasher cfg.dedupWindowMs events e with
    | false =>
      rw [ingest_of_rejected (hverdict.trans hacc), hstore, ih]
      simp [stored]
    | true =>
      rw [ingest_of_accepted (hverdict.trans hacc), hstore, if_pos rfl, afterStored_concat, ih]
      rfl

/-- **What the buffer holds**: the events that were stored last. -/
theorem eventBuffer_after (cfg : HubConfig) (events : List Event) :
    (after cfg events : HubState F).eventBuffer =
      (stored cfg events).rtake (max cfg.eventBufferSize 1) := by
  rw [after_eq]
  exact RingBuffer.run_push cfg.eventBufferSize (stored cfg events)

end HubState

abbrev QueryParams : Type :=
  HashMap String String

/-- A number among the parameters, kept within its bounds. -/
def QueryParams.clamped (params : QueryParams) (name : String) (default low high : Nat) : Nat :=
  max low (min high (((params.lookup name).bind (Text.parseUnsigned (2 ^ 64))).getD default))

def recentEvents (buffer : List Event) (nowMs windowS : Nat) : List Event :=
  buffer.filter fun e => decide (nowMs - windowS * 1000 ≤ e.ts)

/-- The events of a stream that were stored last and are in the window. -/
def latelyStored (cfg : HubConfig) (events : List Event) (cutoff : Nat) : List Event :=
  ((HubState.stored cfg events).rtake (max cfg.eventBufferSize 1)).filter fun e =>
    decide (cutoff ≤ e.ts)

/-- The events of a stream that were stored and have left the buffer. -/
def pushedOut (cfg : HubConfig) (events : List Event) : List Event :=
  (HubState.stored cfg events).rdrop (max cfg.eventBufferSize 1)

/-- **What a request sees** of a stream of events. -/
theorem recentEvents_after {F : Type} [FloatArith F] (cfg : HubConfig) (events : List Event)
    (nowMs windowS : Nat) :
    recentEvents (HubState.after cfg events : HubState F).eventBuffer nowMs windowS =
      latelyStored cfg events (nowMs - windowS * 1000) := by
  rw [recentEvents, HubState.eventBuffer_after]
  rfl

theorem QueryParams.clamped_bounds (params : QueryParams) (name : String) (default : Nat)
    {low high : Nat} (h : low ≤ high) :
    low ≤ params.clamped name default low high ∧ params.clamped name default low high ≤ high := by
  unfold clamped
  omega

section Preflight

structure PreflightReply where
  nodeId : String
  windowS : Nat
  healthy : Bool
  eventCount : Nat
  reason : String
deriving DecidableEq, Repr

def isCriticalFault (e : Event) : Bool :=
  decide (e.eventType = .errorHw) || decide (e.eventType = .topoLinkDown) ||
    (decide (e.eventType = .errorNet) &&
      (Text.contains e.value "pfc_storm" || Text.contains e.value "phy_degradation" ||
        Text.contains e.value "link_down"))

/-- `GET /api/v1/preflight`. -/
def preflight (buffer : List Event) (params : QueryParams) (nowMs : Nat) :
    Except String PreflightReply :=
  match params.lookup "node_id" with
  | none => .error "missing node_id parameter"
  | some nodeId =>
    let windowS := params.clamped "window_s" 120 30 3600
    let nodeEvents := (recentEvents buffer nowMs windowS).filter fun e =>
      decide (e.nodeId = some nodeId)
    let hasCriticalFault := nodeEvents.any isCriticalFault
    .ok
      { nodeId := nodeId
        windowS := windowS
        healthy := !hasCriticalFault
        eventCount := nodeEvents.length
        reason := if hasCriticalFault then "critical_fault_detected" else "ok" }

/-- The network error names its broken link in capitals only. -/
def InCapitals (e : Event) : Prop :=
  e.eventType = .errorNet ∧ Text.contains e.value "LINK_DOWN" = true ∧
    Text.contains e.value "link_down" = false

/-- **The two judges of an event.**  What the controller isolates a node for is
critical, but for a broken link in capitals. -/
theorem isCriticalFault_of_detect {e : Event} {fault : IrreversibleFault}
    (h : detectIrreversibleFault e = some fault) : isCriticalFault e = true ∨ InCapitals e := by
  unfold detectIrreversibleFault at h
  unfold isCriticalFault InCapitals
  cases htype : e.eventType with
  | errorHw | topoLinkDown =>
    exact Or.inl (by simp)
  | errorNet =>
    simp only [htype] at h
    split_ifs at h with hdown
    cases hlower : Text.contains e.value "link_down" with
    | true => exact Or.inl (by simp)
    | false => exact Or.inr ⟨rfl, by simpa [hlower] using hdown, rfl⟩
  | _ =>
    simp [htype] at h

end Preflight

/-- **Preflight and isolation.**  After every stream of events, a node is healthy
exactly when no critical fault of it was stored lately.  If it is healthy, then
an event that the controller isolates it for is not among those stored lately,
unless it is a network error that names its broken link in capitals only. -/
theorem preflight_after (F : Type) [FloatArith F] (cfg : HubConfig) (events : List Event)
    (params : QueryParams) (nowMs : Nat) (nodeId : String)
    (hnode : params.lookup "node_id" = some nodeId) :
    ∃ reply, preflight (HubState.after cfg events : HubState F).eventBuffer params nowMs =
        .ok reply ∧
      30 ≤ reply.windowS ∧ reply.windowS ≤ 3600 ∧
      (reply.healthy = true ↔
        ∀ e ∈ latelyStored cfg events (nowMs - reply.windowS * 1000),
          e.nodeId = some nodeId → isCriticalFault e = false) ∧
      (reply.healthy = true →
        ∀ e ∈ latelyStored cfg events (nowMs - reply.windowS * 1000), e.nodeId = some nodeId →
          ∀ fault, detectIrreversibleFault e = some fault → InCapitals e) := by
  let windowS := params.clamped "window_s" 120 30 3600
  obtain ⟨hlow, hhigh⟩ : 30 ≤ windowS ∧ windowS ≤ 3600 :=
    params.clamped_bounds "window_s" 120 (by decide)
  have hhealthy : (!((latelyStored cfg events (nowMs - windowS * 1000)).filter fun e =>
      decide (e.nodeId = some nodeId)).any isCriticalFault) = true ↔
        ∀ e ∈ latelyStored cfg events (nowMs - windowS * 1000), e.nodeId = some nodeId →
          isCriticalFault e = false := by
    simp
  refine ⟨_, by simp only [preflight, hnode, recentEvents_after]; rfl, hlow, hhigh, hhealthy, ?_⟩
  intro hok e hstored hid fault hfault
  refine (isCriticalFault_of_detect hfault).resolve_left ?_
  simp [hhealthy.mp hok e hstored hid]

def smallHub : HubConfig where
  hasher := fun _ => 0
  dedupWindowMs := 0
  eventBufferSize := 10

def linkDown (value : String) : Event where
  ts := 1000
  eventType := .errorNet
  entityId := "mlx5_0"
  jobId := none
  pid := none
  value := value
  nodeId := some "node-a"

/-- A node that the controller isolates and that is healthy all the same. -/
theorem preflight_after_capitals :
    (detectIrreversibleFault (linkDown "LINK_DOWN")).isSome = true ∧
    ∃ reply, preflight (HubState.after smallHub [linkDown "LINK_DOWN"] :
        HubState Binary64).eventBuffer (AList.insert "node_id" "node-a" ∅) 2000 = .ok reply ∧
      reply.healthy = true ∧ InCapitals (linkDown "LINK_DOWN") := by
  refine ⟨by decide, ?_⟩
  obtain ⟨reply, hreply, hlow, -, -, hcapitals⟩ := preflight_after Binary64 smallHub
    [linkDown "LINK_DOWN"] (AList.insert "node_id" "node-a" ∅) 2000 "node-a" (by decide)
  have hok : reply.healthy = true := by
    have hcase : (preflight (HubState.after smallHub [linkDown "LINK_DOWN"] :
        HubState Binary64).eventBuffer (AList.insert "node_id" "node-a" ∅) 2000).map
          PreflightReply.healthy = .ok true := by
      decide +kernel
    rw [hreply] at hcase
    exact Except.ok.inj hcase
  refine ⟨reply, hreply, hok,
    hcapitals hok _ (List.mem_filter.mpr ⟨by decide +kernel, ?_⟩) rfl _ rfl⟩
  change decide (2000 - reply.windowS * 1000 ≤ 1000) = true
  rw [decide_eq_true_eq]
  omega

section TrainingSlow

open FloatArith FloatCompare FloatFormat

structure TrainingSlowReply where
  jobId : String
  windowS : Nat
  eventCount : Nat
  rca : String
  score : Binary64

/-- The numbers that events of a type report. -/
def reportedValues (eventType : EventType) (events : List Event) : List Binary64 :=
  (events.filter fun e => decide (e.eventType = eventType)).filterMap fun e => parse e.value

def average (vals : List Binary64) : Binary64 :=
  if vals = [] then ofNat 0 else div (FloatArith.sum vals) (ofNat vals.length)

def clamp (x low high : Binary64) : Binary64 :=
  let x := if lt x low then low else x
  if lt high x then high else x

def classifyTrainingSlow (events : List Event) : String × Binary64 :=
  let avgBw := average (reportedValues .transportBw events)
  let avgDrop := average (reportedValues .transportDrop events)
  let avgStorageIops := average (reportedValues .storageIops events)
  if lt (ofNat 10) avgDrop || lt avgBw (ofNat 30) then
    ("comm_bound", clamp (mul avgDrop (ofNat 2)) (ofNat 0) (ofNat 100))
  else if lt avgStorageIops (ofNat 20) then
    ("io_bound", clamp (sub (ofNat 100) avgStorageIops) (ofNat 0) (ofNat 100))
  else
    ("cpu_bound", ofNat 50)

def ofJob (jobId : String) (events : List Event) : List Event :=
  events.filter fun e => decide (e.jobId = some jobId)

/-- `GET /api/v1/training_slow`. -/
def trainingSlow (buffer : List Event) (params : QueryParams) (nowMs : Nat) :
    Except String TrainingSlowReply :=
  match params.lookup "job_id" with
  | none => .error "missing job_id parameter"
  | some jobId =>
    let windowS := params.clamped "window_s" 120 30 3600
    let jobEvents := ofJob jobId (recentEvents buffer nowMs windowS)
    let (rca, score) := classifyTrainingSlow jobEvents
    .ok
      { jobId := jobId
        windowS := windowS
        eventCount := jobEvents.length
        rca := rca
        score := score }

/-- A score is not below zero and not above a hundred. -/
def InScale (score : Binary64) : Prop :=
  lt score (ofNat 0) = false ∧ lt (ofNat 100) score = false

theorem inScale_clamp (x : Binary64) : InScale (clamp x (ofNat 0) (ofNat 100)) := by
  unfold InScale clamp
  dsimp only
  split_ifs with hlow hhigh hhigh
  · exact ⟨by decide +kernel, by decide +kernel⟩
  · exact ⟨by decide +kernel, by decide +kernel⟩
  · exact ⟨by decide +kernel, by decide +kernel⟩
  · exact ⟨Bool.eq_false_iff.mpr hlow, Bool.eq_false_iff.mpr hhigh⟩

theorem average_nil_lt :
    lt (average []) (ofNat 30) = true ∧ lt (average []) (ofNat 20) = true := by
  decide +kernel

/-- **What a verdict rests on.** -/
theorem classifyTrainingSlow_spec (events : List Event) :
    InScale (classifyTrainingSlow events).2 ∧
      ((classifyTrainingSlow events).1 ≠ "comm_bound" →
        reportedValues .transportBw events ≠ []) ∧
      ((classifyTrainingSlow events).1 = "cpu_bound" →
        reportedValues .storageIops events ≠ []) ∧
      (reportedValues .transportBw events = [] →
        (classifyTrainingSlow events).1 = "comm_bound" ∧
          (reportedValues .transportDrop events = [] →
            (classifyTrainingSlow events).2 = ofNat 0)) := by
  obtain ⟨hbw, hiops⟩ := average_nil_lt
  unfold classifyTrainingSlow
  dsimp only
  split_ifs with hcomm hio
  · refine ⟨inScale_clamp _, by simp, by simp, fun _ => ⟨rfl, ?_⟩⟩
    intro hnone
    rw [hnone]
    decide +kernel
  · have hreported : reportedValues .transportBw events ≠ [] := by
      intro hnone
      simp [hnone, hbw] at hcomm
    exact ⟨inScale_clamp _, fun _ => hreported, by simp, fun hnone => absurd hnone hreported⟩
  · have hreported : reportedValues .transportBw events ≠ [] := by
      intro hnone
      simp [hnone, hbw] at hcomm
    refine ⟨⟨by decide +kernel, by decide +kernel⟩, fun _ => hreported, ?_,
      fun hnone => absurd hnone hreported⟩
    intro _ hnone
    simp [hnone, hiops] at hio

theorem exists_of_reportedValues {eventType : EventType} {events : List Event}
    (h : reportedValues eventType events ≠ []) :
    ∃ e ∈ events, e.eventType = eventType ∧ (parse e.value : Option Binary64).isSome = true := by
  obtain ⟨v, hv⟩ := List.exists_mem_of_ne_nil _ h
  obtain ⟨e, he, hparse⟩ := List.mem_filterMap.mp hv
  obtain ⟨hmem, htype⟩ := List.mem_filter.mp he
  exact ⟨e, hmem, of_decide_eq_true htype, by simp [hparse]⟩

end TrainingSlow

/-- The job has reported a number in an event of the type that was stored lately. -/
def ReportedNumber (cfg : HubConfig) (events : List Event) (cutoff : Nat) (jobId : String)
    (eventType : EventType) : Prop :=
  ∃ e ∈ latelyStored cfg events cutoff, e.jobId = some jobId ∧ e.eventType = eventType ∧
    (FloatArith.parse e.value : Option Binary64).isSome = true

/-- Without the events that have left the buffer, the stored events are those in
it. -/
theorem ofJob_latelyStored {cfg : HubConfig} {events : List Event} {cutoff : Nat} {jobId : String}
    (h : ∀ e ∈ pushedOut cfg events, e.jobId = some jobId → e.ts < cutoff) :
    ofJob jobId (latelyStored cfg events cutoff) =
      ofJob jobId ((ofJob jobId (HubState.stored cfg events)).filter fun e =>
        decide (cutoff ≤ e.ts)) := by
  have hsplit : HubState.stored cfg events = pushedOut cfg events ++
      (HubState.stored cfg events).rtake (max cfg.eventBufferSize 1) :=
    (List.take_append_drop _ _).symm
  have hgone : (ofJob jobId (pushedOut cfg events)).filter (fun e => decide (cutoff ≤ e.ts)) =
      [] := by
    refine List.filter_eq_nil_iff.mpr ?_
    intro e he
    obtain ⟨hout, hjob⟩ := List.mem_filter.mp he
    have hold := h e hout (of_decide_eq_true hjob)
    simpa using hold
  conv_rhs => rw [hsplit, ofJob, ofJob, List.filter_append, List.filter_append]
  rw [show (pushedOut cfg events).filter (fun e => decide (e.jobId = some jobId)) =
    ofJob jobId (pushedOut cfg events) from rfl, hgone, List.nil_append, latelyStored, ofJob]
  simp only [List.filter_filter]
  refine List.filter_congr ?_
  intro e _
  cases decide (e.jobId = some jobId) <;> simp

/-- **What the verdict on a slow job rests on.**  After every stream of events:
while no event of the job in the window has left the buffer, the reply is the one
an unbounded buffer of the job's events alone would give; when the buffer has no
event of the job, the job is bound by its communication, with score zero, whatever
it reported.  A job that has reported no bandwidth lately is bound by its
communication, whatever else it reported, and with score zero if it reported no
drops; only a job that has reported its storage operations too can be bound by
its processor; and the score is on its scale unless it is no number. -/
theorem trainingSlow_after (F : Type) [FloatArith F] (cfg : HubConfig) (events : List Event)
    (params : QueryParams) (nowMs : Nat) (jobId : String)
    (hjob : params.lookup "job_id" = some jobId) :
    ∃ reply, trainingSlow (HubState.after cfg events : HubState F).eventBuffer params nowMs =
        .ok reply ∧
      ((∀ e ∈ pushedOut cfg events, e.jobId = some jobId → e.ts < nowMs - reply.windowS * 1000) →
        trainingSlow (ofJob jobId (HubState.stored cfg events)) params nowMs = .ok reply) ∧
      ((∀ e ∈ latelyStored cfg events (nowMs - reply.windowS * 1000), e.jobId ≠ some jobId) →
        reply.eventCount = 0 ∧ reply.rca = "comm_bound" ∧ reply.score = FloatArith.ofNat 0) ∧
      (¬ ReportedNumber cfg events (nowMs - reply.windowS * 1000) jobId .transportBw →
        reply.rca = "comm_bound" ∧
        (¬ ReportedNumber cfg events (nowMs - reply.windowS * 1000) jobId .transportDrop →
          reply.score = FloatArith.ofNat 0)) ∧
      (reply.rca = "cpu_bound" →
        ReportedNumber cfg events (nowMs - reply.windowS * 1000) jobId .transportBw ∧
        ReportedNumber cfg events (nowMs - reply.windowS * 1000) jobId .storageIops) ∧
      InScale reply.score := by
  let windowS := params.clamped "window_s" 120 30 3600
  let jobEvents := ofJob jobId (latelyStored cfg events (nowMs - windowS * 1000))
  have hreported : ∀ eventType, reportedValues eventType jobEvents ≠ [] →
      ReportedNumber cfg events (nowMs - windowS * 1000) jobId eventType := by
    intro eventType h
    obtain ⟨e, he, htype, hvalue⟩ := exists_of_reportedValues h
    obtain ⟨hmem, hid⟩ := List.mem_filter.mp he
    exact ⟨e, hmem, of_decide_eq_true hid, htype, hvalue⟩
  have hsilent : ∀ eventType,
      ¬ ReportedNumber cfg events (nowMs - windowS * 1000) jobId eventType →
        reportedValues eventType jobEvents = [] :=
    fun eventType hnone => by_contra fun hsome => hnone (hreported eventType hsome)
  obtain ⟨hscale, hbw, hiops, hcomm⟩ := classifyTrainingSlow_spec jobEvents
  refine ⟨_, by simp only [trainingSlow, hjob, recentEvents_after]; rfl, ?_, ?_, ?_, ?_, hscale⟩
  · intro hkept
    simp only [trainingSlow, hjob]
    rw [recentEvents, ← ofJob_latelyStored hkept]
  · intro hother
    have hnone : jobEvents = [] :=
      List.filter_eq_nil_iff.mpr fun e he => by simpa using hother e he
    have hsilent : ∀ eventType, reportedValues eventType jobEvents = [] := by
      intro eventType
      rw [hnone]
      rfl
    obtain ⟨hrca, hscore⟩ := hcomm (hsilent .transportBw)
    exact ⟨congrArg List.length hnone, hrca, hscore (hsilent .transportDrop)⟩
  · intro hnone
    obtain ⟨hrca, hscore⟩ := hcomm (hsilent .transportBw hnone)
    exact ⟨hrca, fun hdrops => hscore (hsilent .transportDrop hdrops)⟩
  · intro hcpu
    have hcpu : (classifyTrainingSlow jobEvents).1 = "cpu_bound" := hcpu
    exact ⟨hreported _ (hbw (by simp [hcpu])), hreported _ (hiops hcpu)⟩

def iopsReport (ts : Nat) (jobId : String) : Event where
  ts := ts
  eventType := .storageIops
  entityId := "nvme0"
  jobId := some jobId
  pid := none
  value := "500"
  nodeId := some "node-a"

/-- A job that reports fast storage and no bandwidth is bound by its
communication, with score zero, and the events of another job do not change that
as long as the buffer has room. -/
theorem trainingSlow_after_storage :
    let events := [iopsReport 1000 "job-1", iopsReport 1001 "job-2", iopsReport 1002 "job-1"]
    ∃ reply, trainingSlow (HubState.after smallHub events : HubState Binary64).eventBuffer
        (AList.insert "job_id" "job-1" ∅) 2000 = .ok reply ∧
      trainingSlow [iopsReport 1000 "job-1", iopsReport 1002 "job-1"]
        (AList.insert "job_id" "job-1" ∅) 2000 = .ok reply ∧
      reply.rca = "comm_bound" ∧ reply.score = FloatArith.ofNat 0 := by
  intro events
  obtain ⟨reply, hreply, halone, -, hcomm, -⟩ := trainingSlow_after Binary64 smallHub events
    (AList.insert "job_id" "job-1" ∅) 2000 "job-1" (by decide)
  have hstored : HubState.stored smallHub events = events := by decide +kernel
  have hsilent : ∀ eventType, eventType ≠ .storageIops →
      ¬ ReportedNumber smallHub events (2000 - reply.windowS * 1000) "job-1" eventType := by
    rintro eventType hother ⟨e, hmem, -, htype, -⟩
    have hmem := List.mem_of_mem_drop (List.mem_filter.mp hmem).1
    rw [hstored] at hmem
    have htypes : ∀ e ∈ events, e.eventType = .storageIops := by decide
    exact hother (htype.symm.trans (htypes e hmem))
  obtain ⟨hrca, hscore⟩ := hcomm (hsilent .transportBw (by decide))
  refine ⟨reply, hreply, ?_, hrca, hscore (hsilent .transportDrop (by decide))⟩
  have hnone : pushedOut smallHub events = [] := by decide +kernel
  have halone := halone (by simp [hnone])
  rwa [hstored] at halone

end ArkInfra
