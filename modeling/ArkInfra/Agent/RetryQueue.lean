import ArkInfra.Core.Event
import ArkInfra.Lib.Outbox
import ArkInfra.Lib.Run
import Mathlib.Algebra.Group.Nat.Defs
import Mathlib.Tactic.SplitIfs

/-!
# Forwarding with retries

`agent/src/hub_forwarder.rs`, `forward_event_with_retry`: a call first flushes
the events that earlier calls could not send, reconnecting once if that fails,
then sends its own event, and if this fails too queues it, reconnects and
flushes again.  The queue is bounded; when it is full the oldest event is
dropped and counted.

Every send and every reconnect may succeed or fail, so the model is a state
machine that stops at these points: `Await` says which outcome the running call
waits for, and an input is a new call or an outcome.  Without a connection a
send fails at once and no outcome is awaited.

The forwarder is an outbox (`steps_step`).  From this follow the conservation of
the events (`conserved_run`), and the order in which they are sent
(`sent_increasing`).  The order is not guaranteed: after both flushes of a call
have failed, the direct send is still tried, and if it succeeds the new event
overtakes the queued ones.
-/

namespace ArkInfra

def pendingEventCapacity : Nat := 1024

/-- Add one to a 64-bit counter, up to its maximum. -/
def saturatingSucc (n : Nat) : Nat :=
  min (n + 1) (2 ^ 64 - 1)

/-- The flushes of a call, with the event it has yet to send: before the send,
again after a reconnect, and after the event has been queued. -/
inductive Flush where
  | first (event : Item Event)
  | second (event : Item Event)
  | last
deriving DecidableEq, Repr

def Flush.own : Flush → List (Item Event)
  | first event => [event]
  | second event => [event]
  | last => []

/-- What the forwarder waits for: the next call, after the result of the last
one, or the outcome of a send or of a reconnect. -/
inductive Await where
  | ready (result : Bool)
  | sendPending (flush : Flush) (event : Item Event)
  | reconnectFirst (event : Item Event)
  | sendDirect (event : Item Event)
  | reconnectLast
deriving DecidableEq, Repr

/-- The forwarder, with the events that were submitted, those whose send
succeeded and those that were evicted from the queue. -/
structure HubForwarder where
  connected : Bool
  pendingEvents : List (Item Event)
  retriesTotal : Nat
  droppedEventsTotal : Nat
  flushFailuresTotal : Nat
  await : Await
  submitted : List (Item Event)
  sent : List (Item Event)
  evicted : List (Item Event)

namespace HubForwarder

/-- A new forwarder, before or after its first `connect`. -/
def new (connected : Bool) : HubForwarder where
  connected := connected
  pendingEvents := []
  retriesTotal := 0
  droppedEventsTotal := 0
  flushFailuresTotal := 0
  await := .ready true
  submitted := []
  sent := []
  evicted := []

/-- Queue an event, dropping the oldest one if the queue is full. -/
def enqueuePendingEvent (s : HubForwarder) (event : Item Event) : HubForwarder :=
  let s :=
    if pendingEventCapacity ≤ s.pendingEvents.length then
      { s with
        pendingEvents := s.pendingEvents.tail
        evicted := s.evicted ++ s.pendingEvents.head?.toList
        droppedEventsTotal := saturatingSucc s.droppedEventsTotal }
    else
      s
  { s with pendingEvents := s.pendingEvents ++ [event] }

/-- The send of the own event has failed: queue it and reconnect. -/
def retryLater (s : HubForwarder) (event : Item Event) : HubForwarder :=
  let s := s.enqueuePendingEvent event
  { s with retriesTotal := saturatingSucc s.retriesTotal, await := .reconnectLast }

/-- Send the own event. -/
def forwardEvent (s : HubForwarder) (event : Item Event) : HubForwarder :=
  if s.connected then { s with await := .sendDirect event } else s.retryLater event

def flushed (s : HubForwarder) (flush : Flush) (ok : Bool) : HubForwarder :=
  match flush, ok with
  | .first event, true => s.forwardEvent event
  | .first event, false =>
    { s with
      flushFailuresTotal := saturatingSucc s.flushFailuresTotal
      retriesTotal := saturatingSucc s.retriesTotal
      await := .reconnectFirst event }
  | .second event, true => s.forwardEvent event
  | .second event, false =>
    { s with flushFailuresTotal := saturatingSucc s.flushFailuresTotal }.forwardEvent event
  | .last, true => { s with await := .ready true }
  | .last, false =>
    { s with
      flushFailuresTotal := saturatingSucc s.flushFailuresTotal
      await := .ready false }

/-- Go on with a flush: take the next event off the queue and send it.  Without
a connection the send fails at once and the event goes back to the front. -/
def flushPendingEvents (s : HubForwarder) (flush : Flush) : HubForwarder :=
  match s.pendingEvents with
  | [] => s.flushed flush true
  | event :: rest =>
    if s.connected then
      { s with pendingEvents := rest, await := .sendPending flush event }
    else
      s.flushed flush false

/-- Begin a call. -/
def forwardEventWithRetry (s : HubForwarder) (event : Event) : HubForwarder :=
  let item : Item Event := ⟨s.submitted.length, event⟩
  let s := { s with submitted := s.submitted ++ [item] }
  if s.pendingEvents = [] then s.forwardEvent item else s.flushPendingEvents (.first item)

/-- The awaited send or reconnect has ended. -/
def resume (s : HubForwarder) (ok : Bool) : HubForwarder :=
  match s.await with
  | .ready _ => s
  | .sendPending flush event =>
    if ok then
      { s with sent := s.sent ++ [event] }.flushPendingEvents flush
    else
      { s with pendingEvents := event :: s.pendingEvents }.flushed flush false
  | .reconnectFirst event =>
    let s := { s with connected := ok }
    if ok then s.flushPendingEvents (.second event) else s.forwardEvent event
  | .sendDirect event =>
    if ok then { s with sent := s.sent ++ [event], await := .ready true }
    else s.retryLater event
  | .reconnectLast =>
    let s := { s with connected := ok }
    if ok then s.flushPendingEvents .last else { s with await := .ready false }

/-- A call, or the outcome of a send or a reconnect. -/
inductive Input where
  | submit (event : Event)
  | outcome (ok : Bool)
deriving DecidableEq, Repr

/-- One step.  A call begins only after the previous one has returned. -/
def step (s : HubForwarder) : Input → HubForwarder
  | .submit event =>
    match s.await with
    | .ready _ => s.forwardEventWithRetry event
    | _ => s
  | .outcome ok => s.resume ok

/-- The ways a step can go: nothing is awaited that the input answers, a call
begins, or the awaited send or reconnect succeeds or fails. -/
inductive StepOf (s : HubForwarder) : Input → HubForwarder → Prop
  | stay (input : Input) : StepOf s input s
  | call {result : Bool} (hawait : s.await = .ready result) (event : Event) :
      StepOf s (.submit event) (s.forwardEventWithRetry event)
  | pendingSent {flush : Flush} {event : Item Event} (hawait : s.await = .sendPending flush event) :
      StepOf s (.outcome true) ({ s with sent := s.sent ++ [event] }.flushPendingEvents flush)
  | pendingFailed {flush : Flush} {event : Item Event}
      (hawait : s.await = .sendPending flush event) :
      StepOf s (.outcome false)
        ({ s with pendingEvents := event :: s.pendingEvents }.flushed flush false)
  | firstReconnected {event : Item Event} (hawait : s.await = .reconnectFirst event) :
      StepOf s (.outcome true) ({ s with connected := true }.flushPendingEvents (.second event))
  | firstUnreachable {event : Item Event} (hawait : s.await = .reconnectFirst event) :
      StepOf s (.outcome false) ({ s with connected := false }.forwardEvent event)
  | directSent {event : Item Event} (hawait : s.await = .sendDirect event) :
      StepOf s (.outcome true) { s with sent := s.sent ++ [event], await := .ready true }
  | directFailed {event : Item Event} (hawait : s.await = .sendDirect event) :
      StepOf s (.outcome false) (s.retryLater event)
  | lastReconnected (hawait : s.await = .reconnectLast) :
      StepOf s (.outcome true) ({ s with connected := true }.flushPendingEvents .last)
  | lastUnreachable (hawait : s.await = .reconnectLast) :
      StepOf s (.outcome false) { s with connected := false, await := .ready false }

/-- **What a step can do.** -/
theorem stepOf_step (s : HubForwarder) (input : Input) : StepOf s input (s.step input) := by
  cases input with
  | submit event =>
    cases hawait : s.await with
    | ready result =>
      have hstep : s.step (.submit event) = s.forwardEventWithRetry event := by
        simp [step, hawait]
      rw [hstep]
      exact .call hawait event
    | _ =>
      have hstep : s.step (.submit event) = s := by
        simp [step, hawait]
      rw [hstep]
      exact .stay _
  | outcome ok =>
    cases hawait : s.await with
    | ready result =>
      have hstep : s.step (.outcome ok) = s := by
        simp [step, resume, hawait]
      rw [hstep]
      exact .stay _
    | sendPending flush event =>
      cases ok with
      | true =>
        simpa [step, resume, hawait] using StepOf.pendingSent hawait
      | false =>
        simpa [step, resume, hawait] using StepOf.pendingFailed hawait
    | reconnectFirst event =>
      cases ok with
      | true =>
        simpa [step, resume, hawait] using StepOf.firstReconnected hawait
      | false =>
        simpa [step, resume, hawait] using StepOf.firstUnreachable hawait
    | sendDirect event =>
      cases ok with
      | true =>
        simpa [step, resume, hawait] using StepOf.directSent hawait
      | false =>
        simpa [step, resume, hawait] using StepOf.directFailed hawait
    | reconnectLast =>
      cases ok with
      | true =>
        simpa [step, resume, hawait] using StepOf.lastReconnected hawait
      | false =>
        simpa [step, resume, hawait] using StepOf.lastUnreachable hawait

/-- The events on their way, in the order in which they would be sent: the one
that is taken off the queue, the queue, and the own event of the call. -/
def queue (s : HubForwarder) : List (Item Event) :=
  match s.await with
  | .ready _ => s.pendingEvents
  | .sendPending flush event => event :: (s.pendingEvents ++ flush.own)
  | .reconnectFirst event => s.pendingEvents ++ [event]
  | .sendDirect event => s.pendingEvents ++ [event]
  | .reconnectLast => s.pendingEvents

/-- The events the running call holds outside the queue. -/
def inHand (s : HubForwarder) : List (Item Event) :=
  match s.await with
  | .ready _ => []
  | .sendPending flush event => event :: flush.own
  | .reconnectFirst event => [event]
  | .sendDirect event => [event]
  | .reconnectLast => []

/-- The outbox of a forwarder whose waiting events are given. -/
def box (s : HubForwarder) (queue : List (Item Event)) : Outbox Event where
  submitted := s.submitted
  queue := queue
  sent := s.sent
  evicted := s.evicted

def outbox (s : HubForwarder) : Outbox Event :=
  s.box s.queue

/-- **What queueing does**: with room the event is appended, else the oldest
event makes room for it and is counted. -/
theorem enqueuePendingEvent_cases (s : HubForwarder) (event : Item Event) :
    (s.pendingEvents.length < pendingEventCapacity ∧
      s.enqueuePendingEvent event = { s with pendingEvents := s.pendingEvents ++ [event] }) ∨
    ∃ oldest rest, s.pendingEvents = oldest :: rest ∧
      s.enqueuePendingEvent event = { s with
        pendingEvents := rest ++ [event]
        evicted := s.evicted ++ [oldest]
        droppedEventsTotal := saturatingSucc s.droppedEventsTotal } := by
  unfold enqueuePendingEvent
  by_cases hfull : pendingEventCapacity ≤ s.pendingEvents.length
  · right
    cases hpending : s.pendingEvents with
    | nil =>
      simp [hpending, pendingEventCapacity] at hfull
    | cons oldest rest =>
      rw [hpending] at hfull
      refine ⟨oldest, rest, rfl, ?_⟩
      dsimp only
      rw [if_pos hfull]
      rfl
  · left
    refine ⟨Nat.lt_of_not_le hfull, ?_⟩
    dsimp only
    rw [if_neg hfull]

section Refinement

variable (late : Prop)

theorem steps_retryLater (s : HubForwarder) (event : Item Event) :
    Outbox.Steps late (s.box (s.pendingEvents ++ [event])) (s.retryLater event).outbox := by
  unfold retryLater
  rcases s.enqueuePendingEvent_cases event with ⟨_, hqueued⟩ | ⟨oldest, rest, hpending, hqueued⟩
  · rw [hqueued]
    exact .refl
  · rw [hqueued, hpending]
    exact .single (.evict rfl)

theorem steps_forwardEvent (s : HubForwarder) (event : Item Event) :
    Outbox.Steps late (s.box (s.pendingEvents ++ [event])) (s.forwardEvent event).outbox := by
  unfold forwardEvent
  split_ifs
  · exact .refl
  · exact steps_retryLater late s event

theorem steps_flushed (s : HubForwarder) (flush : Flush) (ok : Bool) :
    Outbox.Steps late (s.box (s.pendingEvents ++ flush.own)) (s.flushed flush ok).outbox := by
  cases flush with
  | first event =>
    cases ok with
    | true =>
      exact steps_forwardEvent late s event
    | false =>
      exact .refl
  | second event =>
    cases ok with
    | true =>
      exact steps_forwardEvent late s event
    | false =>
      exact steps_forwardEvent late
        { s with flushFailuresTotal := saturatingSucc s.flushFailuresTotal } event
  | last =>
    rw [Flush.own, List.append_nil]
    cases ok <;> exact .refl

theorem steps_flushPendingEvents (s : HubForwarder) (flush : Flush) :
    Outbox.Steps late (s.box (s.pendingEvents ++ flush.own))
      (s.flushPendingEvents flush).outbox := by
  unfold flushPendingEvents
  cases hpending : s.pendingEvents with
  | nil =>
    have hsteps := steps_flushed late s flush true
    rwa [hpending] at hsteps
  | cons event rest =>
    simp only
    split_ifs
    · exact .refl
    · have hsteps := steps_flushed late s flush false
      rwa [hpending] at hsteps

theorem steps_forwardEventWithRetry (s : HubForwarder) (event : Event) :
    Outbox.Steps late (s.box s.pendingEvents) (s.forwardEventWithRetry event).outbox := by
  let item : Item Event := ⟨s.submitted.length, event⟩
  let s' : HubForwarder := { s with submitted := s.submitted ++ [item] }
  refine .head (.submit event) ?_
  unfold forwardEventWithRetry
  dsimp only
  split_ifs
  · exact steps_forwardEvent late s' item
  · exact steps_flushPendingEvents late s' (.first item)

end Refinement

/-- The outcome does not let a direct send succeed while events are queued. -/
def KeepsTurn (s : HubForwarder) (input : Input) : Prop :=
  input = .outcome true → ∀ event, s.await = .sendDirect event → s.pendingEvents = []

instance (s : HubForwarder) (input : Input) : Decidable (s.KeepsTurn input) :=
  match hawait : s.await with
  | .sendDirect event =>
    decidable_of_iff (input = .outcome true → s.pendingEvents = []) (by simp [KeepsTurn, hawait])
  | .ready _ => isTrue (by simp [KeepsTurn, hawait])
  | .sendPending _ _ => isTrue (by simp [KeepsTurn, hawait])
  | .reconnectFirst _ => isTrue (by simp [KeepsTurn, hawait])
  | .reconnectLast => isTrue (by simp [KeepsTurn, hawait])

theorem StepOf.steps {s s' : HubForwarder} {input : Input} (h : StepOf s input s') :
    Outbox.Steps (¬ s.KeepsTurn input) s.outbox s'.outbox := by
  cases h with
  | stay =>
    exact .refl
  | call hawait event =>
    have hbox : s.outbox = s.box s.pendingEvents := by
      simp [outbox, queue, hawait]
    rw [hbox]
    exact steps_forwardEventWithRetry _ s event
  | @pendingSent flush event hawait =>
    have hqueue : s.outbox.queue = event :: (s.pendingEvents ++ flush.own) := by
      simp [outbox, box, queue, hawait]
    refine .head (.deliver hqueue) ?_
    exact steps_flushPendingEvents _ { s with sent := s.sent ++ [event] } flush
  | @pendingFailed flush event hawait =>
    have hbox : s.outbox = s.box (event :: s.pendingEvents ++ flush.own) := by
      simp [outbox, queue, hawait]
    rw [hbox]
    exact steps_flushed _ { s with pendingEvents := event :: s.pendingEvents } flush false
  | @firstReconnected event hawait =>
    have hbox : s.outbox = s.box (s.pendingEvents ++ [event]) := by
      simp [outbox, queue, hawait]
    rw [hbox]
    exact steps_flushPendingEvents _ { s with connected := true } (.second event)
  | @firstUnreachable event hawait =>
    have hbox : s.outbox = s.box (s.pendingEvents ++ [event]) := by
      simp [outbox, queue, hawait]
    rw [hbox]
    exact steps_forwardEvent _ { s with connected := false } event
  | @directSent event hawait =>
    have hqueue : s.outbox.queue = s.pendingEvents ++ [event] := by
      simp [outbox, box, queue, hawait]
    by_cases hempty : s.pendingEvents = []
    · -- with an empty queue the own event is next
      have hsent : ({ s with sent := s.sent ++ [event], await := .ready true } :
          HubForwarder).outbox = { s.outbox with queue := [], sent := s.outbox.sent ++ [event] } := by
        simp [outbox, box, queue, hempty]
      rw [hempty] at hqueue
      rw [hsent]
      exact .single (.deliver hqueue)
    · have hlate : ¬ s.KeepsTurn (.outcome true) := by
        intro hturn
        exact hempty (hturn rfl event hawait)
      exact .single (.overtake hlate hqueue)
  | @directFailed event hawait =>
    have hbox : s.outbox = s.box (s.pendingEvents ++ [event]) := by
      simp [outbox, queue, hawait]
    rw [hbox]
    exact steps_retryLater _ s event
  | lastReconnected hawait =>
    have hbox : s.outbox = s.box (s.pendingEvents ++ Flush.last.own) := by
      simp [outbox, queue, hawait, Flush.own]
    rw [hbox]
    exact steps_flushPendingEvents _ { s with connected := true } .last
  | lastUnreachable hawait =>
    have hbox : s.outbox = s.box s.pendingEvents := by
      simp [outbox, queue, hawait]
    rw [hbox]
    exact .refl

/-- **The forwarder is an outbox**, and it overtakes only if a direct send
succeeds out of turn. -/
theorem steps_step (s : HubForwarder) (input : Input) :
    Outbox.Steps (¬ s.KeepsTurn input) s.outbox (s.step input).outbox :=
  (stepOf_step s input).steps

section Accounts

/-- The events that are in the queue or can be pushed back to its front. -/
def held (s : HubForwarder) : List (Item Event) :=
  match s.await with
  | .sendPending _ event => event :: s.pendingEvents
  | _ => s.pendingEvents

/-- Every eviction is counted, and the given events fit into the queue. -/
structure Accounts (s : HubForwarder) (held : List (Item Event)) : Prop where
  dropped : s.droppedEventsTotal = min s.evicted.length (2 ^ 64 - 1)
  bounded : held.length ≤ pendingEventCapacity

theorem accounts_new (connected : Bool) : (new connected).Accounts (new connected).held where
  dropped := by simp [new]
  bounded := by simp [new, held]

theorem accounts_retryLater {s : HubForwarder} (h : s.Accounts s.pendingEvents)
    (event : Item Event) : (s.retryLater event).Accounts (s.retryLater event).held := by
  have hdropped := h.dropped
  have hbounded := h.bounded
  unfold retryLater
  rcases s.enqueuePendingEvent_cases event with ⟨hroom, hqueued⟩ | ⟨oldest, rest, hpending, hqueued⟩
  · rw [hqueued]
    refine ⟨hdropped, ?_⟩
    simp only [held, List.length_append, List.length_singleton]
    omega
  · rw [hqueued]
    rw [hpending] at hbounded
    refine ⟨?_, by simpa [held] using hbounded⟩
    simp only [saturatingSucc, List.length_append, List.length_singleton]
    omega

theorem accounts_forwardEvent {s : HubForwarder} (h : s.Accounts s.pendingEvents)
    (event : Item Event) : (s.forwardEvent event).Accounts (s.forwardEvent event).held := by
  unfold forwardEvent
  split_ifs
  · exact ⟨h.dropped, h.bounded⟩
  · exact accounts_retryLater h event

theorem accounts_flushed {s : HubForwarder} (h : s.Accounts s.pendingEvents) (flush : Flush)
    (ok : Bool) : (s.flushed flush ok).Accounts (s.flushed flush ok).held := by
  cases flush with
  | first event =>
    cases ok with
    | true =>
      exact accounts_forwardEvent h event
    | false =>
      exact ⟨h.dropped, h.bounded⟩
  | second event =>
    cases ok with
    | true =>
      exact accounts_forwardEvent h event
    | false =>
      refine accounts_forwardEvent ?_ event
      exact ⟨h.dropped, h.bounded⟩
  | last =>
    cases ok <;> exact ⟨h.dropped, h.bounded⟩

theorem accounts_flushPendingEvents {s : HubForwarder} (h : s.Accounts s.pendingEvents)
    (flush : Flush) :
    (s.flushPendingEvents flush).Accounts (s.flushPendingEvents flush).held := by
  have hbounded := h.bounded
  unfold flushPendingEvents
  cases hpending : s.pendingEvents with
  | nil =>
    exact accounts_flushed h flush true
  | cons event rest =>
    simp only
    split_ifs
    · rw [hpending] at hbounded
      exact ⟨h.dropped, hbounded⟩
    · exact accounts_flushed h flush false

theorem StepOf.accounts {s s' : HubForwarder} {input : Input} (h : StepOf s input s')
    (hs : s.Accounts s.held) : s'.Accounts s'.held := by
  -- outside a flush of the queue, what is held is the queue
  have hpending : (∀ flush event, s.await ≠ .sendPending flush event) →
      s.Accounts s.pendingEvents := by
    intro hnone
    have hheld : s.held = s.pendingEvents := by
      unfold held
      split
      next flush event hawait =>
        exact absurd hawait (hnone flush event)
      next =>
        rfl
    rwa [hheld] at hs
  cases h with
  | stay =>
    exact hs
  | call hawait event =>
    have hcall := hpending (by simp [hawait])
    unfold forwardEventWithRetry
    dsimp only
    split_ifs
    · refine accounts_forwardEvent ?_ _
      exact ⟨hcall.dropped, hcall.bounded⟩
    · refine accounts_flushPendingEvents ?_ _
      exact ⟨hcall.dropped, hcall.bounded⟩
  | @pendingSent flush event hawait =>
    have hbounded : s.pendingEvents.length + 1 ≤ pendingEventCapacity := by
      simpa [held, hawait] using hs.bounded
    refine accounts_flushPendingEvents ?_ flush
    exact ⟨hs.dropped, Nat.le_of_succ_le hbounded⟩
  | @pendingFailed flush event hawait =>
    have hbounded : (event :: s.pendingEvents).length ≤ pendingEventCapacity := by
      simpa [held, hawait] using hs.bounded
    refine accounts_flushed ?_ flush false
    exact ⟨hs.dropped, hbounded⟩
  | @firstReconnected event hawait =>
    have hwait := hpending (by simp [hawait])
    refine accounts_flushPendingEvents ?_ (.second event)
    exact ⟨hwait.dropped, hwait.bounded⟩
  | @firstUnreachable event hawait =>
    have hwait := hpending (by simp [hawait])
    refine accounts_forwardEvent ?_ event
    exact ⟨hwait.dropped, hwait.bounded⟩
  | @directSent event hawait =>
    have hwait := hpending (by simp [hawait])
    exact ⟨hwait.dropped, hwait.bounded⟩
  | @directFailed event hawait =>
    exact accounts_retryLater (hpending (by simp [hawait])) event
  | lastReconnected hawait =>
    have hwait := hpending (by simp [hawait])
    refine accounts_flushPendingEvents ?_ .last
    exact ⟨hwait.dropped, hwait.bounded⟩
  | lastUnreachable hawait =>
    have hwait := hpending (by simp [hawait])
    exact ⟨hwait.dropped, hwait.bounded⟩

end Accounts

section Runs

theorem queue_perm (s : HubForwarder) : s.queue.Perm (s.pendingEvents ++ s.inHand) := by
  unfold queue inHand
  cases s.await with
  | ready result =>
    simp
  | sendPending flush event =>
    exact List.perm_middle.symm
  | reconnectFirst event =>
    exact List.Perm.refl _
  | sendDirect event =>
    exact List.Perm.refl _
  | reconnectLast =>
    simp

theorem pendingEvents_sublist_queue (s : HubForwarder) : s.pendingEvents.Sublist s.queue := by
  unfold queue
  cases s.await with
  | ready result =>
    exact List.Sublist.refl _
  | sendPending flush event =>
    exact (List.sublist_append_left _ _).cons event
  | reconnectFirst event =>
    exact List.sublist_append_left _ _
  | sendDirect event =>
    exact List.sublist_append_left _ _
  | reconnectLast =>
    exact List.Sublist.refl _

/-- No event is lost or duplicated: the submitted events are those that were
sent, those in the queue, those that were evicted and those the running call
holds, all different; between two calls none is held.  The evictions are
counted, and the queue is bounded and in the order of submission. -/
structure Conserved (s : HubForwarder) : Prop where
  union : (s.sent ++ s.pendingEvents ++ s.evicted ++ s.inHand).Perm s.submitted
  once : (s.sent ++ s.pendingEvents ++ s.evicted ++ s.inHand).Nodup
  settled : ∀ result, s.await = .ready result → s.inHand = []
  dropped : s.droppedEventsTotal = min s.evicted.length (2 ^ 64 - 1)
  bounded : s.pendingEvents.length ≤ pendingEventCapacity
  ordered : Outbox.Increasing s.pendingEvents

theorem conserved_of_outbox {s : HubForwarder} (hvalid : s.outbox.Valid)
    (haccounts : s.Accounts s.held) : s.Conserved := by
  have hunion : (s.sent ++ s.pendingEvents ++ s.evicted ++ s.inHand).Perm
      (s.sent ++ s.evicted ++ s.queue) := by
    have hswap := (List.perm_append_comm_assoc s.pendingEvents s.evicted s.inHand).append_left s.sent
    have hqueue := s.queue_perm.symm.append_left (s.sent ++ s.evicted)
    simp only [List.append_assoc] at hqueue ⊢
    exact hswap.trans hqueue
  refine ⟨hunion.trans hvalid.conserved, hunion.nodup_iff.mpr hvalid.nodup, ?_,
    haccounts.dropped, ?_, hvalid.ordered.sublist s.pendingEvents_sublist_queue⟩
  · intro result hawait
    simp [inHand, hawait]
  · refine Nat.le_trans ?_ haccounts.bounded
    unfold held
    split <;> simp

/-- **No event is lost or duplicated.**  For every sequence of calls and every
pattern of outcomes of the sends and reconnects, in every state reached. -/
theorem conserved_run (connected : Bool) (inputs : List Input) :
    (Run.run step (new connected) inputs).Conserved := by
  have hinv : ∀ s : HubForwarder, ∀ input, s.outbox.Valid ∧ s.Accounts s.held →
      (s.step input).outbox.Valid ∧ (s.step input).Accounts (s.step input).held := by
    rintro s input ⟨hvalid, haccounts⟩
    exact ⟨hvalid.steps (steps_step s input), (stepOf_step s input).accounts haccounts⟩
  have hstart : (new connected).outbox.Valid ∧ (new connected).Accounts (new connected).held :=
    ⟨Outbox.valid_new, accounts_new connected⟩
  obtain ⟨hvalid, haccounts⟩ := Run.invariant hinv hstart inputs
  exact conserved_of_outbox hvalid haccounts

/-- **Events are sent in the order of submission**, in every run in which no
direct send succeeds while other events are queued. -/
theorem sent_increasing (connected : Bool) (inputs : List Input)
    (h : Run.Meets step KeepsTurn (new connected) inputs) :
    ∀ seen rest, inputs = seen ++ rest →
      Outbox.Increasing (Run.run step (new connected) seen).sent := by
  intro seen rest hsplit
  subst hsplit
  have hseen := (Run.meets_append.mp h).1
  have hinv : ∀ s : HubForwarder, ∀ input, s.outbox.Valid ∧ s.outbox.InOrder →
      s.KeepsTurn input → (s.step input).outbox.Valid ∧ (s.step input).outbox.InOrder := by
    rintro s input ⟨hvalid, horder⟩ hturn
    have hsteps := steps_step s input
    rw [eq_false (not_not_intro hturn)] at hsteps
    exact ⟨hvalid.steps hsteps, horder.steps hvalid hsteps⟩
  have hstart : (new connected).outbox.Valid ∧ (new connected).outbox.InOrder :=
    ⟨Outbox.valid_new, List.Pairwise.nil⟩
  exact (Run.invariant_of_meets hinv hstart hseen).2.sent

/-- An event cannot be sent, is queued, and goes out before the next one. -/
theorem sent_increasing_afterRetry :
    let a : Event := ⟨1000, .errorNet, "eth0", none, none, "drop", none⟩
    let b : Event := ⟨2000, .errorNet, "eth0", none, none, "drop", none⟩
    let inputs : List Input :=
      [.submit a, .outcome false, .outcome false, .submit b, .outcome true, .outcome true,
        .outcome true]
    let s := Run.run step (new true) inputs
    s.sent = [⟨0, a⟩, ⟨1, b⟩] ∧ Outbox.Increasing s.sent := by
  refine ⟨by decide, ?_⟩
  exact sent_increasing true _ (by decide) _ [] (List.append_nil _).symm

/-- The flush of `a` fails twice in the call for `b`, whose own send then
succeeds; `a` is sent with the next call, after `b`. -/
theorem sent_increasing_overtaken :
    let a : Event := ⟨1000, .errorNet, "eth0", none, none, "drop", none⟩
    let b : Event := ⟨2000, .errorNet, "eth0", none, none, "drop", none⟩
    let c : Event := ⟨3000, .errorNet, "eth0", none, none, "drop", none⟩
    let inputs : List Input :=
      [.submit a, .outcome false, .outcome true, .outcome false,
        .submit b, .outcome false, .outcome true, .outcome false, .outcome true,
        .submit c, .outcome true, .outcome true]
    let s := Run.run step (new true) inputs
    s.sent = [⟨1, b⟩, ⟨0, a⟩, ⟨2, c⟩] ∧ ¬ Outbox.Increasing s.sent := by
  decide

end Runs

end HubForwarder

end ArkInfra
