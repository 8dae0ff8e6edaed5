import ArkInfra.Core.GraphStep
import ArkInfra.Hub.Dedup

/-!
# The event pipeline of the hub

What `handle_connection` does with a received event before it logs it, and what
`replay_wal_file` does with a parsed record: the deduplication, the graph and
the bounded buffer of recent events, in this order.  The hub keeps these three
in one state; the capacity of the buffer, the window and the hasher are fixed
when it starts.
-/

namespace ArkInfra

open Dedup

structure HubConfig where
  hasher : HashedFields → UInt64
  dedupWindowMs : Nat
  eventBufferSize : Nat

structure HubState (F : Type) where
  graph : StateGraph F
  eventBuffer : List Event
  dedupStore : DedupStore

inductive IngestOutcome where
  | stored
  | dedupDropped
  | processFailed
  deriving DecidableEq

namespace HubState

variable {F : Type}

def fresh : HubState F where
  graph := .new
  eventBuffer := []
  dedupStore := ∅

/-- Append to the buffer of recent events; at capacity the oldest one goes. -/
def pushEvent (size : Nat) (buffer : List Event) (event : Event) : List Event :=
  (if buffer.length ≥ size then buffer.drop 1 else buffer) ++ [event]

variable [FloatArith F]

def ingest (cfg : HubConfig) (hub : HubState F) (event : Event) :
    HubState F × IngestOutcome :=
  let (store, accepted) :=
    acceptEventWithDedup cfg.hasher event hub.dedupStore cfg.dedupWindowMs
  let hub := { hub with dedupStore := store }
  if accepted then
    match hub.graph.processEvent event with
    | .ok graph =>
      ({ hub with
          graph := graph
          eventBuffer := pushEvent cfg.eventBufferSize hub.eventBuffer event }, .stored)
    | .error _ => (hub, .processFailed)
  else
    (hub, .dedupDropped)

/-- The graph and the buffer take in an event. -/
def record (cfg : HubConfig) (hub : HubState F) (event : Event) (store : DedupStore) :
    HubState F where
  graph := hub.graph.applyEvent event
  eventBuffer := pushEvent cfg.eventBufferSize hub.eventBuffer event
  dedupStore := store

theorem ingest_of_accepted {cfg : HubConfig} {hub : HubState F} {event : Event}
    (h : (acceptEventWithDedup cfg.hasher event hub.dedupStore cfg.dedupWindowMs).2 = true) :
    hub.ingest cfg event =
      (hub.record cfg event
        (acceptEventWithDedup cfg.hasher event hub.dedupStore cfg.dedupWindowMs).1,
        .stored) := by
  simp only [ingest, h, if_true]
  rfl

theorem ingest_of_rejected {cfg : HubConfig} {hub : HubState F} {event : Event}
    (h : (acceptEventWithDedup cfg.hasher event hub.dedupStore cfg.dedupWindowMs).2 = false) :
    hub.ingest cfg event =
      ({ hub with
          dedupStore :=
            (acceptEventWithDedup cfg.hasher event hub.dedupStore cfg.dedupWindowMs).1 },
        .dedupDropped) := by
  simp only [ingest, h]
  rfl

end HubState

end ArkInfra
