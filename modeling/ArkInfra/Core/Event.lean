import Mathlib.Data.List.Basic

/-!
# Events

The event carrier of `core/src/event.rs`: the twelve atomic event types and
the record every probe emits.  Timestamps are milliseconds (`u64`) and process
ids are `u32`; both are natural numbers here, since the program only compares
them, prints them and subtracts with saturation at zero.
-/

namespace ArkInfra

/-- The atomic event types. -/
inductive EventType where
  | computeUtil
  | computeMem
  | transportBw
  | transportDrop
  | storageIops
  | storageQDepth
  | processState
  | errorHw
  | errorNet
  | topoLinkDown
  | intentRun
  | actionExec
deriving DecidableEq, Repr

/-- The dotted name of an event type, as it is displayed and serialized. -/
def EventType.toText : EventType → String
  | .computeUtil => "compute.util"
  | .computeMem => "compute.mem"
  | .transportBw => "transport.bw"
  | .transportDrop => "transport.drop"
  | .storageIops => "storage.iops"
  | .storageQDepth => "storage.qdepth"
  | .processState => "process.state"
  | .errorHw => "error.hw"
  | .errorNet => "error.net"
  | .topoLinkDown => "topo.link_down"
  | .intentRun => "intent.run"
  | .actionExec => "action.exec"

theorem EventType.toText_injective : Function.Injective EventType.toText := by
  intro a b h
  cases a <;> cases b <;> first | rfl | exact absurd h (by decide)

/-- One event of the unified stream. -/
structure Event where
  ts : Nat
  eventType : EventType
  entityId : String
  jobId : Option String
  pid : Option Nat
  value : String
  nodeId : Option String
deriving DecidableEq, Repr

/-- The event types that report a fault of an entity. -/
def EventType.isError : EventType → Bool
  | .errorHw | .errorNet | .topoLinkDown => true
  | _ => false

/-- The timestamps of a stream never decrease. -/
def Ordered (events : List Event) : Prop :=
  events.Pairwise (fun a b => a.ts ≤ b.ts)

instance (events : List Event) : Decidable (Ordered events) :=
  inferInstanceAs (Decidable (events.Pairwise (fun a b => a.ts ≤ b.ts)))

def lastTs (events : List Event) : Nat :=
  (events.getLast?.map (fun e => e.ts)).getD 0

theorem lastTs_concat (events : List Event) (event : Event) :
    lastTs (events ++ [event]) = event.ts := by
  simp [lastTs]

theorem lastTs_le {events : List Event} {event : Event}
    (h : Ordered (events ++ [event])) : lastTs events ≤ event.ts := by
  unfold lastTs
  cases hlast : events.getLast? with
  | none =>
    simp
  | some e =>
    have hmem : e ∈ events := List.mem_of_getLast? hlast
    exact (List.pairwise_append.mp h).2.2 e hmem event (by simp)

theorem ts_le_lastTs {events : List Event} (h : Ordered events) {event : Event}
    (hmem : event ∈ events) : event.ts ≤ lastTs events := by
  rcases List.eq_nil_or_concat' events with rfl | ⟨seen, last, rfl⟩
  · cases hmem
  · rw [lastTs_concat]
    rcases List.mem_append.mp hmem with hseen | hlast
    · exact (List.pairwise_append.mp h).2.2 event hseen last (List.mem_singleton_self _)
    · obtain rfl := List.mem_singleton.mp hlast
      exact Nat.le_refl _

end ArkInfra
