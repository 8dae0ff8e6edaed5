import ArkInfra.Core.ProcessLife

/-!
# The forwarder of the agent

`agent/src/hub_forwarder.rs` decides which events of a node go to the hub.
Errors, process states, drops and topology changes always do.  Utilization,
storage and bandwidth events go when they establish a new binding between a
process and a resource, and utilization also when it jumps between idle and
busy.  The forwarder remembers the bindings it has forwarded and never forgets
one.

A `Deployment` is an agent with its forwarder and the hub it reports to, joined
by a channel that keeps the order and loses nothing: every event is processed
by the graph of the agent, and a forwarded one, stamped with the node id, by
the graph of the hub.
-/

namespace ArkInfra

structure Forwarder (F : Type) where
  nodeId : String
  forwardedBindings : Finset (Nat × String)
  lastUtilValues : HashMap (Nat × String) F

namespace Forwarder

variable {F : Type}

def new (nodeId : String) : Forwarder F where
  nodeId := nodeId
  forwardedBindings := ∅
  lastUtilValues := ∅

/-- The binding an event with a pid speaks about. -/
def bindingKey (event : Event) (pid : Nat) : Nat × String :=
  (pid, event.entityId)

/-- The event with the id of the node, as it is sent. -/
def stamp (nodeId : String) (event : Event) : Event :=
  { event with nodeId := some nodeId }

/-- Storage and bandwidth events: forwarded once per binding. -/
def forwardNewBinding (f : Forwarder F) (event : Event) : Forwarder F × Bool :=
  match event.pid with
  | some pid =>
    if bindingKey event pid ∈ f.forwardedBindings then (f, false)
    else
      ({ f with forwardedBindings := insert (bindingKey event pid) f.forwardedBindings }, true)
  | none => (f, false)

theorem forwardNewBinding_nodeId (f : Forwarder F) (event : Event) :
    (f.forwardNewBinding event).1.nodeId = f.nodeId := by
  unfold forwardNewBinding
  cases event.pid with
  | none =>
    rfl
  | some pid =>
    simp only
    split_ifs <;> rfl

variable [FloatArith F]

def isSharpChange (last current : F) : Bool :=
  (FloatArith.lt (FloatArith.ofNat 80) last && FloatArith.lt current (FloatArith.ofNat 1)) ||
    (FloatArith.lt last (FloatArith.ofNat 1) && FloatArith.lt (FloatArith.ofNat 80) current)

/-- Utilization events: forwarded once per binding and on sharp changes. -/
def forwardCompute (f : Forwarder F) (event : Event) : Forwarder F × Bool :=
  match event.pid with
  | some pid =>
    let key := bindingKey event pid
    if key ∈ f.forwardedBindings then
      match (FloatArith.parse event.value : Option F), f.lastUtilValues.lookup key with
      | some current, some last =>
        if isSharpChange last current then
          ({ f with lastUtilValues := f.lastUtilValues.insert key current }, true)
        else
          (f, false)
      | _, _ => (f, false)
    else
      ({ f with
          forwardedBindings := insert key f.forwardedBindings
          lastUtilValues :=
            match (FloatArith.parse event.value : Option F) with
            | some util => f.lastUtilValues.insert key util
            | none => f.lastUtilValues }, true)
  | none => (f, false)

def shouldForward (f : Forwarder F) (event : Event) : Forwarder F × Bool :=
  match event.eventType with
  | .errorHw | .errorNet => (f, true)
  | .processState => (f, true)
  | .transportDrop => (f, true)
  | .topoLinkDown => (f, true)
  | .computeUtil | .computeMem => f.forwardCompute event
  | .storageIops | .storageQDepth => f.forwardNewBinding event
  | .transportBw => f.forwardNewBinding event
  | .intentRun | .actionExec => (f, false)

/-- The binding is new, or its utilization changes sharply. -/
def IsNews (f : Forwarder F) (event : Event) (pid : Nat) : Prop :=
  bindingKey event pid ∉ f.forwardedBindings ∨
    ∃ current ∈ (FloatArith.parse event.value : Option F),
      ∃ last ∈ f.lastUtilValues.lookup (bindingKey event pid),
        isSharpChange last current = true

instance (f : Forwarder F) (event : Event) (pid : Nat) : Decidable (f.IsNews event pid) :=
  inferInstanceAs (Decidable (_ ∨ _))

theorem forwardCompute_iff (f : Forwarder F) {event : Event} {pid : Nat}
    (hpid : event.pid = some pid) :
    (f.forwardCompute event).2 = true ↔ f.IsNews event pid := by
  unfold forwardCompute IsNews
  rw [hpid]
  by_cases hkey : bindingKey event pid ∈ f.forwardedBindings
  · simp only [hkey, not_true, false_or]
    cases hcur : (FloatArith.parse event.value : Option F) with
    | none =>
      simp
    | some current =>
      cases hlast : f.lastUtilValues.lookup (bindingKey event pid) with
      | none =>
        simp
      | some last =>
        by_cases hsharp : isSharpChange last current = true
        · simp [hsharp]
        · simp [hsharp]
  · simp [hkey]

theorem forwardCompute_nodeId (f : Forwarder F) (event : Event) :
    (f.forwardCompute event).1.nodeId = f.nodeId := by
  unfold forwardCompute
  cases event.pid with
  | none =>
    rfl
  | some pid =>
    simp only
    split_ifs with hkey
    · split
      · split_ifs <;> rfl
      · rfl
    · rfl

@[simp] theorem shouldForward_nodeId (f : Forwarder F) (event : Event) :
    (f.shouldForward event).1.nodeId = f.nodeId := by
  unfold shouldForward
  cases event.eventType with
  | computeUtil | computeMem => exact f.forwardCompute_nodeId event
  | transportBw | storageIops | storageQDepth => exact f.forwardNewBinding_nodeId event
  | _ => rfl

/-- Of the events that are withheld, those that speak about a process only
mention it. -/
theorem procOp_of_withheld {f : Forwarder F} {event : Event}
    (h : (f.shouldForward event).2 = false) :
    ∀ x ∈ procOp F event, x.2 = .ensure none := by
  intro x hx
  unfold shouldForward at h
  unfold procOp at hx
  cases hty : event.eventType with
  | processState | transportDrop | errorHw | errorNet | topoLinkDown =>
    simp [hty] at h
  | computeUtil | computeMem =>
    simp only [hty] at hx
    obtain ⟨_, _, rfl⟩ := Option.map_eq_some_iff.mp hx
    rfl
  | transportBw =>
    simp only [hty, waitingProcess] at hx
    obtain ⟨p, hp, rfl⟩ := Option.map_eq_some_iff.mp hx
    cases hpid : event.pid with
    | none =>
      simp [hpid] at hp
    | some pid =>
      simp only [hpid, reduceCtorEq, if_false, if_true] at hp
      split_ifs at hp
      cases hp
      rfl
  | storageIops | storageQDepth =>
    simp [hty, waitingProcess] at hx
  | intentRun | actionExec =>
    simp [hty] at hx

end Forwarder

structure Deployment (F : Type) where
  agent : StateGraph F
  forwarder : Forwarder F
  hub : StateGraph F

namespace Deployment

variable {F : Type} [FloatArith F]

def start (nodeId : String) : Deployment F where
  agent := .new
  forwarder := .new nodeId
  hub := .new

/-- The event loop of the agent, with the delivery of a forwarded event. -/
def step (s : Deployment F) (event : Event) : Deployment F where
  agent := s.agent.applyEvent event
  forwarder := (s.forwarder.shouldForward event).1
  hub :=
    if (s.forwarder.shouldForward event).2 then
      s.hub.applyEvent (Forwarder.stamp s.forwarder.nodeId event)
    else
      s.hub

theorem step_agent (s : Deployment F) (event : Event) :
    (s.step event).agent = s.agent.applyEvent event := by
  rfl

theorem step_hub_of_forwarded {s : Deployment F} {event : Event}
    (h : (s.forwarder.shouldForward event).2 = true) :
    (s.step event).hub = s.hub.applyEvent (Forwarder.stamp s.forwarder.nodeId event) := by
  simp [step, h]

theorem step_hub_of_withheld {s : Deployment F} {event : Event}
    (h : ¬ (s.forwarder.shouldForward event).2 = true) : (s.step event).hub = s.hub := by
  simp [step, h]

end Deployment

end ArkInfra
