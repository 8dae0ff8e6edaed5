import ArkInfra.Core.Event
import ArkInfra.Lib.Binary64
import ArkInfra.Lib.HashMap

/-!
# The signal engine

`core/src/signals`: every event is offered to each registered signal.  A
matching event contributes a sample to the sliding window of its entity, and a
point is emitted when none was emitted for that signal and entity before or
when at least `stepMs` have passed since the last one.

The engine is written over an arbitrary floating-point arithmetic `F`.
-/

namespace ArkInfra

section SignalEngine

/-- The value carried by a signal point. -/
inductive SignalValue (F : Type) where
  | number (v : F)
  | bool (b : Bool)
  | text (s : String)

/-- How the samples of a window are combined. -/
inductive Aggregator where
  | counterRate
  | gaugeAvg
deriving DecidableEq

/-- A sliding window and the least distance between two emitted points. -/
structure WindowSpec where
  windowMs : Nat
  stepMs : Nat

/-- A registered signal. -/
structure SignalSpec where
  name : String
  window : WindowSpec
  aggregator : Aggregator
  unit : String

/-- The signals registered by `SignalRegistry::default_mvp`. -/
def defaultMvp : List SignalSpec :=
  [{ name := "network.tcp.retransmit_rate_1m"
     window := { windowMs := 60000, stepMs := 1000 }
     aggregator := .counterRate
     unit := "count/s" },
   { name := "hardware.gpu.util_avg_1m"
     window := { windowMs := 60000, stepMs := 1000 }
     aggregator := .gaugeAvg
     unit := "percent" }]

/-- One emitted point; the entity is always a cluster node. -/
structure SignalPoint (F : Type) where
  name : String
  ts : Nat
  entityId : String
  value : SignalValue F
  windowMs : Nat
  unit : String

/-- The window kept for one signal of one entity, oldest sample first. -/
inductive SignalState (F : Type) where
  | counterTimestamps (events : List Nat)
  | gaugeSamples (samples : List (Nat × F))

/-- The empty window of an aggregator. -/
def SignalState.forAggregator {F : Type} : Aggregator → SignalState F
  | .counterRate => .counterTimestamps []
  | .gaugeAvg => .gaugeSamples []

/-- The engine: the registered signals and, per signal and entity, the window
and the time of the last emitted point. -/
structure SignalEngine (F : Type) where
  registry : List SignalSpec
  states : HashMap String (SignalState F)
  lastEmitTs : HashMap String Nat

/-- An engine that has seen no event. -/
def SignalEngine.new {F : Type} (registry : List SignalSpec) : SignalEngine F where
  registry := registry
  states := ∅
  lastEmitTs := ∅

variable {F : Type} [FloatArith F]

/-- The sample an event contributes to a signal, if it matches. -/
def extractSample (spec : SignalSpec) (event : Event) : Option F :=
  if spec.name = "network.tcp.retransmit_rate_1m" then
    if event.eventType ≠ .transportDrop then none
    else
      let lower := Text.toAsciiLowercase event.value
      if Text.contains lower "retransmit" || Text.contains lower "drop" then
        some (FloatArith.ofNat 1)
      else
        none
  else if spec.name = "hardware.gpu.util_avg_1m" then
    if event.eventType ≠ .computeUtil then none
    else FloatArith.parse event.value
  else
    none

/-- The entity a sample belongs to. -/
def entityFromEvent (event : Event) : String :=
  match event.nodeId with
  | some nodeId => nodeId
  | none => "local"

/-- Drop the timestamps before the window. -/
def trimCounter (events : List Nat) (nowTs windowMs : Nat) : List Nat :=
  let cutoff := nowTs - windowMs
  events.dropWhile (fun ts => decide (ts < cutoff))

/-- Drop the samples before the window. -/
def trimGauge (samples : List (Nat × F)) (nowTs windowMs : Nat) : List (Nat × F) :=
  let cutoff := nowTs - windowMs
  samples.dropWhile (fun s => decide (s.1 < cutoff))

/-- The value of a window. -/
def computeValue (state : SignalState F) (aggregator : Aggregator)
    (windowMs : Nat) : Option F :=
  match state, aggregator with
  | .counterTimestamps events, .counterRate =>
    some (FloatArith.div (FloatArith.ofNat events.length)
      (FloatArith.div (FloatArith.ofNat windowMs) (FloatArith.ofNat 1000)))
  | .gaugeSamples samples, .gaugeAvg =>
    if samples.isEmpty then none
    else
      let sum := FloatArith.sum (samples.map Prod.snd)
      some (FloatArith.div sum (FloatArith.ofNat samples.length))
  | _, _ => none

def accumulate (spec : SignalSpec) (ts : Nat) (sample : F)
    (state : SignalState F) : SignalState F :=
  match spec.aggregator, state with
  | .counterRate, .counterTimestamps events =>
    .counterTimestamps (trimCounter (events ++ [ts]) ts spec.window.windowMs)
  | .gaugeAvg, .gaugeSamples samples =>
    .gaugeSamples (trimGauge (samples ++ [(ts, sample)]) ts spec.window.windowMs)
  | _, state => state

/-- A point is due when none was emitted under the key before, or long enough
ago. -/
def shouldEmit (lastEmitTs : HashMap String Nat) (key : String)
    (ts stepMs : Nat) : Bool :=
  match lastEmitTs.lookup key with
  | none => true
  | some last => decide (ts - last ≥ stepMs)

/-- The body of the loop over the registered signals. -/
def onSpec (event : Event) (acc : SignalEngine F × List (SignalPoint F))
    (spec : SignalSpec) : SignalEngine F × List (SignalPoint F) :=
  match (extractSample spec event : Option F) with
  | none => acc
  | some sample =>
    let engine := acc.1
    let entityId := entityFromEvent event
    let key := spec.name ++ "::" ++ entityId
    let state := accumulate spec event.ts sample
      ((engine.states.lookup key).getD (SignalState.forAggregator spec.aggregator))
    let engine := { engine with states := engine.states.insert key state }
    if shouldEmit engine.lastEmitTs key event.ts spec.window.stepMs then
      match computeValue state spec.aggregator spec.window.windowMs with
      | some value =>
        ({ engine with lastEmitTs := engine.lastEmitTs.insert key event.ts },
          acc.2 ++ [{ name := spec.name
                      ts := event.ts
                      entityId := entityId
                      value := .number value
                      windowMs := spec.window.windowMs
                      unit := spec.unit }])
      | none => (engine, acc.2)
    else
      (engine, acc.2)

/-- Offer an event to every registered signal; returns the emitted points. -/
def SignalEngine.onEvent (engine : SignalEngine F) (event : Event) :
    SignalEngine F × List (SignalPoint F) :=
  engine.registry.foldl (onSpec event) (engine, [])

/-- One round of the loop emits nothing, or one point of its own signal for
the entity of the event. -/
theorem onSpec_points (event : Event) (acc : SignalEngine F × List (SignalPoint F))
    (spec : SignalSpec) :
    (onSpec event acc spec).2 = acc.2 ∨
      ∃ point : SignalPoint F,
        (onSpec event acc spec).2 = acc.2 ++ [point] ∧
        point.name = spec.name ∧
        point.entityId = entityFromEvent event ∧
        point.ts = event.ts ∧
        (extractSample spec event : Option F).isSome = true := by
  unfold onSpec
  cases hs : (extractSample spec event : Option F) with
  | none =>
    left
    rfl
  | some sample =>
    simp only
    split
    · split
      · right
        exact ⟨_, rfl, rfl, rfl, rfl, rfl⟩
      · left
        rfl
    · left
      rfl

theorem mem_onEvent {engine : SignalEngine F} {event : Event}
    {point : SignalPoint F} (h : point ∈ (engine.onEvent event).2) :
    ∃ spec ∈ engine.registry,
      point.name = spec.name ∧
      point.entityId = entityFromEvent event ∧
      point.ts = event.ts ∧
      (extractSample spec event : Option F).isSome = true := by
  -- the loop starts with no point, and each round adds at most one
  have key : ∀ (specs : List SignalSpec) (acc : SignalEngine F × List (SignalPoint F)),
      point ∈ (specs.foldl (onSpec event) acc).2 →
      point ∈ acc.2 ∨ ∃ spec ∈ specs, point.name = spec.name ∧
        point.entityId = entityFromEvent event ∧ point.ts = event.ts ∧
        (extractSample spec event : Option F).isSome = true := by
    intro specs
    induction specs with
    | nil =>
      intro acc hp
      exact Or.inl hp
    | cons spec specs ih =>
      intro acc hp
      rcases ih _ hp with hacc | ⟨spec', hmem, hrest⟩
      · rcases onSpec_points event acc spec with heq | ⟨new, heq, hnew⟩
        · rw [heq] at hacc
          exact Or.inl hacc
        · rw [heq, List.mem_append, List.mem_singleton] at hacc
          rcases hacc with hold | rfl
          · exact Or.inl hold
          · exact Or.inr ⟨spec, by simp, hnew⟩
      · exact Or.inr ⟨spec', List.mem_cons_of_mem _ hmem, hrest⟩
  rcases key engine.registry (engine, []) h with hnil | hspec
  · simp at hnil
  · exact hspec

theorem onSpec_registry (event : Event) (acc : SignalEngine F × List (SignalPoint F))
    (spec : SignalSpec) :
    (onSpec event acc spec).1.registry = acc.1.registry := by
  unfold onSpec
  split
  · rfl
  · simp only
    split
    · split <;> rfl
    · rfl

@[simp] theorem onEvent_registry (engine : SignalEngine F) (event : Event) :
    (engine.onEvent event).1.registry = engine.registry := by
  have key : ∀ (specs : List SignalSpec) (acc : SignalEngine F × List (SignalPoint F)),
      (specs.foldl (onSpec event) acc).1.registry = acc.1.registry := by
    intro specs
    induction specs with
    | nil =>
      intro acc
      rfl
    | cons spec specs ih =>
      intro acc
      rw [List.foldl_cons, ih, onSpec_registry]
  exact key engine.registry (engine, [])

end SignalEngine

end ArkInfra
