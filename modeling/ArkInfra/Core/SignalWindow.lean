import ArkInfra.Core.Signal
import ArkInfra.Lib.Run
import ArkInfra.Lib.SlidingWindow
import Mathlib.Algebra.Field.Rat

/-!
# What the signals say

The engine keeps one window and one time of last emission per signal and
entity, under a key made of both names.  `Track` is what it keeps under one
key, as an abstract machine: it is offered samples one after the other and
emits a point when one is due.  `Tracks` relates an engine to a track, and
`Tracks.onEvent` says that the engine moves the track of a signal and an entity
by the samples of that signal and entity and by nothing else.

The points of a signal and an entity are therefore those its track emits
(`Tracks.emitted`), and what a track holds after nondecreasing samples is the
sliding window of the last one.  `emitted` and `afterEvents` are over any
floating-point arithmetic; `ExactArith` is an arithmetic without rounding.
-/

namespace ArkInfra

section Runs

variable {F : Type} [FloatArith F]

def SignalEngine.afterEvents (engine : SignalEngine F) (events : List Event) : SignalEngine F :=
  Run.run (fun engine event => (engine.onEvent event).1) engine events

/-- All points emitted for a list of events, in order. -/
def SignalEngine.emitted (engine : SignalEngine F) : List Event → List (SignalPoint F)
  | [] => []
  | event :: events =>
    (engine.onEvent event).2 ++ (engine.onEvent event).1.emitted events

@[simp] theorem SignalEngine.afterEvents_cons (engine : SignalEngine F) (event : Event)
    (events : List Event) :
    engine.afterEvents (event :: events) = (engine.onEvent event).1.afterEvents events := by
  rfl

@[simp] theorem SignalEngine.registry_afterEvents (engine : SignalEngine F)
    (events : List Event) : (engine.afterEvents events).registry = engine.registry := by
  induction events generalizing engine with
  | nil =>
    rfl
  | cons event events ih =>
    rw [SignalEngine.afterEvents_cons, ih, onEvent_registry]

end Runs

section Samples

variable {F : Type} [FloatArith F]

/-- The sample an event contributes to a signal of an entity. -/
def contribution (spec : SignalSpec) (entity : String) (event : Event) : Option (Nat × F) :=
  if entityFromEvent event = entity then
    (extractSample spec event).map fun sample => (event.ts, sample)
  else
    none

/-- The samples a list of events contributes to a signal of an entity. -/
def samplesOf (spec : SignalSpec) (entity : String) (events : List Event) : List (Nat × F) :=
  events.filterMap (contribution spec entity)

def pointsOf (spec : SignalSpec) (entity : String) (points : List (SignalPoint F)) :
    List (SignalPoint F) :=
  points.filter fun point => decide (point.name = spec.name ∧ point.entityId = entity)

omit [FloatArith F] in
theorem pointsOf_append (spec : SignalSpec) (entity : String)
    (points points' : List (SignalPoint F)) :
    pointsOf spec entity (points ++ points') =
      pointsOf spec entity points ++ pointsOf spec entity points' := by
  exact List.filter_append ..

theorem samplesOf_append (spec : SignalSpec) (entity : String) (events events' : List Event) :
    (samplesOf spec entity (events ++ events') : List (Nat × F)) =
      samplesOf spec entity events ++ samplesOf spec entity events' := by
  exact List.filterMap_append

theorem contribution_eq_some {spec : SignalSpec} {entity : String} {event : Event}
    {x : Nat × F} (h : contribution spec entity event = some x) :
    ∃ sample, extractSample spec event = some sample ∧ entityFromEvent event = entity ∧
      x = (event.ts, sample) := by
  unfold contribution at h
  split at h
  · rename_i hentity
    obtain ⟨sample, hsample, rfl⟩ := Option.map_eq_some_iff.mp h
    exact ⟨sample, hsample, hentity, rfl⟩
  · cases h

theorem contribution_own {spec : SignalSpec} {event : Event} {sample : F}
    (h : extractSample spec event = some sample) :
    contribution spec (entityFromEvent event) event = some (event.ts, sample) := by
  simp [contribution, h]

theorem sorted_samplesOf {events : List Event}
    (hevents : SlidingWindow.Sorted Event.ts events) (spec : SignalSpec) (entity : String) :
    SlidingWindow.Sorted Prod.fst (samplesOf spec entity events : List (Nat × F)) := by
  refine List.Pairwise.filterMap _ ?_ hevents
  intro event event' hle x hx x' hx'
  obtain ⟨_, _, _, rfl⟩ := contribution_eq_some hx
  obtain ⟨_, _, _, rfl⟩ := contribution_eq_some hx'
  exact hle

end Samples

section Tracks

variable {F : Type} [FloatArith F]

def signalKey (spec : SignalSpec) (entity : String) : String :=
  spec.name ++ "::" ++ entity

/-- The state of an aggregator with these samples. -/
def SignalState.ofSamples : Aggregator → List (Nat × F) → SignalState F
  | .counterRate, samples => .counterTimestamps (samples.map Prod.fst)
  | .gaugeAvg, samples => .gaugeSamples samples

/-- The value of a window, as the arithmetic computes it. -/
def aggregate (spec : SignalSpec) (samples : List F) : F :=
  match spec.aggregator with
  | .counterRate =>
    FloatArith.div (FloatArith.ofNat samples.length)
      (FloatArith.div (FloatArith.ofNat spec.window.windowMs) (FloatArith.ofNat 1000))
  | .gaugeAvg =>
    FloatArith.div (FloatArith.sum samples) (FloatArith.ofNat samples.length)

/-- What is kept for one signal of one entity. -/
structure Track (F : Type) where
  window : List (Nat × F)
  lastEmit : Option Nat

namespace Track

def empty : Track F :=
  { window := [], lastEmit := none }

def slide (spec : SignalSpec) (track : Track F) (x : Nat × F) : List (Nat × F) :=
  SlidingWindow.push Prod.fst spec.window.windowMs track.window x

def due (spec : SignalSpec) (track : Track F) (ts : Nat) : Bool :=
  match track.lastEmit with
  | none => true
  | some last => decide (ts - last ≥ spec.window.stepMs)

def offer (spec : SignalSpec) (track : Track F) (x : Nat × F) : Track F where
  window := track.slide spec x
  lastEmit := if track.due spec x.1 then some x.1 else track.lastEmit

def pointAt (spec : SignalSpec) (entity : String) (ts : Nat) (samples : List (Nat × F)) :
    SignalPoint F where
  name := spec.name
  ts := ts
  entityId := entity
  value := .number (aggregate spec (samples.map Prod.snd))
  windowMs := spec.window.windowMs
  unit := spec.unit

def emit (spec : SignalSpec) (entity : String) (track : Track F) (x : Nat × F) :
    List (SignalPoint F) :=
  if track.due spec x.1 then [pointAt spec entity x.1 (track.slide spec x)] else []

def emits (spec : SignalSpec) (entity : String) (track : Track F) :
    List (Nat × F) → List (SignalPoint F)
  | [] => []
  | x :: xs => track.emit spec entity x ++ (track.offer spec x).emits spec entity xs

end Track

omit [FloatArith F] in
theorem Track.slide_ne_nil (spec : SignalSpec) (track : Track F) (x : Nat × F) :
    track.slide spec x ≠ [] := by
  intro hnil
  have hold := List.dropWhile_eq_nil_iff.mp hnil x (by simp)
  rw [decide_eq_true_eq] at hold
  omega

omit [FloatArith F] in
theorem accumulate_ofSamples (spec : SignalSpec) (track : Track F) (x : Nat × F) :
    accumulate spec x.1 x.2 (.ofSamples spec.aggregator track.window) =
      .ofSamples spec.aggregator (track.slide spec x) := by
  unfold accumulate Track.slide
  cases spec.aggregator with
  | counterRate =>
    have hmap : track.window.map Prod.fst ++ [x.1] = (track.window ++ [x]).map Prod.fst := by
      simp
    simp only [SignalState.ofSamples, trimCounter, hmap, List.dropWhile_map]
    rfl
  | gaugeAvg =>
    rfl

theorem computeValue_ofSamples (spec : SignalSpec) {samples : List (Nat × F)}
    (hne : samples ≠ []) :
    computeValue (.ofSamples spec.aggregator samples) spec.aggregator spec.window.windowMs =
      some (aggregate spec (samples.map Prod.snd)) := by
  unfold aggregate
  cases spec.aggregator with
  | counterRate =>
    simp [SignalState.ofSamples, computeValue]
  | gaugeAvg =>
    simp [SignalState.ofSamples, computeValue, hne]

/-- The engine keeps this track for a signal and an entity. -/
structure Tracks (engine : SignalEngine F) (spec : SignalSpec) (entity : String)
    (track : Track F) : Prop where
  state : (engine.states.lookup (signalKey spec entity)).getD (.forAggregator spec.aggregator) =
    .ofSamples spec.aggregator track.window
  last : engine.lastEmitTs.lookup (signalKey spec entity) = track.lastEmit

omit [FloatArith F] in
theorem Tracks.new (registry : List SignalSpec) (spec : SignalSpec) (entity : String) :
    Tracks (.new registry : SignalEngine F) spec entity .empty where
  state := by
    cases spec.aggregator <;> rfl
  last := rfl

theorem Tracks.onSpec_other (event : Event) {acc : SignalEngine F × List (SignalPoint F)}
    {spec spec' : SignalSpec} {entity : String} {track : Track F}
    (h : Tracks acc.1 spec entity track)
    (hkey : (extractSample spec' event : Option F).isSome = true →
      signalKey spec' (entityFromEvent event) ≠ signalKey spec entity) :
    Tracks (onSpec event acc spec').1 spec entity track ∧
      pointsOf spec entity (onSpec event acc spec').2 = pointsOf spec entity acc.2 := by
  unfold onSpec
  cases hs : (extractSample spec' event : Option F) with
  | none =>
    exact ⟨h, rfl⟩
  | some sample =>
    have hne : signalKey spec entity ≠ spec'.name ++ "::" ++ entityFromEvent event :=
      (hkey (by simp [hs])).symm
    have hpoint : ¬ (spec'.name = spec.name ∧ entityFromEvent event = entity) := by
      rintro ⟨hname, rfl⟩
      rw [hname] at hne
      exact hne rfl
    simp only
    split
    · split
      · refine ⟨⟨?_, ?_⟩, ?_⟩
        · simpa [AList.lookup_insert_ne hne] using h.state
        · simpa [AList.lookup_insert_ne hne] using h.last
        · simp [pointsOf, hpoint]
      · exact ⟨⟨by simpa [AList.lookup_insert_ne hne] using h.state, h.last⟩, rfl⟩
    · exact ⟨⟨by simpa [AList.lookup_insert_ne hne] using h.state, h.last⟩, rfl⟩

theorem Tracks.onSpec_own {event : Event} {acc : SignalEngine F × List (SignalPoint F)}
    {spec : SignalSpec} {entity : String} {track : Track F} {x : Nat × F}
    (h : Tracks acc.1 spec entity track) (hx : contribution spec entity event = some x) :
    Tracks (onSpec event acc spec).1 spec entity (track.offer spec x) ∧
      pointsOf spec entity (onSpec event acc spec).2 =
        pointsOf spec entity acc.2 ++ track.emit spec entity x := by
  obtain ⟨sample, hsample, rfl, rfl⟩ := contribution_eq_some hx
  have hstate : accumulate spec event.ts sample
      ((acc.1.states.lookup (spec.name ++ "::" ++ entityFromEvent event)).getD
        (.forAggregator spec.aggregator)) =
      .ofSamples spec.aggregator (track.slide spec (event.ts, sample)) := by
    rw [← accumulate_ofSamples]
    exact congrArg _ h.state
  have hdue : shouldEmit acc.1.lastEmitTs (spec.name ++ "::" ++ entityFromEvent event) event.ts
      spec.window.stepMs = track.due spec event.ts := by
    rw [shouldEmit, Track.due, ← h.last]
    rfl
  unfold onSpec
  simp only [hsample, hstate, hdue, computeValue_ofSamples spec (track.slide_ne_nil spec _)]
  by_cases hemit : track.due spec event.ts = true
  · rw [if_pos hemit]
    refine ⟨⟨?_, ?_⟩, ?_⟩
    · simp [signalKey, Track.offer]
    · simp [signalKey, Track.offer, hemit]
    · simp [pointsOf, Track.emit, Track.pointAt, hemit]
  · rw [if_neg hemit]
    refine ⟨⟨?_, ?_⟩, ?_⟩
    · simp [signalKey, Track.offer]
    · simpa [Track.offer, hemit] using h.last
    · simp [Track.emit, hemit]

/-- No two signals of the registry share a key. -/
def KeyedApart (registry : List SignalSpec) : Prop :=
  registry.Pairwise fun spec spec' => ∀ entity entity',
    signalKey spec entity ≠ signalKey spec' entity'

theorem keyedApart_defaultMvp : KeyedApart defaultMvp := by
  refine List.pairwise_pair.mpr ?_
  intro entity entity' heq
  -- the names differ in their first character
  have hhead := congrArg (fun key => key.toList.head?) heq
  simp [signalKey] at hhead

theorem signalKey_entity {spec : SignalSpec} {entity entity' : String}
    (h : signalKey spec entity = signalKey spec entity') : entity = entity' := by
  have hlist := congrArg String.toList h
  simp only [signalKey, String.toList_append] at hlist
  exact String.toList_injective (List.append_cancel_left hlist)

theorem Tracks.foldl_other (event : Event) {spec : SignalSpec} {entity : String}
    {track : Track F} {specs : List SignalSpec}
    (hkey : ∀ spec' ∈ specs, (extractSample spec' event : Option F).isSome = true →
      signalKey spec' (entityFromEvent event) ≠ signalKey spec entity)
    {acc : SignalEngine F × List (SignalPoint F)} (h : Tracks acc.1 spec entity track) :
    Tracks (specs.foldl (onSpec event) acc).1 spec entity track ∧
      pointsOf spec entity (specs.foldl (onSpec event) acc).2 = pointsOf spec entity acc.2 := by
  induction specs generalizing acc with
  | nil =>
    exact ⟨h, rfl⟩
  | cons spec' specs ih =>
    obtain ⟨hnext, hpoints⟩ := h.onSpec_other event (hkey spec' (by simp))
    obtain ⟨hend, hrest⟩ := ih (fun s hs => hkey s (List.mem_cons_of_mem _ hs)) hnext
    exact ⟨hend, hrest.trans hpoints⟩

/-- **One event.**  The engine moves the track of a signal and an entity by
the sample the event contributes to them, if any, and by nothing else. -/
theorem Tracks.onEvent {engine : SignalEngine F} {spec : SignalSpec} {entity : String}
    {track : Track F} (hapart : KeyedApart engine.registry) (hspec : spec ∈ engine.registry)
    (h : Tracks engine spec entity track) (event : Event) :
    match (contribution spec entity event : Option (Nat × F)) with
    | none =>
      Tracks (engine.onEvent event).1 spec entity track ∧
        pointsOf spec entity (engine.onEvent event).2 = []
    | some x =>
      Tracks (engine.onEvent event).1 spec entity (track.offer spec x) ∧
        pointsOf spec entity (engine.onEvent event).2 = track.emit spec entity x := by
  obtain ⟨before, later, hregistry⟩ := List.append_of_mem hspec
  rw [KeyedApart, hregistry, List.pairwise_append, List.pairwise_cons] at hapart
  obtain ⟨_, ⟨hlater, _⟩, hbefore⟩ := hapart
  have hfirst : Tracks (before.foldl (onSpec event) (engine, [])).1 spec entity track ∧
      pointsOf spec entity (before.foldl (onSpec event) (engine, [])).2 = [] :=
    Tracks.foldl_other event (fun spec' hmem _ => hbefore spec' hmem spec (by simp) _ _) h
  have hloop : engine.onEvent event =
      later.foldl (onSpec event) (onSpec event (before.foldl (onSpec event) (engine, [])) spec) := by
    rw [SignalEngine.onEvent, hregistry, List.foldl_append, List.foldl_cons]
  have hrest : ∀ {track' : Track F} {acc : SignalEngine F × List (SignalPoint F)},
      Tracks acc.1 spec entity track' →
      Tracks (later.foldl (onSpec event) acc).1 spec entity track' ∧
        pointsOf spec entity (later.foldl (onSpec event) acc).2 = pointsOf spec entity acc.2 :=
    fun hacc => hacc.foldl_other event fun spec' hmem _ => (hlater spec' hmem _ _).symm
  cases hx : (contribution spec entity event : Option (Nat × F)) with
  | none =>
    have hidle : (extractSample spec event : Option F).isSome = true →
        signalKey spec (entityFromEvent event) ≠ signalKey spec entity := by
      intro hsome hkey
      obtain rfl := signalKey_entity hkey
      obtain ⟨sample, hsample⟩ := Option.isSome_iff_exists.mp hsome
      rw [contribution_own hsample] at hx
      cases hx
    have hown := hfirst.1.onSpec_other event hidle
    obtain ⟨hend, hpoints⟩ := hrest hown.1
    simp only [hloop]
    exact ⟨hend, (hpoints.trans hown.2).trans hfirst.2⟩
  | some x =>
    have hown := hfirst.1.onSpec_own hx
    obtain ⟨hend, hpoints⟩ := hrest hown.1
    simp only [hloop]
    refine ⟨hend, (hpoints.trans hown.2).trans ?_⟩
    rw [hfirst.2, List.nil_append]

/-- **A whole run.**  The points of a signal and an entity are those its track
emits for its samples. -/
theorem Tracks.emitted {engine : SignalEngine F} {spec : SignalSpec} {entity : String}
    {track : Track F} (hapart : KeyedApart engine.registry) (hspec : spec ∈ engine.registry)
    (h : Tracks engine spec entity track) (events : List Event) :
    Tracks (engine.afterEvents events) spec entity
        ((samplesOf spec entity events).foldl (Track.offer spec) track) ∧
      pointsOf spec entity (engine.emitted events) =
        track.emits spec entity (samplesOf spec entity events) := by
  induction events generalizing engine track with
  | nil =>
    exact ⟨h, rfl⟩
  | cons event events ih =>
    have hstep := h.onEvent hapart hspec event
    have hregistry := onEvent_registry engine event
    rw [SignalEngine.emitted, pointsOf_append, SignalEngine.afterEvents_cons, samplesOf]
    cases hx : (contribution spec entity event : Option (Nat × F)) with
    | none =>
      simp only [hx] at hstep
      rw [List.filterMap_cons_none hx, hstep.2]
      exact ih (by rwa [hregistry]) (by rwa [hregistry]) hstep.1
    | some x =>
      simp only [hx] at hstep
      rw [List.filterMap_cons_some hx, hstep.2, List.foldl_cons, Track.emits]
      obtain ⟨hend, hpoints⟩ := ih (by rwa [hregistry]) (by rwa [hregistry]) hstep.1
      exact ⟨hend, congrArg _ hpoints⟩

end Tracks

section History

variable {F : Type} [FloatArith F]

theorem Track.emits_append (spec : SignalSpec) (entity : String) (track : Track F)
    (xs ys : List (Nat × F)) :
    track.emits spec entity (xs ++ ys) =
      track.emits spec entity xs ++ (xs.foldl (Track.offer spec) track).emits spec entity ys := by
  induction xs generalizing track with
  | nil =>
    rfl
  | cons x xs ih =>
    rw [List.cons_append, Track.emits, Track.emits, ih, List.append_assoc, List.foldl_cons]

theorem Track.mem_emits {spec : SignalSpec} {entity : String} {track : Track F}
    {xs : List (Nat × F)} {point : SignalPoint F} (h : point ∈ track.emits spec entity xs) :
    ∃ x ∈ xs, point.ts = x.1 := by
  induction xs generalizing track with
  | nil =>
    cases h
  | cons x xs ih =>
    rcases List.mem_append.mp h with hown | hrest
    · unfold Track.emit at hown
      split at hown
      · rw [List.mem_singleton.mp hown]
        exact ⟨x, by simp, rfl⟩
      · cases hown
    · obtain ⟨y, hy, hts⟩ := ih hrest
      exact ⟨y, List.mem_cons_of_mem _ hy, hts⟩

omit [FloatArith F] in
theorem Track.window_foldl (spec : SignalSpec) (track : Track F) (xs : List (Nat × F)) :
    (xs.foldl (Track.offer spec) track).window =
      xs.foldl (SlidingWindow.push Prod.fst spec.window.windowMs) track.window := by
  induction xs generalizing track with
  | nil =>
    rfl
  | cons x xs ih =>
    exact ih (track.offer spec x)

omit [FloatArith F] in
theorem Track.slide_foldl {spec : SignalSpec} {xs : List (Nat × F)} {x : Nat × F}
    (hsorted : SlidingWindow.Sorted Prod.fst (xs ++ [x])) :
    (xs.foldl (Track.offer spec) Track.empty).slide spec x =
      SlidingWindow.within Prod.fst spec.window.windowMs x.1 (xs ++ [x]) := by
  rw [Track.slide, Track.window_foldl, ← SlidingWindow.foldl_push hsorted, List.foldl_append]
  rfl

theorem Track.lastEmit_foldl (spec : SignalSpec) (entity : String) (xs : List (Nat × F)) :
    (xs.foldl (Track.offer spec) Track.empty).lastEmit =
      (Track.empty.emits spec entity xs).getLast?.map SignalPoint.ts := by
  induction xs using List.reverseRecOn with
  | nil =>
    rfl
  | append_singleton xs x ih =>
    rw [List.foldl_append, Track.emits_append, List.foldl_cons, List.foldl_nil]
    simp only [Track.emits, Track.emit, Track.offer, List.append_nil]
    split
    · simp [Track.pointAt]
    · rw [ih, List.append_nil]

/-- After these points another one is due: there is none yet, or the last one
is at least the step back. -/
def PointDue (spec : SignalSpec) (earlier : List (SignalPoint F)) (ts : Nat) : Prop :=
  earlier = [] ∨
    ∃ last, earlier.getLast? = some last ∧ last.ts + spec.window.stepMs ≤ ts

theorem Track.due_iff (spec : SignalSpec) (entity : String) {xs : List (Nat × F)} {x : Nat × F}
    (hsorted : SlidingWindow.Sorted Prod.fst (xs ++ [x])) :
    (xs.foldl (Track.offer spec) Track.empty).due spec x.1 = true ↔
      PointDue spec (Track.empty.emits spec entity xs) x.1 := by
  have hlast := Track.lastEmit_foldl spec entity xs
  unfold Track.due PointDue
  cases hpoints : (Track.empty.emits spec entity xs).getLast? with
  | none =>
    rw [hpoints] at hlast
    simp [hlast, List.getLast?_eq_none_iff.mp hpoints]
  | some last =>
    obtain ⟨y, hy, hts⟩ := Track.mem_emits (List.mem_of_getLast? hpoints)
    have hback : last.ts ≤ x.1 := by
      rw [hts]
      exact (SlidingWindow.sorted_concat.mp hsorted).2 y hy
    have hne : Track.empty.emits spec entity xs ≠ [] := by
      rintro hnil
      simp [hnil] at hpoints
    rw [hpoints] at hlast
    simp only [hlast, Option.map_some, decide_eq_true_eq, hne, false_or, Option.some.injEq,
      exists_eq_left']
    omega

def retransmitRate : SignalSpec :=
  defaultMvp.head (by simp [defaultMvp])

theorem retransmitRate_mem : retransmitRate ∈ defaultMvp := by
  exact List.head_mem _

def SignalEngine.mvp (F : Type) : SignalEngine F :=
  .new defaultMvp

theorem mvp_tracks {spec : SignalSpec} (hspec : spec ∈ defaultMvp) (entity : String)
    (events : List Event) :
    Tracks ((SignalEngine.mvp F).afterEvents events) spec entity
        ((samplesOf spec entity events).foldl (Track.offer spec) Track.empty) ∧
      pointsOf spec entity ((SignalEngine.mvp F).emitted events) =
        Track.empty.emits spec entity (samplesOf spec entity events) := by
  exact (Tracks.new defaultMvp spec entity).emitted keyedApart_defaultMvp hspec events

/-- What a matching event emits for its signal after nondecreasing samples. -/
theorem mvp_onEvent {spec : SignalSpec} (hspec : spec ∈ defaultMvp) {seen : List Event}
    {event : Event} {sample : F} (hsample : extractSample spec event = some sample)
    (hsorted : SlidingWindow.Sorted Prod.fst
      (samplesOf spec (entityFromEvent event) (seen ++ [event]) : List (Nat × F))) :
    (pointsOf spec (entityFromEvent event)
          (((SignalEngine.mvp F).afterEvents seen).onEvent event).2 = [] ∧
        ¬ PointDue spec (pointsOf spec (entityFromEvent event)
          ((SignalEngine.mvp F).emitted seen)) event.ts) ∨
      (pointsOf spec (entityFromEvent event)
          (((SignalEngine.mvp F).afterEvents seen).onEvent event).2 =
          [Track.pointAt spec (entityFromEvent event) event.ts
            (SlidingWindow.within Prod.fst spec.window.windowMs event.ts
              (samplesOf spec (entityFromEvent event) (seen ++ [event])))] ∧
        PointDue spec (pointsOf spec (entityFromEvent event)
          ((SignalEngine.mvp F).emitted seen)) event.ts) := by
  obtain ⟨htracks, hearlier⟩ := mvp_tracks (F := F) hspec (entityFromEvent event) seen
  have hregistry := SignalEngine.registry_afterEvents (SignalEngine.mvp F) seen
  have hstep := htracks.onEvent (hregistry ▸ keyedApart_defaultMvp) (hregistry ▸ hspec) event
  have hcontribution : samplesOf spec (entityFromEvent event) (seen ++ [event]) =
      samplesOf spec (entityFromEvent event) seen ++ [(event.ts, sample)] := by
    rw [samplesOf_append, samplesOf, samplesOf, List.filterMap_cons_some (contribution_own hsample)]
    rfl
  rw [hcontribution] at hsorted ⊢
  have hdue := Track.due_iff spec (entityFromEvent event) hsorted
  simp only [contribution_own hsample] at hstep
  rw [hstep.2, Track.emit, Track.slide_foldl hsorted]
  rw [← hearlier] at hdue
  split
  · rename_i hemit
    right
    exact ⟨rfl, hdue.mp hemit⟩
  · rename_i hidle
    left
    exact ⟨rfl, fun h => hidle (hdue.mpr h)⟩

theorem pointsOf_emitted_filter {spec : SignalSpec} (hspec : spec ∈ defaultMvp)
    (entity : String) (events : List Event) :
    pointsOf spec entity ((SignalEngine.mvp F).emitted events) =
      pointsOf spec entity ((SignalEngine.mvp F).emitted
        (events.filter fun e => (contribution spec entity e : Option (Nat × F)).isSome)) := by
  have hsame : (samplesOf spec entity
        (events.filter fun e => (contribution spec entity e : Option (Nat × F)).isSome) :
        List (Nat × F)) = samplesOf spec entity events := by
    rw [samplesOf, samplesOf, List.filterMap_filter]
    refine List.filterMap_congr ?_
    intro event _
    cases (contribution spec entity event : Option (Nat × F)) <;> rfl
  rw [(mvp_tracks (F := F) hspec entity events).2, (mvp_tracks (F := F) hspec entity _).2, hsame]

end History

section Exact

/-- Arithmetic without rounding: the operations are those of a field. -/
class ExactArith (K : Type) [Field K] extends FloatArith K where
  add_eq : ∀ a b : K, add a b = a + b
  div_eq : ∀ a b : K, div a b = a / b
  ofNat_eq : ∀ n : Nat, ofNat n = (n : K)
  negZero_eq : negZero = 0

def Binary64.toRat : Binary64 → Option ℚ
  | .nan => none
  | .inf _ => none
  | .fin neg mant exp =>
    let magnitude := mkRat (fraction mant exp).1 (fraction mant exp).2
    some (if neg then -magnitude else magnitude)

/-- The doubles that are read, computed with exactly. -/
instance : ExactArith ℚ where
  parse text := (Binary64.parse text).bind Binary64.toRat
  lt a b := decide (a < b)
  add a b := a + b
  div a b := a / b
  ofNat n := n
  negZero := 0
  display q := toString q
  add_eq _ _ := rfl
  div_eq _ _ := rfl
  ofNat_eq _ := rfl
  negZero_eq := rfl

variable {K : Type} [Field K]

/-- The rate per second of the samples of a window, or their mean. -/
def exactAggregate (spec : SignalSpec) (samples : List K) : K :=
  match spec.aggregator with
  | .counterRate => (samples.length : K) / ((spec.window.windowMs : K) / 1000)
  | .gaugeAvg => samples.sum / (samples.length : K)

variable [ExactArith K]

theorem foldl_add_eq (samples : List K) (start : K) :
    samples.foldl FloatArith.add start = start + samples.sum := by
  induction samples generalizing start with
  | nil =>
    simp
  | cons sample samples ih =>
    rw [List.foldl_cons, ih, ExactArith.add_eq, List.sum_cons, add_assoc]

theorem aggregate_eq_exactAggregate (spec : SignalSpec) (samples : List K) :
    aggregate spec samples = exactAggregate spec samples := by
  unfold aggregate exactAggregate
  cases spec.aggregator with
  | counterRate =>
    simp only [ExactArith.div_eq, ExactArith.ofNat_eq, Nat.cast_ofNat]
  | gaugeAvg =>
    simp only [FloatArith.sum, foldl_add_eq, ExactArith.div_eq, ExactArith.ofNat_eq,
      ExactArith.negZero_eq, zero_add]

/-- **Signals are sliding-window aggregates.**  In exact arithmetic every point
is the rate or the mean of the samples of its entity in the window that ends at
its time; a matching event emits a point exactly when there is none yet or the
last one is at least the step back; and the points of a signal and an entity
are the same when all other events are left out. -/
theorem onEvent_exactWindow {events seen rest : List Event} {event : Event}
    (hsorted : ∀ spec ∈ defaultMvp, ∀ entity,
      SlidingWindow.Sorted Prod.fst (samplesOf spec entity events : List (Nat × K)))
    (hevents : events = seen ++ event :: rest) :
    (∀ point ∈ (((SignalEngine.mvp K).afterEvents seen).onEvent event).2,
      ∃ spec ∈ defaultMvp,
        (extractSample spec event : Option K).isSome = true ∧
        point.name = spec.name ∧ point.entityId = entityFromEvent event ∧ point.ts = event.ts ∧
        point.value = .number (exactAggregate spec
          ((SlidingWindow.within Prod.fst spec.window.windowMs event.ts
            (samplesOf spec (entityFromEvent event) (seen ++ [event]))).map Prod.snd))) ∧
    (∀ spec ∈ defaultMvp, (extractSample spec event : Option K).isSome = true →
      ((∃ point ∈ (((SignalEngine.mvp K).afterEvents seen).onEvent event).2,
          point.name = spec.name) ↔
        PointDue spec (pointsOf spec (entityFromEvent event)
          ((SignalEngine.mvp K).emitted seen)) event.ts)) ∧
    (∀ spec ∈ defaultMvp, ∀ entity,
      pointsOf spec entity ((SignalEngine.mvp K).emitted events) =
        pointsOf spec entity ((SignalEngine.mvp K).emitted
          (events.filter fun e => (contribution spec entity e : Option (Nat × K)).isSome))) := by
  have hsofar : ∀ spec ∈ defaultMvp, SlidingWindow.Sorted Prod.fst
      (samplesOf spec (entityFromEvent event) (seen ++ [event]) : List (Nat × K)) := by
    intro spec hspec
    have hall := hsorted spec hspec (entityFromEvent event)
    have hsplit : events = (seen ++ [event]) ++ rest := by
      rw [hevents, List.append_assoc]
      rfl
    rw [hsplit, samplesOf_append] at hall
    exact (List.pairwise_append.mp hall).1
  -- the points of the event's own signal and entity are all its points of that name
  have hmem : ∀ spec : SignalSpec,
      ∀ point ∈ (((SignalEngine.mvp K).afterEvents seen).onEvent event).2,
      point.name = spec.name → point ∈ pointsOf spec (entityFromEvent event)
        (((SignalEngine.mvp K).afterEvents seen).onEvent event).2 := by
    intro spec point hpoint hname
    obtain ⟨_, _, _, hentity, _, _⟩ := mem_onEvent hpoint
    exact List.mem_filter.mpr ⟨hpoint, by simp [hname, hentity]⟩
  refine ⟨?_, ?_, fun spec hspec entity => pointsOf_emitted_filter hspec entity events⟩
  · intro point hpoint
    obtain ⟨spec, hspec, hname, hentity, hts, hmatch⟩ := mem_onEvent hpoint
    rw [SignalEngine.registry_afterEvents] at hspec
    obtain ⟨sample, hsample⟩ := Option.isSome_iff_exists.mp hmatch
    refine ⟨spec, hspec, hmatch, hname, hentity, hts, ?_⟩
    have hown := hmem spec point hpoint hname
    rcases mvp_onEvent hspec hsample (hsofar spec hspec) with ⟨hnone, _⟩ | ⟨hone, _⟩
    · rw [hnone] at hown
      cases hown
    · rw [hone, List.mem_singleton] at hown
      rw [hown, Track.pointAt, aggregate_eq_exactAggregate]
  · intro spec hspec hmatch
    obtain ⟨sample, hsample⟩ := Option.isSome_iff_exists.mp hmatch
    rcases mvp_onEvent hspec hsample (hsofar spec hspec) with ⟨hnone, hidle⟩ | ⟨hone, hdue⟩
    · refine ⟨?_, fun h => absurd h hidle⟩
      rintro ⟨point, hpoint, hname⟩
      have hown := hmem spec point hpoint hname
      rw [hnone] at hown
      cases hown
    · refine ⟨fun _ => hdue, fun _ => ?_⟩
      have hpoint := List.mem_singleton_self (Track.pointAt spec (entityFromEvent event) event.ts
        (SlidingWindow.within Prod.fst spec.window.windowMs event.ts
          (samplesOf spec (entityFromEvent event) (seen ++ [event]) : List (Nat × K))))
      rw [← hone] at hpoint
      exact ⟨_, (List.mem_filter.mp hpoint).1, rfl⟩

def retransmitAt (ts : Nat) (node : String) : Event where
  ts := ts
  eventType := .transportDrop
  entityId := "eth0"
  jobId := none
  pid := none
  value := "retransmit"
  nodeId := some node

/-- Two retransmissions of one node in a minute are a rate of one in thirty
seconds, whatever another node reports. -/
theorem onEvent_exactWindow_twoNodes :
    ∃ point ∈ (((SignalEngine.mvp ℚ).afterEvents
        [retransmitAt 1000 "a", retransmitAt 1500 "b"]).onEvent (retransmitAt 2500 "a")).2,
      point.name = "network.tcp.retransmit_rate_1m" ∧ point.value = .number (1 / 30) := by
  have hevents : SlidingWindow.Sorted Event.ts
      [retransmitAt 1000 "a", retransmitAt 1500 "b", retransmitAt 2500 "a"] := by
    simp [SlidingWindow.Sorted, retransmitAt]
  obtain ⟨hvalue, hdue, _⟩ := onEvent_exactWindow (K := ℚ)
    (fun spec _ entity => sorted_samplesOf hevents spec entity)
    (show _ = [retransmitAt 1000 "a", retransmitAt 1500 "b"] ++ retransmitAt 2500 "a" :: [] from rfl)
  have hpoints : (pointsOf retransmitRate "a" ((SignalEngine.mvp ℚ).emitted
      [retransmitAt 1000 "a", retransmitAt 1500 "b"])).getLast?.map SignalPoint.ts =
      some 1000 := by
    decide +kernel
  obtain ⟨last, hlast, hts⟩ := Option.map_eq_some_iff.mp hpoints
  obtain ⟨point, hpoint, hname⟩ := (hdue retransmitRate retransmitRate_mem (by decide +kernel)).mpr
    (Or.inr ⟨last, hlast, by rw [hts]; decide⟩)
  refine ⟨point, hpoint, hname, ?_⟩
  obtain ⟨spec, hspec, _, hspecName, _, _, hvalue⟩ := hvalue point hpoint
  rcases List.mem_pair.mp hspec with rfl | rfl
  · rw [hvalue]
    congr 1
    decide +kernel
  · exact absurd (hname.symm.trans hspecName) (by decide)

end Exact

end ArkInfra
