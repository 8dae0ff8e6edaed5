import ArkInfra.Agent.Forwarder
import ArkInfra.Lib.Hysteresis

/-!
# Which jumps of the utilization reach the hub

The forwarder withholds the utilization of a known binding unless it jumps
between busy and idle.  It compares the reported value with the one it has
recorded for the binding, and it records a value in two cases only: when the
binding is new, and when the value is a jump from the recorded one.  Memory
reports share the record, and storage and bandwidth reports make a binding known
without recording anything.

The record of a binding is therefore a latch with the thresholds 80 and 1 over
the values of its compute events, set by the event that made the binding known
(`memoryOf_after`).  A latch that was set between the thresholds, or not at all,
never moves, so `rollup_showsJumps_iff` asks for more than a jump between two
consecutive reports.
-/

namespace ArkInfra

namespace Forwarder

variable {F : Type}

/-- The event is of a type that makes bindings known, and about this one. -/
def Registers (key : Nat × String) (event : Event) : Prop :=
  event.eventType ∈
      [EventType.computeUtil, .computeMem, .storageIops, .storageQDepth, .transportBw] ∧
    event.pid.map (bindingKey event) = some key

/-- The event reports the utilization or the memory of the binding. -/
def IsCompute (key : Nat × String) (event : Event) : Prop :=
  event.eventType ∈ [EventType.computeUtil, .computeMem] ∧
    event.pid.map (bindingKey event) = some key

/-- The event reports the utilization of the binding. -/
def IsUtil (key : Nat × String) (event : Event) : Prop :=
  event.eventType = .computeUtil ∧ event.pid.map (bindingKey event) = some key

instance (key : Nat × String) : DecidablePred (Registers key) :=
  fun _ => inferInstanceAs (Decidable (_ ∧ _))

instance (key : Nat × String) : DecidablePred (IsCompute key) :=
  fun _ => inferInstanceAs (Decidable (_ ∧ _))

instance (key : Nat × String) : DecidablePred (IsUtil key) :=
  fun _ => inferInstanceAs (Decidable (_ ∧ _))

theorem IsUtil.isCompute {key : Nat × String} {event : Event} (h : IsUtil key event) :
    IsCompute key event := by
  exact ⟨by simp [h.1], h.2⟩

theorem IsCompute.registers {key : Nat × String} {event : Event} (h : IsCompute key event) :
    Registers key event := by
  refine ⟨?_, h.2⟩
  have hty := h.1
  simp only [List.mem_cons, List.not_mem_nil, or_false] at hty
  rcases hty with hty | hty
  · simp [hty]
  · simp [hty]

/-- What the forwarder knows of a binding: nothing, or the recorded value if
there is one. -/
def memoryOf (f : Forwarder F) (key : Nat × String) : Option (Option F) :=
  if key ∈ f.forwardedBindings then some (f.lastUtilValues.lookup key) else none

/-- Values are recorded of known bindings only. -/
def RecordsKnown (f : Forwarder F) : Prop :=
  ∀ key, (f.lastUtilValues.lookup key).isSome = true → key ∈ f.forwardedBindings

theorem lookup_eq_none_of_unknown {f : Forwarder F} (hf : f.RecordsKnown) {key : Nat × String}
    (h : key ∉ f.forwardedBindings) : f.lastUtilValues.lookup key = none := by
  rw [← Option.not_isSome_iff_eq_none]
  exact fun hsome => h (hf key hsome)

theorem recordsKnown_forwardNewBinding {f : Forwarder F} (hf : f.RecordsKnown) (event : Event) :
    (f.forwardNewBinding event).1.RecordsKnown := by
  unfold forwardNewBinding
  cases event.pid with
  | none =>
    exact hf
  | some pid =>
    dsimp only
    split_ifs
    · exact hf
    · intro key hsome
      exact Finset.mem_insert_of_mem (hf key hsome)

theorem recordsKnown_insert {f : Forwarder F} (hf : f.RecordsKnown) {key : Nat × String}
    {bindings : Finset (Nat × String)} (hsub : f.forwardedBindings ⊆ bindings)
    (hkey : key ∈ bindings) (util : F) :
    RecordsKnown { f with
      forwardedBindings := bindings
      lastUtilValues := f.lastUtilValues.insert key util } := by
  intro other hsome
  by_cases hother : other = key
  · exact hother ▸ hkey
  · rw [AList.lookup_insert_ne hother] at hsome
    exact hsub (hf other hsome)

section Memory

variable [FloatArith F]

def isBusy (util : F) : Bool :=
  FloatArith.lt (FloatArith.ofNat 80) util

def isIdle (util : F) : Bool :=
  FloatArith.lt util (FloatArith.ofNat 1)

/-- The value a compute event of the binding reports, if it is a number. -/
def sample (key : Nat × String) (event : Event) : Option F :=
  if IsCompute key event then FloatArith.parse event.value else none

def samples (key : Nat × String) (events : List Event) : List F :=
  events.filterMap (sample key)

/-- What an event does to the memory of a binding. -/
def remember (key : Nat × String) (memory : Option (Option F)) (event : Event) :
    Option (Option F) :=
  if Registers key event then
    match memory with
    | none => some (sample key event)
    | some recorded =>
      some (recorded.map fun last =>
        (sample key event).elim last (Hysteresis.latch isBusy isIdle last))
  else
    memory

theorem isSharpChange_eq (last current : F) :
    isSharpChange last current = Hysteresis.swings isBusy isIdle last current := by
  rfl

theorem sample_of_isCompute {key : Nat × String} {event : Event} (h : IsCompute key event) :
    (sample key event : Option F) = FloatArith.parse event.value := by
  rw [sample, if_pos h]

theorem sample_of_not_isCompute {key : Nat × String} {event : Event} (h : ¬ IsCompute key event) :
    (sample key event : Option F) = none := by
  rw [sample, if_neg h]

theorem memoryOf_forwardNewBinding {f : Forwarder F} (hf : f.RecordsKnown) {key : Nat × String}
    {event : Event} (hnot : ¬ IsCompute key event)
    (hregisters : Registers key event ↔ event.pid.map (bindingKey event) = some key) :
    (f.forwardNewBinding event).1.memoryOf key = remember key (f.memoryOf key) event := by
  unfold forwardNewBinding remember
  cases hpid : event.pid with
  | none =>
    have hother : ¬ Registers key event := by
      rw [hregisters, hpid]
      simp
    rw [if_neg hother]
  | some pid =>
    rw [hpid, Option.map_some, Option.some.injEq] at hregisters
    dsimp only
    by_cases hkey : bindingKey event pid = key
    · rw [if_pos (hregisters.mpr hkey), sample_of_not_isCompute hnot, hkey]
      by_cases hknown : key ∈ f.forwardedBindings
      · simp [memoryOf, hknown]
      · simp [memoryOf, hknown, lookup_eq_none_of_unknown hf hknown]
    · rw [if_neg (mt hregisters.mp hkey)]
      split_ifs with hknown
      · rfl
      · simp [memoryOf, Ne.symm hkey]

theorem memoryOf_forwardCompute {f : Forwarder F} (hf : f.RecordsKnown) {key : Nat × String}
    {event : Event} (hcompute : IsCompute key event ↔ event.pid.map (bindingKey event) = some key)
    (hregisters : Registers key event ↔ event.pid.map (bindingKey event) = some key) :
    (f.forwardCompute event).1.memoryOf key = remember key (f.memoryOf key) event := by
  unfold forwardCompute remember
  cases hpid : event.pid with
  | none =>
    have hother : ¬ Registers key event := by
      rw [hregisters, hpid]
      simp
    rw [if_neg hother]
  | some pid =>
    rw [hpid, Option.map_some, Option.some.injEq] at hregisters hcompute
    dsimp only
    by_cases hkey : bindingKey event pid = key
    · rw [if_pos (hregisters.mpr hkey), sample_of_isCompute (hcompute.mpr hkey), hkey]
      by_cases hknown : key ∈ f.forwardedBindings
      · rw [if_pos hknown]
        cases hcurrent : (FloatArith.parse event.value : Option F) with
        | none =>
          simp [memoryOf, hknown]
        | some current =>
          cases hlast : f.lastUtilValues.lookup key with
          | none =>
            simp [memoryOf, hknown, hlast]
          | some last =>
            simp only [isSharpChange_eq]
            split_ifs with hsharp
            · simp [memoryOf, hknown, hlast, Hysteresis.latch, hsharp]
            · simp [memoryOf, hknown, hlast, Hysteresis.latch, hsharp]
      · rw [if_neg hknown]
        cases hcurrent : (FloatArith.parse event.value : Option F) with
        | none =>
          simp [memoryOf, hknown, lookup_eq_none_of_unknown hf hknown]
        | some current =>
          simp [memoryOf, hknown]
    · rw [if_neg (mt hregisters.mp hkey)]
      have hother : ∀ value : F,
          (f.lastUtilValues.insert (bindingKey event pid) value).lookup key =
          f.lastUtilValues.lookup key := by
        intro value
        exact AList.lookup_insert_ne (Ne.symm hkey)
      split_ifs with hknown
      · split
        · split_ifs
          · simp [memoryOf, hother]
          · rfl
        · rfl
      · cases (FloatArith.parse event.value : Option F) with
        | none =>
          simp [memoryOf, Ne.symm hkey]
        | some current =>
          simp [memoryOf, Ne.symm hkey, hother]

/-- **One event.** -/
theorem memoryOf_shouldForward {f : Forwarder F} (hf : f.RecordsKnown) (key : Nat × String)
    (event : Event) :
    (f.shouldForward event).1.memoryOf key = remember key (f.memoryOf key) event := by
  unfold shouldForward
  cases hty : event.eventType with
  | computeUtil | computeMem =>
    exact memoryOf_forwardCompute hf (by simp [IsCompute, hty]) (by simp [Registers, hty])
  | storageIops | storageQDepth | transportBw =>
    exact memoryOf_forwardNewBinding hf (by simp [IsCompute, hty]) (by simp [Registers, hty])
  | errorHw | errorNet | processState | transportDrop | topoLinkDown | intentRun | actionExec =>
    simp [remember, Registers, hty]

theorem recordsKnown_forwardCompute {f : Forwarder F} (hf : f.RecordsKnown) (event : Event) :
    (f.forwardCompute event).1.RecordsKnown := by
  unfold forwardCompute
  cases event.pid with
  | none =>
    exact hf
  | some pid =>
    dsimp only
    split_ifs with hknown
    · split
      · split_ifs
        · exact recordsKnown_insert hf (Finset.Subset.refl _) hknown _
        · exact hf
      · exact hf
    · cases (FloatArith.parse event.value : Option F) with
      | none =>
        intro key hsome
        exact Finset.mem_insert_of_mem (hf key hsome)
      | some util =>
        exact recordsKnown_insert hf (Finset.subset_insert _ _)
          (Finset.mem_insert_self _ _) util

theorem recordsKnown_shouldForward {f : Forwarder F} (hf : f.RecordsKnown) (event : Event) :
    (f.shouldForward event).1.RecordsKnown := by
  unfold shouldForward
  cases event.eventType with
  | computeUtil | computeMem => exact recordsKnown_forwardCompute hf event
  | storageIops | storageQDepth | transportBw => exact recordsKnown_forwardNewBinding hf event
  | _ => exact hf

end Memory

section Runs

variable [FloatArith F]

def after (nodeId : String) (events : List Event) : Forwarder F :=
  Run.run (fun f event => (f.shouldForward event).1) (.new nodeId) events

theorem after_concat (nodeId : String) (events : List Event) (event : Event) :
    (after nodeId (events ++ [event]) : Forwarder F) =
      ((after nodeId events : Forwarder F).shouldForward event).1 := by
  exact Run.run_concat _ _ _ _

theorem recordsKnown_after (nodeId : String) (events : List Event) :
    (after nodeId events : Forwarder F).RecordsKnown := by
  refine Run.invariant (I := RecordsKnown) ?_ ?_ events
  · intro f event hf
    exact recordsKnown_shouldForward hf event
  · intro key hsome
    simp [new] at hsome

theorem samples_eq_nil {key : Nat × String} {events : List Event}
    (h : events.find? (fun e => decide (Registers key e)) = none) :
    (samples key events : List F) = [] := by
  rw [samples, List.filterMap_eq_nil_iff]
  intro event hevent
  apply sample_of_not_isCompute
  intro hcompute
  have hnot := List.find?_eq_none.mp h event hevent
  exact hnot (by simpa using hcompute.registers)

/-- **The memory of a binding** is a latch over the reported values, set by the
event that made the binding known. -/
theorem memoryOf_after (nodeId : String) (key : Nat × String) (events : List Event) :
    (after nodeId events : Forwarder F).memoryOf key =
      (events.find? (fun e => decide (Registers key e))).map fun made =>
        (sample key made).map fun util =>
          (samples key events).foldl (Hysteresis.latch isBusy isIdle) util := by
  induction events using List.reverseRecOn with
  | nil =>
    rfl
  | append_singleton events event ih =>
    have hsamples : (samples key (events ++ [event]) : List F) =
        samples key events ++ (sample key event).toList := by
      simp only [samples, List.filterMap_append]
      cases hsample : (sample key event : Option F) <;> simp [hsample]
    rw [after_concat, memoryOf_shouldForward (recordsKnown_after nodeId events), ih,
      List.find?_append, hsamples]
    unfold remember
    cases hmade : events.find? (fun e => decide (Registers key e)) with
    | none =>
      rw [samples_eq_nil hmade]
      by_cases hregisters : Registers key event
      · cases hsample : (sample key event : Option F) with
        | none =>
          simp [hregisters, hsample]
        | some util =>
          simp [hregisters, hsample, Hysteresis.latch]
      · simp [hregisters]
    | some made =>
      by_cases hregisters : Registers key event
      · cases hsample : (sample key event : Option F) with
        | none =>
          simp [hregisters, Function.comp_def]
        | some util =>
          simp [hregisters, Function.comp_def]
      · have hnone : (sample key event : Option F) = none :=
          sample_of_not_isCompute (mt IsCompute.registers hregisters)
        simp [hregisters, hnone]

/-- A utilization report goes to the hub when its binding is new or the value is
on the other side of the recorded one. -/
theorem shouldForward_util_iff (f : Forwarder F) {key : Nat × String} {event : Event}
    (hutil : IsUtil key event) :
    (f.shouldForward event).2 = true ↔
      f.memoryOf key = none ∨
        ∃ current ∈ (FloatArith.parse event.value : Option F),
          ∃ last, f.memoryOf key = some (some last) ∧
            Hysteresis.swings isBusy isIdle last current = true := by
  obtain ⟨pid, hpid, hkey⟩ := Option.map_eq_some_iff.mp hutil.2
  have hcompute : f.shouldForward event = f.forwardCompute event := by
    simp [shouldForward, hutil.1]
  rw [hcompute, forwardCompute_iff f hpid, IsNews, hkey]
  by_cases hknown : key ∈ f.forwardedBindings
  · simp [memoryOf, hknown, isSharpChange_eq]
  · simp [memoryOf, hknown]

variable (F) in
/-- Two consecutive utilization reports of the binding, with other events between
them, whose values lie on different sides. -/
structure Jump (key : Nat × String) (first : Event) (between : List Event) (second : Event) :
    Prop where
  first_util : IsUtil key first
  second_util : IsUtil key second
  consecutive : ∀ event ∈ between, ¬ IsUtil key event
  sides : ∃ v ∈ (FloatArith.parse first.value : Option F),
    ∃ w ∈ (FloatArith.parse second.value : Option F),
      (FloatArith.lt (FloatArith.ofNat 80) v = true ∧ FloatArith.lt w (FloatArith.ofNat 1) = true) ∨
        (FloatArith.lt v (FloatArith.ofNat 1) = true ∧ FloatArith.lt (FloatArith.ofNat 80) w = true)

variable (F) in
/-- The event that made the binding known set the latch beyond a threshold, and
the memory reports between the two utilization reports leave it on the side of
the first one. -/
structure Latched (key : Nat × String) (before : List Event) (first : Event)
    (between : List Event) (second : Event) : Prop where
  set : ∃ made ∈ (before ++ [first]).find? (fun e => decide (Registers key e)),
    ∃ util ∈ (sample key made : Option F), isBusy util = true ∨ isIdle util = true
  undisturbed : ∀ last ∈ Hysteresis.lastExtreme isBusy isIdle (samples key between : List F),
    ∀ w ∈ (FloatArith.parse second.value : Option F),
      (isBusy last = true ∧ isIdle w = true) ∨ (isIdle last = true ∧ isBusy w = true)

variable (F) in
/-- Every jump of the stream goes to the hub. -/
def ShowsJumps (nodeId : String) (key : Nat × String) (events : List Event) : Prop :=
  ∀ before first between second, before ++ first :: (between ++ [second]) <+: events →
    Jump F key first between second →
    ((after nodeId (before ++ first :: between) : Forwarder F).shouldForward second).2 = true

theorem swings_iff {a b : F} :
    Hysteresis.swings isBusy isIdle a b = true ↔
      (isBusy a = true ∧ isIdle b = true) ∨ (isIdle a = true ∧ isBusy b = true) := by
  simp [Hysteresis.swings]

theorem extreme_iff {a : F} :
    Hysteresis.extreme isBusy isIdle a = true ↔ isBusy a = true ∨ isIdle a = true := by
  simp [Hysteresis.extreme]

/-- The last value beyond a threshold up to the second report: one between the two
reports, or the first report itself. -/
theorem lastExtreme_samples_jump {key : Nat × String} (before between : List Event)
    {first : Event} (hfirst : IsUtil key first) {v : F}
    (hv : (FloatArith.parse first.value : Option F) = some v)
    (hextreme : Hysteresis.extreme isBusy isIdle v = true) :
    Hysteresis.lastExtreme isBusy isIdle (samples key (before ++ first :: between) : List F) =
      (Hysteresis.lastExtreme isBusy isIdle (samples key between)).or (some v) := by
  have hsample : (sample key first : Option F) = some v := by
    rw [sample_of_isCompute hfirst.isCompute, hv]
  have hsamples : (samples key (before ++ first :: between) : List F) =
      samples key before ++ [v] ++ samples key between := by
    simp [samples, hsample]
  rw [hsamples, Hysteresis.lastExtreme_append, Hysteresis.lastExtreme_append,
    Hysteresis.lastExtreme_singleton hextreme]
  rfl

theorem latched_iff {key : Nat × String} {before : List Event} {first : Event}
    {between : List Event} {second made : Event}
    (hmade : (before ++ [first]).find? (fun e => decide (Registers key e)) = some made) {w : F}
    (hw : (FloatArith.parse second.value : Option F) = some w) :
    Latched F key before first between second ↔
      ∃ util ∈ (sample key made : Option F), Hysteresis.extreme isBusy isIdle util = true ∧
        ∀ last ∈ Hysteresis.lastExtreme isBusy isIdle (samples key between : List F),
          Hysteresis.swings isBusy isIdle last w = true := by
  simp only [swings_iff, extreme_iff]
  constructor
  · rintro ⟨⟨made', hmade', util, hutil, hset⟩, hundisturbed⟩
    rw [hmade, Option.mem_some_iff] at hmade'
    exact ⟨util, hmade' ▸ hutil, hset, fun last hlast => hundisturbed last hlast w hw⟩
  · rintro ⟨util, hutil, hset, hundisturbed⟩
    refine ⟨⟨made, hmade, util, hutil, hset⟩, ?_⟩
    intro last hlast w' hw'
    rw [hw, Option.mem_some_iff] at hw'
    exact hw' ▸ hundisturbed last hlast

/-- **One jump.** -/
theorem jump_forwarded_iff (hapart : ∀ util : F, ¬(isBusy util = true ∧ isIdle util = true))
    (nodeId : String) {key : Nat × String} (before : List Event) {first : Event}
    {between : List Event} {second : Event} (hjump : Jump F key first between second) :
    ((after nodeId (before ++ first :: between) : Forwarder F).shouldForward second).2 = true ↔
      Latched F key before first between second := by
  obtain ⟨v, hv, w, hw, hsides⟩ := hjump.sides
  have hswings : Hysteresis.swings isBusy isIdle v w = true := swings_iff.mpr hsides
  have hv : (FloatArith.parse first.value : Option F) = some v := hv
  have hw : (FloatArith.parse second.value : Option F) = some w := hw
  -- the first report at the latest has made the binding known
  obtain ⟨made, hmade⟩ : ∃ made,
      (before ++ [first]).find? (fun e => decide (Registers key e)) = some made := by
    rw [← Option.isSome_iff_exists, List.find?_isSome]
    exact ⟨first, by simp, by simpa using hjump.first_util.isCompute.registers⟩
  have hfind : (before ++ first :: between).find? (fun e => decide (Registers key e)) =
      some made := by
    rw [List.append_cons, List.find?_append, hmade]
    rfl
  have hforwarded :
      ((after nodeId (before ++ first :: between) : Forwarder F).shouldForward second).2 = true ↔
        ∃ util ∈ (sample key made : Option F),
          Hysteresis.swings isBusy isIdle ((samples key (before ++ first :: between)).foldl
            (Hysteresis.latch isBusy isIdle) util) w = true := by
    rw [shouldForward_util_iff _ hjump.second_util, memoryOf_after, hfind, hw]
    simp
  rw [hforwarded, latched_iff hmade hw]
  simp only [Hysteresis.swings_foldl_latch_iff hapart, lastExtreme_samples_jump before between
    hjump.first_util hv (Hysteresis.extreme_of_swings hswings).1]
  -- without a memory report between them the first report is the last extreme value
  cases Hysteresis.lastExtreme isBusy isIdle (samples key between : List F) with
  | none =>
    simp [hswings]
  | some last =>
    simp

end Runs

open Binary64 in
theorem not_busy_and_idle (util : Binary64) : ¬(isBusy util = true ∧ isIdle util = true) := by
  have h80 : (FloatArith.ofNat 80 : Binary64) = .fin false (80 * 2 ^ 46) (-46) := by
    decide +kernel
  have h1 : (FloatArith.ofNat 1 : Binary64) = .fin false (2 ^ 52) (-52) := by
    decide +kernel
  have hf80 : fraction (80 * 2 ^ 46) (-46) = (80 * 2 ^ 46, 2 ^ 46) := by
    decide +kernel
  have hf1 : fraction (2 ^ 52) (-52) = (2 ^ 52, 2 ^ 52) := by
    decide +kernel
  rw [isBusy, isIdle, h80, h1]
  rintro ⟨hbusy, hidle⟩
  cases util with
  | nan =>
    cases hbusy
  | inf neg =>
    cases neg with
    | false => cases hidle
    | true => cases hbusy
  | fin neg mant exp =>
    change Binary64.lt _ _ = true at hbusy hidle
    simp only [Binary64.lt, hf80, hf1] at hbusy hidle
    cases hneg : isNeg neg mant with
    | true =>
      rw [hneg] at hbusy
      cases hbusy
    | false =>
      rw [hneg] at hbusy hidle
      have hbusy : 80 * 2 ^ 46 * (fraction mant exp).2 < (fraction mant exp).1 * 2 ^ 46 := by
        simpa [isNeg] using hbusy
      have hidle : (fraction mant exp).1 * 2 ^ 52 < 2 ^ 52 * (fraction mant exp).2 := by
        simpa [isNeg] using hidle
      omega

/-- **Which jumps the roll-up shows.**  For every stream of events and every binding,
each jump between two consecutive utilization reports goes to the hub if and only
if the latch of the binding is on the side of the first report at each of
them. -/
theorem rollup_showsJumps_iff (nodeId : String) (key : Nat × String) (events : List Event) :
    ShowsJumps Binary64 nodeId key events ↔
      ∀ before first between second, before ++ first :: (between ++ [second]) <+: events →
        Jump Binary64 key first between second →
        Latched Binary64 key before first between second := by
  constructor
  · intro h before first between second hpart hjump
    exact (jump_forwarded_iff not_busy_and_idle nodeId before hjump).mp
      (h before first between second hpart hjump)
  · intro h before first between second hpart hjump
    exact (jump_forwarded_iff not_busy_and_idle nodeId before hjump).mpr
      (h before first between second hpart hjump)

/-- **A collapse is hidden.**  The first report sets the latch between the
thresholds; it never moves again, and the collapse from 95 to 0 is withheld. -/
theorem rollup_showsJumps_warmStart :
    let warm : Event := ⟨1000, .computeUtil, "gpu-0", none, some 7, "50", none⟩
    let busy : Event := ⟨2000, .computeUtil, "gpu-0", none, some 7, "95", none⟩
    let idle : Event := ⟨3000, .computeUtil, "gpu-0", none, some 7, "0", none⟩
    Jump Binary64 (7, "gpu-0") busy [] idle ∧
    ((after "node-a" [warm, busy] : Forwarder Binary64).shouldForward idle).2 = false ∧
    ¬ ShowsJumps Binary64 "node-a" (7, "gpu-0") [warm, busy, idle] := by
  intro warm busy idle
  have hjump : Jump Binary64 (7, "gpu-0") busy [] idle :=
    ⟨by decide, by decide, by decide, by decide +kernel⟩
  have hwithheld :
      ((after "node-a" [warm, busy] : Forwarder Binary64).shouldForward idle).2 = false := by
    decide +kernel
  refine ⟨hjump, hwithheld, ?_⟩
  intro hshows
  have hshown := hshows [warm] busy [] idle (List.prefix_refl _) hjump
  change ((after "node-a" [warm, busy] : Forwarder Binary64).shouldForward idle).2 = true at hshown
  rw [hwithheld] at hshown
  cases hshown

end Forwarder

end ArkInfra
