import ArkInfra.Core.EdgeLife
import ArkInfra.Lib.Interleave

/-!
# Concurrent calls of `process_event`

The hub processes the events of every connection in a task of its own, and all
tasks share one graph.  A call of `process_event` takes the locks of the graph
section by section: the handler, the reading of the time of the last cleanup,
the scan of the cleanup under the read lock, its removal under the write locks,
the writing of the cleanup time, and the signal update.  Run without
interruption the sections are the sequential `applyEvent` (`run_alone`).

Between the scan and the removal of one call the handlers of others run.  The
removal does not look at the nodes again: a process that was started anew, or
an entry that was created anew under a listed id, is deleted all the same.
`deletesOnlyExpired` proves that nothing else goes wrong: as long as no section
changes a node that a pending removal has listed, every node that is deleted
has expired at that moment.
-/

namespace ArkInfra

inductive EventSection where
  | handler
  | readCleanupTs
  | scan
  | remove (errorIds deadPids : Finset String)
  | writeCleanupTs
  | signals
  | returned
deriving DecidableEq

/-- A call of `process_event` in progress. -/
structure EventCall where
  event : Event
  next : EventSection
deriving DecidableEq

namespace EventCall

def enter (event : Event) : EventCall where
  event := event
  next := .handler

/-- The ids that the call is about to remove. -/
def listed (c : EventCall) : Finset String :=
  match c.next with
  | .remove errorIds deadPids => errorIds ∪ deadPids
  | _ => ∅

end EventCall

namespace NodeWrite

/-- The write changes nothing: it mentions a node that is there, or updates one that is
not. -/
def Idle (w : NodeWrite) (old : Option Node) : Prop :=
  match w with
  | .ensure _ => old.isSome = true
  | .insert _ => False
  | .touch _ _ _ _ => old.isNone = true

instance (w : NodeWrite) (old : Option Node) : Decidable (w.Idle old) :=
  match w with
  | .ensure _ => inferInstanceAs (Decidable (_ = true))
  | .insert _ => inferInstanceAs (Decidable False)
  | .touch _ _ _ _ => inferInstanceAs (Decidable (_ = true))

theorem effect_of_idle {w : NodeWrite} {old : Option Node} (h : w.Idle old) :
    w.effect old = old := by
  cases w with
  | ensure node =>
    obtain ⟨found, rfl⟩ := Option.isSome_iff_exists.mp h
    rfl
  | insert node =>
    exact h.elim
  | touch id key value ts =>
    obtain rfl := Option.isNone_iff_eq_none.mp h
    rfl

theorem effectAt_of_idle {id : String} {ws : List NodeWrite} {old : Option Node}
    (h : ∀ w ∈ ws, w.target = id → w.Idle old) : effectAt id ws old = old := by
  refine effectAt_induction (P := fun o => o = old) ?_ rfl
  rintro w hw htarget o rfl
  exact effect_of_idle (h w hw htarget)

end NodeWrite

namespace StateGraph

variable {F : Type}

theorem lookup_removeExpired (g : StateGraph F) (ts : Nat) (errorIds deadPids : Finset String)
    (id : String) :
    (g.removeExpired ts errorIds deadPids).nodes.lookup id =
      if id ∈ errorIds ∪ deadPids then none else g.nodes.lookup id := by
  simp only [removeExpired, HashMap.lookup_removeAll, Finset.mem_union]
  by_cases herror : id ∈ errorIds
  · simp [herror]
  · simp [herror]

section Sections

variable [FloatArith F]

/-- Run the next section of a call. -/
def runSection (g : StateGraph F) (c : EventCall) (_ : Unit) : StateGraph F × EventCall :=
  match c.next with
  | .handler => (g.handle c.event, { c with next := .readCleanupTs })
  | .readCleanupTs =>
    (g, { c with next := if g.shouldCleanup c.event.ts then .scan else .signals })
  | .scan =>
    let found := g.scanExpired c.event.ts
    (g, { c with next := .remove found.1 found.2 })
  | .remove errorIds deadPids =>
    (g.removeExpired c.event.ts errorIds deadPids, { c with next := .writeCleanupTs })
  | .writeCleanupTs => ({ g with lastCleanupTs := c.event.ts }, { c with next := .signals })
  | .signals => (g.updateSignals c.event, { c with next := .returned })
  | .returned => (g, c)

/-- The node writes of the next section of a call. -/
def sectionWrites (g : StateGraph F) (c : EventCall) : List NodeWrite :=
  match c.next with
  | .handler => nodeWrites F c.event
  | .signals => signalWrites g.signals c.event
  | _ => []

@[simp] theorem runSection_errorWindowMs (g : StateGraph F) (c : EventCall) (env : Unit) :
    (g.runSection c env).1.errorWindowMs = g.errorWindowMs := by
  unfold runSection
  cases c.next with
  | handler => exact handle_errorWindowMs g c.event
  | readCleanupTs | scan | writeCleanupTs | signals | returned => rfl
  | remove errorIds deadPids => rfl

/-- A section changes an entry only by a write to it that is not idle, or by removing
it. -/
theorem lookup_runSection {g : StateGraph F} {c : EventCall} (env : Unit) {id : String}
    (hspare : ∀ w ∈ g.sectionWrites c, w.target = id → w.Idle (g.nodes.lookup id)) :
    (g.runSection c env).1.nodes.lookup id = g.nodes.lookup id ∨
      (g.runSection c env).1.nodes.lookup id = none := by
  unfold runSection
  unfold sectionWrites at hspare
  cases hnext : c.next with
  | handler =>
    left
    simp only [hnext] at hspare
    change (g.handle c.event).nodes.lookup id = _
    rw [lookup_handle]
    exact NodeWrite.effectAt_of_idle hspare
  | signals =>
    left
    simp only [hnext] at hspare
    change (g.updateSignals c.event).nodes.lookup id = _
    rw [lookup_updateSignals]
    exact NodeWrite.effectAt_of_idle hspare
  | remove errorIds deadPids =>
    change (g.removeExpired c.event.ts errorIds deadPids).nodes.lookup id = _ ∨
      (g.removeExpired c.event.ts errorIds deadPids).nodes.lookup id = none
    rw [lookup_removeExpired]
    split_ifs
    · exact Or.inr rfl
    · exact Or.inl rfl
  | readCleanupTs | scan | writeCleanupTs | returned =>
    exact Or.inl rfl

end Sections

end StateGraph

abbrev EventPool (F : Type) := Pool (StateGraph F) EventCall

/-- A call starts, or a call runs its next section. -/
abbrev EventAction := Pool.Action Event Unit

namespace EventPool

open StateGraph

variable {F : Type}

/-- At this moment the node is one that the cleanup at time `ts` is meant for:
a process that has ended or is stale and not running, or an error outside the
window. -/
def Removable (errorWindowMs ts : Nat) (node : Node) : Prop :=
  (node.nodeType = .process →
    node.metadata.lookup "state" = some "exit" ∨ node.metadata.lookup "state" = some "zombie" ∨
      (node.lastUpdate < ts - processTtlMs ∧ node.metadata.lookup "state" ≠ some "running")) ∧
  (node.nodeType = .error → node.lastUpdate < ts - errorWindowMs)

instance (errorWindowMs ts : Nat) (node : Node) : Decidable (Removable errorWindowMs ts node) :=
  inferInstanceAs (Decidable ((_ → _ ∨ _ ∨ _) ∧ (_ → _)))

theorem removable_of_isExpired {g : StateGraph F} {ts : Nat} {node : Node}
    (h : g.isExpired ts node = true) : Removable g.errorWindowMs ts node := by
  simp only [isExpired, isExpiredError, isDeadProcess, Bool.or_eq_true, Bool.and_eq_true,
    decide_eq_true_eq] at h
  rcases h with ⟨hty, hold⟩ | hdead
  · refine ⟨?_, fun _ => hold⟩
    intro hprocess
    rw [hty] at hprocess
    cases hprocess
  · split_ifs at hdead with hty
    refine ⟨?_, ?_⟩
    · intro _
      simpa [or_assoc] using hdead
    · intro herror
      exact absurd (by rw [herror]; simp) hty

/-- What a call has listed for removal is expired, as far as it is present. -/
def ListsExpired (errorWindowMs : Nat) (g : StateGraph F) (c : EventCall) : Prop :=
  ∀ id ∈ c.listed, ∀ node ∈ g.nodes.lookup id, Removable errorWindowMs c.event.ts node

theorem listsExpired_scan (g : StateGraph F) (c : EventCall) :
    ListsExpired g.errorWindowMs g
      { c with next := .remove (g.scanExpired c.event.ts).1 (g.scanExpired c.event.ts).2 } := by
  intro id hid node hnode
  obtain ⟨other, hother, hexp⟩ := isExpired_of_mem_scanExpired (Finset.mem_union.mp hid)
  obtain rfl := Option.mem_unique hnode hother
  exact removable_of_isExpired hexp

variable [FloatArith F]

def start (g : StateGraph F) : EventPool F where
  shared := g
  calls := []

def step (p : EventPool F) (action : EventAction) : EventPool F :=
  Pool.step EventCall.enter runSection p action

/-- The sections of one call, run without interruption, are the sequential
processing of its event. -/
theorem run_alone (g : StateGraph F) (event : Event) :
    (Run.run step (start g) (.call event :: List.replicate 6 (.advance 0 ()))).shared =
      g.applyEvent event := by
  unfold applyEvent periodicCleanup
  by_cases hdue : g.shouldCleanup event.ts = true
  · simp [Run.run, List.replicate, step, Pool.step, start, EventCall.enter, runSection, hdue,
      cleanupOldErrors]
  · simp [Run.run, List.replicate, step, Pool.step, start, EventCall.enter, runSection, hdue]

/-- If the action is a removal, every node that it deletes is removable when it
is deleted. -/
def DeletesOnlyExpired (p : EventPool F) (action : EventAction) : Prop :=
  ∀ (i : Nat) c errorIds deadPids, action = .advance i () → p.calls[i]? = some c →
    c.next = .remove errorIds deadPids →
    ∀ id node, p.shared.nodes.lookup id = some node →
      (p.step action).shared.nodes.lookup id = none →
      Removable p.shared.errorWindowMs c.event.ts node

/-- The section that runs next changes no node that a call has listed for removal: its
writes to these ids are idle. -/
def Undisturbed (p : EventPool F) (action : EventAction) : Prop :=
  match action with
  | .call _ => True
  | .advance i _ =>
    ∀ c ∈ p.calls[i]?, ∀ d ∈ p.calls, ∀ w ∈ p.shared.sectionWrites c, w.target ∈ d.listed →
      w.Idle (p.shared.nodes.lookup w.target)

instance (p : EventPool F) (action : EventAction) : Decidable (p.Undisturbed action) :=
  match action with
  | .call _ => isTrue trivial
  | .advance i _ =>
    inferInstanceAs (Decidable (∀ c ∈ p.calls[i]?, ∀ d ∈ p.calls, ∀ w ∈ _, _))

theorem listsExpired_self {g : StateGraph F} (c : EventCall) (env : Unit) :
    ListsExpired g.errorWindowMs (g.runSection c env).1 (g.runSection c env).2 := by
  cases hnext : c.next with
  | scan =>
    have hscan := listsExpired_scan g c
    simpa only [runSection, hnext] using hscan
  | readCleanupTs =>
    intro id hid
    by_cases hdue : g.shouldCleanup c.event.ts = true
    · simp [runSection, hnext, hdue, EventCall.listed] at hid
    · simp [runSection, hnext, hdue, EventCall.listed] at hid
  | handler | writeCleanupTs | signals | returned =>
    intro id hid
    simp [runSection, hnext, EventCall.listed] at hid
  | remove errorIds deadPids =>
    intro id hid
    simp [runSection, hnext, EventCall.listed] at hid

/-- A section that changes no listed node leaves the list of another call expired. -/
theorem listsExpired_other {w : Nat} {g : StateGraph F} {c d : EventCall} {env : Unit}
    (hspare : ∀ v ∈ g.sectionWrites c, v.target ∈ d.listed → v.Idle (g.nodes.lookup v.target))
    (hd : ListsExpired w g d) : ListsExpired w (g.runSection c env).1 d := by
  intro id hid node hnode
  have hkept : ∀ v ∈ g.sectionWrites c, v.target = id → v.Idle (g.nodes.lookup id) := by
    rintro v hv rfl
    exact hspare v hv hid
  rcases lookup_runSection env hkept with hsame | hgone
  · rw [hsame] at hnode
    exact hd id hid node hnode
  · rw [hgone] at hnode
    cases hnode

/-- **Cleanups delete only what has expired.**  For every graph, every set of
concurrent calls and every interleaving of their sections in which no section
changes a node that a call has listed for removal: whenever a removal deletes
a node, the node is removable at that moment. -/
theorem deletesOnlyExpired (g : StateGraph F) (actions : List EventAction)
    (h : Run.Meets step Undisturbed (start g) actions) :
    ∀ seen action rest, actions = seen ++ action :: rest →
      DeletesOnlyExpired (Run.run step (start g) seen) action := by
  rintro seen action rest rfl i c errorIds deadPids rfl hc hnext id node hnode hgone
  have hseen := (Run.meets_append.mp h).1
  have hholds : Pool.Holds (fun s : StateGraph F => s.errorWindowMs = g.errorWindowMs)
      (ListsExpired g.errorWindowMs) (Run.run step (start g) seen) := by
    refine Pool.invariant_of_meets ?_ ?_ ?_ ?_ hseen
    · intro s event _ id hid
      simp [EventCall.listed, EventCall.enter] at hid
    · intro s c env hs _
      have hself := listsExpired_self (g := s) c env
      rw [hs] at hself
      exact ⟨by simpa using hs, hself⟩
    · intro p i j c d env hcond hc hd _ hp
      exact listsExpired_other (hcond c hc d (List.mem_of_getElem? hd)) (hp.calls j d hd)
    · refine ⟨rfl, ?_⟩
      intro j d hd
      simp [start] at hd
  rw [hholds.shared]
  refine hholds.calls i c hc id ?_ node hnode
  have hstep : ((Run.run step (start g) seen).step (.advance i ())).shared =
      (Run.run step (start g) seen).shared.removeExpired c.event.ts errorIds deadPids := by
    change (Pool.step EventCall.enter runSection _ _).shared = _
    rw [Pool.step_advance hc]
    simp only [runSection, hnext]
  rw [hstep, lookup_removeExpired] at hgone
  split_ifs at hgone with hlisted
  · simpa [EventCall.listed, hnext] using hlisted
  · rw [hnode] at hgone
    cases hgone

/-- Between the scan and the removal of the exited process another call starts a second
one, and a third call reports on the exited one, whose node it leaves alone: the
process is removed, and rightly so. -/
theorem deletesOnlyExpired_otherProcess :
    let first : Event := ⟨1000, .processState, "proc", none, some 7, "start", none⟩
    let last : Event := ⟨32000, .processState, "proc", none, some 7, "exit", none⟩
    let other : Event := ⟨32001, .processState, "proc", none, some 8, "start", none⟩
    let late : Event := ⟨32002, .computeUtil, "gpu-0", none, some 7, "95", none⟩
    let g : StateGraph Binary64 := after [first]
    let seen : List EventAction :=
      [.call last, .advance 0 (), .advance 0 (), .advance 0 (), .call other, .advance 1 (),
        .call late, .advance 2 ()]
    (Run.run step (start g) seen).DeletesOnlyExpired (.advance 0 ()) ∧
    ((Run.run step (start g) seen).shared.nodes.lookup "pid-7").isSome = true ∧
    ((Run.run step (start g) (seen ++ [.advance 0 ()])).shared.nodes.lookup "pid-7") = none := by
  refine ⟨deletesOnlyExpired _ _ ?_ _ _ [] rfl, by decide, by decide⟩
  decide +kernel

/-- **A restarted process is deleted.**  The exit of pid 7 triggers a cleanup
whose scan lists the process; before the removal another task handles its new
start, and the removal deletes the running process. -/
theorem deletesOnlyExpired_restartedProcess :
    let first : Event := ⟨1000, .processState, "proc", none, some 7, "start", none⟩
    let last : Event := ⟨32000, .processState, "proc", none, some 7, "exit", none⟩
    let again : Event := ⟨32001, .processState, "proc", none, some 7, "start", none⟩
    let g : StateGraph Binary64 := after [first]
    let seen : List EventAction :=
      [.call last, .advance 0 (), .advance 0 (), .advance 0 (), .call again, .advance 1 ()]
    let p : EventPool Binary64 := Run.run step (start g) seen
    p.shared.Running "pid-7" ∧
    (p.step (.advance 0 ())).shared.nodes.lookup "pid-7" = none ∧
    ¬ p.DeletesOnlyExpired (.advance 0 ()) := by
  refine ⟨by decide, by decide, ?_⟩
  intro honly
  have hremovable := honly 0 _ _ _ rfl rfl rfl "pid-7" _ rfl (by decide)
  revert hremovable
  decide

end EventPool

end ArkInfra
