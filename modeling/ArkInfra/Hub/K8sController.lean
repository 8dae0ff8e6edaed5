import ArkInfra.Core.Event
import ArkInfra.Lib.HashMap
import ArkInfra.Lib.Interleave
import ArkInfra.Lib.Text
import Mathlib.Tactic.SplitIfs

/-!
# The Kubernetes controller

`hub/src/k8s_controller.rs`: when an event reports an irreversible fault, the
hub spawns a task that isolates the node, that is, taints it and evicts its
pods.  A node that was isolated a short time ago is left alone: the controller
keeps the time of the last isolation of every node and skips a fault inside the
cooldown.

A call of `handle_irreversible_fault` runs in four sections: the check of the
cooldown under the read lock, the taint, the eviction, and the recording of the
time under the write lock.  Every section reads the clock, which any amount of
time may advance between two sections.  Since the time is recorded last, calls
that overlap all pass the check.  `isolations_spaced` proves that the cooldown
holds as long as no fault of a node is checked while another call is between
its check and its record for the same node.
-/

namespace ArkInfra

/-- The irreversible faults. -/
inductive IrreversibleFault where
  | persistentXidError (nodeId gpuId xidCode : String)
  | rdmaLinkDown (nodeId interface : String)
  | storageDeviceFailure (nodeId device : String)
  | otherHardwareFailure (nodeId reason : String)
deriving DecidableEq, Repr

def IrreversibleFault.nodeId : IrreversibleFault → String
  | .persistentXidError nodeId _ _ => nodeId
  | .rdmaLinkDown nodeId _ => nodeId
  | .storageDeviceFailure nodeId _ => nodeId
  | .otherHardwareFailure nodeId _ => nodeId

/-- The fault an event reports, if it is an irreversible one. -/
def detectIrreversibleFault (event : Event) : Option IrreversibleFault :=
  let nodeId := event.nodeId.getD "unknown"
  match event.eventType with
  | .errorHw =>
    if Text.contains event.value "XID" || Text.contains event.value "xid" then
      some (.persistentXidError nodeId event.entityId event.value)
    else
      some (.otherHardwareFailure nodeId (event.entityId ++ ": " ++ event.value))
  | .errorNet =>
    if Text.contains event.value "link_down" || Text.contains event.value "LINK_DOWN" then
      some (.rdmaLinkDown nodeId event.entityId)
    else
      none
  | .topoLinkDown =>
    some (.otherHardwareFailure nodeId
      ("Topology link down: " ++ event.entityId ++ " - " ++ event.value))
  | _ => none

/-- The controller and what surrounds it: the monotonic clock, in
milliseconds, and the isolations that were carried out, each with the time at
which its taint started. -/
structure K8sController where
  processedNodes : HashMap String Nat
  cooldownDuration : Nat
  enabled : Bool
  now : Nat
  isolations : List (String × Nat)

inductive FaultSection where
  | checkCooldown
  | taintNode
  | evictPods
  | recordTime
  | returned
deriving DecidableEq, Repr

/-- A call of `handle_irreversible_fault` in progress. -/
structure FaultCall where
  fault : IrreversibleFault
  next : FaultSection
deriving DecidableEq, Repr

/-- How much time has passed since the previous section of any call, and
whether the Kubernetes API accepts the request of this one. -/
structure ApiAnswer where
  elapsed : Nat
  ok : Bool
deriving DecidableEq, Repr

namespace FaultCall

def enter (fault : IrreversibleFault) : FaultCall where
  fault := fault
  next := .checkCooldown

def nodeId (c : FaultCall) : String :=
  c.fault.nodeId

/-- The call has passed its check and not yet recorded its time. -/
def Busy (c : FaultCall) : Prop :=
  c.next = .taintNode ∨ c.next = .evictPods ∨ c.next = .recordTime

/-- The call has tainted its node and not yet recorded its time. -/
def Isolating (c : FaultCall) : Prop :=
  c.next = .evictPods ∨ c.next = .recordTime

instance : DecidablePred Busy :=
  fun _ => inferInstanceAs (Decidable (_ ∨ _ ∨ _))

theorem Isolating.busy {c : FaultCall} (h : c.Isolating) : c.Busy := by
  exact Or.inr h

end FaultCall

namespace K8sController

def new (enabled : Bool) (cooldownDuration now : Nat) : K8sController where
  processedNodes := ∅
  cooldownDuration := cooldownDuration
  enabled := enabled
  now := now
  isolations := []

/-- The node was processed less than the cooldown ago. -/
def inCooldown (s : K8sController) (nodeId : String) : Bool :=
  match s.processedNodes.lookup nodeId with
  | some lastTime => decide (s.now - lastTime < s.cooldownDuration)
  | none => false

def tick (s : K8sController) (elapsed : Nat) : K8sController :=
  { s with now := s.now + elapsed }

/-- Run the next section of a call.  A failed taint ends the call with an error
and records nothing; a failed eviction is only logged. -/
def runSection (s : K8sController) (c : FaultCall) (api : ApiAnswer) :
    K8sController × FaultCall :=
  let s := s.tick api.elapsed
  match c.next with
  | .checkCooldown =>
    if !s.enabled then (s, { c with next := .returned })
    else if s.inCooldown c.nodeId then (s, { c with next := .returned })
    else (s, { c with next := .taintNode })
  | .taintNode =>
    if api.ok then
      ({ s with isolations := s.isolations ++ [(c.nodeId, s.now)] },
        { c with next := .evictPods })
    else
      (s, { c with next := .returned })
  | .evictPods => (s, { c with next := .recordTime })
  | .recordTime =>
    ({ s with processedNodes := s.processedNodes.insert c.nodeId s.now },
      { c with next := .returned })
  | .returned => (s, c)

/-- The ways a section can go, after the time that has passed before it. -/
inductive SectionOf (s : K8sController) (c : FaultCall) : K8sController → FaultCall → Prop
  | skip (hidle : ¬ c.Isolating) : SectionOf s c s { c with next := .returned }
  | pass (hcheck : c.next = .checkCooldown)
      (hcool : ∀ lastTime ∈ s.processedNodes.lookup c.nodeId,
        s.cooldownDuration ≤ s.now - lastTime) :
      SectionOf s c s { c with next := .taintNode }
  | taint (htaint : c.next = .taintNode) :
      SectionOf s c { s with isolations := s.isolations ++ [(c.nodeId, s.now)] }
        { c with next := .evictPods }
  | evict (hevict : c.next = .evictPods) : SectionOf s c s { c with next := .recordTime }
  | record (hrecord : c.next = .recordTime) :
      SectionOf s c { s with processedNodes := s.processedNodes.insert c.nodeId s.now }
        { c with next := .returned }

/-- **What a section can do.** -/
theorem sectionOf_runSection (s : K8sController) (c : FaultCall) (api : ApiAnswer) :
    SectionOf (s.tick api.elapsed) c (s.runSection c api).1 (s.runSection c api).2 := by
  unfold runSection
  cases hnext : c.next with
  | checkCooldown =>
    have hidle : ¬ c.Isolating := by
      simp [FaultCall.Isolating, hnext]
    simp only
    split_ifs with henabled hcool
    · exact .skip hidle
    · exact .skip hidle
    · refine .pass hnext ?_
      intro lastTime hlast
      have hlast' : (s.tick api.elapsed).processedNodes.lookup c.nodeId = some lastTime := hlast
      simp only [inCooldown, hlast', decide_eq_true_eq] at hcool
      exact Nat.le_of_not_lt hcool
  | taintNode =>
    simp only
    split_ifs
    · exact .taint hnext
    · exact .skip (by simp [FaultCall.Isolating, hnext])
  | evictPods =>
    exact .evict hnext
  | recordTime =>
    exact .record hnext
  | returned =>
    have hself : { c with next := .returned } = c := by
      rw [← hnext]
    have hskip := SectionOf.skip (s := s.tick api.elapsed) (c := c)
      (by simp [FaultCall.Isolating, hnext])
    rwa [hself] at hskip

theorem SectionOf.nodeId {s s' : K8sController} {c c' : FaultCall} (h : SectionOf s c s' c') :
    c'.nodeId = c.nodeId := by
  cases h <;> rfl

theorem SectionOf.busy {s s' : K8sController} {c c' : FaultCall} (h : SectionOf s c s' c')
    (hbusy : c'.Busy) : c.Busy ∨ c.next = .checkCooldown := by
  cases h with
  | skip hidle =>
    simp [FaultCall.Busy] at hbusy
  | pass hcheck hcool =>
    exact Or.inr hcheck
  | taint htaint =>
    exact Or.inl (Or.inl htaint)
  | evict hevict =>
    exact Or.inl (Or.inr (Or.inl hevict))
  | record hrecord =>
    simp [FaultCall.Busy] at hbusy

end K8sController

/-- The controller with the calls that work on it. -/
abbrev ControllerPool := Pool K8sController FaultCall

abbrev ControllerAction := Pool.Action IrreversibleFault ApiAnswer

namespace ControllerPool

open K8sController

def start (enabled : Bool) (cooldownDuration now : Nat) : ControllerPool where
  shared := .new enabled cooldownDuration now
  calls := []

def step (p : ControllerPool) (action : ControllerAction) : ControllerPool :=
  Pool.step FaultCall.enter runSection p action

/-- Two isolations of one node start at least the cooldown apart. -/
def Spaced (cooldown : Nat) (isolations : List (String × Nat)) : Prop :=
  isolations.Pairwise (fun x y => x.1 = y.1 → x.2 + cooldown ≤ y.2)

instance (cooldown : Nat) (isolations : List (String × Nat)) :
    Decidable (Spaced cooldown isolations) :=
  inferInstanceAs (Decidable (isolations.Pairwise _))

/-- A fault is checked only while no other call for its node is between its
check and its record. -/
def NoOverlap (p : ControllerPool) (action : ControllerAction) : Prop :=
  match action with
  | .call _ => True
  | .advance i _ =>
    ∀ c ∈ p.calls[i]?, c.next = .checkCooldown →
      ∀ d ∈ p.calls, d.Busy → d.nodeId ≠ c.nodeId

instance (p : ControllerPool) (action : ControllerAction) : Decidable (p.NoOverlap action) :=
  match action with
  | .call _ => isTrue trivial
  | .advance i _ =>
    inferInstanceAs (Decidable (∀ c ∈ p.calls[i]?, _ → ∀ d ∈ p.calls, _ → _))

/-- Some call has tainted the node and will record the time. -/
def Isolated (calls : List FaultCall) (nodeId : String) : Prop :=
  ∃ d ∈ calls, d.Isolating ∧ d.nodeId = nodeId

theorem isolated_set {calls : List FaultCall} {i : Nat} {c c' : FaultCall} {nodeId : String}
    (hc : calls[i]? = some c) (h : Isolated calls nodeId)
    (hkeep : c.Isolating → c.nodeId = nodeId → c'.Isolating ∧ c'.nodeId = nodeId) :
    Isolated (calls.set i c') nodeId := by
  obtain ⟨d, hd, hiso, hnode⟩ := h
  obtain ⟨j, hj⟩ := List.getElem?_of_mem hd
  by_cases hji : j = i
  · subst hji
    obtain rfl : c = d := by simpa [hc] using hj
    refine ⟨c', ?_, hkeep hiso hnode⟩
    have hlt : j < calls.length := (List.getElem?_eq_some_iff.mp hc).1
    exact List.mem_set hlt c'
  · refine ⟨d, ?_, hiso, hnode⟩
    have hset : (calls.set i c')[j]? = some d := by
      rw [List.getElem?_set_ne (Ne.symm hji), hj]
    exact List.mem_of_getElem? hset

/-- What holds between the sections: every isolation is recorded or has a call
that will record it, and a call that is about to taint its node may do so. -/
structure Inv (cooldown : Nat) (p : ControllerPool) : Prop where
  cooldown_eq : p.shared.cooldownDuration = cooldown
  started : ∀ x ∈ p.shared.isolations, x.2 ≤ p.shared.now
  accounted : ∀ x ∈ p.shared.isolations,
    (∃ r ∈ p.shared.processedNodes.lookup x.1, x.2 ≤ r) ∨ Isolated p.calls x.1
  ready : ∀ (j : Nat) d, p.calls[j]? = some d → d.next = .taintNode →
    ∀ x ∈ p.shared.isolations, x.1 = d.nodeId → x.2 + cooldown ≤ p.shared.now
  exclusive : p.Exclusive FaultCall.nodeId FaultCall.Busy
  spaced : Spaced cooldown p.shared.isolations

theorem inv_start (enabled : Bool) (cooldown now : Nat) :
    Inv cooldown (start enabled cooldown now) where
  cooldown_eq := rfl
  started := by simp [start, K8sController.new]
  accounted := by simp [start, K8sController.new]
  ready := by simp [start]
  exclusive := by simp [start, Pool.Exclusive]
  spaced := List.Pairwise.nil

theorem Inv.tick {cooldown : Nat} {p : ControllerPool} (h : Inv cooldown p) (elapsed : Nat) :
    Inv cooldown { p with shared := p.shared.tick elapsed } where
  cooldown_eq := h.cooldown_eq
  started := by
    intro x hx
    exact Nat.le_add_right_of_le (h.started x hx)
  accounted := h.accounted
  ready := by
    intro j d hd hnext x hx hnode
    exact Nat.le_add_right_of_le (h.ready j d hd hnext x hx hnode)
  exclusive := h.exclusive
  spaced := h.spaced

theorem Inv.call {cooldown : Nat} {p : ControllerPool} (h : Inv cooldown p)
    (fault : IrreversibleFault)
    (hexclusive : (p.step (.call fault)).Exclusive FaultCall.nodeId FaultCall.Busy) :
    Inv cooldown (p.step (.call fault)) where
  cooldown_eq := h.cooldown_eq
  started := h.started
  accounted := by
    intro x hx
    refine (h.accounted x hx).imp id ?_
    rintro ⟨d, hd, hiso⟩
    exact ⟨d, List.mem_append_left _ hd, hiso⟩
  ready := by
    intro j d hd hnext
    rcases Pool.getElem?_concat_cases hd with ⟨_, rfl⟩ | hd'
    · cases hnext
    · exact h.ready j d hd' hnext
  exclusive := hexclusive
  spaced := h.spaced

/-- A section that isolates nothing and after which its call is not about to
taint keeps the invariant, if the call keeps what it has to record. -/
theorem Inv.quiet {cooldown : Nat} {p : ControllerPool} (h : Inv cooldown p) {i : Nat}
    {c c' : FaultCall} (hc : p.calls[i]? = some c) (hnext : c'.next ≠ .taintNode)
    (hkeep : ∀ nodeId, c.Isolating → c.nodeId = nodeId → c'.Isolating ∧ c'.nodeId = nodeId)
    (hexclusive : Pool.Exclusive FaultCall.nodeId FaultCall.Busy
      { p with calls := p.calls.set i c' }) :
    Inv cooldown { p with calls := p.calls.set i c' } where
  cooldown_eq := h.cooldown_eq
  started := h.started
  accounted := by
    intro x hx
    refine (h.accounted x hx).imp id ?_
    intro hisolated
    exact isolated_set hc hisolated (hkeep x.1)
  ready := by
    intro j d hd hd'
    rcases Pool.getElem?_set_cases hd with ⟨_, rfl⟩ | ⟨_, hold⟩
    · exact absurd hd' hnext
    · exact h.ready j d hold hd'
  exclusive := hexclusive
  spaced := h.spaced

/-- A call that passes its check may taint its node: the last isolation of the
node has been recorded, and the check has seen the record. -/
theorem Inv.pass {cooldown : Nat} {p : ControllerPool} (h : Inv cooldown p) {i : Nat}
    {c : FaultCall} (hc : p.calls[i]? = some c) (hcheck : c.next = .checkCooldown)
    (hcool : ∀ lastTime ∈ p.shared.processedNodes.lookup c.nodeId,
      p.shared.cooldownDuration ≤ p.shared.now - lastTime)
    (hfree : ∀ d ∈ p.calls, d.Busy → d.nodeId ≠ c.nodeId)
    (hexclusive : Pool.Exclusive FaultCall.nodeId FaultCall.Busy
      { p with calls := p.calls.set i { c with next := .taintNode } }) :
    Inv cooldown { p with calls := p.calls.set i { c with next := .taintNode } } where
  cooldown_eq := h.cooldown_eq
  started := h.started
  accounted := by
    intro x hx
    refine (h.accounted x hx).imp id ?_
    intro hisolated
    refine isolated_set hc hisolated ?_
    simp [FaultCall.Isolating, hcheck]
  ready := by
    intro j d hd hnext x hx hnode
    rcases Pool.getElem?_set_cases hd with ⟨_, rfl⟩ | ⟨_, hold⟩
    · have hstarted := h.started x hx
      rcases h.accounted x hx with ⟨r, hr, hle⟩ | ⟨e, he, hiso, hsame⟩
      · have hpassed := hcool r (by rwa [hnode] at hr)
        rw [h.cooldown_eq] at hpassed
        dsimp only at hstarted ⊢
        omega
      · exact absurd (hsame.trans hnode) (hfree e he hiso.busy)
    · exact h.ready j d hold hnext x hx hnode
  exclusive := hexclusive
  spaced := h.spaced

/-- An isolation starts.  Its own call will record it, and no other call is
about to taint the same node. -/
theorem Inv.taint {cooldown : Nat} {p : ControllerPool} (h : Inv cooldown p) {i : Nat}
    {c : FaultCall} (hc : p.calls[i]? = some c) (htaint : c.next = .taintNode)
    {s' : K8sController}
    (hs' : s' = { p.shared with isolations := p.shared.isolations ++ [(c.nodeId, p.shared.now)] })
    (hexclusive : Pool.Exclusive FaultCall.nodeId FaultCall.Busy
      { shared := s', calls := p.calls.set i { c with next := .evictPods } }) :
    Inv cooldown { shared := s', calls := p.calls.set i { c with next := .evictPods } } := by
  subst hs'
  have hmine := h.ready i c hc htaint
  refine ⟨h.cooldown_eq, ?_, ?_, ?_, hexclusive, ?_⟩
  · intro x hx
    rcases List.mem_append.mp hx with hold | hnew
    · exact h.started x hold
    · rw [List.mem_singleton.mp hnew]
  · intro x hx
    rcases List.mem_append.mp hx with hold | hnew
    · refine (h.accounted x hold).imp id ?_
      intro hisolated
      refine isolated_set hc hisolated ?_
      simp [FaultCall.Isolating, htaint]
    · right
      rw [List.mem_singleton.mp hnew]
      have hlt : i < p.calls.length := (List.getElem?_eq_some_iff.mp hc).1
      exact ⟨_, List.mem_set hlt _, Or.inl rfl, rfl⟩
  · intro j d hd hnext x hx hnode
    rcases Pool.getElem?_set_cases hd with ⟨_, rfl⟩ | ⟨hji, hold⟩
    · cases hnext
    · rcases List.mem_append.mp hx with hxold | hxnew
      · exact h.ready j d hold hnext x hxold hnode
      · rw [List.mem_singleton.mp hxnew] at hnode
        exact absurd (h.exclusive j i d c hold hc (Or.inl hnext) (Or.inl htaint) hnode.symm) hji
  · refine List.pairwise_append.mpr ⟨h.spaced, List.pairwise_singleton _ _, ?_⟩
    intro x hx y hy hnode
    rw [List.mem_singleton.mp hy] at hnode ⊢
    exact hmine x hx hnode

theorem Inv.record {cooldown : Nat} {p : ControllerPool} (h : Inv cooldown p) {i : Nat}
    {c : FaultCall} (hc : p.calls[i]? = some c) {s' : K8sController}
    (hs' : s' = { p.shared with
      processedNodes := p.shared.processedNodes.insert c.nodeId p.shared.now })
    (hexclusive : Pool.Exclusive FaultCall.nodeId FaultCall.Busy
      { shared := s', calls := p.calls.set i { c with next := .returned } }) :
    Inv cooldown { shared := s', calls := p.calls.set i { c with next := .returned } } := by
  subst hs'
  refine ⟨h.cooldown_eq, h.started, ?_, ?_, hexclusive, h.spaced⟩
  · intro x hx
    by_cases hnode : x.1 = c.nodeId
    · left
      refine ⟨p.shared.now, ?_, h.started x hx⟩
      rw [hnode]
      exact AList.lookup_insert _
    · refine (h.accounted x hx).imp ?_ ?_
      · rintro ⟨r, hr, hle⟩
        refine ⟨r, ?_, hle⟩
        rwa [AList.lookup_insert_ne hnode]
      · intro hisolated
        refine isolated_set hc hisolated ?_
        intro _ hsame
        exact absurd hsame.symm hnode
  · intro j d hd hnext x hx hnode
    rcases Pool.getElem?_set_cases hd with ⟨_, rfl⟩ | ⟨_, hold⟩
    · cases hnext
    · exact h.ready j d hold hnext x hx hnode

/-- **A section keeps the invariant.** -/
theorem Inv.sect {cooldown : Nat} {p : ControllerPool} (h : Inv cooldown p) {i : Nat}
    {c c' : FaultCall} {s' : K8sController} (hc : p.calls[i]? = some c)
    (hsect : SectionOf p.shared c s' c')
    (hfree : c.next = .checkCooldown → ∀ d ∈ p.calls, d.Busy → d.nodeId ≠ c.nodeId)
    (hexclusive : Pool.Exclusive FaultCall.nodeId FaultCall.Busy
      { shared := s', calls := p.calls.set i c' }) :
    Inv cooldown { shared := s', calls := p.calls.set i c' } := by
  cases hsect with
  | skip hidle =>
    exact h.quiet hc (by simp) (fun _ hiso => absurd hiso hidle) hexclusive
  | pass hcheck hcool =>
    exact h.pass hc hcheck hcool (hfree hcheck) hexclusive
  | taint htaint =>
    exact h.taint hc htaint rfl hexclusive
  | evict hevict =>
    exact h.quiet hc (by simp) (fun _ _ hnode => ⟨Or.inr rfl, hnode⟩) hexclusive
  | record hrecord =>
    exact h.record hc rfl hexclusive

/-- Under the condition no two calls for one node are between their check and
their record. -/
theorem exclusive_step {p : ControllerPool} {action : ControllerAction}
    (h : p.Exclusive FaultCall.nodeId FaultCall.Busy) (haction : p.NoOverlap action) :
    (p.step action).Exclusive FaultCall.nodeId FaultCall.Busy := by
  have hmeets : Run.Meets (Pool.step FaultCall.enter runSection) NoOverlap p [action] :=
    ⟨haction, trivial⟩
  refine Pool.exclusive_of_meets ?_ ?_ ?_ h hmeets
  · intro fault
    simp [FaultCall.enter, FaultCall.Busy]
  · intro s c api
    exact (sectionOf_runSection s c api).nodeId
  · intro p i c api hfree hc hbusy
    refine ((sectionOf_runSection p.shared c api).busy hbusy).imp id ?_
    intro hcheck c' hc' j d hd hdbusy hnode
    obtain rfl : c = c' := by simpa [hc] using hc'
    exact absurd hnode (hfree c hc hcheck d (List.mem_of_getElem? hd) hdbusy)

theorem inv_step {cooldown : Nat} {p : ControllerPool} {action : ControllerAction}
    (h : Inv cooldown p) (haction : p.NoOverlap action) : Inv cooldown (p.step action) := by
  have hexclusive := exclusive_step h.exclusive haction
  cases action with
  | call fault =>
    exact h.call fault hexclusive
  | advance i api =>
    cases hc : p.calls[i]? with
    | none =>
      have hstay : p.step (.advance i api) = p := Pool.step_advance_none hc api
      rwa [hstay]
    | some c =>
      have hmoved : p.step (.advance i api) = _ := Pool.step_advance hc api
      rw [hmoved] at hexclusive ⊢
      exact (h.tick api.elapsed).sect hc (sectionOf_runSection _ _ _) (haction c hc) hexclusive

/-- **The cooldown.**  In every interleaving of any number of calls in which a
fault is checked only while no other call is between its check and its record
for the same node, two isolations of one node start at least the cooldown
apart. -/
theorem isolations_spaced (enabled : Bool) (cooldown now : Nat) (actions : List ControllerAction)
    (h : Run.Meets step NoOverlap (start enabled cooldown now) actions) :
    ∀ seen rest, actions = seen ++ rest →
      Spaced cooldown (Run.run step (start enabled cooldown now) seen).shared.isolations := by
  intro seen rest hsplit
  subst hsplit
  have hseen := (Run.meets_append.mp h).1
  exact (Run.invariant_of_meets (fun _ _ => inv_step) (inv_start enabled cooldown now) hseen).spaced

/-- Two faults of a node are handled one after the other, the second one after
the cooldown. -/
theorem isolations_spaced_inTurn :
    let fault : IrreversibleFault := .rdmaLinkDown "node-a" "mlx5_0"
    let turn (index wait : Nat) : List ControllerAction :=
      [.call fault, .advance index ⟨wait, true⟩, .advance index ⟨10, true⟩,
        .advance index ⟨500, true⟩, .advance index ⟨0, true⟩]
    let p := Run.run step (start true 300000 0) (turn 0 0 ++ turn 1 300000)
    p.shared.isolations = [("node-a", 10), ("node-a", 300520)] ∧
    Spaced 300000 p.shared.isolations := by
  refine ⟨by decide, ?_⟩
  exact isolations_spaced true 300000 0 _ (by decide) _ [] (List.append_nil _).symm

/-- Two hardware errors of one node arrive together.  Both tasks pass the
check before either has recorded its time, and the node is isolated twice at
once. -/
theorem isolations_spaced_twoTasks :
    let first : Event := ⟨1000, .errorHw, "gpu-0", none, none, "XID 79", some "node-a"⟩
    let second : Event := ⟨1000, .errorHw, "gpu-1", none, none, "XID 79", some "node-a"⟩
    let tasks : List ControllerAction :=
      ([first, second].filterMap detectIrreversibleFault).map .call
    let sections : List ControllerAction :=
      [.advance 0 ⟨0, true⟩, .advance 1 ⟨0, true⟩, .advance 0 ⟨10, true⟩, .advance 1 ⟨10, true⟩]
    let p := Run.run step (start true 300000 0) (tasks ++ sections)
    p.shared.isolations = [("node-a", 10), ("node-a", 20)] ∧
    ¬ Spaced 300000 p.shared.isolations := by
  decide

end ControllerPool

end ArkInfra
