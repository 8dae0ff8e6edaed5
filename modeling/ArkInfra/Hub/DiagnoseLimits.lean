import ArkInfra.Hub.Diagnose

/-!
# The limits of an execute request

A request is within its guard if it sends at most `max_actions` commands and
isolates no more nodes than that leaves, and does nothing at all without a
permit.  The loop over the actions keeps to this.  The loop that isolates the
nodes of a physical degradation does not know the guard.

How many commands and isolations a request can come to depends on the
connections, on what was done before and on what the API answers.
`withinGuard_iff` says for which requests, process lists and limits none of this
matters: those that isolate no node, those without processes, and those that
have a permit and few enough processes for both loops.
-/

namespace ArkInfra

section Isolations

namespace K8sController

/-- A call isolates at most one node, and none if the controller is not
enabled. -/
theorem isolations_handleIrreversibleFault_le (s : K8sController) (fault : IrreversibleFault)
    (a : FaultAnswers) :
    (s.handleIrreversibleFault fault a).2.enabled = s.enabled ∧
      (s.handleIrreversibleFault fault a).2.isolations.length ≤
        s.isolations.length + (if s.enabled then 1 else 0) := by
  cases henabled : s.enabled with
  | false =>
    simp [handleIrreversibleFault, runSection, FaultCall.enter, tick, henabled]
  | true =>
    simp only [handleIrreversibleFault, runSection, FaultCall.enter, tick, henabled]
    grind

/-- The times of the isolations lie in the past. -/
def Settled (s : K8sController) : Prop :=
  ∀ nodeId, ∀ lastTime ∈ s.processedNodes.lookup nodeId, lastTime ≤ s.now

/-- An API that accepts everything, the first time after the given wait. -/
def patientAnswers (wait : Nat) : FaultAnswers where
  check := ⟨wait, true⟩
  taint := ⟨0, true⟩
  evict := ⟨0, true⟩
  record := ⟨0, true⟩
  error := ""

theorem isolations_handleIrreversibleFault_patient {s : K8sController} (henabled : s.enabled = true)
    (hsettled : s.Settled) (fault : IrreversibleFault) :
    let s' := (s.handleIrreversibleFault fault (patientAnswers s.cooldownDuration)).2
    s'.isolations.length = s.isolations.length + 1 ∧ s'.enabled = true ∧ s'.Settled ∧
      s'.cooldownDuration = s.cooldownDuration := by
  have hcool : (s.tick s.cooldownDuration).inCooldown fault.nodeId = false := by
    unfold inCooldown tick
    dsimp only
    cases hlast : s.processedNodes.lookup fault.nodeId with
    | none =>
      rfl
    | some lastTime =>
      have hpast := hsettled fault.nodeId lastTime hlast
      rw [decide_eq_false_iff_not]
      omega
  have hcall : (s.handleIrreversibleFault fault (patientAnswers s.cooldownDuration)).2 =
      { s with
        now := s.now + s.cooldownDuration
        isolations := s.isolations ++ [(fault.nodeId, s.now + s.cooldownDuration)]
        processedNodes := s.processedNodes.insert fault.nodeId (s.now + s.cooldownDuration) } := by
    have henabled' : (s.tick s.cooldownDuration).enabled = true := henabled
    have hcheck : s.runSection (.enter fault) ⟨s.cooldownDuration, true⟩ =
        (s.tick s.cooldownDuration, ⟨fault, .taintNode⟩) := by
      simp [runSection, FaultCall.enter, FaultCall.nodeId, henabled', hcool]
    simp only [handleIrreversibleFault, patientAnswers, hcheck]
    rfl
  rw [hcall]
  refine ⟨by simp, henabled, ?_, rfl⟩
  intro nodeId lastTime hlast
  rw [Option.mem_def, HashMap.lookup_insert_ite] at hlast
  split_ifs at hlast
  · exact (Option.some.inj hlast).symm.le
  · exact Nat.le_add_right_of_le (hsettled nodeId lastTime hlast)

end K8sController

theorem isolateNode_of_none {answers : Json.Value → FaultAnswers} {p : Json.Value}
    (h : entryNode p = none) (log : FaultLog) : isolateNode answers log p = log := by
  rw [isolateNode, h]

theorem controller_isolateNode (answers : Json.Value → FaultAnswers) {p : Json.Value}
    {nodeId : String} (h : entryNode p = some nodeId) (log : FaultLog) :
    (isolateNode answers log p).controller =
      (log.controller.handleIrreversibleFault (degradationFault nodeId) (answers p)).2 := by
  rw [isolateNode, h]
  dsimp only
  split <;> next heq => rw [heq]

theorem foldl_isolateNode_le (answers : Json.Value → FaultAnswers) (log : FaultLog)
    (processes : List Json.Value) :
    (processes.foldl (isolateNode answers) log).controller.isolations.length ≤
      log.controller.isolations.length +
        (if log.controller.enabled then (processes.filterMap entryNode).length else 0) := by
  induction processes generalizing log with
  | nil =>
    simp
  | cons p processes ih =>
    rw [List.foldl_cons, List.filterMap_cons]
    refine (ih _).trans ?_
    cases hnode : entryNode p with
    | none =>
      rw [isolateNode_of_none hnode]
    | some nodeId =>
      obtain ⟨henabled, hlength⟩ := log.controller.isolations_handleIrreversibleFault_le
        (degradationFault nodeId) (answers p)
      rw [controller_isolateNode answers hnode, henabled]
      dsimp only
      split_ifs at hlength ⊢
      · rw [List.length_cons]
        omega
      · exact hlength

/-- With an API that accepts everything after the cooldown, the loop isolates one
node for each entry. -/
theorem foldl_isolateNode_patient {wait : Nat} (log : FaultLog)
    (henabled : log.controller.enabled = true) (hsettled : log.controller.Settled)
    (hwait : log.controller.cooldownDuration = wait) (processes : List Json.Value) :
    (processes.foldl (isolateNode fun _ => K8sController.patientAnswers wait)
        log).controller.isolations.length =
      log.controller.isolations.length + (processes.filterMap entryNode).length := by
  induction processes generalizing log with
  | nil =>
    rfl
  | cons p processes ih =>
    rw [List.foldl_cons, List.filterMap_cons]
    cases hnode : entryNode p with
    | none =>
      rw [isolateNode_of_none hnode]
      exact ih log henabled hsettled hwait
    | some nodeId =>
      obtain ⟨hlength, henabled', hsettled', hcooldown⟩ :=
        K8sController.isolations_handleIrreversibleFault_patient henabled hsettled
          (degradationFault nodeId)
      rw [hwait, ← controller_isolateNode (fun _ => K8sController.patientAnswers wait) hnode]
        at hlength henabled' hsettled' hcooldown
      rw [ih _ henabled' hsettled' hcooldown, hlength]
      simp only [List.length_cons]
      omega

end Isolations

section Commands

/-- The nodes are connected, and their senders work. -/
def Senders.openTo (nodes : List String) : Senders where
  table := nodes.foldr (fun nodeId table => table.insert nodeId 0) ∅
  delivers := fun _ => true

theorem Senders.lookup_openTo {nodes : List String} {nodeId : String} (h : nodeId ∈ nodes) :
    (openTo nodes).table.lookup nodeId = some 0 := by
  induction nodes with
  | nil =>
    cases h
  | cons other nodes ih =>
    change (AList.insert other 0 (openTo nodes).table).lookup nodeId = some 0
    rw [HashMap.lookup_insert_ite]
    split_ifs with hother
    · rfl
    · exact ih ((List.mem_cons.mp h).resolve_left hother)

theorem Senders.isSome_command_openTo {nodes : List String} {action : PolicyAction}
    (h : action.nodeId ∈ nodes) : ((openTo nodes).command action).isSome = true := by
  rw [command, sendFixCommand, lookup_openTo h]
  rfl

theorem exists_kind_buildPolicyActions (scenes : List String) (processes : List Json.Value)
    (dryRun : Bool) :
    ∃ kind, ∀ action ∈ buildPolicyActions scenes processes dryRun, action.action = kind := by
  refine ⟨if scenes.any (fun s => Text.contains s "physical_degradation") then "KillProcess"
    else "GracefulShutdown", ?_⟩
  intro action haction
  obtain ⟨p, -, hp⟩ := List.mem_filterMap.mp haction
  simp only [bind, Option.bind_eq_some_iff] at hp
  obtain ⟨nodeId, -, pid, -, heq⟩ := hp
  obtain rfl := Option.some.inj heq
  rfl

theorem map_nodeId_buildPolicyActions {F : Type} (g : StateGraph F) (jobId : String)
    (scenes : List String) (dryRun : Bool) :
    (buildPolicyActions scenes (g.clusterWhy jobId).2 dryRun).map PolicyAction.nodeId =
      (g.clusterWhy jobId).2.filterMap entryNode := by
  rw [buildPolicyActions, List.map_filterMap]
  refine List.filterMap_congr ?_
  intro p hp
  rw [StateGraph.clusterWhy_processes] at hp
  obtain ⟨id, -, hentry⟩ := List.mem_filterMap.mp hp
  obtain ⟨target, -, rfl⟩ := Option.map_eq_some_iff.mp hentry
  rfl

namespace ActionContext

theorem sent_executeTrimmed (w : ActionContext) (guard : ExecuteGuard) (nowTs : Nat)
    (trimmedPolicy : List PolicyAction) :
    (w.executeTrimmed guard nowTs trimmedPolicy).1.sent =
      if guard.permits = 0 then []
      else (Cooldown.granted guard.cooldownMs nowTs PolicyAction.cooldownKey guard.lastActionMs
        trimmedPolicy).filterMap w.conns.command := by
  unfold executeTrimmed ExecuteGuard.tryAcquire
  split_ifs
  · rfl
  · exact ActionLog.sent_executeActions w.conns nowTs _ trimmedPolicy

theorem concurrencyLimited_executeTrimmed (w : ActionContext) (guard : ExecuteGuard) (nowTs : Nat)
    (trimmedPolicy : List PolicyAction) :
    (w.executeTrimmed guard nowTs trimmedPolicy).2 = decide (guard.permits = 0) := by
  unfold executeTrimmed ExecuteGuard.tryAcquire
  split_ifs with hnone
  · exact (decide_eq_true hnone).symm
  · exact (decide_eq_false hnone).symm

/-- Whether a request with these scenes isolates nodes. -/
def Isolates (w : ActionContext) (scenes : List String) : Prop :=
  scenes.any isPhysicalDegradation = true ∧ ∃ c ∈ w.controller, c.enabled = true

instance (w : ActionContext) (scenes : List String) : Decidable (w.Isolates scenes) :=
  inferInstanceAs (Decidable (_ ∧ ∃ c ∈ w.controller, _))

/-- The number of isolations the controller has carried out. -/
def isolationCount (controller : Option K8sController) : Nat :=
  (controller.map fun c => c.isolations.length).getD 0

section Policy

variable (w : ActionContext) (guard : ExecuteGuard) (nowTs : Nat) (scenes : List String)
  (processes : List Json.Value) (trimmedPolicy : List PolicyAction)

theorem sent_executePolicy :
    (w.executePolicy guard nowTs scenes processes trimmedPolicy).sent =
      (w.executeTrimmed guard nowTs trimmedPolicy).1.sent := by
  unfold executePolicy
  dsimp only
  split <;> rfl

theorem concurrencyLimited_executePolicy :
    (w.executePolicy guard nowTs scenes processes trimmedPolicy).concurrencyLimited =
      decide (guard.permits = 0) := by
  rw [← w.concurrencyLimited_executeTrimmed guard nowTs trimmedPolicy]
  unfold executePolicy
  dsimp only
  split <;> rfl

/-- **The second loop** isolates at most the nodes of the listed processes. -/
theorem isolationCount_executePolicy_le :
    isolationCount (w.executePolicy guard nowTs scenes processes trimmedPolicy).controller ≤
      isolationCount w.controller +
        (if w.Isolates scenes then (processes.filterMap entryNode).length else 0) := by
  unfold executePolicy
  dsimp only
  split
  next controller hcontroller =>
    obtain ⟨hscene, hcontroller⟩ := Option.ite_none_right_eq_some.mp hcontroller
    have hbound := foldl_isolateNode_le w.answers
      ⟨controller, (w.executeTrimmed guard nowTs trimmedPolicy).1.results⟩ processes
    have hisolates : w.Isolates scenes ↔ controller.enabled = true := by
      simp [Isolates, hscene, hcontroller]
    simp only [isolationCount, hcontroller, Option.map_some, Option.getD_some, hisolates]
    exact hbound
  next =>
    exact Nat.le_add_right _ _

/-- With an API that accepts everything after the cooldown, a request that
isolates nodes does so for every listed process. -/
theorem isolationCount_executePolicy_patient {wait : Nat} (hisolates : w.Isolates scenes)
    (hpatient : w.answers = fun _ => K8sController.patientAnswers wait)
    (hcontroller : ∀ c ∈ w.controller, c.Settled ∧ c.cooldownDuration = wait) :
    isolationCount (w.executePolicy guard nowTs scenes processes trimmedPolicy).controller =
      isolationCount w.controller + (processes.filterMap entryNode).length := by
  obtain ⟨hscene, controller, hmem, henabled⟩ := hisolates
  obtain ⟨hsettled, hwait⟩ := hcontroller controller hmem
  have hmem : w.controller = some controller := hmem
  have hcount := foldl_isolateNode_patient
    ⟨controller, (w.executeTrimmed guard nowTs trimmedPolicy).1.results⟩ henabled hsettled hwait
    processes
  simp only [executePolicy, hscene, if_true, hmem, hpatient, isolationCount, Option.map_some,
    Option.getD_some]
  exact hcount

end Policy

end ActionContext

end Commands

section Limits

namespace ActionContext

/-- The limits of the guard and the mode of the controller are the same. -/
structure SameLimits (w' w : ActionContext) : Prop where
  permits : w'.guard.permits = w.guard.permits
  cooldownMs : w'.guard.cooldownMs = w.guard.cooldownMs
  maxActions : w'.guard.maxActions = w.guard.maxActions
  controller : (w'.controller.map fun c => (c.enabled, c.cooldownDuration)) =
    w.controller.map fun c => (c.enabled, c.cooldownDuration)

theorem SameLimits.isolates_iff {w' w : ActionContext} (h : w'.SameLimits w)
    (scenes : List String) :
    w'.Isolates scenes ↔ w.Isolates scenes := by
  have hcontroller := h.controller
  unfold Isolates
  cases hw' : w'.controller <;> cases hw : w.controller <;> simp_all

/-- The context in which a request can do the most: the nodes are connected, nothing
was done before, and the API accepts everything. -/
def unhindered (w : ActionContext) (nodes : List String) : ActionContext where
  conns := .openTo nodes
  guard := { w.guard with lastActionMs := ∅ }
  controller := w.controller.map fun c => { c with processedNodes := ∅ }
  requestTime := w.requestTime
  answers := fun _ =>
    K8sController.patientAnswers ((w.controller.map fun c => c.cooldownDuration).getD 0)

theorem sameLimits_unhindered (w : ActionContext) (nodes : List String) :
    (w.unhindered nodes).SameLimits w where
  permits := rfl
  cooldownMs := rfl
  maxActions := rfl
  controller := by
    unfold unhindered
    cases w.controller <;> rfl

end ActionContext

namespace DiagnoseRequest

open ActionContext

variable {F : Type} [FloatCompare F]

/-- The nodes of the processes that the request is about. -/
def processNodes (r : DiagnoseRequest F) : List String :=
  match r.params.lookup "job_id" with
  | none => []
  | some jobId => (r.graph.clusterWhy jobId).2.filterMap entryNode

/-- The commands that were sent and the nodes that were isolated. -/
def interventions (r : DiagnoseRequest F) (w : ActionContext) : Nat :=
  (r.diagnose w).sent.length +
    (isolationCount (r.diagnose w).controller - isolationCount w.controller)

/-- The request executes, one of its scenes is a physical degradation, and there
is a controller that acts. -/
def Isolates (r : DiagnoseRequest F) (w : ActionContext) : Prop :=
  ∃ jobId ∈ r.params.lookup "job_id", r.execute = true ∧ w.Isolates (r.scenes jobId)

structure WithinGuard (r : DiagnoseRequest F) (w : ActionContext) : Prop where
  limited : r.interventions w ≤ w.guard.maxActions
  stopped : r.execute = true → w.guard.permits = 0 → r.interventions w = 0 ∧
    ∀ reply, (r.diagnose w).reply = .ok reply → reply.concurrencyLimited = true

/-- A request that isolates nodes has no processes, or it has a permit and the
limit leaves room for a command and an isolation for each of them. -/
def Bounded (r : DiagnoseRequest F) (w : ActionContext) : Prop :=
  r.Isolates w → r.processNodes = [] ∨
    0 < w.guard.permits ∧
      r.processNodes.length + Cooldown.capacity w.guard.cooldownMs r.processNodes ≤
        w.guard.maxActions

/-- The policy of the request, trimmed to the limit. -/
def trimmedPolicy (r : DiagnoseRequest F) (w : ActionContext) (jobId : String) :
    List PolicyAction :=
  (buildPolicyActions (r.scenes jobId) (r.graph.clusterWhy jobId).2 (!r.execute)).take
    w.guard.maxActions

def executed (r : DiagnoseRequest F) (w : ActionContext) (jobId : String) : Executed :=
  w.executePolicy (w.guard.nextRequestId w.requestTime).2 r.nowTs (r.scenes jobId)
    (r.graph.clusterWhy jobId).2 (r.trimmedPolicy w jobId)

theorem interventions_of_not_execute {r : DiagnoseRequest F} (w : ActionContext)
    (h : ∀ jobId ∈ r.params.lookup "job_id", r.execute = false) : r.interventions w = 0 := by
  unfold interventions diagnose
  cases hjob : r.params.lookup "job_id" with
  | none =>
    simp
  | some jobId =>
    simp [h jobId hjob]

theorem interventions_of_execute {r : DiagnoseRequest F} (w : ActionContext) {jobId : String}
    (hjob : r.params.lookup "job_id" = some jobId) (hexecute : r.execute = true) :
    r.interventions w = (r.executed w jobId).sent.length +
      (isolationCount (r.executed w jobId).controller - isolationCount w.controller) := by
  simp [interventions, diagnose, hjob, hexecute, executed, trimmedPolicy,
    ExecuteGuard.nextRequestId]

theorem map_nodeId_trimmedPolicy {r : DiagnoseRequest F} (w : ActionContext) {jobId : String}
    (hjob : r.params.lookup "job_id" = some jobId) :
    (r.trimmedPolicy w jobId).map PolicyAction.nodeId =
      r.processNodes.take w.guard.maxActions := by
  rw [trimmedPolicy, List.map_take, map_nodeId_buildPolicyActions, processNodes, hjob]

theorem capacity_trimmedPolicy {r : DiagnoseRequest F} (w : ActionContext) {jobId : String}
    (hjob : r.params.lookup "job_id" = some jobId) :
    Cooldown.capacity w.guard.cooldownMs ((r.trimmedPolicy w jobId).map PolicyAction.cooldownKey) =
      Cooldown.capacity w.guard.cooldownMs (r.processNodes.take w.guard.maxActions) := by
  obtain ⟨kind, hkind⟩ := exists_kind_buildPolicyActions (r.scenes jobId)
    (r.graph.clusterWhy jobId).2 (!r.execute)
  have hkind : ∀ action ∈ r.trimmedPolicy w jobId, action.action = kind :=
    fun action haction => hkind action (List.mem_of_mem_take haction)
  rw [capacity_cooldownKey w.guard.cooldownMs hkind, map_nodeId_trimmedPolicy w hjob]

/-- The commands of the request: those of the actions that pass the cooldown. -/
theorem sent_executed (r : DiagnoseRequest F) (w : ActionContext) (jobId : String) :
    (r.executed w jobId).sent =
      if w.guard.permits = 0 then []
      else (Cooldown.granted w.guard.cooldownMs r.nowTs PolicyAction.cooldownKey
        w.guard.lastActionMs (r.trimmedPolicy w jobId)).filterMap w.conns.command := by
  rw [executed, sent_executePolicy, sent_executeTrimmed]
  rfl

/-- **At most.** -/
theorem interventions_le {r : DiagnoseRequest F} (w : ActionContext) {jobId : String}
    (hjob : r.params.lookup "job_id" = some jobId) (hexecute : r.execute = true) :
    r.interventions w ≤
      (if w.guard.permits = 0 then 0
        else Cooldown.capacity w.guard.cooldownMs (r.processNodes.take w.guard.maxActions)) +
      (if w.Isolates (r.scenes jobId) then r.processNodes.length else 0) := by
  have hsent : (r.executed w jobId).sent.length ≤ if w.guard.permits = 0 then 0
      else Cooldown.capacity w.guard.cooldownMs (r.processNodes.take w.guard.maxActions) := by
    rw [sent_executed]
    split_ifs
    · exact Nat.le_refl _
    · rw [← capacity_trimmedPolicy w hjob]
      exact (List.length_filterMap_le _ _).trans (Cooldown.length_granted_le _ _ _ _ _)
  have hisolated : isolationCount (r.executed w jobId).controller ≤ isolationCount w.controller +
      if w.Isolates (r.scenes jobId) then r.processNodes.length else 0 := by
    rw [processNodes, hjob]
    exact isolationCount_executePolicy_le w _ r.nowTs (r.scenes jobId) _ _
  rw [interventions_of_execute w hjob hexecute]
  omega

/-- In the unhindered context every action that passes the cooldown is sent. -/
theorem length_sent_unhindered {r : DiagnoseRequest F} (w : ActionContext) {jobId : String}
    (hjob : r.params.lookup "job_id" = some jobId) :
    (r.executed (w.unhindered r.processNodes) jobId).sent.length =
      if w.guard.permits = 0 then 0
      else Cooldown.capacity w.guard.cooldownMs (r.processNodes.take w.guard.maxActions) := by
  set w' := w.unhindered r.processNodes
  have hopen : ∀ action ∈ Cooldown.granted w.guard.cooldownMs r.nowTs PolicyAction.cooldownKey ∅
      (r.trimmedPolicy w' jobId), (w'.conns.command action).isSome = true := by
    intro action haction
    have haction := (Cooldown.granted_sublist _ _ _ _ _).subset haction
    have hnode := List.mem_map_of_mem (f := PolicyAction.nodeId) haction
    rw [map_nodeId_trimmedPolicy w' hjob] at hnode
    exact Senders.isSome_command_openTo (List.mem_of_mem_take hnode)
  rw [sent_executed]
  change (if w.guard.permits = 0 then _ else _ : List FixCommand).length = _
  split_ifs
  · rfl
  · refine (List.filterMap_length_eq_length.mpr hopen).trans ?_
    rw [Cooldown.length_granted_empty]
    exact capacity_trimmedPolicy w' hjob

/-- **At worst.** -/
theorem interventions_unhindered {r : DiagnoseRequest F} (w : ActionContext) {jobId : String}
    (hjob : r.params.lookup "job_id" = some jobId) (hexecute : r.execute = true)
    (hisolates : w.Isolates (r.scenes jobId)) :
    r.interventions (w.unhindered r.processNodes) =
      (if w.guard.permits = 0 then 0
        else Cooldown.capacity w.guard.cooldownMs (r.processNodes.take w.guard.maxActions)) +
      r.processNodes.length := by
  have hsent := length_sent_unhindered w hjob
  set w' := w.unhindered r.processNodes
  have hisolated : isolationCount (r.executed w' jobId).controller =
      isolationCount w'.controller + r.processNodes.length := by
    rw [processNodes, hjob]
    refine isolationCount_executePolicy_patient w' _ r.nowTs (r.scenes jobId) _ _
      (((w.sameLimits_unhindered _).isolates_iff _).mpr hisolates) rfl ?_
    intro c hc
    obtain ⟨old, hold, rfl⟩ := Option.mem_map.mp hc
    have hold : w.controller = some old := hold
    refine ⟨?_, by simp [hold]⟩
    intro nodeId lastTime hlast
    cases hlast
  rw [interventions_of_execute w' hjob hexecute, hsent, hisolated]
  omega

theorem concurrencyLimited_of_reply {r : DiagnoseRequest F} {w : ActionContext}
    {reply : DiagnoseReply F} (hexecute : r.execute = true) (hnone : w.guard.permits = 0)
    (hreply : (r.diagnose w).reply = .ok reply) : reply.concurrencyLimited = true := by
  unfold diagnose at hreply
  cases hjob : r.params.lookup "job_id" with
  | none =>
    simp [hjob] at hreply
  | some jobId =>
    simp only [hjob, hexecute, if_true, concurrencyLimited_executePolicy] at hreply
    cases hreply
    exact decide_eq_true hnone

theorem bounded_of_forall_withinGuard {r : DiagnoseRequest F} {w : ActionContext}
    (h : ∀ w' : ActionContext, w'.SameLimits w → r.WithinGuard w') : r.Bounded w := by
  rintro ⟨jobId, hjob, hexecute, hisolates⟩
  have hwithin := h (w.unhindered r.processNodes) (w.sameLimits_unhindered _)
  have hlimited : r.interventions _ ≤ w.guard.maxActions := hwithin.limited
  have hstopped := hwithin.stopped hexecute
  rw [interventions_unhindered w hjob hexecute hisolates] at hlimited hstopped
  by_cases hnone : w.guard.permits = 0
  · have hzero := (hstopped hnone).1
    exact Or.inl (List.length_eq_zero_iff.mp (by omega))
  · rw [if_neg hnone] at hlimited
    have hall : r.processNodes.take w.guard.maxActions = r.processNodes :=
      List.take_of_length_le (by omega)
    rw [hall] at hlimited
    exact Or.inr ⟨Nat.pos_of_ne_zero hnone, by omega⟩

theorem Bounded.interventions_le {r : DiagnoseRequest F} {w w' : ActionContext}
    (hbounded : r.Bounded w) (hsame : w'.SameLimits w) {jobId : String}
    (hjob : r.params.lookup "job_id" = some jobId) (hexecute : r.execute = true) :
    r.interventions w' ≤ w.guard.maxActions ∧
      (w.guard.permits = 0 → r.interventions w' = 0) := by
  have hle := DiagnoseRequest.interventions_le w' hjob hexecute
  rw [hsame.permits, hsame.cooldownMs, hsame.maxActions] at hle
  simp only [hsame.isolates_iff] at hle
  have hlength := (Cooldown.capacity_le_length w.guard.cooldownMs
    (r.processNodes.take w.guard.maxActions)).trans (List.length_take_le _ _)
  have hcapacity := Cooldown.capacity_sublist w.guard.cooldownMs
    (List.take_sublist w.guard.maxActions r.processNodes)
  by_cases hisolates : w.Isolates (r.scenes jobId)
  · rw [if_pos hisolates] at hle
    rcases hbounded ⟨jobId, hjob, hexecute, hisolates⟩ with hnil | ⟨hpermit, hroom⟩
    · have hempty : r.interventions w' ≤ 0 := by
        simpa [hnil, Cooldown.capacity] using hle
      omega
    · rw [if_neg (by omega)] at hle
      omega
  · -- only the trimmed actions are left
    rw [if_neg hisolates] at hle
    split_ifs at hle <;> omega

/-- **Which requests stay within the guard.**  Whatever the connections, the past
actions and the answers of the API are, a request sends and isolates no more
than the limit, and nothing without a permit, exactly when it isolates no node,
has no processes, or has a permit and few enough processes for both loops. -/
theorem withinGuard_iff (r : DiagnoseRequest F) (w : ActionContext) :
    (∀ w' : ActionContext, w'.SameLimits w → r.WithinGuard w') ↔ r.Bounded w := by
  refine ⟨bounded_of_forall_withinGuard, ?_⟩
  intro hbounded w' hsame
  by_cases hidle : ∀ jobId ∈ r.params.lookup "job_id", r.execute = false
  · have hzero := interventions_of_not_execute w' hidle
    exact ⟨by omega, fun hexecute hnone => ⟨hzero, fun reply hreply =>
      concurrencyLimited_of_reply hexecute hnone hreply⟩⟩
  · obtain ⟨jobId, hjob, hexecute⟩ : ∃ jobId, r.params.lookup "job_id" = some jobId ∧
        r.execute = true := by
      simpa using hidle
    obtain ⟨hlimited, hstopped⟩ := hbounded.interventions_le hsame hjob hexecute
    refine ⟨hsame.maxActions ▸ hlimited, ?_⟩
    intro _ hnone
    exact ⟨hstopped (hsame.permits ▸ hnone), fun reply hreply =>
      concurrencyLimited_of_reply hexecute hnone hreply⟩

/-- A job with one process, and a rule for a physical degradation that has
matched: with a limit of one action a command is sent and the node isolated, and
without a permit it is isolated all the same. -/
theorem withinGuard_isolation :
    let start : Event := ⟨1000, .processState, "proc", some "job-1", some 7, "start", some "node-a"⟩
    let drop : Event :=
      ⟨1500, .transportDrop, "roce-mlx5_0", some "job-1", none, "12.5", some "node-a"⟩
    let rule := { RuleEngine.sampleRule RuleEngine.sampleConditions with
      scene := "rdma_physical_degradation" }
    let r : DiagnoseRequest Binary64 := {
      params := ((∅ : HashMap String String).insert "job_id" "job-1").insert "execute" "true"
      graph := StateGraph.after [start]
      rules := RuleEngine.sampleEngine [rule]
      eventBuffer := [start, drop]
      allowExecute := true
      policyVersion := "v1"
      nowTs := 2000 }
    let hub (permits : Nat) : ActionContext := {
      conns := .openTo ["node-a"]
      guard := { ExecuteGuard.new 1 60 1 with permits := permits }
      controller := some (.new true 300000 5000)
      requestTime := 2000
      answers := fun _ => K8sController.patientAnswers 0 }
    (∀ permits, (hub permits).guard.maxActions = 1) ∧
    r.interventions (hub 1) = 2 ∧
    r.interventions (hub 0) = 1 := by
  refine ⟨fun _ => rfl, ?_, ?_⟩
  · decide
  · decide

end DiagnoseRequest

end Limits

end ArkInfra
