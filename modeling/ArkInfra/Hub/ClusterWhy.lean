import ArkInfra.Core.ProcessExit
import ArkInfra.Core.RootCause
import ArkInfra.Lib.Json
import Mathlib.Data.List.Destutter

/-!
# Diagnosis of a job and the actions that follow

`hub/src/main.rs`: `cluster_why` collects the process nodes of a job, reports
the root causes of each, and lists the processes with their node and pid, which
it reads off the node ids.  `build_policy_actions` turns the list into commands
for the agents.

`cluster_why` takes every process node of the job, also those that are marked
as ended and only wait for the next cleanup; the list of active processes
leaves those out.  `policyActions_targetActive_iff` says exactly when all
commands go to active processes.  A node id that itself contains the separator
is a second way to miss: it is read as another process.
-/

namespace ArkInfra

/-- A command to an agent. -/
structure PolicyAction where
  actionType : String
  nodeId : String
  targetPid : Nat
  action : String
  dryRun : Bool
deriving DecidableEq, Repr

/-- The commands for the listed processes. -/
def buildPolicyActions (scenes : List String) (processes : List Json.Value) (dryRun : Bool) :
    List PolicyAction :=
  let action :=
    if scenes.any (fun s => Text.contains s "physical_degradation") then "KillProcess"
    else "GracefulShutdown"
  processes.filterMap fun p => do
    let nodeId ← (p.get "node_id").bind Json.Value.asStr
    let pid ← (p.get "pid").bind Json.Value.asU64
    return {
      actionType := "send_fix_command"
      nodeId := nodeId
      targetPid := pid % 2 ^ 32
      action := action
      dryRun := dryRun }

/-- The node and the pid that the id of a process node stands for. -/
def processTarget (pidId : String) : Option (String × Nat) :=
  if Text.contains pidId "::" then
    match Text.split pidId "::" with
    | nodeId :: pidPart :: _ =>
      match Text.stripPrefix pidPart "pid-" with
      | some pidStr => (Text.parseUnsigned (2 ^ 32) pidStr).map (fun pid => (nodeId, pid))
      | none => none
    | _ => none
  else
    none

def processEntry (pidId : String) : Option Json.Value :=
  (processTarget pidId).map fun target =>
    .object [("node_id", .string target.1), ("pid", .number target.2),
      ("node_id_full", .string pidId)]

def Node.OfJob (jobId : String) (node : Node) : Prop :=
  node.nodeType = .process ∧ node.metadata.lookup "job_id" = some jobId

instance (jobId : String) (node : Node) : Decidable (node.OfJob jobId) :=
  inferInstanceAs (Decidable (_ ∧ _))

namespace StateGraph

variable {F : Type}

def jobPids (g : StateGraph F) (targetJobId : String) : List String :=
  (g.nodes.entries.filter (fun x => decide (x.2.OfJob targetJobId))).map (fun x => x.1)

/-- The root causes of one process, with the node it runs on. -/
def processCauses (g : StateGraph F) (pidId : String) : List String :=
  (g.findRootCauseById pidId).map fun cause =>
    if Text.contains pidId "::" then
      ((Text.split pidId "::").head?.getD "unknown") ++ ": " ++ cause
    else
      cause

/-- The causes and the processes of a job. -/
def clusterWhy (g : StateGraph F) (targetJobId : String) : List String × List Json.Value :=
  let jobPids := g.jobPids targetJobId
  if jobPids = [] then
    (["未找到 job_id=" ++ targetJobId ++ " 的进程"], [])
  else
    let globalCauses := (jobPids.flatMap g.processCauses).mergeSort (fun a b => decide (a ≤ b))
    (globalCauses.destutter (· ≠ ·), jobPids.filterMap processEntry)

end StateGraph

section Targets

/-- The node id stays in one piece: the separator is not part of it, and does
not begin in it. -/
def UnsplitNodeId (nodeId : String) : Prop :=
  ¬ [':', ':'] <:+: nodeId.toList ++ [':']

instance (nodeId : String) : Decidable (UnsplitNodeId nodeId) :=
  inferInstanceAs (Decidable (¬ _))

/-- The id begins like that of a process, and ends or has another separator
after it. -/
structure Names (id nodeId : String) (pid : Nat) : Prop where
  unsplit : UnsplitNodeId nodeId
  text : ∃ pidStr rest, id = nodeId ++ "::" ++ ("pid-" ++ pidStr) ++ rest ∧
    Text.parseUnsigned (2 ^ 32) pidStr = some pid ∧
    (rest = "" ∨ Text.startsWith rest "::" = true)

theorem separator_free_of_parseUnsigned {bound pid : Nat} {pidStr : String}
    (h : Text.parseUnsigned bound pidStr = some pid) :
    ¬ [':', ':'] <:+: ("pid-" ++ pidStr).toList ++ [':'] := by
  intro hoccurs
  have hcount := hoccurs.sublist.count_le ':'
  have hpid : "pid-".toList.count ':' = 0 := by
    decide
  have hdigits : pidStr.toList.count ':' = 0 := by
    rw [List.count_eq_zero]
    intro hmem
    have hchar := Text.mem_of_parseUnsigned h hmem
    exact absurd hchar (by decide)
  rw [String.toList_append, List.count_append, List.count_append, hpid, hdigits] at hcount
  exact absurd hcount (by decide)

theorem names_of_processTarget {id nodeId : String} {pid : Nat}
    (h : processTarget id = some (nodeId, pid)) : Names id nodeId pid := by
  unfold processTarget at h
  split_ifs at h
  split at h
  next node pidPart tail hsplit =>
    split at h
    next pidStr hstrip =>
      obtain ⟨k, hparse, heq⟩ := Option.map_eq_some_iff.mp h
      obtain ⟨rfl, rfl⟩ := Prod.mk.inj heq
      obtain rfl := Text.stripPrefix_eq_some_iff.mp hstrip
      have hpieces := Text.map_toList_split id "::"
      rw [hsplit] at hpieces
      obtain ⟨hunsplit, rest, hid, hrest⟩ := Split.exists_of_pieces (by decide) hpieces.symm
      refine ⟨hunsplit, pidStr, String.ofList rest, ?_, hparse, ?_⟩
      · rw [← String.toList_inj]
        simpa using hid
      · refine hrest.imp ?_ ?_
        · rintro rfl
          rfl
        · intro hstart
          have hlist : (String.ofList rest).toList = rest := String.toList_ofList
          rw [Text.startsWith_iff, hlist]
          exact hstart
    next =>
      cases h
  next =>
    cases h

theorem processTarget_of_names {id nodeId : String} {pid : Nat} (h : Names id nodeId pid) :
    processTarget id = some (nodeId, pid) := by
  obtain ⟨hunsplit, pidStr, rest, rfl, hparse, hrest⟩ := h
  have hrest' : rest.toList = [] ∨ "::".toList <+: rest.toList := by
    refine hrest.imp ?_ (Text.startsWith_iff rest "::").mp
    rintro rfl
    rfl
  have hsep : "::".toList ≠ [] := by
    decide
  obtain ⟨tail, hpieces⟩ :=
    Split.pieces_of_first hsep hunsplit (separator_free_of_parseUnsigned hparse) hrest'
  have hsplit : Text.split (nodeId ++ "::" ++ ("pid-" ++ pidStr) ++ rest) "::" =
      nodeId :: ("pid-" ++ pidStr) :: tail.map String.ofList := by
    unfold Text.split
    rw [String.toList_append, String.toList_append, String.toList_append, hpieces]
    simp only [List.map_cons, String.ofList_toList]
  have hcontains : Text.contains (nodeId ++ "::" ++ ("pid-" ++ pidStr) ++ rest) "::" = true := by
    simp only [Text.contains, String.toList_append, decide_eq_true_eq]
    exact ⟨nodeId.toList, "pid-".toList ++ pidStr.toList ++ rest.toList, by simp⟩
  have hstrip : Text.stripPrefix ("pid-" ++ pidStr) "pid-" = some pidStr :=
    Text.stripPrefix_eq_some_iff.mpr rfl
  unfold processTarget
  rw [if_pos hcontains, hsplit]
  simp only [hstrip, hparse, Option.map_some]

/-- **What an id is read as.** -/
theorem processTarget_eq_some_iff {id nodeId : String} {pid : Nat} :
    processTarget id = some (nodeId, pid) ↔ Names id nodeId pid :=
  ⟨names_of_processTarget, processTarget_of_names⟩

theorem names_pidId {nodeId : String} {pid : Nat} (hunsplit : UnsplitNodeId nodeId)
    (hpid : pid < 2 ^ 32) : Names (pidId (some nodeId) pid) nodeId pid where
  unsplit := hunsplit
  text := ⟨toString pid, "", by simp [pidId], Text.parseUnsigned_toString hpid, Or.inl rfl⟩

end Targets

namespace StateGraph

variable {F : Type}

theorem mem_jobPids {g : StateGraph F} {jobId id : String} :
    id ∈ g.jobPids jobId ↔ ∃ node ∈ g.nodes.lookup id, node.OfJob jobId := by
  simp only [jobPids, List.mem_map, List.mem_filter, decide_eq_true_eq]
  constructor
  · rintro ⟨⟨key, node⟩, ⟨hmem, hjob⟩, rfl⟩
    exact ⟨node, AList.mem_lookup_iff.mpr hmem, hjob⟩
  · rintro ⟨node, hlookup, hjob⟩
    exact ⟨⟨id, node⟩, ⟨AList.mem_lookup_iff.mp hlookup, hjob⟩, rfl⟩

theorem clusterWhy_processes (g : StateGraph F) (jobId : String) :
    (g.clusterWhy jobId).2 = (g.jobPids jobId).filterMap processEntry := by
  unfold clusterWhy
  dsimp only
  split_ifs with hnone
  · simp [hnone]
  · rfl

/-- **The commands of a job**: one for every process node of the job whose id
can be read. -/
theorem mem_policyActions {g : StateGraph F} {jobId : String} {scenes : List String}
    {dryRun : Bool} {action : PolicyAction} :
    action ∈ buildPolicyActions scenes (g.clusterWhy jobId).2 dryRun ↔
      ∃ id nodeId pid, (∃ node ∈ g.nodes.lookup id, node.OfJob jobId) ∧ Names id nodeId pid ∧
        action = {
          actionType := "send_fix_command"
          nodeId := nodeId
          targetPid := pid
          action := if scenes.any (fun s => Text.contains s "physical_degradation") then
            "KillProcess" else "GracefulShutdown"
          dryRun := dryRun } := by
  have hread : ∀ {id nodeId pid}, processTarget id = some (nodeId, pid) → pid % 2 ^ 32 = pid := by
    intro id nodeId pid h
    obtain ⟨_, _, _, _, hparse, _⟩ := processTarget_eq_some_iff.mp h
    exact Nat.mod_eq_of_lt (Text.lt_of_parseUnsigned hparse)
  rw [clusterWhy_processes]
  simp only [buildPolicyActions, List.mem_filterMap, mem_jobPids]
  constructor
  · rintro ⟨value, ⟨id, hjob, hentry⟩, haction⟩
    obtain ⟨⟨nodeId, pid⟩, htarget, rfl⟩ := Option.map_eq_some_iff.mp hentry
    refine ⟨id, nodeId, pid, hjob, processTarget_eq_some_iff.mp htarget, ?_⟩
    rw [← hread htarget]
    exact (Option.some.inj haction).symm
  · rintro ⟨id, nodeId, pid, hjob, hnames, rfl⟩
    have htarget := processTarget_eq_some_iff.mpr hnames
    refine ⟨_, ⟨id, hjob, by rw [processEntry, htarget]; rfl⟩, ?_⟩
    conv_rhs => rw [← hread htarget]
    rfl

/-- Every command for the job goes to an active process. -/
def TargetsActive (g : StateGraph F) (jobId : String) : Prop :=
  ∀ scenes dryRun, ∀ action ∈ buildPolicyActions scenes (g.clusterWhy jobId).2 dryRun,
    g.Active (pidId (some action.nodeId) action.targetPid)

/-- No process of the job on a node whose id is not split has ended, and a
process node that is read as another process is read as an active one. -/
structure OnlyLive (g : StateGraph F) (jobId : String) : Prop where
  running : ∀ nodeId pid, UnsplitNodeId nodeId → pid < 2 ^ 32 →
    ∀ node ∈ g.nodes.lookup (pidId (some nodeId) pid), node.OfJob jobId →
      node.metadata.lookup "state" ≠ some "exit" ∧ node.metadata.lookup "state" ≠ some "zombie"
  misread : ∀ id, ∀ node ∈ g.nodes.lookup id, node.OfJob jobId →
    ∀ nodeId pid, Names id nodeId pid → id ≠ pidId (some nodeId) pid →
      g.Active (pidId (some nodeId) pid)

/-- **Commands go to active processes.**  In every reachable graph and for
every job, all commands go to active processes exactly when no process of the
job is left that has ended, and none is read as another that is not active. -/
theorem policyActions_targetActive_iff [FloatArith F] (events : List Event) (jobId : String) :
    (after events : StateGraph F).TargetsActive jobId ↔
      (after events : StateGraph F).OnlyLive jobId := by
  set g : StateGraph F := after events
  have hkeyed : g.Keyed := keyed_after events
  constructor
  · intro h
    have hactive : ∀ {id nodeId pid}, (∃ node ∈ g.nodes.lookup id, node.OfJob jobId) →
        Names id nodeId pid → g.Active (pidId (some nodeId) pid) := by
      intro id nodeId pid hjob hnames
      exact h [] true _ (mem_policyActions.mpr ⟨id, nodeId, pid, hjob, hnames, rfl⟩)
    refine ⟨?_, ?_⟩
    · intro nodeId pid hunsplit hpid node hnode hjob
      have hlisted := hactive ⟨node, hnode, hjob⟩ (names_pidId hunsplit hpid)
      obtain ⟨node', hnode', _, hstate⟩ := (active_iff hkeyed).mp hlisted
      obtain rfl : node = node' := Option.mem_unique hnode hnode'
      exact hstate
    · intro id node hnode hjob nodeId pid hnames _
      exact hactive ⟨node, hnode, hjob⟩ hnames
  · intro h scenes dryRun action haction
    obtain ⟨id, nodeId, pid, ⟨node, hnode, hjob⟩, hnames, rfl⟩ := mem_policyActions.mp haction
    by_cases hid : id = pidId (some nodeId) pid
    · subst hid
      obtain ⟨pidStr, _, _, hparse, _⟩ := hnames.text
      have hstate := h.running nodeId pid hnames.unsplit (Text.lt_of_parseUnsigned hparse) node hnode
        hjob
      exact (active_iff hkeyed).mpr ⟨node, hnode, hjob.1, hstate⟩
    · exact h.misread id node hnode hjob nodeId pid hnames hid

/-- A process of the job has exited, and no cleanup has run since: the command
still goes to its pid. -/
theorem policyActions_targetActive_exited :
    let start : Event := ⟨1000, .processState, "proc", some "job-1", some 7, "start", some "node-a"⟩
    let exit : Event := ⟨2000, .processState, "proc", some "job-1", some 7, "exit", some "node-a"⟩
    let g : StateGraph Binary64 := after [start, exit]
    buildPolicyActions [] (g.clusterWhy "job-1").2 false =
      [⟨"send_fix_command", "node-a", 7, "GracefulShutdown", false⟩] ∧
    ¬ g.Active "node-a::pid-7" ∧
    ¬ g.TargetsActive "job-1" := by
  intro start exit g
  have hactions : buildPolicyActions [] (g.clusterWhy "job-1").2 false =
      [⟨"send_fix_command", "node-a", 7, "GracefulShutdown", false⟩] := by
    decide
  have hended : ¬ g.Active "node-a::pid-7" := by
    decide
  refine ⟨hactions, hended, ?_⟩
  intro h
  have htarget := h [] false ⟨"send_fix_command", "node-a", 7, "GracefulShutdown", false⟩
    (by rw [hactions]; exact List.mem_singleton_self _)
  exact hended htarget

end StateGraph

end ArkInfra
