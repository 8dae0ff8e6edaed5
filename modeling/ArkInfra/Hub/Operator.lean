import ArkInfra.Hub.K8sController
import ArkInfra.Hub.K8sNodeName
import ArkInfra.Lib.Json
import ArkInfra.Lib.Run

/-!
# The remediation operator

`hub/src/k8s_controller.rs`, `run_operator_loop`: the operator polls the
`ArkRemediationRequest` objects of a namespace.  An object whose status has no
phase, or one that is neither `Running` nor final, is set to `Running`, its
action is executed, and its status is set to `Succeeded` or `Failed`.

The server is modelled by the list of the objects.  What it answers to the calls
of a poll is a parameter: whether the listing succeeds, whether each status
patch that reaches it takes effect, and all that the action asks for.  The
client library is a parameter too: it checks a patch before it sends it, and
`ForcesApplyOnly` is its check of the flag that the operator sets.
`poll_listed` says what a poll does: the listed objects take their turns, each
on its own, and the others stay as they are.
-/

namespace ArkInfra

section NodeActions

structure Taint where
  key : String
  value : Option String
  effect : String
deriving DecidableEq, Repr

/-- The part of a pod that the eviction reads. -/
structure Pod where
  name : Option String
  podNamespace : Option String
  nodeName : Option String
  ownerKinds : Option (List String)

/-- The answers to one mapping of a node id to a name. -/
structure NodeLookup where
  direct : Bool
  listed : Except String NodeList

/-- What the API answers while an action is executed. -/
structure NodeApi where
  taintLookup : NodeLookup
  getTaints : String → Except String (Option (List Taint))
  patchTaints : String → List Taint → Except String Unit
  evictLookup : NodeLookup
  listPods : Except String (List Pod)
  evict : String → String → Bool

def taintValue : IrreversibleFault → String
  | .persistentXidError _ _ xidCode => "xid-error:" ++ xidCode
  | .rdmaLinkDown _ interface => "rdma-link-down:" ++ interface
  | .storageDeviceFailure _ device => "storage-failure:" ++ device
  | .otherHardwareFailure _ reason =>
    "hardware-failure:" ++ reason.map fun c => if c = ' ' then '-' else c

/-- Put the taint on the node, unless it has one of that key. -/
def taintNode (nodeId : String) (fault : IrreversibleFault) (api : NodeApi) :
    Except String Unit := do
  let k8sNodeName ← mapNodeIdToK8sName nodeId api.taintLookup.direct api.taintLookup.listed
  let taints := (← api.getTaints k8sNodeName).getD []
  if taints.any fun t => t.key == "ark.io/hardware-failure" then
    return ()
  else
    api.patchTaints k8sNodeName
      (taints ++ [⟨"ark.io/hardware-failure", some (taintValue fault), "NoSchedule"⟩])

/-- The number of pods evicted from the node.  Pods of a daemon set stay; an
eviction that is refused is only logged. -/
def evictPodsOnNode (nodeId : String) (api : NodeApi) : Except String Nat := do
  let k8sNodeName ← mapNodeIdToK8sName nodeId api.evictLookup.direct api.evictLookup.listed
  let pods ← api.listPods
  let podsOnNode := pods.filter fun pod => decide (pod.nodeName = some k8sNodeName)
  podsOnNode.foldlM (fun evictedCount pod =>
    if (pod.ownerKinds.getD []).any fun kind => kind == "DaemonSet" || kind == "Node" then
      .ok evictedCount
    else
      match pod.name with
      | none => .error "Pod name is missing"
      | some podName =>
        if api.evict (pod.podNamespace.getD "default") podName then .ok (evictedCount + 1)
        else .ok evictedCount) 0

end NodeActions

structure OperatorAction where
  request : String
  nodeId : String
  action : String
  reason : String
  dryRun : Bool
deriving DecidableEq, Repr

def executeOperatorAction (a : OperatorAction) (api : NodeApi) : Except String String :=
  if a.dryRun then
    .ok "dry-run"
  else
    let fault := IrreversibleFault.otherHardwareFailure a.nodeId a.reason
    match a.action with
    | "taint_only" => do
        taintNode a.nodeId fault api
        return "taint_only applied"
    | "taint_evict" => do
        taintNode a.nodeId fault api
        let evicted ← evictPodsOnNode a.nodeId api
        return "taint+evict applied, evicted_pods=" ++ toString evicted
    | other => .error ("unsupported action: " ++ other)

/-- An `ArkRemediationRequest` object. -/
structure RemediationRequest where
  name : Option String
  data : Json.Value

inductive Verdict where
  | skip
  | reject (message : String)
  | execute (action : OperatorAction)

namespace RemediationRequest

def requestName (obj : RemediationRequest) : String :=
  obj.name.getD ""

def phase (obj : RemediationRequest) : String :=
  (((obj.data.get "status").bind (Json.Value.get "phase")).bind Json.Value.asStr).getD "Pending"

/-- The request is named, and its phase is empty or pending. -/
def Waiting (obj : RemediationRequest) : Prop :=
  obj.requestName ≠ "" ∧ (obj.phase = "" ∨ obj.phase = "Pending")

instance (obj : RemediationRequest) : Decidable obj.Waiting :=
  inferInstanceAs (Decidable (_ ∧ (_ ∨ _)))

def verdict (obj : RemediationRequest) : Verdict :=
  if obj.requestName = "" then .skip
  else if obj.phase ∈ ["Succeeded", "Failed", "Running"] then .skip
  else
    match obj.data.get "spec" with
    | none => .reject "missing spec"
    | some spec =>
      let nodeId := ((spec.get "nodeId").bind Json.Value.asStr).getD ""
      if nodeId = "" then .reject "spec.nodeId is empty"
      else
        .execute {
          request := obj.requestName
          nodeId := nodeId
          action := ((spec.get "action").bind Json.Value.asStr).getD "taint_evict"
          reason := ((spec.get "reason").bind Json.Value.asStr).getD "operator request"
          dryRun := ((spec.get "dryRun").bind Json.Value.asBool).getD false }

/-- The action that is executed for the object, if any. -/
def actionOf (obj : RemediationRequest) : Option OperatorAction :=
  match obj.verdict with
  | .execute action => some action
  | _ => none

/-- The object with the status of a patch merged into it. -/
def withStatus (obj : RemediationRequest) (phase message lastTransitionTime : String) :
    RemediationRequest :=
  { obj with
    data := obj.data.merge [("status", ((obj.data.get "status").getD .null).merge
      [("phase", .string phase), ("message", .string message),
        ("lastTransitionTime", .string lastTransitionTime)])] }

@[simp] theorem requestName_withStatus (obj : RemediationRequest) (phase message time : String) :
    (obj.withStatus phase message time).requestName = obj.requestName := by
  rfl

@[simp] theorem phase_withStatus (obj : RemediationRequest) (phase message time : String) :
    (obj.withStatus phase message time).phase = phase := by
  simp [RemediationRequest.phase, withStatus, Json.Value.get_merge_head, Json.Value.asStr]

theorem verdict_of_phase {obj : RemediationRequest}
    (h : obj.phase ∈ ["Succeeded", "Failed", "Running"]) : obj.verdict = .skip := by
  unfold verdict
  rw [if_pos h, ite_self]

theorem requestName_of_actionOf {obj : RemediationRequest} {action : OperatorAction}
    (h : obj.actionOf = some action) : action.request = obj.requestName ∧ obj.requestName ≠ "" := by
  unfold actionOf at h
  split at h
  next own hverdict =>
    obtain rfl := Option.some.inj h
    unfold verdict at hverdict
    split_ifs at hverdict with hname
    split at hverdict
    · cases hverdict
    · dsimp only at hverdict
      split_ifs at hverdict
      cases hverdict
      exact ⟨rfl, hname⟩
  next =>
    cases h

end RemediationRequest

/-- The request objects of the namespace, in the order of the listing.  Objects
are addressed by name, so no two have the same. -/
structure RequestStore where
  objects : List RemediationRequest
  unique : ((objects.map RemediationRequest.requestName).filter fun name =>
    decide (name ≠ "")).Nodup

section Client

inductive PatchKind where
  | apply
  | json
  | merge
  | strategic
deriving DecidableEq, Repr

structure PatchParams where
  fieldManager : Option String
  force : Bool

/-- The parameters of the operator's status patches. -/
def statusParams : PatchParams where
  fieldManager := some "ark-operator"
  force := true

/-- The client library, by the patches it sends.  One that it does not send is an
error of the call, and the server does not see it. -/
structure KubeClient where
  sends : PatchParams → PatchKind → Bool

/-- The client forces apply patches only, and does not send another kind with the
flag. -/
def KubeClient.ForcesApplyOnly (client : KubeClient) : Prop :=
  ∀ params kind, params.force = true → kind ≠ .apply → client.sends params kind = false

/-- Whether the server lets a status patch take effect, and the time it writes. -/
structure PatchAnswer where
  applied : Bool
  now : String

/-- The patch is sent, and the server applies it. -/
def PatchAnswer.takesEffect (client : KubeClient) (answer : PatchAnswer) : Bool :=
  client.sends statusParams .merge && answer.applied

end Client

/-- What the API answers while one object is handled: to its first patch, to the
calls of the action, and to its last patch. -/
structure RequestAnswers where
  first : PatchAnswer
  api : NodeApi
  last : PatchAnswer

/-- A poll: whether the listing succeeds, and the answers for each object. -/
structure Poll where
  listed : Bool
  answers : String → RequestAnswers

/-- The objects on the server, and the actions that have been executed. -/
structure Operator where
  store : RequestStore
  executed : List OperatorAction

/-- The phase and the message after an action. -/
def finalStatus : Except String String → String × String
  | .ok message => ("Succeeded", message)
  | .error e => ("Failed", e)

def listLimit : Nat := 200

namespace RequestStore

/-- The status is merged into the object, if the patch is sent and applied.  The
loop discards the result. -/
def patchRequestStatus (client : KubeClient) (store : RequestStore) (name phase : String)
    (message : Option String) (answer : PatchAnswer) : RequestStore :=
  if answer.takesEffect client then
    { objects := store.objects.map fun obj =>
        if obj.requestName = name then obj.withStatus phase (message.getD "") answer.now else obj
      unique := by
        have hnames : RemediationRequest.requestName ∘ (fun obj : RemediationRequest =>
            if obj.requestName = name then obj.withStatus phase (message.getD "") answer.now
            else obj) = RemediationRequest.requestName := by
          funext obj
          by_cases h : obj.requestName = name <;> simp [h]
        rw [List.map_map, hnames]
        exact store.unique }
  else
    store

end RequestStore

namespace Operator

def start (store : RequestStore) : Operator where
  store := store
  executed := []

/-- One turn of the loop over the listed objects. -/
def handleRequest (client : KubeClient) (s : Operator) (obj : RemediationRequest)
    (a : RequestAnswers) : Operator :=
  match obj.verdict with
  | .skip => s
  | .reject message =>
    { s with
      store := s.store.patchRequestStatus client obj.requestName "Failed" (some message) a.first }
  | .execute action =>
    let running := s.store.patchRequestStatus client obj.requestName "Running" none a.first
    let (phase, message) := finalStatus (executeOperatorAction action a.api)
    { store := running.patchRequestStatus client obj.requestName phase (some message) a.last
      executed := s.executed ++ [action] }

/-- One poll.  The token for the objects beyond the limit is not used. -/
def poll (client : KubeClient) (s : Operator) (p : Poll) : Operator :=
  if p.listed then
    (s.store.objects.take listLimit).foldl
      (fun s obj => s.handleRequest client obj (p.answers obj.requestName)) s
  else
    s

/-- The loop after some polls.  A controller that is not enabled never polls. -/
def runOperatorLoop (client : KubeClient) (enabled : Bool) (store : RequestStore)
    (polls : List Poll) : Operator :=
  if !enabled then start store else Run.run (poll client) (start store) polls

end Operator

section OnePoll

namespace RemediationRequest

def afterPatch (client : KubeClient) (obj : RemediationRequest) (phase : String)
    (message : Option String) (answer : PatchAnswer) : RemediationRequest :=
  if answer.takesEffect client then obj.withStatus phase (message.getD "") answer.now else obj

def handled (client : KubeClient) (p : Poll) (obj : RemediationRequest) : RemediationRequest :=
  let a := p.answers obj.requestName
  match obj.verdict with
  | .skip => obj
  | .reject message => obj.afterPatch client "Failed" (some message) a.first
  | .execute action =>
    let (phase, message) := finalStatus (executeOperatorAction action a.api)
    (obj.afterPatch client "Running" none a.first).afterPatch client phase (some message) a.last

variable {client : KubeClient}

@[simp] theorem requestName_afterPatch (obj : RemediationRequest) (phase : String)
    (message : Option String) (answer : PatchAnswer) :
    (obj.afterPatch client phase message answer).requestName = obj.requestName := by
  unfold afterPatch
  split_ifs
  · rfl
  · rfl

theorem phase_afterPatch {obj : RemediationRequest} {phase : String} {message : Option String}
    {answer : PatchAnswer} (h : answer.takesEffect client = true) :
    (obj.afterPatch client phase message answer).phase = phase := by
  rw [afterPatch, if_pos h, phase_withStatus]

theorem afterPatch_of_lost {obj : RemediationRequest} {phase : String} {message : Option String}
    {answer : PatchAnswer} (h : answer.takesEffect client = false) :
    obj.afterPatch client phase message answer = obj := by
  rw [afterPatch, h]
  rfl

theorem finalStatus_mem (result : Except String String) :
    (finalStatus result).1 ∈ ["Succeeded", "Failed", "Running"] := by
  cases result <;> simp [finalStatus]

def Lost (client : KubeClient) (p : Poll) (obj : RemediationRequest) : Prop :=
  (p.answers obj.requestName).first.takesEffect client = false ∧
    (p.answers obj.requestName).last.takesEffect client = false

/-- **An object that is still to be executed after its turn** was executed in its
turn, and both of its patches were lost. -/
theorem lost_of_actionOf_handled {p : Poll} {obj : RemediationRequest} {action : OperatorAction}
    (h : (obj.handled client p).actionOf = some action) :
    obj.actionOf = some action ∧ obj.Lost client p := by
  have hskip : ∀ {o : RemediationRequest}, o.phase ∈ ["Succeeded", "Failed", "Running"] →
      o.actionOf ≠ some action := by
    intro o ho
    simp [actionOf, verdict_of_phase ho]
  unfold handled at h
  cases hverdict : obj.verdict with
  | skip =>
    simp only [hverdict] at h
    simp [actionOf, hverdict] at h
  | reject message =>
    simp only [hverdict] at h
    cases hfirst : (p.answers obj.requestName).first.takesEffect client with
    | true =>
      exact absurd h (hskip (by simp [phase_afterPatch hfirst]))
    | false =>
      rw [afterPatch_of_lost hfirst] at h
      simp [actionOf, hverdict] at h
  | execute own =>
    simp only [hverdict] at h
    cases hlast : (p.answers obj.requestName).last.takesEffect client with
    | true =>
      exact absurd h (hskip (by rw [phase_afterPatch hlast]; exact finalStatus_mem _))
    | false =>
      rw [afterPatch_of_lost hlast] at h
      cases hfirst : (p.answers obj.requestName).first.takesEffect client with
      | true =>
        exact absurd h (hskip (by simp [phase_afterPatch hfirst]))
      | false =>
        rw [afterPatch_of_lost hfirst] at h
        exact ⟨h, hfirst, hlast⟩

theorem handled_of_lost {p : Poll} {obj : RemediationRequest} {action : OperatorAction}
    (haction : obj.actionOf = some action) (h : obj.Lost client p) :
    obj.handled client p = obj := by
  unfold handled
  cases hverdict : obj.verdict with
  | skip | reject message =>
    simp [actionOf, hverdict] at haction
  | execute own =>
    simp only
    rw [afterPatch_of_lost h.2, afterPatch_of_lost h.1]

end RemediationRequest

namespace RequestStore

open RemediationRequest

theorem objects_patchRequestStatus (client : KubeClient) {store : RequestStore}
    {front back : List RemediationRequest} {obj : RemediationRequest}
    (hsplit : store.objects = front ++ obj :: back) (hname : obj.requestName ≠ "")
    (phase : String) (message : Option String) (answer : PatchAnswer) :
    (store.patchRequestStatus client obj.requestName phase message answer).objects =
      front ++ obj.afterPatch client phase message answer :: back := by
  have hunique := store.unique
  rw [hsplit, List.map_append, List.map_cons, List.filter_append,
    List.filter_cons_of_pos (by simpa using hname), List.nodup_middle, List.nodup_cons] at hunique
  have hother : ∀ o ∈ front ++ back, o.requestName ≠ obj.requestName := by
    intro o ho hsame
    refine hunique.1 ?_
    rw [← List.filter_append, ← List.map_append]
    exact List.mem_filter.mpr ⟨List.mem_map.mpr ⟨o, ho, hsame⟩, by simpa using hname⟩
  unfold patchRequestStatus afterPatch
  split_ifs with happlied
  · have hkeep : ∀ os : List RemediationRequest, (∀ o ∈ os, o ∈ front ++ back) →
        os.map (fun o => if o.requestName = obj.requestName then
          o.withStatus phase (message.getD "") answer.now else o) = os := by
      intro os hos
      conv_rhs => rw [← List.map_id os]
      refine List.map_congr_left ?_
      intro o ho
      rw [if_neg (hother o (hos o ho)), id]
    simp only [hsplit, List.map_append, List.map_cons, if_true]
    rw [hkeep front fun o ho => List.mem_append_left _ ho,
      hkeep back fun o ho => List.mem_append_right _ ho]
  · exact hsplit

end RequestStore

namespace Operator

open RemediationRequest

variable {client : KubeClient}

theorem handleRequest_spec {s : Operator} {p : Poll} {front back : List RemediationRequest}
    {obj : RemediationRequest} (hsplit : s.store.objects = front ++ obj :: back) :
    (s.handleRequest client obj (p.answers obj.requestName)).store.objects =
        front ++ obj.handled client p :: back ∧
      (s.handleRequest client obj (p.answers obj.requestName)).executed =
        s.executed ++ obj.actionOf.toList := by
  unfold handleRequest handled actionOf
  have hname : obj.verdict ≠ .skip → obj.requestName ≠ "" := by
    intro hverdict hempty
    exact hverdict (by rw [verdict, if_pos hempty])
  cases hverdict : obj.verdict with
  | skip =>
    exact ⟨hsplit, (List.append_nil _).symm⟩
  | reject message =>
    have hname := hname (by simp [hverdict])
    refine ⟨?_, (List.append_nil _).symm⟩
    exact RequestStore.objects_patchRequestStatus client hsplit hname _ _ _
  | execute action =>
    have hname := hname (by simp [hverdict])
    refine ⟨?_, rfl⟩
    have hrunning := RequestStore.objects_patchRequestStatus client hsplit hname "Running" none
      (p.answers obj.requestName).first
    have hfinal := RequestStore.objects_patchRequestStatus client hrunning (by simpa using hname)
      (finalStatus (executeOperatorAction action (p.answers obj.requestName).api)).1
      (some (finalStatus (executeOperatorAction action (p.answers obj.requestName).api)).2)
      (p.answers obj.requestName).last
    rwa [requestName_afterPatch] at hfinal

theorem foldl_handleRequest {p : Poll} {listed : List RemediationRequest} {s : Operator}
    {front back : List RemediationRequest} (hsplit : s.store.objects = front ++ listed ++ back) :
    let s' := listed.foldl (fun s obj => s.handleRequest client obj (p.answers obj.requestName)) s
    s'.store.objects = front ++ listed.map (handled client p) ++ back ∧
      s'.executed = s.executed ++ listed.filterMap actionOf := by
  induction listed generalizing s front with
  | nil =>
    exact ⟨by simpa using hsplit, by simp⟩
  | cons obj listed ih =>
    have hsplit : s.store.objects = front ++ obj :: (listed ++ back) := by
      simpa using hsplit
    obtain ⟨hobjects, hexecuted⟩ := handleRequest_spec (p := p) hsplit
    have hnext : (s.handleRequest client obj (p.answers obj.requestName)).store.objects =
        (front ++ [obj.handled client p]) ++ listed ++ back := by
      simpa using hobjects
    obtain ⟨ihobjects, ihexecuted⟩ := ih hnext
    simp only [List.foldl_cons, ihobjects, ihexecuted, hexecuted]
    cases hverdict : obj.actionOf <;> simp [hverdict]

/-- **What a poll does.**  The objects it lists take their turns, the others
stay as they are. -/
theorem poll_listed {p : Poll} (h : p.listed = true) (s : Operator) :
    (s.poll client p).store.objects =
        (s.store.objects.take listLimit).map (handled client p) ++ s.store.objects.drop listLimit ∧
      (s.poll client p).executed =
        s.executed ++ (s.store.objects.take listLimit).filterMap actionOf := by
  have hsplit : s.store.objects =
      [] ++ s.store.objects.take listLimit ++ s.store.objects.drop listLimit := by
    simp
  rw [poll, if_pos h]
  exact foldl_handleRequest (p := p) hsplit

theorem poll_unlisted {p : Poll} (h : p.listed = false) (s : Operator) : s.poll client p = s := by
  rw [poll, h]
  rfl

end Operator

end OnePoll

end ArkInfra
