import ArkInfra.Core.RuleEngine
import ArkInfra.Hub.ExecuteGuard
import ArkInfra.Hub.K8sController

/-!
# The diagnose request

`hub/src/main.rs`, the handler of `/api/v1/diagnose`: the recent events of a job
are matched against the rules, the processes of the job are collected, and each
becomes an action.  A request that may execute takes a permit and executes the
first actions, up to the limit of the guard.

After that, if a matched scene is a physical degradation and there is a
controller, the node of every process is isolated.  This second loop runs over
all processes, not over the limited actions, and whether or not the permit was
taken.
-/

namespace ArkInfra

/-- What the sections of one call meet with, and the text of its error. -/
structure FaultAnswers where
  check : ApiAnswer
  taint : ApiAnswer
  evict : ApiAnswer
  record : ApiAnswer
  error : String

namespace K8sController

/-- A call that is awaited, with no other call in between. -/
def handleIrreversibleFault (s : K8sController) (fault : IrreversibleFault) (a : FaultAnswers) :
    Except String Unit × K8sController :=
  let checked := s.runSection (.enter fault) a.check
  if checked.2.next = .returned then (.ok (), checked.1)
  else
    let tainted := checked.1.runSection checked.2 a.taint
    if tainted.2.next = .returned then (.error a.error, tainted.1)
    else
      let evicted := tainted.1.runSection tainted.2 a.evict
      let recorded := evicted.1.runSection evicted.2 a.record
      (.ok (), recorded.1)

end K8sController

/-- A request with what the handler reads: its parameters, the graph, the rules,
the buffered events, the settings and the clock. -/
structure DiagnoseRequest (F : Type) where
  params : HashMap String String
  graph : StateGraph F
  rules : RuleEngine F
  eventBuffer : List Event
  allowExecute : Bool
  policyVersion : String
  nowTs : Nat

/-- What the handler acts on, with the answers it will get: the connections, the
guard, the controller, the time of the request id, and the API. -/
structure ActionContext where
  conns : Senders
  guard : ExecuteGuard
  controller : Option K8sController
  requestTime : Nat
  answers : Json.Value → FaultAnswers

structure DiagnoseReply (F : Type) where
  jobId : String
  windowS : Nat
  eventCount : Nat
  matchedRules : List (Rule F)
  processes : List Json.Value
  policy : List PolicyAction
  dryRun : Bool
  executeRequested : Bool
  executeEnabled : Bool
  requestId : String
  policyVersion : String
  maxActions : Nat
  cooldownS : Nat
  truncated : Bool
  concurrencyLimited : Bool
  execution : List Json.Value

structure Executed where
  guard : ExecuteGuard
  controller : Option K8sController
  sent : List FixCommand
  results : List Json.Value
  concurrencyLimited : Bool

structure DiagnoseOutcome (F : Type) where
  reply : Except String (DiagnoseReply F)
  guard : ExecuteGuard
  controller : Option K8sController
  sent : List FixCommand

def isPhysicalDegradation (scene : String) : Bool :=
  Text.contains scene "physical_degradation"

/-- The controller and the results while the nodes are isolated. -/
structure FaultLog where
  controller : K8sController
  results : List Json.Value

/-- The node of an entry of the process list. -/
def entryNode (p : Json.Value) : Option String :=
  (p.get "node_id").bind Json.Value.asStr

def degradationFault (nodeId : String) : IrreversibleFault :=
  .otherHardwareFailure nodeId "rdma physical degradation"

/-- One turn of the loop over the processes. -/
def isolateNode (answers : Json.Value → FaultAnswers) (log : FaultLog) (p : Json.Value) :
    FaultLog :=
  match entryNode p with
  | none => log
  | some nodeId =>
    match log.controller.handleIrreversibleFault (degradationFault nodeId) (answers p) with
    | (.ok _, controller) => { log with controller := controller }
    | (.error e, controller) => {
        controller := controller
        results := log.results ++ [.object [("node_id", .string nodeId),
          ("action", .string "taint_evict"), ("success", .bool false), ("error", .string e)]] }

namespace ActionContext

/-- The loop over the actions, under a permit. -/
def executeTrimmed (w : ActionContext) (guard : ExecuteGuard) (nowTs : Nat)
    (trimmedPolicy : List PolicyAction) : ActionLog × Bool :=
  match guard.tryAcquire with
  | .ok held =>
    let log := ActionLog.executeActions w.conns nowTs ⟨held, [], []⟩ trimmedPolicy
    ({ log with guard := log.guard.release }, false)
  | .error _ =>
    (⟨guard, [], [.object [("success", .bool false),
      ("error", .string "concurrency_limit_reached")]]⟩, true)

def executePolicy (w : ActionContext) (guard : ExecuteGuard) (nowTs : Nat) (scenes : List String)
    (processes : List Json.Value) (trimmedPolicy : List PolicyAction) : Executed :=
  let (log, concurrencyLimited) := w.executeTrimmed guard nowTs trimmedPolicy
  match (if scenes.any isPhysicalDegradation then w.controller else none) with
  | some controller =>
    let faults := processes.foldl (isolateNode w.answers) ⟨controller, log.results⟩
    ⟨log.guard, some faults.controller, log.sent, faults.results, concurrencyLimited⟩
  | none => ⟨log.guard, w.controller, log.sent, log.results, concurrencyLimited⟩

end ActionContext

namespace DiagnoseRequest

variable {F : Type}

def windowS (r : DiagnoseRequest F) : Nat :=
  max 10 (min 3600 (((r.params.lookup "window_s").bind (Text.parseUnsigned (2 ^ 64))).getD 60))

def executeRequested (r : DiagnoseRequest F) : Bool :=
  ((r.params.lookup "execute").map fun v =>
    v == "1" || Text.toAsciiLowercase v == "true").getD false

def execute (r : DiagnoseRequest F) : Bool :=
  r.allowExecute && r.executeRequested

def candidateEvents (r : DiagnoseRequest F) (jobId : String) : List Event :=
  let cutoff := r.nowTs - r.windowS * 1000
  (r.eventBuffer.filter fun e => decide (cutoff ≤ e.ts)).filter fun e =>
    decide (e.jobId = some jobId)

variable [FloatCompare F]

def matchedRules (r : DiagnoseRequest F) (jobId : String) : List (Rule F) :=
  r.rules.matchRules r.graph (r.candidateEvents jobId)

def scenes (r : DiagnoseRequest F) (jobId : String) : List String :=
  (r.matchedRules jobId).map fun rule => rule.scene

/-- The handler. -/
def diagnose (r : DiagnoseRequest F) (w : ActionContext) : DiagnoseOutcome F :=
  match r.params.lookup "job_id" with
  | none => {
      reply := .error "missing job_id parameter"
      guard := w.guard
      controller := w.controller
      sent := [] }
  | some jobId =>
    let processes := (r.graph.clusterWhy jobId).2
    let policy := buildPolicyActions (r.scenes jobId) processes (!r.execute)
    let (requestId, guard) := w.guard.nextRequestId w.requestTime
    let trimmedPolicy := policy.take guard.maxActions
    let executed :=
      if r.execute then
        w.executePolicy guard r.nowTs (r.scenes jobId) processes trimmedPolicy
      else
        ⟨guard, w.controller, [], [], false⟩
    { reply := .ok {
        jobId := jobId
        windowS := r.windowS
        eventCount := (r.candidateEvents jobId).length
        matchedRules := r.matchedRules jobId
        processes := processes
        policy := trimmedPolicy
        dryRun := !r.execute
        executeRequested := r.executeRequested
        executeEnabled := r.allowExecute
        requestId := requestId
        policyVersion := r.policyVersion
        maxActions := guard.maxActions
        cooldownS := guard.cooldownS
        truncated := decide (trimmedPolicy.length < policy.length)
        concurrencyLimited := executed.concurrencyLimited
        execution := executed.results }
      guard := executed.guard
      controller := executed.controller
      sent := executed.sent }

end DiagnoseRequest

end ArkInfra
