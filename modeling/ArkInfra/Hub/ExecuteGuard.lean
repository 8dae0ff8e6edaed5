import ArkInfra.Hub.ClusterWhy
import ArkInfra.Hub.Connections
import ArkInfra.Hub.Wal
import ArkInfra.Lib.Cooldown
import ArkInfra.Lib.JsonText

/-!
# The guard of the execute requests

`hub/src/main.rs`: a diagnosis that is asked to execute its actions works under
an `ExecuteGuard`.  The guard has a number of permits, of which a request takes
one; it limits the actions of one request; and it keeps the time of the last
command to every node, so that a node gets a command only once per cooldown.

`execute_action` is one turn of the loop over the actions: the cooldown is
checked and recorded first, then the command is sent.  All actions of a request
ask at the same moment, so the cooldown is a gate that meets one batch
(`sent_executeActions`).
-/

namespace ArkInfra

/-- The guard, with the permits that are left in its semaphore. -/
structure ExecuteGuard where
  permits : Nat
  cooldownMs : Nat
  maxActions : Nat
  lastActionMs : HashMap String Nat
  requestSeq : Nat

namespace ExecuteGuard

def new (maxConcurrency cooldownS maxActions : Nat) : ExecuteGuard where
  permits := max maxConcurrency 1
  cooldownMs := saturatingMul cooldownS 1000
  maxActions := max maxActions 1
  lastActionMs := ∅
  requestSeq := 1

def nextRequestId (guard : ExecuteGuard) (nowMs : Nat) : String × ExecuteGuard :=
  ("req-" ++ toString nowMs ++ "-" ++ toString guard.requestSeq,
    { guard with requestSeq := (guard.requestSeq + 1) % 2 ^ 64 })

def cooldownS (guard : ExecuteGuard) : Nat :=
  guard.cooldownMs / 1000

/-- The guard with one permit taken. -/
def tryAcquire (guard : ExecuteGuard) : Except String ExecuteGuard :=
  if guard.permits = 0 then .error "concurrency_limit_reached"
  else .ok { guard with permits := guard.permits - 1 }

def release (guard : ExecuteGuard) : ExecuteGuard :=
  { guard with permits := guard.permits + 1 }

def cooldownKey (nodeId action : String) : String :=
  nodeId ++ "::" ++ action

def checkAndRecordCooldown (guard : ExecuteGuard) (nodeId action : String) (nowMs : Nat) :
    Except String ExecuteGuard :=
  let key := cooldownKey nodeId action
  let recorded := { guard with lastActionMs := guard.lastActionMs.insert key nowMs }
  match guard.lastActionMs.lookup key with
  | some prev =>
    if nowMs - prev < guard.cooldownMs then
      .error ("cooldown_active:" ++ toString guard.cooldownS ++ "s")
    else
      .ok recorded
  | none => .ok recorded

end ExecuteGuard

/-- A command that was handed to the sender of a connection. -/
structure FixCommand where
  nodeId : String
  connection : ConnId
  message : String
deriving DecidableEq, Repr

/-- The connection table, and the senders whose receiver is still there. -/
structure Senders where
  table : HashMap String ConnId
  delivers : ConnId → Bool

def sendFixCommand (conns : Senders) (nodeId : String) (targetPid : Nat) (action : String) :
    Except String FixCommand :=
  match conns.table.lookup nodeId with
  | none => .error ("节点 " ++ nodeId ++ " 未连接")
  | some sender =>
    let command : Json.Value := .object
      [("action", .string action), ("intent", .string "fix"), ("target_pid", .number targetPid)]
    if conns.delivers sender then .ok ⟨nodeId, sender, String.ofList command.write⟩
    else .error "发送命令失败：连接已关闭"

/-- What the loop over the actions has done so far. -/
structure ActionLog where
  guard : ExecuteGuard
  sent : List FixCommand
  results : List Json.Value

def actionResult (action : PolicyAction) (success : Bool) (error : Option String) : Json.Value :=
  .object [("node_id", .string action.nodeId), ("target_pid", .number action.targetPid),
    ("action", .string action.action), ("success", .bool success),
    ("error", Json.ofOption .string error)]

namespace ActionLog

def executeAction (conns : Senders) (nowTs : Nat) (log : ActionLog) (action : PolicyAction) :
    ActionLog :=
  match log.guard.checkAndRecordCooldown action.nodeId action.action nowTs with
  | .error e => { log with results := log.results ++ [actionResult action false (some e)] }
  | .ok guard =>
    match sendFixCommand conns action.nodeId action.targetPid action.action with
    | .ok command => {
        guard := guard
        sent := log.sent ++ [command]
        results := log.results ++ [actionResult action true none] }
    | .error e => {
        guard := guard
        sent := log.sent
        results := log.results ++ [actionResult action false (some e)] }

def executeActions (conns : Senders) (nowTs : Nat) (log : ActionLog)
    (actions : List PolicyAction) : ActionLog :=
  actions.foldl (executeAction conns nowTs) log

end ActionLog

section Batch

def PolicyAction.cooldownKey (action : PolicyAction) : String :=
  ExecuteGuard.cooldownKey action.nodeId action.action

theorem ExecuteGuard.checkAndRecordCooldown_cases (guard : ExecuteGuard) (action : PolicyAction)
    (nowMs : Nat) :
    (∃ last, Cooldown.grant guard.cooldownMs nowMs guard.lastActionMs action.cooldownKey =
          some last ∧
        guard.checkAndRecordCooldown action.nodeId action.action nowMs =
          .ok { guard with lastActionMs := last }) ∨
      (Cooldown.grant guard.cooldownMs nowMs guard.lastActionMs action.cooldownKey = none ∧
        ∃ e, guard.checkAndRecordCooldown action.nodeId action.action nowMs = .error e) := by
  unfold checkAndRecordCooldown Cooldown.grant PolicyAction.cooldownKey
  dsimp only
  cases guard.lastActionMs.lookup (cooldownKey action.nodeId action.action) with
  | none =>
    exact Or.inl ⟨_, rfl, rfl⟩
  | some prev =>
    by_cases hcool : nowMs - prev < guard.cooldownMs
    · exact Or.inr ⟨if_pos hcool, _, if_pos hcool⟩
    · exact Or.inl ⟨_, if_neg hcool, if_neg hcool⟩

/-- The command for an action, if it can be sent. -/
def Senders.command (conns : Senders) (action : PolicyAction) : Option FixCommand :=
  (sendFixCommand conns action.nodeId action.targetPid action.action).toOption

namespace ActionLog

/-- **The commands of a request** are those of the granted actions. -/
theorem sent_executeActions (conns : Senders) (nowTs : Nat) (log : ActionLog)
    (actions : List PolicyAction) :
    (log.executeActions conns nowTs actions).sent = log.sent ++
      (Cooldown.granted log.guard.cooldownMs nowTs PolicyAction.cooldownKey
        log.guard.lastActionMs actions).filterMap conns.command := by
  induction actions generalizing log with
  | nil =>
    exact (List.append_nil _).symm
  | cons action actions ih =>
    have ih := ih (log.executeAction conns nowTs action)
    rw [executeActions, List.foldl_cons]
    refine ih.trans ?_
    unfold executeAction
    rcases log.guard.checkAndRecordCooldown_cases action nowTs with
      ⟨last, hgrant, hcheck⟩ | ⟨hgrant, e, hcheck⟩
    · rw [Cooldown.granted_cons_of_some _ _ _ hgrant, hcheck]
      cases hsend : sendFixCommand conns action.nodeId action.targetPid action.action with
      | ok command =>
        simp [Senders.command, hsend, Except.toOption]
      | error e =>
        simp [Senders.command, hsend, Except.toOption]
    · rw [Cooldown.granted_cons_of_none _ _ _ hgrant, hcheck]

end ActionLog

theorem capacity_cooldownKey (cooldownMs : Nat) {actions : List PolicyAction} {kind : String}
    (hkind : ∀ action ∈ actions, action.action = kind) :
    Cooldown.capacity cooldownMs (actions.map PolicyAction.cooldownKey) =
      Cooldown.capacity cooldownMs (actions.map PolicyAction.nodeId) := by
  have hinjective : Function.Injective fun nodeId => ExecuteGuard.cooldownKey nodeId kind := by
    intro a b h
    exact (String.append_left_inj "::").mp ((String.append_left_inj kind).mp h)
  have hkeys : actions.map PolicyAction.cooldownKey =
      (actions.map PolicyAction.nodeId).map fun nodeId => ExecuteGuard.cooldownKey nodeId kind := by
    rw [List.map_map]
    refine List.map_congr_left ?_
    intro action haction
    rw [PolicyAction.cooldownKey, hkind action haction]
    rfl
  rw [hkeys, Cooldown.capacity_map cooldownMs hinjective]

end Batch

end ArkInfra
