import ArkInfra.Agent.Executor
import ArkInfra.Hub.DiagnoseLimits
import ArkInfra.Hub.EventMessage
import ArkInfra.Lib.Worker

/-!
# Commands from the hub to the agent

`agent/src/hub_forwarder.rs`: a task of the agent listens on the connection to
the hub and executes the commands that arrive, one after the other.  A text that
is no command is ignored.  When the forwarder reconnects, which it does when an
event cannot be sent, it aborts the task: unread commands are lost, and a
command that is being executed is cut off at the call it stands at.

A graceful shutdown waits ten seconds between its signal and its kill, so a
reconnection in between leaves the process alive.  `listener_kills` bounds how
often that can happen, in every run: at most once for each reconnection.
`hub_commands_executed` follows the commands of the hub to the calls of the
agent.
-/

namespace ArkInfra

open Json

/-- A command of the hub, as the agent declares it. -/
structure HubCommand where
  intent : String
  targetPid : Nat
  action : Option String
deriving DecidableEq, Repr

namespace HubCommand

/-- The derived deserializer. -/
def read (v : Value) : Option HubCommand := do
  match ← recordFields ["intent", "target_pid", "action"] v with
  | [intent, targetPid, action] =>
    some
      { intent := ← required Value.asStr intent
        targetPid := ← required (unsigned (2 ^ 32)) targetPid
        action := ← optionally Value.asStr action }
  | _ => none

end HubCommand

namespace CommandListener

open ActionExecutor

inductive WsMessage where
  | text (text : String)
  | close
  | error (e : String)
  | other

section Commands

variable (unicode : Lowercase)

def actionFromString (actionStr : String) : Except String ActionType :=
  let lower := unicode.lower actionStr
  if lower ∈ ["gracefulshutdown", "graceful_shutdown"] then .ok (.gracefulShutdown 10 10 true)
  else if lower ∈ ["killprocess", "kill_process", "kill"] then .ok .killProcess
  else if lower ∈ ["signal", "sigusr1"] then .ok (.signal 10)
  else
    match ActionType.fromRecommendation unicode actionStr with
    | some action => .ok action
    | none => .error ("未知动作类型: " ++ actionStr)

/-- The action of a command; a graceful shutdown when it names none. -/
def actionOf (cmd : HubCommand) : Except String ActionType :=
  match cmd.action with
  | some actionStr => actionFromString unicode actionStr
  | none => .ok (.gracefulShutdown 10 10 true)

def handleCommand (cmd : HubCommand) : OsProgram (Except String Unit) :=
  if cmd.intent = "fix" then
    match actionOf unicode cmd with
    | .error e => pure (.error e)
    | .ok action => do
        let outcome ← execute action cmd.targetPid
        pure (outcome.map fun _ => ())
  else
    pure (.ok ())

/-- What the listener does with a message. -/
def react (json : JsonParser) : WsMessage → Reaction HubCommand
  | .text text =>
    match json.fromStr HubCommand.read text with
    | some cmd => .begin cmd
    | none => .skip
  | .close => .stop
  | .error _ => .stop
  | .other => .skip

end Commands

abbrev Listener : Type :=
  Worker WsMessage HubCommand OsCall OsCall.Answer (Except String Unit)

/-- The messages of the hub, the steps of the listener and the reconnections of
the forwarder, which succeed or leave no listener. -/
abbrev Step : Type :=
  Worker.Input WsMessage

def step (unicode : Lowercase) (json : JsonParser) (host : OsHost) : Listener → Step → Listener :=
  Worker.step (react json) (handleCommand unicode) host

def run (unicode : Lowercase) (json : JsonParser) (host : OsHost) (steps : List Step) : Listener :=
  Run.run (step unicode json host) Worker.new steps

section Kills

variable {unicode : Lowercase} {json : JsonParser} {host : OsHost}

/-- The command asks for the end of its process. -/
def isLethal (unicode : Lowercase) (cmd : HubCommand) : Bool :=
  decide (cmd.intent = "fix") &&
    match actionOf unicode cmd with
    | .ok (.gracefulShutdown _ _ forceKill) => forceKill
    | .ok .killProcess => true
    | _ => false

/-- The command asked for the end of its process, which was not killed. -/
def leftAlive (unicode : Lowercase) (e : Execution HubCommand OsCall) : Bool :=
  isLethal unicode e.job && decide (OsCall.kill9 e.job.targetPid ∉ e.calls)

theorem kill9_mem_of_isLethal {cmd : HubCommand} (h : isLethal unicode cmd = true)
    (before : List OsCall) :
    OsCall.kill9 cmd.targetPid ∈ (handleCommand unicode cmd).calls host before := by
  simp only [isLethal, Bool.and_eq_true, decide_eq_true_eq] at h
  obtain ⟨hintent, hkills⟩ := h
  split at hkills
  next signal waitSeconds forceKill haction =>
    simp [handleCommand, hintent, haction, execute, hkills]
  next haction =>
    simp [handleCommand, hintent, haction, execute]
  next =>
    cases hkills

theorem countP_leftAlive_le (before : List OsCall) (es : List (Execution HubCommand OsCall)) :
    es.countP (leftAlive unicode) ≤ Worker.cuts (handleCommand unicode) host before es := by
  induction es generalizing before with
  | nil =>
    exact Nat.le_refl 0
  | cons e es ih =>
    have hrest := ih (before ++ e.calls)
    rw [List.countP_cons, Worker.cuts]
    by_cases hdone : e.calls = (handleCommand unicode e.job).calls host before
    · have hkilled : leftAlive unicode e = false := by
        unfold leftAlive
        cases hlethal : isLethal unicode e.job with
        | false => rfl
        | true => simpa [hdone] using kill9_mem_of_isLethal hlethal before
      rw [if_pos hdone, hkilled]
      simpa using hrest
    · rw [if_neg hdone]
      split <;> omega

end Kills

/-- **How many processes a reconnection can save.**  In every run of messages,
steps and reconnections: the commands are executed in the order of their
messages and each at most once; every call is one of a command that was
delivered; and the commands that should have ended a process and did not are no
more than the reconnections, and the one that is being executed.  Without
reconnections, every such command has killed its process as soon as the listener
is idle. -/
theorem listener_kills (unicode : Lowercase) (json : JsonParser) (host : OsHost)
    (steps : List Step) :
    let s := run unicode json host steps
    let commands := Worker.jobsOf (react json) (Worker.delivered steps)
    (s.begun.map Execution.job).Sublist commands ∧
    (∀ call ∈ s.history, ∃ cmd ∈ commands, ∃ before,
      call ∈ (handleCommand unicode cmd).calls host before) ∧
    s.begun.countP (leftAlive unicode) ≤ Worker.aborts steps + s.current.length ∧
    (Worker.aborts steps = 0 → s.inbox = [] → s.current = [] →
      ∀ cmd ∈ commands, isLethal unicode cmd = true → OsCall.kill9 cmd.targetPid ∈ s.history) := by
  intro s commands
  have haccounts : Worker.Accounts (handleCommand unicode) host (react json) s
      (Worker.delivered steps) (Worker.aborts steps) := Worker.accounts_run steps
  obtain ⟨hbegins, hcuts⟩ := Worker.begins_begun haccounts
  have horder : (s.begun.map Execution.job).Sublist commands :=
    (List.sublist_append_left _ _).trans haccounts.order
  have hbound : s.begun.countP (leftAlive unicode) ≤ Worker.aborts steps + s.current.length :=
    (countP_leftAlive_le [] s.begun).trans hcuts
  refine ⟨horder, ?_, hbound, ?_⟩
  · intro call hcall
    obtain ⟨e, he, hmem⟩ := List.mem_flatMap.mp hcall
    obtain ⟨before, hbegun⟩ := Worker.exists_of_begins _ _ hbegins he
    exact ⟨e.job, horder.subset (List.mem_map_of_mem he), before, hbegun.subset hmem⟩
  · intro hkept hinbox hidle cmd hcmd hlethal
    have hjobs : s.begun.map Execution.job ++ Worker.jobsOf (react json) s.inbox = commands :=
      Worker.keeps_run steps hkept
    rw [hinbox, Worker.jobsOf_nil, List.append_nil] at hjobs
    have hbegun : cmd ∈ s.begun.map Execution.job := hjobs ▸ hcmd
    obtain ⟨e, he, rfl⟩ := List.mem_map.mp hbegun
    -- nothing was cut off, so nothing was left alive
    have hnone : s.begun.countP (leftAlive unicode) = 0 := by
      rw [hkept, hidle] at hbound
      exact Nat.le_zero.mp hbound
    have halive := List.countP_eq_zero.mp hnone e he
    simp only [leftAlive, hlethal, Bool.true_and, decide_eq_true_eq, Decidable.not_not] at halive
    exact List.mem_flatMap.mpr ⟨e, he, halive⟩

def shutdown : WsMessage :=
  .text (String.ofList (Value.object [("action", .string "GracefulShutdown"),
    ("intent", .string "fix"), ("target_pid", .number 7)]).write)

/-- A listener that is left alone kills the process; one that is dropped while the
process has its ten seconds does not. -/
theorem listener_kills_once :
    OsCall.kill9 7 ∈
      (run .ascii HubMessage.compactParser OsHost.denying
        [.deliver shutdown, .turn, .turn, .turn, .turn]).history ∧
    (run .ascii HubMessage.compactParser OsHost.denying
        [.deliver shutdown, .turn, .turn, .abort true, .turn]).history =
      [OsCall.killSignal 10 7, OsCall.sleep 10] := by
  refine ⟨?_, by decide +kernel⟩
  exact (listener_kills .ascii HubMessage.compactParser OsHost.denying
    [.deliver shutdown, .turn, .turn, .turn, .turn]).2.2.2 rfl (by decide +kernel)
    (by decide +kernel) ⟨"fix", 7, some "GracefulShutdown"⟩
    (by decide +kernel) (by decide)

section HubCommands

variable (unicode : Lowercase) {json : JsonParser} {conns : Senders}

/-- What the agent reads of the command for an action. -/
def commandOf (action : PolicyAction) : HubCommand where
  intent := "fix"
  targetPid := action.targetPid
  action := some action.action

/-- What an action of the hub makes the agent call. -/
def policyCalls (action : PolicyAction) : List OsCall :=
  if action.action = "KillProcess" then
    [OsCall.kill9 action.targetPid]
  else
    [OsCall.killSignal 10 action.targetPid, OsCall.sleep 10, OsCall.kill9 action.targetPid]

theorem action_of_mem_buildPolicyActions {scenes : List String} {processes : List Value}
    {dryRun : Bool} {action : PolicyAction}
    (h : action ∈ buildPolicyActions scenes processes dryRun) :
    (action.action = "KillProcess" ∨ action.action = "GracefulShutdown") ∧
      action.targetPid < 2 ^ 32 := by
  obtain ⟨p, -, hp⟩ := List.mem_filterMap.mp h
  simp only [bind, Option.bind_eq_some_iff] at hp
  obtain ⟨nodeId, -, pid, -, heq⟩ := hp
  obtain rfl := Option.some.inj heq
  refine ⟨?_, Nat.mod_lt pid (by decide)⟩
  dsimp only
  split
  · exact Or.inl rfl
  · exact Or.inr rfl

def commandText (action : PolicyAction) : String :=
  String.ofList (Value.object [("action", .string action.action), ("intent", .string "fix"),
    ("target_pid", .number action.targetPid)]).write

theorem command_eq {action : PolicyAction} {cmd : FixCommand}
    (h : conns.command action = some cmd) :
    conns.table.lookup action.nodeId = some cmd.connection ∧ cmd.message = commandText action := by
  unfold Senders.command sendFixCommand at h
  cases hsender : conns.table.lookup action.nodeId with
  | none =>
    simp [hsender, Except.toOption] at h
  | some sender =>
    simp only [hsender] at h
    split at h
    · obtain rfl := Option.some.inj h
      exact ⟨rfl, rfl⟩
    · cases h

/-- **The wire.**  The agent begins the command that the hub sent. -/
theorem react_commandText (hjson : json.Inverts) {action : PolicyAction}
    (hpid : action.targetPid < 2 ^ 32) :
    react json (.text (commandText action)) = .begin (commandOf action) := by
  have hread : HubCommand.read (.object [("action", .string action.action),
      ("intent", .string "fix"), ("target_pid", .number action.targetPid)]) =
        some (commandOf action) := by
    have hpid : action.targetPid < 4294967296 := hpid
    simp [HubCommand.read, recordFields, fieldOf, required, optionally, unsigned,
      Value.asStr, Value.asU64, commandOf, hpid, Option.filter]
  simp only [react, commandText, hjson.fromStr_write, hread]

/-- The calls for a command of the hub do not depend on the answers to them. -/
theorem calls_commandOf (host : OsHost) {action : PolicyAction}
    (h : action.action = "KillProcess" ∨ action.action = "GracefulShutdown")
    (before : List OsCall) :
    (handleCommand unicode (commandOf action)).calls host before = policyCalls action := by
  have hkill : unicode.lower "KillProcess" = "killprocess" :=
    (unicode.lower_plain _ (by decide)).trans (by decide)
  have hgraceful : unicode.lower "GracefulShutdown" = "gracefulshutdown" :=
    (unicode.lower_plain _ (by decide)).trans (by decide)
  have hintent : (commandOf action).intent = "fix" := rfl
  have hpid : (commandOf action).targetPid = action.targetPid := rfl
  rcases h with h | h
  · have haction : actionOf unicode (commandOf action) = .ok .killProcess := by
      simp [actionOf, commandOf, actionFromString, h, hkill]
    simp [handleCommand, hintent, haction, execute, policyCalls, h, hpid]
  · have haction : actionOf unicode (commandOf action) = .ok (.gracefulShutdown 10 10 true) := by
      simp [actionOf, commandOf, actionFromString, h, hgraceful]
    simp [handleCommand, hintent, haction, execute, policyCalls, h, hpid]

/-- The actions whose commands go out on a connection. -/
def onConnection (conns : Senders) (connection : ConnId) (action : PolicyAction) : Bool :=
  match conns.command action with
  | some cmd => decide (cmd.connection = connection)
  | none => false

theorem map_message_filter (connection : ConnId) (actions : List PolicyAction) :
    ((actions.filterMap conns.command).filter fun cmd => decide (cmd.connection = connection)).map
        FixCommand.message =
      (actions.filter (onConnection conns connection)).map commandText := by
  induction actions with
  | nil =>
    rfl
  | cons action actions ih =>
    cases hcmd : conns.command action with
    | none =>
      simpa [hcmd, onConnection] using ih
    | some cmd =>
      have hmessage := (command_eq hcmd).2
      by_cases hconn : cmd.connection = connection
      · simpa [hcmd, onConnection, hconn, hmessage] using ih
      · simpa [hcmd, onConnection, hconn] using ih

theorem lookup_of_onConnection {connection : ConnId} {action : PolicyAction}
    (h : onConnection conns connection action = true) :
    conns.table.lookup action.nodeId = some connection := by
  unfold onConnection at h
  split at h
  next cmd hcmd =>
    rw [(command_eq hcmd).1, of_decide_eq_true h]
  next =>
    cases h

theorem jobsOf_commandText (hjson : json.Inverts) {actions : List PolicyAction}
    (hpids : ∀ action ∈ actions, action.targetPid < 2 ^ 32) :
    Worker.jobsOf (react json) (actions.map fun action => .text (commandText action)) =
      actions.map commandOf := by
  rw [Worker.jobsOf, List.filterMap_map, ← List.filterMap_eq_map]
  refine List.filterMap_congr ?_
  intro action haction
  simp [react_commandText hjson (hpids action haction)]

/-- **The agent's half.**  Of the commands that arrive, the first calls are made,
and all of them once the listener is idle. -/
theorem history_of_commands (hjson : json.Inverts) (host : OsHost) {actions : List PolicyAction}
    (hnames : ∀ action ∈ actions,
      (action.action = "KillProcess" ∨ action.action = "GracefulShutdown") ∧
        action.targetPid < 2 ^ 32)
    {steps : List Step} (hkept : Worker.aborts steps = 0)
    (hdelivered : Worker.delivered steps = actions.map fun action => .text (commandText action)) :
    let s := run unicode json host steps
    s.history <+: actions.flatMap policyCalls ∧
      (s.inbox = [] → s.current = [] → s.history = actions.flatMap policyCalls) := by
  intro s
  have haccounts : Worker.Accounts (handleCommand unicode) host (react json) s
      (Worker.delivered steps) 0 := hkept ▸ Worker.accounts_run steps
  have hjobs : s.begun.map Execution.job ++ Worker.jobsOf (react json) s.inbox =
      Worker.jobsOf (react json) (Worker.delivered steps) := Worker.keeps_run steps hkept
  rw [hdelivered, jobsOf_commandText hjson fun action haction => (hnames action haction).2] at hjobs
  -- the calls of a command are known, so those made before it do not matter
  let known : HubCommand → List OsCall := fun cmd => (handleCommand unicode cmd).calls host []
  have hcalls : ∀ action ∈ actions, ∀ before,
      (handleCommand unicode (commandOf action)).calls host before = policyCalls action :=
    fun action haction before => calls_commandOf unicode host (hnames action haction).1 before
  have hknown : ∀ e ∈ s.begun, ∀ before,
      (handleCommand unicode e.job).calls host before = known e.job := by
    intro e he before
    have hmem : e.job ∈ actions.map commandOf :=
      hjobs ▸ List.mem_append_left _ (List.mem_map_of_mem he)
    obtain ⟨action, haction, hjob⟩ := List.mem_map.mp hmem
    rw [← hjob, hcalls action haction before]
    exact (hcalls action haction []).symm
  have hpolicy : (actions.map commandOf).flatMap known = actions.flatMap policyCalls := by
    rw [List.flatMap_map]
    exact List.flatMap_congr fun action haction => hcalls action haction []
  obtain ⟨hfirst, hall⟩ := Worker.history_known haccounts known hknown
  refine ⟨?_, ?_⟩
  · rw [← hpolicy, ← hjobs, List.flatMap_append]
    exact hfirst.trans (List.prefix_append _ _)
  · intro hinbox hcurrent
    rw [hinbox, Worker.jobsOf_nil, List.append_nil] at hjobs
    rw [hall hcurrent, hjobs, hpolicy]

end HubCommands

/-- The agent of one process of the job, and its connection. -/
def oneAgent : Senders where
  table := AList.insert "node-a" 3 ∅
  delivers := fun _ => true

def oneProcess : Value :=
  .object [("node_id", .string "node-a"), ("pid", .number 7)]

end CommandListener

end ArkInfra
