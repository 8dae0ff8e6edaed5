import ArkInfra.Lib.Interact
import ArkInfra.Lib.Lowercase

/-!
# Actions and their execution

`agent/src/exec/action.rs` and `agent/src/exec/executor.rs`.  An action is read
off a text in plain language by its keywords, the first group that occurs
deciding, and executed by calls to the operating system: commands that are
spawned, files that are written, pauses.  Every call may fail.

An execution is a program in the sense of `Interact`, so its calls are known
for every behaviour of the operating system.  `calls_gracefulShutdown` is the
one that matters most: a forced shutdown always ends in a kill, also when the
signal before it failed.
-/

namespace ArkInfra

/-- What an action does. -/
inductive ActionType where
  | signal (signal : Int)
  | cgroupThrottle (cpuQuota memoryLimit ioLimit : Option Nat)
  | networkRestart (interface : String)
  | gracefulShutdown (signal : Int) (waitSeconds : Nat) (forceKill : Bool)
  | killProcess
  | isolateNode (reason : String)
  | checkCheckpoint (checkpointDir : String)
  | custom (command : String) (args : List String)
deriving DecidableEq, Repr

namespace ActionType

open Text

/-- The action for a text, of which `lower` is the lower case. -/
def ofKeywords (text lower : String) : Option ActionType :=
  if containsAny lower ["sigusr1", "checkpoint dump", "触发 checkpoint", "保存 checkpoint"] then
    some (.signal 10)
  else if contains lower "signal" && contains lower "dump" then
    some (.signal 10)
  else if containsAny lower ["ark zap", "kill", "终止进程", "清理"] then
    some .killProcess
  else if containsAny lower ["优雅", "graceful"] ||
      (contains lower "信号" && contains lower "等待") then
    some (.gracefulShutdown 10 10 true)
  else if containsAny lower ["cgroup", "限流", "限制", "throttle"] then
    some (.cgroupThrottle (some 50000) none none)
  else if containsAny lower ["重启网卡", "restart network", "网络接口"] then
    let interface :=
      if contains lower "eth" then "eth0"
      else if contains lower "eno" then "eno1"
      else "eth0"
    some (.networkRestart interface)
  else if containsAny lower ["隔离", "isolate"] then
    some (.isolateNode text)
  else if contains lower "checkpoint" && containsAny lower ["检查", "check"] then
    some (.checkCheckpoint "/tmp/checkpoints")
  else
    none

def fromRecommendation (unicode : Lowercase) (text : String) : Option ActionType :=
  ofKeywords text (unicode.lower text)

/-- A text of ASCII characters and ideographs is read the same way whatever the
lower case of other characters. -/
theorem fromRecommendation_plain (unicode : Lowercase) {text : String}
    (h : text.toList.all isPlain = true) :
    fromRecommendation unicode text = ofKeywords text (toAsciiLowercase text) := by
  rw [fromRecommendation, unicode.lower_plain text h]

/-- The name of a signal. -/
def signalName (sig : Int) : String :=
  match sig with
  | 1 => "SIGHUP"
  | 2 => "SIGINT"
  | 3 => "SIGQUIT"
  | 9 => "SIGKILL"
  | 10 => "SIGUSR1"
  | 12 => "SIGUSR2"
  | 15 => "SIGTERM"
  | _ => "UNKNOWN"

/-- What is printed for an action. -/
def description : ActionType → String
  | .signal sig => "发送信号 " ++ toString sig ++ " (" ++ signalName sig ++ ")"
  | .cgroupThrottle cpuQuota memoryLimit ioLimit =>
    let parts :=
      (cpuQuota.map fun cpu => "CPU: " ++ toString (cpu / 1000) ++ "%").toList ++
      (memoryLimit.map fun mem => "内存: " ++ toString (mem / 1024 / 1024) ++ "MB").toList ++
      (ioLimit.map fun io => "IO: " ++ toString (io / 1024 / 1024) ++ "MB/s").toList
    "Cgroup 限流: " ++ ", ".intercalate parts
  | .networkRestart interface => "重启网络接口: " ++ interface
  | .gracefulShutdown sig waitSeconds forceKill =>
    "优雅降级: 发送信号 " ++ toString sig ++ "，等待 " ++ toString waitSeconds ++ " 秒" ++
      (if forceKill then "，然后强制终止" else "")
  | .killProcess => "强制终止进程"
  | .isolateNode reason => "隔离节点: " ++ reason
  | .checkCheckpoint checkpointDir => "检查 Checkpoint: " ++ checkpointDir
  | .custom command args => "执行命令: " ++ command ++ " " ++ " ".intercalate args

end ActionType

inductive OsCall where
  | spawn (program : String) (args : List String)
  | sleep (seconds : Nat)
  | writeFile (path content : String)
  | metadata (path : String)
  | readDir (path : String)
deriving DecidableEq, Repr

structure Output where
  success : Bool
  stdout : String
  stderr : String

/-- An entry of a directory, with the time of its last change where it can be
read. -/
structure DirEntry where
  name : String
  modified : Option Nat

namespace OsCall

/-- What a call answers; a text is the text of an error.  `metadata` tells
whether the path is a directory. -/
@[reducible] def Answer : OsCall → Type
  | spawn _ _ => Except String Output
  | sleep _ => Unit
  | writeFile _ _ => Except String Unit
  | metadata _ => Except String Bool
  | readDir _ => Except String (List DirEntry)

def kill9 (pid : Nat) : OsCall :=
  .spawn "kill" ["-9", toString pid]

/-- The call that sends a signal to a process. -/
def killSignal (signal : Int) (pid : Nat) : OsCall :=
  .spawn "kill" ["-" ++ toString signal, toString pid]

end OsCall

/-- A program that calls the operating system. -/
abbrev OsProgram (R : Type) : Type :=
  Interact OsCall OsCall.Answer R

abbrev OsHost : Type :=
  Host OsCall OsCall.Answer

/-- An operating system that refuses everything. -/
def OsHost.denying : OsHost := fun _ call =>
  match call with
  | .spawn _ _ => .error "Permission denied (os error 13)"
  | .sleep _ => ()
  | .writeFile _ _ => .error "Permission denied (os error 13)"
  | .metadata _ => .error "Permission denied (os error 13)"
  | .readDir _ => .error "Permission denied (os error 13)"

namespace ActionExecutor

/-- The outcome of an action: a message, or the text of an error. -/
abbrev Outcome : Type :=
  Except String String

def spawn (program : String) (args : List String) : OsProgram (Except String Output) :=
  Interact.perform (OsCall.spawn program args)

def sleep (seconds : Nat) : OsProgram Unit :=
  Interact.perform (OsCall.sleep seconds)

def writeFile (path content : String) : OsProgram (Except String Unit) :=
  Interact.perform (OsCall.writeFile path content)

def metadata (path : String) : OsProgram (Except String Bool) :=
  Interact.perform (OsCall.metadata path)

def readDir (path : String) : OsProgram (Except String (List DirEntry)) :=
  Interact.perform (OsCall.readDir path)

def signalOutcome (signal : Int) (pid : Nat) : Except String Output → Outcome
  | .error e => .error ("执行 kill 失败: " ++ e)
  | .ok output =>
    if !output.success then
      .error ("发送信号失败: " ++ output.stderr)
    else
      .ok ("成功发送信号 " ++ toString signal ++ " 到进程 " ++ toString pid)

def sendSignal (signal : Int) (pid : Nat) : OsProgram Outcome := do
  let output ← spawn "kill" ["-" ++ toString signal, toString pid]
  pure (signalOutcome signal pid output)

/-- The directory of the control group of a process. -/
def cgroupPath (pid : Nat) : String :=
  "/sys/fs/cgroup/ark/ark-" ++ toString pid

/-- Write a limit, if there is one, and say how it went. -/
def writeLimit (limit : Option Nat) (file failed : String) (message : Nat → String) :
    OsProgram (List String) :=
  match limit with
  | none => pure []
  | some quota => do
      let written ← writeFile file (toString quota)
      match written with
      | .error e => pure [failed ++ e]
      | .ok _ => pure [message quota]

/-- How the process was put into its control group. -/
def throttleOutcome (results : List String) : Except String Unit → Outcome
  | .error e => .error ("将进程加入 cgroup 失败: " ++ e)
  | .ok _ => .ok ("Cgroup 限流应用成功: " ++ ", ".intercalate results)

def applyCgroupThrottle (pid : Nat) (cpuQuota memoryLimit _ioLimit : Option Nat) :
    OsProgram Outcome := do
  -- whether the directory could be made is not looked at
  let _ ← spawn "mkdir" ["-p", cgroupPath pid]
  let cpu ← writeLimit cpuQuota (cgroupPath pid ++ "/cpu.cfs_quota_us") "CPU 限流失败: "
    fun quota => "CPU 限流: " ++ toString (quota / 1000) ++ "%"
  let memory ← writeLimit memoryLimit (cgroupPath pid ++ "/memory.limit_in_bytes") "内存限流失败: "
    fun limit => "内存限流: " ++ toString (limit / 1024 / 1024) ++ "MB"
  let joined ← writeFile (cgroupPath pid ++ "/tasks") (toString pid)
  pure (throttleOutcome (cpu ++ memory) joined)

def upOutcome (interface : String) : Except String Output → Outcome
  | .error e => .error ("执行 ip link set up 失败: " ++ e)
  | .ok up =>
    if !up.success then
      .error ("启动接口失败: " ++ up.stderr)
    else
      .ok ("成功重启网络接口: " ++ interface)

def restartNetworkInterface (interface : String) : OsProgram Outcome := do
  let down ← spawn "ip" ["link", "set", "down", interface]
  match down with
  | .error e => pure (.error ("执行 ip link set down 失败: " ++ e))
  | .ok down =>
    if !down.success then
      pure (.error ("关闭接口失败: " ++ down.stderr))
    else
      sleep 1
      let up ← spawn "ip" ["link", "set", "up", interface]
      pure (upOutcome interface up)

/-- How a kill went; a process that is gone counts as killed. -/
def killOutcome (pid : Nat) : Except String Output → Outcome
  | .error e => .error ("执行 kill 失败: " ++ e)
  | .ok output =>
    if !output.success then
      if Text.contains output.stderr "No such process" then
        .ok "进程已不存在"
      else
        .error ("kill 失败: " ++ output.stderr)
    else
      .ok ("成功终止进程 " ++ toString pid)

def killProcess (pid : Nat) : OsProgram Outcome := do
  let output ← spawn "kill" ["-9", toString pid]
  pure (killOutcome pid output)

/-- How a forced shutdown went, which is how its kill went. -/
def shutdownOutcome (signal : Int) (waitSeconds : Nat) : Outcome → Outcome
  | .ok msg =>
    .ok ("优雅降级完成: 已发送信号 " ++ toString signal ++ "，等待 " ++
      toString waitSeconds ++ " 秒后" ++ msg)
  | .error e => .error ("优雅降级失败: " ++ e)

def gracefulShutdown (signal : Int) (waitSeconds : Nat) (forceKill : Bool) (pid : Nat) :
    OsProgram Outcome := do
  let signalResult ← sendSignal signal pid
  match signalResult, forceKill with
  | .error e, false => pure (.error e)
  | .ok _, false => do
      sleep waitSeconds
      pure (.ok ("已发送信号 " ++ toString signal ++ "，等待 " ++ toString waitSeconds ++ " 秒"))
  | _, true => do
      -- a signal that failed does not stop a forced shutdown
      sleep waitSeconds
      let killed ← killProcess pid
      pure (shutdownOutcome signal waitSeconds killed)

def isolateNode (reason : String) : OsProgram Outcome :=
  pure (.ok ("节点已隔离: " ++ reason))

/-- The name of the entry changed last, with its time; the first one of several
with the same time. -/
def latestEntry (entries : List DirEntry) : Option String × Nat :=
  entries.foldl (fun latest entry =>
    match entry.modified with
    | some time => if latest.2 < time then (some entry.name, time) else latest
    | none => latest) (none, 0)

/-- The characters that have an escape of their own when they are printed for
debugging. -/
def debugEscapes : List (Char × String) :=
  [('\x00', "\x5c0"), ('\t', "\x5ct"), ('\r', "\x5cr"), ('\n', "\x5cn"), ('\x22', "\x5c\x22"),
    ('\x5c', "\x5c\x5c")]

/-- A character, as it is printed for debugging; those beyond ASCII count as printable. -/
def debugChar (c : Char) : String :=
  match debugEscapes.lookup c with
  | some escaped => escaped
  | none =>
    if c.toNat < 32 || c.toNat = 127 then
      "\x5cu\x7b" ++ String.ofList (Nat.toDigits 16 c.toNat) ++ "\x7d"
    else
      c.toString

/-- An optional name, as it is printed for debugging. -/
def debugName : Option String → String
  | none => "None"
  | some name => "Some(\x22" ++ String.join (name.toList.map debugChar) ++ "\x22)"

/-- What was found in the directory of the checkpoints. -/
def checkpointOutcome : Except String (List DirEntry) → Outcome
  | .error e => .error ("读取目录失败: " ++ e)
  | .ok entries =>
    .ok ("Checkpoint 检查完成: 找到 " ++ toString entries.length ++ " 个文件，最新: " ++
      debugName (latestEntry entries).1)

def checkCheckpoint (checkpointDir : String) : OsProgram Outcome := do
  let isDir ← metadata checkpointDir
  match isDir with
  | .error e => pure (.error ("检查 Checkpoint 失败: " ++ e))
  | .ok false => pure (.error (checkpointDir ++ " 不是目录"))
  | .ok true => do
      let entries ← readDir checkpointDir
      pure (checkpointOutcome entries)

def customOutcome : Except String Output → Outcome
  | .error e => .error ("执行命令失败: " ++ e)
  | .ok output =>
    if !output.success then
      .error ("命令执行失败: " ++ output.stderr)
    else
      .ok ("命令执行成功: " ++ Text.trim output.stdout)

def executeCustomCommand (command : String) (args : List String) : OsProgram Outcome := do
  let output ← spawn command args
  pure (customOutcome output)

def execute (action : ActionType) (pid : Nat) : OsProgram Outcome :=
  match action with
  | .signal signal => sendSignal signal pid
  | .cgroupThrottle cpuQuota memoryLimit ioLimit =>
    applyCgroupThrottle pid cpuQuota memoryLimit ioLimit
  | .networkRestart interface => restartNetworkInterface interface
  | .gracefulShutdown signal waitSeconds forceKill =>
    gracefulShutdown signal waitSeconds forceKill pid
  | .killProcess => killProcess pid
  | .isolateNode reason => isolateNode reason
  | .checkCheckpoint checkpointDir => checkCheckpoint checkpointDir
  | .custom command args => executeCustomCommand command args

section Calls

variable (host : OsHost) (before : List OsCall)

@[simp] theorem calls_spawn (program : String) (args : List String) :
    (spawn program args).calls host before = [OsCall.spawn program args] :=
  rfl

@[simp] theorem calls_sleep (seconds : Nat) :
    (sleep seconds).calls host before = [OsCall.sleep seconds] :=
  rfl

@[simp] theorem calls_writeFile (path content : String) :
    (writeFile path content).calls host before = [OsCall.writeFile path content] :=
  rfl

@[simp] theorem calls_metadata (path : String) :
    (metadata path).calls host before = [OsCall.metadata path] :=
  rfl

@[simp] theorem calls_readDir (path : String) :
    (readDir path).calls host before = [OsCall.readDir path] :=
  rfl

@[simp] theorem calls_sendSignal (signal : Int) (pid : Nat) :
    (sendSignal signal pid).calls host before = [OsCall.killSignal signal pid] := by
  simp [sendSignal, OsCall.killSignal]

@[simp] theorem calls_killProcess (pid : Nat) :
    (killProcess pid).calls host before = [OsCall.kill9 pid] := by
  simp [killProcess, OsCall.kill9]

/-- **A forced shutdown ends in a kill**, whatever came of the signal. -/
@[simp] theorem calls_gracefulShutdown (signal : Int) (waitSeconds : Nat) (pid : Nat) :
    (gracefulShutdown signal waitSeconds true pid).calls host before =
      [OsCall.killSignal signal pid, OsCall.sleep waitSeconds, OsCall.kill9 pid] := by
  unfold gracefulShutdown
  rw [Interact.calls_bind]
  cases Interact.result host (sendSignal signal pid) before with
  | error e => simp
  | ok msg => simp

theorem calls_writeLimit (limit : Option Nat) (file failed : String) (message : Nat → String) :
    (writeLimit limit file failed message).calls host before =
      (limit.map fun quota => OsCall.writeFile file (toString quota)).toList := by
  cases limit with
  | none =>
    rfl
  | some quota =>
    simp only [writeLimit, Interact.calls_bind, calls_writeFile]
    cases (writeFile file (toString quota)).result host before <;> rfl

theorem calls_applyCgroupThrottle (pid : Nat) (cpuQuota memoryLimit ioLimit : Option Nat) :
    (applyCgroupThrottle pid cpuQuota memoryLimit ioLimit).calls host before =
      [OsCall.spawn "mkdir" ["-p", cgroupPath pid]] ++
        (cpuQuota.map fun quota =>
          OsCall.writeFile (cgroupPath pid ++ "/cpu.cfs_quota_us") (toString quota)).toList ++
        (memoryLimit.map fun limit =>
          OsCall.writeFile (cgroupPath pid ++ "/memory.limit_in_bytes") (toString limit)).toList ++
        [OsCall.writeFile (cgroupPath pid ++ "/tasks") (toString pid)] := by
  simp [applyCgroupThrottle, calls_writeLimit]

theorem calls_restartNetworkInterface (interface : String) :
    (restartNetworkInterface interface).calls host before =
        [OsCall.spawn "ip" ["link", "set", "down", interface]] ∨
      (restartNetworkInterface interface).calls host before =
        [OsCall.spawn "ip" ["link", "set", "down", interface], OsCall.sleep 1,
          OsCall.spawn "ip" ["link", "set", "up", interface]] := by
  unfold restartNetworkInterface
  rw [Interact.calls_bind]
  cases (spawn "ip" ["link", "set", "down", interface]).result host before with
  | error e => exact Or.inl rfl
  | ok down =>
    cases hsuccess : down.success with
    | false =>
      simp [hsuccess]
    | true =>
      simp [hsuccess]

theorem calls_checkCheckpoint (checkpointDir : String) :
    (checkCheckpoint checkpointDir).calls host before = [OsCall.metadata checkpointDir] ∨
      (checkCheckpoint checkpointDir).calls host before =
        [OsCall.metadata checkpointDir, OsCall.readDir checkpointDir] := by
  unfold checkCheckpoint
  rw [Interact.calls_bind]
  cases Interact.result host (metadata checkpointDir) before with
  | error e => exact Or.inl rfl
  | ok isDir =>
    cases isDir with
    | false => exact Or.inl rfl
    | true => exact Or.inr rfl

end Calls

end ActionExecutor

end ArkInfra
