import ArkInfra.Agent.FixEngine
import ArkInfra.Agent.SceneRuns
import ArkInfra.Core.RootCause

/-!
# The command `ark fix`

`agent/src/main.rs`, `fix_process`: ask the daemon for the root causes of a
process, choose a scene by the words of the causes, ask the user, and execute
the actions that are recommended for the scene.  Every step may fail, and what
follows depends on it, so the command is a program over the daemon, the
terminal, the audit log and the operating system.

`fixProcess_calls` says what the command does to the system, for every behaviour
of all four: nothing before the daemon has answered, the user has agreed and the
audit log is open; and then, by the scene, a kill at the end or nothing at all.
The scene is never missing, so a process without root causes is killed:
`fixProcess_after` draws the line for the states that a run of the daemon
reaches.
-/

namespace ArkInfra

namespace ArkFix

open Text FixEngine

/-- The entry of the audit log. -/
structure AuditLogEntry where
  timestamp : String
  user : String
  action : String
  targetPid : Nat
  targetJobId : Option String
  result : String
  details : String
deriving DecidableEq, Repr

/-- What the command asks of its environment. -/
inductive Call where
  | ping
  | whyProcess (pid : Nat)
  | readLine
  | openAudit (path : String)
  | os (c : OsCall)
  | nowAndUser
  | logAudit (entry : AuditLogEntry)

/-- What is answered; a text in place of an answer is an error. -/
@[reducible] def Call.Answer : Call → Type
  | .ping => Bool
  | .whyProcess _ => Except String (List String)
  | .readLine => Except String String
  | .openAudit _ => Except String Unit
  | .os c => c.Answer
  | .nowAndUser => String × String
  | .logAudit _ => Except String Unit

abbrev Program (R : Type) : Type :=
  Interact Call Call.Answer R

abbrev Environment : Type :=
  Host Call Call.Answer

def sceneOfCause (unicode : Lowercase) (cause : String) : Option SceneType :=
  let lower := unicode.lower cause
  if contains lower "gpu" && contains lower "oom" then some .gpuOom
  else if containsAny lower ["network", "网络"] then some .networkStall
  else if containsAny lower ["storage", "存储"] then some .storageIoError
  else if containsAny lower ["crash", "崩溃"] then some .processCrash
  else none

/-- The first scene that the causes name, or that of a stalled workload. -/
def identifySceneFromCauses (unicode : Lowercase) (causes : List String) : Option SceneType :=
  causes.findSome? (sceneOfCause unicode) <|> some .workloadStalled

def recommendedActions : SceneType → List String
  | .gpuOom => ["尝试触发框架层的 Checkpoint Dump 信号 (SIGUSR1)", "隔离该节点，执行 ark zap 清理僵尸进程"]
  | .networkStall => ["检查交换机 PFC 配置", "检查 RoCE/HCCS 连接状态"]
  | .workloadStalled => ["如果确认卡死，执行 ark zap 终止进程", "检查是否有 Checkpoint 可以恢复"]
  | _ => ["执行 ark zap 终止进程"]

def createAnalysisFromCauses {F : Type} [FloatFormat F] (scene : SceneType)
    (causes : List String) : AnalysisResult F where
  scene := scene
  rootCauses := causes
  confidence := SceneAnalyzer.decimal 7 10
  recommendations := ["根据根因分析执行修复"]
  recommendedActions := recommendedActions scene
  severity := .warning

def isYes (input : String) : Bool :=
  decide (toAsciiLowercase (trim input) = "y") || decide (toAsciiLowercase (trim input) = "yes")

/-- The name of a scene, as it is printed for debugging. -/
def debugScene : SceneType → String
  | .gpuOom => "GpuOom"
  | .gpuUtilLow => "GpuUtilLow"
  | .gpuError => "GpuError"
  | .npuSubhealth => "NpuSubhealth"
  | .workloadStalled => "WorkloadStalled"
  | .networkStall => "NetworkStall"
  | .networkDrop => "NetworkDrop"
  | .storageIoError => "StorageIoError"
  | .storageSlow => "StorageSlow"
  | .processBlocked => "ProcessBlocked"
  | .processCrash => "ProcessCrash"

def auditedAction {F : Type} (analysis : AnalysisResult F) (result : FixResult) : String :=
  match result.executedActions, analysis.recommendedActions with
  | executed :: _, _ => executed.action
  | [], recommended :: _ => recommended
  | [], [] => "Unknown"

/-- The entry that is recorded for a fix. -/
def auditEntry {F : Type} (analysis : AnalysisResult F) (pid : Nat) (result : FixResult)
    (stamp : String × String) : AuditLogEntry where
  timestamp := stamp.1
  user := stamp.2
  action := auditedAction analysis result
  targetPid := pid
  targetJobId := none
  result := if result.success then "success" else "partial_failure"
  details := "执行动作: " ++ auditedAction analysis result ++ "; 成功: " ++
    toString result.executedActions.length ++ "; 失败: " ++
    toString result.failedActions.length ++ "; 场景: " ++ debugScene analysis.scene

section Program

open Interact

def confirm (autoYes : Bool) : Program (Except String Bool) :=
  if autoYes then
    pure (.ok true)
  else do
    let input ← perform Call.readLine
    pure (input.map isYes)

def openAudit (auditLog : Option String) : Program (Except String Unit) :=
  match auditLog with
  | none => pure (.ok ())
  | some path => perform (Call.openAudit path)

def audit {F : Type} (auditLog : Option String) (analysis : AnalysisResult F) (pid : Nat)
    (result : FixResult) : Program Unit :=
  match auditLog with
  | none => pure ()
  | some _ => do
      let stamp ← perform Call.nowAndUser
      let _ ← perform (Call.logAudit (auditEntry analysis pid result stamp))
      pure ()

/-- The calls of the engine are calls to the operating system. -/
def onSystem {R : Type} (p : OsProgram R) : Program R :=
  p.inject Call.os fun _ answer => answer

/-- Execute the recommended actions and record the outcome. -/
def repair {F : Type} (unicode : Lowercase) (analysis : AnalysisResult F) (pid : Nat)
    (auditLog : Option String) : Program FixResult := do
  let result ← onSystem (fixFromAnalysis unicode analysis pid)
  audit auditLog analysis pid result
  pure result

/-- The command: an error, nothing when the user declines, or the result. -/
def fixProcess (F : Type) [FloatFormat F] (unicode : Lowercase) (pid : Nat) (autoYes : Bool)
    (auditLog : Option String) : Program (Except String (Option FixResult)) := do
  let alive ← perform Call.ping
  if alive = false then
    pure (.error "无法连接到 daemon，请先运行: ark run")
  else
    let answer ← perform (Call.whyProcess pid)
    match answer with
    | .error e => pure (.error e)
    | .ok causes =>
      match identifySceneFromCauses unicode causes with
      | none => pure (.ok none)
      | some scene => do
          let analysis : AnalysisResult F := createAnalysisFromCauses scene causes
          let confirmed ← confirm autoYes
          match confirmed with
          | .error e => pure (.error e)
          | .ok false => pure (.ok none)
          | .ok true => do
              let opened ← openAudit auditLog
              match opened with
              | .error e => pure (.error e)
              | .ok _ => do
                  let result ← repair unicode analysis pid auditLog
                  pure (.ok (some result))

end Program

def systemCalls (calls : List Call) : List OsCall :=
  calls.filterMap fun
    | .os c => some c
    | _ => none

def audited (calls : List Call) : List AuditLogEntry :=
  calls.filterMap fun
    | .logAudit entry => some entry
    | _ => none

def questions (pid : Nat) (autoYes : Bool) : List Call :=
  [.ping, .whyProcess pid] ++ if autoYes then [] else [.readLine]

/-- What has to go well for the command to execute anything: the daemon is
there and answers, the user agrees and the audit log is open. -/
structure Proceeds (host : Environment) (pid : Nat) (autoYes : Bool) (auditLog : Option String)
    (causes : List String) : Prop where
  alive : host [] .ping = true
  answered : host [.ping] (.whyProcess pid) = .ok causes
  agreed : autoYes = true ∨
    ∃ input, host [.ping, .whyProcess pid] .readLine = .ok input ∧ isYes input = true
  audited : ∀ path ∈ auditLog, host (questions pid autoYes) (.openAudit path) = .ok ()

def DoneFor (pid : Nat) : SceneType → List OsCall → Prop
  | .gpuOom, calls => calls = [.killSignal 10 pid, .kill9 pid]
  | .networkStall, calls => calls = []
  | .workloadStalled, calls =>
    calls = [.metadata "/tmp/checkpoints", .kill9 pid] ∨
      calls = [.metadata "/tmp/checkpoints", .readDir "/tmp/checkpoints", .kill9 pid]
  | _, calls => calls = [.kill9 pid]

section Actions

open ActionType

/-- The actions of a scene, in the order of their priorities. -/
def sceneActions : SceneType → List (ActionType × Nat)
  | .gpuOom => [(.signal 10, 1), (.killProcess, 10)]
  | .networkStall => []
  | .workloadStalled => [(.checkCheckpoint "/tmp/checkpoints", 4), (.killProcess, 10)]
  | _ => [(.killProcess, 10)]

theorem named_recommendedActions (unicode : Lowercase) (scene : SceneType) :
    namedActions unicode (recommendedActions scene) =
      match scene with
      | .workloadStalled => (sceneActions scene).reverse
      | _ => sceneActions scene := by
  have hplain : ∀ text ∈ recommendedActions scene, text.toList.all isPlain = true := by
    cases scene <;> decide +kernel
  -- the texts are plain, so their lower case is known
  have hascii : namedActions unicode (recommendedActions scene) =
      namedActions Lowercase.ascii (recommendedActions scene) := by
    refine List.filterMap_congr fun text htext => ?_
    rw [fromRecommendation_plain unicode (hplain text htext)]
    rfl
  rw [hascii]
  cases scene <;> decide +kernel

theorem parse_recommendedActions (unicode : Lowercase) (scene : SceneType) :
    parseRecommendations unicode (recommendedActions scene) = sceneActions scene := by
  unfold parseRecommendations
  rw [named_recommendedActions]
  cases scene <;>
    simp [sceneActions, List.mergeSort, List.MergeSort.Internal.splitInTwo]

/-- **What the engine does for a scene.** -/
theorem doneFor_calls {F : Type} [FloatFormat F] (unicode : Lowercase) (host : OsHost) (pid : Nat)
    (scene : SceneType) (causes : List String) :
    DoneFor pid scene ((fixFromAnalysis unicode
      (createAnalysisFromCauses scene causes : AnalysisResult F) pid).calls host []) := by
  rw [calls_fixFromAnalysis]
  change DoneFor pid scene ((outcomes pid
    (parseRecommendations unicode (recommendedActions scene))).calls host [])
  rw [parse_recommendedActions]
  cases scene with
  | gpuOom =>
    simp [DoneFor, sceneActions, outcomes, Interact.each,
      ActionExecutor.execute]
  | networkStall =>
    rfl
  | workloadStalled =>
    rcases ActionExecutor.calls_checkCheckpoint host [] "/tmp/checkpoints" with hcalls | hcalls
    · refine Or.inl ?_
      simp [sceneActions, outcomes, Interact.each,
        ActionExecutor.execute, hcalls]
    · refine Or.inr ?_
      simp [sceneActions, outcomes, Interact.each,
        ActionExecutor.execute, hcalls]
  | gpuUtilLow | gpuError | npuSubhealth | networkDrop | storageIoError | storageSlow
  | processBlocked | processCrash =>
    simp [DoneFor, sceneActions, outcomes, Interact.each,
      ActionExecutor.execute]

end Actions

section Calls

open Interact

variable {F : Type} {unicode : Lowercase} {host : Environment} {pid : Nat} {autoYes : Bool}
  {auditLog : Option String} {causes : List String}

theorem exists_scene (unicode : Lowercase) (causes : List String) :
    ∃ scene, identifySceneFromCauses unicode causes = some scene := by
  unfold identifySceneFromCauses
  cases causes.findSome? (sceneOfCause unicode) with
  | none => exact ⟨_, rfl⟩
  | some scene => exact ⟨scene, rfl⟩

@[simp] theorem systemCalls_append (a b : List Call) :
    systemCalls (a ++ b) = systemCalls a ++ systemCalls b :=
  List.filterMap_append

@[simp] theorem audited_append (a b : List Call) : audited (a ++ b) = audited a ++ audited b :=
  List.filterMap_append

@[simp] theorem systemCalls_map_os (calls : List OsCall) :
    systemCalls (calls.map Call.os) = calls := by
  simp [systemCalls, List.filterMap_map]

@[simp] theorem audited_map_os (calls : List OsCall) : audited (calls.map Call.os) = [] := by
  simp [audited, List.filterMap_map]

theorem calls_repair (analysis : AnalysisResult F) (before : List Call) :
    let engine := fixFromAnalysis unicode analysis pid
    let system := hostOf Call.os (fun _ answer => answer) host before
    (repair unicode analysis pid auditLog).result host before = engine.result system [] ∧
      systemCalls ((repair unicode analysis pid auditLog).calls host before) =
        engine.calls system [] ∧
      ∃ stamp, audited ((repair unicode analysis pid auditLog).calls host before) =
        auditLog.toList.map fun _ => auditEntry analysis pid (engine.result system []) stamp := by
  intro engine system
  cases auditLog with
  | none =>
    simp [repair, onSystem, audit, engine, system]
  | some path =>
    refine ⟨by simp [repair, onSystem, audit, engine, system], ?_,
      host (before ++ (engine.calls system []).map Call.os) .nowAndUser, ?_⟩
    · simp [repair, onSystem, audit, engine, system, systemCalls, List.filterMap_map]
    · simp [repair, onSystem, audit, engine, system, audited, List.filterMap_map]

section Questions

variable (host) (before : List Call)

theorem calls_confirm (autoYes : Bool) :
    (confirm autoYes).calls host before = if autoYes then [] else [.readLine] := by
  cases autoYes <;> rfl

theorem calls_openAudit (auditLog : Option String) :
    (openAudit auditLog).calls host before = (auditLog.map Call.openAudit).toList := by
  cases auditLog <;> rfl

theorem confirm_eq_ok_true :
    (confirm autoYes).result host before = .ok true ↔
      autoYes = true ∨ ∃ input, host before .readLine = .ok input ∧ isYes input = true := by
  cases autoYes with
  | true =>
    simp [confirm]
  | false =>
    cases hinput : host before .readLine with
    | error e => simp [confirm, hinput, Except.map]
    | ok input => simp [confirm, hinput, Except.map]

theorem openAudit_eq_ok :
    (openAudit auditLog).result host before = .ok () ↔
      ∀ path ∈ auditLog, host before (.openAudit path) = .ok () := by
  cases auditLog <;> simp [openAudit]

theorem quiet_questions (autoYes : Bool) (auditLog : Option String) :
    systemCalls (if autoYes then [] else [.readLine]) = [] ∧
      audited (if autoYes then [] else [.readLine]) = [] ∧
      systemCalls (auditLog.map Call.openAudit).toList = [] ∧
      audited (auditLog.map Call.openAudit).toList = [] := by
  cases autoYes <;> cases auditLog <;> exact ⟨rfl, rfl, rfl, rfl⟩

end Questions

variable [FloatFormat F]

theorem calls_of_proceeds (h : Proceeds host pid autoYes auditLog causes) {scene : SceneType}
    (hscene : identifySceneFromCauses unicode causes = some scene) :
    let asked := questions pid autoYes ++ (auditLog.map Call.openAudit).toList
    let program := repair unicode (createAnalysisFromCauses scene causes : AnalysisResult F) pid
      auditLog
    (fixProcess F unicode pid autoYes auditLog).calls host [] = asked ++ program.calls host asked ∧
      (fixProcess F unicode pid autoYes auditLog).result host [] =
        .ok (some (program.result host asked)) := by
  intro asked program
  have hyes := (confirm_eq_ok_true host _).mpr h.agreed
  have hopen : (openAudit auditLog).result host
      (.ping :: .whyProcess pid :: if autoYes then [] else [.readLine]) = .ok () :=
    (openAudit_eq_ok host _).mpr h.audited
  constructor
  · simp only [fixProcess, calls_bind, calls_perform, result_perform, h.alive, List.nil_append,
      Bool.true_eq_false, if_false, List.cons_append, h.answered, hscene, calls_confirm, hyes,
      calls_openAudit, hopen, calls_pure, List.append_nil]
    simp [asked, program, questions]
  · simp only [fixProcess, result_bind, calls_perform, result_perform, h.alive, List.nil_append,
      Bool.true_eq_false, if_false, List.cons_append, h.answered, hscene, calls_confirm, hyes,
      calls_openAudit, hopen, result_pure]
    simp [asked, program, questions]

theorem calls_of_not_proceeds (h : ∀ causes, ¬ Proceeds host pid autoYes auditLog causes) :
    systemCalls ((fixProcess F unicode pid autoYes auditLog).calls host []) = [] ∧
      audited ((fixProcess F unicode pid autoYes auditLog).calls host []) = [] := by
  obtain ⟨hq₁, hq₂, ho₁, ho₂⟩ := quiet_questions autoYes auditLog
  cases hping : host [] Call.ping with
  | false =>
    simp [fixProcess, hping, systemCalls, audited]
  | true =>
    cases hwhy : host [.ping] (Call.whyProcess pid) with
    | error e =>
      simp [fixProcess, hping, hwhy, systemCalls, audited]
    | ok causes =>
      obtain ⟨scene, hscene⟩ := exists_scene unicode causes
      -- from here on the calls are the questions that were asked
      have hrest : ∀ rest : List Call, systemCalls rest = [] → audited rest = [] →
          systemCalls (Call.ping :: Call.whyProcess pid :: rest) = [] ∧
            audited (Call.ping :: Call.whyProcess pid :: rest) = [] := by
        intro rest hs ha
        exact ⟨hs, ha⟩
      simp only [fixProcess, calls_bind, calls_perform, result_perform, hping, List.nil_append,
        Bool.true_eq_false, if_false, List.cons_append, hwhy, hscene, calls_confirm]
      cases hyes : (confirm autoYes).result host [.ping, .whyProcess pid] with
      | error e =>
        refine hrest _ ?_ ?_
        · simp [hq₁]
        · simp [hq₂]
      | ok yes =>
        cases yes with
        | false =>
          refine hrest _ ?_ ?_
          · simp [hq₁]
          · simp [hq₂]
        | true =>
          simp only [calls_bind, calls_openAudit]
          cases hopen : (openAudit auditLog).result host
              (.ping :: .whyProcess pid :: if autoYes then [] else [.readLine]) with
          | error e =>
            refine hrest _ ?_ ?_
            · simp [hq₁, ho₁]
            · simp [hq₂, ho₂]
          | ok u =>
            refine absurd ?_ (h causes)
            exact
              { alive := hping
                answered := hwhy
                agreed := (confirm_eq_ok_true host _).mp hyes
                audited := (openAudit_eq_ok host _).mp hopen }

theorem quiet_asked (pid : Nat) (autoYes : Bool) (auditLog : Option String) :
    systemCalls (questions pid autoYes ++ (auditLog.map Call.openAudit).toList) = [] ∧
      audited (questions pid autoYes ++ (auditLog.map Call.openAudit).toList) = [] := by
  cases autoYes <;> cases auditLog <;> exact ⟨rfl, rfl⟩

theorem done_of_proceeds (h : Proceeds host pid autoYes auditLog causes) {scene : SceneType}
    (hscene : identifySceneFromCauses unicode causes = some scene) :
    let calls := (fixProcess F unicode pid autoYes auditLog).calls host []
    DoneFor pid scene (systemCalls calls) ∧
      ∃ (analysis : AnalysisResult F) (result : FixResult) (stamp : String × String),
        (fixProcess F unicode pid autoYes auditLog).result host [] = .ok (some result) ∧
        audited calls = auditLog.toList.map fun _ => auditEntry analysis pid result stamp := by
  intro calls
  obtain ⟨hcalls, hresult⟩ := calls_of_proceeds (F := F) h hscene
  obtain ⟨hq₁, hq₂⟩ := quiet_asked pid autoYes auditLog
  generalize questions pid autoYes ++ (auditLog.map Call.openAudit).toList = asked at *
  obtain ⟨hsame, hsystem, stamp, haudited⟩ :=
    calls_repair (createAnalysisFromCauses scene causes : AnalysisResult F) asked
  rw [hsame] at hresult
  refine ⟨?_, createAnalysisFromCauses scene causes, _, stamp, hresult, ?_⟩
  · change DoneFor pid scene
      (systemCalls ((fixProcess F unicode pid autoYes auditLog).calls host []))
    rw [hcalls, systemCalls_append, hq₁, hsystem, List.nil_append]
    exact doneFor_calls unicode _ pid scene causes
  · change audited ((fixProcess F unicode pid autoYes auditLog).calls host []) = _
    rw [hcalls, audited_append, hq₂, haudited, List.nil_append]

end Calls

/-- **What `ark fix` does to the system.**  However the daemon, the user, the
audit log and the operating system behave: when everything goes well, the
calls are those of the scene that the causes name, the result is returned, and
an audit log gets one entry, for this process and with this result; otherwise
nothing is executed and nothing is recorded. -/
theorem fixProcess_calls (F : Type) [FloatFormat F] (unicode : Lowercase) (host : Environment)
    (pid : Nat) (autoYes : Bool) (auditLog : Option String) :
    let calls := (fixProcess F unicode pid autoYes auditLog).calls host []
    (∀ causes, Proceeds host pid autoYes auditLog causes →
      ∃ scene result, identifySceneFromCauses unicode causes = some scene ∧
        DoneFor pid scene (systemCalls calls) ∧
        (fixProcess F unicode pid autoYes auditLog).result host [] = .ok (some result) ∧
        (audited calls).length = auditLog.toList.length ∧
        ∀ entry ∈ audited calls, entry.targetPid = pid ∧
          (entry.result = "success" ↔ result.success = true)) ∧
    ((∀ causes, ¬ Proceeds host pid autoYes auditLog causes) →
      systemCalls calls = [] ∧ audited calls = []) := by
  intro calls
  refine ⟨?_, calls_of_not_proceeds⟩
  intro causes h
  obtain ⟨scene, hscene⟩ := exists_scene unicode causes
  obtain ⟨hdone, analysis, result, stamp, hresult, haudited⟩ := done_of_proceeds (F := F) h hscene
  refine ⟨scene, result, hscene, hdone, hresult, ?_, ?_⟩
  · rw [haudited, List.length_map]
  · intro entry hentry
    rw [haudited] at hentry
    obtain ⟨_, _, rfl⟩ := List.mem_map.mp hentry
    refine ⟨rfl, ?_⟩
    cases hsuccess : result.success <;> simp [auditEntry, hsuccess]

/-- An environment in which everything succeeds, with the root causes that the daemon
answers and what the user types. -/
def willing (causes : Nat → List String) (input : String) : Environment := fun _ call =>
  match call with
  | .ping => true
  | .whyProcess pid => .ok (causes pid)
  | .readLine => .ok input
  | .openAudit _ => .ok ()
  | .os (.spawn _ _) => .ok { success := true, stdout := "", stderr := "" }
  | .os (.sleep _) => ()
  | .os (.writeFile _ _) => .ok ()
  | .os (.metadata _) => .ok true
  | .os (.readDir _) => .ok []
  | .nowAndUser => ("2026-01-01T00:00:00+00:00", "root")
  | .logAudit _ => .ok ()

/-- The root causes of a process whose device is out of memory. -/
def oomCauses : List String :=
  ["等待资源: gpu-1", "error-gpu-0: CUDA OOM"]

/-- A user who agrees, with an entry in the audit log, and one who does not. -/
theorem fixProcess_calls_answered :
    let fix := fixProcess Binary64 Lowercase.ascii 7 false (some "audit.log")
    let agreed := fix.calls (willing (fun _ => oomCauses) "Y\n") []
    let declined := fix.calls (willing (fun _ => oomCauses) "n\n") []
    systemCalls agreed = [.killSignal 10 7, .kill9 7] ∧
      (audited agreed).map AuditLogEntry.targetPid = [7] ∧
      systemCalls declined = [] ∧ audited declined = [] := by
  intro fix agreed declined
  have hproceeds : Proceeds (willing (fun _ => oomCauses) "Y\n") 7 false (some "audit.log")
      oomCauses :=
    { alive := rfl
      answered := rfl
      agreed := Or.inr ⟨"Y\n", rfl, by decide⟩
      audited := fun _ _ => rfl }
  obtain ⟨scene, _, hscene, hdone, _, hlength, hentries⟩ :=
    (fixProcess_calls Binary64 Lowercase.ascii (willing (fun _ => oomCauses) "Y\n") 7 false
      (some "audit.log")).1 oomCauses hproceeds
  have hoom : identifySceneFromCauses Lowercase.ascii oomCauses = some .gpuOom := by
    decide +kernel
  obtain rfl : SceneType.gpuOom = scene := Option.some.inj (hoom.symm.trans hscene)
  refine ⟨hdone, ?_, ?_⟩
  · obtain ⟨entry, hentry⟩ := List.length_eq_one_iff.mp hlength
    rw [hentry] at hentries
    rw [hentry, List.map_singleton, (hentries entry (List.mem_singleton_self _)).1]
  · refine (fixProcess_calls Binary64 Lowercase.ascii (willing (fun _ => oomCauses) "n\n") 7 false
      (some "audit.log")).2 ?_
    intro causes hproceeds
    rcases hproceeds.agreed with hauto | ⟨input, hinput, hyes⟩
    · cases hauto
    · cases hinput
      exact absurd hyes (by decide)

theorem kill9_mem_iff {pid : Nat} {scene : SceneType} {calls : List OsCall}
    (h : DoneFor pid scene calls) : OsCall.kill9 pid ∈ calls ↔ scene ≠ .networkStall := by
  cases scene with
  | networkStall =>
    obtain rfl : calls = [] := h
    simp
  | workloadStalled =>
    rcases h with rfl | rfl <;> simp
  | gpuOom | gpuUtilLow | gpuError | npuSubhealth | networkDrop | storageIoError | storageSlow
  | processBlocked | processCrash =>
    unfold DoneFor at h
    simp [h]

theorem findRootCause_eq_nil {F : Type} [FloatArith F] {events : List Event} {pid : Nat}
    (hbinds : ∀ c ∈ events, ∀ resource, ¬ c.Binds (SceneIdentifier.pidStr pid) resource)
    (hwaits : ∀ c ∈ events, ∀ resource, ¬ c.ReportsWait F (SceneIdentifier.pidStr pid) resource) :
    (StateGraph.after events : StateGraph F).findRootCause pid = [] := by
  have hnone : ∀ e ∈ (StateGraph.after events : StateGraph F).edges,
      e.fromId ≠ SceneIdentifier.pidStr pid := by
    intro e he hfrom
    cases hty : e.edgeType with
    | consumes =>
      obtain ⟨c, hc, hbind⟩ := (StateGraph.accounted_after events).consumes e he hty
      rw [hfrom] at hbind
      exact hbinds c hc _ hbind
    | waitsOn =>
      obtain ⟨c, hc, hwait⟩ := StateGraph.reportsWait_after events he hty
      rw [hfrom] at hwait
      exact hwaits c hc _ hwait
    | blockedBy =>
      obtain ⟨before, c, between, d, later, rfl, hbind, _⟩ :=
        (StateGraph.accounted_after events).blockedBy e he hty
      rw [hfrom] at hbind
      exact hbinds c (by simp) _ hbind
  have hout : ((StateGraph.after events : StateGraph F).edgeOutIndex.lookup
      (SceneIdentifier.pidStr pid)).getD [] = [] := by
    rw [(StateGraph.consistent_after events).edgeOutIndex_eq]
    simpa using hnone
  unfold StateGraph.findRootCause StateGraph.findRootCauseById Search.dfsBackward
  rw [if_neg (by simp)]
  change Search.causes (List.foldl _ _
    (((StateGraph.after events : StateGraph F).edgeOutIndex.lookup
      (SceneIdentifier.pidStr pid)).getD [])) = []
  rw [hout]
  rfl

/-- **Whom `ark fix` kills.**  When the daemon has seen the events and answers,
and no question is asked, the process is killed unless its first root cause with
a known word is about the network; in particular a process of which the events
say nothing is killed. -/
theorem fixProcess_after (F : Type) [FloatFormat F] (unicode : Lowercase) (host : Environment)
    (events : List Event) (pid : Nat) (hping : host [] .ping = true)
    (hwhy : host [.ping] (.whyProcess pid) =
      .ok ((StateGraph.after events : StateGraph F).findRootCause pid)) :
    let calls := systemCalls ((fixProcess F unicode pid true none).calls host [])
    (OsCall.kill9 pid ∈ calls ↔
      identifySceneFromCauses unicode
        ((StateGraph.after events : StateGraph F).findRootCause pid) ≠ some .networkStall) ∧
    ((∀ c ∈ events, ∀ resource, ¬ c.Binds (SceneIdentifier.pidStr pid) resource ∧
        ¬ c.ReportsWait F (SceneIdentifier.pidStr pid) resource) →
      OsCall.kill9 pid ∈ calls) := by
  intro calls
  have hproceeds : Proceeds host pid true none
      ((StateGraph.after events : StateGraph F).findRootCause pid) :=
    { alive := hping
      answered := hwhy
      agreed := Or.inl rfl
      audited := by simp }
  have hkill : OsCall.kill9 pid ∈ calls ↔
      identifySceneFromCauses unicode
        ((StateGraph.after events : StateGraph F).findRootCause pid) ≠ some .networkStall := by
    obtain ⟨scene, hscene⟩ := exists_scene unicode
      ((StateGraph.after events : StateGraph F).findRootCause pid)
    have hdone : DoneFor pid scene calls := (done_of_proceeds (F := F) hproceeds hscene).1
    rw [hscene, kill9_mem_iff hdone]
    simp
  refine ⟨hkill, ?_⟩
  intro hsilent
  rw [hkill, findRootCause_eq_nil (fun c hc resource => (hsilent c hc resource).1)
    (fun c hc resource => (hsilent c hc resource).2)]
  simp [identifySceneFromCauses]

/-- Process 7 uses a device that is out of memory, and process 8 waits for the
network. -/
def troubledRun : List Event :=
  [⟨1000, .processState, "proc", none, some 7, "start", none⟩,
    ⟨2000, .computeUtil, "gpu-0", none, some 7, "95", none⟩,
    ⟨3000, .errorHw, "gpu-0", none, none, "CUDA OOM", none⟩,
    ⟨4000, .transportDrop, "network-pid-8", none, none, "3", none⟩]

/-- The process on the device is killed and the one that waits is not; process 9, which
no event is about, is killed. -/
theorem fixProcess_after_troubled :
    let host := willing (StateGraph.after troubledRun : StateGraph Binary64).findRootCause ""
    let calls := fun pid => systemCalls ((fixProcess Binary64 .ascii pid true none).calls host [])
    OsCall.kill9 7 ∈ calls 7 ∧ OsCall.kill9 8 ∉ calls 8 ∧ OsCall.kill9 9 ∈ calls 9 := by
  intro host calls
  have hkill := fun pid => fixProcess_after Binary64 .ascii host troubledRun pid rfl rfl
  refine ⟨(hkill 7).1.mpr ?_, mt (hkill 8).1.mp ?_, (hkill 9).2 ?_⟩
  · decide +kernel
  · decide +kernel
  · have hother : ∀ c ∈ troubledRun,
        (∀ pid ∈ c.pid, pidNodeId c pid ≠ SceneIdentifier.pidStr 9) ∧
          ∀ p ∈ waitingProcess Binary64 c, pidNodeId c p.1 ≠ SceneIdentifier.pidStr 9 := by
      decide +kernel
    rintro c hc resource
    refine ⟨?_, ?_⟩
    · rintro ⟨_, ⟨pid, hpid, hid⟩, _⟩
      exact (hother c hc).1 pid hpid hid
    · rintro ⟨p, hp, hid, _⟩
      exact (hother c hc).2 p hp hid

end ArkFix

end ArkInfra
