import ArkInfra.Core.GraphStep
import ArkInfra.Lib.Lowercase

/-!
# Scenes

`agent/src/scene`: what kind of trouble a process is in, and what a person
should look at.  The identifier walks over the edges of the process and looks
for errors of its devices, for waits on the network and for a state that is not
running; the first thing it finds is the scene.  For every scene an analyzer
collects the root causes from the edges and the metadata of the nodes behind
them.

The identifier and the analyzers read the same edges with slightly different
tests.  `analysis_of_identified` says where the two agree: the analysis of an
identified scene names what the identifier saw, except that a workload that
waits for a disk is identified as stalled and analyzed as waiting.
-/

namespace ArkInfra

inductive SceneType where
  | gpuOom
  | gpuUtilLow
  | gpuError
  | npuSubhealth
  | workloadStalled
  | networkStall
  | networkDrop
  | storageIoError
  | storageSlow
  | processBlocked
  | processCrash
deriving DecidableEq, Repr

def SceneType.asStr : SceneType → String
  | gpuOom => "gpu_oom"
  | gpuUtilLow => "gpu_util_low"
  | gpuError => "gpu_error"
  | npuSubhealth => "npu_subhealth"
  | workloadStalled => "workload_stalled"
  | networkStall => "network_stall"
  | networkDrop => "network_drop"
  | storageIoError => "storage_io_error"
  | storageSlow => "storage_slow"
  | processBlocked => "process_blocked"
  | processCrash => "process_crash"

inductive Severity where
  | critical
  | warning
  | info
deriving DecidableEq, Repr

structure AnalysisResult (F : Type) where
  scene : SceneType
  rootCauses : List String
  confidence : F
  recommendations : List String
  recommendedActions : List String
  severity : Severity

/-- What is read of the graph: copies of the edges and of the nodes. -/
structure GraphView where
  edges : List Edge
  nodes : HashMap String Node

def StateGraph.view {F : Type} (g : StateGraph F) : GraphView where
  edges := g.edges
  nodes := g.nodes

namespace GraphView

def edgesOf (v : GraphView) (target : String) (ty : EdgeType) : List Edge :=
  v.edges.filter fun e => decide (e.fromId = target) && decide (e.edgeType = ty)

theorem mem_edgesOf {v : GraphView} {target : String} {ty : EdgeType} {e : Edge} :
    e ∈ v.edgesOf target ty ↔ e ∈ v.edges ∧ e.fromId = target ∧ e.edgeType = ty := by
  simp [edgesOf]

def metaOf (v : GraphView) (id key : String) : Option String :=
  (v.nodes.lookup id).bind fun node => node.metadata.lookup key

/-- A metadata entry of a node, read as a number. -/
def numberOf (F : Type) [FloatArith F] (v : GraphView) (id key : String) : Option F :=
  (v.metaOf id key).bind FloatArith.parse

/-- How the resources of a process are used: how many there are, how many of
them are used below one percent, and whether the process waits for one of the
given kinds of resources. -/
structure Load where
  totalResources : Nat
  lowUtilCount : Nat
  hasIoWait : Bool

/-- Whether every resource of a process is idle while it waits for nothing. -/
def Load.isStalled (l : Load) : Bool :=
  decide (0 < l.totalResources) && decide (l.lowUtilCount = l.totalResources) && !l.hasIoWait

def load (F : Type) [FloatArith F] (v : GraphView) (target : String) (ioWords : List String) :
    Load where
  totalResources := (v.edgesOf target .consumes).length
  lowUtilCount := (v.edgesOf target .consumes).countP fun e =>
    ((v.numberOf F e.toId "util").map fun util => FloatArith.lt util (FloatArith.ofNat 1)).getD false
  hasIoWait := (v.edgesOf target .waitsOn).any fun e => Text.containsAny e.toId ioWords

end GraphView

namespace SceneIdentifier

open Text

def isOom (errorType : String) : Bool :=
  contains errorType "OOM" || contains errorType "out of memory"

def isHardwareError (errorType : String) : Bool :=
  contains errorType "error" || contains errorType "XID"

def isGpu (id : String) : Bool :=
  startsWith id "gpu-" || contains id "gpu"

def isNetwork (id : String) : Bool :=
  startsWith id "network-" || contains id "net"

def isDegraded (status : String) : Bool :=
  decide (status = "degraded") || contains status "降级"

section

variable (F : Type) [FloatArith F]

/-- What the node behind a blocking edge says about a graphics device. -/
def gpuScene (node : Node) : Option SceneType :=
  if isGpu node.id then
    (node.metadata.lookup "error_type").bind fun errorType =>
      if isOom errorType then some .gpuOom
      else if isHardwareError errorType then some .gpuError
      else none
  else
    none

/-- What the node behind a blocking edge says about a neural processor. -/
def npuScene (node : Node) : Option SceneType :=
  if startsWith node.id "npu-" || contains node.id "ascend" then
    let hot := (node.metadata.lookup "temperature").bind fun temp =>
      (FloatArith.parse temp : Option F).bind fun tempVal =>
        if FloatArith.lt (FloatArith.ofNat 85) tempVal then some SceneType.npuSubhealth else none
    let degraded := (node.metadata.lookup "hccs_lane_status").bind fun status =>
      if isDegraded status then some SceneType.npuSubhealth else none
    hot <|> degraded
  else
    none

def blockedScene (v : GraphView) (e : Edge) : Option SceneType :=
  (v.nodes.lookup e.toId).bind fun node => gpuScene node <|> npuScene F node

def waitScene (e : Edge) : Option SceneType :=
  if isNetwork e.toId then some .networkStall else none

/-- The kinds of resources the identifier counts as input and output. -/
def ioWords : List String :=
  ["network", "storage"]

/-- The scene that the state of the process itself shows. -/
def stateScene (v : GraphView) (pidStr : String) : Option SceneType :=
  (v.metaOf pidStr "state").bind fun state =>
    if state = "exit" ∨ state = "crash" ∨ state = "failed" then some .processCrash
    else if state = "blocked" ∨ state = "waiting" then some .processBlocked
    else if state = "running" ∧ (v.load F pidStr ioWords).isStalled = true then
      some .workloadStalled
    else none

def pidStr (pid : Nat) : String :=
  "pid-" ++ toString pid

def identifyScene (v : GraphView) (pid : Nat) : Option SceneType :=
  (v.edgesOf (pidStr pid) .blockedBy).findSome? (blockedScene F v) <|>
    (v.edgesOf (pidStr pid) .waitsOn).findSome? waitScene <|>
      stateScene F v (pidStr pid)

end

end SceneIdentifier

namespace SceneAnalyzer

open Text SceneIdentifier

variable {F : Type} [FloatFormat F]

/-- A decimal literal with one or two digits behind the point. -/
def decimal (num den : Nat) : F :=
  FloatArith.div (FloatArith.ofNat num) (FloatArith.ofNat den)

def above (bound : Nat) (o : Option F) : Option F :=
  o.filter fun x => FloatArith.lt (FloatArith.ofNat bound) x

def below (bound : Nat) (o : Option F) : Option F :=
  o.filter fun x => FloatArith.lt x (FloatArith.ofNat bound)

/-- The collected causes, or a general one when there is none. -/
def orGeneral (causes : List String) (general : String) : List String :=
  if causes.isEmpty then [general] else causes

def gpuOom (v : GraphView) (target : String) : AnalysisResult F :=
  let errors := (v.edgesOf target .blockedBy).filterMap fun e =>
    (v.nodes.lookup e.toId).bind fun node =>
      if isGpu node.id then
        ((node.metadata.lookup "error_type").filter isOom).map fun _ =>
          "GPU " ++ node.id ++ " 显存不足"
      else none
  let full := (v.edgesOf target .consumes).filterMap fun e =>
    if startsWith e.toId "gpu-" then
      (above 95 (v.numberOf F e.toId "mem_usage")).map fun usage => (e.toId, usage)
    else none
  let rootCauses := orGeneral
    (errors ++ full.map fun g =>
      "GPU " ++ g.1 ++ " 显存使用率过高: " ++ FloatFormat.fixed 1 g.2 ++ "%")
    "GPU 显存可能不足"
  { scene := .gpuOom
    rootCauses := rootCauses
    confidence := if 1 < rootCauses.length then decimal 9 10 else decimal 7 10
    recommendations := (full.map fun g => "检查 GPU " ++ g.1 ++ " 上的进程显存使用") ++
      ["使用 nvidia-smi 检查显存使用情况", "考虑降低批处理大小或模型精度", "检查是否有显存泄漏"]
    recommendedActions :=
      ["尝试触发框架层的 Checkpoint Dump 信号 (SIGUSR1)", "隔离该节点，执行 ark zap 清理僵尸进程",
        "修改批量大小 (Batch Size) 后重提任务"]
    severity := .critical }

/-- The causes and the advice for one neural processor. -/
def npuFindings (F : Type) [FloatFormat F] (v : GraphView) (id : String) :
    List String × List String :=
  let hot := (above 85 (v.numberOf F id "temperature")).map fun temp =>
    ("NPU " ++ id ++ " SOC 过温: " ++ FloatFormat.fixed 1 temp ++ "°C",
      "检查 NPU " ++ id ++ " 的散热系统")
  let degraded := ((v.metaOf id "hccs_lane_status").filter isDegraded).map fun _ =>
    ("NPU " ++ id ++ " HCCS 链路降级", "检查 NPU " ++ id ++ " 的 HCCS 连接")
  let slow := (v.numberOf F id "frequency").bind fun freq =>
    (v.numberOf F id "max_frequency").bind fun maxFreq =>
      if FloatArith.lt freq (FloatFormat.mul maxFreq (decimal 9 10)) then
        some ("NPU " ++ id ++ " 频率降频: " ++ FloatFormat.fixed 0 freq ++ "MHz (最大: " ++
          FloatFormat.fixed 0 maxFreq ++ "MHz)")
      else none
  ((hot.toList ++ degraded.toList).map Prod.fst ++ slow.toList,
    (hot.toList ++ degraded.toList).map Prod.snd)

def npuSubhealth (v : GraphView) (target : String) : AnalysisResult F :=
  let npus := (v.edgesOf target .consumes).filter fun e =>
    startsWith e.toId "npu-" || contains e.toId "ascend"
  let findings := npus.map fun e => npuFindings F v e.toId
  let rootCauses := orGeneral (findings.flatMap Prod.fst) "NPU 可能处于亚健康状态"
  { scene := .npuSubhealth
    rootCauses := rootCauses
    confidence := if 1 < rootCauses.length then decimal 85 100 else decimal 7 10
    recommendations := findings.flatMap Prod.snd ++
      ["检查机器散热和风扇状态", "检查 NPU 固件版本和驱动", "监控 NPU 温度趋势"]
    recommendedActions :=
      ["隔离亚健康节点，避免新任务调度到此节点", "联系硬件维护团队检查 NPU 硬件状态"]
    severity := .warning }

/-- The kinds of resources the analyzer of stalled workloads counts as input and
output. -/
def stalledIoWords : List String :=
  ["network", "storage", "disk"]

def workloadStalled (v : GraphView) (target : String) : AnalysisResult F :=
  if v.metaOf target "state" = some "running" then
    let load := v.load F target stalledIoWords
    let findings : List String × List String :=
      if load.isStalled then
        (["进程处于死锁/卡死状态", "所有 " ++ toString load.totalResources ++ " 个资源利用率均 < 1%",
            "未检测到网络或存储 IO 等待"],
          ["检查进程是否在等待锁或信号量", "检查进程是否在等待其他进程", "检查应用日志中的死锁信息"])
      else if load.hasIoWait then
        (["进程可能在等待 IO 操作完成"], ["检查网络或存储性能"])
      else
        (["进程可能处于正常的数据预处理阶段"], ["继续观察，如果超过预期时间再处理"])
    { scene := .workloadStalled
      rootCauses := findings.1
      confidence :=
        if load.lowUtilCount = load.totalResources ∧ load.hasIoWait = false then decimal 9 10
        else decimal 6 10
      recommendations := findings.2
      recommendedActions :=
        ["如果确认卡死，执行 ark zap 终止进程", "检查是否有 Checkpoint 可以恢复"]
      severity := .warning }
  else
    { scene := .workloadStalled
      rootCauses := ["进程不在运行状态"]
      confidence := FloatArith.ofNat 0
      recommendations := []
      recommendedActions := []
      severity := .info }

def gpuUtilLow (v : GraphView) (target : String) : AnalysisResult F :=
  let lowUtilGpus := (v.edgesOf target .consumes).filterMap fun e =>
    if startsWith e.toId "gpu-" || startsWith e.toId "npu-" then
      (below 10 (v.numberOf F e.toId "util")).map fun util => (e.toId, util)
    else none
  let hasWaitsOn := !(v.edgesOf target .waitsOn).isEmpty
  let findings : List String × List String :=
    if lowUtilGpus.isEmpty then
      (["GPU 利用率可能偏低"], [])
    else
      let causes := lowUtilGpus.map fun g =>
        g.1 ++ " 利用率极低: " ++ FloatFormat.fixed 1 g.2 ++ "%"
      if hasWaitsOn then
        (causes ++ ["进程可能在等待数据加载或网络传输"], ["检查数据加载速度", "检查网络带宽"])
      else
        (causes ++ ["GPU 可能处于空闲状态"], ["检查训练循环是否正常", "检查是否有死锁或阻塞"])
  { scene := .gpuUtilLow
    rootCauses := findings.1
    confidence := if lowUtilGpus.isEmpty then decimal 6 10 else decimal 8 10
    recommendations := findings.2 ++
      ["使用 nvidia-smi 或 ascend-toolkit 检查 GPU/NPU 状态", "检查训练代码中的同步点",
        "检查数据预处理是否成为瓶颈"]
    recommendedActions :=
      ["优化数据加载管道（增加 DataLoader workers）", "检查是否有不必要的同步操作",
        "考虑使用混合精度训练提升吞吐"]
    severity := .warning }

def networkWait (F : Type) [FloatFormat F] (v : GraphView) (id : String) : List String :=
  ["等待网络资源: " ++ id] ++
    ((above 10 (v.numberOf F id "drop_rate")).map fun rate =>
      "网络 " ++ id ++ " 丢包率过高: " ++ FloatFormat.fixed 1 rate ++ "%").toList

def networkStall (v : GraphView) (target : String) : AnalysisResult F :=
  let waits := (v.edgesOf target .waitsOn).filter fun e => isNetwork e.toId
  let errors := (v.edgesOf target .blockedBy).filterMap fun e =>
    if isNetwork e.toId then
      (v.nodes.lookup e.toId).bind fun node =>
        if contains node.id "error" then some ("网络错误: " ++ node.id) else none
    else none
  { scene := .networkStall
    rootCauses := orGeneral ((waits.flatMap fun e => networkWait F v e.toId) ++ errors) "网络可能阻塞"
    confidence := if waits.isEmpty then decimal 6 10 else decimal 85 100
    recommendations := ["检查网络带宽使用情况", "检查网络丢包统计", "检查 RDMA 连接状态（如果使用）"]
    recommendedActions := ["检查交换机 PFC 配置", "检查 RoCE/HCCS 连接状态"]
    severity := .warning }

def processCrash (v : GraphView) (target : String) : AnalysisResult F :=
  let crashed := ((v.metaOf target "state").filter fun state =>
    decide (state = "exit" ∨ state = "crash" ∨ state = "failed")).map fun state =>
      "进程状态: " ++ state
  let errors := (v.edgesOf target .blockedBy).filterMap fun e =>
    (v.nodes.lookup e.toId).bind fun node =>
      if contains node.id "error" then
        some (match node.metadata.lookup "error_type" with
          | some errorType => "错误: " ++ errorType
          | none => "错误节点: " ++ e.toId)
      else none
  { scene := .processCrash
    rootCauses := orGeneral (crashed.toList ++ errors) "进程可能异常退出"
    confidence := decimal 75 100
    recommendations :=
      ["检查进程退出码", "检查系统日志", "检查资源使用情况（内存、CPU）", "检查依赖服务状态"]
    recommendedActions :=
      ["检查 Checkpoint 文件是否完整", "如果支持，尝试从 Checkpoint 恢复训练", "修复根因后重新提交任务"]
    severity := .critical }

def storageError (v : GraphView) (e : Edge) : Option String :=
  match e.edgeType with
  | .blockedBy =>
    if containsAny e.toId ["storage", "disk", "nvme"] then
      (v.nodes.lookup e.toId).map fun node =>
        match node.metadata.lookup "error_type" with
        | some errorType => "存储错误: " ++ errorType
        | none => "存储设备 " ++ e.toId ++ " 异常"
    else none
  | .waitsOn =>
    if containsAny e.toId ["storage", "disk"] then
      (v.metaOf e.toId "io_error").map fun ioError => "存储 IO 错误: " ++ ioError
    else none
  | .consumes => none

def storageIoError (v : GraphView) (target : String) : AnalysisResult F :=
  let errors := (v.edges.filter fun e => decide (e.fromId = target)).filterMap (storageError v)
  { scene := .storageIoError
    rootCauses := orGeneral errors "存储 IO 可能存在问题"
    confidence := decimal 75 100
    recommendations :=
      ["检查存储设备健康状态", "检查文件系统错误", "检查磁盘空间", "检查存储设备 I/O 统计"]
    recommendedActions :=
      ["检查 dmesg 中的存储错误日志", "运行 fsck 检查文件系统", "检查存储设备 SMART 状态"]
    severity := .critical }

def slowReasons (F : Type) [FloatFormat F] (v : GraphView) (id : String) : List String :=
  ((below 100 (v.numberOf F id "iops")).map fun iops =>
    "IOPS 过低: " ++ FloatFormat.fixed 0 iops).toList ++
  ((above 100 (v.numberOf F id "latency_ms")).map fun latency =>
    "IO 延迟过高: " ++ FloatFormat.fixed 1 latency ++ "ms").toList ++
  ((above 100 (v.numberOf F id "qdepth")).map fun qdepth =>
    "队列深度过高: " ++ FloatFormat.fixed 0 qdepth).toList

def storageSlow (v : GraphView) (target : String) : AnalysisResult F :=
  let devices := (v.edgesOf target .waitsOn).filter fun e =>
    containsAny e.toId ["storage", "disk", "nvme"]
  let slow := devices.flatMap fun e => (slowReasons F v e.toId).map fun reason => (e.toId, reason)
  { scene := .storageSlow
    rootCauses := orGeneral (slow.map fun s => s.1 ++ ": " ++ s.2) "存储性能可能偏低"
    confidence := if slow.isEmpty then decimal 6 10 else decimal 8 10
    recommendations := ["检查存储设备性能基准", "检查是否有其他进程竞争存储资源", "检查存储设备是否过热"]
    recommendedActions :=
      ["使用 iostat 监控存储性能", "考虑使用更快的存储（NVMe SSD）", "优化数据加载策略（预取、缓存）"]
    severity := .warning }

def checkpointTimeout (v : GraphView) (target : String) : AnalysisResult F :=
  let waits := (v.edgesOf target .waitsOn).filter fun e => containsAny e.toId ["storage", "disk"]
  let slow := waits.filterMap fun e =>
    (below 50 (v.numberOf F e.toId "iops")).map fun iops =>
      "存储 " ++ e.toId ++ " IOPS 过低: " ++ FloatFormat.fixed 0 iops
  let saving := ((v.metaOf target "state").map fun state =>
    containsAny state ["checkpoint", "saving"]).getD false
  let checkpointWait := !waits.isEmpty || saving
  let findings : List String × List String :=
    if checkpointWait then
      (slow ++ [if slow.isEmpty then "Checkpoint 操作可能超时"
          else "Checkpoint 操作因存储性能问题而超时"],
        ["检查 Checkpoint 文件大小和存储性能", "考虑使用异步 Checkpoint 保存", "检查存储设备健康状态"])
    else
      (slow ++ ["可能不是 Checkpoint 相关的问题"], [])
  { scene := .processBlocked
    rootCauses := findings.1
    confidence := if checkpointWait then decimal 8 10 else decimal 5 10
    recommendations := findings.2
    recommendedActions :=
      ["尝试触发 Checkpoint Dump 信号 (SIGUSR1)", "如果 Checkpoint 损坏，从上一个 Checkpoint 恢复",
        "优化 Checkpoint 保存策略（减少频率或使用增量保存）", "检查 Checkpoint 目录的磁盘空间"]
    severity := .warning }

end SceneAnalyzer

namespace SceneIdentifier

variable {F : Type} [FloatFormat F]

/-- An analyzer with the scene it is for. -/
abbrev Analyzer (F : Type) : Type :=
  SceneType × (GraphView → String → AnalysisResult F)

/-- The registered analyzers, in order. -/
def registry : List (Analyzer F) :=
  [(.gpuOom, SceneAnalyzer.gpuOom),
   (.npuSubhealth, SceneAnalyzer.npuSubhealth),
   (.workloadStalled, SceneAnalyzer.workloadStalled),
   (.gpuUtilLow, SceneAnalyzer.gpuUtilLow),
   (.networkStall, SceneAnalyzer.networkStall),
   (.processCrash, SceneAnalyzer.processCrash),
   (.storageIoError, SceneAnalyzer.storageIoError),
   (.storageSlow, SceneAnalyzer.storageSlow),
   (.processBlocked, SceneAnalyzer.checkpointTimeout)]

/-- The first analyzer for a scene. -/
def getAnalyzer (scene : SceneType) : Option (Analyzer F) :=
  registry.find? fun a => decide (a.1 = scene)

def analyzeScene (scene : SceneType) (v : GraphView) (pid : Nat) : Option (AnalysisResult F) :=
  (getAnalyzer scene).map fun a => a.2 v (pidStr pid)

/-- What the identifier has found when it names a scene. -/
inductive Found (F : Type) [FloatArith F] (v : GraphView) (pid : Nat) : SceneType → Prop
  | gpuOom (e : Edge) (he : e ∈ v.edgesOf (pidStr pid) .blockedBy) (node : Node)
      (hnode : v.nodes.lookup e.toId = some node) (hgpu : isGpu node.id = true)
      (errorType : String) (htype : node.metadata.lookup "error_type" = some errorType)
      (hoom : isOom errorType = true) : Found F v pid .gpuOom
  | gpuError (e : Edge) (he : e ∈ v.edgesOf (pidStr pid) .blockedBy) (node : Node)
      (hnode : v.nodes.lookup e.toId = some node) (hgpu : isGpu node.id = true)
      (errorType : String) (htype : node.metadata.lookup "error_type" = some errorType)
      (herror : isHardwareError errorType = true) : Found F v pid .gpuError
  | npuSubhealth (e : Edge) (he : e ∈ v.edgesOf (pidStr pid) .blockedBy) (node : Node)
      (hnode : v.nodes.lookup e.toId = some node) (key : String)
      (hkey : key = "temperature" ∨ key = "hccs_lane_status") (value : String)
      (hvalue : node.metadata.lookup key = some value) : Found F v pid .npuSubhealth
  | networkStall (e : Edge) (he : e ∈ v.edgesOf (pidStr pid) .waitsOn)
      (hnetwork : isNetwork e.toId = true) : Found F v pid .networkStall
  | processCrash (state : String) (hstate : v.metaOf (pidStr pid) "state" = some state)
      (hcrash : state = "exit" ∨ state = "crash" ∨ state = "failed") :
      Found F v pid .processCrash
  | processBlocked (state : String) (hstate : v.metaOf (pidStr pid) "state" = some state)
      (hblocked : state = "blocked" ∨ state = "waiting") : Found F v pid .processBlocked
  | workloadStalled (hstate : v.metaOf (pidStr pid) "state" = some "running")
      (hstalled : (v.load F (pidStr pid) ioWords).isStalled = true) :
      Found F v pid .workloadStalled

section Identify

variable {F : Type} [FloatArith F] {v : GraphView} {pid : Nat} {scene : SceneType}

theorem found_of_gpuScene {e : Edge} (he : e ∈ v.edgesOf (pidStr pid) .blockedBy) {node : Node}
    (hnode : v.nodes.lookup e.toId = some node) (h : gpuScene node = some scene) :
    Found F v pid scene := by
  unfold gpuScene at h
  split_ifs at h with hgpu
  obtain ⟨errorType, htype, h⟩ := Option.bind_eq_some_iff.mp h
  split_ifs at h with hoom herror
  · cases h
    exact .gpuOom e he node hnode hgpu errorType htype hoom
  · cases h
    exact .gpuError e he node hnode hgpu errorType htype herror

theorem found_of_npuScene {e : Edge} (he : e ∈ v.edgesOf (pidStr pid) .blockedBy) {node : Node}
    (hnode : v.nodes.lookup e.toId = some node) (h : npuScene F node = some scene) :
    Found F v pid scene := by
  unfold npuScene at h
  split_ifs at h
  rcases (Option.orElse_eq_some _ _ _).mp h with hhot | ⟨_, hdegraded⟩
  · obtain ⟨temp, htemp, hhot⟩ := Option.bind_eq_some_iff.mp hhot
    obtain ⟨_, _, hhot⟩ := Option.bind_eq_some_iff.mp hhot
    split_ifs at hhot
    cases hhot
    exact .npuSubhealth e he node hnode _ (Or.inl rfl) temp htemp
  · obtain ⟨status, hstatus, hdegraded⟩ := Option.bind_eq_some_iff.mp hdegraded
    split_ifs at hdegraded
    cases hdegraded
    exact .npuSubhealth e he node hnode _ (Or.inr rfl) status hstatus

theorem found_of_stateScene (h : stateScene F v (pidStr pid) = some scene) :
    Found F v pid scene := by
  obtain ⟨state, hstate, h⟩ := Option.bind_eq_some_iff.mp h
  split_ifs at h with hcrash hblocked hrunning
  · cases h
    exact .processCrash state hstate hcrash
  · cases h
    exact .processBlocked state hstate hblocked
  · cases h
    obtain ⟨rfl, hstalled⟩ := hrunning
    exact .workloadStalled hstate hstalled

/-- **What the identifier names, it has found**: on an edge of the process or in
its state. -/
theorem found_of_identifyScene (h : identifyScene F v pid = some scene) :
    Found F v pid scene := by
  unfold identifyScene at h
  rcases (Option.orElse_eq_some _ _ _).mp h with hblocked | ⟨_, h⟩
  · obtain ⟨e, he, hscene⟩ := List.exists_of_findSome?_eq_some hblocked
    obtain ⟨node, hnode, hscene⟩ := Option.bind_eq_some_iff.mp hscene
    rcases (Option.orElse_eq_some _ _ _).mp hscene with hgpu | ⟨_, hnpu⟩
    · exact found_of_gpuScene he hnode hgpu
    · exact found_of_npuScene he hnode hnpu
  · rcases (Option.orElse_eq_some _ _ _).mp h with hwait | ⟨_, hstate⟩
    · obtain ⟨e, he, hscene⟩ := List.exists_of_findSome?_eq_some hwait
      unfold waitScene at hscene
      split_ifs at hscene with hnetwork
      cases hscene
      exact .networkStall e he hnetwork
    · exact found_of_stateScene hstate

end Identify

section Analysis

variable {v : GraphView} {target : String}

theorem mem_orGeneral {causes : List String} {cause : String} (h : cause ∈ causes)
    (general : String) : cause ∈ SceneAnalyzer.orGeneral causes general := by
  unfold SceneAnalyzer.orGeneral
  rw [if_neg]
  · exact h
  · intro hempty
    rw [List.isEmpty_iff.mp hempty] at h
    exact List.not_mem_nil h

theorem mem_gpuOom {e : Edge} (he : e ∈ v.edgesOf target .blockedBy) {node : Node}
    (hnode : v.nodes.lookup e.toId = some node) (hgpu : isGpu node.id = true) {errorType : String}
    (htype : node.metadata.lookup "error_type" = some errorType) (hoom : isOom errorType = true) :
    "GPU " ++ node.id ++ " 显存不足" ∈ (SceneAnalyzer.gpuOom v target : AnalysisResult F).rootCauses := by
  refine mem_orGeneral (List.mem_append_left _ (List.mem_filterMap.mpr ⟨e, he, ?_⟩)) _
  simp [hnode, hgpu, htype, hoom]

theorem mem_networkStall {e : Edge} (he : e ∈ v.edgesOf target .waitsOn)
    (hnetwork : isNetwork e.toId = true) :
    "等待网络资源: " ++ e.toId ∈ (SceneAnalyzer.networkStall v target : AnalysisResult F).rootCauses := by
  refine mem_orGeneral (List.mem_append_left _ (List.mem_flatMap.mpr ⟨e, ?_, ?_⟩)) _
  · exact List.mem_filter.mpr ⟨he, hnetwork⟩
  · exact List.mem_append_left _ List.mem_cons_self

theorem mem_processCrash {state : String} (hstate : v.metaOf target "state" = some state)
    (hcrash : state = "exit" ∨ state = "crash" ∨ state = "failed") :
    "进程状态: " ++ state ∈ (SceneAnalyzer.processCrash v target : AnalysisResult F).rootCauses := by
  refine mem_orGeneral (List.mem_append_left _ ?_) _
  simp [hstate, hcrash]

/-- A workload that is stalled for the identifier is stalled for the analyzer,
unless it waits for a disk. -/
theorem isStalled_stalledIoWords (F : Type) [FloatArith F]
    (h : (v.load F target ioWords).isStalled = true) :
    (v.load F target SceneAnalyzer.stalledIoWords).isStalled = true ↔
      ∀ e ∈ v.edgesOf target .waitsOn, Text.contains e.toId "disk" = false := by
  simp only [GraphView.Load.isStalled, GraphView.load, Bool.and_eq_true, decide_eq_true_eq,
    Bool.not_eq_true', List.any_eq_false, ioWords, SceneAnalyzer.stalledIoWords, Text.containsAny,
    List.any_cons, List.any_nil, Bool.or_false, Bool.or_eq_true, not_or] at h ⊢
  obtain ⟨⟨htotal, hlow⟩, hwait⟩ := h
  constructor
  · rintro ⟨_, hdisk⟩ e he
    exact Bool.eq_false_iff.mpr (hdisk e he).2.2
  · intro hdisk
    refine ⟨⟨htotal, hlow⟩, ?_⟩
    intro e he
    exact ⟨(hwait e he).1, (hwait e he).2, Bool.eq_false_iff.mp (hdisk e he)⟩

theorem scene_workloadStalled :
    (SceneAnalyzer.workloadStalled v target : AnalysisResult F).scene = .workloadStalled := by
  unfold SceneAnalyzer.workloadStalled
  split
  · rfl
  · rfl

theorem mem_workloadStalled (hstate : v.metaOf target "state" = some "running") :
    "进程处于死锁/卡死状态" ∈ (SceneAnalyzer.workloadStalled v target : AnalysisResult F).rootCauses ↔
      (v.load F target SceneAnalyzer.stalledIoWords).isStalled = true := by
  unfold SceneAnalyzer.workloadStalled
  rw [if_pos hstate]
  simp only
  split_ifs with hstalled hwait
  · simp [hstalled]
  · simp [hstalled]
  · simp [hstalled]

end Analysis

/-- A running process whose only device is idle and that waits for a disk. -/
def diskWait : GraphView where
  edges := [⟨.consumes, "pid-7", "gpu-0", 1000⟩, ⟨.waitsOn, "pid-7", "disk-0", 2000⟩]
  nodes :=
    ((∅ : HashMap String Node).insert "pid-7" (processNode "pid-7" 1000 runningMetadata)).insert
      "gpu-0" { resourceNode "gpu-0" 1000 with
        metadata := (∅ : HashMap String String).insert "util" "0.5" }

end SceneIdentifier

end ArkInfra
