import ArkInfra.Agent.Ipc
import ArkInfra.Agent.SceneRuns
import ArkInfra.Core.RootCause
import ArkInfra.Core.RuleEngine
import ArkInfra.Lib.Interact
import ArkInfra.Lib.Lowercase

/-!
# The command `ark diag`

`agent/src/diag.rs`, `run_diagnosis`: ask the daemon for the root causes of a
process and for all processes, make events out of the answers, and look for the
first rule whose event conditions match these events.  Without such a rule a
language model is asked, with the answers of the daemon in the prompt.

The rules are written for the events of the probes, but the events here are made
from texts.  `Explains` says which conditions a root cause can meet, and
`runDiagnosis_after` that the command follows it: the processes play no part,
since a daemon never reports the states that are looked for, and a threshold is
never met, since no root cause is a number.
-/

namespace ArkInfra

open Json Text

structure Diagnosis (F : Type) where
  pid : Nat
  causes : List String
  recommendation : String
  confidence : F

inductive LlmProvider where
  | openAI
  | claude
  | localModel
deriving DecidableEq, Repr

def LlmProvider.fromStr (unicode : Lowercase) (s : String) : LlmProvider :=
  match unicode.lower s with
  | "openai" | "gpt" => .openAI
  | "claude" | "anthropic" => .claude
  | "local" | "ollama" => .localModel
  | _ => .openAI

namespace Diag

section Texts

/-- The lines of the causes, counted from one. -/
def causeLines (causes : List String) : String :=
  String.join ((causes.zipIdx 1).map fun cause => toString cause.2 ++ ". " ++ cause.1 ++ "\n")

def processLine (proc : Value) : String :=
  "- PID " ++ toString (((proc.get "pid").bind Value.asU64).getD 0) ++ ": 状态=" ++
    ((proc.get "state").bind Value.asStr).getD "unknown" ++ ", 资源=[" ++
    (((proc.get "resources").bind Value.asArray).map fun resources =>
      ", ".intercalate (resources.filterMap Value.asStr)).getD "" ++ "]\n"

def buildDiagnosisPrompt (pid : Nat) (causes : List String) (processes : List Value) : String :=
  "## 问题描述\n\n进程 PID " ++ toString pid ++ " 出现性能问题。\n\n" ++
    (if causes.isEmpty then "" else "## 阻塞根因分析\n\n" ++ causeLines causes ++ "\n") ++
    (if processes.isEmpty then ""
      else "## 相关进程信息\n\n" ++ String.join ((processes.take 5).map processLine) ++ "\n") ++
    "## 请提供诊断建议\n\n请基于以上信息，提供：\n1. 问题根因分析（用一句话概括）\n2. 具体的修复建议（3-5 条）\n" ++
    "3. 预防措施（可选）\n\n请用简洁、专业的中文回答，避免技术术语过多。"

def stepLines (step : SolutionStep) : String :=
  toString step.step ++ ". " ++ step.action ++ "\n" ++
    (match step.command with
      | some cmd => "   命令: " ++ cmd ++ "\n"
      | none => "") ++
    (if step.manual then "   [需要手动执行]\n" else "")

def recommendationOf {F : Type} (rule : Rule F) : String :=
  "【规则匹配: " ++ rule.name ++ "】\n\n根因: " ++ rule.rootCausePattern.primary ++
    "\n\n解决方案:\n" ++ String.join (rule.solutionSteps.map stepLines)

end Texts

section Events

/-- The kind of error that a cause names, with the entity of its event. -/
def causeKind (cause : String) : Option (EventType × String) :=
  if containsAny cause ["error.hw", "GPU", "OOM"] then some (.errorHw, "gpu-*")
  else if containsAny cause ["network", "网络"] then some (.errorNet, "network-*")
  else none

def causeEvent (now : Nat) (cause : String) : Option Event :=
  (causeKind cause).map fun kind =>
    { ts := now
      eventType := kind.1
      entityId := kind.2
      jobId := none
      pid := none
      value := cause
      nodeId := none }

def processEvent (now : Nat) (proc : Value) : Option Event :=
  match (proc.get "state").bind Value.asStr with
  | none => none
  | some state =>
    if state = "blocked" ∨ state = "waiting" then
      some
        { ts := now
          eventType := .processState
          entityId := "pid-" ++ toString (((proc.get "pid").bind Value.asU64).getD 0)
          jobId := none
          pid := ((proc.get "pid").bind Value.asU64).map (· % 2 ^ 32)
          value := state
          nodeId := none }
    else none

def extractVirtualEventsFromCauses (now : Nat) (causes : List String) (processes : List Value) :
    List Event :=
  causes.filterMap (causeEvent now) ++ processes.filterMap (processEvent now)

end Events

/-- What the command asks of its environment. -/
inductive Call where
  | ping
  | whyProcess (pid : Nat)
  | listProcesses
  | loadRules (dir : String)
  | now
  | envVar (name : String)
  | complete (provider : LlmProvider) (apiKey prompt : String)

/-- What is answered; a text in place of an answer is an error. -/
@[reducible] def Call.Answer (F : Type) : Call → Type
  | .ping => Bool
  | .whyProcess _ => Except String (List String)
  | .listProcesses => Except String (List Value)
  | .loadRules _ => Except String (RuleEngine F)
  | .now => Nat
  | .envVar _ => Option String
  | .complete _ _ _ => Except String String

abbrev Program (F R : Type) : Type :=
  Interact Call (Call.Answer F) R

abbrev Environment (F : Type) : Type :=
  Host Call (Call.Answer F)

section Program

open Interact

variable {F : Type}

def keyFrom (name other message : String) : Program F (Except String String) := do
  let first ← perform (Call.envVar name)
  match first with
  | some key => pure (.ok key)
  | none => do
      let second ← perform (Call.envVar other)
      pure (second.elim (.error message) .ok)

def apiKey : LlmProvider → Program F (Except String String)
  | .openAI => keyFrom "OPENAI_API_KEY" "XCTL_OPENAI_API_KEY" "未设置 OPENAI_API_KEY 环境变量"
  | .claude =>
    keyFrom "ANTHROPIC_API_KEY" "XCTL_ANTHROPIC_API_KEY" "未设置 ANTHROPIC_API_KEY 环境变量"
  | .localModel => pure (.ok "")

/-- The provider that is named, or that of the environment. -/
def providerOf (unicode : Lowercase) : Option String → Program F LlmProvider
  | some name => pure (LlmProvider.fromStr unicode name)
  | none => do
      let name ← perform (Call.envVar "XCTL_LLM_PROVIDER")
      pure ((name.map (LlmProvider.fromStr unicode)).getD .openAI)

def configError (llmProvider : Option String) (e : String) : String :=
  match llmProvider with
  | some _ => e
  | none => "LLM 配置错误: " ++ e

variable [FloatArith F]

/-- The diagnosis from the answer of a model. -/
def diagnosisOf (pid : Nat) (causes : List String) (response : String) : Diagnosis F where
  pid := pid
  causes := causes
  recommendation := Text.trim response
  confidence := FloatArith.div (FloatArith.ofNat 8) (FloatArith.ofNat 10)

/-- Ask a language model. -/
def askModel (unicode : Lowercase) (pid : Nat) (llmProvider : Option String)
    (causes : List String) (processes : List Value) :
    Program F (Except String (Diagnosis F)) := do
  let provider ← providerOf unicode llmProvider
  let key ← apiKey provider
  match key with
  | .error e => pure (.error (configError llmProvider e))
  | .ok key => do
      let response ← perform
        (Call.complete provider key (buildDiagnosisPrompt pid causes processes))
      pure (response.map (diagnosisOf pid causes))

def ruleDiagnosis (pid : Nat) (causes : List String) (rule : Rule F) : Diagnosis F where
  pid := pid
  causes := causes
  recommendation := recommendationOf rule
  confidence := FloatArith.div (FloatArith.ofNat 9) (FloatArith.ofNat 10)

end Program

section Run

open Interact

variable {F : Type} [FloatCompare F]

/-- The rule that matches the events made from the answers.  Rules that cannot be
loaded are passed over. -/
def matchingRule (causes : List String) (processes : List Value) :
    Option String → Program F (Option (Rule F))
  | none => pure none
  | some dir => do
      let loaded ← perform (Call.loadRules dir)
      match loaded with
      | .error _ => pure none
      | .ok engine => do
          let now ← perform Call.now
          pure (engine.matchFirstSimple (extractVirtualEventsFromCauses now causes processes))

def diagnoseWith (unicode : Lowercase) (pid : Nat) (llmProvider rulesDir : Option String)
    (causes : List String) (processes : List Value) :
    Program F (Except String (Diagnosis F)) := do
  let rule ← matchingRule causes processes rulesDir
  match rule with
  | some rule => pure (.ok (ruleDiagnosis pid causes rule))
  | none => askModel unicode pid llmProvider causes processes

def runDiagnosis (unicode : Lowercase) (pid : Nat) (llmProvider rulesDir : Option String) :
    Program F (Except String (Diagnosis F)) := do
  let alive ← perform Call.ping
  if alive = false then
    pure (.error "无法连接到 daemon，请先运行: ark run")
  else
    let why ← perform (Call.whyProcess pid)
    match why with
    | .error e => pure (.error e)
    | .ok causes => do
        let listed ← perform Call.listProcesses
        match listed with
        | .error e => pure (.error e)
        | .ok processes => diagnoseWith unicode pid llmProvider rulesDir causes processes

end Run

section Causes

open StateGraph

variable {F : Type}

theorem exists_edge_of_mem {g : StateGraph F} {s cause : String}
    (h : cause ∈ g.findRootCauseById s) :
    ∃ u, Relation.ReflTransGen g.BlockedOn s u ∧
      ∃ edge ∈ (g.edgeOutIndex.lookup u).getD [], cause ∈ Search.edgeCauses g.nodes edge := by
  have hreturns := returns_findRootCauseById g s (Nat.le_refl _)
  have hfound := SearchGraph.found_of_returns hreturns
  have hmem : cause ∈ ((Search.dfsBackward g.edgeOutIndex g.nodes (g.nodes.keys.length + 2) s
      ⟨∅, []⟩).toState.found : Multiset String) := h
  rw [hfound, Multiset.mem_sum] at hmem
  obtain ⟨u, hvisited, hu⟩ := hmem
  have hadj : (Search.causeGraph g.edgeOutIndex g.nodes).Adj = g.BlockedOn := by
    funext a b
    exact propext (adj_causeGraph g a b)
  have hreach := (SearchGraph.visited_of_returns hreturns u).mp hvisited
  rw [SearchGraph.Reaches, hadj] at hreach
  exact ⟨u, hreach, List.mem_flatMap.mp hu⟩

/-- What the events of a run must contain for a root cause at a process: the error
of a resource that the process was bound to, or its wait for a resource. -/
inductive CauseEvidence (F : Type) [FloatArith F] (events : List Event) (process : String) :
    String → Prop
  | blamed (error text : String) (hblame : BlameEvidence events process error)
      (htext : text = "未知错误" ∨
        ∃ d ∈ events, d.eventType.isError = true ∧ errorNodeId d = error ∧ d.value = text) :
      CauseEvidence F events process (error ++ ": " ++ text)
  | waits (resource : String) (c : Event) (hc : c ∈ events)
      (hwait : c.ReportsWait F process resource) :
      CauseEvidence F events process ("等待资源: " ++ resource)

theorem colon_mem_of_evidence [FloatArith F] {events : List Event} {process cause : String}
    (h : CauseEvidence F events process cause) : ':' ∈ cause.toList := by
  cases h <;> simp

variable [FloatArith F] {events : List Event}

theorem edge_of_indexed {u : String} {edge : IndexedEdge}
    (h : edge ∈ ((after events : StateGraph F).edgeOutIndex.lookup u).getD []) :
    ∃ e ∈ (after events : StateGraph F).edges, e.fromId = u ∧ e.edgeType = edge.edgeType ∧
      e.toId = edge.toId := by
  rw [(consistent_after events).edgeOutIndex_eq] at h
  obtain ⟨e, he, rfl⟩ := List.mem_map.mp h
  obtain ⟨hmem, hfrom⟩ := List.mem_filter.mp he
  exact ⟨e, hmem, of_decide_eq_true hfrom, rfl, rfl⟩

/-- **Every root cause has its events**, at the process or at an error that it is
blocked on. -/
theorem evidence_after {s cause : String}
    (h : cause ∈ (after events : StateGraph F).findRootCauseById s) :
    ∃ u, Relation.ReflTransGen (BlameEvidence events) s u ∧ CauseEvidence F events u cause := by
  obtain ⟨u, hreach, edge, hedge, hcause⟩ := exists_edge_of_mem h
  have hblame : ∀ {a b : String} {edge : IndexedEdge},
      edge ∈ ((after events : StateGraph F).edgeOutIndex.lookup a).getD [] →
      edge.edgeType = .blockedBy → edge.toId = b → BlameEvidence events a b := by
    intro a b edge hedge htype hto
    obtain ⟨e, he, rfl, hty, htoId⟩ := edge_of_indexed hedge
    rw [← hto, ← htoId]
    exact (accounted_after events).blockedBy e he (hty.trans htype)
  have hblocked : (after events : StateGraph F).BlockedOn ≤ BlameEvidence events :=
    fun a b hab => hblame hab.1 rfl rfl
  refine ⟨u, Relation.ReflTransGen.mono hblocked s u hreach, ?_⟩
  unfold Search.edgeCauses at hcause
  cases hty : edge.edgeType with
  | consumes =>
    rw [hty] at hcause
    cases hcause
  | waitsOn =>
    rw [hty] at hcause
    obtain rfl := List.mem_singleton.mp hcause
    obtain ⟨e, he, rfl, hetype, hto⟩ := edge_of_indexed hedge
    obtain ⟨c, hc, hwait⟩ := reportsWait_after events he (hetype.trans hty)
    rw [← hto]
    exact .waits e.toId c hc hwait
  | blockedBy =>
    rw [hty] at hcause
    cases hnode : (after events : StateGraph F).nodes.lookup edge.toId with
    | none =>
      simp [hnode] at hcause
    | some node =>
      simp only [hnode] at hcause
      split_ifs at hcause with herror
      · obtain rfl := List.mem_singleton.mp hcause
        refine .blamed edge.toId _ (hblame hedge hty rfl) ?_
        cases htext : node.metadata.lookup "error_type" with
        | none =>
          exact .inl rfl
        | some text =>
          obtain ⟨d, hd, hwrites⟩ := metadata_after events _ node hnode _ _ htext
          exact .inr ⟨d, hd, SceneIdentifier.error_of_writes hwrites⟩
      · cases hcause

end Causes

section Silent

open StateGraph

variable {F : Type}

/-- What the daemon answers for its processes. -/
def listing (g : StateGraph F) : List Value :=
  g.getActiveProcesses.map (Ipc.processJson g)

theorem processEvent_processJson (now : Nat) (g : StateGraph F) {node : Node}
    (h : (node.metadata.lookup "state").getD "unknown" ∈ ["unknown", "running", "exit", "zombie"]) :
    processEvent now (Ipc.processJson g node) = none := by
  have hstate : ((Ipc.processJson g node).get "state").bind Value.asStr =
      some ((node.metadata.lookup "state").getD "unknown") := rfl
  simp only [processEvent, hstate]
  revert h
  generalize (node.metadata.lookup "state").getD "unknown" = state
  intro h
  rw [if_neg]
  rintro (rfl | rfl)
  · revert h
    decide
  · revert h
    decide

variable [FloatArith F]

theorem state_after {events : List Event} {id : String} {node : Node}
    (hnode : (after events : StateGraph F).nodes.lookup id = some node) :
    (node.metadata.lookup "state").getD "unknown" ∈ ["unknown", "running", "exit", "zombie"] := by
  cases hstate : node.metadata.lookup "state" with
  | none =>
    simp
  | some state =>
    obtain ⟨event, _, hwrites⟩ := metadata_after events id node hnode _ _ hstate
    rcases SceneIdentifier.state_of_writes hwrites with rfl | ⟨hend, rfl⟩
    · simp
    · rcases hend.2.1 with hvalue | hvalue <;> simp [hvalue]

/-- **No process is blocked or waiting** in a listing of the daemon. -/
theorem processEvents_listing (now : Nat) (events : List Event) :
    (listing (after events : StateGraph F)).filterMap (processEvent now) = [] := by
  rw [List.filterMap_eq_nil_iff]
  intro proc hproc
  obtain ⟨node, hnode, rfl⟩ := List.mem_map.mp hproc
  obtain ⟨entry, hentry, rfl⟩ := List.mem_map.mp (List.mem_filter.mp hnode).1
  apply processEvent_processJson
  exact state_after (AList.mem_lookup_iff.mpr hentry)

end Silent

section Rules

variable {F : Type}

/-- The cause names the kind of error, and meets the patterns. -/
def Names (cause eventType : String) (entityIdPattern valuePattern : Option String) : Prop :=
  ∃ kind ∈ causeKind cause, kind.1.toText = eventType ∧
    (∀ pattern ∈ entityIdPattern, RuleEngine.matchesPattern kind.2 pattern = true) ∧
    ∀ pattern ∈ valuePattern, RuleEngine.matchesValuePattern cause pattern = true

/-- The causes meet the event conditions of the rule, and there is one: none of
them may have a threshold. -/
def Explains (causes : List String) (rule : Rule F) : Prop :=
  (∃ condition ∈ rule.conditions, condition.isEvent = true) ∧
    ∀ eventType entityIdPattern valuePattern valueThreshold,
      Condition.event eventType entityIdPattern valuePattern valueThreshold ∈ rule.conditions →
        valueThreshold = none ∧
          ∃ cause ∈ causes, Names cause eventType entityIdPattern valuePattern

theorem eventType_of_names {cause eventType : String} {entityIdPattern valuePattern : Option String}
    (h : Names cause eventType entityIdPattern valuePattern) :
    eventType = "error.hw" ∨ eventType = "error.net" := by
  obtain ⟨kind, hkind, rfl, _⟩ := h
  unfold causeKind at hkind
  split_ifs at hkind <;> cases hkind
  · exact .inl rfl
  · exact .inr rfl

variable [FloatCompare F]

theorem matchesEvent_iff {now : Nat} {cause : String}
    (hparse : (FloatArith.parse cause : Option F) = none) {event : Event}
    (hevent : causeEvent now cause = some event) (eventType : String)
    (entityIdPattern valuePattern : Option String) (valueThreshold : Option F) :
    RuleEngine.matchesEvent eventType entityIdPattern valuePattern valueThreshold event = true ↔
      valueThreshold = none ∧ Names cause eventType entityIdPattern valuePattern := by
  obtain ⟨kind, hkind, rfl⟩ := Option.map_eq_some_iff.mp hevent
  unfold RuleEngine.matchesEvent Names
  simp only [hparse, hkind]
  cases entityIdPattern <;> cases valuePattern <;> cases valueThreshold <;> simp

theorem matchesSimply_iff_explains {now : Nat} {causes : List String} {processes : List Value}
    (hsilent : processes.filterMap (processEvent now) = [])
    (hparse : ∀ cause ∈ causes, (FloatArith.parse cause : Option F) = none) (rule : Rule F) :
    RuleEngine.matchesSimply (extractVirtualEventsFromCauses now causes processes) rule = true ↔
      Explains causes rule := by
  have hevents : extractVirtualEventsFromCauses now causes processes =
      causes.filterMap (causeEvent now) := by
    rw [extractVirtualEventsFromCauses, hsilent, List.append_nil]
  rw [hevents, RuleEngine.matchesSimply_iff StateGraph.new]
  refine and_congr_right fun _ => ⟨?_, ?_⟩
  · intro h eventType entityIdPattern valuePattern valueThreshold hmem
    have hany := (RuleEngine.matchesEventCondition_iff StateGraph.new rfl).mpr (h _ hmem rfl)
    obtain ⟨event, hevent, hmatch⟩ := List.any_eq_true.mp hany
    obtain ⟨cause, hcause, hmade⟩ := List.mem_filterMap.mp hevent
    obtain ⟨hnone, hnames⟩ := (matchesEvent_iff (hparse cause hcause) hmade _ _ _ _).mp hmatch
    exact ⟨hnone, cause, hcause, hnames⟩
  · intro h condition hmem hisEvent
    cases condition with
    | event eventType entityIdPattern valuePattern valueThreshold =>
      apply (RuleEngine.matchesEventCondition_iff StateGraph.new hisEvent).mp
      obtain ⟨hnone, cause, hcause, hnames⟩ := h _ _ _ _ hmem
      obtain ⟨kind, hkind, _⟩ := id hnames
      have hmade : causeEvent now cause = some _ := Option.map_eq_some_iff.mpr ⟨kind, hkind, rfl⟩
      refine List.any_eq_true.mpr ⟨_, List.mem_filterMap.mpr ⟨cause, hcause, hmade⟩, ?_⟩
      exact (matchesEvent_iff (hparse cause hcause) hmade _ _ _ _).mpr ⟨hnone, hnames⟩
    | graph | metric | signal | any | all =>
      cases hisEvent

end Rules

section Command

open Interact StateGraph

variable {F : Type} [FloatCompare F]

def firstCalls (pid : Nat) (dir : String) : List Call :=
  [.ping, .whyProcess pid, .listProcesses, .loadRules dir, .now]

structure Answers (host : Environment F) (pid : Nat) (dir : String) (causes : List String)
    (processes : List Value) (engine : RuleEngine F) : Prop where
  alive : host [] .ping = true
  why : host [.ping] (.whyProcess pid) = .ok causes
  listed : host [.ping, .whyProcess pid] .listProcesses = .ok processes
  loaded : host [.ping, .whyProcess pid, .listProcesses] (.loadRules dir) = .ok engine

theorem run_of_answers {host : Environment F} {pid : Nat} {dir : String} {causes : List String}
    {processes : List Value} {engine : RuleEngine F}
    (h : Answers host pid dir causes processes engine) (unicode : Lowercase)
    (llmProvider : Option String) :
    let now := host [.ping, .whyProcess pid, .listProcesses, .loadRules dir] .now
    let found := engine.matchFirstSimple (extractVirtualEventsFromCauses now causes processes)
    let next : Program F (Except String (Diagnosis F)) :=
      match found with
      | some rule => pure (.ok (ruleDiagnosis pid causes rule))
      | none => askModel unicode pid llmProvider causes processes
    (runDiagnosis unicode pid llmProvider (some dir)).calls host [] =
        firstCalls pid dir ++ next.calls host (firstCalls pid dir) ∧
      (runDiagnosis unicode pid llmProvider (some dir)).result host [] =
        next.result host (firstCalls pid dir) := by
  simp [runDiagnosis, diagnoseWith, matchingRule, firstCalls, h.alive, h.why, h.listed, h.loaded]

end Command

open Interact StateGraph in
/-- **What `ark diag` can find.**  When the daemon has seen the events and answers,
the command gives the advice of the first rule that the root causes explain, and
then sends nothing out; a language model is asked only when they explain none.
A rule that they explain asks for errors of the hardware or the network alone, and
for no threshold.  The processes that the daemon lists have no influence.  Every root
cause goes back to events of the run, through errors that the process is blocked on. -/
theorem runDiagnosis_after {F : Type} [FloatCompare F] (unicode : Lowercase)
    (host : Environment F) (pid : Nat) (llmProvider : Option String) (dir : String)
    (events listed : List Event) (engine : RuleEngine F)
    (hnumber : ∀ s : String, ':' ∈ s.toList → (FloatArith.parse s : Option F) = none)
    (hanswers : Answers host pid dir ((after events : StateGraph F).findRootCause pid)
      (listing (after listed : StateGraph F)) engine) :
    let causes := (after events : StateGraph F).findRootCause pid
    let program : Program F (Except String (Diagnosis F)) :=
      runDiagnosis unicode pid llmProvider (some dir)
    let model : Program F (Except String (Diagnosis F)) :=
      askModel unicode pid llmProvider causes (listing (after listed : StateGraph F))
    (∀ before rule rest, engine.rules = before ++ rule :: rest →
      (∀ r ∈ before, ¬ Explains causes r) → Explains causes rule →
        program.calls host [] = firstCalls pid dir ∧
        program.result host [] = .ok (ruleDiagnosis pid causes rule)) ∧
    ((∀ rule ∈ engine.rules, ¬ Explains causes rule) →
      program.calls host [] = firstCalls pid dir ++ model.calls host (firstCalls pid dir) ∧
      program.result host [] = model.result host (firstCalls pid dir)) ∧
    (∀ rule, Explains causes rule → ∀ eventType entityIdPattern valuePattern valueThreshold,
      Condition.event eventType entityIdPattern valuePattern valueThreshold ∈ rule.conditions →
        (eventType = "error.hw" ∨ eventType = "error.net") ∧ valueThreshold = (none : Option F)) ∧
    ∀ cause ∈ causes, ∃ u,
      Relation.ReflTransGen (BlameEvidence events) (SceneIdentifier.pidStr pid) u ∧
        CauseEvidence F events u cause := by
  intro causes program model
  have hevidence : ∀ cause ∈ causes, ∃ u,
      Relation.ReflTransGen (BlameEvidence events) (SceneIdentifier.pidStr pid) u ∧
        CauseEvidence F events u cause :=
    fun cause hcause => evidence_after hcause
  have hparse : ∀ cause ∈ causes, (FloatArith.parse cause : Option F) = none := by
    intro cause hcause
    obtain ⟨u, _, hu⟩ := hevidence cause hcause
    exact hnumber cause (colon_mem_of_evidence hu)
  obtain ⟨hcalls, hresult⟩ := run_of_answers hanswers unicode llmProvider
  have hexplains := fun now =>
    matchesSimply_iff_explains (processEvents_listing (F := F) now listed) hparse
  refine ⟨?_, ?_, ?_, hevidence⟩
  · intro before rule rest hrules hbefore hrule
    have hfound : ∀ now, engine.matchFirstSimple
        (extractVirtualEventsFromCauses now causes (listing (after listed : StateGraph F))) =
          some rule := by
      intro now
      refine List.find?_eq_some_iff_append.mpr
        ⟨(hexplains now rule).mpr hrule, before, rest, hrules, ?_⟩
      intro r hr
      simpa using mt (hexplains now r).mp (hbefore r hr)
    rw [hfound] at hcalls hresult
    exact ⟨hcalls.trans (by simp), hresult⟩
  · intro hnone
    have hfound : ∀ now, engine.matchFirstSimple
        (extractVirtualEventsFromCauses now causes (listing (after listed : StateGraph F))) =
          none := by
      intro now
      refine List.find?_eq_none.mpr fun rule hmem => ?_
      exact mt (hexplains now rule).mp (hnone rule hmem)
    rw [hfound] at hcalls hresult
    exact ⟨hcalls, hresult⟩
  · intro rule hrule eventType entityIdPattern valuePattern valueThreshold hmem
    obtain ⟨hnone, cause, _, hnames⟩ := hrule.2 _ _ _ _ hmem
    exact ⟨eventType_of_names hnames, hnone⟩

/-- A rule for the event that the probes report. -/
def dropRule : Rule Binary64 :=
  RuleEngine.sampleRule [.event "transport.drop" none none none]

/-- A rule for what the command makes of the root cause. -/
def stallRule : Rule Binary64 :=
  RuleEngine.sampleRule [.event "error.net" (some "network-*") (some "network") none,
    .graph "waits_on" none none]

def dropRun : List Event :=
  [RuleEngine.sampleEvent 5 .transportDrop "network-pid-7" "3"]

def dropHost : Environment Binary64
  | _, .ping => true
  | _, .whyProcess pid => .ok ((StateGraph.after dropRun : StateGraph Binary64).findRootCause pid)
  | _, .listProcesses => .ok (listing (StateGraph.after dropRun : StateGraph Binary64))
  | _, .loadRules _ => .ok (RuleEngine.sampleEngine [dropRule, stallRule])
  | _, .now => 1000
  | _, .envVar _ => none
  | _, .complete _ _ _ => .error "API 请求失败"

theorem parse_of_colon {s : String} (h : ':' ∈ s.toList) :
    (FloatArith.parse s : Option Binary64) = none := by
  cases hparse : (FloatArith.parse s : Option Binary64) with
  | none =>
    rfl
  | some x =>
    exact absurd (Binary64.isNumberChar_of_parse hparse ':' h) (by decide)

theorem not_explains_dropRule (causes : List String) : ¬ Explains causes dropRule := by
  intro hexplains
  obtain ⟨_, cause, _, hnames⟩ := hexplains.2 _ _ _ _ List.mem_cons_self
  exact absurd (eventType_of_names hnames) (by decide)

theorem explains_stallRule : Explains ["等待资源: network"] stallRule := by
  refine ⟨⟨_, List.mem_cons_self, rfl⟩, ?_⟩
  intro eventType entityIdPattern valuePattern valueThreshold hmem
  obtain ⟨rfl, rfl, rfl, rfl⟩ : eventType = "error.net" ∧ entityIdPattern = some "network-*" ∧
      valuePattern = some "network" ∧ valueThreshold = none := by
    simpa [stallRule, RuleEngine.sampleRule] using hmem
  refine ⟨rfl, _, List.mem_singleton_self _, (.errorNet, "network-*"), ?_, rfl, ?_, ?_⟩
  · decide +kernel
  · simp only [Option.mem_def, Option.some.injEq, forall_eq']
    decide +kernel
  · simp only [Option.mem_def, Option.some.injEq, forall_eq']
    decide +kernel

/-- The rule for drops is passed over, and nothing is sent out. -/
theorem runDiagnosis_after_drop :
    ((runDiagnosis .ascii 7 none (some "rules")).calls dropHost []).length = 5 ∧
      ((runDiagnosis .ascii 7 none (some "rules")).result dropHost []).toOption.map
        Diagnosis.causes = some ["等待资源: network"] := by
  obtain ⟨hrule, _⟩ := runDiagnosis_after .ascii dropHost 7 none "rules" dropRun dropRun
    (RuleEngine.sampleEngine [dropRule, stallRule]) (fun _ => parse_of_colon) ⟨rfl, rfl, rfl, rfl⟩
  have hcauses : (StateGraph.after dropRun : StateGraph Binary64).findRootCause 7 =
      ["等待资源: network"] := by
    decide +kernel
  rw [hcauses] at hrule
  obtain ⟨hcalls, hresult⟩ := hrule [dropRule] stallRule [] rfl
    (by simpa using not_explains_dropRule _) explains_stallRule
  rw [hcalls, hresult]
  exact ⟨rfl, rfl⟩

end Diag

end ArkInfra
