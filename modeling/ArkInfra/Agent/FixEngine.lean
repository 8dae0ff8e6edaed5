import ArkInfra.Agent.Executor
import ArkInfra.Agent.Scene
import ArkInfra.Lib.StableSort

/-!
# The engine of `ark fix`

`agent/src/exec/fix_engine.rs`.  The recommended actions of an analysis are
texts; those that name an action are sorted by the priority of the action and
executed in that order, one after the other, whatever comes of the ones before.

The order is what keeps a process from being killed before it could write its
checkpoint: `fixFromAnalysis_order` says for every list of recommendations and
every behaviour of the operating system that the signals come first and the
kills last, so that nothing in between kills but a graceful shutdown.  The
report of a fix is complete: each action is in one of its two lists.
-/

namespace ArkInfra

def ActionType.priority : ActionType → Nat
  | .signal _ => 1
  | .gracefulShutdown _ _ _ => 2
  | .cgroupThrottle _ _ _ => 3
  | .checkCheckpoint _ => 4
  | .networkRestart _ => 5
  | .isolateNode _ => 6
  | .killProcess => 10
  | .custom _ _ => 7

structure ExecutedAction where
  action : String
  result : String
  priority : Nat
deriving DecidableEq, Repr

structure FailedAction where
  action : String
  error : String
  priority : Nat
deriving DecidableEq, Repr

structure FixResult where
  success : Bool
  message : String
  executedActions : List ExecutedAction
  failedActions : List FailedAction
deriving DecidableEq, Repr

namespace FixEngine

open ActionExecutor ActionType

/-- The actions that the recommendations name, as they stand. -/
def namedActions (unicode : Lowercase) (recommendations : List String) : List (ActionType × Nat) :=
  recommendations.filterMap fun text =>
    (fromRecommendation unicode text).map fun action => (action, action.priority)

theorem namedActions_eq (unicode : Lowercase) (recommendations : List String) :
    namedActions unicode recommendations =
      (recommendations.filterMap (fromRecommendation unicode)).map fun action =>
        (action, action.priority) := by
  rw [List.map_filterMap]
  rfl

def parseRecommendations (unicode : Lowercase) (recommendations : List String) :
    List (ActionType × Nat) :=
  (namedActions unicode recommendations).mergeSort fun a b => decide (a.2 ≤ b.2)

/-- Execute the actions in order and collect what was done and what failed. -/
def executeAll (pid : Nat) : List (ActionType × Nat) → List ExecutedAction → List FailedAction →
    OsProgram (List ExecutedAction × List FailedAction)
  | [], executed, failed => pure (executed, failed)
  | (action, priority) :: rest, executed, failed => do
      let outcome ← execute action pid
      match outcome with
      | .ok msg =>
        executeAll pid rest
          (executed ++ [{ action := action.description, result := msg, priority := priority }])
          failed
      | .error e =>
        executeAll pid rest executed
          (failed ++ [{ action := action.description, error := e, priority := priority }])

/-- The message for what was done and what failed. -/
def resultMessage (executed : List ExecutedAction) (failed : List FailedAction) : String :=
  if failed.isEmpty then
    "成功执行 " ++ toString executed.length ++ " 个动作"
  else
    "执行完成：" ++ toString executed.length ++ " 成功，" ++ toString failed.length ++ " 失败"

/-- What is reported for an analysis none of whose recommendations names an
action. -/
def nothingToDo : FixResult where
  success := false
  message := "没有可执行的动作"
  executedActions := []
  failedActions := []

def fixFromAnalysis {F : Type} (unicode : Lowercase) (analysis : AnalysisResult F) (pid : Nat) :
    OsProgram FixResult := do
  let actions := parseRecommendations unicode analysis.recommendedActions
  if actions.isEmpty then
    pure nothingToDo
  else
    let (executed, failed) ← executeAll pid actions [] []
    pure
      { success := failed.isEmpty
        message := resultMessage executed failed
        executedActions := executed
        failedActions := failed }

def outcomes (pid : Nat) (actions : List (ActionType × Nat)) : OsProgram (List Outcome) :=
  Interact.each (fun a => execute a.1 pid) actions

/-- The entry of an action that was executed. -/
def executedEntry (tried : (ActionType × Nat) × Outcome) : Option ExecutedAction :=
  match tried.2 with
  | .ok msg =>
    some { action := tried.1.1.description, result := msg, priority := tried.1.2 }
  | .error _ => none

def failedEntry (tried : (ActionType × Nat) × Outcome) : Option FailedAction :=
  match tried.2 with
  | .ok _ => none
  | .error e =>
    some { action := tried.1.1.description, error := e, priority := tried.1.2 }

section Report

variable (host : OsHost) (pid : Nat)

theorem calls_executeAll (actions : List (ActionType × Nat)) (executed : List ExecutedAction)
    (failed : List FailedAction) (before : List OsCall) :
    (executeAll pid actions executed failed).calls host before =
      (outcomes pid actions).calls host before := by
  induction actions generalizing executed failed before with
  | nil =>
    rfl
  | cons a actions ih =>
    simp only [executeAll, outcomes, Interact.calls_bind, Interact.calls_each_cons]
    cases (execute a.1 pid).result host before with
    | ok msg => simp only [ih, outcomes]
    | error e => simp only [ih, outcomes]

theorem result_executeAll (actions : List (ActionType × Nat)) (executed : List ExecutedAction)
    (failed : List FailedAction) (before : List OsCall) :
    (executeAll pid actions executed failed).result host before =
      (executed ++ (actions.zip ((outcomes pid actions).result host before)).filterMap executedEntry,
        failed ++
          (actions.zip ((outcomes pid actions).result host before)).filterMap failedEntry) := by
  induction actions generalizing executed failed before with
  | nil =>
    simp [executeAll]
  | cons a actions ih =>
    simp only [executeAll, outcomes, Interact.each, Interact.result_bind, Interact.result_pure,
      List.zip_cons_cons]
    cases (execute a.1 pid).result host before with
    | ok msg => simp [ih, executedEntry, failedEntry, outcomes, List.filterMap_cons]
    | error e => simp [ih, executedEntry, failedEntry, outcomes, List.filterMap_cons]

/-- The action and the priority of every entry of a report. -/
def reported (executed : List ExecutedAction) (failed : List FailedAction) :
    List (String × Nat) :=
  executed.map (fun e => (e.action, e.priority)) ++ failed.map fun e => (e.action, e.priority)

theorem reported_perm (tried : List ((ActionType × Nat) × Outcome)) :
    (reported (tried.filterMap executedEntry) (tried.filterMap failedEntry)).Perm
      ((tried.map Prod.fst).map fun a => (a.1.description, a.2)) := by
  induction tried with
  | nil =>
    exact List.Perm.nil
  | cons t tried ih =>
    obtain ⟨a, outcome⟩ := t
    cases outcome with
    | ok msg =>
      exact ih.cons _
    | error e =>
      exact List.perm_middle.trans (ih.cons _)

/-- What was tried for an analysis, with the outcomes. -/
def tried {F : Type} (unicode : Lowercase) (analysis : AnalysisResult F) (before : List OsCall) :
    List ((ActionType × Nat) × Outcome) :=
  let actions := parseRecommendations unicode analysis.recommendedActions
  actions.zip ((outcomes pid actions).result host before)

variable {F : Type} (unicode : Lowercase) (analysis : AnalysisResult F) (before : List OsCall)

theorem map_tried :
    (tried host pid unicode analysis before).map Prod.fst =
      parseRecommendations unicode analysis.recommendedActions := by
  refine List.map_fst_zip ?_
  simp [outcomes, Interact.length_result_each]

theorem calls_fixFromAnalysis :
    (fixFromAnalysis unicode analysis pid).calls host before =
      (outcomes pid (parseRecommendations unicode analysis.recommendedActions)).calls host
        before := by
  unfold fixFromAnalysis
  cases hactions : parseRecommendations unicode analysis.recommendedActions with
  | nil =>
    rfl
  | cons a actions =>
    simp only [List.isEmpty_cons, Bool.false_eq_true, if_false, Interact.calls_bind,
      Interact.calls_pure, List.append_nil]
    exact calls_executeAll host pid (a :: actions) [] [] before

theorem result_fixFromAnalysis :
    let r := (fixFromAnalysis unicode analysis pid).result host before
    r.executedActions = (tried host pid unicode analysis before).filterMap executedEntry ∧
    r.failedActions = (tried host pid unicode analysis before).filterMap failedEntry ∧
    (r.success = true ↔ r.failedActions = [] ∧ r.executedActions ≠ []) := by
  have hlength := (reported_perm (tried host pid unicode analysis before)).length_eq
  rw [map_tried, List.length_map] at hlength
  unfold fixFromAnalysis tried at *
  cases hactions : parseRecommendations unicode analysis.recommendedActions with
  | nil =>
    simp [nothingToDo]
  | cons a actions =>
    rw [hactions] at hlength
    simp only [List.isEmpty_cons, Bool.false_eq_true, if_false, Interact.result_bind,
      Interact.result_pure, result_executeAll, List.nil_append, List.isEmpty_iff]
    refine ⟨trivial, trivial, ?_⟩
    constructor
    · intro hfailed
      refine ⟨hfailed, ?_⟩
      intro hexecuted
      simp [reported, hfailed, hexecuted] at hlength
    · exact And.left

end Report

section Order

variable {unicode : Lowercase} {text : String} {action : ActionType}

/-- The actions that a recommendation can name. -/
inductive Recommended : ActionType → Prop
  | signal : Recommended (.signal 10)
  | killProcess : Recommended .killProcess
  | gracefulShutdown : Recommended (.gracefulShutdown 10 10 true)
  | cgroupThrottle : Recommended (.cgroupThrottle (some 50000) none none)
  | networkRestart (interface : String) : Recommended (.networkRestart interface)
  | isolateNode (reason : String) : Recommended (.isolateNode reason)
  | checkCheckpoint (checkpointDir : String) : Recommended (.checkCheckpoint checkpointDir)

theorem recommended_of_fromRecommendation (h : fromRecommendation unicode text = some action) :
    Recommended action := by
  unfold fromRecommendation ofKeywords at h
  split_ifs at h
  · cases h
    exact .signal
  · cases h
    exact .signal
  · cases h
    exact .killProcess
  · cases h
    exact .gracefulShutdown
  · cases h
    exact .cgroupThrottle
  · cases h
    exact .networkRestart _
  · cases h
    exact .networkRestart _
  · cases h
    exact .networkRestart _
  · cases h
    exact .isolateNode _
  · cases h
    exact .checkCheckpoint _

theorem mem_parseRecommendations {recommendations : List String} {a : ActionType × Nat} :
    a ∈ parseRecommendations unicode recommendations ↔
      (∃ text ∈ recommendations, fromRecommendation unicode text = some a.1) ∧
        a.2 = a.1.priority := by
  unfold parseRecommendations namedActions
  rw [List.mem_mergeSort, List.mem_filterMap]
  constructor
  · rintro ⟨text, htext, hnamed⟩
    obtain ⟨action, haction, rfl⟩ := Option.map_eq_some_iff.mp hnamed
    exact ⟨⟨text, htext, haction⟩, rfl⟩
  · rintro ⟨⟨text, htext, haction⟩, hpriority⟩
    exact ⟨text, htext, by simp [haction, ← hpriority]⟩

theorem recommended_of_mem {recommendations : List String} {a : ActionType × Nat}
    (h : a ∈ parseRecommendations unicode recommendations) : Recommended a.1 := by
  obtain ⟨⟨text, _, haction⟩, _⟩ := mem_parseRecommendations.mp h
  exact recommended_of_fromRecommendation haction

theorem parseRecommendations_sorted (unicode : Lowercase) (recommendations : List String) :
    (parseRecommendations unicode recommendations).Pairwise (fun a b => a.2 ≤ b.2) := by
  refine (List.pairwise_mergeSort ?_ ?_ _).imp of_decide_eq_true
  · intro a b c hab hbc
    exact decide_eq_true (Nat.le_trans (of_decide_eq_true hab) (of_decide_eq_true hbc))
  · intro a b
    simpa using Nat.le_total a.2 b.2

/-- How often the recommendations name an action that is told by its priority. -/
theorem length_filter_parseRecommendations {p : Nat → Bool}
    (hp : ∀ a, Recommended a → (p a.priority = true ↔ a = action))
    (unicode : Lowercase) (recommendations : List String) :
    ((parseRecommendations unicode recommendations).filter fun a => p a.2).length =
      recommendations.countP fun text =>
        decide (fromRecommendation unicode text = some action) := by
  rw [← List.countP_eq_length_filter, parseRecommendations,
    (List.mergeSort_perm _ _).countP_eq, namedActions, List.countP_filterMap]
  refine List.countP_congr fun text _ => ?_
  cases hnamed : fromRecommendation unicode text with
  | none =>
    simp
  | some named =>
    simpa using hp named (recommended_of_fromRecommendation hnamed)

theorem kill9_mem_calls_execute {host : OsHost} {pid : Nat} {before : List OsCall}
    (hnamed : Recommended action)
    (h : OsCall.kill9 pid ∈ (execute action pid).calls host before) :
    action = .killProcess ∨ action = .gracefulShutdown 10 10 true := by
  cases hnamed with
  | signal =>
    rw [execute, calls_sendSignal, List.mem_singleton] at h
    exact absurd h (by simp [OsCall.kill9, OsCall.killSignal]; decide)
  | killProcess =>
    exact Or.inl rfl
  | gracefulShutdown =>
    exact Or.inr rfl
  | cgroupThrottle =>
    simp [execute, calls_applyCgroupThrottle, OsCall.kill9] at h
  | networkRestart interface =>
    rcases calls_restartNetworkInterface host before interface with hcalls | hcalls
    · simp [execute, hcalls, OsCall.kill9] at h
    · simp [execute, hcalls, OsCall.kill9] at h
  | isolateNode reason =>
    simp [execute, ActionExecutor.isolateNode] at h
  | checkCheckpoint checkpointDir =>
    rcases calls_checkCheckpoint host before checkpointDir with hcalls | hcalls
    · simp [execute, hcalls, OsCall.kill9] at h
    · simp [execute, hcalls, OsCall.kill9] at h

theorem priority_le_one_iff (h : Recommended action) :
    decide (action.priority ≤ 1) = true ↔ action = .signal 10 := by
  cases h <;> simp [priority]

theorem nine_lt_priority_iff (h : Recommended action) :
    decide (9 < action.priority) = true ↔ action = .killProcess := by
  cases h <;> simp [priority]

theorem calls_outcomes_replicate {host : OsHost} {pid : Nat} {actions : List (ActionType × Nat)}
    {c : OsCall} (hone : ∀ before, (execute action pid).calls host before = [c])
    (hsame : ∀ a ∈ actions, a.1 = action) (before : List OsCall) :
    (outcomes pid actions).calls host before = List.replicate actions.length c := by
  refine Interact.calls_each_replicate host _ ?_ before
  intro a ha before'
  rw [hsame a ha]
  exact hone before'

theorem exists_of_kill9_mem {host : OsHost} {pid : Nat} {actions : List (ActionType × Nat)}
    {before : List OsCall} (hall : ∀ a ∈ actions, Recommended a.1)
    (h : OsCall.kill9 pid ∈ (outcomes pid actions).calls host before) :
    ∃ a ∈ actions, a.1 = .killProcess ∨ a.1 = .gracefulShutdown 10 10 true := by
  obtain ⟨a, ha, before', hcall⟩ := Interact.exists_of_mem_calls_each host _ h
  exact ⟨a, ha, kill9_mem_calls_execute (hall a ha) hcall⟩

/-- The calls for the recommended actions: those of the lowest priority, the
others, and those of the highest. -/
theorem calls_outcomes_parse (unicode : Lowercase) (host : OsHost) (recommendations : List String)
    (pid : Nat) (before : List OsCall) :
    let actions := parseRecommendations unicode recommendations
    ∃ middle : List OsCall,
      (outcomes pid actions).calls host before =
        List.replicate (actions.filter fun a => decide (a.2 ≤ 1)).length
            (OsCall.killSignal 10 pid) ++ middle ++
          List.replicate (actions.filter fun a => decide (9 < a.2)).length (OsCall.kill9 pid) ∧
      (OsCall.kill9 pid ∈ middle → ∃ a ∈ actions, a.1 = .gracefulShutdown 10 10 true) := by
  intro actions
  have hsorted := parseRecommendations_sorted unicode recommendations
  have hnamed : ∀ a ∈ actions, Recommended a.1 ∧ a.2 = a.1.priority := by
    intro a ha
    exact ⟨recommended_of_mem ha, (mem_parseRecommendations.mp ha).2⟩
  have hlow : ∀ a ∈ actions.filter fun a => decide (a.2 ≤ 1), a.1 = .signal 10 := by
    intro a ha
    obtain ⟨hmem, hle⟩ := List.mem_filter.mp ha
    rw [(hnamed a hmem).2] at hle
    exact (priority_le_one_iff (hnamed a hmem).1).mp hle
  have hhigh : ∀ a ∈ actions.filter fun a => decide (9 < a.2), a.1 = .killProcess := by
    intro a ha
    obtain ⟨hmem, hlt⟩ := List.mem_filter.mp ha
    rw [(hnamed a hmem).2] at hlt
    exact (nine_lt_priority_iff (hnamed a hmem).1).mp hlt
  -- the actions above the highest priority but one are the last of those above the lowest
  have hrest := StableSort.filter_append_filter_of_sorted
    (hsorted.filter fun a => decide (1 < a.2)) 9
  have hlast : (actions.filter fun a => decide (1 < a.2)).filter (fun a => decide (9 < a.2)) =
      actions.filter fun a => decide (9 < a.2) := by
    rw [List.filter_filter]
    refine List.filter_congr fun a _ => ?_
    rw [← Bool.decide_and]
    exact decide_eq_decide.mpr (by omega)
  rw [hlast] at hrest
  have hsplit := StableSort.filter_append_filter_of_sorted hsorted 1
  rw [← hrest, ← List.append_assoc] at hsplit
  have hmid : ∀ a ∈ (actions.filter fun a => decide (1 < a.2)).filter (fun a => decide (a.2 ≤ 9)),
      a ∈ actions ∧ a.1 ≠ .killProcess := by
    intro a ha
    obtain ⟨hrest, hle⟩ := List.mem_filter.mp ha
    have hmem := (List.mem_filter.mp hrest).1
    refine ⟨hmem, ?_⟩
    intro hkill
    rw [(hnamed a hmem).2, hkill] at hle
    exact absurd hle (by decide)
  generalize (actions.filter fun a => decide (1 < a.2)).filter (fun a => decide (a.2 ≤ 9)) =
    middle at hsplit hmid
  refine ⟨(outcomes pid middle).calls host
    (before ++ (outcomes pid (actions.filter fun a => decide (a.2 ≤ 1))).calls host before), ?_, ?_⟩
  · conv_lhs => rw [show actions = _ from hsplit.symm]
    unfold outcomes
    rw [Interact.calls_each_append, Interact.calls_each_append]
    congr 1
    · congr 1
      exact calls_outcomes_replicate (calls_sendSignal host · 10 pid) hlow before
    · exact calls_outcomes_replicate (calls_killProcess host · pid) hhigh _
  · intro hkill
    obtain ⟨a, ha, hwhich⟩ := exists_of_kill9_mem (fun a ha => (hnamed a (hmid a ha).1).1) hkill
    exact ⟨a, (hmid a ha).1, hwhich.resolve_left (hmid a ha).2⟩

end Order

/-- **Signals first, kills last.**  Whatever the recommendations and however the
operating system behaves, a fix sends a signal for every recommendation of one
before all else and kills once for every recommendation of a kill after all
else; in between nothing kills unless a graceful shutdown was recommended.
Every recommended action is reported once, as executed or as failed, with its
description and its priority, and the fix succeeds when there was one and none
failed. -/
theorem fixFromAnalysis_order {F : Type} (unicode : Lowercase) (host : OsHost)
    (analysis : AnalysisResult F) (pid : Nat) (before : List OsCall) :
    let named := fun action : ActionType => analysis.recommendedActions.countP fun text =>
      decide (fromRecommendation unicode text = some action)
    let r := (fixFromAnalysis unicode analysis pid).result host before
    (∃ middle,
      (fixFromAnalysis unicode analysis pid).calls host before =
        List.replicate (named (.signal 10)) (OsCall.killSignal 10 pid) ++ middle ++
          List.replicate (named .killProcess) (OsCall.kill9 pid) ∧
      (OsCall.kill9 pid ∈ middle → 0 < named (.gracefulShutdown 10 10 true))) ∧
    (reported r.executedActions r.failedActions).Perm
      ((analysis.recommendedActions.filterMap (fromRecommendation unicode)).map fun action =>
        (action.description, action.priority)) ∧
    (r.success = true ↔ r.failedActions = [] ∧ r.executedActions ≠ []) := by
  intro named r
  obtain ⟨hexecuted, hfailed, hsuccess⟩ := result_fixFromAnalysis host pid unicode analysis before
  refine ⟨?_, ?_, hsuccess⟩
  · obtain ⟨middle, hcalls, hkill⟩ :=
      calls_outcomes_parse unicode host analysis.recommendedActions pid before
    have hsignals := length_filter_parseRecommendations (p := fun n => decide (n ≤ 1))
      (fun _ => priority_le_one_iff) unicode analysis.recommendedActions
    have hkills := length_filter_parseRecommendations (p := fun n => decide (9 < n))
      (fun _ => nine_lt_priority_iff) unicode analysis.recommendedActions
    rw [← calls_fixFromAnalysis, hsignals, hkills] at hcalls
    refine ⟨middle, hcalls, ?_⟩
    intro hmem
    obtain ⟨a, ha, hgraceful⟩ := hkill hmem
    obtain ⟨⟨text, htext, hnamed⟩, _⟩ := mem_parseRecommendations.mp ha
    rw [hgraceful] at hnamed
    exact List.countP_pos_iff.mpr ⟨text, htext, decide_eq_true hnamed⟩
  · rw [hexecuted, hfailed]
    refine (reported_perm _).trans ?_
    rw [map_tried, parseRecommendations]
    refine ((List.mergeSort_perm _ _).map _).trans ?_
    rw [namedActions_eq, List.map_map]
    exact List.Perm.refl _

/-- An analysis that recommends a kill before a dump. -/
def killFirst : AnalysisResult Unit where
  scene := .gpuOom
  rootCauses := []
  confidence := ()
  recommendations := []
  recommendedActions := ["ark zap", "检查 checkpoint", "SIGUSR1"]
  severity := .warning

/-- The signal goes out before the kill, and nothing kills in between. -/
theorem fixFromAnalysis_killFirst :
    ∃ middle, OsCall.kill9 7 ∉ middle ∧
      (fixFromAnalysis Lowercase.ascii killFirst 7).calls OsHost.denying [] =
        [OsCall.killSignal 10 7] ++ middle ++ [OsCall.kill9 7] := by
  obtain ⟨⟨middle, hcalls, hkill⟩, -⟩ :=
    fixFromAnalysis_order Lowercase.ascii OsHost.denying killFirst 7 []
  exact ⟨middle, fun hmem => absurd (hkill hmem) (by decide), hcalls⟩

end FixEngine

end ArkInfra
