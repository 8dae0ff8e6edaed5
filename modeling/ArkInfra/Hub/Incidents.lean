import ArkInfra.Core.RuleEngine
import ArkInfra.Hub.RecentEvents
import ArkInfra.Lib.StableSort
import Mathlib.Data.Char
import Mathlib.Data.List.Destutter
import Mathlib.Data.List.Lex

/-!
# The list of incidents

`hub/src/main.rs`, `aggregate_incidents` and its route: the recent events are
grouped by their job, the rules are matched against every group, and each match
is an incident.  The incidents are sorted by the priority of the rule and then
by the number of events, and cut off at a limit.

The groups are the entries of a hash map, which are visited in no particular
order, and the sort keeps that order among incidents of equal rank.
`incidents_after` says what does not depend on it: which incidents there are,
the ranks of those that are shown, and that nothing that is cut off ranks above
them.
-/

namespace ArkInfra

structure Incident where
  scene : String
  rule : String
  jobId : Option String
  nodes : List String
  priority : Nat
  severity : String
  eventCount : Nat
  rootCause : String
deriving DecidableEq, Repr

def severityFromPriority (priority : Nat) : String :=
  if 80 ≤ priority then "critical"
  else if 50 ≤ priority then "high"
  else if 20 ≤ priority then "medium"
  else "low"

namespace Incident

/-- The group of an event; the events without a job have one of their own. -/
def jobKey (event : Event) : String :=
  event.jobId.getD "__no_job__"

def textLe (a b : String) : Bool :=
  decide (a.toList ≤ b.toList)

/-- The nodes of a group, sorted and each once. -/
def nodesOf (jobEvents : List Event) : List String :=
  ((jobEvents.filterMap Event.nodeId).mergeSort textLe).destutter (· ≠ ·)

section Aggregate

variable {F : Type}

/-- The incident of a rule that matches a group. -/
def ofMatch (key : String) (jobEvents : List Event) (matched : Rule F) : Incident where
  scene := matched.scene
  rule := matched.name
  jobId := if key = "__no_job__" then none else some key
  nodes := nodesOf jobEvents
  priority := matched.priority
  severity := severityFromPriority matched.priority
  eventCount := jobEvents.length
  rootCause := matched.rootCausePattern.primary

/-- The comparison of the sort: the first incident may stand before the second. -/
def mayPrecede (a b : Incident) : Bool :=
  decide (b.priority < a.priority) ||
    (decide (b.priority = a.priority) && decide (b.eventCount ≤ a.eventCount))

variable [FloatCompare F]

def ofGroup (graph : StateGraph F) (rules : RuleEngine F) (key : String)
    (jobEvents : List Event) : List Incident :=
  (rules.matchRules graph jobEvents).map (ofMatch key jobEvents)

/-- The incidents of all groups, as they are visited. -/
def ofGroups (graph : StateGraph F) (rules : RuleEngine F) (events : List Event)
    (order : HashMap.KeyOrder (HashMap.groupBy jobKey events)) : List Incident :=
  order.keys.flatMap fun key =>
    ofGroup graph rules key (((HashMap.groupBy jobKey events).lookup key).getD [])

def aggregateIncidents (graph : StateGraph F) (rules : RuleEngine F) (events : List Event)
    (limit : Nat) (order : HashMap.KeyOrder (HashMap.groupBy jobKey events)) : List Incident :=
  ((ofGroups graph rules events order).mergeSort mayPrecede).take limit

end Aggregate

section Order

theorem mayPrecede_trans (a b c : Incident) (hab : mayPrecede a b = true)
    (hbc : mayPrecede b c = true) : mayPrecede a c = true := by
  simp only [mayPrecede, Bool.or_eq_true, Bool.and_eq_true, decide_eq_true_eq] at *
  omega

theorem mayPrecede_total (a b : Incident) : (mayPrecede a b || mayPrecede b a) = true := by
  simp only [mayPrecede, Bool.or_eq_true, Bool.and_eq_true, decide_eq_true_eq]
  omega

def rank (i : Incident) : Nat × Nat :=
  (i.priority, i.eventCount)

def RankLe (x y : Nat × Nat) : Prop :=
  y.1 < x.1 ∨ (y.1 = x.1 ∧ y.2 ≤ x.2)

instance (x y : Nat × Nat) : Decidable (RankLe x y) :=
  inferInstanceAs (Decidable (_ ∨ _))

theorem mayPrecede_iff (a b : Incident) : mayPrecede a b = true ↔ RankLe a.rank b.rank := by
  simp [mayPrecede, RankLe, rank]

def severities : List String :=
  ["critical", "high", "medium", "low"]

theorem severityFromPriority_mem (priority : Nat) :
    severityFromPriority priority ∈ severities := by
  unfold severityFromPriority
  split_ifs <;> decide

theorem idxOf_severityFromPriority_le {p q : Nat} (h : q ≤ p) :
    severities.idxOf (severityFromPriority p) ≤ severities.idxOf (severityFromPriority q) := by
  unfold severityFromPriority
  split_ifs <;> first | decide | omega

theorem priority_le_of_mayPrecede {a b : Incident} (h : mayPrecede a b = true) :
    b.priority ≤ a.priority := by
  simp only [mayPrecede, Bool.or_eq_true, Bool.and_eq_true, decide_eq_true_eq] at h
  omega

theorem rankLe_antisymm (x y : Nat × Nat) (hxy : RankLe x y) (hyx : RankLe y x) : x = y := by
  unfold RankLe at hxy hyx
  apply Prod.ext <;> omega

end Order

section Groups

variable {F : Type} [FloatCompare F] {graph : StateGraph F} {rules : RuleEngine F}
  {events : List Event}

def groupOf (events : List Event) (key : String) : List Event :=
  events.filter fun e => decide (jobKey e = key)

/-- **Which incidents there are**: one for every rule that matches the events of a
job. -/
theorem mem_ofGroups (order : HashMap.KeyOrder (HashMap.groupBy jobKey events)) {i : Incident} :
    i ∈ ofGroups graph rules events order ↔
      ∃ key, ∃ rule ∈ rules.rules, groupOf events key ≠ [] ∧
        RuleEngine.matchesFully graph (groupOf events key) rule = true ∧
        i = ofMatch key (groupOf events key) rule := by
  have hkey : ∀ key, key ∈ order.keys ↔ groupOf events key ≠ [] := by
    intro key
    rw [order.perm.mem_iff, ← AList.mem_keys, HashMap.mem_groupBy, groupOf, ne_eq,
      List.filter_eq_nil_iff]
    simp
  unfold ofGroups ofGroup
  simp only [HashMap.getD_lookup_groupBy, List.mem_flatMap, List.mem_map, RuleEngine.matchRules,
    List.mem_filter]
  constructor
  · rintro ⟨key, hmem, rule, ⟨hrule, hmatch⟩, rfl⟩
    exact ⟨key, rule, hrule, (hkey key).mp hmem, hmatch, rfl⟩
  · rintro ⟨key, rule, hrule, hmem, hmatch, rfl⟩
    exact ⟨key, (hkey key).mpr hmem, rule, ⟨hrule, hmatch⟩, rfl⟩

theorem ofGroups_perm (order order' : HashMap.KeyOrder (HashMap.groupBy jobKey events)) :
    (ofGroups graph rules events order).Perm (ofGroups graph rules events order') :=
  (order.perm.trans order'.perm.symm).flatMap_right _

end Groups

section Nodes

theorem mem_destutter_ne {a : String} {l : List String} : a ∈ l.destutter (· ≠ ·) ↔ a ∈ l := by
  have hcons : ∀ (l : List String) (b : String), a ∈ l.destutter' (· ≠ ·) b ↔ a ∈ b :: l := by
    intro l
    induction l with
    | nil =>
      intro b
      rw [List.destutter'_nil]
    | cons c l ih =>
      intro b
      by_cases hbc : b = c
      · subst hbc
        rw [List.destutter'_cons_neg _ (by simp), ih]
        simp
      · rw [List.destutter'_cons_pos _ hbc, List.mem_cons, ih, ← List.mem_cons]
  cases l with
  | nil =>
    rfl
  | cons b l =>
    rw [List.destutter_cons', hcons]

theorem mem_nodesOf {jobEvents : List Event} {nodeId : String} :
    nodeId ∈ nodesOf jobEvents ↔ ∃ e ∈ jobEvents, e.nodeId = some nodeId := by
  rw [nodesOf, mem_destutter_ne, List.mem_mergeSort, List.mem_filterMap]

/-- A sorted list in which no element is repeated at once has no repetitions. -/
theorem pairwise_lt_of_isChain {l : List String}
    (hsorted : l.Pairwise fun a b => a.toList ≤ b.toList) (hchain : l.IsChain (· ≠ ·)) :
    l.Pairwise fun a b => a.toList < b.toList := by
  induction l with
  | nil =>
    exact List.Pairwise.nil
  | cons a l ih =>
    obtain ⟨hfirst, htail⟩ := List.pairwise_cons.mp hsorted
    obtain ⟨hnext, hchain⟩ := List.isChain_cons.mp hchain
    refine List.pairwise_cons.mpr ⟨?_, ih htail hchain⟩
    intro b hb
    cases l with
    | nil =>
      cases hb
    | cons c l =>
      have hne : a.toList ≠ c.toList := fun h => hnext c rfl (String.toList_inj.mp h)
      have hac : a.toList < c.toList := lt_of_le_of_ne (hfirst c List.mem_cons_self) hne
      rcases List.mem_cons.mp hb with rfl | hmem
      · exact hac
      · exact hac.trans_le ((List.pairwise_cons.mp htail).1 b hmem)

theorem nodesOf_sorted (jobEvents : List Event) :
    (nodesOf jobEvents).Pairwise fun a b => a.toList < b.toList := by
  have htrans : ∀ a b c : String, textLe a b = true → textLe b c = true → textLe a c = true := by
    intro a b c hab hbc
    exact decide_eq_true ((of_decide_eq_true hab).trans (of_decide_eq_true hbc))
  have htotal : ∀ a b : String, (textLe a b || textLe b a) = true := by
    intro a b
    simpa [textLe] using le_total a.toList b.toList
  have hsorted := List.pairwise_mergeSort htrans htotal (jobEvents.filterMap Event.nodeId)
  refine pairwise_lt_of_isChain ?_ (List.isChain_destutter _ _)
  exact (hsorted.sublist (List.destutter_sublist _ _)).imp fun h => of_decide_eq_true h

end Nodes

section Cut

variable {F : Type} [FloatCompare F] {graph : StateGraph F} {rules : RuleEngine F}
  {events : List Event} {limit : Nat} (order : HashMap.KeyOrder (HashMap.groupBy jobKey events))

theorem mem_ofGroups_of_shown {i : Incident}
    (h : i ∈ aggregateIncidents graph rules events limit order) :
    i ∈ ofGroups graph rules events order :=
  List.mem_mergeSort.mp (List.mem_of_mem_take h)

theorem severity_of_shown {i : Incident}
    (h : i ∈ aggregateIncidents graph rules events limit order) :
    i.severity = severityFromPriority i.priority := by
  obtain ⟨key, rule, -, -, -, rfl⟩ := (mem_ofGroups order).mp (mem_ofGroups_of_shown order h)
  rfl

theorem aggregateIncidents_sorted :
    (aggregateIncidents graph rules events limit order).Pairwise
      (fun a b => mayPrecede a b = true) :=
  (List.pairwise_mergeSort mayPrecede_trans mayPrecede_total _).sublist (List.take_sublist _ _)

theorem severities_sorted :
    ((aggregateIncidents graph rules events limit order).map severity).Pairwise
      (fun s t => severities.idxOf s ≤ severities.idxOf t) := by
  refine List.pairwise_map.mpr ((aggregateIncidents_sorted order).imp_of_mem ?_)
  intro a b ha hb hab
  rw [severity_of_shown order ha, severity_of_shown order hb]
  exact idxOf_severityFromPriority_le (priority_le_of_mayPrecede hab)

/-- **The order of the visits** is not seen in the ranks. -/
theorem map_rank_aggregateIncidents
    (order' : HashMap.KeyOrder (HashMap.groupBy jobKey events)) :
    (aggregateIncidents graph rules events limit order).map rank =
      (aggregateIncidents graph rules events limit order').map rank := by
  rw [aggregateIncidents, aggregateIncidents, List.map_take, List.map_take]
  congr 1
  exact StableSort.map_mergeSort_eq_of_perm mayPrecede_iff rankLe_antisymm mayPrecede_trans
    mayPrecede_total (ofGroups_perm order order')

theorem mem_or_outranked {i : Incident}
    (h : i ∈ ofGroups graph rules events order) :
    let shown := aggregateIncidents graph rules events limit order
    i ∈ shown ∨ (shown.length = limit ∧ ∀ j ∈ shown, mayPrecede j i = true) := by
  intro shown
  obtain ⟨dropped, hperm, hrank⟩ := StableSort.exists_dropped_take_mergeSort mayPrecede_trans
    mayPrecede_total (ofGroups graph rules events order) limit
  rcases List.mem_append.mp (hperm.mem_iff.mpr h) with hshown | hdropped
  · exact Or.inl hshown
  · refine Or.inr ⟨?_, fun j hj => hrank j hj i hdropped⟩
    -- something was cut off, so the limit was reached
    have hlength := hperm.length_eq
    rw [List.length_append] at hlength
    have hsome := List.length_pos_of_mem hdropped
    have htake := List.length_take (i := limit)
      (l := (ofGroups graph rules events order).mergeSort mayPrecede)
    rw [List.length_mergeSort] at htake
    change (((ofGroups graph rules events order).mergeSort mayPrecede).take limit).length = limit
    omega

end Cut

end Incident

structure IncidentsReply where
  timestampMs : Nat
  windowS : Nat
  totalEvents : Nat
  incidents : List Incident

/-- The orders in which the groups of any events are visited. -/
abbrev VisitOrder : Type :=
  (events : List Event) → HashMap.KeyOrder (HashMap.groupBy Incident.jobKey events)

/-- `GET /api/v1/incidents`. -/
def incidents {F : Type} [FloatCompare F] (hub : HubState F) (rules : RuleEngine F)
    (params : QueryParams) (nowMs : Nat) (visit : VisitOrder) : IncidentsReply :=
  let windowS := params.clamped "window_s" 300 30 7200
  let limit := params.clamped "limit" 50 1 500
  let candidateEvents := recentEvents hub.eventBuffer nowMs windowS
  { timestampMs := nowMs
    windowS := windowS
    totalEvents := candidateEvents.length
    incidents := Incident.aggregateIncidents hub.graph rules candidateEvents limit
      (visit candidateEvents) }

/-- The incident is that of a rule which matches, on the graph of all stored events,
what one job has stored lately. -/
def IsIncident {F : Type} [FloatCompare F] (cfg : HubConfig) (events : List Event)
    (rules : RuleEngine F) (cutoff : Nat) (i : Incident) : Prop :=
  ∃ key, ∃ rule ∈ rules.rules,
    let jobEvents := Incident.groupOf (latelyStored cfg events cutoff) key
    jobEvents ≠ [] ∧
      RuleEngine.matchesFully (.after (HubState.stored cfg events)) jobEvents rule = true ∧
      i = Incident.ofMatch key jobEvents rule

theorem incidents_eq {F : Type} [FloatCompare F] (cfg : HubConfig) (events : List Event)
    (rules : RuleEngine F) (params : QueryParams) (nowMs : Nat) (visit : VisitOrder) :
    let recent := latelyStored cfg events (nowMs - params.clamped "window_s" 300 30 7200 * 1000)
    (incidents (.after cfg events) rules params nowMs visit).incidents =
      Incident.aggregateIncidents (.after (HubState.stored cfg events)) rules recent
        (params.clamped "limit" 50 1 500) (visit recent) := by
  intro recent
  have hrecent : recentEvents (HubState.after cfg events : HubState F).eventBuffer nowMs
      (params.clamped "window_s" 300 30 7200) = recent := recentEvents_after ..
  have hgraph : (HubState.after cfg events : HubState F).graph =
      .after (HubState.stored cfg events) := by
    rw [HubState.after_eq]
    rfl
  rw [← hgraph, ← hrecent]
  rfl

/-- **The list of incidents.**  After every stream of events, for every set of
rules and every order in which the groups are visited: what is shown are
incidents, in the order of their ranks and at most as many as the limit; the
critical ones stand first, then those of high, medium and low severity; an
incident that is not shown is outranked by a full list; the nodes of an incident
have stored an event lately and stand in order; and in another order of visits
the same ranks are shown. -/
theorem incidents_after {F : Type} [FloatCompare F] (cfg : HubConfig) (events : List Event)
    (rules : RuleEngine F) (params : QueryParams) (nowMs : Nat) (visit visit' : VisitOrder) :
    let reply := incidents (.after cfg events) rules params nowMs visit
    let cutoff := nowMs - reply.windowS * 1000
    let limit := params.clamped "limit" 50 1 500
    (∀ i ∈ reply.incidents, IsIncident cfg events rules cutoff i) ∧
    reply.incidents.Pairwise (fun a b => Incident.mayPrecede a b = true) ∧
    (reply.incidents.map Incident.severity).Pairwise (fun s t =>
      Incident.severities.idxOf s ≤ Incident.severities.idxOf t) ∧
    (∀ i ∈ reply.incidents, i.severity ∈ Incident.severities) ∧
    reply.incidents.length ≤ limit ∧
    (∀ i, IsIncident cfg events rules cutoff i → i ∈ reply.incidents ∨
      (reply.incidents.length = limit ∧
        ∀ j ∈ reply.incidents, Incident.mayPrecede j i = true)) ∧
    (∀ i ∈ reply.incidents, i.nodes.Pairwise (fun a b => a.toList < b.toList) ∧
      ∀ nodeId ∈ i.nodes, ∃ e ∈ latelyStored cfg events cutoff, e.nodeId = some nodeId) ∧
    (incidents (.after cfg events) rules params nowMs visit').incidents.map Incident.rank =
      reply.incidents.map Incident.rank := by
  intro reply cutoff limit
  let recent := latelyStored cfg events cutoff
  have hshown : ∀ visit, (incidents (.after cfg events) rules params nowMs visit).incidents =
      Incident.aggregateIncidents (.after (HubState.stored cfg events)) rules recent limit
        (visit recent) :=
    incidents_eq cfg events rules params nowMs
  have hmem : ∀ i ∈ reply.incidents, IsIncident cfg events rules cutoff i := by
    intro i hi
    rw [hshown visit] at hi
    exact (Incident.mem_ofGroups _).mp (Incident.mem_ofGroups_of_shown _ hi)
  refine ⟨hmem, ?_, ?_, ?_, ?_, ?_, ?_, ?_⟩
  · rw [hshown visit]
    exact Incident.aggregateIncidents_sorted _
  · rw [hshown visit]
    exact Incident.severities_sorted _
  · intro i hi
    rw [hshown visit] at hi
    rw [Incident.severity_of_shown _ hi]
    exact Incident.severityFromPriority_mem _
  · rw [hshown visit]
    exact List.length_take_le _ _
  · intro i hi
    rw [hshown visit]
    exact Incident.mem_or_outranked (visit recent) ((Incident.mem_ofGroups _).mpr hi)
  · intro i hi
    obtain ⟨key, rule, -, -, -, rfl⟩ := hmem i hi
    refine ⟨Incident.nodesOf_sorted _, ?_⟩
    intro nodeId hnode
    obtain ⟨e, he, hid⟩ := Incident.mem_nodesOf.mp hnode
    exact ⟨e, (List.mem_filter.mp he).1, hid⟩
  · rw [hshown visit', hshown visit]
    exact Incident.map_rank_aggregateIncidents _ _

def anyRule (priority : Nat) : Rule Binary64 where
  id := some "core/any"
  name := "any"
  scene := "any"
  priority := priority
  reasonCodes := []
  conditions := []
  rootCausePattern := ⟨"any", none⟩
  solutionSteps := []
  relatedEvidences := []
  applicability := ⟨FloatArith.ofNat 0, none⟩

/-- Two events of one job and one of another. -/
def twoJobs : List Event :=
  [{ linkDown "link_down" with jobId := some "job-1" },
    { linkDown "link_down" with ts := 1001, jobId := some "job-2" },
    { linkDown "link_down" with ts := 1002, jobId := some "job-1", nodeId := some "node-b" }]

/-- Four incidents for a list of three: in any order of the jobs the one of low severity
with fewer events is left out. -/
theorem incidents_after_twoJobs :
    let rules : RuleEngine Binary64 := ⟨[anyRule 10, anyRule 90], RuleLoadStats.default⟩
    let reply := incidents (.after smallHub twoJobs) rules (AList.singleton "limit" "3") 2000
      fun _ => ⟨_, List.reverse_perm _⟩
    reply.incidents.map Incident.rank = [(90, 2), (90, 1), (10, 2)] ∧
      (reply.incidents.map Incident.severity).Pairwise (fun s t =>
        Incident.severities.idxOf s ≤ Incident.severities.idxOf t) := by
  intro rules reply
  let params : QueryParams := AList.singleton "limit" "3"
  have hreply := incidents_after smallHub twoJobs rules params 2000
    (fun _ => ⟨_, List.Perm.refl _⟩) (fun _ => ⟨_, List.reverse_perm _⟩)
  have hother := incidents_after smallHub twoJobs rules params 2000
    (fun _ => ⟨_, List.reverse_perm _⟩) (fun _ => ⟨_, List.Perm.refl _⟩)
  refine ⟨hreply.2.2.2.2.2.2.2.trans ?_, hother.2.2.1⟩
  have hgroups : (Incident.ofGroups (.after (HubState.stored smallHub twoJobs)) rules
      (latelyStored smallHub twoJobs (2000 - params.clamped "window_s" 300 30 7200 * 1000))
        ⟨_, List.Perm.refl _⟩).map Incident.rank = [(10, 2), (90, 2), (10, 1), (90, 1)] := by
    decide +kernel
  have hlimit : params.clamped "limit" 50 1 500 = 3 := by
    decide +kernel
  rw [incidents_eq, Incident.aggregateIncidents, hlimit, List.map_take,
    List.map_mergeSort (s := fun x y => decide (Incident.RankLe x y))
      fun a _ b _ => Bool.eq_iff_iff.mpr
        ((Incident.mayPrecede_iff a b).trans decide_eq_true_iff.symm), hgroups]
  simp [List.mergeSort, List.MergeSort.Internal.splitInTwo, Incident.RankLe]

end ArkInfra
