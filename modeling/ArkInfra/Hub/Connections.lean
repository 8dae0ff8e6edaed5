import ArkInfra.Core.Event
import ArkInfra.Lib.HashMap
import ArkInfra.Lib.Run
import Mathlib.Tactic.SplitIfs

/-!
# The connection table of the hub

`handle_connection` in `hub/src/main.rs` keeps the sender of every connected
agent under the node id of the agent.  A connection registers under a
provisional id made from its address, moves its entry when an event carries
another node id, and removes whatever is stored under its id when it ends.

A connection is modelled by its number in the order of acceptance, which also
stands for its sender.  The steps of all connections are interleaved; the part
of `handle_connection` that follows the node id of an event (deduplication,
graph, write-ahead log) does not touch the table.

An agent is reachable for fix commands exactly while the table leads to its
sender.  `agentsReachable_iff` says which runs never cut off a live agent:
those in which no connection removes the entry of another open connection.
-/

namespace ArkInfra

/-- The number of a connection in the order of acceptance. -/
abbrev ConnId := Nat

/-- The connection table, and the `node_id` variable of every connection whose
task is running. -/
structure Connections where
  table : HashMap String ConnId
  nodeIds : HashMap ConnId String
  accepted : ConnId

namespace Connections

/-- One step of one connection: the handshake of a new one, the receipt of an
event, the end of the stream (a close message or no further message), and a
read error, which leaves the loop without the final removal. -/
inductive Step where
  | connect (ip : String)
  | receive (c : ConnId) (event : Event)
  | close (c : ConnId)
  | fail (c : ConnId)

def new : Connections where
  table := ∅
  nodeIds := ∅
  accepted := 0

def provisionalNodeId (ip : String) : String :=
  "node-" ++ ip

def connect (s : Connections) (ip : String) : Connections where
  table := s.table.insert (provisionalNodeId ip) s.accepted
  nodeIds := s.nodeIds.insert s.accepted (provisionalNodeId ip)
  accepted := s.accepted + 1

/-- A parsed event arrives on connection `c` with node id variable `nodeId`.
The event that goes on to the graph carries a node id in any case. -/
def receiveEvent (s : Connections) (c : ConnId) (nodeId : String) (event : Event) :
    Connections × Event :=
  match event.nodeId with
  | some eventNodeId =>
    if eventNodeId ≠ nodeId then
      ({ s with
          table := (s.table.erase nodeId).insert eventNodeId c
          nodeIds := s.nodeIds.insert c eventNodeId }, event)
    else
      (s, event)
  | none => (s, { event with nodeId := some nodeId })

def close (s : Connections) (c : ConnId) (nodeId : String) : Connections :=
  { s with
    table := s.table.erase nodeId
    nodeIds := s.nodeIds.erase c }

def fail (s : Connections) (c : ConnId) : Connections :=
  { s with nodeIds := s.nodeIds.erase c }

/-- A connection that is not running takes no step. -/
def step (s : Connections) : Step → Connections
  | .connect ip => s.connect ip
  | .receive c event =>
    match s.nodeIds.lookup c with
    | none => s
    | some nodeId => (s.receiveEvent c nodeId event).1
  | .close c =>
    match s.nodeIds.lookup c with
    | none => s
    | some nodeId => s.close c nodeId
  | .fail c => s.fail c

/-- The move of an entry that a received event causes: the old and the new id. -/
def renames (s : Connections) (c : ConnId) (event : Event) : Option (String × String) :=
  match s.nodeIds.lookup c, event.nodeId with
  | some nodeId, some eventNodeId =>
    if eventNodeId ≠ nodeId then some (nodeId, eventNodeId) else none
  | _, _ => none

def inserts (s : Connections) : Step → Option (String × ConnId)
  | .connect ip => some (provisionalNodeId ip, s.accepted)
  | .receive c event => (s.renames c event).map fun ids => (ids.2, c)
  | .close _ => none
  | .fail _ => none

/-- The id whose entry a step removes, with the connection that does it. -/
def removes (s : Connections) : Step → Option (String × ConnId)
  | .connect _ => none
  | .receive c event => (s.renames c event).map fun ids => (ids.1, c)
  | .close c => (s.nodeIds.lookup c).map fun nodeId => (nodeId, c)
  | .fail _ => none

def insertLog (s : Connections) : List Step → List (String × ConnId)
  | [] => []
  | x :: xs => (s.inserts x).toList ++ insertLog (s.step x) xs

/-- No other connection has inserted an entry under `n` after the last insert
of `c`. -/
def Undisturbed (log : List (String × ConnId)) (c : ConnId) (n : String) : Prop :=
  ∃ before key later, log = before ++ (key, c) :: later ∧
    ∀ entry ∈ later, entry.2 ≠ c ∧ entry.1 ≠ n

/-- Every open connection is registered under its node id, unless another
connection has registered there since. -/
def AgentsReachable (s : Connections) (log : List (String × ConnId)) : Prop :=
  ∀ c n, s.nodeIds.lookup c = some n → Undisturbed log c n → s.table.lookup n = some c

/-- The step removes no entry of another open connection. -/
def RemovesOwn (s : Connections) (x : Step) : Prop :=
  ∀ removal ∈ s.removes x, ∀ d ∈ s.table.lookup removal.1,
    d = removal.2 ∨ s.nodeIds.lookup d = none

theorem insertLog_concat (s : Connections) (xs : List Step) (x : Step) :
    s.insertLog (xs ++ [x]) =
      s.insertLog xs ++ ((Run.run step s xs).inserts x).toList := by
  induction xs generalizing s with
  | nil =>
    simp [insertLog]
  | cons y xs ih =>
    simp [insertLog, ih]

/-- What an insert does to the standing of a connection: its own restores it,
one of another connection under the same id ends it. -/
theorem undisturbed_concat {log : List (String × ConnId)} {k n : String} {c d : ConnId} :
    Undisturbed (log ++ [(k, c)]) d n ↔
      d = c ∨ (d ≠ c ∧ k ≠ n ∧ Undisturbed log d n) := by
  constructor
  · rintro ⟨before, key, later, hsplit, hlater⟩
    rcases List.eq_nil_or_concat later with rfl | ⟨later', entry, rfl⟩
    · have hlast := (List.append_inj' hsplit rfl).2
      left
      simp only [List.cons.injEq, Prod.mk.injEq, and_true] at hlast
      exact hlast.2.symm
    · have hsplit' : log ++ [(k, c)] = (before ++ (key, d) :: later') ++ [entry] := by
        simpa using hsplit
      obtain ⟨hlog, hlast⟩ := List.append_inj' hsplit' rfl
      obtain rfl : (k, c) = entry := by simpa using hlast
      have hentry := hlater (k, c) (by simp)
      right
      refine ⟨hentry.1.symm, hentry.2, before, key, later', hlog, ?_⟩
      intro entry hmem
      exact hlater entry (by simp [hmem])
  · rintro (rfl | ⟨hne, hk, before, key, later, rfl, hlater⟩)
    · exact ⟨log, k, [], rfl, by simp⟩
    · refine ⟨before, key, later ++ [(k, c)], by simp, ?_⟩
      intro entry hmem
      rcases List.mem_append.mp hmem with hmem | hmem
      · exact hlater entry hmem
      · obtain rfl : entry = (k, c) := by simpa using hmem
        exact ⟨hne.symm, hk⟩

/-- **What a step does.**  It registers a new connection, moves the entry of a
running one, ends one with the removal of its entry, or leaves the table
alone. -/
theorem step_cases (s : Connections) (x : Step) :
    (∃ ip, s.step x = s.connect ip ∧ s.removes x = none ∧
      s.inserts x = some (provisionalNodeId ip, s.accepted)) ∨
    (∃ c old new, s.nodeIds.lookup c = some old ∧ new ≠ old ∧
      s.step x =
        { s with
          table := (s.table.erase old).insert new c
          nodeIds := s.nodeIds.insert c new } ∧
      s.removes x = some (old, c) ∧ s.inserts x = some (new, c)) ∨
    (∃ c old, s.nodeIds.lookup c = some old ∧ s.step x = s.close c old ∧
      s.removes x = some (old, c) ∧ s.inserts x = none) ∨
    ((s.step x).table = s.table ∧ (s.step x).accepted = s.accepted ∧
      (∀ c n, (s.step x).nodeIds.lookup c = some n → s.nodeIds.lookup c = some n) ∧
      s.removes x = none ∧ s.inserts x = none) := by
  cases x with
  | connect ip =>
    exact Or.inl ⟨ip, rfl, rfl, rfl⟩
  | receive c event =>
    right
    simp only [step, removes, inserts, renames]
    cases hold : s.nodeIds.lookup c with
    | none =>
      simp
    | some old =>
      cases hnew : event.nodeId with
      | none =>
        simp [receiveEvent, hnew]
      | some new =>
        by_cases hne : new = old
        · simp [receiveEvent, hnew, hne]
        · left
          exact ⟨c, old, new, hold, hne, by simp [receiveEvent, hnew, hne],
            by simp [hne], by simp [hne]⟩
  | close c =>
    right
    right
    simp only [step, removes, inserts]
    cases hold : s.nodeIds.lookup c with
    | none =>
      simp
    | some old =>
      left
      exact ⟨c, old, hold, rfl, rfl, trivial⟩
  | fail c =>
    right
    right
    right
    refine ⟨rfl, rfl, ?_, rfl, rfl⟩
    intro d n hd
    change (s.nodeIds.erase c).lookup d = some n at hd
    rw [HashMap.lookup_erase_ite] at hd
    split_ifs at hd
    exact hd

/-- What holds in every reachable state, whatever the connections do: only
numbers that were given out occur, and a running connection in the table
stands under its own id with nobody after it. -/
structure Coherent (s : Connections) (log : List (String × ConnId)) : Prop where
  running_lt : ∀ c n, s.nodeIds.lookup c = some n → c < s.accepted
  entry_lt : ∀ k c, s.table.lookup k = some c → c < s.accepted
  entry_own : ∀ k c n, s.table.lookup k = some c → s.nodeIds.lookup c = some n →
    n = k ∧ Undisturbed log c k

theorem coherent_new : new.Coherent [] := by
  constructor
  · intro c n h
    simp [new] at h
  · intro k c h
    simp [new] at h
  · intro k c n h
    simp [new] at h

theorem Coherent.connect {s : Connections} {log : List (String × ConnId)}
    (h : s.Coherent log) (ip : String) :
    (s.connect ip).Coherent (log ++ [(provisionalNodeId ip, s.accepted)]) := by
  constructor
  · intro d n hd
    simp only [Connections.connect, HashMap.lookup_insert_ite] at hd ⊢
    split_ifs at hd with hdc
    · rw [hdc]
      exact Nat.lt_succ_self _
    · exact Nat.lt_succ_of_lt (h.running_lt d n hd)
  · intro k d hk
    simp only [Connections.connect, HashMap.lookup_insert_ite] at hk ⊢
    split_ifs at hk with hkp
    · rw [← Option.some.inj hk]
      exact Nat.lt_succ_self _
    · exact Nat.lt_succ_of_lt (h.entry_lt k d hk)
  · intro k d n hk hd
    simp only [Connections.connect, HashMap.lookup_insert_ite] at hk hd
    rw [undisturbed_concat]
    split_ifs at hk with hkp
    · obtain rfl := Option.some.inj hk
      rw [if_pos rfl] at hd
      exact ⟨by rw [hkp]; exact (Option.some.inj hd).symm, Or.inl rfl⟩
    · -- an entry that was there belongs to an older connection
      have hdc : d ≠ s.accepted := Nat.ne_of_lt (h.entry_lt k d hk)
      rw [if_neg hdc] at hd
      obtain ⟨hn, hund⟩ := h.entry_own k d n hk hd
      exact ⟨hn, Or.inr ⟨hdc, fun hp => hkp hp.symm, hund⟩⟩

theorem Coherent.rename {s : Connections} {log : List (String × ConnId)}
    (h : s.Coherent log) {c : ConnId} {old : String}
    (hold : s.nodeIds.lookup c = some old) (new : String) :
    Coherent
      { s with
        table := (s.table.erase old).insert new c
        nodeIds := s.nodeIds.insert c new }
      (log ++ [(new, c)]) := by
  constructor
  · intro d n hd
    simp only [HashMap.lookup_insert_ite] at hd
    split_ifs at hd with hdc
    · rw [hdc]
      exact h.running_lt c old hold
    · exact h.running_lt d n hd
  · intro k d hk
    simp only [HashMap.lookup_insert_ite, HashMap.lookup_erase_ite] at hk
    split_ifs at hk
    · rw [← Option.some.inj hk]
      exact h.running_lt c old hold
    · exact h.entry_lt k d hk
  · intro k d n hk hd
    simp only [HashMap.lookup_insert_ite, HashMap.lookup_erase_ite] at hk hd
    rw [undisturbed_concat]
    split_ifs at hk with hkn hko
    · obtain rfl := Option.some.inj hk
      rw [if_pos rfl] at hd
      exact ⟨by rw [hkn]; exact (Option.some.inj hd).symm, Or.inl rfl⟩
    · -- the moved connection had no entry but the one that was removed
      have hdc : d ≠ c := by
        rintro rfl
        exact hko (h.entry_own k d old hk hold).1.symm
      rw [if_neg hdc] at hd
      obtain ⟨hn, hund⟩ := h.entry_own k d n hk hd
      exact ⟨hn, Or.inr ⟨hdc, fun hnew => hkn hnew.symm, hund⟩⟩

theorem Coherent.close {s : Connections} {log : List (String × ConnId)}
    (h : s.Coherent log) (c : ConnId) (nodeId : String) :
    (s.close c nodeId).Coherent log := by
  have htable : ∀ k d, (s.close c nodeId).table.lookup k = some d →
      s.table.lookup k = some d := by
    intro k d hk
    simp only [Connections.close, HashMap.lookup_erase_ite] at hk
    split_ifs at hk
    exact hk
  have hrun : ∀ d n, (s.close c nodeId).nodeIds.lookup d = some n →
      s.nodeIds.lookup d = some n := by
    intro d n hd
    simp only [Connections.close, HashMap.lookup_erase_ite] at hd
    split_ifs at hd
    exact hd
  constructor
  · intro d n hd
    exact h.running_lt d n (hrun d n hd)
  · intro k d hk
    exact h.entry_lt k d (htable k d hk)
  · intro k d n hk hd
    exact h.entry_own k d n (htable k d hk) (hrun d n hd)

theorem Coherent.step {s : Connections} {log : List (String × ConnId)}
    (h : s.Coherent log) (x : Step) :
    (s.step x).Coherent (log ++ (s.inserts x).toList) := by
  rcases s.step_cases x with ⟨ip, hstep, _, hins⟩ | ⟨c, old, new, hold, _, hstep, _, hins⟩ |
    ⟨c, old, _, hstep, _, hins⟩ | ⟨htable, hacc, hrun, _, hins⟩
  · rw [hstep, hins]
    exact h.connect ip
  · rw [hstep, hins]
    exact h.rename hold new
  · rw [hstep, hins, Option.toList_none, List.append_nil]
    exact h.close c old
  · rw [hins, Option.toList_none, List.append_nil]
    constructor
    · intro c n hc
      rw [hacc]
      exact h.running_lt c n (hrun c n hc)
    · intro k c hk
      rw [hacc]
      rw [htable] at hk
      exact h.entry_lt k c hk
    · intro k c n hk hc
      rw [htable] at hk
      exact h.entry_own k c n hk (hrun c n hc)

theorem coherent_run (steps : List Step) :
    (Run.run step new steps).Coherent (new.insertLog steps) := by
  induction steps using List.reverseRecOn with
  | nil =>
    exact coherent_new
  | append_singleton steps x ih =>
    rw [Run.run_concat, insertLog_concat]
    exact ih.step x

theorem RemovesOwn.key_ne {s : Connections} {x : Step} (hown : s.RemovesOwn x)
    {c d : ConnId} {old n : String} (hrem : s.removes x = some (old, c))
    (hentry : s.table.lookup n = some d) (hd : s.nodeIds.lookup d = some n) (hdc : d ≠ c) :
    n ≠ old := by
  rintro rfl
  rcases hown _ hrem d hentry with heq | hnone
  · exact hdc heq
  · rw [hnone] at hd
    cases hd

/-- A step that removes no entry of another open connection keeps the agents
reachable. -/
theorem agentsReachable_step {s : Connections} {log : List (String × ConnId)} {x : Step}
    (h : s.AgentsReachable log) (hown : s.RemovesOwn x) :
    (s.step x).AgentsReachable (log ++ (s.inserts x).toList) := by
  rcases s.step_cases x with ⟨ip, hstep, _, hins⟩ |
    ⟨c, old, new, hold, _, hstep, hrem, hins⟩ | ⟨c, old, hold, hstep, hrem, hins⟩ |
    ⟨htable, _, hrun, _, hins⟩
  · rw [hstep, hins]
    intro d n hd hund
    simp only [connect, HashMap.lookup_insert_ite] at hd ⊢
    rcases undisturbed_concat.mp hund with rfl | ⟨hdc, hk, hund⟩
    · rw [if_pos rfl] at hd
      rw [if_pos (Option.some.inj hd).symm]
    · rw [if_neg hdc] at hd
      rw [if_neg (Ne.symm hk)]
      exact h d n hd hund
  · rw [hstep, hins]
    intro d n hd hund
    simp only [HashMap.lookup_insert_ite, HashMap.lookup_erase_ite] at hd ⊢
    rcases undisturbed_concat.mp hund with rfl | ⟨hdc, hk, hund⟩
    · rw [if_pos rfl] at hd
      rw [if_pos (Option.some.inj hd).symm]
    · rw [if_neg hdc] at hd
      have hentry := h d n hd hund
      rw [if_neg (Ne.symm hk), if_neg (hown.key_ne hrem hentry hd hdc)]
      exact hentry
  · rw [hstep, hins, Option.toList_none, List.append_nil]
    intro d n hd hund
    simp only [close, HashMap.lookup_erase_ite] at hd ⊢
    split_ifs at hd with hdc
    have hentry := h d n hd hund
    rw [if_neg (hown.key_ne hrem hentry hd hdc)]
    exact hentry
  · rw [hins, Option.toList_none, List.append_nil]
    intro d n hd hund
    rw [htable]
    exact h d n (hrun d n hd) hund

/-- In a coherent state a removal is harmless unless it hits another connection
that is open and undisturbed under the removed key. -/
theorem Coherent.removesOwn {s : Connections} {log : List (String × ConnId)} {x : Step}
    (hcoh : s.Coherent log) {c : ConnId} {old : String} (hrem : s.removes x = some (old, c))
    (h : ∀ d, d ≠ c → s.table.lookup old = some d → s.nodeIds.lookup d = some old →
      Undisturbed log d old → False) : s.RemovesOwn x := by
  intro removal hremoval d hd
  obtain rfl : (old, c) = removal := by simpa [hrem] using hremoval
  by_contra hother
  obtain ⟨hdc, hrun⟩ := not_or.mp hother
  obtain ⟨n, hn⟩ := Option.ne_none_iff_exists'.mp hrun
  obtain ⟨rfl, hund⟩ := hcoh.entry_own old d n hd hn
  exact h d hdc hd hn hund

/-- Conversely, the removal of the entry of another open connection cuts that
connection off. -/
theorem removesOwn_of_agentsReachable {s : Connections} {log : List (String × ConnId)}
    {x : Step} (hcoh : s.Coherent log)
    (h : (s.step x).AgentsReachable (log ++ (s.inserts x).toList)) : s.RemovesOwn x := by
  rcases s.step_cases x with ⟨ip, _, hrem, _⟩ |
    ⟨c, old, new, _, hne, hstep, hrem, hins⟩ | ⟨c, old, _, hstep, hrem, hins⟩ |
    ⟨_, _, _, hrem, _⟩
  · simp [RemovesOwn, hrem]
  · rw [hstep, hins] at h
    refine hcoh.removesOwn hrem ?_
    intro d hdc hd hn hund
    have hcut := h d old
      (by simpa [HashMap.lookup_insert_ite, hdc] using hn)
      (undisturbed_concat.mpr (Or.inr ⟨hdc, hne, hund⟩))
    simp [Ne.symm hne] at hcut
  · rw [hstep, hins, Option.toList_none, List.append_nil] at h
    refine hcoh.removesOwn hrem ?_
    intro d hdc hd hn hund
    have hcut := h d old
      (by simpa [close, HashMap.lookup_erase_ite, hdc] using hn) hund
    simp [close] at hcut
  · simp [RemovesOwn, hrem]

/-- **Which runs never cut off a live agent**: exactly those in which no step
removes the table entry of another open connection. -/
theorem agentsReachable_iff (steps : List Step) :
    Run.Meets step RemovesOwn new steps ↔
      ∀ seen rest, steps = seen ++ rest →
        (Run.run step new seen).AgentsReachable (new.insertLog seen) := by
  apply Run.meets_iff_forall_seen
  · intro c n hc
    simp [new] at hc
  · intro seen x rest _ hseen
    rw [Run.run_concat, insertLog_concat]
    constructor
    · intro hown
      exact agentsReachable_step hseen hown
    · intro hafter
      exact removesOwn_of_agentsReachable (coherent_run seen) hafter

/-- **A reconnect that overlaps the old teardown.**  The agent `node-a`
reconnects and registers anew before its old connection ends; the end of the
old connection removes the new entry, and no fix command reaches the agent. -/
theorem agentsReachable_overlappingReconnect :
    let hello : Event := ⟨1000, .computeUtil, "gpu-0", none, some 7, "95", some "node-a"⟩
    let steps : List Step :=
      [.connect "10.0.0.5", .receive 0 hello, .connect "10.0.0.5", .receive 1 hello, .close 0]
    let s := Run.run step new steps
    s.nodeIds.lookup 1 = some "node-a" ∧
    Undisturbed (new.insertLog steps) 1 "node-a" ∧
    s.table.lookup "node-a" = none ∧
    ¬ s.AgentsReachable (new.insertLog steps) := by
  intro hello steps s
  have hund : Undisturbed (new.insertLog steps) 1 "node-a" :=
    ⟨[("node-10.0.0.5", 0), ("node-a", 0), ("node-10.0.0.5", 1)], "node-a", [], by decide,
      by simp⟩
  have hnode : s.nodeIds.lookup 1 = some "node-a" := by decide
  have hnone : s.table.lookup "node-a" = none := by decide
  refine ⟨hnode, hund, hnone, ?_⟩
  intro hreach
  have hentry := hreach 1 "node-a" hnode hund
  rw [hnone] at hentry
  cases hentry

end Connections

end ArkInfra
