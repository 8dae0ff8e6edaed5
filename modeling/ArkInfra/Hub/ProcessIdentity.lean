import ArkInfra.Core.Restart
import ArkInfra.Hub.ClusterWhy
import ArkInfra.Hub.Connections
import ArkInfra.Lib.IpAddr

/-!
# From a process to its connection and back

The hub stores a process under the node id of its connection, a separator and
the pid (`pidId`).  `cluster_why` takes the id apart again and lists node and
pid, and `send_fix_command` looks the node up in the connection table.  The
answer leads back to the connection only if taking apart inverts putting
together and the table still has the connection under that node id
(`LeadsTo`).

Taking apart inverts putting together unless the node id brings the separator
along: an id that contains `::`, or ends with a colon, is cut in the wrong
place, and the process is left out of the list or listed as another one.
Besides the ids that agents choose, this concerns the ids the hub makes up from
the address of an agent: the text of an IPv6 address has a double colon whenever
two neighbouring segments are zero.
-/

namespace ArkInfra

/-- The entries of an answer that are about the process node. -/
def entriesFor (processes : List Json.Value) (id : String) : List Json.Value :=
  processes.filter fun p =>
    decide ((p.get "node_id_full").bind Json.Value.asStr = some id)

def processJson (nodeId : String) (pid : Nat) : Json.Value :=
  .object [("node_id", .string nodeId), ("pid", .number pid),
    ("node_id_full", .string (pidId (some nodeId) pid))]

/-- The connection a fix command for the entry goes to. -/
def Connections.addressee (conns : Connections) (entry : Json.Value) : Option ConnId :=
  ((entry.get "node_id").bind Json.Value.asStr).bind conns.table.lookup

theorem nodeIdFull_of_processEntry {id : String} {entry : Json.Value}
    (h : processEntry id = some entry) :
    (entry.get "node_id_full").bind Json.Value.asStr = some id := by
  obtain ⟨target, _, rfl⟩ := Option.map_eq_some_iff.mp h
  rfl

/-- A list of distinct processes gives one entry for each that can be read. -/
theorem entriesFor_filterMap {ids : List String} (hnodup : ids.Nodup) {id : String}
    (hid : id ∈ ids) :
    entriesFor (ids.filterMap processEntry) id = (processEntry id).toList := by
  have hselect : ∀ x, (processEntry x).filter
      (fun p => decide ((p.get "node_id_full").bind Json.Value.asStr = some id)) =
        if (x == id) = true then processEntry x else none := by
    intro x
    cases hentry : processEntry x with
    | none =>
      simp
    | some entry =>
      simp [Option.filter_some, nodeIdFull_of_processEntry hentry]
  have hself : ids.filter (fun x => x == id) = [id] := by
    rw [List.filter_beq, List.count_eq_one_of_mem hnodup hid]
    rfl
  rw [entriesFor, List.filter_filterMap, List.filterMap_congr fun x _ => hselect x,
    ← List.filterMap_filter, hself]
  cases hentry : processEntry id <;> simp [hentry]

/-- **The decoder inverts the encoder** exactly on the node ids that are not
split. -/
theorem processEntry_pidId_iff {nodeId : String} {pid : Nat} (hpid : pid < 2 ^ 32) :
    processEntry (pidId (some nodeId) pid) = some (processJson nodeId pid) ↔
      UnsplitNodeId nodeId := by
  constructor
  · intro h
    obtain ⟨⟨n, p⟩, htarget, hentry⟩ := Option.map_eq_some_iff.mp h
    obtain ⟨rfl, rfl⟩ : n = nodeId ∧ p = pid := by
      simpa [processJson] using hentry
    exact (processTarget_eq_some_iff.mp htarget).unsplit
  · intro hunsplit
    rw [processEntry, processTarget_eq_some_iff.mpr (names_pidId hunsplit hpid)]
    rfl

/-- **The ids made up from addresses** that are not split. -/
theorem unsplit_provisionalNodeId_iff (ip : IpAddr) :
    UnsplitNodeId (Connections.provisionalNodeId ip.display) ↔ ¬ ip.Shortened := by
  have hfront : ':' ∉ "node-".toList := by
    decide
  rw [UnsplitNodeId, Connections.provisionalNodeId, String.toList_append,
    IpAddr.doubleColon_display_iff hfront]

namespace StateGraph

variable {F : Type}

theorem jobPids_nodup (g : StateGraph F) (jobId : String) : (g.jobPids jobId).Nodup :=
  List.Nodup.sublist (List.filter_sublist.map Sigma.fst) g.nodes.nodupKeys

variable [FloatArith F]

theorem lookup_applyEvent_of_starts (g : StateGraph F) {event : Event} {id : String}
    (hstart : event.Starts id) :
    (g.applyEvent event).nodes.lookup id =
      some (processNode id event.ts (startMetadata event)) := by
  have hhandle : (g.handle event).nodes.lookup id =
      some (processNode id event.ts (startMetadata event)) := by
    rw [lookup_handle_of_starts g hstart, if_pos rfl]
  have hclean : ((g.handle event).periodicCleanup event.ts).nodes.lookup id =
      some (processNode id event.ts (startMetadata event)) := by
    obtain ⟨herror, hdead⟩ := not_expired_started event id (event.ts - g.errorWindowMs)
      (event.ts - processTtlMs)
    unfold periodicCleanup
    split_ifs
    · change ((g.handle event).cleanupOldErrors event.ts).nodes.lookup id = _
      rw [lookup_cleanupOldErrors, hhandle]
      simp [isExpired, herror, hdead, Option.filter_some]
    · exact hhandle
  rw [applyEvent, lookup_updateSignals,
    signalWrites_eq_nil _ (by simp [hstart.1]) (by simp [hstart.1])]
  exact hclean

theorem entriesFor_clusterWhy_of_starts (g : StateGraph F) {event : Event} {id jobId : String}
    (hstart : event.Starts id) (hjob : event.jobId = some jobId) :
    entriesFor ((g.applyEvent event).clusterWhy jobId).2 id = (processEntry id).toList := by
  rw [clusterWhy_processes]
  apply entriesFor_filterMap (jobPids_nodup _ jobId)
  rw [mem_jobPids]
  refine ⟨_, lookup_applyEvent_of_starts g hstart, rfl, ?_⟩
  simp only [processNode, startMetadata, hjob]
  rw [HashMap.lookup_insert_ite, if_neg (by decide), HashMap.lookup_insert_ite, if_pos rfl]

end StateGraph

theorem Connections.nodeId_receiveEvent (conns : Connections) (c : ConnId) (nodeId : String)
    (event : Event) :
    (conns.receiveEvent c nodeId event).2 =
      { event with nodeId := some (event.nodeId.getD nodeId) } := by
  unfold receiveEvent
  cases hnode : event.nodeId with
  | none =>
    rfl
  | some eventNodeId =>
    have hsame : event = { event with nodeId := some eventNodeId } := by
      rw [← hnode]
    dsimp only
    split_ifs <;> exact hsame

/-- The id that an event of connection `c` is given leads to the connection: the event
brings it along as a new one, or the table has it so already. -/
def Connections.LeadsTo (conns : Connections) (c : ConnId) (nodeId n : String) : Prop :=
  n ≠ nodeId ∨ conns.table.lookup n = some c

instance (conns : Connections) (c : ConnId) (nodeId n : String) :
    Decidable (conns.LeadsTo c nodeId n) :=
  inferInstanceAs (Decidable (n ≠ nodeId ∨ conns.table.lookup n = some c))

/-- **Where the id of an event leads** once the event has arrived. -/
theorem Connections.lookup_receiveEvent_iff (conns : Connections) (c : ConnId) (nodeId : String)
    (event : Event) :
    (conns.receiveEvent c nodeId event).1.table.lookup (event.nodeId.getD nodeId) = some c ↔
      conns.LeadsTo c nodeId (event.nodeId.getD nodeId) := by
  unfold receiveEvent LeadsTo
  cases hnode : event.nodeId with
  | none =>
    simp
  | some eventNodeId =>
    by_cases hsame : eventNodeId = nodeId
    · simp [hsame]
    · simp [hsame]

open StateGraph in
/-- **Processes keep their identity** on every node id that is not split and leads to
the connection: after the start of a process arrives on a connection, the answer for
its job lists it once, with the node id the event was given and its pid, and a fix
command for the entry goes to that connection.  An id made up from the address of the
peer is split exactly when the address is shortened. -/
theorem processIdentity_iff {F : Type} [FloatArith F] (events : List Event)
    (conns : Connections) (c : ConnId) (nodeId : String) (event : Event) (pid : Nat)
    (jobId : String) (hstart : event.eventType = .processState ∧ event.value = "start")
    (hpid : event.pid = some pid) (hlt : pid < 2 ^ 32) (hjob : event.jobId = some jobId) :
    let received := conns.receiveEvent c nodeId event
    let n := event.nodeId.getD nodeId
    let g : StateGraph F := after (events ++ [received.2])
    let entries := entriesFor (g.clusterWhy jobId).2 (pidId (some n) pid)
    ((entries = [processJson n pid] ∧
        ∀ entry ∈ entries, received.1.addressee entry = some c) ↔
      UnsplitNodeId n ∧ conns.LeadsTo c nodeId n) ∧
    ∀ ip : IpAddr, n = Connections.provisionalNodeId ip.display →
      (UnsplitNodeId n ↔ ¬ ip.Shortened) := by
  intro received n g entries
  have hreceived : received.2 = { event with nodeId := some n } :=
    conns.nodeId_receiveEvent c nodeId event
  have hstarts : received.2.Starts (pidId (some n) pid) := by
    rw [hreceived]
    exact ⟨hstart.1, hstart.2, pid, hpid, pidNodeId_eq _ pid⟩
  have hentries : entries = (processEntry (pidId (some n) pid)).toList := by
    have hjob' : received.2.jobId = some jobId := by
      rw [hreceived]
      exact hjob
    change entriesFor ((after (events ++ [received.2]) : StateGraph F).clusterWhy jobId).2 _ = _
    rw [after_concat]
    exact entriesFor_clusterWhy_of_starts _ hstarts hjob'
  have hsingle : entries = [processJson n pid] ↔ UnsplitNodeId n := by
    rw [hentries, ← processEntry_pidId_iff hlt]
    cases processEntry (pidId (some n) pid) <;> simp
  have haddressee : received.1.addressee (processJson n pid) = some c ↔
      conns.LeadsTo c nodeId n :=
    conns.lookup_receiveEvent_iff c nodeId event
  refine ⟨?_, ?_⟩
  · rw [← hsingle, ← haddressee]
    refine and_congr_right fun hone => ?_
    rw [hone, List.forall_mem_singleton]
  · intro ip hip
    rw [hip]
    exact unsplit_provisionalNodeId_iff ip

open StateGraph in
/-- An agent with an IPv4 address that sends no node id. -/
theorem processIdentity_iff_ipv4Peer :
    let ip : IpAddr := .v4 ⟨[10, 0, 0, 5], rfl, by decide⟩
    let conns := Run.run Connections.step Connections.new [.connect ip.display]
    let start : Event := ⟨1000, .processState, "proc", some "job-1", some 7, "start", none⟩
    let received := conns.receiveEvent 0 "node-10.0.0.5" start
    let g : StateGraph Binary64 := after [received.2]
    let entries := entriesFor (g.clusterWhy "job-1").2 (pidId (some "node-10.0.0.5") 7)
    conns.nodeIds.lookup 0 = some "node-10.0.0.5" ∧
    entries = [processJson "node-10.0.0.5" 7] ∧
    ∀ entry ∈ entries, received.1.addressee entry = some 0 := by
  intro ip conns start received g entries
  have hidentity := processIdentity_iff (F := Binary64) [] conns 0 "node-10.0.0.5" start 7 "job-1"
    ⟨rfl, rfl⟩ rfl (by decide) rfl
  exact ⟨by decide, hidentity.1.mpr ⟨by decide, by decide⟩⟩

open StateGraph in
/-- **The process of an IPv6 agent vanishes.**  The agent sends no node id, so its
processes go under its address; the answer for the job does not list the process
at all. -/
theorem processIdentity_ipv6Peer :
    let ip : IpAddr := .v6 ⟨[0xfe80, 0, 0, 0, 0, 0, 0, 1], rfl, by decide⟩
    let conns := Run.run Connections.step Connections.new [.connect ip.display]
    let start : Event := ⟨1000, .processState, "proc", some "job-1", some 7, "start", none⟩
    let received := conns.receiveEvent 0 "node-fe80::1" start
    let g : StateGraph Binary64 := after [received.2]
    conns.nodeIds.lookup 0 = some "node-fe80::1" ∧
    received.1.table.lookup "node-fe80::1" = some 0 ∧
    received.2.nodeId = some "node-fe80::1" ∧
    (∃ node ∈ g.nodes.lookup (pidId (some "node-fe80::1") 7), node.OfJob "job-1") ∧
    (g.clusterWhy "job-1").2.length = 0 := by
  decide

end ArkInfra
