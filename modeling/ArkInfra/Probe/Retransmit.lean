import ArkInfra.Lib.BoundedMap
import ArkInfra.Lib.Run

/-!
# The retransmit probe

`ark-probe-ebpf-ebpf/src/main.rs` hooks two functions of the kernel.
`tcp_sendmsg` runs in the process that sends, and the probe stores its pid under
the address tuple of the socket.  `tcp_retransmit_skb` runs in a softirq, where
the current pid says nothing, so the probe looks up the tuple of the socket, then
a key that is made from the current pid, and only then reports the current pid.

The tuple is read from IPv4 sockets only; for every other socket, and whenever a
read fails, the empty tuple stands in its place.  `tcp_sendmsg` stores the pid
under it all the same.  So a retransmit on an IPv4 socket is reported for the
process that last sent on it (`retransmit_attributed`), but all IPv6 sockets
share one entry, and a softirq of pid 0 finds that entry when it looks for its
own pid (`retransmit_attributed_shared`).
-/

namespace ArkInfra

namespace RetransmitProbe

/-- `SocketTuple`. -/
structure SocketTuple where
  srcIp : UInt32
  dstIp : UInt32
  srcPort : UInt16
  dstPort : UInt16
deriving DecidableEq, Repr

/-- The tuple that stands for a socket whose addresses are not read. -/
def SocketTuple.unset : SocketTuple where
  srcIp := 0
  dstIp := 0
  srcPort := 0
  dstPort := 0

/-- The fields of `sock_common` that the probe reads. -/
structure SockCommon where
  skcFamily : UInt16
  skcNum : UInt16
  skcDport : UInt16
  skcDaddr : UInt32
  skcRcvSaddr : UInt32
deriving DecidableEq, Repr

/-- What a hook can ask for.  Without an argument `arg` is `none`, and an argument
that cannot be read is `some none`. -/
structure ProbeContext where
  arg : Option (Option SockCommon)
  pidTgid : UInt64
  ktimeNs : UInt64

def ProbeContext.pid (ctx : ProbeContext) : UInt32 :=
  (ctx.pidTgid >>> 32).toUInt32

/-- The tuple of a socket, from what was read of it. -/
def SockCommon.tuple (common : SockCommon) : SocketTuple :=
  if common.skcFamily ≠ 2 then .unset
  else
    { srcIp := common.skcRcvSaddr
      dstIp := common.skcDaddr
      srcPort := common.skcNum
      dstPort := common.skcDport }

/-- The two extractors of the source have the same body. -/
def extractSocketTuple (ctx : ProbeContext) : SocketTuple :=
  match ctx.arg with
  | none => .unset
  | some none => .unset
  | some (some common) => common.tuple

/-- `extract_socket_tuple_from_sendmsg`. -/
def extractSocketTupleFromSendmsg (ctx : ProbeContext) (_pid : UInt32) : SocketTuple :=
  extractSocketTuple ctx

/-- `extract_socket_tuple_from_retransmit`. -/
def extractSocketTupleFromRetransmit (ctx : ProbeContext) (_fallbackPid : UInt32) : SocketTuple :=
  extractSocketTuple ctx

/-- `NetworkEvent`. -/
structure NetworkEvent where
  pid : UInt32
  eventType : UInt8
  retransmitCount : UInt32
  timestamp : UInt64
  socketTuple : SocketTuple
deriving DecidableEq, Repr

/-- The type of `SOCKET_TO_PID`. -/
abbrev SocketMap := BoundedMap SocketTuple UInt32 8192

/-- The key under which a pid itself is looked up. -/
def pidKey (pid : UInt32) : SocketTuple where
  srcIp := pid
  dstIp := 0
  srcPort := 0
  dstPort := 0

/-- `try_tcp_sendmsg`: the map after it. -/
def tryTcpSendmsg (ctx : ProbeContext) (socketToPid : SocketMap) : SocketMap :=
  socketToPid.put (extractSocketTupleFromSendmsg ctx ctx.pid) ctx.pid

/-- `try_tcp_retransmit_skb`: the event that it puts out. -/
def tryTcpRetransmitSkb (ctx : ProbeContext) (socketToPid : SocketMap) : NetworkEvent :=
  let fallbackPid := ctx.pid
  let socketTuple := extractSocketTupleFromRetransmit ctx fallbackPid
  let realPid :=
    match socketToPid.get socketTuple with
    | some pid => pid
    | none => (socketToPid.get (pidKey fallbackPid)).getD fallbackPid
  { pid := realPid
    eventType := 1
    retransmitCount := 1
    timestamp := ctx.ktimeNs
    socketTuple := socketTuple }

/-- The maps of the probe: `SOCKET_TO_PID`, and what was put out to
`NETWORK_EVENTS`. -/
structure ProbeMaps where
  socketToPid : SocketMap
  networkEvents : List NetworkEvent

inductive ProbeHit where
  | sendmsg (ctx : ProbeContext)
  | retransmit (ctx : ProbeContext)

namespace ProbeMaps

def new : ProbeMaps where
  socketToPid := .empty
  networkEvents := []

def step (maps : ProbeMaps) : ProbeHit → ProbeMaps
  | .sendmsg ctx => { maps with socketToPid := tryTcpSendmsg ctx maps.socketToPid }
  | .retransmit ctx =>
    { maps with
      networkEvents := maps.networkEvents ++ [tryTcpRetransmitSkb ctx maps.socketToPid] }

end ProbeMaps

section Sockets

variable {σ : Type}

inductive SocketHit (σ : Type) where
  | sendmsg (socket : σ) (pidTgid ktimeNs : UInt64)
  | retransmit (socket : σ) (pidTgid ktimeNs : UInt64)

/-- The context of a call whose socket can be read. -/
def contextOf (sock : σ → SockCommon) (socket : σ) (pidTgid ktimeNs : UInt64) : ProbeContext where
  arg := some (some (sock socket))
  pidTgid := pidTgid
  ktimeNs := ktimeNs

def SocketHit.toProbeHit (sock : σ → SockCommon) : SocketHit σ → ProbeHit
  | .sendmsg socket pidTgid ktimeNs => .sendmsg (contextOf sock socket pidTgid ktimeNs)
  | .retransmit socket pidTgid ktimeNs => .retransmit (contextOf sock socket pidTgid ktimeNs)

/-- The maps after a sequence of hits on the sockets. -/
def mapsAfter (sock : σ → SockCommon) (hits : List (SocketHit σ)) : ProbeMaps :=
  Run.run ProbeMaps.step .new (hits.map (SocketHit.toProbeHit sock))

/-- The sockets that were sent on, with the pids of the senders. -/
def sends (hits : List (SocketHit σ)) : List (σ × UInt32) :=
  hits.filterMap fun
    | .sendmsg socket pidTgid _ => some (socket, (pidTgid >>> 32).toUInt32)
    | .retransmit _ _ _ => none

/-- The process that last sent on the socket. -/
def lastSender [DecidableEq σ] (hits : List (SocketHit σ)) (socket : σ) : Option UInt32 :=
  BoundedMap.lastWrite socket (sends hits)

def writes (sock : σ → SockCommon) (hits : List (SocketHit σ)) : List (SocketTuple × UInt32) :=
  (sends hits).map (Prod.map (fun socket => (sock socket).tuple) id)

/-- The number of entries that the map has been asked to hold. -/
def entriesSent (sock : σ → SockCommon) (hits : List (SocketHit σ)) : Nat :=
  (BoundedMap.keysOf (writes sock hits)).card

def Held (sock : σ → SockCommon) (hits : List (SocketHit σ)) (socket : σ) : Prop :=
  (mapsAfter sock hits).socketToPid.get (sock socket).tuple ≠ none

/-- The process that a retransmit on the socket is to be reported for: the last
sender, as long as all entries fit into the map, or else the current pid. -/
def attributedPid [DecidableEq σ] (sock : σ → SockCommon) (hits : List (SocketHit σ)) (socket : σ)
    (fallbackPid : UInt32) : UInt32 :=
  match lastSender hits socket with
  | some pid => if entriesSent sock hits ≤ 8192 then pid else fallbackPid
  | none => fallbackPid

def HasTuple (common : SockCommon) : Prop :=
  common.skcFamily = 2 ∧ common.tuple ≠ .unset

/-- No two IPv4 sockets have the same addresses and ports. -/
def DistinctTuples (sock : σ → SockCommon) : Prop :=
  ∀ s t, (sock s).skcFamily = 2 → (sock t).skcFamily = 2 → (sock s).tuple = (sock t).tuple → s = t

/-- Nothing was stored under the key of the pid. -/
def NoPidKey (sock : σ → SockCommon) (hits : List (SocketHit σ)) (pid : UInt32) : Prop :=
  ∀ write ∈ writes sock hits, write.1 ≠ pidKey pid

variable {sock : σ → SockCommon}

theorem mapsAfter_concat (hits : List (SocketHit σ)) (hit : SocketHit σ) :
    mapsAfter sock (hits ++ [hit]) = (mapsAfter sock hits).step (hit.toProbeHit sock) := by
  simp [mapsAfter, Run.run_concat]

/-- **The map holds what the sends wrote.** -/
theorem socketToPid_mapsAfter (hits : List (SocketHit σ)) :
    (mapsAfter sock hits).socketToPid =
      BoundedMap.empty.putAll (writes sock hits) := by
  induction hits using List.reverseRecOn with
  | nil =>
    rfl
  | append_singleton hits hit ih =>
    rw [mapsAfter_concat]
    cases hit with
    | sendmsg socket pidTgid ktimeNs =>
      have hsends : sends (hits ++ [.sendmsg socket pidTgid ktimeNs]) =
          sends hits ++ [(socket, (pidTgid >>> 32).toUInt32)] := by
        simp [sends]
      rw [writes, hsends, List.map_append, List.map_singleton, Prod.map_apply,
        BoundedMap.putAll_concat, ← writes, ← ih]
      rfl
    | retransmit socket pidTgid ktimeNs =>
      have hsends : sends (hits ++ [.retransmit socket pidTgid ktimeNs]) = sends hits := by
        simp [sends]
      rw [writes, hsends, ← writes, ← ih]
      rfl

theorem exists_networkEvents_append (sock : σ → SockCommon) (hits rest : List (SocketHit σ)) :
    ∃ later, (mapsAfter sock (hits ++ rest)).networkEvents =
      (mapsAfter sock hits).networkEvents ++ later := by
  induction rest using List.reverseRecOn with
  | nil =>
    exact ⟨[], by simp⟩
  | append_singleton rest hit ih =>
    obtain ⟨later, hlater⟩ := ih
    rw [← List.append_assoc, mapsAfter_concat]
    cases hit with
    | sendmsg socket pidTgid ktimeNs =>
      exact ⟨later, hlater⟩
    | retransmit socket pidTgid ktimeNs =>
      let event := tryTcpRetransmitSkb (contextOf sock socket pidTgid ktimeNs)
        (mapsAfter sock (hits ++ rest)).socketToPid
      refine ⟨later ++ [event], ?_⟩
      rw [← List.append_assoc, ← hlater]
      rfl

theorem eq_of_tuple_eq (hdistinct : DistinctTuples sock) {s t : σ} (hs : HasTuple (sock s))
    (h : (sock t).tuple = (sock s).tuple) : t = s := by
  by_cases hfamily : (sock t).skcFamily = 2
  · exact hdistinct t s hfamily hs.1 h
  · have hunset : (sock t).tuple = .unset := by
      rw [SockCommon.tuple, if_pos hfamily]
    rw [hunset] at h
    exact absurd h.symm hs.2

section Reports

variable {seen : List (SocketHit σ)} {socket : σ}

/-- The pid that a retransmit on the socket is reported for. -/
def reportedPid (sock : σ → SockCommon) (seen : List (SocketHit σ)) (socket : σ)
    (pidTgid ktimeNs : UInt64) : UInt32 :=
  (tryTcpRetransmitSkb (contextOf sock socket pidTgid ktimeNs)
    (mapsAfter sock seen).socketToPid).pid

theorem reportedPid_of_get {pid : UInt32} (pidTgid ktimeNs : UInt64)
    (h : (mapsAfter sock seen).socketToPid.get (sock socket).tuple = some pid) :
    reportedPid sock seen socket pidTgid ktimeNs = pid := by
  simp [reportedPid, tryTcpRetransmitSkb, extractSocketTupleFromRetransmit, extractSocketTuple,
    contextOf, h]

theorem get_pidKey {pid : UInt32} (h : NoPidKey sock seen pid) :
    (mapsAfter sock seen).socketToPid.get (pidKey pid) = none := by
  rw [socketToPid_mapsAfter]
  cases hget : (BoundedMap.empty.putAll (writes sock seen) : SocketMap).get (pidKey pid) with
  | none =>
    rfl
  | some found =>
    have hunwritten := BoundedMap.lastWrite_eq_none_iff.mpr h
    rw [BoundedMap.lastWrite_of_get hget] at hunwritten
    cases hunwritten

theorem reportedPid_of_not_held {pidTgid : UInt64} (ktimeNs : UInt64)
    (hheld : ¬ Held sock seen socket) (hkey : NoPidKey sock seen (pidTgid >>> 32).toUInt32) :
    reportedPid sock seen socket pidTgid ktimeNs = (pidTgid >>> 32).toUInt32 := by
  have hget : (mapsAfter sock seen).socketToPid.get (sock socket).tuple = none := by
    simpa [Held] using hheld
  simp [reportedPid, tryTcpRetransmitSkb, extractSocketTupleFromRetransmit, extractSocketTuple,
    contextOf, ProbeContext.pid, hget, get_pidKey hkey]

theorem exists_event (sock : σ → SockCommon) (seen rest : List (SocketHit σ)) (socket : σ)
    (pidTgid ktimeNs : UInt64) :
    ∃ event later,
      (mapsAfter sock (seen ++ .retransmit socket pidTgid ktimeNs :: rest)).networkEvents =
          (mapsAfter sock seen).networkEvents ++ event :: later ∧
        event.pid = reportedPid sock seen socket pidTgid ktimeNs := by
  obtain ⟨later, hlater⟩ := exists_networkEvents_append sock
    (seen ++ [.retransmit socket pidTgid ktimeNs]) rest
  refine ⟨tryTcpRetransmitSkb (contextOf sock socket pidTgid ktimeNs)
    (mapsAfter sock seen).socketToPid, later, ?_, rfl⟩
  rw [List.append_assoc, List.singleton_append, mapsAfter_concat] at hlater
  rw [hlater, ← List.singleton_append, ← List.append_assoc]
  rfl

theorem Held.append (h : Held sock seen socket) (rest : List (SocketHit σ)) :
    Held sock (seen ++ rest) socket := by
  have hwrites : writes sock (seen ++ rest) = writes sock seen ++ writes sock rest := by
    simp [writes, sends]
  unfold Held at h ⊢
  rw [socketToPid_mapsAfter] at h ⊢
  rw [hwrites, BoundedMap.putAll, List.foldl_append]
  exact BoundedMap.get_putAll_ne_none h _

end Reports

section Attribution

variable [DecidableEq σ] {seen : List (SocketHit σ)} {socket : σ}

theorem lastWrite_tuple (hdistinct : DistinctTuples sock) (hsocket : HasTuple (sock socket)) :
    BoundedMap.lastWrite (sock socket).tuple (writes sock seen) = lastSender seen socket :=
  BoundedMap.lastWrite_map (fun socket => (sock socket).tuple)
    fun _ _ htuple => eq_of_tuple_eq hdistinct hsocket htuple

theorem lastSender_of_get (hdistinct : DistinctTuples sock) (hsocket : HasTuple (sock socket))
    {pid : UInt32} (h : (mapsAfter sock seen).socketToPid.get (sock socket).tuple = some pid) :
    lastSender seen socket = some pid := by
  rw [socketToPid_mapsAfter] at h
  rw [← lastWrite_tuple hdistinct hsocket]
  exact BoundedMap.lastWrite_of_get h

theorem get_of_lastSender (hdistinct : DistinctTuples sock) (hsocket : HasTuple (sock socket))
    (hroom : entriesSent sock seen ≤ 8192) {pid : UInt32}
    (h : lastSender seen socket = some pid) :
    (mapsAfter sock seen).socketToPid.get (sock socket).tuple = some pid := by
  rw [← lastWrite_tuple hdistinct hsocket] at h
  rw [socketToPid_mapsAfter]
  exact BoundedMap.get_of_lastWrite hroom h

theorem lastSender_of_held (hdistinct : DistinctTuples sock) (hsocket : HasTuple (sock socket))
    (hheld : Held sock seen socket) (pidTgid ktimeNs : UInt64) :
    lastSender seen socket = some (reportedPid sock seen socket pidTgid ktimeNs) := by
  obtain ⟨pid, hget⟩ := Option.ne_none_iff_exists'.mp hheld
  rw [reportedPid_of_get pidTgid ktimeNs hget]
  exact lastSender_of_get hdistinct hsocket hget

theorem reportedPid_of_room (hdistinct : DistinctTuples sock) (hsocket : HasTuple (sock socket))
    (hroom : entriesSent sock seen ≤ 8192) {pidTgid : UInt64} (ktimeNs : UInt64)
    (hkey : lastSender seen socket = none → NoPidKey sock seen (pidTgid >>> 32).toUInt32) :
    reportedPid sock seen socket pidTgid ktimeNs =
      attributedPid sock seen socket (pidTgid >>> 32).toUInt32 := by
  unfold attributedPid
  cases hlast : lastSender seen socket with
  | some pid =>
    have hget := get_of_lastSender hdistinct hsocket hroom hlast
    rw [reportedPid_of_get pidTgid ktimeNs hget]
    exact (if_pos hroom).symm
  | none =>
    have hheld : ¬ Held sock seen socket := by
      intro hheld
      rw [lastSender_of_held hdistinct hsocket hheld pidTgid ktimeNs] at hlast
      cases hlast
    exact reportedPid_of_not_held ktimeNs hheld (hkey hlast)

end Attribution

end Sockets

/-- **Retransmits are reported for the process that last sent on the socket.**  In
every sequence of hits, a retransmit on an IPv4 socket is reported as it should
be while the entries fit into the map; if nobody has sent on the socket, nothing
may be stored under the key of the current pid.  Once the map is full, a socket
that has an entry is reported for its last sender and every other one for the
current pid. -/
theorem retransmit_attributed {σ : Type} [DecidableEq σ] (sock : σ → SockCommon)
    (hdistinct : DistinctTuples sock) (hits seen rest : List (SocketHit σ)) (socket : σ)
    (pidTgid ktimeNs : UInt64) (hsplit : hits = seen ++ .retransmit socket pidTgid ktimeNs :: rest)
    (hsocket : HasTuple (sock socket)) :
    ∃ event later,
      (mapsAfter sock hits).networkEvents =
          (mapsAfter sock seen).networkEvents ++ event :: later ∧
        (entriesSent sock seen ≤ 8192 →
          (lastSender seen socket = none → NoPidKey sock seen (pidTgid >>> 32).toUInt32) →
            event.pid = attributedPid sock seen socket (pidTgid >>> 32).toUInt32) ∧
        (Held sock seen socket → lastSender seen socket = some event.pid) ∧
        (¬ Held sock seen socket → NoPidKey sock seen (pidTgid >>> 32).toUInt32 →
          event.pid = (pidTgid >>> 32).toUInt32) := by
  subst hsplit
  obtain ⟨event, later, hevents, hpid⟩ := exists_event sock seen rest socket pidTgid ktimeNs
  refine ⟨event, later, hevents, ?_, ?_, ?_⟩
  · intro hroom hkey
    rw [hpid, reportedPid_of_room hdistinct hsocket hroom ktimeNs hkey]
  · intro hheld
    rw [hpid]
    exact lastSender_of_held hdistinct hsocket hheld pidTgid ktimeNs
  · intro hheld hkey
    rw [hpid, reportedPid_of_not_held ktimeNs hheld hkey]

/-- Two IPv6 sockets, an IPv4 socket, and one that is not bound to anything. -/
def mixedSockets : Fin 4 → SockCommon
  | 0 => { skcFamily := 10, skcNum := 50000, skcDport := 443, skcDaddr := 0, skcRcvSaddr := 0 }
  | 1 => { skcFamily := 10, skcNum := 50001, skcDport := 443, skcDaddr := 0, skcRcvSaddr := 0 }
  | 2 => { skcFamily := 2, skcNum := 50002, skcDport := 443, skcDaddr := 9, skcRcvSaddr := 8 }
  | 3 => { skcFamily := 2, skcNum := 0, skcDport := 0, skcDaddr := 0, skcRcvSaddr := 0 }

def ipv6Socket : Fin 4 := 0

def ipv4Socket : Fin 4 := 2

/-- Processes 1 and 2 send on the two IPv6 sockets. -/
def mixedSends : List (SocketHit (Fin 4)) :=
  [.sendmsg 0 0x100000000 10, .sendmsg 1 0x200000000 20]

theorem distinctTuples_mixedSockets : DistinctTuples mixedSockets := by
  unfold DistinctTuples
  decide

/-- Process 3 sends on the IPv4 socket, before process 2 sends on one of the
others. -/
theorem retransmit_attributed_mixed :
    ∃ event later,
      (mapsAfter mixedSockets
          ([.sendmsg 2 0x300000000 5] ++ mixedSends ++ [.retransmit 2 0 30])).networkEvents =
        (mapsAfter mixedSockets ([.sendmsg 2 0x300000000 5] ++ mixedSends)).networkEvents ++
          event :: later ∧
      event.pid = 3 := by
  obtain ⟨event, later, hevents, hroom, _⟩ := retransmit_attributed mixedSockets
    distinctTuples_mixedSockets _ ([.sendmsg 2 0x300000000 5] ++ mixedSends) [] 2 0 30 rfl
    ⟨by decide, by decide⟩
  have hsent : lastSender ([.sendmsg 2 0x300000000 5] ++ mixedSends) 2 = some 3 := by
    decide +kernel
  have hpid := hroom (by decide +kernel) ?_
  · exact ⟨event, later, hevents, hpid.trans (by decide +kernel)⟩
  · intro hnone
    rw [hsent] at hnone
    cases hnone

/-- One more IPv4 socket than the map has room for. -/
def manySockets (i : Fin 8193) : SockCommon where
  skcFamily := 2
  skcNum := 50000
  skcDport := 443
  skcDaddr := 9
  skcRcvSaddr := UInt32.ofNat i

def manySends : List (SocketHit (Fin 8193)) :=
  (List.finRange 8193).map fun i => .sendmsg i 0x700000000 0

theorem tuple_manySockets_injective :
    Function.Injective fun i => (manySockets i).tuple := by
  intro i j h
  have hsaddr : (UInt32.ofNat i).toNat = (UInt32.ofNat j).toNat :=
    congrArg (fun tuple => tuple.srcIp.toNat) h
  rw [UInt32.toNat_ofNat', UInt32.toNat_ofNat'] at hsaddr
  have hi := i.isLt
  have hj := j.isLt
  apply Fin.ext
  omega

theorem sends_manySends : sends manySends = (List.finRange 8193).map fun i => (i, 7) := by
  have hpid : ((0x700000000 : UInt64) >>> 32).toUInt32 = 7 := by
    decide
  rw [sends, manySends, List.filterMap_map, ← List.filterMap_eq_map, ← hpid]
  rfl

theorem entriesSent_manySends : entriesSent manySockets manySends = 8193 := by
  have hkeys : (writes manySockets manySends).map Prod.fst =
      (List.finRange 8193).map fun i => (manySockets i).tuple := by
    simp [writes, sends_manySends]
  have hnodup : ((List.finRange 8193).map fun i => (manySockets i).tuple).Nodup :=
    (List.nodup_finRange 8193).map tuple_manySockets_injective
  rw [entriesSent, BoundedMap.keysOf, hkeys, List.toFinset_card_of_nodup hnodup, List.length_map,
    List.length_finRange]

theorem lastSender_manySends (pidTgid ktimeNs : UInt64) :
    lastSender manySends 0 = some (reportedPid manySockets manySends 0 pidTgid ktimeNs) := by
  have hdistinct : DistinctTuples manySockets :=
    fun _ _ _ _ htuple => tuple_manySockets_injective htuple
  have hfirst : Held manySockets [.sendmsg 0 0x700000000 0] 0 := by
    unfold Held
    decide +kernel
  have hheld : Held manySockets manySends 0 := by
    rw [manySends, List.finRange_succ, List.map_cons, ← List.singleton_append]
    exact hfirst.append _
  exact lastSender_of_held hdistinct ⟨by decide, by decide⟩ hheld pidTgid ktimeNs

/-- **IPv6 sockets share an entry.**  A retransmit on the first IPv6 socket is
reported for the process that last sent on the other one; so is one on an IPv4
socket that nobody has sent on, when the softirq has pid 0, and one on an IPv4
socket without addresses.  A full map still reports the sender of a socket that
has an entry. -/
theorem retransmit_attributed_shared :
    (∀ i j, mixedSockets i = mixedSockets j → i = j) ∧
      (reportedPid mixedSockets mixedSends 0 0x500000000 30 = 2 ∧
        attributedPid mixedSockets mixedSends 0 5 = 1) ∧
      (reportedPid mixedSockets mixedSends 2 0 30 = 2 ∧
        attributedPid mixedSockets mixedSends 2 0 = 0) ∧
      (reportedPid mixedSockets (.sendmsg 3 0x400000000 5 :: mixedSends) 3 0x500000000 30 = 2 ∧
        attributedPid mixedSockets (.sendmsg 3 0x400000000 5 :: mixedSends) 3 5 = 4) ∧
      (∀ i j, manySockets i = manySockets j → i = j) ∧
      reportedPid manySockets manySends 0 0 30 = 7 ∧
        attributedPid manySockets manySends 0 0 = 0 := by
  have hlast := lastSender_manySends 0 30
  have hsender : (0, reportedPid manySockets manySends 0 0 30) ∈ sends manySends :=
    BoundedMap.mem_of_lastWrite hlast
  have hpid : reportedPid manySockets manySends 0 0 30 = 7 := by
    rw [sends_manySends] at hsender
    obtain ⟨i, _, hi⟩ := List.mem_map.mp hsender
    exact (Prod.mk.inj hi).2.symm
  have hfull : attributedPid manySockets manySends 0 0 = 0 := by
    rw [attributedPid, hlast]
    simp only [entriesSent_manySends]
    rfl
  refine ⟨by decide, ⟨by decide +kernel, by decide +kernel⟩,
    ⟨by decide +kernel, by decide +kernel⟩, ⟨by decide +kernel, by decide +kernel⟩, ?_, hpid,
    hfull⟩
  intro i j hsame
  exact tuple_manySockets_injective (congrArg SockCommon.tuple hsame)

end RetransmitProbe

end ArkInfra
