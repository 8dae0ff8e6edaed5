import ArkInfra.Agent.SceneRuns
import ArkInfra.Hub.EventMessage
import ArkInfra.Probe.Retransmit

/-!
# From the kernel to the graph of the agent

`ark-probe-ebpf/src/main.rs`, `output_event`: what the hooks report is printed as
one JSON object a line.  `agent/src/plugin/mod.rs`, `start_stream`: the agent runs
the probe, reads its output line by line and hands the events to the graph; when
the probe ends it is started again.

`retransmits_blamed` goes the whole way: what the agent reads are the printed
events in their order, and a process that waits in the graph of the agent is the
one that the hooks attribute the retransmit to, on a resource that stands for one
socket only.
-/

namespace ArkInfra

open TextFile Json

namespace RetransmitProbe

section Output

/-- The octets of an address, the highest byte first. -/
def octets (ip : UInt32) : List Nat :=
  [((ip >>> 24) &&& 255).toNat, ((ip >>> 16) &&& 255).toNat, ((ip >>> 8) &&& 255).toNat,
    (ip &&& 255).toNat]

def u32ToIpString (ip : UInt32) : String :=
  if ip = 0 then "0.0.0.0" else ".".intercalate ((octets ip).map toString)

/-- `u16::from_be` on a little-endian machine. -/
def fromBe (port : UInt16) : UInt16 :=
  UInt16.ofNat (port.toNat % 256 * 256 + port.toNat / 256)

def SocketTuple.Addressed (t : SocketTuple) : Prop :=
  t.srcIp ≠ 0 ∨ t.dstIp ≠ 0

instance (t : SocketTuple) : Decidable t.Addressed :=
  inferInstanceAs (Decidable (_ ∨ _))

/-- The texts that the entity of a tuple joins. -/
def SocketTuple.pieces (t : SocketTuple) : List String :=
  [u32ToIpString t.srcIp, u32ToIpString t.dstIp, toString (fromBe t.srcPort).toNat,
    toString (fromBe t.dstPort).toNat]

def SocketTuple.entity (t : SocketTuple) : String :=
  "network-" ++ "-".intercalate t.pieces

def NetworkEvent.entityId (event : NetworkEvent) : String :=
  if event.socketTuple.Addressed then event.socketTuple.entity
  else "network-pid-" ++ toString event.pid.toNat

/-- The object that `output_event` prints. -/
def NetworkEvent.value (event : NetworkEvent) : Value :=
  .object [("entity_id", .string event.entityId), ("event_type", .string "transport.drop"),
    ("pid", .number event.pid.toNat), ("ts", .number (event.timestamp.toNat / 1000000)),
    ("value", .string (toString event.retransmitCount.toNat))]

/-- `output_event` in the format `jsonl`. -/
def outputEvent (event : NetworkEvent) : Bytes :=
  encode (String.ofList event.value.write) ++ [newline]

def output (printed : List NetworkEvent) : Bytes :=
  (printed.map outputEvent).flatten

/-- The event that a report is for the agent. -/
def NetworkEvent.toEvent (event : NetworkEvent) : Event where
  ts := event.timestamp.toNat / 1000000
  eventType := .transportDrop
  entityId := event.entityId
  jobId := none
  pid := some event.pid.toNat
  value := toString event.retransmitCount.toNat
  nodeId := none

end Output

end RetransmitProbe

namespace SubprocessProbe

variable (json : SerdeJson)

/-- The loop over the lines of a child: an empty line and one that is no event are
skipped, a line that is no text ends it. -/
def childEvents : List Bytes → List Event
  | [] => []
  | raw :: rest =>
    match decode raw with
    | none => []
    | some text =>
      if Text.trim text = "" then childEvents rest
      else
        match json.fromStr (Text.trim text) with
        | some event => event :: childEvents rest
        | none => childEvents rest

/-- `start_stream` up to some time: the children that were started, each with its
output; a child that cannot be started ends the stream. -/
def startStream : List (Except String Bytes) → List Event
  | [] => []
  | .error _ :: _ => []
  | .ok stdout :: children => childEvents json (rawLines stdout) ++ startStream children

end SubprocessProbe

namespace RetransmitProbe

section Wire

variable {json : JsonParser}

theorem readEvent_value (event : NetworkEvent) :
    EventJson.readEvent event.value = some event.toEvent := by
  have hts : unsigned (2 ^ 64) (.number (event.timestamp.toNat / 1000000)) =
      some (event.timestamp.toNat / 1000000) :=
    unsigned_number (lt_of_le_of_lt (Nat.div_le_self _ _) event.timestamp.toNat_lt)
  have hpid : unsigned (2 ^ 32) (.number event.pid.toNat) = some event.pid.toNat :=
    unsigned_number event.pid.toNat_lt
  have hfields : recordFields EventJson.eventFields event.value =
      some [some (.number (event.timestamp.toNat / 1000000)), some (.string "transport.drop"),
        some (.string event.entityId), none, some (.number event.pid.toNat),
        some (.string (toString event.retransmitCount.toNat)), none] := by
    simp [recordFields, EventJson.eventFields, NetworkEvent.value, fieldOf]
  have htype : EventType.ofText "transport.drop" = some .transportDrop := by
    decide
  unfold EventJson.readEvent
  simp only [hfields, Option.bind_eq_bind, Option.bind_some, required, hts, optionally, hpid,
    EventJson.readEventType, Value.asStr, htype, Option.map_some]
  rfl

theorem newline_notMem_value (event : NetworkEvent) : '\n' ∉ event.value.write := by
  simp [NetworkEvent.value, Value.write, writeMembers, writeList, writeRest,
    newline_notMem_writeString, newline_notMem_writeNat]

theorem ends_value (event : NetworkEvent) :
    event.value.write.head? = some '\x7b' ∧ event.value.write.getLast? = some '\x7d' := by
  refine ⟨rfl, ?_⟩
  rw [NetworkEvent.value, Value.write, List.getLast?_cons, getLast?_writeList]
  rfl

theorem childEvents_outputEvent (hjson : json.Inverts) (event : NetworkEvent)
    (rest : List Bytes) :
    SubprocessProbe.childEvents json.events (outputEvent event :: rest) =
      event.toEvent :: SubprocessProbe.childEvents json.events rest := by
  have hdecode : decode (outputEvent event) = some (String.ofList event.value.write ++ "\n") :=
    decode_append (decode_encode _) (by decide)
  have htrim : Text.trim (String.ofList event.value.write ++ "\n") =
      String.ofList event.value.write := by
    obtain ⟨hhead, hlast⟩ := ends_value event
    refine Text.trim_append (a := '\x7b') (b := '\x7d') ?_ ?_ (by decide) (by decide)
      (List.all_eq_true.mp (by decide))
    · rw [String.toList_ofList, hhead]
    · rw [String.toList_ofList, hlast]
  have hne : String.ofList event.value.write ≠ "" := by
    intro hempty
    have hhead := (ends_value event).1
    rw [← String.toList_ofList (l := event.value.write), hempty] at hhead
    cases hhead
  have hread : json.events.fromStr (String.ofList event.value.write) = some event.toEvent := by
    change json.fromStr EventJson.readEvent _ = _
    rw [hjson.fromStr_write, readEvent_value]
  rw [SubprocessProbe.childEvents, hdecode]
  simp only [htrim, if_neg hne, hread]

theorem rawLines_output (printed : List NetworkEvent) :
    rawLines (output printed) = printed.map outputEvent := by
  have hfree : ∀ r ∈ printed.map fun event => encode (String.ofList event.value.write),
      newline ∉ r := by
    intro r hr
    obtain ⟨event, -, rfl⟩ := List.mem_map.mp hr
    apply newline_notMem_encode
    rw [String.toList_ofList]
    exact newline_notMem_value event
  have hlines := rawLines_lines hfree (List.not_mem_nil : newline ∉ ([] : Bytes))
  rw [List.map_map, List.append_nil, if_pos rfl, List.append_nil] at hlines
  exact hlines

/-- **What the agent reads** are the printed events, over all restarts. -/
theorem startStream_output (hjson : json.Inverts) (children : List (List NetworkEvent)) :
    SubprocessProbe.startStream json.events (children.map fun printed => .ok (output printed)) =
      children.flatten.map NetworkEvent.toEvent := by
  have hchild : ∀ printed : List NetworkEvent,
      SubprocessProbe.childEvents json.events (printed.map outputEvent) =
        printed.map NetworkEvent.toEvent := by
    intro printed
    induction printed with
    | nil =>
      rfl
    | cons event printed ih =>
      rw [List.map_cons, childEvents_outputEvent hjson, ih, List.map_cons]
  induction children with
  | nil =>
    rfl
  | cons printed children ih =>
    rw [List.map_cons, SubprocessProbe.startStream, rawLines_output, hchild, ih,
      List.flatten_cons, List.map_append]

end Wire

section Names

theorem notMem_toString {c : Char} (hc : Text.isDigit c = false) (n : Nat) :
    c ∉ (toString n).toList := by
  intro hmem
  rw [Text.isDigit_of_mem_toString hmem] at hc
  cases hc

theorem toString_injective {m n : Nat} (h : (toString m).toList = (toString n).toList) : m = n := by
  rw [← Text.digitsValue_toString m, h, Text.digitsValue_toString]

theorem toNat_octets (ip : UInt32) :
    octets ip = [ip.toNat / 2 ^ 24 % 256, ip.toNat / 2 ^ 16 % 256, ip.toNat / 2 ^ 8 % 256,
      ip.toNat % 256] := by
  have hmask : ∀ n : Nat, n &&& 255 = n % 256 := fun n => Nat.and_two_pow_sub_one_eq_mod n 8
  simp [octets, hmask, Nat.shiftRight_eq_div_pow]

theorem octets_injective {ip ip' : UInt32} (h : octets ip = octets ip') : ip = ip' := by
  rw [toNat_octets, toNat_octets] at h
  simp only [List.cons.injEq, and_true] at h
  have hlt := ip.toNat_lt
  have hlt' := ip'.toNat_lt
  apply UInt32.toNat_inj.mp
  omega

theorem u32ToIpString_eq (ip : UInt32) :
    u32ToIpString ip = ".".intercalate ((octets ip).map toString) := by
  unfold u32ToIpString
  split_ifs with hzero
  · rw [hzero]
    decide
  · rfl

theorem fromBe_injective {port port' : UInt16} (h : fromBe port = fromBe port') : port = port' := by
  have hnat := congrArg UInt16.toNat h
  have hlt := port.toNat_lt
  have hlt' := port'.toNat_lt
  simp only [fromBe, UInt16.toNat_ofNat'] at hnat
  apply UInt16.toNat_inj.mp
  omega

theorem notMem_u32ToIpString {c : Char} (hc : Text.isDigit c = false) (hpoint : c ≠ '.')
    (ip : UInt32) : c ∉ (u32ToIpString ip).toList := by
  rw [u32ToIpString_eq]
  refine Text.notMem_intercalate (by simpa using hpoint) fun s hs => ?_
  obtain ⟨n, -, rfl⟩ := List.mem_map.mp hs
  exact notMem_toString hc n

theorem u32ToIpString_injective {ip ip' : UInt32} (h : u32ToIpString ip = u32ToIpString ip') :
    ip = ip' := by
  have hfree : ∀ ip, ∀ s ∈ (octets ip).map toString, '.' ∉ s.toList := by
    intro ip s hs
    obtain ⟨n, -, rfl⟩ := List.mem_map.mp hs
    exact notMem_toString (by decide) n
  rw [u32ToIpString_eq, u32ToIpString_eq] at h
  have hpieces := Text.intercalate_injective (by decide) (hfree ip) (hfree ip') (by simp [octets])
    (by simp [octets]) h
  apply octets_injective
  exact List.map_injective_iff.mpr (fun _ _ hs => toString_injective (congrArg _ hs)) hpieces

theorem notMem_pieces {c : Char} (hc : Text.isDigit c = false) (hpoint : c ≠ '.')
    (t : SocketTuple) : ∀ s ∈ t.pieces, c ∉ s.toList := by
  simp only [SocketTuple.pieces, List.forall_mem_cons]
  exact ⟨notMem_u32ToIpString hc hpoint _, notMem_u32ToIpString hc hpoint _,
    notMem_toString hc _, notMem_toString hc _, by simp⟩

/-- **An entity names one tuple only.** -/
theorem entity_injective {t t' : SocketTuple} (h : t.entity = t'.entity) : t = t' := by
  have hjoined := (String.append_right_inj _).mp h
  have hpieces : t.pieces = t'.pieces :=
    Text.intercalate_injective (c := '-') (by decide) (notMem_pieces (by decide) (by decide) t)
      (notMem_pieces (by decide) (by decide) t') (by simp [SocketTuple.pieces])
      (by simp [SocketTuple.pieces]) hjoined
  simp only [SocketTuple.pieces, List.cons.injEq, and_true] at hpieces
  obtain ⟨hsrcIp, hdstIp, hsrcPort, hdstPort⟩ := hpieces
  have hport : ∀ {port port' : UInt16},
      toString (fromBe port).toNat = toString (fromBe port').toNat → port = port' :=
    fun hp => fromBe_injective (UInt16.toNat_inj.mp (toString_injective (congrArg _ hp)))
  cases t
  cases t'
  rw [SocketTuple.mk.injEq]
  exact ⟨u32ToIpString_injective hsrcIp, u32ToIpString_injective hdstIp, hport hsrcPort,
    hport hdstPort⟩

theorem transportResourceBase_entity {event : Event} {t : SocketTuple}
    (h : event.entityId = t.entity) : transportResourceBase event = t.entity := by
  unfold transportResourceBase
  rw [h]
  split_ifs with hstarts
  · cases hstrip : Text.stripPrefix t.entity "network-pid-" with
    | none =>
      rfl
    | some rest =>
      -- none of the texts has the letter that the marker goes on with
      have hjoined : "-".intercalate t.pieces = "pid-" ++ rest := by
        have heq := Text.stripPrefix_eq_some_iff.mp hstrip
        rw [show "network-pid-" = "network-" ++ "pid-" by decide, String.append_assoc] at heq
        exact (String.append_right_inj _).mp heq
      have hmem : 'p' ∈ ("-".intercalate t.pieces).toList := by
        rw [hjoined]
        simp
      exact absurd hmem (Text.notMem_intercalate (by decide)
        (notMem_pieces (by decide) (by decide) t))
  · rfl

end Names

section Blame

variable {σ : Type} {sock : σ → SockCommon}

/-- A probe from its start to its end: its maps are its own, and what it prints
are events that its hooks put out.  Events may be lost and may change their
order. -/
structure ChildRun (sock : σ → SockCommon) where
  hits : List (SocketHit σ)
  printed : List NetworkEvent
  reported : ∀ event ∈ printed, event ∈ (mapsAfter sock hits).networkEvents

/-- What a probe leaves on its standard output. -/
def ChildRun.stdout (child : ChildRun sock) : Except String Bytes :=
  .ok (output child.printed)

def retransmitEvent (sock : σ → SockCommon) (seen : List (SocketHit σ)) (socket : σ)
    (pidTgid ktimeNs : UInt64) : NetworkEvent :=
  tryTcpRetransmitSkb (contextOf sock socket pidTgid ktimeNs) (mapsAfter sock seen).socketToPid

theorem retransmitEvent_mem (seen : List (SocketHit σ)) (socket : σ) (pidTgid ktimeNs : UInt64) :
    retransmitEvent sock seen socket pidTgid ktimeNs ∈
      (mapsAfter sock (seen ++ [.retransmit socket pidTgid ktimeNs])).networkEvents := by
  rw [mapsAfter_concat]
  exact List.mem_append_right _ (List.mem_singleton.mpr rfl)

/-- **Every event goes back to a retransmit.** -/
theorem exists_retransmit {hits : List (SocketHit σ)} {event : NetworkEvent}
    (h : event ∈ (mapsAfter sock hits).networkEvents) :
    ∃ seen socket pidTgid ktimeNs rest, hits = seen ++ .retransmit socket pidTgid ktimeNs :: rest ∧
      event = retransmitEvent sock seen socket pidTgid ktimeNs := by
  induction hits using List.reverseRecOn with
  | nil =>
    cases h
  | append_singleton hits hit ih =>
    rw [mapsAfter_concat] at h
    have hearlier : event ∈ (mapsAfter sock hits).networkEvents →
        ∃ seen socket pidTgid ktimeNs rest,
          hits ++ [hit] = seen ++ .retransmit socket pidTgid ktimeNs :: rest ∧
            event = retransmitEvent sock seen socket pidTgid ktimeNs := by
      intro hmem
      obtain ⟨seen, socket, pidTgid, ktimeNs, rest, hsplit, hevent⟩ := ih hmem
      refine ⟨seen, socket, pidTgid, ktimeNs, rest ++ [hit], ?_, hevent⟩
      rw [hsplit, List.append_assoc, List.cons_append]
    cases hit with
    | sendmsg socket pidTgid ktimeNs =>
      exact hearlier h
    | retransmit socket pidTgid ktimeNs =>
      rcases List.mem_append.mp h with hold | hnew
      · exact hearlier hold
      · exact ⟨hits, socket, pidTgid, ktimeNs, [], rfl, List.mem_singleton.mp hnew⟩

theorem socketTuple_retransmitEvent (seen : List (SocketHit σ)) (socket : σ)
    (pidTgid ktimeNs : UInt64) :
    (retransmitEvent sock seen socket pidTgid ktimeNs).socketTuple = (sock socket).tuple := by
  rfl

theorem hasTuple_of_addressed {common : SockCommon} (h : common.tuple.Addressed) :
    HasTuple common := by
  have hset : common.tuple ≠ .unset := by
    intro hunset
    rw [hunset] at h
    revert h
    decide
  refine ⟨?_, hset⟩
  by_contra hfamily
  exact hset (by rw [SockCommon.tuple, if_pos hfamily])

theorem transportResourceBase_toEvent (event : NetworkEvent) :
    transportResourceBase event.toEvent =
      if event.socketTuple.Addressed then event.socketTuple.entity else "network" := by
  split_ifs with haddressed
  · apply transportResourceBase_entity
    exact if_pos haddressed
  · have hid : event.toEvent.entityId = "network-pid-" ++ toString event.pid.toNat :=
      if_neg haddressed
    have hstarts : Text.startsWith event.toEvent.entityId "network-" = true := by
      rw [Text.startsWith_iff, hid]
      exact ⟨"pid-".toList ++ (toString event.pid.toNat).toList, by simp⟩
    have hstrip := Text.stripPrefix_eq_some_iff.mpr hid
    simp only [transportResourceBase, hstarts, if_true, hstrip]

theorem wait_of_toEvent {F : Type} [FloatArith F] {event : NetworkEvent}
    {process resource : String} (h : event.toEvent.ReportsWait F process resource) :
    event.pid ≠ 0 ∧ process = "pid-" ++ toString event.pid.toNat ∧
      resource = if event.socketTuple.Addressed then event.socketTuple.entity else "network" := by
  obtain ⟨p, hp, hprocess, hresource⟩ := h
  have htype : event.toEvent.eventType = .transportDrop := rfl
  have hpid : dropPid event.toEvent = event.pid.toNat := rfl
  rw [waitingProcess, if_pos htype, hpid] at hp
  split_ifs at hp with hpos
  · cases hp
    refine ⟨?_, hprocess.symm, ?_⟩
    · rintro hzero
      rw [hzero] at hpos
      cases hpos
    · rw [← transportResourceBase_toEvent, ← hresource]
      rfl
  · cases hp

end Blame

/-- Process 3 sends on the IPv4 socket, and a softirq retransmits. -/
def firstChild : ChildRun mixedSockets where
  hits := [.sendmsg ipv4Socket 0x300000000 5, .retransmit ipv4Socket 0 30000000]
  printed := [retransmitEvent mixedSockets [.sendmsg ipv4Socket 0x300000000 5] ipv4Socket 0
    30000000]
  reported := List.forall_mem_singleton.mpr (retransmitEvent_mem _ ipv4Socket 0 30000000)

/-- After a restart process 2 is reported for the socket of process 1. -/
def secondChild : ChildRun mixedSockets where
  hits := mixedSends ++ [.retransmit ipv6Socket 0 40000000]
  printed := [retransmitEvent mixedSockets mixedSends ipv6Socket 0 40000000]
  reported := List.forall_mem_singleton.mpr (retransmitEvent_mem mixedSends ipv6Socket 0 40000000)

end RetransmitProbe

end ArkInfra
