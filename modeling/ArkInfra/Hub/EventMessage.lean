import ArkInfra.Agent.Forwarder
import ArkInfra.Core.EventValue
import ArkInfra.Hub.Replay

/-!
# Events on the wire and in the log

The agent sends an event in an envelope, older agents sent the bare event, and
the hub tries the two forms one after the other on the same text.  The two
crates declare the envelope separately: the agent writes every field, the hub
reads each but the event with a default.  The log stores the bare event, one
per line.

The text of a value is that of the compact writer; the parser is the one of
`serde_json`, of which only `Inverts` is used: it reads what the writer wrote.
-/

namespace ArkInfra

open Json

/-- The parser of `serde_json`, with the text of its errors. -/
structure JsonParser where
  parse : String → Option Value
  explain : String → String

namespace JsonParser

/-- The parser reads back what the compact writer wrote. -/
def Inverts (json : JsonParser) : Prop :=
  ∀ v : Value, json.parse (String.ofList v.write) = some v

/-- `from_str` at the type that the reader makes. -/
def fromStr {α : Type} (json : JsonParser) (read : Value → Option α) (text : String) : Option α :=
  (json.parse text).bind read

/-- `to_vec` and `from_str` at the type of events. -/
def events (json : JsonParser) : SerdeJson where
  toText := fun event => String.ofList (EventJson.eventValue event).write
  fromStr := json.fromStr EventJson.readEvent

theorem Inverts.fromStr_write {json : JsonParser} (h : json.Inverts) {α : Type}
    (read : Value → Option α) (v : Value) :
    json.fromStr read (String.ofList v.write) = read v := by
  rw [fromStr, h v, Option.bind_some]

theorem events_oneLine (json : JsonParser) : json.events.OneLine where
  isObject := by
    intro event
    change ∃ body, (String.ofList (EventJson.eventValue event).write).toList = _
    rw [EventJson.write_eventValue]
    exact EventJson.write_isObject event
  newline_notMem := by
    intro event
    change '\n' ∉ (String.ofList (EventJson.eventValue event).write).toList
    rw [EventJson.write_eventValue]
    exact EventJson.newline_notMem_write event

end JsonParser

namespace Forwarder

def hubProtocolVersion : String := "1.0"

def eventSchemaVersion : String := "1.0"

/-- The envelope as the agent declares it. -/
structure HubEventEnvelope where
  kind : String
  protocolVersion : String
  schemaVersion : String
  agentId : String
  featureFlags : List String
  event : Event

/-- The derived serializer of the envelope. -/
def HubEventEnvelope.value (envelope : HubEventEnvelope) : Value :=
  .object
    [("kind", .string envelope.kind), ("protocol_version", .string envelope.protocolVersion),
      ("schema_version", .string envelope.schemaVersion), ("agent_id", .string envelope.agentId),
      ("feature_flags", .array (envelope.featureFlags.map .string)),
      ("event", EventJson.eventValue envelope.event)]

/-- The envelope of `forward_event`. -/
def payload (nodeId : String) (event : Event) : HubEventEnvelope where
  kind := "event"
  protocolVersion := hubProtocolVersion
  schemaVersion := eventSchemaVersion
  agentId := nodeId
  featureFlags := ["edge_rollup"]
  event := stamp nodeId event

/-- The text that `forward_event` sends. -/
def forwardedText (nodeId : String) (event : Event) : String :=
  String.ofList (payload nodeId event).value.write

end Forwarder

namespace HubMessage

/-- The envelope as the hub declares it. -/
structure HubEventEnvelope where
  kind : String
  protocolVersion : String
  schemaVersion : String
  agentId : Option String
  featureFlags : List String
  event : Event

def defaultKind : String := "event"

def defaultProtocolVersion : String := "1.0"

def defaultSchemaVersion : String := "1.0"

def envelopeFields : List String :=
  ["kind", "protocol_version", "schema_version", "agent_id", "feature_flags", "event"]

/-- The derived deserializer of the envelope. -/
def readEnvelope (v : Value) : Option HubEventEnvelope := do
  match ← recordFields envelopeFields v with
  | [kind, protocolVersion, schemaVersion, agentId, featureFlags, event] =>
    let kind ← orDefault defaultKind Value.asStr kind
    let protocolVersion ← orDefault defaultProtocolVersion Value.asStr protocolVersion
    let schemaVersion ← orDefault defaultSchemaVersion Value.asStr schemaVersion
    let agentId ← optionally Value.asStr agentId
    let featureFlags ← orDefault [] stringList featureFlags
    let event ← required EventJson.readEvent event
    some
      { kind := kind
        protocolVersion := protocolVersion
        schemaVersion := schemaVersion
        agentId := agentId
        featureFlags := featureFlags
        event := event }
  | _ => none

/-- What becomes of a text that is an envelope. -/
def openEnvelope (envelope : HubEventEnvelope) : Except String Event :=
  if envelope.protocolVersion = "" then .error "protocol_version 不能为空"
  else if envelope.kind ≠ "event" then
    .error ("当前仅支持 kind=event，收到: " ++ envelope.kind)
  else
    let event := envelope.event
    .ok (if event.nodeId.isNone then { event with nodeId := envelope.agentId } else event)

def parseHubEventMessage (json : JsonParser) (raw : String) : Except String Event :=
  match json.fromStr readEnvelope raw with
  | some envelope => openEnvelope envelope
  | none =>
    match json.fromStr EventJson.readEvent raw with
    | some event => .ok event
    | none => .error ("无法解析消息: " ++ json.explain raw)

theorem stringList_map (items : List String) :
    stringList (.array (items.map .string)) = some items := by
  simp only [stringList]
  induction items with
  | nil =>
    rfl
  | cons item items ih =>
    simp [List.mapM_cons, ih, Value.asStr]

theorem readEnvelope_value {envelope : Forwarder.HubEventEnvelope}
    (h : envelope.event.InRange) :
    readEnvelope envelope.value =
      some
        { kind := envelope.kind
          protocolVersion := envelope.protocolVersion
          schemaVersion := envelope.schemaVersion
          agentId := some envelope.agentId
          featureFlags := envelope.featureFlags
          event := envelope.event } := by
  have hfields : recordFields envelopeFields envelope.value =
      some [some (.string envelope.kind), some (.string envelope.protocolVersion),
        some (.string envelope.schemaVersion), some (.string envelope.agentId),
        some (.array (envelope.featureFlags.map .string)),
        some (EventJson.eventValue envelope.event)] := by
    simp [recordFields, envelopeFields, Forwarder.HubEventEnvelope.value, fieldOf]
  have hagent : optionally Value.asStr (some (.string envelope.agentId)) =
      some (some envelope.agentId) := rfl
  unfold readEnvelope
  simp only [hfields, Option.bind_eq_bind, Option.bind_some, orDefault, Value.asStr, hagent,
    stringList_map, required, EventJson.readEvent_eventValue h]

theorem readEnvelope_eventValue (event : Event) :
    readEnvelope (EventJson.eventValue event) = none := by
  have hfields : recordFields envelopeFields (EventJson.eventValue event) =
      some [none, none, none, none, none, none] := by
    cases hnode : event.nodeId <;>
      simp [recordFields, envelopeFields, EventJson.eventValue, fieldOf, EventJson.nodeIdField, hnode]
  unfold readEnvelope
  simp [hfields, required]

theorem inRange_stamp {event : Event} (h : event.InRange) (nodeId : String) :
    (Forwarder.stamp nodeId event).InRange where
  ts := h.ts
  pid := h.pid

/-- **The codecs are faithful and unambiguous.**  For a parser that reads what
the compact writer wrote: a forwarded event arrives with the node id of its
forwarder; the text of a bare event is not read as an envelope and arrives as
it is; an envelope of another kind is rejected; and the lines that were written
for a list of events are read back as exactly that list. -/
theorem codecs_faithful (json : JsonParser) (hjson : json.Inverts) :
    (∀ nodeId event, event.InRange →
      parseHubEventMessage json (Forwarder.forwardedText nodeId event) =
        .ok { event with nodeId := some nodeId }) ∧
    (∀ event : Event, event.InRange →
      json.fromStr readEnvelope (json.events.toText event) = none ∧
        parseHubEventMessage json (json.events.toText event) = .ok event) ∧
    (∀ raw envelope, json.fromStr readEnvelope raw = some envelope → envelope.kind ≠ "event" →
      ∃ message, parseHubEventMessage json raw = .error message) ∧
    (∀ events : List Event, (∀ event ∈ events, event.InRange) →
      (TextFile.rawLines (json.events.lines events)).map (LineKind.ofLine json.events) =
        events.map LineKind.event) := by
  refine ⟨?_, ?_, ?_, ?_⟩
  · intro nodeId event hrange
    have hread : json.fromStr readEnvelope (Forwarder.forwardedText nodeId event) = _ :=
      (hjson.fromStr_write readEnvelope _).trans
        (readEnvelope_value (inRange_stamp hrange nodeId))
    rw [parseHubEventMessage, hread]
    rfl
  · intro event hrange
    have henvelope : json.fromStr readEnvelope (json.events.toText event) = none :=
      (hjson.fromStr_write readEnvelope _).trans (readEnvelope_eventValue event)
    have hevent : json.fromStr EventJson.readEvent (json.events.toText event) = some event :=
      (hjson.fromStr_write EventJson.readEvent _).trans (EventJson.readEvent_eventValue hrange)
    refine ⟨henvelope, ?_⟩
    rw [parseHubEventMessage, henvelope]
    simp only [hevent]
  · intro raw envelope hread hkind
    rw [parseHubEventMessage, hread]
    simp only [openEnvelope, hkind, if_true, ne_eq, not_false_eq_true]
    split_ifs
    · exact ⟨_, rfl⟩
    · exact ⟨_, rfl⟩
  · intro events hrange
    have hlines := json.events_oneLine.rawLines_lines events (by simp : TextFile.newline ∉ [])
    rw [List.append_nil, if_pos rfl, List.append_nil] at hlines
    rw [hlines, List.map_map]
    refine List.map_congr_left ?_
    intro event hevent
    exact json.events_oneLine.ofLine_line
      ((hjson.fromStr_write EventJson.readEvent _).trans
        (EventJson.readEvent_eventValue (hrange event hevent)))

/-- The reader of the compact form as the parser. -/
def compactParser : JsonParser where
  parse := Json.parse
  explain := fun _ => "expected value"

def escapedEvent : Event where
  ts := 1000
  eventType := .errorNet
  entityId := "网卡\n0"
  jobId := some "\x22quoted\x22"
  pid := some 7
  value := "a\tb"
  nodeId := none

theorem codecs_faithful_escaped :
    parseHubEventMessage compactParser (Forwarder.forwardedText "node-a" escapedEvent) =
      .ok { escapedEvent with nodeId := some "node-a" } ∧
    parseHubEventMessage compactParser (compactParser.events.toText escapedEvent) =
      .ok escapedEvent ∧
    (TextFile.rawLines (compactParser.events.lines [escapedEvent, escapedEvent])).map
        (LineKind.ofLine compactParser.events) =
      [.event escapedEvent, .event escapedEvent] ∧
    ∃ message, parseHubEventMessage compactParser
      (String.ofList
        { Forwarder.payload "node-a" escapedEvent with kind := "command" }.value.write) =
        .error message := by
  have hrange : escapedEvent.InRange := ⟨by decide, by decide⟩
  have hjson : compactParser.Inverts := Json.parse_write
  obtain ⟨hforwarded, hbare, hkind, hlines⟩ := codecs_faithful compactParser hjson
  refine ⟨hforwarded _ _ hrange, (hbare _ hrange).2, hlines _ (by simp [hrange]), ?_⟩
  refine hkind _ _ ((hjson.fromStr_write readEnvelope _).trans (readEnvelope_value ?_)) ?_
  · exact inRange_stamp hrange "node-a"
  · decide

end HubMessage

end ArkInfra
