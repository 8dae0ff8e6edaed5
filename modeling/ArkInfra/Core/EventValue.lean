import ArkInfra.Core.EventJson
import ArkInfra.Lib.JsonText
import Mathlib.Algebra.Group.Nat.Defs

/-!
# Events as JSON values

What the derived serializer of `Event` builds and what its derived deserializer
accepts, on the level of values: the fields by name, unknown fields ignored, a
missing option read as none.  The compact text of an event's value is the text
of `EventJson.write`, field by field (`write_eventValue`).
-/

namespace ArkInfra

/-- The numbers of the event fit their types, `u64` and `u32`. -/
structure Event.InRange (event : Event) : Prop where
  ts : event.ts < 2 ^ 64
  pid : ∀ pid ∈ event.pid, pid < 2 ^ 32

namespace EventJson

open Json

def eventFields : List String :=
  ["ts", "event_type", "entity_id", "job_id", "pid", "value", "node_id"]

/-- The `node_id` field is left out when there is none. -/
def nodeIdField : Option String → List (String × Value)
  | none => []
  | some nodeId => [("node_id", .string nodeId)]

/-- The derived serializer. -/
def eventValue (event : Event) : Value :=
  .object
    ([("ts", .number event.ts), ("event_type", .string event.eventType.toText),
      ("entity_id", .string event.entityId), ("job_id", ofOption .string event.jobId),
      ("pid", ofOption .number event.pid), ("value", .string event.value)] ++
      nodeIdField event.nodeId)

/-- A variant without data is its name, or an object with its name and
`null`. -/
def readEventType : Value → Option EventType
  | .string name => EventType.ofText name
  | .object [(name, .null)] => EventType.ofText name
  | _ => none

/-- The derived deserializer. -/
def readEvent (v : Value) : Option Event := do
  match ← recordFields eventFields v with
  | [ts, eventType, entityId, jobId, pid, value, nodeId] =>
    let ts ← required (unsigned (2 ^ 64)) ts
    let eventType ← required readEventType eventType
    let entityId ← required Value.asStr entityId
    let jobId ← optionally Value.asStr jobId
    let pid ← optionally (unsigned (2 ^ 32)) pid
    let value ← required Value.asStr value
    let nodeId ← optionally Value.asStr nodeId
    some
      { ts := ts
        eventType := eventType
        entityId := entityId
        jobId := jobId
        pid := pid
        value := value
        nodeId := nodeId }
  | _ => none

theorem optionally_string (o : Option String) :
    optionally Value.asStr (some (ofOption .string o)) = some o := by
  exact optionally_ofOption (fun _ h => by cases h) (fun _ _ => rfl)

theorem optionally_pid {pid : Option Nat} (h : ∀ n ∈ pid, n < 2 ^ 32) :
    optionally (unsigned (2 ^ 32)) (some (ofOption .number pid)) = some pid := by
  exact optionally_ofOption (fun _ h => by cases h) (fun n hn => unsigned_number (h n hn))

theorem recordFields_eventValue (event : Event) :
    recordFields eventFields (eventValue event) =
      some [some (.number event.ts), some (.string event.eventType.toText),
        some (.string event.entityId), some (ofOption .string event.jobId),
        some (ofOption .number event.pid), some (.string event.value),
        event.nodeId.map .string] := by
  cases hnode : event.nodeId with
  | none =>
    simp [recordFields, eventFields, eventValue, fieldOf, nodeIdField, hnode]
  | some nodeId =>
    simp [recordFields, eventFields, eventValue, fieldOf, nodeIdField, hnode]

/-- **Events are read back from their values.** -/
theorem readEvent_eventValue {event : Event} (h : event.InRange) :
    readEvent (eventValue event) = some event := by
  have hts : unsigned (2 ^ 64) (.number event.ts) = some event.ts := unsigned_number h.ts
  have hnode : optionally Value.asStr (event.nodeId.map .string) = some event.nodeId := by
    cases event.nodeId <;> rfl
  unfold readEvent
  simp only [recordFields_eventValue, Option.bind_eq_bind, Option.bind_some, hts,
    optionally_string, optionally_pid h.pid, hnode, required, readEventType, Value.asStr,
    EventType.ofText_toText]

theorem writeString_eventField : ∀ name ∈ eventFields,
    writeString name = quote :: name.toList ++ [quote] := by
  decide

theorem writeRest_field {name : String} (h : name ∈ eventFields) (v : Value)
    (fields : List (String × Value)) :
    writeRest writeMember '\x7d' ((name, v) :: fields) =
      key name ++ (v.write ++ writeRest writeMember '\x7d' fields) := by
  simp [writeRest, writeMember, key, writeString_eventField name h]

theorem write_ofOption {α : Type} (make : α → Value) (o : Option α) :
    (ofOption make o).write = writeNullable (fun a => (make a).write) o := by
  cases o <;> rfl

theorem write_eventValue (event : Event) :
    String.ofList (eventValue event).write = write event := by
  have hfirst : '\x7b' :: writeMember ("ts", .number event.ts) =
      opening ++ writeNat event.ts := by
    simp [writeMember, opening, writeString_eventField "ts" (by decide), Value.write]
  have hnode : writeRest writeMember '\x7d' (nodeIdField event.nodeId) =
      writeNodeId event.nodeId ++ ['\x7d'] := by
    cases event.nodeId with
    | none =>
      rfl
    | some nodeId =>
      rw [nodeIdField, writeRest_field (by decide), writeNodeId, List.append_assoc]
      rfl
  -- the fields one after the other
  have hfields : (eventValue event).write = opening ++ writeFields event := by
    rw [eventValue, Value.write, writeMembers_eq_map, writeList_map]
    simp only [List.cons_append, List.nil_append, writeList]
    rw [← List.cons_append, hfirst, List.append_assoc, writeRest_field (by decide),
      writeRest_field (by decide), writeRest_field (by decide), writeRest_field (by decide),
      writeRest_field (by decide), hnode, write_ofOption, write_ofOption]
    rfl
  rw [hfields, write]

end EventJson

end ArkInfra
