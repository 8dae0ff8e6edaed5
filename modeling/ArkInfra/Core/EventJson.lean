import ArkInfra.Core.Event
import ArkInfra.Lib.Json

/-!
# Events as JSON

The agent and the hub exchange events as JSON, and the write-ahead log stores
one event per line.  Both directions are the work of `serde_json`, a library
outside the repository; it enters the model as a pair of functions, with the
documented behaviour that the repository relies on as `Lawful`.

`compactJson` is the text that the derived serializer produces, field by field
in the order of the struct and without blanks, with a reader for exactly this
layout.  It satisfies the laws.
-/

namespace ArkInfra

/-- `serde_json` at the type of events: the text of `to_vec` and `from_str`. -/
structure SerdeJson where
  toText : Event → String
  fromStr : String → Option Event

namespace SerdeJson

/-- What the repository relies on: an event is read back as it was written, the
text is a JSON object, and its control characters are escaped. -/
structure Lawful (json : SerdeJson) : Prop where
  fromStr_toText : ∀ e, json.fromStr (json.toText e) = some e
  isObject : ∀ e, ∃ body, (json.toText e).toList = '\x7b' :: body ++ ['\x7d']
  newline_notMem : ∀ e, '\n' ∉ (json.toText e).toList

/-- The part of the laws that is about the written text alone. -/
structure OneLine (json : SerdeJson) : Prop where
  isObject : ∀ e, ∃ body, (json.toText e).toList = '\x7b' :: body ++ ['\x7d']
  newline_notMem : ∀ e, '\n' ∉ (json.toText e).toList

theorem Lawful.oneLine {json : SerdeJson} (h : json.Lawful) : json.OneLine where
  isObject := h.isObject
  newline_notMem := h.newline_notMem

end SerdeJson

namespace EventType

/-- The event types in the order of their declaration. -/
def all : List EventType :=
  [.computeUtil, .computeMem, .transportBw, .transportDrop, .storageIops, .storageQDepth,
    .processState, .errorHw, .errorNet, .topoLinkDown, .intentRun, .actionExec]

def ofText (s : String) : Option EventType :=
  all.find? fun t => t.toText == s

theorem ofText_toText (t : EventType) : ofText t.toText = some t := by
  cases t <;> decide

end EventType

namespace EventJson

open Json

def key (name : String) : List Char :=
  ',' :: quote :: name.toList ++ [quote, ':']

/-- The beginning of the object up to the first value. -/
def opening : List Char :=
  '\x7b' :: quote :: "ts".toList ++ [quote, ':']

/-- The `node_id` field is left out when there is none. -/
def writeNodeId : Option String → List Char
  | none => []
  | some nodeId => key "node_id" ++ writeString nodeId

def readNodeId (cs : List Char) : Option (Option String × List Char) :=
  match literal (key "node_id") cs with
  | some cs => (stringLit cs).map fun r => (some r.1, r.2)
  | none => some (none, cs)

def writeFields (e : Event) : List Char :=
  writeNat e.ts ++
  (key "event_type" ++ (writeString e.eventType.toText ++
  (key "entity_id" ++ (writeString e.entityId ++
  (key "job_id" ++ (writeNullable writeString e.jobId ++
  (key "pid" ++ (writeNullable writeNat e.pid ++
  (key "value" ++ (writeString e.value ++ (writeNodeId e.nodeId ++ ['\x7d'])))))))))))

def write (e : Event) : String :=
  String.ofList (opening ++ writeFields e)

def readObject (cs : List Char) : Option Event := do
  let cs ← literal opening cs
  let (ts, cs) ← number cs
  let cs ← literal (key "event_type") cs
  let (name, cs) ← stringLit cs
  let eventType ← EventType.ofText name
  let cs ← literal (key "entity_id") cs
  let (entityId, cs) ← stringLit cs
  let cs ← literal (key "job_id") cs
  let (jobId, cs) ← nullable stringLit cs
  let cs ← literal (key "pid") cs
  let (pid, cs) ← nullable number cs
  let cs ← literal (key "value") cs
  let (value, cs) ← stringLit cs
  let (nodeId, cs) ← readNodeId cs
  if cs = ['\x7d'] then
    some
      { ts := ts
        eventType := eventType
        entityId := entityId
        jobId := jobId
        pid := pid
        value := value
        nodeId := nodeId }
  else none

def read (s : String) : Option Event :=
  readObject s.toList

theorem head_key (name : String) (rest : List Char) :
    ∀ c ∈ (key name ++ rest).head?, c.isDigit = false := by
  intro c hc
  obtain rfl : ',' = c := by simpa [key] using hc
  decide

theorem nullable_writeString (o : Option String) (rest : List Char) :
    nullable stringLit (writeNullable writeString o ++ rest) = some (o, rest) := by
  apply nullable_write
  · intro s
    exact stringLit_write s rest
  · intro s
    constructor
    · simp [writeString]
    · simp only [writeString, List.head?_cons]
      decide

theorem nullable_writeNat (o : Option Nat) (name : String) (rest : List Char) :
    nullable number (writeNullable writeNat o ++ (key name ++ rest)) =
      some (o, key name ++ rest) := by
  apply nullable_write
  · intro n
    exact number_write n (head_key name rest)
  · intro n
    have hdigit : ∀ c ∈ writeNat n, c.isDigit = true := by
      intro c hc
      exact Nat.isDigit_of_mem_toDigits (by decide) (by decide) hc
    constructor
    · simp [writeNat, Nat.toDigits_ne_nil]
    · intro hn
      have := hdigit 'n' (List.mem_of_head? hn)
      revert this
      decide

theorem readNodeId_write (nodeId : Option String) :
    readNodeId (writeNodeId nodeId ++ ['\x7d']) = some (nodeId, ['\x7d']) := by
  cases nodeId with
  | none =>
    decide
  | some nodeId =>
    simp [readNodeId, writeNodeId, stringLit_write]

theorem bind_of_eq_some {α β : Type} {o : Option α} {a : α} (h : o = some a)
    (f : α → Option β) : (o >>= f) = f a := by
  rw [h]
  rfl

/-- **Events are read back as they were written.** -/
theorem read_write (e : Event) : read (write e) = some e := by
  unfold read readObject write writeFields
  rw [String.toList_ofList]
  -- the reader meets the fields in the order in which they were written
  refine (bind_of_eq_some (literal_append _ _) _).trans ?_
  refine (bind_of_eq_some (number_write _ (head_key _ _)) _).trans ?_
  refine (bind_of_eq_some (literal_append _ _) _).trans ?_
  refine (bind_of_eq_some (stringLit_write _ _) _).trans ?_
  refine (bind_of_eq_some (EventType.ofText_toText _) _).trans ?_
  refine (bind_of_eq_some (literal_append _ _) _).trans ?_
  refine (bind_of_eq_some (stringLit_write _ _) _).trans ?_
  refine (bind_of_eq_some (literal_append _ _) _).trans ?_
  refine (bind_of_eq_some (nullable_writeString _ _) _).trans ?_
  refine (bind_of_eq_some (literal_append _ _) _).trans ?_
  refine (bind_of_eq_some (nullable_writeNat _ _ _) _).trans ?_
  refine (bind_of_eq_some (literal_append _ _) _).trans ?_
  refine (bind_of_eq_some (stringLit_write _ _) _).trans ?_
  refine (bind_of_eq_some (readNodeId_write _) _).trans ?_
  exact if_pos rfl

theorem write_isObject (e : Event) :
    ∃ body, (write e).toList = '\x7b' :: body ++ ['\x7d'] := by
  obtain ⟨fields, hfields⟩ : ['\x7d'] <:+ writeFields e := by
    simp only [writeFields, ← List.append_assoc]
    exact List.suffix_append _ _
  refine ⟨opening.tail ++ fields, ?_⟩
  simp [write, ← hfields, opening]

theorem newline_notMem_writeNullable {α : Type} {w : α → List Char}
    (h : ∀ a, '\n' ∉ w a) (o : Option α) : '\n' ∉ writeNullable w o := by
  cases o with
  | none =>
    change '\n' ∉ ['n', 'u', 'l', 'l']
    decide
  | some a =>
    exact h a

theorem newline_notMem_writeNodeId (nodeId : Option String) : '\n' ∉ writeNodeId nodeId := by
  cases nodeId with
  | none =>
    simp [writeNodeId]
  | some nodeId =>
    rw [writeNodeId, List.mem_append, not_or]
    exact ⟨by decide, newline_notMem_writeString nodeId⟩

theorem newline_notMem_write (e : Event) : '\n' ∉ (write e).toList := by
  simp only [write, writeFields, String.toList_ofList, List.mem_append, not_or]
  exact ⟨by decide, newline_notMem_writeNat _,
    by decide, newline_notMem_writeString _,
    by decide, newline_notMem_writeString _,
    by decide, newline_notMem_writeNullable newline_notMem_writeString _,
    by decide, newline_notMem_writeNullable newline_notMem_writeNat _,
    by decide, newline_notMem_writeString _, newline_notMem_writeNodeId _, by decide⟩

end EventJson

/-- The derived serializer with the reader of its layout. -/
def compactJson : SerdeJson where
  toText := EventJson.write
  fromStr := EventJson.read

theorem compactJson_lawful : compactJson.Lawful where
  fromStr_toText := EventJson.read_write
  isObject := EventJson.write_isObject
  newline_notMem := EventJson.newline_notMem_write

end ArkInfra
