import ArkInfra.Agent.Ipc
import ArkInfra.Hub.EventMessage

/-!
# Both ends of the IPC connection

`agent/src/ipc.rs`: the client of the command line asks the daemon over a
socket.  A request and its response are JSON texts, each in a frame with its
length in front; the client opens a connection for every request.

The daemon is a function from the bytes it receives to the bytes it sends.
`client_sees_graph` says that the connection is transparent: what the client
returns is what the graph of the daemon answers, for every graph, as long as
the response is within the limit of the client; a larger response is an error
that names both sizes.
-/

namespace ArkInfra

open Json

/-- `from_slice` at the type that the reader makes. -/
def JsonParser.fromSlice {α : Type} (json : JsonParser) (read : Value → Option α)
    (bytes : Bytes) : Option α :=
  (TextFile.decode bytes).bind (json.fromStr read)

/-- `to_vec` of a value. -/
def Json.Value.toVec (v : Value) : Bytes :=
  TextFile.encode (String.ofList v.write)

theorem JsonParser.Inverts.fromSlice_toVec {json : JsonParser} (h : json.Inverts) {α : Type}
    (read : Value → Option α) (v : Value) : json.fromSlice read v.toVec = read v := by
  rw [JsonParser.fromSlice, Value.toVec, TextFile.decode_encode, Option.bind_some,
    h.fromStr_write]

namespace RpcRequest

/-- The derived serializer: the name of the method is a field beside the
others. -/
def value : RpcRequest → Value
  | listProcesses => .object [("method", .string "list_processes")]
  | whyProcess pid => .object [("method", .string "why_process"), ("pid", .number pid)]
  | ping => .object [("method", .string "ping")]

/-- The request of a method; only one of them reads a field. -/
def ofMethod (method : String) (pid : Option Value) : Option RpcRequest :=
  if method = "list_processes" then some .listProcesses
  else if method = "why_process" then (required (unsigned (2 ^ 32)) pid).map .whyProcess
  else if method = "ping" then some .ping
  else none

/-- The derived deserializer. -/
def read : Value → Option RpcRequest
  | .object fields => do
      let method ← required Value.asStr (← fieldOf fields "method")
      if method = "why_process" then ofMethod method (← fieldOf fields "pid")
      else ofMethod method none
  | .array (.string method :: items) =>
    if method = "why_process" then
      if items.length = 1 then ofMethod method items.head? else none
    else ofMethod method none
  | _ => none

/-- The process ids of the program are 32 bits wide. -/
def InRange : RpcRequest → Prop
  | whyProcess pid => pid < 2 ^ 32
  | _ => True

theorem read_value {request : RpcRequest} (h : request.InRange) :
    read request.value = some request := by
  cases request with
  | listProcesses => rfl
  | ping => rfl
  | whyProcess pid =>
    have hpid : unsigned 4294967296 (.number pid) = some pid := unsigned_number h
    simp [read, value, fieldOf, required, Value.asStr, ofMethod, hpid]

theorem length_write_value {request : RpcRequest} (h : request.InRange) :
    0 < request.value.write.length ∧ request.value.write.length ≤ 100 := by
  cases request with
  | listProcesses => decide
  | ping => decide
  | whyProcess pid =>
    have hdigits : (writeNat pid).length ≤ 10 := by
      refine (Nat.length_toDigits_le_iff (by decide) (by decide)).mpr ?_
      have hpid : pid < 2 ^ 32 := h
      omega
    have hwrite : (whyProcess pid).value.write =
        "\x7b\x22method\x22:\x22why_process\x22,\x22pid\x22:".toList ++ (writeNat pid ++
          ['\x7d']) := by
      simp only [value, Value.write, writeMembers, writeList, writeRest, id]
      rfl
    rw [hwrite]
    simp only [List.length_append, List.length_singleton]
    have hopening :
        "\x7b\x22method\x22:\x22why_process\x22,\x22pid\x22:".toList.length = 30 := by
      decide
    omega

end RpcRequest

namespace RpcResponse

/-- The derived serializer. -/
def value (response : RpcResponse) : Value :=
  .object
    [("success", .bool response.success), ("data", ofOption id response.data),
      ("error", ofOption .string response.error)]

/-- The derived deserializer. -/
def read (v : Value) : Option RpcResponse := do
  match ← recordFields ["success", "data", "error"] v with
  | [success, data, error] =>
    some
      { success := ← required Value.asBool success
        data := ← optionally some data
        error := ← optionally Value.asStr error }
  | _ => none

theorem read_value {response : RpcResponse} (h : response.data ≠ some .null) :
    read response.value = some response := by
  have hfields : recordFields ["success", "data", "error"] response.value =
      some [some (.bool response.success), some (ofOption id response.data),
        some (ofOption .string response.error)] := by
    simp [recordFields, value, fieldOf]
  have hdata : optionally some (some (ofOption id response.data)) = some response.data := by
    cases hd : response.data with
    | none => rfl
    | some data =>
      cases data with
      | null => exact absurd hd h
      | bool b | number n | string s | array items | object fields => rfl
  have herror : optionally Value.asStr (some (ofOption .string response.error)) =
      some response.error :=
    optionally_ofOption (by simp) (by simp [Value.asStr])
  unfold read
  simp only [hfields, Option.bind_eq_bind, Option.bind_some, required, Value.asBool, hdata, herror]

end RpcResponse

/-- The maximal size of a response. -/
def maxResponseSize : Nat := 100 * 1024 * 1024

namespace Ipc

section Daemon

variable {F : Type} (json : JsonParser) (explain : Bytes → String)

def parseRequest (body : Bytes) : Except String RpcRequest :=
  match json.fromSlice RpcRequest.read body with
  | some request => .ok request
  | none => .error (explain body)

def sendResponseUnix (response : RpcResponse) : Bytes :=
  writeU32 response.value.toVec.length ++ response.value.toVec

/-- What the daemon sends on a connection, given what it receives. -/
def serve (graphs : Nat → StateGraph F) (input : Bytes) : Bytes :=
  (handleClientUnix (parseRequest json explain) graphs 0 input).1.flatMap sendResponseUnix

def response (g : StateGraph F) (request : RpcRequest) : RpcResponse :=
  match handleRequest g request with
  | .ok data => .ofData data
  | .error e => .ofError e

end Daemon

end Ipc

namespace IpcClient

open Ipc

variable {F : Type} (json : JsonParser) (explain : Bytes → String)

/-- A connection to the daemon, or the text of the error. -/
abbrev Connection : Type :=
  Except String (Bytes → Bytes)

/-- The error for a response above the limit. -/
def responseTooLarge (n : Nat) : String :=
  "响应体过大: " ++ toString n ++ " 字节（最大允许: " ++ toString maxResponseSize ++ " 字节）"

def call (connect : Connection) (request : RpcRequest) : Except String RpcResponse :=
  match connect with
  | .error e => .error e
  | .ok daemon =>
    let requestJson := request.value.toVec
    match readU32 (daemon (writeU32 requestJson.length ++ requestJson)) with
    | none => .error "读取响应长度失败: early eof"
    | some (responseLen, rest) =>
      if maxResponseSize < responseLen then
        .error (responseTooLarge responseLen)
      else if rest.length < responseLen then
        .error "读取响应内容失败: early eof"
      else
        match json.fromSlice RpcResponse.read (rest.take responseLen) with
        | some response => .ok response
        | none => .error ("解析响应失败: " ++ explain (rest.take responseLen))

def dataOf (response : RpcResponse) : Except String Value :=
  if response.success = false then .error (response.error.getD "未知错误")
  else
    match response.data with
    | none => .error "响应数据为空"
    | some data => .ok data

def listProcesses (connect : Connection) : Except String (List Value) := do
  let data ← dataOf (← call json explain connect .listProcesses)
  match data with
  | .array processes => .ok processes
  | _ => .error ("解析进程列表失败: " ++ explain data.toVec)

/-- The texts of the field `causes`; anything else in it is skipped. -/
def causesOf (data : Value) : Except String (List String) :=
  match data.get "causes" with
  | some (.array causes) => .ok (causes.filterMap Value.asStr)
  | _ => .error "causes 字段格式错误"

def whyProcess (connect : Connection) (pid : Nat) : Except String (List String) := do
  let data ← dataOf (← call json explain connect (.whyProcess pid))
  causesOf data

def ping (connect : Connection) : Bool :=
  match call json explain connect .ping with
  | .ok response => response.success
  | .error _ => false

section Transparent

variable {json} {explain}

theorem length_encode_le (cs : List Char) :
    cs.length ≤ (TextFile.encode (String.ofList cs)).length ∧
      (TextFile.encode (String.ofList cs)).length ≤ 4 * cs.length := by
  rw [TextFile.encode_eq_flatMap, String.toList_ofList]
  induction cs with
  | nil =>
    simp
  | cons c cs ih =>
    have hpos : 0 < c.utf8Size := c.utf8Size_pos
    have hle : c.utf8Size ≤ 4 := c.utf8Size_le_four
    simp only [List.flatMap_cons, List.length_append, List.length_cons,
      String.length_utf8EncodeChar]
    omega

def requestFrame (request : RpcRequest) (h : request.InRange) : Frame where
  body := request.value.toVec
  nonempty := by
    have hlength := (RpcRequest.length_write_value h).1
    have hencode := (length_encode_le request.value.write).1
    unfold Value.toVec
    omega
  short := by
    have hlength := (RpcRequest.length_write_value h).2
    have hencode := (length_encode_le request.value.write).2
    unfold Value.toVec
    omega

theorem length_requestFrame (request : RpcRequest) (h : request.InRange) :
    (requestFrame request h).length ≤ maxRequestSize := by
  have hlength := (RpcRequest.length_write_value h).2
  have hencode := (length_encode_le request.value.write).2
  change (TextFile.encode (String.ofList request.value.write)).length ≤ 10 * 1024 * 1024
  omega

theorem serve_request (hjson : json.Inverts) (graphs : Nat → StateGraph F) {request : RpcRequest}
    (h : request.InRange) :
    serve json explain graphs
        (writeU32 request.value.toVec.length ++ request.value.toVec) =
      sendResponseUnix (response (graphs 0) request) := by
  have hframe : handleClientUnix (parseRequest json explain) graphs 0 _ = _ :=
    handleClientUnix_frame (requestFrame request h) (length_requestFrame request h) []
  rw [List.append_nil, handleClientUnix_nil] at hframe
  have hparse : parseRequest json explain (requestFrame request h).body = .ok request := by
    unfold parseRequest
    rw [requestFrame, hjson.fromSlice_toVec, RpcRequest.read_value h]
  have hanswer : answerFrame (parseRequest json explain) (graphs 0) (requestFrame request h).body =
      response (graphs 0) request := by
    have hsmall : ¬ maxRequestSize < (requestFrame request h).body.length :=
      Nat.not_lt.mpr (length_requestFrame request h)
    rw [answerFrame, if_neg hsmall, answerRequest, hparse]
    rfl
  rw [hanswer] at hframe
  unfold serve
  change (handleClientUnix (parseRequest json explain) graphs 0
    (writeU32 (requestFrame request h).length ++ (requestFrame request h).body)).1.flatMap
      sendResponseUnix = _
  rw [hframe]
  simp [respond]

theorem response_data_ne_null (g : StateGraph F) (request : RpcRequest) :
    (response g request).data ≠ some .null := by
  cases request <;> simp [response, handleRequest, RpcResponse.ofData]

theorem causesOf_whyProcess (g : StateGraph F) (pid : Nat) :
    (do causesOf (← dataOf (response g (.whyProcess pid)))) =
      (.ok (g.findRootCause pid) : Except String (List String)) := by
  have htexts : ∀ causes : List String,
      (causes.map Value.string).filterMap Value.asStr = causes := by
    intro causes
    induction causes with
    | nil =>
      rfl
    | cons cause causes ih =>
      rw [List.map_cons, List.filterMap_cons]
      simp only [Value.asStr, ih]
  change (.ok (((g.findRootCause pid).map Value.string).filterMap Value.asStr) :
    Except String (List String)) = _
  rw [htexts]

/-- **One call**: the response of the daemon, or the error for its size. -/
theorem call_serve (hjson : json.Inverts) (graphs : Nat → StateGraph F) {request : RpcRequest}
    (h : request.InRange)
    (hsize : (response (graphs 0) request).value.toVec.length < 2 ^ 32) :
    call json explain (.ok (serve json explain graphs)) request =
      if maxResponseSize < (response (graphs 0) request).value.toVec.length then
        .error (responseTooLarge (response (graphs 0) request).value.toVec.length)
      else
        .ok (response (graphs 0) request) := by
  unfold call
  simp only [serve_request hjson graphs h, sendResponseUnix, readU32_writeU32 hsize, Nat.lt_irrefl,
    if_false, List.take_length, hjson.fromSlice_toVec,
    RpcResponse.read_value (response_data_ne_null (graphs 0) request)]

end Transparent

theorem length_ping (g : StateGraph F) :
    (response g .ping).value.toVec.length ≤ maxResponseSize := by
  have hwrite : (response g .ping).value.write.length ≤ 52 := by
    change (Value.object [("success", .bool true), ("data", .object [("status", .string "ok")]),
      ("error", .null)]).write.length ≤ 52
    decide
  have hencode := (length_encode_le (response g .ping).value.write).2
  unfold Value.toVec maxResponseSize
  omega

/-- **The client sees the graph of the daemon.**  For every graph whose response has a
length of four bytes: `why` returns the root causes of the process and `ps` the
active processes, unless the response is above the limit of the client, which is
an error that names its size.  A ping always succeeds. -/
theorem client_sees_graph (hjson : json.Inverts) (graphs : Nat → StateGraph F) :
    let connect : Connection := .ok (serve json explain graphs)
    let size := fun request => (response (graphs 0) request).value.toVec.length
    (∀ pid < 2 ^ 32, size (.whyProcess pid) < 2 ^ 32 →
      whyProcess json explain connect pid =
        if maxResponseSize < size (.whyProcess pid) then
          .error (responseTooLarge (size (.whyProcess pid)))
        else .ok ((graphs 0).findRootCause pid)) ∧
    (size .listProcesses < 2 ^ 32 →
      listProcesses json explain connect =
        if maxResponseSize < size .listProcesses then
          .error (responseTooLarge (size .listProcesses))
        else .ok ((graphs 0).getActiveProcesses.map (Ipc.processJson (graphs 0)))) ∧
    ping json explain connect = true := by
  intro connect size
  refine ⟨?_, ?_, ?_⟩
  · intro pid hpid hsize
    have hrange : (RpcRequest.whyProcess pid).InRange := hpid
    rw [whyProcess, call_serve hjson graphs hrange hsize]
    split_ifs
    · rfl
    · exact causesOf_whyProcess (graphs 0) pid
  · intro hsize
    have hrange : RpcRequest.listProcesses.InRange := trivial
    rw [listProcesses, call_serve hjson graphs hrange hsize]
    split_ifs
    · rfl
    · rfl
  · have hrange : RpcRequest.ping.InRange := trivial
    have hsmall := length_ping (graphs 0)
    have hsize : (response (graphs 0) .ping).value.toVec.length < 2 ^ 32 := by
      unfold maxResponseSize at hsmall
      omega
    rw [ping, call_serve hjson graphs hrange hsize, if_neg (Nat.not_lt.mpr hsmall)]
    rfl

/-- A daemon that has seen a process wait for the network. -/
def waitingDaemon : StateGraph Binary64 :=
  StateGraph.after
    [{ ts := 1000, eventType := .transportDrop, entityId := "network-pid-7", jobId := none,
       pid := none, value := "3", nodeId := none }]

theorem client_sees_wait :
    whyProcess HubMessage.compactParser (fun _ => "expected value")
        (.ok (serve HubMessage.compactParser (fun _ => "expected value") fun _ => waitingDaemon)) 7 =
      .ok (waitingDaemon.findRootCause 7) ∧
    (listProcesses HubMessage.compactParser (fun _ => "expected value")
        (.ok (serve HubMessage.compactParser (fun _ => "expected value") fun _ =>
          waitingDaemon))).isOk = true := by
  obtain ⟨hwhy, hps, _⟩ := client_sees_graph HubMessage.compactParser (fun _ => "expected value")
    Json.parse_write fun _ => waitingDaemon
  refine ⟨?_, ?_⟩
  · rw [hwhy 7 (by decide) (by decide +kernel), if_neg (by decide +kernel)]
  · rw [hps (by decide +kernel), if_neg (by decide +kernel)]
    rfl

end IpcClient

end ArkInfra
