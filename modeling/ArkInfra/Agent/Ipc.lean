import ArkInfra.Core.RootCause
import ArkInfra.Lib.Frame
import ArkInfra.Lib.Json

/-!
# The IPC server of the agent

`agent/src/ipc.rs`, `handle_client_unix`: a client sends requests as frames
with a length in front, and the server answers each before it reads the next.
A length of zero closes the connection.  A frame above the limit is answered
with an error, but its body is not read: the server takes the bytes of the body
for the following frames.

`inSync_iff` says which frame lengths keep the two sides together.  The parser
of the requests is a parameter, and the graph may be another one at every
request.
-/

namespace ArkInfra

inductive RpcRequest where
  | listProcesses
  | whyProcess (pid : Nat)
  | ping
deriving DecidableEq, Repr

structure RpcResponse where
  success : Bool
  data : Option Json.Value
  error : Option String

namespace RpcResponse

def ofData (data : Json.Value) : RpcResponse where
  success := true
  data := some data
  error := none

def ofError (msg : String) : RpcResponse where
  success := false
  data := none
  error := some msg

end RpcResponse

/-- The maximal size of a request. -/
def maxRequestSize : Nat := 10 * 1024 * 1024

namespace Ipc

variable {F : Type}

/-- A process in the answer to `list_processes`. -/
def processJson (g : StateGraph F) (node : Node) : Json.Value :=
  let pid := (Text.parseUnsigned (2 ^ 32) ((Text.stripPrefix node.id "pid-").getD node.id)).getD 0
  .object [
    ("pid", .number pid),
    ("id", .string node.id),
    ("job_id", ((node.metadata.lookup "job_id").map Json.Value.string).getD .null),
    ("state", .string ((node.metadata.lookup "state").getD "unknown")),
    ("resources", .array ((g.getProcessResources pid).map Json.Value.string)),
    ("last_update", .number node.lastUpdate)]

def handleRequest (g : StateGraph F) : RpcRequest → Except String Json.Value
  | .listProcesses => .ok (.array (g.getActiveProcesses.map (processJson g)))
  | .whyProcess pid =>
    .ok (.object [("pid", .number pid),
      ("causes", .array ((g.findRootCause pid).map Json.Value.string))])
  | .ping => .ok (.object [("status", .string "ok")])

def tooLarge (n : Nat) : RpcResponse :=
  .ofError ("请求体过大: " ++ toString n ++ " 字节（最大允许: " ++ toString maxRequestSize ++ " 字节）")

section Server

variable (parse : Bytes → Except String RpcRequest)

def answerRequest (g : StateGraph F) (body : Bytes) : RpcResponse :=
  match parse body with
  | .error e => .ofError ("解析请求失败: " ++ e)
  | .ok request =>
    match handleRequest g request with
    | .ok data => .ofData data
    | .error e => .ofError e

/-- The answer to a frame, or the error for it. -/
def answerFrame (g : StateGraph F) (body : Bytes) : RpcResponse :=
  if maxRequestSize < body.length then tooLarge body.length else answerRequest parse g body

def respond (response : RpcResponse) (later : List RpcResponse × Bool) :
    List RpcResponse × Bool :=
  (response :: later.1, later.2)

/-- Serve a client: the responses that are sent, and whether the connection was
closed properly.  `graphs` gives the graph at each request, from number `count`
on. -/
def handleClientUnix (graphs : Nat → StateGraph F) (count : Nat) (input : Bytes) :
    List RpcResponse × Bool :=
  match hread : readU32 input with
  | none => ([], false)
  | some (n, rest) =>
    if n = 0 then
      ([], true)
    else if maxRequestSize < n then
      -- the body stays in the input
      respond (tooLarge n) (handleClientUnix graphs (count + 1) rest)
    else if rest.length < n then
      ([], false)
    else
      respond (answerRequest parse (graphs count) (rest.take n))
        (handleClientUnix graphs (count + 1) (rest.drop n))
termination_by input.length
decreasing_by
  · have := length_of_readU32 hread
    omega
  · have := length_of_readU32 hread
    simp only [List.length_drop]
    omega

variable {parse} {graphs : Nat → StateGraph F} {count : Nat}

theorem handleClientUnix_nil : handleClientUnix parse graphs count [] = ([], false) := by
  unfold handleClientUnix
  rfl

theorem handleClientUnix_eq {input rest : Bytes} {n : Nat}
    (hread : readU32 input = some (n, rest)) :
    handleClientUnix parse graphs count input =
      if n = 0 then
        ([], true)
      else if maxRequestSize < n then
        respond (tooLarge n) (handleClientUnix parse graphs (count + 1) rest)
      else if rest.length < n then
        ([], false)
      else
        respond (answerRequest parse (graphs count) (rest.take n))
          (handleClientUnix parse graphs (count + 1) (rest.drop n)) := by
  rw [handleClientUnix]
  split
  next hnone =>
    rw [hread] at hnone
    cases hnone
  next n' rest' hsome =>
    obtain ⟨rfl, rfl⟩ := Prod.mk.inj (Option.some.inj (hread.symm.trans hsome))
    rfl

theorem handleClientUnix_large (frame : Frame) (hlarge : maxRequestSize < frame.length)
    (rest : Bytes) :
    handleClientUnix parse graphs count (writeU32 frame.length ++ (frame.body ++ rest)) =
      respond (tooLarge frame.length)
        (handleClientUnix parse graphs (count + 1) (frame.body ++ rest)) := by
  have hne : frame.length ≠ 0 := Nat.pos_iff_ne_zero.mp frame.nonempty
  rw [handleClientUnix_eq (frame.readU32_frame rest), if_neg hne, if_pos hlarge]

/-- **A frame within the limit is answered and read as a whole.** -/
theorem handleClientUnix_frame (frame : Frame) (hsize : frame.length ≤ maxRequestSize)
    (rest : Bytes) :
    handleClientUnix parse graphs count (writeU32 frame.length ++ (frame.body ++ rest)) =
      respond (answerFrame parse (graphs count) frame.body)
        (handleClientUnix parse graphs (count + 1) rest) := by
  have hne : frame.length ≠ 0 := Nat.pos_iff_ne_zero.mp frame.nonempty
  have hread : ¬ (frame.body ++ rest).length < frame.length := by
    simp [Frame.length]
  have hanswer : answerFrame parse (graphs count) frame.body =
      answerRequest parse (graphs count) frame.body :=
    if_neg (Nat.not_lt.mpr hsize)
  rw [handleClientUnix_eq (frame.readU32_frame rest), if_neg hne,
    if_neg (Nat.not_lt.mpr hsize), if_neg hread, hanswer]
  simp [Frame.length]

/-- The answers to a list of frames, the first of which is number `count`. -/
def answers (parse : Bytes → Except String RpcRequest) (graphs : Nat → StateGraph F) (count : Nat)
    (frames : List Frame) : List RpcResponse :=
  frames.mapIdx (fun i frame => answerFrame parse (graphs (count + i)) frame.body)

@[simp] theorem length_answers (frames : List Frame) :
    (answers parse graphs count frames).length = frames.length := by
  simp [answers]

/-- **Frames within the limit are answered one by one**, whatever follows. -/
theorem handleClientUnix_stream {frames : List Frame}
    (hsize : ∀ frame ∈ frames, frame.length ≤ maxRequestSize) (rest : Bytes) :
    (handleClientUnix parse graphs count (Frame.stream frames ++ rest)).1 =
      answers parse graphs count frames ++
        (handleClientUnix parse graphs (count + frames.length) rest).1 := by
  induction frames generalizing count with
  | nil =>
    simp [answers]
  | cons frame frames ih =>
    have hhead := hsize frame List.mem_cons_self
    have htail : ∀ frame ∈ frames, frame.length ≤ maxRequestSize := by
      intro other hother
      exact hsize other (List.mem_cons_of_mem _ hother)
    have hnext : count + 1 + frames.length = count + (frame :: frames).length := by
      simp only [List.length_cons]
      omega
    rw [Frame.stream_cons, List.append_assoc, List.append_assoc,
      handleClientUnix_frame frame hhead, respond, ih htail, hnext]
    simp only [answers, List.mapIdx_cons, List.cons_append, Nat.add_zero]
    congr 3
    funext i frame
    rw [Nat.add_assoc, Nat.add_comm 1 i]

/-- The server sends one response for every frame, in order, each the answer to
its frame. -/
def InSync (parse : Bytes → Except String RpcRequest) (graphs : Nat → StateGraph F)
    (frames : List Frame) : Prop :=
  (handleClientUnix parse graphs 0 (Frame.stream frames)).1 = answers parse graphs 0 frames

/-- In sync, the body of a frame above the limit and what follows it are
answered once for every frame that follows. -/
theorem length_of_inSync {frames later : List Frame} {frame : Frame}
    (hsize : ∀ frame ∈ frames, frame.length ≤ maxRequestSize)
    (hlarge : maxRequestSize < frame.length)
    (h : InSync parse graphs (frames ++ frame :: later)) :
    (handleClientUnix parse graphs (frames.length + 1)
      (frame.body ++ Frame.stream later)).1.length = later.length := by
  have hlength := congrArg List.length h
  rw [Frame.stream_append, handleClientUnix_stream hsize, Frame.stream_cons,
    handleClientUnix_large frame hlarge, respond] at hlength
  simp only [List.length_append, List.length_cons, length_answers, Nat.zero_add] at hlength
  omega

theorem handleClientUnix_zeros (rest : Bytes) :
    handleClientUnix parse graphs count ([0, 0, 0, 0] ++ rest) = ([], true) := by
  have hread : readU32 ([0, 0, 0, 0] ++ rest) = some (0, rest) := rfl
  rw [handleClientUnix_eq hread, if_pos rfl]

theorem handleClientUnix_byte (b : UInt8) (rest : Bytes) :
    handleClientUnix parse graphs count ([0, 0, 0, 1, b] ++ rest) =
      respond (answerRequest parse (graphs count) [b])
        (handleClientUnix parse graphs (count + 1) rest) := by
  have hread : readU32 ([0, 0, 0, 1, b] ++ rest) = some (1, b :: rest) := rfl
  rw [handleClientUnix_eq hread, if_neg Nat.one_ne_zero, if_neg (by decide), if_neg (by simp)]
  rfl

theorem exists_first_large {frames : List Frame}
    (h : ¬ ∀ frame ∈ frames, frame.length ≤ maxRequestSize) :
    ∃ before frame later, frames = before ++ frame :: later ∧
      (∀ frame ∈ before, frame.length ≤ maxRequestSize) ∧ maxRequestSize < frame.length := by
  cases hfind : frames.find? (fun frame => decide (maxRequestSize < frame.length)) with
  | none =>
    refine absurd ?_ h
    intro frame hframe
    simpa using List.find?_eq_none.mp hfind frame hframe
  | some frame =>
    obtain ⟨hlarge, before, later, hsplit, hbefore⟩ := List.find?_eq_some_iff_append.mp hfind
    refine ⟨before, frame, later, hsplit, ?_, by simpa using hlarge⟩
    intro other hother
    simpa using hbefore other hother

end Server

/-- **The stream stays in sync.**  For every parser, every graph at every
request and every list of frames: all streams with these frame lengths stay in
sync exactly when no frame is above the limit. -/
theorem inSync_iff (parse : Bytes → Except String RpcRequest) (graphs : Nat → StateGraph F)
    (frames : List Frame) :
    (∀ frames' : List Frame, frames'.map Frame.length = frames.map Frame.length →
      InSync parse graphs frames') ↔
    ∀ frame ∈ frames, frame.length ≤ maxRequestSize := by
  constructor
  · intro h
    by_contra hnot
    obtain ⟨before, frame, later, rfl, hbefore, hlarge⟩ := exists_first_large hnot
    have hroom : 5 ≤ frame.length := by
      unfold maxRequestSize at hlarge
      omega
    -- the limit depends on the length only, so the body can be chosen
    have hcount : ∀ (start : Bytes) (hstart : start.length ≤ frame.length),
        (handleClientUnix parse graphs (before.length + 1)
          (start ++ (List.replicate (frame.length - start.length) 0 ++ Frame.stream later))).1.length =
            later.length := by
      intro start hstart
      have hlength := frame.length_refill hstart
      have hsync := h (before ++ frame.refill start hstart :: later) (by simp [hlength])
      have hcount := length_of_inSync hbefore (by rw [hlength]; exact hlarge) hsync
      rwa [Frame.body_refill, List.append_assoc] at hcount
    cases later with
    | nil =>
      -- the body of the last frame is taken for one more frame
      have hmore := hcount [0, 0, 0, 1, 0] hroom
      rw [handleClientUnix_byte] at hmore
      simp [respond] at hmore
    | cons next later =>
      -- the body closes the connection before the next frame is read
      have hfewer := hcount [0, 0, 0, 0] (Nat.le_of_succ_le hroom)
      rw [handleClientUnix_zeros] at hfewer
      simp at hfewer
  · intro hsize frames' hlengths
    have hsize' : ∀ frame ∈ frames', frame.length ≤ maxRequestSize := by
      intro frame hframe
      have hmem : frame.length ∈ frames.map Frame.length := by
        rw [← hlengths]
        exact List.mem_map_of_mem hframe
      obtain ⟨other, hother, heq⟩ := List.mem_map.mp hmem
      rw [← heq]
      exact hsize other hother
    unfold InSync
    rw [← List.append_nil (Frame.stream frames'), handleClientUnix_stream hsize',
      handleClientUnix_nil, List.append_nil]

/-- A request that is one byte too large and full of zeros, and then a ping: the
first is refused, and its zeros close the connection before the ping is
answered. -/
theorem inSync_iff_oversized :
    let pingBody := TextFile.encode "\x7b\x22method\x22:\x22ping\x22\x7d"
    let parse : Bytes → Except String RpcRequest := fun body =>
      if body = pingBody then .ok .ping else .error "expected value at line 1 column 1"
    let graphs : Nat → StateGraph Binary64 := fun _ => .new
    let large : Frame :=
      ⟨[0, 0, 0, 0] ++ List.replicate (maxRequestSize - 3) 0,
        by rw [List.length_append, List.length_replicate]; decide,
        by rw [List.length_append, List.length_replicate]; decide⟩
    let ping : Frame := ⟨pingBody, by decide, by decide⟩
    (handleClientUnix parse graphs 0 (Frame.stream [large, ping])).1 =
      [tooLarge (maxRequestSize + 1)] ∧
    ¬ InSync parse graphs [large, ping] := by
  intro pingBody parse graphs large ping
  have hlength : large.length = maxRequestSize + 1 := by
    rw [Frame.length, List.length_append, List.length_replicate]
    decide
  have hresponses : (handleClientUnix parse graphs 0 (Frame.stream [large, ping])).1 =
      [tooLarge (maxRequestSize + 1)] := by
    rw [Frame.stream_cons, handleClientUnix_large large (by rw [hlength]; exact Nat.lt_succ_self _),
      hlength, respond, List.append_assoc, handleClientUnix_zeros]
  refine ⟨hresponses, ?_⟩
  intro h
  have hcount := congrArg List.length h
  rw [hresponses, length_answers] at hcount
  simp at hcount

end Ipc

end ArkInfra
