import LarkPlat.Json
import LarkPlat.TransferRows

/-!
# Frames of a Push

`AgentChannel.push` announces a file to the agent and starts a thread that streams its bytes from
the given offset on. The thread reads the file chunk by chunk and sends a frame for each. When the
file is done and has a checksum, it should ask the agent to verify it, but it looks for the agent on
the row of the transfer, which has none: the exception ends the thread.

## Main results

* `streamChunks_covers`: the chunks are consecutive slices of the file, from the offset to its end.
* `push_protocol_iff`: the frames of a file are those of the protocol exactly if it has no checksum.
* `push_never_verifies`: a file of three bytes with a checksum is not verified.
-/

namespace LarkPlat

/-- The frames that are sent to an agent for a push. -/
inductive PushFrame where
  | fileSend (transferHostId : ℕ) (taskNo path : String) (size : ℕ) (sha256 : String)
      (chunkSize offset : ℤ) (targetPath : String) (overwrite verify : ℤ) (limitMbps : Option ℤ)
  | fileChunk (transferHostId : ℕ) (path : String) (offset bytes : ℕ) (crc32 : ℕ) (data : String)
  | fileVerify (transferHostId : ℕ) (path sha256 : String)
  deriving DecidableEq

/-- What a push meets. -/
structure PushEnv where
  bindings : List AgentBinding
  packages : List FilePackage
  /-- The content of the file at a path, if there is one. -/
  files : String → Option (List UInt8)
  /-- `os.path.join(store_path, rel_path.replace("/", os.sep))`. -/
  joinPath : String → String → String
  crc32 : List UInt8 → ℕ
  base64 : List UInt8 → String
  /-- `dispatch_to_agent_sync` delivers its `n`-th frame to the agent. -/
  delivers : ℕ → String → Bool

namespace PushEnv

variable (env : PushEnv)

/-- `AgentChannel._proc_agent`: the agent of the host. -/
def procAgent (th : TransferHost) : Option String :=
  if th.hostId = 0 then none
  else
    match env.bindings.find? fun h => decide (h.id = th.hostId) with
    | none => none
    | some h => h.agentId.filter fun a => decide (a ≠ "")

/-- `fh.read(n)` where `rest` is left of the file. -/
def readBytes (n : ℤ) (rest : List UInt8) : List UInt8 :=
  if n < 0 then rest else rest.take n.toNat

/-- The frame of a chunk. -/
def chunkFrame (th : TransferHost) (item : FileItem) (offset : ℕ) (data : List UInt8) : PushFrame :=
  .fileChunk th.id item.relPath offset data.length (env.crc32 data) (env.base64 data)

/-- The loop of `_stream_chunks_async`: the frames that are delivered from the `n`-th on, and the
number of the next one if the loop comes to the end of the file. The first argument bounds the bytes
that are left. -/
def streamChunks (agentId : String) (th : TransferHost) (item : FileItem) :
    ℕ → ℕ → ℕ → List UInt8 → List PushFrame × Option ℕ
  | 0, n, _, _ => ([], some n)
  | fuel + 1, n, offset, rest =>
      let data := readBytes item.chunkSize rest
      if data = [] then ([], some n)
      else if env.delivers n agentId then
        let r := streamChunks agentId th item fuel (n + 1) (offset + data.length)
          (rest.drop data.length)
        (env.chunkFrame th item offset data :: r.1, r.2)
      else ([], none)

/-- `host.agent_id`, where `host` is the row of the transfer. -/
def agentIdOf (_ : TransferHost) : Except PyErr String := .error .attributeError

/-- The frame that asks for a verification, if it can be sent. -/
def verifyFrames (th : TransferHost) (item : FileItem) (n : ℕ) : List PushFrame :=
  if item.sha256 = "" then []
  else
    match agentIdOf th with
    | .error _ => []
    | .ok agentId =>
        if env.delivers n agentId then [.fileVerify th.id item.relPath item.sha256] else []

/-- `_stream_chunks_async`: the frames that its thread delivers. The offset is where it starts. -/
def streamFile (agentId : String) (th : TransferHost) (item : FileItem) (startedAt : ℤ) (n : ℕ) :
    List PushFrame :=
  match env.packages.find? fun p => decide (p.id = item.packageId) with
  | none => []
  | some package =>
      match env.files (env.joinPath package.storePath item.relPath) with
      | none => []
      | some content =>
          if startedAt < 0 then []
          else
            let offset := startedAt.toNat
            match env.streamChunks agentId th item content.length n offset
              (content.drop offset) with
            | (frames, none) => frames
            | (frames, some n) => frames ++ env.verifyFrames th item n

/-- `AgentChannel.push`: whether it succeeds, and the frames that are delivered. -/
def push (task : TransferTask) (th : TransferHost) (item : FileItem) (offset : ℤ) :
    Bool × List PushFrame :=
  match env.procAgent th with
  | none => (false, [])
  | some agentId =>
      if env.delivers 0 agentId then
        (true, .fileSend th.id task.taskNo item.relPath item.size item.sha256 item.chunkSize offset
          task.targetPath task.overwrite task.verify task.limitMbps ::
            env.streamFile agentId th item offset 1)
      else (false, [])

/-! ### The protocol -/

/-- The frames are chunks of the file whose intervals follow each other from the offset to the end
of the file, each with the slice of the file at its interval. -/
inductive Covers (th : TransferHost) (item : FileItem) (content : List UInt8) :
    ℕ → List PushFrame → Prop where
  | done : Covers th item content content.length []
  | chunk {offset : ℕ} {data : List UInt8} {rest : List PushFrame} (hne : data ≠ [])
      (hslice : data = (content.drop offset).take data.length)
      (hrest : Covers th item content (offset + data.length) rest) :
      Covers th item content offset (env.chunkFrame th item offset data :: rest)

/-- The frames of a file in the protocol. -/
def FollowsProtocol (task : TransferTask) (th : TransferHost) (item : FileItem)
    (content : List UInt8) (offset : ℕ) (frames : List PushFrame) : Prop :=
  ∃ chunks, env.Covers th item content offset chunks ∧
    frames = .fileSend th.id task.taskNo item.relPath item.size item.sha256 item.chunkSize offset
      task.targetPath task.overwrite task.verify task.limitMbps :: chunks ++
      (if item.sha256 = "" then [] else [.fileVerify th.id item.relPath item.sha256])

/-- The agent stays reachable, and the file of the item is stored, with its size. -/
structure Streams (th : TransferHost) (item : FileItem) (content : List UInt8) : Prop where
  reachable : ∀ n a, env.delivers n a = true
  agent : ∃ a, env.procAgent th = some a
  stored : ∃ package, env.packages.find? (fun p => decide (p.id = item.packageId)) = some package ∧
    env.files (env.joinPath package.storePath item.relPath) = some content
  size : item.size = content.length
  chunkSize : 0 < item.chunkSize

variable {env} {task : TransferTask} {th : TransferHost} {item : FileItem} {content : List UInt8}

theorem readBytes_eq_nil_iff {n : ℤ} (hn : 0 < n) {rest : List UInt8} :
    readBytes n rest = [] ↔ rest = [] := by
  rw [readBytes, if_neg (by omega), List.take_eq_nil_iff]
  have hpos : n.toNat ≠ 0 := by omega
  simp [hpos]

theorem readBytes_eq_take {n : ℤ} (hn : 0 < n) (rest : List UInt8) :
    readBytes n rest = rest.take (readBytes n rest).length := by
  rw [readBytes, if_neg (by omega), List.length_take, List.take_eq_take_min]

/-- **The chunks cover the file.** The frames of the loop are the slices of the file from the offset
to its end, and the loop comes to the end. -/
theorem streamChunks_covers (th : TransferHost) (item : FileItem)
    (hreach : ∀ n a, env.delivers n a = true) (hsize : 0 < item.chunkSize) (agentId : String)
    (fuel n offset : ℕ) (hfuel : content.length - offset ≤ fuel)
    (hle : offset ≤ content.length) :
    env.Covers th item content offset
        (env.streamChunks agentId th item fuel n offset (content.drop offset)).1 ∧
      ∃ m, (env.streamChunks agentId th item fuel n offset (content.drop offset)).2 = some m := by
  induction fuel generalizing n offset with
  | zero =>
      obtain rfl : offset = content.length := by omega
      exact ⟨.done, n, rfl⟩
  | succ fuel ih =>
      rw [streamChunks]
      set data := readBytes item.chunkSize (content.drop offset) with hdata
      have htake : data = (content.drop offset).take data.length := readBytes_eq_take hsize _
      by_cases hend : data = []
      · have hdrop : content.drop offset = [] := (readBytes_eq_nil_iff hsize).mp hend
        obtain rfl : offset = content.length := by
          rw [List.drop_eq_nil_iff] at hdrop
          omega
        rw [if_pos hend]
        exact ⟨.done, n, rfl⟩
      · have hpos : 0 < data.length := List.length_pos_iff.mpr hend
        have hlen : data.length ≤ content.length - offset := by
          have := congrArg List.length htake
          rw [List.length_take, List.length_drop] at this
          omega
        rw [if_neg hend, if_pos (hreach n agentId), List.drop_drop]
        obtain ⟨hcovers, hm⟩ := ih (n + 1) (offset + data.length) (by omega) (by omega)
        exact ⟨.chunk hend htake hcovers, hm⟩

theorem Covers.not_verify {offset : ℕ} {frames : List PushFrame}
    (h : env.Covers th item content offset frames) (id : ℕ) (path sha : String) :
    .fileVerify id path sha ∉ frames := by
  induction h with
  | done => exact List.not_mem_nil
  | chunk _ _ _ ih =>
      rw [List.mem_cons, not_or]
      exact ⟨by simp [chunkFrame], ih⟩

theorem verifyFrames_eq_nil (n : ℕ) : env.verifyFrames th item n = [] := by
  rw [verifyFrames, agentIdOf, ite_self]

theorem push_frames (task : TransferTask) (h : env.Streams th item content) {offset : ℕ}
    (hle : offset ≤ item.size) :
    ∃ chunks, env.Covers th item content offset chunks ∧ env.push task th item offset =
      (true, .fileSend th.id task.taskNo item.relPath item.size item.sha256 item.chunkSize offset
        task.targetPath task.overwrite task.verify task.limitMbps :: chunks) := by
  obtain ⟨agentId, hagent⟩ := h.agent
  obtain ⟨package, hpackage, hfile⟩ := h.stored
  rw [h.size] at hle
  obtain ⟨hcovers, m, hm⟩ := streamChunks_covers th item h.reachable h.chunkSize agentId
    content.length 1 offset (by omega) hle
  refine ⟨_, hcovers, ?_⟩
  have hstream : env.streamFile agentId th item offset 1 =
      (env.streamChunks agentId th item content.length 1 offset (content.drop offset)).1 := by
    rw [streamFile, hpackage]
    dsimp only
    rw [hfile]
    dsimp only
    rw [if_neg (by omega), Int.toNat_natCast]
    generalize env.streamChunks agentId th item content.length 1 offset (content.drop offset) =
      streamed at hm ⊢
    obtain ⟨frames, next⟩ := streamed
    obtain rfl : next = some m := hm
    exact (congrArg (frames ++ ·) (verifyFrames_eq_nil m)).trans (List.append_nil frames)
  rw [push, hagent]
  dsimp only
  rw [if_pos (h.reachable _ _), hstream]

/-- **Push frame protocol.** While the agent stays reachable, the frames of a push are the
announcement and the chunks from the offset to the end of the file. They are the frames of the
protocol exactly if the file has no checksum. -/
theorem push_protocol_iff (h : env.Streams th item content) {offset : ℕ}
    (hle : offset ≤ item.size) :
    env.FollowsProtocol task th item content offset (env.push task th item offset).2 ↔
      item.sha256 = "" := by
  obtain ⟨chunks, hcovers, hpush⟩ := push_frames task h hle
  rw [hpush]
  constructor
  · rintro ⟨others, _, hframes⟩
    by_contra hsha
    rw [if_neg hsha] at hframes
    have htail : chunks = others ++ [.fileVerify th.id item.relPath item.sha256] :=
      (List.cons.inj hframes).2
    refine hcovers.not_verify th.id item.relPath item.sha256 ?_
    rw [htail]
    exact List.mem_append_right others (List.mem_singleton_self _)
  · intro hsha
    exact ⟨chunks, hcovers, by rw [if_pos hsha, List.append_nil]⟩

/-! ### A file of three bytes -/

/-- The content of the file, `hi!`. -/
def greeting : List UInt8 := [104, 105, 33]

/-- The agent `web-1` of host 7 stays reachable, and `greet.txt` is stored. -/
def greetingEnv : PushEnv where
  bindings := [⟨7, some "web-1"⟩]
  packages := [⟨1, "/srv/packages/1"⟩]
  files path := if path = "/srv/packages/1/greet.txt" then some greeting else none
  joinPath storePath relPath := storePath ++ "/" ++ relPath
  crc32 data :=
    if data = [104, 105] then 3633523372
    else if data = [33] then 2657877971
    else 0
  base64 data :=
    if data = [104, 105] then "aGk="
    else if data = [33] then "IQ=="
    else ""
  delivers _ _ := true

/-- The task that pushes the package. -/
def greetingTask : TransferTask where
  id := 1
  taskNo := "TR-1"
  mode := "push"
  packageId := some 1
  sourceHostPath := none
  targetPath := "/opt"
  overwrite := 1
  verify := 1
  limitMbps := none
  status := "processing"
  finishedAt := none
  createdBy := none
  version := 1

/-- The transfer to host 7. -/
def greetingHost : TransferHost := ⟨1, 1, 7, "transferring", 0, none, none, none, none⟩

/-- The file with its checksum, in chunks of two bytes. -/
def greetingItem : FileItem where
  id := 1
  packageId := 1
  relPath := "greet.txt"
  size := 3
  sha256 := "c0ddd62c7717180e7ffb8a15bb9674d3ec92592e0b7ac7d1d5289836b4553be2"
  chunkSize := 2

theorem greeting_streams (item : FileItem) (hpackage : item.packageId = 1)
    (hpath : item.relPath = "greet.txt") (hsize : item.size = 3) (hchunk : item.chunkSize = 2) :
    greetingEnv.Streams greetingHost item greeting where
  reachable _ _ := rfl
  agent := ⟨"web-1", by decide⟩
  stored := by
    rw [hpackage, hpath]
    exact ⟨⟨1, "/srv/packages/1"⟩, by decide, by decide⟩
  size := hsize
  chunkSize := by omega

/-- Without a checksum the frames of the file are those of the protocol. -/
theorem plain_push_follows :
    greetingEnv.FollowsProtocol greetingTask greetingHost { greetingItem with sha256 := "" }
      greeting 0
      (greetingEnv.push greetingTask greetingHost { greetingItem with sha256 := "" } 0).2 :=
  (push_protocol_iff (greeting_streams { greetingItem with sha256 := "" } rfl rfl rfl rfl)
    (Nat.zero_le 3)).mpr rfl

/-- With its checksum the file is sent in two chunks, and it is not verified. -/
theorem push_never_verifies :
    greetingEnv.Streams greetingHost greetingItem greeting ∧
      ¬ greetingEnv.FollowsProtocol greetingTask greetingHost greetingItem greeting 0
        (greetingEnv.push greetingTask greetingHost greetingItem 0).2 := by
  refine ⟨greeting_streams greetingItem rfl rfl rfl rfl, ?_⟩
  rintro ⟨chunks, _, hframes⟩
  have hlast : .fileVerify greetingHost.id greetingItem.relPath greetingItem.sha256 ∈
      (greetingEnv.push greetingTask greetingHost greetingItem 0).2 := by
    rw [hframes]
    exact List.mem_append_right _ (List.mem_singleton_self _)
  revert hlast
  decide

end PushEnv

end LarkPlat
