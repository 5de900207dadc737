import LarkPlat.ResumeOffsets

/-!
# Files that Are Pulled

The agents of a pull send the file of their host in `file_chunk` frames, each with the offset of its
bytes. The server appends the bytes to a file whose path is made of the task and of the name of the
source, so all hosts of a task share it, and the offset of a chunk plays no part.

## Main results

* `reassembled`: the chunks stand at their offsets, and hosts leave each other's files alone, in
  every run in which each chunk begins where the stored file ends, or repeats what stands there, and
  each file gets the chunks of one host.
* `two_hosts_one_file`: two hosts of one task.
-/

namespace LarkPlat.Transfers

open Outcomes PushHistory

/-! ### Paths -/

/-- `posixpath.join`. -/
def joinPath (a b : String) : String :=
  if ['/'].isPrefixOf b.toList then b
  else if a = "" ∨ ['/'].isPrefixOf a.toList.reverse then a ++ b
  else a ++ "/" ++ b

/-- `posixpath.basename`. -/
def basename (path : String) : String :=
  String.ofList (path.toList.reverse.takeWhile fun c => decide (c ≠ '/')).reverse

/-- `x or y`, of texts. -/
def orText (a b : String) : String := if a = "" then b else a

/-- `_pull_store_path`, below `settings.transfer_store_dir`. -/
def pullStorePath (storeDir : String) (strip : String → String) (taskId : ℕ)
    (sourceHostPath : Option String) : String :=
  joinPath (joinPath (joinPath storeDir "pull") (toString taskId))
    (orText (strip (basename (orText (sourceHostPath.getD "") "file"))) "file")

/-! ### Chunks -/

/-- What the handler of a chunk meets. -/
structure ChunkEnv extends TransferEnv where
  /-- `settings.transfer_store_dir`. -/
  storeDir : String
  /-- `str.strip`. -/
  strip : String → String
  /-- `base64.b64decode`. -/
  b64decode : Json → Except PyErr (List UInt8)
  /-- The directory of a path can be made, and the file opened. -/
  opens : String → Bool

/-- Bytes that a host has sent, with the offset of their frame if it can be read. -/
structure SentChunk where
  transferHostId : ℕ
  path : String
  offset : Option ℤ
  payload : List UInt8
  deriving DecidableEq

/-- `payload` of `_transfer_pull_chunk`. -/
def payloadOf (env : ChunkEnv) (data : Json) : Except PyErr (List UInt8) := do
  let text ← data.get "data"
  env.b64decode (text.pyOr (.str ""))

/-- What `_transfer_pull_chunk` writes, if it gets to the file. -/
def chunkOf (env : ChunkEnv) (st : TransferStore) (data : Json) :
    Except PyErr (Option (TransferHost × SentChunk)) := do
  let i ← hostIdOf data
  match hostById st i with
  | none => pure none
  | some th =>
      match st.task? th.transferTaskId with
      | none => pure none
      | some task =>
          if task.mode ≠ "pull" then pure none
          else
            let payload ← payloadOf env data
            if payload = [] then pure none
            else
              let path := pullStorePath env.storeDir env.strip task.id task.sourceHostPath
              if env.opens path then
                pure (some (th, ⟨th.id, path, (intField data "offset").toOption, payload⟩))
              else throw .valueError

/-- What `_transfer_pull_chunk` does once the bytes are written: it moves the cursor of the host. -/
def moveCursor (env : ChunkEnv) (th : TransferHost) (data : Json) (bytes : ℕ) : TransferM Unit := do
  let offset ← attempt (intField data "offset")
  let cursor ← attempt (bigInteger (offset + bytes))
  execute fun st => st.updateHost th.id fun h =>
    { h with status := th.status, currentOffset := cursor }
  commit env.toTransferEnv
  let _ ← attempt (intField data "bytes")

/-! ### The server -/

/-- The tables, the stored files, and all chunks that have been written to them. -/
structure PullServer where
  store : TransferStore
  files : String → List UInt8
  chunks : List SentChunk

/-- A chunk, or another operation on transfers. -/
inductive PullOp where
  | chunk (env : ChunkEnv) (data : Json)
  | other (op : TransferOp)

namespace PullServer

/-- A server that has stored nothing yet. -/
def started (st : TransferStore) : PullServer := ⟨st, fun _ => [], []⟩

/-- The chunk is appended to its file. -/
def append (p : PullServer) (c : SentChunk) : PullServer :=
  { p with files := Function.update p.files c.path (p.files c.path ++ c.payload)
           chunks := c :: p.chunks }

/-- `_transfer_pull_chunk`. -/
def pullChunk (p : PullServer) (env : ChunkEnv) (data : Json) : PullServer :=
  match chunkOf env p.store data with
  | .ok (some (th, c)) =>
      { p.append c with store := after (moveCursor env th data c.payload.length) p.store }
  | _ => p

/-- An operation. -/
def apply (p : PullServer) : PullOp → PullServer
  | .chunk env data => p.pullChunk env data
  | .other op => { p with store := ((PushHistory.started p.store).apply op).store }

end PullServer

/-- The bytes stand in the file at an offset. -/
def StandsAt (file : List UInt8) (offset : ℤ) (bytes : List UInt8) : Prop :=
  0 ≤ offset ∧ ∀ k : ℕ, k < bytes.length → file[offset.toNat + k]? = bytes[k]?

namespace PullServer

/-- The chunks of every host that has succeeded stand at their offsets. -/
def Reassembled (p : PullServer) : Prop :=
  ∀ th ∈ p.store.hosts, th.status = "success" → ∀ c ∈ p.chunks, c.transferHostId = th.id →
    ∀ offset, c.offset = some offset → StandsAt (p.files c.path) offset c.payload

/-- A chunk leaves the files in which other hosts have stored chunks. -/
def LeavesOthers (p : PullServer) : PullOp → Prop
  | .chunk env data =>
      ∀ th c, chunkOf env p.store data = .ok (some (th, c)) →
        ∀ c' ∈ p.chunks, c'.transferHostId ≠ th.id →
          (p.pullChunk env data).files c'.path = p.files c'.path
  | .other _ => True

/-- What is asked of an operation. -/
def Reassembles (p : PullServer) (op : PullOp) : Prop :=
  (p.apply op).Reassembled ∧ p.LeavesOthers op

/-- A chunk is in place: it begins where its file ends, or its bytes stand at its offset anyway, and
its file has the chunks of its host only. -/
def InPlace (p : PullServer) : PullOp → Prop
  | .chunk env data =>
      ∀ th c, chunkOf env p.store data = .ok (some (th, c)) →
        (∀ offset, c.offset = some offset → offset = (p.files c.path).length ∨
          StandsAt (p.files c.path ++ c.payload) offset c.payload) ∧
        ∀ c' ∈ p.chunks, c'.path = c.path → c'.transferHostId = th.id
  | .other _ => True

/-! ### Files that grow -/

section Grow

variable {file more bytes : List UInt8} {offset : ℤ}

theorem standsAt_append (h : StandsAt file offset bytes) :
    StandsAt (file ++ more) offset bytes := by
  refine ⟨h.1, fun k hk => ?_⟩
  have hsome := h.2 k hk
  rw [List.getElem?_eq_getElem hk] at hsome ⊢
  obtain ⟨hlt, -⟩ := List.getElem?_eq_some_iff.mp hsome
  rw [List.getElem?_append_left hlt, hsome]

theorem standsAt_end : StandsAt (file ++ bytes) file.length bytes := by
  refine ⟨Int.natCast_nonneg _, fun k _ => ?_⟩
  rw [Int.toNat_natCast, List.getElem?_append_right (Nat.le_add_right _ _), Nat.add_sub_cancel_left]

end Grow

/-! ### Runs -/

section Runs

variable {p : PullServer} {op : PullOp}

/-- Every chunk stands at its offset. -/
def Placed (p : PullServer) : Prop :=
  ∀ c ∈ p.chunks, ∀ offset, c.offset = some offset → StandsAt (p.files c.path) offset c.payload

theorem Placed.append (h : p.Placed) {c : SentChunk}
    (hc : ∀ offset, c.offset = some offset →
      StandsAt (p.files c.path ++ c.payload) offset c.payload) :
    (p.append c).Placed := by
  intro c' hc' offset hoffset
  change StandsAt (Function.update p.files c.path _ c'.path) offset c'.payload
  by_cases hpath : c'.path = c.path
  · rw [hpath, Function.update_self]
    rcases List.mem_cons.mp hc' with rfl | hmem
    · exact hc offset hoffset
    · exact standsAt_append (hpath ▸ h c' hmem offset hoffset)
  · rw [Function.update_of_ne hpath]
    rcases List.mem_cons.mp hc' with rfl | hmem
    · exact absurd rfl hpath
    · exact h c' hmem offset hoffset

theorem pullChunk_cases (p : PullServer) (env : ChunkEnv) (data : Json) :
    p.pullChunk env data = p ∧ (∀ th c, chunkOf env p.store data ≠ .ok (some (th, c))) ∨
      ∃ th c, chunkOf env p.store data = .ok (some (th, c)) ∧
        p.pullChunk env data =
          { p.append c with store := after (moveCursor env th data c.payload.length) p.store } := by
  rw [pullChunk]
  cases chunkOf env p.store data with
  | error e => exact .inl ⟨rfl, fun _ _ h => by cases h⟩
  | ok found =>
      cases found with
      | none => exact .inl ⟨rfl, fun _ _ h => by cases h⟩
      | some x => exact .inr ⟨x.1, x.2, rfl, rfl⟩

theorem Placed.apply (h : p.Placed) (hop : p.InPlace op) : (p.apply op).Placed := by
  cases op with
  | other op => exact h
  | chunk env data =>
      rcases p.pullChunk_cases env data with ⟨hsame, -⟩ | ⟨th, c, hc, heq⟩
      · change (p.pullChunk env data).Placed
        rw [hsame]
        exact h
      · have hplaced : (p.append c).Placed := h.append fun offset hoffset => by
          rcases (hop th c hc).1 offset hoffset with rfl | hstands
          · exact standsAt_end
          · exact hstands
        change (p.pullChunk env data).Placed
        rw [heq]
        exact hplaced

theorem leavesOthers_of_inPlace (hop : p.InPlace op) : p.LeavesOthers op := by
  cases op with
  | other op => trivial
  | chunk env data =>
      intro th c hc c' hc' hne
      rcases p.pullChunk_cases env data with ⟨-, hnone⟩ | ⟨th', c₁, hc₁, heq⟩
      · exact absurd hc (hnone th c)
      · obtain ⟨rfl, rfl⟩ := Prod.mk.inj (Option.some.inj (Except.ok.inj (hc.symm.trans hc₁)))
        have hpath : c'.path ≠ c.path := fun hpath => hne ((hop th c hc).2 c' hc' hpath)
        rw [heq]
        exact Function.update_of_ne hpath _ _

/-- **Pulls are reassembled** in every state of a run in which each chunk begins where its file
ends, or finds its bytes at its offset, and each file gets the chunks of one host. -/
theorem reassembled (st : TransferStore) (ops : List PullOp)
    (h : Machine.Meets apply InPlace (started st) ops) :
    Machine.Meets apply Reassembles (started st) ops := by
  have hstarted : (started st).Placed := fun c hc => absurd hc List.not_mem_nil
  refine Machine.meets_of_invariant (P := Placed) (fun p op hp hop => ?_)
    (fun _ _ hp hop => hp.apply hop) hstarted h
  exact ⟨fun th _ _ c hc _ offset hoffset => hp.apply hop c hc offset hoffset,
    leavesOthers_of_inPlace hop⟩

end Runs

/-! ### A pull from two hosts -/

/-- The handler of the examples: the payload of a chunk is a list of small numbers. -/
def pullEnv : ChunkEnv where
  toTransferEnv := loneFrames.toTransferEnv
  storeDir := "/srv/store"
  strip := id
  b64decode
    | .str "aGk=" => pure [104, 105]
    | .str "IQ==" => pure [33]
    | .str "" => pure []
    | _ => throw .valueError
  opens _ := true

/-- A pull of the file from two hosts. -/
def pullingTwo : TransferStore :=
  ⟨[{ PushEnv.greetingTask with mode := "pull", sourceHostPath := some "/var/out/greet.txt" }],
    [⟨1, 1, 7, "transferring", 0, none, none, none, none⟩,
      ⟨2, 1, 8, "transferring", 0, none, none, none, none⟩], []⟩

/-- A chunk of a host. -/
def sent (transferHostId offset : ℤ) (payload : String) : PullOp :=
  .chunk pullEnv (.obj [("transfer_host_id", .int transferHostId), ("offset", .int offset),
    ("data", .str payload)])

/-- A host reports its success. -/
def reported (transferHostId : ℤ) : PullOp :=
  .other (.result loneFrames (.obj [("transfer_host_id", .int transferHostId)]))

/-- A chunk of the file, as it is written. -/
def written (transferHostId : ℕ) (offset : ℤ) (payload : List UInt8) : SentChunk :=
  ⟨transferHostId, "/srv/store/pull/1/greet.txt", some offset, payload⟩

/-- The server has the first chunk of the first host. -/
def afterFirst : PullServer := (started pullingTwo).apply (sent 1 0 "aGk=")

theorem afterFirst_chunks : afterFirst.chunks = [written 1 0 [104, 105]] := by decide +kernel

/-- A chunk that is written is in place where it begins at the end of its file, which is that of its
host. -/
theorem inPlace_written {p : PullServer} {env : ChunkEnv} {data : Json} (th : TransferHost)
    (i : ℕ) (offset : ℤ) (payload : List UInt8) (hi : th.id = i)
    (hc : chunkOf env p.store data = .ok (some (th, written i offset payload)))
    (hend : offset = (p.files "/srv/store/pull/1/greet.txt").length)
    (hown : ∀ c ∈ p.chunks, c.transferHostId = i) : p.InPlace (.chunk env data) := by
  intro th' c hc'
  obtain ⟨rfl, rfl⟩ := Prod.mk.inj (Option.some.inj (Except.ok.inj (hc.symm.trans hc')))
  refine ⟨fun offset' hoffset => .inl ?_, fun c' hmem _ => (hown c' hmem).trans hi.symm⟩
  rw [← Option.some.inj hoffset]
  exact hend

/-- Both chunks of one host, and its success. -/
theorem one_host_reassembled : Machine.Meets apply Reassembles (started pullingTwo)
    [sent 1 0 "aGk=", sent 1 2 "IQ==", reported 1] := by
  refine reassembled pullingTwo _ ⟨?_, ?_, trivial, trivial⟩
  · refine inPlace_written ⟨1, 1, 7, "transferring", 0, none, none, none, none⟩ 1 0 [104, 105] rfl
      (by decide +kernel) rfl ?_
    exact fun c hc => absurd hc List.not_mem_nil
  · change afterFirst.InPlace _
    refine inPlace_written ⟨1, 1, 7, "transferring", 2, none, none, none, none⟩ 1 2 [33] rfl
      (by decide +kernel) (by decide +kernel) ?_
    rw [afterFirst_chunks]
    exact fun c hc => List.mem_singleton.mp hc ▸ rfl

/-- **Two hosts.** The chunks of the second host are appended behind those of the first one. -/
theorem two_hosts_one_file : ¬ Machine.Meets apply Reassembles (started pullingTwo)
    [sent 1 0 "aGk=", sent 2 0 "aGk="] := by
  rintro ⟨-, ⟨-, hleaves⟩, -⟩
  have hfile : (afterFirst.apply (sent 2 0 "aGk=")).files "/srv/store/pull/1/greet.txt" ≠
      afterFirst.files "/srv/store/pull/1/greet.txt" := by
    decide +kernel
  have hc : chunkOf pullEnv afterFirst.store (.obj [("transfer_host_id", .int 2),
      ("offset", .int 0), ("data", .str "aGk=")]) =
        .ok (some (⟨2, 1, 8, "transferring", 0, none, none, none, none⟩,
          written 2 0 [104, 105])) := by
    decide +kernel
  refine hfile (hleaves _ _ hc (written 1 0 [104, 105]) ?_ (by decide))
  change _ ∈ afterFirst.chunks
  rw [afterFirst_chunks]
  exact List.mem_singleton_self _

end PullServer

end LarkPlat.Transfers
