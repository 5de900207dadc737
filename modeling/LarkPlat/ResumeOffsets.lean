import LarkPlat.Machine
import LarkPlat.TransferFrames

/-!
# Where a Push Goes On

A host has one cursor. An ack of a chunk sets it, whatever file the chunk is of, and a dispatch
starts every file of the package at it. The reset of a host for a retry leaves it. So a file may be
started behind bytes that the host has not acknowledged, and a file whose verification failed is not
sent again from its beginning.

An ack does not name its file. The agent knows it, and here an operation carries it beside the
frame.

## Main results

* `cursors_follow`: in every state of a run, the cursor of a host is the offset of its latest ack.
* `resumes_covered`: a dispatch starts each file within the bytes of it that the host has
  acknowledged, and at 0 after a failed verification, in every run in which this is so for the
  offset of the latest ack.
* `failed_file_resumed`: after a failed verification, a push goes on behind its first chunk.
-/

namespace LarkPlat.Transfers

open Outcomes

/-! ### Acknowledged bytes -/

/-- A chunk of a file that a host has acknowledged. -/
structure AckedChunk where
  transferHostId : ℤ
  path : String
  offset : ℤ
  bytes : ℤ
  deriving DecidableEq

/-- The chunk of a frame that the handler of acks takes. -/
def ackOf (path : String) (data : Json) : Except PyErr AckedChunk := do
  let i ← hostIdOf data
  let offset ← intField data "offset" >>= bigInteger
  pure ⟨i, path, offset, (intField data "bytes").toOption.getD 0⟩

/-- The offset of the latest ack of a host; the newest ack stands first. -/
def latestAck (acks : List AckedChunk) (transferHostId : ℕ) : ℤ :=
  let latest := acks.find? fun a => decide (a.transferHostId = (transferHostId : ℤ))
  (latest.map AckedChunk.offset).getD 0

/-- The host has acknowledged the first `n` bytes of the file. -/
def Acknowledged (acks : List AckedChunk) (transferHostId : ℕ) (path : String) (n : ℤ) : Prop :=
  ∀ k : ℕ, k < n → ∃ a ∈ acks, a.transferHostId = transferHostId ∧ a.path = path ∧
    a.offset ≤ k ∧ k < a.offset + a.bytes

/-! ### Histories of a push -/

/-- An operation on the rows of transfers. -/
inductive TransferOp where
  | dispatch (env : FrameEnv) (taskId : ℕ)
  /-- An ack of a chunk of the file at the path. -/
  | ack (env : FrameEnv) (path : String) (data : Json)
  | result (env : FrameEnv) (data : Json)
  | sourceMissing (env : FrameEnv) (transferHostId : ℕ)
  | retry (env : FrameEnv) (user : Actor) (taskId transferHostId : ℕ)
  | stop (env : FrameEnv) (user : Actor) (taskId : ℕ)

/-- The tables, with the acks so far, and the outcome from which each host was reset last. -/
structure PushHistory where
  store : TransferStore
  acks : List AckedChunk
  outcome : ℕ → Option String

namespace PushHistory

/-- A history that begins. -/
def started (st : TransferStore) : PushHistory := ⟨st, [], fun _ => none⟩

/-- The outcomes after a retry, which returns or not. -/
def outcomesAfter (p : PushHistory) (env : FrameEnv) (user : Actor) (taskId i : ℕ) :
    ℕ → Option String :=
  match retryHost env user taskId i (.opened p.store) with
  | .ok _ => Function.update p.outcome i ((hostById p.store i).map TransferHost.status)
  | .error _ => p.outcome

/-- An operation. -/
def apply (p : PushHistory) : TransferOp → PushHistory
  | .dispatch env taskId =>
      { p with store := after (transferDispatch env.toTransferEnv taskId) p.store }
  | .ack env path data =>
      { p with store := after (chunkAck env data) p.store
               acks := (ackOf path data).toOption.toList ++ p.acks }
  | .result env data => { p with store := after (transferResult env data) p.store }
  | .sourceMissing env i => { p with store := after (sourceMissing env i) p.store }
  | .retry env user taskId i =>
      { p with store := after (retryHost env user taskId i) p.store
               outcome := p.outcomesAfter env user taskId i }
  | .stop env user taskId => { p with store := after (stopTask env user taskId) p.store }

/-- A start offset of a file lies within the bytes that the host has acknowledged, and it is 0 when
the verification of the host has failed. -/
def SafeOffset (p : PushHistory) (i : ℕ) (path : String) (offset : ℤ) : Prop :=
  0 ≤ offset ∧ Acknowledged p.acks i path offset ∧
    (p.outcome i = some "verify_failed" → offset = 0)

/-- A dispatch of a push task starts each file at a safe offset. -/
def ResumesCovered (p : PushHistory) : TransferOp → Prop
  | .dispatch env taskId =>
      ∀ task, p.store.task? taskId = some task → task.mode = "push" →
        ∀ h ∈ handoversOf (transferDispatch env.toTransferEnv taskId) p.store,
          p.SafeOffset h.transferHostId h.path h.offset
  | _ => True

/-- When a push task is dispatched, the offset of the latest ack of each pending host that has a
channel is safe for every file of the package. -/
def InStep (p : PushHistory) : TransferOp → Prop
  | .dispatch env taskId =>
      ∀ task, p.store.task? taskId = some task → task.mode = "push" →
        ∀ th, IsPending p.store taskId th → resolveChannel env.toTransferEnv th ≠ none →
          ∀ item ∈ env.items, task.packageId = some item.packageId →
            p.SafeOffset th.id item.relPath (latestAck p.acks th.id)
  | _ => True

end PushHistory

/-! ### Programs that leave the cursors -/

/-- The cursors of the hosts. -/
def CursorsAre (c : ℕ → ℤ) (st : TransferStore) : Prop := ∀ h ∈ st.hosts, h.currentOffset = c h.id

theorem CursorsAre.updateHost {c : ℕ → ℤ} {st : TransferStore} (h : CursorsAre c st) (i : ℕ)
    {f : TransferHost → TransferHost} (hf : LeavesCursor f) : CursorsAre c (st.updateHost i f) := by
  intro row hrow
  obtain ⟨row, hmem, rfl⟩ := List.mem_map.mp hrow
  split_ifs
  · obtain ⟨hid, -, -, hcursor⟩ := hf row
    rw [hcursor, hid, h row hmem]
  · exact h row hmem

variable {c : ℕ → ℤ} {st : TransferStore} {α : Type} {x : TransferM α} {taskId : ℕ}

/-- What the statements of a pass leave: the cursors, and frames of `D`. -/
theorem stable_cursors (env : TransferEnv) (D : Handover → Prop) (c : ℕ → ℤ) :
    Stable env D
      (fun s => CursorsAre c s.committed ∧ CursorsAre c s.store ∧ ∀ h ∈ s.handovers, D h)
      (fun f => CursorsAre c f.committed ∧ ∀ h ∈ f.handovers, D h) where
  raised _ h := ⟨h.1, h.2.2⟩
  append _ _ _ h := h
  host i _ hf h := ⟨h.1, h.2.1.updateHost i hf, h.2.2⟩
  task _ _ h := ⟨h.1, h.2.1, h.2.2⟩
  commit _ h := ⟨h.2.1, h.2.1, h.2.2⟩
  delivered frame hD h := by
    refine ⟨h.1, h.2.1, fun h' hmem => ?_⟩
    obtain hmem | hmem := List.mem_append.mp hmem
    · exact h.2.2 h' hmem
    · exact List.mem_singleton.mp hmem ▸ hD
  handed _ h := h

theorem after_of_ends {Q : TransferStore → Prop}
    (h : Ends (x (.opened st)) (fun _ s => Q s.committed) fun f => Q f.committed) :
    Q (after x st) := by
  rw [after]
  revert h
  rcases x (.opened st) with f | ⟨a, s⟩ <;> exact id

theorem handovers_of_ends {D : Handover → Prop}
    (h : Ends (x (.opened st)) (fun _ s => ∀ h ∈ s.handovers, D h)
      fun f => ∀ h ∈ f.handovers, D h) :
    ∀ h ∈ handoversOf x st, D h := by
  rw [handoversOf]
  revert h
  rcases x (.opened st) with f | ⟨a, s⟩ <;> exact id

theorem cursors_after {env : TransferEnv} (h : CursorsAre c st)
    (hx : ∀ {P E}, Stable env (fun _ => True) P E → Maintains P E x) :
    CursorsAre c (after x st) := by
  have hends := (hx (stable_cursors env (fun _ => True) c)).ends (.opened st)
    ⟨h, h, fun _ _ => trivial⟩
  exact after_of_ends (hends.mono (fun _ _ hs => hs.1) fun _ hf => hf.1)

theorem cursors_dispatch (env : TransferEnv) (taskId : ℕ) (h : CursorsAre c st) :
    CursorsAre c (after (transferDispatch env taskId) st) := by
  refine after_of_ends (((stable_cursors env (fun _ => True) c).transferDispatch ?_ ?_).mono
    (fun _ _ hs => hs.1) fun _ hf => hf.1)
  · exact fun _ _ _ _ _ _ => trivial
  · exact ⟨h, h, fun _ _ => trivial⟩

/-- The frames of a dispatch announce files of the package to hosts that are pending and have a
channel, each at the cursor of its host. -/
theorem handovers_dispatch (env : TransferEnv) {task : TransferTask} (h : CursorsAre c st)
    (htask : st.task? taskId = some task) (hmode : task.mode = "push") :
    ∀ frame ∈ handoversOf (transferDispatch env taskId) st, ∃ th, IsPending st taskId th ∧
      resolveChannel env th ≠ none ∧ ∃ item ∈ env.items, task.packageId = some item.packageId ∧
        frame = ⟨th.id, item.relPath, c th.id⟩ := by
  refine handovers_of_ends (((stable_cursors env _ c).transferDispatch ?_ ?_).mono
    (fun _ _ hs => hs.2.2) fun _ hf => hf.2)
  · rintro task' th frame htask' hpending hoffered
    obtain rfl : task = task' := Option.some.inj (htask.symm.trans htask')
    cases hoffered with
    | push hchannel hmem _ hpackage =>
        exact ⟨th, hpending, hchannel, _, hmem, hpackage, by rw [h th hpending.1]⟩
    | fetch _ hmode' => exact absurd hmode hmode'
  · exact ⟨h, h, fun _ hmem => absurd hmem List.not_mem_nil⟩

/-! ### Acks -/

theorem latestAck_cons_self {a : AckedChunk} {i : ℕ} (h : a.transferHostId = i)
    (acks : List AckedChunk) : latestAck (a :: acks) i = a.offset := by
  rw [latestAck, List.find?_cons_of_pos]
  · rfl
  · exact decide_eq_true h

theorem latestAck_cons_ne {a : AckedChunk} {i : ℕ} (h : a.transferHostId ≠ i)
    (acks : List AckedChunk) : latestAck (a :: acks) i = latestAck acks i := by
  rw [latestAck, latestAck, List.find?_cons_of_neg]
  exact fun hd => h (of_decide_eq_true hd)

theorem id_of_hostById {i : ℤ} {th : TransferHost} (h : hostById st i = some th) :
    (th.id : ℤ) = i := by
  have hd := List.find?_some h
  exact of_decide_eq_true hd

theorem CursorsAre.ack_none {acks : List AckedChunk} (h : CursorsAre (latestAck acks) st)
    {a : AckedChunk} (hnone : hostById st a.transferHostId = none) :
    CursorsAre (latestAck (a :: acks)) st := by
  intro row hrow
  have hne : a.transferHostId ≠ row.id := fun heq => by
    have := List.find?_eq_none.mp hnone row hrow
    exact this (decide_eq_true heq.symm)
  rw [latestAck_cons_ne hne, h row hrow]

theorem CursorsAre.ack_some {acks : List AckedChunk} (h : CursorsAre (latestAck acks) st)
    {a : AckedChunk} {th : TransferHost} (hth : hostById st a.transferHostId = some th)
    (status : String) :
    CursorsAre (latestAck (a :: acks)) (st.updateHost th.id fun h =>
      { h with status := status, currentOffset := a.offset }) := by
  have hid : a.transferHostId = th.id := (id_of_hostById hth).symm
  intro row hrow
  obtain ⟨row, hmem, rfl⟩ := List.mem_map.mp hrow
  split_ifs with heq
  · exact (latestAck_cons_self (by rw [hid, ← heq]) acks).symm
  · rw [latestAck_cons_ne fun h => heq (by rw [hid] at h; exact_mod_cast h.symm)]
    exact h row hmem

theorem ackOf_eq (path : String) {data : Json} {i offset : ℤ} (hid : hostIdOf data = .ok i)
    (hoffset : (intField data "offset" >>= bigInteger) = .ok offset) :
    ackOf path data = .ok ⟨i, path, offset, (intField data "bytes").toOption.getD 0⟩ := by
  rw [ackOf, hid]
  change ((intField data "offset" >>= bigInteger) >>= _) = _
  rw [hoffset]
  rfl

theorem ackOf_error (path : String) {data : Json} {i : ℤ} {e : PyErr}
    (hid : hostIdOf data = .ok i) (hoffset : (intField data "offset" >>= bigInteger) = .error e) :
    ackOf path data = .error e := by
  rw [ackOf, hid]
  change ((intField data "offset" >>= bigInteger) >>= _) = _
  rw [hoffset]
  rfl

theorem advanceCursor_ends (env : FrameEnv) (path : String) {data : Json} {i : ℤ}
    (hid : hostIdOf data = .ok i) {th : TransferHost} (hth : hostById st i = some th)
    {acks : List AckedChunk} (h : CursorsAre (latestAck acks) st) :
    Ends (advanceCursor env th data (.opened st))
      (fun _ s => CursorsAre (latestAck ((ackOf path data).toOption.toList ++ acks)) s.committed)
      fun f => CursorsAre (latestAck ((ackOf path data).toOption.toList ++ acks)) f.committed := by
  rw [advanceCursor]
  cases hoffset : intField data "offset" >>= bigInteger with
  | error e =>
      rw [ackOf_error path hid hoffset]
      exact h
  | ok offset =>
      rw [ackOf_eq path hid hoffset]
      refine ends_bind (Q := fun a s => offset = a ∧ s = .opened st) ⟨rfl, rfl⟩ ?_
      rintro _ _ ⟨rfl, rfl⟩
      refine ends_bind (ends_modify (Q := fun _ s => s = _) rfl) ?_
      rintro _ _ rfl
      set a : AckedChunk := ⟨i, path, offset, (intField data "bytes").toOption.getD 0⟩
      refine ends_bind (Q := fun _ s => CursorsAre (latestAck (a :: acks)) s.committed) ?_ ?_
      · rw [commit_clean rfl]
        exact h.ack_some (a := a) hth th.status
      · rintro _ s hs
        cases intField data "bytes" with
        | error e => exact hs
        | ok bytes => exact hs

/-- **An ack** sets the cursor of its host, if the handler takes it. -/
theorem cursors_ack (env : FrameEnv) (path : String) (data : Json) {acks : List AckedChunk}
    (h : CursorsAre (latestAck acks) st) :
    CursorsAre (latestAck ((ackOf path data).toOption.toList ++ acks))
      (after (chunkAck env data) st) := by
  refine after_of_ends ?_
  rw [chunkAck]
  cases hid : hostIdOf data with
  | error e =>
      have hack : ackOf path data = .error e := by
        rw [ackOf, hid]
        rfl
      rw [hack]
      exact h
  | ok i =>
      refine ends_bind (Q := fun a s => i = a ∧ s = .opened st) ⟨rfl, rfl⟩ ?_
      rintro _ _ ⟨rfl, rfl⟩
      refine ends_bind (ends_get (Q := fun a s => a = .opened st ∧ s = .opened st) ⟨rfl, rfl⟩) ?_
      rintro _ _ ⟨rfl, rfl⟩
      change Ends (ackHost env data (hostById st i) (.opened st)) _ _
      cases hth : hostById st i with
      | none =>
          cases hoffset : intField data "offset" >>= bigInteger with
          | error e =>
              rw [ackOf_error path hid hoffset]
              exact h
          | ok offset =>
              rw [ackOf_eq path hid hoffset]
              exact h.ack_none hth
      | some th => exact advanceCursor_ends env path hid hth h

/-! ### Runs -/

namespace PushHistory

/-- The cursor of each host is the offset of its latest ack. -/
def CursorsFollow (p : PushHistory) : Prop := CursorsAre (latestAck p.acks) p.store

/-- **The cursors follow the acks** in every state of a run. -/
theorem cursors_follow {p : PushHistory} (h : p.CursorsFollow) (op : TransferOp) :
    (p.apply op).CursorsFollow := by
  cases op with
  | dispatch env taskId => exact cursors_dispatch env.toTransferEnv taskId h
  | ack env path data => exact cursors_ack env path data h
  | result env data => exact cursors_after h fun hs => hs.transferResult data
  | sourceMissing env i => exact cursors_after h fun hs => hs.sourceMissing i
  | retry env user taskId i => exact cursors_after h fun hs => hs.retryHost user taskId i
  | stop env user taskId => exact cursors_after h fun hs => hs.stopTask user taskId

theorem resumesCovered_of_inStep {p : PushHistory} (h : p.CursorsFollow) {op : TransferOp}
    (hop : p.InStep op) : p.ResumesCovered op := by
  cases op with
  | dispatch env taskId =>
      intro task htask hmode frame hframe
      obtain ⟨th, hpending, hchannel, item, hmem, hpackage, rfl⟩ :=
        handovers_dispatch env.toTransferEnv h htask hmode frame hframe
      exact hop task htask hmode th hpending hchannel item hmem hpackage
  | _ => trivial

/-- **Resume covers every file.** From rows whose cursors are 0, every dispatch of a push task
starts each file within the bytes of it that the host has acknowledged, and at 0 after a failed
verification, in every run in which this is so for the offset of the latest ack of the host. -/
theorem resumes_covered (st : TransferStore) (hst : ∀ th ∈ st.hosts, th.currentOffset = 0)
    (ops : List TransferOp) (h : Machine.Meets apply InStep (started st) ops) :
    Machine.Meets apply ResumesCovered (started st) ops := by
  have himp (p : PushHistory) (op : TransferOp) (hp : p.CursorsFollow) :
      p.InStep op → p.ResumesCovered op := resumesCovered_of_inStep hp
  have hstarted : (started st).CursorsFollow := hst
  exact Machine.meets_of_invariant himp (fun _ op hp _ => cursors_follow hp op) hstarted h

/-! ### A push of one file -/

/-- The agent `web-1` of host 7 is online and takes what it is sent. -/
def loneFrames : FrameEnv where
  bindings := [⟨7, some "web-1"⟩]
  items := [PushEnv.greetingItem]
  whitelistRule := none
  agentOnline _ _ := true
  gateway _ _ := PushEnv.greetingEnv
  now n := n
  lower := String.toLower
  errorColumn
    | .null => pure none
    | v => pure (some v.pyStr)
  pullStorePath taskId _ := "/srv/pull/" ++ toString taskId

/-- A pending transfer of the file to host 7. -/
def freshPush : TransferStore :=
  ⟨[PushEnv.greetingTask], [⟨1, 1, 7, "pending", 0, none, none, none, none⟩], []⟩

/-- The user who may retry the transfers of the task. -/
def transferAdmin : Actor := ⟨1, true, [], fun _ => true⟩

/-- The ack of a chunk of the file. -/
def greetingAck (offset bytes : ℤ) : TransferOp :=
  .ack loneFrames "greet.txt"
    (.obj [("transfer_host_id", .int 1), ("offset", .int offset), ("bytes", .int bytes)])

/-- Both chunks are acknowledged, the transfer ends with a status, and the host is retried. -/
def retriedAfter (status : String) : List TransferOp :=
  [.dispatch loneFrames 1, greetingAck 0 2, greetingAck 2 1,
    .result loneFrames (.obj [("transfer_host_id", .int 1), ("status", .str status)]),
    .retry loneFrames transferAdmin 1 1, .dispatch loneFrames 1]

/-- The state before the second dispatch. -/
def beforeRetry (status : String) : PushHistory :=
  Machine.run apply (started freshPush) ((retriedAfter status).take 5)

theorem beforeRetry_acks (status : String) :
    (beforeRetry status).acks = [⟨1, "greet.txt", 2, 1⟩, ⟨1, "greet.txt", 0, 2⟩] := rfl

theorem beforeRetry_safe (i : ℕ) :
    (beforeRetry "failed").SafeOffset i "greet.txt" (latestAck (beforeRetry "failed").acks i) := by
  rw [beforeRetry_acks]
  by_cases hi : i = 1
  · subst hi
    refine ⟨by decide, fun k hk => ?_, ?_⟩
    · exact ⟨⟨1, "greet.txt", 0, 2⟩, List.mem_cons_of_mem _ (List.mem_singleton_self _), rfl, rfl,
        Int.natCast_nonneg k, hk⟩
    · intro hfailed
      have houtcome : (beforeRetry "failed").outcome 1 = some "failed" := by decide +kernel
      rw [houtcome] at hfailed
      exact absurd hfailed (by decide)
  · have hne : (1 : ℤ) ≠ i := fun h => hi (by exact_mod_cast h.symm)
    have hlatest : latestAck [⟨1, "greet.txt", 2, 1⟩, ⟨1, "greet.txt", 0, 2⟩] i = 0 := by
      rw [latestAck_cons_ne hne, latestAck_cons_ne hne]
      rfl
    rw [hlatest]
    exact ⟨le_rfl, fun k hk => absurd (Int.natCast_nonneg k) (not_le.mpr hk), fun _ => rfl⟩

/-- After a failure the push goes on behind the first chunk, and both chunks are acknowledged. -/
theorem failed_push_covered :
    Machine.Meets apply ResumesCovered (started freshPush) (retriedAfter "failed") := by
  refine resumes_covered freshPush ?_ _ ⟨?_, trivial, trivial, trivial, trivial, ?_, trivial⟩
  · exact fun th hth => List.mem_singleton.mp hth ▸ rfl
  · exact fun _ _ _ th _ _ item _ _ =>
      ⟨le_rfl, fun k hk => absurd (Int.natCast_nonneg k) (not_le.mpr hk), fun _ => rfl⟩
  · intro _ _ _ th _ _ item hitem _
    obtain rfl := List.mem_singleton.mp hitem
    exact beforeRetry_safe th.id

/-- After a failed verification the push goes on behind the first chunk, and not from the start. -/
theorem failed_file_resumed :
    ¬ Machine.Meets apply ResumesCovered (started freshPush) (retriedAfter "verify_failed") := by
  rintro ⟨-, -, -, -, -, hcovered, -⟩
  have hoffset : (⟨1, "greet.txt", 2⟩ : Handover) ∈ handoversOf
      (transferDispatch loneFrames.toTransferEnv 1) (beforeRetry "verify_failed").store := by
    decide +kernel
  have hmode : ((beforeRetry "verify_failed").store.task? 1).map TransferTask.mode =
      some "push" := by
    decide +kernel
  obtain ⟨task, htask, hpush⟩ := Option.map_eq_some_iff.mp hmode
  have houtcome : (beforeRetry "verify_failed").outcome 1 = some "verify_failed" := by
    decide +kernel
  have hzero := (hcovered task htask hpush _ hoffset).2.2 houtcome
  exact absurd hzero (by decide)

end PushHistory

end LarkPlat.Transfers
