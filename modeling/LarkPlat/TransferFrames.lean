import LarkPlat.Terminals
import LarkPlat.TransferRules

/-!
# Calls and Frames of Transfers

Besides the dispatch, the rows of a transfer are changed by the frames of the agents, by the calls
of users and by the thread that streams a file. Each is a program on a session of its own.
-/

namespace LarkPlat

/-- What the handlers meet besides the tables. -/
structure FrameEnv extends TransferEnv where
  /-- `str.lower`. -/
  lower : String → String
  /-- The column `error` takes a value, or the driver raises. -/
  errorColumn : Json → Except PyErr (Option String)
  /-- `_pull_store_path`. -/
  pullStorePath : ℕ → Option String → String

namespace Transfers

/-- `data.get(k, default)`. -/
def getOr (data : Json) (k : String) (default : Json) : Except PyErr Json :=
  match data with
  | .obj fields => pure ((fields.lookup k).getD default)
  | _ => throw .attributeError

/-- `int(data.get(k, 0))`. -/
def intField (data : Json) (k : String) : Except PyErr ℤ := do
  Json.toInt (← getOr data k (.int 0))

/-- `int(data["transfer_host_id"])`. -/
def hostIdOf (data : Json) : Except PyErr ℤ := do
  Json.toInt (← data.index "transfer_host_id")

/-- A value for a column of 64-bit integers. -/
def bigInteger (n : ℤ) : Except PyErr ℤ :=
  if -(2 ^ 63) ≤ n ∧ n < 2 ^ 63 then pure n else throw .valueError

/-- `TransferHostRepository.by_id`. -/
def hostById (st : TransferStore) (i : ℤ) : Option TransferHost :=
  st.hosts.find? fun h => decide ((h.id : ℤ) = i)

variable (env : FrameEnv)

/-- What `_transfer_chunk_ack` stores: the cursor of the host. -/
def advanceCursor (th : TransferHost) (data : Json) : TransferM Unit := do
  let offset ← attempt (intField data "offset" >>= bigInteger)
  execute fun st => st.updateHost th.id fun h =>
    { h with status := th.status, currentOffset := offset }
  commit env.toTransferEnv
  let _ ← attempt (intField data "bytes")

/-- `_transfer_chunk_ack`, of the host that is found. -/
def ackHost (data : Json) : Option TransferHost → TransferM Unit
  | none => pure ()
  | some th => advanceCursor env th data

/-- `_transfer_chunk_ack`. -/
def chunkAck (data : Json) : TransferM Unit := do
  let i ← attempt (hostIdOf data)
  let s ← get
  ackHost env data (hostById s.store i)

/-- `_expected_sha256`. -/
def expectedSha256 (task : TransferTask) : Option String :=
  match task.packageId with
  | none => none
  | some packageId =>
      if task.mode = "push" ∧ packageId ≠ 0 then
        match env.items.filter fun i => decide (i.packageId = packageId) with
        | [item] => some item.sha256
        | _ => none
      else none

/-- The outcome of a transfer in a `file_result` frame. -/
structure Outcome where
  status : String
  sha256 : String
  error : Json

/-- The status of an outcome, among those that are taken. -/
def resultStatus : Json → String
  | .str status =>
      if status ∈ ["success", "failed", "verify_failed", "canceled"] then status else "failed"
  | _ => "failed"

/-- The outcome that `_transfer_result` reads, with the checksum of the agent compared to the one
that is expected. -/
def outcomeOf (task : TransferTask) (data : Json) : Except PyErr Outcome := do
  let status ← getOr data "status" (.str "success")
  let sha256 ←
    match (← data.get "sha256").pyOr (.str "") with
    | .str s => pure (env.lower s)
    | _ => throw .attributeError
  let error ← data.get "error"
  match expectedSha256 env task with
  | none => pure ⟨resultStatus status, sha256, error⟩
  | some expected =>
      if task.verify ≠ 0 ∧ sha256 ≠ "" ∧ expected ≠ "" ∧ sha256 ≠ env.lower expected then
        pure ⟨"verify_failed", sha256,
          .str ("sha256 mismatch (expect " ++ expected ++ ", got " ++ sha256 ++ ")")⟩
      else pure ⟨resultStatus status, sha256, error⟩

/-- A checksum for the column `verify_sha256`, which takes 64 characters. -/
def checksumColumn (sha256 : String) : Except PyErr (Option String) :=
  if 64 < sha256.length then throw .valueError
  else pure (if sha256 = "" then none else some sha256)

/-- What `_transfer_result` stores, and the aggregation of the task. -/
def storeOutcome (task : TransferTask) (th : TransferHost) (outcome : Outcome) :
    TransferM Unit := do
  let sha256 ← attempt (checksumColumn outcome.sha256)
  let error ← attempt (env.errorColumn outcome.error)
  let s ← get
  execute fun st => st.updateHost th.id fun h =>
    { h with
      status := outcome.status, verifySha256 := sha256, error := error,
      finishedAt := some (env.now s.commits) }
  commit env.toTransferEnv
  let _ ← maybeFinalize env.toTransferEnv task

/-- `_transfer_result`, of a host and its task. -/
def finishHost (task : TransferTask) (th : TransferHost) (data : Json) : TransferM Unit := do
  let outcome ← attempt (outcomeOf env task data)
  if task.mode = "pull" ∧ outcome.status = "success" then
    appendLog th ("pulled to " ++ env.pullStorePath task.id task.sourceHostPath) "info"
  storeOutcome env task th outcome

/-- `_transfer_result`. -/
def transferResult (data : Json) : TransferM Unit := do
  let i ← attempt (hostIdOf data)
  let s ← get
  match hostById s.store i with
  | none => pure ()
  | some th =>
      match s.store.task? th.transferTaskId with
      | none => pure ()
      | some task => finishHost env task th data

/-- `_stream_chunks_async` finds no file to stream. -/
def sourceMissing (transferHostId : ℕ) : TransferM Unit := do
  execute fun st => st.updateHost transferHostId fun h => { h with status := "failed" }
  commit env.toTransferEnv

/-- The task of a call of a user who may change it. -/
def ownTask (user : Actor) (perm denied : String) (taskId : ℕ) : TransferM TransferTask := do
  attempt (user.requirePerm perm)
  let s ← get
  match s.store.task? taskId with
  | none => attempt (throw (.notFound "task not found"))
  | some task =>
      if user.isAdmin = true ∨ task.createdBy = some user.id then pure task
      else attempt (throw (.forbidden denied))

/-- `optimistic_update` with the attributes that follow it. -/
def moveTask (task : TransferTask) (status : String) (finishedAt : Option ℚ) : TransferM Unit := do
  let s ← get
  if ∃ t ∈ s.store.tasks, t.id = task.id ∧ t.status = task.status ∧ t.version = task.version then
    execute fun st => st.updateTask task.id fun t =>
      { t with status := status, version := task.version + 1, finishedAt := finishedAt }
  else attempt (throw (.conflict "task state changed concurrently"))

/-- The statuses from which a host is retried. -/
def retryable : List String := ["failed", "verify_failed", "degraded", "canceled"]

/-- The reset of a host that is retried. -/
def resetHost (task : TransferTask) (th : TransferHost) : TransferM Unit := do
  if task.status ≠ "processing" then moveTask task "processing" none
  execute fun st => st.updateHost th.id fun h =>
    { h with status := "pending", error := none, verifySha256 := none, finishedAt := none }
  commit env.toTransferEnv

/-- `retry_host`, up to the dispatch that it starts. -/
def retryHost (user : Actor) (taskId transferHostId : ℕ) : TransferM Unit := do
  let task ← ownTask user "transfer:task:retry" "no permission to retry this task" taskId
  let s ← get
  match hostById s.store transferHostId with
  | none => attempt (throw (.notFound "task host not found"))
  | some th =>
      if th.transferTaskId ≠ taskId then attempt (throw (.notFound "task host not found"))
      else if th.status ∉ retryable then attempt (throw (.badRequest "host not retryable"))
      else resetHost env task th

/-- The loop of `stop_task`. -/
def cancelHosts (t : ℚ) : List TransferHost → TransferM Unit
  | [] => pure ()
  | th :: ths => do
      if th.status ∈ ["pending", "pulling", "transferring", "verifying"] then
        execute fun st => st.updateHost th.id fun h =>
          { h with status := "canceled", finishedAt := some t }
      cancelHosts t ths

/-- `stop_task`. -/
def stopTask (user : Actor) (taskId : ℕ) : TransferM Unit := do
  let task ← ownTask user "transfer:task:stop" "no permission to stop this task" taskId
  if task.status ≠ "processing" then attempt (throw (.badRequest "task not processing"))
  else
    let s ← get
    moveTask task "canceled" (some (env.now s.commits))
    cancelHosts (env.now s.commits) (s.store.hostsOfTask taskId)
    commit env.toTransferEnv

/-! ### Programs and tables -/

/-- The tables after a program, which may raise. -/
def after {α : Type} (x : TransferM α) (st : TransferStore) : TransferStore :=
  match x (.opened st) with
  | .ok (_, s) => s.committed
  | .error f => f.committed

/-- The frames that a program delivers. -/
def handoversOf {α : Type} (x : TransferM α) (st : TransferStore) : List Handover :=
  match x (.opened st) with
  | .ok (_, s) => s.handovers
  | .error f => f.handovers

/-! ### Invariants of the programs -/

namespace Stable

open Outcomes

variable {env : FrameEnv} {D : Handover → Prop} {P : TransferSession → Prop}
  {E : TransferFailure → Prop} (h : Stable env.toTransferEnv D P E)

include h

theorem storeOutcome (task : TransferTask) (th : TransferHost) (outcome : Outcome) :
    Maintains P E (storeOutcome env task th outcome) := by
  refine (h.attempt _).bind fun sha256 => (h.attempt _).bind fun error => ?_
  refine maintains_get.bind fun s => (h.updateHost th.id ?_).bind fun _ => ?_
  · exact fun _ => ⟨rfl, rfl, rfl, rfl⟩
  · exact h.commitAll.bind fun _ => (h.maybeFinalize task).bind fun _ => maintains_pure ()

theorem finishHost (task : TransferTask) (th : TransferHost) (data : Json) :
    Maintains P E (finishHost env task th data) := by
  refine (h.attempt _).bind fun outcome => ?_
  split_ifs
  · exact (h.appendLog ..).bind fun _ => h.storeOutcome task th outcome
  · exact h.storeOutcome task th outcome

theorem transferResult (data : Json) : Maintains P E (transferResult env data) := by
  refine (h.attempt _).bind fun i => maintains_get.bind fun s => ?_
  cases hostById s.store i with
  | none => exact maintains_pure ()
  | some th =>
      dsimp only
      cases s.store.task? th.transferTaskId with
      | none => exact maintains_pure ()
      | some task => exact h.finishHost task th data

theorem sourceMissing (i : ℕ) : Maintains P E (sourceMissing env i) := by
  refine (h.updateHost i ?_).bind fun _ => h.commitAll
  exact fun _ => ⟨rfl, rfl, rfl, rfl⟩

theorem ownTask (user : Actor) (perm denied : String) (taskId : ℕ) :
    Maintains P E (ownTask user perm denied taskId) := by
  refine (h.attempt _).bind fun _ => maintains_get.bind fun s => ?_
  cases s.store.task? taskId with
  | none => exact h.attempt _
  | some task =>
      dsimp only
      split_ifs
      · exact maintains_pure _
      · exact h.attempt _

theorem moveTask (task : TransferTask) (status : String) (finishedAt : Option ℚ) :
    Maintains P E (moveTask task status finishedAt) := by
  refine maintains_get.bind fun s => ?_
  split_ifs
  · exact maintains_modify fun _ => h.task _ _
  · exact h.attempt _

theorem resetHost (task : TransferTask) (th : TransferHost) :
    Maintains P E (resetHost env task th) := by
  have hreset : Maintains P E (do
      execute fun st => st.updateHost th.id fun h =>
        { h with status := "pending", error := none, verifySha256 := none, finishedAt := none }
      Transfers.commit env.toTransferEnv) := by
    refine (h.updateHost th.id ?_).bind fun _ => h.commitAll
    exact fun _ => ⟨rfl, rfl, rfl, rfl⟩
  rw [Transfers.resetHost]
  split_ifs
  · exact (h.moveTask ..).bind fun _ => hreset
  · exact hreset

theorem retryHost (user : Actor) (taskId transferHostId : ℕ) :
    Maintains P E (retryHost env user taskId transferHostId) := by
  refine (h.ownTask ..).bind fun task => maintains_get.bind fun s => ?_
  cases hostById s.store transferHostId with
  | none => exact h.attempt _
  | some th =>
      dsimp only
      split_ifs
      · exact h.attempt _
      · exact h.resetHost task th
      · exact h.attempt _

theorem cancelHosts (t : ℚ) (ths : List TransferHost) : Maintains P E (cancelHosts t ths) := by
  induction ths with
  | nil => exact maintains_pure ()
  | cons th ths ih =>
      rw [Transfers.cancelHosts]
      split_ifs
      · refine (h.updateHost th.id ?_).bind fun _ => ih
        exact fun _ => ⟨rfl, rfl, rfl, rfl⟩
      · exact ih

theorem stopTask (user : Actor) (taskId : ℕ) : Maintains P E (stopTask env user taskId) := by
  refine (h.ownTask ..).bind fun task => ?_
  split_ifs
  · exact h.attempt _
  · refine maintains_get.bind fun s => (h.moveTask ..).bind fun _ => ?_
    exact (h.cancelHosts ..).bind fun _ => h.commitAll

end Stable

end Transfers

end LarkPlat
