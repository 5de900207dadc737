import LarkPlat.PullChunks
import LarkPlat.Table
import LarkPlat.TransferAggregates

/-!
# Workers, Threads, Frames and Calls of Transfers

The dispatch of a transfer, the threads that stream its files, the frames of its agents and the
calls of its users run interleaved over the same rows. A `TransferPool` holds the committed tables,
the queued dispatches and the activities under way; an operation is one transaction of an activity,
or the beginning of one.

A session keeps a row as it was read, also over its commits. So a dispatch walks over the hosts as
they were loaded, an ack writes back the status that it read, a stop writes the hosts that it read
as active, and the aggregation compares the task with the copy that its session loaded, however old.
Only the update of a task looks at the row again: it asks for the status and version of the copy.
The updates of hosts are by primary key.

An exception rolls back what is not committed and ends the activity, and so does the end of its
process: the activity breaks off. This can happen at any time; among others a commit fails when two
lines of the log have one key. The lines themselves are left out here.
-/

namespace LarkPlat

open Transfers

namespace TransferStore

/-- The committed status of a host. -/
def status? (st : TransferStore) (transferHostId : ℕ) : Option String :=
  (Table.find TransferHost.id st.hosts transferHostId).map TransferHost.status

/-- One `update_status` per listed host. -/
def updateHosts (st : TransferStore) (ids : List ℕ) (f : TransferHost → TransferHost) :
    TransferStore :=
  { st with hosts := st.hosts.map fun h => if h.id ∈ ids then f h else h }

/-- `TransferTaskRepository.optimistic_update`, with the attributes that are set after it. -/
def optimisticUpdate (st : TransferStore) (task : TransferTask) (fromStatus toStatus : String)
    (finishedAt : Option ℚ) : Option TransferStore :=
  if ∃ t ∈ st.tasks, t.id = task.id ∧ t.status = fromStatus ∧ t.version = task.version then
    some (st.updateTask task.id fun t =>
      { t with status := toStatus, version := task.version + 1, finishedAt := finishedAt })
  else none

end TransferStore

namespace Transfers

/-- What a transaction meets besides the tables. -/
structure PoolEnv extends FrameEnv, ChunkEnv where
  /-- What the thread that streams a file finds. -/
  disk : PushEnv
  /-- The broker takes a message. -/
  brokerUp : Bool
  /-- `task_has_inprocess_transfer`. -/
  inProcess : Bool

/-! ### Activities -/

/-- Where `_maybe_finalize` stands. -/
inductive Finalizing where
  | begun
  /-- The hosts were counted by their statuses, which makes for this status of the task. -/
  | counted (status : String)
  /-- No host was active. -/
  | inactive (status : String)
  deriving DecidableEq

/-- An activity under way, with what its session has read. -/
inductive Activity where
  /-- A `transfer_dispatch` that has read nothing. -/
  | dispatch (taskId : ℕ)
  /-- It has read the task as processed. -/
  | loading (task : TransferTask)
  /-- Its loop, over the hosts as they were loaded. -/
  | passing (task : TransferTask) (todo : List TransferHost)
  /-- It has claimed a host. -/
  | claimed (task : TransferTask) (th : TransferHost) (todo : List TransferHost)
  /-- It pushes the items of a package to a host, from position `k` on. -/
  | pushing (task : TransferTask) (th : TransferHost) (k : ℕ) (items : List FileItem)
      (todo : List TransferHost)
  /-- The aggregation at the end of a dispatch or of a result. -/
  | finalizing (task : TransferTask) (stage : Finalizing)
  /-- The thread of `_stream_chunks_async`. -/
  | streaming (th : TransferHost) (item : FileItem)
  /-- `_transfer_chunk_ack` has read the host. -/
  | acking (th : TransferHost) (data : Json)
  /-- `_transfer_pull_chunk` has read the host and written the bytes. -/
  | storing (th : TransferHost) (data : Json) (bytes : ℕ)
  /-- `_transfer_result` has read the host and its task. -/
  | finishing (task : TransferTask) (th : TransferHost) (data : Json)
  /-- `stop_task` has read the task as processed. -/
  | stopping (task : TransferTask)
  /-- It has read the hosts. -/
  | canceling (task : TransferTask) (rows : List TransferHost)
  /-- `retry_host` has read the task. -/
  | retrying (task : TransferTask) (transferHostId : ℕ)
  /-- It has read the host as one that may be retried. -/
  | resetting (task : TransferTask) (th : TransferHost)
  deriving DecidableEq

/-- What a transaction leaves: the tables, the activity if it goes on, the threads that it started
and the task whose dispatch it asks for. -/
structure Transacted where
  store : TransferStore
  goOn : Option Activity
  threads : List Activity
  kicked : Option ℕ

/-- The transaction changes the tables, and the activity goes on or ends. -/
def commits (st : TransferStore) (goOn : Option Activity) : Transacted := ⟨st, goOn, [], none⟩

/-- How a dispatch goes on with a host that it has claimed. -/
inductive Start where
  | mark (status error : String)
  | push (items : List FileItem)
  | fetched

/-- The items of a package. -/
def packageItems (env : TransferEnv) (packageId : ℕ) : List FileItem :=
  (env.items.filter fun i => decide (i.packageId = packageId)).mergeSort fun a b =>
    decide (a.id ≤ b.id)

/-- `_dispatch_host` after its claim, up to the first item of a push. -/
def startOf (env : TransferEnv) (task : TransferTask) (th : TransferHost) : Except PyErr Start :=
  if task.mode = "push" then
    match task.packageId with
    | none => pure (.mark "failed" "push task without package")
    | some packageId =>
        if packageItems env packageId = [] then pure (.mark "failed" "package has no files")
        else pure (.push (packageItems env packageId))
  else do
    if ← sourceAllowed env task then
      if fetch env th then pure .fetched
      else pure (.mark "degraded" "agent unreachable during fetch dispatch")
    else pure (.mark "failed" "source_host_path outside pull whitelist")

/-- The push of an item succeeds. -/
def pushes (env : TransferEnv) (task : TransferTask) (th : TransferHost) (k : ℕ) (item : FileItem) :
    Bool :=
  ((gatewayOf env th k).push task th item th.currentOffset).1

/-- The thread that streams an item finds its package, and no file. -/
def sourceIsMissing (disk : PushEnv) (item : FileItem) : Bool :=
  match disk.packages.find? fun p => decide (p.id = item.packageId) with
  | none => false
  | some package => (disk.files (disk.joinPath package.storePath item.relPath)).isNone

/-- The cursor that an ack stores. -/
def ackedCursor (data : Json) : Except PyErr ℤ := intField data "offset" >>= bigInteger

/-- The cursor that a chunk of a pull stores. -/
def pulledCursor (data : Json) (bytes : ℕ) : Except PyErr ℤ := do
  let offset ← intField data "offset"
  bigInteger (offset + bytes)

/-- The row that a result stores. -/
def finishedRow (env : FrameEnv) (task : TransferTask) (data : Json) :
    Except PyErr (String × (TransferHost → TransferHost)) := do
  let outcome ← outcomeOf env task data
  let sha256 ← checksumColumn outcome.sha256
  let error ← env.errorColumn outcome.error
  pure (outcome.status, fun h =>
    { h with
      status := outcome.status, verifySha256 := sha256, error := error,
      finishedAt := some (env.now 0) })

/-- The hosts that a stop cancels: those that it read as active. -/
def activeOf (rows : List TransferHost) : List ℕ :=
  (rows.filter fun th => decide (th.status ∈ activeStatuses)).map TransferHost.id

/-- The host waits again, for a retry. -/
def resetRow (h : TransferHost) : TransferHost :=
  { h with status := "pending", error := none, verifySha256 := none, finishedAt := none }

/-- A dispatch marks a host and goes on with the next one. -/
def marks (env : TransferEnv) (st : TransferStore) (task : TransferTask) (th : TransferHost)
    (todo : List TransferHost) (status error : String) : Transacted :=
  commits (st.updateHosts [th.id] (.terminated status error (env.now 0)))
    (some (.passing task todo))

/-! ### Transactions -/

namespace Activity

/-- The next host of a dispatch. -/
def pass (env : TransferEnv) (st : TransferStore) (task : TransferTask) (th : TransferHost)
    (todo : List TransferHost) : Transacted :=
  if th.status ≠ "pending" then commits st (some (.passing task todo))
  else if resolveChannel env th = none then
    marks env st task th todo "degraded"
      "no agent channel available (ssh fallback not enabled in this batch)"
  else
    commits (st.updateHosts [th.id] fun h =>
        { h with status := "transferring", startedAt := some (env.now 0) })
      (some (.claimed task th todo))

/-- The start of a host that was claimed. -/
def start (env : TransferEnv) (st : TransferStore) (task : TransferTask) (th : TransferHost)
    (todo : List TransferHost) : Transacted :=
  match startOf env task th with
  | .error _ => commits st none
  | .ok (.mark status error) => marks env st task th todo status error
  | .ok (.push items) => commits st (some (.pushing task th 0 items todo))
  | .ok .fetched => commits st (some (.passing task todo))

/-- The next item of a push. -/
def pushNext (env : TransferEnv) (st : TransferStore) (task : TransferTask) (th : TransferHost)
    (k : ℕ) (todo : List TransferHost) : List FileItem → Transacted
  | [] => commits st (some (.passing task todo))
  | item :: items =>
      if pushes env task th k item then
        ⟨st, some (.pushing task th (k + 1) items todo), [.streaming th item], none⟩
      else marks env st task th todo "degraded" "agent unreachable during dispatch"

/-- The next statement of `_maybe_finalize`. -/
def finalize (env : TransferEnv) (st : TransferStore) (task : TransferTask) : Finalizing → Transacted
  | .begun =>
      if task.status ≠ "processing" ∨
          (st.hosts.filter fun h => decide (h.transferTaskId = task.id)) = [] then commits st none
      else commits st (some (.finalizing task (.counted (aggregate st task.id))))
  | .counted status =>
      if st.countHosts task.id activeStatuses > 0 then commits st none
      else commits st (some (.finalizing task (.inactive status)))
  | .inactive status =>
      commits ((st.optimisticUpdate task "processing" status (some (env.now 0))).getD st) none

/-- The commit of a result, after which the task is aggregated. -/
def finish (env : FrameEnv) (st : TransferStore) (task : TransferTask) (th : TransferHost)
    (data : Json) : Transacted :=
  match finishedRow env task data with
  | .error _ => commits st none
  | .ok (_, row) => commits (st.updateHosts [th.id] row) (some (.finalizing task .begun))

/-- The commit of an ack or of a chunk, which moves the cursor and writes the status back. -/
def move (st : TransferStore) (th : TransferHost) : Except PyErr ℤ → Transacted
  | .error _ => commits st none
  | .ok cursor =>
      commits (st.updateHosts [th.id] fun h =>
        { h with status := th.status, currentOffset := cursor }) none

/-- The commit of a stop. -/
def cancel (env : TransferEnv) (st : TransferStore) (task : TransferTask)
    (rows : List TransferHost) : Transacted :=
  match st.optimisticUpdate task "processing" "canceled" (some (env.now 0)) with
  | none => commits st none
  | some st =>
      commits (st.updateHosts (activeOf rows) fun h =>
        { h with status := "canceled", finishedAt := some (env.now 0) }) none

/-- The commit of a retry, which asks for a dispatch of the task. -/
def reset (st : TransferStore) (task : TransferTask) (th : TransferHost) : Transacted :=
  match if task.status ≠ "processing" then st.optimisticUpdate task task.status "processing" none
    else some st with
  | none => commits st none
  | some st =>
      ⟨st.updateHosts [th.id] resetRow, none, [], some task.id⟩

/-- The next transaction of an activity. -/
def act (env : PoolEnv) (st : TransferStore) : Activity → Transacted
  | .dispatch taskId =>
      match st.task? taskId with
      | none => commits st none
      | some task =>
          commits st (if task.status = "processing" then some (.loading task) else none)
  | .loading task => commits st (some (.passing task (st.hostsOfTask task.id)))
  | .passing task [] => commits st (some (.finalizing task .begun))
  | .passing task (th :: todo) => pass env.toTransferEnv st task th todo
  | .claimed task th todo => start env.toTransferEnv st task th todo
  | .pushing task th k items todo => pushNext env.toTransferEnv st task th k todo items
  | .finalizing task stage => finalize env.toTransferEnv st task stage
  | .streaming th item =>
      if sourceIsMissing env.disk item then
        commits (st.updateHosts [th.id] fun h => { h with status := "failed" }) none
      else commits st none
  | .acking th data => move st th (ackedCursor data)
  | .storing th data bytes => move st th (pulledCursor data bytes)
  | .finishing task th data => finish env.toFrameEnv st task th data
  | .stopping task => commits st (some (.canceling task (st.hostsOfTask task.id)))
  | .canceling task rows => cancel env.toTransferEnv st task rows
  | .retrying task transferHostId =>
      match hostById st transferHostId with
      | none => commits st none
      | some th =>
          commits st (if th.transferTaskId = task.id ∧ th.status ∈ retryable then
            some (.resetting task th) else none)
  | .resetting task th => reset st task th

end Activity

/-- The rows of `create_task`: a task that is processed, and its hosts, which wait. -/
structure NewTransfer where
  task : TransferTask
  hosts : List TransferHost
  processed : task.status = "processing"
  waiting : ∀ th ∈ hosts, th.transferTaskId = task.id ∧ th.status = "pending"
  distinct : (hosts.map TransferHost.id).Nodup

end Transfers

/-! ### The pool -/

/-- The committed tables, the queued dispatches, and the activities under way. -/
structure TransferPool where
  store : TransferStore
  queue : List ℕ
  activities : List Activity

/-- One transaction, or the beginning of an activity. -/
inductive TransferPoolOp where
  | create (env : PoolEnv) (new : NewTransfer)
  /-- A worker takes the `k`-th message. -/
  | consume (k : ℕ)
  | openAck (data : Json)
  | openChunk (env : PoolEnv) (data : Json)
  | openResult (data : Json)
  | openStop (user : Actor) (taskId : ℕ)
  | openRetry (user : Actor) (taskId transferHostId : ℕ)
  /-- The next transaction of the `i`-th activity. -/
  | act (env : PoolEnv) (i : ℕ)
  /-- The `i`-th activity breaks off. -/
  | breakOff (i : ℕ)

namespace TransferPool

/-- Tables with nobody at work. -/
def idle (st : TransferStore) : TransferPool := ⟨st, [], []⟩

/-- An activity begins. -/
def begin (p : TransferPool) (a : Activity) : TransferPool :=
  { p with activities := p.activities ++ [a] }

/-- `_kick_off_transfer`: a dispatch in the process of the caller, if an agent is connected there or
the broker takes no message, else a message. -/
def kickOff (p : TransferPool) (env : PoolEnv) (taskId : ℕ) : TransferPool :=
  if env.inProcess = true ∨ env.brokerUp = false then p.begin (.dispatch taskId)
  else { p with queue := p.queue ++ [taskId] }

/-- The `i`-th activity is replaced. -/
def replace (p : TransferPool) (i : ℕ) (new : List Activity) : TransferPool :=
  { p with activities := p.activities.take i ++ new ++ p.activities.drop (i + 1) }

/-- The rows of a new transfer have identifiers that are not taken. -/
def Fresh (p : TransferPool) (new : NewTransfer) : Prop :=
  new.task.id ∉ p.store.tasks.map TransferTask.id ∧
    ∀ th ∈ new.hosts, th.id ∉ p.store.hosts.map TransferHost.id

instance (p : TransferPool) (new : NewTransfer) : Decidable (p.Fresh new) :=
  inferInstanceAs (Decidable (_ ∧ _))

/-- `create_task`. -/
def create (p : TransferPool) (env : PoolEnv) (new : NewTransfer) : TransferPool :=
  if p.Fresh new then
    ({ p with store := { p.store with
        tasks := p.store.tasks ++ [new.task], hosts := p.store.hosts ++ new.hosts } } :
      TransferPool).kickOff env new.task.id
  else p

/-- A worker takes a message. -/
def consume (p : TransferPool) (k : ℕ) : TransferPool :=
  match p.queue[k]? with
  | none => p
  | some taskId => ({ p with queue := p.queue.eraseIdx k } : TransferPool).begin (.dispatch taskId)

/-- An activity begins, if it gets past its first reads. -/
def beginWith (p : TransferPool) : Option Activity → TransferPool
  | none => p
  | some a => p.begin a

/-- The first read of `_transfer_chunk_ack`. -/
def readAck (st : TransferStore) (data : Json) : Option Activity :=
  match hostIdOf data with
  | .error _ => none
  | .ok i => (hostById st i).map fun th => .acking th data

/-- `_transfer_pull_chunk` up to its update. -/
def readChunk (env : PoolEnv) (st : TransferStore) (data : Json) : Option Activity :=
  match chunkOf env.toChunkEnv st data with
  | .ok (some (th, chunk)) => some (.storing th data chunk.payload.length)
  | _ => none

/-- The first reads of `_transfer_result`. -/
def readResult (st : TransferStore) (data : Json) : Option Activity :=
  match hostIdOf data with
  | .error _ => none
  | .ok i =>
      match hostById st i with
      | none => none
      | some th => (st.task? th.transferTaskId).map fun task => .finishing task th data

/-- The first read of `stop_task`. -/
def readStop (st : TransferStore) (user : Actor) (taskId : ℕ) : Option Activity :=
  match ownTask user "transfer:task:stop" "no permission to stop this task" taskId (.opened st) with
  | .error _ => none
  | .ok (task, _) => if task.status = "processing" then some (.stopping task) else none

/-- The first read of `retry_host`. -/
def readRetry (st : TransferStore) (user : Actor) (taskId transferHostId : ℕ) : Option Activity :=
  match ownTask user "transfer:task:retry" "no permission to retry this task" taskId
    (.opened st) with
  | .error _ => none
  | .ok (task, _) => some (.retrying task transferHostId)

/-- The `i`-th activity takes its next transaction. -/
def act (p : TransferPool) (env : PoolEnv) (i : ℕ) : TransferPool :=
  match p.activities[i]? with
  | none => p
  | some a =>
      let r := a.act env p.store
      let p' : TransferPool := { p.replace i (r.goOn.toList ++ r.threads) with store := r.store }
      match r.kicked with
      | none => p'
      | some taskId => p'.kickOff env taskId

/-- One operation. -/
def apply (p : TransferPool) : TransferPoolOp → TransferPool
  | .create env new => p.create env new
  | .consume k => p.consume k
  | .openAck data => p.beginWith (readAck p.store data)
  | .openChunk env data => p.beginWith (readChunk env p.store data)
  | .openResult data => p.beginWith (readResult p.store data)
  | .openStop user taskId => p.beginWith (readStop p.store user taskId)
  | .openRetry user taskId transferHostId =>
      p.beginWith (readRetry p.store user taskId transferHostId)
  | .act env i => p.act env i
  | .breakOff i => p.replace i []

end TransferPool

/-! ### What a transaction writes -/

namespace Transfers

/-- The change of a row leaves its keys and sets its status. -/
def Sets (status : String) (f : TransferHost → TransferHost) : Prop :=
  ∀ h, (f h).id = h.id ∧ (f h).transferTaskId = h.transferTaskId ∧ (f h).status = status

theorem sets_resetRow : Sets "pending" resetRow := fun _ => ⟨rfl, rfl, rfl⟩

namespace Activity

/-- The next transaction of an activity, which is no retry, writes a status to some hosts. -/
inductive Writes (env : PoolEnv) (st : TransferStore) : Activity → List ℕ → String → Prop where
  | degrade {task th todo} (hpending : th.status = "pending")
      (hchannel : resolveChannel env.toTransferEnv th = none) :
      Writes env st (.passing task (th :: todo)) [th.id] "degraded"
  | claim {task th todo} (hpending : th.status = "pending")
      (hchannel : resolveChannel env.toTransferEnv th ≠ none) :
      Writes env st (.passing task (th :: todo)) [th.id] "transferring"
  | mark {task th todo status error}
      (hstart : startOf env.toTransferEnv task th = .ok (.mark status error)) :
      Writes env st (.claimed task th todo) [th.id] status
  | unreachable {task th k item items todo}
      (hpush : pushes env.toTransferEnv task th k item = false) :
      Writes env st (.pushing task th k (item :: items) todo) [th.id] "degraded"
  | missing {th item} (hsource : sourceIsMissing env.disk item = true) :
      Writes env st (.streaming th item) [th.id] "failed"
  | ack {th data cursor} (hcursor : ackedCursor data = .ok cursor) :
      Writes env st (.acking th data) [th.id] th.status
  | chunk {th data bytes cursor} (hcursor : pulledCursor data bytes = .ok cursor) :
      Writes env st (.storing th data bytes) [th.id] th.status
  | result {task th data status row}
      (hrow : finishedRow env.toFrameEnv task data = .ok (status, row)) :
      Writes env st (.finishing task th data) [th.id] status
  | stop {task rows st'}
      (htask : st.optimisticUpdate task "processing" "canceled" (some (env.now 0)) = some st') :
      Writes env st (.canceling task rows) (activeOf rows) "canceled"

variable {env : PoolEnv} {st : TransferStore} {a : Activity} {ids : List ℕ} {status : String}

theorem sets_of_finishedRow {env : FrameEnv} {task : TransferTask} {data : Json}
    {row : TransferHost → TransferHost} (h : finishedRow env task data = .ok (status, row)) :
    Sets status row := by
  rw [finishedRow] at h
  obtain ⟨outcome, -, h⟩ := bind_eq_ok.mp h
  obtain ⟨sha256, -, h⟩ := bind_eq_ok.mp h
  obtain ⟨error, -, h⟩ := bind_eq_ok.mp h
  obtain ⟨rfl, rfl⟩ := Prod.mk.inj (Except.ok.inj h)
  exact fun _ => ⟨rfl, rfl, rfl⟩

theorem hosts_optimisticUpdate {task : TransferTask} {fromStatus toStatus : String}
    {finishedAt : Option ℚ} {st' : TransferStore}
    (h : st.optimisticUpdate task fromStatus toStatus finishedAt = some st') :
    st'.hosts = st.hosts := by
  rw [TransferStore.optimisticUpdate] at h
  split_ifs at h
  exact Option.some.inj h ▸ rfl

theorem Writes.hosts (h : a.Writes env st ids status) :
    ∃ f, (a.act env st).store.hosts = (st.updateHosts ids f).hosts ∧ Sets status f := by
  cases h with
  | degrade hpending hchannel =>
      rw [act, pass, if_neg (not_not.mpr hpending), if_pos hchannel]
      exact ⟨_, rfl, fun _ => ⟨rfl, rfl, rfl⟩⟩
  | claim hpending hchannel =>
      rw [act, pass, if_neg (not_not.mpr hpending), if_neg hchannel]
      exact ⟨_, rfl, fun _ => ⟨rfl, rfl, rfl⟩⟩
  | mark hstart =>
      rw [act, start, hstart]
      exact ⟨_, rfl, fun _ => ⟨rfl, rfl, rfl⟩⟩
  | unreachable hpush =>
      rw [act, pushNext, if_neg (Bool.eq_false_iff.mp hpush)]
      exact ⟨_, rfl, fun _ => ⟨rfl, rfl, rfl⟩⟩
  | missing hsource =>
      rw [act, if_pos hsource]
      exact ⟨_, rfl, fun _ => ⟨rfl, rfl, rfl⟩⟩
  | ack hcursor =>
      rw [act, hcursor, move]
      exact ⟨_, rfl, fun _ => ⟨rfl, rfl, rfl⟩⟩
  | chunk hcursor =>
      rw [act, hcursor, move]
      exact ⟨_, rfl, fun _ => ⟨rfl, rfl, rfl⟩⟩
  | result hrow =>
      rw [act, finish, hrow]
      exact ⟨_, rfl, sets_of_finishedRow hrow⟩
  | stop htask =>
      rw [act, cancel, htask]
      exact ⟨_, congrArg (List.map _) (hosts_optimisticUpdate htask), fun _ => ⟨rfl, rfl, rfl⟩⟩

theorem hosts_of_not_writes (h : ∀ ids status, ¬ a.Writes env st ids status)
    (hreset : ∀ task th, a ≠ .resetting task th) : (a.act env st).store.hosts = st.hosts := by
  cases a with
  | dispatch taskId =>
      rw [act]
      cases st.task? taskId <;> rfl
  | loading task => rfl
  | passing task todo =>
      cases todo with
      | nil => rfl
      | cons th todo =>
          rw [act, pass]
          by_cases hpending : th.status = "pending"
          · by_cases hchannel : resolveChannel env.toTransferEnv th = none
            · exact absurd (.degrade hpending hchannel) (h _ _)
            · exact absurd (.claim hpending hchannel) (h _ _)
          · rw [if_pos hpending]
            rfl
  | claimed task th todo =>
      rw [act, start]
      cases hstart : startOf env.toTransferEnv task th with
      | error e => rfl
      | ok begun =>
          cases begun with
          | mark status error => exact absurd (.mark hstart) (h _ _)
          | push items => rfl
          | fetched => rfl
  | pushing task th k items todo =>
      cases items with
      | nil => rfl
      | cons item items =>
          rw [act, pushNext]
          cases hpush : pushes env.toTransferEnv task th k item with
          | false => exact absurd (.unreachable hpush) (h _ _)
          | true => rfl
  | finalizing task stage =>
      rw [act]
      cases stage with
      | begun =>
          rw [finalize]
          split_ifs <;> rfl
      | counted status =>
          rw [finalize]
          split_ifs <;> rfl
      | inactive status =>
          rw [finalize]
          cases htask : st.optimisticUpdate task "processing" status (some (env.now 0)) with
          | none => rfl
          | some st' => exact hosts_optimisticUpdate htask
  | streaming th item =>
      rw [act]
      by_cases hsource : sourceIsMissing env.disk item = true
      · exact absurd (.missing hsource) (h _ _)
      · rw [if_neg hsource]
        rfl
  | acking th data =>
      rw [act]
      cases hcursor : ackedCursor data with
      | error e => rfl
      | ok cursor => exact absurd (.ack hcursor) (h _ _)
  | storing th data bytes =>
      rw [act]
      cases hcursor : pulledCursor data bytes with
      | error e => rfl
      | ok cursor => exact absurd (.chunk hcursor) (h _ _)
  | finishing task th data =>
      rw [act, finish]
      cases hrow : finishedRow env.toFrameEnv task data with
      | error e => rfl
      | ok row => exact absurd (.result hrow) (h _ _)
  | stopping task => rfl
  | canceling task rows =>
      rw [act, cancel]
      cases htask : st.optimisticUpdate task "processing" "canceled" (some (env.now 0)) with
      | none => rfl
      | some st' => exact absurd (.stop htask) (h _ _)
  | retrying task transferHostId =>
      rw [act]
      cases hostById st transferHostId <;> rfl
  | resetting task th => exact absurd rfl (hreset task th)

/-- A retry is refused, or it resets its host in tables whose task is processed. -/
theorem reset_cases (st : TransferStore) (task : TransferTask) (th : TransferHost) :
    reset st task th = commits st none ∨
      ∃ st', (task.status = "processing" ∧ st' = st ∨
          st.optimisticUpdate task task.status "processing" none = some st') ∧
        reset st task th = ⟨st'.updateHosts [th.id] resetRow, none, [], some task.id⟩ := by
  by_cases hstatus : task.status = "processing"
  · refine .inr ⟨st, .inl ⟨hstatus, rfl⟩, ?_⟩
    rw [reset, if_neg (not_not.mpr hstatus)]
  · rw [reset, if_pos hstatus]
    cases htask : st.optimisticUpdate task task.status "processing" none with
    | none => exact .inl rfl
    | some st' => exact .inr ⟨st', .inr rfl, rfl⟩

theorem act_hosts (env : PoolEnv) (st : TransferStore) (a : Activity) :
    (a.act env st).store.hosts = st.hosts ∨
      ∃ ids status f, (a.act env st).store.hosts = (st.updateHosts ids f).hosts ∧ Sets status f ∧
        (a.Writes env st ids status ∨
          ∃ task th, a = .resetting task th ∧ ids = [th.id] ∧ status = "pending") := by
  by_cases hreset : ∃ task th, a = .resetting task th
  · obtain ⟨task, th, rfl⟩ := hreset
    rw [act]
    obtain hrefused | ⟨st', hst', hreset⟩ := reset_cases st task th
    · exact .inl (hrefused ▸ rfl)
    · have hhosts : st'.hosts = st.hosts := by
        obtain ⟨-, rfl⟩ | htask := hst'
        · rfl
        · exact hosts_optimisticUpdate htask
      refine .inr ⟨[th.id], "pending", resetRow, ?_, sets_resetRow, .inr ⟨task, th, rfl, rfl, rfl⟩⟩
      rw [hreset]
      exact congrArg (List.map _) hhosts
  · by_cases hwrites : ∃ ids status, a.Writes env st ids status
    · obtain ⟨ids, status, hw⟩ := hwrites
      obtain ⟨f, hhosts, hf⟩ := hw.hosts
      exact .inr ⟨ids, status, f, hhosts, hf, .inl hw⟩
    · exact .inl (hosts_of_not_writes (fun ids status hw => hwrites ⟨ids, status, hw⟩)
        fun task th ha => hreset ⟨task, th, ha⟩)

/-- The next transaction of an activity moves a task to a status. -/
inductive Moves : Activity → TransferTask → String → Prop where
  | close {task status} : Moves (.finalizing task (.inactive status)) task status
  | stop {task rows} : Moves (.canceling task rows) task "canceled"
  | retry {task th} : Moves (.resetting task th) task "processing"

theorem act_tasks (env : PoolEnv) (st : TransferStore) (a : Activity) :
    (a.act env st).store.tasks = st.tasks ∨
      ∃ task fromStatus toStatus finishedAt st',
        st.optimisticUpdate task fromStatus toStatus finishedAt = some st' ∧
          (a.act env st).store.tasks = st'.tasks ∧ a.Moves task toStatus := by
  cases a with
  | dispatch taskId =>
      rw [act]
      cases st.task? taskId <;> exact .inl rfl
  | loading task => exact .inl rfl
  | passing task todo =>
      refine .inl ?_
      cases todo with
      | nil => rfl
      | cons th todo =>
          rw [act, pass]
          split_ifs <;> rfl
  | claimed task th todo =>
      refine .inl ?_
      rw [act, start]
      split <;> rfl
  | pushing task th k items todo =>
      refine .inl ?_
      cases items with
      | nil => rfl
      | cons item items =>
          rw [act, pushNext]
          split_ifs <;> rfl
  | finalizing task stage =>
      rw [act]
      cases stage with
      | begun =>
          rw [finalize]
          split_ifs <;> exact .inl rfl
      | counted status =>
          rw [finalize]
          split_ifs <;> exact .inl rfl
      | inactive status =>
          rw [finalize]
          cases htask : st.optimisticUpdate task "processing" status (some (env.now 0)) with
          | none => exact .inl rfl
          | some st' => exact .inr ⟨task, _, status, _, st', htask, rfl, .close⟩
  | streaming th item =>
      rw [act]
      split_ifs <;> exact .inl rfl
  | acking th data =>
      rw [act]
      cases ackedCursor data <;> exact .inl rfl
  | storing th data bytes =>
      rw [act]
      cases pulledCursor data bytes <;> exact .inl rfl
  | finishing task th data =>
      refine .inl ?_
      rw [act, finish]
      split <;> rfl
  | stopping task => exact .inl rfl
  | canceling task rows =>
      rw [act, cancel]
      cases htask : st.optimisticUpdate task "processing" "canceled" (some (env.now 0)) with
      | none => exact .inl rfl
      | some st' => exact .inr ⟨task, _, _, _, st', htask, rfl, .stop⟩
  | retrying task transferHostId =>
      rw [act]
      cases hostById st transferHostId <;> exact .inl rfl
  | resetting task th =>
      rw [act]
      obtain hrefused | ⟨st', ⟨-, rfl⟩ | htask, hreset⟩ := reset_cases st task th
      · exact .inl (hrefused ▸ rfl)
      · exact .inl (hreset ▸ rfl)
      · exact .inr ⟨task, _, _, _, st', htask, hreset ▸ rfl, .retry⟩

end Activity

end Transfers

end LarkPlat
