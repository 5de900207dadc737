import LarkPlat.Outcomes
import LarkPlat.PullWhitelist
import LarkPlat.PushFrames

/-!
# Dispatch of Transfers

`transfer_dispatch` goes over the hosts of a task and hands each pending one to the channel of its
agent, or marks it degraded when no channel takes it. The pass has one session. Statements run at
once, but a line of the log waits until the next commit, and the query for the last sequence number
does not see it. A commit stamps the lines with the time of the transaction and fails if two of them
have one key; what the session has not committed is lost when it is closed.
-/

namespace LarkPlat

/-- A line of the log before it is flushed. -/
structure LogLine where
  transferHostId : ℕ
  seq : ℕ
  level : String
  content : String
  deriving DecidableEq

/-- The tables of transfers that change. -/
structure TransferStore where
  tasks : List TransferTask
  hosts : List TransferHost
  logs : List TransferLog
  deriving DecidableEq

/-- A `file_send` or `file_fetch` frame that has been delivered. -/
structure Handover where
  transferHostId : ℕ
  path : String
  offset : ℤ
  deriving DecidableEq

/-- What a pass of `transfer_dispatch` meets. -/
structure TransferEnv where
  bindings : List AgentBinding
  items : List FileItem
  /-- The value of the rule `transfer.pull_whitelist`. -/
  whitelistRule : Option Json
  /-- `agent_online`, when the transfer of a host is dispatched. -/
  agentOnline : ℕ → String → Bool
  /-- The gateway during the push of an item, by its position, or during a fetch. -/
  gateway : ℕ → ℕ → PushEnv
  /-- The time of a transaction, by the number of commits before it. -/
  now : ℕ → ℚ

/-- The session of a pass, with the lines that have been added to it since it was opened, and the
frames that were delivered. -/
structure TransferSession where
  committed : TransferStore
  store : TransferStore
  added : List LogLine
  commits : ℕ
  appended : List LogLine
  handovers : List Handover
  /-- The hosts that were handed to their channel. -/
  handed : List ℕ

/-- What stays when a pass raises: the session is closed. -/
structure TransferFailure where
  error : PyErr
  committed : TransferStore
  handovers : List Handover

/-- A program on the session. -/
abbrev TransferM := StateT TransferSession (Except TransferFailure)

namespace TransferSession

/-- The session of a pass that begins. -/
def opened (st : TransferStore) : TransferSession := ⟨st, st, [], 0, [], [], []⟩

/-- An exception closes the session. -/
def raised (s : TransferSession) (e : PyErr) : TransferFailure := ⟨e, s.committed, s.handovers⟩

end TransferSession

/-- The row of a host that gets a terminal status. -/
def TransferHost.terminated (status error : String) (t : ℚ) (h : TransferHost) : TransferHost :=
  { h with status := status, error := some error, finishedAt := some t }

namespace TransferStore

/-- `TransferLogRepository.max_seq`. -/
def maxSeq (st : TransferStore) (transferHostId : ℕ) : ℕ :=
  ((st.logs.filter fun l => decide (l.transferHostId = transferHostId)).map TransferLog.seq).foldr
    max 0

/-- The line that is appended next for a host. -/
def nextLine (st : TransferStore) (th : TransferHost) (content level : String) : LogLine :=
  ⟨th.id, st.maxSeq th.id + 1, level, content⟩

/-- `TransferHostRepository.update_status`. -/
def updateHost (st : TransferStore) (transferHostId : ℕ) (f : TransferHost → TransferHost) :
    TransferStore :=
  { st with hosts := st.hosts.map fun h => if h.id = transferHostId then f h else h }

/-- An update of a task. -/
def updateTask (st : TransferStore) (taskId : ℕ) (f : TransferTask → TransferTask) :
    TransferStore :=
  { st with tasks := st.tasks.map fun t => if t.id = taskId then f t else t }

/-- `TransferHostRepository.by_task`. -/
def hostsOfTask (st : TransferStore) (taskId : ℕ) : List TransferHost :=
  (st.hosts.filter fun h => decide (h.transferTaskId = taskId)).mergeSort fun a b =>
    decide (a.id ≤ b.id)

/-- The number of hosts of a task in one of some statuses. -/
def countHosts (st : TransferStore) (taskId : ℕ) (statuses : List String) : ℕ :=
  st.hosts.countP fun h => decide (h.transferTaskId = taskId ∧ h.status ∈ statuses)

/-- `TransferTaskRepository.get`. -/
def task? (st : TransferStore) (taskId : ℕ) : Option TransferTask :=
  st.tasks.find? fun t => decide (t.id = taskId)

end TransferStore

/-! ### Statements and commits -/

namespace Transfers

variable (env : TransferEnv)

/-- A statement that changes the tables. -/
def execute (f : TransferStore → TransferStore) : TransferM Unit :=
  modify fun s => { s with store := f s.store }

/-- A call that may raise. -/
def attempt {α : Type} (x : Except PyErr α) : TransferM α := fun s =>
  match x with
  | .ok a => .ok (a, s)
  | .error e => .error (s.raised e)

/-- `_append_log`: the line is added to the session. -/
def appendLog (th : TransferHost) (content level : String) : TransferM Unit :=
  modify fun s => { s with
    added := s.added ++ [s.store.nextLine th content level]
    appended := s.appended ++ [s.store.nextLine th content level] }

/-- The row of a line that is flushed at a time. -/
def stamped (createdAt : ℚ) (l : LogLine) : TransferLog :=
  ⟨createdAt, l.transferHostId, l.seq, l.level, l.content⟩

/-- The unique key of `transfer_log`. -/
def logKey (l : TransferLog) : ℚ × ℕ × ℕ := (l.createdAt, l.transferHostId, l.seq)

/-- The added lines satisfy the unique key. -/
def Flushable (s : TransferSession) : Prop :=
  ((s.added.map (stamped (env.now s.commits))).map logKey).Nodup ∧
    ∀ l ∈ s.added, logKey (stamped (env.now s.commits) l) ∉ s.store.logs.map logKey

instance (s : TransferSession) : Decidable (Flushable env s) :=
  inferInstanceAs (Decidable (_ ∧ _))

/-- The tables with the added lines. -/
def flushed (s : TransferSession) : TransferStore :=
  { s.store with logs := s.store.logs ++ s.added.map (stamped (env.now s.commits)) }

/-- `db.commit()`. -/
def commit : TransferM Unit := fun s =>
  if Flushable env s then
    .ok ((), { s with
      committed := flushed env s, store := flushed env s, added := [], commits := s.commits + 1 })
  else .error (s.raised .integrityError)

/-- A terminal status that a pass gives to a host, with its line. -/
def markTerminal (th : TransferHost) (status error line : String) : TransferM Unit := do
  let s ← get
  execute fun st => st.updateHost th.id (.terminated status error (env.now s.commits))
  appendLog th line "error"
  commit env

/-- `_mark_degraded`. -/
def markDegraded (th : TransferHost) (reason : String) : TransferM Unit :=
  markTerminal env th "degraded" reason ("channel unavailable: " ++ reason)

/-- `_mark_failed`. -/
def markFailed (th : TransferHost) (error : String) : TransferM Unit :=
  markTerminal env th "failed" error ("failed: " ++ error)

/-! ### The pass -/

/-- `HostRepository(db).get(th.host_id) if th.host_id else None`. -/
def hostOf (th : TransferHost) : Option AgentBinding :=
  if th.hostId = 0 then none else env.bindings.find? fun h => decide (h.id = th.hostId)

/-- `resolve_agent_channel`: the kind of the channel. The SSH channel handles no host. -/
def resolveChannel (th : TransferHost) : Option String :=
  match hostOf env th with
  | none => none
  | some host =>
      match host.agentId with
      | none => none
      | some agentId =>
          if agentId ≠ "" ∧ env.agentOnline th.id agentId = true then some "agent" else none

/-- The gateway, with the rows of the hosts. -/
def gatewayOf (th : TransferHost) (k : ℕ) : PushEnv :=
  { env.gateway th.id k with bindings := env.bindings }

/-- `str(bool(n))`. -/
def boolText (n : ℤ) : String := if n = 0 then "False" else "True"

/-- The first frame of a push or of a fetch has been delivered. -/
def delivered (h : Handover) : TransferM Unit :=
  modify fun s => { s with handovers := s.handovers ++ [h] }

/-- The loop over the items of a push, from position `k` on: whether every item was pushed. -/
def pushItems (task : TransferTask) (th : TransferHost) : ℕ → List FileItem → TransferM Bool
  | _, [] => pure true
  | k, item :: items => do
      appendLog th ("transfer file " ++ item.relPath ++ " size=" ++ toString item.size ++
        " verify=" ++ boolText task.verify) "info"
      if ((gatewayOf env th k).push task th item th.currentOffset).1 then
        delivered ⟨th.id, item.relPath, th.currentOffset⟩
        pushItems task th (k + 1) items
      else
        markDegraded env th "agent unreachable during dispatch"
        pure false

/-- `AgentChannel.fetch`. -/
def fetch (th : TransferHost) : Bool :=
  match (gatewayOf env th 0).procAgent th with
  | none => false
  | some agentId => (env.gateway th.id 0).delivers 0 agentId

/-- The host is handed to its channel. -/
def handOver (th : TransferHost) : TransferM Unit :=
  modify fun s => { s with handed := s.handed ++ [th.id] }

/-- The push of `_dispatch_host`. -/
def dispatchPush (task : TransferTask) (th : TransferHost) : TransferM Unit :=
  match task.packageId with
  | none => markFailed env th "push task without package"
  | some packageId =>
      let items := (env.items.filter fun i => decide (i.packageId = packageId)).mergeSort fun a b =>
        decide (a.id ≤ b.id)
      if items = [] then markFailed env th "package has no files"
      else do
        if ← pushItems env task th 0 items then handOver th

/-- The fetch of a path that is allowed. -/
def fetchAllowed (task : TransferTask) (th : TransferHost) (path : String) : TransferM Unit := do
  appendLog th ("fetch " ++ path ++ " verify=" ++ boolText task.verify) "info"
  if fetch env th then
    delivered ⟨th.id, path, th.currentOffset⟩
    handOver th
  else markDegraded env th "agent unreachable during fetch dispatch"

/-- `path_within_whitelist` of the source path, which may be missing. -/
def sourceAllowed (task : TransferTask) : Except PyErr Bool := do
  let path := task.sourceHostPath.getD ""
  if path = "" then pure false
  else pure (pathWithinWhitelist path (← pullWhitelist env.whitelistRule))

/-- The pull of `_dispatch_host`. -/
def dispatchPull (task : TransferTask) (th : TransferHost) : TransferM Unit := do
  if ← attempt (sourceAllowed env task) then
    fetchAllowed env task th (task.sourceHostPath.getD "")
  else markFailed env th "source_host_path outside pull whitelist"

/-- `_dispatch_host`. -/
def dispatchHost (task : TransferTask) (th : TransferHost) : TransferM Unit :=
  match resolveChannel env th with
  | none =>
      markDegraded env th "no agent channel available (ssh fallback not enabled in this batch)"
  | some kind => do
      let s ← get
      execute fun st => st.updateHost th.id fun h =>
        { h with status := "transferring", startedAt := some (env.now s.commits) }
      commit env
      appendLog th ("channel=" ++ kind ++ " mode=" ++ task.mode ++ " target=" ++ task.targetPath)
        "info"
      if task.mode = "push" then dispatchPush env task th else dispatchPull env task th

/-- The loop of `transfer_dispatch`, over rows as they were loaded. -/
def dispatchHosts (task : TransferTask) : List TransferHost → TransferM Unit
  | [] => pure ()
  | th :: ths => do
      if th.status = "pending" then dispatchHost env task th
      dispatchHosts task ths

/-- The status that `_maybe_finalize` computes from its counts. -/
def aggregate (st : TransferStore) (taskId : ℕ) : String :=
  let total := st.hosts.countP fun h => decide (h.transferTaskId = taskId)
  let success := st.countHosts taskId ["success"]
  let degraded := st.countHosts taskId ["degraded"]
  let failed := st.countHosts taskId ["failed", "verify_failed", "canceled"]
  if total > 0 ∧ success = total then "success"
  else if success > 0 then "partial"
  else if failed = 0 ∧ degraded > 0 then "partial"
  else "failed"

/-- `_maybe_finalize`: the status of the task afterwards. -/
def maybeFinalize (task : TransferTask) : TransferM String := do
  if task.status ≠ "processing" then pure task.status
  else
    let s ← get
    if (s.store.hosts.filter fun h => decide (h.transferTaskId = task.id)) = [] then
      pure task.status
    else if s.store.countHosts task.id ["pending", "pulling", "transferring", "verifying"] > 0 then
      pure task.status
    else
      let status := aggregate s.store task.id
      if ∃ t ∈ s.store.tasks, t.id = task.id ∧ t.status = "processing" ∧
          t.version = task.version then
        execute fun st => st.updateTask task.id fun t =>
          { t with status := status, version := task.version + 1,
                   finishedAt := some (env.now s.commits) }
        commit env
        pure status
      else pure task.status

/-- The response of `transfer_dispatch`. -/
inductive DispatchResponse where
  | refused (reason : String)
  | dispatched (taskId : ℕ) (status : String)

/-- `transfer_dispatch`. -/
def transferDispatch (taskId : ℕ) : TransferM DispatchResponse := do
  let s ← get
  match s.store.task? taskId with
  | none => pure (.refused "task not found")
  | some task =>
      if task.status = "canceled" then pure (.refused "task canceled")
      else if task.status = "processing" then
        dispatchHosts env task (s.store.hostsOfTask taskId)
        let status ← maybeFinalize env task
        pure (.dispatched taskId status)
      else pure (.dispatched taskId task.status)

end Transfers

end LarkPlat
