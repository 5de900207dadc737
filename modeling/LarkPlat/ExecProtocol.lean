import LarkPlat.DispatchCalls
import LarkPlat.Machine

/-!
# Workers, Closers, Retries and Approvers

`execDispatch` and the service functions are complete calls. Here the same code runs
interleaved: a `Pool` holds the committed tables, the dispatch workers that are under way and
the transactions that are open, and a `PoolOp` is one step of any of them.

A worker reads the task, reads the host rows, claims the rows it read as `pending` one commit at
a time, hands the claimed rows over and settles the task. Its session keeps the rows as they
were read: the claim of a row writes by primary key and does not look at the row again. The
same is true of a cancel, of the timeout sweep and of a retry, which read the rows of a task and
write those they found live (or ended) at their commit; only their update of the task is guarded
by status and version. An agent's result writes its row without a guard, and the record of an
execution in the worker is guarded on `running`.

An approval, by a user or by a policy at the creation, sends the `exec_dispatch` message while
its transaction is still open. The guarded updates of an open approval hold their rows: a second
transaction that writes one of them waits, so its step has no effect until the commit.
-/

namespace LarkPlat

/-! ### Tables -/

/-- The status of a host row. -/
def ExecDb.status? (db : ExecDb) (row : ℕ) : Option HostStatus :=
  (db.taskHost? row).map (·.status)

/-- One `update_status` per listed row. -/
def ExecDb.writeRows (db : ExecDb) (rows : List ℕ) (f : ExecTaskHost → ExecTaskHost) : ExecDb :=
  { db with taskHosts := db.taskHosts.map fun th => if th.id ∈ rows then f th else th }

/-- The statuses that end a host row. -/
def HostStatus.terminal : HostStatus → Bool
  | .pending | .running => false
  | _ => true

/-! ### Dispatch workers -/

/-- What a worker read before its claiming loop. -/
structure Loaded where
  task : ExecTask
  content : String
  hostCount : ℕ

/-- Where a worker stands. -/
inductive Phase where
  /-- Nothing was read yet. -/
  | opened
  /-- The task was read as running. -/
  | checked (task : ExecTask)
  /-- The claiming loop: the rows read as pending still to visit, and the rows claimed. -/
  | claiming (l : Loaded) (todo started : List ExecTaskHost)
  /-- The handover loop: the claimed rows still to hand over. -/
  | handing (l : Loaded) (todo : List ExecTaskHost)
  /-- An execution that is done and not yet recorded. -/
  | executing (l : Loaded) (row : ℕ) (status : HostStatus) (todo : List ExecTaskHost)

/-- An `exec_dispatch` under way. -/
structure Worker where
  taskId : ℕ
  phase : Phase

/-- The rows that a worker claimed and has not handed over. -/
def Phase.owed : Phase → List ℕ
  | .opened | .checked _ => []
  | .claiming _ _ started => started.map (·.id)
  | .handing _ todo | .executing _ _ _ todo => todo.map (·.id)

/-- The steps of a worker. -/
inductive WorkerAct where
  | check
  | load
  /-- The next row of the claiming loop. It is not admitted when a semaphore refuses it or an
  exception ends the loop. -/
  | claim (now : ℚ) (admitted : Bool)
  | hand (env : DispatchEnv)
  | finish (now : ℚ)
  | settle (env : ExecEnv)
  /-- An exception that leaves the dispatch, or the end of its process. -/
  | crash

/-- The row that a step of a worker claims. -/
def Worker.claims (w : Worker) (a : WorkerAct) : Option ℕ :=
  match w.phase, a with
  | .claiming _ (th :: _) _, .claim _ true => some th.id
  | _, _ => none

/-- What a step of a worker leaves: the tables, the worker if it goes on, and the rows whose
content was handed to an executor. -/
structure Acted where
  db : ExecDb
  worker : Option Worker
  handed : List ℕ

/-- The place after a pass of the claiming loop; with nothing started the dispatch returns. -/
def claimsFrom (l : Loaded) (todo started : List ExecTaskHost) : Option Phase :=
  if todo ≠ [] then some (.claiming l todo started)
  else if started ≠ [] then some (.handing l started)
  else none

/-- The place after the break of the claiming loop. -/
def claimsBroken (l : Loaded) (started : List ExecTaskHost) : Option Phase :=
  claimsFrom l [] started

/-- The place after the handover of a row: an agent goes on by itself, any other execution is
to be recorded. -/
def afterHandOver (l : Loaded) (row : ℕ) (todo : List ExecTaskHost) :
    Option Via × HostStatus → Phase
  | (some .agent, _) => .handing l todo
  | (_, status) => .executing l row status todo

/-- The claim of a row. -/
def claimWrite (now : ℚ) (th : ExecTaskHost) : ExecTaskHost :=
  { th with status := .running, startedAt := some now }

/-- The record of an execution, on a row that is still running. -/
def finishWrite (now : ℚ) (status : HostStatus) (th : ExecTaskHost) : ExecTaskHost :=
  if th.status = .running then finishRow now th status else th

/-- The task is read again, and settled if it is still running. -/
def settleAgain (env : ExecEnv) (db : ExecDb) (taskId : ℕ) : ExecDb :=
  match db.task? taskId with
  | some task => if task.status = .running then settleTask env db task else db
  | none => db

/-- One step of a worker. A step that its place does not have leaves it waiting. -/
def Worker.act (lower : String → String) (w : Worker) (db : ExecDb) (a : WorkerAct) : Acted :=
  match w.phase, a with
  | .opened, .check =>
      match db.task? w.taskId with
      | some task =>
          if task.status = .running then ⟨db, some ⟨w.taskId, .checked task⟩, []⟩
          else ⟨db, none, []⟩
      | none => ⟨db, none, []⟩
  | .checked task, .load =>
      let rows := db.hostsOfTask w.taskId
      let pending := rows.filter fun th => decide (th.status = .pending)
      ⟨db, (claimsFrom ⟨task, resolveContent db task, rows.length⟩ pending []).map
        (Worker.mk w.taskId), []⟩
  | .claiming l (th :: todo) started, .claim now true =>
      ⟨db.setTaskHost th.id (claimWrite now),
        (claimsFrom l todo (started ++ [th])).map (Worker.mk w.taskId), []⟩
  | .claiming l _ started, .claim _ false =>
      ⟨db, (claimsBroken l started).map (Worker.mk w.taskId), []⟩
  | .handing l (th :: todo), .hand env =>
      let outcome := handOver lower env db l.task l.content l.hostCount th
      ⟨db, some ⟨w.taskId, afterHandOver l th.id todo outcome⟩,
        if outcome.1.isSome then [th.id] else []⟩
  | .executing l row status todo, .finish now =>
      ⟨db.setTaskHost row (finishWrite now status), some ⟨w.taskId, .handing l todo⟩, []⟩
  | .handing _ [], .settle env => ⟨settleAgain env db w.taskId, none, []⟩
  | _, .crash => ⟨db, none, []⟩
  | _, _ => ⟨db, some w, []⟩

/-! ### Transactions -/

/-- The two ways to close a task from outside: `cancel_exec_task_record` and
`scan_timeouts`. -/
inductive Closing where
  | cancel
  | timeout
  deriving DecidableEq, Repr

/-- The status that a closed task gets. -/
def Closing.task : Closing → ExecStatus
  | .cancel => .canceled
  | .timeout => .timedOut

/-- The status that the live rows of a closed task get. -/
def Closing.host : Closing → HostStatus
  | .cancel => .canceled
  | .timeout => .timedOut

/-- The commit of a closing: the guarded update of the task, and the rows that were read as
live. -/
def closeTask (c : Closing) (env : ExecEnv) (db : ExecDb) (task : ExecTask) (rows : List ℕ) :
    Option ExecDb :=
  match db.casTask task.id task.status c.task task.version with
  | none => none
  | some db =>
      let db := db.setTask task.id fun t => { t with finishedAt := some env.now }
      let db := if c = .cancel then closeOrphanApproval db task else db
      some (db.writeRows rows fun th =>
        { th with status := c.host, finishedAt := some env.now })

/-- A running task is due when more than its timeout has passed since its start. -/
def sweepDue (now createdAt : ℚ) (task : ExecTask) : Bool :=
  decide (task.status = .running) &&
    decide ((task.timeoutSec : ℚ) < now - task.startedAt.getD createdAt)

/-- The text that a retry scans: the version that the task names, else the current one. -/
def retryContent (db : ExecDb) (task : ExecTask) : String :=
  let sid := orDefault task.scriptId 0
  if task.kind = "script" ∧ sid ≠ 0 then
    match db.script? sid with
    | none => task.command.getD ""
    | some script =>
        ((db.scriptVersion? script.id
          (orDefault task.scriptVersion script.currentVersion)).map (·.content)).getD ""
  else task.command.getD ""

/-- The statuses that `retry_task` takes up, of a task and of a row. -/
def ExecStatus.retryable : ExecStatus → Bool
  | .failed | .timedOut | .canceled => true
  | _ => false

@[inherit_doc ExecStatus.retryable]
def HostStatus.retryable : HostStatus → Bool
  | .failed | .timedOut | .canceled => true
  | _ => false

/-- The commit of a retry that is not sensitive: the task runs again and the rows that were
read as ended are reset to `pending`. -/
def retryTask (env : ExecEnv) (db : ExecDb) (task : ExecTask) (rows : List ℕ) :
    Option ExecDb :=
  match db.casTask task.id task.status .running task.version with
  | none => none
  | some db =>
      let db := db.setTask task.id fun t =>
        { t with startedAt := some env.now, finishedAt := none }
      some ((closeOrphanApproval db task).writeRows rows fun th => { th with status := .pending })

/-- The commit of a sensitive retry: the task awaits a new request, whose `biz_id` must be
unique. -/
def retrySensitive (db : ExecDb) (task : ExecTask) (userId : ℕ) (reason : String) :
    Option ExecDb :=
  match db.casTask task.id task.status .awaitingApproval task.version with
  | none => none
  | some db =>
      let db := closeOrphanApproval db task
      if db.approvals.any (fun a => decide (a.bizId = task.id)) then none
      else
        let approval : ApprovalRequest :=
          { id := db.nextApproval
            bizType := .exec
            bizId := task.id
            requesterId := userId
            sensitiveHit := reason
            status := .pending
            approvalMode := "manual"
            policyRef := none
            approverId := none
            version := 0 }
        some (({ db with
          approvals := db.approvals ++ [approval]
          nextApproval := db.nextApproval + 1 } : ExecDb).setTask task.id fun t =>
            { t with approvalId := some approval.id, sensitiveFlag := true })

/-- `approve` after its first read. -/
def approveRead (env : ExecEnv) (db : ExecDb) (userId : ℕ) (a : ApprovalRequest) :
    Except PyErr ExecDb := do
  let db ← decide? db a .approved (some userId)
  if a.bizType = .exec then approveExec env db a.bizId else pure db

theorem approve_eq_bind (env : ExecEnv) (db : ExecDb) (userId approvalId : ℕ) :
    approve env db userId approvalId =
      requirePending db approvalId >>= approveRead env db userId :=
  rfl

/-- The rows that a creation adds: a task, its host rows and its request. -/
structure NewRows (taskId : ℕ) where
  tasks : List ExecTask
  taskHosts : List ExecTaskHost
  approvals : List ApprovalRequest
  tasks_id : ∀ t ∈ tasks, t.id = taskId
  taskHosts_task : ∀ th ∈ taskHosts, th.execTaskId = taskId

/-- The rows of the task in the tables that a creation leaves. -/
def NewRows.of (db : ExecDb) (taskId : ℕ) : NewRows taskId where
  tasks := db.tasks.filter fun t => decide (t.id = taskId)
  taskHosts := db.hostsOfTask taskId
  approvals := db.approvals.filter fun a => decide (a.bizType = .exec ∧ a.bizId = taskId)
  tasks_id t ht := of_decide_eq_true (List.mem_filter.mp ht).2
  taskHosts_task th hth := of_decide_eq_true (List.mem_filter.mp hth).2

/-- A transaction that is open, with what it read. -/
inductive Session where
  /-- A closing, with the task and its live rows. -/
  | close (c : Closing) (task : ExecTask) (rows : List ℕ)
  /-- A retry, with the task, its ended rows and the reason of a sensitive one. -/
  | retry (userId : ℕ) (task : ExecTask) (rows : List ℕ) (reason : Option String)
  /-- An approval whose updates are made and whose message is sent. -/
  | approve (env : ExecEnv) (userId : ℕ) (approval : ApprovalRequest)
  /-- A creation that a policy approved; its caller may dispatch the task once more. -/
  | auto (taskId : ℕ) (rows : NewRows taskId) (kick : Option Bool)

/-- The transaction updated this approval request. -/
def Session.holdsApproval (approvalId : ℕ) : Session → Bool
  | .approve _ _ a => decide (a.id = approvalId)
  | _ => false

/-- The transaction is an approval of this task: it updated the task, or will insert it. -/
def Session.approves (taskId : ℕ) : Session → Bool
  | .approve _ _ a => decide (a.bizType = .exec ∧ a.bizId = taskId)
  | .auto id _ _ => decide (id = taskId)
  | _ => false

/-! ### The pool -/

/-- The committed tables, the workers under way, the open transactions, and the rows handed to
an executor so far. -/
structure Pool where
  db : ExecDb
  workers : List Worker
  sessions : List Session
  handed : List ℕ

namespace Pool

/-- Tables with nobody at work. -/
def idle (db : ExecDb) : Pool := ⟨db, [], [], []⟩

/-- Some open approval of the task. -/
def approving (s : Pool) (taskId : ℕ) : Bool := s.sessions.any (·.approves taskId)

/-- A message for a worker. -/
def send (s : Pool) (taskId : ℕ) : Pool :=
  { s with db := { s.db with queue := s.db.queue ++ [taskId] } }

/-- A dispatch in the caller's process. -/
def start (s : Pool) (taskId : ℕ) : Pool :=
  { s with workers := s.workers ++ [⟨taskId, .opened⟩] }

/-- `_kick_off_exec`: a message, or a dispatch in the caller's process when it is asked for or
the broker refuses the message. -/
def kickOff (s : Pool) (brokerUp inProcess : Bool) (taskId : ℕ) : Pool :=
  if inProcess ∨ ¬ brokerUp then s.start taskId else s.send taskId

/-- What the caller of a creation does with a running task. -/
def kickIf (s : Pool) (brokerUp : Bool) (kick : Option Bool) (taskId : ℕ) : Pool :=
  match kick with
  | some inProcess => s.kickOff brokerUp inProcess taskId
  | none => s

/-- A worker takes message `k`. -/
def consume (s : Pool) (k : ℕ) : Pool :=
  match s.db.queue[k]? with
  | some taskId =>
      ({ s with db := { s.db with queue := s.db.queue.eraseIdx k } } : Pool).start taskId
  | none => s

/-- Worker `i` takes a step. -/
def act (lower : String → String) (s : Pool) (i : ℕ) (a : WorkerAct) : Pool :=
  match s.workers[i]? with
  | none => s
  | some w =>
      let r := w.act lower s.db a
      { s with
        db := r.db
        workers := r.worker.elim (s.workers.eraseIdx i) (s.workers.set i)
        handed := s.handed ++ r.handed }

/-- A transaction opens. -/
def begin (s : Pool) (ses : Session) : Pool := { s with sessions := s.sessions ++ [ses] }

/-- A creation. One that a policy approves has sent its message and drawn its identifiers, and
its rows are still to be committed; any other is committed, and its caller dispatches a running
task. -/
def create (lower : String → String) (s : Pool) (env : ExecEnv) (spec : TaskSpec)
    (policy : Option String) (kick : Option Bool) : Pool :=
  match createExecTaskRecord lower env s.db spec policy with
  | .error _ => s
  | .ok (db', c) =>
      if c.approveRequired = true ∧ c.status = .running then
        ({ s with db := { s.db with
            nextTask := db'.nextTask
            nextTaskHost := db'.nextTaskHost
            nextApproval := db'.nextApproval
            queue := db'.queue } } : Pool).begin (.auto c.id (.of db' c.id) kick)
      else if c.status = .running then ({ s with db := db' } : Pool).kickIf env.brokerUp kick c.id
      else { s with db := db' }

/-- `approve` up to its commit. Only the message leaves the transaction. -/
def openApprove (s : Pool) (env : ExecEnv) (userId approvalId : ℕ) : Pool :=
  if s.sessions.any (·.holdsApproval approvalId) then s
  else
    match requirePending s.db approvalId with
    | .error _ => s
    | .ok a =>
        match approveRead env s.db userId a with
        | .error _ => s
        | .ok db' =>
            ({ s with db := { s.db with queue := db'.queue } } : Pool).begin
              (.approve env userId a)

/-- A decision that declines a request is one transaction without messages. -/
def decline (s : Pool) (approvalId : ℕ) (result : Except PyErr ExecDb) : Pool :=
  if s.sessions.any (·.holdsApproval approvalId) then s
  else
    match result with
    | .ok db' => { s with db := db' }
    | .error _ => s

/-- The live rows of a task. -/
def liveRows (s : Pool) (taskId : ℕ) : List ℕ :=
  ((s.db.hostsOfTask taskId).filter fun th => !th.status.terminal).map (·.id)

/-- A cancel or a sweep reads the task and its rows. -/
def openClose (s : Pool) (c : Closing) (admits : ExecTask → Bool) (taskId : ℕ) : Pool :=
  match s.db.task? taskId with
  | some task => if admits task then s.begin (.close c task (s.liveRows taskId)) else s
  | none => s

/-- A retry reads the task and its rows, and scans the content again. -/
def openRetry (lower : String → String) (s : Pool) (userId taskId : ℕ) : Pool :=
  match s.db.task? taskId with
  | some task =>
      if task.status.retryable then
        let verdict := detectSensitive lower s.db.rules task.command
          (some (retryContent s.db task)) task.targetHostIds.length
        let rows := ((s.db.hostsOfTask taskId).filter fun th => th.status.retryable).map (·.id)
        s.begin (.retry userId task rows (if verdict.1 then some verdict.2 else none))
      else s
  | none => s

/-- Transaction `i` ends without effect. -/
def abort (s : Pool) (i : ℕ) : Pool := { s with sessions := s.sessions.eraseIdx i }

/-- Transaction `i` commits the tables `db?`, or fails. -/
def finishWith (s : Pool) (i : ℕ) (db? : Option ExecDb) : Pool :=
  match db? with
  | some db => { s.abort i with db := db }
  | none => s.abort i

/-- Transaction `i` commits. A retry and a creation then dispatch their task. -/
def commit (s : Pool) (env : ExecEnv) (inProcess : Bool) (i : ℕ) : Pool :=
  match s.sessions[i]? with
  | none => s
  | some (.close c task rows) =>
      if s.approving task.id then s else s.finishWith i (closeTask c env s.db task rows)
  | some (.retry _ task rows none) =>
      match retryTask env s.db task rows with
      | some db => ({ s.abort i with db := db } : Pool).kickOff env.brokerUp inProcess task.id
      | none => s.abort i
  | some (.retry userId task _ (some reason)) =>
      s.finishWith i (retrySensitive s.db task userId reason)
  | some (.approve env' userId a) =>
      s.finishWith i ((approveRead env' s.db userId a).toOption.map fun db' =>
        { db' with queue := s.db.queue })
  | some (.auto taskId rows kick) =>
      ({ s.abort i with db := { s.db with
          tasks := s.db.tasks ++ rows.tasks
          taskHosts := s.db.taskHosts ++ rows.taskHosts
          approvals := s.db.approvals ++ rows.approvals } } : Pool).kickIf env.brokerUp kick taskId

/-- The status that `_persist_result` takes from the text of a frame (`success` if it has
none). -/
def frameStatus : String → HostStatus
  | "success" => .success
  | "timed_out" => .timedOut
  | "canceled" | "stopped" => .canceled
  | _ => .failed

/-- `_persist_result`: the frame of an agent. -/
def persistResult (s : Pool) (now : ℚ) (row : ℕ) (status : String) (exitCode : Option ℤ) :
    Pool :=
  { s with db := s.db.setTaskHost row fun th =>
      { th with status := frameStatus status, exitCode := exitCode, finishedAt := some now } }

/-- `_maybe_finalize_task`: a running task with no live row moves to its aggregate. -/
def maybeFinalizeTask (now : ℚ) (db : ExecDb) (taskId : ℕ) : ExecDb :=
  match db.task? taskId with
  | some task =>
      let statuses := (db.hostsOfTask taskId).map (·.status)
      if task.status ≠ .running ∨ statuses = [] ∨ .running ∈ statuses ∨ .pending ∈ statuses then
        db
      else db.setTask taskId fun t =>
        { t with
          status := aggregate statuses
          version := t.version + 1
          finishedAt := some now }
  | none => db

end Pool

/-- One step of anyone who works on the tables. -/
inductive PoolOp where
  | create (env : ExecEnv) (spec : TaskSpec) (policy : Option String) (kick : Option Bool)
  | openApprove (env : ExecEnv) (userId approvalId : ℕ)
  | reject (env : ExecEnv) (userId approvalId : ℕ)
  | cancelApproval (env : ExecEnv) (userId : ℕ) (isAdmin : Bool) (approvalId : ℕ)
  | openCancel (taskId : ℕ)
  | openSweep (now createdAt : ℚ) (taskId : ℕ)
  | openRetry (userId taskId : ℕ)
  | commit (env : ExecEnv) (inProcess : Bool) (i : ℕ)
  | abort (i : ℕ)
  | consume (k : ℕ)
  | act (i : ℕ) (a : WorkerAct)
  | persistResult (now : ℚ) (row : ℕ) (status : String) (exitCode : Option ℤ)
  | maybeFinalizeTask (now : ℚ) (taskId : ℕ)
  /-- Hosts, scripts and rules are edited. -/
  | configure (hosts : List Host) (scripts : List Script) (scriptVersions : List ScriptVersion)
      (rules : ExecRules)

/-- One step of the pool. -/
def Pool.apply (lower : String → String) (s : Pool) : PoolOp → Pool
  | .create env spec policy kick => s.create lower env spec policy kick
  | .openApprove env userId approvalId => s.openApprove env userId approvalId
  | .reject env userId approvalId =>
      s.decline approvalId (LarkPlat.reject env s.db userId approvalId)
  | .cancelApproval env userId isAdmin approvalId =>
      s.decline approvalId (LarkPlat.cancelApproval env s.db userId isAdmin approvalId)
  | .openCancel taskId => s.openClose .cancel (·.status.cancellable) taskId
  | .openSweep now createdAt taskId => s.openClose .timeout (sweepDue now createdAt) taskId
  | .openRetry userId taskId => s.openRetry lower userId taskId
  | .commit env inProcess i => s.commit env inProcess i
  | .abort i => s.abort i
  | .consume k => s.consume k
  | .act i a => s.act lower i a
  | .persistResult now row status exitCode => s.persistResult now row status exitCode
  | .maybeFinalizeTask now taskId =>
      { s with db := Pool.maybeFinalizeTask now s.db taskId }
  | .configure hosts scripts scriptVersions rules =>
      { s with db := { s.db with
          hosts := hosts
          scripts := scripts
          scriptVersions := scriptVersions
          rules := rules } }

end LarkPlat
