import LarkPlat.ExecService
import Mathlib.Data.List.TakeWhile

/-!
# Dispatch of an Exec Task

`execDispatch` models `exec_dispatch` as one complete call: it resolves the content to run
(`resolveContent`: the script body of the pinned or current version, or the command, with
the `{{key}}` placeholders rendered), starts the pending hosts that the semaphores admit,
hands the content of each started host to an executor, and aggregates the host statuses
into the task status once no host is pending or running.

Every handover is recorded: the call returns the list of `Handout`s, each with the tables
as the dispatch found them.
-/

namespace LarkPlat

/-! ### The content that is executed -/

/-- The placeholder of a parameter key. -/
def placeholder (key : String) : String :=
  "\x7b\x7b" ++ key ++ "\x7d\x7d"

/-- `_render_params`: the placeholders are rewritten in the order of the parameters, each on
the output of the one before. -/
def renderParams (content : String) (params : List (String × String)) : String :=
  if params.isEmpty || !Text.occursIn "\x7b\x7b" content then content
  else params.foldl (fun out p => Text.replace out (placeholder p.1) p.2) content

/-- The body that `_resolve_content` renders: the pinned script version if it exists, else
the script's current version, else nothing; the command for every other task. -/
def resolveBody (db : ExecDb) (task : ExecTask) : String :=
  let sid := orDefault task.scriptId 0
  if task.kind = "script" ∧ sid ≠ 0 then
    let pinned := task.scriptVersion.bind (db.scriptVersion? sid)
    let current := (db.script? sid).bind fun script =>
      db.scriptVersion? script.id script.currentVersion
    ((pinned.or current).map (·.content)).getD ""
  else task.command.getD ""

/-- `_resolve_content`. -/
def resolveContent (db : ExecDb) (task : ExecTask) : String :=
  renderParams (resolveBody db task) task.params

/-! ### The dispatch -/

/-- Who receives the content of a started host. -/
inductive Via
  | agent
  | mock
  | ssh
  deriving DecidableEq, Repr

/-- One handover of content to an executor, with the tables found by the dispatch. -/
structure Handout where
  db : ExecDb
  taskId : ℕ
  taskHostId : ℕ
  via : Via
  content : String

/-- The answers that one dispatch gets: for each host row, whether both semaphores are
acquired, whether the agent connection accepts the frame, and whether the ssh executor
succeeds. -/
structure DispatchEnv extends ExecEnv where
  acquires : ℕ → Bool
  agentAccepts : ℕ → Bool
  sshSucceeds : ℕ → Bool

/-- The rows that the starting loop marks running: the pending rows up to the first one
whose semaphores are not acquired. -/
def startedRows (env : DispatchEnv) (rows : List ExecTaskHost) : List ExecTaskHost :=
  (rows.filter fun th => decide (th.status = .pending)).takeWhile fun th => env.acquires th.id

theorem startedRows_of_acquires {env : DispatchEnv} (h : ∀ row, env.acquires row = true)
    (rows : List ExecTaskHost) :
    startedRows env rows = rows.filter fun th => decide (th.status = .pending) :=
  List.takeWhile_eq_self_iff.mpr fun th _ => h th.id

/-- `_dispatch_exec_frame`: a frame is sent for an agent row whose host is bound to an agent,
and counts when the connection accepts it. -/
def dispatchExecFrame (env : DispatchEnv) (db : ExecDb) (th : ExecTaskHost) : Bool :=
  decide (th.executor = "agent") &&
    ((db.host? th.hostId).bind (·.agentId)).any (· ≠ "") && env.agentAccepts th.id

/-- The two gates of `run_exec`: the approval of a task that requires one, and the
sensitivity of the content that is about to run. -/
def sshGate (lower : String → String) (db : ExecDb) (task : ExecTask) (content : String)
    (hostCount : ℕ) : Bool :=
  let approved := !task.approveRequired ||
    (task.approvalId.bind db.approval?).any fun a => decide (a.status = .approved)
  approved && !(detectSensitive lower db.rules task.command (some content) hostCount).1

/-- The handover of one started row: its record, if content was handed over, and the final
status of the row; a row taken by an agent stays `running`. -/
def handOver (lower : String → String) (env : DispatchEnv) (db : ExecDb) (task : ExecTask)
    (content : String) (hostCount : ℕ) (th : ExecTaskHost) : Option Via × HostStatus :=
  if th.executor = "ssh" then
    if sshGate lower db task content hostCount then
      (some .ssh, if env.sshSucceeds th.id then .success else .failed)
    else (none, .failed)
  else if dispatchExecFrame env db th then (some .agent, .running)
  else (some .mock, .success)

/-- The status of a task none of whose hosts is pending or running. -/
def aggregate (statuses : List HostStatus) : ExecStatus :=
  let success := statuses.count .success
  let bad := statuses.count .failed + statuses.count .timedOut
  if bad = 0 ∧ 0 < statuses.length ∧ success = statuses.length then .success
  else if bad = 0 ∧ 0 < success then .partialSuccess
  else .failed

/-- The aggregation at the end of `exec_dispatch`: a task with a live host stays running
(and is enqueued again while a host is pending), any other moves to its aggregate. -/
def settleTask (env : ExecEnv) (db : ExecDb) (task : ExecTask) : ExecDb :=
  let statuses := (db.hostsOfTask task.id).map (·.status)
  if .running ∈ statuses ∨ .pending ∈ statuses then
    if .pending ∈ statuses ∧ env.brokerUp then { db with queue := db.queue ++ [task.id] }
    else db
  else
    db.setTask task.id fun t =>
      { t with
        status := aggregate statuses
        version := t.version + 1
        finishedAt := some env.now }

/-- Record the outcome of a handover on the host row. -/
def finishRow (now : ℚ) (th : ExecTaskHost) (status : HostStatus) : ExecTaskHost :=
  match status with
  | .success => { th with status := .success, exitCode := some 0, finishedAt := some now }
  | .failed => { th with status := .failed, exitCode := some 1, finishedAt := some now }
  | _ => { th with status := .running, startedAt := some now }

/-- `exec_dispatch` as a complete call: the tables afterwards and the handovers made. -/
def execDispatch (lower : String → String) (env : DispatchEnv) (db : ExecDb) (taskId : ℕ) :
    ExecDb × List Handout :=
  match db.task? taskId with
  | none => (db, [])
  | some task =>
      if task.status = .running then
        let rows := db.hostsOfTask taskId
        let content := resolveContent db task
        let started := startedRows env rows
        if started.isEmpty then (db, [])
        else
          let outcome := handOver lower env db task content rows.length
          let db' := started.foldl (fun acc th =>
            acc.setTaskHost th.id fun r => finishRow env.now r (outcome th).2) db
          let log := started.filterMap fun th => (outcome th).1.map fun via =>
            { db := db, taskId := taskId, taskHostId := th.id, via := via, content := content }
          (settleTask env.toExecEnv db' task, log)
      else (db, [])

end LarkPlat
