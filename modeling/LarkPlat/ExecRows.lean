import LarkPlat.Json
import LarkPlat.Table

/-!
# Execution and Approval Rows

The tables that the execution service shares with the approval service, the script
library and the workflow engine: hosts, versioned scripts, the sensitivity rules, exec
tasks with their host rows, and approval requests. `ExecDb` is one committed state of these
tables. Identifiers are handed out by database sequences, so each counter only grows and
no identifier is ever reused.

The Celery queue is part of the state: `queue` lists the `exec_dispatch` messages that were
enqueued and not yet consumed.
-/

namespace LarkPlat

/-- `EXEC_STATUSES`. -/
inductive ExecStatus
  | created
  | awaitingApproval
  | approved
  | rejected
  | running
  | success
  | failed
  | partialSuccess
  | canceled
  | timedOut
  deriving DecidableEq, Repr

/-- `_EXEC_TERMINAL_STATUSES`. -/
def ExecStatus.terminal : ExecStatus → Bool
  | .success | .partialSuccess | .failed | .canceled | .timedOut => true
  | _ => false

/-- `HOST_STATUSES`. -/
inductive HostStatus
  | pending
  | running
  | success
  | failed
  | timedOut
  | canceled
  deriving DecidableEq, Repr

/-- The decision state of an approval request. -/
inductive ApprovalStatus
  | pending
  | approved
  | rejected
  | canceled
  deriving DecidableEq, Repr

/-- The domain an approval request is bound to; `unknown` is any text outside
`_KNOWN_BIZ_TYPES`. -/
inductive BizType
  | exec
  | terminal
  | workflow
  | unknown
  deriving DecidableEq, Repr

/-- The columns of `host` that execution reads. -/
structure Host where
  id : ℕ
  groupId : Option ℕ
  connector : String
  agentId : Option String
  deriving DecidableEq

/-- A script header; `currentVersion` points at the live version. -/
structure Script where
  id : ℕ
  currentVersion : ℕ
  deriving DecidableEq

/-- One version of a script (append-only). -/
structure ScriptVersion where
  scriptId : ℕ
  version : ℕ
  content : String
  deriving DecidableEq

/-- The configuration rules that execution reads: the sensitive words, the batch
threshold, and the ssh fallback switch. -/
structure ExecRules where
  words : List String
  threshold : Option ℕ
  sshFallback : Bool
  deriving DecidableEq

/-- A row of `exec_task`. `params` holds the pairs `(str(key), str(value))` of the
parameter dictionary, in order: rendering reads the values through `str` only. -/
structure ExecTask where
  id : ℕ
  name : String
  kind : String
  scriptId : Option ℕ
  scriptVersion : Option ℕ
  command : Option String
  params : List (String × String)
  targetHostIds : List ℕ
  mode : String
  timeoutSec : ℤ
  retry : ℕ
  sensitiveFlag : Bool
  approveRequired : Bool
  approvalId : Option ℕ
  status : ExecStatus
  createdBy : Option ℕ
  startedAt : Option ℚ
  finishedAt : Option ℚ
  version : ℕ
  deriving DecidableEq

/-- A row of `exec_task_host`. -/
structure ExecTaskHost where
  id : ℕ
  execTaskId : ℕ
  hostId : ℕ
  executor : String
  status : HostStatus
  exitCode : Option ℤ
  startedAt : Option ℚ
  finishedAt : Option ℚ
  deriving DecidableEq

/-- A row of `approval_request`; `bizId` is unique over the table. -/
structure ApprovalRequest where
  id : ℕ
  bizType : BizType
  bizId : ℕ
  requesterId : ℕ
  sensitiveHit : String
  status : ApprovalStatus
  approvalMode : String
  policyRef : Option String
  approverId : Option ℕ
  version : ℕ
  deriving DecidableEq

/-- One committed state of the execution and approval tables. -/
structure ExecDb where
  hosts : List Host
  scripts : List Script
  scriptVersions : List ScriptVersion
  rules : ExecRules
  tasks : List ExecTask
  taskHosts : List ExecTaskHost
  approvals : List ApprovalRequest
  nextTask : ℕ
  nextTaskHost : ℕ
  nextApproval : ℕ
  nextScript : ℕ
  queue : List ℕ
  deriving DecidableEq

namespace ExecDb

/-- Hosts and rules with nothing created yet. -/
def fresh (hosts : List Host) (rules : ExecRules) : ExecDb where
  hosts := hosts
  scripts := []
  scriptVersions := []
  rules := rules
  tasks := []
  taskHosts := []
  approvals := []
  nextTask := 1
  nextTaskHost := 1
  nextApproval := 1
  nextScript := 1
  queue := []

/-- `ExecTaskRepository.get`. -/
def task? (db : ExecDb) (id : ℕ) : Option ExecTask :=
  Table.find ExecTask.id db.tasks id

/-- `ApprovalRepository.get`. -/
def approval? (db : ExecDb) (id : ℕ) : Option ApprovalRequest :=
  Table.find ApprovalRequest.id db.approvals id

/-- `HostRepository.get`. -/
def host? (db : ExecDb) (id : ℕ) : Option Host :=
  Table.find Host.id db.hosts id

/-- `ScriptRepository.get`. -/
def script? (db : ExecDb) (id : ℕ) : Option Script :=
  Table.find Script.id db.scripts id

/-- `ScriptVersionRepository.by_script_version`. -/
def scriptVersion? (db : ExecDb) (scriptId version : ℕ) : Option ScriptVersion :=
  db.scriptVersions.find? fun v => decide (v.scriptId = scriptId ∧ v.version = version)

/-- `ExecTaskHostRepository.by_task`, in identifier order. -/
def hostsOfTask (db : ExecDb) (taskId : ℕ) : List ExecTaskHost :=
  db.taskHosts.filter fun th => decide (th.execTaskId = taskId)

/-- Change one task row. -/
def setTask (db : ExecDb) (id : ℕ) (f : ExecTask → ExecTask) : ExecDb :=
  { db with tasks := Table.modify ExecTask.id db.tasks id f }

/-- Change one host row of a task. -/
def setTaskHost (db : ExecDb) (id : ℕ) (f : ExecTaskHost → ExecTaskHost) : ExecDb :=
  { db with taskHosts := Table.modify ExecTaskHost.id db.taskHosts id f }

/-- Change one approval row. -/
def setApproval (db : ExecDb) (id : ℕ) (f : ApprovalRequest → ApprovalRequest) : ExecDb :=
  { db with approvals := Table.modify ApprovalRequest.id db.approvals id f }

/-- `ExecTaskRepository.optimistic_update`: the status moves and the version grows only
when both the status and the version are the expected ones. -/
def casTask (db : ExecDb) (id : ℕ) (old new : ExecStatus) (version : ℕ) : Option ExecDb :=
  match db.task? id with
  | some t =>
      if t.status = old ∧ t.version = version then
        some (db.setTask id fun t => { t with status := new, version := version + 1 })
      else none
  | none => none

/-- `ApprovalRepository.optimistic_update`. -/
def casApproval (db : ExecDb) (id : ℕ) (old new : ApprovalStatus) (version : ℕ) :
    Option ExecDb :=
  match db.approval? id with
  | some a =>
      if a.status = old ∧ a.version = version then
        some (db.setApproval id fun a => { a with status := new, version := version + 1 })
      else none
  | none => none

end ExecDb

end LarkPlat
