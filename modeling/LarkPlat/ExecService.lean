import LarkPlat.ExecRows
import LarkPlat.Text

/-!
# The Execution Service and the Approval Linkage

This module models the shared core of task creation (`create_exec_task_record` with the
sensitivity gate), the cancellation core (`cancel_exec_task_record`), and the decisions on
an approval request (`approve`, `reject`, `cancel`) with their effect on the linked task.

A function that raises returns an error and no state: the session is rolled back, so a
failed call leaves the tables as they were.

Three inputs come from outside the tables. `ExecEnv` is the process environment: the clock,
whether paramiko is importable and whether the broker accepts messages. `lower` stands for
`str.lower`; no result depends on more than that it is a function. The answer of
`resolve_auto_policy` (the policy reference on a hit) is an argument of the creation.
-/

namespace LarkPlat

/-- What the execution service reads from its process. -/
structure ExecEnv where
  now : ℚ
  sshAvailable : Bool
  brokerUp : Bool

/-- The arguments of `create_exec_task_record`. -/
structure TaskSpec where
  name : String
  kind : String
  targetHostIds : List ℕ
  scriptId : Option ℕ
  scriptVersion : Option ℕ
  command : Option String
  params : List (String × String)
  mode : String
  timeoutSec : ℤ
  retry : ℕ
  createdBy : Option ℕ
  requesterId : Option ℕ
  visibleGroupIds : Option (List ℕ)

/-- The result of `create_exec_task_record`. -/
structure Created where
  id : ℕ
  status : ExecStatus
  approveRequired : Bool
  approvalId : Option ℕ
  deriving DecidableEq

/-- `v or d` for an optional integer: `None` and `0` are replaced. -/
def orDefault (v : Option ℕ) (d : ℕ) : ℕ :=
  match v with
  | some (n + 1) => n + 1
  | _ => d

/-! ### The script library -/

/-- `create_script`: the script starts at version 1. -/
def createScript (db : ExecDb) (content : String) : ExecDb :=
  { db with
    scripts := db.scripts ++ [⟨db.nextScript, 1⟩]
    scriptVersions := db.scriptVersions ++ [⟨db.nextScript, 1, content⟩]
    nextScript := db.nextScript + 1 }

/-- `_version_no`: one above the largest version of the script. -/
def versionNo (db : ExecDb) (scriptId : ℕ) : ℕ :=
  (((db.scriptVersions.filter fun v => decide (v.scriptId = scriptId)).map
    (·.version)).foldl max 0) + 1

/-- `update_script`: a new version is appended and becomes the current one. -/
def updateScript (db : ExecDb) (scriptId : ℕ) (content : String) : Except PyErr ExecDb :=
  match db.script? scriptId with
  | none => .error (.notFound "script not found")
  | some _ =>
      if content = "" then .error (.badRequest "content required for new version")
      else
        let v := versionNo db scriptId
        .ok { db with
          scriptVersions := db.scriptVersions ++ [⟨scriptId, v, content⟩]
          scripts := Table.modify Script.id db.scripts scriptId fun s =>
            { s with currentVersion := v } }

/-- `rollback` of a script: the pointer moves to an existing version. -/
def rollbackScript (db : ExecDb) (scriptId version : ℕ) : Except PyErr ExecDb :=
  match db.script? scriptId, db.scriptVersion? scriptId version with
  | none, _ => .error (.notFound "script not found")
  | some _, none => .error (.notFound "script version not found")
  | some _, some _ =>
      .ok { db with
        scripts := Table.modify Script.id db.scripts scriptId fun s =>
          { s with currentVersion := version } }

/-! ### Sensitivity detection -/

/-- The text that `detect_sensitive` scans: the command and the script body, joined by a
newline. -/
def scannedText (command scriptContent : Option String) : String :=
  command.getD "" ++ "\n" ++ scriptContent.getD ""

/-- The test for one sensitive word: nonempty, and found in the text after lowering
both. -/
def hits (lower : String → String) (text w : String) : Bool :=
  decide (w ≠ "") && Text.occursIn (lower w) (lower text)

/-- `detect_sensitive`: the verdict and its reason. -/
def detectSensitive (lower : String → String) (rules : ExecRules)
    (command scriptContent : Option String) (hostCount : ℕ) : Bool × String :=
  let hitWords := rules.words.filter (hits lower (scannedText command scriptContent))
  let wordReason :=
    if hitWords.isEmpty then []
    else ["sensitive word: " ++ ",".intercalate (hitWords.take 5)]
  let batchReason :=
    match rules.threshold with
    | some (t + 1) =>
        if t + 1 ≤ hostCount then
          ["batch size " ++ toString hostCount ++ " >= threshold " ++ toString (t + 1)]
        else []
    | _ => []
  let reasons := wordReason ++ batchReason
  (!reasons.isEmpty, "; ".intercalate reasons)

/-- A text that was not found sensitive contains none of the words of the rules. -/
theorem not_hits_of_not_sensitive {lower : String → String} {rules : ExecRules}
    {command scriptContent : Option String} {n : ℕ}
    (h : (detectSensitive lower rules command scriptContent n).1 = false)
    {w : String} (hw : w ∈ rules.words) :
    hits lower (scannedText command scriptContent) w = false := by
  by_contra hc
  have hmem : w ∈ rules.words.filter (hits lower (scannedText command scriptContent)) :=
    List.mem_filter.mpr ⟨hw, by simpa using hc⟩
  have hne : (rules.words.filter
      (hits lower (scannedText command scriptContent))).isEmpty = false := by
    rw [List.isEmpty_eq_false_iff]
    exact List.ne_nil_of_mem hmem
  simp [detectSensitive, hne] at h

/-! ### Creation -/

/-- Every target exists and, for a scoped caller, lies in a visible group. -/
def checkHosts (db : ExecDb) (visible : Option (List ℕ)) : List ℕ → Except PyErr Unit
  | [] => .ok ()
  | hid :: rest =>
      match db.host? hid with
      | none => .error (.notFound ("host " ++ toString hid ++ " not found"))
      | some host =>
          match visible with
          | some groups =>
              if host.groupId ∈ groups.map some then checkHosts db visible rest
              else .error (.forbidden ("no data permission for host " ++ toString hid))
          | none => checkHosts db visible rest

/-- The script body that creation scans: the requested version, or the current one when no
version (or version `0`) is requested. -/
def creationBody (db : ExecDb) (spec : TaskSpec) : Except PyErr (Option String) :=
  if spec.kind = "script" then
    match orDefault spec.scriptId 0 with
    | 0 => .error (.badRequest "script_id required for kind=script")
    | sid =>
        match db.script? sid with
        | none => .error (.notFound "script not found")
        | some script =>
            match db.scriptVersion? script.id
                (orDefault spec.scriptVersion script.currentVersion) with
            | none => .error (.notFound "script version not found")
            | some sv => .ok (some sv.content)
  else if spec.kind = "command" then
    if spec.command.getD "" = "" then
      .error (.badRequest "command required for kind=command")
    else .ok none
  else .error (.badRequest "invalid kind")

/-- `resolve_executor`. -/
def resolveExecutor (env : ExecEnv) (rules : ExecRules) (connector : String) : String :=
  if connector = "agent" ∧ rules.sshFallback ∧ env.sshAvailable then "ssh" else connector

/-- The task row that creation inserts, in status `created`. -/
def newTask (db : ExecDb) (spec : TaskSpec) (sensitive : Bool) : ExecTask where
  id := db.nextTask
  name := spec.name
  kind := spec.kind
  scriptId := spec.scriptId
  scriptVersion := spec.scriptVersion
  command := spec.command
  params := spec.params
  targetHostIds := spec.targetHostIds
  mode := spec.mode
  timeoutSec := spec.timeoutSec
  retry := spec.retry
  sensitiveFlag := sensitive
  approveRequired := sensitive
  approvalId := none
  status := .created
  createdBy := spec.createdBy
  startedAt := none
  finishedAt := none
  version := 0

/-- The host rows that creation inserts, one per target. -/
def newTaskHosts (env : ExecEnv) (db : ExecDb) (spec : TaskSpec) : List ExecTaskHost :=
  spec.targetHostIds.zipIdx.map fun (hid, i) =>
    { id := db.nextTaskHost + i
      execTaskId := db.nextTask
      hostId := hid
      executor := resolveExecutor env db.rules ((db.host? hid).elim "" (·.connector))
      status := .pending
      exitCode := none
      startedAt := none
      finishedAt := none }

/-- The tables after the insert of the task and its host rows. -/
def insertTask (env : ExecEnv) (db : ExecDb) (spec : TaskSpec) (sensitive : Bool) : ExecDb :=
  { db with
    tasks := db.tasks ++ [newTask db spec sensitive]
    taskHosts := db.taskHosts ++ newTaskHosts env db spec
    nextTask := db.nextTask + 1
    nextTaskHost := db.nextTaskHost + spec.targetHostIds.length }

/-- The approval request that creation inserts for a sensitive task. -/
def newApproval (db : ExecDb) (spec : TaskSpec) (taskId : ℕ) (reason : String) :
    ApprovalRequest where
  id := db.nextApproval
  bizType := .exec
  bizId := taskId
  requesterId := (spec.requesterId.or spec.createdBy).getD 0
  sensitiveHit := reason
  status := .pending
  approvalMode := "manual"
  policyRef := none
  approverId := none
  version := 0

/-- `_approve_exec`: the awaiting task of an approved request starts running and an
`exec_dispatch` message is enqueued. -/
def approveExec (env : ExecEnv) (db : ExecDb) (taskId : ℕ) : Except PyErr ExecDb :=
  match db.task? taskId with
  | none => .error (.notFound "linked exec task not found")
  | some task =>
      match db.casTask task.id .awaitingApproval .running task.version with
      | none => .error (.conflict "exec task state changed concurrently")
      | some db =>
          let db := db.setTask task.id fun t => { t with startedAt := some env.now }
          .ok (if env.brokerUp then { db with queue := db.queue ++ [task.id] } else db)

/-- The sensitive branch of the creation: the request is inserted (its `biz_id` must be
unique), the task awaits approval, and a policy hit approves the request at once. -/
def createSensitive (env : ExecEnv) (db : ExecDb) (spec : TaskSpec) (reason : String)
    (policy : Option String) : Except PyErr (ExecDb × Created) :=
  let taskId := db.nextTask
  let db₁ := insertTask env db spec true
  let approval := newApproval db₁ spec taskId reason
  if db₁.approvals.any (fun a => decide (a.bizId = taskId)) then .error .integrityError
  else
    let db₂ := { db₁ with
      approvals := db₁.approvals ++ [approval]
      nextApproval := db₁.nextApproval + 1 }
    let db₃ := db₂.setTask taskId fun t =>
      { t with approvalId := some approval.id, status := .awaitingApproval, version := 1 }
    match policy with
    | none => .ok (db₃, ⟨taskId, .awaitingApproval, true, some approval.id⟩)
    | some ref =>
        let db₄ := db₃.setApproval approval.id fun a =>
          { a with approvalMode := "auto_policy", status := .approved, policyRef := some ref }
        match approveExec env db₄ taskId with
        | .error e => .error e
        | .ok db₅ => .ok (db₅, ⟨taskId, .running, true, some approval.id⟩)

/-- The plain branch of the creation: the task starts running; its caller dispatches it. -/
def createPlain (env : ExecEnv) (db : ExecDb) (spec : TaskSpec) : ExecDb × Created :=
  let db₁ := insertTask env db spec false
  (db₁.setTask db.nextTask fun t =>
      { t with status := .running, version := 1, startedAt := some env.now },
    ⟨db.nextTask, .running, false, none⟩)

/-- `create_exec_task_record`. The host rows of one task carry distinct host ids, so a
repeated target fails at the flush. -/
def createExecTaskRecord (lower : String → String) (env : ExecEnv) (db : ExecDb)
    (spec : TaskSpec) (policy : Option String) : Except PyErr (ExecDb × Created) := do
  checkHosts db spec.visibleGroupIds spec.targetHostIds
  let body ← creationBody db spec
  let (sensitive, reason) :=
    detectSensitive lower db.rules spec.command body spec.targetHostIds.dedup.length
  if ¬ spec.targetHostIds.Nodup then throw .integrityError
  if sensitive then createSensitive env db spec reason policy
  else pure (createPlain env db spec)

/-! ### Cancellation -/

/-- `_close_orphan_approval`: a still-pending request of the task is canceled. -/
def closeOrphanApproval (db : ExecDb) (task : ExecTask) : ExecDb :=
  match task.approvalId with
  | none => db
  | some aid =>
      match db.approval? aid with
      | none => db
      | some a =>
          if a.status = .pending then (db.casApproval a.id .pending .canceled a.version).getD db
          else db

/-- `_EXEC_CANCELLABLE_STATUSES`. -/
def ExecStatus.cancellable : ExecStatus → Bool
  | .created | .awaitingApproval | .approved | .running => true
  | _ => false

/-- `cancel_exec_task_record`: `none` when the task is already terminal. -/
def cancelExecTaskRecord (env : ExecEnv) (db : ExecDb) (task : ExecTask) : Option ExecDb :=
  if task.status.cancellable then
    match db.casTask task.id task.status .canceled task.version with
    | none => none
    | some db =>
        let db := db.setTask task.id fun t => { t with finishedAt := some env.now }
        let db := closeOrphanApproval db task
        some { db with taskHosts := db.taskHosts.map fun th =>
          if th.execTaskId = task.id ∧ (th.status = .pending ∨ th.status = .running) then
            { th with status := .canceled, finishedAt := some env.now }
          else th }
  else none

/-! ### Decisions on an approval request -/

/-- `_require_pending` followed by `_assert_biz_type`. -/
def requirePending (db : ExecDb) (approvalId : ℕ) : Except PyErr ApprovalRequest :=
  match db.approval? approvalId with
  | none => .error (.notFound "approval not found")
  | some a =>
      if a.status ≠ .pending then .error (.conflict "approval already decided")
      else if a.bizType = .unknown then .error (.notFound "unknown approval biz_type")
      else .ok a

/-- Decide a pending request under its version. -/
def decide? (db : ExecDb) (a : ApprovalRequest) (new : ApprovalStatus)
    (approver : Option ℕ) : Except PyErr ExecDb :=
  match db.casApproval a.id .pending new a.version with
  | none => .error (.conflict "approval modified concurrently, refresh and retry")
  | some db => .ok (db.setApproval a.id fun a => { a with approverId := approver })

/-- The awaiting task of a declined request is canceled. -/
def cancelAwaiting (env : ExecEnv) (db : ExecDb) (taskId : ℕ) : ExecDb :=
  match db.task? taskId with
  | some task =>
      if task.status = .awaitingApproval then
        match db.casTask task.id .awaitingApproval .canceled task.version with
        | some db => db.setTask task.id fun t => { t with finishedAt := some env.now }
        | none => db
      else db
  | none => db

/-- `approve`. A terminal or workflow request has no task to start. -/
def approve (env : ExecEnv) (db : ExecDb) (userId approvalId : ℕ) : Except PyErr ExecDb := do
  let a ← requirePending db approvalId
  let db ← decide? db a .approved (some userId)
  if a.bizType = .exec then approveExec env db a.bizId else pure db

/-- `reject`. -/
def reject (env : ExecEnv) (db : ExecDb) (userId approvalId : ℕ) : Except PyErr ExecDb := do
  let a ← requirePending db approvalId
  let db ← decide? db a .rejected (some userId)
  if a.bizType = .exec then pure (cancelAwaiting env db a.bizId) else pure db

/-- `cancel`: only the requester or an administrator may withdraw a request. -/
def cancelApproval (env : ExecEnv) (db : ExecDb) (userId : ℕ) (isAdmin : Bool)
    (approvalId : ℕ) : Except PyErr ExecDb := do
  let a ← requirePending db approvalId
  if a.requesterId ≠ userId ∧ ¬ isAdmin then
    throw (.forbidden "only requester can cancel")
  let db ← decide? db a .canceled a.approverId
  if a.bizType = .exec then pure (cancelAwaiting env db a.bizId) else pure db

end LarkPlat
