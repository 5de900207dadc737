import LarkPlat.ExecCalls
import LarkPlat.ExecEffects

/-!
# Schedule Runs

A schedule creates exec tasks on its own: `_spawn_run` records a run, creates the task with its
host rows, and leaves the task running or awaiting approval. It is a second copy of
`create_exec_task_record`, with no policy, no visibility check and no ssh fallback, and with the
current version of the script pinned. `retry_run` retries the task of a run as `retry_task` does,
and spawns a new run if there is no task to retry.

## Main results

* `spawnRun_eq`: a spawned run is a record and a creation by `create_exec_task_record`.
* `ScheduleDb.retryRun_of_task`: the retry of a run with a retryable task does what `retry_task`
  does.
-/

namespace LarkPlat

/-- The statuses of a schedule run. -/
inductive ScheduleRunStatus
  | running
  | success
  | failed
  | partialSuccess
  deriving DecidableEq, Repr

/-- The columns of `schedule_task` that a run reads. -/
structure ScheduleTask where
  id : ℕ
  name : String
  kind : String
  scriptId : Option ℕ
  command : Option String
  params : List (String × String)
  targetHostIds : List ℕ
  timeoutSec : ℤ
  retry : ℕ
  createdBy : Option ℕ
  deriving DecidableEq

/-- A row of `schedule_run`. -/
structure ScheduleRun where
  id : ℕ
  scheduleTaskId : ℕ
  status : ScheduleRunStatus
  taskId : Option ℕ
  finishedAt : Option ℚ
  errorMsg : Option String
  deriving DecidableEq

/-- The execution tables with the schedules and their runs. -/
structure ScheduleDb where
  exec : ExecDb
  schedules : List ScheduleTask
  runs : List ScheduleRun
  nextRun : ℕ
  deriving DecidableEq

/-- What `_spawn_run` and `retry_run` return. -/
structure RunResult where
  runId : ℕ
  task : Created
  deriving DecidableEq

namespace ScheduleDb

/-- `ScheduleTaskRepository.get`. -/
def schedule? (db : ScheduleDb) (id : ℕ) : Option ScheduleTask :=
  Table.find ScheduleTask.id db.schedules id

/-- `ScheduleRunRepository.get`. -/
def run? (db : ScheduleDb) (id : ℕ) : Option ScheduleRun :=
  Table.find ScheduleRun.id db.runs id

/-- Change one run. -/
def setRun (db : ScheduleDb) (id : ℕ) (f : ScheduleRun → ScheduleRun) : ScheduleDb :=
  { db with runs := Table.modify ScheduleRun.id db.runs id f }

end ScheduleDb

/-! ### `_spawn_run` -/

/-- The script body that a run scans, and the version that it pins. -/
def scheduleBody (db : ExecDb) (sched : ScheduleTask) :
    Except PyErr (Option String × Option ℕ) :=
  if sched.kind = "script" then
    match orDefault sched.scriptId 0 with
    | 0 => .error (.badRequest "script_id required for kind=script")
    | sid =>
        match db.script? sid with
        | none => .error (.notFound "script not found")
        | some script =>
            match db.scriptVersion? script.id script.currentVersion with
            | none => .error (.notFound "script version not found")
            | some sv => .ok (some sv.content, some script.currentVersion)
  else if sched.kind = "command" then
    if sched.command.getD "" = "" then
      .error (.badRequest "command required for kind=command")
    else .ok (none, none)
  else .error (.badRequest "invalid kind")

/-- The task of a run, as the arguments of a creation. -/
def spawnSpec (sched : ScheduleTask) (version : Option ℕ) (requesterId : ℕ) (namePrefix : String) :
    TaskSpec where
  name := namePrefix ++ " " ++ sched.name
  kind := sched.kind
  targetHostIds := sched.targetHostIds
  scriptId := sched.scriptId
  scriptVersion := version
  command := sched.command
  params := sched.params
  mode := "batch"
  timeoutSec := sched.timeoutSec
  retry := sched.retry
  createdBy := some requesterId
  requesterId := some requesterId
  visibleGroupIds := none

/-- The host rows of a run: the executor is the connector of the host. -/
def spawnTaskHosts (env : ExecEnv) (db : ExecDb) (spec : TaskSpec) : List ExecTaskHost :=
  (newTaskHosts env db spec).map fun th =>
    { th with executor := (db.host? th.hostId).elim "" (·.connector) }

/-- The run that `_spawn_run` records. -/
def spawnedRun (db : ScheduleDb) (sched : ScheduleTask) : ScheduleRun where
  id := db.nextRun
  scheduleTaskId := sched.id
  status := .running
  taskId := some db.exec.nextTask
  finishedAt := none
  errorMsg := none

/-- `_spawn_run`. The caller dispatches a task that needs no approval. -/
def spawnRun (lower : String → String) (env : ExecEnv) (db : ScheduleDb) (sched : ScheduleTask)
    (requesterId : ℕ) (namePrefix : String) : Except PyErr (ScheduleDb × RunResult) := do
  checkHosts db.exec none sched.targetHostIds
  let (content, version) ← scheduleBody db.exec sched
  let (sensitive, reason) := detectSensitive lower db.exec.rules sched.command content
    sched.targetHostIds.dedup.length
  let spec := spawnSpec sched version requesterId namePrefix
  let taskId := db.exec.nextTask
  if ¬ sched.targetHostIds.Nodup then throw .integrityError
  let exec : ExecDb := { db.exec with
    tasks := db.exec.tasks ++ [newTask db.exec spec sensitive]
    taskHosts := db.exec.taskHosts ++ spawnTaskHosts env db.exec spec
    nextTask := taskId + 1
    nextTaskHost := db.exec.nextTaskHost + spec.targetHostIds.length }
  let runs := db.runs ++ [spawnedRun db sched]
  if sensitive then
    let approval := newApproval exec spec taskId reason
    if exec.approvals.any (fun a => decide (a.bizId = taskId)) then throw .integrityError
    let exec : ExecDb := { exec with
      approvals := exec.approvals ++ [approval]
      nextApproval := exec.nextApproval + 1 }
    let exec := exec.setTask taskId fun t =>
      { t with approvalId := some approval.id, status := .awaitingApproval, version := 1 }
    pure ({ db with exec := exec, runs := runs, nextRun := db.nextRun + 1 },
      ⟨db.nextRun, ⟨taskId, .awaitingApproval, true, some approval.id⟩⟩)
  else
    let exec := exec.setTask taskId fun t =>
      { t with status := .running, version := 1, startedAt := some env.now }
    pure ({ db with exec := exec, runs := runs, nextRun := db.nextRun + 1 },
      ⟨db.nextRun, ⟨taskId, .running, false, none⟩⟩)

/-! ### `retry_run` -/

/-- The task that a retry of the run takes up: the run belongs to the schedule, which exists, and
its task is retryable. -/
def retryTarget (db : ScheduleDb) (run : ScheduleRun) : Option ExecTask :=
  match orDefault run.taskId 0 with
  | 0 => none
  | taskId => (db.exec.task? taskId).filter fun task => task.status.retryable

/-- The run of a retried task runs again. -/
def ScheduleDb.reopenRun (db : ScheduleDb) (exec : ExecDb) (runId : ℕ) : ScheduleDb :=
  { db with exec := exec }.setRun runId fun r => { r with status := .running, finishedAt := none }

/-- `retry_run` up to its commit. In a complete call no status or version moves between the read
and the guarded update, so that the only failure of a sensitive retry is the taken `biz_id`. -/
def ScheduleDb.retryRun (lower : String → String) (env : ExecEnv) (db : ScheduleDb)
    (userId scheduleId runId : ℕ) : Except PyErr (ScheduleDb × RunResult) :=
  match db.run? runId with
  | none => .error (.notFound "run not found")
  | some run =>
      if run.scheduleTaskId ≠ scheduleId then .error (.notFound "run not found")
      else
        match db.schedule? scheduleId with
        | none => .error (.notFound "schedule not found")
        | some sched =>
            match retryTarget db run with
            | some task =>
                let verdict := detectSensitive lower db.exec.rules task.command
                  (some (retryContent db.exec task)) task.targetHostIds.length
                if verdict.1 then
                  match retrySensitive db.exec task userId verdict.2 with
                  | none => .error .integrityError
                  | some exec => .ok (db.reopenRun exec runId,
                      ⟨runId, ⟨task.id, .awaitingApproval, true, some db.exec.nextApproval⟩⟩)
                else
                  match retryTask env db.exec task
                      (db.exec.rowsWhere task.id HostStatus.retryable) with
                  | none => .error (.conflict "task state changed concurrently")
                  | some exec => .ok (db.reopenRun exec runId,
                      ⟨runId, ⟨task.id, .running, false, none⟩⟩)
            | none => spawnRun lower env db sched userId "[retry]"

/-- `run_now`. -/
def runNow (lower : String → String) (env : ExecEnv) (db : ScheduleDb) (userId scheduleId : ℕ) :
    Except PyErr (ScheduleDb × RunResult) :=
  match db.schedule? scheduleId with
  | none => .error (.notFound "schedule not found")
  | some sched => spawnRun lower env db sched userId "[run-now]"

/-- `trigger_due` at one due schedule: a failure is recorded on a run of its own. -/
def triggerDue (lower : String → String) (env : ExecEnv) (db : ScheduleDb) (sched : ScheduleTask)
    (describe : PyErr → String) : ScheduleDb :=
  match spawnRun lower env db sched (sched.createdBy.getD 0) "[schedule]" with
  | .ok (db, _) => db
  | .error e =>
      { db with
        runs := db.runs ++ [{ id := db.nextRun
                              scheduleTaskId := sched.id
                              status := .failed
                              taskId := none
                              finishedAt := none
                              errorMsg := some (String.ofList ((describe e).toList.take 500)) }]
        nextRun := db.nextRun + 1 }

/-! ### The two copies of the creation -/

/-- The process in which no ssh fallback is possible. -/
def ExecEnv.noFallback (env : ExecEnv) : ExecEnv := { env with sshAvailable := false }

theorem resolveExecutor_noFallback (env : ExecEnv) (rules : ExecRules) (connector : String) :
    resolveExecutor env.noFallback rules connector = connector := by
  simp [resolveExecutor, ExecEnv.noFallback]

theorem spawnTaskHosts_eq (env : ExecEnv) (db : ExecDb) (spec : TaskSpec) :
    spawnTaskHosts env db spec = newTaskHosts env.noFallback db spec := by
  simp only [spawnTaskHosts, newTaskHosts, List.map_map]
  refine List.map_congr_left fun p _ => ?_
  simp only [Function.comp_apply, resolveExecutor_noFallback]

/-- The version that a run pins. -/
def pinnedVersion (db : ExecDb) (sched : ScheduleTask) : Option ℕ :=
  (scheduleBody db sched).toOption.bind (·.2)

theorem orDefault_some (v : ℕ) : orDefault (some v) v = v := by
  cases v <;> rfl

theorem creationBody_spawnSpec (db : ExecDb) (sched : ScheduleTask) (requesterId : ℕ)
    (namePrefix : String) :
    creationBody db (spawnSpec sched (pinnedVersion db sched) requesterId namePrefix) =
      (scheduleBody db sched).map (·.1) := by
  rw [creationBody, scheduleBody]
  by_cases hscript : sched.kind = "script"
  · rw [if_pos (show (spawnSpec _ _ _ _).kind = "script" from hscript), if_pos hscript]
    simp only [spawnSpec]
    rcases hid : orDefault sched.scriptId 0 with _ | sid
    · rfl
    rcases hs : db.script? (sid + 1) with _ | script
    · simp only [hs]
      rfl
    rcases hv : db.scriptVersion? script.id script.currentVersion with _ | sv
    · have hpin : pinnedVersion db sched = none := by
        simp [pinnedVersion, scheduleBody, hscript, hid, hs, hv, Except.toOption]
      simp only [hs, hpin, orDefault, hv]
      rfl
    · have hpin : pinnedVersion db sched = some script.currentVersion := by
        simp [pinnedVersion, scheduleBody, hscript, hid, hs, hv, Except.toOption]
      simp only [hs, hpin, orDefault_some, hv]
      rfl
  · rw [if_neg (show ¬ (spawnSpec _ _ _ _).kind = "script" from hscript), if_neg hscript]
    by_cases hcommand : sched.kind = "command"
    · rw [if_pos (show (spawnSpec _ _ _ _).kind = "command" from hcommand), if_pos hcommand]
      show (if sched.command.getD "" = "" then _ else _) = _
      split_ifs <;> rfl
    · rw [if_neg (show ¬ (spawnSpec _ _ _ _).kind = "command" from hcommand), if_neg hcommand]
      rfl

/-- **The second copy of the creation.** `_spawn_run` records a run and creates its task as
`create_exec_task_record` does for a caller that sees every host, without policy and without ssh
fallback. -/
theorem spawnRun_eq (lower : String → String) (env : ExecEnv) (db : ScheduleDb)
    (sched : ScheduleTask) (requesterId : ℕ) (namePrefix : String) :
    spawnRun lower env db sched requesterId namePrefix =
      (createExecTaskRecord lower env.noFallback db.exec
        (spawnSpec sched (pinnedVersion db.exec sched) requesterId namePrefix) none).map fun r =>
          ({ db with
            exec := r.1
            runs := db.runs ++ [spawnedRun db sched]
            nextRun := db.nextRun + 1 }, ⟨db.nextRun, r.2⟩) := by
  have hbody := creationBody_spawnSpec db.exec sched requesterId namePrefix
  unfold spawnRun createExecTaskRecord
  rw [hbody]
  rcases hc : checkHosts db.exec none sched.targetHostIds with e | _
  · simp only [spawnSpec, hc]
    rfl
  rcases hb : scheduleBody db.exec sched with e | ⟨content, version⟩
  · simp only [spawnSpec, hc]
    rfl
  have hversion : pinnedVersion db.exec sched = version := by
    rw [pinnedVersion, hb]
    rfl
  rw [hversion]
  set spec := spawnSpec sched version requesterId namePrefix with hspec
  have hargs : checkHosts db.exec spec.visibleGroupIds spec.targetHostIds = .ok () := hc
  rw [hargs]
  by_cases hn : sched.targetHostIds.Nodup
  swap
  · have hn' : ¬ spec.targetHostIds.Nodup := hn
    simp only [bind, Except.bind, Except.map, hn, hn', not_false_eq_true, if_true]
    rfl
  have hn' : spec.targetHostIds.Nodup := hn
  simp only [bind, Except.bind, Except.map, hn, hn', not_true_eq_false, if_false, pure,
    Except.pure, spawnTaskHosts_eq]
  have hdetect : detectSensitive lower db.exec.rules sched.command content
      sched.targetHostIds.dedup.length = detectSensitive lower db.exec.rules spec.command content
        spec.targetHostIds.dedup.length := rfl
  rw [hdetect]
  rcases detectSensitive lower db.exec.rules spec.command content
    spec.targetHostIds.dedup.length with ⟨_ | _, reason⟩
  · rfl
  have hsame : (insertTask env.noFallback db.exec spec true).approvals = db.exec.approvals := rfl
  simp only [if_true, createSensitive, hsame]
  split_ifs <;> rfl

/-! ### The sensitive retry -/

variable {env : ExecEnv} {db db' : ExecDb} {id : ℕ}

theorem bizIds_setApproval {f : ApprovalRequest → ApprovalRequest}
    (hf : ∀ a, (f a).bizId = a.bizId) (id : ℕ) : (db.setApproval id f).bizIds = db.bizIds :=
  Table.map_modify fun a _ => hf a

theorem bizIds_casApproval {old new : ApprovalStatus} {version : ℕ}
    (h : db.casApproval id old new version = some db') : db'.bizIds = db.bizIds := by
  obtain ⟨a, -, -, rfl⟩ := casApproval_eq_some h
  refine bizIds_setApproval ?_ id
  exact fun _ => rfl

theorem bizIds_closeOrphanApproval (db : ExecDb) (task : ExecTask) :
    (closeOrphanApproval db task).bizIds = db.bizIds := by
  unfold closeOrphanApproval
  rcases task.approvalId with _ | aid
  · rfl
  dsimp only
  rcases db.approval? aid with _ | a
  · rfl
  dsimp only
  split_ifs
  · rcases hc : db.casApproval a.id .pending .canceled a.version with _ | db'
    · rfl
    · exact bizIds_casApproval hc
  · rfl

/-- The request that a sensitive retry inserts. -/
def retryApproval (db : ExecDb) (taskId userId : ℕ) (reason : String) : ApprovalRequest where
  id := db.nextApproval
  bizType := .exec
  bizId := taskId
  requesterId := userId
  sensitiveHit := reason
  status := .pending
  approvalMode := "manual"
  policyRef := none
  approverId := none
  version := 0

/-- **A sensitive retry** of a stored task fails if some request has the identifier of the task.
Otherwise the task awaits a new request, and the host rows are as they were. -/
theorem retrySensitive_eq {task : ExecTask} (userId : ℕ) (reason : String) (hk : Kept db)
    (ht : db.task? task.id = some task) :
    if task.id ∈ db.bizIds then retrySensitive db task userId reason = none
    else ∃ db', retrySensitive db task userId reason = some db' ∧
      db'.taskHosts = db.taskHosts ∧ db'.bizIds = db.bizIds ++ [task.id] ∧
      db'.task? task.id = some { task with
        status := .awaitingApproval, version := task.version + 1,
        approvalId := some db.nextApproval, sensitiveFlag := true } ∧
      db'.approval? db.nextApproval = some (retryApproval db task.id userId reason) := by
  have hcas : db.casTask task.id task.status .awaitingApproval task.version =
      some (db.setTask task.id fun t =>
        { t with status := .awaitingApproval, version := task.version + 1 }) := by
    rw [ExecDb.casTask, ht]
    exact if_pos ⟨rfl, rfl⟩
  set db₁ := db.setTask task.id fun t =>
    { t with status := .awaitingApproval, version := task.version + 1 } with hdb₁
  obtain ⟨approvals, hclose⟩ := closeOrphanApproval_eq db₁ task
  have hbiz : (closeOrphanApproval db₁ task).bizIds = db.bizIds :=
    bizIds_closeOrphanApproval db₁ task
  have hany : (closeOrphanApproval db₁ task).approvals.any
      (fun a => decide (a.bizId = task.id)) = true ↔ task.id ∈ db.bizIds := by
    rw [← hbiz, List.any_eq_true, ExecDb.bizIds, List.mem_map]
    simp
  have hfree : (closeOrphanApproval db₁ task).approval? db.nextApproval = none := by
    have hbound := (closeOrphanApproval_touches db₁ task none).1.bound db.nextApproval
    rcases ha : db.approval? db.nextApproval with _ | a
    · have hnone : db₁.approval? db.nextApproval = none := ha
      rw [hnone] at hbound
      exact Option.map_eq_none_iff.mp hbound
    · exact absurd (hk.approval_lt _ (by rw [ha]; rfl)) (Nat.lt_irrefl _)
  have ht₁ : db₁.task? task.id =
      some { task with status := .awaitingApproval, version := task.version + 1 } :=
    task?_setTask_self (fun _ => rfl) ht
  unfold retrySensitive
  rw [hcas]
  dsimp only
  split_ifs with hmem hbizid hbizid
  · rfl
  · exact absurd (hany.mpr hmem) hbizid
  · exact absurd (hany.mp hbizid) hmem
  · have hnext : (closeOrphanApproval db₁ task).nextApproval = db.nextApproval := by
      rw [hclose]
      rfl
    have htasks : (closeOrphanApproval db₁ task).taskHosts = db.taskHosts := by
      rw [hclose]
      rfl
    refine ⟨_, rfl, htasks, ?_, ?_, ?_⟩
    · rw [← hbiz]
      exact List.map_append
    · have ht₂ : (closeOrphanApproval db₁ task).task? task.id =
          some { task with status := .awaitingApproval, version := task.version + 1 } := by
        rw [hclose]
        exact ht₁
      rw [← hnext]
      refine task?_setTask_self ?_ ht₂
      exact fun _ => rfl
    · have hfind := @Table.find_concat_self _ _ _ ApprovalRequest.id
        (closeOrphanApproval db₁ task).approvals (retryApproval db task.id userId reason) hfree
      simp only [retryApproval, ← hnext] at hfind ⊢
      exact hfind

/-! ### The two copies of the retry -/

/-- What a retry does with its task under a verdict of `detect_sensitive`. -/
def retryBranch (env : ExecEnv) (db : ExecDb) (userId : ℕ) (task : ExecTask)
    (verdict : Bool × String) : Option ExecDb :=
  if verdict.1 then retrySensitive db task userId verdict.2
  else retryTask env db task (db.rowsWhere task.id HostStatus.retryable)

/-- The verdict of a retry. -/
def retryVerdict (lower : String → String) (db : ExecDb) (task : ExecTask) : Bool × String :=
  detectSensitive lower db.rules task.command (some (retryContent db task))
    task.targetHostIds.length

/-- `retry_task` on a retryable task. -/
theorem retryCall_of_task {lower : String → String} {userId : ℕ} {task : ExecTask}
    (ht : db.task? task.id = some task) (hst : task.status.retryable = true) :
    retryCall lower env db userId task.id =
      retryBranch env db userId task (retryVerdict lower db task) := by
  rw [retryCall, ht, Option.bind_some, if_pos hst]
  rfl

/-- **The second copy of the retry.** The retry of a run with a retryable task does to the task
what `retry_task` does, and lets the run run again. -/
theorem ScheduleDb.retryRun_of_task {lower : String → String} {db : ScheduleDb}
    {userId scheduleId : ℕ} {run : ScheduleRun} {task : ExecTask} (hrun : db.run? run.id = some run)
    (hbelongs : run.scheduleTaskId = scheduleId) (hsched : (db.schedule? scheduleId).isSome = true)
    (ht : retryTarget db run = some task) :
    (db.retryRun lower env userId scheduleId run.id).toOption.map (·.1) =
      (retryBranch env db.exec userId task (retryVerdict lower db.exec task)).map
        fun exec => db.reopenRun exec run.id := by
  obtain ⟨sched, hsched⟩ := Option.isSome_iff_exists.mp hsched
  have hverdict : retryVerdict lower db.exec task = detectSensitive lower db.exec.rules
    task.command (some (retryContent db.exec task)) task.targetHostIds.length := rfl
  rw [ScheduleDb.retryRun, hrun]
  dsimp only
  rw [if_neg (not_not.mpr hbelongs), hsched]
  dsimp only
  rw [ht]
  dsimp only
  rw [← hverdict, retryBranch]
  split_ifs
  · rcases retrySensitive db.exec task userId (retryVerdict lower db.exec task).2 with _ | exec
    · rfl
    · rfl
  · rcases retryTask env db.exec task (db.exec.rowsWhere task.id HostStatus.retryable) with
      _ | exec
    · rfl
    · rfl

end LarkPlat
