import LarkPlat.LiveHosts
import LarkPlat.Schedules
import LarkPlat.SshPath

/-!
# Retrying Directly and Through Approval

A retry that finds nothing sensitive resets the ended rows of the task to `pending` and dispatches
it. A retry that finds something sensitive makes the task await a new request, and its approval
dispatches the task; it does not touch the rows. The dispatch starts pending rows only, so that
after an approval the rows that had failed, timed out or been canceled are not run again, and a task
with no pending row stays `running` for ever. A task that already had a request cannot even get its
new one, since `biz_id` is unique.

## Main results

* `concludes_of_waiting`: a running task whose rows have succeeded or are pending reaches its
  aggregate.
* `retry_paths_agree_iff`: the two paths run the same rows and both end if and only if the task had
  a request, or all its rows had succeeded or were still pending and some row was pending.
* `approved_retry_runs_nothing`: a failed task, retried and approved, is never run again.
-/

namespace LarkPlat

open Machine

variable {lower : String → String} {db db' : ExecDb} {id : ℕ}

/-! ### Runs of rows -/

/-- The dispatch gets every permit that it asks for. -/
def DispatchEnv.Granted (env : DispatchEnv) : Prop := ∀ row, env.acquires row = true

/-- A dispatch of the task runs the row: the task runs, and the claiming loop starts the row. -/
def Runs (env : DispatchEnv) (db : ExecDb) (taskId row : ℕ) : Prop :=
  (∃ t ∈ db.task? taskId, t.status = .running) ∧
    ∃ th ∈ startedRows env (db.hostsOfTask taskId), th.id = row

/-- The result that an agent sends for one row. -/
structure ResultFrame where
  now : ℚ
  row : ℕ
  status : String
  exitCode : Option ℤ

/-- `_persist_result` up to its end: the row is written and its task is finalised. -/
def receive (taskId : ℕ) (db : ExecDb) (f : ResultFrame) : ExecDb :=
  Pool.maybeFinalizeTask f.now ((Pool.idle db).persistResult f.now f.row f.status f.exitCode).db taskId

/-- The rows that a dispatch of the task leaves with an agent. -/
def agentRows (lower : String → String) (env : DispatchEnv) (db : ExecDb) (taskId : ℕ) : List ℕ :=
  ((execDispatch lower env db taskId).2.filter fun h => decide (h.via = .agent)).map (·.taskHostId)

/-- The task has the aggregate of its rows. -/
def Aggregated (db : ExecDb) (taskId : ℕ) : Prop :=
  ∃ t ∈ db.task? taskId, t.status = aggregate ((db.hostsOfTask taskId).map (·.status))

/-- After a dispatch that gets its permits, and one result for each row that it leaves with an
agent, the task has the aggregate of its rows. -/
def Concludes (db : ExecDb) (taskId : ℕ) : Prop :=
  ∀ (lower : String → String) (env : DispatchEnv) (frames : List ResultFrame), env.Granted →
    (frames.map ResultFrame.row).Perm (agentRows lower env db taskId) →
      Aggregated (frames.foldl (receive taskId) (execDispatch lower env db taskId).1) taskId

/-! ### The retries -/

/-- The two entry points of a retry. -/
inductive RetryEntry
  /-- `retry_task`. -/
  | task (taskId : ℕ)
  /-- `retry_run` of a schedule. -/
  | run (scheduleId runId : ℕ)

/-- The retryable task that the call takes up. -/
def RetryEntry.target (db : ScheduleDb) : RetryEntry → Option ExecTask
  | .task taskId => (db.exec.task? taskId).filter fun task => task.status.retryable
  | .run scheduleId runId =>
      ((db.run? runId).filter fun run =>
        decide (run.scheduleTaskId = scheduleId) && (db.schedule? scheduleId).isSome).bind
          (retryTarget db)

/-- The call up to its commit. -/
def RetryEntry.apply (lower : String → String) (env : ExecEnv) (userId : ℕ) (db : ScheduleDb) :
    RetryEntry → Option ScheduleDb
  | .task taskId => (retryCall lower env db.exec userId taskId).map fun exec =>
      { db with exec := exec }
  | .run scheduleId runId => (db.retryRun lower env userId scheduleId runId).toOption.map (·.1)

/-- The two paths agree on the tables `db` of a task: the dispatch after the approval runs the same
rows as the dispatch after the direct retry, which are all rows that had not succeeded if every
permit is granted, and both bring the task to its aggregate. -/
structure SamePaths (db : ExecDb) (taskId : ℕ) (approved direct : ExecDb) : Prop where
  same : ∀ env row, Runs env approved taskId row ↔ Runs env direct taskId row
  runsAll : ∀ env : DispatchEnv, env.Granted → ∀ row, Runs env direct taskId row ↔
    ∃ th ∈ db.hostsOfTask taskId, th.id = row ∧ th.status ≠ .success
  approvedEnds : Concludes approved taskId
  directEnds : Concludes direct taskId

/-- The sensitive retry of the task, once its new request is approved, agrees with the direct
retry. -/
def ApprovalAgrees (lower : String → String) (env : ExecEnv) (userId : ℕ) (db : ScheduleDb)
    (entry : RetryEntry) (task : ExecTask) : Prop :=
  ∀ retried, entry.apply lower env userId db = some retried →
    ∀ env' approver approved,
      approve env' retried.exec approver db.exec.nextApproval = .ok approved →
        ∀ direct, retryTask env db.exec task (db.exec.rowsWhere task.id HostStatus.retryable) =
          some direct → SamePaths db.exec task.id approved direct

/-- Every row of the task has succeeded or is pending, and some row is pending. -/
def Waiting (db : ExecDb) (taskId : ℕ) : Prop :=
  (∀ th ∈ db.hostsOfTask taskId, th.status = .success ∨ th.status = .pending) ∧
    ∃ th ∈ db.hostsOfTask taskId, th.status = .pending

/-! ### The rows after a dispatch -/

theorem taskHosts_foldl_setTaskHost {f : ExecTaskHost → ExecTaskHost → ExecTaskHost}
    (hf : ∀ th r, (f th r).id = r.id) {rows : List ExecTaskHost}
    (hn : (rows.map ExecTaskHost.id).Nodup) (db : ExecDb) :
    (rows.foldl (fun acc r => acc.setTaskHost r.id (f r)) db).taskHosts =
      db.taskHosts.map fun th => ((Table.find ExecTaskHost.id rows th.id).map (f · th)).getD th := by
  induction rows generalizing db with
  | nil => exact (List.map_id _).symm
  | cons r rows ih =>
      obtain ⟨hr, hn⟩ := List.nodup_cons.mp hn
      rw [List.foldl_cons, ih hn, ExecDb.setTaskHost, Table.modify, List.map_map]
      refine List.map_congr_left fun th _ => ?_
      rw [Function.comp_apply, Table.find_cons]
      by_cases hid : th.id = r.id
      · have hnone : Table.find ExecTaskHost.id rows r.id = none := Table.find_eq_none_iff.mpr hr
        rw [if_pos hid, if_pos hid.symm, hf, hid, hnone]
        rfl
      · rw [if_neg hid, if_neg fun h => hid h.symm]

theorem hostsOfTask_foldl_setTaskHost {f : ExecTaskHost → ExecTaskHost → ExecTaskHost}
    (hf : ∀ th r, (f th r).id = r.id ∧ (f th r).execTaskId = r.execTaskId)
    {rows : List ExecTaskHost} (hn : (rows.map ExecTaskHost.id).Nodup) (db : ExecDb) (id : ℕ) :
    (rows.foldl (fun acc r => acc.setTaskHost r.id (f r)) db).hostsOfTask id =
      (db.hostsOfTask id).map fun th =>
        ((Table.find ExecTaskHost.id rows th.id).map (f · th)).getD th := by
  unfold ExecDb.hostsOfTask
  rw [taskHosts_foldl_setTaskHost (fun th r => (hf th r).1) hn, List.filter_map]
  congr 1
  refine List.filter_congr fun th _ => ?_
  rw [Function.comp_apply]
  rcases Table.find ExecTaskHost.id rows th.id with _ | r
  · rfl
  · rw [Option.map_some, Option.getD_some, (hf r th).2]

theorem hostsOfTask_setTaskHost {f : ExecTaskHost → ExecTaskHost}
    (hf : ∀ th, (f th).execTaskId = th.execTaskId) (row : ℕ) :
    (db.setTaskHost row f).hostsOfTask id =
      (db.hostsOfTask id).map fun th => if th.id = row then f th else th := by
  unfold ExecDb.hostsOfTask ExecDb.setTaskHost Table.modify
  rw [List.filter_map]
  congr 1
  refine List.filter_congr fun th _ => ?_
  rw [Function.comp_apply]
  split_ifs
  · rw [hf]
  · rfl

/-! ### Results of agents -/

/-- The task runs, its rows have ended except for the listed ones, and these are running. -/
structure Expecting (db : ExecDb) (taskId : ℕ) (rows : List ℕ) : Prop where
  running : ∃ t, db.task? taskId = some t ∧ t.status = .running
  nonempty : db.hostsOfTask taskId ≠ []
  nodup : rows.Nodup
  found : ∀ row ∈ rows, ∃ th ∈ db.hostsOfTask taskId, th.id = row
  live : ∀ th ∈ db.hostsOfTask taskId,
    th.status ≠ .pending ∧ (th.status = .running ↔ th.id ∈ rows)

theorem Expecting.perm {rows rows' : List ℕ} (h : Expecting db id rows) (hp : rows'.Perm rows) :
    Expecting db id rows' where
  running := h.running
  nonempty := h.nonempty
  nodup := hp.nodup_iff.mpr h.nodup
  found row hrow := h.found row (hp.mem_iff.mp hrow)
  live th hth := ⟨(h.live th hth).1, (h.live th hth).2.trans hp.mem_iff.symm⟩

theorem Expecting.live_iff {rows : List ℕ} (h : Expecting db id rows) :
    (.running ∈ (db.hostsOfTask id).map (·.status) ∨
      .pending ∈ (db.hostsOfTask id).map (·.status)) ↔ rows ≠ [] := by
  constructor
  · rintro (hmem | hmem)
    · obtain ⟨th, hth, hst⟩ := List.mem_map.mp hmem
      exact List.ne_nil_of_mem ((h.live th hth).2.mp hst)
    · obtain ⟨th, hth, hst⟩ := List.mem_map.mp hmem
      exact absurd hst (h.live th hth).1
  · intro hne
    obtain ⟨row, rest, rfl⟩ := List.exists_cons_of_ne_nil hne
    obtain ⟨th, hth, hrow⟩ := h.found row List.mem_cons_self
    refine Or.inl (List.mem_map.mpr ⟨th, hth, (h.live th hth).2.mpr ?_⟩)
    rw [hrow]
    exact List.mem_cons_self

theorem aggregated_setTask {f : ExecTask → ExecTask} {t : ExecTask} (hf : ∀ t, (f t).id = t.id)
    (ht : db.task? id = some t)
    (hst : (f t).status = aggregate ((db.hostsOfTask id).map (·.status))) :
    Aggregated (db.setTask id f) id :=
  ⟨f t, task?_setTask_self hf ht, hst⟩

/-- `_maybe_finalize_task` waits for the results that are expected. -/
theorem Expecting.finalize {rows : List ℕ} (h : Expecting db id rows) (now : ℚ) :
    if rows = [] then Aggregated (Pool.maybeFinalizeTask now db id) id
    else Pool.maybeFinalizeTask now db id = db := by
  obtain ⟨t, ht, hrun⟩ := h.running
  have hsome : (db.hostsOfTask id).map (·.status) ≠ [] := by
    rw [Ne, List.map_eq_nil_iff]
    exact h.nonempty
  unfold Pool.maybeFinalizeTask
  rw [ht]
  dsimp only
  split_ifs with hnil hstay hstay
  · rcases hstay with hne | hempty | hlive
    · exact absurd hrun hne
    · exact absurd hempty hsome
    · exact absurd hnil (h.live_iff.mp hlive)
  · refine aggregated_setTask ?_ ht rfl
    exact fun _ => rfl
  · rfl
  · exact absurd (Or.inr (Or.inr (h.live_iff.mpr hnil))) hstay

/-- The aggregation of `exec_dispatch` waits for the results that are expected. -/
theorem Expecting.settle {rows : List ℕ} {task : ExecTask} (env : ExecEnv)
    (h : Expecting db task.id rows) (ht : db.task? task.id = some task) :
    if rows = [] then Aggregated (settleTask env db task) task.id
    else settleTask env db task = db := by
  have hpending : .pending ∉ (db.hostsOfTask task.id).map (·.status) := by
    intro hmem
    obtain ⟨th, hth, hst⟩ := List.mem_map.mp hmem
    exact (h.live th hth).1 hst
  unfold settleTask
  dsimp only
  split_ifs with hnil hlive hsend hlive hsend
  · exact absurd hnil (h.live_iff.mp hlive)
  · exact absurd hnil (h.live_iff.mp hlive)
  · refine aggregated_setTask ?_ ht rfl
    exact fun _ => rfl
  · exact absurd hsend.1 hpending
  · rfl
  · exact absurd (h.live_iff.mpr hnil) hlive

theorem Expecting.receive {f : ResultFrame} {rows : List ℕ} (h : Expecting db id (f.row :: rows)) :
    if rows = [] then Aggregated (receive id db f) id else Expecting (receive id db f) id rows := by
  obtain ⟨hfresh, hnodup⟩ := List.nodup_cons.mp h.nodup
  set db₁ := ((Pool.idle db).persistResult f.now f.row f.status f.exitCode).db with hdb₁
  have hrows : db₁.hostsOfTask id = (db.hostsOfTask id).map fun th =>
      if th.id = f.row then { th with
        status := Pool.frameStatus f.status, exitCode := f.exitCode, finishedAt := some f.now }
      else th := by
    refine hostsOfTask_setTaskHost ?_ f.row
    exact fun _ => rfl
  have hterm := frameStatus_terminal f.status
  have hexp : Expecting db₁ id rows := by
    refine ⟨h.running, ?_, hnodup, ?_, ?_⟩
    · rw [hrows, Ne, List.map_eq_nil_iff]
      exact h.nonempty
    · intro row hrow
      obtain ⟨th, hth, rfl⟩ := h.found row (List.mem_cons_of_mem _ hrow)
      have hne : th.id ≠ f.row := fun he => hfresh (he ▸ hrow)
      exact ⟨th, hrows ▸ List.mem_map.mpr ⟨th, hth, if_neg hne⟩, rfl⟩
    · intro th hth
      rw [hrows] at hth
      obtain ⟨th₀, hth₀, rfl⟩ := List.mem_map.mp hth
      split_ifs with hrow
      · refine ⟨fun hst => ?_, fun hst => ?_, fun hmem => ?_⟩
        · rw [show Pool.frameStatus f.status = .pending from hst] at hterm
          cases hterm
        · rw [show Pool.frameStatus f.status = .running from hst] at hterm
          cases hterm
        · exact absurd (hrow ▸ hmem) hfresh
      · refine ⟨(h.live th₀ hth₀).1, (h.live th₀ hth₀).2.trans ?_⟩
        rw [List.mem_cons, or_iff_right hrow]
  have hfin := hexp.finalize f.now
  split_ifs at hfin ⊢
  · exact hfin
  · rw [LarkPlat.receive, ← hdb₁, hfin]
    exact hexp

/-- **All results.** Once every expected result has arrived, the task has its aggregate. -/
theorem Expecting.receive_all {frames : List ResultFrame} (hne : frames ≠ [])
    (h : Expecting db id (frames.map ResultFrame.row)) :
    Aggregated (frames.foldl (LarkPlat.receive id) db) id := by
  induction frames generalizing db with
  | nil => exact absurd rfl hne
  | cons f frames ih =>
      have hone := h.receive
      rw [List.foldl_cons]
      by_cases hnil : frames = []
      · subst hnil
        exact hone
      · rw [if_neg (List.map_eq_nil_iff.not.mpr hnil)] at hone
        exact ih hnil hone

/-! ### The dispatch of a waiting task -/

theorem agentRows_log (g : ExecTaskHost → Option Via) (content : String)
    (rows : List ExecTaskHost) :
    (((rows.filterMap fun th => (g th).map fun via =>
        (⟨db, id, th.id, via, content⟩ : Handout)).filter fun h =>
          decide (h.via = .agent)).map Handout.taskHostId) =
      (rows.filter fun th => decide (g th = some .agent)).map ExecTaskHost.id := by
  induction rows with
  | nil => rfl
  | cons th rows ih =>
      rcases hg : g th with _ | via
      · simp [hg, ih]
      · by_cases hvia : via = .agent
        · simp [hg, hvia, ih]
        · simp [hg, hvia, ih]

/-- A row stays running if and only if an agent took it; otherwise it has ended. -/
theorem handOver_running {env : DispatchEnv} {task : ExecTask} {content : String} {n : ℕ}
    {th : ExecTaskHost} :
    (handOver lower env db task content n th).2 ≠ .pending ∧
      ((handOver lower env db task content n th).2 = .running ↔
        (handOver lower env db task content n th).1 = some .agent) := by
  unfold handOver
  split_ifs <;> simp

theorem finishRow_status {now : ℚ} {th : ExecTaskHost} {status : HostStatus}
    (h : status = .success ∨ status = .failed ∨ status = .running) :
    (finishRow now th status).status = status := by
  rcases h with rfl | rfl | rfl <;> rfl

theorem handOver_status {env : DispatchEnv} {task : ExecTask} {content : String} {n : ℕ}
    {th : ExecTaskHost} :
    (handOver lower env db task content n th).2 = .success ∨
      (handOver lower env db task content n th).2 = .failed ∨
      (handOver lower env db task content n th).2 = .running := by
  unfold handOver
  split_ifs <;> simp

/-- The outcome of the handover of a row of the task. -/
def rowOutcome (lower : String → String) (env : DispatchEnv) (db : ExecDb) (t : ExecTask) :
    ExecTaskHost → Option Via × HostStatus :=
  handOver lower env db t (resolveContent db t) (db.hostsOfTask t.id).length

/-- The tables after the handover of all pending rows of the task. -/
def handedTables (lower : String → String) (env : DispatchEnv) (db : ExecDb) (t : ExecTask) :
    ExecDb :=
  (pendingRows db t.id).foldl (fun acc th =>
    acc.setTaskHost th.id fun r => finishRow env.now r (rowOutcome lower env db t th).2) db

section Granted

variable {env : DispatchEnv} {t : ExecTask} {th th' : ExecTaskHost}

theorem mem_pendingRows {taskId : ℕ} :
    th ∈ pendingRows db taskId ↔ th ∈ db.hostsOfTask taskId ∧ th.status = .pending := by
  rw [pendingRows, List.mem_filter, decide_eq_true_eq]

theorem nodup_pendingRows (hkeys : (db.taskHosts.map ExecTaskHost.id).Nodup) (taskId : ℕ) :
    ((pendingRows db taskId).map ExecTaskHost.id).Nodup :=
  hkeys.sublist (((List.filter_sublist).trans List.filter_sublist).map _)

theorem pendingRows_unique (hkeys : (db.taskHosts.map ExecTaskHost.id).Nodup) {taskId : ℕ}
    (hth : th ∈ db.hostsOfTask taskId) (hth' : th' ∈ pendingRows db taskId)
    (hid : th'.id = th.id) : th' = th :=
  List.inj_on_of_nodup_map hkeys (mem_hostsOfTask.mp (mem_pendingRows.mp hth').1).1
    (mem_hostsOfTask.mp hth).1 hid

theorem execDispatch_of_granted (ht : db.task? t.id = some t) (hrun : t.status = .running)
    (hg : env.Granted) (hne : pendingRows db t.id ≠ []) :
    execDispatch lower env db t.id = (settleTask env.toExecEnv (handedTables lower env db t) t,
      (pendingRows db t.id).filterMap fun th => (rowOutcome lower env db t th).1.map fun via =>
        ⟨db, t.id, th.id, via, resolveContent db t⟩) := by
  have hstarted : startedRows env (db.hostsOfTask t.id) = pendingRows db t.id :=
    startedRows_of_acquires hg _
  have hnonempty : ¬ (pendingRows db t.id).isEmpty = true := by
    rw [List.isEmpty_iff]
    exact hne
  rw [execDispatch, ht]
  dsimp only
  rw [hstarted, if_pos hrun, if_neg hnonempty]
  rfl

theorem agentRows_of_granted (ht : db.task? t.id = some t) (hrun : t.status = .running)
    (hg : env.Granted) (hne : pendingRows db t.id ≠ []) :
    agentRows lower env db t.id = ((pendingRows db t.id).filter fun th =>
      decide ((rowOutcome lower env db t th).1 = some .agent)).map ExecTaskHost.id := by
  rw [agentRows, execDispatch_of_granted ht hrun hg hne]
  exact agentRows_log _ _ _

theorem mem_agentRows_iff (hkeys : (db.taskHosts.map ExecTaskHost.id).Nodup)
    (ht : db.task? t.id = some t) (hrun : t.status = .running) (hg : env.Granted)
    (hne : pendingRows db t.id ≠ []) (hth : th ∈ db.hostsOfTask t.id) :
    th.id ∈ agentRows lower env db t.id ↔
      th ∈ pendingRows db t.id ∧ (rowOutcome lower env db t th).1 = some .agent := by
  rw [agentRows_of_granted ht hrun hg hne]
  constructor
  · intro h
    obtain ⟨th', hth', hid⟩ := List.mem_map.mp h
    obtain ⟨hth', hvia⟩ := List.mem_filter.mp hth'
    obtain rfl := pendingRows_unique hkeys hth hth' hid
    exact ⟨hth', of_decide_eq_true hvia⟩
  · rintro ⟨hth', hvia⟩
    exact List.mem_map.mpr ⟨th, List.mem_filter.mpr ⟨hth', by simpa using hvia⟩, rfl⟩

/-- The rows of the task after the handovers: each pending one has its outcome. -/
theorem hostsOfTask_handedTables (hkeys : (db.taskHosts.map ExecTaskHost.id).Nodup) :
    (handedTables lower env db t).hostsOfTask t.id = (db.hostsOfTask t.id).map fun th =>
      ((Table.find ExecTaskHost.id (pendingRows db t.id) th.id).map fun r =>
        finishRow env.now th (rowOutcome lower env db t r).2).getD th := by
  refine hostsOfTask_foldl_setTaskHost
    (f := fun th r => finishRow env.now r (rowOutcome lower env db t th).2) ?_
    (nodup_pendingRows hkeys t.id) db t.id
  exact fun th r => finishRow_fixed env.now r (rowOutcome lower env db t th).2

theorem finishRow_rowOutcome (now : ℚ) :
    (finishRow now th (rowOutcome lower env db t th).2).status =
      (rowOutcome lower env db t th).2 :=
  finishRow_status handOver_status

theorem task?_handedTables (i : ℕ) : (handedTables lower env db t).task? i = db.task? i := by
  obtain ⟨taskHosts, hfold⟩ := foldl_setTaskHost_eq (pendingRows db t.id)
    (fun th r => finishRow env.now r (rowOutcome lower env db t th).2) db
  rw [handedTables, hfold]
  rfl

end Granted

/-- **The dispatch of a waiting task** starts all pending rows, and then expects a result for each
row that an agent took. -/
theorem execDispatch_of_waiting {env : DispatchEnv} {t : ExecTask}
    (hkeys : (db.taskHosts.map ExecTaskHost.id).Nodup) (ht : db.task? id = some t)
    (hrun : t.status = .running) (hw : Waiting db id) (hg : env.Granted) :
    ∃ db₁, (execDispatch lower env db id).1 = settleTask env.toExecEnv db₁ t ∧
      db₁.task? id = some t ∧ Expecting db₁ id (agentRows lower env db id) := by
  obtain rfl : t.id = id := Table.key_of_find ht
  obtain ⟨th₀, hth₀, hst₀⟩ := hw.2
  have hne : pendingRows db t.id ≠ [] := List.ne_nil_of_mem (mem_pendingRows.mpr ⟨hth₀, hst₀⟩)
  have hagent := @agentRows_of_granted lower db env t ht hrun hg hne
  have hrows := @hostsOfTask_handedTables lower db env t hkeys
  have htask : (handedTables lower env db t).task? t.id = some t :=
    (task?_handedTables t.id).trans ht
  refine ⟨handedTables lower env db t, ?_, htask, ⟨t, htask, hrun⟩, ?_, ?_, ?_, ?_⟩
  · rw [execDispatch_of_granted ht hrun hg hne]
  · rw [hrows, Ne, List.map_eq_nil_iff]
    exact List.ne_nil_of_mem hth₀
  · rw [hagent]
    exact (nodup_pendingRows hkeys t.id).sublist (List.filter_sublist.map _)
  · intro row hrow
    rw [hagent] at hrow
    obtain ⟨th, hth, rfl⟩ := List.mem_map.mp hrow
    have hmem := (mem_pendingRows.mp (List.mem_filter.mp hth).1).1
    refine ⟨_, hrows ▸ List.mem_map.mpr ⟨th, hmem, rfl⟩, ?_⟩
    rcases Table.find ExecTaskHost.id (pendingRows db t.id) th.id with _ | r
    · rfl
    · exact (finishRow_fixed env.now th (rowOutcome lower env db t r).2).1
  · intro th₁ hth₁
    rw [hrows] at hth₁
    obtain ⟨th, hth, rfl⟩ := List.mem_map.mp hth₁
    rcases hfind : Table.find ExecTaskHost.id (pendingRows db t.id) th.id with _ | r
    · -- a row that is not started had succeeded
      have hout : th ∉ pendingRows db t.id := by
        intro hin
        exact Table.find_eq_none_iff.mp hfind (List.mem_map_of_mem hin)
      have hsuccess : th.status = .success :=
        (hw.1 th hth).resolve_right fun hp => hout (mem_pendingRows.mpr ⟨hth, hp⟩)
      rw [Option.map_none, Option.getD_none, mem_agentRows_iff hkeys ht hrun hg hne hth, hsuccess]
      simp [hout]
    · have hin := Table.mem_of_find hfind
      obtain rfl := pendingRows_unique hkeys hth hin (Table.key_of_find hfind)
      rw [Option.map_some, Option.getD_some,
        (finishRow_fixed env.now r (rowOutcome lower env db t r).2).1, finishRow_rowOutcome,
        mem_agentRows_iff hkeys ht hrun hg hne hth, and_iff_right hin]
      exact handOver_running

/-- **A waiting task ends.** A running task whose rows have succeeded or are pending reaches its
aggregate. -/
theorem concludes_of_waiting {t : ExecTask} (hkeys : (db.taskHosts.map ExecTaskHost.id).Nodup)
    (ht : db.task? id = some t) (hrun : t.status = .running) (hw : Waiting db id) :
    Concludes db id := by
  intro lower env frames hg hperm
  obtain ⟨db₁, hdispatch, ht₁, hexp⟩ := @execDispatch_of_waiting lower _ _ _ _ hkeys ht hrun hw hg
  obtain rfl : t.id = id := Table.key_of_find ht
  have hsettle := hexp.settle env.toExecEnv ht₁
  rw [hdispatch]
  by_cases hnil : frames = []
  · subst hnil
    rw [if_pos (List.perm_nil.mp hperm.symm)] at hsettle
    exact hsettle
  · have hne : agentRows lower env db t.id ≠ [] := by
      intro he
      rw [he] at hperm
      exact hnil (List.map_eq_nil_iff.mp (List.perm_nil.mp hperm))
    rw [if_neg hne] at hsettle
    rw [hsettle]
    exact (hexp.perm hperm).receive_all hnil

theorem pending_of_concludes {t : ExecTask} (ht : db.task? id = some t)
    (hrun : t.status = .running) (h : Concludes db id) :
    ∃ th ∈ db.hostsOfTask id, th.status = .pending := by
  by_contra hnone
  have hstarted : startedRows openEnv (db.hostsOfTask id) = [] := by
    rw [startedRows_of_acquires fun _ => rfl, List.filter_eq_nil_iff]
    intro th hth hst
    exact hnone ⟨th, hth, of_decide_eq_true hst⟩
  have hdispatch : execDispatch (fun s => s) openEnv db id = (db, []) := by
    rw [execDispatch, ht]
    dsimp only
    rw [if_pos hrun, hstarted]
    rfl
  have hrows : agentRows (fun s => s) openEnv db id = [] := by
    rw [agentRows, hdispatch]
    rfl
  obtain ⟨t', ht', hst⟩ := h (fun s => s) openEnv [] (fun _ => rfl) (by rw [hrows]; rfl)
  rw [List.foldl_nil, hdispatch] at ht' hst
  obtain rfl := Option.some.inj (ht.symm.trans ht')
  have hterm := aggregate_terminal ((db.hostsOfTask id).map (·.status))
  rw [← hst, hrun] at hterm
  cases hterm

/-! ### The two paths -/

theorem runs_iff_pending {env : DispatchEnv} {t : ExecTask} (ht : db.task? id = some t)
    (hrun : t.status = .running) (hg : env.Granted) (row : ℕ) :
    Runs env db id row ↔ ∃ th ∈ db.hostsOfTask id, th.id = row ∧ th.status = .pending := by
  rw [Runs, startedRows_of_acquires hg, and_iff_right ⟨t, ht, hrun⟩]
  constructor
  · rintro ⟨th, hth, hid⟩
    obtain ⟨hth, hst⟩ := List.mem_filter.mp hth
    exact ⟨th, hth, hid, of_decide_eq_true hst⟩
  · rintro ⟨th, hth, hid, hst⟩
    exact ⟨th, List.mem_filter.mpr ⟨hth, by simpa using hst⟩, hid⟩

/-- The entry points find a stored, retryable task, and do to it what its verdict asks for. -/
theorem RetryEntry.apply_exec {entry : RetryEntry} {sdb : ScheduleDb} {task : ExecTask}
    (env : ExecEnv) (userId : ℕ) (h : entry.target sdb = some task) :
    sdb.exec.task? task.id = some task ∧
      (entry.apply lower env userId sdb).map ScheduleDb.exec =
        retryBranch env sdb.exec userId task (retryVerdict lower sdb.exec task) := by
  cases entry with
  | task taskId =>
      obtain ⟨ht, hst⟩ := Option.filter_eq_some_iff.mp h
      obtain rfl : task.id = taskId := Table.key_of_find ht
      refine ⟨ht, ?_⟩
      rw [RetryEntry.apply, retryCall_of_task ht hst, Option.map_map]
      exact Option.map_id'
  | run scheduleId runId =>
      obtain ⟨run, hrun, htarget⟩ := Option.bind_eq_some_iff.mp h
      obtain ⟨hrun, hcheck⟩ := Option.filter_eq_some_iff.mp hrun
      obtain ⟨hbelongs, hsched⟩ := Bool.and_eq_true_iff.mp hcheck
      obtain rfl : run.id = runId := Table.key_of_find hrun
      have ht : sdb.exec.task? task.id = some task := by
        have htarget' := htarget
        unfold retryTarget at htarget'
        rcases hid : orDefault run.taskId 0 with _ | taskId
        · rw [hid] at htarget'
          cases htarget'
        · rw [hid] at htarget'
          obtain ⟨ht, -⟩ := Option.filter_eq_some_iff.mp htarget'
          rwa [show task.id = taskId + 1 from Table.key_of_find ht]
      refine ⟨ht, ?_⟩
      rw [RetryEntry.apply, ScheduleDb.retryRun_of_task hrun (of_decide_eq_true hbelongs) hsched
        htarget, Option.map_map]
      exact Option.map_id'

/-- The direct retry of a stored task: the task runs, and its retryable rows are pending. -/
theorem retryTask_eq {task : ExecTask} (env : ExecEnv) (rows : List ℕ)
    (ht : db.task? task.id = some task) :
    ∃ db' t, retryTask env db task rows = some db' ∧ db'.task? task.id = some t ∧
      t.status = .running ∧ db'.taskHosts = db.taskHosts.map fun th =>
        if th.id ∈ rows then { th with status := .pending } else th := by
  have hcas : db.casTask task.id task.status .running task.version = some (db.setTask task.id
      fun t => { t with status := .running, version := task.version + 1 }) := by
    rw [ExecDb.casTask, ht]
    exact if_pos ⟨rfl, rfl⟩
  set db₁ := (db.setTask task.id
    fun t => { t with status := .running, version := task.version + 1 }).setTask task.id
      fun t => { t with startedAt := some env.now, finishedAt := none } with hdb₁
  have ht₁ : ∃ t, db₁.task? task.id = some t ∧ t.status = .running :=
    ⟨_, task?_setTask_self (fun _ => rfl) (task?_setTask_self (fun _ => rfl) ht), rfl⟩
  obtain ⟨t, ht₁, hrun⟩ := ht₁
  obtain ⟨approvals, hclose⟩ := closeOrphanApproval_eq db₁ task
  refine ⟨({ db₁ with approvals := approvals } : ExecDb).writeRows rows
    fun th => { th with status := .pending }, t, ?_, ht₁, hrun, rfl⟩
  unfold retryTask
  rw [hcas]
  dsimp only
  rw [← hdb₁, hclose]

theorem approve_awaiting {a : ApprovalRequest} {t : ExecTask} (env : ExecEnv) (userId : ℕ)
    (ha : db.approval? a.id = some a) (hpend : a.status = .pending) (hexec : a.bizType = .exec)
    (ht : db.task? a.bizId = some t) (hst : t.status = .awaitingApproval) :
    ∃ db' t', approve env db userId a.id = .ok db' ∧ db'.task? a.bizId = some t' ∧
      t'.status = .running ∧ db'.taskHosts = db.taskHosts := by
  have hreq : requirePending db a.id = .ok a := by
    rw [requirePending, ha]
    dsimp only
    rw [if_neg (not_not.mpr hpend), if_neg (by simp [hexec])]
  obtain ⟨approvals, hd⟩ := decide?_of_pending .approved (some userId) hreq
  have ht₁ : ({ db with approvals := approvals } : ExecDb).task? a.bizId = some t := ht
  obtain ⟨db', hok⟩ := approveExec_of_awaiting env ht₁ hst
  obtain ⟨-, -, t', -, -, ht', hrun⟩ := approveExec_touches none hok
  refine ⟨db', t', ?_, ht', hrun, (effect_approveExec hok).taskHosts⟩
  rw [approve, hreq]
  show (decide? db a .approved (some userId) >>= _) = _
  rw [hd]
  show (if a.bizType = .exec then _ else _) = _
  rw [if_pos hexec, hok]

theorem samePaths_iff {approved direct : ExecDb} {t t' : ExecTask}
    (hkeys : (db.taskHosts.map ExecTaskHost.id).Nodup)
    (ht : approved.task? id = some t) (hrun : t.status = .running)
    (hsame : approved.taskHosts = db.taskHosts)
    (ht' : direct.task? id = some t') (hrun' : t'.status = .running)
    (hreset : direct.taskHosts = db.taskHosts.map fun th =>
      if th.id ∈ db.rowsWhere id HostStatus.retryable then { th with status := .pending } else th) :
    SamePaths db id approved direct ↔ Waiting db id := by
  have hhosts : approved.hostsOfTask id = db.hostsOfTask id := by
    rw [ExecDb.hostsOfTask, hsame, ExecDb.hostsOfTask]
  constructor
  · intro h
    refine ⟨fun th hth => or_iff_not_imp_left.mpr fun hne => ?_, ?_⟩
    · have hruns := (h.same openEnv th.id).mpr
        ((h.runsAll openEnv (fun _ => rfl) th.id).mpr ⟨th, hth, rfl, hne⟩)
      obtain ⟨th', hth', hid, hpend⟩ := (runs_iff_pending ht hrun (fun _ => rfl) _).mp hruns
      rw [hhosts] at hth'
      rwa [← List.inj_on_of_nodup_map hkeys (mem_hostsOfTask.mp hth').1 (mem_hostsOfTask.mp hth).1
        hid]
    · rw [← hhosts]
      exact pending_of_concludes ht hrun h.approvedEnds
  · intro hw
    have hnone : db.rowsWhere id HostStatus.retryable = [] := by
      rw [List.eq_nil_iff_forall_not_mem]
      intro row hrow
      obtain ⟨th, hth, htask, hst, -⟩ := mem_rowsWhere.mp hrow
      rcases hw.1 th (mem_hostsOfTask.mpr ⟨hth, htask⟩) with hs | hs
      · rw [hs] at hst
        cases hst
      · rw [hs] at hst
        cases hst
    have hsame' : direct.taskHosts = db.taskHosts := by
      rw [hreset, hnone]
      simp
    have hhosts' : direct.hostsOfTask id = db.hostsOfTask id := by
      rw [ExecDb.hostsOfTask, hsame', ExecDb.hostsOfTask]
    refine ⟨?_, ?_, ?_, ?_⟩
    · intro env row
      rw [Runs, Runs, hhosts, hhosts', and_iff_right ⟨t, ht, hrun⟩, and_iff_right ⟨t', ht', hrun'⟩]
    · intro env hg row
      rw [runs_iff_pending ht' hrun' hg, hhosts']
      refine exists_congr fun th => and_congr_right fun hth => and_congr_right fun _ => ?_
      rcases hw.1 th hth with hs | hs <;> simp [hs]
    · refine concludes_of_waiting (hsame ▸ hkeys) ht hrun ?_
      rwa [Waiting, hhosts]
    · refine concludes_of_waiting (hsame' ▸ hkeys) ht' hrun' ?_
      rwa [Waiting, hhosts']

/-- **Retry through approval.** For a retryable task that `detect_sensitive` stops, the path through
the approval agrees with the direct retry if and only if the task already had a request, so that no
new one can be inserted, or its rows have all succeeded or are still pending, and some row is
pending. -/
theorem retry_paths_agree_iff (lower : String → String) (env : ExecEnv) (userId : ℕ)
    (db : ScheduleDb) (entry : RetryEntry) (task : ExecTask) (hk : Kept db.exec)
    (hkeys : (db.exec.taskHosts.map ExecTaskHost.id).Nodup)
    (hentry : entry.target db = some task)
    (hsensitive : (retryVerdict lower db.exec task).1 = true) :
    ApprovalAgrees lower env userId db entry task ↔
      task.id ∈ db.exec.bizIds ∨ Waiting db.exec task.id := by
  obtain ⟨ht, happly⟩ := @RetryEntry.apply_exec lower _ _ _ env userId hentry
  rw [retryBranch, if_pos hsensitive] at happly
  have hretry := retrySensitive_eq userId (retryVerdict lower db.exec task).2 hk ht
  obtain ⟨direct, t', hdirect, ht', hrun', hreset⟩ :=
    retryTask_eq env (db.exec.rowsWhere task.id HostStatus.retryable) ht
  split_ifs at hretry with hbiz
  · refine iff_of_true ?_ (Or.inl hbiz)
    intro retried hretried
    rw [hretried, hretry] at happly
    cases happly
  rw [or_iff_right hbiz]
  obtain ⟨exec, hexec, hhosts, -, hawait, hrequest⟩ := hretry
  rw [hexec] at happly
  obtain ⟨retried, hretried, rfl⟩ := Option.map_eq_some_iff.mp happly
  have hpaths : ∀ env' approver, ∃ approved, approve env' retried.exec approver
      db.exec.nextApproval = .ok approved ∧
        (SamePaths db.exec task.id approved direct ↔ Waiting db.exec task.id) := by
    intro env' approver
    obtain ⟨approved, t, hok, ht, hrun, hsame⟩ := @approve_awaiting retried.exec
      (retryApproval db.exec task.id userId (retryVerdict lower db.exec task).2) _ env' approver
      hrequest rfl rfl hawait rfl
    exact ⟨approved, hok, samePaths_iff hkeys ht hrun (hsame.trans hhosts) ht' hrun' hreset⟩
  constructor
  · intro hagree
    obtain ⟨approved, hok, hiff⟩ := hpaths env 0
    exact hiff.mp (hagree retried hretried env 0 approved hok direct hdirect)
  · intro hw retried' hretried' env' approver approved hok direct' hdirect'
    obtain rfl := Option.some.inj (hretried.symm.trans hretried')
    obtain rfl := Option.some.inj (hdirect.symm.trans hdirect')
    obtain ⟨approved', hok', hiff⟩ := hpaths env' approver
    obtain rfl := Except.ok.inj (hok'.symm.trans hok)
    exact hiff.mpr hw

/-- A plain task on one agent host ends in the status of its result; then the batch threshold is
lowered to one host. -/
def failedRun : List ExecOp :=
  [.create (fun s => s) busEnv { demoSpec with command := some "uptime" } none,
    .dispatch (fun s => s) agentEnv 1, .persistResult 1 1 "failed" (some 1),
    .maybeFinalizeTask 1 1, .configure agentHost.hosts [] [] guardedRules]

/-- The tables after that, with no schedules. -/
def failedTables : ScheduleDb := ⟨run ExecOp.apply agentHost failedRun, [], [], 1⟩

theorem failedTables_kept : Kept failedTables.exec :=
  @run_invariant _ _ ExecOp.apply Kept (fun _ op hk => (ExecOp.call hk op).kept) agentHost
    (kept_fresh _ _) failedRun

/-- The same tables with the row of the task put back to `pending`. -/
def waitingTables : ScheduleDb :=
  { failedTables with
    exec := failedTables.exec.setTaskHost 1 fun th => { th with status := .pending } }

/-- The task of these tables. -/
def failedTask : ExecTask := (failedTables.exec.task? 1).getD (newTask agentHost demoSpec false)

theorem waitingTables_kept : Kept waitingTables.exec :=
  (@Call.congr _ _ waitingTables.exec [] (Call.refl failedTables_kept) rfl rfl rfl rfl).kept

/-- The two paths agree on the task with the pending row. -/
theorem retry_paths_agree_waiting :
    ApprovalAgrees (fun s => s) busEnv 7 waitingTables (.task 1) failedTask :=
  (retry_paths_agree_iff (fun s => s) busEnv 7 waitingTables (.task 1) failedTask
    waitingTables_kept (by decide +kernel) (by decide +kernel) (by decide +kernel)).mpr
    (Or.inr ⟨by decide +kernel, by decide +kernel⟩)

/-- The tables after the sensitive retry of the failed task. -/
def retriedTables : ScheduleDb :=
  (RetryEntry.apply (fun s => s) busEnv 7 failedTables (.task 1)).getD failedTables

/-- The tables after the approval of its request. -/
def approvedTables : ExecDb := (approve busEnv retriedTables.exec 2 1).toOption.getD agentHost

/-- The tables after the direct retry. -/
def directTables : ExecDb :=
  (retryTask busEnv failedTables.exec failedTask
    (failedTables.exec.rowsWhere 1 HostStatus.retryable)).getD agentHost

/-- **An approved retry.** A task whose only host failed is retried through an approval: its
dispatch has nothing to run, and the task keeps running. -/
theorem approved_retry_runs_nothing :
    ¬ ApprovalAgrees (fun s => s) busEnv 7 failedTables (.task 1) failedTask := by
  intro hagree
  have hok : approve busEnv retriedTables.exec 2 1 = .ok approvedTables :=
    ok_of_toOption (by decide +kernel)
  have hpaths := hagree retriedTables (by decide +kernel) busEnv 2 approvedTables hok
    directTables (by decide +kernel)
  have htask : ∃ t ∈ approvedTables.task? 1, t.status = .running := by
    decide +kernel
  obtain ⟨t, ht, hrun⟩ := htask
  obtain ⟨th, hth, hst⟩ := pending_of_concludes ht hrun hpaths.approvedEnds
  have hnone : ∀ th ∈ approvedTables.hostsOfTask 1, th.status = .failed := by
    decide +kernel
  rw [hnone th hth] at hst
  cases hst

end LarkPlat
