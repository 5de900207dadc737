import LarkPlat.Schedules

/-!
# The Schedule Sweep

`schedule_service.py`: `trigger_due`. The sweep spawns a run for each due schedule. `_spawn_run`
commits midway: it raises before the commit, which leaves nothing, or after it, when the dispatch of
the task fails. In both cases the sweep rolls back, reads the `id` of the schedule again, and
inserts a run with status `failed`. The number of a run holds the schedule and the second, and is
unique.

What a schedule meets is an environment: where the database and the dispatch raise, the numbers of
the sequences, and the seconds of the two run numbers. A commit that raises has not committed. The
due schedules are not edited during the sweep.

## Main results

* `spawnTx_eq`: where the database answers and the run number is free, `_spawn_run` commits what
  `spawnRun` does.
* `triggerDue_eq`: a sweep that returns has added to the tables what each schedule adds alone.
* `sweep_isolates_iff`: the sweep isolates the failures and records each firing once exactly if
  every schedule that fails before its commit gets its `failed` run, and none does that fails after
  it.
-/

namespace LarkPlat

/-! ### Run numbers -/

/-- The text of `strftime("%Y%m%d%H%M%S")`. -/
structure StampText where
  text : String
  length_eq : text.toList.length = 14
  deriving DecidableEq

/-- `_run_no`. -/
def runNo (scheduleId : ℕ) (now : StampText) : String :=
  "R-" ++ toString scheduleId ++ "-" ++ now.text

theorem runNo_inj {i j : ℕ} {a b : StampText} : runNo i a = runNo j b ↔ i = j ∧ a = b := by
  refine ⟨fun h => ?_, fun ⟨hi, ha⟩ => by rw [hi, ha]⟩
  have hlist := congrArg String.toList h
  simp only [runNo, String.toList_append] at hlist
  obtain ⟨hhead, htext⟩ := List.append_inj' hlist (a.length_eq.trans b.length_eq.symm)
  have hid : (toString i).toList = (toString j).toList := by
    simpa using hhead
  have hdigits : Nat.toDigits 10 i = Nat.toDigits 10 j :=
    Nat.toList_repr.symm.trans (hid.trans Nat.toList_repr)
  constructor
  · calc i = Nat.ofDigitChars 10 (Nat.toDigits 10 i) 0 :=
          (Nat.ofDigitChars_toDigits (by decide) (by decide)).symm
      _ = Nat.ofDigitChars 10 (Nat.toDigits 10 j) 0 := by rw [hdigits]
      _ = j := Nat.ofDigitChars_toDigits (by decide) (by decide)
  · obtain ⟨a, _⟩ := a
    obtain ⟨b, _⟩ := b
    congr
    exact String.toList_inj.mp htext

/-! ### The tables -/

/-- A row of `schedule_run` with its number. -/
structure NumberedRun where
  run : ScheduleRun
  runNo : String
  deriving DecidableEq

/-- Rows that belong to one schedule, and the tasks that it dispatched. -/
structure ScheduleRows where
  runs : List NumberedRun
  tasks : List ExecTask
  taskHosts : List ExecTaskHost
  approvals : List ApprovalRequest
  dispatched : List ℕ
  deriving DecidableEq

/-- The committed tables, and the tasks dispatched so far. -/
structure RunTables where
  exec : ExecDb
  runs : List NumberedRun
  dispatched : List ℕ
  deriving DecidableEq

namespace ScheduleRows

/-- No rows. -/
def nil : ScheduleRows := ⟨[], [], [], [], []⟩

/-- The rows of two transactions. -/
def append (r r' : ScheduleRows) : ScheduleRows where
  runs := r.runs ++ r'.runs
  tasks := r.tasks ++ r'.tasks
  taskHosts := r.taskHosts ++ r'.taskHosts
  approvals := r.approvals ++ r'.approvals
  dispatched := r.dispatched ++ r'.dispatched

/-- The rows are those of a schedule and of its task. -/
structure Keyed (id task : ℕ) (r : ScheduleRows) : Prop where
  runs : ∀ n ∈ r.runs, n.run.scheduleTaskId = id ∧ ∃ now, n.runNo = LarkPlat.runNo id now
  tasks : ∀ t ∈ r.tasks, t.id = task
  taskHosts : ∀ th ∈ r.taskHosts, th.execTaskId = task
  approvals : ∀ a ∈ r.approvals, a.bizId = task
  dispatched : ∀ t ∈ r.dispatched, t = task

theorem keyed_nil (id task : ℕ) : Keyed id task nil where
  runs _ h := absurd h List.not_mem_nil
  tasks _ h := absurd h List.not_mem_nil
  taskHosts _ h := absurd h List.not_mem_nil
  approvals _ h := absurd h List.not_mem_nil
  dispatched _ h := absurd h List.not_mem_nil

theorem Keyed.append {id task : ℕ} {r r' : ScheduleRows} (h : Keyed id task r)
    (h' : Keyed id task r') : Keyed id task (r.append r') where
  runs := List.forall_mem_append.mpr ⟨h.runs, h'.runs⟩
  tasks := List.forall_mem_append.mpr ⟨h.tasks, h'.tasks⟩
  taskHosts := List.forall_mem_append.mpr ⟨h.taskHosts, h'.taskHosts⟩
  approvals := List.forall_mem_append.mpr ⟨h.approvals, h'.approvals⟩
  dispatched := List.forall_mem_append.mpr ⟨h.dispatched, h'.dispatched⟩

theorem Keyed.dispatch {id task : ℕ} {r : ScheduleRows} (h : Keyed id task r) :
    Keyed id task { r with dispatched := [task] } :=
  ⟨h.runs, h.tasks, h.taskHosts, h.approvals, fun _ ht => List.mem_singleton.mp ht⟩

end ScheduleRows

namespace RunTables

/-- A commit of rows. -/
def append (db : RunTables) (r : ScheduleRows) : RunTables where
  exec := { db.exec with
    tasks := db.exec.tasks ++ r.tasks
    taskHosts := db.exec.taskHosts ++ r.taskHosts
    approvals := db.exec.approvals ++ r.approvals }
  runs := db.runs ++ r.runs
  dispatched := db.dispatched ++ r.dispatched

/-- The numbers in use. -/
def runNos (db : RunTables) : List String :=
  db.runs.map NumberedRun.runNo

/-- The rows of a schedule and of its task. -/
def rowsOf (db : RunTables) (id task : ℕ) : ScheduleRows where
  runs := db.runs.filter fun n => decide (n.run.scheduleTaskId = id)
  tasks := db.exec.tasks.filter fun t => decide (t.id = task)
  taskHosts := db.exec.taskHosts.filter fun th => decide (th.execTaskId = task)
  approvals := db.exec.approvals.filter fun a => decide (a.bizId = task)
  dispatched := db.dispatched.filter fun t => decide (t = task)

theorem append_nil (db : RunTables) : db.append ScheduleRows.nil = db := by
  simp [append, ScheduleRows.nil]

theorem append_append (db : RunTables) (r r' : ScheduleRows) :
    (db.append r).append r' = db.append (r.append r') := by
  simp [append, ScheduleRows.append]

theorem rowsOf_append_self {db : RunTables} {id task : ℕ} {r : ScheduleRows}
    (h : r.Keyed id task) : (db.append r).rowsOf id task = (db.rowsOf id task).append r := by
  have keep {α : Type} {p : α → Bool} {rows new : List α} (hp : ∀ a ∈ new, p a = true) :
      (rows ++ new).filter p = rows.filter p ++ new := by
    rw [List.filter_append, List.filter_eq_self.mpr hp]
  unfold rowsOf append ScheduleRows.append
  simp only
  rw [keep fun n hn => decide_eq_true (h.runs n hn).1,
    keep fun t ht => decide_eq_true (h.tasks t ht),
    keep fun t ht => decide_eq_true (h.taskHosts t ht),
    keep fun a ha => decide_eq_true (h.approvals a ha),
    keep fun t ht => decide_eq_true (h.dispatched t ht)]

theorem rowsOf_append_ne {db : RunTables} {id task id' task' : ℕ} {r : ScheduleRows}
    (h : r.Keyed id' task') (hid : id' ≠ id) (htask : task' ≠ task) :
    (db.append r).rowsOf id task = db.rowsOf id task := by
  have drop {α : Type} {p : α → Bool} {rows new : List α} (hp : ∀ a ∈ new, ¬ p a = true) :
      (rows ++ new).filter p = rows.filter p := by
    rw [List.filter_append, List.filter_eq_nil_iff.mpr hp, List.append_nil]
  unfold rowsOf append
  simp only
  rw [drop fun n hn => by simpa [(h.runs n hn).1] using hid,
    drop fun t ht => by simpa [h.tasks t ht] using htask,
    drop fun t ht => by simpa [h.taskHosts t ht] using htask,
    drop fun a ha => by simpa [h.approvals a ha] using htask,
    drop fun t ht => by simpa [h.dispatched t ht] using htask]

end RunTables

/-! ### The environment -/

/-- Where the database or the dispatch can raise in `_spawn_run`. The host rows, the update of the
task and the commit come for every task, the approval for a sensitive one, the dispatch for one that
needs no approval. -/
inductive SpawnPoint
  | reads
  | runFlush
  | taskFlush
  | hostFlush
  | approvalFlush
  | taskUpdate
  | commit
  | dispatch
  deriving DecidableEq, Repr

/-- The numbers that the sequences give for one schedule. -/
structure SpawnIds where
  run : ℕ
  task : ℕ
  taskHost : ℕ
  approval : ℕ
  failureRun : ℕ

/-- What one schedule meets in the sweep. `recover` is what the rollback after a failure raises, or
the reading of the `id` after it; `record` what the commit of the `failed` run raises apart from a
number in use, and `undo` what the rollback of that commit raises. -/
structure SpawnEnv where
  ids : SpawnIds
  fault : SpawnPoint → Option PyErr
  spawnedAt : StampText
  failedAt : StampText
  recover : Option PyErr
  record : Option PyErr
  undo : Option PyErr

/-- What the schedules meet, by their identifiers. -/
structure FiringEnv extends ExecEnv where
  meets : ℕ → SpawnEnv

/-- The database answers at a point, or raises. -/
def SpawnEnv.pass (env : SpawnEnv) (p : SpawnPoint) : Except PyErr Unit :=
  match env.fault p with
  | some err => .error err
  | none => .ok ()

/-- The insert of rows, which clash or not with rows under the same unique values. -/
def SpawnEnv.insert (env : SpawnEnv) (p : SpawnPoint) (clash : Prop) [Decidable clash] :
    Except PyErr Unit :=
  match env.fault p with
  | some err => .error err
  | none => if clash then .error .integrityError else .ok ()

namespace RunTables

variable (lower : String → String) (describe : PyErr → String) (env : FiringEnv)

/-! ### The sweep -/

/-- The tables with the next numbers of the sequences. -/
def numbered (db : RunTables) (ids : SpawnIds) : ExecDb :=
  { db.exec with nextTask := ids.task, nextTaskHost := ids.taskHost, nextApproval := ids.approval }

/-- The verdict of `detect_sensitive` on a run. -/
def verdict (db : RunTables) (s : ScheduleTask) (content : Option String) : Bool × String :=
  detectSensitive lower db.exec.rules s.command content s.targetHostIds.dedup.length

/-- The task as `_spawn_run` commits it. -/
def spawnedTask (db : RunTables) (ids : SpawnIds) (spec : TaskSpec) (sensitive : Bool) : ExecTask :=
  let task := newTask (db.numbered ids) spec sensitive
  if sensitive then
    { task with approvalId := some ids.approval, status := .awaitingApproval, version := 1 }
  else { task with status := .running, version := 1, startedAt := some env.now }

/-- The run as `_spawn_run` commits it. -/
def spawnedRow (s : ScheduleTask) : NumberedRun where
  run := { id := (env.meets s.id).ids.run
           scheduleTaskId := s.id
           status := .running
           taskId := some (env.meets s.id).ids.task
           finishedAt := none
           errorMsg := none }
  runNo := runNo s.id (env.meets s.id).spawnedAt

/-- The rows that `_spawn_run` commits. -/
def spawnedRows (db : RunTables) (s : ScheduleTask) (spec : TaskSpec) (sensitive : Bool)
    (reason : String) : ScheduleRows where
  runs := [spawnedRow env s]
  tasks := [spawnedTask env db (env.meets s.id).ids spec sensitive]
  taskHosts := spawnTaskHosts env.toExecEnv (db.numbered (env.meets s.id).ids) spec
  approvals :=
    if sensitive then
      [newApproval (db.numbered (env.meets s.id).ids) spec (env.meets s.id).ids.task reason]
    else []
  dispatched := []

/-- The request of a sensitive run. -/
def insertApproval (db : RunTables) (s : ScheduleTask) (sensitive : Bool) : Except PyErr Unit :=
  if sensitive then
    (env.meets s.id).insert .approvalFlush
      (db.exec.approvals.any (fun a => decide (a.bizId = (env.meets s.id).ids.task)) = true)
  else .ok ()

/-- `_spawn_run` up to its commit: the rows, and whether the task needs an approval. -/
def spawnTx (db : RunTables) (s : ScheduleTask) (requesterId : ℕ) (namePrefix : String) :
    Except PyErr (ScheduleRows × Bool) := do
  let e := env.meets s.id
  e.pass .reads
  checkHosts db.exec none s.targetHostIds
  let (content, version) ← scheduleBody db.exec s
  let (sensitive, reason) := db.verdict lower s content
  e.insert .runFlush (runNo s.id e.spawnedAt ∈ db.runNos)
  e.pass .taskFlush
  e.insert .hostFlush (¬ s.targetHostIds.Nodup)
  db.insertApproval env s sensitive
  e.pass .taskUpdate
  e.pass .commit
  pure (spawnedRows env db s (spawnSpec s version requesterId namePrefix) sensitive reason,
    sensitive)

/-- `_spawn_run`: the tables that it leaves, and what it raises. A task that needs no approval is
dispatched after the commit. -/
def spawn (db : RunTables) (s : ScheduleTask) (requesterId : ℕ) (namePrefix : String) :
    RunTables × Except PyErr Unit :=
  match spawnTx lower env db s requesterId namePrefix with
  | .error err => (db, .error err)
  | .ok (rows, true) => (db.append rows, .ok ())
  | .ok (rows, false) =>
      (db.append { rows with dispatched := [(env.meets s.id).ids.task] },
        (env.meets s.id).pass .dispatch)

/-- The run that records a failure. -/
def failedRow (s : ScheduleTask) (err : PyErr) : NumberedRun where
  run := { id := (env.meets s.id).ids.failureRun
           scheduleTaskId := s.id
           status := .failed
           taskId := none
           finishedAt := none
           errorMsg := some (String.ofList ((describe err).toList.take 500)) }
  runNo := runNo s.id (env.meets s.id).failedAt

/-- What `trigger_due` does with a spawn that raised. -/
def recordFailure (db : RunTables) (s : ScheduleTask) (err : PyErr) :
    RunTables × Except PyErr Unit :=
  let e := env.meets s.id
  match e.recover with
  | some err' => (db, .error err')
  | none =>
      if e.record = none ∧ runNo s.id e.failedAt ∉ db.runNos then
        (db.append { ScheduleRows.nil with runs := [failedRow describe env s err] }, .ok ())
      else
        match e.undo with
        | some err' => (db, .error err')
        | none => (db, .ok ())

/-- The loop of `trigger_due` at one schedule: the tables that it leaves, and what it counts. -/
def fire (db : RunTables) (s : ScheduleTask) : RunTables × Except PyErr ℕ :=
  match spawn lower env db s (s.createdBy.getD 0) "[schedule]" with
  | (db, .ok ()) => (db, .ok 1)
  | (db, .error err) =>
      match recordFailure describe env db s err with
      | (db, .ok ()) => (db, .ok 0)
      | (db, .error err) => (db, .error err)

/-- `trigger_due` on the due schedules: the tables that it leaves, and the number of spawns. -/
def triggerDue (db : RunTables) (count : ℕ) : List ScheduleTask → RunTables × Except PyErr ℕ
  | [] => (db, .ok count)
  | s :: due =>
      match fire lower describe env db s with
      | (db, .ok n) => triggerDue db (count + n) due
      | (db, .error err) => (db, .error err)

/-! ### What a spawn reads -/

variable {lower : String → String} {describe : PyErr → String} {env : FiringEnv}
  {db db' : RunTables} {s t : ScheduleTask} {requesterId : ℕ} {namePrefix : String}

/-- The tables agree on what the sweep reads at a schedule. -/
structure Alike (env : FiringEnv) (s : ScheduleTask) (db db' : RunTables) : Prop where
  hosts : db'.exec.hosts = db.exec.hosts
  scripts : db'.exec.scripts = db.exec.scripts
  scriptVersions : db'.exec.scriptVersions = db.exec.scriptVersions
  rules : db'.exec.rules = db.exec.rules
  numbers : ∀ now, runNo s.id now ∈ db'.runNos ↔ runNo s.id now ∈ db.runNos
  approvals : (db'.exec.approvals.any fun a => decide (a.bizId = (env.meets s.id).ids.task)) =
    db.exec.approvals.any fun a => decide (a.bizId = (env.meets s.id).ids.task)

theorem checkHosts_congr {db db' : ExecDb} (h : db'.hosts = db.hosts) (visible : Option (List ℕ)) :
    ∀ ids, checkHosts db' visible ids = checkHosts db visible ids
  | [] => rfl
  | id :: ids => by
      have hhost : db'.host? id = db.host? id := by rw [ExecDb.host?, ExecDb.host?, h]
      rw [checkHosts, checkHosts, hhost]
      simp only [checkHosts_congr h visible ids]

theorem checkHosts_eq_ok_iff {db : ExecDb} :
    ∀ {ids : List ℕ}, checkHosts db none ids = .ok () ↔ ∀ id ∈ ids, db.host? id ≠ none
  | [] => by simp [checkHosts]
  | id :: ids => by
      rw [checkHosts, List.forall_mem_cons]
      cases db.host? id with
      | none => simp
      | some host => simpa using checkHosts_eq_ok_iff

theorem scheduleBody_congr {db db' : ExecDb} (hs : db'.scripts = db.scripts)
    (hv : db'.scriptVersions = db.scriptVersions) (s : ScheduleTask) :
    scheduleBody db' s = scheduleBody db s := by
  rw [scheduleBody, scheduleBody]
  unfold ExecDb.script? ExecDb.scriptVersion?
  rw [hs, hv]

theorem spawnedRows_congr (h : Alike env s db db') (spec : TaskSpec) (sensitive : Bool)
    (reason : String) :
    spawnedRows env db' s spec sensitive reason = spawnedRows env db s spec sensitive reason := by
  have hhosts : spawnTaskHosts env.toExecEnv (db'.numbered (env.meets s.id).ids) spec =
      spawnTaskHosts env.toExecEnv (db.numbered (env.meets s.id).ids) spec := by
    simp only [spawnTaskHosts, newTaskHosts, numbered, ExecDb.host?, h.hosts, h.rules]
  rw [spawnedRows, spawnedRows, hhosts]
  rfl

/-- **A spawn reads nothing else.** -/
theorem spawnTx_congr (h : Alike env s db db') :
    spawnTx lower env db' s requesterId namePrefix =
      spawnTx lower env db s requesterId namePrefix := by
  have hverdict (content : Option String) :
      db'.verdict lower s content = db.verdict lower s content := by
    rw [verdict, verdict, h.rules]
  have hinsert (sensitive : Bool) :
      db'.insertApproval env s sensitive = db.insertApproval env s sensitive := by
    simp only [insertApproval, h.approvals]
  unfold spawnTx
  simp only [checkHosts_congr h.hosts, scheduleBody_congr h.scripts h.scriptVersions, hverdict,
    h.numbers, hinsert, spawnedRows_congr h]

/-! ### When a spawn gets to its commit -/

/-- The run of a schedule is sensitive. -/
def sensitive (lower : String → String) (db : RunTables) (s : ScheduleTask) : Bool :=
  match scheduleBody db.exec s with
  | .ok (content, _) => (db.verdict lower s content).1
  | .error _ => false

/-- `_spawn_run` gets to its commit. -/
structure Commits (lower : String → String) (env : FiringEnv) (db : RunTables) (s : ScheduleTask) :
    Prop where
  answers : ∀ p, p ≠ .approvalFlush → p ≠ .dispatch → (env.meets s.id).fault p = none
  hosts : ∀ id ∈ s.targetHostIds, db.exec.host? id ≠ none
  body : ∃ b, scheduleBody db.exec s = .ok b
  number : runNo s.id (env.meets s.id).spawnedAt ∉ db.runNos
  nodup : s.targetHostIds.Nodup
  approval : db.sensitive lower s = true → (env.meets s.id).fault .approvalFlush = none ∧
    ∀ a ∈ db.exec.approvals, a.bizId ≠ (env.meets s.id).ids.task

theorem pass_eq_ok_iff {e : SpawnEnv} {p : SpawnPoint} : e.pass p = .ok () ↔ e.fault p = none := by
  rw [SpawnEnv.pass]
  cases e.fault p <;> simp

theorem insert_eq_ok_iff {e : SpawnEnv} {p : SpawnPoint} {clash : Prop} [Decidable clash] :
    e.insert p clash = .ok () ↔ e.fault p = none ∧ ¬ clash := by
  rw [SpawnEnv.insert]
  cases e.fault p <;> simp

theorem insertApproval_eq_ok_iff {b : Bool} : db.insertApproval env s b = .ok () ↔
    (b = true → (env.meets s.id).fault .approvalFlush = none ∧
      ∀ a ∈ db.exec.approvals, a.bizId ≠ (env.meets s.id).ids.task) := by
  cases b with
  | false => simp [insertApproval]
  | true => simp [insertApproval, insert_eq_ok_iff]

theorem spawnTx_eq_ok_iff {r : ScheduleRows × Bool} :
    spawnTx lower env db s requesterId namePrefix = .ok r ↔
      Commits lower env db s ∧ ∃ content version, scheduleBody db.exec s = .ok (content, version) ∧
        r = (spawnedRows env db s (spawnSpec s version requesterId namePrefix)
          (db.verdict lower s content).1 (db.verdict lower s content).2,
          (db.verdict lower s content).1) := by
  have hsensitive {content : Option String} {version : Option ℕ}
      (hb : scheduleBody db.exec s = .ok (content, version)) :
      db.sensitive lower s = (db.verdict lower s content).1 := by
    rw [sensitive, hb]
  unfold spawnTx
  simp only [bind_eq_ok]
  constructor
  · rintro ⟨⟨⟩, hreads, ⟨⟩, hhosts, ⟨content, version⟩, hb, ⟨⟩, hrun, ⟨⟩, htask, ⟨⟩, hhost, ⟨⟩,
      happroval, ⟨⟩, hupdate, ⟨⟩, hcommit, hr⟩
    rw [insert_eq_ok_iff] at hrun hhost
    rw [pass_eq_ok_iff] at hreads htask hupdate hcommit
    refine ⟨⟨?_, checkHosts_eq_ok_iff.mp hhosts, ⟨_, hb⟩, hrun.2, not_not.mp hhost.2, ?_⟩,
      content, version, hb, (Except.ok.inj hr).symm⟩
    · intro p hp hd
      cases p with
      | reads => exact hreads
      | runFlush => exact hrun.1
      | taskFlush => exact htask
      | hostFlush => exact hhost.1
      | approvalFlush => exact absurd rfl hp
      | taskUpdate => exact hupdate
      | commit => exact hcommit
      | dispatch => exact absurd rfl hd
    · rw [hsensitive hb]
      exact insertApproval_eq_ok_iff.mp happroval
  · rintro ⟨h, content, version, hb, rfl⟩
    have passes (p : SpawnPoint) (hp : p ≠ .approvalFlush) (hd : p ≠ .dispatch) :
        (env.meets s.id).pass p = .ok () := pass_eq_ok_iff.mpr (h.answers p hp hd)
    refine ⟨(), passes _ (by decide) (by decide), (), checkHosts_eq_ok_iff.mpr h.hosts, _, hb,
      (), insert_eq_ok_iff.mpr ⟨h.answers _ (by decide) (by decide), h.number⟩,
      (), passes _ (by decide) (by decide),
      (), insert_eq_ok_iff.mpr ⟨h.answers _ (by decide) (by decide), not_not.mpr h.nodup⟩,
      (), insertApproval_eq_ok_iff.mpr ?_, (), passes _ (by decide) (by decide),
      (), passes _ (by decide) (by decide), rfl⟩
    rw [← hsensitive hb]
    exact h.approval

theorem keyed_spawnedRows (spec : TaskSpec) (b : Bool) (reason : String) :
    (spawnedRows env db s spec b reason).Keyed s.id (env.meets s.id).ids.task where
  runs n hn := by
    rw [List.mem_singleton.mp hn]
    exact ⟨rfl, _, rfl⟩
  tasks t ht := by
    rw [List.mem_singleton.mp ht]
    cases b <;> rfl
  taskHosts th hth := by
    obtain ⟨th', hth', rfl⟩ := List.mem_map.mp hth
    obtain ⟨p, -, rfl⟩ := List.mem_map.mp hth'
    rfl
  approvals a ha := by
    cases b with
    | false => exact absurd ha List.not_mem_nil
    | true =>
        rw [List.mem_singleton.mp ha]
        rfl
  dispatched t ht := absurd ht List.not_mem_nil

/-- The tables as `spawnRun` sees them. -/
def scheduleDb (env : FiringEnv) (db : RunTables) (s : ScheduleTask) : ScheduleDb where
  exec := db.numbered (env.meets s.id).ids
  schedules := []
  runs := db.runs.map NumberedRun.run
  nextRun := (env.meets s.id).ids.run

theorem modify_concat_new {tasks : List ExecTask} {t : ExecTask} (h : ∀ u ∈ tasks, u.id ≠ t.id)
    (f : ExecTask → ExecTask) :
    Table.modify ExecTask.id (tasks ++ [t]) t.id f = tasks ++ [f t] := by
  have hkeep : tasks.map (fun u => if u.id = t.id then f u else u) = tasks := by
    conv_rhs => rw [← List.map_id tasks]
    exact List.map_congr_left fun u hu => if_neg (h u hu)
  rw [Table.modify, List.map_append, hkeep, List.map_singleton, if_pos rfl]

/-- **The one spawn.** Where the database answers and the numbers are free, the spawn of the sweep
commits the rows of `spawnRun`. -/
theorem spawnTx_eq (hanswers : ∀ p, (env.meets s.id).fault p = none)
    (hnumber : runNo s.id (env.meets s.id).spawnedAt ∉ db.runNos)
    (hnew : ∀ t ∈ db.exec.tasks, t.id ≠ (env.meets s.id).ids.task) :
    (spawnTx lower env db s requesterId namePrefix).map (fun r =>
        ((db.append r.1).exec.tasks, (db.append r.1).exec.taskHosts, (db.append r.1).exec.approvals,
          (db.append r.1).runs.map NumberedRun.run, r.2)) =
      (spawnRun lower env.toExecEnv (scheduleDb env db s) s requesterId namePrefix).map fun r =>
        (r.1.exec.tasks, r.1.exec.taskHosts, r.1.exec.approvals, r.1.runs,
          r.2.task.approveRequired) := by
  have hpass (p : SpawnPoint) : (env.meets s.id).pass p = .ok () := pass_eq_ok_iff.mpr (hanswers p)
  have hinsert (p : SpawnPoint) (clash : Prop) [Decidable clash] :
      (env.meets s.id).insert p clash = if clash then .error .integrityError else .ok () := by
    rw [SpawnEnv.insert, hanswers]
  have hhosts : checkHosts (scheduleDb env db s).exec none s.targetHostIds =
      checkHosts db.exec none s.targetHostIds :=
    checkHosts_congr (show (scheduleDb env db s).exec.hosts = db.exec.hosts from rfl) none _
  have hbody : scheduleBody (scheduleDb env db s).exec s = scheduleBody db.exec s :=
    scheduleBody_congr rfl rfl s
  unfold spawnTx spawnRun
  simp only [hpass, hinsert, hhosts, hbody, insertApproval]
  rcases checkHosts db.exec none s.targetHostIds with e | _
  · rfl
  rcases scheduleBody db.exec s with e | ⟨content, version⟩
  · rfl
  by_cases hn : s.targetHostIds.Nodup
  swap
  · simp only [hn, hnumber, not_false_eq_true, if_true, if_false]
    rfl
  have htask (spec : TaskSpec) (sensitive : Bool) (f : ExecTask → ExecTask) :
      Table.modify ExecTask.id
        (db.exec.tasks ++ [newTask (db.numbered (env.meets s.id).ids) spec sensitive])
        (env.meets s.id).ids.task f =
      db.exec.tasks ++ [f (newTask (db.numbered (env.meets s.id).ids) spec sensitive)] :=
    modify_concat_new hnew f
  have hdetect : detectSensitive lower (scheduleDb env db s).exec.rules s.command content
      s.targetHostIds.dedup.length = db.verdict lower s content := rfl
  simp only [bind, Except.bind, pure, Except.pure, hn, hnumber, not_true_eq_false, if_false,
    hdetect]
  rcases db.verdict lower s content with ⟨_ | _, reason⟩
  · simp only [Bool.false_eq_true, if_false, Except.map]
    have hrunning := htask (spawnSpec s version requesterId namePrefix) false fun t =>
      { t with status := .running, version := 1, startedAt := some env.now }
    exact congrArg Except.ok (Prod.ext hrunning.symm (Prod.ext rfl (Prod.ext (List.append_nil _)
      (Prod.ext List.map_append rfl))))
  · have hclash : ((scheduleDb env db s).exec.approvals.any fun a =>
        decide (a.bizId = (scheduleDb env db s).exec.nextTask)) =
          db.exec.approvals.any fun a => decide (a.bizId = (env.meets s.id).ids.task) := rfl
    rw [hclash]
    by_cases hany : (db.exec.approvals.any fun a =>
        decide (a.bizId = (env.meets s.id).ids.task)) = true
    · simp only [hany, if_true]
      rfl
    · have hawaiting := htask (spawnSpec s version requesterId namePrefix) true fun t =>
        { t with
          approvalId := some (env.meets s.id).ids.approval
          status := .awaitingApproval
          version := 1 }
      simp only [hany, if_true, Except.map]
      exact congrArg Except.ok (Prod.ext hawaiting.symm (Prod.ext rfl (Prod.ext rfl
        (Prod.ext List.map_append rfl))))

/-! ### What the sweep adds for a schedule -/

variable (lower describe env)

/-- The rows that record a failure. -/
def failureRows (db : RunTables) (s : ScheduleTask) (err : PyErr) : ScheduleRows :=
  if (env.meets s.id).recover = none ∧ (env.meets s.id).record = none ∧
      runNo s.id (env.meets s.id).failedAt ∉ db.runNos then
    { ScheduleRows.nil with runs := [failedRow describe env s err] }
  else ScheduleRows.nil

/-- The rows that the sweep adds for a schedule. -/
def addedRows (db : RunTables) (s : ScheduleTask) : ScheduleRows :=
  match spawnTx lower env db s (s.createdBy.getD 0) "[schedule]" with
  | .error err => failureRows describe env db s err
  | .ok (rows, true) => rows
  | .ok (rows, false) =>
      let rows := { rows with dispatched := [(env.meets s.id).ids.task] }
      match (env.meets s.id).fault .dispatch with
      | none => rows
      | some err => rows.append (failureRows describe env (db.append rows) s err)

variable {lower describe env}

theorem keyed_failureRows (db : RunTables) (err : PyErr) :
    (failureRows describe env db s err).Keyed s.id (env.meets s.id).ids.task := by
  have hnil := ScheduleRows.keyed_nil s.id (env.meets s.id).ids.task
  rw [failureRows]
  split_ifs with h
  · refine ⟨fun n hn => ?_, hnil.tasks, hnil.taskHosts, hnil.approvals, hnil.dispatched⟩
    rw [List.mem_singleton.mp hn]
    exact ⟨rfl, _, rfl⟩
  · exact hnil

theorem recordFailure_fst (db : RunTables) (err : PyErr) :
    (recordFailure describe env db s err).1 = db.append (failureRows describe env db s err) := by
  rw [recordFailure, failureRows]
  rcases hrecover : (env.meets s.id).recover with _ | err'
  · by_cases h : (env.meets s.id).record = none ∧ runNo s.id (env.meets s.id).failedAt ∉ db.runNos
    · simp only [h, true_and]
      rfl
    · simp only [h, true_and, if_false, append_nil]
      rcases (env.meets s.id).undo with _ | err'
      · rfl
      · rfl
  · simp [append_nil]

theorem keyed_spawnTx {r : ScheduleRows × Bool}
    (h : spawnTx lower env db s requesterId namePrefix = .ok r) :
    r.1.Keyed s.id (env.meets s.id).ids.task := by
  obtain ⟨-, content, version, -, rfl⟩ := spawnTx_eq_ok_iff.mp h
  exact keyed_spawnedRows _ _ _

theorem keyed_addedRows (db : RunTables) :
    (addedRows lower describe env db s).Keyed s.id (env.meets s.id).ids.task := by
  unfold addedRows
  split
  · exact keyed_failureRows db _
  · rename_i heq
    exact keyed_spawnTx heq
  · rename_i heq
    dsimp only
    split
    · exact (keyed_spawnTx heq).dispatch
    · exact (keyed_spawnTx heq).dispatch.append (keyed_failureRows _ _)

/-- **The loop at one schedule** adds its rows. -/
theorem fire_fst (db : RunTables) (s : ScheduleTask) :
    (fire lower describe env db s).1 = db.append (addedRows lower describe env db s) := by
  have hrecord (db : RunTables) (err : PyErr) :
      (match recordFailure describe env db s err with
        | (db, .ok ()) => (db, .ok 0)
        | (db, .error err) => (db, .error err) : RunTables × Except PyErr ℕ).1 =
        db.append (failureRows describe env db s err) := by
    rw [← recordFailure_fst]
    rcases recordFailure describe env db s err with ⟨db', err' | ⟨⟩⟩
    · rfl
    · rfl
  rw [fire, spawn, addedRows]
  rcases spawnTx lower env db s (s.createdBy.getD 0) "[schedule]" with err | ⟨rows, _ | _⟩
  · exact hrecord db err
  · dsimp only
    rw [SpawnEnv.pass]
    rcases (env.meets s.id).fault .dispatch with _ | err
    · rfl
    · exact (hrecord _ err).trans (append_append _ _ _)
  · rfl

/-! ### The sweep over the due schedules -/

theorem Alike.refl (env : FiringEnv) (s : ScheduleTask) (db : RunTables) : Alike env s db db :=
  ⟨rfl, rfl, rfl, rfl, fun _ => Iff.rfl, rfl⟩

theorem Alike.append_other (h : Alike env s db db') {r : ScheduleRows}
    (hr : r.Keyed t.id (env.meets t.id).ids.task) (hid : t.id ≠ s.id)
    (htask : (env.meets t.id).ids.task ≠ (env.meets s.id).ids.task) :
    Alike env s db (db'.append r) where
  hosts := h.hosts
  scripts := h.scripts
  scriptVersions := h.scriptVersions
  rules := h.rules
  numbers now := by
    have hother : runNo s.id now ∉ r.runs.map NumberedRun.runNo := by
      intro hmem
      obtain ⟨n, hn, heq⟩ := List.mem_map.mp hmem
      obtain ⟨now', hno⟩ := (hr.runs n hn).2
      exact hid (runNo_inj.mp (hno.symm.trans heq)).1
    rw [← h.numbers now, runNos, append, List.map_append, List.mem_append]
    exact or_iff_left hother
  approvals := by
    have hother :
        (r.approvals.any fun a => decide (a.bizId = (env.meets s.id).ids.task)) = false := by
      rw [List.any_eq_false]
      intro a ha
      rw [hr.approvals a ha]
      simpa using htask
    rw [← h.approvals, append]
    dsimp only
    rw [List.any_append, hother, Bool.or_false]

theorem Alike.append_both (h : Alike env s db db') (r : ScheduleRows) :
    Alike env s (db.append r) (db'.append r) where
  hosts := h.hosts
  scripts := h.scripts
  scriptVersions := h.scriptVersions
  rules := h.rules
  numbers now := by
    have hnumbers := h.numbers now
    simp only [runNos, append, List.map_append, List.mem_append] at hnumbers ⊢
    rw [hnumbers]
  approvals := by
    have happrovals := h.approvals
    simp only [append, List.any_append] at happrovals ⊢
    rw [happrovals]

theorem failureRows_congr (h : Alike env s db db') (err : PyErr) :
    failureRows describe env db' s err = failureRows describe env db s err := by
  simp only [failureRows, h.numbers]

theorem addedRows_congr (h : Alike env s db db') :
    addedRows lower describe env db' s = addedRows lower describe env db s := by
  simp only [addedRows, spawnTx_congr h, failureRows_congr h, failureRows_congr (h.append_both _)]

theorem recordFailure_snd_congr (h : Alike env s db db') (err : PyErr) :
    (recordFailure describe env db' s err).2 = (recordFailure describe env db s err).2 := by
  simp only [recordFailure, h.numbers]
  split
  · rfl
  · split_ifs
    · rfl
    · split <;> rfl

theorem fire_snd (db : RunTables) (s : ScheduleTask) :
    (fire lower describe env db s).2 =
      match spawnTx lower env db s (s.createdBy.getD 0) "[schedule]" with
      | .error err => (recordFailure describe env db s err).2.map fun _ => 0
      | .ok (_, true) => .ok 1
      | .ok (rows, false) =>
          match (env.meets s.id).fault .dispatch with
          | none => .ok 1
          | some err =>
              (recordFailure describe env
                (db.append { rows with dispatched := [(env.meets s.id).ids.task] }) s err).2.map
                fun _ => 0 := by
  have hrecord (db : RunTables) (err : PyErr) :
      (match recordFailure describe env db s err with
        | (db, .ok ()) => (db, .ok 0)
        | (db, .error err) => (db, .error err) : RunTables × Except PyErr ℕ).2 =
        (recordFailure describe env db s err).2.map fun _ => 0 := by
    rcases recordFailure describe env db s err with ⟨db', err' | ⟨⟩⟩
    · rfl
    · rfl
  rw [fire, spawn]
  rcases spawnTx lower env db s (s.createdBy.getD 0) "[schedule]" with err | ⟨rows, _ | _⟩
  · exact hrecord db err
  · dsimp only
    rw [SpawnEnv.pass]
    rcases (env.meets s.id).fault .dispatch with _ | err
    · rfl
    · exact hrecord _ err
  · rfl

theorem fire_snd_congr (h : Alike env s db db') :
    (fire lower describe env db' s).2 = (fire lower describe env db s).2 := by
  simp only [fire_snd, spawnTx_congr h, recordFailure_snd_congr h,
    recordFailure_snd_congr (h.append_both _)]

/-- The sweep goes on after a schedule. -/
def GoesOn (lower : String → String) (describe : PyErr → String) (env : FiringEnv) (db : RunTables)
    (s : ScheduleTask) : Prop :=
  ∃ n, (fire lower describe env db s).2 = .ok n

/-- The rows that the sweep adds for some schedules. -/
def added (lower : String → String) (describe : PyErr → String) (env : FiringEnv) (db : RunTables)
    (due : List ScheduleTask) : ScheduleRows :=
  due.foldr (fun s => (addedRows lower describe env db s).append) ScheduleRows.nil

/-- The sequences give a new task to each schedule. -/
structure Fresh (env : FiringEnv) (db : RunTables) (due : List ScheduleTask) : Prop where
  keyed : (due.map ScheduleTask.id).Nodup
  new : ∀ s ∈ due, ∀ t ∈ db.exec.tasks, t.id ≠ (env.meets s.id).ids.task
  distinct : (due.map fun s => (env.meets s.id).ids.task).Nodup

theorem ne_of_nodup {due : List ScheduleTask}
    (hk : ((s :: due).map ScheduleTask.id).Nodup)
    (hd : ((s :: due).map fun s => (env.meets s.id).ids.task).Nodup) (ht : t ∈ due) :
    s.id ≠ t.id ∧ (env.meets s.id).ids.task ≠ (env.meets t.id).ids.task := by
  rw [List.map_cons, List.nodup_cons] at hk hd
  exact ⟨fun h => hk.1 (h ▸ List.mem_map_of_mem ht),
    fun h => hd.1
      (h ▸ List.mem_map_of_mem (f := fun s : ScheduleTask => (env.meets s.id).ids.task) ht)⟩

/-- **The sweep** returns if it goes on after every due schedule, and then adds the rows of each. -/
theorem triggerDue_eq {due : List ScheduleTask} (count : ℕ)
    (hk : (due.map ScheduleTask.id).Nodup)
    (hd : (due.map fun s => (env.meets s.id).ids.task).Nodup)
    (halike : ∀ s ∈ due, Alike env s db db') :
    ((∃ n, (triggerDue lower describe env db' count due).2 = .ok n) ↔
      ∀ s ∈ due, GoesOn lower describe env db s) ∧
    ((∀ s ∈ due, GoesOn lower describe env db s) →
      (triggerDue lower describe env db' count due).1 =
        db'.append (added lower describe env db due)) := by
  induction due generalizing db' count with
  | nil => simp [triggerDue, added, append_nil]
  | cons s due ih =>
      have hs := halike s List.mem_cons_self
      have hfst : (fire lower describe env db' s).1 = _ := fire_fst db' s
      have hsnd : (fire lower describe env db' s).2 = _ := fire_snd_congr hs
      rw [List.forall_mem_cons, triggerDue]
      rcases hfire : fire lower describe env db' s with ⟨db₁, err | n⟩
      · rw [hfire] at hsnd
        have hstop : ¬ GoesOn lower describe env db s := by
          rintro ⟨n, hn⟩
          rw [hn] at hsnd
          cases hsnd
        refine ⟨iff_of_false ?_ fun h => hstop h.1, fun h => absurd h.1 hstop⟩
        rintro ⟨n, hn⟩
        cases hn
      · rw [hfire] at hsnd
        have hfst : db₁ = db'.append (addedRows lower describe env db' s) := by rw [← hfst, hfire]
        have hgo : GoesOn lower describe env db s := ⟨n, hsnd.symm⟩
        have hnext : ∀ t ∈ due, Alike env t db db₁ := by
          intro t ht
          obtain ⟨hid, htask⟩ := ne_of_nodup hk hd ht
          rw [hfst]
          exact (halike t (List.mem_cons_of_mem s ht)).append_other (keyed_addedRows db') hid htask
        have hrec := ih (count + n) (List.nodup_cons.mp hk).2 (List.nodup_cons.mp hd).2 hnext
        refine ⟨⟨fun h => ⟨hgo, hrec.1.mp h⟩, fun h => hrec.1.mpr h.2⟩, fun h => ?_⟩
        dsimp only
        rw [hrec.2 h.2, hfst, append_append, addedRows_congr hs]
        rfl

/-! ### One schedule -/

/-- A failure before the commit is recorded: the rollback, the reading of the `id` and the commit of
the `failed` run pass, and the number of that run is free. -/
def FailureRecorded (env : FiringEnv) (db : RunTables) (s : ScheduleTask) : Prop :=
  (env.meets s.id).recover = none ∧ (env.meets s.id).record = none ∧
    runNo s.id (env.meets s.id).failedAt ∉ db.runNos

/-- A failure after the commit is not recorded: the rollback and the reading of the `id` pass, and
the `failed` run is refused, as it comes in the second of the spawn or for another reason. -/
def FailureRefused (env : FiringEnv) (db : RunTables) (s : ScheduleTask) : Prop :=
  (env.meets s.id).recover = none ∧ (env.meets s.id).undo = none ∧
    ((env.meets s.id).record ≠ none ∨ runNo s.id (env.meets s.id).failedAt ∈ db.runNos ∨
      (env.meets s.id).failedAt = (env.meets s.id).spawnedAt)

/-- Each failure of the spawn is handled as its place demands. -/
structure FailsWell (lower : String → String) (env : FiringEnv) (db : RunTables)
    (s : ScheduleTask) : Prop where
  before : ¬ Commits lower env db s → FailureRecorded env db s
  after : Commits lower env db s → db.sensitive lower s = false →
    (env.meets s.id).fault .dispatch ≠ none → FailureRefused env db s

/-- A firing is recorded by one run, which is `failed` with a message if no task came of it, and
otherwise is not. -/
def RecordedBy (runs : List NumberedRun) (committed : Prop) : Prop :=
  ∃ r, runs = [r] ∧ ((r.run.status = .failed ∧ r.run.errorMsg ≠ none) ↔ ¬ committed)

theorem map_eq_ok_iff {x : Except PyErr Unit} :
    (∃ n, (x.map fun _ => 0) = (.ok n : Except PyErr ℕ)) ↔ x = .ok () := by
  rcases x with err | ⟨⟩
  · simp [Except.map]
  · simp [Except.map]

theorem recordFailure_snd_iff (db : RunTables) (err : PyErr) :
    (recordFailure describe env db s err).2 = .ok () ↔ (env.meets s.id).recover = none ∧
      (((env.meets s.id).record = none ∧ runNo s.id (env.meets s.id).failedAt ∉ db.runNos) ∨
        (env.meets s.id).undo = none) := by
  rw [recordFailure]
  rcases (env.meets s.id).recover with _ | err'
  · by_cases h : (env.meets s.id).record = none ∧ runNo s.id (env.meets s.id).failedAt ∉ db.runNos
    · simp [h]
    · simp only [h, if_false, true_and, false_or]
      rcases (env.meets s.id).undo with _ | err'
      · simp
      · simp
  · simp

theorem failureRows_recorded_iff (db : RunTables) (err : PyErr) :
    ((recordFailure describe env db s err).2 = .ok () ∧
      RecordedBy (failureRows describe env db s err).runs
        ((failureRows describe env db s err).tasks ≠ [])) ↔ FailureRecorded env db s := by
  rw [recordFailure_snd_iff, failureRows, FailureRecorded]
  split_ifs with h
  · refine iff_of_true ⟨⟨h.1, .inl h.2⟩, failedRow describe env s err, rfl, ?_⟩ h
    exact iff_of_true ⟨rfl, Option.some_ne_none _⟩ (not_not.mpr rfl)
  · refine iff_of_false ?_ h
    rintro ⟨-, r, hr, -⟩
    exact List.cons_ne_nil _ _ hr.symm

theorem recordedBy_spawnedRow {runs : List NumberedRun} {committed : Prop} (h : committed) :
    RecordedBy (spawnedRow env s :: runs) committed ↔ runs = [] := by
  constructor
  · rintro ⟨r, hr, -⟩
    exact (List.cons.inj hr).2
  · rintro rfl
    refine ⟨spawnedRow env s, rfl, iff_of_false ?_ (not_not.mpr h)⟩
    rintro ⟨hstatus, -⟩
    cases hstatus

theorem failureRows_refused_iff {rows : ScheduleRows} (hrows : rows.runs = [spawnedRow env s])
    (err : PyErr) :
    ((recordFailure describe env (db.append rows) s err).2 = .ok () ∧
      (failureRows describe env (db.append rows) s err).runs = []) ↔ FailureRefused env db s := by
  have hnumber : runNo s.id (env.meets s.id).failedAt ∈ (db.append rows).runNos ↔
      runNo s.id (env.meets s.id).failedAt ∈ db.runNos ∨
        (env.meets s.id).failedAt = (env.meets s.id).spawnedAt := by
    rw [runNos, RunTables.append, List.map_append, List.mem_append, hrows, List.map_singleton,
      List.mem_singleton, spawnedRow, runNo_inj, and_iff_right rfl, runNos]
  rw [recordFailure_snd_iff, failureRows, FailureRefused, ← hnumber]
  by_cases hrecover : (env.meets s.id).recover = none
  swap
  · simp [hrecover]
  by_cases haccepted : (env.meets s.id).record = none ∧
      runNo s.id (env.meets s.id).failedAt ∉ (db.append rows).runNos
  · rw [if_pos ⟨hrecover, haccepted⟩]
    refine iff_of_false (fun h => List.cons_ne_nil _ _ h.2) ?_
    rintro ⟨-, -, hrecord | hno⟩
    · exact hrecord haccepted.1
    · exact haccepted.2 hno
  · rw [if_neg fun h => haccepted h.2]
    have hrefused : (env.meets s.id).record ≠ none ∨
        runNo s.id (env.meets s.id).failedAt ∈ (db.append rows).runNos := by
      by_contra hno
      rw [not_or, not_not] at hno
      exact haccepted hno
    constructor
    · rintro ⟨⟨-, h | hundo⟩, -⟩
      · exact absurd h haccepted
      · exact ⟨hrecover, hundo, hrefused⟩
    · rintro ⟨-, hundo, -⟩
      exact ⟨⟨hrecover, .inr hundo⟩, rfl⟩

/-- **One schedule.** The sweep goes on after a schedule and records its firing once exactly if its
failures are handled. -/
theorem goesOn_recorded_iff :
    (GoesOn lower describe env db s ∧ RecordedBy (addedRows lower describe env db s).runs
        ((addedRows lower describe env db s).tasks ≠ [])) ↔ FailsWell lower env db s := by
  rw [GoesOn, fire_snd, addedRows]
  rcases hspawn : spawnTx lower env db s (s.createdBy.getD 0) "[schedule]" with err | r
  · -- The spawn has left nothing.
    have hcommits : ¬ Commits lower env db s := by
      intro h
      obtain ⟨⟨content, version⟩, hb⟩ := h.body
      have hok : ∃ r, spawnTx lower env db s (s.createdBy.getD 0) "[schedule]" = .ok r :=
        ⟨_, spawnTx_eq_ok_iff.mpr ⟨h, content, version, hb, rfl⟩⟩
      obtain ⟨r, hr⟩ := hok
      rw [hspawn] at hr
      cases hr
    dsimp only
    rw [map_eq_ok_iff, failureRows_recorded_iff]
    exact ⟨fun h => ⟨fun _ => h, fun hc => absurd hc hcommits⟩, fun h => h.before hcommits⟩
  · obtain ⟨hcommits, content, version, hb, rfl⟩ := spawnTx_eq_ok_iff.mp hspawn
    have hbefore : ¬ Commits lower env db s → FailureRecorded env db s := absurd hcommits
    have hsensitive : db.sensitive lower s = (db.verdict lower s content).1 := by
      rw [sensitive, hb]
    cases hverdict : (db.verdict lower s content).1 with
    | true =>
        refine iff_of_true ⟨⟨1, rfl⟩, (recordedBy_spawnedRow (List.cons_ne_nil _ _)).mpr rfl⟩
          ⟨hbefore, fun _ hplain => ?_⟩
        rw [hsensitive, hverdict] at hplain
        cases hplain
    | false =>
        dsimp only
        cases hfault : (env.meets s.id).fault .dispatch with
        | none =>
            refine iff_of_true ⟨⟨1, rfl⟩, (recordedBy_spawnedRow (List.cons_ne_nil _ _)).mpr rfl⟩
              ⟨hbefore, fun _ _ hraises => absurd hfault hraises⟩
        | some err =>
            dsimp only
            rw [map_eq_ok_iff]
            refine (and_congr_right' (recordedBy_spawnedRow (List.cons_ne_nil _ _))).trans ?_
            refine (failureRows_refused_iff rfl err).trans
              ⟨fun h => ⟨hbefore, fun _ _ _ => h⟩, fun h => ?_⟩
            exact h.after hcommits (hsensitive.trans hverdict)
              (by rw [hfault]; exact Option.some_ne_none _)

/-! ### The whole sweep -/

variable {due : List ScheduleTask}

theorem rowsOf_added_of_ne (h : ∀ t ∈ due, t.id ≠ s.id ∧
    (env.meets t.id).ids.task ≠ (env.meets s.id).ids.task) :
    (db'.append (added lower describe env db due)).rowsOf s.id (env.meets s.id).ids.task =
      db'.rowsOf s.id (env.meets s.id).ids.task := by
  induction due generalizing db' with
  | nil => rw [added, List.foldr_nil, append_nil]
  | cons t due ih =>
      rw [List.forall_mem_cons] at h
      rw [added, List.foldr_cons, ← append_append]
      exact (ih h.2).trans (rowsOf_append_ne (keyed_addedRows db) h.1.1 h.1.2)

theorem rowsOf_added (hk : (due.map ScheduleTask.id).Nodup)
    (hd : (due.map fun s => (env.meets s.id).ids.task).Nodup) (hs : s ∈ due) :
    (db'.append (added lower describe env db due)).rowsOf s.id (env.meets s.id).ids.task =
      (db'.rowsOf s.id (env.meets s.id).ids.task).append (addedRows lower describe env db s) := by
  induction due generalizing db' with
  | nil => exact absurd hs List.not_mem_nil
  | cons t due ih =>
      rw [added, List.foldr_cons, ← append_append]
      rcases List.mem_cons.mp hs with rfl | hs
      · refine (rowsOf_added_of_ne fun t ht => ?_).trans (rowsOf_append_self (keyed_addedRows db))
        exact (ne_of_nodup hk hd ht).imp Ne.symm Ne.symm
      · obtain ⟨hid, htask⟩ := ne_of_nodup hk hd hs
        refine (ih (List.nodup_cons.mp hk).2 (List.nodup_cons.mp hd).2 hs).trans ?_
        rw [rowsOf_append_ne (keyed_addedRows db) hid htask]

/-- A task was committed for a schedule. -/
def TaskCommitted (env : FiringEnv) (db : RunTables) (s : ScheduleTask) : Prop :=
  ∃ t ∈ db.exec.tasks, t.id = (env.meets s.id).ids.task

/-- The sweep isolates failures and records each firing once: it returns, the rows of every schedule
are those that it has without any other one, and one run records each firing. -/
structure Isolates (lower : String → String) (describe : PyErr → String) (env : FiringEnv)
    (db : RunTables) (due : List ScheduleTask) : Prop where
  returns : ∃ n, (triggerDue lower describe env db 0 due).2 = .ok n
  apart : ∀ s ∈ due, ∀ t ∈ due, t ≠ s →
    (triggerDue lower describe env db 0 due).1.rowsOf t.id (env.meets t.id).ids.task =
      (triggerDue lower describe env db 0 (due.erase s)).1.rowsOf t.id (env.meets t.id).ids.task
  once : ∀ s ∈ due, ∃ runs,
    ((triggerDue lower describe env db 0 due).1.rowsOf s.id (env.meets s.id).ids.task).runs =
      (db.rowsOf s.id (env.meets s.id).ids.task).runs ++ runs ∧
    RecordedBy runs (TaskCommitted env (triggerDue lower describe env db 0 due).1 s)

theorem taskCommitted_iff : TaskCommitted env db s ↔
    (db.rowsOf s.id (env.meets s.id).ids.task).tasks ≠ [] := by
  rw [rowsOf, Ne, List.filter_eq_nil_iff, not_forall]
  simp [TaskCommitted]

theorem Fresh.tasks_eq_nil (h : Fresh env db due) (hs : s ∈ due) :
    (db.rowsOf s.id (env.meets s.id).ids.task).tasks = [] :=
  List.filter_eq_nil_iff.mpr fun t ht => by simpa using h.new s hs t ht

theorem Fresh.rowsOf_triggerDue (h : Fresh env db due) {due' : List ScheduleTask}
    (hsub : due'.Sublist due) (hgo : ∀ s ∈ due', GoesOn lower describe env db s) (hs : s ∈ due') :
    (triggerDue lower describe env db 0 due').1.rowsOf s.id (env.meets s.id).ids.task =
      (db.rowsOf s.id (env.meets s.id).ids.task).append (addedRows lower describe env db s) := by
  have hk := h.keyed.sublist (hsub.map _)
  have hd := h.distinct.sublist (hsub.map _)
  rw [(triggerDue_eq 0 hk hd fun s _ => Alike.refl env s db).2 hgo]
  exact rowsOf_added hk hd hs

/-- A sweep that returns has recorded the firing of a schedule as the schedule alone would be. -/
theorem Fresh.recorded_iff (h : Fresh env db due)
    (hgo : ∀ s ∈ due, GoesOn lower describe env db s) (hs : s ∈ due) :
    (∃ runs, ((triggerDue lower describe env db 0 due).1.rowsOf s.id
        (env.meets s.id).ids.task).runs = (db.rowsOf s.id (env.meets s.id).ids.task).runs ++ runs ∧
      RecordedBy runs (TaskCommitted env (triggerDue lower describe env db 0 due).1 s)) ↔
    RecordedBy (addedRows lower describe env db s).runs
      ((addedRows lower describe env db s).tasks ≠ []) := by
  rw [taskCommitted_iff, h.rowsOf_triggerDue (List.Sublist.refl due) hgo hs, ScheduleRows.append]
  dsimp only
  rw [h.tasks_eq_nil hs, List.nil_append]
  constructor
  · rintro ⟨runs, hruns, hrecorded⟩
    rwa [List.append_cancel_left hruns]
  · exact fun hrecorded => ⟨_, rfl, hrecorded⟩

/-- **The sweep** isolates the failures of the due schedules and records each firing once, exactly
if each spawn that fails before its commit gets its `failed` run, and each that fails after it gets
none and stops nothing. -/
theorem sweep_isolates_iff (h : Fresh env db due) :
    Isolates lower describe env db due ↔ ∀ s ∈ due, FailsWell lower env db s := by
  have hreturns : (∃ n, (triggerDue lower describe env db 0 due).2 = .ok n) ↔ _ :=
    (triggerDue_eq 0 h.keyed h.distinct fun s _ => Alike.refl env s db).1
  constructor
  · intro hisolates s hs
    have hgo := hreturns.mp hisolates.returns
    exact goesOn_recorded_iff.mp ⟨hgo s hs, (h.recorded_iff hgo hs).mp (hisolates.once s hs)⟩
  · intro hwell
    have hboth := fun s hs => (@goesOn_recorded_iff lower describe env db s).mpr (hwell s hs)
    have hgo : ∀ s ∈ due, GoesOn lower describe env db s := fun s hs => (hboth s hs).1
    refine ⟨hreturns.mpr hgo, fun s _ t ht hne => ?_, fun s hs =>
      (h.recorded_iff hgo hs).mpr (hboth s hs).2⟩
    have hsub : (due.erase s).Sublist due := List.erase_sublist
    rw [h.rowsOf_triggerDue (List.Sublist.refl due) hgo ht,
      h.rowsOf_triggerDue hsub (fun t ht => hgo t (hsub.subset ht))
        ((List.mem_erase_of_ne hne).mpr ht)]

/-- A schedule that runs a command on one host. -/
def uptime (id host : ℕ) : ScheduleTask where
  id := id
  name := "uptime"
  kind := "command"
  scriptId := none
  command := some "uptime"
  params := []
  targetHostIds := [host]
  timeoutSec := 300
  retry := 0
  createdBy := some 1

/-- The tables with host `1`. -/
def oneHost : RunTables where
  exec := ExecDb.fresh [⟨1, none, "agent", none⟩] ⟨[], none, false⟩
  runs := []
  dispatched := []

/-- Nothing raises, and every schedule gets numbers of its own. -/
def calm (id : ℕ) : SpawnEnv where
  ids := ⟨2 * id, id, id, id, 2 * id + 1⟩
  fault := fun _ => none
  spawnedAt := ⟨"20240101000000", by decide⟩
  failedAt := ⟨"20240101000000", by decide⟩
  recover := none
  record := none
  undo := none

/-- A schedule without its host is recorded, and the other one runs. -/
theorem sweep_isolates_missing_host :
    Isolates id (fun _ => "host 2 not found") ⟨⟨0, false, false⟩, calm⟩ oneHost
      [uptime 1 2, uptime 2 1] :=
  (sweep_isolates_iff ⟨by decide, fun _ _ _ ht => absurd ht List.not_mem_nil, by decide⟩).mpr
    fun _ _ =>   ⟨fun _ => ⟨rfl, rfl, List.not_mem_nil⟩, fun _ _ hraises => absurd rfl hraises⟩

/-- The dispatch of schedule `1` raises, in the second after that of its run number. -/
def lateFailure (id : ℕ) : SpawnEnv :=
  if id = 1 then
    { calm 1 with
      fault := fun p => if p = .dispatch then some .attributeError else none
      failedAt := ⟨"20240101000001", by decide⟩ }
  else calm id

/-- The task of schedule `1` is committed, and two runs record its firing, one of them `failed`. -/
theorem recorded_twice :
    ¬ Isolates id (fun _ => "dispatch failed") ⟨⟨0, false, false⟩, lateFailure⟩ oneHost
      [uptime 1 1, uptime 2 1] := by
  intro h
  obtain ⟨runs, hruns, r, rfl, -⟩ := h.once (uptime 1 1) List.mem_cons_self
  have htwo : ((triggerDue id (fun _ => "dispatch failed") ⟨⟨0, false, false⟩, lateFailure⟩ oneHost
      0 [uptime 1 1, uptime 2 1]).1.rowsOf 1 1).runs.length = 2 := by
    decide +kernel
  have hone : 2 = ([] ++ [r]).length := htwo.symm.trans (congrArg List.length hruns)
  exact absurd hone (Nat.succ_ne_self 1)

end RunTables

end LarkPlat
