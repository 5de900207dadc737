import LarkPlat.ExecEffects
import LarkPlat.Sessions

/-!
# Host Rows under Concurrent Writers

The writers of a host row are the claim of a worker, the record of an execution, the frames of
agents, the closing of a task and a retry. `Written` lists what each of them can do to a row, and
`apply_rows` says that no step of the pool does anything else.

A terminal status is final, and a row is handed out once per attempt, only while the writers
that do not look at the row again find it as they read it.

## Main results

* `apply_rows`: what one step does to the host rows.
* `terminal_final_iff`: along a history, ended rows keep their status until a retry exactly if
  no unguarded write finds a row that ended with another status.
* `handed_at_most_once`: a row is handed over at most once between two resets if every claim
  finds its row still pending and no retry resets a row that a worker has still to hand over.
-/

namespace LarkPlat

open Machine

variable {lower : String → String} {s : Pool} {op : PoolOp} {row : ℕ}

/-! ### The writes of a step -/

/-- The task has the status and the version that were read. -/
def ExecDb.unmoved (db : ExecDb) (task : ExecTask) : Bool :=
  (db.task? task.id).any fun t => decide (t.status = task.status ∧ t.version = task.version)

namespace Pool

/-- The row that a step claims. -/
def claims (s : Pool) : PoolOp → Option ℕ
  | .act i a => (s.workers[i]?).bind (·.claims a)
  | _ => none

/-- The status that a step writes to the rows that a closing read as live. -/
def closes (s : Pool) : PoolOp → Option (HostStatus × List ℕ)
  | .commit _ _ i =>
      match s.sessions[i]? with
      | some (.close c task rows) =>
          if s.approving task.id = false ∧ s.db.unmoved task = true then some (c.host, rows)
          else none
      | _ => none
  | _ => none

/-- The rows that a step resets to `pending`. -/
def resets (s : Pool) : PoolOp → List ℕ
  | .commit _ _ i =>
      match s.sessions[i]? with
      | some (.retry _ task rows none) => if s.db.unmoved task = true then rows else []
      | _ => []
  | _ => []

end Pool

/-- How a step can change the status of a row. -/
inductive Written (s : Pool) (op : PoolOp) (row : ℕ) : HostStatus → HostStatus → Prop where
  | kept (st : HostStatus) : Written s op row st st
  | claimed (st : HostStatus) (h : s.claims op = some row) : Written s op row st .running
  | finished (st : HostStatus) (h : st ≠ .pending) : Written s op row .running st
  | reported (st : HostStatus) (now : ℚ) (status : String) (exitCode : Option ℤ)
      (h : op = .persistResult now row status exitCode) :
      Written s op row st (Pool.frameStatus status)
  | closed (st st' : HostStatus) (rows : List ℕ) (h : s.closes op = some (st', rows))
      (hrow : row ∈ rows) : Written s op row st st'
  | reset (st : HostStatus) (h : row ∈ s.resets op) : Written s op row st .pending

/-- What a step does to the host rows: each row is written in one of the known ways, and rows
are only added. -/
def RowsMove (s : Pool) (op : PoolOp) (rows : List ExecTaskHost) : Prop :=
  ∃ (g : ExecTaskHost → ExecTaskHost) (new : List ExecTaskHost),
    rows = s.db.taskHosts.map g ++ new ∧
      ∀ th, (g th).id = th.id ∧ (g th).execTaskId = th.execTaskId ∧
        Written s op th.id th.status (g th).status

theorem rowsMove_same : RowsMove s op s.db.taskHosts :=
  ⟨id, [], by simp, fun th => ⟨rfl, rfl, .kept _⟩⟩

theorem rowsMove_append (new : List ExecTaskHost) : RowsMove s op (s.db.taskHosts ++ new) :=
  ⟨id, new, by simp, fun th => ⟨rfl, rfl, .kept _⟩⟩

theorem rowsMove_map {g : ExecTaskHost → ExecTaskHost}
    (h : ∀ th, (g th).id = th.id ∧ (g th).execTaskId = th.execTaskId ∧
      Written s op th.id th.status (g th).status) :
    RowsMove s op (s.db.taskHosts.map g) :=
  ⟨g, [], by simp, h⟩

theorem rowsMove_setTaskHost {row : ℕ} {f : ExecTaskHost → ExecTaskHost}
    (hf : ∀ th, (f th).id = th.id ∧ (f th).execTaskId = th.execTaskId)
    (hw : ∀ th, th.id = row → Written s op row th.status (f th).status) :
    RowsMove s op (s.db.setTaskHost row f).taskHosts := by
  refine rowsMove_map ?_
  intro th
  split_ifs with h
  · exact ⟨(hf th).1, (hf th).2, h ▸ hw th h⟩
  · exact ⟨rfl, rfl, .kept _⟩

theorem rowsMove_writeRows {rows : List ℕ} {f : ExecTaskHost → ExecTaskHost}
    (hf : ∀ th, (f th).id = th.id ∧ (f th).execTaskId = th.execTaskId)
    (hw : ∀ th, th.id ∈ rows → Written s op th.id th.status (f th).status)
    {db : ExecDb} (hdb : db.taskHosts = s.db.taskHosts) :
    RowsMove s op (db.writeRows rows f).taskHosts := by
  have heq : (db.writeRows rows f).taskHosts =
      s.db.taskHosts.map fun th => if th.id ∈ rows then f th else th := by
    rw [← hdb]
    rfl
  rw [heq]
  refine rowsMove_map ?_
  intro th
  split_ifs with h
  · exact ⟨(hf th).1, (hf th).2, hw th h⟩
  · exact ⟨rfl, rfl, .kept _⟩

/-! ### One step -/

@[simp] theorem kickOff_taskHosts (brokerUp inProcess : Bool) (taskId : ℕ) :
    (s.kickOff brokerUp inProcess taskId).db.taskHosts = s.db.taskHosts := by
  unfold Pool.kickOff
  split_ifs <;> rfl

@[simp] theorem kickIf_taskHosts (brokerUp : Bool) (kick : Option Bool) (taskId : ℕ) :
    (s.kickIf brokerUp kick taskId).db.taskHosts = s.db.taskHosts := by
  cases kick with
  | none => rfl
  | some inProcess => exact kickOff_taskHosts brokerUp inProcess taskId

theorem CreationEffect.taskHosts {env : ExecEnv} {spec : TaskSpec} {policy : Option String}
    {db db' : ExecDb} {c : Created} (h : CreationEffect env spec policy db db' c) :
    db'.taskHosts = db.taskHosts ++ newTaskHosts env db spec := by
  obtain ⟨-, sensitive, sent, he, -⟩ := h
  exact he.taskHosts

theorem create_rows (env : ExecEnv) (spec : TaskSpec) (policy : Option String)
    (kick : Option Bool) : RowsMove s op (s.create lower env spec policy kick).db.taskHosts := by
  unfold Pool.create
  split
  · exact rowsMove_same
  · rename_i db' c h
    have hrows := (createExecTaskRecord_effect h).taskHosts
    have hnew : RowsMove s op db'.taskHosts := by
      rw [hrows]
      exact rowsMove_append _
    split_ifs
    · exact rowsMove_same
    · rw [kickIf_taskHosts]
      exact hnew
    · exact hnew

theorem decline_rows {approvalId : ℕ} {result : Except PyErr ExecDb}
    (h : ∀ db', result = .ok db' → db'.taskHosts = s.db.taskHosts) :
    RowsMove s op (s.decline approvalId result).db.taskHosts := by
  unfold Pool.decline
  split_ifs
  · exact rowsMove_same
  · split
    · rename_i db'
      show RowsMove s op db'.taskHosts
      rw [h db' rfl]
      exact rowsMove_same
    · exact rowsMove_same

theorem openClose_rows (c : Closing) (admits : ExecTask → Bool) (taskId : ℕ) :
    RowsMove s op (s.openClose c admits taskId).db.taskHosts := by
  unfold Pool.openClose
  split
  · split_ifs <;> exact rowsMove_same
  · exact rowsMove_same

/-- The guarded update of a task goes through exactly if the task did not move. -/
theorem casTask_isSome (db : ExecDb) (task : ExecTask) (new : ExecStatus) :
    (db.casTask task.id task.status new task.version).isSome = db.unmoved task := by
  unfold ExecDb.casTask ExecDb.unmoved
  rcases db.task? task.id with _ | t
  · rfl
  · simp only [Option.any_some]
    split_ifs with h <;> simp [h]

theorem closeTask_isSome (c : Closing) (env : ExecEnv) (db : ExecDb) (task : ExecTask)
    (rows : List ℕ) : (closeTask c env db task rows).isSome = db.unmoved task := by
  rw [← casTask_isSome db task c.task, closeTask]
  split <;> simp_all

theorem retryTask_isSome (env : ExecEnv) (db : ExecDb) (task : ExecTask) (rows : List ℕ) :
    (retryTask env db task rows).isSome = db.unmoved task := by
  rw [← casTask_isSome db task .running, retryTask]
  split <;> simp_all

theorem commit_rows (env : ExecEnv) (inProcess : Bool) (i : ℕ) :
    RowsMove s (.commit env inProcess i) (s.commit env inProcess i).db.taskHosts := by
  unfold Pool.commit
  split
  · exact rowsMove_same
  · rename_i c task rows hi
    split_ifs with hfree
    · exact rowsMove_same
    · rcases hc : closeTask c env s.db task rows with _ | db'
      · exact rowsMove_same
      · obtain ⟨db₁, he, rfl⟩ := closeTask_eq_some hc
        show RowsMove s _ (db₁.writeRows rows _).taskHosts
        refine rowsMove_writeRows ?_ ?_ he.taskHosts
        · exact fun th => ⟨rfl, rfl⟩
        intro th hth
        have hun := closeTask_isSome c env s.db task rows
        rw [hc, Option.isSome_some] at hun
        refine .closed th.status c.host rows ?_ hth
        simp [Pool.closes, hi, hfree, ← hun]
  · rename_i userId task rows hi
    rcases hc : retryTask env s.db task rows with _ | db'
    · exact rowsMove_same
    · obtain ⟨db₁, he, rfl⟩ := retryTask_eq_some hc
      dsimp only
      rw [kickOff_taskHosts]
      show RowsMove s _ (db₁.writeRows rows _).taskHosts
      refine rowsMove_writeRows ?_ ?_ he.taskHosts
      · exact fun th => ⟨rfl, rfl⟩
      intro th hth
      have hun := retryTask_isSome env s.db task rows
      rw [hc, Option.isSome_some] at hun
      refine .reset th.status ?_
      simp [Pool.resets, hi, ← hun, hth]
  · rename_i userId task rows reason hi
    rcases hc : retrySensitive s.db task userId reason with _ | db'
    · exact rowsMove_same
    · have he := (effect_retrySensitive hc).taskHosts
      show RowsMove s _ db'.taskHosts
      rw [he]
      exact rowsMove_same
  · rename_i env' userId a hi
    rcases hc : approveRead env' s.db userId a with e | db'
    · exact rowsMove_same
    · show RowsMove s _ db'.taskHosts
      rw [(effect_approveRead hc).taskHosts]
      exact rowsMove_same
  · rename_i taskId rows kick hi
    rw [kickIf_taskHosts]
    exact rowsMove_append rows.taskHosts

theorem act_rows (i : ℕ) (a : WorkerAct) :
    RowsMove s (.act i a) (s.act lower i a).db.taskHosts := by
  unfold Pool.act
  split
  · exact rowsMove_same
  · rename_i w hi
    dsimp only
    fun_cases Worker.act lower w s.db a with
    | case5 l th todo started now hphase =>
        refine rowsMove_setTaskHost (fun th => ⟨rfl, rfl⟩) ?_
        intro th' _
        refine .claimed th'.status ?_
        simp [Pool.claims, hi, Worker.claims, hphase]
    | case8 l row status todo now hphase =>
        refine rowsMove_setTaskHost ?_ ?_
        · intro th
          unfold finishWrite finishRow
          split_ifs
          · split <;> exact ⟨rfl, rfl⟩
          · exact ⟨rfl, rfl⟩
        · intro th _
          unfold finishWrite
          split_ifs with hr
          · rw [hr]
            refine .finished _ ?_
            unfold finishRow
            split <;> simp
          · exact .kept _
    | case9 l env hphase =>
        obtain ⟨sent, he⟩ := @effect_settleAgain env s.db w.taskId
        rw [he.taskHosts]
        exact rowsMove_same
    | _ => exact rowsMove_same

/-- **What one step does to the host rows.** -/
theorem apply_rows (lower : String → String) (s : Pool) (op : PoolOp) :
    RowsMove s op (s.apply lower op).db.taskHosts := by
  cases op with
  | create env spec policy kick => exact create_rows env spec policy kick
  | openApprove env userId approvalId =>
      show RowsMove s _ (s.openApprove env userId approvalId).db.taskHosts
      unfold Pool.openApprove
      split_ifs
      · exact rowsMove_same
      · split
        · exact rowsMove_same
        · split <;> exact rowsMove_same
  | reject env userId approvalId =>
      exact decline_rows fun db' h => (effect_reject h).taskHosts
  | cancelApproval env userId isAdmin approvalId =>
      exact decline_rows fun db' h => (effect_cancelApproval h).taskHosts
  | openCancel taskId => exact openClose_rows .cancel _ taskId
  | openSweep now createdAt taskId => exact openClose_rows .timeout _ taskId
  | openRetry userId taskId =>
      show RowsMove s _ (s.openRetry lower userId taskId).db.taskHosts
      unfold Pool.openRetry
      split
      · split_ifs <;> exact rowsMove_same
      · exact rowsMove_same
  | commit env inProcess i => exact commit_rows env inProcess i
  | abort i => exact rowsMove_same
  | consume k =>
      show RowsMove s _ (s.consume k).db.taskHosts
      unfold Pool.consume
      split <;> exact rowsMove_same
  | act i a => exact act_rows i a
  | persistResult now row status exitCode =>
      refine rowsMove_setTaskHost (fun th => ⟨rfl, rfl⟩) ?_
      intro th _
      exact .reported th.status now status exitCode rfl
  | maybeFinalizeTask now taskId =>
      show RowsMove s _ (Pool.maybeFinalizeTask now s.db taskId).taskHosts
      rw [(effect_maybeFinalizeTask now s.db taskId).taskHosts]
      exact rowsMove_same
  | configure hosts scripts scriptVersions rules => exact rowsMove_same

/-! ### The status of a row after a step -/

theorem status_apply {st : HostStatus} (h : s.db.status? row = some st) :
    ∃ st', (s.apply lower op).db.status? row = some st' ∧ Written s op row st st' := by
  obtain ⟨g, new, hrows, hg⟩ := apply_rows lower s op
  obtain ⟨th, hth, rfl⟩ := Option.map_eq_some_iff.mp h
  have hid : th.id = row := Table.key_of_find hth
  have hfind : Table.find ExecTaskHost.id (s.db.taskHosts.map g) row = some (g th) := by
    rw [Table.find_map fun th => (hg th).1]
    exact congrArg (Option.map g) hth
  refine ⟨(g th).status, ?_, hid ▸ (hg th).2.2⟩
  rw [ExecDb.status?, ExecDb.taskHost?, hrows, Table.find_append hfind]
  rfl

theorem status_setTaskHost {db : ExecDb} {f : ExecTaskHost → ExecTaskHost} {st st' : HostStatus}
    (hid : ∀ th, (f th).id = th.id) (hst : ∀ th, (f th).status = st')
    (h : db.status? row = some st) : (db.setTaskHost row f).status? row = some st' := by
  obtain ⟨th, hth, -⟩ := Option.map_eq_some_iff.mp h
  have hfind : Table.find ExecTaskHost.id (Table.modify ExecTaskHost.id db.taskHosts row f) row =
      some (f th) := by
    rw [Table.find_modify_self fun th hrow => (hid th).trans hrow]
    exact congrArg (Option.map f) hth
  rw [ExecDb.status?, ExecDb.taskHost?]
  exact (congrArg (Option.map fun th : ExecTaskHost => th.status) hfind).trans
    (congrArg some (hst th))

theorem claims_eq_some {w : Worker} {a : WorkerAct} (h : w.claims a = some row) :
    ∃ l th todo started now, w.phase = .claiming l (th :: todo) started ∧
      a = .claim now true ∧ th.id = row := by
  fun_cases Worker.claims w a with
  | case1 l th todo started now hphase =>
      simp only [Worker.claims, hphase, Option.some.injEq] at h
      exact ⟨l, th, todo, started, now, hphase, rfl, h⟩
  | case2 hne => simp [Worker.claims] at h

theorem status_of_claims {st : HostStatus} (hc : s.claims op = some row)
    (h : s.db.status? row = some st) :
    (s.apply lower op).db.status? row = some .running ∧ s.resets op = [] := by
  unfold Pool.claims at hc
  split at hc
  · rename_i i a
    obtain ⟨w, hi, hc⟩ := Option.bind_eq_some_iff.mp hc
    obtain ⟨l, th, todo, started, now, hphase, rfl, rfl⟩ := claims_eq_some hc
    refine ⟨?_, rfl⟩
    have hact : (s.apply lower (.act i (.claim now true))).db =
        s.db.setTaskHost th.id (claimWrite now) := by
      simp [Pool.apply, Pool.act, hi, Worker.act, hphase]
    rw [hact]
    exact status_setTaskHost (fun _ => rfl) (fun _ => rfl) h
  · cases hc

theorem status_of_closes {st st' : HostStatus} {rows : List ℕ}
    (hc : s.closes op = some (st', rows)) (hrow : row ∈ rows) (h : s.db.status? row = some st) :
    (s.apply lower op).db.status? row = some st' ∧ s.resets op = [] := by
  unfold Pool.closes at hc
  split at hc
  · rename_i env inProcess i
    split at hc
    · rename_i c task rows' hi
      split_ifs at hc with hguard
      obtain ⟨rfl, rfl⟩ := Prod.mk.inj (Option.some.inj hc)
      refine ⟨?_, by simp [Pool.resets, hi]⟩
      have hsome := closeTask_isSome c env s.db task rows'
      rw [hguard.2] at hsome
      obtain ⟨db', hdb'⟩ := Option.isSome_iff_exists.mp hsome
      have hcommit : (s.apply lower (.commit env inProcess i)).db = db' := by
        simp [Pool.apply, Pool.commit, hi, hguard.1, hdb', Pool.finishWith]
      obtain ⟨db₁, he, rfl⟩ := closeTask_eq_some hdb'
      obtain ⟨th, hth, -⟩ := Option.map_eq_some_iff.mp h
      have hid : th.id = row := Table.key_of_find hth
      have hth₁ : Table.find ExecTaskHost.id db₁.taskHosts row = some th := by
        rw [he.taskHosts]
        exact hth
      rw [hcommit, ExecDb.status?, ExecDb.taskHost?, ExecDb.writeRows,
        Table.find_map (fun th => by split_ifs <;> rfl), hth₁, Option.map_some, Option.map_some,
        if_pos (hid ▸ hrow)]
    · cases hc
  · cases hc

/-! ### Terminal rows -/

/-- No write of the step that does not look at the row changes the status of an ended row: no
claim takes one, no frame of an agent reports another status, and no closing that read the row as
live writes another status. -/
def KeepsEnded (s : Pool) (op : PoolOp) : Prop :=
  ∀ row st, s.db.status? row = some st → st.terminal = true →
    s.claims op ≠ some row ∧
    (∀ now status exitCode, op = .persistResult now row status exitCode →
      Pool.frameStatus status = st) ∧
    ∀ st' rows, s.closes op = some (st', rows) → row ∈ rows → st' = st

/-- Along the history, an ended row keeps its status until a retry resets it. -/
def EndedStays (lower : String → String) (s : Pool) (ops : List PoolOp) : Prop :=
  ∀ row pre mid post, ops = pre ++ mid ++ post →
    Meets (Pool.apply lower) (fun s op => row ∉ s.resets op)
      (run (Pool.apply lower) s pre) mid →
    ∀ st, (run (Pool.apply lower) s pre).db.status? row = some st → st.terminal = true →
      (run (Pool.apply lower) s (pre ++ mid)).db.status? row = some st

theorem status_apply_of_keeps {st : HostStatus} (h : s.db.status? row = some st)
    (hend : st.terminal = true) (hkeep : KeepsEnded s op) (hreset : row ∉ s.resets op) :
    (s.apply lower op).db.status? row = some st := by
  obtain ⟨st', hst', hw⟩ := @status_apply lower s op row st h
  obtain ⟨hclaim, hframe, hclose⟩ := hkeep row st h hend
  rw [hst']
  cases hw with
  | kept => rfl
  | claimed _ hc => exact absurd hc hclaim
  | finished _ _ => cases hend
  | reported _ now status exitCode hop => rw [hframe now status exitCode hop]
  | closed _ _ rows hc hrow => rw [hclose st' rows hc hrow]
  | reset _ hr => exact absurd hr hreset

/-- A step that does not keep ended rows changes the status of one, and is no retry. -/
theorem exists_changed_of_not_keeps (lower : String → String) (h : ¬ KeepsEnded s op) :
    ∃ row st, s.db.status? row = some st ∧ st.terminal = true ∧ row ∉ s.resets op ∧
      (s.apply lower op).db.status? row ≠ some st := by
  unfold KeepsEnded at h
  push Not at h
  obtain ⟨row, st, hst, hend, h⟩ := h
  refine ⟨row, st, hst, hend, ?_⟩
  by_cases hclaim : s.claims op = some row
  · obtain ⟨hrun, hreset⟩ := @status_of_claims lower s op row st hclaim hst
    rw [hrun, hreset]
    refine ⟨List.not_mem_nil, ?_⟩
    rintro heq
    obtain rfl := Option.some.inj heq
    cases hend
  · by_cases hframe : ∀ now status exitCode, op = .persistResult now row status exitCode →
        Pool.frameStatus status = st
    · obtain ⟨st', rows, hclose, hrow, hne⟩ := h hclaim hframe
      obtain ⟨hrun, hreset⟩ := @status_of_closes lower s op row st st' rows hclose hrow hst
      rw [hrun, hreset]
      exact ⟨List.not_mem_nil, fun heq => hne (Option.some.inj heq)⟩
    · push Not at hframe
      obtain ⟨now, status, exitCode, rfl, hne⟩ := hframe
      refine ⟨List.not_mem_nil, ?_⟩
      have hrun : (s.apply lower (.persistResult now row status exitCode)).db.status? row =
          some (Pool.frameStatus status) :=
        status_setTaskHost (fun _ => rfl) (fun _ => rfl) hst
      rw [hrun]
      exact fun heq => hne (Option.some.inj heq)

/-- **When a terminal status is final.** Along a history, ended rows keep their status until a
retry exactly if every step keeps ended rows. -/
theorem terminal_final_iff (lower : String → String) (s : Pool) (ops : List PoolOp) :
    EndedStays lower s ops ↔ Meets (Pool.apply lower) KeepsEnded s ops := by
  refine (staysUntil_iff (fun s row => s.db.status? row) (·.terminal = true)
    (fun s op row => row ∈ s.resets op) s ops).trans (meets_congr (fun s op => ?_) s ops)
  constructor
  · intro h
    by_contra hbad
    obtain ⟨row, st, hst, hend, hreset, hne⟩ := exists_changed_of_not_keeps lower hbad
    exact hne (h row st hst hend hreset)
  · exact fun h row st hst hend hreset => status_apply_of_keeps hst hend h hreset

/-- One host that is bound to an agent. -/
def agentHost : ExecDb := ExecDb.fresh [⟨1, none, "agent", some "agent-1"⟩] ⟨[], none, false⟩

/-- A process with a broker. -/
def busEnv : ExecEnv := ⟨0, false, true⟩

/-- A dispatch whose agent is connected. -/
def agentEnv : DispatchEnv :=
  { busEnv with
    acquires := fun _ => true
    agentAccepts := fun _ => true
    sshSucceeds := fun _ => false }

/-- A task whose host runs on an agent when it is canceled. -/
def canceledHistory : List PoolOp :=
  [.create busEnv { demoSpec with command := some "uptime" } none (some true),
    .act 0 .check, .act 0 .load, .act 0 (.claim 1 true), .act 0 (.hand agentEnv),
    .act 0 (.settle busEnv), .openCancel 1, .commit busEnv false 0]

/-- The row is running on an agent when the task is canceled; the agent's result comes late. -/
theorem late_frame_changes_canceled_row :
    ¬ EndedStays id (.idle agentHost)
      (canceledHistory ++ [.persistResult 2 1 "success" (some 0)]) := by
  intro h
  have hstay := h 1 canceledHistory [.persistResult 2 1 "success" (some 0)] []
    (List.append_nil _).symm ⟨by decide +kernel, trivial⟩ .canceled (by decide +kernel) rfl
  revert hstay
  decide +kernel

/-! ### Handing a row over -/

/-- The number of workers that claimed the row and have still to hand it over. -/
def Pool.owed (s : Pool) (row : ℕ) : ℕ :=
  Sessions.weight (fun w => w.phase.owed.count row) s.workers

/-- The row may be claimed: it is pending, or not inserted yet. -/
def Pool.Free (s : Pool) (row : ℕ) : Prop :=
  s.db.status? row = none ∨ s.db.status? row = some .pending

instance (s : Pool) (row : ℕ) : Decidable (s.Free row) := inferInstanceAs (Decidable (_ ∨ _))

/-- The handovers of the row that are still to be expected. -/
def Pool.dues (s : Pool) (row : ℕ) : ℕ := s.owed row + if s.Free row then 1 else 0

/-- Every claim finds its row pending, and no retry resets a row that a worker has still to hand
over. -/
def ClaimsFresh (s : Pool) (op : PoolOp) : Prop :=
  (∀ row ∈ s.claims op, s.db.status? row = some .pending) ∧
    ∀ row ∈ s.resets op, s.owed row = 0

instance (s : Pool) (op : PoolOp) : Decidable (ClaimsFresh s op) :=
  inferInstanceAs (Decidable (_ ∧ _))

/-- Along the history, between two resets of a row its content is handed over at most once. -/
def HandedOnce (lower : String → String) (s : Pool) (ops : List PoolOp) : Prop :=
  ∀ row pre mid post, ops = pre ++ mid ++ post →
    Meets (Pool.apply lower) (fun s op => row ∉ s.resets op)
      (run (Pool.apply lower) s pre) mid →
    (run (Pool.apply lower) s (pre ++ mid)).handed.count row ≤
      (run (Pool.apply lower) s pre).handed.count row + 1

theorem owed_claimsFrom (l : Loaded) (todo started : List ExecTaskHost) (taskId row : ℕ) :
    ((claimsFrom l todo started).map (Worker.mk taskId)).elim 0
      (fun w => w.phase.owed.count row) = (started.map (·.id)).count row := by
  unfold claimsFrom
  split_ifs with h₁ h₂
  · rfl
  · rfl
  · simp only [ne_eq, not_not] at h₂
    rw [h₂]
    rfl

theorem owed_afterHandOver (l : Loaded) (row : ℕ) (todo : List ExecTaskHost)
    (outcome : Option Via × HostStatus) :
    (afterHandOver l row todo outcome).owed = todo.map (·.id) := by
  fun_cases afterHandOver l row todo outcome <;> rfl

theorem act_owed (lower : String → String) (w : Worker) (db : ExecDb) (a : WorkerAct) (row : ℕ) :
    (w.act lower db a).worker.elim 0 (fun w => w.phase.owed.count row) +
        (w.act lower db a).handed.count row ≤
      w.phase.owed.count row + if w.claims a = some row then 1 else 0 := by
  fun_cases Worker.act lower w db a with
  | case4 task hphase rows pending =>
      rw [owed_claimsFrom]
      simp
  | case5 l th todo started now hphase =>
      have hclaims : w.claims (.claim now true) = some th.id := by
        simp [Worker.claims, hphase]
      rw [owed_claimsFrom, hclaims, hphase]
      simp only [Phase.owed, List.map_append, List.map_cons, List.map_nil, List.count_append,
        List.count_singleton, List.count_nil, beq_iff_eq, Option.some.injEq]
      omega
  | case6 l todo started now hphase =>
      rw [claimsBroken, owed_claimsFrom, hphase]
      exact Nat.le_add_right _ _
  | case7 l th todo env hphase outcome =>
      have hhanded : (if outcome.1.isSome then [th.id] else []).count row ≤
          if th.id = row then 1 else 0 := by
        split_ifs <;> simp_all
      simp only [Option.elim_some, owed_afterHandOver, hphase]
      simp only [Phase.owed, List.map_cons, List.count_cons, beq_iff_eq]
      omega
  | case8 l row' status todo now hphase => simp [Phase.owed, hphase]
  | case11 => exact Nat.le_add_right _ _
  | _ => simp [Phase.owed]

/-- Nothing is handed over, and workers only begin. -/
def OnlyBegins (s s' : Pool) : Prop :=
  s'.handed = s.handed ∧ ∃ new, s'.workers = s.workers ++ new ∧ ∀ w ∈ new, w.phase = .opened

theorem onlyBegins_same {s' : Pool} (hh : s'.handed = s.handed) (hw : s'.workers = s.workers) :
    OnlyBegins s s' :=
  ⟨hh, [], by rw [hw, List.append_nil], fun w hw => by cases hw⟩

theorem onlyBegins_start {s' : Pool} (hh : s'.handed = s.handed) (hw : s'.workers = s.workers)
    (taskId : ℕ) : OnlyBegins s (s'.start taskId) := by
  refine ⟨hh, [⟨taskId, .opened⟩], by rw [Pool.start, hw], ?_⟩
  intro w hw
  obtain rfl := List.mem_singleton.mp hw
  rfl

theorem onlyBegins_kickOff {s' : Pool} (hh : s'.handed = s.handed) (hw : s'.workers = s.workers)
    (brokerUp inProcess : Bool) (taskId : ℕ) :
    OnlyBegins s (s'.kickOff brokerUp inProcess taskId) := by
  unfold Pool.kickOff
  split_ifs
  · exact onlyBegins_start hh hw taskId
  · exact onlyBegins_same hh hw

theorem onlyBegins_kickIf {s' : Pool} (hh : s'.handed = s.handed) (hw : s'.workers = s.workers)
    (brokerUp : Bool) (kick : Option Bool) (taskId : ℕ) :
    OnlyBegins s (s'.kickIf brokerUp kick taskId) := by
  cases kick with
  | none => exact onlyBegins_same hh hw
  | some inProcess => exact onlyBegins_kickOff hh hw brokerUp inProcess taskId

theorem onlyBegins_finishWith (i : ℕ) (db? : Option ExecDb) :
    OnlyBegins s (s.finishWith i db?) := by
  cases db? <;> exact onlyBegins_same rfl rfl

theorem onlyBegins_decline (approvalId : ℕ) (result : Except PyErr ExecDb) :
    OnlyBegins s (s.decline approvalId result) := by
  unfold Pool.decline
  split_ifs
  · exact onlyBegins_same rfl rfl
  · split <;> exact onlyBegins_same rfl rfl

theorem onlyBegins_openClose (c : Closing) (admits : ExecTask → Bool) (taskId : ℕ) :
    OnlyBegins s (s.openClose c admits taskId) := by
  unfold Pool.openClose
  split
  · split_ifs <;> exact onlyBegins_same rfl rfl
  · exact onlyBegins_same rfl rfl

theorem onlyBegins_commit (env : ExecEnv) (inProcess : Bool) (i : ℕ) :
    OnlyBegins s (s.commit env inProcess i) := by
  unfold Pool.commit
  split
  · exact onlyBegins_same rfl rfl
  · split_ifs
    · exact onlyBegins_same rfl rfl
    · exact onlyBegins_finishWith i _
  · split
    · exact onlyBegins_kickOff rfl rfl _ _ _
    · exact onlyBegins_same rfl rfl
  · exact onlyBegins_finishWith i _
  · exact onlyBegins_finishWith i _
  · exact onlyBegins_kickIf rfl rfl _ _ _

/-- What a step does to the workers: one of them takes a step, or some begin. -/
theorem apply_workers (lower : String → String) (s : Pool) (op : PoolOp) :
    (∃ i a w, op = .act i a ∧ s.workers[i]? = some w) ∨
      s.claims op = none ∧ OnlyBegins s (s.apply lower op) := by
  cases op with
  | create env spec policy kick =>
      refine Or.inr ⟨rfl, ?_⟩
      show OnlyBegins s (s.create lower env spec policy kick)
      unfold Pool.create
      split
      · exact onlyBegins_same rfl rfl
      · split_ifs
        · exact onlyBegins_same rfl rfl
        · exact onlyBegins_kickIf rfl rfl _ _ _
        · exact onlyBegins_same rfl rfl
  | openApprove env userId approvalId =>
      refine Or.inr ⟨rfl, ?_⟩
      show OnlyBegins s (s.openApprove env userId approvalId)
      unfold Pool.openApprove
      split_ifs
      · exact onlyBegins_same rfl rfl
      · split
        · exact onlyBegins_same rfl rfl
        · split <;> exact onlyBegins_same rfl rfl
  | reject env userId approvalId => exact Or.inr ⟨rfl, onlyBegins_decline _ _⟩
  | cancelApproval env userId isAdmin approvalId => exact Or.inr ⟨rfl, onlyBegins_decline _ _⟩
  | openCancel taskId => exact Or.inr ⟨rfl, onlyBegins_openClose _ _ _⟩
  | openSweep now createdAt taskId => exact Or.inr ⟨rfl, onlyBegins_openClose _ _ _⟩
  | openRetry userId taskId =>
      refine Or.inr ⟨rfl, ?_⟩
      show OnlyBegins s (s.openRetry lower userId taskId)
      unfold Pool.openRetry
      split
      · split_ifs <;> exact onlyBegins_same rfl rfl
      · exact onlyBegins_same rfl rfl
  | commit env inProcess i => exact Or.inr ⟨rfl, onlyBegins_commit env inProcess i⟩
  | abort i => exact Or.inr ⟨rfl, onlyBegins_same rfl rfl⟩
  | consume k =>
      refine Or.inr ⟨rfl, ?_⟩
      show OnlyBegins s (s.consume k)
      unfold Pool.consume
      split
      · exact onlyBegins_start rfl rfl _
      · exact onlyBegins_same rfl rfl
  | act i a =>
      rcases hi : s.workers[i]? with _ | w
      · refine Or.inr ⟨by simp [Pool.claims, hi], ?_⟩
        have hact : s.apply lower (.act i a) = s := by simp [Pool.apply, Pool.act, hi]
        rw [hact]
        exact onlyBegins_same rfl rfl
      · exact Or.inl ⟨i, a, w, rfl, hi⟩
  | persistResult now row status exitCode => exact Or.inr ⟨rfl, onlyBegins_same rfl rfl⟩
  | maybeFinalizeTask now taskId => exact Or.inr ⟨rfl, onlyBegins_same rfl rfl⟩
  | configure hosts scripts scriptVersions rules => exact Or.inr ⟨rfl, onlyBegins_same rfl rfl⟩

/-- **The ledger of a row.** What is handed over was owed, and only a claim makes a row owed. -/
theorem owed_apply (lower : String → String) (s : Pool) (op : PoolOp) (row : ℕ) :
    s.handed.count row ≤ (s.apply lower op).handed.count row ∧
      (s.apply lower op).owed row + (s.apply lower op).handed.count row ≤
        s.owed row + s.handed.count row + if s.claims op = some row then 1 else 0 := by
  rcases apply_workers lower s op with ⟨i, a, w, rfl, hi⟩ | ⟨-, hh, new, hw, hnew⟩
  · have hclaims : s.claims (.act i a) = w.claims a := by simp [Pool.claims, hi]
    have hact := act_owed lower w s.db a row
    have hweight := Sessions.weight_elim (fun w : Worker => w.phase.owed.count row) hi
      (w.act lower s.db a).worker
    have hpool : s.apply lower (.act i a) =
        { s with
          db := (w.act lower s.db a).db
          workers := (w.act lower s.db a).worker.elim (s.workers.eraseIdx i) (s.workers.set i)
          handed := s.handed ++ (w.act lower s.db a).handed } := by
      simp [Pool.apply, Pool.act, hi]
    rw [hpool, hclaims]
    simp only [Pool.owed, List.count_append]
    omega
  · have hzero : Sessions.weight (fun w : Worker => w.phase.owed.count row) new = 0 := by
      refine List.sum_eq_zero ?_
      intro n hn
      obtain ⟨w, hwn, rfl⟩ := List.mem_map.mp hn
      simp [hnew w hwn, Phase.owed]
    rw [Pool.owed, Pool.owed, hw, hh, Sessions.weight_append, hzero]
    omega

theorem closes_ne_pending {st : HostStatus} {rows : List ℕ} (h : s.closes op = some (st, rows)) :
    st ≠ .pending := by
  unfold Pool.closes at h
  split at h
  · split at h
    · rename_i c task rows' hi
      split_ifs at h
      obtain ⟨rfl, rfl⟩ := Prod.mk.inj (Option.some.inj h)
      cases c <;> simp [Closing.host]
    · cases h
  · cases h

theorem frameStatus_ne_pending (status : String) : Pool.frameStatus status ≠ .pending := by
  unfold Pool.frameStatus
  split <;> simp

theorem free_of_apply (hreset : row ∉ s.resets op) (h : (s.apply lower op).Free row) :
    s.Free row := by
  by_contra hfree
  rcases hst : s.db.status? row with _ | st
  · exact hfree (Or.inl hst)
  · have hne : st ≠ .pending := by
      rintro rfl
      exact hfree (Or.inr hst)
    obtain ⟨st', hst', hw⟩ := @status_apply lower s op row st hst
    have hpending : st' = .pending := by
      rcases h with h | h
      · rw [hst'] at h
        cases h
      · exact Option.some.inj (hst'.symm.trans h)
    cases hw with
    | kept => exact hne hpending
    | claimed _ _ => cases hpending
    | finished _ hf => exact hf hpending
    | reported _ now status exitCode _ => exact frameStatus_ne_pending status hpending
    | closed _ _ rows hc _ => exact closes_ne_pending hc hpending
    | reset _ hr => exact hreset hr

theorem dues_apply (hok : ClaimsFresh s op) (hreset : row ∉ s.resets op) :
    (s.apply lower op).dues row + (s.apply lower op).handed.count row ≤
      s.dues row + s.handed.count row := by
  obtain ⟨-, howed⟩ := owed_apply lower s op row
  unfold Pool.dues
  by_cases hclaim : s.claims op = some row
  · -- the claim takes the row from free to owed
    have hpending := hok.1 row hclaim
    have hrun := (@status_of_claims lower s op row _ hclaim hpending).1
    have hfree' : ¬ (s.apply lower op).Free row := by
      rintro (h | h) <;> rw [hrun] at h <;> cases h
    rw [if_pos hclaim] at howed
    rw [if_neg hfree', if_pos (show s.Free row from Or.inr hpending)]
    omega
  · rw [if_neg hclaim] at howed
    by_cases hfree' : (s.apply lower op).Free row
    · rw [if_pos hfree', if_pos (free_of_apply hreset hfree')]
      omega
    · rw [if_neg hfree']
      omega

theorem dues_le_one_apply (h : s.dues row ≤ 1) (hok : ClaimsFresh s op) :
    (s.apply lower op).dues row ≤ 1 := by
  obtain ⟨hhanded, howed⟩ := owed_apply lower s op row
  by_cases hreset : row ∈ s.resets op
  · have hzero := hok.2 row hreset
    have hclaims : s.claims op ≠ some row := by
      intro hc
      have hnil := (@status_of_claims lower s op row _ hc (hok.1 row hc)).2
      rw [hnil] at hreset
      cases hreset
    rw [if_neg hclaims, hzero] at howed
    unfold Pool.dues
    split_ifs <;> omega
  · have hdues := @dues_apply lower s op row hok hreset
    omega

/-- **When a row is handed over once per attempt.** In every history in which each claim finds
its row pending and no retry resets a row that a worker has still to hand over, the content of a
row is handed over at most once between two resets. -/
theorem handed_at_most_once (lower : String → String) (db : ExecDb) (ops : List PoolOp)
    (hok : Meets (Pool.apply lower) ClaimsFresh (.idle db) ops) :
    HandedOnce lower (.idle db) ops := by
  rintro row pre mid post rfl hreset
  rw [List.append_assoc, meets_append, meets_append] at hok
  obtain ⟨hpre, hmid, -⟩ := hok
  have hstart : (Pool.idle db).dues row ≤ 1 := by
    have howed : (Pool.idle db).owed row = 0 := rfl
    rw [Pool.dues, howed]
    split_ifs <;> omega
  have hone : (run (Pool.apply lower) (.idle db) pre).dues row ≤ 1 :=
    run_invariant_of_meets (P := fun s => s.dues row ≤ 1)
      (fun s op h hok => dues_le_one_apply h hok) hstart hpre
  set s₁ := run (Pool.apply lower) (.idle db) pre with hs₁
  have hledger : (run (Pool.apply lower) s₁ mid).dues row +
      (run (Pool.apply lower) s₁ mid).handed.count row ≤ s₁.dues row + s₁.handed.count row :=
    run_invariant_of_meets
      (P := fun s => s.dues row + s.handed.count row ≤ s₁.dues row + s₁.handed.count row)
      (fun s op h hok => (dues_apply hok.1 hok.2).trans h) le_rfl (meets_and hmid hreset)
  rw [run_append, ← hs₁]
  omega

/-- A task that is created, canceled and retried while its first message is still queued. -/
def retriedHistory : List PoolOp :=
  [.create busEnv { demoSpec with command := some "uptime" } none (some false),
    .openCancel 1, .commit busEnv false 0, .openRetry 7 1, .commit busEnv false 0]

/-- One worker after the other: the second one finds nothing to claim. -/
theorem handed_at_most_once_in_turn :
    HandedOnce id (.idle agentHost)
      (retriedHistory ++ [.consume 0, .act 0 .check, .act 0 .load, .act 0 (.claim 1 true),
        .act 0 (.hand agentEnv), .act 0 (.settle busEnv), .consume 0, .act 0 .check,
        .act 0 .load]) :=
  handed_at_most_once id agentHost _ (by decide +kernel)

/-- Two workers take the two messages and both read the row as pending: both claim it, and the
content is handed over twice. -/
theorem two_workers_hand_over_twice :
    ¬ HandedOnce id (.idle agentHost)
      (retriedHistory ++ [.consume 0, .consume 0, .act 0 .check, .act 1 .check, .act 0 .load,
        .act 1 .load, .act 0 (.claim 1 true), .act 1 (.claim 1 true), .act 0 (.hand agentEnv),
        .act 1 (.hand agentEnv)]) := by
  intro h
  have htwice := h 1 retriedHistory _ [] (List.append_nil _).symm (by decide +kernel)
  revert htwice
  decide +kernel

end LarkPlat
