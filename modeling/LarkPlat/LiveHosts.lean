import LarkPlat.ApprovalDispatch
import LarkPlat.ExecCalls

/-!
# Ended Tasks and Their Host Rows

A task ends by the aggregation of its host rows, by a cancellation, by the timeout sweep, or by a
declined approval. The first leaves no live row because it waits for the last one; the cancellation
and the sweep end the live rows together with the task. A rejected or withdrawn request cancels the
awaiting task alone, and its rows stay `pending`.

`NoLiveHosts.of_rows` reduces each call to the one task that it ends and the rows that it writes.

## Main results

* `no_live_hosts_iff`: in every state of a run the ended tasks have no live row exactly if no call
  of the run declines a request whose task has one.
* `rejected_task_keeps_pending_host`: a rejected task keeps its pending row.
-/

namespace LarkPlat

open Machine

variable {env : ExecEnv} {db db' : ExecDb} {id : ℕ}

/-- No row of an ended task is live. -/
def NoLiveHosts (db : ExecDb) : Prop :=
  ∀ id t, db.task? id = some t → t.status.terminal = true →
    ∀ th ∈ db.hostsOfTask id, th.status.terminal = true

/-- Every row has an identifier below the counter and belongs to one task. -/
def Owned (db : ExecDb) : Prop := ∃ owner, (Pool.idle db).Keyed owner

theorem mem_hostsOfTask {th : ExecTaskHost} :
    th ∈ db.hostsOfTask id ↔ th ∈ db.taskHosts ∧ th.execTaskId = id := by
  simp [ExecDb.hostsOfTask]

theorem Owned.same_task (h : Owned db) {th th' : ExecTaskHost} (hth : th ∈ db.taskHosts)
    (hth' : th' ∈ db.taskHosts) (hid : th.id = th'.id) : th.execTaskId = th'.execTaskId := by
  obtain ⟨owner, hk⟩ := h
  rw [(hk.rows th hth).2, (hk.rows th' hth').2, hid]

theorem Owned.of_sameKeys (h : Owned db) (hs : SameKeys db db') : Owned db' := by
  obtain ⟨owner, hk⟩ := h
  exact ⟨owner, hk.of_sameKeys hs fun ses hses => by cases hses⟩

theorem Owned.congr (h : Owned db) (ht : db'.tasks = db.tasks) (hh : db'.taskHosts = db.taskHosts)
    (hnt : db'.nextTask = db.nextTask) (hnh : db'.nextTaskHost = db.nextTaskHost) : Owned db' := by
  refine h.of_sameKeys ⟨hnt, hnh, ?_, ?_⟩
  · rw [ht]
    exact (SameKeys.refl db).tasks
  · rw [hh]
    exact (SameKeys.refl db).rows

/-- A change of the task `id` and of rows: the rows that it writes are ended by it or belong to the
task, and if the task has ended then so have its rows. -/
theorem NoLiveHosts.of_rows (h : NoLiveHosts db) (htasks : ∀ i, i ≠ id → db'.task? i = db.task? i)
    (hrows : ∀ th ∈ db'.taskHosts, th ∈ db.taskHosts ∨ th.status.terminal = true ∨
      th.execTaskId = id)
    (hself : ∀ t, db'.task? id = some t → t.status.terminal = true →
      ∀ th ∈ db'.hostsOfTask id, th.status.terminal = true) : NoLiveHosts db' := by
  intro i t ht hterm th hth
  by_cases hi : i = id
  · subst hi
    exact hself t ht hterm th hth
  · obtain ⟨hmem, htask⟩ := mem_hostsOfTask.mp hth
    rw [htasks i hi] at ht
    rcases hrows th hmem with hold | hended | hown
    · exact h i t ht hterm th (mem_hostsOfTask.mpr ⟨hold, htask⟩)
    · exact hended
    · exact absurd (htask.symm.trans hown) hi

/-- A change of the task `id` that leaves it open, or leaves it as it was, and no row. -/
theorem NoLiveHosts.of_task (h : NoLiveHosts db) (htasks : ∀ i, i ≠ id → db'.task? i = db.task? i)
    (hhosts : db'.taskHosts = db.taskHosts)
    (hself : ∀ t, db'.task? id = some t → t.status.terminal = true →
      ∀ th ∈ db.hostsOfTask id, th.status.terminal = true) : NoLiveHosts db' := by
  refine h.of_rows htasks ?_ ?_
  · intro th hth
    rw [hhosts] at hth
    exact Or.inl hth
  · intro t ht hterm th hth
    rw [ExecDb.hostsOfTask, hhosts] at hth
    exact hself t ht hterm th hth

/-! ### Rows that a call writes -/

theorem mem_writeRows {rows : List ℕ} {f : ExecTaskHost → ExecTaskHost} {th : ExecTaskHost}
    (h : th ∈ (db.writeRows rows f).taskHosts) :
    (th ∈ db.taskHosts ∧ th.id ∉ rows) ∨ ∃ th₀ ∈ db.taskHosts, th₀.id ∈ rows ∧ th = f th₀ := by
  obtain ⟨th₀, hth₀, rfl⟩ := List.mem_map.mp h
  by_cases hmem : th₀.id ∈ rows
  · rw [if_pos hmem]
    exact Or.inr ⟨th₀, hth₀, hmem, rfl⟩
  · rw [if_neg hmem]
    exact Or.inl ⟨hth₀, hmem⟩

theorem mem_rowsWhere {p : HostStatus → Bool} {row : ℕ} :
    row ∈ db.rowsWhere id p ↔
      ∃ th ∈ db.taskHosts, th.execTaskId = id ∧ p th.status = true ∧ th.id = row := by
  simp [ExecDb.rowsWhere, mem_hostsOfTask, and_assoc]

theorem mem_foldl_setTaskHost {f : ExecTaskHost → ExecTaskHost → ExecTaskHost}
    (hf : ∀ th r, (f th r).id = r.id ∧ (f th r).execTaskId = r.execTaskId)
    (rows : List ExecTaskHost) :
    ∀ {db : ExecDb} {th : ExecTaskHost},
      th ∈ (rows.foldl (fun acc r => acc.setTaskHost r.id (f r)) db).taskHosts →
        th ∈ db.taskHosts ∨ ∃ th₀ ∈ db.taskHosts,
          th₀.id ∈ rows.map ExecTaskHost.id ∧ th.execTaskId = th₀.execTaskId := by
  induction rows with
  | nil => exact fun h => Or.inl h
  | cons r rows ih =>
      intro db th h
      have hset : ∀ th' ∈ (db.setTaskHost r.id (f r)).taskHosts, th' ∈ db.taskHosts ∨
          ∃ th₀ ∈ db.taskHosts, th₀.id = r.id ∧ th' = f r th₀ := by
        intro th' hth'
        rcases Table.mem_modify.mp hth' with ⟨th₀, hth₀, hid, rfl⟩ | ⟨hth', -⟩
        · exact Or.inr ⟨th₀, hth₀, hid, rfl⟩
        · exact Or.inl hth'
      rcases ih h with hmem | ⟨th₁, hth₁, hid₁, htask₁⟩
      · rcases hset th hmem with hmem | ⟨th₀, hth₀, hid₀, rfl⟩
        · exact Or.inl hmem
        · exact Or.inr ⟨th₀, hth₀, by rw [hid₀]; exact List.mem_cons_self, (hf r th₀).2⟩
      · rcases hset th₁ hth₁ with hmem | ⟨th₀, hth₀, hid₀, rfl⟩
        · exact Or.inr ⟨th₁, hmem, List.mem_cons_of_mem _ hid₁, htask₁⟩
        · rw [(hf r th₀).1] at hid₁
          exact Or.inr ⟨th₀, hth₀, List.mem_cons_of_mem _ hid₁, htask₁.trans (hf r th₀).2⟩

theorem finishRow_fixed (now : ℚ) (th : ExecTaskHost) (status : HostStatus) :
    (finishRow now th status).id = th.id ∧
      (finishRow now th status).execTaskId = th.execTaskId := by
  cases status <;> exact ⟨rfl, rfl⟩

theorem sameKeys_foldl_setTaskHost {f : ExecTaskHost → ExecTaskHost → ExecTaskHost}
    (hf : ∀ th r, (f th r).id = r.id ∧ (f th r).execTaskId = r.execTaskId)
    (rows : List ExecTaskHost) (db : ExecDb) :
    SameKeys db (rows.foldl (fun acc r => acc.setTaskHost r.id (f r)) db) := by
  induction rows generalizing db with
  | nil => exact SameKeys.refl db
  | cons r rows ih => exact (sameKeys_setTaskHost db r.id (hf r)).trans (ih _)

/-! ### Calls that end a task -/

theorem HostStatus.terminal_eq_false_iff (st : HostStatus) :
    st.terminal = false ↔ st = .running ∨ st = .pending := by
  cases st <;> simp [HostStatus.terminal]

theorem terminal_of_no_live (h : ¬ (.running ∈ (db.hostsOfTask id).map (·.status) ∨
    .pending ∈ (db.hostsOfTask id).map (·.status))) :
    ∀ th ∈ db.hostsOfTask id, th.status.terminal = true := by
  intro th hth
  by_contra hlive
  rw [Bool.not_eq_true, HostStatus.terminal_eq_false_iff] at hlive
  refine h (hlive.imp (fun hr => ?_) fun hp => ?_)
  · exact List.mem_map.mpr ⟨th, hth, hr⟩
  · exact List.mem_map.mpr ⟨th, hth, hp⟩

theorem settleTask_noLive {task : ExecTask} (ht : db.task? task.id = some task)
    (hrun : task.status = .running) {t : ExecTask}
    (ht' : (settleTask env db task).task? task.id = some t) (hterm : t.status.terminal = true) :
    ∀ th ∈ db.hostsOfTask task.id, th.status.terminal = true := by
  have hsame : db.task? task.id ≠ some t := by
    intro hc
    obtain rfl := Option.some.inj (ht.symm.trans hc)
    rw [hrun] at hterm
    cases hterm
  unfold settleTask at ht'
  dsimp only at ht'
  split_ifs at ht' with hlive
  · exact absurd ht' hsame
  · exact absurd ht' hsame
  · exact terminal_of_no_live hlive

theorem settleTask_taskHosts (env : ExecEnv) (db : ExecDb) (task : ExecTask) :
    (settleTask env db task).taskHosts = db.taskHosts := by
  obtain ⟨sent, he⟩ := @effect_settleTask env db task
  exact he.taskHosts

/-- `exec_dispatch`. -/
theorem NoLiveHosts.dispatch (h : NoLiveHosts db) (ho : Owned db) (lower : String → String)
    (env : DispatchEnv) (taskId : ℕ) :
    NoLiveHosts (execDispatch lower env db taskId).1 ∧
      SameKeys db (execDispatch lower env db taskId).1 := by
  have hothers := (execDispatch_windsUp lower env db taskId).touches.task
  rw [execDispatch] at hothers ⊢
  rcases ht : db.task? taskId with _ | task
  · exact ⟨h, SameKeys.refl db⟩
  rw [ht] at hothers
  obtain rfl : task.id = taskId := Table.key_of_find ht
  dsimp only at hothers ⊢
  split_ifs at hothers ⊢ with hrun hempty
  · exact ⟨h, SameKeys.refl db⟩
  · set f := fun th r => finishRow env.now r (handOver lower env db task (resolveContent db task)
      (db.hostsOfTask task.id).length th).2 with hf
    set started := startedRows env (db.hostsOfTask task.id)
    have hfix : ∀ th r, (f th r).id = r.id ∧ (f th r).execTaskId = r.execTaskId :=
      fun th r => finishRow_fixed _ _ _
    set db₁ := started.foldl (fun acc th => acc.setTaskHost th.id (f th)) db with hdb₁
    obtain ⟨taskHosts, heq⟩ := foldl_setTaskHost_eq started f db
    have ht₁ : db₁.task? task.id = some task := by
      rw [hdb₁, heq]
      exact ht
    have hhosts := settleTask_taskHosts env.toExecEnv db₁ task
    refine ⟨h.of_rows (fun i hi => hothers i fun hc => hi (Option.some.inj hc).symm) ?_ ?_, ?_⟩
    · intro th hth
      rw [hhosts] at hth
      rcases mem_foldl_setTaskHost hfix started hth with hmem | ⟨th₀, hth₀, hid, htask⟩
      · exact Or.inl hmem
      · -- a written row carries the identifier of a started row, which is a row of the task
        obtain ⟨th₁, hth₁, hid₁⟩ := List.mem_map.mp hid
        have hrow : th₁ ∈ db.hostsOfTask task.id :=
          (List.mem_filter.mp ((List.takeWhile_sublist _).subset hth₁)).1
        obtain ⟨hmem₁, htask₁⟩ := mem_hostsOfTask.mp hrow
        refine Or.inr (Or.inr ?_)
        rw [htask, ho.same_task hth₀ hmem₁ hid₁.symm, htask₁]
    · intro t ht' hterm th hth
      rw [ExecDb.hostsOfTask, hhosts] at hth
      exact settleTask_noLive ht₁ hrun ht' hterm th hth
    · obtain ⟨sent, he⟩ := @effect_settleTask env.toExecEnv db₁ task
      exact (sameKeys_foldl_setTaskHost hfix started db).trans he.sameKeys
  · exact ⟨h, SameKeys.refl db⟩

/-- `_maybe_finalize_task`. -/
theorem NoLiveHosts.finalize (h : NoLiveHosts db) (now : ℚ) (taskId : ℕ) :
    NoLiveHosts (Pool.maybeFinalizeTask now db taskId) ∧
      SameKeys db (Pool.maybeFinalizeTask now db taskId) := by
  have hothers := (maybeFinalizeTask_windsUp now db taskId).touches.task
  have heffect := effect_maybeFinalizeTask now db taskId
  refine ⟨h.of_task (fun i hi => hothers i fun hc => hi (Option.some.inj hc).symm)
    heffect.taskHosts ?_, heffect.sameKeys⟩
  intro t ht' hterm
  unfold Pool.maybeFinalizeTask at ht'
  rcases ht : db.task? taskId with _ | task
  · rw [ht] at ht'
    exact absurd (ht.symm.trans ht') (Option.some_ne_none t).symm
  rw [ht] at ht'
  dsimp only at ht'
  split_ifs at ht' with hc
  · exact h taskId t ht' hterm
  · refine terminal_of_no_live fun hlive => hc ?_
    exact Or.inr (Or.inr hlive)

theorem frameStatus_terminal (status : String) :
    (Pool.frameStatus status).terminal = true := by
  unfold Pool.frameStatus
  split <;> rfl

theorem NoLiveHosts.persist (h : NoLiveHosts db) (now : ℚ) (row : ℕ) (status : String)
    (exitCode : Option ℤ) :
    NoLiveHosts ((Pool.idle db).persistResult now row status exitCode).db := by
  intro i t ht hterm th hth
  obtain ⟨hmem, htask⟩ := mem_hostsOfTask.mp hth
  rcases Table.mem_modify.mp hmem with ⟨th₀, -, -, rfl⟩ | ⟨hold, -⟩
  · exact frameStatus_terminal status
  · exact h i t ht hterm th (mem_hostsOfTask.mpr ⟨hold, htask⟩)

/-- What the guarded update of a task leaves: the other tasks and the rows. -/
structure Frames (id : ℕ) (db db' : ExecDb) : Prop where
  task : ∀ i, i ≠ id → db'.task? i = db.task? i
  taskHosts : db'.taskHosts = db.taskHosts
  sameKeys : SameKeys db db'

theorem Frames.trans {db'' : ExecDb} (h : Frames id db db') (h' : Frames id db' db'') :
    Frames id db db'' where
  task i hi := (h'.task i hi).trans (h.task i hi)
  taskHosts := h'.taskHosts.trans h.taskHosts
  sameKeys := h.sameKeys.trans h'.sameKeys

theorem frames_setTask {f : ExecTask → ExecTask} (hf : ∀ t, (f t).id = t.id) :
    Frames id db (db.setTask id f) where
  task _ hi := task?_setTask_ne hf hi
  taskHosts := rfl
  sameKeys := by
    refine ⟨rfl, rfl, ?_, fun th hth => ⟨th, hth, rfl, rfl⟩⟩
    intro t ht
    rcases Table.mem_modify.mp ht with ⟨t₀, ht₀, -, rfl⟩ | ⟨ht, -⟩
    · exact ⟨t₀, ht₀, (hf t₀).symm⟩
    · exact ⟨t, ht, rfl⟩

theorem frames_casTask {old new : ExecStatus} {version : ℕ}
    (h : db.casTask id old new version = some db') : Frames id db db' := by
  obtain ⟨t, -, -, rfl⟩ := casTask_eq_some h
  exact frames_setTask fun _ => rfl

theorem frames_approvals (approvals : List ApprovalRequest) (nextApproval : ℕ) :
    Frames id db { db with approvals := approvals, nextApproval := nextApproval } :=
  ⟨fun _ _ => rfl, rfl, ⟨rfl, rfl, (SameKeys.refl db).tasks, (SameKeys.refl db).rows⟩⟩

theorem frames_closeOrphanApproval (db : ExecDb) (task : ExecTask) :
    Frames id db (closeOrphanApproval db task) := by
  obtain ⟨approvals, h⟩ := closeOrphanApproval_eq db task
  rw [h]
  exact frames_approvals approvals db.nextApproval

/-- The guarded update of a task, a further change of it, and the closing of its request. -/
theorem frames_closing {task : ExecTask} {db₁ : ExecDb} {old new : ExecStatus} {version : ℕ}
    {f : ExecTask → ExecTask} (hcas : db.casTask task.id old new version = some db₁)
    (hf : ∀ t, (f t).id = t.id) :
    Frames task.id db (closeOrphanApproval (db₁.setTask task.id f) task) := by
  have hset : Frames task.id db₁ (db₁.setTask task.id f) := frames_setTask hf
  exact ((frames_casTask hcas).trans hset).trans (frames_closeOrphanApproval _ task)

/-- `cancel_exec_task_record` ends the live rows with the task. -/
theorem NoLiveHosts.cancel {task : ExecTask} (h : NoLiveHosts db)
    (hc : cancelExecTaskRecord env db task = some db') :
    NoLiveHosts db' ∧ SameKeys db db' := by
  unfold cancelExecTaskRecord at hc
  split_ifs at hc
  rcases hcas : db.casTask task.id task.status .canceled task.version with _ | db₁
  · rw [hcas] at hc
    cases hc
  rw [hcas] at hc
  obtain rfl := Option.some.inj hc
  have hfr : Frames task.id db (closeOrphanApproval (db₁.setTask task.id fun t =>
      { t with finishedAt := some env.now }) task) :=
    frames_closing hcas fun _ => rfl
  refine ⟨h.of_rows hfr.task ?_ ?_, hfr.sameKeys.trans (sameKeys_mapRows _ ?_)⟩
  · intro th hth
    obtain ⟨th₀, hth₀, rfl⟩ := List.mem_map.mp hth
    rw [hfr.taskHosts] at hth₀
    split_ifs with hlive
    · exact Or.inr (Or.inl rfl)
    · exact Or.inl hth₀
  · intro t _ _ th hth
    obtain ⟨hmem, htask⟩ := mem_hostsOfTask.mp hth
    obtain ⟨th₀, -, rfl⟩ := List.mem_map.mp hmem
    by_cases hlive : th₀.execTaskId = task.id ∧ (th₀.status = .pending ∨ th₀.status = .running)
    · rw [if_pos hlive]
      rfl
    · rw [if_neg hlive] at htask ⊢
      by_contra hne
      rw [Bool.not_eq_true, HostStatus.terminal_eq_false_iff] at hne
      exact hlive ⟨htask, hne.symm⟩
  · intro th
    split_ifs <;> exact ⟨rfl, rfl⟩

theorem NoLiveHosts.sweep {task : ExecTask} (h : NoLiveHosts db)
    (hc : closeTask .timeout env db task (db.rowsWhere task.id fun st => !st.terminal) =
      some db') : NoLiveHosts db' ∧ SameKeys db db' := by
  unfold closeTask at hc
  rcases hcas : db.casTask task.id task.status Closing.timeout.task task.version with _ | db₁
  · rw [hcas] at hc
    cases hc
  rw [hcas] at hc
  obtain rfl := Option.some.inj hc
  have hfr : Frames task.id db (db₁.setTask task.id fun t =>
      { t with finishedAt := some env.now }) :=
    (frames_casTask hcas).trans (frames_setTask fun _ => rfl)
  refine ⟨h.of_rows hfr.task ?_ ?_, hfr.sameKeys.trans (sameKeys_writeRows _ _ ?_)⟩
  · intro th hth
    rcases mem_writeRows hth with ⟨hmem, -⟩ | ⟨th₀, -, -, rfl⟩
    · have hmem' : th ∈ (db₁.setTask task.id fun t =>
          { t with finishedAt := some env.now }).taskHosts := hmem
      rw [hfr.taskHosts] at hmem'
      exact Or.inl hmem'
    · exact Or.inr (Or.inl rfl)
  · intro t _ _ th hth
    obtain ⟨hmem, htask⟩ := mem_hostsOfTask.mp hth
    rcases mem_writeRows hmem with ⟨hmem, hnot⟩ | ⟨th₀, -, -, rfl⟩
    · have hmem' : th ∈ (db₁.setTask task.id fun t =>
          { t with finishedAt := some env.now }).taskHosts := hmem
      rw [hfr.taskHosts] at hmem'
      by_contra hlive
      exact hnot (mem_rowsWhere.mpr ⟨th, hmem', htask, by simpa using hlive, rfl⟩)
    · rfl
  · exact fun th => ⟨rfl, rfl⟩

/-! ### Calls that leave a task open -/

theorem NoLiveHosts.of_open (h : NoLiveHosts db)
    (htasks : ∀ i, i ≠ id → db'.task? i = db.task? i)
    (hrows : ∀ th ∈ db'.taskHosts, th ∈ db.taskHosts ∨ th.execTaskId = id) {t : ExecTask}
    (ht : db'.task? id = some t) (hopen : t.status.terminal = false) : NoLiveHosts db' := by
  refine h.of_rows htasks (fun th hth => (hrows th hth).imp_right Or.inr) ?_
  intro t' ht' hterm
  obtain rfl := Option.some.inj (ht.symm.trans ht')
  rw [hopen] at hterm
  cases hterm

theorem NoLiveHosts.retry {task : ExecTask} (h : NoLiveHosts db) (ho : Owned db)
    (hc : retryTask env db task (db.rowsWhere task.id HostStatus.retryable) = some db') :
    NoLiveHosts db' ∧ SameKeys db db' := by
  unfold retryTask at hc
  rcases hcas : db.casTask task.id task.status .running task.version with _ | db₁
  · rw [hcas] at hc
    cases hc
  rw [hcas] at hc
  obtain rfl := Option.some.inj hc
  set f : ExecTask → ExecTask := fun t =>
    { t with startedAt := some env.now, finishedAt := none } with hf
  have hfr : Frames task.id db (closeOrphanApproval (db₁.setTask task.id f) task) :=
    frames_closing hcas fun _ => rfl
  obtain ⟨-, -, t₁, -, -, ht₁, hst₁, -⟩ := casTask_touches none hcas
  have hfound : (closeOrphanApproval (db₁.setTask task.id f) task).task? task.id =
      some (f t₁) := by
    obtain ⟨approvals, heq⟩ := closeOrphanApproval_eq (db₁.setTask task.id f) task
    rw [heq]
    exact task?_setTask_self (fun _ => rfl) ht₁
  refine ⟨h.of_open hfr.task ?_ hfound ?_, hfr.sameKeys.trans (sameKeys_writeRows _ _ ?_)⟩
  · intro th hth
    rcases mem_writeRows hth with ⟨hmem, -⟩ | ⟨th₀, hth₀, hrow, rfl⟩
    · rw [hfr.taskHosts] at hmem
      exact Or.inl hmem
    · rw [hfr.taskHosts] at hth₀
      obtain ⟨th₁, hth₁, htask₁, -, hid₁⟩ := mem_rowsWhere.mp hrow
      exact Or.inr ((ho.same_task hth₀ hth₁ hid₁.symm).trans htask₁)
  · show t₁.status.terminal = false
    rw [hst₁]
    rfl
  · exact fun th => ⟨rfl, rfl⟩

theorem NoLiveHosts.retrySensitive {task : ExecTask} {userId : ℕ} {reason : String}
    (h : NoLiveHosts db) (hc : LarkPlat.retrySensitive db task userId reason = some db') :
    NoLiveHosts db' ∧ SameKeys db db' := by
  have heffect := effect_retrySensitive hc
  unfold LarkPlat.retrySensitive at hc
  rcases hcas : db.casTask task.id task.status .awaitingApproval task.version with _ | db₁
  · rw [hcas] at hc
    cases hc
  rw [hcas] at hc
  dsimp only at hc
  split_ifs at hc
  obtain rfl := Option.some.inj hc
  obtain ⟨-, -, t₁, -, -, ht₁, hst₁, -⟩ := casTask_touches none hcas
  have hclose : Frames task.id db (closeOrphanApproval db₁ task) :=
    (frames_casTask hcas).trans (frames_closeOrphanApproval _ task)
  have ht₂ : (closeOrphanApproval db₁ task).task? task.id = some t₁ := by
    obtain ⟨approvals, heq⟩ := closeOrphanApproval_eq db₁ task
    rw [heq]
    exact ht₁
  refine ⟨h.of_open (fun i hi => ?_) ?_ (task?_setTask_self (fun _ => rfl) ht₂) ?_,
    heffect.sameKeys⟩
  · refine (task?_setTask_ne ?_ hi).trans ?_
    · exact fun _ => rfl
    · exact hclose.task i hi
  · intro th hth
    rw [heffect.taskHosts] at hth
    exact Or.inl hth
  · show t₁.status.terminal = false
    rw [hst₁]
    rfl

theorem NoLiveHosts.create {lower : String → String} {spec : TaskSpec} {policy : Option String}
    {c : Created} (h : NoLiveHosts db) (hk : Kept db) (ho : Owned db)
    (hc : createExecTaskRecord lower env db spec policy = .ok (db', c)) :
    NoLiveHosts db' ∧ Owned db' := by
  have hcreates := creates_of_ok hk hc
  have heffect := createExecTaskRecord_effect hc
  obtain ⟨owner, hkeyed⟩ := ho
  refine ⟨?_, _, hkeyed.create heffect⟩
  obtain ⟨t, ht, hst⟩ := hcreates.task
  refine h.of_open (fun i hi => ?_) ?_ ht ?_
  · rcases Nat.lt_or_gt_of_ne hi with hlt | hgt
    · exact hcreates.grown.task i hlt
    · have hge : db'.nextTask ≤ i := by
        rw [hcreates.nextTask]
        exact hgt
      rw [hcreates.kept.task?_none hge, hk.task?_none hgt.le]
  · intro th hth
    rw [heffect.taskHosts] at hth
    rcases List.mem_append.mp hth with hold | hnew
    · exact Or.inl hold
    · exact Or.inr (mem_newTaskHosts hnew).2.2
  · rw [hst, created_status hc]
    split_ifs <;> rfl

/-! ### Decisions -/

theorem decide?_eq_ok {a : ApprovalRequest} {new : ApprovalStatus} {approver : Option ℕ}
    (h : decide? db a new approver = .ok db') :
    ∃ approvals, db' = { db with approvals := approvals } := by
  unfold decide? at h
  rcases hcas : db.casApproval a.id .pending new a.version with _ | db₁
  · rw [hcas] at h
    cases h
  rw [hcas] at h
  obtain rfl := Except.ok.inj h
  obtain ⟨b, -, -, rfl⟩ := casApproval_eq_some hcas
  exact ⟨_, rfl⟩

/-- `approve`. -/
theorem NoLiveHosts.approve {userId approvalId : ℕ} (h : NoLiveHosts db)
    (hc : LarkPlat.approve env db userId approvalId = .ok db') :
    NoLiveHosts db' ∧ SameKeys db db' := by
  rw [LarkPlat.approve] at hc
  obtain ⟨a, -, hc⟩ := bind_eq_ok.mp hc
  obtain ⟨db₁, hd, hc⟩ := bind_eq_ok.mp hc
  obtain ⟨approvals, rfl⟩ := decide?_eq_ok hd
  split_ifs at hc with hexec
  · obtain ⟨htouch, t, t', -, -, ht', hrun⟩ := approveExec_touches none hc
    have he := effect_approveExec hc
    refine ⟨h.of_open (fun i hi => htouch.task i fun hi' => hi (Option.some.inj hi').symm) ?_ ht' ?_,
      (effect_decide? hd).sameKeys.trans he.sameKeys⟩
    · intro th hth
      rw [he.taskHosts] at hth
      exact Or.inl hth
    · rw [hrun]
      rfl
  · obtain rfl := Except.ok.inj hc
    exact ⟨h, (effect_decide? hd).sameKeys⟩

/-- The request belongs to an awaiting task with a live row. -/
def AwaitsLive (db : ExecDb) (a : ApprovalRequest) : Prop :=
  a.bizType = .exec ∧ (∃ t ∈ db.task? a.bizId, t.status = .awaitingApproval) ∧
    ∃ th ∈ db.hostsOfTask a.bizId, th.status.terminal = false

instance (db : ExecDb) (a : ApprovalRequest) : Decidable (AwaitsLive db a) :=
  inferInstanceAs (Decidable (_ ∧ _ ∧ _))

theorem NoLiveHosts.decline {a : ApprovalRequest} {approvals : List ApprovalRequest}
    (h : NoLiveHosts db) (hlive : ¬ AwaitsLive db a) :
    NoLiveHosts (if a.bizType = .exec then
      cancelAwaiting env { db with approvals := approvals } a.bizId
    else { db with approvals := approvals }) := by
  split_ifs with hexec
  swap
  · exact h
  obtain ⟨htouch, hcases⟩ :=
    cancelAwaiting_touches env { db with approvals := approvals } a.bizId none
  have hothers : ∀ i, i ≠ a.bizId → (cancelAwaiting env { db with approvals := approvals }
      a.bizId).task? i = db.task? i :=
    fun i hi => htouch.task i fun hi' => hi (Option.some.inj hi').symm
  have hhosts := (effect_cancelAwaiting env { db with approvals := approvals } a.bizId).taskHosts
  refine h.of_task hothers hhosts ?_
  intro t ht hterm th hth
  rcases hcases with ⟨t₀, -, ht₀, hst₀, -, -⟩ | ⟨hsame, -⟩
  · by_contra hc
    rw [Bool.not_eq_true] at hc
    exact hlive ⟨hexec, ⟨t₀, ht₀, hst₀⟩, th, hth, hc⟩
  · rw [hsame] at ht
    exact h a.bizId t ht hterm th hth

/-- A declined request whose task awaits it and has a live row leaves an ended task with a live
row. -/
theorem not_noLiveHosts_decline {a : ApprovalRequest} {approvals : List ApprovalRequest}
    (hlive : AwaitsLive db a) :
    ¬ NoLiveHosts (if a.bizType = .exec then
      cancelAwaiting env { db with approvals := approvals } a.bizId
    else { db with approvals := approvals }) := by
  obtain ⟨hexec, ⟨t, ht, hst⟩, th, hth, hth'⟩ := hlive
  rw [if_pos hexec]
  intro hno
  obtain ⟨-, hcases⟩ :=
    cancelAwaiting_touches env { db with approvals := approvals } a.bizId none
  have hhosts := (effect_cancelAwaiting env { db with approvals := approvals } a.bizId).taskHosts
  rcases hcases with ⟨-, t', -, -, ht', hst'⟩ | ⟨-, hne⟩
  · have hrow : th ∈ (cancelAwaiting env { db with approvals := approvals }
        a.bizId).hostsOfTask a.bizId := by
      rw [ExecDb.hostsOfTask, hhosts]
      exact hth
    have hterm := hno a.bizId t' ht' (by rw [hst']; rfl) th hrow
    rw [hth'] at hterm
    cases hterm
  · exact hne t ht hst

/-! ### Runs -/

/-- The call declines no request whose task has a live row. -/
def DeclinesNoLive (db : ExecDb) : ExecOp → Prop
  | .reject _ _ approvalId => ∀ a ∈ (requirePending db approvalId).toOption, ¬ AwaitsLive db a
  | .cancelApproval _ userId isAdmin approvalId =>
      ∀ a ∈ (requirePending db approvalId).toOption,
        a.requesterId = userId ∨ isAdmin = true → ¬ AwaitsLive db a
  | _ => True

/-- The invariant of a run: rows belong to one task, requests to theirs, and no row of an ended
task is live. -/
structure Quieted (db : ExecDb) : Prop where
  kept : Kept db
  owned : Owned db
  noLive : NoLiveHosts db

/-- `reject` and `cancel`, from the decision on the request to the commit. -/
theorem declined_eq {a : ApprovalRequest} {new : ApprovalStatus} {approver : Option ℕ}
    {db₁ : ExecDb} (hd : decide? db a new approver = .ok db₁)
    (hc : (if a.bizType = .exec then pure (cancelAwaiting env db₁ a.bizId) else pure db₁) =
      (.ok db' : Except PyErr ExecDb)) :
    ∃ approvals, db' = if a.bizType = .exec then
      cancelAwaiting env { db with approvals := approvals } a.bizId
    else { db with approvals := approvals } := by
  obtain ⟨approvals, rfl⟩ := decide?_eq_ok hd
  refine ⟨approvals, ?_⟩
  rw [← apply_ite pure] at hc
  exact (Except.ok.inj hc).symm

theorem reject_eq_ok {userId approvalId : ℕ} (h : reject env db userId approvalId = .ok db') :
    ∃ a approvals, requirePending db approvalId = .ok a ∧ db' = if a.bizType = .exec then
      cancelAwaiting env { db with approvals := approvals } a.bizId
    else { db with approvals := approvals } := by
  rw [reject] at h
  obtain ⟨a, ha, h⟩ := bind_eq_ok.mp h
  obtain ⟨db₁, hd, h⟩ := bind_eq_ok.mp h
  obtain ⟨approvals, heq⟩ := declined_eq hd h
  exact ⟨a, approvals, ha, heq⟩

theorem cancelApproval_eq_ok {userId approvalId : ℕ} {isAdmin : Bool}
    (h : cancelApproval env db userId isAdmin approvalId = .ok db') :
    ∃ a approvals, requirePending db approvalId = .ok a ∧
      (a.requesterId = userId ∨ isAdmin = true) ∧ db' = if a.bizType = .exec then
        cancelAwaiting env { db with approvals := approvals } a.bizId
      else { db with approvals := approvals } := by
  rw [cancelApproval] at h
  obtain ⟨a, ha, h⟩ := bind_eq_ok.mp h
  by_cases hperm : a.requesterId ≠ userId ∧ ¬ isAdmin = true
  · rw [if_pos hperm] at h
    exact absurd h (throw_bind_ne_ok _ _ _)
  rw [if_neg hperm] at h
  obtain ⟨db₁, hd, h⟩ := bind_eq_ok.mp h
  obtain ⟨approvals, heq⟩ := declined_eq hd h
  exact ⟨a, approvals, ha, by tauto, heq⟩

/-- **One call** keeps the invariant if it declines no request whose task has a live row. -/
theorem Quieted.apply (h : Quieted db) {op : ExecOp} (hok : DeclinesNoLive db op) :
    Quieted (op.apply db) := by
  have hkept := (op.call h.kept).kept
  suffices hrest : NoLiveHosts (op.apply db) ∧ Owned (op.apply db) from ⟨hkept, hrest.2, hrest.1⟩
  unfold ExecOp.apply
  rcases hr : op.result db with _ | db'
  · exact ⟨h.noLive, h.owned⟩
  rw [Option.getD_some]
  cases op with
  | create lower env spec policy =>
      obtain ⟨⟨db₁, c⟩, hc, rfl⟩ := Option.map_eq_some_iff.mp hr
      exact h.noLive.create h.kept h.owned (ok_of_toOption hc)
  | dispatch lower env taskId =>
      obtain rfl := Option.some.inj hr
      exact (h.noLive.dispatch h.owned lower env taskId).imp_right h.owned.of_sameKeys
  | approve env userId approvalId =>
      exact (h.noLive.approve (ok_of_toOption hr)).imp_right h.owned.of_sameKeys
  | reject env userId approvalId =>
      have hkeys := (effect_reject (ok_of_toOption hr)).sameKeys
      obtain ⟨a, approvals, ha, rfl⟩ := reject_eq_ok (ok_of_toOption hr)
      refine ⟨h.noLive.decline (hok a ?_), h.owned.of_sameKeys hkeys⟩
      rw [ha]
      rfl
  | cancelApproval env userId isAdmin approvalId =>
      have hkeys := (effect_cancelApproval (ok_of_toOption hr)).sameKeys
      obtain ⟨a, approvals, ha, hperm, rfl⟩ := cancelApproval_eq_ok (ok_of_toOption hr)
      refine ⟨h.noLive.decline (hok a ?_ hperm), h.owned.of_sameKeys hkeys⟩
      rw [ha]
      rfl
  | stopTask env taskId =>
      obtain ⟨task, -, hc⟩ := Option.bind_eq_some_iff.mp hr
      split_ifs at hc
      exact (h.noLive.cancel hc).imp_right h.owned.of_sameKeys
  | cancelTask env taskId =>
      obtain ⟨task, -, hc⟩ := Option.bind_eq_some_iff.mp hr
      exact (h.noLive.cancel hc).imp_right h.owned.of_sameKeys
  | scanTimeouts env createdAt taskId =>
      obtain ⟨task, ht, hc⟩ := Option.bind_eq_some_iff.mp hr
      obtain rfl : task.id = taskId := Table.key_of_find ht
      split_ifs at hc
      exact (h.noLive.sweep hc).imp_right h.owned.of_sameKeys
  | retryTask lower env userId taskId =>
      obtain ⟨task, ht, hc⟩ := Option.bind_eq_some_iff.mp hr
      obtain rfl : task.id = taskId := Table.key_of_find ht
      dsimp only at hc
      split_ifs at hc
      · exact (h.noLive.retrySensitive hc).imp_right h.owned.of_sameKeys
      · exact (h.noLive.retry h.owned hc).imp_right h.owned.of_sameKeys
  | persistResult now row status exitCode =>
      obtain rfl := Option.some.inj hr
      refine ⟨?_, h.owned.of_sameKeys (sameKeys_setTaskHost db row fun _ => ⟨rfl, rfl⟩)⟩
      exact h.noLive.persist now row status exitCode
  | maybeFinalizeTask now taskId =>
      obtain rfl := Option.some.inj hr
      exact (h.noLive.finalize now taskId).imp_right h.owned.of_sameKeys
  | openTerminal sessionId userId =>
      dsimp only [ExecOp.result] at hr
      split_ifs at hr
      obtain rfl := Option.some.inj hr
      exact ⟨h.noLive, h.owned.congr rfl rfl rfl rfl⟩
  | openWorkflow run node =>
      dsimp only [ExecOp.result] at hr
      split_ifs at hr
      obtain rfl := Option.some.inj hr
      exact ⟨h.noLive, h.owned.congr rfl rfl rfl rfl⟩
  | configure hosts scripts scriptVersions rules =>
      obtain rfl := Option.some.inj hr
      exact ⟨h.noLive, h.owned.congr rfl rfl rfl rfl⟩

theorem decide?_of_pending {approvalId : ℕ} {a : ApprovalRequest} (new : ApprovalStatus)
    (approver : Option ℕ) (ha : requirePending db approvalId = .ok a) :
    ∃ approvals, decide? db a new approver = .ok { db with approvals := approvals } := by
  obtain ⟨hfind, hpend⟩ := requirePending_eq_ok ha
  obtain rfl : a.id = approvalId := Table.key_of_find hfind
  have hcas : db.casApproval a.id .pending new a.version =
      some (db.setApproval a.id fun b => { b with status := new, version := a.version + 1 }) := by
    rw [ExecDb.casApproval, hfind]
    exact if_pos ⟨hpend, rfl⟩
  unfold decide?
  rw [hcas]
  exact ⟨_, rfl⟩

/-- A call that declines a request whose task has a live row leaves an ended task with a live
row. -/
theorem not_noLiveHosts_apply {op : ExecOp} (h : ¬ DeclinesNoLive db op) :
    ¬ NoLiveHosts (op.apply db) := by
  cases op with
  | reject env userId approvalId =>
      obtain ⟨a, ha, hlive⟩ : ∃ a ∈ (requirePending db approvalId).toOption, AwaitsLive db a := by
        by_contra hc
        exact h fun a ha hlive => hc ⟨a, ha, hlive⟩
      have hreq := ok_of_toOption ha
      obtain ⟨approvals, hd⟩ := decide?_of_pending .rejected (some userId) hreq
      have hok : reject env db userId approvalId = .ok (if a.bizType = .exec then
          cancelAwaiting env { db with approvals := approvals } a.bizId
        else { db with approvals := approvals }) := by
        rw [reject, hreq]
        show (decide? db a .rejected (some userId) >>= _) = _
        rw [hd, apply_ite Except.ok]
        rfl
      show ¬ NoLiveHosts ((reject env db userId approvalId).toOption.getD db)
      rw [hok]
      exact not_noLiveHosts_decline hlive
  | cancelApproval env userId isAdmin approvalId =>
      obtain ⟨a, ha, hperm, hlive⟩ : ∃ a ∈ (requirePending db approvalId).toOption,
          (a.requesterId = userId ∨ isAdmin = true) ∧ AwaitsLive db a := by
        by_contra hc
        exact h fun a ha hperm hlive => hc ⟨a, ha, hperm, hlive⟩
      have hreq := ok_of_toOption ha
      obtain ⟨approvals, hd⟩ := decide?_of_pending .canceled a.approverId hreq
      have hok : cancelApproval env db userId isAdmin approvalId =
          .ok (if a.bizType = .exec then
            cancelAwaiting env { db with approvals := approvals } a.bizId
          else { db with approvals := approvals }) := by
        have hgranted : ¬ (a.requesterId ≠ userId ∧ ¬ isAdmin = true) := by tauto
        rw [cancelApproval, hreq]
        show (if a.requesterId ≠ userId ∧ ¬ isAdmin = true then _ else _) = _
        rw [if_neg hgranted]
        show (decide? db a .canceled a.approverId >>= _) = _
        rw [hd, apply_ite Except.ok]
        rfl
      show ¬ NoLiveHosts ((cancelApproval env db userId isAdmin approvalId).toOption.getD db)
      rw [hok]
      exact not_noLiveHosts_decline hlive
  | _ => exact absurd trivial h

theorem quieted_fresh (hosts : List Host) (rules : ExecRules) :
    Quieted (ExecDb.fresh hosts rules) where
  kept := kept_fresh hosts rules
  owned := ⟨id, (fun _ h => by cases h), (fun _ h => by cases h), (fun _ h => by cases h)⟩
  noLive _ _ ht := by cases ht

/-- **Ended tasks have no live hosts.** In every state of a run no row of an ended task is live, if
and only if no call of the run declines a request whose task has a live row. -/
theorem no_live_hosts_iff (hosts : List Host) (rules : ExecRules) (ops : List ExecOp) :
    (∀ ops', ops' <+: ops → NoLiveHosts (run ExecOp.apply (ExecDb.fresh hosts rules) ops')) ↔
      Meets ExecOp.apply DeclinesNoLive (ExecDb.fresh hosts rules) ops := by
  constructor
  · intro hall
    by_contra hbreak
    obtain ⟨ops₁, op, ops₂, rfl, -, hop⟩ := exists_first_break hbreak
    have hpre : ops₁ ++ [op] <+: ops₁ ++ op :: ops₂ := ⟨ops₂, by simp⟩
    have hno := hall _ hpre
    rw [run_append] at hno
    exact not_noLiveHosts_apply hop hno
  · rintro hmeets ops' ⟨ops₂, rfl⟩
    have hq : Quieted (run ExecOp.apply (ExecDb.fresh hosts rules) ops') :=
      run_invariant_of_meets (fun _ _ hq hok => hq.apply hok) (quieted_fresh hosts rules)
        ((meets_append _ _ _).mp hmeets).1
    exact hq.noLive

/-- A sensitive task is created and its approval is rejected. -/
def rejectedRun : ExecDb :=
  run ExecOp.apply (ExecDb.fresh [⟨1, some 1, "agent", none⟩] guardedRules)
    [.create (fun s => s) busEnv { demoSpec with command := some "uptime" } none,
      .reject busEnv 2 1]

/-- **A rejected task.** The task is canceled and its host row is still pending. -/
theorem rejected_task_keeps_pending_host : ¬ NoLiveHosts rejectedRun := by
  have hrow : ∃ t ∈ rejectedRun.task? 1, t.status.terminal = true ∧
      ∃ th ∈ rejectedRun.hostsOfTask 1, th.status.terminal = false := by
    decide +kernel
  obtain ⟨t, ht, hterm, th, hth, hlive⟩ := hrow
  intro hno
  have hended := hno 1 t ht hterm th hth
  rw [hlive] at hended
  cases hended

end LarkPlat
