import LarkPlat.ExecCalls
import LarkPlat.LiveHosts
import LarkPlat.Trails

/-!
# The Finalisation of a Task

A task ends in one of two ways. Its hosts have all ended, and a dispatch worker or the result
frame of an agent moves it to the aggregate of their statuses; or it is canceled or timed out from
outside. The worker and the frame hold a copy of the aggregation each, and neither decides in one
step: each reads the task, counts its hosts and writes under a guard on status and version, and
between these steps anybody else may commit.

A `Race` is a pool together with the finalisations under way. A worker with no row left to hand
over leaves the pool and becomes a finalisation, and so does a result frame that was recorded; the
steps of a finalisation are its reads and its commit. The commit is the guarded update and the
write of the row that the session holds (status, version and end), in one transaction.

## Main results

* `finalizeAggregate_eq_dispatchAggregate`, `dispatchAggregate_eq_some_iff`: the two aggregations
  agree on every task with a host, and what they compute.
* `settle_in_a_row`, `finalize_in_a_row`: a finalisation that nobody interrupts does what the
  complete call does.
* `finalised_once`: along every run the version of a task grows with each change of its status,
  and between two consecutive entries into `running` or `awaiting_approval` at most one commit ends
  it.
* `second_end_before_running`: between two entries into `running` alone there can be two, when a
  sensitive retry lies between them.
-/

namespace LarkPlat

open Machine

/-! ### The two aggregations -/

/-- The aggregation of `exec_dispatch`: nothing while a host is pending or running, else the
status of the task. -/
def dispatchAggregate (statuses : List HostStatus) : Option ExecStatus :=
  let active := statuses.count .running + statuses.count .pending
  if 0 < active then none
  else
    let success := statuses.count .success
    let failed := statuses.count .failed
    let timed := statuses.count .timedOut
    let total := statuses.length
    if failed = 0 ∧ timed = 0 ∧ 0 < total ∧ success = total then some .success
    else if failed = 0 ∧ timed = 0 ∧ 0 < success then some .partialSuccess
    else some .failed

/-- The aggregation of `_maybe_finalize_task`: nothing for a task without hosts or with a live
one. -/
def finalizeAggregate (statuses : List HostStatus) : Option ExecStatus :=
  if statuses = [] then none
  else
    let active := statuses.count .running + statuses.count .pending
    if 0 < active then none
    else
      let success := statuses.count .success
      let failed := statuses.count .failed
      let timed := statuses.count .timedOut
      let total := statuses.length
      if failed = 0 ∧ timed = 0 ∧ 0 < total ∧ success = total then some .success
      else if failed = 0 ∧ timed = 0 ∧ 0 < success then some .partialSuccess
      else some .failed

/-- Every host succeeded. -/
def AllSucceeded (statuses : List HostStatus) : Prop := ∀ st ∈ statuses, st = .success

/-- No host failed or timed out, and some but not all succeeded. -/
def PartlySucceeded (statuses : List HostStatus) : Prop :=
  (∀ st ∈ statuses, st ≠ .failed ∧ st ≠ .timedOut) ∧ .success ∈ statuses ∧
    ¬ AllSucceeded statuses

/-- The status of a task whose hosts have ended. -/
def IsAggregate (statuses : List HostStatus) : ExecStatus → Prop
  | .success => AllSucceeded statuses
  | .partialSuccess => PartlySucceeded statuses
  | .failed => ¬ AllSucceeded statuses ∧ ¬ PartlySucceeded statuses
  | _ => False

section Aggregates

variable {statuses : List HostStatus}

/-- The two copies differ on a task without hosts only. -/
theorem finalizeAggregate_eq_dispatchAggregate (h : statuses ≠ []) :
    finalizeAggregate statuses = dispatchAggregate statuses :=
  if_neg h

theorem dispatchAggregate_eq (statuses : List HostStatus) :
    dispatchAggregate statuses =
      if .running ∈ statuses ∨ .pending ∈ statuses then none else some (aggregate statuses) := by
  have hactive : 0 < statuses.count .running + statuses.count .pending ↔
      .running ∈ statuses ∨ .pending ∈ statuses := by
    rw [Nat.add_pos_iff_pos_or_pos, List.count_pos_iff, List.count_pos_iff]
  unfold dispatchAggregate aggregate
  simp only [hactive, Nat.add_eq_zero_iff, and_assoc]
  split_ifs <;> rfl

theorem allSucceeded_iff : AllSucceeded statuses ↔ statuses.count .success = statuses.length := by
  rw [List.count_eq_length]
  exact forall₂_congr fun _ _ => eq_comm

theorem no_bad_iff : statuses.count .failed + statuses.count .timedOut = 0 ↔
    ∀ st ∈ statuses, st ≠ .failed ∧ st ≠ .timedOut := by
  rw [Nat.add_eq_zero_iff, List.count_eq_zero, List.count_eq_zero]
  constructor
  · rintro ⟨hf, ht⟩ st hst
    exact ⟨fun he => hf (he ▸ hst), fun he => ht (he ▸ hst)⟩
  · intro h
    exact ⟨fun hmem => (h _ hmem).1 rfl, fun hmem => (h _ hmem).2 rfl⟩

theorem isAggregate_aggregate (hne : statuses ≠ []) :
    IsAggregate statuses (aggregate statuses) := by
  have hpos : 0 < statuses.length := List.length_pos_iff.mpr hne
  unfold aggregate
  dsimp only
  split_ifs with hall hpart
  · exact allSucceeded_iff.mpr hall.2.2
  · refine ⟨no_bad_iff.mp hpart.1, List.count_pos_iff.mp hpart.2, ?_⟩
    intro h
    exact hall ⟨hpart.1, hpos, allSucceeded_iff.mp h⟩
  · constructor
    · intro h
      have hgood : ∀ st ∈ statuses, st ≠ .failed ∧ st ≠ .timedOut := by
        intro st hst
        rw [h st hst]
        decide
      exact hall ⟨no_bad_iff.mpr hgood, hpos, allSucceeded_iff.mp h⟩
    · rintro ⟨hgood, hsome, -⟩
      exact hpart ⟨no_bad_iff.mpr hgood, List.count_pos_iff.mpr hsome⟩

theorem IsAggregate.unique {st st' : ExecStatus} (h : IsAggregate statuses st)
    (h' : IsAggregate statuses st') : st = st' := by
  cases st <;> cases st' <;> first | rfl | exact h.elim | exact h'.elim | skip
  · exact absurd h h'.1
  · exact absurd h h'.2.2
  · exact absurd h' h.1
  · exact absurd h' h.2
  · exact absurd h' h.2.2
  · exact absurd h h'.2

/-- **What the aggregations compute**: the aggregate of the hosts, once none of them is live. -/
theorem dispatchAggregate_eq_some_iff (hne : statuses ≠ []) (new : ExecStatus) :
    dispatchAggregate statuses = some new ↔
      (∀ st ∈ statuses, st ≠ .running ∧ st ≠ .pending) ∧ IsAggregate statuses new := by
  have hlive : (∀ st ∈ statuses, st ≠ .running ∧ st ≠ .pending) ↔
      ¬ (.running ∈ statuses ∨ .pending ∈ statuses) := by
    rw [not_or]
    constructor
    · intro h
      exact ⟨fun hmem => (h _ hmem).1 rfl, fun hmem => (h _ hmem).2 rfl⟩
    · rintro ⟨hr, hp⟩ st hst
      exact ⟨fun he => hr (he ▸ hst), fun he => hp (he ▸ hst)⟩
  rw [dispatchAggregate_eq, hlive]
  by_cases h : .running ∈ statuses ∨ .pending ∈ statuses
  · rw [if_pos h]
    exact ⟨(fun hc => by cases hc), fun hc => absurd h hc.1⟩
  · rw [if_neg h]
    constructor
    · intro heq
      exact ⟨h, Option.some.inj heq ▸ isAggregate_aggregate hne⟩
    · rintro ⟨-, hnew⟩
      exact congrArg some ((isAggregate_aggregate hne).unique hnew)

end Aggregates

/-! ### Finalisations -/

/-- A finalisation under way, with what it read. -/
inductive Finisher where
  /-- `exec_dispatch` read the task again, as running. -/
  | settling (taskId : ℕ)
  /-- `exec_dispatch` counted the hosts. -/
  | counted (taskId : ℕ) (new : ExecStatus)
  /-- `exec_dispatch` loaded the version that its guard names. -/
  | loaded (taskId : ℕ) (new : ExecStatus) (version : ℕ)
  /-- `_maybe_finalize_task` read the task, as running. -/
  | read (task : ExecTask)
  /-- `_maybe_finalize_task` counted the hosts. -/
  | tallied (task : ExecTask) (new : ExecStatus)

/-- The pool and the finalisations under way. -/
structure Race where
  pool : Pool
  finishers : List Finisher

/-- A step of the pool or of a finalisation. -/
inductive RaceOp where
  | pool (op : PoolOp)
  /-- Worker `i` has no row left to hand over and reads its task again. -/
  | settle (i : ℕ)
  /-- A recorded result frame reads the task of its row. -/
  | finalize (taskId : ℕ)
  /-- Finalisation `j` takes its next step. -/
  | advance (env : ExecEnv) (j : ℕ)
  /-- Finalisation `j` ends with an exception, or with its process. -/
  | crash (j : ℕ)

namespace Race

/-- Tables with nobody at work. -/
def idle (db : ExecDb) : Race := ⟨Pool.idle db, []⟩

/-- Finalisation `j` goes on as `f`. -/
def become (s : Race) (j : ℕ) (f : Finisher) : Race :=
  { s with finishers := s.finishers.set j f }

/-- Finalisation `j` ends. -/
def leave (s : Race) (j : ℕ) : Race := { s with finishers := s.finishers.eraseIdx j }

/-- The statuses of the hosts of a task, as `stats` counts them. -/
def statuses (s : Race) (taskId : ℕ) : List HostStatus :=
  (s.pool.db.hostsOfTask taskId).map (·.status)

/-- The commit of a finalisation: the guarded update, and the row that the session holds. -/
def finish (now : ℚ) (db : ExecDb) (taskId : ℕ) (old new : ExecStatus) (version : ℕ) :
    Option ExecDb :=
  (db.casTask taskId old new version).map fun db => db.setTask taskId fun t =>
    { t with status := new, version := version + 1, finishedAt := some now }

/-- Finalisation `j` commits, or lost the race. An open approval holds the row of its task. -/
def conclude (s : Race) (now : ℚ) (j taskId : ℕ) (old new : ExecStatus) (version : ℕ) : Race :=
  if s.pool.approving taskId then s
  else
    match finish now s.pool.db taskId old new version with
    | some db => { s.leave j with pool := { s.pool with db := db } }
    | none => s.leave j

/-- The step of finalisation `j`, which stands at `f`. -/
def step (s : Race) (env : ExecEnv) (j : ℕ) : Finisher → Race
  | .settling taskId =>
      match dispatchAggregate (s.statuses taskId) with
      | none =>
          -- a pending host brings the task back to the queue
          if .pending ∈ s.statuses taskId ∧ env.brokerUp then
            { s.leave j with pool := s.pool.send taskId }
          else s.leave j
      | some new => s.become j (.counted taskId new)
  | .counted taskId new =>
      match s.pool.db.task? taskId with
      | none => s.leave j
      | some task => s.become j (.loaded taskId new task.version)
  | .loaded taskId new version => s.conclude env.now j taskId .running new version
  | .read task =>
      match finalizeAggregate (s.statuses task.id) with
      | none => s.leave j
      | some new =>
          if task.status = new ∨ task.status = .canceled ∨ task.status = .timedOut then s.leave j
          else s.become j (.tallied task new)
  | .tallied task new => s.conclude env.now j task.id task.status new task.version

/-- One step of the race. A worker reads its task again outside the transactions of the pool. -/
def apply (lower : String → String) (s : Race) : RaceOp → Race
  | .pool op => { s with pool := s.pool.apply lower op }
  | .settle i =>
      match s.pool.workers[i]? with
      | some ⟨taskId, .handing _ []⟩ =>
          let s' : Race := { s with pool := { s.pool with workers := s.pool.workers.eraseIdx i } }
          match s.pool.db.task? taskId with
          | some task =>
              if task.status = .running then
                { s' with finishers := s'.finishers ++ [.settling taskId] }
              else s'
          | none => s'
      | _ => s
  | .finalize taskId =>
      match s.pool.db.task? taskId with
      | some task =>
          if task.status = .running then { s with finishers := s.finishers ++ [.read task] } else s
      | none => s
  | .advance env j =>
      match s.finishers[j]? with
      | some f => s.step env j f
      | none => s
  | .crash j => s.leave j

end Race

/-! ### The status and version of a task -/

/-- The status and version of a committed task. -/
def ExecDb.mark? (db : ExecDb) (id : ℕ) : Option (ExecStatus × ℕ) :=
  (db.task? id).map fun t => (t.status, t.version)

/-- The statuses and versions that a task gets along a run, one for each committed change. -/
def Race.trail (lower : String → String) (id : ℕ) : Race → List RaceOp → List (ExecStatus × ℕ) :=
  Machine.trail (Race.apply lower) fun s => s.pool.db.mark? id

/-- The statuses that open a task: it runs, or waits to run. -/
def ExecStatus.opens : ExecStatus → Bool
  | .running | .awaitingApproval => true
  | _ => false

/-- How a committed change moves the status and version of a task: the version grows by one, and
an ended task is opened. -/
def Turns (m m' : ExecStatus × ℕ) : Prop :=
  m'.2 = m.2 + 1 ∧ (m.1.terminal = true → m'.1.opens = true)

/-! ### What a commit does to a task -/

section Commits

variable {db db' db'' : ExecDb} {id : ℕ} {t : ExecTask} {f : ExecTask → ExecTask}

/-- What one commit does to the tasks: each is left, inserted or moved by one turn, and a new one
has an identifier that was handed out. -/
structure Commits (db db' : ExecDb) : Prop where
  along : ∀ id, Along Turns (db.mark? id) (db'.mark? id)
  nextTask : db.nextTask ≤ db'.nextTask
  numbered : ∀ id, db'.nextTask ≤ id → db.mark? id = none → db'.mark? id = none

theorem commits_of_marks (h : ∀ id, db'.mark? id = db.mark? id)
    (hnext : db.nextTask ≤ db'.nextTask) : Commits db db' where
  along id := by
    rw [h id]
    exact Along.stay _
  nextTask := hnext
  numbered id _ hnone := (h id).trans hnone

theorem mark?_congr (h : db'.tasks = db.tasks) (id : ℕ) : db'.mark? id = db.mark? id := by
  rw [ExecDb.mark?, ExecDb.task?, h]
  rfl

theorem commits_congr (h : db'.tasks = db.tasks) (hnext : db'.nextTask = db.nextTask) :
    Commits db db' :=
  commits_of_marks (mark?_congr h) hnext.ge

theorem Commits.of_marks (h : Commits db db') (hmarks : ∀ id, db''.mark? id = db'.mark? id)
    (hnext : db''.nextTask = db'.nextTask) : Commits db db'' where
  along id := by
    rw [hmarks id]
    exact h.along id
  nextTask := hnext ▸ h.nextTask
  numbered id hle hnone := (hmarks id).trans (h.numbered id (hnext ▸ hle) hnone)

/-- A commit may also make changes before it that leave every status and version. -/
theorem Commits.after_marks (h : Commits db' db'') (hmarks : ∀ id, db'.mark? id = db.mark? id)
    (hnext : db'.nextTask = db.nextTask) : Commits db db'' where
  along id := by
    rw [← hmarks id]
    exact h.along id
  nextTask := hnext ▸ h.nextTask
  numbered id hle hnone := h.numbered id hle ((hmarks id).trans hnone)

theorem Commits.congr (h : Commits db db') (ht : db''.tasks = db'.tasks)
    (hnext : db''.nextTask = db'.nextTask) : Commits db db'' :=
  h.of_marks (mark?_congr ht) hnext

theorem commits_setTask (hid : ∀ t, (f t).id = t.id) (ht : db.task? id = some t)
    (hturn : Turns (t.status, t.version) ((f t).status, (f t).version)) :
    Commits db (db.setTask id f) where
  along i := by
    by_cases hi : i = id
    · subst hi
      rw [ExecDb.mark?, ExecDb.mark?, task?_setTask_self hid ht, ht]
      exact Along.next hturn
    · rw [ExecDb.mark?, ExecDb.mark?, task?_setTask_ne hid hi]
      exact Along.stay _
  nextTask := le_rfl
  numbered i _ hnone := by
    have hne : i ≠ id := by
      rintro rfl
      rw [ExecDb.mark?, ht] at hnone
      cases hnone
    rw [ExecDb.mark?, task?_setTask_ne hid hne]
    exact hnone

theorem task?_setTask (hid : ∀ t, (f t).id = t.id) (i : ℕ) :
    (db.setTask id f).task? i = if i = id then (db.task? i).map f else db.task? i := by
  split_ifs with hi
  · subst hi
    exact Table.find_modify_self fun r hr => (hid r).trans hr
  · exact task?_setTask_ne hid hi

theorem mark?_setTask (hid : ∀ t, (f t).id = t.id)
    (hsame : ∀ t, db.task? id = some t → (f t).status = t.status ∧ (f t).version = t.version)
    (i : ℕ) : (db.setTask id f).mark? i = db.mark? i := by
  rw [ExecDb.mark?, task?_setTask hid, ExecDb.mark?]
  split_ifs with hi
  · subst hi
    rcases ht : db.task? i with _ | t
    · rfl
    · obtain ⟨hst, hv⟩ := hsame t ht
      rw [Option.map_some, Option.map_some, Option.map_some, hst, hv]
  · rfl

theorem casTask_found {old new : ExecStatus} {version : ℕ}
    (h : db.casTask id old new version = some db') :
    ∃ t, db.task? id = some t ∧ t.status = old ∧ t.version = version ∧
      db' = db.setTask id fun t => { t with status := new, version := version + 1 } := by
  rw [ExecDb.casTask] at h
  rcases ht : db.task? id with _ | t
  · rw [ht] at h
    cases h
  · rw [ht] at h
    dsimp only at h
    split_ifs at h with hc
    exact ⟨t, rfl, hc.1, hc.2, (Option.some.inj h).symm⟩

theorem commits_casTask {old new : ExecStatus} {version : ℕ}
    (h : db.casTask id old new version = some db')
    (hopen : old.terminal = true → new.opens = true) : Commits db db' := by
  obtain ⟨t, ht, rfl, rfl, rfl⟩ := casTask_found h
  exact commits_setTask (fun _ => rfl) ht ⟨rfl, hopen⟩

/-- A guarded update, and a change of its task that leaves status and version. -/
theorem commits_cas_touch {old new : ExecStatus} {version : ℕ}
    (h : db.casTask id old new version = some db')
    (hopen : old.terminal = true → new.opens = true) (hid : ∀ t, (f t).id = t.id)
    (hsame : ∀ t, (f t).status = t.status ∧ (f t).version = t.version) :
    Commits db (db'.setTask id f) :=
  (commits_casTask h hopen).of_marks (mark?_setTask hid fun t _ => hsame t) rfl

/-! ### Decisions -/

variable {env : ExecEnv}

theorem commits_approveExec (h : approveExec env db id = .ok db') : Commits db db' := by
  rw [approveExec] at h
  rcases ht : db.task? id with _ | task
  · simp [ht] at h
  rw [ht] at h
  obtain rfl : task.id = id := Table.key_of_find ht
  rcases hc : db.casTask task.id .awaitingApproval .running task.version with _ | db₁
  · simp [hc] at h
  simp only [hc, Except.ok.injEq] at h
  have hrun : Commits db (db₁.setTask task.id fun t => { t with startedAt := some env.now }) :=
    commits_cas_touch hc (fun hterm => by cases hterm) (fun _ => rfl) fun _ => ⟨rfl, rfl⟩
  subst h
  split_ifs
  · exact hrun.congr rfl rfl
  · exact hrun

theorem commits_approveRead {userId : ℕ} {a : ApprovalRequest}
    (h : approveRead env db userId a = .ok db') : Commits db db' := by
  rw [approveRead] at h
  obtain ⟨db₁, hd, h⟩ := bind_eq_ok.mp h
  obtain ⟨approvals, rfl⟩ := decide?_eq_ok hd
  by_cases hb : a.bizType = .exec
  · rw [if_pos hb] at h
    exact (commits_approveExec h).after_marks (mark?_congr rfl) rfl
  · rw [if_neg hb] at h
    obtain rfl := Except.ok.inj h
    exact commits_congr rfl rfl

theorem commits_cancelAwaiting (env : ExecEnv) (db : ExecDb) (id : ℕ) :
    Commits db (cancelAwaiting env db id) := by
  unfold cancelAwaiting
  split
  · split_ifs
    · split
      · rename_i hc
        exact commits_cas_touch hc (fun hterm => by cases hterm) (fun _ => rfl)
          fun _ => ⟨rfl, rfl⟩
      · exact commits_congr rfl rfl
    · exact commits_congr rfl rfl
  · exact commits_congr rfl rfl

theorem commits_declined {a : ApprovalRequest} {approvals : List ApprovalRequest}
    (h : db' = if a.bizType = .exec then
      cancelAwaiting env { db with approvals := approvals } a.bizId
    else { db with approvals := approvals }) : Commits db db' := by
  subst h
  split_ifs
  · exact (commits_cancelAwaiting env _ a.bizId).after_marks (mark?_congr rfl) rfl
  · exact commits_congr rfl rfl

/-! ### Closing, retry and settling -/

theorem closeOrphanApproval_tasks (db : ExecDb) (task : ExecTask) :
    (closeOrphanApproval db task).tasks = db.tasks ∧
      (closeOrphanApproval db task).nextTask = db.nextTask := by
  obtain ⟨approvals, h⟩ := closeOrphanApproval_eq db task
  rw [h]
  exact ⟨rfl, rfl⟩

theorem commits_closeTask {c : Closing} {task : ExecTask} {rows : List ℕ}
    (hopen : task.status.terminal = false) (h : closeTask c env db task rows = some db') :
    Commits db db' := by
  unfold closeTask at h
  split at h
  · cases h
  · rename_i db₁ hc
    obtain rfl := Option.some.inj h
    have hclosed : Commits db (db₁.setTask task.id fun t =>
        { t with finishedAt := some env.now }) :=
      commits_cas_touch hc (fun hterm => by rw [hopen] at hterm; cases hterm) (fun _ => rfl)
        fun _ => ⟨rfl, rfl⟩
    refine hclosed.congr ?_ ?_
    · split_ifs
      · exact (closeOrphanApproval_tasks _ task).1
      · rfl
    · split_ifs
      · exact (closeOrphanApproval_tasks _ task).2
      · rfl

theorem commits_retryTask {task : ExecTask} {rows : List ℕ}
    (h : retryTask env db task rows = some db') : Commits db db' := by
  unfold retryTask at h
  split at h
  · cases h
  · rename_i db₁ hc
    obtain rfl := Option.some.inj h
    have hrun : Commits db (db₁.setTask task.id fun t =>
        { t with startedAt := some env.now, finishedAt := none }) :=
      commits_cas_touch hc (fun _ => rfl) (fun _ => rfl) fun _ => ⟨rfl, rfl⟩
    exact hrun.congr (closeOrphanApproval_tasks _ task).1 (closeOrphanApproval_tasks _ task).2

theorem commits_retrySensitive {task : ExecTask} {userId : ℕ} {reason : String}
    (h : retrySensitive db task userId reason = some db') : Commits db db' := by
  unfold retrySensitive at h
  split at h
  · cases h
  · rename_i db₁ hc
    dsimp only at h
    split_ifs at h
    obtain rfl := Option.some.inj h
    have hwait : Commits db (closeOrphanApproval db₁ task) :=
      (commits_casTask hc fun _ => rfl).congr (closeOrphanApproval_tasks db₁ task).1
        (closeOrphanApproval_tasks db₁ task).2
    exact (hwait.congr rfl rfl).of_marks
      (mark?_setTask (fun _ => rfl) fun _ _ => ⟨rfl, rfl⟩) rfl

theorem commits_settleTask {task : ExecTask} (ht : db.task? task.id = some task)
    (hrun : task.status = .running) : Commits db (settleTask env db task) := by
  unfold settleTask
  dsimp only
  split_ifs
  · exact commits_congr rfl rfl
  · exact commits_congr rfl rfl
  · exact commits_setTask (fun _ => rfl) ht ⟨rfl, fun hterm => by rw [hrun] at hterm; cases hterm⟩

theorem commits_settleAgain (env : ExecEnv) (db : ExecDb) (id : ℕ) :
    Commits db (settleAgain env db id) := by
  unfold settleAgain
  rcases ht : db.task? id with _ | task
  · exact commits_congr rfl rfl
  obtain rfl : task.id = id := Table.key_of_find ht
  dsimp only
  split_ifs with hrun
  · exact commits_settleTask ht hrun
  · exact commits_congr rfl rfl

theorem commits_maybeFinalizeTask (now : ℚ) (db : ExecDb) (id : ℕ) :
    Commits db (Pool.maybeFinalizeTask now db id) := by
  unfold Pool.maybeFinalizeTask
  rcases ht : db.task? id with _ | task
  · exact commits_congr rfl rfl
  dsimp only
  split_ifs with hc
  · exact commits_congr rfl rfl
  · have hrun : task.status = .running := by
      by_contra hne
      exact hc (Or.inl hne)
    exact commits_setTask (fun _ => rfl) ht ⟨rfl, fun hterm => by rw [hrun] at hterm; cases hterm⟩

theorem commits_finish {now : ℚ} {new : ExecStatus} {version : ℕ}
    (h : Race.finish now db id .running new version = some db') : Commits db db' := by
  obtain ⟨db₁, hc, rfl⟩ := Option.map_eq_some_iff.mp h
  refine (commits_casTask hc fun hterm => by cases hterm).of_marks ?_ rfl
  refine mark?_setTask (fun _ => rfl) ?_
  intro t ht
  -- the session writes the status and version that the guarded update wrote
  obtain ⟨t₀, ht₀, -, -, rfl⟩ := casTask_found hc
  obtain rfl := Option.some.inj (ht.symm.trans (task?_setTask_self (fun _ => rfl) ht₀))
  exact ⟨rfl, rfl⟩

end Commits

/-! ### Creation -/

section Creation

variable {lower : String → String} {env : ExecEnv} {db db' : ExecDb} {spec : TaskSpec}
  {policy : Option String} {c : Created} {i : ℕ}

/-- The inserted task, and a change of it, are seen under the new identifier alone. -/
theorem task?_inserted_ne (env : ExecEnv) (spec : TaskSpec) (sensitive : Bool)
    {f : ExecTask → ExecTask} (htasks : db'.tasks =
      Table.modify ExecTask.id (insertTask env db spec sensitive).tasks db.nextTask f)
    (hid : ∀ t, (f t).id = t.id) (hne : i ≠ db.nextTask) : db'.task? i = db.task? i := by
  have hinsert : (insertTask env db spec sensitive).task? i = db.task? i :=
    Table.find_concat_ne hne
  rw [← hinsert, ExecDb.task?, htasks]
  exact Table.find_modify_ne (fun t ht => (hid t).trans ht) hne

theorem task?_createSensitive_ne {reason : String}
    (h : createSensitive env db spec reason policy = .ok (db', c)) (hne : i ≠ db.nextTask) :
    db'.task? i = db.task? i := by
  rw [createSensitive] at h
  by_cases hany : (insertTask env db spec true).approvals.any
      (fun a => decide (a.bizId = db.nextTask)) = true
  · simp only [if_pos hany, reduceCtorEq] at h
  simp only [if_neg hany] at h
  cases policy with
  | none =>
      obtain ⟨rfl, rfl⟩ := Prod.mk.inj (Except.ok.inj h)
      exact task?_inserted_ne env spec true rfl (fun _ => rfl) hne
  | some ref =>
      dsimp only at h
      split at h
      · cases h
      · rename_i db₅ hex
        obtain ⟨rfl, rfl⟩ := Prod.mk.inj (Except.ok.inj h)
        rw [(approveExec_touches none hex).1.task i fun he => hne (Option.some.inj he).symm]
        exact task?_inserted_ne env spec true rfl (fun _ => rfl) hne

theorem task?_create_ne (h : createExecTaskRecord lower env db spec policy = .ok (db', c))
    (hne : i ≠ db.nextTask) : db'.task? i = db.task? i := by
  rw [createExecTaskRecord] at h
  obtain ⟨-, -, h⟩ := bind_eq_ok.mp h
  obtain ⟨body, -, h⟩ := bind_eq_ok.mp h
  by_cases hn : spec.targetHostIds.Nodup
  swap
  · simp [hn] at h
  simp only [hn, not_true_eq_false, if_false] at h
  split_ifs at h
  · exact task?_createSensitive_ne h hne
  · obtain ⟨rfl, rfl⟩ := Prod.mk.inj (Except.ok.inj h)
    exact task?_inserted_ne env spec false rfl (fun _ => rfl) hne

theorem nextTask_create (h : createExecTaskRecord lower env db spec policy = .ok (db', c)) :
    c.id = db.nextTask ∧ db'.nextTask = db.nextTask + 1 := by
  obtain ⟨hid, sensitive, sent, heffect, -⟩ := createExecTaskRecord_effect h
  exact ⟨hid, heffect.nextTask⟩

theorem along_of_none {v v' : Option (ExecStatus × ℕ)} (h : v = none) : Along Turns v v' := by
  subst h
  cases v' with
  | none => exact Along.stay none
  | some y => exact Along.first y

theorem commits_create (hnew : db.mark? db.nextTask = none)
    (h : createExecTaskRecord lower env db spec policy = .ok (db', c)) : Commits db db' where
  along i := by
    by_cases hi : i = db.nextTask
    · subst hi
      exact along_of_none hnew
    · rw [ExecDb.mark?, ExecDb.mark?, task?_create_ne h hi]
      exact Along.stay _
  nextTask := by
    rw [(nextTask_create h).2]
    exact Nat.le_succ _
  numbered i hle hnone := by
    rw [(nextTask_create h).2] at hle
    rw [ExecDb.mark?, task?_create_ne h (Nat.ne_of_gt hle)]
    exact hnone

/-- Tasks appended under one identifier are seen under it alone, and only if it is new. -/
theorem commits_append {taskId : ℕ} {tasks : List ExecTask}
    (htasks : db'.tasks = db.tasks ++ tasks) (hnext : db'.nextTask = db.nextTask)
    (hids : ∀ t ∈ tasks, t.id = taskId) (hlt : taskId < db.nextTask) : Commits db db' := by
  have hother : ∀ i, i ≠ taskId → db'.mark? i = db.mark? i := by
    intro i hi
    have hnone : Table.find ExecTask.id tasks i = none := by
      rw [Table.find_eq_none_iff]
      intro hmem
      obtain ⟨t, ht, rfl⟩ := List.mem_map.mp hmem
      exact hi (hids t ht)
    unfold Table.find at hnone
    unfold ExecDb.mark? ExecDb.task? Table.find
    rw [htasks, List.find?_append, hnone, Option.or_none]
  refine ⟨?_, hnext.ge, ?_⟩
  · intro i
    by_cases hi : i = taskId
    · subst hi
      rcases ht : db.task? i with _ | t
      · exact along_of_none (by rw [ExecDb.mark?, ht]; rfl)
      · have hfound : db'.task? i = some t := by
          rw [ExecDb.task?, htasks]
          exact Table.find_append ht tasks
        rw [ExecDb.mark?, ExecDb.mark?, ht, hfound]
        exact Along.stay _
    · rw [hother i hi]
      exact Along.stay _
  · intro i hle hnone
    rw [hnext] at hle
    rw [hother i (Nat.ne_of_gt (lt_of_lt_of_le hlt hle))]
    exact hnone

end Creation

/-! ### Steps of the pool -/

section Steps

variable {lower : String → String} {env : ExecEnv} {s s' s'' : Pool}

/-- A closing holds a task that it read as open, and the identifier of a creation was handed
out. -/
def Session.Sound (nextTask : ℕ) : Session → Prop
  | .close _ task _ => task.status.terminal = false
  | .auto taskId _ _ => taskId < nextTask
  | _ => True

/-- The identifiers of tasks were handed out, and the open transactions are sound. -/
structure Pool.Sound (s : Pool) : Prop where
  numbered : ∀ id, s.db.nextTask ≤ id → s.db.mark? id = none
  sessions : ∀ ses ∈ s.sessions, ses.Sound s.db.nextTask

/-- A step that makes one commit and opens sound transactions only. -/
structure OneCommit (s s' : Pool) : Prop where
  commits : Commits s.db s'.db
  sessions : ∀ ses ∈ s'.sessions, ses ∈ s.sessions ∨ ses.Sound s'.db.nextTask

theorem Session.Sound.mono {ses : Session} {n n' : ℕ} (h : ses.Sound n) (hle : n ≤ n') :
    ses.Sound n' := by
  cases ses with
  | auto taskId rows kick => exact lt_of_lt_of_le h hle
  | _ => exact h

theorem Pool.Sound.step (h : s.Sound) (hstep : OneCommit s s') : s'.Sound where
  numbered id hle :=
    hstep.commits.numbered id hle (h.numbered id (hstep.commits.nextTask.trans hle))
  sessions ses hses := by
    rcases hstep.sessions ses hses with hold | hsound
    · exact (h.sessions ses hold).mono hstep.commits.nextTask
    · exact hsound

theorem oneCommit_of_sessions (hc : Commits s.db s'.db) (hs : s'.sessions ⊆ s.sessions) :
    OneCommit s s' :=
  ⟨hc, fun _ hses => Or.inl (hs hses)⟩

theorem oneCommit_quiet (ht : s'.db.tasks = s.db.tasks) (hn : s'.db.nextTask = s.db.nextTask)
    (hs : s'.sessions ⊆ s.sessions) : OneCommit s s' :=
  oneCommit_of_sessions (commits_congr ht hn) hs

theorem OneCommit.kicked (h : OneCommit s s') (hk : Kicked s' s'') : OneCommit s s'' := by
  obtain ⟨queue, hdb, -⟩ := hk.tables
  refine ⟨h.commits.congr (by rw [hdb]) (by rw [hdb]), ?_⟩
  intro ses hses
  rw [hk.sessions] at hses
  refine (h.sessions ses hses).imp_right fun hsound => ?_
  rw [hdb]
  exact hsound

theorem oneCommit_begin {ses : Session} (hc : Commits s.db s'.db) (hs : s'.sessions = s.sessions)
    (hses : ses.Sound s'.db.nextTask) : OneCommit s (s'.begin ses) := by
  refine ⟨hc, ?_⟩
  intro ses' hses'
  rcases List.mem_append.mp hses' with hold | hnew
  · exact Or.inl (hs ▸ hold)
  · rw [List.mem_singleton.mp hnew]
    exact Or.inr hses

theorem oneCommit_create (h : s.Sound) (env : ExecEnv) (spec : TaskSpec)
    (policy : Option String) (kick : Option Bool) :
    OneCommit s (s.create lower env spec policy kick) := by
  unfold Pool.create
  rcases hc : createExecTaskRecord lower env s.db spec policy with e | ⟨db', c⟩
  · exact oneCommit_quiet rfl rfl (List.Subset.refl _)
  obtain ⟨hid, hnext⟩ := nextTask_create hc
  have hcommits : Commits s.db db' := commits_create (h.numbered _ le_rfl) hc
  have hplain : OneCommit s { s with db := db' } :=
    oneCommit_of_sessions hcommits (List.Subset.refl _)
  dsimp only
  split_ifs
  · -- the rows of an approved task wait for its commit, its identifier is handed out
    refine oneCommit_begin (commits_of_marks (mark?_congr rfl) ?_) rfl ?_
    · change s.db.nextTask ≤ db'.nextTask
      rw [hnext]
      exact Nat.le_succ _
    · change c.id < db'.nextTask
      rw [hid, hnext]
      exact Nat.lt_succ_self _
  · exact hplain.kicked (kicked_kickIf _ _ _ _)
  · exact hplain

theorem oneCommit_openApprove (env : ExecEnv) (userId approvalId : ℕ) :
    OneCommit s (s.openApprove env userId approvalId) := by
  have hsame : OneCommit s s := oneCommit_quiet rfl rfl (List.Subset.refl _)
  unfold Pool.openApprove
  split_ifs
  · exact hsame
  split
  · exact hsame
  · split
    · exact hsame
    · exact oneCommit_begin (commits_congr rfl rfl) rfl trivial

theorem oneCommit_decline {approvalId : ℕ} {result : Except PyErr ExecDb}
    (hr : ∀ db', result = .ok db' → Commits s.db db') :
    OneCommit s (s.decline approvalId result) := by
  have hsame : OneCommit s s := oneCommit_quiet rfl rfl (List.Subset.refl _)
  unfold Pool.decline
  split_ifs
  · exact hsame
  split
  · exact oneCommit_of_sessions (hr _ rfl) (List.Subset.refl _)
  · exact hsame

theorem oneCommit_openClose (c : Closing) (admits : ExecTask → Bool) (taskId : ℕ)
    (hadmits : ∀ task, admits task = true → task.status.terminal = false) :
    OneCommit s (s.openClose c admits taskId) := by
  have hsame : OneCommit s s := oneCommit_quiet rfl rfl (List.Subset.refl _)
  unfold Pool.openClose
  split
  · split_ifs with hadmit
    · exact oneCommit_begin (commits_congr rfl rfl) rfl (hadmits _ hadmit)
    · exact hsame
  · exact hsame

theorem oneCommit_openRetry (userId taskId : ℕ) :
    OneCommit s (s.openRetry lower userId taskId) := by
  have hsame : OneCommit s s := oneCommit_quiet rfl rfl (List.Subset.refl _)
  unfold Pool.openRetry
  split
  · dsimp only
    split_ifs
    · exact oneCommit_begin (commits_congr rfl rfl) rfl trivial
    · exact oneCommit_begin (commits_congr rfl rfl) rfl trivial
    · exact hsame
  · exact hsame

theorem oneCommit_abort (i : ℕ) : OneCommit s (s.abort i) :=
  oneCommit_quiet rfl rfl (List.eraseIdx_sublist _ i).subset

theorem oneCommit_finishWith (i : ℕ) {db? : Option ExecDb}
    (hr : ∀ db', db? = some db' → Commits s.db db') : OneCommit s (s.finishWith i db?) := by
  unfold Pool.finishWith
  split
  · exact oneCommit_of_sessions (hr _ rfl) (List.eraseIdx_sublist _ i).subset
  · exact oneCommit_abort i

theorem oneCommit_commit (h : s.Sound) (env : ExecEnv) (inProcess : Bool) (i : ℕ) :
    OneCommit s (s.commit env inProcess i) := by
  have hsame : OneCommit s s := oneCommit_quiet rfl rfl (List.Subset.refl _)
  have habort : (s.abort i).sessions ⊆ s.sessions := (List.eraseIdx_sublist _ i).subset
  unfold Pool.commit
  split
  · exact hsame
  · rename_i c task rows hi
    have hopen : task.status.terminal = false := h.sessions _ (List.mem_of_getElem? hi)
    split_ifs
    · exact hsame
    · exact oneCommit_finishWith i fun db' hdb => commits_closeTask hopen hdb
  · split
    · rename_i db hdb
      have hretry : OneCommit s { s.abort i with db := db } :=
        oneCommit_of_sessions (commits_retryTask hdb) habort
      exact hretry.kicked (kicked_kickOff _ _ _ _)
    · exact oneCommit_abort i
  · exact oneCommit_finishWith i fun db' hdb => commits_retrySensitive hdb
  · refine oneCommit_finishWith i ?_
    intro db' hdb
    obtain ⟨db₁, happrove, rfl⟩ := Option.map_eq_some_iff.mp hdb
    exact (commits_approveRead (ok_of_toOption happrove)).congr rfl rfl
  · rename_i taskId rows kick hi
    have hlt : taskId < s.db.nextTask := h.sessions _ (List.mem_of_getElem? hi)
    have hinsert : OneCommit s { s.abort i with db := { s.db with
        tasks := s.db.tasks ++ rows.tasks
        taskHosts := s.db.taskHosts ++ rows.taskHosts
        approvals := s.db.approvals ++ rows.approvals } } :=
      oneCommit_of_sessions (commits_append rfl rfl rows.tasks_id hlt) habort
    exact hinsert.kicked (kicked_kickIf _ _ _ _)

theorem oneCommit_consume (k : ℕ) : OneCommit s (s.consume k) := by
  unfold Pool.consume
  split
  · exact oneCommit_quiet rfl rfl (List.Subset.refl _)
  · exact oneCommit_quiet rfl rfl (List.Subset.refl _)

theorem commits_act (lower : String → String) (w : Worker) (db : ExecDb) (a : WorkerAct) :
    Commits db (w.act lower db a).db := by
  fun_cases Worker.act lower w db a with
  | case9 l env hphase => exact commits_settleAgain env db w.taskId
  | _ => exact commits_congr rfl rfl

theorem oneCommit_act (i : ℕ) (a : WorkerAct) : OneCommit s (s.act lower i a) := by
  unfold Pool.act
  split
  · exact oneCommit_quiet rfl rfl (List.Subset.refl _)
  · exact oneCommit_of_sessions (commits_act lower _ s.db a) (List.Subset.refl _)

/-- **One step** of the pool makes one commit. -/
theorem oneCommit_apply (h : s.Sound) (lower : String → String) (op : PoolOp) :
    OneCommit s (s.apply lower op) := by
  cases op with
  | create env spec policy kick => exact oneCommit_create h env spec policy kick
  | openApprove env userId approvalId => exact oneCommit_openApprove env userId approvalId
  | reject env userId approvalId =>
      refine oneCommit_decline fun db' hr => ?_
      obtain ⟨a, approvals, -, heq⟩ := reject_eq_ok hr
      exact commits_declined heq
  | cancelApproval env userId isAdmin approvalId =>
      refine oneCommit_decline fun db' hr => ?_
      obtain ⟨a, approvals, -, -, heq⟩ := cancelApproval_eq_ok hr
      exact commits_declined heq
  | openCancel taskId =>
      refine oneCommit_openClose .cancel _ taskId fun task hadmit => ?_
      revert hadmit
      cases task.status <;> simp [ExecStatus.cancellable, ExecStatus.terminal]
  | openSweep now createdAt taskId =>
      refine oneCommit_openClose .timeout _ taskId fun task hadmit => ?_
      have hrun : task.status = .running := of_decide_eq_true (Bool.and_eq_true_iff.mp hadmit).1
      rw [hrun]
      rfl
  | openRetry userId taskId => exact oneCommit_openRetry userId taskId
  | commit env inProcess i => exact oneCommit_commit h env inProcess i
  | abort i => exact oneCommit_abort i
  | consume k => exact oneCommit_consume k
  | act i a => exact oneCommit_act i a
  | persistResult now row status exitCode => exact oneCommit_quiet rfl rfl (List.Subset.refl _)
  | maybeFinalizeTask now taskId =>
      exact oneCommit_of_sessions (commits_maybeFinalizeTask now s.db taskId) (List.Subset.refl _)
  | configure hosts scripts scriptVersions rules =>
      exact oneCommit_quiet rfl rfl (List.Subset.refl _)

end Steps

/-! ### Steps of the race -/

/-- A result frame finalises a task that it read as running. -/
def Finisher.Sound : Finisher → Prop
  | .read task | .tallied task _ => task.status = .running
  | _ => True

namespace Race

variable {lower : String → String} {env : ExecEnv} {s s' : Race} {id j : ℕ}

/-- The pool is sound, and so is every finalisation under way. -/
structure Sound (s : Race) : Prop where
  pool : s.pool.Sound
  finishers : ∀ f ∈ s.finishers, f.Sound

/-- A step that makes one commit and begins sound finalisations only. -/
structure Steps (s s' : Race) : Prop where
  pool : OneCommit s.pool s'.pool
  finishers : ∀ f ∈ s'.finishers, f ∈ s.finishers ∨ f.Sound

theorem Sound.step (h : s.Sound) (hstep : Steps s s') : s'.Sound where
  pool := h.pool.step hstep.pool
  finishers f hf := (hstep.finishers f hf).elim (h.finishers f) id

theorem Steps.refl (s : Race) : Steps s s where
  pool := oneCommit_quiet rfl rfl (List.Subset.refl _)
  finishers _ hf := Or.inl hf

theorem steps_leave (hpool : OneCommit s.pool s'.pool)
    (hs : s'.finishers = s.finishers.eraseIdx j) : Steps s s' where
  pool := hpool
  finishers _ hf := Or.inl ((List.eraseIdx_sublist _ j).subset (hs ▸ hf))

theorem steps_become {f : Finisher} (hf : f.Sound) : Steps s (s.become j f) where
  pool := oneCommit_quiet rfl rfl (List.Subset.refl _)
  finishers f' hf' := by
    rcases List.mem_or_eq_of_mem_set hf' with hold | rfl
    · exact Or.inl hold
    · exact Or.inr hf

theorem steps_begin {f : Finisher} (hpool : OneCommit s.pool s'.pool)
    (hs : s'.finishers = s.finishers ++ [f]) (hf : f.Sound) : Steps s s' where
  pool := hpool
  finishers f' hf' := by
    rcases List.mem_append.mp (hs ▸ hf') with hold | hnew
    · exact Or.inl hold
    · rw [List.mem_singleton.mp hnew]
      exact Or.inr hf

theorem steps_conclude (now : ℚ) (j taskId : ℕ) (new : ExecStatus) (version : ℕ) :
    Steps s (s.conclude now j taskId .running new version) := by
  unfold conclude
  split_ifs
  · exact Steps.refl s
  split
  · rename_i db hdb
    exact steps_leave (oneCommit_of_sessions (commits_finish hdb) (List.Subset.refl _)) rfl
  · exact steps_leave (Steps.refl s).pool rfl

theorem steps_step {f : Finisher} (hf : f.Sound) (env : ExecEnv) (j : ℕ) :
    Steps s (s.step env j f) := by
  have hleave : Steps s (s.leave j) := steps_leave (Steps.refl s).pool rfl
  cases f with
  | settling taskId =>
      unfold step
      dsimp only
      split
      · split_ifs
        · exact steps_leave (oneCommit_quiet rfl rfl (List.Subset.refl _)) rfl
        · exact hleave
      · exact steps_become trivial
  | counted taskId new =>
      unfold step
      dsimp only
      split
      · exact hleave
      · exact steps_become trivial
  | loaded taskId new version => exact steps_conclude env.now j taskId new version
  | read task =>
      unfold step
      dsimp only
      split
      · exact hleave
      · split_ifs
        · exact hleave
        · exact steps_become hf
  | tallied task new =>
      have hrun : task.status = .running := hf
      unfold step
      dsimp only
      rw [hrun]
      exact steps_conclude env.now j task.id new task.version

/-- **One step** of the race makes one commit. -/
theorem steps_apply (h : s.Sound) (lower : String → String) (op : RaceOp) :
    Steps s (s.apply lower op) := by
  cases op with
  | pool op => exact ⟨oneCommit_apply h.pool lower op, fun _ hf => Or.inl hf⟩
  | settle i =>
      have hgone : OneCommit s.pool { s.pool with workers := s.pool.workers.eraseIdx i } :=
        oneCommit_quiet rfl rfl (List.Subset.refl _)
      unfold apply
      dsimp only
      split
      · split
        · split_ifs
          · exact steps_begin hgone rfl trivial
          · exact ⟨hgone, fun _ hf => Or.inl hf⟩
        · exact ⟨hgone, fun _ hf => Or.inl hf⟩
      · exact Steps.refl s
  | finalize taskId =>
      unfold apply
      dsimp only
      split
      · split_ifs with hrun
        · exact steps_begin (Steps.refl s).pool rfl hrun
        · exact Steps.refl s
      · exact Steps.refl s
  | advance env j =>
      unfold apply
      dsimp only
      split
      · rename_i f hf
        exact steps_step (h.finishers f (List.mem_of_getElem? hf)) env j
      · exact Steps.refl s
  | crash j => exact steps_leave (Steps.refl s).pool rfl

/-! ### A finalisation that nobody interrupts -/

theorem advance_eq {f : Finisher} (h : s.finishers[j]? = some f) :
    s.apply lower (.advance env j) = s.step env j f := by
  unfold apply
  dsimp only
  rw [h]

theorem finish_task? {db : ExecDb} {t : ExecTask} (ht : db.task? id = some t) (now : ℚ)
    (new : ExecStatus) : ∃ db', finish now db id t.status new t.version = some db' ∧
      ∀ i, db'.task? i = (db.setTask id fun t =>
        { t with status := new, version := t.version + 1, finishedAt := some now }).task? i := by
  have hcas : db.casTask id t.status new t.version =
      some (db.setTask id fun t' => { t' with status := new, version := t.version + 1 }) := by
    rw [ExecDb.casTask, ht]
    exact if_pos ⟨rfl, rfl⟩
  refine ⟨_, by rw [finish, hcas, Option.map_some], ?_⟩
  intro i
  rw [task?_setTask, task?_setTask, task?_setTask]
  · split_ifs with hi
    · rw [hi, ht]
      rfl
    · rfl
  all_goals exact fun _ => rfl

theorem conclude_task? {t : ExecTask} (ht : s.pool.db.task? t.id = some t)
    (hfree : s.pool.approving t.id = false) (now : ℚ) (new : ExecStatus) (i : ℕ) :
    (s.conclude now j t.id t.status new t.version).pool.db.task? i =
      (s.pool.db.setTask t.id fun t =>
        { t with status := new, version := t.version + 1, finishedAt := some now }).task? i := by
  obtain ⟨db', hfinish, htask⟩ := finish_task? ht now new
  unfold conclude
  rw [if_neg (by rw [hfree]; exact Bool.false_ne_true), hfinish]
  exact htask i

theorem finishers_become {f : Finisher} (h : s.finishers = [f]) (f' : Finisher) :
    (s.become 0 f').finishers = [f'] := by
  rw [become, h]
  rfl

theorem advance_only {f : Finisher} (h : s.finishers = [f]) :
    s.apply lower (.advance env 0) = s.step env 0 f :=
  advance_eq (by rw [h]; rfl)

/-- **A worker left alone** settles its task as the complete call does. -/
theorem settle_in_a_row {t : ExecTask} {new : ExecStatus} (ht : s.pool.db.task? t.id = some t)
    (hrun : t.status = .running) (hnew : dispatchAggregate (s.statuses t.id) = some new)
    (hfin : s.finishers = [.settling t.id]) (hfree : s.pool.approving t.id = false) (i : ℕ) :
    (run (apply lower) s [.advance env 0, .advance env 0, .advance env 0]).pool.db.task? i =
      (settleTask env s.pool.db t).task? i := by
  set s₁ := s.become 0 (.counted t.id new) with hs₁
  set s₂ := s₁.become 0 (.loaded t.id new t.version) with hs₂
  have hfin₁ : s₁.finishers = [.counted t.id new] := finishers_become hfin _
  have hfin₂ : s₂.finishers = [.loaded t.id new t.version] := finishers_become hfin₁ _
  have hcount : s.apply lower (.advance env 0) = s₁ := by
    rw [advance_only hfin, step, hnew]
  have hload : s₁.apply lower (.advance env 0) = s₂ := by
    have hread : s₁.pool.db.task? t.id = some t := ht
    rw [advance_only hfin₁, step, hread]
  rw [run_cons, run_cons, run_cons, run_nil, hcount, hload, advance_only hfin₂, step, ← hrun]
  refine (conclude_task? (s := s₂) ht hfree env.now new i).trans ?_
  -- the complete call decides by the same statuses
  rw [dispatchAggregate_eq] at hnew
  split_ifs at hnew with hlive
  obtain rfl := Option.some.inj hnew
  exact congrArg (ExecDb.task? · i) (if_neg hlive).symm

/-- **A result frame left alone** finalises its task as the complete call does. -/
theorem finalize_in_a_row {t : ExecTask} {new : ExecStatus} (ht : s.pool.db.task? t.id = some t)
    (hrun : t.status = .running) (hnew : finalizeAggregate (s.statuses t.id) = some new)
    (hfin : s.finishers = [.read t]) (hfree : s.pool.approving t.id = false) (i : ℕ) :
    (run (apply lower) s [.advance env 0, .advance env 0]).pool.db.task? i =
      (Pool.maybeFinalizeTask env.now s.pool.db t.id).task? i := by
  have hne : s.statuses t.id ≠ [] := by
    intro hnil
    rw [hnil] at hnew
    cases hnew
  set s₁ := s.become 0 (.tallied t new) with hs₁
  have hfin₁ : s₁.finishers = [.tallied t new] := finishers_become hfin _
  have hnew' := hnew
  rw [finalizeAggregate_eq_dispatchAggregate hne, dispatchAggregate_eq] at hnew'
  split_ifs at hnew' with hlive
  obtain rfl := Option.some.inj hnew'
  have hterm := aggregate_terminal (s.statuses t.id)
  have htally : s.apply lower (.advance env 0) = s₁ := by
    rw [advance_only hfin, step, hnew]
    refine if_neg ?_
    rw [hrun]
    rintro (heq | hc | hc)
    · rw [← heq] at hterm
      cases hterm
    · cases hc
    · cases hc
  rw [run_cons, run_cons, run_nil, htally, advance_only hfin₁, step]
  refine (conclude_task? (s := s₁) ht hfree env.now _ i).trans ?_
  unfold Pool.maybeFinalizeTask
  rw [ht]
  refine congrArg (ExecDb.task? · i) (if_neg ?_).symm
  rintro (hc | hc | hc)
  · exact hc hrun
  · exact hne hc
  · exact hlive hc

theorem sound_idle (hosts : List Host) (rules : ExecRules) :
    (idle (ExecDb.fresh hosts rules)).Sound where
  pool := ⟨fun _ _ => rfl, fun _ hses => by cases hses⟩
  finishers _ hf := by cases hf

theorem trail_isChain (lower : String → String) (id : ℕ) (hosts : List Host) (rules : ExecRules)
    (ops : List RaceOp) :
    (trail lower id (idle (ExecDb.fresh hosts rules)) ops).IsChain Turns :=
  Machine.trail_isChain (fun s : Race => s.pool.db.mark? id)
    (fun _ op h => h.step (steps_apply h lower op))
    (fun _ op h => (steps_apply h lower op).pool.commits.along id) (sound_idle hosts rules) ops

end Race

/-- **Finalisation.** The two aggregations agree on every task with a host and give its aggregate
once no host is live. Along every run the version of a task grows with each change of its status,
and between two consecutive entries into `running` or `awaiting_approval` at most one commit ends
it. -/
theorem finalised_once (lower : String → String) (hosts : List Host) (rules : ExecRules)
    (ops : List RaceOp) (id : ℕ) :
    (∀ statuses : List HostStatus, statuses ≠ [] →
      finalizeAggregate statuses = dispatchAggregate statuses ∧
        ∀ new, dispatchAggregate statuses = some new ↔
          (∀ st ∈ statuses, st ≠ .running ∧ st ≠ .pending) ∧ IsAggregate statuses new) ∧
      ((Race.trail lower id (.idle (.fresh hosts rules)) ops).map Prod.snd).Pairwise (· < ·) ∧
      OncePer (fun m => m.1.opens) (fun m => m.1.terminal)
        (Race.trail lower id (.idle (.fresh hosts rules)) ops) := by
  have hchain := Race.trail_isChain lower id hosts rules ops
  refine ⟨?_, ?_, ?_⟩
  · intro statuses hne
    exact ⟨finalizeAggregate_eq_dispatchAggregate hne, dispatchAggregate_eq_some_iff hne⟩
  · exact pairwise_lt_of_isChain hchain fun m m' h => h.1 ▸ Nat.lt_succ_self m.2
  · exact oncePer_of_isChain hchain fun m m' h => h.2

/-- A task fails on its agent. While every task is sensitive it is retried, and canceled as it
waits for its approval; once the rules allow it again, it is retried and runs. -/
def reopenedHistory : List RaceOp :=
  [.pool (.create busEnv { demoSpec with command := some "uptime" } none (some true)),
    .pool (.act 0 .check), .pool (.act 0 .load), .pool (.act 0 (.claim 1 true)),
    .pool (.act 0 (.hand agentEnv)), .settle 0, .advance busEnv 0,
    .pool (.persistResult 2 1 "failed" (some 1)), .finalize 1, .advance busEnv 0,
    .advance busEnv 0,
    .pool (.configure agentHost.hosts [] [] guardedRules), .pool (.openRetry 7 1),
    .pool (.commit busEnv false 0), .pool (.openCancel 1), .pool (.commit busEnv false 0),
    .pool (.configure agentHost.hosts [] [] agentHost.rules), .pool (.openRetry 7 1),
    .pool (.commit busEnv false 0)]

/-- The task fails once and is canceled once, each in a round of its own. -/
theorem finalised_once_reopened :
    Race.trail id 1 (.idle agentHost) reopenedHistory =
        [(.running, 1), (.failed, 2), (.awaitingApproval, 3), (.canceled, 4), (.running, 5)] ∧
      OncePer (fun m => m.1.opens) (fun m => m.1.terminal)
        (Race.trail id 1 (.idle agentHost) reopenedHistory) := by
  refine ⟨by decide +kernel, ?_⟩
  exact (finalised_once id agentHost.hosts agentHost.rules reopenedHistory 1).2.2

/-- Between its two entries into `running` alone, the task ends twice. -/
theorem second_end_before_running :
    ¬ OncePer (fun m => decide (m.1 = .running)) (fun m => m.1.terminal)
      (Race.trail id 1 (.idle agentHost) reopenedHistory) := by
  intro h
  have htwice := h [] (.running, 1) [(.failed, 2), (.awaitingApproval, 3), (.canceled, 4)]
    (.running, 5) [] (by decide +kernel) rfl rfl (by decide)
  revert htwice
  decide

end LarkPlat
