import LarkPlat.LiveHosts
import LarkPlat.Schedules
import LarkPlat.Terminals

/-!
# Tasks and Their Requests

A task that awaits approval points at a pending request, and the request that a task points at is
an exec request for that task (`Paired`). Most calls change at most one task and one request, which
belong to each other, and leave the task out of `awaiting_approval` (`Settles`): from this one shape
both the pairing and the set of taken `biz_id`s carry over. The other calls add rows: a creation, a
sensitive retry and the requests of sessions and workflow nodes.

## Main results

* `ExecOp.shape`: what every call does to tasks and requests.
* `Paired.apply`: every call keeps the pairing.
* `awaits_iff_pending`: in paired tables a task awaits approval exactly if its request is pending.
-/

namespace LarkPlat

variable {env : ExecEnv} {db db' db'' : ExecDb} {id : ℕ} {tid aid : Option ℕ}

/-! ### The pairing -/

/-- Every task that points at a request points at an exec request for itself, and an awaiting task
points at a pending one. -/
structure Paired (db : ExecDb) : Prop where
  linked : ∀ id t aid, db.task? id = some t → t.approvalId = some aid →
    ∃ a, db.approval? aid = some a ∧ a.bizType = .exec ∧ a.bizId = id
  awaits : ∀ id t, db.task? id = some t → t.status = .awaitingApproval →
    ∃ aid a, t.approvalId = some aid ∧ db.approval? aid = some a ∧ a.status = .pending

/-- **Paired tables.** A task awaits approval exactly if the request it points at is pending. -/
theorem awaits_iff_pending (hk : Kept db) (hp : Paired db) {t : ExecTask}
    (ht : db.task? id = some t) :
    t.status = .awaitingApproval ↔
      ∃ a ∈ t.approvalId.bind db.approval?, a.status = .pending := by
  constructor
  · intro hst
    obtain ⟨aid, a, hlink, ha, hpend⟩ := hp.awaits id t ht hst
    exact ⟨a, by rw [hlink]; exact ha, hpend⟩
  · rintro ⟨a, ha, hpend⟩
    obtain ⟨aid, hlink, ha⟩ := Option.bind_eq_some_iff.mp ha
    obtain ⟨a', ha', htype, rfl⟩ := hp.linked id t aid ht hlink
    obtain rfl := Option.some.inj (ha.symm.trans ha')
    obtain ⟨t', ht', hst, -⟩ := hk.awaits aid a ha htype hpend
    obtain rfl := Option.some.inj (ht.symm.trans ht')
    exact hst

/-! ### Calls that settle -/

/-- The change touches at most one task, which does not await approval afterwards, and at most one
request, which belongs to that task if it belongs to a task; flags, links and `biz_id`s stay. -/
structure Settles (tid aid : Option ℕ) (db db' : ExecDb) : Prop extends Touches tid aid db db' where
  self : ∀ id, tid = some id → ∃ t t', db.task? id = some t ∧ db'.task? id = some t' ∧
    t'.approvalId = t.approvalId ∧ t'.sensitiveFlag = t.sensitiveFlag ∧
      t'.status ≠ .awaitingApproval
  own : ∀ i a, aid = some i → db.approval? i = some a → a.bizType = .exec → tid = some a.bizId
  bizIds : db'.bizIds = db.bizIds

theorem settles_congr (ht : db'.tasks = db.tasks) (ha : db'.approvals = db.approvals)
    (hnt : db'.nextTask = db.nextTask) (hna : db'.nextApproval = db.nextApproval) :
    Settles none none db db' where
  toTouches := touches_congr ht ha hnt hna
  self _ hc := by cases hc
  own _ _ hc := by cases hc
  bizIds := by rw [ExecDb.bizIds, ha, ExecDb.bizIds]

theorem Settles.congr (h : Settles tid aid db db') (ht : db''.tasks = db'.tasks)
    (ha : db''.approvals = db'.approvals) (hnt : db''.nextTask = db'.nextTask)
    (hna : db''.nextApproval = db'.nextApproval) : Settles tid aid db db'' where
  toTouches := h.toTouches.trans (touches_congr ht ha hnt hna)
  self i hi := by
    obtain ⟨t, t', ht₁, ht', hkeeps⟩ := h.self i hi
    exact ⟨t, t', ht₁, by rw [ExecDb.task?, ht]; exact ht', hkeeps⟩
  own := h.own
  bizIds := by
    rw [ExecDb.bizIds, ha]
    exact h.bizIds

theorem Settles.task_keeps (h : Settles tid aid db db') {t' : ExecTask}
    (ht' : db'.task? id = some t') : ∃ t, db.task? id = some t ∧
      t'.approvalId = t.approvalId ∧ t'.sensitiveFlag = t.sensitiveFlag ∧
        (t'.status = .awaitingApproval → t' = t ∧ tid ≠ some id) := by
  by_cases hid : tid = some id
  · obtain ⟨t, t₁, ht, ht₁, hlink, hflag, hst⟩ := h.self id hid
    obtain rfl := Option.some.inj (ht'.symm.trans ht₁)
    exact ⟨t, ht, hlink, hflag, fun hc => absurd hc hst⟩
  · rw [h.task id hid] at ht'
    exact ⟨t', ht', rfl, rfl, fun _ => ⟨rfl, hid⟩⟩

/-- **A settled change** keeps the pairing. -/
theorem Settles.paired (h : Settles tid aid db db') (hp : Paired db) : Paired db' where
  linked i t' b ht' hlink' := by
    obtain ⟨t, ht, hlink, -⟩ := h.task_keeps ht'
    obtain ⟨a, ha, htype, hbiz⟩ := hp.linked i t b ht (hlink ▸ hlink')
    have hbound := h.bound b
    rw [ha] at hbound
    obtain ⟨a', ha', hbound⟩ := Option.map_eq_some_iff.mp hbound
    obtain ⟨htype', hbiz'⟩ := Prod.mk.inj hbound
    exact ⟨a', ha', htype'.trans htype, hbiz'.trans hbiz⟩
  awaits i t' ht' hst' := by
    obtain ⟨t, ht, -, -, hsame⟩ := h.task_keeps ht'
    obtain ⟨rfl, hid⟩ := hsame hst'
    obtain ⟨b, a, hlink, ha, hpend⟩ := hp.awaits i t' ht hst'
    refine ⟨b, a, hlink, ?_, hpend⟩
    rw [h.approval b ?_]
    · exact ha
    · intro hb
      obtain ⟨a₁, ha₁, htype, hbiz⟩ := hp.linked i t' b ht hlink
      exact hid (hbiz ▸ h.own b a₁ hb ha₁ htype)

theorem settles_setTask {f : ExecTask → ExecTask} {t : ExecTask} (ht : db.task? id = some t)
    (hf : ∀ t, (f t).id = t.id)
    (hkeep : (f t).approvalId = t.approvalId ∧ (f t).sensitiveFlag = t.sensitiveFlag)
    (hst : (f t).status ≠ .awaitingApproval) : Settles (some id) none db (db.setTask id f) where
  toTouches := touches_setTask hf
  self i hi := by
    obtain rfl := Option.some.inj hi
    exact ⟨t, f t, ht, task?_setTask_self hf ht, hkeep.1, hkeep.2, hst⟩
  own _ _ hc := by cases hc
  bizIds := rfl

theorem Settles.touchTask {f : ExecTask → ExecTask} (h : Settles (some id) aid db db')
    (hf : ∀ t, (f t).id = t.id ∧ (f t).approvalId = t.approvalId ∧
      (f t).sensitiveFlag = t.sensitiveFlag ∧ (f t).status = t.status) :
    Settles (some id) aid db (db'.setTask id f) where
  toTouches := h.toTouches.trans (touches_setTask fun t => (hf t).1)
  self i hi := by
    obtain rfl := Option.some.inj hi
    obtain ⟨t, t', ht, ht', hlink, hflag, hst⟩ := h.self id rfl
    refine ⟨t, f t', ht, task?_setTask_self (fun t => (hf t).1) ht', ?_⟩
    obtain ⟨-, hlink', hflag', hst'⟩ := hf t'
    rw [hlink', hflag', hst']
    exact ⟨hlink, hflag, hst⟩
  own := h.own
  bizIds := h.bizIds

theorem settles_casTask {old new : ExecStatus} {version : ℕ}
    (h : db.casTask id old new version = some db') (hnew : new ≠ .awaitingApproval) :
    Settles (some id) none db db' := by
  obtain ⟨t, ht, -, rfl⟩ := casTask_eq_some h
  refine settles_setTask ht ?_ ⟨rfl, rfl⟩ hnew
  exact fun _ => rfl

theorem Settles.closeOrphan {task : ExecTask} (h : Settles (some task.id) none db db')
    (hp : Paired db) (ht : db.task? task.id = some task) :
    Settles (some task.id) task.approvalId db (closeOrphanApproval db' task) := by
  obtain ⟨htouch, htasks, -⟩ := closeOrphanApproval_touches db' task (some task.id)
  refine ⟨(h.toTouches.with_request _).trans htouch, ?_, ?_, ?_⟩
  · intro i hi
    obtain ⟨t, t', ht, ht', hkeeps⟩ := h.self i hi
    exact ⟨t, t', ht, by rw [ExecDb.task?, htasks]; exact ht', hkeeps⟩
  · intro i a hi ha _
    obtain ⟨a', ha', -, hbiz⟩ := hp.linked task.id task i ht hi
    obtain rfl := Option.some.inj (ha.symm.trans ha')
    rw [hbiz]
  · rw [bizIds_closeOrphanApproval]
    exact h.bizIds

theorem bizIds_decide {a : ApprovalRequest} {new : ApprovalStatus} {approver : Option ℕ}
    (h : decide? db a new approver = .ok db') : db'.bizIds = db.bizIds := by
  unfold decide? at h
  rcases hc : db.casApproval a.id .pending new a.version with _ | db₁
  · rw [hc] at h
    cases h
  rw [hc] at h
  obtain rfl := Except.ok.inj h
  rw [bizIds_setApproval ?_ a.id, bizIds_casApproval hc]
  exact fun _ => rfl

theorem settles_decide {a : ApprovalRequest} {new : ApprovalStatus} {approver : Option ℕ}
    (h : decide? db a new approver = .ok db') (ha : db.approval? a.id = some a)
    (htype : a.bizType ≠ .exec) : Settles none (some a.id) db db' := by
  refine ⟨(decide?_touches none h).1, (fun _ hc => by cases hc), ?_, bizIds_decide h⟩
  intro i b hi hb hexec
  obtain rfl := Option.some.inj hi
  obtain rfl := Option.some.inj (ha.symm.trans hb)
  exact absurd hexec htype

/-- A decision on the request of a task together with a change of that task. -/
theorem Settles.decide {a : ApprovalRequest} {new : ApprovalStatus} {approver : Option ℕ}
    {db₁ : ExecDb} (h : decide? db a new approver = .ok db₁) (ha : db.approval? a.id = some a)
    (hrest : Settles (some a.bizId) none db₁ db') :
    Settles (some a.bizId) (some a.id) db db' := by
  have htouch := (decide?_touches (some a.bizId) h).1
  refine ⟨htouch.trans (hrest.toTouches.with_request _), ?_, ?_, ?_⟩
  · intro i hi
    obtain ⟨t, t', ht, ht', hkeeps⟩ := hrest.self i hi
    obtain ⟨approvals, rfl⟩ := decide?_eq_ok h
    exact ⟨t, t', ht, ht', hkeeps⟩
  · intro i b hi hb _
    obtain rfl := Option.some.inj hi
    obtain rfl := Option.some.inj (ha.symm.trans hb)
    rfl
  · rw [hrest.bizIds, bizIds_decide h]

/-! ### The calls -/

theorem settles_approveExec (h : approveExec env db id = .ok db') :
    Settles (some id) none db db' := by
  rw [approveExec] at h
  rcases ht : db.task? id with _ | task
  · simp [ht] at h
  rw [ht] at h
  obtain rfl : task.id = id := Table.key_of_find ht
  rcases hc : db.casTask task.id .awaitingApproval .running task.version with _ | db₁
  · simp [hc] at h
  simp only [hc, Except.ok.injEq] at h
  have hset := (settles_casTask hc (by decide)).touchTask (f := fun t => { t with
    startedAt := some env.now }) fun _ => ⟨rfl, rfl, rfl, rfl⟩
  subst h
  split_ifs
  · exact hset.congr rfl rfl rfl rfl
  · exact hset

theorem settles_cancelAwaiting {t : ExecTask} (env : ExecEnv) (ht : db.task? id = some t)
    (hst : t.status = .awaitingApproval) :
    Settles (some id) none db (cancelAwaiting env db id) := by
  obtain rfl : t.id = id := Table.key_of_find ht
  rcases hc : db.casTask t.id .awaitingApproval .canceled t.version with _ | db₁
  · rw [ExecDb.casTask, ht] at hc
    simp [hst] at hc
  unfold cancelAwaiting
  rw [ht]
  dsimp only
  rw [if_pos hst, hc]
  exact (settles_casTask hc (by decide)).touchTask fun _ => ⟨rfl, rfl, rfl, rfl⟩

theorem requirePending_self {approvalId : ℕ} {a : ApprovalRequest}
    (h : requirePending db approvalId = .ok a) :
    db.approval? a.id = some a ∧ a.status = .pending := by
  obtain ⟨hfind, hpend⟩ := requirePending_eq_ok h
  rw [show a.id = approvalId from Table.key_of_find hfind]
  exact ⟨hfind, hpend⟩

/-- `approve`. -/
theorem settles_approve {userId approvalId : ℕ}
    (h : approve env db userId approvalId = .ok db') : ∃ tid aid, Settles tid aid db db' := by
  rw [approve] at h
  obtain ⟨a, hreq, h⟩ := bind_eq_ok.mp h
  obtain ⟨db₁, hd, h⟩ := bind_eq_ok.mp h
  obtain ⟨hfind, -⟩ := requirePending_self hreq
  by_cases hexec : a.bizType = .exec
  · rw [if_pos hexec] at h
    exact ⟨_, _, (settles_approveExec h).decide hd hfind⟩
  · rw [if_neg hexec] at h
    obtain rfl := Except.ok.inj h
    exact ⟨_, _, settles_decide hd hfind hexec⟩

/-- `reject` and `cancel`, after their decision: the task of the request awaits it. -/
theorem settles_decline {approvalId : ℕ} {a : ApprovalRequest} {new : ApprovalStatus}
    {approver : Option ℕ} {db₁ : ExecDb} (env : ExecEnv) (hk : Kept db)
    (hreq : requirePending db approvalId = .ok a) (hd : decide? db a new approver = .ok db₁) :
    ∃ tid aid, Settles tid aid db
      (if a.bizType = .exec then cancelAwaiting env db₁ a.bizId else db₁) := by
  obtain ⟨hfind, hpend⟩ := requirePending_self hreq
  by_cases hexec : a.bizType = .exec
  · obtain ⟨t, ht, hst, -⟩ := hk.awaits a.id a hfind hexec hpend
    have ht₁ : db₁.task? a.bizId = some t := by
      obtain ⟨approvals, rfl⟩ := decide?_eq_ok hd
      exact ht
    rw [if_pos hexec]
    exact ⟨_, _, (settles_cancelAwaiting env ht₁ hst).decide hd hfind⟩
  · rw [if_neg hexec]
    exact ⟨_, _, settles_decide hd hfind hexec⟩

theorem settles_reject {userId approvalId : ℕ} (hk : Kept db)
    (h : reject env db userId approvalId = .ok db') : ∃ tid aid, Settles tid aid db db' := by
  rw [reject] at h
  obtain ⟨a, hreq, h⟩ := bind_eq_ok.mp h
  obtain ⟨db₁, hd, h⟩ := bind_eq_ok.mp h
  rw [← apply_ite pure] at h
  obtain rfl := Except.ok.inj h
  exact settles_decline env hk hreq hd

theorem settles_cancelApproval {userId approvalId : ℕ} {isAdmin : Bool} (hk : Kept db)
    (h : cancelApproval env db userId isAdmin approvalId = .ok db') :
    ∃ tid aid, Settles tid aid db db' := by
  rw [cancelApproval] at h
  obtain ⟨a, hreq, h⟩ := bind_eq_ok.mp h
  by_cases hperm : a.requesterId ≠ userId ∧ ¬ isAdmin = true
  · rw [if_pos hperm] at h
    exact absurd h (throw_bind_ne_ok _ _ _)
  rw [if_neg hperm] at h
  obtain ⟨db₁, hd, h⟩ := bind_eq_ok.mp h
  rw [← apply_ite pure] at h
  obtain rfl := Except.ok.inj h
  exact settles_decline env hk hreq hd

/-- `cancel_exec_task_record`. -/
theorem settles_cancelExecTaskRecord {task : ExecTask} (hp : Paired db)
    (ht : db.task? task.id = some task) (h : cancelExecTaskRecord env db task = some db') :
    Settles (some task.id) task.approvalId db db' := by
  unfold cancelExecTaskRecord at h
  split_ifs at h
  rcases hc : db.casTask task.id task.status .canceled task.version with _ | db₁
  · rw [hc] at h
    cases h
  rw [hc] at h
  obtain rfl := Option.some.inj h
  have hset := (settles_casTask hc (by decide)).touchTask (f := fun t => { t with
    finishedAt := some env.now }) fun _ => ⟨rfl, rfl, rfl, rfl⟩
  exact (hset.closeOrphan hp ht).congr rfl rfl rfl rfl

/-- `scan_timeouts` at one task. -/
theorem settles_timeout {task : ExecTask} {rows : List ℕ}
    (h : closeTask .timeout env db task rows = some db') :
    Settles (some task.id) none db db' := by
  unfold closeTask at h
  rcases hc : db.casTask task.id task.status Closing.timeout.task task.version with _ | db₁
  · rw [hc] at h
    cases h
  rw [hc] at h
  obtain rfl := Option.some.inj h
  have hset := (settles_casTask hc (by decide)).touchTask (f := fun t => { t with
    finishedAt := some env.now }) fun _ => ⟨rfl, rfl, rfl, rfl⟩
  exact hset.congr rfl rfl rfl rfl

theorem settles_retryTask {task : ExecTask} {rows : List ℕ} (hp : Paired db)
    (ht : db.task? task.id = some task) (h : retryTask env db task rows = some db') :
    Settles (some task.id) task.approvalId db db' := by
  unfold retryTask at h
  rcases hc : db.casTask task.id task.status .running task.version with _ | db₁
  · rw [hc] at h
    cases h
  rw [hc] at h
  obtain rfl := Option.some.inj h
  have hset := (settles_casTask hc (by decide)).touchTask (f := fun t => { t with
    startedAt := some env.now, finishedAt := none }) fun _ => ⟨rfl, rfl, rfl, rfl⟩
  exact (hset.closeOrphan hp ht).congr rfl rfl rfl rfl

theorem aggregate_ne_awaiting (statuses : List HostStatus) :
    aggregate statuses ≠ .awaitingApproval := by
  intro h
  have hterm := aggregate_terminal statuses
  rw [h] at hterm
  cases hterm

/-- `exec_dispatch`. -/
theorem settles_dispatch (lower : String → String) (env : DispatchEnv) (db : ExecDb) (id : ℕ) :
    ∃ tid, Settles tid none db (execDispatch lower env db id).1 := by
  have hsame : ∃ tid, Settles tid none db db := ⟨none, settles_congr rfl rfl rfl rfl⟩
  rw [execDispatch]
  rcases ht : db.task? id with _ | task
  · exact hsame
  obtain rfl : task.id = id := Table.key_of_find ht
  dsimp only
  split_ifs
  · exact hsame
  · obtain ⟨taskHosts, heq⟩ := foldl_setTaskHost_eq
      (startedRows env (db.hostsOfTask task.id))
      (fun th r => finishRow env.now r (handOver lower env db task (resolveContent db task)
        (db.hostsOfTask task.id).length th).2) db
    rw [heq]
    unfold settleTask
    dsimp only
    split_ifs
    · exact ⟨none, settles_congr rfl rfl rfl rfl⟩
    · exact ⟨none, settles_congr rfl rfl rfl rfl⟩
    · have hset := @settles_setTask db task.id (fun t => { t with
          status := aggregate ((({ db with taskHosts := taskHosts } : ExecDb).hostsOfTask
            task.id).map (·.status))
          version := t.version + 1
          finishedAt := some env.now }) task ht (fun _ => rfl) ⟨rfl, rfl⟩ (aggregate_ne_awaiting _)
      exact ⟨_, hset.congr rfl rfl rfl rfl⟩
  · exact hsame

/-- `_maybe_finalize_task`. -/
theorem settles_finalize (now : ℚ) (db : ExecDb) (id : ℕ) :
    ∃ tid, Settles tid none db (Pool.maybeFinalizeTask now db id) := by
  unfold Pool.maybeFinalizeTask
  rcases ht : db.task? id with _ | task
  · exact ⟨none, settles_congr rfl rfl rfl rfl⟩
  dsimp only
  split_ifs
  · exact ⟨none, settles_congr rfl rfl rfl rfl⟩
  · refine ⟨_, settles_setTask ht ?_ ⟨rfl, rfl⟩ (aggregate_ne_awaiting _)⟩
    exact fun _ => rfl

/-! ### Calls that add rows -/

/-- The new task of a creation: its flag and its link, and its request if it awaits one. -/
theorem created_row {lower : String → String} {spec : TaskSpec} {policy : Option String}
    {c : Created} (hk : Kept db)
    (h : createExecTaskRecord lower env db spec policy = .ok (db', c)) :
    ∃ t, db'.task? db.nextTask = some t ∧ t.sensitiveFlag = c.approveRequired ∧
      t.approvalId = c.approvalId ∧ (t.status = .awaitingApproval →
        ∃ a, db'.approval? db.nextApproval = some a ∧ a.status = .pending) := by
  rw [createExecTaskRecord] at h
  obtain ⟨-, -, h⟩ := bind_eq_ok.mp h
  obtain ⟨body, -, h⟩ := bind_eq_ok.mp h
  by_cases hn : spec.targetHostIds.Nodup
  swap
  · simp [hn] at h
  simp only [hn, not_true_eq_false, if_false] at h
  split_ifs at h with hsens
  · have hins := (@insertTask_call db [] env spec true hk).1
    have hnone : (insertTask env db spec true).approval? db.nextApproval = none :=
      hk.approval?_none le_rfl
    rw [createSensitive] at h
    dsimp only at h
    split_ifs at h
    set request := newApproval (insertTask env db spec true) spec db.nextTask
      (detectSensitive lower db.rules spec.command body spec.targetHostIds.dedup.length).2
      with hrequest
    set db₃ := ({ insertTask env db spec true with
      approvals := (insertTask env db spec true).approvals ++ [request]
      nextApproval := (insertTask env db spec true).nextApproval + 1 } : ExecDb).setTask db.nextTask
        fun t => { t with
          approvalId := some request.id, status := .awaitingApproval, version := 1 } with hdb₃
    have ht₃ : db₃.task? db.nextTask = some { newTask db spec true with
        approvalId := some request.id, status := .awaitingApproval, version := 1 } := by
      refine task?_setTask_self ?_ hins
      exact fun _ => rfl
    have ha₃ : db₃.approval? db.nextApproval = some request :=
      Table.find_concat_self (r := request) hnone
    rcases policy with _ | ref
    · obtain ⟨rfl, rfl⟩ := Prod.mk.inj (Except.ok.inj h)
      exact ⟨_, ht₃, rfl, rfl, fun _ => ⟨_, ha₃, rfl⟩⟩
    · dsimp only at h
      split at h
      · cases h
      · rename_i db₅ hex
        obtain ⟨rfl, rfl⟩ := Prod.mk.inj (Except.ok.inj h)
        obtain ⟨t, t', ht, ht', hlink, hflag, hst⟩ := (settles_approveExec hex).self _ rfl
        obtain rfl := Option.some.inj (ht₃.symm.trans ht)
        exact ⟨t', ht', hflag, hlink, fun hc => absurd hc hst⟩
  · obtain ⟨rfl, rfl⟩ := Prod.mk.inj (Except.ok.inj h)
    have hins := (@insertTask_call db [] env spec false hk).1
    refine ⟨{ newTask db spec false with
      status := .running, version := 1, startedAt := some env.now }, ?_, rfl, rfl, ?_⟩
    · refine task?_setTask_self ?_ hins
      exact fun _ => rfl
    · exact fun hc => by cases hc

/-- A sensitive retry leaves the other tasks, and the other requests but for the one of the task. -/
theorem retrySensitive_frame {task : ExecTask} {userId : ℕ} {reason : String}
    (h : retrySensitive db task userId reason = some db') :
    (∀ i, i ≠ task.id → db'.task? i = db.task? i) ∧
      (∀ b a, b < db.nextApproval → db.approval? b = some a →
        ∃ a', db'.approval? b = some a' ∧ a'.bizType = a.bizType ∧ a'.bizId = a.bizId) ∧
      (∀ b, b < db.nextApproval → task.approvalId ≠ some b →
        db'.approval? b = db.approval? b) ∧
      db'.nextApproval = db.nextApproval + 1 := by
  unfold retrySensitive at h
  rcases hcas : db.casTask task.id task.status .awaitingApproval task.version with _ | db₁
  · rw [hcas] at h
    cases h
  rw [hcas] at h
  dsimp only at h
  split_ifs at h
  obtain rfl := Option.some.inj h
  have htouch := (casTask_touches task.approvalId hcas).1.trans
    (closeOrphanApproval_touches db₁ task (some task.id)).1
  have hnew : ∀ b, b < db.nextApproval →
      ((closeOrphanApproval db₁ task).addRequest (retryApproval (closeOrphanApproval db₁ task)
        task.id userId reason)).approval? b = (closeOrphanApproval db₁ task).approval? b := by
    intro b hlt
    rw [← htouch.nextApproval] at hlt
    exact Table.find_concat_ne (Nat.ne_of_lt hlt)
  refine ⟨?_, ?_, ?_, congrArg (· + 1) htouch.nextApproval⟩
  · intro i hi
    rw [← htouch.task i fun hc => hi (Option.some.inj hc).symm]
    refine task?_setTask_ne ?_ hi
    exact fun _ => rfl
  · intro b a hlt ha
    have hbound := htouch.bound b
    rw [ha] at hbound
    obtain ⟨a', ha', hkeep⟩ := Option.map_eq_some_iff.mp hbound
    obtain ⟨htype, hbiz⟩ := Prod.mk.inj hkeep
    exact ⟨a', (hnew b hlt).trans ha', htype, hbiz⟩
  · intro b hlt hne
    exact (hnew b hlt).trans (htouch.approval b hne)

theorem Paired.create {lower : String → String} {spec : TaskSpec} {policy : Option String}
    {c : Created} (hp : Paired db) (hk : Kept db)
    (h : createExecTaskRecord lower env db spec policy = .ok (db', c)) : Paired db' := by
  have hcreates := creates_of_ok hk h
  obtain ⟨t₀, ht₀, -, hlink₀, hawait₀⟩ := created_row hk h
  have hsplit : ∀ i t, db'.task? i = some t →
      (db.task? i = some t) ∨ i = db.nextTask ∧ t = t₀ := by
    intro i t ht
    have hlt := hcreates.kept.task_lt i (by rw [ht]; rfl)
    rw [hcreates.nextTask] at hlt
    rcases Nat.lt_succ_iff_lt_or_eq.mp hlt with hlt | rfl
    · exact Or.inl ((hcreates.grown.task i hlt).symm.trans ht)
    · exact Or.inr ⟨rfl, Option.some.inj (ht.symm.trans ht₀)⟩
  have hold : ∀ b a, db.approval? b = some a → db'.approval? b = some a := by
    intro b a ha
    rw [hcreates.grown.approval b (hk.approval_lt b (by rw [ha]; rfl)), ha]
  refine ⟨fun i t b ht hlink => ?_, fun i t ht hst => ?_⟩
  · rcases hsplit i t ht with ht | ⟨rfl, rfl⟩
    · obtain ⟨a, ha, hbound⟩ := hp.linked i t b ht hlink
      exact ⟨a, hold b a ha, hbound⟩
    · exact hcreates.bound b (hlink₀ ▸ hlink)
  · rcases hsplit i t ht with ht | ⟨rfl, rfl⟩
    · obtain ⟨b, a, hlink, ha, hpend⟩ := hp.awaits i t ht hst
      exact ⟨b, a, hlink, hold b a ha, hpend⟩
    · obtain ⟨a, ha, hpend⟩ := hawait₀ hst
      refine ⟨db.nextApproval, a, ?_, ha, hpend⟩
      have hreq := hcreates.request
      split_ifs at hreq with hneeds
      · exact hlink₀.trans hreq
      · exfalso
        obtain ⟨t', ht', hst'⟩ := hcreates.task
        obtain rfl := Option.some.inj (ht₀.symm.trans ht')
        rw [hst] at hst'
        have hstatus := created_status h
        rw [← hst', if_neg fun hc => hneeds hc.1] at hstatus
        cases hstatus

theorem Paired.addRequest {a : ApprovalRequest} (hp : Paired db) (hk : Kept db)
    (hid : a.id = db.nextApproval) : Paired (db.addRequest a) := by
  have hold : ∀ b r, db.approval? b = some r → (db.addRequest a).approval? b = some r := by
    intro b r hr
    have hlt := hk.approval_lt b (by rw [hr]; rfl)
    rw [← hr]
    exact Table.find_concat_ne (by omega)
  refine ⟨fun i t b ht hlink => ?_, fun i t ht hst => ?_⟩
  · obtain ⟨r, hr, hbound⟩ := hp.linked i t b ht hlink
    exact ⟨r, hold b r hr, hbound⟩
  · obtain ⟨b, r, hlink, hr, hpend⟩ := hp.awaits i t ht hst
    exact ⟨b, r, hlink, hold b r hr, hpend⟩

theorem Paired.retrySensitive {task : ExecTask} {userId : ℕ} {reason : String} (hp : Paired db)
    (hk : Kept db) (ht : db.task? task.id = some task)
    (h : retrySensitive db task userId reason = some db') : Paired db' := by
  have hspec := retrySensitive_eq userId reason hk ht
  split_ifs at hspec with hbiz
  · rw [hspec] at h
    cases h
  obtain ⟨db₁, hok, -, -, htask, hreq⟩ := hspec
  obtain rfl := Option.some.inj (hok.symm.trans h)
  obtain ⟨hothers, hbound, huntouched, -⟩ := retrySensitive_frame h
  refine ⟨fun i t b hti hlink => ?_, fun i t hti hst => ?_⟩
  · by_cases hi : i = task.id
    · subst hi
      obtain rfl := Option.some.inj (htask.symm.trans hti)
      obtain rfl := Option.some.inj hlink
      exact ⟨_, hreq, rfl, rfl⟩
    · rw [hothers i hi] at hti
      obtain ⟨a, ha, htype, hbizId⟩ := hp.linked i t b hti hlink
      have hlt := hk.approval_lt b (by rw [ha]; rfl)
      obtain ⟨a', ha', hkeep⟩ := hbound b a hlt ha
      exact ⟨a', ha', hkeep.1.trans htype, hkeep.2.trans hbizId⟩
  · by_cases hi : i = task.id
    · subst hi
      obtain rfl := Option.some.inj (htask.symm.trans hti)
      exact ⟨_, _, rfl, hreq, rfl⟩
    · rw [hothers i hi] at hti
      obtain ⟨b, a, hlink, ha, hpend⟩ := hp.awaits i t hti hst
      have hlt := hk.approval_lt b (by rw [ha]; rfl)
      refine ⟨b, a, hlink, ?_, hpend⟩
      rw [huntouched b hlt ?_]
      · exact ha
      · intro hb
        obtain ⟨a₁, ha₁, -, hbiz₁⟩ := hp.linked i t b hti hlink
        obtain ⟨a₂, ha₂, -, hbiz₂⟩ := hp.linked task.id task b ht hb
        obtain rfl := Option.some.inj (ha₁.symm.trans ha₂)
        exact hi (hbiz₁.symm.trans hbiz₂)

/-! ### The shape of a call -/

/-- The call inserts the request of a session or of a workflow node. -/
def ExecOp.opens : ExecOp → Bool
  | .openTerminal _ _ | .openWorkflow _ _ => true
  | _ => false

/-- The call decides a request. -/
def ExecOp.decides : ExecOp → Bool
  | .approve _ _ _ | .reject _ _ _ | .cancelApproval _ _ _ _ => true
  | _ => false

/-- What a call does to tasks and requests. A call that decides nothing closes requests of tasks
only. -/
inductive ExecOp.Shape (db : ExecDb) (op : ExecOp) : ExecDb → Prop
  | settles {db' : ExecDb} {tid aid : Option ℕ} (h : Settles tid aid db db')
      (hkind : op.decides = true ∨
        ∀ i a, aid = some i → db.approval? i = some a → a.bizType = .exec) : Shape db op db'
  | created {db' : ExecDb} {lower : String → String} {env : ExecEnv} {spec : TaskSpec}
      {policy : Option String} {c : Created} (hop : op = .create lower env spec policy)
      (h : createExecTaskRecord lower env db spec policy = .ok (db', c)) : Shape db op db'
  | retried {db' : ExecDb} {lower : String → String} {env : ExecEnv} {userId : ℕ}
      {task : ExecTask} (hop : op = .retryTask lower env userId task.id)
      (ht : db.task? task.id = some task) (hst : task.status.retryable = true)
      (hsens : (retryVerdict lower db task).1 = true)
      (h : retrySensitive db task userId (retryVerdict lower db task).2 = some db') :
      Shape db op db'
  | asked {a : ApprovalRequest} (hop : op.opens = true) (hid : a.id = db.nextApproval)
      (htype : a.bizType = .workflow ∨ ∃ sessionId userId, op = .openTerminal sessionId userId) :
      Shape db op (db.addRequest a)

theorem ExecOp.shape_same (op : ExecOp) : op.Shape db db :=
  .settles (settles_congr rfl rfl rfl rfl) (Or.inr fun _ _ hc => by cases hc)

theorem Paired.exec_of_link (hp : Paired db) {task : ExecTask} (ht : db.task? task.id = some task) :
    ∀ i a, task.approvalId = some i → db.approval? i = some a → a.bizType = .exec := by
  intro i a hlink ha
  obtain ⟨a', ha', htype, -⟩ := hp.linked task.id task i ht hlink
  obtain rfl := Option.some.inj (ha.symm.trans ha')
  exact htype

/-- **The shape of a call.** -/
theorem ExecOp.shape (hk : Kept db) (hp : Paired db) (op : ExecOp) :
    op.Shape db (op.apply db) := by
  unfold ExecOp.apply
  rcases hr : op.result db with _ | db'
  · exact op.shape_same
  rw [Option.getD_some]
  cases op with
  | create lower env spec policy =>
      obtain ⟨⟨db₁, c⟩, hc, rfl⟩ := Option.map_eq_some_iff.mp hr
      exact .created rfl (ok_of_toOption hc)
  | dispatch lower env taskId =>
      obtain rfl := Option.some.inj hr
      obtain ⟨tid, h⟩ := settles_dispatch lower env db taskId
      exact .settles h (Or.inr fun _ _ hc => by cases hc)
  | approve env userId approvalId =>
      obtain ⟨tid, aid, h⟩ := settles_approve (ok_of_toOption hr)
      exact .settles h (Or.inl rfl)
  | reject env userId approvalId =>
      obtain ⟨tid, aid, h⟩ := settles_reject hk (ok_of_toOption hr)
      exact .settles h (Or.inl rfl)
  | cancelApproval env userId isAdmin approvalId =>
      obtain ⟨tid, aid, h⟩ := settles_cancelApproval hk (ok_of_toOption hr)
      exact .settles h (Or.inl rfl)
  | stopTask env taskId =>
      obtain ⟨task, ht, hc⟩ := Option.bind_eq_some_iff.mp hr
      obtain rfl : task.id = taskId := Table.key_of_find ht
      split_ifs at hc
      exact .settles (settles_cancelExecTaskRecord hp ht hc) (Or.inr (hp.exec_of_link ht))
  | cancelTask env taskId =>
      obtain ⟨task, ht, hc⟩ := Option.bind_eq_some_iff.mp hr
      obtain rfl : task.id = taskId := Table.key_of_find ht
      exact .settles (settles_cancelExecTaskRecord hp ht hc) (Or.inr (hp.exec_of_link ht))
  | scanTimeouts env createdAt taskId =>
      obtain ⟨task, ht, hc⟩ := Option.bind_eq_some_iff.mp hr
      split_ifs at hc
      exact .settles (settles_timeout hc) (Or.inr fun _ _ hc => by cases hc)
  | retryTask lower env userId taskId =>
      obtain ⟨task, ht, hc⟩ := Option.bind_eq_some_iff.mp hr
      obtain rfl : task.id = taskId := Table.key_of_find ht
      dsimp only at hc
      split_ifs at hc with hst hsens
      · exact .retried rfl ht hst hsens hc
      · exact .settles (settles_retryTask hp ht hc) (Or.inr (hp.exec_of_link ht))
  | persistResult now row status exitCode =>
      obtain rfl := Option.some.inj hr
      exact .settles (settles_congr rfl rfl rfl rfl) (Or.inr fun _ _ hc => by cases hc)
  | maybeFinalizeTask now taskId =>
      obtain rfl := Option.some.inj hr
      obtain ⟨tid, h⟩ := settles_finalize now db taskId
      exact .settles h (Or.inr fun _ _ hc => by cases hc)
  | openTerminal sessionId userId =>
      dsimp only [ExecOp.result] at hr
      split_ifs at hr
      obtain rfl := Option.some.inj hr
      exact .asked rfl rfl (Or.inr ⟨_, _, rfl⟩)
  | openWorkflow run node =>
      dsimp only [ExecOp.result] at hr
      split_ifs at hr
      obtain rfl := Option.some.inj hr
      exact .asked rfl rfl (Or.inl rfl)
  | configure hosts scripts scriptVersions rules =>
      obtain rfl := Option.some.inj hr
      exact .settles (settles_congr rfl rfl rfl rfl) (Or.inr fun _ _ hc => by cases hc)

/-- **Every call** keeps the pairing. -/
theorem Paired.apply (hp : Paired db) (hk : Kept db) (op : ExecOp) : Paired (op.apply db) := by
  have hshape := op.shape hk hp
  generalize op.apply db = db' at hshape ⊢
  cases hshape with
  | settles h _ => exact h.paired hp
  | created _ h => exact hp.create hk h
  | retried _ ht _ _ h => exact hp.retrySensitive hk ht h
  | asked _ hid _ => exact hp.addRequest hk hid

theorem paired_fresh (hosts : List Host) (rules : ExecRules) :
    Paired (ExecDb.fresh hosts rules) where
  linked _ _ _ ht := by cases ht
  awaits _ _ ht := by cases ht

end LarkPlat
