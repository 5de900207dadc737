import LarkPlat.ExecProtocol
import LarkPlat.SensitiveGate

/-!
# Effects of the Service Calls

What the calls of the execution and approval services do to the tables, as far as the dispatch
protocol sees it: which tasks they may start, which messages they send, and that they leave the
host rows and the identifiers as they are. `Effect started sent` says that a change starts no
task outside `started` and sends exactly the messages `sent`; effects compose, and there is one
lemma for each call.

The calls that write host rows (a closing and a retry) are an effect followed by `writeRows`,
and a creation appends one task and its `pending` rows.
-/

namespace LarkPlat

/-- The change starts no task outside `started`, sends the messages `sent`, and leaves host rows
and identifiers. -/
structure Effect (started sent : List ℕ) (db db' : ExecDb) : Prop where
  taskHosts : db'.taskHosts = db.taskHosts
  nextTask : db'.nextTask = db.nextTask
  nextTaskHost : db'.nextTaskHost = db.nextTaskHost
  queue : db'.queue = db.queue ++ sent
  tasks : ∃ g : ExecTask → ExecTask, db'.tasks = db.tasks.map g ∧
    ∀ t, (g t).id = t.id ∧ ((g t).status = .running →
      t.id ∈ started ∨ t.status = .running ∧ (g t).approvalId = t.approvalId)

section Calls

variable {env : ExecEnv} {db db' db'' : ExecDb} {started started' sent sent' : List ℕ}

theorem Effect.refl (db : ExecDb) : Effect [] [] db db where
  taskHosts := rfl
  nextTask := rfl
  nextTaskHost := rfl
  queue := (List.append_nil _).symm
  tasks := ⟨id, (List.map_id _).symm, fun _ => ⟨rfl, fun hr => Or.inr ⟨hr, rfl⟩⟩⟩

theorem Effect.trans (h : Effect started sent db db') (h' : Effect started' sent' db' db'') :
    Effect (started ++ started') (sent ++ sent') db db'' where
  taskHosts := h'.taskHosts.trans h.taskHosts
  nextTask := h'.nextTask.trans h.nextTask
  nextTaskHost := h'.nextTaskHost.trans h.nextTaskHost
  queue := by rw [h'.queue, h.queue, List.append_assoc]
  tasks := by
    obtain ⟨g, hg, hgs⟩ := h.tasks
    obtain ⟨g', hg', hgs'⟩ := h'.tasks
    refine ⟨g' ∘ g, by rw [hg', hg, List.map_map], ?_⟩
    intro t
    refine ⟨(hgs' (g t)).1.trans (hgs t).1, ?_⟩
    intro hr
    rcases (hgs' (g t)).2 hr with hstart | ⟨hr', ha'⟩
    · rw [(hgs t).1] at hstart
      exact Or.inl (List.mem_append_right _ hstart)
    · rcases (hgs t).2 hr' with hstart | ⟨hr'', ha⟩
      · exact Or.inl (List.mem_append_left _ hstart)
      · exact Or.inr ⟨hr'', ha'.trans ha⟩

theorem Effect.mono (h : Effect started sent db db') (hs : started ⊆ started') :
    Effect started' sent db db' where
  taskHosts := h.taskHosts
  nextTask := h.nextTask
  nextTaskHost := h.nextTaskHost
  queue := h.queue
  tasks := by
    obtain ⟨g, hg, hgs⟩ := h.tasks
    refine ⟨g, hg, fun t => ⟨(hgs t).1, fun hr => ?_⟩⟩
    exact ((hgs t).2 hr).imp_left fun hmem => hs hmem

theorem effect_setTask {id : ℕ} {f : ExecTask → ExecTask} (hid : ∀ t, (f t).id = t.id)
    (hrun : ∀ t, t.id = id → (f t).status = .running →
      t.id ∈ started ∨ t.status = .running ∧ (f t).approvalId = t.approvalId) :
    Effect started [] db (db.setTask id f) where
  taskHosts := rfl
  nextTask := rfl
  nextTaskHost := rfl
  queue := (List.append_nil _).symm
  tasks := by
    refine ⟨fun t => if t.id = id then f t else t, rfl, ?_⟩
    intro t
    dsimp only
    split_ifs with h
    · exact ⟨hid t, hrun t h⟩
    · exact ⟨rfl, fun hr => Or.inr ⟨hr, rfl⟩⟩

theorem effect_approvals (db : ExecDb) (approvals : List ApprovalRequest) (nextApproval : ℕ) :
    Effect [] [] db { db with approvals := approvals, nextApproval := nextApproval } :=
  ⟨rfl, rfl, rfl, (List.append_nil _).symm, (Effect.refl db).tasks⟩

theorem effect_send (db : ExecDb) (taskId : ℕ) :
    Effect [] [taskId] db { db with queue := db.queue ++ [taskId] } :=
  ⟨rfl, rfl, rfl, rfl, (Effect.refl db).tasks⟩

theorem effect_casTask {id version : ℕ} {old new : ExecStatus}
    (h : db.casTask id old new version = some db') (hnew : new = .running → id ∈ started) :
    Effect started [] db db' := by
  obtain ⟨t, -, -, rfl⟩ := casTask_eq_some h
  refine effect_setTask (fun _ => rfl) ?_
  rintro t rfl hr
  exact Or.inl (hnew hr)

theorem effect_casApproval {id version : ℕ} {old new : ApprovalStatus}
    (h : db.casApproval id old new version = some db') : Effect [] [] db db' := by
  obtain ⟨a, -, -, rfl⟩ := casApproval_eq_some h
  exact effect_approvals db _ _

theorem effect_touchTask {id : ℕ} {f : ExecTask → ExecTask} (hid : ∀ t, (f t).id = t.id)
    (hst : ∀ t, (f t).status = t.status) (ha : ∀ t, (f t).approvalId = t.approvalId) :
    Effect [] [] db (db.setTask id f) :=
  effect_setTask hid fun t _ hr => Or.inr ⟨(hst t).symm.trans hr, ha t⟩

/-- `_close_orphan_approval` changes approvals only. -/
theorem closeOrphanApproval_eq (db : ExecDb) (task : ExecTask) :
    ∃ approvals, closeOrphanApproval db task = { db with approvals := approvals } := by
  unfold closeOrphanApproval
  split
  · exact ⟨db.approvals, rfl⟩
  · split
    · exact ⟨db.approvals, rfl⟩
    · rename_i a _
      split_ifs
      · rcases hc : db.casApproval a.id .pending .canceled a.version with _ | db'
        · exact ⟨db.approvals, rfl⟩
        · obtain ⟨b, -, -, rfl⟩ := casApproval_eq_some hc
          exact ⟨_, rfl⟩
      · exact ⟨db.approvals, rfl⟩

theorem effect_closeOrphanApproval (db : ExecDb) (task : ExecTask) :
    Effect [] [] db (closeOrphanApproval db task) := by
  obtain ⟨approvals, h⟩ := closeOrphanApproval_eq db task
  rw [h]
  exact effect_approvals db approvals db.nextApproval

/-! ### Decisions -/

theorem effect_decide? {a : ApprovalRequest} {new : ApprovalStatus} {approver : Option ℕ}
    (h : decide? db a new approver = .ok db') : Effect [] [] db db' := by
  unfold decide? at h
  split at h
  · cases h
  · rename_i hc
    obtain rfl := Except.ok.inj h
    exact (effect_casApproval hc).trans (effect_approvals _ _ _)

theorem effect_cancelAwaiting (env : ExecEnv) (db : ExecDb) (taskId : ℕ) :
    Effect [] [] db (cancelAwaiting env db taskId) := by
  unfold cancelAwaiting
  split
  · split_ifs
    · split
      · rename_i hc
        have hcas : Effect [] [] db _ := effect_casTask hc (by simp)
        exact hcas.trans (effect_touchTask (fun _ => rfl) (fun _ => rfl) fun _ => rfl)
      · exact Effect.refl db
    · exact Effect.refl db
  · exact Effect.refl db

theorem effect_decline {a : ApprovalRequest} (h : Effect [] [] db db') :
    Effect [] [] db (if a.bizType = .exec then cancelAwaiting env db' a.bizId else db') := by
  split_ifs
  · exact h.trans (effect_cancelAwaiting env db' a.bizId)
  · exact h

theorem effect_reject {userId approvalId : ℕ} (h : reject env db userId approvalId = .ok db') :
    Effect [] [] db db' := by
  rw [reject] at h
  obtain ⟨a, -, h⟩ := bind_eq_ok.mp h
  obtain ⟨db₁, hd, h⟩ := bind_eq_ok.mp h
  have he : Effect [] [] db _ := @effect_decline env db db₁ a (effect_decide? hd)
  rw [← apply_ite pure] at h
  obtain rfl := Except.ok.inj h
  exact he

theorem effect_cancelApproval {userId approvalId : ℕ} {isAdmin : Bool}
    (h : cancelApproval env db userId isAdmin approvalId = .ok db') : Effect [] [] db db' := by
  rw [cancelApproval] at h
  obtain ⟨a, -, h⟩ := bind_eq_ok.mp h
  by_cases hr : a.requesterId ≠ userId ∧ ¬ isAdmin = true
  · simp [hr] at h
  rw [if_neg hr] at h
  obtain ⟨db₁, hd, h⟩ := bind_eq_ok.mp h
  have he : Effect [] [] db _ := @effect_decline env db db₁ a (effect_decide? hd)
  rw [← apply_ite pure] at h
  obtain rfl := Except.ok.inj h
  exact he

theorem effect_approveExec {taskId : ℕ} (h : approveExec env db taskId = .ok db') :
    Effect [taskId] (if env.brokerUp then [taskId] else []) db db' := by
  rw [approveExec] at h
  rcases ht : db.task? taskId with _ | task
  · simp [ht] at h
  obtain rfl : task.id = taskId := Table.key_of_find ht
  rw [ht] at h
  rcases hc : db.casTask task.id .awaitingApproval .running task.version with _ | db₁
  · simp [hc] at h
  simp only [hc, Except.ok.injEq] at h
  have hcas : Effect [task.id] [] db db₁ := effect_casTask hc fun _ => List.mem_singleton_self _
  have he := hcas.trans (@effect_touchTask db₁ task.id
    (fun t => { t with startedAt := some env.now }) (fun _ => rfl) (fun _ => rfl) fun _ => rfl)
  rw [← h]
  split_ifs
  · exact he.trans (effect_send _ _)
  · exact he

/-- The tasks that an approval of this request may start. -/
def ApprovalRequest.linked (a : ApprovalRequest) : List ℕ :=
  if a.bizType = .exec then [a.bizId] else []

theorem effect_approveRead {userId : ℕ} {a : ApprovalRequest}
    (h : approveRead env db userId a = .ok db') :
    Effect a.linked (if env.brokerUp then a.linked else []) db db' := by
  rw [approveRead] at h
  obtain ⟨db₁, hd, h⟩ := bind_eq_ok.mp h
  rw [ApprovalRequest.linked]
  by_cases hb : a.bizType = .exec
  · rw [if_pos hb] at h
    rw [if_pos hb]
    exact (effect_decide? hd).trans (effect_approveExec h)
  · rw [if_neg hb] at h
    rw [if_neg hb, ite_self]
    obtain rfl : db₁ = db' := Except.ok.inj h
    exact effect_decide? hd

/-! ### Closing, retry and settling -/

theorem closeTask_eq_some {c : Closing} {task : ExecTask} {rows : List ℕ}
    (h : closeTask c env db task rows = some db') :
    ∃ db₁, Effect [] [] db db₁ ∧ db' = db₁.writeRows rows fun th =>
      { th with status := c.host, finishedAt := some env.now } := by
  unfold closeTask at h
  split at h
  · cases h
  · rename_i db₁ hc
    obtain rfl := Option.some.inj h
    refine ⟨_, ?_, rfl⟩
    have hcas : Effect [] [] db db₁ := effect_casTask hc (by cases c <;> simp [Closing.task])
    have he := hcas.trans (@effect_touchTask db₁ task.id
      (fun t => { t with finishedAt := some env.now }) (fun _ => rfl) (fun _ => rfl) fun _ => rfl)
    split_ifs
    · exact he.trans (effect_closeOrphanApproval _ task)
    · exact he

theorem retryTask_eq_some {task : ExecTask} {rows : List ℕ}
    (h : retryTask env db task rows = some db') :
    ∃ db₁, Effect [task.id] [] db db₁ ∧
      db' = db₁.writeRows rows fun th => { th with status := .pending } := by
  unfold retryTask at h
  split at h
  · cases h
  · rename_i db₁ hc
    obtain rfl := Option.some.inj h
    refine ⟨_, ?_, rfl⟩
    have hcas : Effect [task.id] [] db db₁ :=
      effect_casTask hc fun _ => List.mem_singleton_self _
    have he := hcas.trans (@effect_touchTask db₁ task.id
      (fun t => { t with startedAt := some env.now, finishedAt := none })
      (fun _ => rfl) (fun _ => rfl) fun _ => rfl)
    exact he.trans (effect_closeOrphanApproval _ task)

/-- A retry that awaits a new request. The task does not run, so its new link starts
nothing. -/
theorem effect_retrySensitive {task : ExecTask} {userId : ℕ} {reason : String}
    (h : retrySensitive db task userId reason = some db') : Effect [] [] db db' := by
  unfold retrySensitive at h
  split at h
  · cases h
  · rename_i db₁ hc
    obtain ⟨t, -, -, rfl⟩ := casTask_eq_some hc
    obtain ⟨approvals, ha⟩ := closeOrphanApproval_eq
      (db.setTask task.id fun t =>
        { t with status := .awaitingApproval, version := task.version + 1 }) task
    rw [ha] at h
    dsimp only at h
    split_ifs at h
    obtain rfl := Option.some.inj h
    refine ⟨rfl, rfl, rfl, (List.append_nil _).symm, ?_⟩
    refine ⟨_, Table.modify_modify fun _ hid => hid, ?_⟩
    intro t
    split_ifs
    · exact ⟨rfl, fun hr => by cases hr⟩
    · exact ⟨rfl, fun hr => Or.inr ⟨hr, rfl⟩⟩

theorem effect_settleTask (db : ExecDb) (task : ExecTask) :
    ∃ sent, Effect [] sent db (settleTask env db task) := by
  unfold settleTask
  dsimp only
  split_ifs
  · exact ⟨_, effect_send db task.id⟩
  · exact ⟨_, Effect.refl db⟩
  · refine ⟨_, effect_setTask (fun _ => rfl) ?_⟩
    intro t _ hr
    exact absurd hr (aggregate_ne_running _)

theorem effect_settleAgain (db : ExecDb) (taskId : ℕ) :
    ∃ sent, Effect [] sent db (settleAgain env db taskId) := by
  unfold settleAgain
  split
  · split_ifs
    · exact effect_settleTask db _
    · exact ⟨_, Effect.refl db⟩
  · exact ⟨_, Effect.refl db⟩

theorem effect_maybeFinalizeTask (now : ℚ) (db : ExecDb) (taskId : ℕ) :
    Effect [] [] db (Pool.maybeFinalizeTask now db taskId) := by
  unfold Pool.maybeFinalizeTask
  split
  · dsimp only
    split_ifs
    · exact Effect.refl db
    · refine effect_setTask (fun _ => rfl) ?_
      intro t _ hr
      exact absurd hr (aggregate_ne_running _)
  · exact Effect.refl db

end Calls

/-! ### Creation -/

section Creation

variable {lower : String → String} {env : ExecEnv} {db db' : ExecDb} {spec : TaskSpec}
  {policy : Option String} {c : Created}

/-- The new task of a creation that no policy approved does not run under a request. -/
def NotYetApproved (db db' : ExecDb) : Prop :=
  (∀ t ∈ db.tasks, t.id < db.nextTask) →
    ∀ t ∈ db'.tasks, t.id = db.nextTask → t.status = .running → t.approvalId = none

/-- What a creation does: it inserts a task with its rows, under the next identifier, and starts
no other. Only a policy that approves the task sends a message. -/
def CreationEffect (env : ExecEnv) (spec : TaskSpec) (policy : Option String) (db db' : ExecDb)
    (c : Created) : Prop :=
  c.id = db.nextTask ∧ ∃ sensitive sent,
    Effect [db.nextTask] sent (insertTask env db spec sensitive) db' ∧
      if c.approveRequired = true ∧ c.status = .running then
        policy.isSome = true ∧ sent = if env.brokerUp then [db.nextTask] else []
      else sent = [] ∧ NotYetApproved db db'

theorem createPlain_effect (env : ExecEnv) (db : ExecDb) (spec : TaskSpec)
    (policy : Option String) :
    CreationEffect env spec policy db (createPlain env db spec).1 (createPlain env db spec).2 := by
  refine ⟨rfl, false, [], ?_, ?_⟩
  · exact effect_setTask (fun _ => rfl) fun t ht _ => Or.inl (ht ▸ List.mem_singleton_self _)
  · rw [if_neg (by simp [createPlain])]
    refine ⟨rfl, ?_⟩
    intro hfresh t ht hid _
    rcases Table.mem_modify.mp ht with ⟨t₀, ht₀, hid₀, rfl⟩ | ⟨-, hne⟩
    · rcases List.mem_append.mp ht₀ with ht₀ | ht₀
      · exact absurd hid₀ (Nat.ne_of_lt (hfresh t₀ ht₀))
      · obtain rfl := List.mem_singleton.mp ht₀
        rfl
    · exact absurd hid hne

theorem createSensitive_effect {reason : String}
    (h : createSensitive env db spec reason policy = .ok (db', c)) :
    CreationEffect env spec policy db db' c := by
  rw [createSensitive] at h
  by_cases hany : (insertTask env db spec true).approvals.any
      (fun a => decide (a.bizId = db.nextTask)) = true
  · simp only [if_pos hany, reduceCtorEq] at h
  simp only [if_neg hany] at h
  set approval := newApproval (insertTask env db spec true) spec db.nextTask reason
  set db₁ := insertTask env db spec true with hdb₁
  set db₂ : ExecDb := { db₁ with
    approvals := db₁.approvals ++ [approval], nextApproval := db₁.nextApproval + 1 } with hdb₂
  set db₃ := db₂.setTask db.nextTask fun t =>
    { t with approvalId := some approval.id, status := .awaitingApproval, version := 1 } with hdb₃
  have h₂ : Effect [] [] db₁ db₂ := effect_approvals db₁ _ _
  have h₃ : Effect [] [] db₂ db₃ := effect_setTask (fun _ => rfl) fun t _ hr => by cases hr
  cases policy with
  | none =>
      obtain ⟨rfl, rfl⟩ := Prod.mk.inj (Except.ok.inj h)
      refine ⟨rfl, true, [], ?_, ?_⟩
      · exact (h₂.trans h₃).mono (List.nil_subset _)
      · rw [if_neg (by simp)]
        refine ⟨rfl, ?_⟩
        intro _ t ht hid hr
        rcases Table.mem_modify.mp ht with ⟨t₀, -, -, rfl⟩ | ⟨-, hne⟩
        · cases hr
        · exact absurd hid hne
  | some ref =>
      dsimp only at h
      split at h
      · cases h
      · rename_i db₅ hex
        obtain ⟨rfl, rfl⟩ := Prod.mk.inj (Except.ok.inj h)
        refine ⟨rfl, true, if env.brokerUp then [db.nextTask] else [], ?_, ?_⟩
        · exact ((h₂.trans h₃).trans (effect_approvals _ _ _)).trans (effect_approveExec hex)
        · rw [if_pos ⟨rfl, rfl⟩]
          exact ⟨rfl, rfl⟩

/-- **What a creation does.** -/
theorem createExecTaskRecord_effect
    (h : createExecTaskRecord lower env db spec policy = .ok (db', c)) :
    CreationEffect env spec policy db db' c := by
  rw [createExecTaskRecord] at h
  obtain ⟨-, -, h⟩ := bind_eq_ok.mp h
  obtain ⟨body, -, h⟩ := bind_eq_ok.mp h
  by_cases hn : spec.targetHostIds.Nodup
  swap
  · simp [hn] at h
  simp only [hn, not_true_eq_false, if_false] at h
  split_ifs at h
  · exact createSensitive_effect h
  · obtain ⟨rfl, rfl⟩ := Prod.mk.inj (Except.ok.inj h)
    exact createPlain_effect env db spec policy

end Creation

end LarkPlat
