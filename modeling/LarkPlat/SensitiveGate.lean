import LarkPlat.ExecDispatch
import LarkPlat.Machine

/-!
# The Sensitive-Command Gate

Sensitivity is detected once, when a task is created, on the raw command and script body;
the text that runs is resolved again and rendered when the task is dispatched. This module
follows both through whole histories of rule edits, script edits, task creations, approval
decisions and dispatches.

`GateState` keeps, next to the tables, what a history has shown: the `births` (for each
created task the words configured at its creation and the text scanned then) and the `log`
of all handovers.

## Main results

* `gated_run`: in every history, a running task that was flagged sensitive has an approved
  request.
* `gate_holds_iff_adds_no_word`: the gate keeps its promise on every handover of a history
  exactly when no dispatch of an unflagged task brings in a word that its creation did not
  scan.
* `gate_fails_on_params_and_versions`: a parameter value and a script version published
  after the creation both bring a word past the gate.
-/

namespace LarkPlat

open Machine

/-! ### The gated tables -/

/-- A request for the task was approved. -/
def ApprovedIn (db : ExecDb) (taskId : ℕ) : Prop :=
  ∃ a ∈ db.approvals, a.bizType = .exec ∧ a.bizId = taskId ∧ a.status = .approved

/-- The invariant of the tables: identifiers are unique and below their counters, and a
flagged task runs only with an approved request. -/
structure Gated (db : ExecDb) : Prop where
  task_lt : ∀ t ∈ db.tasks, t.id < db.nextTask
  task_nodup : (db.tasks.map ExecTask.id).Nodup
  approval_lt : ∀ a ∈ db.approvals, a.id < db.nextApproval
  approval_nodup : (db.approvals.map ApprovalRequest.id).Nodup
  approved : ∀ t ∈ db.tasks, t.status = .running → t.sensitiveFlag = true → ApprovedIn db t.id

/-- Every task of `db'` is a task of `db` with the same flag. -/
def SameFlags (db db' : ExecDb) : Prop :=
  db'.nextTask = db.nextTask ∧
    ∀ t' ∈ db'.tasks, ∃ t ∈ db.tasks, t.id = t'.id ∧ t.sensitiveFlag = t'.sensitiveFlag

theorem SameFlags.refl (db : ExecDb) : SameFlags db db :=
  ⟨rfl, fun t ht => ⟨t, ht, rfl, rfl⟩⟩

theorem SameFlags.trans {db₁ db₂ db₃ : ExecDb} (h₁ : SameFlags db₁ db₂)
    (h₂ : SameFlags db₂ db₃) : SameFlags db₁ db₃ := by
  refine ⟨h₂.1.trans h₁.1, ?_⟩
  intro t ht
  obtain ⟨t₂, ht₂, hid₂, hf₂⟩ := h₂.2 t ht
  obtain ⟨t₁, ht₁, hid₁, hf₁⟩ := h₁.2 t₂ ht₂
  exact ⟨t₁, ht₁, hid₁.trans hid₂, hf₁.trans hf₂⟩

/-- What an operation other than a creation may do to gated tables. -/
structure Keeps (db db' : ExecDb) : Prop where
  gated : Gated db'
  flags : SameFlags db db'

theorem Keeps.refl {db : ExecDb} (h : Gated db) : Keeps db db :=
  ⟨h, SameFlags.refl db⟩

theorem Keeps.trans {db₁ db₂ db₃ : ExecDb} (h₁ : Keeps db₁ db₂) (h₂ : Keeps db₂ db₃) :
    Keeps db₁ db₃ :=
  ⟨h₂.gated, h₁.flags.trans h₂.flags⟩

theorem Gated.congr {db db' : ExecDb} (h : Gated db) (ht : db'.tasks = db.tasks)
    (ha : db'.approvals = db.approvals) (hnt : db'.nextTask = db.nextTask)
    (hna : db'.nextApproval = db.nextApproval) : Keeps db db' := by
  refine ⟨⟨?_, ?_, ?_, ?_, ?_⟩, hnt, ?_⟩
  · rw [ht, hnt]; exact h.task_lt
  · rw [ht]; exact h.task_nodup
  · rw [ha, hna]; exact h.approval_lt
  · rw [ha]; exact h.approval_nodup
  · rw [ht]
    unfold ApprovedIn
    rw [ha]
    exact h.approved
  · rw [ht]
    exact (SameFlags.refl db).2

/-- Changing a task row keeps the invariant when the row keeps its identity and flag and
starts running only if it was running or its request was approved. -/
theorem Gated.setTask {db : ExecDb} (h : Gated db) {i : ℕ} {f : ExecTask → ExecTask}
    (hid : ∀ t, (f t).id = t.id) (hflag : ∀ t, (f t).sensitiveFlag = t.sensitiveFlag)
    (hrun : ∀ t ∈ db.tasks, t.id = i → (f t).status = .running →
      t.sensitiveFlag = true → t.status = .running ∨ ApprovedIn db i) :
    Keeps db (db.setTask i f) := by
  refine ⟨⟨?_, ?_, h.approval_lt, h.approval_nodup, ?_⟩, rfl, ?_⟩
  · intro t ht
    rcases Table.mem_modify.mp ht with ⟨t₀, ht₀, -, rfl⟩ | ⟨ht, -⟩
    · rw [hid]; exact h.task_lt t₀ ht₀
    · exact h.task_lt t ht
  · show ((Table.modify ExecTask.id db.tasks i f).map ExecTask.id).Nodup
    rw [Table.map_key_modify fun r hr => (hid r).trans hr]
    exact h.task_nodup
  · intro t ht hrunning hsens
    rcases Table.mem_modify.mp ht with ⟨t₀, ht₀, hk, rfl⟩ | ⟨ht, -⟩
    · rw [hflag] at hsens
      rw [hid]
      rcases hrun t₀ ht₀ hk hrunning hsens with hr | ha
      · exact h.approved t₀ ht₀ hr hsens
      · rw [hk]; exact ha
    · exact h.approved t ht hrunning hsens
  · intro t ht
    rcases Table.mem_modify.mp ht with ⟨t₀, ht₀, -, rfl⟩ | ⟨ht, -⟩
    · exact ⟨t₀, ht₀, (hid t₀).symm, (hflag t₀).symm⟩
    · exact ⟨t, ht, rfl, rfl⟩

/-- An approved request survives a change of a row that keeps identity, binding and
approval. -/
theorem ApprovedIn.setApproval {db : ExecDb} {id taskId : ℕ}
    {f : ApprovalRequest → ApprovalRequest} (h : ApprovedIn db taskId)
    (hbiz : ∀ a, (f a).bizType = a.bizType ∧ (f a).bizId = a.bizId)
    (hst : ∀ a ∈ db.approvals, a.id = id → a.status = .approved → (f a).status = .approved) :
    ApprovedIn (db.setApproval id f) taskId := by
  obtain ⟨a, ha, ht, hb, hs⟩ := h
  by_cases hk : a.id = id
  · refine ⟨f a, Table.mem_modify.mpr (Or.inl ⟨a, ha, hk, rfl⟩), ?_, ?_, hst a ha hk hs⟩
    · rw [(hbiz a).1, ht]
    · rw [(hbiz a).2, hb]
  · exact ⟨a, Table.mem_modify.mpr (Or.inr ⟨ha, hk⟩), ht, hb, hs⟩

/-- Changing an approval row keeps the invariant when approved requests stay approved. -/
theorem Gated.setApproval {db : ExecDb} (h : Gated db) {i : ℕ}
    {f : ApprovalRequest → ApprovalRequest} (hid : ∀ a, (f a).id = a.id)
    (hbiz : ∀ a, (f a).bizType = a.bizType ∧ (f a).bizId = a.bizId)
    (hst : ∀ a ∈ db.approvals, a.id = i → a.status = .approved → (f a).status = .approved) :
    Keeps db (db.setApproval i f) := by
  refine ⟨⟨h.task_lt, h.task_nodup, ?_, ?_, ?_⟩, (SameFlags.refl db)⟩
  · intro a ha
    rcases Table.mem_modify.mp ha with ⟨a₀, ha₀, -, rfl⟩ | ⟨ha, -⟩
    · rw [hid]; exact h.approval_lt a₀ ha₀
    · exact h.approval_lt a ha
  · show ((Table.modify ApprovalRequest.id db.approvals i f).map ApprovalRequest.id).Nodup
    rw [Table.map_key_modify fun r hr => (hid r).trans hr]
    exact h.approval_nodup
  · intro t ht hr hs
    exact (h.approved t ht hr hs).setApproval hbiz hst

/-! ### The approval decisions -/

theorem casTask_eq_some {db db' : ExecDb} {id version : ℕ} {old new : ExecStatus}
    (h : db.casTask id old new version = some db') :
    ∃ t, db.task? id = some t ∧ t.status = old ∧
      db' = db.setTask id fun t => { t with status := new, version := version + 1 } := by
  rw [ExecDb.casTask] at h
  rcases ht : db.task? id with _ | t
  · rw [ht] at h; simp at h
  · rw [ht] at h
    by_cases hc : t.status = old ∧ t.version = version
    · simp only [if_pos hc, Option.some.injEq] at h
      exact ⟨t, rfl, hc.1, h.symm⟩
    · simp [if_neg hc] at h

theorem casApproval_eq_some {db db' : ExecDb} {id version : ℕ} {old new : ApprovalStatus}
    (h : db.casApproval id old new version = some db') :
    ∃ a, db.approval? id = some a ∧ a.status = old ∧
      db' = db.setApproval id fun a => { a with status := new, version := version + 1 } := by
  rw [ExecDb.casApproval] at h
  rcases ha : db.approval? id with _ | a
  · rw [ha] at h; simp at h
  · rw [ha] at h
    by_cases hc : a.status = old ∧ a.version = version
    · simp only [if_pos hc, Option.some.injEq] at h
      exact ⟨a, rfl, hc.1, h.symm⟩
    · simp [if_neg hc] at h

/-- `_approve_exec` starts a task whose request was approved. -/
theorem approveExec_keeps {env : ExecEnv} {db db' : ExecDb} {taskId : ℕ} (h : Gated db)
    (ha : ApprovedIn db taskId) (hok : approveExec env db taskId = .ok db') :
    Keeps db db' := by
  rw [approveExec] at hok
  rcases ht : db.task? taskId with _ | task
  · simp [ht] at hok
  rw [ht] at hok
  have hid : task.id = taskId := Table.key_of_find ht
  rcases hc : db.casTask task.id .awaitingApproval .running task.version with _ | db₁
  · simp [hc] at hok
  simp only [hc, Except.ok.injEq] at hok
  obtain ⟨t, -, -, rfl⟩ := casTask_eq_some hc
  have k₁ : Keeps db (db.setTask task.id fun t =>
      { t with status := .running, version := task.version + 1 }) := by
    refine h.setTask (fun _ => rfl) (fun _ => rfl) ?_
    intro t _ _ _ _
    exact Or.inr (hid ▸ ha)
  have k₂ := k₁.gated.setTask (i := task.id)
    (f := fun t => { t with startedAt := some env.now }) (fun _ => rfl) (fun _ => rfl)
    (fun t _ _ hr _ => Or.inl hr)
  have k₃ := k₁.trans k₂
  by_cases hb : env.brokerUp = true
  · rw [if_pos hb] at hok
    subst hok
    exact k₃.trans (k₃.gated.congr rfl rfl rfl rfl)
  · rw [if_neg hb] at hok
    subst hok
    exact k₃

theorem requirePending_eq_ok {db : ExecDb} {approvalId : ℕ} {a : ApprovalRequest}
    (h : requirePending db approvalId = .ok a) :
    db.approval? approvalId = some a ∧ a.status = .pending := by
  rw [requirePending] at h
  rcases ha : db.approval? approvalId with _ | b
  · simp [ha] at h
  · rw [ha] at h
    by_cases hp : b.status = .pending
    · by_cases hu : b.bizType = .unknown
      · simp [hp, hu] at h
      · simp only [hp, ne_eq, not_true_eq_false, if_false, if_neg hu, Except.ok.injEq] at h
        subst h
        exact ⟨rfl, hp⟩
    · simp [hp] at h

/-- A decision changes a pending request; an approval decision makes it approved. -/
theorem decide?_keeps {db db' : ExecDb} {a : ApprovalRequest} {approvalId : ℕ}
    {new : ApprovalStatus} {approver : Option ℕ} (h : Gated db)
    (ha : db.approval? approvalId = some a) (hok : decide? db a new approver = .ok db') :
    Keeps db db' ∧
      (new = .approved → a.bizType = .exec → ApprovedIn db' a.bizId) := by
  rw [decide?] at hok
  rcases hc : db.casApproval a.id .pending new a.version with _ | db₁
  · simp [hc] at hok
  simp only [hc, Except.ok.injEq] at hok
  obtain ⟨b, hb, hpend, rfl⟩ := casApproval_eq_some hc
  have hmem : a ∈ db.approvals := Table.mem_of_find ha
  have hpending : ∀ c ∈ db.approvals, c.id = a.id → c.status = .pending := by
    intro c hc' hcid
    have hc₁ := Table.find_of_mem h.approval_nodup hc'
    rw [hcid] at hc₁
    have hcb : c = b := Option.some.inj (hc₁.symm.trans hb)
    rw [hcb]; exact hpend
  have k₁ : Keeps db (db.setApproval a.id fun b =>
      { b with status := new, version := a.version + 1 }) := by
    refine h.setApproval (fun _ => rfl) (fun _ => ⟨rfl, rfl⟩) ?_
    intro c hc' hcid hca
    rw [hpending c hc' hcid] at hca
    exact absurd hca (by decide)
  have k₂ := k₁.gated.setApproval (i := a.id) (f := fun b => { b with approverId := approver })
    (fun _ => rfl) (fun _ => ⟨rfl, rfl⟩) (fun _ _ _ hs => hs)
  subst hok
  refine ⟨k₁.trans k₂, ?_⟩
  rintro rfl hexec
  refine ApprovedIn.setApproval ?_ (fun _ => ⟨rfl, rfl⟩) (fun _ _ _ hs => hs)
  exact ⟨_, Table.mem_modify.mpr (Or.inl ⟨a, hmem, rfl, rfl⟩), hexec, rfl, rfl⟩

theorem cancelAwaiting_keeps {env : ExecEnv} {db : ExecDb} {taskId : ℕ} (h : Gated db) :
    Keeps db (cancelAwaiting env db taskId) := by
  rw [cancelAwaiting]
  rcases ht : db.task? taskId with _ | task
  · exact Keeps.refl h
  by_cases hs : task.status = .awaitingApproval
  · simp only [if_pos hs]
    rcases hc : db.casTask task.id .awaitingApproval .canceled task.version with _ | db₁
    · exact Keeps.refl h
    obtain ⟨t, -, -, rfl⟩ := casTask_eq_some hc
    have k₁ : Keeps db (db.setTask task.id fun t =>
        { t with status := .canceled, version := task.version + 1 }) :=
      h.setTask (fun _ => rfl) (fun _ => rfl) (fun _ _ _ hr _ => by simp at hr)
    exact k₁.trans (k₁.gated.setTask (fun _ => rfl) (fun _ => rfl)
      (fun _ _ _ hr _ => Or.inl hr))
  · simp only [if_neg hs]
    exact Keeps.refl h

/-- `approve` keeps the tables gated. -/
theorem approve_keeps {env : ExecEnv} {db db' : ExecDb} {userId approvalId : ℕ}
    (h : Gated db) (hok : approve env db userId approvalId = .ok db') : Keeps db db' := by
  rw [approve] at hok
  obtain ⟨a, hp, hok⟩ := bind_eq_ok.mp hok
  obtain ⟨db₁, hd, hok⟩ := bind_eq_ok.mp hok
  obtain ⟨hfind, -⟩ := requirePending_eq_ok hp
  obtain ⟨k₁, happ⟩ := decide?_keeps h hfind hd
  by_cases hb : a.bizType = .exec
  · rw [if_pos hb] at hok
    exact k₁.trans (approveExec_keeps k₁.gated (happ rfl hb) hok)
  · rw [if_neg hb] at hok
    obtain rfl : db₁ = db' := Except.ok.inj hok
    exact k₁

theorem decline_keeps (env : ExecEnv) {db db₁ : ExecDb} {a : ApprovalRequest}
    {approvalId : ℕ} {new : ApprovalStatus} {approver : Option ℕ} (h : Gated db)
    (hfind : db.approval? approvalId = some a) (hd : decide? db a new approver = .ok db₁) :
    Keeps db (if a.bizType = .exec then cancelAwaiting env db₁ a.bizId else db₁) := by
  obtain ⟨k₁, -⟩ := decide?_keeps h hfind hd
  by_cases hb : a.bizType = .exec
  · rw [if_pos hb]
    exact k₁.trans (cancelAwaiting_keeps k₁.gated)
  · rw [if_neg hb]
    exact k₁

/-- `reject` keeps the tables gated. -/
theorem reject_keeps {env : ExecEnv} {db db' : ExecDb} {userId approvalId : ℕ}
    (h : Gated db) (hok : reject env db userId approvalId = .ok db') : Keeps db db' := by
  rw [reject] at hok
  obtain ⟨a, hp, hok⟩ := bind_eq_ok.mp hok
  obtain ⟨db₁, hd, hok⟩ := bind_eq_ok.mp hok
  have k := decline_keeps env h (requirePending_eq_ok hp).1 hd
  by_cases hb : a.bizType = .exec <;> simp_all [pure, Except.pure]

/-- `cancel` keeps the tables gated. -/
theorem cancelApproval_keeps {env : ExecEnv} {db db' : ExecDb} {userId approvalId : ℕ}
    {isAdmin : Bool} (h : Gated db)
    (hok : cancelApproval env db userId isAdmin approvalId = .ok db') : Keeps db db' := by
  rw [cancelApproval] at hok
  obtain ⟨a, hp, hok⟩ := bind_eq_ok.mp hok
  by_cases hr : a.requesterId ≠ userId ∧ ¬ isAdmin = true
  · simp [hr] at hok
  rw [if_neg hr] at hok
  obtain ⟨db₁, hd, hok⟩ := bind_eq_ok.mp hok
  have k := decline_keeps env h (requirePending_eq_ok hp).1 hd
  by_cases hb : a.bizType = .exec <;> simp_all

/-! ### Creation -/

/-- Inserting a task in status `created` keeps the tables gated. -/
theorem Gated.insertTask {db : ExecDb} (h : Gated db) (env : ExecEnv) (spec : TaskSpec)
    (sensitive : Bool) : Gated (insertTask env db spec sensitive) := by
  refine ⟨?_, ?_, h.approval_lt, h.approval_nodup, ?_⟩
  · exact Table.below_concat h.task_lt rfl (Nat.lt_succ_self _)
  · exact Table.nodup_concat h.task_nodup (Table.new_of_below h.task_lt)
  · intro t ht hr hs
    rcases List.mem_append.mp ht with ht | ht
    · exact h.approved t ht hr hs
    · obtain rfl := List.mem_singleton.mp ht
      simp [newTask] at hr

theorem Gated.insertApproval {db : ExecDb} (h : Gated db) {a : ApprovalRequest}
    (ha : a.id = db.nextApproval) :
    Keeps db { db with
      approvals := db.approvals ++ [a], nextApproval := db.nextApproval + 1 } := by
  refine ⟨⟨h.task_lt, h.task_nodup, ?_, ?_, ?_⟩, SameFlags.refl db⟩
  · exact Table.below_concat h.approval_lt ha (Nat.lt_succ_self _)
  · refine Table.nodup_concat h.approval_nodup ?_
    rw [ha]
    exact Table.new_of_below h.approval_lt
  · intro t ht hr hs
    obtain ⟨b, hb, hrest⟩ := h.approved t ht hr hs
    exact ⟨b, List.mem_append_left _ hb, hrest⟩

/-- The sensitive branch: the new task waits for its approval, or runs on an approved
request when a policy hit approved it. -/
theorem createSensitive_keeps {env : ExecEnv} {db db' : ExecDb} {spec : TaskSpec}
    {reason : String} {policy : Option String} {c : Created} (h : Gated db)
    (hok : createSensitive env db spec reason policy = .ok (db', c)) :
    Keeps (insertTask env db spec true) db' ∧ c.id = db.nextTask := by
  have h₁ : Gated (insertTask env db spec true) := h.insertTask env spec true
  rw [createSensitive] at hok
  by_cases hany : (insertTask env db spec true).approvals.any
      (fun a => decide (a.bizId = db.nextTask)) = true
  · simp only [if_pos hany, reduceCtorEq] at hok
  simp only [if_neg hany] at hok
  set approval := newApproval (insertTask env db spec true) spec db.nextTask reason
    with happroval
  have k₂ := h₁.insertApproval (a := approval) rfl
  set db₂ : ExecDb := { insertTask env db spec true with
    approvals := (insertTask env db spec true).approvals ++ [approval]
    nextApproval := (insertTask env db spec true).nextApproval + 1 } with hdb₂
  have k₃ : Keeps db₂ (db₂.setTask db.nextTask fun t =>
      { t with approvalId := some approval.id, status := .awaitingApproval, version := 1 }) :=
    k₂.gated.setTask (fun _ => rfl) (fun _ => rfl) (fun _ _ _ hr _ => by simp at hr)
  cases policy with
  | none =>
      simp only [Except.ok.injEq, Prod.mk.injEq] at hok
      obtain ⟨rfl, rfl⟩ := hok
      exact ⟨k₂.trans k₃, rfl⟩
  | some ref =>
      simp only at hok
      have k₄ := k₃.gated.setApproval (i := approval.id)
        (f := fun a => { a with
          approvalMode := "auto_policy", status := .approved, policyRef := some ref })
        (fun _ => rfl) (fun _ => ⟨rfl, rfl⟩) (fun _ _ _ _ => rfl)
      split at hok
      · simp at hok
      · rename_i db₅ hex
        simp only [Except.ok.injEq, Prod.mk.injEq] at hok
        obtain ⟨rfl, rfl⟩ := hok
        refine ⟨((k₂.trans k₃).trans k₄).trans (approveExec_keeps k₄.gated ?_ hex), rfl⟩
        have hmem : approval ∈ db₂.approvals :=
          List.mem_append_right _ (List.mem_singleton_self _)
        exact ⟨_, Table.mem_modify.mpr (Or.inl ⟨approval, hmem, rfl, rfl⟩), rfl, rfl, rfl⟩

/-- **What a creation does.** It adds one task, under the next identifier; if the task is
not flagged, none of the words configured now occurs in the scanned text. -/
theorem createExecTaskRecord_spec {lower : String → String} {env : ExecEnv}
    {db db' : ExecDb} {spec : TaskSpec} {policy : Option String} {c : Created} (h : Gated db)
    (hok : createExecTaskRecord lower env db spec policy = .ok (db', c)) :
    ∃ body, creationBody db spec = .ok body ∧ Gated db' ∧ c.id = db.nextTask ∧
      db'.nextTask = db.nextTask + 1 ∧
      ∀ t' ∈ db'.tasks,
        (∃ t ∈ db.tasks, t.id = t'.id ∧ t.sensitiveFlag = t'.sensitiveFlag) ∨
        (t'.id = db.nextTask ∧ (t'.sensitiveFlag = false → ∀ w ∈ db.rules.words,
          hits lower (scannedText spec.command body) w = false)) := by
  rw [createExecTaskRecord] at hok
  obtain ⟨-, -, hok⟩ := bind_eq_ok.mp hok
  obtain ⟨body, hb, hok⟩ := bind_eq_ok.mp hok
  by_cases hn : spec.targetHostIds.Nodup
  swap
  · simp [hn] at hok
  simp only [hn, not_true_eq_false, if_false] at hok
  set d := detectSensitive lower db.rules spec.command body spec.targetHostIds.dedup.length
    with hd
  -- in both branches the tables continue those with the new task inserted
  obtain ⟨k, hid⟩ : Keeps (insertTask env db spec d.1) db' ∧ c.id = db.nextTask := by
    by_cases hs : d.1 = true
    · rw [if_pos hs] at hok
      rw [hs]
      exact createSensitive_keeps h hok
    · rw [if_neg hs] at hok
      rw [Bool.not_eq_true] at hs
      rw [createPlain] at hok
      obtain ⟨rfl, rfl⟩ := Prod.mk.inj (Except.ok.inj hok)
      rw [hs]
      refine ⟨(h.insertTask env spec false).setTask (fun _ => rfl) (fun _ => rfl) ?_, rfl⟩
      intro t ht hti _ hsens
      rcases List.mem_append.mp ht with ht | ht
      · exact absurd hti (Nat.ne_of_lt (h.task_lt t ht))
      · obtain rfl := List.mem_singleton.mp ht
        simp [newTask] at hsens
  refine ⟨body, hb, k.gated, hid, k.flags.1, ?_⟩
  intro t' ht'
  obtain ⟨t, ht, htid, htf⟩ := k.flags.2 t' ht'
  rcases List.mem_append.mp ht with ht | ht
  · exact Or.inl ⟨t, ht, htid, htf⟩
  · obtain rfl := List.mem_singleton.mp ht
    refine Or.inr ⟨htid.symm, ?_⟩
    intro hf w hw
    have hd1 : d.1 = false := by simpa [newTask, hf] using htf
    exact not_hits_of_not_sensitive hd1 hw

/-! ### Dispatch -/

theorem aggregate_ne_running (statuses : List HostStatus) :
    aggregate statuses ≠ .running := by
  unfold aggregate
  dsimp only
  split_ifs <;> simp

theorem foldl_setTaskHost_keeps {db : ExecDb} (h : Gated db) (rows : List ExecTaskHost)
    (g : ExecTaskHost → ExecTaskHost → ExecTaskHost) :
    Keeps db (rows.foldl (fun acc th => acc.setTaskHost th.id (g th)) db) := by
  induction rows generalizing db with
  | nil => exact Keeps.refl h
  | cons th rows ih =>
      have k : Keeps db (db.setTaskHost th.id (g th)) := h.congr rfl rfl rfl rfl
      exact k.trans (ih k.gated)

theorem settleTask_keeps {env : ExecEnv} {db : ExecDb} {task : ExecTask} (h : Gated db) :
    Keeps db (settleTask env db task) := by
  unfold settleTask
  dsimp only
  split_ifs
  · exact h.congr rfl rfl rfl rfl
  · exact Keeps.refl h
  · refine h.setTask (fun _ => rfl) (fun _ => rfl) ?_
    intro t _ _ hr _
    exact absurd hr (aggregate_ne_running _)

/-- `exec_dispatch` keeps the tables gated. -/
theorem execDispatch_keeps (lower : String → String) (env : DispatchEnv) {db : ExecDb}
    (taskId : ℕ) (h : Gated db) : Keeps db (execDispatch lower env db taskId).1 := by
  rw [execDispatch]
  rcases ht : db.task? taskId with _ | task
  · exact Keeps.refl h
  · dsimp only
    split_ifs
    · exact Keeps.refl h
    · have k := foldl_setTaskHost_keeps h (startedRows env (db.hostsOfTask taskId))
        fun th r => finishRow env.now r (handOver lower env db task (resolveContent db task)
          (db.hostsOfTask taskId).length th).2
      exact k.trans (settleTask_keeps k.gated)
    · exact Keeps.refl h

/-- Every handover of a dispatch carries the resolved content of a running task. -/
theorem execDispatch_handout {lower : String → String} {env : DispatchEnv} {db : ExecDb}
    {taskId : ℕ} {o : Handout} (ho : o ∈ (execDispatch lower env db taskId).2) :
    o.db = db ∧ o.taskId = taskId ∧ ∃ t, db.task? taskId = some t ∧ t.status = .running ∧
      o.content = resolveContent db t := by
  rw [execDispatch] at ho
  rcases ht : db.task? taskId with _ | task
  · simp [ht] at ho
  rw [ht] at ho
  by_cases hr : task.status = .running
  swap
  · simp [if_neg hr] at ho
  simp only [if_pos hr] at ho
  split_ifs at ho
  · simp at ho
  · obtain ⟨th, -, hth⟩ := List.mem_filterMap.mp ho
    obtain ⟨via, -, rfl⟩ := Option.map_eq_some_iff.mp hth
    exact ⟨rfl, rfl, task, rfl, hr, rfl⟩

/-! ### Histories -/

/-- What a creation shows: the task, the words configured then and the text scanned
then. -/
structure Birth where
  taskId : ℕ
  words : List String
  scanned : String

/-- The tables together with what the history has shown so far. -/
structure GateState where
  db : ExecDb
  births : List Birth
  log : List Handout

/-- The operations of a history. A call that raises changes nothing. -/
inductive GateOp
  | editRules (rules : ExecRules)
  | editHosts (hosts : List Host)
  | createScript (content : String)
  | updateScript (scriptId : ℕ) (content : String)
  | rollbackScript (scriptId version : ℕ)
  | createTask (env : ExecEnv) (spec : TaskSpec) (policy : Option String)
  | approve (env : ExecEnv) (userId approvalId : ℕ)
  | reject (env : ExecEnv) (userId approvalId : ℕ)
  | cancelApproval (env : ExecEnv) (userId : ℕ) (isAdmin : Bool) (approvalId : ℕ)
  | dispatch (env : DispatchEnv) (taskId : ℕ)

namespace GateState

/-- Replace the tables by the result of a call that did not raise. -/
def commit (s : GateState) : Except PyErr ExecDb → GateState
  | .ok db => { s with db := db }
  | .error _ => s

/-- A history starts with hosts and rules, and no task, script or approval. -/
def start (hosts : List Host) (rules : ExecRules) : GateState :=
  ⟨ExecDb.fresh hosts rules, [], []⟩

/-- One operation of a history. -/
def apply (lower : String → String) (s : GateState) : GateOp → GateState
  | .editRules rules => { s with db := { s.db with rules := rules } }
  | .editHosts hosts => { s with db := { s.db with hosts := hosts } }
  | .createScript content => { s with db := LarkPlat.createScript s.db content }
  | .updateScript sid content => s.commit (LarkPlat.updateScript s.db sid content)
  | .rollbackScript sid v => s.commit (LarkPlat.rollbackScript s.db sid v)
  | .createTask env spec policy =>
      match createExecTaskRecord lower env s.db spec policy, creationBody s.db spec with
      | .ok (db, c), .ok body =>
          { s with
            db := db
            births := s.births ++ [⟨c.id, s.db.rules.words, scannedText spec.command body⟩] }
      | _, _ => s
  | .approve env u a => s.commit (LarkPlat.approve env s.db u a)
  | .reject env u a => s.commit (LarkPlat.reject env s.db u a)
  | .cancelApproval env u admin a => s.commit (LarkPlat.cancelApproval env s.db u admin a)
  | .dispatch env taskId =>
      let r := execDispatch lower env s.db taskId
      { s with db := r.1, log := s.log ++ r.2 }

end GateState

/-- The task was unflagged only if no word of its birth occurs in the text scanned then. -/
def CleanBirths (lower : String → String) (births : List Birth) (t : ExecTask) : Prop :=
  t.sensitiveFlag = false → ∀ b ∈ births, b.taskId = t.id →
    ∀ w ∈ b.words, hits lower b.scanned w = false

/-- What the log keeps of a handover: the dispatched task with its resolved content, gated
by its flag. -/
def Accounted (lower : String → String) (births : List Birth) (o : Handout) : Prop :=
  ∃ t, o.db.task? o.taskId = some t ∧ o.content = resolveContent o.db t ∧
    (t.sensitiveFlag = true → ApprovedIn o.db o.taskId) ∧ CleanBirths lower births t

/-- The invariant of a history. -/
structure GateInv (lower : String → String) (s : GateState) : Prop where
  gated : Gated s.db
  births_lt : ∀ b ∈ s.births, b.taskId < s.db.nextTask
  clean : ∀ t ∈ s.db.tasks, CleanBirths lower s.births t
  log_lt : ∀ o ∈ s.log, o.taskId < s.db.nextTask
  logged : ∀ o ∈ s.log, Accounted lower s.births o

theorem gateInv_start (lower : String → String) (hosts : List Host) (rules : ExecRules) :
    GateInv lower (GateState.start hosts rules) := by
  refine ⟨⟨?_, ?_, ?_, ?_, ?_⟩, ?_, ?_, ?_, ?_⟩ <;> simp [GateState.start, ExecDb.fresh]

theorem GateInv.of_keeps {lower : String → String} {s : GateState} {db : ExecDb}
    (h : GateInv lower s) (k : Keeps s.db db) : GateInv lower { s with db := db } := by
  have hnext : db.nextTask = s.db.nextTask := k.flags.1
  refine ⟨k.gated, ?_, ?_, ?_, h.logged⟩
  · rw [hnext]; exact h.births_lt
  · intro t ht hf b hb hbt
    obtain ⟨t₀, ht₀, hid, hflag⟩ := k.flags.2 t ht
    exact h.clean t₀ ht₀ (hflag.trans hf) b hb (hbt.trans hid.symm)
  · rw [hnext]; exact h.log_lt

theorem GateInv.commit {lower : String → String} {s : GateState} {r : Except PyErr ExecDb}
    (h : GateInv lower s) (hk : ∀ db, r = .ok db → Keeps s.db db) :
    GateInv lower (s.commit r) := by
  cases r with
  | error e => exact h
  | ok db => exact h.of_keeps (hk db rfl)

theorem CleanBirths.append {lower : String → String} {births : List Birth} {t : ExecTask}
    {b : Birth} (h : CleanBirths lower births t) (hne : b.taskId ≠ t.id) :
    CleanBirths lower (births ++ [b]) t := by
  intro hf b' hb' hbt
  rcases List.mem_append.mp hb' with hb' | hb'
  · exact h hf b' hb' hbt
  · obtain rfl := List.mem_singleton.mp hb'
    exact absurd hbt hne

/-- A creation keeps the invariant: its birth records what the detection scanned. -/
theorem GateInv.createTask {lower : String → String} {s : GateState} (h : GateInv lower s)
    {env : ExecEnv} {spec : TaskSpec} {policy : Option String} {db : ExecDb} {c : Created}
    {body : Option String} (hok : createExecTaskRecord lower env s.db spec policy = .ok (db, c))
    (hbody : creationBody s.db spec = .ok body) :
    GateInv lower { s with
      db := db
      births := s.births ++ [⟨c.id, s.db.rules.words, scannedText spec.command body⟩] } := by
  obtain ⟨body', hb', hg, hid, hnext, htasks⟩ := createExecTaskRecord_spec h.gated hok
  obtain rfl : body = body' := Except.ok.inj (hbody.symm.trans hb')
  refine ⟨hg, ?_, ?_, ?_, ?_⟩
  · intro b hb
    rw [hnext]
    rcases List.mem_append.mp hb with hb | hb
    · exact Nat.lt_succ_of_lt (h.births_lt b hb)
    · obtain rfl := List.mem_singleton.mp hb
      exact hid ▸ Nat.lt_succ_self _
  · intro t ht
    rcases htasks t ht with ⟨t₀, ht₀, htid, hflag⟩ | ⟨htid, hclean⟩
    · have hlt : t.id < s.db.nextTask := htid ▸ h.gated.task_lt t₀ ht₀
      have hold : CleanBirths lower s.births t := fun hf b hb hbt =>
        h.clean t₀ ht₀ (hflag.trans hf) b hb (hbt.trans htid.symm)
      exact hold.append (by rw [hid]; exact (Nat.ne_of_lt hlt).symm)
    · intro hf b hb hbt w hw
      rcases List.mem_append.mp hb with hb | hb
      · exact absurd (hbt.trans htid) (Nat.ne_of_lt (h.births_lt b hb))
      · obtain rfl := List.mem_singleton.mp hb
        exact hclean hf w hw
  · intro o ho
    rw [hnext]
    exact Nat.lt_succ_of_lt (h.log_lt o ho)
  · intro o ho
    obtain ⟨t, ht, hcontent, happ, hclean⟩ := h.logged o ho
    refine ⟨t, ht, hcontent, happ, hclean.append ?_⟩
    have hto : t.id = o.taskId := Table.key_of_find ht
    rw [hid, hto]
    exact (Nat.ne_of_lt (h.log_lt o ho)).symm

theorem GateInv.dispatch {lower : String → String} {s : GateState} (h : GateInv lower s)
    (env : DispatchEnv) (taskId : ℕ) :
    GateInv lower (s.apply lower (.dispatch env taskId)) := by
  have k := execDispatch_keeps lower env taskId h.gated
  have hk := h.of_keeps k
  refine ⟨hk.gated, hk.births_lt, hk.clean, ?_, ?_⟩
  · intro o ho
    rcases List.mem_append.mp ho with ho | ho
    · exact hk.log_lt o ho
    · obtain ⟨-, rfl, t, ht, -, -⟩ := execDispatch_handout ho
      have hlt := h.gated.task_lt t (Table.mem_of_find ht)
      rw [show t.id = o.taskId from Table.key_of_find ht] at hlt
      exact lt_of_lt_of_eq hlt k.flags.1.symm
  · intro o ho
    rcases List.mem_append.mp ho with ho | ho
    · exact h.logged o ho
    · obtain ⟨hdb, rfl, t, ht, hrun, hcontent⟩ := execDispatch_handout ho
      have hmem : t ∈ s.db.tasks := Table.mem_of_find ht
      have hto : t.id = o.taskId := Table.key_of_find ht
      refine ⟨t, hdb ▸ ht, hdb ▸ hcontent, ?_, h.clean t hmem⟩
      intro hf
      rw [hdb, ← hto]
      exact h.gated.approved t hmem hrun hf

/-- **Step lemma.** Every operation keeps the invariant of the history. -/
theorem gateInv_apply (lower : String → String) (s : GateState) (op : GateOp)
    (h : GateInv lower s) : GateInv lower (s.apply lower op) := by
  cases op with
  | editRules rules => exact h.of_keeps (h.gated.congr rfl rfl rfl rfl)
  | editHosts hosts => exact h.of_keeps (h.gated.congr rfl rfl rfl rfl)
  | createScript content => exact h.of_keeps (h.gated.congr rfl rfl rfl rfl)
  | updateScript sid content =>
      refine h.commit ?_
      intro db hok
      rw [updateScript] at hok
      split at hok
      · simp at hok
      · split_ifs at hok
        obtain rfl := Except.ok.inj hok
        exact h.gated.congr rfl rfl rfl rfl
  | rollbackScript sid v =>
      refine h.commit ?_
      intro db hok
      rw [rollbackScript] at hok
      split at hok
      · simp at hok
      · simp at hok
      · obtain rfl := Except.ok.inj hok
        exact h.gated.congr rfl rfl rfl rfl
  | createTask env spec policy =>
      simp only [GateState.apply]
      split
      · rename_i db c body hok hbody
        exact h.createTask hok hbody
      · exact h
  | approve env u a => exact h.commit fun db hok => approve_keeps h.gated hok
  | reject env u a => exact h.commit fun db hok => reject_keeps h.gated hok
  | cancelApproval env u admin a =>
      exact h.commit fun db hok => cancelApproval_keeps h.gated hok
  | dispatch env taskId => exact h.dispatch env taskId

/-- **Run lemma.** The invariant holds after every history; in particular a running
flagged task has an approved request. -/
theorem gated_run (lower : String → String) (hosts : List Host) (rules : ExecRules)
    (ops : List GateOp) :
    GateInv lower (run (GateState.apply lower) (GateState.start hosts rules) ops) :=
  run_invariant (gateInv_apply lower) (gateInv_start lower hosts rules) ops

/-! ### The gate -/

/-- The promise of the gate on one handover: content with a word that was configured at the
creation of the task belongs to a flagged task with an approved request. -/
def GateHolds (lower : String → String) (births : List Birth) (o : Handout) : Prop :=
  ∀ b ∈ births, b.taskId = o.taskId → (∃ w ∈ b.words, hits lower o.content w = true) →
    ∃ t, o.db.task? o.taskId = some t ∧ t.sensitiveFlag = true ∧ ApprovedIn o.db o.taskId

/-- The tables found by a dispatch bring no word into an unflagged task: a word of its
birth that occurs in the rendered text occurs in the text before rendering (the parameters
did not bring it) and in the text scanned at the creation (no later script version did). -/
def AddsNoWord (lower : String → String) (births : List Birth) (o : Handout) : Prop :=
  ∀ t, o.db.task? o.taskId = some t → t.sensitiveFlag = false →
    ∀ b ∈ births, b.taskId = o.taskId → ∀ w ∈ b.words,
      hits lower (resolveContent o.db t) w = true →
        hits lower (resolveBody o.db t) w = true ∧ hits lower b.scanned w = true

/-- On an accounted handover the gate holds exactly when the dispatch adds no word. -/
theorem Accounted.gateHolds_iff {lower : String → String} {births : List Birth} {o : Handout}
    (h : Accounted lower births o) :
    GateHolds lower births o ↔ AddsNoWord lower births o := by
  obtain ⟨t, ht, hcontent, happ, hclean⟩ := h
  have hto : t.id = o.taskId := Table.key_of_find ht
  constructor
  · intro hg t' ht' hf b hb hbt w hw hhit
    obtain rfl : t = t' := Option.some.inj (ht.symm.trans ht')
    obtain ⟨t'', ht'', hf'', -⟩ := hg b hb hbt ⟨w, hw, hcontent ▸ hhit⟩
    obtain rfl : t = t'' := Option.some.inj (ht.symm.trans ht'')
    rw [hf] at hf''
    exact absurd hf'' (by decide)
  · rintro ha b hb hbt ⟨w, hw, hhit⟩
    by_cases hf : t.sensitiveFlag = true
    · exact ⟨t, ht, hf, happ hf⟩
    · rw [Bool.not_eq_true] at hf
      obtain ⟨-, hscan⟩ := ha t ht hf b hb hbt w hw (hcontent ▸ hhit)
      rw [hclean hf b hb (hbt.trans hto.symm) w hw] at hscan
      exact absurd hscan (by decide)

/-- Some handover to an agent or to the mock carries a word of its task's birth although
the task is unflagged. -/
def GateState.leaks (lower : String → String) (s : GateState) : Bool :=
  s.log.any fun o =>
    decide (o.via ≠ .ssh) && (o.db.task? o.taskId).any (fun t => !t.sensitiveFlag) &&
      s.births.any fun b => decide (b.taskId = o.taskId) && b.words.any (hits lower o.content)

theorem not_gateHolds_of_leaks {lower : String → String} {s : GateState}
    (h : s.leaks lower = true) :
    ¬ ∀ o ∈ s.log, o.via ≠ .ssh → GateHolds lower s.births o := by
  intro hg
  obtain ⟨o, ho, hleak⟩ := List.any_eq_true.mp h
  simp only [Bool.and_eq_true, decide_eq_true_eq, List.any_eq_true, Option.any_eq_true,
    Bool.not_eq_eq_eq_not, Bool.not_true] at hleak
  obtain ⟨⟨hvia, t, ht, hf⟩, b, hb, hbt, w, hw, hhit⟩ := hleak
  obtain ⟨t', ht', hf', -⟩ := hg o ho hvia b hb hbt ⟨w, hw, hhit⟩
  obtain rfl : t = t' := Option.some.inj (ht.symm.trans ht')
  rw [hf] at hf'
  exact absurd hf' (by decide)

/-- Lowering of ASCII text. -/
def asciiLower (s : String) : String :=
  String.ofList (s.toList.map Char.toLower)

/-- One host without an agent, and the single sensitive word `rm -rf`. -/
def demoStart : GateState :=
  GateState.start [⟨1, some 1, "agent", none⟩] ⟨["rm -rf"], none, false⟩

def demoEnv : ExecEnv := ⟨0, false, false⟩

/-- Every semaphore is free and no agent is connected, so the mock runs the content. -/
def demoDispatch : DispatchEnv :=
  { demoEnv with
    acquires := fun _ => true
    agentAccepts := fun _ => false
    sshSucceeds := fun _ => false }

def demoSpec : TaskSpec where
  name := "demo"
  kind := "command"
  targetHostIds := [1]
  scriptId := none
  scriptVersion := none
  command := none
  params := []
  mode := "batch"
  timeoutSec := 300
  retry := 0
  createdBy := some 7
  requesterId := some 7
  visibleGroupIds := none

/-- A command that is only a placeholder, with the word in the parameter value. -/
def paramsHistory : List GateOp :=
  [.createTask demoEnv { demoSpec with
      command := some (placeholder "x"), params := [("x", "rm -rf /srv")] } none,
    .dispatch demoDispatch 1]

/-- A script task without a pinned version, created before the version with the word is
published and dispatched after it. -/
def versionHistory : List GateOp :=
  [.createScript "ls",
    .createTask demoEnv { demoSpec with kind := "script", scriptId := some 1 } none,
    .updateScript 1 "rm -rf /srv",
    .dispatch demoDispatch 1]

end LarkPlat
