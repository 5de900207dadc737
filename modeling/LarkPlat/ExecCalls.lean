import LarkPlat.Engine
import LarkPlat.ExecProtocol
import LarkPlat.SensitiveGate

/-!
# Complete Calls on the Execution Tables

The calls of the execution and approval services, each from its first read to its commit, as
the workflow engine sees them between two of its own calls: creations, dispatches, decisions on
approval requests, stops, timeout sweeps, retries and agent results.

A call touches at most one existing task and one existing request (`Touches`), or adds rows under
fresh identifiers. From this two facts follow for every call. `Kept` is the invariant of the tables:
a pending request of a task is the request of that task, and the task awaits it. `CarriesOver` is
what rows outside the tables can rely on: ended tasks stay ended unless they are retried, and
decided requests stay decided.

## Main results

* `cancelExecTaskRecord_call`, `terminal_of_not_canceled`: a cancellation ends its task and closes
  the request, and a task that it does not take up has ended.
* `createExecTaskRecord_creates`: when a creation succeeds, and the rows it adds.
* `ExecOp.call`: every call keeps the invariant and carries the ended over.
-/

namespace LarkPlat

variable {env : ExecEnv} {db db' db'' : ExecDb} {id : ℕ}

/-- The identifiers that the requests are bound to. -/
def ExecDb.bizIds (db : ExecDb) : List ℕ := db.approvals.map ApprovalRequest.bizId

/-! ### Lookups -/

section Lookups

variable {t : ExecTask} {a : ApprovalRequest} {f : ExecTask → ExecTask}
  {g : ApprovalRequest → ApprovalRequest}

theorem task?_setTask_self (hf : ∀ t, (f t).id = t.id) (h : db.task? id = some t) :
    (db.setTask id f).task? id = some (f t) := by
  have hfind : (db.setTask id f).task? id = (db.task? id).map f :=
    Table.find_modify_self fun r hr => (hf r).trans hr
  rw [hfind, h, Option.map_some]

theorem task?_setTask_ne (hf : ∀ t, (f t).id = t.id) {id' : ℕ} (hne : id' ≠ id) :
    (db.setTask id f).task? id' = db.task? id' :=
  Table.find_modify_ne (fun r hr => (hf r).trans hr) hne

theorem approval?_setApproval_self (hg : ∀ a, (g a).id = a.id) (h : db.approval? id = some a) :
    (db.setApproval id g).approval? id = some (g a) := by
  have hfind : (db.setApproval id g).approval? id = (db.approval? id).map g :=
    Table.find_modify_self fun r hr => (hg r).trans hr
  rw [hfind, h, Option.map_some]

theorem approval?_setApproval_ne (hg : ∀ a, (g a).id = a.id) {id' : ℕ} (hne : id' ≠ id) :
    (db.setApproval id g).approval? id' = db.approval? id' :=
  Table.find_modify_ne (fun r hr => (hg r).trans hr) hne

end Lookups

/-! ### Changes of one task and one request -/

/-- The change touches no task but `tid` and no request but `aid`; it adds and removes no row, and
requests keep what they are bound to. -/
structure Touches (tid aid : Option ℕ) (db db' : ExecDb) : Prop where
  nextTask : db'.nextTask = db.nextTask
  nextApproval : db'.nextApproval = db.nextApproval
  task : ∀ id, tid ≠ some id → db'.task? id = db.task? id
  task_isSome : ∀ id, (db'.task? id).isSome = (db.task? id).isSome
  approval : ∀ id, aid ≠ some id → db'.approval? id = db.approval? id
  bound : ∀ id, (db'.approval? id).map (fun a => (a.bizType, a.bizId)) =
    (db.approval? id).map fun a => (a.bizType, a.bizId)

variable {tid aid : Option ℕ}

theorem touches_congr (ht : db'.tasks = db.tasks) (ha : db'.approvals = db.approvals)
    (hnt : db'.nextTask = db.nextTask) (hna : db'.nextApproval = db.nextApproval) :
    Touches tid aid db db' := by
  have htask : ∀ id, db'.task? id = db.task? id := by
    intro id
    rw [ExecDb.task?, ht, ExecDb.task?]
  have happ : ∀ id, db'.approval? id = db.approval? id := by
    intro id
    rw [ExecDb.approval?, ha, ExecDb.approval?]
  refine ⟨hnt, hna, fun id _ => htask id, ?_, fun id _ => happ id, ?_⟩
  · intro id
    rw [htask]
  · intro id
    rw [happ]

theorem Touches.refl (db : ExecDb) : Touches tid aid db db := touches_congr rfl rfl rfl rfl

theorem Touches.trans (h : Touches tid aid db db') (h' : Touches tid aid db' db'') :
    Touches tid aid db db'' where
  nextTask := h'.nextTask.trans h.nextTask
  nextApproval := h'.nextApproval.trans h.nextApproval
  task id hid := (h'.task id hid).trans (h.task id hid)
  task_isSome id := (h'.task_isSome id).trans (h.task_isSome id)
  approval id hid := (h'.approval id hid).trans (h.approval id hid)
  bound id := (h'.bound id).trans (h.bound id)

theorem Touches.with_request (h : Touches tid none db db') (aid : Option ℕ) :
    Touches tid aid db db' :=
  ⟨h.nextTask, h.nextApproval, h.task, h.task_isSome, fun id _ => h.approval id (by simp), h.bound⟩

theorem touches_setTask {f : ExecTask → ExecTask} (hf : ∀ t, (f t).id = t.id) :
    Touches (some id) aid db (db.setTask id f) := by
  refine ⟨rfl, rfl, ?_, ?_, fun _ _ => rfl, fun _ => rfl⟩
  · intro id' hne
    exact task?_setTask_ne hf fun he => hne (he ▸ rfl)
  · intro id'
    by_cases hid : id' = id
    · subst hid
      have hfind : (db.setTask id' f).task? id' = (db.task? id').map f :=
        Table.find_modify_self fun r hr => (hf r).trans hr
      rw [hfind, Option.isSome_map]
    · rw [task?_setTask_ne hf hid]

theorem touches_setApproval {g : ApprovalRequest → ApprovalRequest} (hg : ∀ a, (g a).id = a.id)
    (hb : ∀ a, (g a).bizType = a.bizType ∧ (g a).bizId = a.bizId) :
    Touches tid (some id) db (db.setApproval id g) := by
  refine ⟨rfl, rfl, fun _ _ => rfl, fun _ => rfl, ?_, ?_⟩
  · intro id' hne
    exact approval?_setApproval_ne hg fun he => hne (he ▸ rfl)
  · intro id'
    by_cases hid : id' = id
    · subst hid
      have hfind : (db.setApproval id' g).approval? id' = (db.approval? id').map g :=
        Table.find_modify_self fun r hr => (hg r).trans hr
      rw [hfind, Option.map_map]
      congr 1
      funext a
      exact Prod.ext (hb a).1 (hb a).2
    · rw [approval?_setApproval_ne hg hid]

/-! ### The invariant and what a call carries over -/

/-- The invariant of the tables. A pending request of a task is the request of that task, and the
task awaits it; no task is `rejected`, a status that no call writes. -/
structure Kept (db : ExecDb) : Prop where
  task_lt : ∀ id, (db.task? id).isSome = true → id < db.nextTask
  approval_lt : ∀ id, (db.approval? id).isSome = true → id < db.nextApproval
  awaits : ∀ id a, db.approval? id = some a → a.bizType = .exec → a.status = .pending →
    ∃ t, db.task? a.bizId = some t ∧ t.status = .awaitingApproval ∧ t.approvalId = some id
  not_rejected : ∀ id t, db.task? id = some t → t.status ≠ .rejected

/-- What a change carries over: ended tasks outside `reopened` stay ended, requests keep their
binding, decided requests stay decided, and no row appears under an old identifier. -/
structure CarriesOver (reopened : List ℕ) (db db' : ExecDb) : Prop where
  nextTask : db.nextTask ≤ db'.nextTask
  nextApproval : db.nextApproval ≤ db'.nextApproval
  ended : ∀ id t, db.task? id = some t → t.status.terminal = true → id ∉ reopened →
    ∃ t', db'.task? id = some t' ∧ t'.status.terminal = true
  task_none : ∀ id, id < db.nextTask → db.task? id = none → db'.task? id = none
  decided : ∀ id a, db.approval? id = some a → ∃ a', db'.approval? id = some a' ∧
    a'.bizType = a.bizType ∧ a'.bizId = a.bizId ∧ (a.status ≠ .pending → a'.status ≠ .pending)
  approval_none : ∀ id, id < db.nextApproval → db.approval? id = none → db'.approval? id = none

variable {reopened : List ℕ}

theorem CarriesOver.refl (reopened : List ℕ) (db : ExecDb) : CarriesOver reopened db db where
  nextTask := le_rfl
  nextApproval := le_rfl
  ended _ t ht hend _ := ⟨t, ht, hend⟩
  task_none _ _ h := h
  decided _ a ha := ⟨a, ha, rfl, rfl, id⟩
  approval_none _ _ h := h

theorem CarriesOver.trans (h : CarriesOver reopened db db') (h' : CarriesOver reopened db' db'') :
    CarriesOver reopened db db'' where
  nextTask := h.nextTask.trans h'.nextTask
  nextApproval := h.nextApproval.trans h'.nextApproval
  ended id t ht hend hid := by
    obtain ⟨t', ht', hend'⟩ := h.ended id t ht hend hid
    exact h'.ended id t' ht' hend' hid
  task_none id hlt hnone :=
    h'.task_none id (lt_of_lt_of_le hlt h.nextTask) (h.task_none id hlt hnone)
  decided id a ha := by
    obtain ⟨a', ha', htype', hid', hdec'⟩ := h.decided id a ha
    obtain ⟨a'', ha'', htype'', hid'', hdec''⟩ := h'.decided id a' ha'
    exact ⟨a'', ha'', htype''.trans htype', hid''.trans hid', fun hd => hdec'' (hdec' hd)⟩
  approval_none id hlt hnone :=
    h'.approval_none id (lt_of_lt_of_le hlt h.nextApproval) (h.approval_none id hlt hnone)

theorem Touches.binding (h : Touches tid aid db db') {a : ApprovalRequest}
    (ha : db.approval? id = some a) :
    ∃ a', db'.approval? id = some a' ∧ a'.bizType = a.bizType ∧ a'.bizId = a.bizId := by
  have hb := h.bound id
  rw [ha, Option.map_some] at hb
  obtain ⟨a', ha', heq⟩ := Option.map_eq_some_iff.mp hb
  exact ⟨a', ha', (Prod.mk.inj heq).1, (Prod.mk.inj heq).2⟩

theorem Touches.approval_isSome (h : Touches tid aid db db') (id : ℕ) :
    (db'.approval? id).isSome = (db.approval? id).isSome := by
  have hb := congrArg Option.isSome (h.bound id)
  rw [Option.isSome_map, Option.isSome_map] at hb
  exact hb

/-- A change that decides the request it touches, and touches no ended task but a reopened
one. -/
theorem Touches.carries (h : Touches tid aid db db')
    (hdec : ∀ id a, aid = some id → db'.approval? id = some a → a.status ≠ .pending)
    (hend : ∀ id t, tid = some id → db.task? id = some t → t.status.terminal = true →
      id ∈ reopened) : CarriesOver reopened db db' where
  nextTask := h.nextTask.ge
  nextApproval := h.nextApproval.ge
  ended id t ht hterm hnot := by
    have hne : tid ≠ some id := fun htid => hnot (hend id t htid ht hterm)
    exact ⟨t, by rw [h.task id hne, ht], hterm⟩
  task_none id _ hnone := by
    have hs := h.task_isSome id
    rw [hnone] at hs
    exact Option.not_isSome_iff_eq_none.mp (by rw [hs]; exact Bool.false_ne_true)
  decided id a ha := by
    obtain ⟨a', ha', htype, hid⟩ := h.binding ha
    refine ⟨a', ha', htype, hid, ?_⟩
    intro hd
    by_cases haid : aid = some id
    · exact hdec id a' haid ha'
    · rw [h.approval id haid, ha] at ha'
      obtain rfl := Option.some.inj ha'
      exact hd
  approval_none id _ hnone := by
    have hs := h.approval_isSome id
    rw [hnone] at hs
    exact Option.not_isSome_iff_eq_none.mp (by rw [hs]; exact Bool.false_ne_true)

/-- A change that decides the request it touches, and touches an awaiting task only together with
its request, keeps the invariant. -/
theorem Touches.kept (h : Touches tid aid db db') (hk : Kept db)
    (hdec : ∀ id a, aid = some id → db'.approval? id = some a → a.status ≠ .pending)
    (hawait : ∀ id t, tid = some id → db.task? id = some t → t.status = .awaitingApproval →
      t.approvalId = aid)
    (hrej : ∀ id t, tid = some id → db'.task? id = some t → t.status ≠ .rejected) :
    Kept db' where
  task_lt id hs := by
    rw [h.task_isSome] at hs
    rw [h.nextTask]
    exact hk.task_lt id hs
  approval_lt id hs := by
    rw [h.approval_isSome] at hs
    rw [h.nextApproval]
    exact hk.approval_lt id hs
  awaits id a ha htype hpend := by
    have haid : aid ≠ some id := fun haid => hdec id a haid ha hpend
    rw [h.approval id haid] at ha
    obtain ⟨t, ht, hst, hlink⟩ := hk.awaits id a ha htype hpend
    have htid : tid ≠ some a.bizId := by
      intro htid
      exact haid ((hawait a.bizId t htid ht hst).symm.trans hlink)
    exact ⟨t, by rw [h.task _ htid]; exact ht, hst, hlink⟩
  not_rejected id t ht := by
    by_cases htid : tid = some id
    · exact hrej id t htid ht
    · rw [h.task id htid] at ht
      exact hk.not_rejected id t ht

/-! ### Guarded updates -/

theorem casTask_touches {version : ℕ} {old new : ExecStatus} (aid : Option ℕ)
    (h : db.casTask id old new version = some db') :
    Touches (some id) aid db db' ∧ ∃ t t', db.task? id = some t ∧ t.status = old ∧
      db'.task? id = some t' ∧ t'.status = new ∧ t'.approvalId = t.approvalId := by
  obtain ⟨t, ht, hst, rfl⟩ := casTask_eq_some h
  exact ⟨touches_setTask fun _ => rfl, t, _, ht, hst, task?_setTask_self (fun _ => rfl) ht, rfl, rfl⟩

theorem touches_touchTask {f : ExecTask → ExecTask} (aid : Option ℕ) (hid : ∀ t, (f t).id = t.id)
    (hst : ∀ t, (f t).status = t.status) {t : ExecTask} (ht : db.task? id = some t) :
    Touches (some id) aid db (db.setTask id f) ∧
      ∃ t', (db.setTask id f).task? id = some t' ∧ t'.status = t.status :=
  ⟨touches_setTask hid, _, task?_setTask_self hid ht, hst t⟩

theorem decide?_touches {a : ApprovalRequest} {new : ApprovalStatus} {approver : Option ℕ}
    (tid : Option ℕ) (h : decide? db a new approver = .ok db') :
    Touches tid (some a.id) db db' ∧ ∃ a', db'.approval? a.id = some a' ∧ a'.status = new := by
  unfold decide? at h
  split at h
  · cases h
  · rename_i db₁ hc
    obtain rfl := Except.ok.inj h
    obtain ⟨b, hb, -, rfl⟩ := casApproval_eq_some hc
    have hset : Touches tid (some a.id) db (db.setApproval a.id fun b =>
        { b with status := new, version := a.version + 1 }) :=
      touches_setApproval (fun _ => rfl) fun _ => ⟨rfl, rfl⟩
    refine ⟨hset.trans (touches_setApproval (fun _ => rfl) fun _ => ⟨rfl, rfl⟩), ?_⟩
    have hfound : (db.setApproval a.id fun b =>
        { b with status := new, version := a.version + 1 }).approval? a.id = some
          { b with status := new, version := a.version + 1 } :=
      approval?_setApproval_self (fun _ => rfl) hb
    exact ⟨_, approval?_setApproval_self (fun _ => rfl) hfound, rfl⟩

/-- `_approve_exec` starts an awaiting task. -/
theorem approveExec_touches (aid : Option ℕ) (h : approveExec env db id = .ok db') :
    Touches (some id) aid db db' ∧ ∃ t t', db.task? id = some t ∧
      t.status = .awaitingApproval ∧ db'.task? id = some t' ∧ t'.status = .running := by
  rw [approveExec] at h
  rcases ht : db.task? id with _ | task
  · simp [ht] at h
  rw [ht] at h
  obtain rfl : task.id = id := Table.key_of_find ht
  rcases hc : db.casTask task.id .awaitingApproval .running task.version with _ | db₁
  · simp [hc] at h
  simp only [hc, Except.ok.injEq] at h
  obtain ⟨hcas, t, t₁, ht₀, hst, ht₁, hst₁, -⟩ := casTask_touches aid hc
  obtain ⟨htouch, t₂, ht₂, hst₂⟩ := touches_touchTask (f := fun t => { t with
    startedAt := some env.now }) aid (fun _ => rfl) (fun _ => rfl) ht₁
  have hboth := hcas.trans htouch
  have hrun : t₂.status = .running := hst₂.trans hst₁
  rw [ht] at ht₀
  subst h
  split_ifs
  · exact ⟨hboth.trans (touches_congr rfl rfl rfl rfl), t, t₂, ht₀, hst, ht₂, hrun⟩
  · exact ⟨hboth, t, t₂, ht₀, hst, ht₂, hrun⟩

/-- The awaiting task of a declined request is canceled, any other task is left. -/
theorem cancelAwaiting_touches (env : ExecEnv) (db : ExecDb) (id : ℕ) (aid : Option ℕ) :
    Touches (some id) aid db (cancelAwaiting env db id) ∧
      ((∃ t t', db.task? id = some t ∧ t.status = .awaitingApproval ∧
          (cancelAwaiting env db id).task? id = some t' ∧ t'.status = .canceled) ∨
        cancelAwaiting env db id = db ∧
          ∀ t, db.task? id = some t → t.status ≠ .awaitingApproval) := by
  unfold cancelAwaiting
  rcases ht : db.task? id with _ | task
  · exact ⟨Touches.refl db, Or.inr ⟨rfl, fun t h => by cases h⟩⟩
  obtain rfl : task.id = id := Table.key_of_find ht
  dsimp only
  split_ifs with hst
  · have hcas : db.casTask task.id .awaitingApproval .canceled task.version =
        some (db.setTask task.id fun t =>
          { t with status := .canceled, version := task.version + 1 }) := by
      rw [ExecDb.casTask, ht]
      exact if_pos ⟨hst, rfl⟩
    rw [hcas]
    obtain ⟨hcas', -, t₁, -, -, ht₁, hst₁, -⟩ := casTask_touches aid hcas
    obtain ⟨htouch, t₂, ht₂, hst₂⟩ := touches_touchTask (f := fun t => { t with
      finishedAt := some env.now }) aid (fun _ => rfl) (fun _ => rfl) ht₁
    exact ⟨hcas'.trans htouch, Or.inl ⟨task, t₂, rfl, hst, ht₂, hst₂.trans hst₁⟩⟩
  · refine ⟨Touches.refl db, Or.inr ⟨rfl, ?_⟩⟩
    intro t h
    obtain rfl := Option.some.inj h
    exact hst

/-- `_close_orphan_approval` leaves no pending request behind the task. -/
theorem closeOrphanApproval_touches (db : ExecDb) (task : ExecTask) (tid : Option ℕ) :
    Touches tid task.approvalId db (closeOrphanApproval db task) ∧
      (closeOrphanApproval db task).tasks = db.tasks ∧
      ∀ id a, task.approvalId = some id →
        (closeOrphanApproval db task).approval? id = some a → a.status ≠ .pending := by
  unfold closeOrphanApproval
  split
  · exact ⟨Touches.refl db, rfl, fun id a h => by simp_all⟩
  rename_i aid haid
  rcases ha : db.approval? aid with _ | a
  · refine ⟨Touches.refl db, rfl, ?_⟩
    rintro id b hid hb
    obtain rfl := Option.some.inj (haid.symm.trans hid)
    rw [ha] at hb
    cases hb
  obtain rfl : a.id = aid := Table.key_of_find ha
  dsimp only
  split_ifs with hp
  · have hcas : db.casApproval a.id .pending .canceled a.version =
        some (db.setApproval a.id fun b =>
          { b with status := .canceled, version := a.version + 1 }) := by
      rw [ExecDb.casApproval, ha]
      exact if_pos ⟨hp, rfl⟩
    rw [hcas, Option.getD_some, haid]
    refine ⟨touches_setApproval (fun _ => rfl) fun _ => ⟨rfl, rfl⟩, rfl, ?_⟩
    rintro id b hid hb
    obtain rfl := Option.some.inj hid
    have hclosed : (db.setApproval a.id fun b => { b with
        status := .canceled, version := a.version + 1 }).approval? a.id = some { a with
          status := .canceled, version := a.version + 1 } :=
      approval?_setApproval_self (fun _ => rfl) ha
    obtain rfl := Option.some.inj (hclosed.symm.trans hb)
    exact ApprovalStatus.noConfusion
  · refine ⟨Touches.refl db, rfl, ?_⟩
    rintro id b hid hb
    obtain rfl := Option.some.inj (haid.symm.trans hid)
    rw [ha] at hb
    obtain rfl := Option.some.inj hb
    exact hp

/-! ### Decisions -/

/-- What an operation does for the engine. -/
structure Call (reopened : List ℕ) (db db' : ExecDb) : Prop where
  kept : Kept db'
  carries : CarriesOver reopened db db'

theorem Call.refl (hk : Kept db) : Call reopened db db := ⟨hk, CarriesOver.refl reopened db⟩

theorem Call.trans (h : Call reopened db db') (h' : Call reopened db' db'') :
    Call reopened db db'' :=
  ⟨h'.kept, h.carries.trans h'.carries⟩

/-- A change that decides the request it touches, and touches an open task only: one that awaits
nothing, or awaits the touched request. -/
theorem Touches.call (h : Touches tid aid db db') (hk : Kept db)
    (hdec : ∀ id a, aid = some id → db'.approval? id = some a → a.status ≠ .pending)
    (htask : ∀ id t, tid = some id → db.task? id = some t →
      (t.status.terminal = true → id ∈ reopened) ∧
        (t.status = .awaitingApproval → t.approvalId = aid))
    (hrej : ∀ id t, tid = some id → db'.task? id = some t → t.status ≠ .rejected) :
    Call reopened db db' :=
  ⟨h.kept hk hdec (fun id t htid ht => (htask id t htid ht).2) hrej,
    h.carries hdec fun id t htid ht => (htask id t htid ht).1⟩

theorem Touches.call_task (h : Touches (some id) none db db') (hk : Kept db) {t t' : ExecTask}
    (ht : db.task? id = some t) (hend : t.status.terminal = true → id ∈ reopened)
    (hawait : t.status ≠ .awaitingApproval) (ht' : db'.task? id = some t')
    (hrej : t'.status ≠ .rejected) : Call reopened db db' := by
  refine h.call hk (fun _ _ hc => by cases hc) ?_ ?_
  · intro i t₁ hi ht₁
    obtain rfl := Option.some.inj hi
    obtain rfl := Option.some.inj (ht.symm.trans ht₁)
    exact ⟨hend, fun hc => absurd hc hawait⟩
  · intro i t₁ hi ht₁
    obtain rfl := Option.some.inj hi
    obtain rfl := Option.some.inj (ht'.symm.trans ht₁)
    exact hrej

theorem decision_call {a : ApprovalRequest} {new : ApprovalStatus} {approver : Option ℕ}
    {db₁ : ExecDb} (hk : Kept db) (hpend : requirePending db id = .ok a)
    (hdec : decide? db a new approver = .ok db₁) (hnew : new ≠ .pending)
    (heffect : (a.bizType = .exec ∧ Touches (some a.bizId) none db₁ db' ∧
      ∃ t', db'.task? a.bizId = some t' ∧ t'.status ≠ .rejected) ∨ db' = db₁) :
    Call reopened db db' := by
  obtain ⟨hfind, hst⟩ := requirePending_eq_ok hpend
  obtain rfl : a.id = id := Table.key_of_find hfind
  obtain ⟨htouch, a', ha', hst'⟩ := decide?_touches (some a.bizId) hdec
  -- the request is decided in the end
  have hclosed : ∀ i b, some a.id = some i → db₁.approval? i = some b → b.status ≠ .pending := by
    intro i b hi hb
    obtain rfl := Option.some.inj hi
    obtain rfl := Option.some.inj (ha'.symm.trans hb)
    rw [hst']
    exact hnew
  rcases heffect with ⟨hb, htask, t', ht', hrej⟩ | rfl
  · obtain ⟨t, ht, hwait, hlink⟩ := hk.awaits a.id a hfind hb hst
    refine (htouch.trans (htask.with_request _)).call hk ?_ ?_ ?_
    · intro i b hi hb
      rw [htask.approval i (by simp)] at hb
      exact hclosed i b hi hb
    · intro i t₁ hi ht₁
      obtain rfl := Option.some.inj hi
      obtain rfl := Option.some.inj (ht.symm.trans ht₁)
      refine ⟨fun hterm => ?_, fun _ => hlink⟩
      rw [hwait] at hterm
      cases hterm
    · intro i t₁ hi ht₁
      obtain rfl := Option.some.inj hi
      obtain rfl := Option.some.inj (ht'.symm.trans ht₁)
      exact hrej
  · have hnotask : Touches none (some a.id) db db' := (decide?_touches none hdec).1
    exact hnotask.call hk hclosed (fun _ _ hc => by cases hc) fun _ _ hc => by cases hc

/-- `approve`. -/
theorem approve_call {userId : ℕ} (hk : Kept db) (h : approve env db userId id = .ok db') :
    Call reopened db db' := by
  rw [approve] at h
  obtain ⟨a, hp, h⟩ := bind_eq_ok.mp h
  obtain ⟨db₁, hd, h⟩ := bind_eq_ok.mp h
  refine decision_call hk hp hd (by decide) ?_
  by_cases hb : a.bizType = .exec
  · rw [if_pos hb] at h
    obtain ⟨htask, -, t', -, -, ht', hrun⟩ := approveExec_touches none h
    refine Or.inl ⟨hb, htask, t', ht', ?_⟩
    rw [hrun]
    exact ExecStatus.noConfusion
  · rw [if_neg hb] at h
    obtain rfl : db₁ = db' := Except.ok.inj h
    exact Or.inr rfl

theorem decline_call {a : ApprovalRequest} {new : ApprovalStatus} {approver : Option ℕ}
    {db₁ : ExecDb} (env : ExecEnv) (hk : Kept db) (hpend : requirePending db id = .ok a)
    (hdec : decide? db a new approver = .ok db₁) (hnew : new ≠ .pending) :
    Call reopened db (if a.bizType = .exec then cancelAwaiting env db₁ a.bizId else db₁) := by
  refine decision_call hk hpend hdec hnew ?_
  by_cases hb : a.bizType = .exec
  · rw [if_pos hb]
    obtain ⟨htask, ⟨-, t', -, -, ht', hst'⟩ | ⟨heq, -⟩⟩ := cancelAwaiting_touches env db₁ a.bizId none
    · refine Or.inl ⟨hb, htask, t', ht', ?_⟩
      rw [hst']
      exact ExecStatus.noConfusion
    · exact Or.inr heq
  · rw [if_neg hb]
    exact Or.inr rfl

theorem reject_call {userId : ℕ} (hk : Kept db) (h : reject env db userId id = .ok db') :
    Call reopened db db' := by
  rw [reject] at h
  obtain ⟨a, hp, h⟩ := bind_eq_ok.mp h
  obtain ⟨db₁, hd, h⟩ := bind_eq_ok.mp h
  rw [← apply_ite pure] at h
  obtain rfl := Except.ok.inj h
  exact decline_call env hk hp hd (by decide)

theorem cancelApproval_call {userId : ℕ} {isAdmin : Bool} (hk : Kept db)
    (h : cancelApproval env db userId isAdmin id = .ok db') : Call reopened db db' := by
  rw [cancelApproval] at h
  obtain ⟨a, hp, h⟩ := bind_eq_ok.mp h
  by_cases hr : a.requesterId ≠ userId ∧ ¬ isAdmin = true
  · simp [hr] at h
  rw [if_neg hr] at h
  obtain ⟨db₁, hd, h⟩ := bind_eq_ok.mp h
  rw [← apply_ite pure] at h
  obtain rfl := Except.ok.inj h
  exact decline_call env hk hp hd (by decide)

/-! ### Stops, sweeps and retries -/

/-- The guarded update of a task, a change that keeps its status, and the closing of its
request. -/
theorem closing_call {task : ExecTask} {new : ExecStatus} {f : ExecTask → ExecTask} {db₁ : ExecDb}
    (hk : Kept db) (ht : db.task? task.id = some task)
    (hcas : db.casTask task.id task.status new task.version = some db₁)
    (hid : ∀ t, (f t).id = t.id) (hst : ∀ t, (f t).status = t.status) (hnew : new ≠ .rejected)
    (hend : task.status.terminal = true → task.id ∈ reopened) :
    Call reopened db (closeOrphanApproval (db₁.setTask task.id f) task) ∧
      ∃ t', (closeOrphanApproval (db₁.setTask task.id f) task).task? task.id = some t' ∧
        t'.status = new := by
  obtain ⟨h₁, -, t₁, -, -, ht₁, hst₁, -⟩ := casTask_touches task.approvalId hcas
  obtain ⟨h₂, t₂, ht₂, hst₂⟩ := touches_touchTask task.approvalId hid hst ht₁
  obtain ⟨h₃, htasks, hclosed⟩ :=
    closeOrphanApproval_touches (db₁.setTask task.id f) task (some task.id)
  have hfound : (closeOrphanApproval (db₁.setTask task.id f) task).task? task.id = some t₂ := by
    rw [ExecDb.task?, htasks]
    exact ht₂
  have hst' : t₂.status = new := hst₂.trans hst₁
  refine ⟨((h₁.trans h₂).trans h₃).call hk hclosed ?_ ?_, t₂, hfound, hst'⟩
  · intro i t hi ht'
    obtain rfl := Option.some.inj hi
    obtain rfl := Option.some.inj (ht.symm.trans ht')
    exact ⟨hend, fun _ => rfl⟩
  · intro i t hi ht'
    obtain rfl := Option.some.inj hi
    obtain rfl := Option.some.inj (hfound.symm.trans ht')
    rw [hst']
    exact hnew

/-- The invariant and what is carried over do not depend on the other tables. -/
theorem Call.congr (h : Call reopened db db') (ht : db''.tasks = db'.tasks)
    (ha : db''.approvals = db'.approvals) (hnt : db''.nextTask = db'.nextTask)
    (hna : db''.nextApproval = db'.nextApproval) : Call reopened db db'' := by
  have htouch : Touches none none db' db'' := touches_congr ht ha hnt hna
  exact h.trans (htouch.call h.kept (fun _ _ hc => by cases hc) (fun _ _ hc => by cases hc)
    fun _ _ hc => by cases hc)

/-- `cancel_exec_task_record` on a task as it is stored: the task is canceled and its request is
closed. -/
theorem cancelExecTaskRecord_call {task : ExecTask} (hk : Kept db)
    (ht : db.task? task.id = some task) (h : cancelExecTaskRecord env db task = some db') :
    Call reopened db db' ∧ ∃ t', db'.task? task.id = some t' ∧ t'.status = .canceled := by
  unfold cancelExecTaskRecord at h
  split_ifs at h with hst
  split at h
  · cases h
  · rename_i db₁ hcas
    obtain rfl := Option.some.inj h
    have hopen : task.status.terminal = true → task.id ∈ reopened := by
      intro hterm
      exfalso
      revert hst hterm
      cases task.status <;> simp [ExecStatus.cancellable, ExecStatus.terminal]
    obtain ⟨hcall, t', ht', hst'⟩ := closing_call (f := fun t => { t with
      finishedAt := some env.now }) hk ht hcas (fun _ => rfl) (fun _ => rfl) (by decide) hopen
    exact ⟨hcall.congr rfl rfl rfl rfl, t', ht', hst'⟩

/-- A task that `cancel_exec_task_record` does not take up has ended. -/
theorem terminal_of_not_canceled {task : ExecTask} (hk : Kept db)
    (ht : db.task? task.id = some task) (h : cancelExecTaskRecord env db task = none) :
    task.status.terminal = true := by
  unfold cancelExecTaskRecord at h
  split_ifs at h with hst
  · have hcas : db.casTask task.id task.status .canceled task.version =
        some (db.setTask task.id fun t =>
          { t with status := .canceled, version := task.version + 1 }) := by
      rw [ExecDb.casTask, ht]
      exact if_pos ⟨rfl, rfl⟩
    rw [hcas] at h
    cases h
  · have hrej := hk.not_rejected task.id task ht
    revert hst hrej
    cases task.status <;> simp [ExecStatus.cancellable, ExecStatus.terminal]

theorem closeTask_timeout_call {task : ExecTask} {rows : List ℕ} (hk : Kept db)
    (ht : db.task? task.id = some task) (hrun : task.status = .running)
    (h : closeTask .timeout env db task rows = some db') : Call reopened db db' := by
  unfold closeTask at h
  split at h
  · cases h
  · rename_i db₁ hcas
    obtain rfl := Option.some.inj h
    obtain ⟨h₁, -, t₁, -, -, ht₁, hst₁, -⟩ := casTask_touches none hcas
    obtain ⟨h₂, t₂, ht₂, hst₂⟩ := touches_touchTask (f := fun t => { t with
      finishedAt := some env.now }) none (fun _ => rfl) (fun _ => rfl) ht₁
    have hcall : Call reopened db (db₁.setTask task.id fun t =>
        { t with finishedAt := some env.now }) := by
      refine (h₁.trans h₂).call_task hk ht ?_ ?_ ht₂ ?_
      · rw [hrun]
        exact fun hc => by cases hc
      · rw [hrun]
        exact ExecStatus.noConfusion
      · rw [hst₂, hst₁]
        exact ExecStatus.noConfusion
    exact hcall.congr rfl rfl rfl rfl

theorem retryTask_call {task : ExecTask} {rows : List ℕ} (hk : Kept db)
    (ht : db.task? task.id = some task) (h : retryTask env db task rows = some db') :
    Call [task.id] db db' := by
  unfold retryTask at h
  split at h
  · cases h
  · rename_i db₁ hcas
    obtain rfl := Option.some.inj h
    obtain ⟨hcall, -⟩ := closing_call (f := fun t => { t with
        startedAt := some env.now, finishedAt := none }) hk ht hcas (fun _ => rfl)
      (fun _ => rfl) (by decide) fun _ => List.mem_singleton_self task.id
    exact hcall.congr rfl rfl rfl rfl

/-! ### Added rows -/

/-- Rows were added under fresh identifiers, nothing else was changed. -/
structure Grown (db db' : ExecDb) : Prop where
  hosts : db'.hosts = db.hosts
  scripts : db'.scripts = db.scripts
  scriptVersions : db'.scriptVersions = db.scriptVersions
  rules : db'.rules = db.rules
  nextTask : db.nextTask ≤ db'.nextTask
  nextApproval : db.nextApproval ≤ db'.nextApproval
  task : ∀ id, id < db.nextTask → db'.task? id = db.task? id
  approval : ∀ id, id < db.nextApproval → db'.approval? id = db.approval? id

theorem Grown.refl (db : ExecDb) : Grown db db :=
  ⟨rfl, rfl, rfl, rfl, le_rfl, le_rfl, fun _ _ => rfl, fun _ _ => rfl⟩

theorem Grown.trans (h : Grown db db') (h' : Grown db' db'') : Grown db db'' where
  hosts := h'.hosts.trans h.hosts
  scripts := h'.scripts.trans h.scripts
  scriptVersions := h'.scriptVersions.trans h.scriptVersions
  rules := h'.rules.trans h.rules
  nextTask := h.nextTask.trans h'.nextTask
  nextApproval := h.nextApproval.trans h'.nextApproval
  task id hlt := (h'.task id (lt_of_lt_of_le hlt h.nextTask)).trans (h.task id hlt)
  approval id hlt :=
    (h'.approval id (lt_of_lt_of_le hlt h.nextApproval)).trans (h.approval id hlt)

theorem Grown.carries (h : Grown db db') (hk : Kept db) : CarriesOver reopened db db' where
  nextTask := h.nextTask
  nextApproval := h.nextApproval
  ended id t ht hend _ := by
    have hlt := hk.task_lt id (by rw [ht]; rfl)
    exact ⟨t, by rw [h.task id hlt, ht], hend⟩
  task_none id hlt hnone := by rw [h.task id hlt, hnone]
  decided id a ha := by
    have hlt := hk.approval_lt id (by rw [ha]; rfl)
    exact ⟨a, by rw [h.approval id hlt, ha], rfl, rfl, fun hd => hd⟩
  approval_none id hlt hnone := by rw [h.approval id hlt, hnone]

theorem Kept.task?_none (hk : Kept db) (hge : db.nextTask ≤ id) : db.task? id = none := by
  by_contra hc
  have hlt := hk.task_lt id (Option.isSome_iff_ne_none.mpr hc)
  omega

theorem Kept.approval?_none (hk : Kept db) (hge : db.nextApproval ≤ id) :
    db.approval? id = none := by
  by_contra hc
  have hlt := hk.approval_lt id (Option.isSome_iff_ne_none.mpr hc)
  omega

/-- The tables with one more request. -/
def ExecDb.addRequest (db : ExecDb) (a : ApprovalRequest) : ExecDb :=
  { db with approvals := db.approvals ++ [a], nextApproval := db.nextApproval + 1 }

/-- A request is added under the next identifier. If it belongs to a task, the task awaits it. -/
theorem addRequest_call {a : ApprovalRequest} (hk : Kept db) (hid : a.id = db.nextApproval)
    (hawait : a.bizType = .exec → a.status = .pending → ∃ t, db.task? a.bizId = some t ∧
      t.status = .awaitingApproval ∧ t.approvalId = some a.id) :
    Grown db (db.addRequest a) ∧ Call reopened db (db.addRequest a) := by
  have hself : (db.addRequest a).approval? a.id = some a :=
    Table.find_concat_self (hk.approval?_none hid.ge)
  have hne : ∀ id, id ≠ a.id → (db.addRequest a).approval? id = db.approval? id :=
    fun id hne => Table.find_concat_ne hne
  have hgrown : Grown db (db.addRequest a) := by
    refine ⟨rfl, rfl, rfl, rfl, le_rfl, Nat.le_succ _, fun _ _ => rfl, ?_⟩
    intro id hlt
    exact hne id (by omega)
  refine ⟨hgrown, ⟨hk.task_lt, ?_, ?_, hk.not_rejected⟩, hgrown.carries hk⟩
  · intro id hs
    by_cases hi : id = a.id
    · rw [hi, hid]
      exact Nat.lt_succ_self _
    · rw [hne id hi] at hs
      exact Nat.lt_succ_of_lt (hk.approval_lt id hs)
  · intro id b hb htype hpend
    by_cases hi : id = a.id
    · subst hi
      obtain rfl := Option.some.inj (hself.symm.trans hb)
      exact hawait htype hpend
    · rw [hne id hi] at hb
      exact hk.awaits id b hb htype hpend

theorem insertTask_call (env : ExecEnv) (spec : TaskSpec) (sensitive : Bool) (hk : Kept db) :
    (insertTask env db spec sensitive).task? db.nextTask = some (newTask db spec sensitive) ∧
      Grown db (insertTask env db spec sensitive) ∧
        Call reopened db (insertTask env db spec sensitive) := by
  have hself : (insertTask env db spec sensitive).task? db.nextTask =
      some (newTask db spec sensitive) := by
    have hnone : db.task? (newTask db spec sensitive).id = none := hk.task?_none le_rfl
    exact Table.find_concat_self hnone
  have hne : ∀ id, id ≠ db.nextTask →
      (insertTask env db spec sensitive).task? id = db.task? id :=
    fun id hne => Table.find_concat_ne (r := newTask db spec sensitive) hne
  have hgrown : Grown db (insertTask env db spec sensitive) := by
    refine ⟨rfl, rfl, rfl, rfl, Nat.le_succ _, le_rfl, ?_, fun _ _ => rfl⟩
    intro id hlt
    exact hne id (by omega)
  refine ⟨hself, hgrown, ⟨?_, hk.approval_lt, ?_, ?_⟩, hgrown.carries hk⟩
  · intro id hs
    by_cases hi : id = db.nextTask
    · rw [hi]
      exact Nat.lt_succ_self _
    · rw [hne id hi] at hs
      exact Nat.lt_succ_of_lt (hk.task_lt id hs)
  · intro id a ha htype hpend
    obtain ⟨t, ht, hst, hlink⟩ := hk.awaits id a ha htype hpend
    have hlt := hk.task_lt a.bizId (by rw [ht]; rfl)
    exact ⟨t, by rw [hne _ (by omega)]; exact ht, hst, hlink⟩
  · intro id t ht
    by_cases hi : id = db.nextTask
    · subst hi
      obtain rfl := Option.some.inj (hself.symm.trans ht)
      exact ExecStatus.noConfusion
    · rw [hne id hi] at ht
      exact hk.not_rejected id t ht

theorem Grown.touches (h : Grown db db') (ht : Touches tid aid db' db'')
    (htid : ∀ id, tid = some id → db.nextTask ≤ id)
    (haid : ∀ id, aid = some id → db.nextApproval ≤ id)
    (hstatic : db''.hosts = db'.hosts ∧ db''.scripts = db'.scripts ∧
      db''.scriptVersions = db'.scriptVersions ∧ db''.rules = db'.rules) : Grown db db'' where
  hosts := hstatic.1.trans h.hosts
  scripts := hstatic.2.1.trans h.scripts
  scriptVersions := hstatic.2.2.1.trans h.scriptVersions
  rules := hstatic.2.2.2.trans h.rules
  nextTask := by rw [ht.nextTask]; exact h.nextTask
  nextApproval := by rw [ht.nextApproval]; exact h.nextApproval
  task id hlt := by
    have hne : tid ≠ some id := fun hc => absurd (htid id hc) (Nat.not_le.mpr hlt)
    rw [ht.task id hne, h.task id hlt]
  approval id hlt := by
    have hne : aid ≠ some id := fun hc => absurd (haid id hc) (Nat.not_le.mpr hlt)
    rw [ht.approval id hne, h.approval id hlt]

/-! ### Creations -/

section Creation

variable {lower : String → String} {spec : TaskSpec} {policy : Option String} {c : Created}

/-- What a creation leaves: the new task, and its request if it needs one. -/
structure Creates (db db' : ExecDb) (c : Created) : Prop where
  kept : Kept db'
  grown : Grown db db'
  id : c.id = db.nextTask
  nextTask : db'.nextTask = db.nextTask + 1
  nextApproval : db'.nextApproval = db.nextApproval + if c.approveRequired then 1 else 0
  task : ∃ t, db'.task? db.nextTask = some t ∧ t.status = c.status
  request : c.approvalId = if c.approveRequired then some db.nextApproval else none
  bound : ∀ aid, c.approvalId = some aid →
    ∃ a, db'.approval? aid = some a ∧ a.bizType = .exec ∧ a.bizId = db.nextTask
  bizIds : db'.bizIds = db.bizIds ++
    if c.approveRequired then [db.nextTask] else []

theorem createPlain_creates (env : ExecEnv) (spec : TaskSpec) (hk : Kept db) :
    Creates db (createPlain env db spec).1 (createPlain env db spec).2 := by
  obtain ⟨hnew, hgrown, hins⟩ := @insertTask_call db [] env spec false hk
  have htouch : Touches (some db.nextTask) none (insertTask env db spec false)
      (createPlain env db spec).1 := touches_setTask fun _ => rfl
  have hfound : (createPlain env db spec).1.task? db.nextTask = some { newTask db spec false with
      status := .running, version := 1, startedAt := some env.now } :=
    task?_setTask_self (fun _ => rfl) hnew
  refine ⟨?_, ?_, rfl, rfl, rfl, ⟨_, hfound, rfl⟩, rfl, (fun _ hc => by cases hc), ?_⟩
  · exact (@Touches.call_task _ _ _ [] htouch hins.kept _ _ hnew (fun hc => by cases hc)
      ExecStatus.noConfusion hfound ExecStatus.noConfusion).kept
  · refine hgrown.touches htouch ?_ (fun _ hc => by cases hc) ⟨rfl, rfl, rfl, rfl⟩
    intro id hid
    exact (Option.some.inj hid).le
  · exact (List.append_nil _).symm

theorem approveExec_of_awaiting {t : ExecTask} (env : ExecEnv) (ht : db.task? id = some t)
    (hst : t.status = .awaitingApproval) : ∃ db', approveExec env db id = .ok db' := by
  obtain rfl : t.id = id := Table.key_of_find ht
  have hcas : db.casTask t.id .awaitingApproval .running t.version =
      some (db.setTask t.id fun t' => { t' with status := .running, version := t.version + 1 }) := by
    rw [ExecDb.casTask, ht]
    exact if_pos ⟨hst, rfl⟩
  rw [approveExec, ht]
  dsimp only
  rw [hcas]
  exact ⟨_, rfl⟩

/-- The tables with the new task and its request, before a policy is asked. -/
def requestedTask (env : ExecEnv) (db : ExecDb) (spec : TaskSpec) (reason : String) : ExecDb :=
  ((insertTask env db spec true).setTask db.nextTask fun t =>
    { t with approvalId := some db.nextApproval, status := .awaitingApproval, version := 1 }).addRequest
      (newApproval (insertTask env db spec true) spec db.nextTask reason)

theorem requestedTask_spec (env : ExecEnv) (spec : TaskSpec) (reason : String) (hk : Kept db) :
    Kept (requestedTask env db spec reason) ∧ Grown db (requestedTask env db spec reason) ∧
      ∃ t, (requestedTask env db spec reason).task? db.nextTask = some t ∧
        t.status = .awaitingApproval ∧ t.approvalId = some db.nextApproval := by
  obtain ⟨hnew, hgrown, hins⟩ := @insertTask_call db [] env spec true hk
  set db₁ := insertTask env db spec true with hdb₁
  set db₂ := db₁.setTask db.nextTask fun t =>
    { t with approvalId := some db.nextApproval, status := .awaitingApproval, version := 1 }
    with hdb₂
  have htouch : Touches (some db.nextTask) none db₁ db₂ := touches_setTask fun _ => rfl
  have hfound : db₂.task? db.nextTask = some { newTask db spec true with
      approvalId := some db.nextApproval, status := .awaitingApproval, version := 1 } :=
    task?_setTask_self (fun _ => rfl) hnew
  have hcall : Call [] db₁ db₂ := htouch.call_task hins.kept hnew (fun hc => by cases hc)
    ExecStatus.noConfusion hfound ExecStatus.noConfusion
  have hgrown₂ : Grown db db₂ := by
    refine hgrown.touches htouch ?_ (fun _ hc => by cases hc) ⟨rfl, rfl, rfl, rfl⟩
    intro id hid
    exact (Option.some.inj hid).le
  obtain ⟨hgrown₃, hcall₃⟩ := @addRequest_call db₂ [] (newApproval db₁ spec db.nextTask reason)
    hcall.kept rfl fun _ _ => ⟨_, hfound, rfl, rfl⟩
  exact ⟨hcall₃.kept, hgrown₂.trans hgrown₃, _, hfound, rfl, rfl⟩

/-- `_approve_exec` writes tasks and the queue. -/
theorem approveExec_eq (h : approveExec env db id = .ok db') :
    ∃ tasks queue, db' = { db with tasks := tasks, queue := queue } := by
  rw [approveExec] at h
  rcases ht : db.task? id with _ | task
  · simp [ht] at h
  rw [ht] at h
  rcases hc : db.casTask task.id .awaitingApproval .running task.version with _ | db₁
  · simp [hc] at h
  simp only [hc, Except.ok.injEq] at h
  obtain ⟨t, -, -, rfl⟩ := casTask_eq_some hc
  subst h
  split_ifs
  · exact ⟨_, _, rfl⟩
  · exact ⟨_, _, rfl⟩

theorem autoApprove_spec {t : ExecTask} {a : ApprovalRequest} {aid : ℕ} (env : ExecEnv)
    (ref : String) (hk : Kept db) (ht : db.task? id = some t) (hst : t.status = .awaitingApproval)
    (hlink : t.approvalId = some aid) (ha : db.approval? aid = some a) :
    ∃ db', approveExec env (db.setApproval aid fun a => { a with
        approvalMode := "auto_policy", status := .approved, policyRef := some ref }) id = .ok db' ∧
      Touches (some id) (some aid) db db' ∧ Kept db' ∧
      (∃ t', db'.task? id = some t' ∧ t'.status = .running) ∧
      db'.bizIds = db.bizIds ∧
      ∃ tasks approvals queue,
        db' = { db with tasks := tasks, approvals := approvals, queue := queue } := by
  set db₁ := db.setApproval aid fun a => { a with
    approvalMode := "auto_policy", status := .approved, policyRef := some ref } with hdb₁
  have ha₁ : db₁.approval? aid = some { a with
      approvalMode := "auto_policy", status := .approved, policyRef := some ref } :=
    approval?_setApproval_self (fun _ => rfl) ha
  have ht₁ : db₁.task? id = some t := ht
  obtain ⟨db', hex⟩ := approveExec_of_awaiting env ht₁ hst
  obtain ⟨htask, -, t', -, -, ht', hrun⟩ := approveExec_touches none hex
  obtain ⟨tasks, queue, heq⟩ := approveExec_eq hex
  have hset : Touches (some id) (some aid) db db₁ :=
    touches_setApproval (fun _ => rfl) fun _ => ⟨rfl, rfl⟩
  have hboth : Touches (some id) (some aid) db db' := hset.trans (htask.with_request _)
  refine ⟨db', hex, hboth, ?_, ⟨t', ht', hrun⟩, ?_, tasks, db₁.approvals, queue, heq⟩
  · refine hboth.kept hk ?_ ?_ ?_
    · intro i b hi hb
      obtain rfl := Option.some.inj hi
      rw [htask.approval aid (by simp), ha₁] at hb
      obtain rfl := Option.some.inj hb
      exact ApprovalStatus.noConfusion
    · intro i t₂ hi ht₂ _
      obtain rfl := Option.some.inj hi
      obtain rfl := Option.some.inj (ht.symm.trans ht₂)
      exact hlink
    · intro i t₂ hi ht₂
      obtain rfl := Option.some.inj hi
      obtain rfl := Option.some.inj (ht'.symm.trans ht₂)
      rw [hrun]
      exact ExecStatus.noConfusion
  · rw [heq]
    exact Table.map_modify fun _ _ => rfl

/-- The sensitive branch succeeds exactly if no request has the identifier of the new task. -/
theorem createSensitive_creates (env : ExecEnv) (spec : TaskSpec) (reason : String)
    (policy : Option String) (hk : Kept db) :
    if db.nextTask ∈ db.bizIds then
      createSensitive env db spec reason policy = .error .integrityError
    else ∃ db' c, createSensitive env db spec reason policy = .ok (db', c) ∧
      c.approveRequired = true ∧ Creates db db' c := by
  obtain ⟨hkept, hgrown, t, ht, hst, hlink⟩ := requestedTask_spec env spec reason hk
  set db₃ := requestedTask env db spec reason with hdb₃
  have hreq : db₃.approval? db.nextApproval =
      some (newApproval (insertTask env db spec true) spec db.nextTask reason) := by
    have hnone : db.approval? db.nextApproval = none := hk.approval?_none le_rfl
    exact Table.find_concat_self (r := newApproval (insertTask env db spec true) spec
      db.nextTask reason) hnone
  have hbiz : db₃.bizIds =
      db.bizIds ++ [db.nextTask] := List.map_append
  have hany : (db.approvals.any fun a => decide (a.bizId = db.nextTask)) = true ↔
      db.nextTask ∈ db.bizIds := by
    rw [List.any_eq_true, ExecDb.bizIds, List.mem_map]
    simp only [decide_eq_true_eq]
  split_ifs with htaken
  · exact if_pos (hany.mpr htaken)
  have hfree : ¬ (db.approvals.any fun a => decide (a.bizId = db.nextTask)) = true :=
    fun hc => htaken (hany.mp hc)
  cases policy with
  | none =>
      refine ⟨db₃, ⟨db.nextTask, .awaitingApproval, true, some db.nextApproval⟩, if_neg hfree, rfl,
        hkept, hgrown, rfl, rfl, rfl, ⟨t, ht, hst⟩, rfl, ?_, hbiz⟩
      intro aid haid
      obtain rfl := Option.some.inj haid
      exact ⟨_, hreq, rfl, rfl⟩
  | some ref =>
      obtain ⟨db₅, hex, htouch, hkept₅, ht₅, hbiz₅, tasks, approvals, queue, rfl⟩ :=
        autoApprove_spec env ref hkept ht hst hlink hreq
      have hok : createSensitive env db spec reason (some ref) = _ := if_neg hfree
      refine ⟨_, ⟨db.nextTask, .running, true, some db.nextApproval⟩, ?_, rfl,
        hkept₅, ?_, rfl, rfl, rfl, ht₅, rfl, ?_, hbiz₅.trans hbiz⟩
      · rw [hok]
        split
        · rename_i e he
          cases he.symm.trans hex
        · rename_i db₅ he
          obtain rfl := Except.ok.inj (he.symm.trans hex)
          rfl
      · refine hgrown.touches htouch ?_ ?_ ⟨rfl, rfl, rfl, rfl⟩
        · intro i hi
          exact (Option.some.inj hi).le
        · intro i hi
          exact (Option.some.inj hi).le
      · intro aid haid
        obtain rfl := Option.some.inj haid
        exact htouch.binding hreq

/-- The checks of a creation before it writes: whether the new task is sensitive. -/
def creationVerdict (lower : String → String) (db : ExecDb) (spec : TaskSpec) :
    Except PyErr Bool := do
  checkHosts db spec.visibleGroupIds spec.targetHostIds
  let body ← creationBody db spec
  if ¬ spec.targetHostIds.Nodup then throw .integrityError
  pure (detectSensitive lower db.rules spec.command body spec.targetHostIds.dedup.length).1

/-- **What a creation does.** It fails if its checks fail, or if the task is sensitive and some
request already has its identifier; otherwise it adds the task. -/
theorem createExecTaskRecord_creates (lower : String → String) (env : ExecEnv) (spec : TaskSpec)
    (policy : Option String) (hk : Kept db) :
    match creationVerdict lower db spec with
    | .error e => createExecTaskRecord lower env db spec policy = .error e
    | .ok sensitive =>
        if sensitive = true ∧ db.nextTask ∈ db.bizIds then
          createExecTaskRecord lower env db spec policy = .error .integrityError
        else ∃ db' c, createExecTaskRecord lower env db spec policy = .ok (db', c) ∧
          c.approveRequired = sensitive ∧ Creates db db' c := by
  unfold creationVerdict createExecTaskRecord
  rcases checkHosts db spec.visibleGroupIds spec.targetHostIds with e | _
  · rfl
  rcases creationBody db spec with e | body
  · rfl
  by_cases hn : spec.targetHostIds.Nodup
  swap
  · simp [bind, Except.bind, hn, throw, throwThe, MonadExceptOf.throw]
  simp only [bind, Except.bind, hn, not_true_eq_false, if_false, pure, Except.pure]
  rcases hs : (detectSensitive lower db.rules spec.command body
    spec.targetHostIds.dedup.length).1 with _ | _
  · simp only [Bool.false_eq_true, false_and, if_false]
    exact ⟨_, _, rfl, rfl, createPlain_creates env spec hk⟩
  · simp only [true_and, if_true]
    exact createSensitive_creates env spec _ policy hk

theorem creates_of_ok (hk : Kept db)
    (h : createExecTaskRecord lower env db spec policy = .ok (db', c)) : Creates db db' c := by
  have hspec := createExecTaskRecord_creates lower env spec policy hk
  split at hspec
  · rw [hspec] at h
    cases h
  · split_ifs at hspec
    · rw [hspec] at h
      cases h
    · obtain ⟨db₁, c₁, hok, -, hcreates⟩ := hspec
      obtain ⟨rfl, rfl⟩ := Prod.mk.inj (Except.ok.inj (hok.symm.trans h))
      exact hcreates

/-- A created task awaits its approval if it needs one and no policy gives it, and runs
otherwise. -/
theorem created_status (h : createExecTaskRecord lower env db spec policy = .ok (db', c)) :
    c.status = if c.approveRequired = true ∧ policy = none then .awaitingApproval else .running := by
  rw [createExecTaskRecord] at h
  obtain ⟨-, -, h⟩ := bind_eq_ok.mp h
  obtain ⟨body, -, h⟩ := bind_eq_ok.mp h
  by_cases hn : spec.targetHostIds.Nodup
  swap
  · simp [hn] at h
  simp only [hn, not_true_eq_false, if_false] at h
  split_ifs at h with hsens
  · rw [createSensitive] at h
    dsimp only at h
    split_ifs at h
    rcases policy with _ | ref
    · obtain ⟨-, rfl⟩ := Prod.mk.inj (Except.ok.inj h)
      rfl
    · dsimp only at h
      split at h
      · cases h
      · obtain ⟨-, rfl⟩ := Prod.mk.inj (Except.ok.inj h)
        rfl
  · obtain ⟨-, rfl⟩ := Prod.mk.inj (Except.ok.inj h)
    rfl

end Creation

/-! ### Dispatches and results -/

/-- The change writes host rows, sends messages, and may end the task `id` if it is running. -/
def WindsUp (id : ℕ) (db db' : ExecDb) : Prop :=
  ∃ tasks taskHosts queue,
    db' = { db with tasks := tasks, taskHosts := taskHosts, queue := queue } ∧
      (tasks = db.tasks ∨ (∃ t, db.task? id = some t ∧ t.status = .running) ∧
        ∃ f : ExecTask → ExecTask, (∀ t, (f t).id = t.id ∧ (f t).status.terminal = true) ∧
          tasks = Table.modify ExecTask.id db.tasks id f)

theorem WindsUp.refl (id : ℕ) (db : ExecDb) : WindsUp id db db :=
  ⟨_, _, _, rfl, Or.inl rfl⟩

theorem WindsUp.touches (h : WindsUp id db db') : Touches (some id) none db db' := by
  obtain ⟨tasks, taskHosts, queue, rfl, rfl | ⟨-, f, hf, rfl⟩⟩ := h
  · exact touches_congr rfl rfl rfl rfl
  · have hset : Touches (some id) none db (db.setTask id f) := touches_setTask fun t => (hf t).1
    exact hset.trans (touches_congr rfl rfl rfl rfl)

theorem WindsUp.call (h : WindsUp id db db') (hk : Kept db) : Call reopened db db' := by
  obtain ⟨tasks, taskHosts, queue, rfl, rfl | ⟨⟨t, ht, hrun⟩, f, hf, rfl⟩⟩ := h
  · exact (Call.refl hk).congr rfl rfl rfl rfl
  · have hset : Touches (some id) none db (db.setTask id f) := touches_setTask fun t => (hf t).1
    have hfound : (db.setTask id f).task? id = some (f t) :=
      task?_setTask_self (fun t => (hf t).1) ht
    have hcall : Call reopened db (db.setTask id f) := by
      refine hset.call_task hk ht ?_ ?_ hfound ?_
      · rw [hrun]
        exact fun hc => by cases hc
      · rw [hrun]
        exact ExecStatus.noConfusion
      · intro hrej
        have hterm := (hf t).2
        rw [hrej] at hterm
        cases hterm
    exact hcall.congr rfl rfl rfl rfl

theorem WindsUp.grown {base : ExecDb} (h : WindsUp id db db') (hg : Grown base db)
    (hid : base.nextTask ≤ id) : Grown base db' := by
  have htouch := h.touches
  obtain ⟨tasks, taskHosts, queue, rfl, -⟩ := h
  refine hg.touches htouch ?_ (fun _ hc => by cases hc) ⟨rfl, rfl, rfl, rfl⟩
  intro i hi
  obtain rfl := Option.some.inj hi
  exact hid

theorem aggregate_terminal (statuses : List HostStatus) :
    (aggregate statuses).terminal = true := by
  unfold aggregate
  dsimp only
  split_ifs <;> rfl

theorem settleTask_windsUp {task : ExecTask} {taskHosts : List ExecTaskHost} (env : ExecEnv)
    (ht : db.task? task.id = some task) (hrun : task.status = .running) :
    WindsUp task.id db (settleTask env { db with taskHosts := taskHosts } task) := by
  unfold settleTask
  dsimp only
  split_ifs
  · exact ⟨_, _, _, rfl, Or.inl rfl⟩
  · exact ⟨_, _, _, rfl, Or.inl rfl⟩
  · refine ⟨_, _, _, rfl, Or.inr ⟨⟨task, ht, hrun⟩, _, ?_, rfl⟩⟩
    exact fun t => ⟨rfl, aggregate_terminal _⟩

theorem foldl_setTaskHost_eq (rows : List ExecTaskHost)
    (g : ExecTaskHost → ExecTaskHost → ExecTaskHost) (db : ExecDb) :
    ∃ taskHosts, rows.foldl (fun acc th => acc.setTaskHost th.id (g th)) db =
      { db with taskHosts := taskHosts } := by
  induction rows generalizing db with
  | nil => exact ⟨db.taskHosts, rfl⟩
  | cons th rows ih => exact ih (db.setTaskHost th.id (g th))

/-- `exec_dispatch`. -/
theorem execDispatch_windsUp (lower : String → String) (env : DispatchEnv) (db : ExecDb)
    (id : ℕ) : WindsUp id db (execDispatch lower env db id).1 := by
  rw [execDispatch]
  rcases ht : db.task? id with _ | task
  · exact WindsUp.refl id db
  obtain rfl : task.id = id := Table.key_of_find ht
  dsimp only
  split_ifs with hrun
  · exact WindsUp.refl task.id db
  · obtain ⟨taskHosts, heq⟩ := foldl_setTaskHost_eq
      (startedRows env (db.hostsOfTask task.id))
      (fun th r => finishRow env.now r (handOver lower env db task (resolveContent db task)
        (db.hostsOfTask task.id).length th).2) db
    rw [heq]
    exact settleTask_windsUp env.toExecEnv ht hrun
  · exact WindsUp.refl task.id db

/-- `_maybe_finalize_task`. -/
theorem maybeFinalizeTask_windsUp (now : ℚ) (db : ExecDb) (id : ℕ) :
    WindsUp id db (Pool.maybeFinalizeTask now db id) := by
  unfold Pool.maybeFinalizeTask
  rcases ht : db.task? id with _ | task
  · exact WindsUp.refl id db
  dsimp only
  split_ifs with hc
  · exact WindsUp.refl id db
  · have hrun : task.status = .running := by
      by_contra hne
      exact hc (Or.inl hne)
    refine ⟨_, _, _, rfl, Or.inr ⟨⟨task, ht, hrun⟩, _, ?_, rfl⟩⟩
    exact fun t => ⟨rfl, aggregate_terminal _⟩

theorem retrySensitive_call {task : ExecTask} {userId : ℕ} {reason : String} (hk : Kept db)
    (ht : db.task? task.id = some task)
    (h : retrySensitive db task userId reason = some db') : Call [task.id] db db' := by
  unfold retrySensitive at h
  split at h
  · cases h
  rename_i db₁ hcas
  dsimp only at h
  split_ifs at h
  obtain rfl := Option.some.inj h
  obtain ⟨h₁, -, t₁, -, -, ht₁, hst₁, -⟩ := casTask_touches task.approvalId hcas
  obtain ⟨h₂, htasks, hclosed⟩ := closeOrphanApproval_touches db₁ task (some task.id)
  set db₂ := closeOrphanApproval db₁ task with hdb₂
  have ht₂ : db₂.task? task.id = some t₁ := by
    rw [ExecDb.task?, htasks]
    exact ht₁
  set db₃ := db₂.setTask task.id fun t =>
    { t with approvalId := some db₂.nextApproval, sensitiveFlag := true } with hdb₃
  have h₃ : Touches (some task.id) task.approvalId db₂ db₃ := touches_setTask fun _ => rfl
  have ht₃ : db₃.task? task.id = some { t₁ with
      approvalId := some db₂.nextApproval, sensitiveFlag := true } :=
    task?_setTask_self (fun _ => rfl) ht₂
  have hcall : Call [task.id] db db₃ := by
    refine ((h₁.trans h₂).trans h₃).call hk hclosed ?_ ?_
    · intro i t hi ht'
      obtain rfl := Option.some.inj hi
      obtain rfl := Option.some.inj (ht.symm.trans ht')
      exact ⟨fun _ => List.mem_singleton_self _, fun _ => rfl⟩
    · intro i t hi ht'
      obtain rfl := Option.some.inj hi
      obtain rfl := Option.some.inj (ht₃.symm.trans ht')
      rw [hst₁]
      exact ExecStatus.noConfusion
  have hawait : ∃ t, db₃.task? task.id = some t ∧ t.status = .awaitingApproval ∧
      t.approvalId = some db₂.nextApproval := ⟨_, ht₃, hst₁, rfl⟩
  exact hcall.trans (@addRequest_call db₃ _ _ hcall.kept rfl fun _ _ => hawait).2

/-! ### The machine -/

/-- The complete calls of the services around the engine. -/
inductive ExecOp
  | create (lower : String → String) (env : ExecEnv) (spec : TaskSpec) (policy : Option String)
  | dispatch (lower : String → String) (env : DispatchEnv) (taskId : ℕ)
  | approve (env : ExecEnv) (userId approvalId : ℕ)
  | reject (env : ExecEnv) (userId approvalId : ℕ)
  | cancelApproval (env : ExecEnv) (userId : ℕ) (isAdmin : Bool) (approvalId : ℕ)
  | stopTask (env : ExecEnv) (taskId : ℕ)
  /-- The cancellation of another run cancels the task of one of its nodes. -/
  | cancelTask (env : ExecEnv) (taskId : ℕ)
  | scanTimeouts (env : ExecEnv) (createdAt : ℚ) (taskId : ℕ)
  | retryTask (lower : String → String) (env : ExecEnv) (userId taskId : ℕ)
  | persistResult (now : ℚ) (row : ℕ) (status : String) (exitCode : Option ℤ)
  | maybeFinalizeTask (now : ℚ) (taskId : ℕ)
  /-- A terminal session on a sensitive host asks for its approval. -/
  | openTerminal (sessionId userId : ℕ)
  /-- A `manual_approval` node of another run asks for its approval. -/
  | openWorkflow (run : WorkflowRun) (node : WorkflowNodeRun)
  /-- Hosts, scripts and rules are edited. -/
  | configure (hosts : List Host) (scripts : List Script) (scriptVersions : List ScriptVersion)
      (rules : ExecRules)

/-- The rows of a task in a status that the call takes up. -/
def ExecDb.rowsWhere (db : ExecDb) (taskId : ℕ) (p : HostStatus → Bool) : List ℕ :=
  ((db.hostsOfTask taskId).filter fun th => p th.status).map (·.id)

/-- `cancel_exec_task_record` on the task as it is stored. -/
def cancelTask (env : ExecEnv) (db : ExecDb) (taskId : ℕ) : Option ExecDb :=
  (db.task? taskId).bind (cancelExecTaskRecord env db)

/-- `stop_task`: only a running task can be stopped. -/
def stopTask (env : ExecEnv) (db : ExecDb) (taskId : ℕ) : Option ExecDb :=
  (db.task? taskId).bind fun task =>
    if task.status = .running then cancelExecTaskRecord env db task else none

/-- `scan_timeouts` at one task. -/
def scanTimeout (env : ExecEnv) (createdAt : ℚ) (db : ExecDb) (taskId : ℕ) : Option ExecDb :=
  (db.task? taskId).bind fun task =>
    if sweepDue env.now createdAt task then
      closeTask .timeout env db task (db.rowsWhere taskId fun st => !st.terminal)
    else none

/-- `retry_task` up to its commit. -/
def retryCall (lower : String → String) (env : ExecEnv) (db : ExecDb) (userId taskId : ℕ) :
    Option ExecDb :=
  (db.task? taskId).bind fun task =>
    if task.status.retryable then
      let verdict := detectSensitive lower db.rules task.command (some (retryContent db task))
        task.targetHostIds.length
      if verdict.1 then retrySensitive db task userId verdict.2
      else LarkPlat.retryTask env db task (db.rowsWhere taskId HostStatus.retryable)
    else none

/-- The request of a terminal session. -/
def terminalApproval (db : ExecDb) (sessionId userId : ℕ) : ApprovalRequest where
  id := db.nextApproval
  bizType := .terminal
  bizId := sessionId
  requesterId := userId
  sensitiveHit := "sensitive host access"
  status := .pending
  approvalMode := "manual"
  policyRef := none
  approverId := none
  version := 0

/-- The tables that a call commits, if it does. -/
def ExecOp.result (db : ExecDb) : ExecOp → Option ExecDb
  | .create lower env spec policy =>
      (createExecTaskRecord lower env db spec policy).toOption.map (·.1)
  | .dispatch lower env taskId => some (execDispatch lower env db taskId).1
  | .approve env userId approvalId => (LarkPlat.approve env db userId approvalId).toOption
  | .reject env userId approvalId => (LarkPlat.reject env db userId approvalId).toOption
  | .cancelApproval env userId isAdmin approvalId =>
      (LarkPlat.cancelApproval env db userId isAdmin approvalId).toOption
  | .stopTask env taskId => LarkPlat.stopTask env db taskId
  | .cancelTask env taskId => LarkPlat.cancelTask env db taskId
  | .scanTimeouts env createdAt taskId => scanTimeout env createdAt db taskId
  | .retryTask lower env userId taskId => retryCall lower env db userId taskId
  | .persistResult now row status exitCode =>
      some ((Pool.idle db).persistResult now row status exitCode).db
  | .maybeFinalizeTask now taskId => some (Pool.maybeFinalizeTask now db taskId)
  | .openTerminal sessionId userId =>
      if db.approvals.any fun a => decide (a.bizId = sessionId) then none
      else some (db.addRequest (terminalApproval db sessionId userId))
  | .openWorkflow run node =>
      if db.approvals.any fun a => decide (a.bizId = (workflowApproval db run node).bizId) then none
      else some (db.addRequest (workflowApproval db run node))
  | .configure hosts scripts scriptVersions rules =>
      some { db with
        hosts := hosts, scripts := scripts, scriptVersions := scriptVersions, rules := rules }

/-- One call; a call that raises leaves the tables as they were. -/
def ExecOp.apply (db : ExecDb) (op : ExecOp) : ExecDb := (op.result db).getD db

/-- The ended tasks that a call may open again. -/
def ExecOp.reopens : ExecOp → List ℕ
  | .retryTask _ _ _ taskId => [taskId]
  | _ => []

theorem ok_of_toOption {α : Type*} {x : Except PyErr α} {a : α} (h : x.toOption = some a) :
    x = .ok a := by
  rcases x with e | b
  · cases h
  · exact congrArg Except.ok (Option.some.inj h)

/-- **Every call** keeps the invariant and carries the ended over. -/
theorem ExecOp.call (hk : Kept db) (op : ExecOp) : Call op.reopens db (op.apply db) := by
  unfold ExecOp.apply
  rcases hr : op.result db with _ | db'
  · exact Call.refl hk
  rw [Option.getD_some]
  cases op with
  | create lower env spec policy =>
      obtain ⟨⟨db₁, c⟩, hc, rfl⟩ := Option.map_eq_some_iff.mp hr
      have hcreates := creates_of_ok hk (ok_of_toOption hc)
      exact ⟨hcreates.kept, hcreates.grown.carries hk⟩
  | dispatch lower env taskId =>
      obtain rfl := Option.some.inj hr
      exact (execDispatch_windsUp lower env db taskId).call hk
  | approve env userId approvalId => exact approve_call hk (ok_of_toOption hr)
  | reject env userId approvalId => exact reject_call hk (ok_of_toOption hr)
  | cancelApproval env userId isAdmin approvalId =>
      exact cancelApproval_call hk (ok_of_toOption hr)
  | stopTask env taskId =>
      obtain ⟨task, ht, hc⟩ := Option.bind_eq_some_iff.mp hr
      obtain rfl : task.id = taskId := Table.key_of_find ht
      split_ifs at hc
      exact (cancelExecTaskRecord_call hk ht hc).1
  | cancelTask env taskId =>
      obtain ⟨task, ht, hc⟩ := Option.bind_eq_some_iff.mp hr
      obtain rfl : task.id = taskId := Table.key_of_find ht
      exact (cancelExecTaskRecord_call hk ht hc).1
  | scanTimeouts env createdAt taskId =>
      obtain ⟨task, ht, hc⟩ := Option.bind_eq_some_iff.mp hr
      obtain rfl : task.id = taskId := Table.key_of_find ht
      split_ifs at hc with hdue
      have hrun : task.status = .running := by
        rw [sweepDue, Bool.and_eq_true] at hdue
        exact of_decide_eq_true hdue.1
      exact closeTask_timeout_call hk ht hrun hc
  | retryTask lower env userId taskId =>
      obtain ⟨task, ht, hc⟩ := Option.bind_eq_some_iff.mp hr
      obtain rfl : task.id = taskId := Table.key_of_find ht
      dsimp only at hc
      split_ifs at hc with hst hsens
      · exact retrySensitive_call hk ht hc
      · exact retryTask_call hk ht hc
  | persistResult now row status exitCode =>
      obtain rfl := Option.some.inj hr
      exact (Call.refl hk).congr rfl rfl rfl rfl
  | maybeFinalizeTask now taskId =>
      obtain rfl := Option.some.inj hr
      exact (maybeFinalizeTask_windsUp now db taskId).call hk
  | openTerminal sessionId userId =>
      dsimp only [ExecOp.result] at hr
      split_ifs at hr
      obtain rfl := Option.some.inj hr
      exact (addRequest_call hk rfl fun hc => by cases hc).2
  | openWorkflow run node =>
      dsimp only [ExecOp.result] at hr
      split_ifs at hr
      obtain rfl := Option.some.inj hr
      exact (addRequest_call hk rfl fun hc => by cases hc).2
  | configure hosts scripts scriptVersions rules =>
      obtain rfl := Option.some.inj hr
      exact (Call.refl hk).congr rfl rfl rfl rfl

theorem kept_fresh (hosts : List Host) (rules : ExecRules) :
    Kept (ExecDb.fresh hosts rules) where
  task_lt _ hs := by cases hs
  approval_lt _ hs := by cases hs
  awaits _ _ ha := by cases ha
  not_rejected _ _ ht := by cases ht

end LarkPlat