import LarkPlat.HostRows

/-!
# From Approval to Dispatch

An approved task is dispatched by a message that its approval sends before it commits. A worker
that takes the message and reads the task before the commit finds it not running and drops it,
and nobody sends another one. This module states the protocol over whole histories of the pool:
which tasks still need a dispatch, who will provide it, and under which conditions no task is
lost.

## Main results

* `approved_never_lost`: no approved task is left running with a pending host and nobody to
  dispatch it, if no worker reads a task while an approval of it is open, the broker takes the
  messages, and no dispatch ends before it has started a host it read as pending.
* `message_overtakes_commit`: a worker that reads the task before the commit loses it.
-/

namespace LarkPlat

open Machine

variable {lower : String → String} {s s' : Pool} {op : PoolOp} {t : ℕ}

/-! ### Tasks that need a dispatch -/

/-- A host of the task is pending. -/
def ExecDb.HasPending (db : ExecDb) (taskId : ℕ) : Prop :=
  ∃ th ∈ db.taskHosts, th.execTaskId = taskId ∧ th.status = .pending

instance (db : ExecDb) (taskId : ℕ) : Decidable (db.HasPending taskId) :=
  inferInstanceAs (Decidable (∃ th ∈ db.taskHosts, _))

/-- The task runs under a request, and a host of it is pending. -/
def ExecDb.Needs (db : ExecDb) (taskId : ℕ) : Prop :=
  (∃ task, db.task? taskId = some task ∧ task.status = .running ∧ task.approvalId ≠ none) ∧
    db.HasPending taskId

namespace Pool

/-- A dispatch of the task is queued or under way. -/
def Served (s : Pool) (taskId : ℕ) : Prop :=
  taskId ∈ s.db.queue ∨ ∃ w ∈ s.workers, w.taskId = taskId

/-- A dispatch of the task is still to read it. -/
def Awaited (s : Pool) (taskId : ℕ) : Prop :=
  taskId ∈ s.db.queue ∨ ∃ w ∈ s.workers, w.taskId = taskId ∧ w.phase = .opened

/-- No message for the task is queued, no worker runs it and no approval of it is open. -/
def Quiescent (s : Pool) (taskId : ℕ) : Prop :=
  taskId ∉ s.db.queue ∧ (∀ w ∈ s.workers, w.taskId ≠ taskId) ∧ s.approving taskId = false

instance (s : Pool) (taskId : ℕ) : Decidable (s.Quiescent taskId) :=
  inferInstanceAs (Decidable (_ ∧ _ ∧ _))

/-- The approved task is left running with a pending host, and nobody will dispatch it. -/
def Lost (s : Pool) (taskId : ℕ) : Prop :=
  s.Quiescent taskId ∧
    (∃ task ∈ s.db.task? taskId, task.status = .running ∧
      ∃ a ∈ task.approvalId.bind s.db.approval?, a.status = .approved) ∧
    s.db.HasPending taskId

instance (s : Pool) (taskId : ℕ) : Decidable (s.Lost taskId) :=
  inferInstanceAs (Decidable (_ ∧ _ ∧ _))

end Pool

/-- A step that leaves the duty of the worker: it reads no task whose approval is open, its
claiming loop does not end with nothing started, the broker takes its message, and it does not
crash. -/
def Worker.keepsDuty (w : Worker) (approving : Bool) (a : WorkerAct) : Bool :=
  match w.phase, a with
  | .opened, .check => !approving
  | .claiming _ _ started, .claim _ false => !started.isEmpty
  | _, .settle env => env.brokerUp
  | _, .crash => false
  | _, _ => true

/-- The step loses no dispatch. -/
def LosesNone (s : Pool) : PoolOp → Bool
  | .create env _ policy _ => policy.isNone || env.brokerUp
  | .openApprove env _ _ => env.brokerUp
  | .act i a => (s.workers[i]?).all fun w => w.keepsDuty (s.approving w.taskId) a
  | _ => true

/-! ### Identifiers -/

/-- The identifiers that a transaction holds were handed out, and its rows belong to its task.
`owner` gives the task of every row. -/
def Session.Keyed (owner : ℕ → ℕ) (db : ExecDb) : Session → Prop
  | .retry _ task rows _ => ∀ row ∈ rows, row < db.nextTaskHost ∧ owner row = task.id
  | .auto taskId rows _ => taskId < db.nextTask ∧
      ∀ th ∈ rows.taskHosts, th.id < db.nextTaskHost ∧ th.execTaskId = owner th.id
  | _ => True

/-- The identifiers of tasks and rows were handed out, and a row identifier belongs to one
task. -/
structure Pool.Keyed (owner : ℕ → ℕ) (s : Pool) : Prop where
  tasks : ∀ task ∈ s.db.tasks, task.id < s.db.nextTask
  rows : ∀ th ∈ s.db.taskHosts, th.id < s.db.nextTaskHost ∧ th.execTaskId = owner th.id
  sessions : ∀ ses ∈ s.sessions, ses.Keyed owner s.db

/-- A change that adds and renames no task and no row. -/
structure SameKeys (db db' : ExecDb) : Prop where
  nextTask : db'.nextTask = db.nextTask
  nextTaskHost : db'.nextTaskHost = db.nextTaskHost
  tasks : ∀ task ∈ db'.tasks, ∃ task₀ ∈ db.tasks, task₀.id = task.id
  rows : ∀ th ∈ db'.taskHosts, ∃ th₀ ∈ db.taskHosts,
    th₀.id = th.id ∧ th₀.execTaskId = th.execTaskId

theorem SameKeys.refl (db : ExecDb) : SameKeys db db :=
  ⟨rfl, rfl, fun task h => ⟨task, h, rfl⟩, fun th h => ⟨th, h, rfl, rfl⟩⟩

theorem SameKeys.trans {db db' db'' : ExecDb} (h : SameKeys db db') (h' : SameKeys db' db'') :
    SameKeys db db'' := by
  refine ⟨h'.nextTask.trans h.nextTask, h'.nextTaskHost.trans h.nextTaskHost, ?_, ?_⟩
  · intro task htask
    obtain ⟨task₁, h₁, hid₁⟩ := h'.tasks task htask
    obtain ⟨task₀, h₀, hid₀⟩ := h.tasks task₁ h₁
    exact ⟨task₀, h₀, hid₀.trans hid₁⟩
  · intro th hth
    obtain ⟨th₁, h₁, hid₁, ht₁⟩ := h'.rows th hth
    obtain ⟨th₀, h₀, hid₀, ht₀⟩ := h.rows th₁ h₁
    exact ⟨th₀, h₀, hid₀.trans hid₁, ht₀.trans ht₁⟩

theorem Effect.sameKeys {started sent : List ℕ} {db db' : ExecDb}
    (h : Effect started sent db db') : SameKeys db db' := by
  obtain ⟨g, hg, hgs⟩ := h.tasks
  refine ⟨h.nextTask, h.nextTaskHost, ?_, ?_⟩
  · intro task htask
    rw [hg] at htask
    obtain ⟨task₀, h₀, rfl⟩ := List.mem_map.mp htask
    exact ⟨task₀, h₀, (hgs task₀).1.symm⟩
  · intro th hth
    rw [h.taskHosts] at hth
    exact ⟨th, hth, rfl, rfl⟩

theorem sameKeys_mapRows (db : ExecDb) {g : ExecTaskHost → ExecTaskHost}
    (hg : ∀ th, (g th).id = th.id ∧ (g th).execTaskId = th.execTaskId) :
    SameKeys db { db with taskHosts := db.taskHosts.map g } := by
  refine ⟨rfl, rfl, fun task h => ⟨task, h, rfl⟩, ?_⟩
  intro th hth
  obtain ⟨th₀, h₀, rfl⟩ := List.mem_map.mp hth
  exact ⟨th₀, h₀, (hg th₀).1.symm, (hg th₀).2.symm⟩

theorem sameKeys_setTaskHost (db : ExecDb) (row : ℕ) {f : ExecTaskHost → ExecTaskHost}
    (hf : ∀ th, (f th).id = th.id ∧ (f th).execTaskId = th.execTaskId) :
    SameKeys db (db.setTaskHost row f) := by
  refine sameKeys_mapRows db ?_
  intro th
  split_ifs
  · exact hf th
  · exact ⟨rfl, rfl⟩

theorem sameKeys_writeRows (db : ExecDb) (rows : List ℕ) {f : ExecTaskHost → ExecTaskHost}
    (hf : ∀ th, (f th).id = th.id ∧ (f th).execTaskId = th.execTaskId) :
    SameKeys db (db.writeRows rows f) := by
  refine sameKeys_mapRows db ?_
  intro th
  split_ifs
  · exact hf th
  · exact ⟨rfl, rfl⟩

variable {owner : ℕ → ℕ}

theorem Session.Keyed.congr {db db' : ExecDb} {ses : Session} (h : ses.Keyed owner db)
    (hn : db'.nextTask = db.nextTask) (hnh : db'.nextTaskHost = db.nextTaskHost) :
    ses.Keyed owner db' := by
  cases ses with
  | close c task rows => trivial
  | retry userId task rows reason =>
      intro row hrow
      rw [hnh]
      exact h row hrow
  | approve env userId a => trivial
  | auto taskId rows kick =>
      refine ⟨by rw [hn]; exact h.1, ?_⟩
      rw [hnh]
      exact h.2

theorem Pool.Keyed.of_sameKeys (h : s.Keyed owner) (hdb : SameKeys s.db s'.db)
    (hses : ∀ ses ∈ s'.sessions, ses ∈ s.sessions ∨ ses.Keyed owner s.db) : s'.Keyed owner := by
  refine ⟨?_, ?_, ?_⟩
  · intro task htask
    obtain ⟨task₀, h₀, hid⟩ := hdb.tasks task htask
    rw [← hid, hdb.nextTask]
    exact h.tasks task₀ h₀
  · intro th hth
    obtain ⟨th₀, h₀, hid, htask⟩ := hdb.rows th hth
    rw [← hid, ← htask, hdb.nextTaskHost]
    exact h.rows th₀ h₀
  · intro ses hmem
    have hk : ses.Keyed owner s.db := (hses ses hmem).elim (h.sessions ses) id
    exact hk.congr hdb.nextTask hdb.nextTaskHost

/-! ### Needs after a change -/

section Needs

variable {db db' : ExecDb} {started sent : List ℕ}

/-- A task that needs a dispatch after a change of rows and tasks needed it before. -/
theorem needs_of (htask : ∀ task, db'.task? t = some task → task.status = .running →
      task.approvalId ≠ none →
      ∃ task₀, db.task? t = some task₀ ∧ task₀.status = .running ∧ task₀.approvalId ≠ none)
    (hrows : db'.HasPending t → db.HasPending t) (h : db'.Needs t) : db.Needs t := by
  obtain ⟨⟨task, hfind, hrun, ha⟩, hpending⟩ := h
  exact ⟨htask task hfind hrun ha, hrows hpending⟩

/-- After an effect, a task needs a dispatch if it did before or was started. -/
theorem Effect.needs (h : Effect started sent db db') (hn : db'.Needs t) :
    t ∈ started ∨ db.Needs t := by
  obtain ⟨g, hg, hgs⟩ := h.tasks
  by_cases hstart : t ∈ started
  · exact Or.inl hstart
  · refine Or.inr (needs_of ?_ ?_ hn)
    · intro task hfind hrun ha
      rw [ExecDb.task?, hg, Table.find_map fun task => (hgs task).1] at hfind
      obtain ⟨task₀, hfind₀, rfl⟩ := Option.map_eq_some_iff.mp hfind
      have hid : task₀.id = t := Table.key_of_find hfind₀
      rcases (hgs task₀).2 hrun with hmem | ⟨hrun₀, ha₀⟩
      · exact absurd (hid ▸ hmem) hstart
      · exact ⟨task₀, hfind₀, hrun₀, fun hnone => ha (ha₀.trans hnone)⟩
    · rw [ExecDb.HasPending, h.taskHosts]
      exact id

theorem hasPending_of_mapRows {g : ExecTaskHost → ExecTaskHost}
    (hg : ∀ th ∈ db.taskHosts, (g th).execTaskId = th.execTaskId ∧
      ((g th).status = .pending → th.execTaskId = t → th.status = .pending))
    (h : ({ db with taskHosts := db.taskHosts.map g } : ExecDb).HasPending t) :
    db.HasPending t := by
  obtain ⟨th, hth, htask, hst⟩ := h
  obtain ⟨th₀, h₀, rfl⟩ := List.mem_map.mp hth
  rw [(hg th₀ h₀).1] at htask
  exact ⟨th₀, h₀, htask, (hg th₀ h₀).2 hst htask⟩

theorem hasPending_setTaskHost {row : ℕ} {f : ExecTaskHost → ExecTaskHost}
    (hid : ∀ th, (f th).execTaskId = th.execTaskId)
    (hst : ∀ th, (f th).status = .pending → th.status = .pending)
    (h : (db.setTaskHost row f).HasPending t) : db.HasPending t := by
  refine hasPending_of_mapRows ?_ h
  intro th _
  split_ifs
  · exact ⟨hid th, fun hp _ => hst th hp⟩
  · exact ⟨rfl, fun hp _ => hp⟩

/-- Writes to the listed rows, which are rows of another task if they make a row pending. -/
theorem hasPending_writeRows {rows : List ℕ} {f : ExecTaskHost → ExecTaskHost}
    (hid : ∀ th, (f th).execTaskId = th.execTaskId)
    (hst : ∀ th ∈ db.taskHosts, th.id ∈ rows → (f th).status = .pending →
      th.execTaskId = t → th.status = .pending)
    (h : (db.writeRows rows f).HasPending t) : db.HasPending t := by
  refine hasPending_of_mapRows ?_ h
  intro th hth
  split_ifs with hrow
  · exact ⟨hid th, hst th hth hrow⟩
  · exact ⟨rfl, fun hp _ => hp⟩

/-- Rows and tasks of one task are added: the needs of every other task stay. -/
theorem needs_of_added {k : ℕ} {tasks : List ExecTask} {rows : List ExecTaskHost}
    (htasks : ∀ task ∈ tasks, task.id = k) (hrows : ∀ th ∈ rows, th.execTaskId = k)
    (ht : db'.tasks = db.tasks ++ tasks) (hr : db'.taskHosts = db.taskHosts ++ rows)
    (hne : t ≠ k) (h : db'.Needs t) : db.Needs t := by
  refine needs_of ?_ ?_ h
  · intro task hfind hrun ha
    refine ⟨task, ?_, hrun, ha⟩
    rw [ExecDb.task?, ht] at hfind
    rcases hf : Table.find ExecTask.id db.tasks t with _ | task₀
    · have hmem : task ∈ db.tasks ++ tasks := Table.mem_of_find hfind
      have hid : task.id = t := Table.key_of_find hfind
      rcases List.mem_append.mp hmem with hmem | hmem
      · exact absurd (hid ▸ List.mem_map_of_mem hmem) (Table.find_eq_none_iff.mp hf)
      · exact absurd (hid.symm.trans (htasks task hmem)) hne
    · rw [Table.find_append hf] at hfind
      rw [ExecDb.task?, hf, hfind]
  · rintro ⟨th, hth, htask, hst⟩
    rw [hr] at hth
    rcases List.mem_append.mp hth with hth | hth
    · exact ⟨th, hth, htask, hst⟩
    · exact absurd (htask.symm.trans (hrows th hth)) hne

end Needs

/-! ### The invariant -/

/-- Every task that needs a dispatch is served, and every open approval has a dispatch that is
still to read its task. -/
structure Manned (s : Pool) : Prop where
  keyed : ∃ owner, s.Keyed owner
  served : ∀ t, s.db.Needs t → s.Served t
  awaited : ∀ ses ∈ s.sessions, ∀ t, ses.approves t = true → s.Awaited t

theorem Pool.Awaited.served (h : s.Awaited t) : s.Served t :=
  h.imp_right fun ⟨w, hw, hid, _⟩ => ⟨w, hw, hid⟩

theorem Manned.not_lost (h : Manned s) (t : ℕ) : ¬ s.Lost t := by
  rintro ⟨⟨hqueue, hworkers, -⟩, ⟨task, htask, hrun, a, ha, -⟩, hpending⟩
  have hneeds : s.db.Needs t := by
    refine ⟨⟨task, htask, hrun, ?_⟩, hpending⟩
    intro hnone
    rw [hnone] at ha
    cases ha
  rcases h.served t hneeds with hq | ⟨w, hw, hid⟩
  · exact hqueue hq
  · exact hworkers w hw hid

/-- A step that keeps all dispatches, and serves whatever it starts or opens. -/
theorem Manned.of_grows (h : Manned s) (hkeyed : ∃ owner, s'.Keyed owner)
    (hserved : ∀ t, s.Served t → s'.Served t) (hawaited : ∀ t, s.Awaited t → s'.Awaited t)
    (hneeds : ∀ t, s'.db.Needs t → s.db.Needs t ∨ s'.Served t)
    (hses : ∀ ses ∈ s'.sessions, ses ∈ s.sessions ∨ ∀ t, ses.approves t = true → s'.Awaited t) :
    Manned s' where
  keyed := hkeyed
  served t ht := (hneeds t ht).elim (fun hn => hserved t (h.served t hn)) id
  awaited ses hmem t ht := (hses ses hmem).elim
    (fun hold => hawaited t (h.awaited ses hold t ht)) fun hnew => hnew t ht

theorem served_mono (hq : s.db.queue ⊆ s'.db.queue) (hw : s.workers ⊆ s'.workers)
    (h : s.Served t) : s'.Served t :=
  h.imp (fun hmem => hq hmem) fun ⟨w, hmem, hid⟩ => ⟨w, hw hmem, hid⟩

theorem awaited_mono (hq : s.db.queue ⊆ s'.db.queue) (hw : s.workers ⊆ s'.workers)
    (h : s.Awaited t) : s'.Awaited t :=
  h.imp (fun hmem => hq hmem) fun ⟨w, hmem, hid⟩ => ⟨w, hw hmem, hid⟩

/-- A step that adds no task and no row, starts nothing, and opens no approval. -/
theorem Manned.of_quiet (h : Manned s) (hdb : SameKeys s.db s'.db)
    (hq : s.db.queue ⊆ s'.db.queue) (hw : s.workers ⊆ s'.workers)
    (hneeds : ∀ t, s'.db.Needs t → s.db.Needs t) (hses : s'.sessions ⊆ s.sessions) :
    Manned s' := by
  obtain ⟨owner, hk⟩ := h.keyed
  exact h.of_grows ⟨owner, hk.of_sameKeys hdb fun ses hmem => Or.inl (hses hmem)⟩
    (fun t => served_mono hq hw) (fun t => awaited_mono hq hw)
    (fun t ht => Or.inl (hneeds t ht)) fun ses hmem => Or.inl (hses hmem)

theorem Manned.of_effect (h : Manned s) {db' : ExecDb} {sent : List ℕ}
    (he : Effect [] sent s.db db') {sessions : List Session} (hses : sessions ⊆ s.sessions)
    (handed : List ℕ) : Manned ⟨db', s.workers, sessions, handed⟩ := by
  refine h.of_quiet he.sameKeys ?_ (List.Subset.refl _) ?_ hses
  · show s.db.queue ⊆ db'.queue
    rw [he.queue]
    exact List.subset_append_left _ _
  · intro t ht
    exact (he.needs ht).resolve_left List.not_mem_nil

/-! ### Dispatches that begin -/

/-- The pool with some more dispatches queued or begun. -/
structure Kicked (s s' : Pool) : Prop where
  tables : ∃ queue, s'.db = { s.db with queue := queue } ∧ s.db.queue ⊆ queue
  workers : s.workers ⊆ s'.workers
  sessions : s'.sessions = s.sessions

theorem Kicked.refl (s : Pool) : Kicked s s :=
  ⟨⟨s.db.queue, rfl, List.Subset.refl _⟩, List.Subset.refl _, rfl⟩

theorem kicked_kickOff (s : Pool) (brokerUp inProcess : Bool) (taskId : ℕ) :
    Kicked s (s.kickOff brokerUp inProcess taskId) := by
  unfold Pool.kickOff
  split_ifs
  · exact ⟨⟨s.db.queue, rfl, List.Subset.refl _⟩, List.subset_append_left _ _, rfl⟩
  · exact ⟨⟨_, rfl, List.subset_append_left _ _⟩, List.Subset.refl _, rfl⟩

theorem kicked_kickIf (s : Pool) (brokerUp : Bool) (kick : Option Bool) (taskId : ℕ) :
    Kicked s (s.kickIf brokerUp kick taskId) := by
  cases kick with
  | none => exact Kicked.refl s
  | some inProcess => exact kicked_kickOff s brokerUp inProcess taskId

theorem awaited_kickOff (s : Pool) (brokerUp inProcess : Bool) (taskId : ℕ) :
    (s.kickOff brokerUp inProcess taskId).Awaited taskId := by
  unfold Pool.kickOff
  split_ifs
  · exact Or.inr ⟨⟨taskId, .opened⟩, List.mem_append_right _ (List.mem_singleton_self _), rfl, rfl⟩
  · exact Or.inl (List.mem_append_right _ (List.mem_singleton_self _))

theorem Kicked.sameKeys (h : Kicked s s') : SameKeys s.db s'.db := by
  obtain ⟨queue, hdb, -⟩ := h.tables
  rw [hdb]
  exact ⟨rfl, rfl, (SameKeys.refl s.db).tasks, (SameKeys.refl s.db).rows⟩

theorem Kicked.needs (h : Kicked s s') (hn : s'.db.Needs t) : s.db.Needs t := by
  obtain ⟨queue, hdb, -⟩ := h.tables
  rw [hdb] at hn
  exact hn

theorem Kicked.queue (h : Kicked s s') : s.db.queue ⊆ s'.db.queue := by
  obtain ⟨queue, hdb, hq⟩ := h.tables
  rw [hdb]
  exact hq

theorem Manned.kicked (h : Manned s) (hk : Kicked s s') : Manned s' :=
  h.of_quiet hk.sameKeys hk.queue hk.workers (fun _ => hk.needs) fun _ hmem => hk.sessions ▸ hmem

/-! ### Transactions that open -/

theorem Manned.begin (h : Manned s) {ses : Session} {sent : List ℕ}
    (hkeyed : ∀ owner, s.Keyed owner → ses.Keyed owner s.db)
    (hses : ∀ t, ses.approves t = true → t ∈ s.db.queue ++ sent) :
    Manned (({ s with db := { s.db with queue := s.db.queue ++ sent } } : Pool).begin ses) := by
  have hq : s.db.queue ⊆ s.db.queue ++ sent := List.subset_append_left _ _
  obtain ⟨owner, hk⟩ := h.keyed
  refine h.of_grows ⟨owner, hk.of_sameKeys ?_ ?_⟩ (fun t => served_mono hq (List.Subset.refl _))
    (fun t => awaited_mono hq (List.Subset.refl _)) (fun t ht => Or.inl ht) ?_
  · exact ⟨rfl, rfl, (SameKeys.refl s.db).tasks, (SameKeys.refl s.db).rows⟩
  · intro ses' hmem
    rcases List.mem_append.mp hmem with hmem | hmem
    · exact Or.inl hmem
    · obtain rfl := List.mem_singleton.mp hmem
      exact Or.inr (hkeyed owner hk)
  · intro ses' hmem
    rcases List.mem_append.mp hmem with hmem | hmem
    · exact Or.inl hmem
    · obtain rfl := List.mem_singleton.mp hmem
      exact Or.inr fun t ht => Or.inl (hses t ht)

theorem Manned.begin_plain (h : Manned s) {ses : Session}
    (hkeyed : ∀ owner, s.Keyed owner → ses.Keyed owner s.db)
    (hses : ∀ t, ses.approves t = false) : Manned (s.begin ses) := by
  have hb := @Manned.begin s h ses [] hkeyed (fun t ht => by rw [hses t] at ht; cases ht)
  rw [List.append_nil] at hb
  exact hb

theorem manned_openApprove (h : Manned s) {env : ExecEnv} {userId approvalId : ℕ}
    (hbroker : env.brokerUp = true) : Manned (s.openApprove env userId approvalId) := by
  unfold Pool.openApprove
  split_ifs
  · exact h
  · split
    · exact h
    · rename_i a ha
      split
      · exact h
      · rename_i db' hok
        have he := effect_approveRead hok
        rw [if_pos hbroker] at he
        rw [he.queue]
        refine h.begin (fun owner _ => trivial) ?_
        intro t ht
        refine List.mem_append_right _ ?_
        have hlink : a.bizType = .exec ∧ a.bizId = t := by simpa [Session.approves] using ht
        rw [ApprovalRequest.linked, if_pos hlink.1, hlink.2]
        exact List.mem_singleton_self t

theorem manned_openClose (h : Manned s) (c : Closing) (admits : ExecTask → Bool) (taskId : ℕ) :
    Manned (s.openClose c admits taskId) := by
  unfold Pool.openClose
  split
  · split_ifs
    · exact h.begin_plain (fun _ _ => trivial) fun _ => rfl
    · exact h
  · exact h

theorem manned_openRetry (h : Manned s) (userId taskId : ℕ) :
    Manned (s.openRetry lower userId taskId) := by
  unfold Pool.openRetry
  split
  · rename_i task htask
    split_ifs
    · refine h.begin_plain ?_ fun _ => rfl
      intro owner hk row hrow
      obtain ⟨th, hth, rfl⟩ := List.mem_map.mp hrow
      obtain ⟨hmem, htid⟩ := List.mem_filter.mp (List.mem_filter.mp hth).1
      obtain ⟨hlt, howner⟩ := hk.rows th hmem
      refine ⟨hlt, howner.symm.trans ?_⟩
      exact (of_decide_eq_true htid).trans (Table.key_of_find htask).symm
    · exact h
  · exact h

theorem manned_decline (h : Manned s) {approvalId : ℕ} {result : Except PyErr ExecDb}
    (hres : ∀ db', result = .ok db' → Effect [] [] s.db db') :
    Manned (s.decline approvalId result) := by
  unfold Pool.decline
  split_ifs
  · exact h
  · split
    · rename_i db'
      exact h.of_effect (hres db' rfl) (List.Subset.refl _) s.handed
    · exact h

/-! ### Creations -/

section Creation

variable {env : ExecEnv} {spec : TaskSpec} {policy : Option String} {db' : ExecDb} {c : Created}

theorem mem_newTaskHosts {db : ExecDb} {th : ExecTaskHost} (h : th ∈ newTaskHosts env db spec) :
    db.nextTaskHost ≤ th.id ∧ th.id < db.nextTaskHost + spec.targetHostIds.length ∧
      th.execTaskId = db.nextTask := by
  obtain ⟨⟨hid, i⟩, hi, rfl⟩ := List.mem_map.mp h
  have hlt := List.snd_lt_of_mem_zipIdx hi
  refine ⟨Nat.le_add_right _ _, ?_, rfl⟩
  show db.nextTaskHost + i < db.nextTaskHost + spec.targetHostIds.length
  omega

/-- The task of every row, with the rows that are handed out next given to task `k`. -/
def extendOwner (owner : ℕ → ℕ) (next k row : ℕ) : ℕ := if row < next then owner row else k

theorem Pool.Keyed.create (h : s.Keyed owner) (hc : CreationEffect env spec policy s.db db' c) :
    (⟨db', s.workers, s.sessions, s.handed⟩ : Pool).Keyed
      (extendOwner owner s.db.nextTaskHost s.db.nextTask) := by
  obtain ⟨-, sensitive, sent, he, -⟩ := id hc
  have hn : db'.nextTask = s.db.nextTask + 1 := he.nextTask
  have hnh : db'.nextTaskHost = s.db.nextTaskHost + spec.targetHostIds.length := he.nextTaskHost
  refine ⟨?_, ?_, ?_⟩
  · intro task htask
    obtain ⟨task₀, h₀, hid⟩ := he.sameKeys.tasks task htask
    show task.id < db'.nextTask
    rw [← hid, hn]
    rcases List.mem_append.mp h₀ with h₀ | h₀
    · exact Nat.lt_succ_of_lt (h.tasks task₀ h₀)
    · obtain rfl := List.mem_singleton.mp h₀
      exact Nat.lt_succ_self _
  · intro th hth
    show th.id < db'.nextTaskHost ∧ _
    rw [show (⟨db', s.workers, s.sessions, s.handed⟩ : Pool).db.taskHosts = db'.taskHosts from rfl,
      hc.taskHosts] at hth
    rw [hnh, extendOwner]
    rcases List.mem_append.mp hth with hth | hth
    · obtain ⟨hlt, howner⟩ := h.rows th hth
      rw [if_pos hlt]
      exact ⟨by omega, howner⟩
    · obtain ⟨hle, hlt, htask⟩ := mem_newTaskHosts hth
      rw [if_neg (by omega)]
      exact ⟨hlt, htask⟩
  · intro ses hses
    have hk := h.sessions ses hses
    cases ses with
    | close c task rows => trivial
    | retry userId task rows reason =>
        intro row hrow
        obtain ⟨hlt, howner⟩ := hk row hrow
        show row < db'.nextTaskHost ∧ _
        rw [hnh, extendOwner, if_pos hlt]
        exact ⟨by omega, howner⟩
    | approve env userId a => trivial
    | auto taskId rows kick =>
        refine ⟨?_, ?_⟩
        · show taskId < db'.nextTask
          rw [hn]
          exact Nat.lt_succ_of_lt hk.1
        · intro th hth
          obtain ⟨hlt, howner⟩ := hk.2 th hth
          show th.id < db'.nextTaskHost ∧ _
          rw [hnh, extendOwner, if_pos hlt]
          exact ⟨by omega, howner⟩

/-- A creation whose rows are still to be committed holds identifiers of its own. -/
theorem Pool.Keyed.openAuto {owner' : ℕ → ℕ} {queue : List ℕ} {nextApproval : ℕ}
    {kick : Option Bool} (hnew : (⟨db', s.workers, s.sessions, s.handed⟩ : Pool).Keyed owner')
    (h : s.Keyed owner) (hc : CreationEffect env spec policy s.db db' c) :
    (({ s with db := { s.db with
        nextTask := db'.nextTask
        nextTaskHost := db'.nextTaskHost
        nextApproval := nextApproval
        queue := queue } } : Pool).begin (.auto c.id (.of db' c.id) kick)).Keyed owner' := by
  obtain ⟨hid, sensitive, sent, he, -⟩ := id hc
  have hn : db'.nextTask = s.db.nextTask + 1 := he.nextTask
  refine ⟨?_, ?_, ?_⟩
  · intro task htask
    show task.id < db'.nextTask
    rw [hn]
    exact Nat.lt_succ_of_lt (h.tasks task htask)
  · intro th hth
    refine hnew.rows th ?_
    show th ∈ db'.taskHosts
    rw [hc.taskHosts]
    exact List.mem_append_left _ hth
  · intro ses hmem
    rcases List.mem_append.mp hmem with hmem | hmem
    · exact (hnew.sessions ses hmem).congr rfl rfl
    · obtain rfl := List.mem_singleton.mp hmem
      refine ⟨?_, fun th hth => hnew.rows th (List.mem_filter.mp hth).1⟩
      show c.id < db'.nextTask
      rw [hid, hn]
      exact Nat.lt_succ_self _

theorem needs_of_create (hfresh : ∀ task ∈ s.db.tasks, task.id < s.db.nextTask)
    (hc : CreationEffect env spec policy s.db db' c)
    (hauto : ¬ (c.approveRequired = true ∧ c.status = .running)) (hn : db'.Needs t) :
    s.db.Needs t := by
  obtain ⟨-, sensitive, sent, he, hsent⟩ := hc
  rw [if_neg hauto] at hsent
  by_cases ht : t = s.db.nextTask
  · obtain ⟨⟨task, hfind, hrun, ha⟩, -⟩ := hn
    exact absurd (hsent.2 hfresh task (Table.mem_of_find hfind)
      ((Table.key_of_find hfind).trans ht) hrun) ha
  · have hins := (he.needs hn).resolve_left fun hmem => ht (List.mem_singleton.mp hmem)
    refine needs_of_added ?_ ?_ rfl rfl ht hins
    · intro task htask
      obtain rfl := List.mem_singleton.mp htask
      rfl
    · exact fun th hth => (mem_newTaskHosts hth).2.2

theorem manned_create (h : Manned s) (kick : Option Bool)
    (hbroker : (policy.isNone || env.brokerUp) = true) :
    Manned (s.create lower env spec policy kick) := by
  unfold Pool.create
  split
  · exact h
  · rename_i db' c hok
    have hc := createExecTaskRecord_effect hok
    obtain ⟨owner, hk⟩ := h.keyed
    have hkeyed := hk.create hc
    obtain ⟨hid, sensitive, sent, he, hsent⟩ := id hc
    have hq : s.db.queue ⊆ db'.queue := by
      rw [he.queue]
      exact List.subset_append_left _ _
    by_cases hauto : c.approveRequired = true ∧ c.status = .running
    · rw [if_pos hauto]
      rw [if_pos hauto] at hsent
      obtain ⟨hpolicy, rfl⟩ := hsent
      have hup : env.brokerUp = true := by
        cases policy with
        | none => cases hpolicy
        | some ref => simpa using hbroker
      rw [if_pos hup] at he
      refine h.of_grows ⟨_, hkeyed.openAuto hk hc⟩ (fun t => served_mono hq (List.Subset.refl _))
        (fun t => awaited_mono hq (List.Subset.refl _)) (fun t ht => Or.inl ht) ?_
      intro ses hmem
      rcases List.mem_append.mp hmem with hmem | hmem
      · exact Or.inl hmem
      · obtain rfl := List.mem_singleton.mp hmem
        refine Or.inr fun t ht => Or.inl ?_
        obtain rfl : c.id = t := of_decide_eq_true ht
        show c.id ∈ db'.queue
        rw [he.queue, hid]
        exact List.mem_append_right _ (List.mem_singleton_self _)
    · rw [if_neg hauto]
      have hcreated : Manned ⟨db', s.workers, s.sessions, s.handed⟩ :=
        h.of_grows ⟨_, hkeyed⟩ (fun t => served_mono hq (List.Subset.refl _))
          (fun t => awaited_mono hq (List.Subset.refl _))
          (fun t ht => Or.inl (needs_of_create hk.tasks hc hauto ht)) fun ses hmem => Or.inl hmem
      split_ifs
      · exact hcreated.kicked (kicked_kickIf _ _ _ _)
      · exact hcreated

end Creation

/-! ### Commits -/

section Commit

variable {env : ExecEnv} {i : ℕ}

theorem sessions_abort (s : Pool) (i : ℕ) : (s.abort i).sessions ⊆ s.sessions :=
  List.eraseIdx_subset

theorem manned_abort (h : Manned s) (i : ℕ) : Manned (s.abort i) :=
  h.of_effect (Effect.refl s.db) (sessions_abort s i) s.handed

theorem manned_close (h : Manned s) (c : Closing) (task : ExecTask) (rows : List ℕ) :
    Manned (s.finishWith i (closeTask c env s.db task rows)) := by
  rcases hc : closeTask c env s.db task rows with _ | db'
  · exact manned_abort h i
  · obtain ⟨db₁, he, rfl⟩ := closeTask_eq_some hc
    refine h.of_quiet (he.sameKeys.trans (sameKeys_writeRows db₁ rows fun _ => ⟨rfl, rfl⟩))
      ?_ (List.Subset.refl _) ?_ (sessions_abort s i)
    · show s.db.queue ⊆ db₁.queue
      rw [he.queue]
      exact List.subset_append_left _ _
    · intro t ht
      refine (he.needs ?_).resolve_left List.not_mem_nil
      refine ⟨ht.1, hasPending_writeRows ?_ ?_ ht.2⟩
      · exact fun _ => rfl
      · intro th _ _ hp _
        cases c <;> cases hp

theorem manned_retry (h : Manned s) {userId : ℕ} {task : ExecTask} {rows : List ℕ}
    {reason : Option String} (hi : s.sessions[i]? = some (.retry userId task rows reason))
    {db' : ExecDb} (hc : retryTask env s.db task rows = some db') (inProcess : Bool) :
    Manned (({ s.abort i with db := db' } : Pool).kickOff env.brokerUp inProcess task.id) := by
  obtain ⟨owner, hk⟩ := h.keyed
  obtain ⟨db₁, he, rfl⟩ := retryTask_eq_some hc
  set db' := db₁.writeRows rows fun th => { th with status := .pending } with hdb'
  have hkick := kicked_kickOff ({ s.abort i with db := db' } : Pool) env.brokerUp inProcess task.id
  have hsame : SameKeys s.db db' :=
    he.sameKeys.trans (sameKeys_writeRows db₁ rows fun _ => ⟨rfl, rfl⟩)
  have hq : s.db.queue ⊆ db'.queue := by
    show s.db.queue ⊆ db₁.queue
    rw [he.queue]
    exact List.subset_append_left _ _
  have hses : ∀ ses ∈ (({ s.abort i with db := db' } : Pool).kickOff env.brokerUp inProcess
      task.id).sessions, ses ∈ s.sessions := by
    intro ses hmem
    rw [hkick.sessions] at hmem
    exact sessions_abort s i hmem
  refine h.of_grows ⟨owner, hk.of_sameKeys (hsame.trans hkick.sameKeys) ?_⟩ ?_ ?_ ?_ ?_
  · exact fun ses hmem => Or.inl (hses ses hmem)
  · exact fun t => served_mono (List.Subset.trans hq hkick.queue) hkick.workers
  · exact fun t => awaited_mono (List.Subset.trans hq hkick.queue) hkick.workers
  · intro t ht
    by_cases hid : t = task.id
    · rw [hid]
      exact Or.inr (awaited_kickOff _ env.brokerUp inProcess task.id).served
    · have hn : db'.Needs t := hkick.needs ht
      have hn₁ : db₁.Needs t := by
        refine ⟨hn.1, hasPending_writeRows ?_ ?_ hn.2⟩
        · exact fun _ => rfl
        · -- a row that is reset is a row of the retried task
          intro th hth hrow _ htask
          rw [he.taskHosts] at hth
          obtain ⟨-, howner⟩ := hk.sessions _ (List.mem_of_getElem? hi) th.id hrow
          rw [← (hk.rows th hth).2, htask] at howner
          exact absurd howner hid
      exact Or.inl ((he.needs hn₁).resolve_left fun hmem => hid (List.mem_singleton.mp hmem))
  · exact fun ses hmem => Or.inl (hses ses hmem)

theorem manned_approve (h : Manned s) {env' : ExecEnv} {userId : ℕ} {a : ApprovalRequest}
    (hi : s.sessions[i]? = some (.approve env' userId a)) :
    Manned (s.finishWith i ((approveRead env' s.db userId a).toOption.map fun db' =>
      { db' with queue := s.db.queue })) := by
  rcases hc : approveRead env' s.db userId a with e | db'
  · exact manned_abort h i
  · have he := effect_approveRead hc
    obtain ⟨owner, hk⟩ := h.keyed
    have hsame : SameKeys s.db { db' with queue := s.db.queue } :=
      he.sameKeys.trans ⟨rfl, rfl, (SameKeys.refl db').tasks, (SameKeys.refl db').rows⟩
    refine h.of_grows ⟨owner, hk.of_sameKeys hsame fun ses hmem => Or.inl (sessions_abort s i hmem)⟩
      (fun t ht => ht) (fun t ht => ht) ?_ fun ses hmem => Or.inl (sessions_abort s i hmem)
    intro t ht
    rcases he.needs (show db'.Needs t from ht) with hmem | hn
    · refine Or.inr (Pool.Awaited.served ?_)
      refine h.awaited _ (List.mem_of_getElem? hi) t ?_
      unfold ApprovalRequest.linked at hmem
      split_ifs at hmem with hexec
      · simp [Session.approves, hexec, List.mem_singleton.mp hmem]
      · cases hmem
    · exact Or.inl hn

/-- The task of a creation that a policy approved is awaited when its rows are committed. -/
theorem manned_auto (h : Manned s) {taskId : ℕ} {rows : NewRows taskId} {kick : Option Bool}
    (hi : s.sessions[i]? = some (.auto taskId rows kick)) :
    Manned (({ s.abort i with db := { s.db with
        tasks := s.db.tasks ++ rows.tasks
        taskHosts := s.db.taskHosts ++ rows.taskHosts
        approvals := s.db.approvals ++ rows.approvals } } : Pool).kickIf env.brokerUp kick
      taskId) := by
  refine Manned.kicked ?_ (kicked_kickIf _ _ _ _)
  obtain ⟨owner, hk⟩ := h.keyed
  have hmem := List.mem_of_getElem? hi
  obtain ⟨hlt, hrows⟩ := hk.sessions _ hmem
  refine h.of_grows ⟨owner, ?_, ?_, ?_⟩ (fun t ht => ht) (fun t ht => ht) ?_
    fun ses hses => Or.inl (sessions_abort s i hses)
  · intro task htask
    rcases List.mem_append.mp htask with htask | htask
    · exact hk.tasks task htask
    · rw [rows.tasks_id task htask]
      exact hlt
  · intro th hth
    rcases List.mem_append.mp hth with hth | hth
    · exact hk.rows th hth
    · exact hrows th hth
  · intro ses hses
    exact (hk.sessions ses (sessions_abort s i hses)).congr rfl rfl
  · intro t ht
    by_cases hid : t = taskId
    · refine Or.inr (Pool.Awaited.served ?_)
      refine h.awaited _ hmem t ?_
      simp [Session.approves, hid]
    · exact Or.inl (needs_of_added rows.tasks_id rows.taskHosts_task rfl rfl hid ht)

theorem manned_commit (h : Manned s) (inProcess : Bool) :
    Manned (s.commit env inProcess i) := by
  unfold Pool.commit
  split
  · exact h
  · split_ifs
    · exact h
    · exact manned_close h _ _ _
  · rename_i userId task rows hi
    split
    · rename_i db' hc
      exact manned_retry h hi hc inProcess
    · exact manned_abort h i
  · rename_i userId task rows reason hi
    rcases hc : retrySensitive s.db task userId reason with _ | db'
    · exact manned_abort h i
    · exact h.of_effect (effect_retrySensitive hc) (sessions_abort s i) s.handed
  · rename_i env' userId a hi
    exact manned_approve h hi
  · rename_i taskId rows kick hi
    exact manned_auto h hi

end Commit

/-! ### Workers -/

theorem manned_consume (h : Manned s) (k : ℕ) : Manned (s.consume k) := by
  unfold Pool.consume
  split
  · rename_i taskId hk
    set s₁ : Pool := { s with db := { s.db with queue := s.db.queue.eraseIdx k } } with hs₁
    have hstart : ∀ t, t ∈ s.db.queue → (s₁.start taskId).Awaited t := by
      intro t ht
      obtain ⟨j, hj⟩ := List.mem_iff_getElem?.mp ht
      by_cases hjk : j = k
      · rw [hjk, hk] at hj
        obtain rfl := Option.some.inj hj
        exact Or.inr ⟨⟨taskId, .opened⟩, List.mem_append_right _ (List.mem_singleton_self _),
          rfl, rfl⟩
      · exact Or.inl (List.mem_eraseIdx_iff_getElem?.mpr ⟨j, hjk, hj⟩)
    obtain ⟨owner, hkeyed⟩ := h.keyed
    refine h.of_grows ⟨owner, hkeyed.of_sameKeys ?_ fun ses hmem => Or.inl hmem⟩ ?_ ?_
      (fun t ht => Or.inl ht) fun ses hmem => Or.inl hmem
    · exact ⟨rfl, rfl, (SameKeys.refl s.db).tasks, (SameKeys.refl s.db).rows⟩
    · rintro t (ht | ⟨w, hw, hid⟩)
      · exact (hstart t ht).served
      · exact Or.inr ⟨w, List.mem_append_left _ hw, hid⟩
    · rintro t (ht | ⟨w, hw, hid, hphase⟩)
      · exact hstart t ht
      · exact Or.inr ⟨w, List.mem_append_left _ hw, hid, hphase⟩
  · exact h

theorem finishWrite_fixed (now : ℚ) (status : HostStatus) (th : ExecTaskHost) :
    ((finishWrite now status th).id = th.id ∧
      (finishWrite now status th).execTaskId = th.execTaskId) ∧
      ((finishWrite now status th).status = .pending → th.status = .pending) := by
  unfold finishWrite finishRow
  split_ifs
  · split <;> exact ⟨⟨rfl, rfl⟩, fun h => by cases h⟩
  · exact ⟨⟨rfl, rfl⟩, id⟩

/-- What a step of a worker does to the tables: it adds no task and no row, keeps the messages
and makes no task need a dispatch. -/
theorem act_tables (lower : String → String) (w : Worker) (db : ExecDb) (a : WorkerAct) :
    SameKeys db (w.act lower db a).db ∧ db.queue ⊆ (w.act lower db a).db.queue ∧
      ∀ t, (w.act lower db a).db.Needs t → db.Needs t := by
  fun_cases Worker.act lower w db a with
  | case5 l th todo started now hphase =>
      refine ⟨sameKeys_setTaskHost db _ fun _ => ⟨rfl, rfl⟩, List.Subset.refl _, ?_⟩
      intro t ht
      refine ⟨ht.1, hasPending_setTaskHost ?_ ?_ ht.2⟩
      · exact fun _ => rfl
      · intro th' hp
        cases hp
  | case8 l row status todo now hphase =>
      refine ⟨sameKeys_setTaskHost db _ fun th => (finishWrite_fixed now status th).1,
        List.Subset.refl _, ?_⟩
      intro t ht
      exact ⟨ht.1, hasPending_setTaskHost (fun th => (finishWrite_fixed now status th).1.2)
        (fun th => (finishWrite_fixed now status th).2) ht.2⟩
  | case9 l env hphase =>
      obtain ⟨sent, he⟩ := @effect_settleAgain env db w.taskId
      refine ⟨he.sameKeys, ?_, fun t ht => (he.needs ht).resolve_left List.not_mem_nil⟩
      rw [he.queue]
      exact List.subset_append_left _ _
  | _ => exact ⟨SameKeys.refl db, List.Subset.refl _, fun t ht => ht⟩

theorem settleTask_queues {env : ExecEnv} {db : ExecDb} {task : ExecTask}
    (hbroker : env.brokerUp = true) (h : (settleTask env db task).HasPending task.id) :
    task.id ∈ (settleTask env db task).queue := by
  obtain ⟨sent, he⟩ := @effect_settleTask env db task
  rw [ExecDb.HasPending, he.taskHosts] at h
  obtain ⟨th, hth, htask, hst⟩ := h
  have hmem : HostStatus.pending ∈ (db.hostsOfTask task.id).map (·.status) :=
    List.mem_map.mpr ⟨th, List.mem_filter.mpr ⟨hth, by simpa using htask⟩, hst⟩
  unfold settleTask
  rw [if_pos (Or.inr hmem), if_pos ⟨hmem, hbroker⟩]
  exact List.mem_append_right _ (List.mem_singleton_self _)

theorem settleAgain_queues {env : ExecEnv} {db : ExecDb} {taskId : ℕ}
    (hbroker : env.brokerUp = true) (h : (settleAgain env db taskId).Needs taskId) :
    taskId ∈ (settleAgain env db taskId).queue := by
  obtain ⟨⟨task', hfind', hrun', -⟩, hpending⟩ := h
  rcases hfind : db.task? taskId with _ | task
  · have heq : settleAgain env db taskId = db := by simp [settleAgain, hfind]
    rw [heq, hfind] at hfind'
    cases hfind'
  · obtain rfl : task.id = taskId := Table.key_of_find hfind
    by_cases hrun : task.status = .running
    · have heq : settleAgain env db task.id = settleTask env db task := by
        simp [settleAgain, hfind, hrun]
      rw [heq] at hpending ⊢
      exact settleTask_queues hbroker hpending
    · have heq : settleAgain env db task.id = db := by simp [settleAgain, hfind, hrun]
      rw [heq, hfind] at hfind'
      exact absurd (Option.some.inj hfind' ▸ hrun') hrun

theorem exists_claimsFrom (l : Loaded) {todo started : List ExecTaskHost}
    (h : todo ≠ [] ∨ started ≠ []) : ∃ phase, claimsFrom l todo started = some phase := by
  unfold claimsFrom
  split_ifs with h₁ h₂
  · exact ⟨_, rfl⟩
  · exact ⟨_, rfl⟩
  · exact absurd h (not_or.mpr ⟨h₁, h₂⟩)

theorem goesOn_of_claimsFrom (l : Loaded) {todo started : List ExecTaskHost} (taskId : ℕ)
    (h : todo ≠ [] ∨ started ≠ []) :
    ∃ w ∈ (claimsFrom l todo started).map (Worker.mk taskId), w.taskId = taskId := by
  obtain ⟨phase, hphase⟩ := exists_claimsFrom l h
  exact ⟨⟨taskId, phase⟩, by rw [hphase]; rfl, rfl⟩

/-- A worker that keeps its duty and ends leaves its task without need, or queued. -/
theorem act_serves (lower : String → String) (w : Worker) (db : ExecDb) (a : WorkerAct)
    (approving : Bool) (hduty : w.keepsDuty approving a = true)
    (hneeds : (w.act lower db a).db.Needs w.taskId) :
    w.taskId ∈ (w.act lower db a).db.queue ∨
      ∃ w' ∈ (w.act lower db a).worker, w'.taskId = w.taskId := by
  revert hneeds
  fun_cases Worker.act lower w db a with
  | case2 hphase task hfind hrun =>
      rintro ⟨⟨task', hfind', hrun', -⟩, -⟩
      rw [hfind] at hfind'
      exact absurd (Option.some.inj hfind' ▸ hrun') hrun
  | case3 hphase hfind =>
      rintro ⟨⟨task', hfind', -⟩, -⟩
      rw [hfind] at hfind'
      cases hfind'
  | case4 task hphase rows pending =>
      rintro ⟨-, th, hth, htask, hst⟩
      refine Or.inr (goesOn_of_claimsFrom _ w.taskId (Or.inl ?_))
      refine List.ne_nil_of_mem (List.mem_filter.mpr ⟨List.mem_filter.mpr ⟨hth, ?_⟩, ?_⟩)
      · exact decide_eq_true htask
      · exact decide_eq_true hst
  | case5 l th todo started now hphase =>
      intro _
      exact Or.inr (goesOn_of_claimsFrom l w.taskId (Or.inr (List.append_ne_nil_of_right_ne_nil _
        (List.cons_ne_nil th []))))
  | case6 l todo started now hphase =>
      intro _
      have hstarted : started ≠ [] := by simpa [Worker.keepsDuty, hphase] using hduty
      exact Or.inr (goesOn_of_claimsFrom l w.taskId (Or.inr hstarted))
  | case9 l env hphase =>
      intro hneeds
      have hbroker : env.brokerUp = true := by simpa [Worker.keepsDuty, hphase] using hduty
      exact Or.inl (settleAgain_queues hbroker hneeds)
  | case10 => simp [Worker.keepsDuty] at hduty
  | _ => exact fun _ => Or.inr ⟨_, rfl, rfl⟩

/-- Only the first step of a worker reads the task, and no step begins again. -/
theorem act_opened (lower : String → String) (w : Worker) (db : ExecDb) (a : WorkerAct)
    (hphase : w.phase = .opened) (hduty : w.keepsDuty true a = true) :
    (w.act lower db a).worker = some w := by
  unfold Worker.keepsDuty at hduty
  unfold Worker.act
  cases a <;> simp_all

theorem manned_act (h : Manned s) {i : ℕ} {a : WorkerAct}
    (hok : ((s.workers[i]?).all fun w => w.keepsDuty (s.approving w.taskId) a) = true) :
    Manned (s.act lower i a) := by
  unfold Pool.act
  rcases hi : s.workers[i]? with _ | w
  · exact h
  rw [hi, Option.all_some] at hok
  obtain ⟨hsame, hq, hneeds⟩ := act_tables lower w s.db a
  obtain ⟨owner, hk⟩ := h.keyed
  dsimp only
  refine ⟨⟨owner, hk.of_sameKeys hsame fun ses hmem => Or.inl hmem⟩, ?_, ?_⟩
  · intro t ht
    rcases h.served t (hneeds t ht) with hmem | ⟨w', hw', hid⟩
    · exact Or.inl (hq hmem)
    · by_cases hne : w' = w
      · obtain rfl : w.taskId = t := hne ▸ hid
        rcases act_serves lower w s.db a _ hok ht with hmem | ⟨w'', hsome, hid'⟩
        · exact Or.inl hmem
        · refine Or.inr ⟨w'', ?_, hid'⟩
          rw [Option.mem_def] at hsome
          rw [hsome]
          exact List.mem_set (List.getElem?_eq_some_iff.mp hi).1 w''
      · exact Or.inr ⟨w', Sessions.mem_elim_of_ne hi _ hw' hne, hid⟩
  · intro ses hses t ht
    rcases h.awaited ses hses t ht with hmem | ⟨w', hw', hid, hphase⟩
    · exact Or.inl (hq hmem)
    · refine Or.inr ⟨w', ?_, hid, hphase⟩
      by_cases hne : w' = w
      · -- an open approval of its task keeps the worker from reading it
        have happroving : s.approving w.taskId = true :=
          List.any_eq_true.mpr ⟨ses, hses, by rw [← hne, hid]; exact ht⟩
        rw [happroving] at hok
        rw [act_opened lower w s.db a (hne ▸ hphase) hok, hne]
        exact List.mem_set (List.getElem?_eq_some_iff.mp hi).1 w
      · exact Sessions.mem_elim_of_ne hi _ hw' hne

/-! ### Whole histories -/

theorem Manned.apply (h : Manned s) (hok : LosesNone s op = true) : Manned (s.apply lower op) := by
  cases op with
  | create env spec policy kick => exact manned_create h kick hok
  | openApprove env userId approvalId => exact manned_openApprove h hok
  | reject env userId approvalId => exact manned_decline h fun db' => effect_reject
  | cancelApproval env userId isAdmin approvalId =>
      exact manned_decline h fun db' => effect_cancelApproval
  | openCancel taskId => exact manned_openClose h _ _ _
  | openSweep now createdAt taskId => exact manned_openClose h _ _ _
  | openRetry userId taskId => exact manned_openRetry h userId taskId
  | commit env inProcess i => exact manned_commit h inProcess
  | abort i => exact manned_abort h i
  | consume k => exact manned_consume h k
  | act i a => exact manned_act h hok
  | persistResult now row status exitCode =>
      refine h.of_quiet (sameKeys_setTaskHost s.db row fun _ => ⟨rfl, rfl⟩) (List.Subset.refl _)
        (List.Subset.refl _) ?_ (List.Subset.refl _)
      intro t ht
      refine ⟨ht.1, hasPending_setTaskHost ?_ ?_ ht.2⟩
      · exact fun _ => rfl
      · intro th hp
        exact absurd hp (frameStatus_ne_pending status)
  | maybeFinalizeTask now taskId =>
      exact h.of_effect (effect_maybeFinalizeTask now s.db taskId) (List.Subset.refl _) s.handed
  | configure hosts scripts scriptVersions rules =>
      exact h.of_quiet ⟨rfl, rfl, (SameKeys.refl s.db).tasks, (SameKeys.refl s.db).rows⟩
        (List.Subset.refl _) (List.Subset.refl _) (fun _ ht => ht) (List.Subset.refl _)

theorem manned_idle (hosts : List Host) (rules : ExecRules) :
    Manned (.idle (ExecDb.fresh hosts rules)) where
  keyed := by
    refine ⟨id, ⟨?_, ?_, ?_⟩⟩ <;>
      · intro x hx
        cases hx
  served := by
    rintro t ⟨⟨task, hfind, -⟩, -⟩
    cases hfind
  awaited := fun _ h => by cases h

/-- **No approved task is lost.** In every history whose steps lose no dispatch, in no state is
an approved task left running with a pending host, with no message queued, no worker running it
and no approval of it open. -/
theorem approved_never_lost (lower : String → String) (hosts : List Host) (rules : ExecRules)
    (ops : List PoolOp) (hok : Meets (Pool.apply lower) (fun s op => LosesNone s op = true)
      (.idle (ExecDb.fresh hosts rules)) ops) :
    ∀ pre, pre <+: ops → ∀ t,
      ¬ (run (Pool.apply lower) (.idle (ExecDb.fresh hosts rules)) pre).Lost t := by
  rintro pre ⟨post, rfl⟩ t
  have hmanned : Manned (run (Pool.apply lower) (.idle (ExecDb.fresh hosts rules)) pre) :=
    run_invariant_of_meets (fun s op h hstep => h.apply hstep) (manned_idle hosts rules)
      ((meets_append _ _ _).mp hok).1
  exact hmanned.not_lost t

/-- Every task is sensitive: the batch threshold is one host. -/
def guardedRules : ExecRules := ⟨[], some 1, false⟩

/-- A creation, an approval that commits before a worker reads the task, and the dispatch. -/
def approvedInOrder : List PoolOp :=
  [.create busEnv { demoSpec with command := some "uptime" } none none, .openApprove busEnv 2 1,
    .consume 0, .commit busEnv false 0, .act 0 .check, .act 0 .load, .act 0 (.claim 1 true),
    .act 0 (.hand demoDispatch), .act 0 (.finish 2), .act 0 (.settle busEnv)]

/-- The task is not lost after the commit of its approval, nor at the end. -/
theorem approved_never_lost_in_order :
    ¬ (run (Pool.apply id) (.idle (ExecDb.fresh [⟨1, some 1, "agent", none⟩] guardedRules))
        (approvedInOrder.take 4)).Lost 1 ∧
      ¬ (run (Pool.apply id) (.idle (ExecDb.fresh [⟨1, some 1, "agent", none⟩] guardedRules))
        approvedInOrder).Lost 1 := by
  have hnever := approved_never_lost id [⟨1, some 1, "agent", none⟩] guardedRules approvedInOrder
    (by decide +kernel)
  exact ⟨hnever _ (List.take_prefix 4 _) 1, hnever _ (List.prefix_refl _) 1⟩

/-- The worker reads the task between the message and the commit, and drops it: the approved
task is lost. -/
theorem message_overtakes_commit :
    (run (Pool.apply id) (.idle (ExecDb.fresh [⟨1, some 1, "agent", none⟩] guardedRules))
      [.create busEnv { demoSpec with command := some "uptime" } none none,
        .openApprove busEnv 2 1, .consume 0, .act 0 .check, .commit busEnv false 0]).Lost 1 := by
  decide +kernel

end LarkPlat
