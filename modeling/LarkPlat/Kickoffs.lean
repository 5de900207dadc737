import LarkPlat.LiveHosts
import LarkPlat.RunService

/-!
# Who Dispatches a Created Task

`create_exec_task_record` leaves a task that needs no approval in status `running` and dispatches
nothing: "caller dispatches". It has three callers. `create_task` and the workflow engine dispatch
the task after the commit, the first through the broker or in process, the second in process.
`rollback_run` commits and does not dispatch. A task that a policy approves at its creation is
announced to the broker by the approval linkage, before the commit of the creation, and the
workflow engine, the only caller that passes a remediation, takes it for a task that still waits.

`Caller.trace` lists what a caller does that others can see, in order: commits, messages and
dispatches in process. `engine_replay` and `rollback_replay` connect it to the calls of the engine
and of the run service.

## Main results

* `dispatched_once_iff`: a caller dispatches the runnable task that it creates exactly once after
  the commit, if and only if no policy approves the task, and the caller is not `rollback_run` with
  a task that needs no approval.
* `created_and_never_dispatched`: both exceptions occur.
-/

namespace LarkPlat

/-! ### Callers -/

/-- What a caller does that others can see. -/
inductive CallerEvent
  | commit (db : ExecDb)
  /-- `exec_dispatch.delay`. -/
  | enqueue (taskId : ℕ)
  /-- `exec_dispatch` in process. -/
  | run (taskId : ℕ)

/-- The callers of `create_exec_task_record`, with what they read. -/
inductive Caller
  /-- `create_task`; some target has a live agent in this process, or none has. -/
  | createTask (lower : String → String) (env : DispatchEnv) (db : ExecDb) (spec : TaskSpec)
      (agentHere : Bool)
  /-- `_create_exec_task` of the workflow engine. -/
  | engine (env : StepEnv) (w : Work) (node : WorkflowNodeRun) (defnode : Json)
  /-- `rollback_run`. -/
  | rollback (lower : String → String) (env : ExecEnv) (g : Gate) (s : RunState)

/-- The arguments of a call of `create_exec_task_record`. -/
structure RecordArgs where
  lower : String → String
  env : ExecEnv
  db : ExecDb
  spec : TaskSpec
  policy : Option String

namespace Caller

/-- The tables that the caller finds. -/
def db : Caller → ExecDb
  | .createTask _ _ db _ _ => db
  | .engine _ w _ _ => w.cur.exec
  | .rollback _ _ _ s => s.exec

/-- The caller is `rollback_run`. -/
def isRollback : Caller → Bool
  | .rollback _ _ _ _ => true
  | _ => false

/-- The call of `create_exec_task_record`, if the caller makes one. Only the engine passes a
remediation, so only there a policy can answer. -/
def args : Caller → Except PyErr (Option RecordArgs)
  | .createTask lower env db spec _ => pure (some ⟨lower, env.toExecEnv, db, spec, none⟩)
  | .engine env w node defnode => do
      let spec ← execSpec (← cfg defnode) w.cur.run node
      pure (some ⟨env.lower, env.dispatch.toExecEnv, w.cur.exec, spec, env.policy⟩)
  | .rollback lower env g s => do
      g.check "ai:admin"
      let remediation := Json.field s.run.context "remediation"
      if (s.run.status = .succeeded ∨ s.run.status = .failed) ∧ remediation.truthy then
        let spec ← compensationSpec remediation s.run
        pure (some ⟨lower, env, s.exec, spec, none⟩)
      else pure none

/-- What the caller does with the record that was created. -/
def follow (db : ExecDb) (c : Created) : Caller → List CallerEvent
  | .createTask _ env _ _ agentHere =>
      if c.status = .running then
        [if agentHere = true ∨ env.brokerUp = false then .run c.id else .enqueue c.id]
      else []
  | .engine _ _ _ _ => if c.approveRequired then [] else [.commit db, .run c.id]
  | .rollback _ _ _ _ => [.commit db]

end Caller

/-- What a caller did, and the record that it created. -/
structure CallerTrace where
  events : List CallerEvent
  record : Option (ExecDb × Created)

/-- The operation of a caller. The messages of the creation itself are sent before its commit. -/
def Caller.trace (caller : Caller) : Except PyErr CallerTrace := do
  match ← caller.args with
  | none => pure ⟨[], none⟩
  | some a =>
      let (db, c) ← createExecTaskRecord a.lower a.env a.db a.spec a.policy
      pure ⟨(db.queue.drop a.db.queue.length).map .enqueue ++ .commit db :: caller.follow db c,
        some (db, c)⟩

/-- The tables after the events of a caller. -/
def replay (lower : String → String) (env : DispatchEnv) : ExecDb → List CallerEvent → ExecDb
  | db, [] => db
  | _, .commit db :: events => replay lower env db events
  | db, .enqueue taskId :: events =>
      replay lower env { db with queue := db.queue ++ [taskId] } events
  | db, .run taskId :: events => replay lower env (execDispatch lower env db taskId).1 events

/-! ### Dispatches after the commit -/

/-- The task runs and has a pending host. -/
def Runnable (db : ExecDb) (id : ℕ) : Prop :=
  (∃ t ∈ db.task? id, t.status = .running) ∧ ∃ th ∈ db.hostsOfTask id, th.status = .pending

instance (db : ExecDb) (id : ℕ) : Decidable (Runnable db id) :=
  inferInstanceAs (Decidable (_ ∧ _))

/-- The dispatches of the task, in process or through the broker. -/
def dispatches (id : ℕ) (events : List CallerEvent) : ℕ :=
  events.countP fun e =>
    match e with
    | .enqueue taskId | .run taskId => decide (taskId = id)
    | .commit _ => false

/-- The dispatches of the task after the first commit in which it runs. -/
def dispatchesAfter (id : ℕ) : List CallerEvent → ℕ
  | [] => 0
  | .commit db :: events =>
      if (db.task? id).any fun t => decide (t.status = .running) then dispatches id events
      else dispatchesAfter id events
  | .enqueue _ :: events | .run _ :: events => dispatchesAfter id events

/-- A record that is left runnable is dispatched exactly once after the commit that made it
run. -/
def Caller.DispatchesOnce (caller : Caller) : Prop :=
  ∀ tr, caller.trace = .ok tr → ∀ db c, tr.record = some (db, c) → Runnable db c.id →
    dispatchesAfter c.id tr.events = 1

/-- The checks of the creation pass, and the task has a target. -/
def RecordArgs.Creates (a : RecordArgs) (sensitive : Bool) : Prop :=
  creationVerdict a.lower a.db a.spec = .ok sensitive ∧ a.spec.targetHostIds ≠ []

/-- A policy approves the sensitive task at its creation. -/
def RecordArgs.AutoApproved (a : RecordArgs) : Prop :=
  a.Creates true ∧ a.policy.isSome = true ∧ a.db.nextTask ∉ a.db.bizIds

/-- The caller creates no task that a policy approves, and is not `rollback_run` with a task that
needs no approval. -/
def Caller.Covered (caller : Caller) : Prop :=
  ∀ a, caller.args = .ok (some a) →
    ¬ a.AutoApproved ∧ (caller.isRollback = true → ¬ a.Creates false)

theorem dispatchesAfter_enqueues (id : ℕ) (sent : List ℕ) (events : List CallerEvent) :
    dispatchesAfter id (sent.map .enqueue ++ events) = dispatchesAfter id events := by
  induction sent with
  | nil => rfl
  | cons _ _ ih => exact ih

/-! ### The record -/

/-- The record that a creation leaves is runnable if its status is `running` and it has a
target. -/
theorem runnable_created_iff {a : RecordArgs} {db : ExecDb} {c : Created} (hk : Kept a.db)
    (hrows : ∀ th ∈ a.db.taskHosts, th.execTaskId < a.db.nextTask)
    (h : createExecTaskRecord a.lower a.env a.db a.spec a.policy = .ok (db, c)) :
    Runnable db c.id ↔ c.status = .running ∧ a.spec.targetHostIds ≠ [] := by
  have hcreates := creates_of_ok hk h
  obtain ⟨t, ht, hst⟩ := hcreates.task
  have hhosts : ∀ th, th ∈ db.hostsOfTask c.id ↔ th ∈ newTaskHosts a.env a.db a.spec := by
    intro th
    rw [mem_hostsOfTask, (createExecTaskRecord_effect h).taskHosts, List.mem_append, hcreates.id]
    constructor
    · rintro ⟨hold | hnew, htask⟩
      · exact absurd htask (Nat.ne_of_lt (hrows th hold))
      · exact hnew
    · exact fun hnew => ⟨Or.inr hnew, (mem_newTaskHosts hnew).2.2⟩
  have htask : (∃ t ∈ db.task? c.id, t.status = .running) ↔ c.status = .running := by
    rw [hcreates.id, ht, ← hst]
    simp
  have hpending : (∃ th ∈ db.hostsOfTask c.id, th.status = .pending) ↔
      a.spec.targetHostIds ≠ [] := by
    constructor
    · rintro ⟨th, hth, -⟩ hnil
      have hmem := (hhosts th).mp hth
      simp [newTaskHosts, hnil] at hmem
    · intro hne
      obtain ⟨hid, rest, heq⟩ := List.exists_cons_of_ne_nil hne
      refine ⟨_, (hhosts _).mpr (List.mem_map.mpr ⟨(hid, 0), ?_, rfl⟩), rfl⟩
      rw [heq, List.zipIdx_cons]
      exact List.mem_cons_self
  rw [Runnable, htask, hpending]

/-- The task of a call whose creation passes its checks: it is created, unless it is sensitive and
some request has its identifier. -/
theorem exists_record_iff {a : RecordArgs} (hk : Kept a.db) (sensitive : Bool) :
    (∃ db c, createExecTaskRecord a.lower a.env a.db a.spec a.policy = .ok (db, c) ∧
        c.approveRequired = sensitive) ↔
      creationVerdict a.lower a.db a.spec = .ok sensitive ∧
        ¬ (sensitive = true ∧ a.db.nextTask ∈ a.db.bizIds) := by
  have hspec := createExecTaskRecord_creates a.lower a.env a.spec a.policy hk
  rcases hv : creationVerdict a.lower a.db a.spec with e | verdict
  · rw [hv] at hspec
    dsimp only at hspec
    simp [hspec]
  rw [hv] at hspec
  dsimp only at hspec
  split_ifs at hspec with htaken
  · rw [hspec]
    constructor
    · rintro ⟨_, _, h, -⟩
      cases h
    · rintro ⟨h, hfree⟩
      obtain rfl := Except.ok.inj h
      exact absurd htaken hfree
  · obtain ⟨db, c, hok, hreq, -⟩ := hspec
    constructor
    · rintro ⟨db', c', hok', hreq'⟩
      obtain ⟨-, rfl⟩ := Prod.mk.inj (Except.ok.inj (hok.symm.trans hok'))
      obtain rfl := hreq.symm.trans hreq'
      exact ⟨rfl, htaken⟩
    · rintro ⟨h, -⟩
      obtain rfl := Except.ok.inj h
      exact ⟨db, c, hok, hreq⟩

/-! ### The three callers -/

theorem Caller.args_db {caller : Caller} {a : RecordArgs} (h : caller.args = .ok (some a)) :
    a.db = caller.db := by
  cases caller with
  | createTask lower env db spec agentHere =>
      obtain rfl := Option.some.inj (Except.ok.inj h)
      rfl
  | engine env w node defnode =>
      obtain ⟨c, -, h⟩ := bind_eq_ok.mp h
      obtain ⟨spec, -, h⟩ := bind_eq_ok.mp h
      obtain rfl := Option.some.inj (Except.ok.inj h)
      rfl
  | rollback lower env g s =>
      obtain ⟨-, -, h⟩ := bind_eq_ok.mp h
      dsimp only at h
      split_ifs at h
      · obtain ⟨spec, -, h⟩ := bind_eq_ok.mp h
        obtain rfl := Option.some.inj (Except.ok.inj h)
        rfl
      · cases Except.ok.inj h

theorem Caller.args_policy {caller : Caller} {a : RecordArgs} (h : caller.args = .ok (some a))
    (hpolicy : a.policy.isSome = true) :
    ∃ env w node defnode, caller = .engine env w node defnode := by
  cases caller with
  | createTask lower env db spec agentHere =>
      obtain rfl := Option.some.inj (Except.ok.inj h)
      cases hpolicy
  | engine env w node defnode => exact ⟨env, w, node, defnode, rfl⟩
  | rollback lower env g s =>
      obtain ⟨-, -, h⟩ := bind_eq_ok.mp h
      dsimp only at h
      split_ifs at h
      · obtain ⟨spec, -, h⟩ := bind_eq_ok.mp h
        obtain rfl := Option.some.inj (Except.ok.inj h)
        cases hpolicy
      · cases Except.ok.inj h

theorem dispatches_follow {caller : Caller} (db : ExecDb) {c : Created}
    (hrun : c.status = .running) :
    dispatches c.id (caller.follow db c) =
      match caller with
      | .createTask _ _ _ _ _ => 1
      | .engine _ _ _ _ => if c.approveRequired then 0 else 1
      | .rollback _ _ _ _ => 0 := by
  cases caller with
  | createTask lower env db spec agentHere =>
      simp only [Caller.follow, hrun, if_true]
      split_ifs <;> simp [dispatches]
  | engine env w node defnode =>
      simp only [Caller.follow]
      split_ifs <;> simp [dispatches]
  | rollback lower env g s => simp [Caller.follow, dispatches]

theorem Caller.trace_eq_ok {caller : Caller} {tr : CallerTrace} {db : ExecDb} {c : Created}
    (h : caller.trace = .ok tr) (hrec : tr.record = some (db, c)) :
    ∃ a, caller.args = .ok (some a) ∧
      createExecTaskRecord a.lower a.env a.db a.spec a.policy = .ok (db, c) ∧
      tr.events = (db.queue.drop a.db.queue.length).map .enqueue ++
        .commit db :: caller.follow db c := by
  unfold Caller.trace at h
  obtain ⟨args, hargs, h⟩ := bind_eq_ok.mp h
  rcases args with _ | a
  · obtain rfl := Except.ok.inj h
    cases hrec
  · obtain ⟨⟨db₁, c₁⟩, hcreate, h⟩ := bind_eq_ok.mp h
    obtain rfl := Except.ok.inj h
    obtain ⟨rfl, rfl⟩ := Prod.mk.inj (Option.some.inj hrec)
    exact ⟨a, hargs, hcreate, rfl⟩

theorem Caller.trace_of_record {caller : Caller} {a : RecordArgs} {db : ExecDb} {c : Created}
    (hargs : caller.args = .ok (some a))
    (h : createExecTaskRecord a.lower a.env a.db a.spec a.policy = .ok (db, c)) :
    caller.trace = .ok ⟨(db.queue.drop a.db.queue.length).map .enqueue ++
      .commit db :: caller.follow db c, some (db, c)⟩ := by
  unfold Caller.trace
  rw [hargs]
  show (createExecTaskRecord a.lower a.env a.db a.spec a.policy >>= _) = _
  rw [h]
  rfl

theorem Caller.trace_of_none {caller : Caller} (hargs : caller.args = .ok none) :
    caller.trace = .ok ⟨[], none⟩ := by
  unfold Caller.trace
  rw [hargs]
  rfl

theorem dispatchesAfter_record {caller : Caller} {db : ExecDb} {c : Created} (sent : List ℕ)
    (hrun : Runnable db c.id) :
    dispatchesAfter c.id (sent.map .enqueue ++ .commit db :: caller.follow db c) =
      dispatches c.id (caller.follow db c) := by
  obtain ⟨⟨t, ht, hst⟩, -⟩ := hrun
  rw [dispatchesAfter_enqueues, dispatchesAfter, ht]
  simp [hst]

/-- **Every runnable task is dispatched.** On tables whose identifiers are in order, a caller
dispatches the runnable record that it creates exactly once after the commit, if and only if no
policy approves the task at its creation, and the caller is not `rollback_run` with a task that
needs no approval. -/
theorem dispatched_once_iff (caller : Caller) (hk : Kept caller.db)
    (hrows : ∀ th ∈ caller.db.taskHosts, th.execTaskId < caller.db.nextTask) :
    caller.DispatchesOnce ↔ caller.Covered := by
  constructor
  · intro honce a hargs
    have hdb := Caller.args_db hargs
    rw [← hdb] at hk hrows
    have hmade : ∀ db c, createExecTaskRecord a.lower a.env a.db a.spec a.policy = .ok (db, c) →
        c.status = .running → a.spec.targetHostIds ≠ [] →
          dispatches c.id (caller.follow db c) = 1 := by
      intro db c hcreate hst hne
      have hrun := (runnable_created_iff hk hrows hcreate).mpr ⟨hst, hne⟩
      rw [← dispatchesAfter_record _ hrun]
      exact honce _ (Caller.trace_of_record hargs hcreate) db c rfl hrun
    constructor
    · rintro ⟨⟨hverdict, hne⟩, hpolicy, hfree⟩
      obtain ⟨db, c, hcreate, hreq⟩ :=
        (exists_record_iff hk true).mpr ⟨hverdict, fun h => hfree h.2⟩
      have hst : c.status = .running := by
        rw [created_status hcreate, if_neg]
        rintro ⟨-, hnone⟩
        rw [hnone] at hpolicy
        cases hpolicy
      obtain ⟨env, w, node, defnode, rfl⟩ := Caller.args_policy hargs hpolicy
      have hcount := hmade db c hcreate hst hne
      rw [dispatches_follow db hst] at hcount
      simp [hreq] at hcount
    · rintro hroll ⟨hverdict, hne⟩
      obtain ⟨db, c, hcreate, hreq⟩ :=
        (exists_record_iff hk false).mpr ⟨hverdict, fun h => by cases h.1⟩
      have hst : c.status = .running := by
        rw [created_status hcreate, hreq]
        rfl
      have hcount := hmade db c hcreate hst hne
      rw [dispatches_follow db hst] at hcount
      cases caller with
      | rollback lower env g s => cases hcount
      | createTask lower env db spec agentHere => cases hroll
      | engine env w node defnode => cases hroll
  · intro hcov tr htr db c hrec hrun
    obtain ⟨a, hargs, hcreate, hevents⟩ := Caller.trace_eq_ok htr hrec
    have hdb := Caller.args_db hargs
    rw [← hdb] at hk hrows
    obtain ⟨hst, hne⟩ := (runnable_created_iff hk hrows hcreate).mp hrun
    obtain ⟨hauto, hplain⟩ := hcov a hargs
    obtain ⟨hverdict, hfree⟩ :=
      (exists_record_iff hk c.approveRequired).mp ⟨db, c, hcreate, rfl⟩
    have hreq : a.policy.isSome = true → c.approveRequired = false := by
      intro hpolicy
      by_contra hne'
      rw [Bool.not_eq_false] at hne'
      rw [hne'] at hverdict hfree
      exact hauto ⟨⟨hverdict, hne⟩, hpolicy, fun h => hfree ⟨rfl, h⟩⟩
    have hplain' : c.approveRequired = false := by
      rcases hp : a.policy with _ | ref
      · by_contra hne'
        rw [Bool.not_eq_false] at hne'
        have hawait := created_status hcreate
        rw [hst, if_pos ⟨hne', hp⟩] at hawait
        cases hawait
      · exact hreq (by rw [hp]; rfl)
    rw [hevents, dispatchesAfter_record _ hrun, dispatches_follow db hst]
    rw [hplain'] at hverdict
    cases caller with
    | createTask lower env db spec agentHere => rfl
    | engine env w node defnode => simp [hplain']
    | rollback lower env g s => exact absurd ⟨hverdict, hne⟩ (hplain rfl)

/-- Hosts with nothing created yet; every task for them is plain, or every task is sensitive. -/
def kickoffDb (rules : ExecRules) : ExecDb :=
  ExecDb.fresh [⟨1, some 1, "agent", none⟩] rules

/-- The theorem at a plain `create_task`, which hands its task to the broker. -/
theorem dispatched_once_create_task :
    (Caller.createTask (fun s => s) agentEnv (kickoffDb ⟨[], none, false⟩)
      { demoSpec with command := some "uptime" } false).DispatchesOnce := by
  refine (dispatched_once_iff (Caller.createTask _ _ (kickoffDb _) _ _) (kept_fresh _ _)
    (fun _ h => by cases h)).mpr ?_
  intro a ha
  obtain rfl := Option.some.inj (Except.ok.inj ha)
  constructor
  · rintro ⟨-, hpolicy, -⟩
    cases hpolicy
  · intro hroll
    cases hroll

/-- A succeeded run whose remediation is a command for host 1. -/
def remediedRun : WorkflowRun where
  id := 1
  workflowId := 1
  workflowVersion := 1
  status := .succeeded
  triggerType := .manual
  triggerRef := []
  context := [("remediation",
    .obj [("command", .str "uptime"), ("target_host_ids", .arr [.int 1])])]
  startedAt := some 0
  finishedAt := some 1
  error := none
  createdBy := some 7

/-- An exec node of a workflow. -/
def execNode : WorkflowNodeRun where
  id := 1
  nodeKey := "fix"
  nodeType := .execTask
  status := .pending
  execTaskId := none
  approvalId := none
  attempt := 0
  output := []
  error := none
  startedAt := none
  finishedAt := none

/-- The rollback of a succeeded run, on tables where no approval is needed. -/
def plainRollback : Caller :=
  .rollback (fun s => s) busEnv ⟨true, true⟩
    ⟨remediedRun, [], none, kickoffDb ⟨[], none, false⟩⟩

/-- A workflow node with a sensitive task that a policy approves. -/
def policyNode : Caller :=
  .engine { StepEnv.atTime 0 with policy := some "policy", dispatch := agentEnv }
    ⟨⟨remediedRun, [execNode], none, kickoffDb guardedRules⟩, [], [], [], false⟩ execNode
    (.obj [("config", .obj [("command", .str "uptime"), ("host_ids", .arr [.int 1])])])

/-- A caller that leaves a runnable record and does not dispatch it after the commit. -/
theorem Caller.not_dispatchesOnce {caller : Caller}
    (h : ∃ tr ∈ caller.trace.toOption, ∃ r ∈ tr.record,
      Runnable r.1 r.2.id ∧ dispatchesAfter r.2.id tr.events = 0) :
    ¬ caller.DispatchesOnce := by
  obtain ⟨tr, htr, r, hr, hrun, hnone⟩ := h
  intro honce
  have hcount := honce tr (ok_of_toOption htr) r.1 r.2 hr hrun
  rw [hnone] at hcount
  cases hcount

/-- **Runnable and never dispatched.** The compensating task of a rollback, and the task of a
workflow node that a policy approves. -/
theorem created_and_never_dispatched :
    ¬ plainRollback.DispatchesOnce ∧ ¬ policyNode.DispatchesOnce :=
  ⟨Caller.not_dispatchesOnce (by decide +kernel), Caller.not_dispatchesOnce (by decide +kernel)⟩

/-! ### The calls behind the traces -/

theorem replay_record (lower : String → String) (env : DispatchEnv) (db db' : ExecDb)
    (sent : List ℕ) (events : List CallerEvent) :
    replay lower env db (sent.map .enqueue ++ .commit db' :: events) =
      replay lower env db' events := by
  induction sent generalizing db with
  | nil => rfl
  | cons taskId sent ih => exact ih _

/-- The trace of the engine leaves the tables that `_create_exec_task` leaves. -/
theorem engine_replay {env : StepEnv} {w w' : Work} {node : WorkflowNodeRun} {defnode : Json}
    (h : createExecTask env w node defnode = .ok w') :
    ∃ tr, (Caller.engine env w node defnode).trace = .ok tr ∧
      replay env.lower env.dispatch w.cur.exec tr.events = w'.cur.exec := by
  unfold createExecTask at h
  obtain ⟨c, hcfg, h⟩ := bind_eq_ok.mp h
  obtain ⟨spec, hspec, h⟩ := bind_eq_ok.mp h
  obtain ⟨⟨exec, created⟩, hcreate, h⟩ := bind_eq_ok.mp h
  have hargs : (Caller.engine env w node defnode).args =
      .ok (some ⟨env.lower, env.dispatch.toExecEnv, w.cur.exec, spec, env.policy⟩) :=
    bind_eq_ok.mpr ⟨c, hcfg, bind_eq_ok.mpr ⟨spec, hspec, rfl⟩⟩
  refine ⟨_, Caller.trace_of_record hargs hcreate, ?_⟩
  rw [replay_record, Caller.follow]
  dsimp only at h
  split_ifs at h ⊢
  · obtain rfl := Except.ok.inj h
    rfl
  · obtain rfl := Except.ok.inj h
    rfl

/-- The trace of `rollback_run` leaves the tables that it leaves, and names the task that it
creates. -/
theorem rollback_replay {lower : String → String} {env : DispatchEnv} {g : Gate} {s s' : RunState}
    {comp : Option ℕ} (h : rollbackRun lower env.toExecEnv g s = .ok (s', comp)) :
    ∃ tr, (Caller.rollback lower env.toExecEnv g s).trace = .ok tr ∧
      replay lower env s.exec tr.events = s'.exec ∧ tr.record.map (·.2.id) = comp := by
  unfold rollbackRun at h
  obtain ⟨u, hgate, h⟩ := bind_eq_ok.mp h
  by_cases hst : s.run.status = .succeeded ∨ s.run.status = .failed
  · rw [if_pos hst] at h
    obtain ⟨⟨exec, comp'⟩, hcomp, h⟩ := bind_eq_ok.mp h
    obtain ⟨rfl, rfl⟩ := Prod.mk.inj (Except.ok.inj h)
    unfold compensate at hcomp
    dsimp only at hcomp
    split_ifs at hcomp with hrem
    · obtain ⟨spec, hspec, hcomp⟩ := bind_eq_ok.mp hcomp
      obtain ⟨⟨db, c⟩, hcreate, hcomp⟩ := bind_eq_ok.mp hcomp
      obtain ⟨rfl, rfl⟩ := Prod.mk.inj (Except.ok.inj hcomp)
      have hargs : (Caller.rollback lower env.toExecEnv g s).args =
          .ok (some ⟨lower, env.toExecEnv, s.exec, spec, none⟩) := by
        refine bind_eq_ok.mpr ⟨u, hgate, ?_⟩
        dsimp only
        rw [if_pos ⟨hst, hrem⟩]
        exact bind_eq_ok.mpr ⟨spec, hspec, rfl⟩
      refine ⟨_, Caller.trace_of_record hargs hcreate, ?_, rfl⟩
      rw [replay_record]
      rfl
    · obtain ⟨rfl, rfl⟩ := Prod.mk.inj (Except.ok.inj hcomp)
      refine ⟨⟨[], none⟩, Caller.trace_of_none (bind_eq_ok.mpr ⟨u, hgate, ?_⟩), rfl, rfl⟩
      exact if_neg fun hc => hrem hc.2
  · rw [if_neg hst] at h
    obtain ⟨rfl, rfl⟩ := Prod.mk.inj (Except.ok.inj h)
    refine ⟨⟨[], none⟩, Caller.trace_of_none (bind_eq_ok.mpr ⟨u, hgate, ?_⟩), rfl, rfl⟩
    exact if_neg fun hc => hst hc.1

end LarkPlat
