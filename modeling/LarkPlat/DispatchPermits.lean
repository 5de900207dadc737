import LarkPlat.DispatchHandover

/-!
# What a Dispatch Leaves Behind

The two promises of a dispatch, over every state of the tables and the semaphores and every set
of calls that raise: it gives back every permit and executes every row it has claimed, and while
a host is pending it enqueues the task again.

## Main results

* `permit_neutral_iff`: a dispatch releases what it acquires and leaves no claimed row without an
  execution exactly if the calls that raise are contained.
* `requeues_iff`: a dispatch that leaves a pending host enqueues the task again exactly if it
  started the first pending host.
-/

namespace LarkPlat

open Dispatch Faults

variable {env : CallEnv} {s : DispatchState} {th : ExecTaskHost} {hand : HandEnv}

/-! ### Claimed rows in the tables -/

theorem claimDb_fixed (db : ExecDb) (th : ExecTaskHost) (id : ℕ) :
    ((claimDb env db th).taskHost? id).map ExecTaskHost.fixed =
      (db.taskHost? id).map ExecTaskHost.fixed :=
  fixed_setTaskHost (f := fun r => { r with status := .running, startedAt := some env.now })
    (fun _ => rfl) db th.id id

theorem claimDb_runsIn {db : ExecDb} {r : ℕ}
    (h : RunsIn db r ∨ r = th.id ∧ ∃ x ∈ db.taskHosts, x.id = r) : RunsIn (claimDb env db th) r := by
  have hx : ∃ x ∈ db.taskHosts, x.id = r := by
    rcases h with ⟨x, hx, hid, -⟩ | ⟨-, hx⟩
    · exact ⟨x, hx, hid⟩
    · exact hx
  by_cases hr : r = th.id
  · obtain ⟨x, hx, hid⟩ := hx
    exact ⟨_, Table.mem_modify.mpr (Or.inl ⟨x, hx, hid.trans hr, rfl⟩), hid, rfl⟩
  · obtain ⟨x, hx, hid, hst⟩ := h.resolve_right fun hc => hr hc.1
    exact ⟨x, Table.mem_modify.mpr (Or.inr ⟨hx, hid ▸ hr⟩), hid, hst⟩

theorem claimDb_ids (db : ExecDb) (th : ExecTaskHost) :
    (claimDb env db th).taskHosts.map ExecTaskHost.id = db.taskHosts.map ExecTaskHost.id :=
  Table.map_key_modify fun _ hr => hr

theorem foldl_claimDb (rows : List ExecTaskHost) (db : ExecDb)
    (hrows : ∀ th ∈ rows, th.id ∈ db.taskHosts.map ExecTaskHost.id) :
    (∀ id, ((rows.foldl (claimDb env) db).taskHost? id).map ExecTaskHost.fixed =
      (db.taskHost? id).map ExecTaskHost.fixed) ∧
    ∀ r, RunsIn db r ∨ r ∈ rows.map ExecTaskHost.id → RunsIn (rows.foldl (claimDb env) db) r := by
  induction rows generalizing db with
  | nil => exact ⟨fun _ => rfl, fun r hr => by simpa using hr⟩
  | cons th rest ih =>
      have hrest : ∀ th' ∈ rest, th'.id ∈ (claimDb env db th).taskHosts.map ExecTaskHost.id := by
        intro th' hth'
        rw [claimDb_ids]
        exact hrows th' (List.mem_cons_of_mem th hth')
      obtain ⟨hfixed, hruns⟩ := ih (claimDb env db th) hrest
      refine ⟨fun id => (hfixed id).trans (claimDb_fixed db th id), ?_⟩
      intro r hr
      refine hruns r ?_
      rw [List.map_cons, List.mem_cons] at hr
      rcases hr with hr | rfl | hr
      · exact Or.inl (claimDb_runsIn (Or.inl hr))
      · obtain ⟨x, hx, hid⟩ := List.mem_map.mp (hrows th List.mem_cons_self)
        exact Or.inl (claimDb_runsIn (Or.inr ⟨rfl, x, hx, hid⟩))
      · exact Or.inr hr

theorem startedBy_sublist (env : CallEnv) (sems : Sem → SemKey) (rows : List ExecTaskHost) :
    (startedBy env sems rows).Sublist rows := by
  induction rows generalizing sems with
  | nil => exact List.Sublist.refl []
  | cons th rest ih =>
      rw [startedBy]
      split_ifs
      · exact (ih _).cons_cons th
      · exact List.nil_sublist _

/-! ### The whole dispatch -/

/-- A dispatch has released every permit that it acquired, and every row that it set to
`running` was handed to an executor or is no longer `running`. -/
def PermitNeutral (s : DispatchState) : Prop :=
  (∀ sem, s.events.count (.acquired sem) = s.events.count (.released sem)) ∧
    ∀ row, .claimed row ∈ s.events → Served s row

/-- No call of a dispatch that raises leaves a permit or a row behind: no pass of the claiming
loop leaks a permit, the rollback raises only with no row started, and the calls of the handover
loop are contained. -/
def Contained (env : CallEnv) (hand : HandEnv) (sems : Sem → SemKey) (rows : List ExecTaskHost) :
    Prop :=
  claimsEnd env sems rows ≠ .leaked ∧
    (claimsEnd env sems rows = .aborted → env.raises .rollback = true →
      startedBy env sems rows = []) ∧
    HandsContained env hand (startedBy env sems rows)

theorem permitNeutral_iff_excess (s : DispatchState) :
    PermitNeutral s ↔
      (∀ sem, s.excess sem = 0) ∧ ∀ row, .claimed row ∈ s.events → Served s row := by
  refine and_congr_left fun _ => forall_congr' fun sem => ?_
  rw [DispatchState.excess]
  omega

theorem settleCalls_frame (task : ExecTask) (s : DispatchState) :
    (finalState ((settleCalls env task).run s)).events = s.events ∧
      (finalState ((settleCalls env task).run s)).db.taskHosts = s.db.taskHosts := by
  have hdb : ∀ db, (settleTask env.toExecEnv db task).taskHosts = db.taskHosts := by
    intro db
    rw [settleTask]
    split_ifs <;> rfl
  have hperform : ∀ c, (finalState ((perform env c fun s =>
      { s with db := settleTask env.toExecEnv s.db task }).run s)).events = s.events ∧
      (finalState ((perform env c fun s =>
        { s with db := settleTask env.toExecEnv s.db task }).run s)).db.taskHosts =
          s.db.taskHosts := by
    intro c
    cases hc : env.raises c with
    | true =>
        rw [perform_of_raises hc]
        exact ⟨rfl, rfl⟩
    | false =>
        rw [perform_of_quiet hc]
        exact ⟨rfl, hdb s.db⟩
  rw [settleCalls]
  cases hreload : env.raises .reload with
  | true =>
      rw [bind_of_error (touch_of_raises hreload)]
      exact ⟨rfl, rfl⟩
  | false =>
  rw [bind_of_ok (touch_of_quiet hreload)]
  cases hstats : env.raises .stats with
  | true =>
      rw [bind_of_error (touch_of_raises hstats)]
      exact ⟨rfl, rfl⟩
  | false =>
  rw [bind_of_ok (touch_of_quiet hstats), bind_of_ok (run_get s)]
  dsimp only
  split_ifs
  · exact hperform .enqueue
  · exact ⟨rfl, rfl⟩
  · exact hperform .settle

theorem permitNeutral_settle (task : ExecTask) (s : DispatchState) :
    PermitNeutral (finalState ((settleCalls env task).run s)) ↔ PermitNeutral s := by
  obtain ⟨hevents, hrows⟩ := @settleCalls_frame env task s
  simp only [PermitNeutral, Served, RunsIn, hevents, hrows]

/-- The state between the two loops: the started rows run, and nothing was handed over. -/
structure BetweenLoops (rows : List ExecTaskHost) (s : DispatchState) : Prop where
  started : s.started = rows.map ExecTaskHost.id
  present : Present s rows
  stranded : ∀ th ∈ rows, Stranded s th.id
  claimed : ∀ r, .claimed r ∈ s.events → r ∈ rows.map ExecTaskHost.id

theorem Claimed.betweenLoops {db : ExecDb} {sems : Sem → SemKey} {rows : List ExecTaskHost}
    {s : DispatchState} (h : Claimed env (.begin db sems) s rows)
    (hsub : ∀ th ∈ rows, th ∈ db.taskHosts) (hdb : (db.taskHosts.map ExecTaskHost.id).Nodup) :
    BetweenLoops rows s := by
  obtain ⟨hfixed, hruns⟩ := @foldl_claimDb env rows db
    fun th hth => List.mem_map_of_mem (hsub th hth)
  have hs : s.db = rows.foldl (claimDb env) db := h.db
  have hevents : s.rowEvents = rows.map fun th => .claimed th.id := h.rowEvents
  have hclaimed : ∀ r, .claimed r ∈ s.events ↔ r ∈ rows.map ExecTaskHost.id := by
    intro r
    have hrow : DispatchEvent.claimed r ∈ s.events ↔ .claimed r ∈ s.rowEvents := by
      simp [DispatchState.rowEvents]
    rw [hrow, hevents]
    simp [List.mem_map]
  refine ⟨h.started, ?_, ?_, fun r => (hclaimed r).mp⟩
  · intro th hth
    have hfind : db.taskHost? th.id = some th := Table.find_of_mem hdb (hsub th hth)
    rw [hs, hfixed, hfind, Option.map_some]
  · intro th hth
    refine ⟨(hclaimed th.id).mpr (List.mem_map_of_mem hth), ?_⟩
    rintro (⟨via, content, hh⟩ | hh)
    · have hrow : DispatchEvent.handed th.id via content ∈ s.rowEvents := by
        simpa [DispatchState.rowEvents] using hh
      rw [hevents] at hrow
      obtain ⟨th', -, hc⟩ := List.mem_map.mp hrow
      cases hc
    · rw [hs] at hh
      exact hh (hruns th.id (Or.inr (List.mem_map_of_mem hth)))

/-- After the handover loop: neutral exactly if nothing leaked before it and its calls are
contained. -/
theorem permitNeutral_handLoop {rows : List ExecTaskHost} {s : DispatchState} {leaks : Prop}
    (h : BetweenLoops rows s) (hn : (rows.map ExecTaskHost.id).Nodup)
    (hbal : ¬ leaks → ∀ sem, s.excess sem = heldBy env rows sem)
    (hleak : leaks → heldBy env rows .global + 1 ≤ s.excess .global) :
    PermitNeutral (finalState ((handLoop env hand (rows.map ExecTaskHost.id)).run s)) ↔
      ¬ leaks ∧ HandsContained env hand rows := by
  rw [permitNeutral_iff_excess]
  have hle : heldBy env rows .global ≤ s.excess .global := by
    by_cases hl : leaks
    · have := hleak hl
      omega
    · exact (hbal hl .global).ge
  by_cases hc : HandsContained env hand rows
  · have hdone := handLoop_contained hc s h.present
    rw [and_iff_left hc]
    constructor
    · rintro ⟨hx, -⟩ hl
      have h0 := hx .global
      rw [hdone.excess] at h0
      have h1 := hleak hl
      omega
    · intro hl
      refine ⟨fun sem => ?_, fun r hr => ?_⟩
      · rw [hdone.excess, hbal hl]
        omega
      · rw [hdone.claimed] at hr
        obtain ⟨th, hth, rfl⟩ := List.mem_map.mp (h.claimed r hr)
        exact hdone.rows th hth
  · refine iff_of_false ?_ fun hcon => hc hcon.2
    rintro ⟨hx, hserved⟩
    rcases handLoop_breaks hc s h.present hn h.stranded hle with hpos | ⟨r, hr, hun⟩
    · rw [hx] at hpos
      omega
    · exact hun (hserved r hr)

theorem permitNeutral_rest (task : ExecTask) {rows : List ExecTaskHost} {s : DispatchState}
    {leaks : Prop} (h : BetweenLoops rows s) (hn : (rows.map ExecTaskHost.id).Nodup)
    (hbal : ¬ leaks → ∀ sem, s.excess sem = heldBy env rows sem)
    (hleak : leaks → heldBy env rows .global + 1 ≤ s.excess .global) :
    PermitNeutral (finalState ((do
        let s ← get
        if s.started.isEmpty then pure ()
        else do
          handLoop env hand s.started
          settleCalls env task : Dispatch Unit).run s)) ↔
      ¬ leaks ∧ HandsContained env hand rows := by
  have hloop := @permitNeutral_handLoop env hand rows s leaks h hn hbal hleak
  rw [bind_of_ok (run_get s), h.started]
  split_ifs with hempty
  · rw [List.isEmpty_iff] at hempty
    rw [hempty] at hloop
    exact hloop
  · rw [← hloop]
    cases hr : (handLoop env hand (rows.map ExecTaskHost.id)).run s with
    | ok u s₁ => rw [bind_of_ok hr, permitNeutral_settle, finalState_ok]
    | error c s₁ => rw [bind_of_error hr, finalState_error]

theorem permitNeutral_running (task : ExecTask) {db : ExecDb} {sems : Sem → SemKey}
    {rows : List ExecTaskHost} (hsub : ∀ th ∈ rows, th ∈ db.taskHosts)
    (hdb : (db.taskHosts.map ExecTaskHost.id).Nodup) (hn : (rows.map ExecTaskHost.id).Nodup) :
    PermitNeutral (finalState ((dispatchRunning env hand task rows).run (.begin db sems))) ↔
      Contained env hand sems rows := by
  obtain ⟨s₁, hres, hclaimed, hbal, hleak⟩ := @claimLoop_result env rows (.begin db sems)
  have hsubl := startedBy_sublist env sems rows
  have hbetween : BetweenLoops (startedBy env sems rows) s₁ :=
    hclaimed.betweenLoops (fun th hth => hsub th (hsubl.subset hth)) hdb
  have hzero : ∀ sem, (DispatchState.begin db sems).excess sem = 0 := fun _ => rfl
  have hbal' : ¬ claimsEnd env sems rows = .leaked →
      ∀ sem, s₁.excess sem = heldBy env (startedBy env sems rows) sem := by
    intro hne sem
    rw [hbal hne, hzero, zero_add]
    rfl
  have hleak' : claimsEnd env sems rows = .leaked →
      heldBy env (startedBy env sems rows) .global + 1 ≤ s₁.excess .global := by
    intro hl
    have hle := hleak hl
    rw [hzero, zero_add] at hle
    exact hle
  have hrest := @permitNeutral_rest env hand task _ s₁ _ hbetween
    (hn.sublist (hsubl.map ExecTaskHost.id)) hbal' hleak'
  rw [dispatchRunning, Contained]
  rcases hres with ⟨hr, hne, -⟩ | ⟨⟨c, hr⟩, hend⟩
  · rw [bind_of_ok (recover_of_ok hr), hrest]
    exact and_congr_right fun _ => (and_iff_right fun ha => absurd ha hne).symm
  cases hroll : env.raises .rollback with
  | false =>
      rw [bind_of_ok ((recover_of_error hr).trans (touch_of_quiet hroll)), hrest]
      exact and_congr_right fun _ => (and_iff_right fun _ hf => by cases hf).symm
  | true =>
      rw [bind_of_error ((recover_of_error hr).trans (touch_of_raises hroll)), finalState_error,
        permitNeutral_iff_excess]
      rcases hst : startedBy env sems rows with _ | ⟨th, rest⟩
      · rw [hst] at hbal' hleak' hbetween
        constructor
        · rintro ⟨hx, -⟩
          refine ⟨fun hl => ?_, fun _ _ => rfl, trivial⟩
          have hle := hleak' hl
          rw [hx] at hle
          simp [heldBy] at hle
        · rintro ⟨hl, -, -⟩
          refine ⟨fun sem => by rw [hbal' hl]; rfl, fun r hr => ?_⟩
          exact absurd (hbetween.claimed r hr) (by simp)
      · rw [hst] at hbetween
        obtain ⟨hc, hs⟩ := hbetween.stranded th List.mem_cons_self
        refine iff_of_false (fun hx => hs (hx.2 th.id hc)) ?_
        rintro ⟨hl, ha, -⟩
        exact absurd (ha (hend.resolve_right hl) rfl) (by simp)

theorem dispatchCalls_cases (env : CallEnv) (lower : String → String) (db : ExecDb)
    (sems : Sem → SemKey) (taskId : ℕ) :
    (env.raises .load = true ∧
      (dispatchCalls env lower taskId).run (.begin db sems) = .error .load (.begin db sems)) ∨
    (env.raises .load = false ∧ (∀ task, db.task? taskId = some task → task.status ≠ .running) ∧
      (dispatchCalls env lower taskId).run (.begin db sems) = .ok () (.begin db sems)) ∨
    (env.raises .load = false ∧ ∃ task, db.task? taskId = some task ∧ task.status = .running ∧
      (dispatchCalls env lower taskId).run (.begin db sems) =
        (dispatchRunning env (handEnv env lower db task) task (pendingRows db taskId)).run
          (.begin db sems)) := by
  rw [dispatchCalls]
  cases hload : env.raises .load with
  | true => exact Or.inl ⟨rfl, bind_of_error (touch_of_raises hload)⟩
  | false =>
  rw [bind_of_ok (touch_of_quiet hload), bind_of_ok (run_get _)]
  right
  cases htask : db.task? taskId with
  | none =>
      refine Or.inl ⟨rfl, fun _ ht => (by cases ht), ?_⟩
      simp only [DispatchState.begin, htask, run_pure]
  | some task =>
      by_cases hst : task.status = .running
      · refine Or.inr ⟨rfl, task, rfl, hst, ?_⟩
        simp only [DispatchState.begin, htask, if_pos hst]
      · refine Or.inl ⟨rfl, fun t ht => ?_, ?_⟩
        · obtain rfl := Option.some.inj ht
          exact hst
        · simp only [DispatchState.begin, htask, if_neg hst, run_pure]

/-- A pending row of task 1. -/
def pendingRow (row hostId : ℕ) : ExecTaskHost where
  id := row
  execTaskId := 1
  hostId := hostId
  executor := "agent"
  status := .pending
  exitCode := none
  startedAt := none
  finishedAt := none

/-- A running task. -/
def uptimeTask : ExecTask where
  id := 1
  name := "uptime"
  kind := "command"
  scriptId := none
  scriptVersion := none
  command := some "uptime"
  params := []
  targetHostIds := [1, 2]
  mode := "parallel"
  timeoutSec := 60
  retry := 0
  sensitiveFlag := false
  approveRequired := false
  approvalId := none
  status := .running
  createdBy := some 1
  startedAt := none
  finishedAt := none
  version := 1

/-- The running task with two pending hosts. -/
def twoHosts : ExecDb :=
  { ExecDb.fresh [⟨1, none, "agent", none⟩, ⟨2, none, "agent", none⟩] ⟨[], none, false⟩ with
    tasks := [uptimeTask]
    taskHosts := [pendingRow 1 1, pendingRow 2 2]
    nextTask := 2
    nextTaskHost := 3 }

/-- Limits of one permit, no agent connected, and the given calls raise. -/
def narrowEnv (raises : DispatchCall → Bool) : CallEnv where
  now := 0
  sshAvailable := false
  brokerUp := true
  raises := raises
  globalLimit := 1
  hostLimit := 1
  agentAccepts := fun _ => false
  sshSucceeds := fun _ => false

/-- The queue of the tables. -/
def QueueIs (queue : List ℕ) (s : DispatchState) : Prop := s.db.queue = queue

section Queue

variable (env) (queue : List ℕ)

theorem release_keeps_queue (sem : Sem) (row : ℕ) :
    Preserves (QueueIs queue) (releaseSemaphore env sem row) := by
  rw [releaseSemaphore]
  split_ifs
  · exact preserves_call fun _ h => h
  · exact preserves_pure ()

theorem releaseBoth_keeps_queue (th : ExecTaskHost) :
    Preserves (QueueIs queue) (releaseBoth env th) :=
  preserves_bind (release_keeps_queue env queue _ _) fun _ => release_keeps_queue env queue _ _

theorem conclude_keeps_queue (row : ℕ) (ok : Bool) :
    Preserves (QueueIs queue) (conclude env row ok) :=
  preserves_bind (preserves_call fun _ h => h) fun _ =>
    preserves_bind (preserves_call fun _ h => h) fun _ =>
      preserves_bind (preserves_call fun _ h => h) fun _ => preserves_call fun _ h => h

theorem handBody_keeps_queue (hand : HandEnv) (th : ExecTaskHost) :
    Preserves (QueueIs queue) (handBody env hand th) := by
  have hnote : ∀ (b : Bool) (e : DispatchEvent), Preserves (QueueIs queue) (noteIf b e) := by
    intro b e
    refine preserves_modify fun s h => ?_
    split_ifs <;> exact h
  rw [handBody]
  split_ifs
  · exact preserves_bind (preserves_call fun _ h => h) fun _ =>
      preserves_bind (hnote _ _) fun _ => conclude_keeps_queue env queue _ _
  · refine preserves_bind (preserves_call fun _ h => h) fun _ =>
      preserves_bind (hnote _ _) fun _ => preserves_bind (preserves_call fun _ h => h) fun _ => ?_
    split_ifs
    · exact preserves_pure ()
    · exact preserves_bind (hnote _ _) fun _ => conclude_keeps_queue env queue _ _

theorem handLoop_keeps_queue (hand : HandEnv) (rows : List ℕ) :
    Preserves (QueueIs queue) (handLoop env hand rows) := by
  induction rows with
  | nil => exact preserves_pure ()
  | cons row rest ih =>
      rw [handLoop]
      refine preserves_bind (preserves_call fun _ h => h) fun found => ?_
      cases found with
      | none => exact ih
      | some th =>
          exact preserves_bind (preserves_protect (handBody_keeps_queue env queue hand th)
            (releaseBoth_keeps_queue env queue th)) fun _ => ih

end Queue

theorem queue_foldl_claimDb (rows : List ExecTaskHost) (db : ExecDb) :
    (rows.foldl (claimDb env) db).queue = db.queue := by
  induction rows generalizing db with
  | nil => rfl
  | cons th rest ih => exact ih (claimDb env db th)

/-- The task is left `running` with a `pending` host. -/
def LeavesPending (s : DispatchState) (taskId : ℕ) : Prop :=
  (∃ task, s.db.task? taskId = some task ∧ task.status = .running) ∧
    ∃ th ∈ s.db.hostsOfTask taskId, th.status = .pending

/-- A dispatch that returns and leaves the task `running` with a `pending` host has enqueued
another dispatch of the task. -/
def Requeues (db : ExecDb) (taskId : ℕ) (r : EStateM.Result DispatchCall DispatchState Unit) :
    Prop :=
  Returned r → LeavesPending (finalState r) taskId →
    (finalState r).db.queue = db.queue ++ [taskId]

/-- The dispatch finds the task running and its first pending row is not started: the semaphores
refuse it, or its claim raises and the rollback does not. -/
def Starves (env : CallEnv) (db : ExecDb) (sems : Sem → SemKey) (taskId : ℕ) : Prop :=
  env.raises .load = false ∧ (∃ task, db.task? taskId = some task ∧ task.status = .running) ∧
    ∃ th rest, pendingRows db taskId = th :: rest ∧ claimOutcome env sems th ≠ .started ∧
      (claimOutcome env sems th = .refused ∨ env.raises .rollback = false)

/-- A dispatch that starts no row returns with nothing changed, unless the rollback raises. -/
theorem dispatchRunning_of_none (hand : HandEnv) (task : ExecTask) {db : ExecDb}
    {sems : Sem → SemKey} {rows : List ExecTaskHost} (hnone : startedBy env sems rows = []) :
    (∃ s', (dispatchRunning env hand task rows).run (.begin db sems) = .ok () s' ∧ s'.db = db ∧
        (claimsEnd env sems rows = .started ∨ claimsEnd env sems rows = .refused ∨
          env.raises .rollback = false)) ∨
      (∃ c s', (dispatchRunning env hand task rows).run (.begin db sems) = .error c s' ∧
        claimsEnd env sems rows ≠ .started ∧ claimsEnd env sems rows ≠ .refused ∧
          env.raises .rollback = true) := by
  obtain ⟨s₁, hres, hclaimed, -, -⟩ := @claimLoop_result env rows (.begin db sems)
  have hdb : s₁.db = db := by
    rw [hclaimed.db]
    change (startedBy env sems rows).foldl _ db = db
    rw [hnone, List.foldl_nil]
  have hstarted : s₁.started = [] := by
    rw [hclaimed.started]
    change [] ++ (startedBy env sems rows).map _ = _
    rw [hnone, List.map_nil, List.append_nil]
  have hrest : (do
      let s ← get
      if s.started.isEmpty then pure ()
      else do
        handLoop env hand s.started
        settleCalls env task : Dispatch Unit).run s₁ = .ok () s₁ := by
    rw [bind_of_ok (run_get s₁), hstarted]
    rfl
  rw [dispatchRunning]
  rcases hres with ⟨hr, hna, hnl⟩ | ⟨⟨c, hr⟩, hend⟩
  · refine Or.inl ⟨s₁, (bind_of_ok (recover_of_ok hr)).trans hrest, hdb, ?_⟩
    change claimsEnd env sems rows ≠ _ at hna
    change claimsEnd env sems rows ≠ _ at hnl
    cases he : claimsEnd env sems rows <;> simp_all
  · change claimsEnd env sems rows = _ ∨ claimsEnd env sems rows = _ at hend
    cases hroll : env.raises .rollback with
    | false =>
        refine Or.inl ⟨s₁, (bind_of_ok ((recover_of_error hr).trans
          (touch_of_quiet hroll))).trans hrest, hdb, Or.inr (Or.inr rfl)⟩
    | true =>
        refine Or.inr ⟨_, s₁, bind_of_error ((recover_of_error hr).trans (touch_of_raises hroll)),
          ?_, ?_, rfl⟩ <;> rcases hend with he | he <;> simp [he]

/-- The end of a dispatch that returns has enqueued the task, or no host of it is pending. -/
theorem settleCalls_enqueues (hb : env.brokerUp = true) {task : ExecTask} {s s' : DispatchState}
    (h : (settleCalls env task).run s = .ok () s') :
    s'.db.queue = s.db.queue ++ [task.id] ∨
      ∀ th ∈ s'.db.hostsOfTask task.id, th.status ≠ .pending := by
  have hrows := (@settleCalls_frame env task s).2
  rw [h, finalState_ok] at hrows
  have hhosts : s'.db.hostsOfTask task.id = s.db.hostsOfTask task.id := by
    rw [ExecDb.hostsOfTask, ExecDb.hostsOfTask, hrows]
  rw [hhosts]
  by_cases hp : HostStatus.pending ∈ (s.db.hostsOfTask task.id).map (·.status)
  · left
    have hstep : ∀ c, (perform env c fun s =>
        { s with db := settleTask env.toExecEnv s.db task }).run s = .ok () s' →
        s'.db.queue = s.db.queue ++ [task.id] := by
      intro c hc
      cases hr : env.raises c with
      | true =>
          rw [perform_of_raises hr] at hc
          cases hc
      | false =>
          rw [perform_of_quiet hr] at hc
          cases hc
          simp only [settleTask, hp, hb, or_true, and_self, if_true]
    rw [settleCalls] at h
    cases hreload : env.raises .reload with
    | true =>
        rw [bind_of_error (touch_of_raises hreload)] at h
        cases h
    | false =>
    rw [bind_of_ok (touch_of_quiet hreload)] at h
    cases hstats : env.raises .stats with
    | true =>
        rw [bind_of_error (touch_of_raises hstats)] at h
        cases h
    | false =>
    rw [bind_of_ok (touch_of_quiet hstats), bind_of_ok (run_get s)] at h
    simp only [hp, hb, or_true, and_self, if_true] at h
    exact hstep .enqueue h
  · right
    intro th hth he
    exact hp (List.mem_map.mpr ⟨th, hth, he⟩)

/-- A dispatch that starts a row enqueues the task again while a host is pending. -/
theorem requeues_of_started (hb : env.brokerUp = true) (hand : HandEnv) {task : ExecTask}
    {db : ExecDb} {sems : Sem → SemKey} {rows : List ExecTaskHost}
    (hsome : startedBy env sems rows ≠ []) :
    Requeues db task.id ((dispatchRunning env hand task rows).run (.begin db sems)) := by
  obtain ⟨s₁, hres, hclaimed, -, -⟩ := @claimLoop_result env rows (.begin db sems)
  have hqueue : QueueIs db.queue s₁ := by
    rw [QueueIs, hclaimed.db]
    change ((startedBy env sems rows).foldl (claimDb env) db).queue = db.queue
    exact queue_foldl_claimDb _ db
  have hstarted : s₁.started ≠ [] := by
    rw [hclaimed.started]
    change [] ++ (startedBy env sems rows).map _ ≠ []
    simpa using hsome
  have hrest : ∀ r, r = (do
      let s ← get
      if s.started.isEmpty then pure ()
      else do
        handLoop env hand s.started
        settleCalls env task : Dispatch Unit).run s₁ → Requeues db task.id r := by
    rintro r rfl hret ⟨-, th, hth, hpend⟩
    rw [bind_of_ok (run_get s₁), if_neg (by simpa using hstarted)] at hret hth ⊢
    have hkeep := handLoop_keeps_queue env db.queue hand s₁.started s₁ hqueue
    cases hr : (handLoop env hand s₁.started).run s₁ with
    | error c s₂ =>
        rw [bind_of_error hr] at hret
        exact hret.elim
    | ok u s₂ =>
        rw [hr, finalState_ok] at hkeep
        rw [bind_of_ok hr] at hret hth ⊢
        cases hs : (settleCalls env task).run s₂ with
        | error c s₃ =>
            rw [hs] at hret
            exact hret.elim
        | ok u s₃ =>
            rw [hs, finalState_ok] at hth
            rw [finalState_ok, ← hkeep]
            exact (settleCalls_enqueues hb hs).resolve_right fun hno => hno th hth hpend
  rw [dispatchRunning]
  rcases hres with ⟨hr, -, -⟩ | ⟨⟨c, hr⟩, -⟩
  · exact hrest _ (bind_of_ok (recover_of_ok hr))
  · cases hroll : env.raises .rollback with
    | false => exact hrest _ (bind_of_ok ((recover_of_error hr).trans (touch_of_quiet hroll)))
    | true =>
        intro hret
        rw [bind_of_error ((recover_of_error hr).trans (touch_of_raises hroll))] at hret
        exact hret.elim

/-- A dispatch of a running task enqueues it again unless its first pending row is not started,
and the exception, if that is the reason, is swallowed. -/
theorem requeues_running_iff (hb : env.brokerUp = true) (hand : HandEnv) {task : ExecTask}
    {db : ExecDb} (sems : Sem → SemKey) (htask : db.task? task.id = some task)
    (hst : task.status = .running) :
    Requeues db task.id
        ((dispatchRunning env hand task (pendingRows db task.id)).run (.begin db sems)) ↔
      ¬ ∃ th rest, pendingRows db task.id = th :: rest ∧ claimOutcome env sems th ≠ .started ∧
        (claimOutcome env sems th = .refused ∨ env.raises .rollback = false) := by
  have hpending : ∀ th, th ∈ pendingRows db task.id ↔
      th ∈ db.hostsOfTask task.id ∧ th.status = .pending := by
    intro th
    simp [pendingRows]
  by_cases hsome : startedBy env sems (pendingRows db task.id) ≠ []
  · refine iff_of_true (requeues_of_started hb hand hsome) ?_
    rintro ⟨th, rest, hp, hne, -⟩
    rw [hp, startedBy, if_neg hne] at hsome
    exact hsome rfl
  rw [not_not] at hsome
  rcases @dispatchRunning_of_none env hand task db sems _ hsome with
    ⟨s', hr, hs', hcond⟩ | ⟨c, s', hr, -, hne, hroll⟩ <;> rw [hr]
  · rcases hp : pendingRows db task.id with _ | ⟨th, rest⟩
    · refine iff_of_true ?_ (by simp)
      rintro - ⟨-, th, hth, hpend⟩
      rw [finalState_ok, hs'] at hth
      have hmem := (hpending th).mpr ⟨hth, hpend⟩
      rw [hp] at hmem
      cases hmem
    · have hmem : th ∈ pendingRows db task.id := by
        rw [hp]
        exact List.mem_cons_self
      obtain ⟨hth, hpend⟩ := (hpending th).mp hmem
      rw [hp] at hsome hcond
      have hstart : claimOutcome env sems th ≠ .started := by
        intro hc
        rw [startedBy, if_pos hc] at hsome
        cases hsome
      rw [claimsEnd, if_neg hstart] at hcond
      refine iff_of_false ?_ (not_not_intro ⟨th, rest, rfl, hstart, hcond.resolve_left hstart⟩)
      intro hreq
      have hqueue := hreq trivial ⟨⟨task, by rw [finalState_ok, hs', htask], hst⟩, th,
        by rw [finalState_ok, hs']; exact hth, hpend⟩
      rw [finalState_ok, hs'] at hqueue
      simp at hqueue
  · refine iff_of_true (fun hret => hret.elim) ?_
    rintro ⟨th, rest, hp, hstart, hcond⟩
    rw [hp, claimsEnd, if_neg hstart] at hne
    rcases hcond with hc | hc
    · exact hne hc
    · rw [hroll] at hc
      cases hc

/-- **When a dispatch is not dropped.** With the broker available, a dispatch that returns and
leaves its task running with a pending host has enqueued the task again, unless it found the
task running and did not start the first of its pending hosts. -/
theorem requeues_iff (env : CallEnv) (lower : String → String) (db : ExecDb)
    (sems : Sem → SemKey) (taskId : ℕ) (hb : env.brokerUp = true) :
    Requeues db taskId ((dispatchCalls env lower taskId).run (.begin db sems)) ↔
      ¬ Starves env db sems taskId := by
  rcases dispatchCalls_cases env lower db sems taskId with
    ⟨hload, hr⟩ | ⟨-, hno, hr⟩ | ⟨hload, task, htask, hst, hr⟩ <;> rw [hr]
  · refine iff_of_true (fun hret => hret.elim) ?_
    rintro ⟨hl, -⟩
    rw [hload] at hl
    cases hl
  · refine iff_of_true ?_ ?_
    · rintro - ⟨⟨t, ht, hrun⟩, -⟩
      exact (hno t ht hrun).elim
    · rintro ⟨-, ⟨t, ht, hrun⟩, -⟩
      exact hno t ht hrun
  · obtain rfl : task.id = taskId := Table.key_of_find htask
    rw [requeues_running_iff hb (handEnv env lower db task) sems htask hst, Starves]
    refine not_congr ⟨fun h => ⟨hload, ⟨task, htask, hst⟩, h⟩, fun h => h.2.2⟩

/-- With room for one host, the dispatch starts it and enqueues the task for the other. -/
theorem requeues_iff_two_hosts :
    Requeues twoHosts 1 ((dispatchCalls (narrowEnv fun _ => false) id 1).run
      (.begin twoHosts fun _ => .fresh)) := by
  refine (requeues_iff (narrowEnv fun _ => false) id twoHosts (fun _ => .fresh) 1 rfl).mpr ?_
  rintro ⟨-, -, th, rest, hp, hne, -⟩
  have hrows : pendingRows twoHosts 1 = [pendingRow 1 1, pendingRow 2 2] := by decide +kernel
  rw [hrows] at hp
  obtain ⟨rfl, -⟩ := List.cons.inj hp
  revert hne
  decide +kernel

/-- With no permit left the dispatch returns at once, and nobody will dispatch the task again. -/
theorem full_semaphore_drops_dispatch :
    ¬ Requeues twoHosts 1 ((dispatchCalls (narrowEnv fun _ => false) id 1).run
      (.begin twoHosts fun _ => ⟨false, 1⟩)) := by
  intro h
  have hqueue := h (by decide +kernel)
    ⟨⟨uptimeTask, by decide +kernel, rfl⟩, pendingRow 1 1, by decide +kernel, rfl⟩
  revert hqueue
  decide +kernel

end LarkPlat
