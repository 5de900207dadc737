import LarkPlat.DispatchPermits
import LarkPlat.ExecEffects

/-!
# How Many Hosts Execute at Once

A sequential run of dispatches and agent frames over the tables and the counters of Redis. A
dispatch counts the permits that it holds itself: it takes two for each row that it sets to
`running` and gives them back as soon as the row is handed over. A row that a live agent has
taken stays `running` without a permit, so the next dispatch finds the counters free and starts
more rows beside it.

## Main results

* `covered_iff_startedBy`: the rows a dispatch claims, from the counters that it finds.
* `dispatch_bounded_iff`: a dispatch stays within the limits exactly if the rows that the counters
  admit fit beside the rows that already run.
* `running_bounded_iff`: a run stays within the limits exactly if it starts within them and every
  dispatch of it has room.
-/

namespace LarkPlat

open Dispatch Faults

/-! ### The limits and what they bound -/

/-- The two limits of `_concurrency_limits`. -/
structure Limits where
  exec_concurrency_limit : ℤ
  exec_host_concurrency : ℤ

/-- The number of `running` rows on the hosts that `on` selects. -/
def ExecDb.running (db : ExecDb) (on : ℕ → Bool) : ℕ :=
  db.taskHosts.countP fun th => decide (th.status = .running) && on th.hostId

/-- The `running` rows stay within the global limit, and those of each host within its limit. -/
def Limits.Bound (limits : Limits) (db : ExecDb) : Prop :=
  db.running (fun _ => true) ≤ limits.exec_concurrency_limit ∧
    ∀ hostId, db.running (· = hostId) ≤ limits.exec_host_concurrency

/-- Rows that start beside the rows already running stay within the limits. -/
def Limits.Fits (limits : Limits) (db : ExecDb) (rows : List ExecTaskHost) : Prop :=
  db.running (fun _ => true) + (rows.length : ℤ) ≤ limits.exec_concurrency_limit ∧
    ∀ hostId, db.running (· = hostId) + (rows.countP (·.hostId = hostId) : ℤ) ≤
      limits.exec_host_concurrency

/-! ### Tables with fewer running rows -/

/-- The rows of the second tables are those of the first ones, and no more of them run. -/
structure Eases (db db' : ExecDb) : Prop where
  keys : db'.taskHosts.map ExecTaskHost.id = db.taskHosts.map ExecTaskHost.id
  running : ∀ on, db'.running on ≤ db.running on

theorem Eases.refl (db : ExecDb) : Eases db db := ⟨rfl, fun _ => le_rfl⟩

theorem Eases.trans {db db' db'' : ExecDb} (h : Eases db db') (h' : Eases db' db'') :
    Eases db db'' :=
  ⟨h'.keys.trans h.keys, fun on => (h'.running on).trans (h.running on)⟩

theorem eases_of_taskHosts {db db' : ExecDb} (h : db'.taskHosts = db.taskHosts) : Eases db db' := by
  refine ⟨congrArg _ h, fun on => ?_⟩
  rw [ExecDb.running, ExecDb.running, h]

theorem eases_setTaskHost {f : ExecTaskHost → ExecTaskHost} (hid : ∀ r, (f r).id = r.id)
    (hrun : ∀ r, (f r).status = .running → r.status = .running ∧ (f r).hostId = r.hostId)
    (db : ExecDb) (row : ℕ) : Eases db (db.setTaskHost row f) := by
  refine ⟨Table.map_key_modify fun r hr => (hid r).trans hr, fun on => ?_⟩
  rw [ExecDb.running, ExecDb.running, ExecDb.setTaskHost, Table.modify, List.countP_map]
  refine List.countP_mono_left fun r _ hr => ?_
  simp only [Function.comp_apply, Bool.and_eq_true, decide_eq_true_eq] at hr ⊢
  split_ifs at hr with hrow
  · obtain ⟨hst, hhost⟩ := hrun r hr.1
    exact ⟨hst, hhost ▸ hr.2⟩
  · exact hr

theorem Limits.Bound.eases {limits : Limits} {db db' : ExecDb} (hb : limits.Bound db)
    (h : Eases db db') : limits.Bound db' := by
  refine ⟨le_trans ?_ hb.1, fun hostId => le_trans ?_ (hb.2 hostId)⟩
  · exact_mod_cast h.running _
  · exact_mod_cast h.running _

theorem eases_persistResult (now : ℚ) (db : ExecDb) (row : ℕ) (status : String)
    (exitCode : Option ℤ) : Eases db ((Pool.idle db).persistResult now row status exitCode).db := by
  have hne : Pool.frameStatus status ≠ .running := by
    unfold Pool.frameStatus
    split <;> exact HostStatus.noConfusion
  exact eases_setTaskHost (f := fun th => { th with
    status := Pool.frameStatus status, exitCode := exitCode, finishedAt := some now })
    (fun _ => rfl) (fun _ hr => absurd hr hne) db row

theorem eases_maybeFinalizeTask (now : ℚ) (db : ExecDb) (taskId : ℕ) :
    Eases db (Pool.maybeFinalizeTask now db taskId) :=
  eases_of_taskHosts (effect_maybeFinalizeTask now db taskId).taskHosts

/-! ### The handover loop starts no row -/

section Handover

variable (env : CallEnv) (hand : HandEnv) (db : ExecDb)

/-- The tables of a dispatch have eased since `db`. -/
def Eased (s : DispatchState) : Prop := Eases db s.db

theorem releaseBoth_eases (th : ExecTaskHost) : Preserves (Eased db) (releaseBoth env th) := by
  have hrel : ∀ sem, Preserves (Eased db) (releaseSemaphore env sem th.id) := by
    intro sem
    rw [releaseSemaphore]
    split_ifs
    · exact preserves_call fun _ h => h
    · exact preserves_pure ()
  exact preserves_bind (hrel _) fun _ => hrel _

theorem conclude_eases (row : ℕ) (ok : Bool) : Preserves (Eased db) (conclude env row ok) := by
  have hfinish : Preserves (Eased db) (finishIfRunning env row ok) := by
    refine preserves_call fun s h => h.trans ?_
    refine eases_setTaskHost (fun r => ?_) (fun r hr => ?_) s.db row
    · exact congrArg Prod.fst (recordOutcome_fixed ok r)
    · exact absurd hr (recordOutcome_status ok r)
  exact preserves_bind (preserves_call fun _ h => h) fun _ =>
    preserves_bind hfinish fun _ =>
      preserves_bind (preserves_call fun _ h => h) fun _ => preserves_call fun _ h => h

theorem handBody_eases (th : ExecTaskHost) : Preserves (Eased db) (handBody env hand th) := by
  have hnote : ∀ (b : Bool) (e : DispatchEvent), Preserves (Eased db) (noteIf b e) := by
    intro b e
    refine preserves_modify fun s h => ?_
    split_ifs <;> exact h
  rw [handBody]
  split_ifs
  · exact preserves_bind (preserves_call fun _ h => h) fun _ =>
      preserves_bind (hnote _ _) fun _ => conclude_eases env db _ _
  · refine preserves_bind (preserves_call fun _ h => h) fun _ =>
      preserves_bind (hnote _ _) fun _ => preserves_bind (preserves_call fun _ h => h) fun _ => ?_
    split_ifs
    · exact preserves_pure ()
    · exact preserves_bind (hnote _ _) fun _ => conclude_eases env db _ _

theorem handLoop_eases (rows : List ℕ) : Preserves (Eased db) (handLoop env hand rows) := by
  induction rows with
  | nil => exact preserves_pure ()
  | cons row rest ih =>
      rw [handLoop]
      refine preserves_bind (preserves_call fun _ h => h) fun found => ?_
      cases found with
      | none => exact ih
      | some th =>
          exact preserves_bind (preserves_protect (handBody_eases env hand db th)
            (releaseBoth_eases env db th)) fun _ => ih

theorem settleCalls_eases (task : ExecTask) : Preserves (Eased db) (settleCalls env task) :=
  fun s h => h.trans (eases_of_taskHosts (@settleCalls_frame env task s).2)

theorem dispatchRunning_eases (task : ExecTask) (sems : Sem → SemKey) (rows : List ExecTaskHost) :
    Eases ((startedBy env sems rows).foldl (claimDb env) db)
      (finalState ((dispatchRunning env hand task rows).run (.begin db sems))).db := by
  obtain ⟨s₁, hres, hclaimed, -, -⟩ := @claimLoop_result env rows (.begin db sems)
  have hs₁ : (startedBy env sems rows).foldl (claimDb env) db = s₁.db := hclaimed.db.symm
  rw [hs₁]
  have hrest : Preserves (Eased s₁.db) (do
      let s ← get
      if s.started.isEmpty then pure ()
      else do
        handLoop env hand s.started
        settleCalls env task : Dispatch Unit) := by
    refine preserves_bind (fun _ h => h) fun s => ?_
    split_ifs
    · exact preserves_pure ()
    · exact preserves_bind (handLoop_eases env hand s₁.db _) fun _ =>
        settleCalls_eases env s₁.db task
  have hfrom := hrest s₁ (Eases.refl s₁.db)
  rw [dispatchRunning]
  rcases hres with ⟨hr, -, -⟩ | ⟨⟨c, hr⟩, -⟩
  · rw [bind_of_ok (recover_of_ok hr)]
    exact hfrom
  · cases hroll : env.raises .rollback with
    | false =>
        rw [bind_of_ok ((recover_of_error hr).trans (touch_of_quiet hroll))]
        exact hfrom
    | true =>
        rw [bind_of_error ((recover_of_error hr).trans (touch_of_raises hroll))]
        exact Eases.refl s₁.db

end Handover

/-! ### The rows that the counters admit -/

/-- The call is a Redis command. -/
def DispatchCall.isCommand : DispatchCall → Bool
  | .command _ _ _ => true
  | _ => false

/-- The environment of a dispatch under the configured limits, with Redis available. -/
def CallEnv.under (env : CallEnv) (limits : Limits) : CallEnv :=
  { env with
    brokerUp := true
    raises := fun c => !c.isCommand && env.raises c
    globalLimit := limits.exec_concurrency_limit
    hostLimit := limits.exec_host_concurrency }

/-- The rows `pre` begin the list, their claims are committed, and the counters leave a permit of
`exec:global` and a permit of its host for each of them. -/
structure Covered (env : CallEnv) (sems : Sem → SemKey) (rows pre : List ExecTaskHost) : Prop where
  isPrefix : pre <+: rows
  commits : ∀ th ∈ pre, env.raises (.claim th.id) = false
  unlocked : ∀ th ∈ pre, (sems .global).locked = false ∧ (sems (.host th.hostId)).locked = false
  global : pre ≠ [] → (sems .global).value + pre.length ≤ env.globalLimit
  host : ∀ th ∈ pre, (sems (.host th.hostId)).value +
    (pre.countP (·.hostId = th.hostId) : ℤ) ≤ env.hostLimit

section Admission

variable {env : CallEnv} {limits : Limits} {sems : Sem → SemKey} {th : ExecTaskHost}
  {rows pre : List ExecTaskHost}

/-- With Redis available, a permit is granted if nobody holds the lock and one is left. -/
theorem acquire_granted_iff (sem : Sem) (limit : ℤ) (row : ℕ) (key : SemKey) :
    acquireOutcome (env.under limits) key sem limit row = .granted ↔
      key.locked = false ∧ key.value < limit := by
  have hcommand : ∀ c, (env.under limits).raises (.command c sem row) = false := fun _ => rfl
  have hup : (env.under limits).brokerUp = true := rfl
  cases hl : key.locked with
  | true => simp [acquireOutcome, hcommand, hup, hl]
  | false =>
      by_cases hlt : key.value < limit
      · simp [acquireOutcome, hcommand, hup, hl, hlt]
      · simp [acquireOutcome, hcommand, hup, hl, hlt]

/-- With Redis available, the claim of a row succeeds if both permits are left and it commits. -/
theorem claim_started_iff :
    claimOutcome (env.under limits) sems th = .started ↔
      ((sems .global).locked = false ∧ (sems .global).value < limits.exec_concurrency_limit) ∧
        ((sems (.host th.hostId)).locked = false ∧
          (sems (.host th.hostId)).value < limits.exec_host_concurrency) ∧
        (env.under limits).raises (.claim th.id) = false := by
  rw [← @acquire_granted_iff env limits .global _ th.id,
    ← @acquire_granted_iff env limits (.host th.hostId) _ th.id]
  have hgl : (env.under limits).globalLimit = limits.exec_concurrency_limit := rfl
  have hhl : (env.under limits).hostLimit = limits.exec_host_concurrency := rfl
  have hrel : ∀ sem, releaseRaises (env.under limits) sem th.id = false := fun _ => rfl
  rw [claimOutcome, hgl, hhl]
  cases acquireOutcome (env.under limits) (sems .global) .global limits.exec_concurrency_limit
    th.id <;> simp
  cases acquireOutcome (env.under limits) (sems (.host th.hostId)) (.host th.hostId)
    limits.exec_host_concurrency th.id <;> simp [hrel]

/-- A claim takes a permit of `exec:global`. -/
theorem takeBoth_global_value :
    (takeBoth (env.under limits) sems th .global).value = (sems .global).value + 1 := by
  have hup : (env.under limits).brokerUp = true := rfl
  rw [takeBoth, if_pos hup, Function.update_of_ne Sem.noConfusion, Function.update_self]
  rfl

theorem takeBoth_host_value (hostId : ℕ) :
    (takeBoth (env.under limits) sems th (.host hostId)).value =
      (sems (.host hostId)).value + (if th.hostId = hostId then 1 else 0) := by
  have hup : (env.under limits).brokerUp = true := rfl
  rw [takeBoth, if_pos hup]
  split_ifs with h
  · rw [← h, Function.update_self]
    rfl
  · rw [Function.update_of_ne (by simpa using Ne.symm h), Function.update_of_ne Sem.noConfusion,
      add_zero]

theorem takeBoth_locked (sem : Sem) :
    (takeBoth (env.under limits) sems th sem).locked = (sems sem).locked := by
  have hup : (env.under limits).brokerUp = true := rfl
  rw [takeBoth, if_pos hup]
  by_cases hhost : sem = .host th.hostId
  · rw [hhost, Function.update_self]
    rfl
  rw [Function.update_of_ne hhost]
  by_cases hglobal : sem = .global
  · rw [hglobal, Function.update_self]
    rfl
  · rw [Function.update_of_ne hglobal]

theorem countP_host_cons (hostId : ℕ) : ((th :: pre).countP (·.hostId = hostId) : ℤ) =
    pre.countP (·.hostId = hostId) + (if th.hostId = hostId then 1 else 0) := by
  rw [List.countP_cons]
  simp only [decide_eq_true_eq]
  split_ifs <;> simp

/-- The first of the covered rows can be claimed, and the others are covered after that. -/
theorem Covered.uncons (h : Covered (env.under limits) sems (th :: rows) (th :: pre)) :
    claimOutcome (env.under limits) sems th = .started ∧
      Covered (env.under limits) (takeBoth (env.under limits) sems th) rows pre := by
  have hlen := h.global (List.cons_ne_nil th pre)
  rw [List.length_cons] at hlen
  change _ ≤ limits.exec_concurrency_limit at hlen
  have hfirst := h.host th List.mem_cons_self
  rw [countP_host_cons, if_pos rfl] at hfirst
  change _ ≤ limits.exec_host_concurrency at hfirst
  obtain ⟨hglobal, hhost⟩ := h.unlocked th List.mem_cons_self
  constructor
  · rw [claim_started_iff]
    exact ⟨⟨hglobal, by omega⟩, ⟨hhost, by omega⟩, h.commits th List.mem_cons_self⟩
  · refine ⟨(List.cons_prefix_cons.mp h.isPrefix).2, ?_, ?_, ?_, ?_⟩
    · exact fun th' hth' => h.commits th' (List.mem_cons_of_mem th hth')
    · intro th' hth'
      rw [takeBoth_locked, takeBoth_locked]
      exact h.unlocked th' (List.mem_cons_of_mem th hth')
    · intro _
      rw [takeBoth_global_value]
      change _ ≤ limits.exec_concurrency_limit
      omega
    · intro th' hth'
      have hle := h.host th' (List.mem_cons_of_mem th hth')
      rw [countP_host_cons] at hle
      rw [takeBoth_host_value]
      omega

/-- A row that can be claimed is covered together with the rows that are covered after it. -/
theorem Covered.cons (hclaim : claimOutcome (env.under limits) sems th = .started)
    (h : Covered (env.under limits) (takeBoth (env.under limits) sems th) rows pre) :
    Covered (env.under limits) sems (th :: rows) (th :: pre) := by
  obtain ⟨⟨hfree₁, hlt₁⟩, ⟨hfree₂, hlt₂⟩, hcommit⟩ := claim_started_iff.mp hclaim
  refine ⟨List.cons_prefix_cons.mpr ⟨rfl, h.isPrefix⟩, ?_, ?_, ?_, ?_⟩
  · intro th' hth'
    rcases List.mem_cons.mp hth' with rfl | hth'
    · exact hcommit
    · exact h.commits th' hth'
  · intro th' hth'
    rcases List.mem_cons.mp hth' with rfl | hth'
    · exact ⟨hfree₁, hfree₂⟩
    · have hfree := h.unlocked th' hth'
      rwa [takeBoth_locked, takeBoth_locked] at hfree
  · intro _
    rw [List.length_cons]
    change _ ≤ limits.exec_concurrency_limit
    by_cases hnil : pre = []
    · rw [hnil, List.length_nil]
      omega
    · have hle := h.global hnil
      rw [takeBoth_global_value] at hle
      change _ ≤ limits.exec_concurrency_limit at hle
      omega
  · -- the rows of one host: either this one is the only one, or another one bounds them
    intro th' hth'
    rw [countP_host_cons]
    change _ ≤ limits.exec_host_concurrency
    by_cases hno : pre.countP (·.hostId = th'.hostId) = 0
    · rcases List.mem_cons.mp hth' with rfl | hth'
      · rw [hno, if_pos rfl]
        omega
      · have hpos : 0 < pre.countP (·.hostId = th'.hostId) :=
          List.countP_pos_iff.mpr ⟨th', hth', by simp⟩
        omega
    · obtain ⟨x, hx, hxid⟩ := List.countP_pos_iff.mp (Nat.pos_of_ne_zero hno)
      have hxid : x.hostId = th'.hostId := by simpa using hxid
      have hle := h.host x hx
      rw [hxid, takeBoth_host_value] at hle
      change _ ≤ limits.exec_host_concurrency at hle
      omega

/-- **What a dispatch claims.** The prefixes of the rows that the claiming loop starts are the
prefixes that the counters cover. -/
theorem covered_iff_startedBy :
    Covered (env.under limits) sems rows pre ↔ pre <+: startedBy (env.under limits) sems rows := by
  induction rows generalizing sems pre with
  | nil =>
      rw [startedBy]
      constructor
      · exact fun h => h.isPrefix
      · intro h
        obtain rfl := List.prefix_nil.mp h
        exact ⟨h, by simp, by simp, fun hne => absurd rfl hne, by simp⟩
  | cons th rows ih =>
      cases pre with
      | nil =>
          refine iff_of_true ?_ List.nil_prefix
          exact ⟨List.nil_prefix, by simp, by simp, fun hne => absurd rfl hne, by simp⟩
      | cons th' pre =>
          have hhead : Covered (env.under limits) sems (th :: rows) (th' :: pre) → th' = th :=
            fun h => (List.cons_prefix_cons.mp h.isPrefix).1
          rw [startedBy]
          split_ifs with hstart
          · rw [List.cons_prefix_cons]
            constructor
            · intro h
              obtain rfl := hhead h
              exact ⟨rfl, ih.mp h.uncons.2⟩
            · rintro ⟨rfl, h⟩
              exact (ih.mpr h).cons hstart
          · refine iff_of_false (fun h => ?_) (by simp)
            obtain rfl := hhead h
            exact hstart h.uncons.1

/-- The claiming loop over the prefixes of a list starts the prefixes that the counters cover. -/
theorem forall_prefix_startedBy {Q : List ExecTaskHost → Prop} :
    (∀ pre, pre <+: rows → Q (startedBy (env.under limits) sems pre)) ↔
      ∀ pre, Covered (env.under limits) sems rows pre → Q pre := by
  constructor
  · intro h pre hpre
    have hself : Covered (env.under limits) sems pre pre :=
      ⟨List.prefix_rfl, hpre.commits, hpre.unlocked, hpre.global, hpre.host⟩
    have heq : startedBy (env.under limits) sems pre = pre :=
      (startedBy_sublist _ sems pre).antisymm (covered_iff_startedBy.mp hself).sublist
    rw [← heq]
    exact h pre hpre.isPrefix
  · intro h pre hpre
    obtain ⟨hp, hc, hu, hg, hh⟩ := covered_iff_startedBy.mpr
      (List.prefix_refl (startedBy (env.under limits) sems pre))
    exact h _ ⟨hp.trans hpre, hc, hu, hg, hh⟩

end Admission

/-! ### A dispatch -/

/-- The pending rows that a dispatch tries to claim. -/
def attempted (env : CallEnv) (db : ExecDb) (taskId : ℕ) : List ExecTaskHost :=
  match db.task? taskId with
  | some task =>
      if env.raises .load = false ∧ task.status = .running then pendingRows db taskId else []
  | none => []

section Claims

variable {env : CallEnv} {db : ExecDb}

theorem running_claimDb {th : ExecTaskHost} (hkeys : (db.taskHosts.map ExecTaskHost.id).Nodup)
    (hth : th ∈ db.taskHosts) (hpending : th.status = .pending) (on : ℕ → Bool) :
    (claimDb env db th).running on = db.running on + (if on th.hostId then 1 else 0) := by
  have hcount := Table.countP_modify (p := fun r => decide (r.status = .running) && on r.hostId)
    (f := fun r => { r with status := .running, startedAt := some env.now }) hkeys hth
  simpa [ExecDb.running, claimDb, ExecDb.setTaskHost, hpending] using hcount

/-- The claims of distinct pending rows put all of them among the running ones. -/
theorem running_foldl_claimDb {rows : List ExecTaskHost}
    (hkeys : (db.taskHosts.map ExecTaskHost.id).Nodup)
    (hrows : ∀ th ∈ rows, th ∈ db.taskHosts ∧ th.status = .pending)
    (hn : (rows.map ExecTaskHost.id).Nodup) (on : ℕ → Bool) :
    (rows.foldl (claimDb env) db).running on = db.running on + rows.countP (on ·.hostId) := by
  induction rows generalizing db with
  | nil => rfl
  | cons th rest ih =>
      obtain ⟨hnot, hn⟩ := List.nodup_cons.mp hn
      obtain ⟨hth, hpending⟩ := hrows th List.mem_cons_self
      have hrest : ∀ th' ∈ rest, th' ∈ (claimDb env db th).taskHosts ∧ th'.status = .pending := by
        intro th' hth'
        obtain ⟨hmem, hp⟩ := hrows th' (List.mem_cons_of_mem th hth')
        have hne : th'.id ≠ th.id := by
          intro he
          exact hnot (he ▸ List.mem_map_of_mem hth')
        exact ⟨Table.mem_modify.mpr (Or.inr ⟨hmem, hne⟩), hp⟩
      rw [List.foldl_cons, ih (by rwa [claimDb_ids]) hrest hn, running_claimDb hkeys hth hpending,
        List.countP_cons]
      omega

theorem attempted_sublist (taskId : ℕ) : (attempted env db taskId).Sublist db.taskHosts := by
  have hsub : (pendingRows db taskId).Sublist db.taskHosts :=
    List.filter_sublist.trans List.filter_sublist
  unfold attempted
  split
  · split_ifs
    · exact hsub
    · exact List.nil_sublist _
  · exact List.nil_sublist _

theorem attempted_pending {taskId : ℕ} {th : ExecTaskHost} (h : th ∈ attempted env db taskId) :
    th.status = .pending := by
  unfold attempted at h
  split at h
  · split_ifs at h
    · exact of_decide_eq_true (List.mem_filter.mp h).2
    · cases h
  · cases h

/-- Claimed rows stay within the limits exactly if they fit beside the running ones. -/
theorem bound_foldl_claimDb_iff (limits : Limits) {taskId : ℕ} {rows : List ExecTaskHost}
    (hkeys : (db.taskHosts.map ExecTaskHost.id).Nodup)
    (hpre : rows <+: attempted env db taskId) :
    limits.Bound (rows.foldl (claimDb env) db) ↔ limits.Fits db rows := by
  have hsub := hpre.sublist.trans (attempted_sublist taskId)
  have hrunning := @running_foldl_claimDb env db rows hkeys
    (fun th hth => ⟨hsub.subset hth, attempted_pending (hpre.subset hth)⟩)
    (hkeys.sublist (hsub.map ExecTaskHost.id))
  rw [Limits.Bound, Limits.Fits, hrunning, List.countP_true]
  refine and_congr (by rw [Nat.cast_add]) (forall_congr' fun hostId => ?_)
  rw [hrunning, Nat.cast_add]

theorem eases_dispatch (env : CallEnv) (lower : String → String) (db : ExecDb) (sems : Sem → SemKey)
    (taskId : ℕ) :
    Eases ((startedBy env sems (attempted env db taskId)).foldl (claimDb env) db)
      (finalState ((dispatchCalls env lower taskId).run (.begin db sems))).db := by
  rcases dispatchCalls_cases env lower db sems taskId with
    ⟨hload, hr⟩ | ⟨-, hno, hr⟩ | ⟨hload, task, htask, hst, hr⟩ <;> rw [hr]
  · have hnil : attempted env db taskId = [] := by
      unfold attempted
      split
      · exact if_neg fun hc => by simp [hload] at hc
      · rfl
    rw [hnil]
    exact Eases.refl db
  · have hnil : attempted env db taskId = [] := by
      unfold attempted
      split
      · rename_i task htask
        exact if_neg fun hc => hno task htask hc.2
      · rfl
    rw [hnil]
    exact Eases.refl db
  · have hrows : attempted env db taskId = pendingRows db taskId := by
      simp only [attempted, htask, hload, hst, and_self, if_true]
    rw [hrows]
    exact dispatchRunning_eases env _ db task sems _

theorem keys_foldl_claimDb (rows : List ExecTaskHost) (db : ExecDb) :
    (rows.foldl (claimDb env) db).taskHosts.map ExecTaskHost.id =
      db.taskHosts.map ExecTaskHost.id := by
  induction rows generalizing db with
  | nil => rfl
  | cons th rest ih => exact (ih (claimDb env db th)).trans (claimDb_ids db th)

end Claims

/-! ### Runs -/

/-- The tables and the counters of the semaphores between two calls; the host rows have a
primary key. -/
structure Board where
  db : ExecDb
  sems : Sem → SemKey
  keyed : (db.taskHosts.map ExecTaskHost.id).Nodup

/-- A dispatch, or a step of the connection of an agent. -/
inductive BoardOp where
  | dispatch (env : CallEnv) (lower : String → String) (taskId : ℕ)
  | persistResult (now : ℚ) (row : ℕ) (status : String) (exitCode : Option ℤ)
  | maybeFinalizeTask (now : ℚ) (taskId : ℕ)

namespace Board

variable (limits : Limits)

/-- One complete call. -/
def apply (b : Board) : BoardOp → Board
  | .dispatch env lower taskId =>
      let s := finalState ((dispatchCalls (env.under limits) lower taskId).run (.begin b.db b.sems))
      ⟨s.db, s.sems, by
        rw [(eases_dispatch _ lower b.db b.sems taskId).keys, keys_foldl_claimDb]
        exact b.keyed⟩
  | .persistResult now row status exitCode =>
      ⟨((Pool.idle b.db).persistResult now row status exitCode).db, b.sems, by
        rw [(eases_persistResult now b.db row status exitCode).keys]
        exact b.keyed⟩
  | .maybeFinalizeTask now taskId =>
      ⟨Pool.maybeFinalizeTask now b.db taskId, b.sems, by
        rw [(eases_maybeFinalizeTask now b.db taskId).keys]
        exact b.keyed⟩

/-- The tables that a call passes through: those after each pass of the claiming loop of a
dispatch, and those at the end. -/
def visits (b : Board) (op : BoardOp) : List ExecDb :=
  (match op with
    | .dispatch env _ taskId => (attempted (env.under limits) b.db taskId).inits.map fun rows =>
        (finalState ((claimLoop (env.under limits) rows).run (.begin b.db b.sems))).db
    | _ => []) ++ [(b.apply limits op).db]

/-- The rows that the counters admit to a dispatch fit beside those that already run. -/
def Room (b : Board) : BoardOp → Prop
  | .dispatch env _ taskId => ∀ rows,
      Covered (env.under limits) b.sems (attempted (env.under limits) b.db taskId) rows →
        limits.Fits b.db rows
  | _ => True

variable {limits}

theorem claimLoop_db (env : CallEnv) (db : ExecDb) (sems : Sem → SemKey)
    (rows : List ExecTaskHost) :
    (finalState ((claimLoop env rows).run (.begin db sems))).db =
      (startedBy env sems rows).foldl (claimDb env) db := by
  obtain ⟨s', hres, hclaimed, -, -⟩ := @claimLoop_result env rows (.begin db sems)
  have hfinal : finalState ((claimLoop env rows).run (.begin db sems)) = s' := by
    rcases hres with ⟨hr, -, -⟩ | ⟨⟨c, hr⟩, -⟩ <;> rw [hr] <;> rfl
  rw [hfinal]
  exact hclaimed.db

/-- **One dispatch.** A dispatch stays within the limits exactly if the rows that the counters
admit fit beside the rows that already run. -/
theorem dispatch_bounded_iff (b : Board) (env : CallEnv) (lower : String → String) (taskId : ℕ) :
    (∀ db ∈ b.visits limits (.dispatch env lower taskId), limits.Bound db) ↔
      b.Room limits (.dispatch env lower taskId) := by
  have hiff : ∀ rows, Covered (env.under limits) b.sems (attempted (env.under limits) b.db taskId)
      rows → (limits.Bound (rows.foldl (claimDb (env.under limits)) b.db) ↔
        limits.Fits b.db rows) := fun rows hrows =>
    bound_foldl_claimDb_iff limits b.keyed hrows.isPrefix
  have hpasses := @forall_prefix_startedBy env limits b.sems
    (attempted (env.under limits) b.db taskId)
    fun rows => limits.Bound (rows.foldl (claimDb (env.under limits)) b.db)
  constructor
  · intro h rows hrows
    refine (hiff rows hrows).mp (hpasses.mp (fun pre hpre => ?_) rows hrows)
    rw [← claimLoop_db]
    refine h _ (List.mem_append_left _ (List.mem_map.mpr ⟨pre, ?_, rfl⟩))
    exact (List.mem_inits _ _).mpr hpre
  · intro h db hdb
    have hall := hpasses.mpr fun rows hrows => (hiff rows hrows).mpr (h rows hrows)
    rcases List.mem_append.mp hdb with hdb | hdb
    · obtain ⟨pre, hpre, rfl⟩ := List.mem_map.mp hdb
      rw [claimLoop_db]
      exact hall pre ((List.mem_inits _ _).mp hpre)
    · obtain rfl := List.mem_singleton.mp hdb
      exact (hall _ (List.prefix_refl _)).eases (eases_dispatch _ lower b.db b.sems taskId)

theorem visits_bounded_iff {b : Board} (hb : limits.Bound b.db) (op : BoardOp) :
    (∀ db ∈ b.visits limits op, limits.Bound db) ↔ b.Room limits op := by
  cases op with
  | dispatch env lower taskId => exact dispatch_bounded_iff b env lower taskId
  | persistResult now row status exitCode =>
      refine iff_of_true (fun db hdb => ?_) trivial
      obtain rfl := List.mem_singleton.mp hdb
      exact hb.eases (eases_persistResult now b.db row status exitCode)
  | maybeFinalizeTask now taskId =>
      refine iff_of_true (fun db hdb => ?_) trivial
      obtain rfl := List.mem_singleton.mp hdb
      exact hb.eases (eases_maybeFinalizeTask now b.db taskId)

/-- The run stays within the limits: it starts there, and so do all tables that its calls pass
through. -/
def NeverExceeds (limits : Limits) (b : Board) (ops : List BoardOp) : Prop :=
  limits.Bound b.db ∧
    Machine.Meets (apply limits) (fun b op => ∀ db ∈ b.visits limits op, limits.Bound db) b ops

/-- **When the limits bound the running hosts.** Along a sequential run of dispatches and agent
frames the `running` rows stay within the limits, in total and on each host, exactly if the run
starts within them and every dispatch has room. -/
theorem running_bounded_iff (limits : Limits) (b : Board) (ops : List BoardOp) :
    NeverExceeds limits b ops ↔
      limits.Bound b.db ∧ Machine.Meets (apply limits) (Room limits) b ops := by
  refine and_congr_right fun hb => ?_
  induction ops generalizing b with
  | nil => exact Iff.rfl
  | cons op ops ih =>
      rw [Machine.meets_cons, Machine.meets_cons, visits_bounded_iff hb]
      refine and_congr_right fun hroom => ih _ ?_
      refine (visits_bounded_iff hb op).mpr hroom _ ?_
      exact List.mem_append_right _ (List.mem_singleton_self _)

/-! ### A task on two connected hosts -/

/-- The running task, with its two pending hosts each bound to an agent. -/
def connectedHosts : Board where
  db := { twoHosts with
    hosts := [⟨1, none, "agent", some "agent-1"⟩, ⟨2, none, "agent", some "agent-2"⟩] }
  sems := fun _ => .fresh
  keyed := by decide

/-- Every agent takes its frame. -/
def connectedEnv : CallEnv :=
  { narrowEnv fun _ => false with agentAccepts := fun _ => true }

/-- With limits of one, the first dispatch hands a host to its agent and gives the permits back,
and the dispatch that it has enqueued starts the other host beside it. -/
theorem second_dispatch_exceeds :
    ¬ ∀ (limits : Limits) (b : Board) (ops : List BoardOp),
      limits.Bound b.db → NeverExceeds limits b ops := by
  intro h
  have hidle : ∀ on, connectedHosts.db.running on = 0 := fun _ => rfl
  have hstart : (⟨1, 1⟩ : Limits).Bound connectedHosts.db := by
    simp [Limits.Bound, hidle]
  have hrun := h ⟨1, 1⟩ connectedHosts
    [.dispatch connectedEnv id 1, .dispatch connectedEnv id 1] hstart
  have hlast := hrun.2.2.1 _ (List.mem_append_right _ (List.mem_singleton_self _))
  have htotal := hlast.1
  revert htotal
  decide +kernel

end Board

end LarkPlat
