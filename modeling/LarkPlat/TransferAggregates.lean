import LarkPlat.TransferRules

/-!
# The Status of a Finished Transfer

`_maybe_finalize` counts the hosts of a task by their statuses and compares the counts. By the
ruling on degraded hosts, a task is a success when every host that is not degraded has succeeded.
The first comparison asks for the success of all hosts, degraded ones included.

## Main results

* `aggregates_iff`: the ruling is followed exactly if, whenever a host has succeeded and a host is
  degraded, some host is neither.
* `degraded_beside_success`: a task with one host of each kind is made partial.
-/

namespace LarkPlat

open Outcomes

/-- The statuses of the hosts of a task. -/
def TransferStore.statuses (st : TransferStore) (taskId : ℕ) : List String :=
  (st.hosts.filter fun h => decide (h.transferTaskId = taskId)).map TransferHost.status

namespace Transfers

/-- The statuses of a host that has not ended. -/
def activeStatuses : List String := ["pending", "pulling", "transferring", "verifying"]

/-- The ruling: what the status of a task is to be, by those of its hosts. -/
structure Ruled (statuses : List String) (status : String) : Prop where
  success (h : "success" ∈ statuses) (hall : ∀ x ∈ statuses, x ≠ "degraded" → x = "success") :
    status = "success"
  partly (h : "success" ∈ statuses) (hsome : ∃ x ∈ statuses, x ≠ "degraded" ∧ x ≠ "success") :
    status = "partial"
  failed (h : "success" ∉ statuses)
    (hsome : ∃ x ∈ statuses, x ∈ ["failed", "verify_failed", "canceled"]) : status = "failed"

/-- `_maybe_finalize` sets nothing while a host is active, and else a status that follows the
ruling. -/
def Aggregates (env : TransferEnv) (task : TransferTask) (s : TransferSession) : Prop :=
  if ∃ x ∈ s.store.statuses task.id, x ∈ activeStatuses then
    maybeFinalize env task s = .ok (task.status, s)
  else
    ∃ status s', maybeFinalize env task s = .ok (status, s') ∧
      (s'.committed.task? task.id).map TransferTask.status = some status ∧
      Ruled (s.store.statuses task.id) status

/-! ### Counts -/

section Counts

variable (st : TransferStore) (taskId : ℕ)

theorem countHosts_eq (statuses : List String) :
    st.countHosts taskId statuses = (st.statuses taskId).countP fun x => decide (x ∈ statuses) := by
  rw [TransferStore.countHosts, TransferStore.statuses, List.countP_map, List.countP_filter]
  refine List.countP_congr fun h _ => ?_
  rw [decide_eq_true_iff, Bool.and_eq_true, decide_eq_true_iff, and_comm]
  exact and_congr_left' decide_eq_true_iff.symm

theorem length_statuses :
    (st.statuses taskId).length = st.hosts.countP fun h => decide (h.transferTaskId = taskId) := by
  rw [TransferStore.statuses, List.length_map, List.countP_eq_length_filter]

variable {st taskId}

theorem countHosts_pos_iff {statuses : List String} :
    0 < st.countHosts taskId statuses ↔ ∃ x ∈ st.statuses taskId, x ∈ statuses := by
  rw [countHosts_eq, List.countP_pos_iff]
  exact exists_congr fun x => and_congr_right fun _ => decide_eq_true_iff

theorem countHosts_success_iff :
    0 < st.countHosts taskId ["success"] ↔ "success" ∈ st.statuses taskId := by
  rw [countHosts_pos_iff]
  constructor
  · rintro ⟨x, hx, hmem⟩
    exact List.mem_singleton.mp hmem ▸ hx
  · exact fun h => ⟨_, h, List.mem_singleton_self _⟩

theorem countHosts_eq_length_iff :
    st.countHosts taskId ["success"] = (st.statuses taskId).length ↔
      ∀ x ∈ st.statuses taskId, x = "success" := by
  rw [countHosts_eq, List.countP_eq_length]
  refine forall₂_congr fun x _ => ?_
  rw [decide_eq_true_iff, List.mem_singleton]

/-! ### The chain of comparisons -/

theorem aggregate_success (h : "success" ∈ st.statuses taskId)
    (hall : ∀ x ∈ st.statuses taskId, x = "success") : aggregate st taskId = "success" := by
  rw [aggregate, ← length_statuses]
  exact if_pos ⟨List.length_pos_of_mem h, countHosts_eq_length_iff.mpr hall⟩

theorem aggregate_partial (h : "success" ∈ st.statuses taskId)
    (hsome : ∃ x ∈ st.statuses taskId, x ≠ "success") : aggregate st taskId = "partial" := by
  obtain ⟨x, hx, hne⟩ := hsome
  rw [aggregate, ← length_statuses]
  rw [if_neg fun hall => hne (countHosts_eq_length_iff.mp hall.2 x hx),
    if_pos (countHosts_success_iff.mpr h)]

theorem aggregate_failed (h : "success" ∉ st.statuses taskId)
    (hsome : ∃ x ∈ st.statuses taskId, x ∈ ["failed", "verify_failed", "canceled"]) :
    aggregate st taskId = "failed" := by
  have hnone : ¬ 0 < st.countHosts taskId ["success"] :=
    fun hpos => h (countHosts_success_iff.mp hpos)
  have hfailed := (countHosts_pos_iff.mpr hsome).ne'
  rw [aggregate]
  rw [if_neg fun hall => hnone (lt_of_lt_of_eq hall.1 hall.2.symm), if_neg hnone,
    if_neg fun hd => hfailed hd.1]

end Counts

/-! ### The ruling -/

section Finalize

variable {env : TransferEnv} {task : TransferTask} {s : TransferSession}

/-- The computed status follows the ruling unless only successes and degraded hosts are mixed. -/
theorem ruled_aggregate_iff {st : TransferStore} {taskId : ℕ} :
    Ruled (st.statuses taskId) (aggregate st taskId) ↔
      ("success" ∈ st.statuses taskId → "degraded" ∈ st.statuses taskId →
        ∃ x ∈ st.statuses taskId, x ≠ "success" ∧ x ≠ "degraded") := by
  constructor
  · intro h hsuccess hdegraded
    by_contra hnone
    push Not at hnone
    have hpartial := aggregate_partial hsuccess ⟨_, hdegraded, by decide⟩
    rw [h.success hsuccess fun x hx hne => by_contra fun hx' => hne (hnone x hx hx')] at hpartial
    exact absurd hpartial (by decide)
  · intro h
    refine ⟨fun hsuccess hall => aggregate_success hsuccess fun x hx => ?_,
      fun hsuccess hsome => ?_, aggregate_failed⟩
    · by_contra hne
      have hdegraded : "degraded" ∈ st.statuses taskId :=
        by_contra fun hd => hne (hall x hx fun h => hd (h ▸ hx))
      obtain ⟨y, hy, hy', hy''⟩ := h hsuccess hdegraded
      exact hy' (hall y hy hy'')
    · obtain ⟨x, hx, -, hne⟩ := hsome
      exact aggregate_partial hsuccess ⟨x, hx, hne⟩

theorem task?_updateTask {st : TransferStore} {i : ℕ} {t : TransferTask} (h : st.task? i = some t)
    {f : TransferTask → TransferTask} (hf : ∀ t, (f t).id = t.id) :
    (st.updateTask i f).task? i = some (f t) := by
  rw [TransferStore.task?] at h ⊢
  rw [TransferStore.updateTask, List.find?_map]
  have hsame :
      ((fun t => decide (t.id = i)) ∘ fun t : TransferTask => if t.id = i then f t else t) =
      fun t => decide (t.id = i) := by
    funext t
    rw [Function.comp_apply]
    split_ifs with hi
    · rw [hf]
    · rfl
  have hid := List.find?_some h
  rw [hsame, h, Option.map_some, if_pos (of_decide_eq_true hid)]

/-- **The aggregation** of a task that is processed and whose hosts have ended. -/
theorem maybeFinalize_ended (hflush : Flushable env s) (hrow : s.store.task? task.id = some task)
    (hprocessing : task.status = "processing") (hhosts : s.store.statuses task.id ≠ [])
    (hended : ¬ ∃ x ∈ s.store.statuses task.id, x ∈ activeStatuses) :
    ∃ s', maybeFinalize env task s = .ok (aggregate s.store task.id, s') ∧
      (s'.committed.task? task.id).map TransferTask.status = some (aggregate s.store task.id) := by
  have hnonempty : (s.store.hosts.filter fun h => decide (h.transferTaskId = task.id)) ≠ [] :=
    fun h => hhosts (by rw [TransferStore.statuses, h, List.map_nil])
  have hcount : ¬ s.store.countHosts task.id activeStatuses > 0 :=
    fun h => hended (countHosts_pos_iff.mp h)
  have hcas : ∃ t ∈ s.store.tasks, t.id = task.id ∧ t.status = "processing" ∧
      t.version = task.version :=
    ⟨task, List.mem_of_find?_eq_some hrow, rfl, hprocessing, rfl⟩
  set s₁ : TransferSession := { s with store := s.store.updateTask task.id fun t =>
    { t with status := aggregate s.store task.id, version := task.version + 1,
             finishedAt := some (env.now s.commits) } } with hs₁
  have hrun : maybeFinalize env task s = (Transfers.commit env >>= fun _ =>
      (pure (aggregate s.store task.id) : TransferM String)) s₁ := by
    rw [maybeFinalize, if_neg (not_not_intro hprocessing)]
    refine (bind_of_ok (show (get : TransferM TransferSession) s = .ok (s, s) from rfl)).trans ?_
    rw [if_neg hnonempty]
    refine (congrFun (if_neg hcount) s).trans ((congrFun (if_pos hcas) s).trans ?_)
    exact bind_of_ok (show execute _ s = .ok ((), s₁) from rfl)
  have hflush₁ : Flushable env s₁ := hflush
  have hcommit : Transfers.commit env s₁ = .ok ((), { s₁ with
      committed := flushed env s₁, store := flushed env s₁, added := [],
      commits := s₁.commits + 1 }) := if_pos hflush₁
  refine ⟨_, hrun.trans (bind_of_ok hcommit), ?_⟩
  have htask := task?_updateTask hrow (f := fun t =>
    { t with status := aggregate s.store task.id, version := task.version + 1,
             finishedAt := some (env.now s.commits) }) fun _ => rfl
  change (((s.store.updateTask task.id _).task? task.id).map TransferTask.status) = _
  rw [htask, Option.map_some]

theorem maybeFinalize_active (hprocessing : task.status = "processing")
    (hactive : ∃ x ∈ s.store.statuses task.id, x ∈ activeStatuses) :
    maybeFinalize env task s = .ok (task.status, s) := by
  have hnonempty : (s.store.hosts.filter fun h => decide (h.transferTaskId = task.id)) ≠ [] := by
    obtain ⟨x, hx, -⟩ := hactive
    exact fun h => by rw [TransferStore.statuses, h] at hx; cases hx
  rw [maybeFinalize, if_neg (not_not_intro hprocessing)]
  refine (bind_of_ok (show (get : TransferM TransferSession) s = .ok (s, s) from rfl)).trans ?_
  rw [if_neg hnonempty]
  exact congrFun (if_pos (countHosts_pos_iff.mpr hactive)) s

/-- **The ruling is followed** on a task that is processed exactly if, whenever one of its hosts has
succeeded and one is degraded, some host is neither. -/
theorem aggregates_iff (hflush : Flushable env s) (hrow : s.store.task? task.id = some task)
    (hprocessing : task.status = "processing") (hhosts : s.store.statuses task.id ≠ []) :
    Aggregates env task s ↔
      ("success" ∈ s.store.statuses task.id → "degraded" ∈ s.store.statuses task.id →
        ∃ x ∈ s.store.statuses task.id, x ≠ "success" ∧ x ≠ "degraded") := by
  rw [Aggregates]
  split_ifs with hactive
  · refine iff_of_true (maybeFinalize_active hprocessing hactive) fun _ _ => ?_
    obtain ⟨x, hx, hmem⟩ := hactive
    refine ⟨x, hx, ?_, ?_⟩ <;> rintro rfl <;> exact absurd hmem (by decide)
  · obtain ⟨s', hrun, hstatus⟩ :=
      maybeFinalize_ended hflush hrow hprocessing hhosts hactive
    rw [← ruled_aggregate_iff]
    constructor
    · rintro ⟨status, s'', hrun', -, hruled⟩
      obtain ⟨rfl, -⟩ := returns_inj hrun hrun'
      exact hruled
    · exact fun hruled => ⟨_, s', hrun, hstatus, hruled⟩

end Finalize

/-! ### Two hosts -/

/-- A pass that meets nobody. -/
def idleEnv : TransferEnv where
  bindings := []
  items := []
  whitelistRule := none
  agentOnline _ _ := false
  gateway _ _ := PushEnv.greetingEnv
  now n := n

/-- The session of a task with hosts of some statuses. -/
def endedHosts (statuses : List String) : TransferSession :=
  .opened ⟨[PushEnv.greetingTask],
    statuses.zipIdx.map fun x => ⟨x.2 + 1, 1, x.2 + 7, x.1, 0, none, none, none, none⟩, []⟩

/-- A host that succeeded, one that is degraded and one that failed. -/
theorem ended_mixed :
    Aggregates idleEnv PushEnv.greetingTask (endedHosts ["success", "degraded", "failed"]) :=
  (aggregates_iff (by decide) (by decide) rfl (by decide)).mpr fun _ _ =>
    ⟨"failed", by decide, by decide, by decide⟩

/-- **A degraded host beside a success.** The host that is not degraded has succeeded, and the task
is made partial. -/
theorem degraded_beside_success :
    ¬ Aggregates idleEnv PushEnv.greetingTask (endedHosts ["success", "degraded"]) := by
  intro h
  rw [Aggregates, if_neg (by decide)] at h
  obtain ⟨status, s', hrun, -, hruled⟩ := h
  have hstatus : status = "success" := hruled.success (by decide) (by decide)
  have hpartial : (maybeFinalize idleEnv PushEnv.greetingTask
      (endedHosts ["success", "degraded"])).toOption.map Prod.fst = some "partial" := by
    decide +kernel
  rw [hrun, hstatus] at hpartial
  have hsame : "success" = "partial" := Option.some.inj hpartial
  exact absurd hsame (by decide)

end Transfers

end LarkPlat
