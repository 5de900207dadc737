import LarkPlat.FinalHosts

/-!
# Tasks Whose Hosts Have All Ended

A transfer task that is processed is to leave that status when its last host ends. `_maybe_finalize`
sees to it at the end of a dispatch and of a result, and it moves the task only if status and
version are still those of the copy that its session loaded. A thread that finds no file ends its
host without it, and so does an ack that writes an old status back.

An activity closes a task if it is to come to `_maybe_finalize` with a current copy of the task. A
queued dispatch closes its task as well, since it will read it. What carries the proof is that a
task whose hosts have all ended is always closed by somebody.

## Main results

* `none_stuck`: if whoever ends the last host of a task leaves somebody to close it, and no such
  activity breaks off, then a task whose hosts have all ended is not processed when everything is
  quiet.
* `lost_source_stuck`: the thread of the only host finds no file.
-/

namespace LarkPlat

open Machine Transfers

namespace TransferStore

/-- The task has hosts, and they have all ended. -/
def AllEnded (st : TransferStore) (taskId : ℕ) : Prop :=
  (∃ h ∈ st.hosts, h.transferTaskId = taskId) ∧
    ∀ h ∈ st.hosts, h.transferTaskId = taskId → h.status ∈ endedStatuses

instance (st : TransferStore) (taskId : ℕ) : Decidable (st.AllEnded taskId) :=
  inferInstanceAs (Decidable ((∃ h ∈ st.hosts, _) ∧ ∀ h ∈ st.hosts, _))

/-- Some of the listed hosts are the last of the task that have not ended. -/
def LastIn (st : TransferStore) (taskId : ℕ) (ids : List ℕ) : Prop :=
  (∃ h ∈ st.hosts, h.transferTaskId = taskId ∧ h.status ∉ endedStatuses) ∧
    ∀ h ∈ st.hosts, h.transferTaskId = taskId → h.status ∉ endedStatuses → h.id ∈ ids

/-- The keys of the tables: they are unique, and each host belongs to a task. -/
structure Keyed (st : TransferStore) : Prop where
  tasks : (st.tasks.map TransferTask.id).Nodup
  hosts : (st.hosts.map TransferHost.id).Nodup
  owned : ∀ h ∈ st.hosts, h.transferTaskId ∈ st.tasks.map TransferTask.id

end TransferStore

namespace Transfers

/-- The copy of a task that a session loaded is as the row of the task. -/
def IsCopy (task t : TransferTask) : Prop :=
  task.id = t.id ∧ task.status = t.status ∧ task.version = t.version

instance (task t : TransferTask) : Decidable (IsCopy task t) :=
  inferInstanceAs (Decidable (_ ∧ _ ∧ _))

namespace Activity

/-- The activity is to aggregate the task, with a copy that is current or still to be read. -/
def Closes (t : TransferTask) : Activity → Prop
  | .dispatch taskId => taskId = t.id
  | .loading task | .passing task _ | .claimed task _ _ | .pushing task _ _ _ _
  | .finalizing task _ | .finishing task _ _ => IsCopy task t
  | _ => False

instance (t : TransferTask) : DecidablePred (Closes t)
  | .dispatch _ => inferInstanceAs (Decidable (_ = _))
  | .loading task | .passing task _ | .claimed task _ _ | .pushing task _ _ _ _
  | .finalizing task _ | .finishing task _ _ => inferInstanceAs (Decidable (IsCopy task t))
  | .streaming .. | .acking .. | .storing .. | .stopping .. | .canceling .. | .retrying ..
  | .resetting .. => inferInstanceAs (Decidable False)

/-- A call of a user that has not committed. -/
def isCall : Activity → Bool
  | .stopping _ | .canceling .. | .retrying .. | .resetting .. => true
  | _ => false

/-- The next transaction of a dispatch or of a result raises. -/
def raises (env : PoolEnv) : Activity → Bool
  | .claimed task th _ => (startOf env.toTransferEnv task th).toOption.isNone
  | .finishing task _ data => (finishedRow env.toFrameEnv task data).toOption.isNone
  | _ => false

/-- What an activity has read is in the tables under its keys. -/
def Sound (st : TransferStore) : Activity → Prop
  | .finalizing _ (.counted status) | .finalizing _ (.inactive status) => status ≠ "processing"
  | .canceling task rows =>
      ∀ th ∈ rows, ∃ h ∈ st.hosts, h.id = th.id ∧ h.transferTaskId = task.id
  | .resetting task th => ∃ h ∈ st.hosts, h.id = th.id ∧ h.transferTaskId = task.id
  | _ => True

end Activity

end Transfers

namespace TransferPool

/-- Somebody closes the task. -/
def Closing (p : TransferPool) (t : TransferTask) : Prop :=
  t.id ∈ p.queue ∨ ∃ a ∈ p.activities, a.Closes t

instance (p : TransferPool) (t : TransferTask) : Decidable (p.Closing t) :=
  inferInstanceAs (Decidable (_ ∨ ∃ a ∈ p.activities, _))

/-- No dispatch is queued or running, no thread streams, and no frame is handled. -/
def Quiescent (p : TransferPool) : Prop :=
  p.queue = [] ∧ ∀ a ∈ p.activities, a.isCall = true

/-- When everything is quiet, no task is processed whose hosts have all ended. -/
def NoneStuck (p : TransferPool) : Prop :=
  p.Quiescent → ∀ t ∈ p.store.tasks, p.store.AllEnded t.id → t.status ≠ "processing"

/-- The `i`-th activity is not the only one that closes a processed task whose hosts have all
ended. -/
def Dispensable (p : TransferPool) (i : ℕ) : Prop :=
  ∀ t ∈ p.store.tasks, t.status = "processing" → p.store.AllEnded t.id →
    ∀ a, p.activities[i]? = some a → a.Closes t → (p.replace i []).Closing t

/-- Nobody who is needed to close a task breaks off or raises, and whoever ends the last hosts of a
processed task, other than by a stop, does it while somebody closes the task. -/
def Covers (p : TransferPool) : TransferPoolOp → Prop
  | .act env i => ∀ a, p.activities[i]? = some a →
      (a.raises env = true → p.Dispensable i) ∧
      ∀ ids status, a.Writes env p.store ids status → a.isCall = false → status ∈ endedStatuses →
        ∀ t ∈ p.store.tasks, t.status = "processing" → p.store.LastIn t.id ids → p.Closing t
  | .breakOff i => p.Dispensable i
  | _ => True

/-- In every state: keys, what the activities hold, and somebody who closes each processed task
whose hosts have all ended. -/
structure Manned (p : TransferPool) : Prop where
  keyed : p.store.Keyed
  sound : ∀ a ∈ p.activities, a.Sound p.store
  closing : ∀ t ∈ p.store.tasks, t.status = "processing" → p.store.AllEnded t.id → p.Closing t

end TransferPool

/-! ### Tables -/

namespace TransferStore

variable {st st' : TransferStore} {ids : List ℕ} {status : String} {f : TransferHost → TransferHost}

/-- The hosts of the tables are still there, with their keys. -/
def Keeps (st st' : TransferStore) : Prop :=
  ∀ h ∈ st.hosts, ∃ h' ∈ st'.hosts, h'.id = h.id ∧ h'.transferTaskId = h.transferTaskId

theorem mem_updateHosts (hf : Sets status f) {h' : TransferHost} :
    h' ∈ (st.updateHosts ids f).hosts →
      ∃ h ∈ st.hosts, h'.id = h.id ∧ h'.transferTaskId = h.transferTaskId ∧
        h'.status = if h.id ∈ ids then status else h.status := by
  intro hmem
  obtain ⟨h, hh, rfl⟩ := List.mem_map.mp hmem
  refine ⟨h, hh, ?_⟩
  split_ifs
  · exact hf h
  · exact ⟨rfl, rfl, rfl⟩

theorem exists_updateHosts (ids : List ℕ) (hf : Sets status f) {h : TransferHost}
    (hh : h ∈ st.hosts) :
    ∃ h' ∈ (st.updateHosts ids f).hosts, h'.id = h.id ∧ h'.transferTaskId = h.transferTaskId ∧
      h'.status = if h.id ∈ ids then status else h.status := by
  refine ⟨_, List.mem_map_of_mem hh, ?_⟩
  split_ifs
  · exact hf h
  · exact ⟨rfl, rfl, rfl⟩

theorem AllEnded.of_hosts {taskId : ℕ} (h : st.AllEnded taskId) (hhosts : st.hosts = st'.hosts) :
    st'.AllEnded taskId := by
  rw [AllEnded, ← hhosts]
  exact h

/-- An update of hosts that ends all hosts of a task either finds them so or ends the last ones. -/
theorem allEnded_updateHosts (hf : Sets status f) {taskId : ℕ}
    (h : (st.updateHosts ids f).AllEnded taskId) :
    st.AllEnded taskId ∨ status ∈ endedStatuses ∧ st.LastIn taskId ids := by
  obtain ⟨⟨h', hmem, htask⟩, hall⟩ := h
  have hend : ∀ h ∈ st.hosts, h.transferTaskId = taskId →
      (if h.id ∈ ids then status else h.status) ∈ endedStatuses := by
    intro h hh htask
    obtain ⟨h', hmem, -, htask', hstatus⟩ := exists_updateHosts ids hf hh
    exact hstatus ▸ hall h' hmem (htask'.trans htask)
  by_cases hlast : ∃ h ∈ st.hosts, h.transferTaskId = taskId ∧ h.status ∉ endedStatuses
  · refine .inr ⟨?_, hlast, fun h hh htask hopen => ?_⟩
    · obtain ⟨h, hh, htask, hopen⟩ := hlast
      have hstatus := hend h hh htask
      split_ifs at hstatus
      · exact hstatus
      · exact absurd hstatus hopen
    · by_contra hid
      have hstatus := hend h hh htask
      rw [if_neg hid] at hstatus
      exact hopen hstatus
  · obtain ⟨h, hh, -, htask', -⟩ := mem_updateHosts hf hmem
    refine .inl ⟨⟨h, hh, htask'.symm.trans htask⟩, fun h hh htask => ?_⟩
    by_contra hopen
    exact hlast ⟨h, hh, htask, hopen⟩

/-- An update of a task that goes through moves its rows and leaves the others. -/
theorem mem_optimisticUpdate {task t : TransferTask} {fromStatus toStatus : String}
    {finishedAt : Option ℚ}
    (h : st.optimisticUpdate task fromStatus toStatus finishedAt = some st') (ht : t ∈ st'.tasks) :
    t ∈ st.tasks ∧ t.id ≠ task.id ∨ t.id = task.id ∧ t.status = toStatus := by
  rw [optimisticUpdate] at h
  split_ifs at h
  obtain rfl := Option.some.inj h
  obtain ⟨t, hmem, rfl⟩ := List.mem_map.mp ht
  split_ifs with hid
  · exact .inr ⟨hid, rfl⟩
  · exact .inl ⟨hmem, hid⟩

theorem ids_optimisticUpdate {task : TransferTask} {fromStatus toStatus : String}
    {finishedAt : Option ℚ}
    (h : st.optimisticUpdate task fromStatus toStatus finishedAt = some st') :
    st'.tasks.map TransferTask.id = st.tasks.map TransferTask.id := by
  rw [optimisticUpdate] at h
  split_ifs at h
  obtain rfl := Option.some.inj h
  rw [updateTask, List.map_map]
  refine List.map_congr_left fun t _ => ?_
  rw [Function.comp_apply]
  split_ifs <;> rfl

theorem optimisticUpdate_isSome {task t : TransferTask} (ht : t ∈ st.tasks) (hcopy : IsCopy task t)
    (hstatus : t.status = "processing") (toStatus : String) (finishedAt : Option ℚ) :
    (st.optimisticUpdate task "processing" toStatus finishedAt).isSome = true := by
  rw [optimisticUpdate, if_pos ⟨t, ht, hcopy.1.symm, hstatus, hcopy.2.2.symm⟩]
  rfl

end TransferStore

/-! ### Activities -/

namespace Transfers.Activity

variable {env : PoolEnv} {st st' : TransferStore} {a : Activity} {t : TransferTask}

theorem Sound.mono (h : a.Sound st) (hkeeps : st.Keeps st') : a.Sound st' := by
  have hkey : ∀ (th : TransferHost) (task : TransferTask),
      (∃ h ∈ st.hosts, h.id = th.id ∧ h.transferTaskId = task.id) →
        ∃ h ∈ st'.hosts, h.id = th.id ∧ h.transferTaskId = task.id := by
    rintro th task ⟨h, hh, hid, htask⟩
    obtain ⟨h', hh', hid', htask'⟩ := hkeeps h hh
    exact ⟨h', hh', hid'.trans hid, htask'.trans htask⟩
  cases a with
  | finalizing task stage => cases stage <;> exact h
  | canceling task rows => exact fun th hth => hkey th task (h th hth)
  | resetting task th => exact hkey th task h
  | _ => trivial

theorem keeps_act (env : PoolEnv) (st : TransferStore) (a : Activity) :
    st.Keeps (a.act env st).store := by
  intro h hh
  obtain hhosts | ⟨ids, status, f, hhosts, hf, -⟩ := act_hosts env st a
  · exact ⟨h, hhosts ▸ hh, rfl, rfl⟩
  · obtain ⟨h', hh', hid, htask, -⟩ := TransferStore.exists_updateHosts ids hf hh
    exact ⟨h', hhosts ▸ hh', hid, htask⟩

theorem keyed_act (hk : st.Keyed) (env : PoolEnv) (a : Activity) : (a.act env st).store.Keyed := by
  have htasks : (a.act env st).store.tasks.map TransferTask.id = st.tasks.map TransferTask.id := by
    obtain htasks | ⟨task, fromStatus, toStatus, finishedAt, st', htask, htasks, -⟩ :=
      act_tasks env st a
    · rw [htasks]
    · rw [htasks, TransferStore.ids_optimisticUpdate htask]
  refine ⟨htasks ▸ hk.tasks, ?_, ?_⟩
  all_goals obtain hhosts | ⟨ids, status, f, hhosts, hf, -⟩ := act_hosts env st a
  · rw [hhosts]
    exact hk.hosts
  · have hids : (st.updateHosts ids f).hosts.map TransferHost.id = st.hosts.map TransferHost.id := by
      rw [TransferStore.updateHosts, List.map_map]
      refine List.map_congr_left fun h _ => ?_
      rw [Function.comp_apply]
      split_ifs
      · exact (hf h).1
      · rfl
    rw [hhosts, hids]
    exact hk.hosts
  · rw [hhosts, htasks]
    exact hk.owned
  · rw [hhosts, htasks]
    intro h' hh'
    obtain ⟨h, hh, -, htask, -⟩ := TransferStore.mem_updateHosts hf hh'
    exact htask ▸ hk.owned h hh

theorem task?_eq (hk : st.Keyed) (ht : t ∈ st.tasks) : st.task? t.id = some t :=
  Table.find_of_mem hk.tasks ht

/-- A dispatch and a result that write a host are still to close their task. -/
theorem Writes.closes {ids : List ℕ} {status : String} (hw : a.Writes env st ids status)
    (hc : a.Closes t) : ∃ b, (a.act env st).goOn = some b ∧ b.Closes t := by
  cases hw with
  | degrade hpending hchannel =>
      rw [act, pass, if_neg (not_not.mpr hpending), if_pos hchannel]
      exact ⟨_, rfl, hc⟩
  | claim hpending hchannel =>
      rw [act, pass, if_neg (not_not.mpr hpending), if_neg hchannel]
      exact ⟨_, rfl, hc⟩
  | mark hstart =>
      rw [act, start, hstart]
      exact ⟨_, rfl, hc⟩
  | unreachable hpush =>
      rw [act, pushNext, if_neg (Bool.eq_false_iff.mp hpush)]
      exact ⟨_, rfl, hc⟩
  | result hrow =>
      rw [act, finish, hrow]
      exact ⟨_, rfl, hc⟩
  | missing | ack | chunk | stop => exact hc.elim

theorem countHosts_active (h : st.AllEnded t.id) : st.countHosts t.id activeStatuses = 0 := by
  refine List.countP_eq_zero.mpr fun row hrow hactive => ?_
  obtain ⟨htask, hmem⟩ := of_decide_eq_true hactive
  have hdisjoint : ∀ x ∈ endedStatuses, x ∉ activeStatuses := by decide
  exact hdisjoint _ (h.2 row hrow htask) hmem

/-- An activity that closes a task whose hosts have all ended goes on with it, or the task has been
moved. -/
theorem Closes.act (hc : a.Closes t) (hk : st.Keyed) (hs : a.Sound st) (ht : t ∈ st.tasks)
    (hstatus : t.status = "processing") (hend : st.AllEnded t.id) (hraises : a.raises env = false) :
    (∃ b, (a.act env st).goOn = some b ∧ b.Closes t) ∨ t ∉ (a.act env st).store.tasks := by
  cases a with
  | dispatch taskId =>
      obtain rfl : taskId = t.id := hc
      rw [Activity.act, task?_eq hk ht]
      dsimp only
      rw [if_pos hstatus]
      exact .inl ⟨_, rfl, rfl, rfl, rfl⟩
  | loading task => exact .inl ⟨_, rfl, hc⟩
  | passing task todo =>
      refine .inl ?_
      cases todo with
      | nil => exact ⟨_, rfl, hc⟩
      | cons th todo =>
          rw [Activity.act, pass]
          split_ifs <;> exact ⟨_, rfl, hc⟩
  | claimed task th todo =>
      refine .inl ?_
      rw [Activity.act, start]
      cases hstart : startOf env.toTransferEnv task th with
      | error e =>
          rw [raises, hstart] at hraises
          cases hraises
      | ok begun => cases begun <;> exact ⟨_, rfl, hc⟩
  | pushing task th k items todo =>
      refine .inl ?_
      cases items with
      | nil => exact ⟨_, rfl, hc⟩
      | cons item items =>
          rw [Activity.act, pushNext]
          split_ifs <;> exact ⟨_, rfl, hc⟩
  | finalizing task stage =>
      obtain ⟨hid, hcopy, hversion⟩ := hc
      rw [Activity.act]
      cases stage with
      | begun =>
          have hhosts : (st.hosts.filter fun h => decide (h.transferTaskId = task.id)) ≠ [] := by
            obtain ⟨h, hh, htask⟩ := hend.1
            exact List.ne_nil_of_mem (List.mem_filter.mpr ⟨hh, decide_eq_true (htask.trans hid.symm)⟩)
          rw [finalize, if_neg (not_or.mpr ⟨not_not.mpr (hcopy.trans hstatus), hhosts⟩)]
          exact .inl ⟨_, rfl, hid, hcopy, hversion⟩
      | counted status =>
          rw [finalize, hid, countHosts_active hend, if_neg (lt_irrefl 0)]
          exact .inl ⟨_, rfl, hid, hcopy, hversion⟩
      | inactive status =>
          obtain ⟨st', htask⟩ := Option.isSome_iff_exists.mp
            (TransferStore.optimisticUpdate_isSome ht ⟨hid, hcopy, hversion⟩ hstatus status
              (some (env.now 0)))
          rw [finalize, htask]
          refine .inr fun hmem => ?_
          obtain ⟨-, hne⟩ | ⟨-, hmoved⟩ := TransferStore.mem_optimisticUpdate htask hmem
          · exact hne hid.symm
          · exact hs (hmoved.symm.trans hstatus)
  | finishing task th data =>
      refine .inl ?_
      rw [Activity.act, finish]
      cases hrow : finishedRow env.toFrameEnv task data with
      | error e =>
          rw [raises, hrow] at hraises
          cases hraises
      | ok row => exact ⟨_, rfl, hc⟩
  | _ => exact hc.elim

/-- If all hosts of a task have ended after a transaction, they had before, or it ends the last
ones. -/
theorem ended_act {taskId : ℕ} (h : (a.act env st).store.AllEnded taskId) :
    st.AllEnded taskId ∨
      ∃ ids status, a.Writes env st ids status ∧ status ∈ endedStatuses ∧ st.LastIn taskId ids := by
  obtain hhosts | ⟨ids, status, f, hhosts, hf, hwrites⟩ := act_hosts env st a
  · exact .inl (h.of_hosts hhosts)
  · obtain hend | ⟨hstatus, hlast⟩ := TransferStore.allEnded_updateHosts hf (h.of_hosts hhosts)
    · exact .inl hend
    · obtain hwrites | ⟨task, th, -, -, rfl⟩ := hwrites
      · exact .inr ⟨ids, status, hwrites, hstatus, hlast⟩
      · exact absurd hstatus (by decide)

theorem open_reset {task : TransferTask} {th : TransferHost}
    (hs : (Activity.resetting task th).Sound st)
    (ht : t ∈ ((Activity.resetting task th).act env st).store.tasks)
    (hend : ((Activity.resetting task th).act env st).store.AllEnded t.id) : t ∈ st.tasks := by
  rw [act] at ht hend
  obtain hrefused | ⟨st', hst', hreset⟩ := reset_cases st task th
  · rw [hrefused] at ht
    exact ht
  · rw [hreset] at ht hend
    obtain ⟨-, rfl⟩ | htask := hst'
    · exact ht
    · obtain ⟨hmem, -⟩ | ⟨hid, -⟩ := TransferStore.mem_optimisticUpdate htask ht
      · exact hmem
      · obtain ⟨h, hh, hhid, hhtask⟩ := hs
        obtain ⟨h', hh', -, htask', hpending⟩ :=
          TransferStore.exists_updateHosts [th.id] sets_resetRow
            (hosts_optimisticUpdate htask ▸ hh)
        rw [if_pos (hhid ▸ List.mem_singleton_self _)] at hpending
        have hstatus := hend.2 h' hh' (htask'.trans (hhtask.trans hid.symm))
        rw [hpending] at hstatus
        exact absurd hstatus (by decide)

theorem mem_tasks_act (hs : a.Sound st) (ht : t ∈ (a.act env st).store.tasks)
    (hstatus : t.status = "processing") (hend : (a.act env st).store.AllEnded t.id) :
    t ∈ st.tasks := by
  obtain htasks | ⟨task, fromStatus, toStatus, finishedAt, st', htask, htasks, hmoves⟩ :=
    act_tasks env st a
  · exact htasks ▸ ht
  · have hcases := TransferStore.mem_optimisticUpdate htask (htasks ▸ ht)
    obtain ⟨hmem, -⟩ | ⟨-, hmoved⟩ := hcases
    · exact hmem
    · cases hmoves with
      | close => exact absurd (hmoved.symm.trans hstatus) hs
      | stop => exact absurd (hmoved.symm.trans hstatus) (by decide)
      | retry => exact open_reset hs ht hend

theorem lastIn_of_stop {task : TransferTask} {rows : List TransferHost} {st' : TransferStore}
    (hk : st.Keyed) (hs : (Activity.canceling task rows).Sound st)
    (htask : st.optimisticUpdate task "processing" "canceled" (some (env.now 0)) = some st')
    (ht : t ∈ ((Activity.canceling task rows).act env st).store.tasks)
    (hstatus : t.status = "processing") : ¬ st.LastIn t.id (activeOf rows) := by
  rintro ⟨⟨h, hh, howner, hopen⟩, hlast⟩
  rw [act, cancel, htask] at ht
  obtain ⟨-, hne⟩ | ⟨-, hmoved⟩ := TransferStore.mem_optimisticUpdate htask ht
  · obtain ⟨th, hth, hid⟩ := List.mem_map.mp (hlast h hh howner hopen)
    obtain ⟨h', hh', hid', htask'⟩ := hs th (List.mem_filter.mp hth).1
    obtain rfl : h = h' := List.inj_on_of_nodup_map hk.hosts hh hh' (hid.symm.trans hid'.symm)
    exact hne (howner.symm.trans htask')
  · exact absurd (hmoved.symm.trans hstatus) (by decide)

theorem aggregate_ne (st : TransferStore) (taskId : ℕ) : aggregate st taskId ≠ "processing" := by
  unfold aggregate
  dsimp only
  split_ifs <;> decide

/-- What a transaction leaves under way is sound. -/
def LeavesSound (r : Transacted) : Prop := ∀ b ∈ r.goOn.toList ++ r.threads, b.Sound r.store

theorem leavesSound_none (st : TransferStore) : LeavesSound (commits st none) :=
  fun _ hb => absurd hb List.not_mem_nil

theorem leavesSound_some {b : Activity} (h : b.Sound st) : LeavesSound (commits st (some b)) :=
  fun _ hb => List.mem_singleton.mp hb ▸ h

/-- What an activity goes on as is sound, and so are the threads that it starts. -/
theorem sound_act (hs : a.Sound st) : LeavesSound (a.act env st) := by
  cases a with
  | dispatch taskId =>
      rw [act]
      cases st.task? taskId with
      | none => exact leavesSound_none st
      | some task =>
          dsimp only
          split_ifs
          · exact leavesSound_some trivial
          · exact leavesSound_none st
  | loading task => exact leavesSound_some trivial
  | passing task todo =>
      cases todo with
      | nil => exact leavesSound_some trivial
      | cons th todo =>
          rw [act, pass]
          split_ifs <;> exact leavesSound_some trivial
  | claimed task th todo =>
      rw [act, start]
      cases startOf env.toTransferEnv task th with
      | error e => exact leavesSound_none st
      | ok begun => cases begun <;> exact leavesSound_some trivial
  | pushing task th k items todo =>
      cases items with
      | nil => exact leavesSound_some trivial
      | cons item items =>
          rw [act, pushNext]
          split_ifs
          · rintro b hb
            obtain rfl | hb := List.mem_cons.mp hb
            · trivial
            · obtain rfl := List.mem_singleton.mp hb
              trivial
          · exact leavesSound_some trivial
  | finalizing task stage =>
      rw [act]
      cases stage with
      | begun =>
          rw [finalize]
          split_ifs
          · exact leavesSound_none st
          · exact leavesSound_some (aggregate_ne st task.id)
      | counted status =>
          rw [finalize]
          split_ifs
          · exact leavesSound_none st
          · exact leavesSound_some hs
      | inactive status => exact leavesSound_none _
  | streaming th item =>
      rw [act]
      split_ifs <;> exact leavesSound_none _
  | acking th data =>
      rw [act]
      cases ackedCursor data <;> exact leavesSound_none _
  | storing th data bytes =>
      rw [act]
      cases pulledCursor data bytes <;> exact leavesSound_none _
  | finishing task th data =>
      rw [act, finish]
      cases finishedRow env.toFrameEnv task data with
      | error e => exact leavesSound_none st
      | ok row => exact leavesSound_some trivial
  | stopping task =>
      refine leavesSound_some fun th hth => ?_
      obtain ⟨hmem, htask⟩ := mem_hostsOfTask.mp hth
      exact ⟨th, hmem, rfl, htask⟩
  | canceling task rows =>
      rw [act, cancel]
      split <;> exact leavesSound_none _
  | retrying task transferHostId =>
      rw [act]
      cases hhost : hostById st transferHostId with
      | none => exact leavesSound_none st
      | some th =>
          dsimp only
          split_ifs with hth
          · exact leavesSound_some ⟨th, List.mem_of_find?_eq_some hhost, rfl, hth.1⟩
          · exact leavesSound_none st
  | resetting task th =>
      rw [act]
      obtain hrefused | ⟨st', -, hreset⟩ := reset_cases st task th
      · exact hrefused ▸ leavesSound_none st
      · rw [hreset]
        exact fun _ hb => absurd hb List.not_mem_nil

end Transfers.Activity

/-! ### The pool -/

namespace TransferPool

variable {p : TransferPool} {t : TransferTask}

theorem mem_replaced {i : ℕ} {a b : Activity} (ha : p.activities[i]? = some a)
    (hb : b ∈ p.activities) : b = a ∨ b ∈ (p.replace i []).activities := by
  obtain ⟨hi, rfl⟩ := List.getElem?_eq_some_iff.mp ha
  rw [← List.take_append_drop i p.activities, List.drop_eq_getElem_cons hi] at hb
  obtain hb | hb := List.mem_append.mp hb
  · exact .inr (List.mem_append_left _ (List.mem_append_left _ hb))
  · obtain hb | hb := List.mem_cons.mp hb
    · exact .inl hb
    · exact .inr (List.mem_append_right _ hb)

theorem mem_replace {i : ℕ} {new : List Activity} {b : Activity} :
    b ∈ (p.replace i new).activities ↔ b ∈ new ∨ b ∈ (p.replace i []).activities := by
  simp only [replace, List.mem_append, List.append_nil]
  exact or_right_comm.trans or_comm

theorem mem_of_mem_replace {i : ℕ} {b : Activity} (hb : b ∈ (p.replace i []).activities) :
    b ∈ p.activities := by
  rw [replace, List.append_nil] at hb
  obtain hb | hb := List.mem_append.mp hb
  · exact List.mem_of_mem_take hb
  · exact List.mem_of_mem_drop hb

theorem Closing.mono {p' : TransferPool} (h : p.Closing t) (hqueue : p.queue ⊆ p'.queue)
    (hactivities : p.activities ⊆ p'.activities) : p'.Closing t := by
  obtain hid | ⟨a, ha, hc⟩ := h
  · exact .inl (hqueue hid)
  · exact .inr ⟨a, hactivities ha, hc⟩

theorem Closing.split {i : ℕ} {a : Activity} (h : p.Closing t) (ha : p.activities[i]? = some a) :
    (p.replace i []).Closing t ∨ a.Closes t := by
  obtain hid | ⟨b, hb, hc⟩ := h
  · exact .inl (.inl hid)
  · obtain rfl | hother := mem_replaced ha hb
    · exact .inr hc
    · exact .inl (.inr ⟨b, hother, hc⟩)

theorem Closing.replace {i : ℕ} {new : List Activity} {st : TransferStore}
    (h : (p.replace i []).Closing t) :
    ({ p.replace i new with store := st } : TransferPool).Closing t :=
  h.mono (List.Subset.refl _) fun _ hb => mem_replace.mpr (.inr hb)

theorem Closing.of_goOn {i : ℕ} {r : Transacted} {b : Activity} (hb : r.goOn = some b)
    (hc : b.Closes t) :
    ({ p.replace i (r.goOn.toList ++ r.threads) with store := r.store } : TransferPool).Closing t :=
  .inr ⟨b, mem_replace.mpr (.inl (List.mem_append_left _ (Option.mem_toList.mpr hb))), hc⟩

theorem kickOff_cases (p : TransferPool) (env : PoolEnv) (taskId : ℕ) :
    p.kickOff env taskId = p.begin (.dispatch taskId) ∨
      p.kickOff env taskId = { p with queue := p.queue ++ [taskId] } := by
  rw [kickOff]
  split_ifs
  · exact .inl rfl
  · exact .inr rfl

theorem manned_idle {st : TransferStore} (hk : st.Keyed)
    (hst : ∀ t ∈ st.tasks, t.status = "processing" → ¬ st.AllEnded t.id) : (idle st).Manned where
  keyed := hk
  sound _ ha := absurd ha List.not_mem_nil
  closing t ht hstatus hend := absurd hend (hst t ht hstatus)

theorem Manned.kickOff (h : p.Manned) (env : PoolEnv) (taskId : ℕ) :
    (p.kickOff env taskId).Manned := by
  obtain hkick | hkick := kickOff_cases p env taskId
  · rw [hkick]
    refine ⟨h.keyed, fun a ha => ?_, fun t ht hstatus hend => ?_⟩
    · obtain ha | ha := List.mem_append.mp ha
      · exact h.sound a ha
      · obtain rfl := List.mem_singleton.mp ha
        trivial
    · exact (h.closing t ht hstatus hend).mono (List.Subset.refl _) (List.subset_append_left _ _)
  · rw [hkick]
    refine ⟨h.keyed, h.sound, fun t ht hstatus hend => ?_⟩
    exact (h.closing t ht hstatus hend).mono (List.subset_append_left _ _) (List.Subset.refl _)

theorem Manned.begin {a : Activity} (h : p.Manned) (ha : a.Sound p.store) : (p.begin a).Manned := by
  refine ⟨h.keyed, fun b hb => ?_, fun t ht hstatus hend => ?_⟩
  · obtain hb | hb := List.mem_append.mp hb
    · exact h.sound b hb
    · exact List.mem_singleton.mp hb ▸ ha
  · exact (h.closing t ht hstatus hend).mono (List.Subset.refl _) (List.subset_append_left _ _)

theorem Manned.beginWith {a : Option Activity} (h : p.Manned) (ha : ∀ b ∈ a, b.Sound p.store) :
    (p.beginWith a).Manned := by
  cases a with
  | none => exact h
  | some b => exact h.begin (ha b rfl)

theorem Manned.create (h : p.Manned) (env : PoolEnv) (new : NewTransfer) :
    (p.create env new).Manned := by
  rw [TransferPool.create]
  split_ifs with hfresh
  · obtain ⟨htask, hhosts⟩ := hfresh
    refine Manned.kickOff (p := ⟨_, _, _⟩) ⟨⟨?_, ?_, ?_⟩, fun a ha => ?_, fun t ht hstatus hend => ?_⟩
      env new.task.id
    · exact Table.nodup_concat h.keyed.tasks htask
    · rw [List.map_append]
      refine h.keyed.hosts.append new.distinct fun id hid hnew => ?_
      obtain ⟨th, hth, rfl⟩ := List.mem_map.mp hnew
      exact hhosts th hth hid
    · rw [List.map_append]
      intro th hth
      obtain hth | hth := List.mem_append.mp hth
      · exact List.mem_append_left _ (h.keyed.owned th hth)
      · exact List.mem_append_right _ (List.mem_singleton.mpr (new.waiting th hth).1)
    · refine (h.sound a ha).mono fun th hth => ?_
      exact ⟨th, List.mem_append_left _ hth, rfl, rfl⟩
    · obtain ⟨⟨th, hth, howner⟩, hall⟩ := hend
      obtain ht | ht := List.mem_append.mp ht
      · have hid : t.id ≠ new.task.id := fun hid => htask (hid ▸ List.mem_map_of_mem ht)
        obtain hth | hth := List.mem_append.mp hth
        · exact h.closing t ht hstatus
            ⟨⟨th, hth, howner⟩, fun th hth => hall th (List.mem_append_left _ hth)⟩
        · exact absurd (howner.symm.trans (new.waiting th hth).1) hid
      · obtain rfl := List.mem_singleton.mp ht
        obtain hth' | hth' := List.mem_append.mp hth
        · exact absurd (howner ▸ h.keyed.owned th hth') htask
        · have hended := hall th hth howner
          rw [(new.waiting th hth').2] at hended
          exact absurd hended (by decide)
  · exact h

theorem Manned.consume (h : p.Manned) (k : ℕ) : (p.consume k).Manned := by
  rw [TransferPool.consume]
  cases hk : p.queue[k]? with
  | none => exact h
  | some taskId =>
      refine ⟨h.keyed, fun a ha => ?_, fun t ht hstatus hend => ?_⟩
      · obtain ha | ha := List.mem_append.mp ha
        · exact h.sound a ha
        · obtain rfl := List.mem_singleton.mp ha
          trivial
      · obtain hid | ⟨a, ha, hc⟩ := h.closing t ht hstatus hend
        · obtain ⟨j, hj⟩ := List.getElem?_of_mem hid
          by_cases hjk : j = k
          · subst hjk
            obtain rfl : taskId = t.id := Option.some.inj (hk.symm.trans hj)
            exact .inr ⟨_, List.mem_append_right _ (List.mem_singleton_self _), rfl⟩
          · exact .inl (List.mem_eraseIdx_iff_getElem?.mpr ⟨j, hjk, hj⟩)
        · exact .inr ⟨a, List.mem_append_left _ ha, hc⟩

theorem Manned.breakOff {i : ℕ} (h : p.Manned) (hi : p.Dispensable i) :
    (p.replace i []).Manned := by
  refine ⟨h.keyed, fun a ha => h.sound a (mem_of_mem_replace ha), fun t ht hstatus hend => ?_⟩
  obtain hid | ⟨a, ha, hc⟩ := h.closing t ht hstatus hend
  · exact .inl hid
  · cases hai : p.activities[i]? with
    | none =>
        have hlength : p.activities.length ≤ i := List.getElem?_eq_none_iff.mp hai
        refine .inr ⟨a, List.mem_append_left _ (List.mem_append_left _ ?_), hc⟩
        exact (List.take_of_length_le hlength).symm ▸ ha
    | some b =>
        obtain rfl | hother := mem_replaced hai ha
        · exact hi t ht hstatus hend a hai hc
        · exact .inr ⟨a, hother, hc⟩

theorem Manned.act {env : PoolEnv} {i : ℕ} (h : p.Manned) (hok : p.Covers (.act env i)) :
    (p.act env i).Manned := by
  rw [TransferPool.act]
  cases ha : p.activities[i]? with
  | none => exact h
  | some a =>
      have hs := h.sound a (List.mem_of_getElem? ha)
      obtain ⟨hraises, hcovers⟩ := hok a ha
      have hmanned : ({ p.replace i ((a.act env p.store).goOn.toList ++ (a.act env p.store).threads)
          with store := (a.act env p.store).store } : TransferPool).Manned := by
        refine ⟨Activity.keyed_act h.keyed env a, fun b hb => ?_, fun t ht hstatus hend => ?_⟩
        · obtain hb | hb := mem_replace.mp hb
          · exact Activity.sound_act hs b hb
          · exact (h.sound b (mem_of_mem_replace hb)).mono (Activity.keeps_act env p.store a)
        · have hmem := Activity.mem_tasks_act hs ht hstatus hend
          obtain hended | ⟨ids, status, hw, hstatus', hlast⟩ := Activity.ended_act hend
          · obtain hother | hc := (h.closing t hmem hstatus hended).split ha
            · exact hother.replace
            · cases hr : a.raises env with
              | true => exact (hraises hr t hmem hstatus hended a ha hc).replace
              | false =>
                  obtain ⟨b, hb, hbc⟩ | hmoved := hc.act h.keyed hs hmem hstatus hended hr
                  · exact .of_goOn hb hbc
                  · exact absurd ht hmoved
          · have hcall : a.isCall = false := by
              cases hw with
              | stop htask => exact absurd hlast (Activity.lastIn_of_stop h.keyed hs htask ht hstatus)
              | _ => rfl
            obtain hother | hc := (hcovers ids status hw hcall hstatus' t hmem hstatus hlast).split ha
            · exact hother.replace
            · obtain ⟨b, hb, hbc⟩ := hw.closes hc
              exact .of_goOn hb hbc
      dsimp only
      cases (a.act env p.store).kicked with
      | none => exact hmanned
      | some taskId => exact hmanned.kickOff env taskId

section Reads

variable {st : TransferStore} {b : Activity}

theorem sound_readAck {data : Json} (hb : readAck st data = some b) : b.Sound st := by
  unfold readAck at hb
  split at hb
  · cases hb
  · obtain ⟨th, -, rfl⟩ := Option.map_eq_some_iff.mp hb
    trivial

theorem sound_readChunk {env : PoolEnv} {data : Json} (hb : readChunk env st data = some b) :
    b.Sound st := by
  unfold readChunk at hb
  split at hb
  · obtain rfl := Option.some.inj hb
    trivial
  · cases hb

theorem sound_readResult {data : Json} (hb : readResult st data = some b) : b.Sound st := by
  unfold readResult at hb
  split at hb
  · cases hb
  · split at hb
    · cases hb
    · obtain ⟨task, -, rfl⟩ := Option.map_eq_some_iff.mp hb
      trivial

theorem sound_readStop {user : Actor} {taskId : ℕ} (hb : readStop st user taskId = some b) :
    b.Sound st := by
  unfold readStop at hb
  split at hb
  · cases hb
  · split_ifs at hb
    obtain rfl := Option.some.inj hb
    trivial

theorem sound_readRetry {user : Actor} {taskId transferHostId : ℕ}
    (hb : readRetry st user taskId transferHostId = some b) : b.Sound st := by
  unfold readRetry at hb
  split at hb
  · cases hb
  · obtain rfl := Option.some.inj hb
    trivial

end Reads

/-- **One operation** under the condition. -/
theorem manned_apply (h : p.Manned) {op : TransferPoolOp} (hok : p.Covers op) :
    (p.apply op).Manned := by
  cases op with
  | create env new => exact h.create env new
  | consume k => exact h.consume k
  | openAck data => exact h.beginWith fun b hb => sound_readAck hb
  | openChunk env data => exact h.beginWith fun b hb => sound_readChunk hb
  | openResult data => exact h.beginWith fun b hb => sound_readResult hb
  | openStop user taskId => exact h.beginWith fun b hb => sound_readStop hb
  | openRetry user taskId transferHostId => exact h.beginWith fun b hb => sound_readRetry hb
  | act env i => exact h.act hok
  | breakOff i => exact h.breakOff hok

theorem Manned.noneStuck (h : p.Manned) : p.NoneStuck := by
  rintro ⟨hqueue, hcalls⟩ t ht hend hstatus
  obtain hid | ⟨a, ha, hc⟩ := h.closing t ht hstatus hend
  · exact List.not_mem_nil (hqueue ▸ hid)
  · have hcall := hcalls a ha
    cases a <;> first | exact hc | cases hcall

/-- **No stuck task.** Along a run in which whoever ends the last host of a processed task leaves
somebody to close it, and in which none who is needed for that breaks off, no processed task is left
whose hosts have all ended when everything is quiet. -/
theorem none_stuck (st : TransferStore) (hk : st.Keyed)
    (hst : ∀ t ∈ st.tasks, t.status = "processing" → ¬ st.AllEnded t.id) (ops : List TransferPoolOp)
    (hok : Meets apply Covers (idle st) ops) : (run apply (idle st) ops).NoneStuck := by
  have hmanned : (run apply (idle st) ops).Manned :=
    run_invariant_of_meets (P := Manned) (fun _ _ h hop => manned_apply h hop)
      (manned_idle hk hst) hok
  exact hmanned.noneStuck

/-! ### A push to one host -/

/-- The operation is a transaction that does not raise, while somebody closes each task. -/
def Attended (p : TransferPool) : TransferPoolOp → Prop
  | .act env i => (∀ a ∈ p.activities[i]?, a.raises env = false) ∧ ∀ t ∈ p.store.tasks, p.Closing t
  | .breakOff _ => False
  | _ => True

instance (p : TransferPool) : DecidablePred p.Attended
  | .act env i => inferInstanceAs (Decidable ((∀ a ∈ p.activities[i]?, a.raises env = false) ∧
      ∀ t ∈ p.store.tasks, p.Closing t))
  | .breakOff _ => inferInstanceAs (Decidable False)
  | .create .. | .consume _ | .openAck _ | .openChunk .. | .openResult _ | .openStop .. |
    .openRetry .. => inferInstanceAs (Decidable True)

theorem covers_of_attended {op : TransferPoolOp} (h : p.Attended op) : p.Covers op := by
  cases op with
  | act env i =>
      intro a ha
      refine ⟨fun hraises => ?_, fun _ _ _ _ _ t ht _ _ => h.2 t ht⟩
      rw [h.1 a ha] at hraises
      cases hraises
  | breakOff i => exact h.elim
  | _ => trivial

/-- The agent of host 7 is not connected. -/
def offlinePool : PoolEnv := { livePool with agentOnline := fun _ _ => false, inProcess := false }

/-- The push is created, and a worker dispatches it while the agent is away. -/
def degradedPush : List TransferPoolOp :=
  .create offlinePool newPush :: .consume 0 :: List.replicate 7 (.act offlinePool 0)

/-- The host is degraded, and the dispatch that marked it closes the task. -/
theorem degraded_not_stuck : (run apply (idle ⟨[], [], []⟩) degradedPush).NoneStuck := by
  refine none_stuck ⟨[], [], []⟩ ⟨List.nodup_nil, List.nodup_nil, fun h hh => ?_⟩ (fun t ht => ?_)
    degradedPush ?_
  · exact absurd hh List.not_mem_nil
  · exact absurd ht List.not_mem_nil
  · have hattended : Meets apply Attended (idle ⟨[], [], []⟩) degradedPush := by decide +kernel
    exact meets_of_invariant (P := fun _ => True) (fun _ _ _ h => covers_of_attended h)
      (fun _ _ _ _ => trivial) trivial hattended

/-- The file of the package is not on the disk. -/
def emptyDisk : PoolEnv :=
  { livePool with disk := { PushEnv.greetingEnv with files := fun _ => none } }

/-- The dispatch ends with the host under way, and then the thread finds no file. -/
def lostSource : List TransferPoolOp :=
  announcedPush ++ List.replicate 4 (.act livePool 0) ++ [.act emptyDisk 0]

/-- The only host of the task has failed, nothing is under way, and the task is processed. -/
theorem lost_source_stuck : ¬ (run apply (idle ⟨[], [], []⟩) lostSource).NoneStuck := by
  intro h
  have hquiet : (run apply (idle ⟨[], [], []⟩) lostSource).Quiescent :=
    ⟨by decide +kernel, by decide +kernel⟩
  have hprocessed : ∃ t ∈ (run apply (idle ⟨[], [], []⟩) lostSource).store.tasks,
      (run apply (idle ⟨[], [], []⟩) lostSource).store.AllEnded t.id ∧ t.status = "processing" := by
    decide +kernel
  obtain ⟨t, ht, hend, hstatus⟩ := hprocessed
  exact h hquiet t ht hend hstatus

end TransferPool

end LarkPlat
