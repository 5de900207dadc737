import LarkPlat.DispatchPermits
import LarkPlat.Paging
import LarkPlat.TransferFrames
import Mathlib.Tactic.IntervalCases

/-!
# Pages of a Log

The logs of the hosts of a task are read in pages. A reader asks for the lines behind a sequence
number and gets the next one to ask for, which is the old one advanced by the number of lines. The
agents choose the numbers of their lines, and the mock executor begins at 1 in every run.

## Main results

* `logs_read_once_iff`: every line is read once, in order, exactly if at each boundary of a page as
  many lines have a number up to the boundary.
* `retried_log`: the lines of a host that ran twice in the mock executor.
-/

namespace LarkPlat

open Paging Transfers

/-- `exec_log`. -/
structure ExecLog where
  createdAt : ℚ
  taskHostId : ℕ
  seq : ℕ
  level : String
  content : String
  deriving DecidableEq

/-- A line of a log in a response. -/
structure LogOut where
  seq : ℕ
  level : String
  content : String
  createdAt : ℚ
  deriving DecidableEq

/-- The line of a row. -/
def ExecLog.out (r : ExecLog) : LogOut := ⟨r.seq, r.level, r.content, r.createdAt⟩

@[inherit_doc ExecLog.out]
def TransferLog.out (r : TransferLog) : LogOut := ⟨r.seq, r.level, r.content, r.createdAt⟩

/-- What both `get_logs` do: the checks, and the next sequence number to ask for. -/
def logPage (perm : String) (user : Actor) (createdBy : Option (Option ℕ)) (ofTask : Bool)
    (lines : List LogOut) (afterSeq : ℕ) : Except PyErr (List LogOut × ℕ) := do
  user.requirePerm perm
  match createdBy with
  | none => throw (.notFound "task not found")
  | some createdBy =>
      if user.isAdmin = false ∧ createdBy ≠ some user.id then
        throw (.forbidden "no permission to view this task")
      else if ofTask = false then throw (.notFound "task host not found")
      else pure (lines, afterSeq + lines.length)

/-- `get_logs` of `exec_service`; the rows behind the number are those of
`ExecLogRepository.after_seq`. -/
def ExecDb.getLogs (db : ExecDb) (logs : List ExecLog) (o : Arrangement ExecLog.seq) (user : Actor)
    (taskId taskHostId size afterSeq : ℕ) : Except PyErr (List LogOut × ℕ) :=
  logPage "exec:task:log" user ((db.task? taskId).map ExecTask.createdBy)
    ((db.taskHost? taskHostId).any fun th => decide (th.execTaskId = taskId))
    ((o.page (logs.filter fun r => decide (r.taskHostId = taskHostId)) size afterSeq).map
      ExecLog.out) afterSeq

/-- `get_logs` of `transfer_service`; the rows behind the number are those of
`TransferLogRepository.after_seq`. -/
def TransferStore.getLogs (st : TransferStore) (o : Arrangement TransferLog.seq) (user : Actor)
    (taskId transferHostId size afterSeq : ℕ) : Except PyErr (List LogOut × ℕ) :=
  logPage "transfer:task:log" user ((st.task? taskId).map TransferTask.createdBy)
    ((hostById st transferHostId).any fun th => decide (th.transferTaskId = taskId))
    ((o.page (st.logs.filter fun r => decide (r.transferHostId = transferHostId)) size afterSeq).map
      TransferLog.out) afterSeq

/-! ### Readers -/

section Readers

variable {size : ℕ}

theorem logPage_of_returns {perm : String} {user : Actor} {createdBy : Option (Option ℕ)}
    {ofTask : Bool} {lines : List LogOut} {afterSeq : ℕ} {r : List LogOut × ℕ}
    (h : logPage perm user createdBy ofTask lines afterSeq = .ok r) (lines' : List LogOut)
    (afterSeq' : ℕ) :
    logPage perm user createdBy ofTask lines' afterSeq' =
      .ok (lines', afterSeq' + lines'.length) := by
  unfold logPage at h ⊢
  obtain ⟨⟨⟩, hperm, h⟩ := bind_eq_ok.mp h
  rw [hperm]
  cases createdBy with
  | none => cases h
  | some createdBy =>
      dsimp only at h ⊢
      split_ifs at h with hdenied hother
      change (if _ then _ else _) = _
      rw [if_neg hdenied, if_neg hother]
      rfl

theorem ExecLog.out_inj {a b : ExecLog} (hhost : a.taskHostId = b.taskHostId)
    (h : a.out = b.out) : a = b := by
  obtain ⟨ta, ha, sa, la, ca⟩ := a
  obtain ⟨tb, hb, sb, lb, cb⟩ := b
  obtain ⟨rfl, rfl, rfl, rfl⟩ := LogOut.mk.inj h
  obtain rfl : ha = hb := hhost
  rfl

@[inherit_doc ExecLog.out_inj]
theorem TransferLog.out_inj {a b : TransferLog} (hhost : a.transferHostId = b.transferHostId)
    (h : a.out = b.out) : a = b := by
  obtain ⟨ta, ha, sa, la, ca⟩ := a
  obtain ⟨tb, hb, sb, lb, cb⟩ := b
  obtain ⟨rfl, rfl, rfl, rfl⟩ := LogOut.mk.inj h
  obtain rfl : ha = hb := hhost
  rfl

/-- The log of a host of a task, with different keys, is read once exactly at boundaries. -/
theorem ExecDb.logs_once_iff {db : ExecDb} {logs : List ExecLog} {user : Actor}
    {taskId taskHostId : ℕ} (hsize : 0 < size)
    (hkeys : (logs.map fun r => (r.createdAt, r.taskHostId, r.seq)).Nodup)
    (hmay : ∃ o r, db.getLogs logs o user taskId taskHostId size 0 = .ok r) :
    (∀ o, ReadsOnce ExecLog.seq ExecLog.out
        (logs.filter fun r => decide (r.taskHostId = taskHostId))
        (db.getLogs logs o user taskId taskHostId size)) ↔
      AtBoundaries ExecLog.seq size (logs.filter fun r => decide (r.taskHostId = taskHostId)) := by
  obtain ⟨o₀, r, hr⟩ := hmay
  refine readsOnce_iff hsize ((hkeys.of_map _).filter _) (fun a ha b hb => ExecLog.out_inj ?_)
    fun o c => ?_
  · rw [of_decide_eq_true (List.mem_filter.mp ha).2, of_decide_eq_true (List.mem_filter.mp hb).2]
  · rw [ExecDb.getLogs, logPage_of_returns hr, List.length_map]

@[inherit_doc ExecDb.logs_once_iff]
theorem TransferStore.logs_once_iff {st : TransferStore} {user : Actor}
    {taskId transferHostId : ℕ} (hsize : 0 < size)
    (hkeys : (st.logs.map fun r => (r.createdAt, r.transferHostId, r.seq)).Nodup)
    (hmay : ∃ o r, st.getLogs o user taskId transferHostId size 0 = .ok r) :
    (∀ o, ReadsOnce TransferLog.seq TransferLog.out
        (st.logs.filter fun r => decide (r.transferHostId = transferHostId))
        (st.getLogs o user taskId transferHostId size)) ↔
      AtBoundaries TransferLog.seq size
        (st.logs.filter fun r => decide (r.transferHostId = transferHostId)) := by
  obtain ⟨o₀, r, hr⟩ := hmay
  refine readsOnce_iff hsize ((hkeys.of_map _).filter _) (fun a ha b hb => TransferLog.out_inj ?_)
    fun o c => ?_
  · rw [of_decide_eq_true (List.mem_filter.mp ha).2, of_decide_eq_true (List.mem_filter.mp hb).2]
  · rw [TransferStore.getLogs, logPage_of_returns hr, List.length_map]

/-- **Logs are read once.** A reader who may read the log of a host gets every line once, in order,
however the database arranges lines of one number, exactly if at each boundary of a page as many
lines have a number up to the boundary as are to have been read. -/
theorem logs_read_once_iff (db : ExecDb) (logs : List ExecLog) (st : TransferStore) (user : Actor)
    (taskId hostId size : ℕ) (hsize : 0 < size) :
    ((logs.map fun r => (r.createdAt, r.taskHostId, r.seq)).Nodup →
      (∃ o r, db.getLogs logs o user taskId hostId size 0 = .ok r) →
      ((∀ o, ReadsOnce ExecLog.seq ExecLog.out
          (logs.filter fun r => decide (r.taskHostId = hostId))
          (db.getLogs logs o user taskId hostId size)) ↔
        AtBoundaries ExecLog.seq size (logs.filter fun r => decide (r.taskHostId = hostId)))) ∧
    ((st.logs.map fun r => (r.createdAt, r.transferHostId, r.seq)).Nodup →
      (∃ o r, st.getLogs o user taskId hostId size 0 = .ok r) →
      ((∀ o, ReadsOnce TransferLog.seq TransferLog.out
          (st.logs.filter fun r => decide (r.transferHostId = hostId))
          (st.getLogs o user taskId hostId size)) ↔
        AtBoundaries TransferLog.seq size
          (st.logs.filter fun r => decide (r.transferHostId = hostId)))) :=
  ⟨fun hkeys hmay => db.logs_once_iff hsize hkeys hmay,
    fun hkeys hmay => st.logs_once_iff hsize hkeys hmay⟩

end Readers

/-! ### The mock executor -/

/-- The lines that `_execute_via_mock` appends, each in a transaction of its own. -/
def mockLog (taskNo hostname content : String) (taskHostId : ℕ) (now : ℕ → ℚ) : List ExecLog :=
  let shown := String.ofList (content.toList.take 200)
  [⟨now 0, taskHostId, 1, "info", "[mock-agent] task " ++ taskNo ++ " started on " ++ hostname⟩,
    ⟨now 1, taskHostId, 2, "info",
      "[mock-agent] execute: " ++ if shown = "" then "(script)" else shown⟩,
    ⟨now 2, taskHostId, 3, "info", "[mock-agent] exit code 0"⟩]

theorem mockLog_atBoundaries (taskNo hostname content : String) (taskHostId : ℕ) (now : ℕ → ℚ)
    (size : ℕ) :
    AtBoundaries ExecLog.seq size (mockLog taskNo hostname content taskHostId now) := by
  intro k hk _
  have hk : k ≤ 3 := hk
  interval_cases k <;> rfl

/-- The user who reads the log in the examples. -/
def logReader : Actor := ⟨1, false, [], fun code => decide (code = "exec:task:log")⟩

/-- The log of one run of the mock executor is read once, in pages of two lines. -/
theorem mock_log_read_once :
    ReadsOnce ExecLog.seq ExecLog.out
      ((mockLog "T-1" "web-1" "uptime" 1 fun n => n).filter fun r => decide (r.taskHostId = 1))
      (twoHosts.getLogs (mockLog "T-1" "web-1" "uptime" 1 fun n => n) (.stable ExecLog.seq) logReader
        1 1 2) :=
  ((logs_read_once_iff twoHosts (mockLog "T-1" "web-1" "uptime" 1 fun n => n) ⟨[], [], []⟩ logReader
    1 1 2 (by decide)).1 (by decide +kernel) ⟨.stable ExecLog.seq, _, rfl⟩).mpr
      (mockLog_atBoundaries "T-1" "web-1" "uptime" 1 (fun n => n) 2) (.stable ExecLog.seq)

/-- The log of a host that ran twice. -/
def retriedLog : List ExecLog :=
  mockLog "T-1" "web-1" "uptime" 1 (fun n => n) ++ mockLog "T-1" "web-1" "uptime" 1 fun n => n + 10

/-- **A host that ran twice** in the mock executor has two lines of each number, and pages of two
lines leave some of them out. -/
theorem retried_log : ¬ ∀ o, ReadsOnce ExecLog.seq ExecLog.out
    (retriedLog.filter fun r => decide (r.taskHostId = 1))
    (twoHosts.getLogs retriedLog o logReader 1 1 2) := by
  intro h
  obtain ⟨o, -⟩ := exists_fixed ExecLog.seq []
  have hread := (ExecDb.logs_once_iff (by decide) (by decide +kernel) ⟨o, _, rfl⟩).mp h
  exact absurd (hread 2 (by decide) (.inl (by decide))) (by decide)

end LarkPlat
