import LarkPlat.SensitiveGate

/-!
# The Ssh Path and the Agent Path

A dispatch hands a started row to an agent, to the mock executor, or through `run_exec` to the ssh
executor. The agent path runs whatever content the task resolves to. The ssh path first passes two
gates: the approval of a task that requires one, and `detect_sensitive` once more, now on the
rendered content. The second gate does not ask whether the task was approved, so that an approved
sensitive task runs on agent hosts and is skipped on ssh hosts.

## Main results

* `detectSensitive_eq_false_iff`: what `detect_sensitive` lets pass.
* `ssh_path_agrees_iff`: an ssh row is executed as an agent row would be exactly if it is not
  pending or nothing sensitive is found at its dispatch.
* `approved_task_skipped_on_ssh`: an approved sensitive task is not executed on its ssh host.
-/

namespace LarkPlat

variable {lower : String → String} {env : DispatchEnv} {db : ExecDb} {taskId : ℕ}

/-! ### What the detector lets pass -/

/-- Nothing that the rules call sensitive: no word occurs in the command or the script body, and
the number of hosts is below the threshold. -/
structure Harmless (lower : String → String) (rules : ExecRules)
    (command scriptContent : Option String) (hostCount : ℕ) : Prop where
  words : ∀ w ∈ rules.words, w = "" ∨
    Text.occursIn (lower w) (lower (scannedText command scriptContent)) = false
  batch : ∀ t, rules.threshold = some t → t = 0 ∨ hostCount < t

/-- The words that are found are none exactly if each word is empty or does not occur. -/
theorem hitWords_eq_nil_iff (rules : ExecRules) (text : String) :
    rules.words.filter (hits lower text) = [] ↔
      ∀ w ∈ rules.words, w = "" ∨ Text.occursIn (lower w) (lower text) = false := by
  rw [List.filter_eq_nil_iff]
  refine forall₂_congr fun w _ => ?_
  by_cases hw : w = ""
  · simp [hits, hw]
  · simp [hits, hw]

/-- **The detector.** `detect_sensitive` answers no exactly on harmless inputs. -/
theorem detectSensitive_eq_false_iff (rules : ExecRules) (command scriptContent : Option String)
    (n : ℕ) : (detectSensitive lower rules command scriptContent n).1 = false ↔
      Harmless lower rules command scriptContent n := by
  have hwords := @hitWords_eq_nil_iff lower rules (scannedText command scriptContent)
  constructor
  · intro h
    simp only [detectSensitive, Bool.not_eq_false', List.isEmpty_iff, List.append_eq_nil_iff] at h
    refine ⟨hwords.mp ?_, ?_⟩
    · by_contra hne
      rw [if_neg hne] at h
      exact List.cons_ne_nil _ _ h.1
    · intro t ht
      rcases t with _ | t
      · exact Or.inl rfl
      · refine Or.inr (Nat.lt_of_not_le fun hle => ?_)
        simp [ht, hle] at h
  · rintro ⟨hw, hb⟩
    have hempty := hwords.mpr hw
    have hbatch : ∀ t, rules.threshold = some (t + 1) → ¬ t + 1 ≤ n := by
      intro t ht hle
      rcases hb (t + 1) ht with h0 | hlt
      · cases h0
      · exact absurd hlt (Nat.not_lt.mpr hle)
    simp only [detectSensitive, hempty, List.isEmpty_nil, if_true, List.nil_append]
    rcases ht : rules.threshold with _ | _ | t
    · rfl
    · rfl
    · simp [hbatch t ht]

/-! ### Executed rows -/

/-- A request of the task was approved, if the task requires one. -/
def Cleared (db : ExecDb) (task : ExecTask) : Prop :=
  task.approveRequired = true →
    ∃ a, task.approvalId.bind db.approval? = some a ∧ a.status = .approved

/-- A dispatch of the task hands the content of the row to an executor. -/
def Executes (lower : String → String) (env : DispatchEnv) (db : ExecDb) (taskId row : ℕ)
    (content : String) : Prop :=
  ∃ h ∈ (execDispatch lower env db taskId).2, h.taskHostId = row ∧ h.content = content

instance (lower : String → String) (env : DispatchEnv) (db : ExecDb) (taskId row : ℕ)
    (content : String) : Decidable (Executes lower env db taskId row content) :=
  inferInstanceAs (Decidable (∃ h ∈ (execDispatch lower env db taskId).2,
    h.taskHostId = row ∧ h.content = content))

/-- The same row with the executor `agent`. -/
def ExecTaskHost.asAgent (th : ExecTaskHost) : ExecTaskHost := { th with executor := "agent" }

/-- The tables in which the row has the executor `agent`. -/
def ExecDb.withAgent (db : ExecDb) (row : ℕ) : ExecDb := db.setTaskHost row ExecTaskHost.asAgent

/-- The row is executed, with the content of the task, in exactly the dispatches in which it would
be with the executor `agent`. -/
def SamePath (lower : String → String) (db : ExecDb) (task : ExecTask) (row : ℕ) : Prop :=
  ∀ env, Executes lower env db task.id row (resolveContent db task) ↔
    Executes lower env (db.withAgent row) task.id row (resolveContent db task)

theorem executes_iff {task : ExecTask} (ht : db.task? taskId = some task)
    (hrun : task.status = .running) {row : ℕ} :
    Executes lower env db taskId row (resolveContent db task) ↔
      ∃ th ∈ startedRows env (db.hostsOfTask taskId), th.id = row ∧
        (handOver lower env db task (resolveContent db task)
          (db.hostsOfTask taskId).length th).1.isSome = true := by
  unfold Executes execDispatch
  rw [ht]
  simp only [hrun, if_true]
  split_ifs with hempty
  · rw [List.isEmpty_iff.mp hempty]
    simp
  · constructor
    · rintro ⟨h, hmem, hrow, -⟩
      obtain ⟨th, hth, hvia⟩ := List.mem_filterMap.mp hmem
      obtain ⟨via, hsome, rfl⟩ := Option.map_eq_some_iff.mp hvia
      exact ⟨th, hth, hrow, by rw [hsome]; rfl⟩
    · rintro ⟨th, hth, hrow, hsome⟩
      obtain ⟨via, hvia⟩ := Option.isSome_iff_exists.mp hsome
      refine ⟨⟨db, taskId, th.id, via, resolveContent db task⟩,
        List.mem_filterMap.mpr ⟨th, hth, ?_⟩, hrow, rfl⟩
      rw [hvia]
      rfl

theorem startedRows_withAgent (env : DispatchEnv) (db : ExecDb) (taskId row : ℕ) :
    startedRows env ((db.withAgent row).hostsOfTask taskId) =
      (startedRows env (db.hostsOfTask taskId)).map
        fun th => if th.id = row then th.asAgent else th := by
  have hid : ∀ th : ExecTaskHost, (if th.id = row then th.asAgent else th).id = th.id := by
    intro th
    split_ifs <;> rfl
  have hst : ∀ th : ExecTaskHost,
      (if th.id = row then th.asAgent else th).status = th.status := by
    intro th
    split_ifs <;> rfl
  have htask : ∀ th : ExecTaskHost,
      (if th.id = row then th.asAgent else th).execTaskId = th.execTaskId := by
    intro th
    split_ifs <;> rfl
  unfold startedRows ExecDb.hostsOfTask ExecDb.withAgent ExecDb.setTaskHost Table.modify
  dsimp only
  rw [List.filter_map, List.filter_map, List.takeWhile_map]
  simp only [Function.comp_def, hid, hst, htask]

/-- Every started row of a dispatch with an agent executor is executed: by the agent, or by the
mock executor. -/
theorem handOver_asAgent (task : ExecTask) (content : String) (n : ℕ) (th : ExecTaskHost) :
    (handOver lower env db task content n th.asAgent).1.isSome = true := by
  have hssh : th.asAgent.executor ≠ "ssh" := by
    simp [ExecTaskHost.asAgent]
  unfold handOver
  rw [if_neg hssh]
  split_ifs <;> rfl

/-- A started row with the executor `ssh` is executed if the gates of `run_exec` let it pass. -/
theorem handOver_ssh {task : ExecTask} {content : String} {n : ℕ} {th : ExecTaskHost}
    (hssh : th.executor = "ssh") :
    (handOver lower env db task content n th).1.isSome = sshGate lower db task content n := by
  unfold handOver
  rw [if_pos hssh]
  rcases hg : sshGate lower db task content n with _ | _ <;> rfl

/-- A cleared task passes the gates of `run_exec` exactly if nothing sensitive is found. -/
theorem sshGate_iff {task : ExecTask} (hclear : Cleared db task) (content : String) (n : ℕ) :
    sshGate lower db task content n = true ↔
      Harmless lower db.rules task.command (some content) n := by
  have happroved : (!task.approveRequired ||
      (task.approvalId.bind db.approval?).any fun a => decide (a.status = .approved)) = true := by
    rcases hreq : task.approveRequired with _ | _
    · rfl
    · obtain ⟨a, ha, hst⟩ := hclear hreq
      rw [ha]
      simp [hst]
  rw [← detectSensitive_eq_false_iff, sshGate, happroved, Bool.true_and, Bool.not_eq_true']

/-! ### The two paths -/

/-- A dispatch that gets every permit. -/
def openEnv : DispatchEnv :=
  { now := 0, sshAvailable := true, brokerUp := true, acquires := fun _ => true,
    agentAccepts := fun _ => false, sshSucceeds := fun _ => true }

section Paths

variable {task : ExecTask} {th : ExecTaskHost}

theorem started_unique (hkeys : (db.taskHosts.map ExecTaskHost.id).Nodup)
    (hth : th ∈ db.hostsOfTask taskId) {th' : ExecTaskHost}
    (hth' : th' ∈ startedRows env (db.hostsOfTask taskId)) (hid : th'.id = th.id) : th' = th := by
  have hrow : th' ∈ db.hostsOfTask taskId :=
    (List.mem_filter.mp ((List.takeWhile_sublist _).subset hth')).1
  exact List.inj_on_of_nodup_map hkeys (List.mem_filter.mp hrow).1 (List.mem_filter.mp hth).1 hid

/-- An ssh row of a cleared task is executed if it is started and nothing sensitive is found. -/
theorem executes_ssh_iff (hkeys : (db.taskHosts.map ExecTaskHost.id).Nodup)
    (ht : db.task? task.id = some task) (hrun : task.status = .running)
    (hclear : Cleared db task) (hth : th ∈ db.hostsOfTask task.id) (hssh : th.executor = "ssh") :
    Executes lower env db task.id th.id (resolveContent db task) ↔
      th ∈ startedRows env (db.hostsOfTask task.id) ∧ Harmless lower db.rules task.command
        (some (resolveContent db task)) (db.hostsOfTask task.id).length := by
  rw [executes_iff ht hrun, ← sshGate_iff hclear]
  constructor
  · rintro ⟨th', hth', hid, hsome⟩
    obtain rfl := started_unique hkeys hth hth' hid
    exact ⟨hth', (handOver_ssh hssh).symm.trans hsome⟩
  · rintro ⟨hstarted, hgate⟩
    exact ⟨th, hstarted, rfl, (handOver_ssh hssh).trans hgate⟩

/-- With the executor `agent` the row is executed whenever it is started. -/
theorem executes_withAgent_iff (hkeys : (db.taskHosts.map ExecTaskHost.id).Nodup)
    (ht : db.task? task.id = some task) (hrun : task.status = .running)
    (hth : th ∈ db.hostsOfTask task.id) :
    Executes lower env (db.withAgent th.id) task.id th.id (resolveContent db task) ↔
      th ∈ startedRows env (db.hostsOfTask task.id) := by
  have htask : (db.withAgent th.id).task? task.id = some task := ht
  have hsame : resolveContent db task = resolveContent (db.withAgent th.id) task := rfl
  rw [hsame, executes_iff htask hrun, startedRows_withAgent]
  constructor
  · rintro ⟨th', hth', hid, -⟩
    obtain ⟨th₀, hth₀, rfl⟩ := List.mem_map.mp hth'
    have hid₀ : th₀.id = th.id := by
      by_cases h : th₀.id = th.id
      · exact h
      · rwa [if_neg h] at hid
    rw [← started_unique hkeys hth hth₀ hid₀]
    exact hth₀
  · intro hstarted
    refine ⟨th.asAgent, List.mem_map.mpr ⟨th, hstarted, if_pos rfl⟩, rfl, ?_⟩
    exact handOver_asAgent task _ _ th

end Paths

/-- **The two paths.** For a running task that is cleared, an ssh row is executed exactly when an
agent row would be if and only if the row is not pending or nothing sensitive is found in the
command, the rendered content and the number of hosts at the dispatch. -/
theorem ssh_path_agrees_iff (lower : String → String) (db : ExecDb) (task : ExecTask)
    (th : ExecTaskHost) (hkeys : (db.taskHosts.map ExecTaskHost.id).Nodup)
    (ht : db.task? task.id = some task) (hrun : task.status = .running)
    (hclear : Cleared db task) (hth : th ∈ db.hostsOfTask task.id)
    (hssh : th.executor = "ssh") :
    SamePath lower db task th.id ↔
      (th.status = .pending → Harmless lower db.rules task.command
        (some (resolveContent db task)) (db.hostsOfTask task.id).length) := by
  constructor
  · intro hsame hpend
    have hstarted : th ∈ startedRows openEnv (db.hostsOfTask task.id) := by
      rw [startedRows_of_acquires fun _ => rfl]
      exact List.mem_filter.mpr ⟨hth, by simpa using hpend⟩
    have hagent := (@executes_withAgent_iff lower _ _ _ _ hkeys ht hrun hth).mpr hstarted
    have hexecuted := (hsame openEnv).mpr hagent
    exact ((executes_ssh_iff hkeys ht hrun hclear hth hssh).mp hexecuted).2
  · intro hharm env
    rw [executes_ssh_iff hkeys ht hrun hclear hth hssh, executes_withAgent_iff hkeys ht hrun hth]
    refine and_iff_left_of_imp fun hstarted => hharm ?_
    exact of_decide_eq_true
      (List.mem_filter.mp ((List.takeWhile_sublist _).subset hstarted)).2

/-- One ssh host, and one sensitive word. -/
def sshHost : ExecDb := ExecDb.fresh [⟨1, some 1, "ssh", none⟩] ⟨["reboot"], none, false⟩

/-- The tables after a creation on the ssh host. -/
def sshCreated (command : String) : ExecDb :=
  match createExecTaskRecord id openEnv.toExecEnv sshHost
    { demoSpec with command := some command } none with
  | .ok (db, _) => db
  | .error _ => sshHost

/-- The tables after the approval of the first request. -/
def sshApproved (command : String) : ExecDb :=
  ((approve openEnv.toExecEnv (sshCreated command) 2 1).toOption).getD (sshCreated command)

/-- The task on the ssh host, as these tables hold it. -/
def sshTask (db : ExecDb) : ExecTask := (db.task? 1).getD (newTask sshHost demoSpec false)

/-- The host row of that task. -/
def sshRow (db : ExecDb) : ExecTaskHost :=
  (db.hostsOfTask 1).headD ⟨0, 0, 0, "", .pending, none, none, none⟩

/-- A harmless command runs on the ssh host as it would through an agent. -/
theorem ssh_path_agrees_uptime :
    SamePath id (sshCreated "uptime") (sshTask (sshCreated "uptime"))
      (sshRow (sshCreated "uptime")).id :=
  (ssh_path_agrees_iff id (sshCreated "uptime") (sshTask (sshCreated "uptime"))
    (sshRow (sshCreated "uptime")) (by decide +kernel) (by decide +kernel) (by decide +kernel)
    (fun hreq => absurd hreq (by decide +kernel)) (by decide +kernel) (by decide +kernel)).mpr
    fun _ => (detectSensitive_eq_false_iff _ _ _ _).mp (by decide +kernel)

/-- **An approved task on an ssh host.** The creation of a sensitive command and its approval leave
a running, cleared task; its dispatch starts the ssh row and does not execute it, and would execute
it with the executor `agent`. -/
theorem approved_task_skipped_on_ssh :
    (sshTask (sshApproved "reboot")).status = .running ∧
      (sshApproved "reboot").approvals.map (·.status) = [.approved] ∧
      (sshRow (sshApproved "reboot")).executor = "ssh" ∧
      ¬ SamePath id (sshApproved "reboot") (sshTask (sshApproved "reboot"))
        (sshRow (sshApproved "reboot")).id := by
  refine ⟨by decide +kernel, by decide +kernel, by decide +kernel, ?_⟩
  intro hsame
  have hagent : Executes id openEnv ((sshApproved "reboot").withAgent
      (sshRow (sshApproved "reboot")).id) (sshTask (sshApproved "reboot")).id
      (sshRow (sshApproved "reboot")).id
      (resolveContent (sshApproved "reboot") (sshTask (sshApproved "reboot"))) := by
    decide +kernel
  exact absurd ((hsame openEnv).mpr hagent) (by decide +kernel)

end LarkPlat
