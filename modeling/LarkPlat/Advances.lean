import LarkPlat.EngineMoves

/-!
# The Ways a Node Advances

`_advance_running` and `_advance_waiting` are case distinctions over node types, links and
answers of other services. `Advanced` lists their outcomes once, with what each of them
knows about the node, and `stepRunning_advanced` and `stepWaiting_advanced` say that the loops
of a step do nothing else.

## Main results

* `stepRunning_advanced`, `stepWaiting_advanced`: a visit leaves the session as it is, or
  advances a node in flight in one of the listed ways.
* `createExecTask_eq_ok`: the commits of the creation of a task.
* `loop_invariant`: what every visit preserves, the loops of a step preserve.
-/

namespace LarkPlat

variable {env : StepEnv} {d : Json} {w w' : Work} {n n' : WorkflowNodeRun}

/-- What a poll finds: a missing task fails the node, an ended one ends it, and a running one
resumes it. -/
theorem pollExecTask_cases {taskId : ℕ} (h : pollExecTask env w n taskId = some n') :
    (seenStatus w taskId = none ∧ ∃ t, n' = fail t "engine_restart" "engine_restart" n) ∨
      (∃ st, seenStatus w taskId = some st ∧ st.terminal = true ∧
        ∃ t, n' = succeed t [("exec_task_id", .int taskId)] n ∨
          n' = fail t "exec_task_failed" "exec_task_failed" n) ∨
      seenStatus w taskId = some .running ∧ n' = { n with status := .running } := by
  unfold pollExecTask at h
  dsimp only at h
  split at h
  · rename_i hst
    exact Or.inl ⟨hst, _, (Option.some.inj h).symm⟩
  · rename_i hst
    exact Or.inr (Or.inl ⟨_, hst, rfl, _, Or.inl (Option.some.inj h).symm⟩)
  · rename_i hst
    exact Or.inr (Or.inl ⟨_, hst, rfl, _, Or.inl (Option.some.inj h).symm⟩)
  · rename_i hst
    exact Or.inr (Or.inl ⟨_, hst, rfl, _, Or.inr (Option.some.inj h).symm⟩)
  · rename_i hst
    exact Or.inr (Or.inl ⟨_, hst, rfl, _, Or.inr (Option.some.inj h).symm⟩)
  · rename_i hst
    exact Or.inr (Or.inl ⟨_, hst, rfl, _, Or.inr (Option.some.inj h).symm⟩)
  · rename_i hst
    split_ifs at h
    exact Or.inr (Or.inr ⟨hst, (Option.some.inj h).symm⟩)
  · cases h

theorem approvalDecision_cases (h : approvalDecision env w n = some n') :
    ∃ id a, n.approvalId = some id ∧ w.cur.exec.approval? id = some a ∧ a.status ≠ .pending ∧
      ∃ t, n' = succeed t [] n ∨ n' = fail t "approval_rejected" "approval_rejected" n := by
  rw [approvalDecision] at h
  obtain ⟨a, hfind, ha⟩ := Option.bind_eq_some_iff.mp h
  obtain ⟨id, hid, hfound⟩ := Option.bind_eq_some_iff.mp hfind
  refine ⟨id, a, hid, hfound, ?_⟩
  split at ha
  · rename_i hst
    exact ⟨by rw [hst]; exact ApprovalStatus.noConfusion, _, Or.inl (Option.some.inj ha).symm⟩
  · rename_i hst
    exact ⟨by rw [hst]; exact ApprovalStatus.noConfusion, _, Or.inr (Option.some.inj ha).symm⟩
  · rename_i hst
    exact ⟨by rw [hst]; exact ApprovalStatus.noConfusion, _, Or.inr (Option.some.inj ha).symm⟩
  · cases ha

theorem pollExecTask_links {taskId : ℕ} (h : pollExecTask env w n taskId = some n') :
    n'.nodeKey = n.nodeKey ∧ n'.nodeType = n.nodeType ∧ n'.execTaskId = n.execTaskId ∧
      n'.approvalId = n.approvalId ∧ n'.status ≠ .waiting ∧ n'.status ≠ .pending := by
  obtain ⟨-, t, rfl⟩ | ⟨st, -, -, t, rfl | rfl⟩ | ⟨-, rfl⟩ := pollExecTask_cases h
  all_goals exact ⟨rfl, rfl, rfl, rfl, NodeStatus.noConfusion, NodeStatus.noConfusion⟩

theorem approvalDecision_links (h : approvalDecision env w n = some n') :
    n'.nodeKey = n.nodeKey ∧ n'.nodeType = n.nodeType ∧ n'.execTaskId = n.execTaskId ∧
      n'.approvalId = n.approvalId ∧ n'.status ≠ .waiting ∧ n'.status ≠ .pending := by
  obtain ⟨id, a, -, -, -, t, rfl | rfl⟩ := approvalDecision_cases h
  all_goals exact ⟨rfl, rfl, rfl, rfl, NodeStatus.noConfusion, NodeStatus.noConfusion⟩

/-- The session after the advancement of a node. -/
inductive Advanced (env : StepEnv) (d : Json) (w : Work) (n : WorkflowNodeRun) : Work → Prop where
  | idle : Advanced env d w n w
  /-- The timeout of a timer, or of any waiting node. -/
  | timeout (hkind : n.status = .waiting ∨ n.nodeType = .sleep ∨ n.nodeType = .wait)
      (hout : timedOut env n (defnode d n.nodeKey) d = .ok true) :
      Advanced env d w n (w.put (fail (env.clock n.nodeKey 2) "timeout" "timeout" n))
  | due (htype : n.nodeType = .sleep ∨ n.nodeType = .wait) :
      Advanced env d w n (w.put (succeed (env.clock n.nodeKey 2) [] n))
  | callback (htype : n.nodeType = .callback) :
      Advanced env d w n (w.put (enterWaitingCallback env w.cur.run.id n))
  | approval {w' : Work} (htype : n.nodeType = .manualApproval) (hnone : n.approvalId = none)
      (h : createApproval env w n = .ok w') : Advanced env d w n w'
  | task {w' : Work} (htype : n.nodeType = .execTask) (hnone : n.execTaskId = none)
      (h : createExecTask env w n (defnode d n.nodeKey) = .ok w') : Advanced env d w n w'
  | poll {taskId : ℕ} {n' : WorkflowNodeRun} (htype : n.nodeType = .execTask)
      (hlink : n.execTaskId = some taskId) (h : pollExecTask env w n taskId = some n') :
      Advanced env d w n (w.put n')
  | decision {n' : WorkflowNodeRun} (htype : n.nodeType = .manualApproval)
      (h : approvalDecision env w n = some n') : Advanced env d w n (w.put n')

theorem advanceRunning_advanced (h : advanceRunning env d w n = .ok w') :
    Advanced env d w n w' := by
  -- the timer branch is one computation for both types
  have htimer : n.nodeType = .sleep ∨ n.nodeType = .wait → ((do
        if ← timedOut env n (defnode d n.nodeKey) d then
          pure (w.put (fail (env.clock n.nodeKey 2) "timeout" "timeout" n))
        else if ← dueReached env (← cfg (defnode d n.nodeKey)) n then
          pure (w.put (succeed (env.clock n.nodeKey 2) [] n))
        else pure w) : Except PyErr Work) = .ok w' → Advanced env d w n w' := by
    intro htype hx
    obtain ⟨late, hlate, hx⟩ := bind_eq_ok.mp hx
    split_ifs at hx with hl
    · obtain rfl := Except.ok.inj hx
      exact .timeout (Or.inr htype) (hl ▸ hlate)
    · obtain ⟨c, -, hx⟩ := bind_eq_ok.mp hx
      obtain ⟨due, -, hx⟩ := bind_eq_ok.mp hx
      split_ifs at hx
      · obtain rfl := Except.ok.inj hx
        exact .due htype
      · obtain rfl := Except.ok.inj hx
        exact .idle
  unfold advanceRunning at h
  dsimp only at h
  split at h
  · rename_i htype
    exact htimer (Or.inl htype) h
  · rename_i htype
    exact htimer (Or.inr htype) h
  · rename_i htype
    obtain rfl := Except.ok.inj h
    exact .callback htype
  · rename_i htype
    split at h
    · rename_i hnone
      exact .approval htype hnone h
    · obtain rfl := Except.ok.inj h
      exact .idle
  · rename_i htype
    split at h
    · rename_i hnone
      exact .task htype hnone h
    · rename_i taskId hlink
      obtain rfl := Except.ok.inj h
      rcases hp : pollExecTask env w n taskId with _ | n'
      · exact .idle
      · exact .poll htype hlink hp

theorem expireWaiting_advanced (hst : n.status = .waiting)
    (h : expireWaiting env d w n = .ok w') : Advanced env d w n w' := by
  rw [expireWaiting] at h
  obtain ⟨late, hlate, h⟩ := bind_eq_ok.mp h
  split_ifs at h with hl
  · obtain rfl := Except.ok.inj h
    exact .timeout (Or.inl hst) (hl ▸ hlate)
  · obtain rfl := Except.ok.inj h
    exact .idle

theorem advanceWaiting_advanced (hst : n.status = .waiting)
    (h : advanceWaiting env d w n = .ok w') : Advanced env d w n w' := by
  unfold advanceWaiting at h
  split at h
  · rename_i htype
    split at h
    · rename_i n' hp
      obtain rfl := Except.ok.inj h
      obtain ⟨taskId, hlink, hpoll⟩ := Option.bind_eq_some_iff.mp hp
      exact .poll htype hlink hpoll
    · exact expireWaiting_advanced hst h
  · rename_i htype
    split at h
    · rename_i n' hp
      obtain rfl := Except.ok.inj h
      exact .decision htype hp
    · exact expireWaiting_advanced hst h
  · exact expireWaiting_advanced hst h

/-- **A visit of the second loop.** -/
theorem stepRunning_advanced (h : stepRunning env d w n = .ok w') :
    w' = w ∨ n.status = .running ∧ Advanced env d w n w' := by
  unfold stepRunning at h
  split_ifs at h with hc
  · exact Or.inr ⟨hc.1, advanceRunning_advanced h⟩
  · exact Or.inl (Except.ok.inj h).symm

/-- **A visit of the third loop.** -/
theorem stepWaiting_advanced (h : stepWaiting env d w n = .ok w') :
    w' = w ∨ n.status = .waiting ∧ Advanced env d w n w' := by
  unfold stepWaiting at h
  split_ifs at h with hst
  · exact Or.inr ⟨hst, advanceWaiting_advanced hst h⟩
  · exact Or.inl (Except.ok.inj h).symm

/-! ### The creation of a task -/

/-- The row of a node that was linked to its new task, and waits for it if it is sensitive. -/
def linkedRow (env : StepEnv) (n : WorkflowNodeRun) (c : Created) : WorkflowNodeRun :=
  if c.approveRequired then
    { n with
      execTaskId := some c.id
      approvalId := c.approvalId
      startedAt := n.startedAt.or (some (env.clock n.nodeKey 0))
      status := .waiting }
  else { n with execTaskId := some c.id }

theorem linkedRow_key (env : StepEnv) (n : WorkflowNodeRun) (c : Created) :
    (linkedRow env n c).nodeKey = n.nodeKey := by
  unfold linkedRow
  split_ifs <;> rfl

theorem linkedRow_execTaskId (env : StepEnv) (n : WorkflowNodeRun) (c : Created) :
    (linkedRow env n c).execTaskId = some c.id := by
  unfold linkedRow
  split_ifs <;> rfl

/-- The session after a creation that left the tables `exec`: the task is stored by a first
commit; its link is stored by a second one before the dispatch, or is left in the session of a
task that waits for its approval. -/
structure CreatesTask (env : StepEnv) (w : Work) (n : WorkflowNodeRun) (exec : ExecDb)
    (c : Created) (w' : Work) : Prop where
  inserted : w'.inserted = c.id :: w.inserted
  activated : w'.activated = w.activated
  rows : ∃ linked,
    linked = ({ w.cur with exec := exec } : RunState).setNode n.nodeKey
      (fun _ => linkedRow env n c) ∧
    if c.approveRequired then
      w'.cur = linked ∧ w'.commits = w.commits ++ [{ w.cur with exec := exec }]
    else
      w'.cur = { linked with exec := (execDispatch env.lower env.dispatch exec c.id).1 } ∧
        w'.commits = w.commits ++ [{ w.cur with exec := exec }, linked, w'.cur]

/-- What `_create_exec_task` does when it succeeds. -/
theorem createExecTask_eq_ok {dn : Json} (h : createExecTask env w n dn = .ok w') :
    ∃ spec exec c, cfg dn >>= (execSpec · w.cur.run n) = .ok spec ∧
      createExecTaskRecord env.lower env.dispatch.toExecEnv w.cur.exec spec env.policy =
        .ok (exec, c) ∧ CreatesTask env w n exec c w' := by
  rw [createExecTask] at h
  obtain ⟨c, hc, h⟩ := bind_eq_ok.mp h
  obtain ⟨spec, hspec, h⟩ := bind_eq_ok.mp h
  obtain ⟨⟨exec, created⟩, hcreate, h⟩ := bind_eq_ok.mp h
  refine ⟨spec, exec, created, bind_eq_ok.mpr ⟨c, hc, hspec⟩, hcreate, ?_⟩
  dsimp only at h
  split_ifs at h with happ
  · obtain rfl := Except.ok.inj h
    refine ⟨rfl, rfl, _, rfl, ?_⟩
    rw [if_pos happ, linkedRow, if_pos happ]
    exact ⟨rfl, rfl⟩
  · obtain rfl := Except.ok.inj h
    refine ⟨rfl, rfl, _, rfl, ?_⟩
    rw [if_neg happ, linkedRow, if_neg happ]
    exact ⟨rfl, by simp [Work.commit, Work.setExec, Work.put]⟩

/-! ### The loops -/

theorem commits_of_forNodes_error {f : Work → WorkflowNodeRun → Except PyErr Work} {k : String}
    {a : Aborted} (h : forNodes f w k = .error a) : a.commits = w.commits := by
  unfold forNodes at h
  split at h
  · cases h
  · split at h
    · obtain rfl := Except.error.inj h
      rfl
    · cases h

/-- A visit that returns leaves the session, or advances the node found under its key. -/
theorem forNodes_eq_ok {f : Work → WorkflowNodeRun → Except PyErr Work} {k : String}
    (h : forNodes f w k = .ok w') :
    w' = w ∨ ∃ n, n.nodeKey = k ∧ w.cur.node? n.nodeKey = some n ∧ f w n = .ok w' := by
  unfold forNodes at h
  split at h
  · exact Or.inl (Except.ok.inj h).symm
  · rename_i n hn
    have hkey : n.nodeKey = k := Table.key_of_find hn
    split at h
    · cases h
    · rename_i w₁ hw₁
      obtain rfl := Except.ok.inj h
      exact Or.inr ⟨n, hkey, hkey ▸ hn, hw₁⟩

/-- **What every visit preserves, a loop preserves**; and a loop that raises has committed what
some session with the property had committed. -/
theorem loop_invariant {P : Work → Prop} {f : Work → WorkflowNodeRun → Except PyErr Work}
    (hf : ∀ {w w' : Work} {n : WorkflowNodeRun}, P w → w.cur.node? n.nodeKey = some n →
      f w n = .ok w' → P w') (ks : List String) :
    ∀ w, P w → (∀ w', ks.foldlM (forNodes f) w = .ok w' → P w') ∧
      ∀ a, ks.foldlM (forNodes f) w = .error a → ∃ w₁, P w₁ ∧ a.commits = w₁.commits := by
  induction ks with
  | nil =>
      intro w hw
      refine ⟨fun w' h => ?_, fun a h => ?_⟩
      · obtain rfl : w = w' := Except.ok.inj h
        exact hw
      · exact absurd h (by simp [pure, Except.pure])
  | cons k ks ih =>
      intro w hw
      simp only [List.foldlM_cons, bind, Except.bind]
      rcases hk : forNodes f w k with a₀ | w₀
      · refine ⟨fun w' h => absurd h (by simp), fun a h => ?_⟩
        obtain rfl : a₀ = a := Except.error.inj h
        exact ⟨w, hw, commits_of_forNodes_error hk⟩
      · refine ih w₀ ?_
        rcases forNodes_eq_ok hk with rfl | ⟨n, -, hn, hstep⟩
        · exact hw
        · exact hf hw hn hstep

end LarkPlat
