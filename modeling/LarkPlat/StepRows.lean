import LarkPlat.StepVisits

/-!
# The Rows during a Step

What a step does to a node can be read off the rows before the step. `readable` says that the
configuration of a node can be read where the second loop reads it, `need` what the loop draws from
the database for it, and `awaiting` that the third loop will look at its timeout: the node waits and
its task or request is undecided, or it begins to wait in the second loop.

## Main results

* `stepRunning_visit`: what the second loop leaves of a node, by what it was before.
* `runningLoop_rows`: the second loop returns exactly if its nodes fit, and the rows after it.
* `started_reads`: the activation loop changes nothing that the second loop reads.
-/

namespace LarkPlat

variable {env : StepEnv} {d : Json} {s : RunState} {w w' w'' : Work} {n n' : WorkflowNodeRun}
  {exec exec' : ExecDb}

/-! ### What a visit of the second loop reads and draws -/

/-- The node was running before the step, so the second loop advances it. -/
def advances (w : Work) (n : WorkflowNodeRun) : Bool :=
  decide (n.status = .running ∧ n.nodeKey ∉ w.activated)

/-- What the visit of a node draws from the database: a request bound to an identifier of its
own, or a task, sensitive or not. -/
inductive Need
  | nothing
  | request (bizId : ℕ)
  | task (sensitive : Bool)
  deriving DecidableEq, Repr

/-- The node waits for what it drew. -/
def Need.waits : Need → Bool
  | .request _ | .task true => true
  | _ => false

/-- What the second loop draws for a node. -/
def need (env : StepEnv) (d : Json) (w : Work) (n : WorkflowNodeRun) : Need :=
  if advances w n then
    match n.nodeType with
    | .manualApproval =>
        if n.approvalId = none then .request (workflowApprovalBizOffset + n.id) else .nothing
    | .execTask =>
        if n.execTaskId = none then .task ((taskVerdict env d w n).toOption.getD false)
        else .nothing
    | _ => .nothing
  else .nothing

/-- The timeout and the due time of a timer can be read. -/
def timerReads (env : StepEnv) (d : Json) (n : WorkflowNodeRun) : Bool :=
  match timedOut env n (defnode d n.nodeKey) d with
  | .error _ => false
  | .ok true => true
  | .ok false => (cfg (defnode d n.nodeKey) >>= (dueReached env · n)).toOption.isSome

/-- What the second loop reads for a node can be read: the configuration of a timer, and
everything that the creation of a task needs. -/
def readable (env : StepEnv) (d : Json) (w : Work) (n : WorkflowNodeRun) : Bool :=
  if advances w n then
    match n.nodeType with
    | .sleep | .wait => timerReads env d n
    | .execTask => n.execTaskId.isSome || (taskVerdict env d w n).toOption.isSome
    | _ => true
  else true

/-- The third loop looks at the timeout of the node: it waits and is undecided, or it begins to
wait in the second loop. -/
def awaiting (env : StepEnv) (d : Json) (w : Work) (n : WorkflowNodeRun) : Bool :=
  match n.status with
  | .waiting => undecided env w n
  | .running =>
      (advances w n && decide (n.nodeType = .callback)) || (need env d w n).waits
  | _ => false

/-- The identifiers that are drawn for requests, from the next task identifier on. -/
def drawn : ℕ → List Need → List ℕ
  | _, [] => []
  | next, .nothing :: l => drawn next l
  | next, .request bizId :: l => bizId :: drawn next l
  | next, .task sensitive :: l => (if sensitive then [next] else []) ++ drawn (next + 1) l

/-- The number of tasks that are drawn. -/
def Need.tasks : Need → ℕ
  | .task _ => 1
  | _ => 0

section Follow

theorem creationVerdict_congr {lower : String → String} {spec : TaskSpec}
    (h : Grown exec exec') :
    creationVerdict lower exec' spec = creationVerdict lower exec spec := by
  have hhosts : ∀ ids, checkHosts exec' spec.visibleGroupIds ids =
      checkHosts exec spec.visibleGroupIds ids := by
    intro ids
    induction ids with
    | nil => rfl
    | cons hid rest ih =>
        have hhost : exec'.host? hid = exec.host? hid := by
          rw [ExecDb.host?, h.hosts, ExecDb.host?]
        rw [checkHosts, checkHosts, hhost, ih]
  have hbody : creationBody exec' spec = creationBody exec spec := by
    unfold creationBody ExecDb.script? ExecDb.scriptVersion?
    rw [h.scripts, h.scriptVersions]
  unfold creationVerdict
  rw [hhosts, hbody, h.rules]

theorem Follows.taskVerdict (h : Follows w w') :
    taskVerdict env d w' n = taskVerdict env d w n := by
  unfold LarkPlat.taskVerdict
  rw [h.run]
  congr 1
  funext spec
  exact creationVerdict_congr h.grown

theorem Follows.advances (h : Follows w w') : advances w' n = advances w n := by
  unfold LarkPlat.advances
  rw [h.activated]

theorem Follows.need (h : Follows w w') : need env d w' n = need env d w n := by
  unfold LarkPlat.need
  rw [h.advances, h.taskVerdict]

theorem Follows.readable (h : Follows w w') : readable env d w' n = readable env d w n := by
  unfold LarkPlat.readable
  rw [h.advances, h.taskVerdict]

theorem Follows.awaiting (h : Follows w w') (hl : Links w.cur.exec n) :
    awaiting env d w' n = awaiting env d w n := by
  unfold LarkPlat.awaiting
  rw [h.advances, h.need, h.undecided hl]

end Follow

/-! ### The second loop at one node -/

theorem timedOut_or (hkey : n'.nodeKey = n.nodeKey) (htype : n'.nodeType = n.nodeType)
    (hstart : n'.startedAt = n.startedAt.or (some (env.clock n.nodeKey 0))) (dn : Json) :
    timedOut env n' dn d = timedOut env n dn d := by
  have helapsed : elapsed (env.clock n.nodeKey 0) n' = elapsed (env.clock n.nodeKey 0) n := by
    unfold elapsed
    rw [hstart]
    rcases n.startedAt with _ | t
    · simp
    · rfl
  unfold timedOut
  rw [hkey, htype, helapsed]

/-- What the second loop leaves of a node, by what it was before. -/
structure Turned (env : StepEnv) (d : Json) (w : Work) (n : WorkflowNodeRun) (w' : Work)
    (n' : WorkflowNodeRun) : Prop where
  key : n'.nodeKey = n.nodeKey
  type : n'.nodeType = n.nodeType
  awaits : n'.status = .waiting ∧ undecided env w' n' = true ↔ awaiting env d w n = true
  timed : n'.status = .waiting → timedOut env n' (defnode d n.nodeKey) d =
    timedOut env n (defnode d n.nodeKey) d

theorem turned_of_not_waiting (hkey : n'.nodeKey = n.nodeKey) (htype : n'.nodeType = n.nodeType)
    (hst : n'.status ≠ .waiting) (haw : awaiting env d w n = false) : Turned env d w n w' n' where
  key := hkey
  type := htype
  awaits := by
    rw [haw]
    exact ⟨fun hc => absurd hc.1 hst, fun hc => by cases hc⟩
  timed hc := absurd hc hst

/-- The rows and identifiers after a visit of the second loop. -/
structure RunningVisit (env : StepEnv) (d : Json) (w : Work) (n : WorkflowNodeRun) (w' : Work)
    (n' : WorkflowNodeRun) : Prop where
  visit : Visit w n n' w'
  turned : Turned env d w n w' n'
  nextTask : w'.cur.exec.nextTask = w.cur.exec.nextTask + (need env d w n).tasks
  bizIds : w'.cur.exec.bizIds = w.cur.exec.bizIds ++ drawn w.cur.exec.nextTask [need env d w n]

/-- A visit that draws nothing and leaves the node out of `waiting`. -/
theorem runningVisit_put (hs : Stored w.cur) (hn : w.cur.node? n.nodeKey = some n)
    (hneed : need env d w n = .nothing) (hkey : n'.nodeKey = n.nodeKey)
    (htype : n'.nodeType = n.nodeType) (hst : n'.status ≠ .waiting)
    (haw : awaiting env d w n = false) (hl : Links w.cur.exec n') :
    RunningVisit env d w n (w.put n') n' := by
  refine ⟨visit_put hs hn hkey hl, turned_of_not_waiting hkey htype hst haw, ?_, ?_⟩
  · rw [hneed]
    rfl
  · rw [hneed]
    exact (List.append_nil _).symm

theorem runningVisit_refl (hs : Stored w.cur) (hn : w.cur.node? n.nodeKey = some n)
    (hneed : need env d w n = .nothing) (hturned : Turned env d w n w n) :
    RunningVisit env d w n w n := by
  refine ⟨visit_refl hs hn, hturned, ?_, ?_⟩
  · rw [hneed]
    rfl
  · rw [hneed]
    exact (List.append_nil _).symm

/-- A node that was linked to its new task: it waits if the task is sensitive. -/
theorem turned_linkedRow {c : Created} (htype : n.nodeType = .execTask) (hst : n.status = .running)
    (hmem : c.id ∈ w'.inserted) (hneed : need env d w n = .task c.approveRequired) :
    Turned env d w n w' (linkedRow env n c) := by
  have haw : awaiting env d w n = c.approveRequired := by
    unfold awaiting
    rw [hst, hneed, htype]
    cases c.approveRequired <;> simp [Need.waits]
  rcases hreq : c.approveRequired with _ | _
  · rw [hreq] at haw
    refine turned_of_not_waiting (linkedRow_key env n c) ?_ ?_ haw
    · rw [linkedRow, if_neg (by rw [hreq]; exact Bool.false_ne_true)]
    · rw [linkedRow, if_neg (by rw [hreq]; exact Bool.false_ne_true), hst]
      exact NodeStatus.noConfusion
  · have hrow : linkedRow env n c = { n with
        execTaskId := some c.id
        approvalId := c.approvalId
        startedAt := n.startedAt.or (some (env.clock n.nodeKey 0))
        status := .waiting } := if_pos hreq
    -- the session still sees the task as it was inserted
    have hseen : seenStatus w' c.id = some .created := if_pos hmem
    have hopen : undecided env w' (linkedRow env n c) = true := by
      rw [hrow]
      unfold undecided
      dsimp only
      rw [htype]
      dsimp only
      rw [Option.bind_some, pollExecTask, hseen]
      rfl
    rw [hrow] at hopen ⊢
    refine ⟨rfl, rfl, ?_, fun _ => timedOut_or (by rfl) (by rfl) (by rfl) _⟩
    rw [haw, hreq]
    exact ⟨fun _ => rfl, fun _ => ⟨rfl, hopen⟩⟩

section Types

variable (hs : Stored w.cur) (hn : w.cur.node? n.nodeKey = some n) (hadv : advances w n = true)

include hs hn hadv

theorem advanceRunning_timer (htype : n.nodeType = .sleep ∨ n.nodeType = .wait) :
    if timerReads env d n = true then
      ∃ w' n', advanceRunning env d w n = .ok w' ∧ RunningVisit env d w n w' n'
    else ∃ e, advanceRunning env d w n = .error e := by
  have hst : n.status = .running := (of_decide_eq_true hadv).1
  have hl := hs.links _ _ hn
  have hneed : need env d w n = .nothing := by
    unfold need
    rcases htype with htype | htype <;> rw [htype] <;> simp
  have haw : awaiting env d w n = false := by
    unfold awaiting
    rw [hst, hneed]
    rcases htype with htype | htype <;> rw [htype] <;> simp [Need.waits]
  have hbody : advanceRunning env d w n = (do
      if ← timedOut env n (defnode d n.nodeKey) d then
        pure (w.put (fail (env.clock n.nodeKey 2) "timeout" "timeout" n))
      else if ← dueReached env (← cfg (defnode d n.nodeKey)) n then
        pure (w.put (succeed (env.clock n.nodeKey 2) [] n))
      else pure w) := by
    unfold advanceRunning
    rcases htype with htype | htype <;> rw [htype]
  have hrun : n.status ≠ .waiting := by
    rw [hst]
    exact NodeStatus.noConfusion
  rw [hbody]
  unfold timerReads
  rcases hout : timedOut env n (defnode d n.nodeKey) d with e | late
  · exact ⟨e, rfl⟩
  cases late with
  | true =>
      refine ⟨_, _, rfl, runningVisit_put hs hn hneed rfl rfl NodeStatus.noConfusion haw ?_⟩
      exact hl.of_same rfl rfl rfl fun hc => by cases hc
  | false =>
      rcases hcfg : cfg (defnode d n.nodeKey) with e | conf
      · exact ⟨e, by simp [bind, Except.bind]⟩
      rcases hdue : dueReached env conf n with e | due
      · simp [bind, Except.bind, hdue, Except.toOption]
      cases due with
      | true =>
          have hput : RunningVisit env d w n
              (w.put (succeed (env.clock n.nodeKey 2) [] n)) (succeed (env.clock n.nodeKey 2) [] n) :=
            runningVisit_put hs hn hneed rfl rfl NodeStatus.noConfusion haw
              (hl.of_same rfl rfl rfl fun hc => by cases hc)
          simp only [bind, Except.bind, hdue, Except.toOption, Option.isSome_some, if_true]
          exact ⟨_, _, rfl, hput⟩
      | false =>
          simp only [bind, Except.bind, hdue, Except.toOption, Option.isSome_some, if_true]
          exact ⟨_, _, rfl, runningVisit_refl hs hn hneed
            (turned_of_not_waiting rfl rfl hrun haw)⟩

theorem advanceRunning_callback (htype : n.nodeType = .callback) :
    ∃ w' n', advanceRunning env d w n = .ok w' ∧ RunningVisit env d w n w' n' := by
  have hst : n.status = .running := (of_decide_eq_true hadv).1
  have hneed : need env d w n = .nothing := by
    unfold need
    rw [htype]
    simp
  have hbody : advanceRunning env d w n = .ok (w.put (enterWaitingCallback env w.cur.run.id n)) := by
    unfold advanceRunning
    rw [htype]
  have hlinks : Links w.cur.exec (enterWaitingCallback env w.cur.run.id n) :=
    (hs.links _ _ hn).of_same rfl rfl rfl fun hc => by cases hc
  refine ⟨_, _, hbody, visit_put hs hn rfl hlinks, ⟨rfl, rfl, ?_, ?_⟩, ?_, ?_⟩
  · have hopen : undecided env (w.put (enterWaitingCallback env w.cur.run.id n))
        (enterWaitingCallback env w.cur.run.id n) = true := by
      unfold undecided
      rw [show (enterWaitingCallback env w.cur.run.id n).nodeType = .callback from htype]
    have haw : awaiting env d w n = true := by
      unfold awaiting
      rw [hst, hadv, htype]
      rfl
    rw [haw]
    exact ⟨fun _ => rfl, fun _ => ⟨rfl, hopen⟩⟩
  · intro _
    exact timedOut_or (by rfl) (by rfl) (by rfl) _
  · rw [hneed]
    rfl
  · rw [hneed]
    exact (List.append_nil _).symm

theorem advanceRunning_approval (htype : n.nodeType = .manualApproval) :
    if ∀ id ∈ drawn w.cur.exec.nextTask [need env d w n], id ∉ w.cur.exec.bizIds then
      ∃ w' n', advanceRunning env d w n = .ok w' ∧ RunningVisit env d w n w' n'
    else ∃ e, advanceRunning env d w n = .error e := by
  have hst : n.status = .running := (of_decide_eq_true hadv).1
  have hrun : n.status ≠ .waiting := by
    rw [hst]
    exact NodeStatus.noConfusion
  rcases happ : n.approvalId with _ | aid
  · have hneed : need env d w n = .request (workflowApprovalBizOffset + n.id) := by
      unfold need
      rw [hadv, htype, happ]
      rfl
    have hbody : advanceRunning env d w n = createApproval env w n := by
      unfold advanceRunning
      rw [htype]
      dsimp only
      rw [happ]
    have haw : awaiting env d w n = true := by
      unfold awaiting
      rw [hst, hneed]
      simp [Need.waits]
    have hiff : (∀ id ∈ drawn w.cur.exec.nextTask [need env d w n], id ∉ w.cur.exec.bizIds) ↔
        workflowApprovalBizOffset + n.id ∉ w.cur.exec.bizIds := by
      rw [hneed]
      simp [drawn]
    have hcreate := @createApproval_visit env w n hs hn htype
    rw [hbody, if_congr hiff rfl rfl]
    split_ifs at hcreate with htaken
    · rw [if_neg (not_not.mpr htaken)]
      exact ⟨_, hcreate⟩
    · rw [if_pos htaken]
      obtain ⟨w', n', hok, hvisit, htype', hst', hstart, hdec, hnext, hbiz⟩ := hcreate
      have hkey : n'.nodeKey = n.nodeKey := Table.key_of_find hvisit.wrote.node
      refine ⟨w', n', hok, hvisit, ⟨hkey, htype'.trans htype.symm, ?_, ?_⟩, ?_, ?_⟩
      · have hopen : undecided env w' n' = true := by
          unfold undecided
          rw [htype', hdec]
          rfl
        rw [haw]
        exact ⟨fun _ => rfl, fun _ => ⟨hst', hopen⟩⟩
      · intro _
        exact timedOut_or hkey (htype'.trans htype.symm) hstart _
      · rw [hneed]
        exact hnext
      · rw [hneed]
        exact hbiz
  · have hneed : need env d w n = .nothing := by
      unfold need
      rw [hadv, htype, happ]
      rfl
    have hbody : advanceRunning env d w n = .ok w := by
      unfold advanceRunning
      rw [htype]
      dsimp only
      rw [happ]
    have haw : awaiting env d w n = false := by
      unfold awaiting
      rw [hst, hneed, htype]
      simp [Need.waits]
    rw [hbody, hneed, if_pos (by simp [drawn])]
    exact ⟨w, n, rfl, runningVisit_refl hs hn hneed (turned_of_not_waiting rfl rfl hrun haw)⟩

/-- An `exec_task` node creates its task, or polls it. -/
theorem advanceRunning_task (htype : n.nodeType = .execTask) :
    if (n.execTaskId.isSome || (taskVerdict env d w n).toOption.isSome) = true ∧
        ∀ id ∈ drawn w.cur.exec.nextTask [need env d w n], id ∉ w.cur.exec.bizIds then
      ∃ w' n', advanceRunning env d w n = .ok w' ∧ RunningVisit env d w n w' n'
    else ∃ e, advanceRunning env d w n = .error e := by
  have hst : n.status = .running := (of_decide_eq_true hadv).1
  have hrun : n.status ≠ .waiting := by
    rw [hst]
    exact NodeStatus.noConfusion
  rcases htask : n.execTaskId with _ | taskId
  · have hbody : advanceRunning env d w n = createExecTask env w n (defnode d n.nodeKey) := by
      unfold advanceRunning
      rw [htype]
      dsimp only
      rw [htask]
    have hneed : need env d w n = .task ((taskVerdict env d w n).toOption.getD false) := by
      unfold need
      rw [hadv, htype, htask]
      rfl
    have hcreate := @createExecTask_visit env d w n hs hn htype htask hst
    rw [hbody]
    split at hcreate
    · rename_i e hverdict
      rw [hverdict, if_neg (by simp [Except.toOption])]
      exact ⟨e, hcreate⟩
    · rename_i sensitive hverdict
      rw [hverdict, Except.toOption, Option.getD_some] at hneed
      have hdrawn : drawn w.cur.exec.nextTask [need env d w n] =
          if sensitive then [w.cur.exec.nextTask] else [] := by
        rw [hneed]
        exact List.append_nil _
      have hiff : ((none : Option ℕ).isSome ||
          (taskVerdict env d w n).toOption.isSome) = true ∧
            (∀ id ∈ drawn w.cur.exec.nextTask [need env d w n], id ∉ w.cur.exec.bizIds) ↔
          ¬ (sensitive = true ∧ w.cur.exec.nextTask ∈ w.cur.exec.bizIds) := by
        rw [hverdict, hdrawn]
        cases sensitive <;> simp [Except.toOption]
      rw [if_congr hiff rfl rfl]
      by_cases htaken : sensitive = true ∧ w.cur.exec.nextTask ∈ w.cur.exec.bizIds
      · rw [if_pos htaken] at hcreate
        rw [if_neg (not_not.mpr htaken)]
        exact ⟨_, hcreate⟩
      · rw [if_neg htaken] at hcreate
        rw [if_pos htaken]
        obtain ⟨w', c, hok, hvisit, hreq, hmem, hnext, hbiz⟩ := hcreate
        refine ⟨w', _, hok, hvisit, ?_, ?_, ?_⟩
        · refine turned_linkedRow htype hst hmem ?_
          rw [hneed, hreq]
        · rw [hneed]
          exact hnext
        · rw [hdrawn]
          exact hbiz
  · have hneed : need env d w n = .nothing := by
      unfold need
      rw [hadv, htype, htask]
      rfl
    have haw : awaiting env d w n = false := by
      unfold awaiting
      rw [hst, hneed, htype]
      simp [Need.waits]
    have hbody : advanceRunning env d w n =
        .ok ((pollExecTask env w n taskId).elim w w.put) := by
      unfold advanceRunning
      rw [htype]
      dsimp only
      rw [htask]
    rw [hbody, hneed, if_pos (by simp [drawn])]
    rcases hpoll : pollExecTask env w n taskId with _ | n'
    · exact ⟨w, n, rfl, runningVisit_refl hs hn hneed (turned_of_not_waiting rfl rfl hrun haw)⟩
    · obtain ⟨hkey, htype', hlink, happ, hwait, hpend⟩ := pollExecTask_links hpoll
      refine ⟨_, n', rfl, runningVisit_put hs hn hneed hkey htype' hwait haw ?_⟩
      exact (hs.links _ _ hn).of_same htype' hlink happ fun hc => absurd hc hpend

end Types

/-- What the second loop reads for the node can be read, and the identifier that it draws is
free. -/
def FitsOne (env : StepEnv) (d : Json) (w : Work) (n : WorkflowNodeRun) : Prop :=
  readable env d w n = true ∧
    ∀ id ∈ drawn w.cur.exec.nextTask [need env d w n], id ∉ w.cur.exec.bizIds

theorem FitsOne.of_ite {C P Q : Prop} [Decidable C] (h : if C then P else Q)
    (hiff : FitsOne env d w n ↔ C) :
    (FitsOne env d w n → P) ∧ (¬ FitsOne env d w n → Q) := by
  constructor
  · intro hf
    rw [if_pos (hiff.mp hf)] at h
    exact h
  · intro hf
    rw [if_neg fun hc => hf (hiff.mpr hc)] at h
    exact h

theorem fitsOne_of_nothing (h : need env d w n = .nothing) :
    FitsOne env d w n ↔ readable env d w n = true := by
  unfold FitsOne
  rw [h]
  exact and_iff_left fun id hid => by cases hid

/-- **The second loop at one node** returns exactly if the node fits. -/
theorem stepRunning_visit (hs : Stored w.cur) (hn : w.cur.node? n.nodeKey = some n) :
    (FitsOne env d w n →
      ∃ w' n', stepRunning env d w n = .ok w' ∧ RunningVisit env d w n w' n') ∧
    (¬ FitsOne env d w n → ∃ e, stepRunning env d w n = .error e) := by
  by_cases hadv : advances w n = true
  · have hbody : stepRunning env d w n = advanceRunning env d w n :=
      if_pos (of_decide_eq_true hadv)
    rw [hbody]
    cases htype : n.nodeType with
    | sleep =>
        refine FitsOne.of_ite (advanceRunning_timer hs hn hadv (Or.inl htype)) ?_
        rw [fitsOne_of_nothing (by rw [need, htype]; simp), readable, if_pos hadv, htype]
    | wait =>
        refine FitsOne.of_ite (advanceRunning_timer hs hn hadv (Or.inr htype)) ?_
        rw [fitsOne_of_nothing (by rw [need, htype]; simp), readable, if_pos hadv, htype]
    | callback =>
        have hfits : FitsOne env d w n := by
          rw [fitsOne_of_nothing (by rw [need, htype]; simp), readable, if_pos hadv, htype]
        exact ⟨fun _ => advanceRunning_callback hs hn hadv htype, fun hc => absurd hfits hc⟩
    | manualApproval =>
        refine FitsOne.of_ite (advanceRunning_approval hs hn hadv htype) ?_
        rw [FitsOne, readable, if_pos hadv, htype]
        exact and_iff_right rfl
    | execTask =>
        refine FitsOne.of_ite (advanceRunning_task hs hn hadv htype) ?_
        rw [FitsOne, readable, if_pos hadv, htype]
  · have hbody : stepRunning env d w n = .ok w :=
      if_neg fun hc => hadv (decide_eq_true hc)
    rw [Bool.not_eq_true] at hadv
    have hneed : need env d w n = .nothing := by
      unfold need
      rw [hadv]
      rfl
    have hfits : FitsOne env d w n := by
      rw [fitsOne_of_nothing hneed, readable, hadv]
      rfl
    rw [hbody]
    refine ⟨fun _ => ?_, fun hc => absurd hfits hc⟩
    refine ⟨w, n, rfl, runningVisit_refl hs hn hneed ⟨rfl, rfl, ?_, fun _ => rfl⟩⟩
    unfold awaiting
    rw [hadv, hneed]
    cases hst : n.status <;> simp [Need.waits]

/-! ### The second loop -/

/-- The identifiers are distinct and none of them is taken. -/
def Unclaimed (taken l : List ℕ) : Prop := l.Nodup ∧ ∀ id ∈ l, id ∉ taken

instance (taken l : List ℕ) : Decidable (Unclaimed taken l) :=
  inferInstanceAs (Decidable (l.Nodup ∧ ∀ id ∈ l, id ∉ taken))

theorem unclaimed_append {taken l l' : List ℕ} :
    Unclaimed taken (l ++ l') ↔ Unclaimed taken l ∧ Unclaimed (taken ++ l) l' := by
  unfold Unclaimed
  rw [List.nodup_append]
  constructor
  · rintro ⟨⟨hl, hl', hdis⟩, hfree⟩
    refine ⟨⟨hl, fun id hid => hfree id (List.mem_append_left _ hid)⟩, hl', ?_⟩
    intro id hid hc
    rcases List.mem_append.mp hc with hc | hc
    · exact hfree id (List.mem_append_right _ hid) hc
    · exact hdis id hc id hid rfl
  · rintro ⟨⟨hl, hfree⟩, hl', hfree'⟩
    refine ⟨⟨hl, hl', ?_⟩, ?_⟩
    · rintro a ha b hb rfl
      exact hfree' a hb (List.mem_append_right _ ha)
    · intro id hid hc
      rcases List.mem_append.mp hid with hid | hid
      · exact hfree id hid hc
      · exact hfree' id hid (List.mem_append_left _ hc)

theorem drawn_cons (next : ℕ) (x : Need) (l : List Need) :
    drawn next (x :: l) = drawn next [x] ++ drawn (next + x.tasks) l := by
  cases x with
  | nothing => rfl
  | request bizId => rfl
  | task sensitive =>
      show _ = ((if sensitive then [next] else []) ++ []) ++ drawn (next + 1) l
      rw [List.append_nil]
      rfl

theorem unclaimed_single {taken : List ℕ} {next : ℕ} {x : Need} :
    Unclaimed taken (drawn next [x]) ↔ ∀ id ∈ drawn next [x], id ∉ taken := by
  refine and_iff_right ?_
  cases x with
  | nothing => exact List.nodup_nil
  | request bizId => exact List.nodup_singleton bizId
  | task sensitive =>
      cases sensitive with
      | false => exact List.nodup_nil
      | true => exact List.nodup_singleton next

/-- What the nodes of a list of keys draw, in the order of the loop. -/
def needs (env : StepEnv) (d : Json) (w : Work) (ks : List String) : List Need :=
  ks.filterMap fun k => (w.cur.node? k).map (need env d w)

/-- Everything that the second loop reads can be read, and the identifiers that it draws are
free. -/
def Fits (env : StepEnv) (d : Json) (w : Work) (ks : List String) : Prop :=
  (∀ k ∈ ks, ∀ n, w.cur.node? k = some n → readable env d w n = true) ∧
    Unclaimed w.cur.exec.bizIds (drawn w.cur.exec.nextTask (needs env d w ks))

theorem fits_nil : Fits env d w [] :=
  ⟨(fun _ hk => by cases hk), List.nodup_nil, (fun _ hid => by cases hid)⟩

theorem fits_cons_none {k : String} {ks : List String} (hn : w.cur.node? k = none) :
    Fits env d w (k :: ks) ↔ Fits env d w ks := by
  have hneeds : needs env d w (k :: ks) = needs env d w ks := by
    unfold needs
    rw [List.filterMap_cons, hn]
    rfl
  unfold Fits
  rw [hneeds, List.forall_mem_cons, hn]
  exact and_congr_left' (and_iff_right fun n hc => by cases hc)

theorem fits_cons {ks : List String} (hn : w.cur.node? n.nodeKey = some n) :
    Fits env d w (n.nodeKey :: ks) ↔ FitsOne env d w n ∧
      (∀ j ∈ ks, ∀ m, w.cur.node? j = some m → readable env d w m = true) ∧
        Unclaimed (w.cur.exec.bizIds ++ drawn w.cur.exec.nextTask [need env d w n])
          (drawn (w.cur.exec.nextTask + (need env d w n).tasks) (needs env d w ks)) := by
  have hneeds : needs env d w (n.nodeKey :: ks) = need env d w n :: needs env d w ks := by
    unfold needs
    rw [List.filterMap_cons, hn]
    rfl
  unfold Fits FitsOne
  rw [hneeds, drawn_cons, unclaimed_append, unclaimed_single, List.forall_mem_cons, hn]
  constructor
  · rintro ⟨⟨hread, hreads⟩, hfree, hfrees⟩
    exact ⟨⟨hread n rfl, hfree⟩, hreads, hfrees⟩
  · rintro ⟨⟨hread, hfree⟩, hreads, hfrees⟩
    refine ⟨⟨?_, hreads⟩, hfree, hfrees⟩
    rintro m hm
    obtain rfl := Option.some.inj hm
    exact hread

theorem RunningVisit.fits_cons {ks : List String} (hv : RunningVisit env d w n w' n')
    (hn : w.cur.node? n.nodeKey = some n) (hk : n.nodeKey ∉ ks) :
    Fits env d w (n.nodeKey :: ks) ↔ FitsOne env d w n ∧ Fits env d w' ks := by
  have hf : Follows w w' := hv.visit.follows
  have hrow : ∀ j ∈ ks, w'.cur.node? j = w.cur.node? j := by
    intro j hj
    refine hv.visit.wrote.other j ?_
    rintro rfl
    exact hk hj
  have hneeds : needs env d w' ks = needs env d w ks := by
    unfold needs
    refine List.filterMap_congr fun j hj => ?_
    rw [hrow j hj]
    congr 1
    funext m
    exact hf.need
  have hreads : (∀ j ∈ ks, ∀ m, w'.cur.node? j = some m → readable env d w' m = true) ↔
      ∀ j ∈ ks, ∀ m, w.cur.node? j = some m → readable env d w m = true := by
    refine forall₂_congr fun j hj => ?_
    rw [hrow j hj]
    simp only [hf.readable]
  rw [LarkPlat.fits_cons hn, Fits, hv.bizIds, hv.nextTask, hneeds, hreads]

theorem Turned.later {w₁ : Work} (h : Turned env d w n w₁ n') (hf : Follows w₁ w')
    (hl : Links w₁.cur.exec n') : Turned env d w n w' n' := by
  refine ⟨h.key, h.type, ?_, h.timed⟩
  rw [hf.undecided hl]
  exact h.awaits

theorem Turned.earlier {w₁ : Work} (h : Turned env d w₁ n w' n') (hf : Follows w w₁)
    (hl : Links w.cur.exec n) : Turned env d w n w' n' := by
  refine ⟨h.key, h.type, ?_, h.timed⟩
  rw [← hf.awaiting hl]
  exact h.awaits

/-- The rows after the second loop. -/
structure RunningRows (env : StepEnv) (d : Json) (ks : List String) (w w' : Work) : Prop where
  follows : Follows w w'
  stored : Stored w'.cur
  keys : w'.cur.keys = w.cur.keys
  other : ∀ k, k ∉ ks → w'.cur.node? k = w.cur.node? k
  rows : ∀ k ∈ ks, ∀ n, w.cur.node? k = some n →
    ∃ n', w'.cur.node? k = some n' ∧ Turned env d w n w' n'

theorem RunningRows.cons {ks : List String} {w₀ : Work} {n₀ : WorkflowNodeRun}
    (hrows : RunningRows env d ks w₀ w') (hv : RunningVisit env d w n w₀ n₀) (hs : Stored w.cur)
    (hn : w.cur.node? n.nodeKey = some n) (hk : n.nodeKey ∉ ks) :
    RunningRows env d (n.nodeKey :: ks) w w' := by
  have hf : Follows w w₀ := hv.visit.follows
  refine ⟨hf.trans hrows.follows, hrows.stored, hrows.keys.trans hv.visit.wrote.keys, ?_, ?_⟩
  · intro j hj
    rw [hrows.other j fun hc => hj (List.mem_cons_of_mem _ hc)]
    refine hv.visit.wrote.other j ?_
    rintro rfl
    exact hj List.mem_cons_self
  · intro j hj m hm
    rcases List.mem_cons.mp hj with rfl | hj
    · obtain rfl := Option.some.inj (hn.symm.trans hm)
      refine ⟨n₀, (hrows.other _ hk).trans hv.visit.wrote.node, ?_⟩
      exact hv.turned.later hrows.follows hv.visit.wrote.links
    · have hrow : w₀.cur.node? j = w.cur.node? j := by
        refine hv.visit.wrote.other j ?_
        rintro rfl
        exact hk hj
      obtain ⟨m', hm', hturned⟩ := hrows.rows j hj m (hrow.trans hm)
      exact ⟨m', hm', hturned.earlier hf (hs.links j m hm)⟩

/-- **The second loop** returns exactly if its nodes fit. -/
theorem runningLoop_rows (ks : List String) : ∀ w : Work, ks.Nodup → Stored w.cur →
    (Fits env d w ks → ∃ w', ks.foldlM (forNodes (stepRunning env d)) w = .ok w' ∧
      RunningRows env d ks w w') ∧
    (¬ Fits env d w ks → ∃ a, ks.foldlM (forNodes (stepRunning env d)) w = .error a) := by
  induction ks with
  | nil =>
      intro w _ hs
      refine ⟨fun _ => ?_, fun hc => absurd fits_nil hc⟩
      exact ⟨w, rfl, Follows.refl w, hs, rfl, fun _ _ => rfl, (fun _ hk => by cases hk)⟩
  | cons k ks ih =>
      intro w hnodup hs
      obtain ⟨hk, hks⟩ := List.nodup_cons.mp hnodup
      simp only [List.foldlM_cons, bind, Except.bind]
      rcases hn : w.cur.node? k with _ | n
      · -- the loop passes over a key without a row
        have hpass : forNodes (stepRunning env d) w k = .ok w := by
          unfold forNodes
          rw [hn]
        rw [hpass, fits_cons_none hn]
        refine ⟨fun hfits => ?_, (ih w hks hs).2⟩
        obtain ⟨w', hok, hrows⟩ := (ih w hks hs).1 hfits
        refine ⟨w', hok, hrows.follows, hrows.stored, hrows.keys, ?_, ?_⟩
        · intro j hj
          exact hrows.other j fun hc => hj (List.mem_cons_of_mem k hc)
        · intro j hj n hjn
          rcases List.mem_cons.mp hj with rfl | hj
          · cases hn.symm.trans hjn
          · exact hrows.rows j hj n hjn
      · obtain rfl : n.nodeKey = k := Table.key_of_find hn
        obtain ⟨hfit, hmisfit⟩ := @stepRunning_visit env d w n hs hn
        by_cases hone : FitsOne env d w n
        · obtain ⟨w₀, n₀, hok, hv⟩ := hfit hone
          have hpass : forNodes (stepRunning env d) w n.nodeKey = .ok w₀ := by
            unfold forNodes
            rw [hn]
            dsimp only
            rw [hok]
          obtain ⟨hih, hih'⟩ := ih w₀ hks (hv.visit.wrote.stored hs)
          rw [hpass, hv.fits_cons hn hk, and_iff_right hone]
          refine ⟨fun hfits => ?_, hih'⟩
          obtain ⟨w', hok', hrows⟩ := hih hfits
          exact ⟨w', hok', hrows.cons hv hs hn hk⟩
        · obtain ⟨e, he⟩ := hmisfit hone
          have hraise : forNodes (stepRunning env d) w n.nodeKey = .error ⟨w.commits, e⟩ := by
            unfold forNodes
            rw [hn]
            dsimp only
            rw [he]
          rw [hraise]
          exact ⟨fun hfits => absurd ((fits_cons hn).mp hfits).1 hone, fun _ => ⟨_, rfl⟩⟩

end LarkPlat