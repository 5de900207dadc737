import LarkPlat.StepReturns

/-!
# Work behind Finished Nodes

A node links to the exec task that it created and to the request that it waits for. Nodes end in
five ways: their task has ended, their request was decided, they time out while they run, they time
out while they wait, or their run is cancelled. Only the cancellation of an `exec_task` node ends
the work behind the node. The timeout of a waiting node writes the node row and nothing else, and
the cancellation of a run leaves the request of a `manual_approval` node pending.

`Platform` is the machine of one run together with the services around it: the calls on the run, and
the complete calls on tasks and requests by anyone.

## Main results

* `Clean.apply`: every call keeps the links in order, and closed work stays closed under the
  condition `LeavesNoOrphan`.
* `finished_nodes_closed`: no work is orphaned in a history of calls that meet the condition.
* `timeout_orphans_request`: a node that timed out leaves a request that can be approved.
-/

namespace LarkPlat

variable {env : StepEnv} {d : Json} {s s' : RunState} {w w' : Work} {n n' : WorkflowNodeRun}
  {exec exec' : ExecDb} {strict : Prop}

/-! ### Closed work -/

/-- The work behind a node is closed: its task, if it has one, has ended, and its request, if it
has one, is not pending. -/
structure Closed (exec : ExecDb) (n : WorkflowNodeRun) : Prop where
  task : ∀ id t, n.execTaskId = some id → exec.task? id = some t → t.status.terminal = true
  approval : ∀ id a, n.approvalId = some id → exec.approval? id = some a → a.status ≠ .pending

theorem Closed.of_same (h : Closed exec n) (htask : n'.execTaskId = n.execTaskId)
    (happ : n'.approvalId = n.approvalId) : Closed exec n' where
  task id t hid ht := h.task id t (htask ▸ hid) ht
  approval id a hid ha := h.approval id a (happ ▸ hid) ha

theorem Closed.carries {reopened : List ℕ} (h : Closed exec n) (hl : Links exec n)
    (hc : CarriesOver reopened exec exec')
    (hopen : ∀ id, n.execTaskId = some id → id ∉ reopened) : Closed exec' n where
  task id t' hid ht' := by
    rcases ht : exec.task? id with _ | t
    · rw [hc.task_none id (hl.task_lt id hid) ht] at ht'
      cases ht'
    · obtain ⟨t₁, ht₁, hterm⟩ := hc.ended id t ht (h.task id t hid ht) (hopen id hid)
      obtain rfl := Option.some.inj (ht₁.symm.trans ht')
      exact hterm
  approval id a' hid ha' := by
    rcases ha : exec.approval? id with _ | a
    · rw [hc.approval_none id (hl.approval_lt id hid) ha] at ha'
      cases ha'
    · obtain ⟨a₁, ha₁, -, -, hdec⟩ := hc.decided id a ha
      obtain rfl := Option.some.inj (ha₁.symm.trans ha')
      exact hdec (h.approval id a hid ha)

theorem closed_of_no_links (htask : n.execTaskId = none) (happ : n.approvalId = none) :
    Closed exec n where
  task id t hid _ := by cases htask.symm.trans hid
  approval id a hid _ := by cases happ.symm.trans hid

/-- The request of an `exec_task` node is not pending once its task has ended: a pending request
has a task that awaits it. -/
theorem closed_of_task_ended (hk : Kept exec) (hl : Links exec n) (htype : n.nodeType = .execTask)
    (hend : ∀ id t, n.execTaskId = some id → exec.task? id = some t → t.status.terminal = true) :
    Closed exec n where
  task := hend
  approval aid a haid ha := by
    intro hpend
    obtain ⟨id, hid, hbound⟩ := hl.mirrored htype aid haid
    obtain ⟨hbiz, rfl⟩ := hbound a ha
    obtain ⟨t, ht, hst, -⟩ := hk.awaits aid a ha hbiz hpend
    have hterm := hend a.bizId t hid ht
    rw [hst] at hterm
    cases hterm

/-- A `manual_approval` node with a decided request. -/
theorem closed_of_decided {aid : ℕ} {a : ApprovalRequest} (hl : Links exec n)
    (htype : n.nodeType = .manualApproval) (haid : n.approvalId = some aid)
    (ha : exec.approval? aid = some a) (hst : a.status ≠ .pending) : Closed exec n where
  task id t hid _ := by
    have htask := hl.task_type (by rw [hid]; simp)
    rw [htype] at htask
    cases htask
  approval aid' a' haid' ha' := by
    obtain rfl := Option.some.inj (haid.symm.trans haid')
    obtain rfl := Option.some.inj (ha.symm.trans ha')
    exact hst

theorem closed_of_poll {taskId : ℕ} (hs : Stored w.cur) (hn : w.cur.node? n.nodeKey = some n)
    (htype : n.nodeType = .execTask) (hlink : n.execTaskId = some taskId)
    (h : pollExecTask env w n taskId = some n') (hterm : n'.status.terminal = true) :
    Closed w.cur.exec n' := by
  have hl := hs.links _ _ hn
  obtain ⟨hkey, htype', hlink', happ, hwait, hpend⟩ := pollExecTask_links h
  have hend : ∀ t, w.cur.exec.task? taskId = some t → t.status.terminal = true := by
    intro t ht
    -- the session sees the stored status, since a new task is seen as `created`
    have hseen : ∀ st, st ≠ .created → seenStatus w taskId = some st → t.status = st := by
      intro st hst hsee
      unfold seenStatus at hsee
      split_ifs at hsee
      · exact absurd (Option.some.inj hsee).symm hst
      · rw [ht] at hsee
        exact Option.some.inj hsee
    obtain ⟨hnone, -⟩ | ⟨st, hst, hend, -⟩ | ⟨-, rfl⟩ := pollExecTask_cases h
    · unfold seenStatus at hnone
      split_ifs at hnone
      rw [ht] at hnone
      cases hnone
    · rw [hseen st ?_ hst]
      · exact hend
      · rintro rfl
        cases hend
    · cases hterm
  have hclosed : Closed w.cur.exec n := by
    refine closed_of_task_ended hs.kept hl htype ?_
    intro id t hid ht
    obtain rfl := Option.some.inj (hlink.symm.trans hid)
    exact hend t ht
  exact hclosed.of_same hlink' happ

theorem closed_of_decision (hs : Stored w.cur) (hn : w.cur.node? n.nodeKey = some n)
    (htype : n.nodeType = .manualApproval) (h : approvalDecision env w n = some n') :
    Closed w.cur.exec n' := by
  obtain ⟨-, -, htask, happ, -, -⟩ := approvalDecision_links h
  obtain ⟨aid, a, haid, ha, hst, -⟩ := approvalDecision_cases h
  exact (closed_of_decided (hs.links _ _ hn) htype haid ha hst).of_same htask happ

/-! ### Clean rows -/

/-- The links are in order, and under the condition `strict` the work behind every ended node is
closed. -/
structure Clean (strict : Prop) (s : RunState) : Prop where
  stored : Stored s
  closed : strict → ∀ k n, s.node? k = some n → n.status.terminal = true → Closed s.exec n

theorem Clean.congr (h : Clean strict s) (hnodes : s'.nodes = s.nodes)
    (hexec : s'.exec = s.exec) : Clean strict s' := by
  have hnode : ∀ k, s'.node? k = s.node? k := by
    intro k
    rw [RunState.node?, hnodes, RunState.node?]
  refine ⟨⟨?_, ?_, ?_⟩, ?_⟩
  · rw [RunState.keys, hnodes]
    exact h.stored.nodup
  · rw [hexec]
    exact h.stored.kept
  · intro k n hn
    rw [hexec]
    exact h.stored.links k n ((hnode k).symm.trans hn)
  · intro hstrict k n hn
    rw [hexec]
    exact h.closed hstrict k n ((hnode k).symm.trans hn)

/-- The session and everything it has committed are clean. -/
structure CleanWork (strict : Prop) (w : Work) : Prop where
  cur : Clean strict w.cur
  commits : ∀ c ∈ w.commits, Clean strict c

/-- A write of one node row keeps the rows clean, if the node does not end or its work is
closed. -/
theorem Wrote.clean {m : WorkflowNodeRun} {c : RunState} (h : Wrote w n m c)
    (hw : Clean strict w.cur) (hend : strict → m.status.terminal = true → Closed c.exec m) :
    Clean strict c := by
  refine ⟨h.stored hw.stored, ?_⟩
  intro hstrict k n₀ hn₀ hterm
  by_cases hk : k = n.nodeKey
  · subst hk
    obtain rfl := Option.some.inj (h.node.symm.trans hn₀)
    exact hend hstrict hterm
  · rw [h.other k hk] at hn₀
    refine (hw.closed hstrict k n₀ hn₀ hterm).carries (hw.stored.links k n₀ hn₀)
      (@Grown.carries _ _ [] h.grown hw.stored.kept) ?_
    exact fun _ _ => List.not_mem_nil

theorem Visit.clean (hv : Visit w n n' w') (hw : CleanWork strict w)
    (hopen : n.status.terminal = false)
    (hend : strict → n'.status.terminal = true → Closed w'.cur.exec n') : CleanWork strict w' where
  cur := hv.wrote.clean hw.cur hend
  commits c hc := by
    rcases hv.commits c hc with hc | ⟨m, hwrote, hst⟩
    · exact hw.commits c hc
    · refine hwrote.clean hw.cur fun _ hterm => ?_
      rw [hst, hopen] at hterm
      cases hterm

/-! ### The loops -/

theorem eq_of_node?_put {m : WorkflowNodeRun} (hn : w.cur.node? n.nodeKey = some n)
    (hn' : (w.put m).cur.node? n.nodeKey = some n') (hkey : m.nodeKey = n.nodeKey) : n' = m := by
  have hcur : (w.put m).cur = w.cur.setNode n.nodeKey fun _ => m := by rw [← hkey]; rfl
  rw [hcur, node?_write_self hn hkey] at hn'
  exact (Option.some.inj hn').symm

theorem Advanced.closed (h : Advanced env d w n w') (hs : Stored w.cur)
    (hn : w.cur.node? n.nodeKey = some n) (hst : n.status = .running)
    (hn' : w'.cur.node? n.nodeKey = some n') (hterm : n'.status.terminal = true) :
    Closed w'.cur.exec n' := by
  have hl := hs.links _ _ hn
  -- a timer has no links
  have htimer : n.nodeType = .sleep ∨ n.nodeType = .wait →
      n.execTaskId = none ∧ n.approvalId = none := by
    rintro (htype | htype) <;>
      exact hl.none_of_type (by rw [htype]; exact NodeType.noConfusion)
        (by rw [htype]; exact NodeType.noConfusion)
  cases h with
  | idle =>
      obtain rfl := Option.some.inj (hn.symm.trans hn')
      rw [hst] at hterm
      cases hterm
  | timeout hkind hout =>
      obtain rfl := eq_of_node?_put hn hn' rfl
      rcases hkind with hwait | htype
      · cases hst.symm.trans hwait
      · exact closed_of_no_links (htimer htype).1 (htimer htype).2
  | due htype =>
      obtain rfl := eq_of_node?_put hn hn' rfl
      exact closed_of_no_links (htimer htype).1 (htimer htype).2
  | callback htype =>
      obtain rfl := eq_of_node?_put hn hn' rfl
      cases hterm
  | approval htype hnone h =>
      have hcreate := @createApproval_visit env w n hs hn htype
      split_ifs at hcreate
      · cases hcreate.symm.trans h
      · obtain ⟨w₁, n₁, hok, hvisit, -, hst₁, -⟩ := hcreate
        obtain rfl := Except.ok.inj (hok.symm.trans h)
        obtain rfl := Option.some.inj (hvisit.wrote.node.symm.trans hn')
        rw [hst₁] at hterm
        cases hterm
  | task htype hnone h =>
      obtain ⟨spec, exec, c, -, hrec, htask⟩ := createExecTask_eq_ok h
      obtain ⟨hvisit, -⟩ := htask.visit (creates_of_ok hs.kept hrec) hs hn htype hnone hst
      obtain rfl := Option.some.inj (hvisit.wrote.node.symm.trans hn')
      unfold linkedRow at hterm
      split_ifs at hterm
      · cases hterm
      · rw [show ({ n with execTaskId := some c.id } : WorkflowNodeRun).status = .running from hst]
          at hterm
        cases hterm
  | poll htype hlink h =>
      obtain ⟨hkey, -⟩ := pollExecTask_links h
      obtain rfl := eq_of_node?_put hn hn' hkey
      have hclosed : Closed w.cur.exec _ := closed_of_poll hs hn htype hlink h hterm
      exact hclosed
  | decision htype h =>
      obtain ⟨hkey, -⟩ := approvalDecision_links h
      obtain rfl := eq_of_node?_put hn hn' hkey
      have hclosed : Closed w.cur.exec _ := closed_of_decision hs hn htype h
      exact hclosed

theorem stepRunning_clean (hw : CleanWork strict w) (hn : w.cur.node? n.nodeKey = some n)
    (h : stepRunning env d w n = .ok w') : CleanWork strict w' := by
  rcases stepRunning_advanced h with rfl | ⟨hst, hadv⟩
  · exact hw
  obtain ⟨hfit, hmisfit⟩ := @stepRunning_visit env d w n hw.cur.stored hn
  by_cases hone : FitsOne env d w n
  · obtain ⟨w₁, n', hok, hv⟩ := hfit hone
    obtain rfl := Except.ok.inj (hok.symm.trans h)
    refine hv.visit.clean hw (by rw [hst]; rfl) fun _ hterm => ?_
    exact hadv.closed hw.cur.stored hn hst hv.visit.wrote.node hterm
  · obtain ⟨e, he⟩ := hmisfit hone
    cases he.symm.trans h

/-- The types of node that link to tasks and requests. -/
def NodeType.links : NodeType → Bool
  | .execTask | .manualApproval => true
  | _ => false

/-- The timeout of a node that awaits a task or a request has not passed. -/
def InTime (env : StepEnv) (d : Json) (n : WorkflowNodeRun) : Prop :=
  n.nodeType.links = true → timedOut env n (defnode d n.nodeKey) d ≠ .ok true

instance (env : StepEnv) (d : Json) (n : WorkflowNodeRun) : Decidable (InTime env d n) :=
  inferInstanceAs (Decidable (_ → _ ≠ _))

/-- No node that the third loop finds undecided is late. -/
def NoneLate (env : StepEnv) (d : Json) (w : Work) : Prop :=
  ∀ k n, w.cur.node? k = some n → n.status = .waiting → undecided env w n = true → InTime env d n

theorem stepWaiting_clean (hw : CleanWork strict w) (hn : w.cur.node? n.nodeKey = some n)
    (hlate : strict → NoneLate env d w) (h : stepWaiting env d w n = .ok w') :
    CleanWork strict w' := by
  have hs := hw.cur.stored
  have hl := hs.links _ _ hn
  unfold stepWaiting at h
  split_ifs at h with hst
  swap
  · obtain rfl := Except.ok.inj h
    exact hw
  have hopen : n.status.terminal = false := by
    rw [hst]
    rfl
  rcases hund : undecided env w n with _ | _
  · obtain ⟨n', hok, hdec⟩ := @advanceWaiting_of_decided env d w n hund
    obtain rfl := Except.ok.inj (hok.symm.trans h)
    obtain ⟨hkey, htype, htask, happ, -, hpend⟩ := hdec.links
    refine (visit_put hs hn hkey ?_).clean hw hopen fun _ hterm => ?_
    · exact hl.of_same htype htask happ fun hc => absurd hc hpend
    · have hclosed : Closed w.cur.exec n' := by
        cases hdec with
        | task htype hlink hpoll => exact closed_of_poll hs hn htype hlink hpoll hterm
        | request htype hdecision => exact closed_of_decision hs hn htype hdecision
      exact hclosed
  · rw [advanceWaiting_of_undecided hund, expireWaiting] at h
    obtain ⟨late, hout, h⟩ := bind_eq_ok.mp h
    split_ifs at h with htrue
    · obtain rfl := Except.ok.inj h
      subst htrue
      have hlinks : Links w.cur.exec (fail (env.clock n.nodeKey 2) "timeout" "timeout" n) :=
        hl.of_same rfl rfl rfl fun hc => by cases hc
      refine (visit_put hs hn (by rfl) hlinks).clean hw hopen fun hstrict _ => ?_
      -- a late node is of another type, so it has no links
      have hnone : n.nodeType.links ≠ true := by
        intro hc
        exact hlate hstrict _ n hn hst hund hc hout
      obtain ⟨htask, happ⟩ := hl.none_of_type
        (fun hc => hnone (by rw [hc]; rfl)) (fun hc => hnone (by rw [hc]; rfl))
      exact closed_of_no_links htask happ
    · obtain rfl := Except.ok.inj h
      exact hw

theorem Released.noneLate (h : Released w n w') (hn : w.cur.node? n.nodeKey = some n)
    (hlate : NoneLate env d w) : NoneLate env d w' := by
  intro k m hm hst hund
  rw [h.undecided] at hund
  by_cases hk : k = n.nodeKey
  · subst hk
    obtain rfl | ⟨n', hkey, hst', rfl⟩ := h
    · exact hlate _ m hm hst hund
    · obtain rfl := eq_of_node?_put hn hm hkey
      exact absurd hst hst'
  · rw [h.node?_ne hn hk] at hm
    exact hlate k m hm hst hund

theorem Started.clean (h : Started w w') (hw : CleanWork strict w) : CleanWork strict w' where
  cur := by
    refine ⟨h.stored hw.cur.stored, ?_⟩
    intro hstrict k m hm hterm
    obtain ⟨-, hn'⟩ | ⟨n, n', hn, hn', hb⟩ := h.rows k
    · cases hn'.symm.trans hm
    obtain rfl := Option.some.inj (hn'.symm.trans hm)
    have hl := hw.cur.stored.links k n hn
    rw [h.exec]
    cases hb with
    | same _ => exact hw.cur.closed hstrict k n hn hterm
    | activated hst _ t => cases hterm
    | skipped hst t => exact closed_of_no_links (hl.pending hst).1 (hl.pending hst).2
  commits := by
    rw [h.commits]
    exact hw.commits

/-! ### The step -/

/-- No node that awaits a task or a request times out in the step. -/
def NoneTimesOut (env : StepEnv) (d : Json) (s : RunState) : Prop :=
  s.run.status.terminal = false →
    ∀ n ∈ s.nodes, awaiting env d (beginStep env s) n = true → InTime env d n

instance (env : StepEnv) (d : Json) (s : RunState) : Decidable (NoneTimesOut env d s) :=
  inferInstanceAs (Decidable (_ = _ → ∀ n ∈ s.nodes, _ → InTime env d n))

theorem RunningRows.noneLate {ks : List String} {w₀ : Work} (h : RunningRows env d ks w w')
    (hstarted : Started w₀ w) (hks : w₀.cur.keys = ks)
    (hlate : ∀ k n, w₀.cur.node? k = some n → awaiting env d w₀ n = true → InTime env d n) :
    NoneLate env d w' := by
  intro k n' hn' hst hund
  have hk : k ∈ w.cur.keys := by
    rw [← h.keys]
    exact List.mem_map.mpr ⟨n', Table.mem_of_find hn', Table.key_of_find hn'⟩
  have hmem : k ∈ ks := by
    rw [← hks, ← hstarted.keys]
    exact hk
  obtain ⟨n, hn⟩ := Table.exists_find_of_mem_keys hk
  obtain ⟨m, hm, ht⟩ := h.rows k hmem n hn
  obtain rfl := Option.some.inj (hn'.symm.trans hm)
  have haw : awaiting env d w n = true := ht.awaits.mp ⟨hst, hund⟩
  -- the row of the node before the activation loop
  obtain ⟨-, hnone⟩ | ⟨n₀, n₁, hn₀, hn₁, hb⟩ := hstarted.rows k
  · cases hn.symm.trans hnone
  obtain rfl := Option.some.inj (hn.symm.trans hn₁)
  rw [(hstarted.reads hb).2.2] at haw
  obtain rfl := hb.eq_of_awaiting haw
  intro htype
  rw [ht.key, ht.timed hst]
  rw [ht.type] at htype
  exact hlate k n hn₀ haw htype

/-- **The states that a step commits** are clean, if no node times out while it awaits a task or a
request. -/
theorem step_clean (h : Clean strict s) (hlate : strict → NoneTimesOut env d s) :
    ∀ c ∈ (step env d s).commits, Clean strict c := by
  rcases hrun : s.run.status.terminal with _ | _
  swap
  · rw [step, if_pos hrun]
    intro c hc
    cases hc
  have hs₀ := h.stored.beginStep env
  have hclean₀ : CleanWork strict (beginStep env s) := by
    refine ⟨⟨hs₀, ?_⟩, ?_⟩
    · intro hstrict k n hn hterm
      exact h.closed hstrict k n ((node?_beginStep env h.stored.nodup k).symm.trans hn) hterm
    · intro c hc
      cases hc
  have hlate₀ : strict → ∀ k n, (beginStep env s).cur.node? k = some n →
      awaiting env d (beginStep env s) n = true → InTime env d n := by
    intro hstrict k n hn
    exact hlate hstrict hrun n (mem_beginStep.mp (Table.mem_of_find hn))
  rw [step_eq_loops hrun]
  unfold stepLoops
  set w₀ := beginStep env s
  set keys := w₀.cur.keys with hkeys
  have hstarted : Started w₀ (keys.foldl (activateAt env d) w₀) := started_beginStep env d s keys
  set w₁ := keys.foldl (activateAt env d) w₀
  obtain ⟨hok₂, herr₂⟩ := loop_invariant (fun hw hn hstep => stepRunning_clean hw hn hstep) keys
    w₁ (hstarted.clean hclean₀)
  obtain ⟨hfit, hmisfit⟩ := @runningLoop_rows env d keys w₁ hs₀.nodup (hstarted.stored hs₀)
  simp only [bind, Except.bind]
  rcases h₂ : keys.foldlM (forNodes (stepRunning env d)) w₁ with a | w₂
  · obtain ⟨w, hw, hc⟩ := herr₂ a h₂
    dsimp only
    rw [hc]
    exact hw.commits
  have hlate₂ : strict → NoneLate env d w₂ := by
    intro hstrict
    by_cases hf : Fits env d w₁ keys
    · obtain ⟨w, hok, hrows⟩ := hfit hf
      obtain rfl := Except.ok.inj (hok.symm.trans h₂)
      exact hrows.noneLate hstarted hkeys.symm (hlate₀ hstrict)
    · obtain ⟨a, ha⟩ := hmisfit hf
      cases ha.symm.trans h₂
  have hvisit : ∀ {w w' : Work} {n : WorkflowNodeRun},
      (CleanWork strict w ∧ (strict → NoneLate env d w)) → w.cur.node? n.nodeKey = some n →
      stepWaiting env d w n = .ok w' →
      CleanWork strict w' ∧ (strict → NoneLate env d w') := by
    intro w w' n hw hn hstep
    refine ⟨stepWaiting_clean hw.1 hn hw.2 hstep, fun hstrict => ?_⟩
    obtain ⟨hreads, hraises⟩ := stepWaiting_visit env d w n
    by_cases hone : WaitsReadably env d w n
    · obtain ⟨w'', hok, hrel⟩ := hreads hone
      obtain rfl := Except.ok.inj (hok.symm.trans hstep)
      exact hrel.noneLate hn (hw.2 hstrict)
    · obtain ⟨e, he⟩ := hraises hone
      cases he.symm.trans hstep
  obtain ⟨hok₃, herr₃⟩ := loop_invariant hvisit keys w₂ ⟨hok₂ w₂ h₂, hlate₂⟩
  dsimp only
  rcases h₃ : keys.foldlM (forNodes (stepWaiting env d)) w₂ with a | w₃
  · obtain ⟨w, hw, hc⟩ := herr₃ a h₃
    dsimp only
    rw [hc]
    exact hw.1.commits
  · obtain ⟨hw₃, -⟩ := hok₃ w₃ h₃
    dsimp only
    intro c hc
    rw [finalise_commits, List.mem_append, List.mem_singleton] at hc
    rcases hc with hc | rfl
    · exact hw₃.commits c hc
    · exact hw₃.cur.congr (finalise_nodes env w₃) (finalise_exec env w₃)

theorem stepState_clean (h : Clean strict s) (hlate : strict → NoneTimesOut env d s) :
    Clean strict (stepState env d s) := by
  have hall : ∀ c ∈ s :: (step env d s).commits, Clean strict c := by
    intro c hc
    rcases List.mem_cons.mp hc with rfl | hc
    · exact h
    · exact step_clean h hlate c hc
  exact hall _ (List.getLast_mem _)

/-! ### The cancellation of a run -/

/-- The task of an open `exec_task` node is ended by the cancellation, or had ended. -/
theorem cancelLinked_call (env : ExecEnv) (hk : Kept exec) (n : WorkflowNodeRun) :
    Call [] exec (cancelLinked env exec n) ∧
      (n.status.open? = true → n.nodeType = .execTask → ∀ id t, n.execTaskId = some id →
        (cancelLinked env exec n).task? id = some t → t.status.terminal = true) := by
  unfold cancelLinked
  split_ifs with hc
  swap
  · exact ⟨Call.refl hk, fun hopen htype => absurd ⟨hopen, htype⟩ hc⟩
  rcases hid : n.execTaskId with _ | id
  · exact ⟨Call.refl hk, fun _ _ _ _ hid => by cases hid⟩
  rcases ht : exec.task? id with _ | task
  · rw [Option.bind_some, ht]
    refine ⟨Call.refl hk, fun _ _ id' t hid' ht' => ?_⟩
    obtain rfl := Option.some.inj hid'
    cases ht.symm.trans ht'
  obtain rfl : task.id = id := Table.key_of_find ht
  rw [Option.bind_some, ht, Option.bind_some]
  rcases hcancel : cancelExecTaskRecord env exec task with _ | db'
  · refine ⟨Call.refl hk, fun _ _ id' t hid' ht' => ?_⟩
    obtain rfl := Option.some.inj hid'
    obtain rfl := Option.some.inj (ht.symm.trans ht')
    exact terminal_of_not_canceled hk ht hcancel
  · obtain ⟨hcall, t', ht', hst⟩ := @cancelExecTaskRecord_call env exec db' [] task hk ht hcancel
    refine ⟨hcall, fun _ _ id' t hid' htask => ?_⟩
    obtain rfl := Option.some.inj hid'
    obtain rfl := Option.some.inj (ht'.symm.trans htask)
    rw [hst]
    rfl

/-- The tasks of all open `exec_task` nodes are ended. -/
theorem foldl_cancelLinked (env : ExecEnv) (l : List WorkflowNodeRun) :
    ∀ exec, Kept exec → (∀ n ∈ l, Links exec n) →
      Call [] exec (l.foldl (cancelLinked env) exec) ∧
        ∀ n ∈ l, n.status.open? = true → n.nodeType = .execTask → ∀ id t,
          n.execTaskId = some id → (l.foldl (cancelLinked env) exec).task? id = some t →
            t.status.terminal = true := by
  induction l with
  | nil =>
      intro exec hk _
      refine ⟨Call.refl hk, ?_⟩
      intro n hn
      cases hn
  | cons m l ih =>
      intro exec hk hlinks
      obtain ⟨hcall, hend⟩ := cancelLinked_call env hk m
      have hlinks' : ∀ n ∈ l, Links (cancelLinked env exec m) n := fun n hn =>
        (hlinks n (List.mem_cons_of_mem m hn)).carries hcall.carries
      obtain ⟨hrest, hends⟩ := ih (cancelLinked env exec m) hcall.kept hlinks'
      refine ⟨hcall.trans hrest, ?_⟩
      intro n hn hopen htype id t hid ht
      rcases List.mem_cons.mp hn with rfl | hn
      · -- the task that was ended first stays ended
        have hlt : id < (cancelLinked env exec n).nextTask :=
          lt_of_lt_of_le ((hlinks n List.mem_cons_self).task_lt id hid) hcall.carries.nextTask
        rcases ht₁ : (cancelLinked env exec n).task? id with _ | t₁
        · cases (hrest.carries.task_none id hlt ht₁).symm.trans ht
        · obtain ⟨t₂, ht₂, hterm⟩ := hrest.carries.ended id t₁ ht₁ (hend hopen htype id t₁ hid ht₁)
            List.not_mem_nil
          obtain rfl := Option.some.inj (ht₂.symm.trans ht)
          exact hterm
      · exact hends n hn hopen htype id t hid ht

/-- No open `manual_approval` node has a request that is pending. -/
def NoneAsks (s : RunState) : Prop :=
  ∀ n ∈ s.nodes, n.status.open? = true → n.nodeType = .manualApproval →
    ∀ a ∈ n.approvalId.bind s.exec.approval?, a.status ≠ .pending

instance (s : RunState) : Decidable (NoneAsks s) :=
  inferInstanceAs (Decidable (∀ n ∈ s.nodes, _ → _ → ∀ a ∈ _, _ ≠ _))

theorem cancelNode_cases (t : ℚ) (n : WorkflowNodeRun) :
    n.status.open? = true ∧ cancelNode t n = { n with status := .skipped, finishedAt := some t } ∨
      n.status.open? = false ∧ cancelNode t n = n := by
  unfold cancelNode
  rcases hopen : n.status.open? with _ | _
  · exact Or.inr ⟨rfl, rfl⟩
  · exact Or.inl ⟨rfl, rfl⟩

/-- **The cancellation of a run** closes the work behind its nodes, except for the requests of
`manual_approval` nodes. -/
theorem cancelRows_clean (env : ExecEnv) (h : Clean strict s) (hasks : strict → NoneAsks s) :
    Clean strict (cancelRows env s) := by
  have hs := h.stored
  have hlinks : ∀ n ∈ s.nodes, Links s.exec n := fun n hn =>
    hs.links n.nodeKey n ((RunState.node?_eq_some_iff hs.nodup).mpr ⟨hn, rfl⟩)
  obtain ⟨hcall, hend⟩ := foldl_cancelLinked env s.nodes s.exec hs.kept hlinks
  have hrow : ∀ {k n'}, (cancelRows env s).node? k = some n' →
      ∃ n, s.node? k = some n ∧ n' = cancelNode env.now n := by
    intro k n' hn'
    rw [node?_cancelRows] at hn'
    obtain ⟨n, hn, rfl⟩ := Option.map_eq_some_iff.mp hn'
    exact ⟨n, hn, rfl⟩
  refine ⟨⟨?_, hcall.kept, ?_⟩, ?_⟩
  · rw [keys_cancelRows]
    exact hs.nodup
  · intro k n' hn'
    obtain ⟨n, hn, rfl⟩ := hrow hn'
    have hl := (hs.links k n hn).carries hcall.carries
    obtain ⟨-, heq⟩ | ⟨-, heq⟩ := cancelNode_cases env.now n
    · rw [heq]
      exact hl.of_same rfl rfl rfl fun hc => by cases hc
    · rw [heq]
      exact hl
  · intro hstrict k n' hn' hterm
    obtain ⟨n, hn, rfl⟩ := hrow hn'
    have hmem : n ∈ s.nodes := Table.mem_of_find hn
    have hl := hs.links k n hn
    have hnever : ∀ id, n.execTaskId = some id → id ∉ ([] : List ℕ) :=
      fun _ _ => List.not_mem_nil
    obtain ⟨hopen, heq⟩ | ⟨-, heq⟩ := cancelNode_cases env.now n
    · rw [heq]
      refine Closed.of_same (n := n) ?_ rfl rfl
      by_cases htask : n.nodeType = .execTask
      · exact closed_of_task_ended hcall.kept (hl.carries hcall.carries) htask
          (hend n hmem hopen htask)
      have hclosed : Closed s.exec n := by
        by_cases happ : n.nodeType = .manualApproval
        · refine ⟨fun id t hid _ => ?_, fun aid a haid ha => ?_⟩
          · exact absurd (hl.task_type (by rw [hid]; simp)) htask
          · refine hasks hstrict n hmem hopen happ a ?_
            rw [haid]
            exact ha
        · obtain ⟨h₁, h₂⟩ := hl.none_of_type htask happ
          exact closed_of_no_links h₁ h₂
      exact hclosed.carries hl hcall.carries hnever
    · rw [heq] at hterm ⊢
      exact (h.closed hstrict k n hn hterm).carries hl hcall.carries hnever

/-! ### The machine -/

/-- The calls on a run, and the calls on the tables that it links to. -/
inductive PlatformOp
  | step (env : StepEnv)
  | callback (req : CallbackReq)
  | cancelRun (env : ExecEnv) (g : Gate)
  | cancelRelease (now : ℚ) (g : Gate)
  | rollbackRun (lower : String → String) (env : ExecEnv) (g : Gate)
  /-- The release of the run moves. -/
  | release (release : Option Release)
  | exec (op : ExecOp)

/-- One complete call, for a run of the definition `d`. -/
def applyPlatform (d : Json) (s : RunState) : PlatformOp → RunState
  | .step env => applyOp d s (.step env)
  | .callback req => applyOp d s (.callback req)
  | .cancelRun env g => applyOp d s (.cancelRun env g)
  | .cancelRelease now g => applyOp d s (.cancelRelease now g)
  | .rollbackRun lower env g => applyOp d s (.rollbackRun lower env g)
  | .release release => { s with release := release }
  | .exec op => { s with exec := op.apply s.exec }

/-- A new run, on tables that have been worked on before. -/
def startPlatform (D : Definition) (h : RunHeader) (release : Option Release) (hosts : List Host)
    (rules : ExecRules) (before : List ExecOp) : RunState :=
  startRun h D.json release (Machine.run ExecOp.apply (ExecDb.fresh hosts rules) before)

/-- No ended node links to a task that the call opens again. -/
def ReopensNone (s : RunState) (op : ExecOp) : Prop :=
  ∀ id ∈ op.reopens, (s.exec.task? id).any (·.status.retryable) = true →
    ∀ n ∈ s.nodes, n.status.terminal = true → n.execTaskId ≠ some id

/-- The condition under which a call leaves no work behind an ended node: no node times out while
it awaits a task or a request, no cancelled `manual_approval` node has a pending request, and no
task behind an ended node is retried. -/
def LeavesNoOrphan (d : Json) (s : RunState) : PlatformOp → Prop
  | .step env => NoneTimesOut env d s
  | .cancelRun _ g => g.check "workflow:cancel" = .ok () →
      s.run.status = .pending ∨ s.run.status = .running → NoneAsks s
  | .exec op => ReopensNone s op
  | _ => True

instance (s : RunState) (op : ExecOp) : Decidable (ReopensNone s op) :=
  inferInstanceAs (Decidable (∀ id ∈ op.reopens, _ → ∀ n ∈ s.nodes, _ → _ ≠ _))

instance leavesNoOrphanDecidable (d : Json) (s : RunState) :
    ∀ op, Decidable (LeavesNoOrphan d s op)
  | .step env => inferInstanceAs (Decidable (NoneTimesOut env d s))
  | .cancelRun _ g => inferInstanceAs
      (Decidable (g.check "workflow:cancel" = .ok () → _ ∨ _ → NoneAsks s))
  | .exec op => inferInstanceAs (Decidable (ReopensNone s op))
  | .callback _ | .cancelRelease _ _ | .rollbackRun _ _ _ | .release _ =>
      inferInstanceAs (Decidable True)

/-- A change of the execution tables that opens no task behind an ended node. -/
theorem Clean.of_call {reopened : List ℕ} (h : Clean strict s) (hnodes : s'.nodes = s.nodes)
    (hcall : Call reopened s.exec s'.exec)
    (hopen : strict → ∀ n ∈ s.nodes, n.status.terminal = true → ∀ id, n.execTaskId = some id →
      id ∉ reopened) : Clean strict s' := by
  have hnode : ∀ k, s'.node? k = s.node? k := by
    intro k
    rw [RunState.node?, hnodes, RunState.node?]
  refine ⟨⟨?_, hcall.kept, ?_⟩, ?_⟩
  · rw [RunState.keys, hnodes]
    exact h.stored.nodup
  · intro k n hn
    rw [hnode] at hn
    exact (h.stored.links k n hn).carries hcall.carries
  · intro hstrict k n hn hterm
    rw [hnode] at hn
    exact (h.closed hstrict k n hn hterm).carries (h.stored.links k n hn) hcall.carries
      (hopen hstrict n (Table.mem_of_find hn) hterm)

theorem callbackNode_clean {req : CallbackReq} (h : Clean strict s)
    (hc : callbackNode s req = .ok s') : Clean strict s' := by
  obtain ⟨n, out, hn, htype, -, rfl⟩ := callbackNode_eq_ok hc
  have hl := h.stored.links _ n hn
  obtain ⟨htask, happ⟩ := hl.none_of_type (by rw [htype]; exact NodeType.noConfusion)
    (by rw [htype]; exact NodeType.noConfusion)
  have hkey : (accept out req.now n).nodeKey = n.nodeKey := rfl
  have hself := node?_write_self hn hkey
  refine ⟨⟨?_, h.stored.kept, ?_⟩, ?_⟩
  · rw [keys_write hn hkey]
    exact h.stored.nodup
  · intro k m hm
    by_cases hk : k = req.nodeKey
    · subst hk
      obtain rfl := Option.some.inj (hself.symm.trans hm)
      exact hl.of_same rfl rfl rfl fun hp => by cases hp
    · rw [node?_write_ne hn hkey hk] at hm
      exact h.stored.links k m hm
  · intro hstrict k m hm hterm
    by_cases hk : k = req.nodeKey
    · subst hk
      obtain rfl := Option.some.inj (hself.symm.trans hm)
      exact closed_of_no_links htask happ
    · rw [node?_write_ne hn hkey hk] at hm
      exact h.closed hstrict k m hm hterm

theorem rollbackRun_clean {lower : String → String} {env : ExecEnv} {g : Gate} {comp : Option ℕ}
    (h : Clean strict s) (hr : rollbackRun lower env g s = .ok (s', comp)) : Clean strict s' := by
  have hnodes := rollbackRun_nodes hr
  rw [rollbackRun] at hr
  obtain ⟨-, -, hr⟩ := bind_eq_ok.mp hr
  split_ifs at hr
  · obtain ⟨⟨exec, created⟩, hcomp, hr⟩ := bind_eq_ok.mp hr
    obtain ⟨rfl, -⟩ := Prod.mk.inj (Except.ok.inj hr)
    have hcall : Call [] s.exec exec := by
      unfold compensate at hcomp
      dsimp only at hcomp
      split_ifs at hcomp
      · obtain ⟨spec, -, hcomp⟩ := bind_eq_ok.mp hcomp
        obtain ⟨⟨exec₁, c⟩, hcreate, hcomp⟩ := bind_eq_ok.mp hcomp
        obtain ⟨rfl, -⟩ := Prod.mk.inj (Except.ok.inj hcomp)
        have hcreates := creates_of_ok h.stored.kept hcreate
        exact ⟨hcreates.kept, hcreates.grown.carries h.stored.kept⟩
      · obtain ⟨rfl, -⟩ := Prod.mk.inj (Except.ok.inj hcomp)
        exact Call.refl h.stored.kept
    exact h.of_call hnodes hcall fun _ _ _ _ _ _ => List.not_mem_nil
  · obtain ⟨rfl, -⟩ := Prod.mk.inj (Except.ok.inj hr)
    exact h

theorem ExecOp.apply_of_not_retryable {db : ExecDb} {op : ExecOp} {id : ℕ} (hid : id ∈ op.reopens)
    (h : ¬ (db.task? id).any (·.status.retryable) = true) : op.apply db = db := by
  cases op with
  | retryTask lower env userId taskId =>
      obtain rfl := List.mem_singleton.mp hid
      have hnone : retryCall lower env db userId id = none := by
        unfold retryCall
        rcases ht : db.task? id with _ | task
        · rfl
        · rw [ht] at h
          exact if_neg h
      show (retryCall lower env db userId id).getD db = db
      rw [hnone]
      rfl
  | _ => cases hid

theorem execOp_clean (h : Clean strict s) {op : ExecOp} (hok : strict → ReopensNone s op) :
    Clean strict { s with exec := op.apply s.exec } := by
  by_cases hany : ∃ id ∈ op.reopens, ¬ (s.exec.task? id).any (·.status.retryable) = true
  · obtain ⟨id, hid, hnot⟩ := hany
    refine h.congr rfl ?_
    exact ExecOp.apply_of_not_retryable hid hnot
  · refine h.of_call rfl (op.call h.stored.kept) ?_
    intro hstrict n hn hterm id hid hmem
    have hre : (s.exec.task? id).any (·.status.retryable) = true := by
      by_contra hc
      exact hany ⟨id, hmem, hc⟩
    exact hok hstrict id hmem hre n hn hterm hid

/-- **One call** keeps the links in order, and leaves no work behind an ended node under its
condition. -/
theorem Clean.apply (h : Clean strict s) {op : PlatformOp}
    (hok : strict → LeavesNoOrphan d s op) : Clean strict (applyPlatform d s op) := by
  cases op with
  | step env => exact stepState_clean h hok
  | callback req =>
      rw [applyPlatform, applyOp]
      rcases hc : callbackNode s req with e | s₁
      · exact h
      · exact callbackNode_clean h hc
  | cancelRun env g =>
      rw [applyPlatform, applyOp]
      rcases hc : LarkPlat.cancelRun env g s with e | s₁
      · exact h
      · obtain ⟨hrun, rfl⟩ := cancelRun_eq_ok hc
        rw [LarkPlat.cancelRun] at hc
        obtain ⟨u, hgate, -⟩ := bind_eq_ok.mp hc
        exact cancelRows_clean env h fun hstrict => hok hstrict hgate hrun
  | cancelRelease now g =>
      rw [applyPlatform, applyOp]
      rcases hc : LarkPlat.cancelRelease now g s with e | s₁
      · exact h
      · exact h.congr (cancelRelease_nodes hc) (cancelRelease_exec hc)
  | rollbackRun lower env g =>
      rw [applyPlatform, applyOp]
      rcases hc : LarkPlat.rollbackRun lower env g s with e | ⟨s₁, comp⟩
      · exact h
      · exact rollbackRun_clean h hc
  | release release => exact h.congr rfl rfl
  | exec op => exact execOp_clean h hok

theorem kept_run (hosts : List Host) (rules : ExecRules) (before : List ExecOp) :
    Kept (Machine.run ExecOp.apply (ExecDb.fresh hosts rules) before) :=
  Machine.run_invariant (fun _ op hk => (op.call hk).kept) (kept_fresh hosts rules) before

theorem startPlatform_clean (D : Definition) (h : RunHeader) (release : Option Release)
    (hosts : List Host) (rules : ExecRules) (before : List ExecOp) :
    Clean strict (startPlatform D h release hosts rules before) := by
  have hrow : ∀ {k n}, (startPlatform D h release hosts rules before).node? k = some n →
      NewRow n := fun hn => newRow_of_mem (Table.mem_of_find hn)
  refine ⟨⟨(sound_startRun D h release _).nodup, kept_run hosts rules before, ?_⟩, ?_⟩
  · intro k n hn
    have hnew := hrow hn
    refine ⟨?_, ?_, fun _ => ⟨hnew.execTaskId, hnew.approvalId⟩, ?_, ?_, ?_⟩
    · intro id hid
      cases hnew.execTaskId.symm.trans hid
    · intro id hid
      cases hnew.approvalId.symm.trans hid
    · exact fun hc => absurd hnew.execTaskId hc
    · exact fun hc => absurd hnew.approvalId hc
    · intro _ aid haid
      cases hnew.approvalId.symm.trans haid
  · intro _ k n hn hterm
    rw [(hrow hn).status] at hterm
    cases hterm

/-- **The links are in order** in every state that a history reaches. -/
theorem stored_run (D : Definition) (h : RunHeader) (release : Option Release)
    (hosts : List Host) (rules : ExecRules) (before : List ExecOp) (ops : List PlatformOp) :
    Stored (Machine.run (applyPlatform D.json) (startPlatform D h release hosts rules before)
      ops) := by
  have hclean : Clean False (Machine.run (applyPlatform D.json)
      (startPlatform D h release hosts rules before) ops) :=
    Machine.run_invariant (fun s op hs => hs.apply fun hc => hc.elim)
      (startPlatform_clean D h release hosts rules before) ops
  exact hclean.stored

/-! ### No orphans -/

/-- No work is left behind an ended node: its task has ended, its request is not pending, and
nobody can approve the request. -/
def NoOrphans (s : RunState) : Prop :=
  ∀ n ∈ s.nodes, n.status.terminal = true → Closed s.exec n ∧
    ∀ aid, n.approvalId = some aid → ∀ env userId, ∃ e, approve env s.exec userId aid = .error e

theorem approve_of_decided {db : ExecDb} {aid : ℕ}
    (h : ∀ a, db.approval? aid = some a → a.status ≠ .pending) (env : ExecEnv) (userId : ℕ) :
    ∃ e, approve env db userId aid = .error e := by
  rcases hp : requirePending db aid with e | a
  · exact ⟨e, by rw [approve, hp]; rfl⟩
  · obtain ⟨ha, hst⟩ := requirePending_eq_ok hp
    exact absurd hst (h a ha)

/-- **No orphaned work behind a finished node.** For every definition and every history of calls in
which no node times out while it awaits a task or a request, no cancelled `manual_approval` node has
a pending request, and no task behind an ended node is retried. -/
theorem finished_nodes_closed (D : Definition) (h : RunHeader) (release : Option Release)
    (hosts : List Host) (rules : ExecRules) (before : List ExecOp) (ops : List PlatformOp)
    (hok : Machine.Meets (applyPlatform D.json) (LeavesNoOrphan D.json)
      (startPlatform D h release hosts rules before) ops) :
    NoOrphans (Machine.run (applyPlatform D.json)
      (startPlatform D h release hosts rules before) ops) := by
  have hclean : Clean True (Machine.run (applyPlatform D.json)
      (startPlatform D h release hosts rules before) ops) :=
    Machine.run_invariant_of_meets (fun s op hs hop => hs.apply fun _ => hop)
      (startPlatform_clean D h release hosts rules before) hok
  intro n hn hterm
  have hfound := (RunState.node?_eq_some_iff hclean.stored.nodup).mpr ⟨hn, rfl⟩
  have hclosed := hclean.closed trivial _ n hfound hterm
  refine ⟨hclosed, ?_⟩
  intro aid haid
  exact approve_of_decided fun a => hclosed.approval aid a haid

/-- One node that runs a sensitive command, with a timeout of a minute. -/
def purgeDefinition : Definition where
  json := .obj [("nodes", .arr [
    .obj [("key", .str "purge"), ("type", .str "exec_task"),
      ("config", .obj [("host_ids", .arr [.int 1]), ("command", .str "rm -rf /tmp/cache"),
        ("timeout_sec", .int 60)])]])]
  valid := by decide +kernel

/-- A run of the purge, on one host. -/
def purgeStart : RunState :=
  startPlatform purgeDefinition manualHeader none [⟨1, none, "agent", some "agent-1"⟩]
    ⟨["rm"], none, false⟩ []

/-- The request is approved in time, the command runs, and the node ends with its task. -/
theorem finished_nodes_closed_approved :
    NoOrphans (Machine.run (applyPlatform purgeDefinition.json) purgeStart
      [.step (StepEnv.atTime 0), .step (StepEnv.atTime 1),
        .exec (.approve (StepEnv.atTime 2).dispatch.toExecEnv 2 1),
        .exec (.dispatch id (StepEnv.atTime 3).dispatch 1), .step (StepEnv.atTime 4)]) :=
  finished_nodes_closed purgeDefinition manualHeader none _ _ [] _ (by decide +kernel)

/-- The request is left alone until the timeout of the node has passed: the node has failed, and the
request can still be approved. -/
theorem timeout_orphans_request :
    ¬ NoOrphans (Machine.run (applyPlatform purgeDefinition.json) purgeStart
      [.step (StepEnv.atTime 0), .step (StepEnv.atTime 1), .step (StepEnv.atTime 100)]) := by
  intro h
  set s := Machine.run (applyPlatform purgeDefinition.json) purgeStart
    [.step (StepEnv.atTime 0), .step (StepEnv.atTime 1), .step (StepEnv.atTime 100)] with hs
  have hnode : ∃ n ∈ s.nodes, n.status.terminal = true ∧ n.approvalId = some 1 := by
    rw [hs]
    decide +kernel
  obtain ⟨n, hn, hterm, happ⟩ := hnode
  obtain ⟨e, he⟩ := (h n hn hterm).2 1 happ (StepEnv.atTime 101).dispatch.toExecEnv 2
  have hok : (approve (StepEnv.atTime 101).dispatch.toExecEnv s.exec 2 1).toOption.isSome = true := by
    rw [hs]
    decide +kernel
  rw [he] at hok
  cases hok

end LarkPlat
