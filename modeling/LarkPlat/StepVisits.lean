import LarkPlat.Advances
import LarkPlat.ExecCalls
import LarkPlat.RunInvariants

/-!
# The Visits of a Step

The visits of one step work on different nodes. A visit writes the row of its node, adds rows to
the execution tables and winds up the task that it has just added, so it changes nothing that
another visit reads: `Follows` says so of the session, and `Visit` of the rows.

## Main results

* `Stored`: the links of the node rows, an invariant of the engine.
* `createApproval_visit`, `createExecTask_visit`: when the two creations of the engine succeed,
  and what they leave.
-/

namespace LarkPlat

variable {env : StepEnv} {d : Json} {s : RunState} {w w' w'' : Work} {n n' : WorkflowNodeRun}
  {exec exec' : ExecDb}

/-! ### Links -/

/-- The links of a node row: they refer to rows that were stored, only the node types that create
tasks and requests have them, and the request of an `exec_task` node is that of its task. -/
structure Links (exec : ExecDb) (n : WorkflowNodeRun) : Prop where
  task_lt : ∀ id, n.execTaskId = some id → id < exec.nextTask
  approval_lt : ∀ id, n.approvalId = some id → id < exec.nextApproval
  pending : n.status = .pending → n.execTaskId = none ∧ n.approvalId = none
  task_type : n.execTaskId ≠ none → n.nodeType = .execTask
  approval_type : n.approvalId ≠ none → n.nodeType = .execTask ∨ n.nodeType = .manualApproval
  mirrored : n.nodeType = .execTask → ∀ aid, n.approvalId = some aid →
    ∃ id, n.execTaskId = some id ∧
      ∀ a, exec.approval? aid = some a → a.bizType = .exec ∧ a.bizId = id

theorem Links.carries {reopened : List ℕ} (h : Links exec n)
    (hc : CarriesOver reopened exec exec') : Links exec' n where
  task_lt id hid := lt_of_lt_of_le (h.task_lt id hid) hc.nextTask
  approval_lt id hid := lt_of_lt_of_le (h.approval_lt id hid) hc.nextApproval
  pending := h.pending
  task_type := h.task_type
  approval_type := h.approval_type
  mirrored htype aid haid := by
    obtain ⟨id, hid, hbound⟩ := h.mirrored htype aid haid
    refine ⟨id, hid, ?_⟩
    intro a' ha'
    rcases ha : exec.approval? aid with _ | a
    · rw [hc.approval_none aid (h.approval_lt aid haid) ha] at ha'
      cases ha'
    · obtain ⟨b, hb, htype', hid', -⟩ := hc.decided aid a ha
      obtain rfl := Option.some.inj (hb.symm.trans ha')
      rw [htype', hid']
      exact hbound a ha

/-- A row that keeps type and links, and leaves `pending` alone. -/
theorem Links.of_same (h : Links exec n) (htype : n'.nodeType = n.nodeType)
    (htask : n'.execTaskId = n.execTaskId) (happ : n'.approvalId = n.approvalId)
    (hst : n'.status = .pending → n.status = .pending) : Links exec n' where
  task_lt id hid := h.task_lt id (htask ▸ hid)
  approval_lt id hid := h.approval_lt id (happ ▸ hid)
  pending hp := by
    rw [htask, happ]
    exact h.pending (hst hp)
  task_type hid := by
    rw [htask] at hid
    rw [htype]
    exact h.task_type hid
  approval_type hid := by
    rw [happ] at hid
    rw [htype]
    exact h.approval_type hid
  mirrored ht aid haid := by
    rw [htype] at ht
    rw [happ] at haid
    rw [htask]
    exact h.mirrored ht aid haid

theorem Links.none_of_type (h : Links exec n) (htask : n.nodeType ≠ .execTask)
    (happ : n.nodeType ≠ .manualApproval) : n.execTaskId = none ∧ n.approvalId = none := by
  constructor
  · by_contra hc
    exact htask (h.task_type hc)
  · by_contra hc
    exact (h.approval_type hc).elim htask happ

/-- The invariant of a run with its execution tables: unique keys, kept tables, linked rows. -/
structure Stored (s : RunState) : Prop where
  nodup : s.keys.Nodup
  kept : Kept s.exec
  links : ∀ k n, s.node? k = some n → Links s.exec n

/-! ### What a visit leaves alone -/

/-- The session went on: rows were added to the execution tables, the tasks of this session are
among the added ones, and the run row is as it was. -/
structure Follows (w w' : Work) : Prop where
  grown : Grown w.cur.exec w'.cur.exec
  inserted : ∀ id, id < w.cur.exec.nextTask → (id ∈ w'.inserted ↔ id ∈ w.inserted)
  run : w'.cur.run = w.cur.run
  activated : w'.activated = w.activated

theorem Follows.refl (w : Work) : Follows w w :=
  ⟨Grown.refl _, fun _ _ => Iff.rfl, rfl, rfl⟩

theorem Follows.trans (h : Follows w w') (h' : Follows w' w'') : Follows w w'' where
  grown := h.grown.trans h'.grown
  inserted id hlt := (h'.inserted id (lt_of_lt_of_le hlt h.grown.nextTask)).trans (h.inserted id hlt)
  run := h'.run.trans h.run
  activated := h'.activated.trans h.activated

theorem follows_put (w : Work) (n : WorkflowNodeRun) : Follows w (w.put n) :=
  ⟨Grown.refl _, fun _ _ => Iff.rfl, rfl, rfl⟩

theorem Follows.seenStatus (h : Follows w w') {id : ℕ} (hlt : id < w.cur.exec.nextTask) :
    seenStatus w' id = seenStatus w id := by
  unfold LarkPlat.seenStatus
  rw [h.grown.task id hlt]
  simp only [h.inserted id hlt]

theorem Follows.pollExecTask (h : Follows w w') {id : ℕ} (hlt : id < w.cur.exec.nextTask) :
    pollExecTask env w' n id = pollExecTask env w n id := by
  unfold LarkPlat.pollExecTask
  rw [h.seenStatus hlt]

theorem Follows.approvalDecision (h : Follows w w')
    (hlt : ∀ id, n.approvalId = some id → id < w.cur.exec.nextApproval) :
    approvalDecision env w' n = approvalDecision env w n := by
  have hfind : n.approvalId.bind w'.cur.exec.approval? =
      n.approvalId.bind w.cur.exec.approval? := by
    rcases hid : n.approvalId with _ | id
    · rfl
    · exact h.grown.approval id (hlt id hid)
  unfold LarkPlat.approvalDecision
  rw [hfind]

/-! ### Undecided nodes -/

/-- The task or the request behind a waiting node has not brought a result. -/
def undecided (env : StepEnv) (w : Work) (n : WorkflowNodeRun) : Bool :=
  match n.nodeType with
  | .execTask => (n.execTaskId.bind (pollExecTask env w n)).isNone
  | .manualApproval => (approvalDecision env w n).isNone
  | _ => true

theorem Follows.undecided (h : Follows w w') (hl : Links w.cur.exec n) :
    undecided env w' n = undecided env w n := by
  have hpoll : n.execTaskId.bind (LarkPlat.pollExecTask env w' n) =
      n.execTaskId.bind (LarkPlat.pollExecTask env w n) := by
    rcases hid : n.execTaskId with _ | id
    · rfl
    · exact h.pollExecTask (hl.task_lt id hid)
  unfold LarkPlat.undecided
  rw [hpoll, h.approvalDecision hl.approval_lt]

/-- The third loop looks at the timeout of a waiting node if it is undecided. -/
theorem advanceWaiting_of_undecided (h : undecided env w n = true) :
    advanceWaiting env d w n = expireWaiting env d w n := by
  unfold undecided at h
  unfold advanceWaiting
  cases htype : n.nodeType with
  | execTask =>
      rw [htype] at h
      dsimp only at h ⊢
      rw [Option.isNone_iff_eq_none.mp h]
  | manualApproval =>
      rw [htype] at h
      dsimp only at h ⊢
      rw [Option.isNone_iff_eq_none.mp h]
  | sleep => rfl
  | wait => rfl
  | callback => rfl

/-- The row that the task or the request behind a waiting node gives it. -/
inductive Decides (env : StepEnv) (w : Work) (n n' : WorkflowNodeRun) : Prop
  | task {id : ℕ} (htype : n.nodeType = .execTask) (hlink : n.execTaskId = some id)
      (h : pollExecTask env w n id = some n')
  | request (htype : n.nodeType = .manualApproval) (h : approvalDecision env w n = some n')

theorem Decides.links (h : Decides env w n n') :
    n'.nodeKey = n.nodeKey ∧ n'.nodeType = n.nodeType ∧ n'.execTaskId = n.execTaskId ∧
      n'.approvalId = n.approvalId ∧ n'.status ≠ .waiting ∧ n'.status ≠ .pending := by
  cases h with
  | task _ _ h => exact pollExecTask_links h
  | request _ h => exact approvalDecision_links h

theorem advanceWaiting_of_decided (h : undecided env w n = false) :
    ∃ n', advanceWaiting env d w n = .ok (w.put n') ∧ Decides env w n n' := by
  unfold undecided at h
  unfold advanceWaiting
  cases htype : n.nodeType with
  | execTask =>
      rw [htype] at h
      dsimp only at h ⊢
      obtain ⟨n', hn'⟩ := Option.isSome_iff_exists.mp (Option.isNone_eq_false_iff.mp h)
      obtain ⟨id, hid, hpoll⟩ := Option.bind_eq_some_iff.mp hn'
      rw [hn']
      exact ⟨n', rfl, .task htype hid hpoll⟩
  | manualApproval =>
      rw [htype] at h
      dsimp only at h ⊢
      obtain ⟨n', hn'⟩ := Option.isSome_iff_exists.mp (Option.isNone_eq_false_iff.mp h)
      rw [hn']
      exact ⟨n', rfl, .request htype hn'⟩
  | sleep =>
      rw [htype] at h
      cases h
  | wait =>
      rw [htype] at h
      cases h
  | callback =>
      rw [htype] at h
      cases h

/-! ### One visit -/

/-- The rows `c` differ from those of the session in the row of `n`, which is now `m`, and in rows
added to the execution tables. -/
structure Wrote (w : Work) (n m : WorkflowNodeRun) (c : RunState) : Prop where
  grown : Grown w.cur.exec c.exec
  kept : Kept c.exec
  node : c.node? n.nodeKey = some m
  other : ∀ k, k ≠ n.nodeKey → c.node? k = w.cur.node? k
  keys : c.keys = w.cur.keys
  links : Links c.exec m

theorem Wrote.stored {m : WorkflowNodeRun} {c : RunState} (h : Wrote w n m c)
    (hs : Stored w.cur) : Stored c where
  nodup := by
    rw [h.keys]
    exact hs.nodup
  kept := h.kept
  links k n₀ hn₀ := by
    by_cases hk : k = n.nodeKey
    · subst hk
      obtain rfl := Option.some.inj (h.node.symm.trans hn₀)
      exact h.links
    · rw [h.other k hk] at hn₀
      exact (hs.links k n₀ hn₀).carries (@Grown.carries _ _ [] h.grown hs.kept)

/-- A visit of `n` that leaves it as `n'`. The states committed on the way have the row of `n` in
its old status. -/
structure Visit (w : Work) (n n' : WorkflowNodeRun) (w' : Work) : Prop where
  follows : Follows w w'
  wrote : Wrote w n n' w'.cur
  commits : ∀ c ∈ w'.commits, c ∈ w.commits ∨ ∃ m, Wrote w n m c ∧ m.status = n.status

theorem visit_put (hs : Stored w.cur) (hn : w.cur.node? n.nodeKey = some n)
    (hkey : n'.nodeKey = n.nodeKey) (hl : Links w.cur.exec n') : Visit w n n' (w.put n') := by
  have hcur : (w.put n').cur = w.cur.setNode n.nodeKey fun _ => n' := by rw [← hkey]; rfl
  refine ⟨follows_put w n', ⟨?_, ?_, ?_, ?_, ?_, ?_⟩, fun c hc => Or.inl hc⟩
  · exact Grown.refl _
  · exact hs.kept
  · rw [hcur]
    exact node?_write_self hn hkey
  · intro k hk
    rw [hcur]
    exact node?_write_ne hn hkey hk
  · rw [hcur]
    exact keys_write hn hkey
  · exact hl

theorem visit_refl (hs : Stored w.cur) (hn : w.cur.node? n.nodeKey = some n) : Visit w n n w :=
  ⟨Follows.refl w, ⟨Grown.refl _, hs.kept, hn, fun _ _ => rfl, rfl, hs.links _ _ hn⟩,
    fun _ hc => Or.inl hc⟩

/-- `_create_approval` fails exactly if the identifier of its request is taken. -/
theorem createApproval_visit (hs : Stored w.cur) (hn : w.cur.node? n.nodeKey = some n)
    (htype : n.nodeType = .manualApproval) :
    if workflowApprovalBizOffset + n.id ∈ w.cur.exec.bizIds then
      createApproval env w n = .error .integrityError
    else ∃ w' n', createApproval env w n = .ok w' ∧ Visit w n n' w' ∧
      n'.nodeType = .manualApproval ∧ n'.status = .waiting ∧
      n'.startedAt = n.startedAt.or (some (env.clock n.nodeKey 0)) ∧
      approvalDecision env w' n' = none ∧
      w'.cur.exec.nextTask = w.cur.exec.nextTask ∧
      w'.cur.exec.bizIds = w.cur.exec.bizIds ++ [workflowApprovalBizOffset + n.id] := by
  set a := workflowApproval w.cur.exec w.cur.run n with ha
  have hany : (w.cur.exec.approvals.any fun b => decide (b.bizId = a.bizId)) = true ↔
      workflowApprovalBizOffset + n.id ∈ w.cur.exec.bizIds := by
    rw [List.any_eq_true, ExecDb.bizIds, List.mem_map]
    simp only [decide_eq_true_eq]
    rfl
  split_ifs with htaken
  · exact if_pos (hany.mpr htaken)
  have hfree : ¬ (w.cur.exec.approvals.any fun b => decide (b.bizId = a.bizId)) = true :=
    fun hc => htaken (hany.mp hc)
  set n' : WorkflowNodeRun := { n with
    approvalId := some a.id
    startedAt := n.startedAt.or (some (env.clock n.nodeKey 0))
    status := .waiting } with hn'
  have hok : createApproval env w n = .ok ((w.setExec (w.cur.exec.addRequest a)).put n') :=
    if_neg hfree
  obtain ⟨hgrown, hcall⟩ := @addRequest_call w.cur.exec [] a hs.kept rfl fun hc => by cases hc
  have hcur : ((w.setExec (w.cur.exec.addRequest a)).put n').cur =
      ({ w.cur with exec := w.cur.exec.addRequest a } : RunState).setNode n.nodeKey
        fun _ => n' := rfl
  have hnone : n.execTaskId = none := by
    by_contra hc
    rw [(hs.links _ _ hn).task_type hc] at htype
    cases htype
  have hfound : (w.cur.exec.addRequest a).approval? a.id = some a :=
    Table.find_concat_self (hs.kept.approval?_none le_rfl)
  refine ⟨_, n', hok, ⟨⟨hgrown, fun _ _ => Iff.rfl, rfl, rfl⟩, ⟨hgrown, hcall.kept, ?_, ?_, ?_, ?_⟩,
    fun c hc => Or.inl hc⟩, htype, rfl, rfl, ?_, rfl, List.map_append⟩
  · rw [hcur]
    exact node?_write_self hn rfl
  · intro k hk
    rw [hcur]
    exact node?_write_ne hn rfl hk
  · rw [hcur]
    exact keys_write hn rfl
  · refine ⟨?_, ?_, (fun hc => by cases hc), ?_, (fun _ => Or.inr htype), ?_⟩
    · intro id hid
      exact absurd (hnone.symm.trans hid) (by simp)
    · intro id hid
      obtain rfl := Option.some.inj hid
      exact Nat.lt_succ_self _
    · intro hc
      exact absurd hnone hc
    · intro hc
      rw [htype] at hc
      cases hc
  · show ((some a.id).bind (w.cur.exec.addRequest a).approval?).bind _ = none
    rw [Option.bind_some, hfound]
    rfl

/-- The checks of `_create_exec_task` before it writes: whether the new task is sensitive. -/
def taskVerdict (env : StepEnv) (d : Json) (w : Work) (n : WorkflowNodeRun) : Except PyErr Bool :=
  cfg (defnode d n.nodeKey) >>= (execSpec · w.cur.run n) >>=
    creationVerdict env.lower w.cur.exec

theorem linkedRow_links {c : Created} (hl : Links exec n) (htype : n.nodeType = .execTask)
    (hnone : n.execTaskId = none) (hst : n.status = .running) (hc : Creates exec exec' c) :
    Links exec' (linkedRow env n c) := by
  -- a node without a task has no request
  have happ : n.approvalId = none := by
    by_contra hcon
    obtain ⟨aid, haid⟩ := Option.ne_none_iff_exists'.mp hcon
    obtain ⟨id, hid, -⟩ := hl.mirrored htype aid haid
    cases hnone.symm.trans hid
  have hlt : c.id < exec'.nextTask := by
    rw [hc.id, hc.nextTask]
    exact Nat.lt_succ_self _
  unfold linkedRow
  split_ifs with hreq
  · refine ⟨?_, ?_, (fun hp => by cases hp), fun _ => htype, fun _ => Or.inl htype, ?_⟩
    · intro id hid
      obtain rfl := Option.some.inj hid
      exact hlt
    · intro aid haid
      obtain ⟨a, ha, -⟩ := hc.bound aid haid
      exact hc.kept.approval_lt aid (by rw [ha]; rfl)
    · intro _ aid haid
      refine ⟨c.id, rfl, ?_⟩
      intro a ha
      obtain ⟨b, hb, hbtype, hbid⟩ := hc.bound aid haid
      obtain rfl := Option.some.inj (hb.symm.trans ha)
      exact ⟨hbtype, hbid.trans hc.id.symm⟩
  · refine ⟨?_, ?_, ?_, fun _ => htype, fun _ => Or.inl htype, ?_⟩
    · intro id hid
      obtain rfl := Option.some.inj hid
      exact hlt
    · intro aid haid
      cases happ.symm.trans haid
    · intro hp
      cases hst.symm.trans hp
    · intro _ aid haid
      cases happ.symm.trans haid

/-- Rows added to the execution tables, with the row of the node written back. -/
theorem wrote_set (hg : Grown w.cur.exec exec) (hk : Kept exec)
    (hn : w.cur.node? n.nodeKey = some n) (hkey : n'.nodeKey = n.nodeKey) (hl : Links exec n') :
    Wrote w n n' (({ w.cur with exec := exec } : RunState).setNode n.nodeKey fun _ => n') :=
  have hn' : ({ w.cur with exec := exec } : RunState).node? n.nodeKey = some n := hn
  ⟨hg, hk, node?_write_self hn' hkey, fun _ hk => node?_write_ne hn' hkey hk,
    keys_write hn' hkey, hl⟩

theorem CreatesTask.visit {c : Created} (h : CreatesTask env w n exec c w')
    (hc : Creates w.cur.exec exec c) (hs : Stored w.cur) (hn : w.cur.node? n.nodeKey = some n)
    (htype : n.nodeType = .execTask) (hnone : n.execTaskId = none) (hst : n.status = .running) :
    Visit w n (linkedRow env n c) w' ∧ c.id ∈ w'.inserted ∧
      w'.cur.exec.nextTask = w.cur.exec.nextTask + 1 ∧
      w'.cur.exec.bizIds = w.cur.exec.bizIds ++
        if c.approveRequired then [w.cur.exec.nextTask] else [] := by
  have hl := hs.links _ _ hn
  have hstored : Wrote w n n { w.cur with exec := exec } :=
    ⟨hc.grown, hc.kept, hn, fun _ _ => rfl, rfl, hl.carries (@Grown.carries _ _ [] hc.grown hs.kept)⟩
  have hlinked := wrote_set hc.grown hc.kept hn (linkedRow_key env n c)
    (@linkedRow_links env n w.cur.exec exec c hl htype hnone hst hc)
  have hinserted : ∀ id, id < w.cur.exec.nextTask → (id ∈ w'.inserted ↔ id ∈ w.inserted) := by
    intro id hlt
    have hne : id ≠ c.id := by
      rw [hc.id]
      exact Nat.ne_of_lt hlt
    rw [h.inserted, List.mem_cons]
    exact or_iff_right hne
  have hmem : c.id ∈ w'.inserted := by
    rw [h.inserted]
    exact List.mem_cons_self
  obtain ⟨linked, rfl, hrows⟩ := h.rows
  split_ifs at hrows with hreq
  · obtain ⟨hcur, hcommits⟩ := hrows
    refine ⟨⟨⟨?_, hinserted, ?_, h.activated⟩, ?_, ?_⟩, hmem, ?_, ?_⟩
    · rw [hcur]
      exact hc.grown
    · rw [hcur]
      rfl
    · rw [hcur]
      exact hlinked
    · intro c' hc'
      rw [hcommits] at hc'
      rcases List.mem_append.mp hc' with hc' | hc'
      · exact Or.inl hc'
      · obtain rfl := List.mem_singleton.mp hc'
        exact Or.inr ⟨n, hstored, rfl⟩
    · rw [hcur]
      exact hc.nextTask
    · rw [hcur]
      exact hc.bizIds
  · obtain ⟨hcur, hcommits⟩ := hrows
    have hst' : (linkedRow env n c).status = n.status := by rw [linkedRow, if_neg hreq]
    have hwind := execDispatch_windsUp env.lower env.dispatch exec c.id
    have hgrown : Grown w.cur.exec (execDispatch env.lower env.dispatch exec c.id).1 :=
      hwind.grown hc.grown hc.id.ge
    have hcall : Call [] exec (execDispatch env.lower env.dispatch exec c.id).1 := hwind.call hc.kept
    have hdone : Wrote w n (linkedRow env n c) w'.cur := by
      rw [hcur]
      exact wrote_set hgrown hcall.kept hn (linkedRow_key env n c)
        (hlinked.links.carries hcall.carries)
    refine ⟨⟨⟨hdone.grown, hinserted, ?_, h.activated⟩, hdone, ?_⟩, hmem, ?_, ?_⟩
    · rw [hcur]
      rfl
    · intro c' hc'
      rw [hcommits] at hc'
      simp only [List.mem_append, List.mem_cons, List.not_mem_nil, or_false] at hc'
      rcases hc' with hc' | rfl | rfl | rfl
      · exact Or.inl hc'
      · exact Or.inr ⟨n, hstored, rfl⟩
      · exact Or.inr ⟨_, hlinked, hst'⟩
      · exact Or.inr ⟨_, hdone, hst'⟩
    · obtain ⟨tasks, taskHosts, queue, heq, -⟩ := hwind
      rw [hcur]
      show (execDispatch env.lower env.dispatch exec c.id).1.nextTask = _
      rw [heq]
      exact hc.nextTask
    · obtain ⟨tasks, taskHosts, queue, heq, -⟩ := hwind
      rw [hcur]
      show (execDispatch env.lower env.dispatch exec c.id).1.bizIds = _
      rw [heq]
      exact hc.bizIds

/-- `_create_exec_task` fails if its checks fail, or if the task is sensitive and some request
already has its identifier; otherwise it links the node to a new task. -/
theorem createExecTask_visit (hs : Stored w.cur) (hn : w.cur.node? n.nodeKey = some n)
    (htype : n.nodeType = .execTask) (hnone : n.execTaskId = none) (hst : n.status = .running) :
    match taskVerdict env d w n with
    | .error e => createExecTask env w n (defnode d n.nodeKey) = .error e
    | .ok sensitive =>
        if sensitive = true ∧ w.cur.exec.nextTask ∈ w.cur.exec.bizIds then
          createExecTask env w n (defnode d n.nodeKey) = .error .integrityError
        else ∃ w' c, createExecTask env w n (defnode d n.nodeKey) = .ok w' ∧
          Visit w n (linkedRow env n c) w' ∧ c.approveRequired = sensitive ∧
          c.id ∈ w'.inserted ∧ w'.cur.exec.nextTask = w.cur.exec.nextTask + 1 ∧
          w'.cur.exec.bizIds = w.cur.exec.bizIds ++
            if sensitive then [w.cur.exec.nextTask] else [] := by
  unfold taskVerdict
  rcases hcfg : cfg (defnode d n.nodeKey) with e | conf
  · dsimp only [bind, Except.bind]
    rw [createExecTask, hcfg]
    rfl
  rcases hspec : execSpec conf w.cur.run n with e | spec
  · dsimp only [bind, Except.bind]
    rw [hspec, createExecTask, hcfg]
    dsimp only [bind, Except.bind]
    rw [hspec]
  have hbind : cfg (defnode d n.nodeKey) >>= (execSpec · w.cur.run n) = .ok spec :=
    bind_eq_ok.mpr ⟨conf, hcfg, hspec⟩
  have hcreate := createExecTaskRecord_creates env.lower env.dispatch.toExecEnv spec env.policy
    hs.kept
  -- the call is the creation followed by the link
  have hfail : ∀ e, createExecTaskRecord env.lower env.dispatch.toExecEnv w.cur.exec spec
      env.policy = .error e → createExecTask env w n (defnode d n.nodeKey) = .error e := by
    intro e he
    rw [createExecTask, hcfg]
    dsimp only [bind, Except.bind]
    rw [hspec]
    dsimp only
    rw [he]
  dsimp only [bind, Except.bind]
  rw [hspec]
  dsimp only
  rcases hverdict : creationVerdict env.lower w.cur.exec spec with e | sensitive
  · rw [hverdict] at hcreate
    exact hfail e hcreate
  · rw [hverdict] at hcreate
    dsimp only at hcreate ⊢
    split_ifs at hcreate with htaken
    · rw [if_pos htaken]
      exact hfail _ hcreate
    · rw [if_neg htaken]
      obtain ⟨exec, c, hrec, hreq, hcreates⟩ := hcreate
      obtain ⟨w', hok⟩ : ∃ w', createExecTask env w n (defnode d n.nodeKey) = .ok w' := by
        rw [createExecTask, hcfg]
        dsimp only [bind, Except.bind]
        rw [hspec]
        dsimp only
        rw [hrec]
        dsimp only
        split_ifs
        · exact ⟨_, rfl⟩
        · exact ⟨_, rfl⟩
      obtain ⟨spec', exec', c', hspec', hrec', htask⟩ := createExecTask_eq_ok hok
      obtain rfl := Except.ok.inj (hbind.symm.trans hspec')
      obtain ⟨rfl, rfl⟩ := Prod.mk.inj (Except.ok.inj (hrec.symm.trans hrec'))
      obtain ⟨hvisit, hmem, hnext, hbiz⟩ := htask.visit hcreates hs hn htype hnone hst
      rw [hreq] at hbiz
      exact ⟨w', c, hok, hvisit, hreq, hmem, hnext, hbiz⟩

end LarkPlat
