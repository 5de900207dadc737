import LarkPlat.Advances
import LarkPlat.RunInvariants

/-!
# Creating a Task Once per Node

A step stores the task of an `exec_task` node by one commit and the link of the node by a later
one. If the process stops in between, or the step raises, the task survives without its link, and
the step of the restarted driver creates another task for the node.

`stepLog` is the list of the tasks that a step creates, each with its node and the number of the
commit that stores it; `Life` follows a run through calls, stopped steps and restarts and keeps
the log of the tasks that survived.

## Main results

* `step_logged`: the tasks of one step are created for distinct nodes without a link, and every
  commit after the one that stores a task has its link.
* `one_task_per_node`: along every history in which no step ends between the commit that stores a
  task and the next one, at most one task is created for a node.
* `stop_before_link_creates_twice`: a stop in between creates two.
-/

namespace LarkPlat

variable {env : StepEnv} {d : Json} {s s' : RunState} {w w' : Work} {n n' : WorkflowNodeRun}
  {k : String}

/-! ### Links -/

/-- The node is linked to an exec task. -/
def RunState.Linked (s : RunState) (k : String) : Prop :=
  ((s.node? k).bind (·.execTaskId)).isSome = true

instance (s : RunState) (k : String) : Decidable (s.Linked k) :=
  inferInstanceAs (Decidable (_ = true))

theorem linked_write (hn : s.node? n.nodeKey = some n) (hkey : n'.nodeKey = n.nodeKey)
    (hlink : n.execTaskId.isSome = true → n'.execTaskId.isSome = true) (h : s.Linked k) :
    (s.setNode n'.nodeKey fun _ => n').Linked k := by
  unfold RunState.Linked at h ⊢
  rw [hkey]
  by_cases hk : k = n.nodeKey
  · subst hk
    rw [hn] at h
    rw [node?_write_self hn hkey]
    exact hlink h
  · rw [node?_write_ne hn hkey hk]
    exact h

theorem linked_write_self (hn : s.node? n.nodeKey = some n) (hkey : n'.nodeKey = n.nodeKey)
    (hlink : n'.execTaskId.isSome = true) :
    (s.setNode n'.nodeKey fun _ => n').Linked n.nodeKey := by
  unfold RunState.Linked
  rw [hkey, node?_write_self hn hkey]
  exact hlink

theorem linked_congr (h : s'.nodes = s.nodes) : s'.Linked k ↔ s.Linked k := by
  unfold RunState.Linked RunState.node?
  rw [h]

/-! ### The log of a step -/

/-- A task that a step creates: its node, its identifier, and the number of the commit that
stores it. -/
structure Creation where
  node : String
  taskId : ℕ
  commit : ℕ
  deriving DecidableEq, Repr

/-- The task that a visit creates. -/
def visitLog (w : Work) (k : String) (w' : Work) : List Creation :=
  if w'.inserted = w.inserted then []
  else w'.inserted.head?.toList.map fun id => ⟨k, id, w.commits.length + 1⟩

/-- The tasks that a loop creates until it ends or raises. -/
def loopLog (f : Work → WorkflowNodeRun → Except PyErr Work) : List String → Work → List Creation
  | [], _ => []
  | k :: ks, w =>
      match forNodes f w k with
      | .error _ => []
      | .ok w' => visitLog w k w' ++ loopLog f ks w'

/-- The tasks that a step creates. -/
def stepLog (env : StepEnv) (d : Json) (s : RunState) : List Creation :=
  if s.run.status.terminal then []
  else
    let w := beginStep env s
    let keys := w.cur.keys
    let w := keys.foldl (activateAt env d) w
    loopLog (stepRunning env d) keys w ++
      match keys.foldlM (forNodes (stepRunning env d)) w with
      | .error _ => []
      | .ok w => loopLog (stepWaiting env d) keys w

/-- What a session knows of its creations: links are kept, the created tasks are linked in the
session and in every commit after the one that stores them, and they belong to distinct nodes
that had no link. -/
structure Logged (s : RunState) (log : List Creation) (w : Work) : Prop where
  nodup : w.cur.keys.Nodup
  keeps : ∀ k, s.Linked k → w.cur.Linked k ∧ ∀ c ∈ w.commits, c.Linked k
  stored : ∀ e ∈ log, e.commit ≤ w.commits.length
  created : ∀ e ∈ log, w.cur.Linked e.node ∧ ∀ c ∈ w.commits.drop e.commit, c.Linked e.node
  fresh : ∀ e ∈ log, ¬ s.Linked e.node
  once : (log.map Creation.node).Nodup

variable {log : List Creation}

theorem Logged.of_cur (h : Logged s log w) (hc : w'.commits = w.commits)
    (hn : w'.cur.keys.Nodup) (hlink : ∀ k, w.cur.Linked k → w'.cur.Linked k) :
    Logged s log w' where
  nodup := hn
  keeps k hk := by
    rw [hc]
    exact ⟨hlink k (h.keeps k hk).1, (h.keeps k hk).2⟩
  stored e he := by
    rw [hc]
    exact h.stored e he
  created e he := by
    rw [hc]
    exact ⟨hlink e.node (h.created e he).1, (h.created e he).2⟩
  fresh := h.fresh
  once := h.once

theorem Logged.commit (h : Logged s log w) : Logged s log w.commit where
  nodup := h.nodup
  keeps k hk := by
    refine ⟨(h.keeps k hk).1, ?_⟩
    intro c hc
    rcases List.mem_append.mp hc with hc | hc
    · exact (h.keeps k hk).2 c hc
    · obtain rfl := List.mem_singleton.mp hc
      exact (h.keeps k hk).1
  stored e he := by
    have hle := h.stored e he
    simp only [Work.commit, List.length_append, List.length_singleton]
    omega
  created e he := by
    refine ⟨(h.created e he).1, ?_⟩
    intro c hc
    simp only [Work.commit, List.drop_append_of_le_length (h.stored e he)] at hc
    rcases List.mem_append.mp hc with hc | hc
    · exact (h.created e he).2 c hc
    · obtain rfl := List.mem_singleton.mp hc
      exact (h.created e he).1
  fresh := h.fresh
  once := h.once

theorem Logged.put (h : Logged s log w) (hn : w.cur.node? n.nodeKey = some n)
    (hkey : n'.nodeKey = n.nodeKey)
    (hlink : n.execTaskId.isSome = true → n'.execTaskId.isSome = true) :
    Logged s log (w.put n') := by
  refine h.of_cur rfl ?_ fun k hk => linked_write hn hkey hlink hk
  show (w.cur.setNode n'.nodeKey fun _ => n').keys.Nodup
  rw [hkey, keys_write hn hkey]
  exact h.nodup

theorem Logged.link (h : Logged s log w) (taskId : ℕ) (hn : w.cur.node? n.nodeKey = some n)
    (hnone : n.execTaskId = none) (hkey : n'.nodeKey = n.nodeKey)
    (hlink : n'.execTaskId.isSome = true) :
    Logged s (log ++ [⟨n.nodeKey, taskId, w.commits.length⟩]) (w.put n') := by
  have hnot : ¬ w.cur.Linked n.nodeKey := by
    rw [RunState.Linked, hn, Option.bind_some, hnone]
    exact Bool.false_ne_true
  have hput := h.put hn hkey fun _ => hlink
  refine ⟨hput.nodup, hput.keeps, ?_, ?_, ?_, ?_⟩
  · intro e he
    rcases List.mem_append.mp he with he | he
    · exact hput.stored e he
    · obtain rfl := List.mem_singleton.mp he
      exact le_rfl
  · intro e he
    rcases List.mem_append.mp he with he | he
    · exact hput.created e he
    · obtain rfl := List.mem_singleton.mp he
      refine ⟨linked_write_self hn hkey hlink, ?_⟩
      show ∀ c ∈ w.commits.drop w.commits.length, _
      rw [List.drop_length]
      intro c hc
      cases hc
  · intro e he hs
    rcases List.mem_append.mp he with he | he
    · exact h.fresh e he hs
    · obtain rfl := List.mem_singleton.mp he
      exact hnot (h.keeps n.nodeKey hs).1
  · refine Table.nodup_concat h.once fun hmem => ?_
    obtain ⟨e, he, heq⟩ := List.mem_map.mp hmem
    have hnode : e.node = n.nodeKey := heq
    exact hnot (hnode ▸ (h.created e he).1)

theorem Logged.congr (h : Logged s log w) (hcur : w'.cur = w.cur)
    (hc : w'.commits = w.commits) : Logged s log w' := by
  refine h.of_cur hc (hcur ▸ h.nodup) fun k hk => ?_
  rw [hcur]
  exact hk

theorem Logged.setExec (h : Logged s log w) (exec : ExecDb) : Logged s log (w.setExec exec) :=
  h.of_cur rfl h.nodup fun _ hk => (linked_congr rfl).mpr hk

/-! ### One visit -/

theorem Logged.silent (h : Logged s log w') (hins : w'.inserted = w.inserted) :
    Logged s (log ++ visitLog w k w') w' := by
  rw [visitLog, if_pos hins, List.append_nil]
  exact h

theorem visitLog_of_cons {id : ℕ} (h : w'.inserted = id :: w.inserted) :
    visitLog w k w' = [⟨k, id, w.commits.length + 1⟩] := by
  rw [visitLog, if_neg (by rw [h]; simp), h]
  rfl

theorem createExecTask_logged {dn : Json} (h : Logged s log w)
    (hn : w.cur.node? n.nodeKey = some n) (hnone : n.execTaskId = none)
    (hcreate : createExecTask env w n dn = .ok w') :
    Logged s (log ++ visitLog w n.nodeKey w') w' := by
  obtain ⟨spec, exec, c, -, -, hc⟩ := createExecTask_eq_ok hcreate
  rw [visitLog_of_cons hc.inserted]
  -- the first commit stores the task alone
  have hstored : Logged s log (w.setExec exec).commit := (h.setExec exec).commit
  have hlen : w.commits.length + 1 = (w.setExec exec).commit.commits.length := by
    simp [Work.commit, Work.setExec]
  rw [hlen]
  have hlinked : Logged s (log ++ [⟨n.nodeKey, c.id, _⟩])
      ((w.setExec exec).commit.put (linkedRow env n c)) :=
    hstored.link c.id hn hnone (linkedRow_key env n c)
      (by rw [linkedRow_execTaskId]; rfl)
  obtain ⟨linked, rfl, hrows⟩ := hc.rows
  have hcur : ((w.setExec exec).commit.put (linkedRow env n c)).cur =
      ({ w.cur with exec := exec } : RunState).setNode n.nodeKey fun _ => linkedRow env n c := by
    rw [← linkedRow_key env n c]
    rfl
  split_ifs at hrows with hreq
  · obtain ⟨hcur', hcommits⟩ := hrows
    exact hlinked.congr (hcur'.trans hcur.symm) hcommits
  · obtain ⟨hcur', hcommits⟩ := hrows
    refine (hlinked.commit.setExec
      (execDispatch env.lower env.dispatch exec c.id).1).commit.congr ?_ ?_
    · rw [hcur', ← hcur]
      rfl
    · rw [hcommits, hcur', ← hcur]
      simp [Work.commit, Work.setExec, Work.put]

/-- **One visit** keeps the record of the creations. -/
theorem Advanced.logged (ha : Advanced env d w n w') (hn : w.cur.node? n.nodeKey = some n)
    (h : Logged s log w) : Logged s (log ++ visitLog w n.nodeKey w') w' := by
  -- a row that is written back with its link creates nothing
  have hput : ∀ {n' : WorkflowNodeRun}, n'.nodeKey = n.nodeKey → n'.execTaskId = n.execTaskId →
      Logged s (log ++ visitLog w n.nodeKey (w.put n')) (w.put n') := by
    intro n' hkey hlink
    exact (h.put hn hkey fun hs => by rw [hlink]; exact hs).silent rfl
  cases ha with
  | idle => exact h.silent rfl
  | timeout _ _ => exact hput rfl rfl
  | due _ => exact hput rfl rfl
  | callback _ => exact hput rfl rfl
  | approval _ _ hcreate =>
      rw [createApproval] at hcreate
      dsimp only at hcreate
      split_ifs at hcreate
      obtain rfl := Except.ok.inj hcreate
      refine Logged.silent ?_ rfl
      exact (h.setExec _).put (n := n) hn rfl id
  | task _ hnone hcreate => exact createExecTask_logged h hn hnone hcreate
  | poll _ _ hpoll =>
      obtain ⟨hkey, -, hlink, -⟩ := pollExecTask_links hpoll
      exact hput hkey hlink
  | decision _ hdec =>
      obtain ⟨hkey, -, hlink, -⟩ := approvalDecision_links hdec
      exact hput hkey hlink

/-! ### The loops and the step -/

theorem loop_logged {f : Work → WorkflowNodeRun → Except PyErr Work}
    (hf : ∀ {w w' : Work} {n : WorkflowNodeRun}, f w n = .ok w' →
      w' = w ∨ Advanced env d w n w') (ks : List String) :
    ∀ (log : List Creation) (w : Work), Logged s log w →
      (∀ w', ks.foldlM (forNodes f) w = .ok w' → Logged s (log ++ loopLog f ks w) w') ∧
      ∀ a, ks.foldlM (forNodes f) w = .error a →
        ∃ w₁, Logged s (log ++ loopLog f ks w) w₁ ∧ a.commits = w₁.commits := by
  induction ks with
  | nil =>
      intro log w hw
      rw [loopLog, List.append_nil]
      refine ⟨fun w' h => ?_, fun a h => ?_⟩
      · obtain rfl : w = w' := Except.ok.inj h
        exact hw
      · exact absurd h (by simp [pure, Except.pure])
  | cons k ks ih =>
      intro log w hw
      simp only [List.foldlM_cons, bind, Except.bind, loopLog]
      rcases hk : forNodes f w k with a₀ | w₀
      · simp only [List.append_nil]
        refine ⟨fun w' h => absurd h (by simp), fun a h => ?_⟩
        obtain rfl : a₀ = a := Except.error.inj h
        exact ⟨w, hw, commits_of_forNodes_error hk⟩
      · simp only [← List.append_assoc]
        refine ih _ w₀ ?_
        rcases forNodes_eq_ok hk with rfl | ⟨n, rfl, hn, hstep⟩
        · exact hw.silent rfl
        · rcases hf hstep with rfl | hadv
          · exact hw.silent rfl
          · exact hadv.logged hn hw

theorem activateAt_logged (h : Logged s log w) (k : String) :
    Logged s log (activateAt env d w k) := by
  rw [activateAt]
  split
  · exact h
  rename_i n hn
  obtain rfl : n.nodeKey = k := Table.key_of_find hn
  split_ifs
  · split
    · have hput : Logged s log (w.put (activate (env.clock n.nodeKey 0) n)) := h.put hn rfl id
      exact hput.congr rfl rfl
    · exact h.put hn rfl id
    · exact h
  · exact h

theorem foldl_activateAt_logged (env : StepEnv) (ks : List String) (h : Logged s log w) :
    Logged s log (ks.foldl (activateAt env d) w) := by
  induction ks generalizing w with
  | nil => exact h
  | cons k ks ih => exact ih (activateAt_logged h k)

theorem beginStep_logged (env : StepEnv) (hn : s.keys.Nodup) :
    Logged s [] (beginStep env s) := by
  have hperm : (beginStep env s).cur.nodes.Perm s.nodes := env.order.perm s.nodes
  have hnode : ∀ k, (beginStep env s).cur.node? k = s.node? k := RunState.node?_of_perm hn hperm
  refine ⟨(hperm.map _).nodup_iff.mpr hn, ?_, ?_, ?_, ?_, List.nodup_nil⟩
  · intro k hk
    refine ⟨?_, fun c hc => by cases hc⟩
    rw [RunState.Linked, hnode]
    exact hk
  all_goals
    intro e he
    cases he

/-- **The tasks of a step.** They are created for distinct nodes without a link, and every commit
after the one that stores a task has its link; a step that returns has such a commit. -/
theorem step_logged (env : StepEnv) (d : Json) (hn : s.keys.Nodup) :
    (∃ w, Logged s (stepLog env d s) w ∧ (step env d s).commits = w.commits) ∧
      ∀ b, (step env d s).result = .ok b →
        ∀ e ∈ stepLog env d s, e.commit < (step env d s).commits.length := by
  unfold step stepLog
  split_ifs with hterm
  · refine ⟨⟨⟨s, [], [], [], false⟩, ⟨hn, ?_, ?_, ?_, ?_, List.nodup_nil⟩, rfl⟩, ?_⟩
    · exact fun k hk => ⟨hk, fun c hc => by cases hc⟩
    · exact fun e he => by cases he
    · exact fun e he => by cases he
    · exact fun e he => by cases he
    · exact fun b _ e he => by cases he
  dsimp only
  set keys := (beginStep env s).cur.keys
  have h₁ : Logged s [] (keys.foldl (activateAt env d) (beginStep env s)) :=
    foldl_activateAt_logged env keys (beginStep_logged env hn)
  set w₁ := keys.foldl (activateAt env d) (beginStep env s)
  have hrun : ∀ {w w' : Work} {n : WorkflowNodeRun}, stepRunning env d w n = .ok w' →
      w' = w ∨ Advanced env d w n w' := fun h => (stepRunning_advanced h).imp_right And.right
  have hwait : ∀ {w w' : Work} {n : WorkflowNodeRun}, stepWaiting env d w n = .ok w' →
      w' = w ∨ Advanced env d w n w' := fun h => (stepWaiting_advanced h).imp_right And.right
  obtain ⟨hok₂, herr₂⟩ := loop_logged hrun keys [] w₁ h₁
  simp only [bind, Except.bind]
  rcases h₂ : keys.foldlM (forNodes (stepRunning env d)) w₁ with a | w₂
  · obtain ⟨w, hw, hc⟩ := herr₂ a h₂
    simp only [List.append_nil]
    exact ⟨⟨w, hw, hc⟩, fun b hb => absurd hb (by simp)⟩
  obtain ⟨hok₃, herr₃⟩ := loop_logged hwait keys _ w₂ (hok₂ w₂ h₂)
  simp only
  rcases h₃ : keys.foldlM (forNodes (stepWaiting env d)) w₂ with a | w₃
  · obtain ⟨w, hw, hc⟩ := herr₃ a h₃
    exact ⟨⟨w, hw, hc⟩, fun b hb => absurd hb (by simp)⟩
  have hfin : Logged s (loopLog (stepRunning env d) keys w₁ ++
      loopLog (stepWaiting env d) keys w₂) (finalise env w₃) := by
    refine (hok₃ w₃ h₃).of_cur (finalise_commits env w₃) ?_ fun k hk => ?_
    · rw [RunState.keys, finalise_nodes]
      exact (hok₃ w₃ h₃).nodup
    · exact (linked_congr (finalise_nodes env w₃)).mpr hk
  refine ⟨⟨_, hfin.commit, rfl⟩, fun b _ e he => ?_⟩
  have hle := hfin.stored e he
  simp only [List.length_append, List.length_singleton]
  omega

/-! ### The life of a run -/

/-- The rows of a run, and the tasks that were created for its nodes and survived. -/
structure Life where
  state : RunState
  created : List Creation

/-- What happens to a run: a complete call, or a step whose process stops after its `n`-th
commit. The driver that `recover_runs` starts afterwards keeps nothing but the rows, so its first
call is again one of these. -/
inductive LifeOp
  | call (op : RunOp)
  | stopped (env : StepEnv) (n : ℕ)

/-- The commits that a step of the operation leaves in the database. -/
def LifeOp.survivors (d : Json) (s : RunState) : LifeOp → List RunState
  | .call (.step env) => (step env d s).commits
  | .stopped env n => (step env d s).commits.take n
  | _ => []

/-- The tasks that a step of the operation creates, stored or not. -/
def LifeOp.creations (d : Json) (s : RunState) : LifeOp → List Creation
  | .call (.step env) => stepLog env d s
  | .stopped env _ => stepLog env d s
  | _ => []

/-- The rows that the operation leaves. -/
def LifeOp.next (d : Json) (s : RunState) : LifeOp → RunState
  | .call op => applyOp d s op
  | .stopped env n => (s :: (step env d s).commits.take n).getLast (List.cons_ne_nil _ _)

/-- One operation. A task survives if the commit that stores it does. -/
def Life.apply (d : Json) (l : Life) (op : LifeOp) : Life where
  state := op.next d l.state
  created := l.created ++
    (op.creations d l.state).filter fun e => decide (e.commit ≤ (op.survivors d l.state).length)

/-- The step of the operation does not end right after a commit that stores a task: the process
does not stop there, and no exception is raised before the next commit. -/
def LinksStored (d : Json) (l : Life) (op : LifeOp) : Prop :=
  ∀ e ∈ op.creations d l.state, e.commit ≠ (op.survivors d l.state).length

instance (d : Json) (l : Life) (op : LifeOp) : Decidable (LinksStored d l op) :=
  inferInstanceAs (Decidable (∀ e ∈ op.creations d l.state, _))

theorem linksStored_of_returns {l : Life} {b : Bool} (hn : l.state.keys.Nodup)
    (h : (step env d l.state).result = .ok b) : LinksStored d l (.call (.step env)) :=
  fun e he => Nat.ne_of_lt ((step_logged env d hn).2 b h e he)

/-- The surviving tasks belong to distinct nodes, which are linked. -/
structure Once (l : Life) : Prop where
  nodup : l.state.keys.Nodup
  linked : ∀ e ∈ l.created, l.state.Linked e.node
  once : (l.created.map Creation.node).Nodup

theorem Once.of_keeps {l : Life} (h : Once l) {s' : RunState} (hn : s'.keys.Nodup)
    (hlink : ∀ k, l.state.Linked k → s'.Linked k) : Once { l with state := s' } :=
  ⟨hn, fun e he => hlink e.node (h.linked e he), h.once⟩

/-- A step that leaves its first commits, the last of them not one that stores a task. -/
theorem Once.of_step {l : Life} (h : Once l) (env : StepEnv) {cs : List RunState}
    (hpre : cs <+: (step env d l.state).commits)
    (hok : ∀ e ∈ stepLog env d l.state, e.commit ≠ cs.length) :
    Once ⟨(l.state :: cs).getLast (List.cons_ne_nil _ _),
      l.created ++ (stepLog env d l.state).filter fun e => decide (e.commit ≤ cs.length)⟩ := by
  obtain ⟨⟨w, hlog, hw⟩, -⟩ := step_logged env d h.nodup
  rw [hw] at hpre
  -- a node linked before the step is linked after it
  have hkeeps : ∀ k, l.state.Linked k →
      ((l.state :: cs).getLast (List.cons_ne_nil _ _)).Linked k := by
    intro k hk
    rcases List.mem_cons.mp (List.getLast_mem (List.cons_ne_nil l.state cs)) with heq | hmem
    · rw [heq]
      exact hk
    · exact (hlog.keeps k hk).2 _ (hpre.subset hmem)
  -- a task that survives is followed by a surviving commit
  have hnew : ∀ e ∈ stepLog env d l.state, e.commit ≤ cs.length →
      ((l.state :: cs).getLast (List.cons_ne_nil _ _)).Linked e.node := by
    intro e he hle
    have hlt : e.commit < cs.length := Nat.lt_of_le_of_ne hle (hok e he)
    have hne : cs ≠ [] := List.ne_nil_of_length_pos (by omega)
    rw [List.getLast_cons hne]
    refine (hlog.created e he).2 _ ?_
    obtain ⟨rest, hrest⟩ := hpre
    rw [← hrest, List.drop_append_of_le_length hle]
    refine List.mem_append_left _ ?_
    have hdrop : cs.drop e.commit ≠ [] := by
      rw [Ne, List.drop_eq_nil_iff]
      omega
    rw [← List.getLast_drop hdrop]
    exact List.getLast_mem hdrop
  refine ⟨?_, ?_, ?_⟩
  · have hmicros : Micros d l.state ((l.state :: cs).getLast (List.cons_ne_nil _ _)) := by
      refine micros_getLast ((step_tracks env d l.state).sublist ?_)
      rw [hw]
      exact hpre.sublist.cons_cons _
    exact hmicros.nodup h.nodup
  · intro e he
    rcases List.mem_append.mp he with he | he
    · exact hkeeps e.node (h.linked e he)
    · obtain ⟨hmem, hle⟩ := List.mem_filter.mp he
      exact hnew e hmem (of_decide_eq_true hle)
  · rw [List.map_append, List.nodup_append]
    refine ⟨h.once, (List.filter_sublist.map _).nodup hlog.once, ?_⟩
    intro a ha b hb heq
    obtain ⟨e, he, rfl⟩ := List.mem_map.mp ha
    obtain ⟨e', he', rfl⟩ := List.mem_map.mp hb
    exact hlog.fresh e' (List.mem_of_mem_filter he') (heq ▸ h.linked e he)

theorem linked_applyOp {op : RunOp} (hop : ∀ env, op ≠ .step env) (h : s.Linked k) :
    (applyOp d s op).Linked k := by
  cases op with
  | step env => exact absurd rfl (hop env)
  | callback req =>
      rw [applyOp]
      rcases hc : callbackNode s req with e | s₁
      · exact h
      · obtain ⟨n, out, hn, -, -, rfl⟩ := callbackNode_eq_ok hc
        have hkey : n.nodeKey = req.nodeKey := Table.key_of_find hn
        rw [← hkey] at hn
        have hw : (s.setNode (accept out req.now n).nodeKey fun _ =>
            accept out req.now n).Linked k := linked_write hn rfl id h
        rw [afterCall, ← hkey]
        exact hw
  | cancelRun env g =>
      rw [applyOp]
      rcases hc : LarkPlat.cancelRun env g s with e | s₁
      · exact h
      · obtain ⟨-, rfl⟩ := cancelRun_eq_ok hc
        rw [afterCall, RunState.Linked, node?_cancelRows]
        rw [RunState.Linked] at h
        rcases hn : s.node? k with _ | n
        · rw [hn] at h
          exact h
        · rw [hn] at h
          have hlink : (cancelNode env.now n).execTaskId = n.execTaskId := by
            rw [cancelNode]
            split_ifs <;> rfl
          rw [Option.map_some, Option.bind_some, hlink]
          exact h
  | cancelRelease now g =>
      rw [applyOp]
      rcases hc : LarkPlat.cancelRelease now g s with e | s₁
      · exact h
      · exact (linked_congr (cancelRelease_nodes hc)).mpr h
  | rollbackRun lower env g =>
      rw [applyOp]
      rcases hc : LarkPlat.rollbackRun lower env g s with e | ⟨s₁, comp⟩
      · exact h
      · exact (linked_congr (rollbackRun_nodes hc)).mpr h
  | world release exec => exact (linked_congr rfl).mpr h

theorem nodup_applyOp (op : RunOp) (h : s.keys.Nodup) : (applyOp d s op).keys.Nodup := by
  rcases applyOp_cases d s op with hm | ⟨env, g, -, -, hc⟩ | hn
  · exact hm.nodup h
  · rw [hc, keys_cancelRows]
    exact h
  · rw [RunState.keys, hn]
    exact h

/-- **One operation** that leaves no task without its link keeps the tasks of the nodes single. -/
theorem Once.apply {l : Life} (h : Once l) {op : LifeOp} (hok : LinksStored d l op) :
    Once (l.apply d op) := by
  cases op with
  | stopped env n => exact h.of_step env (List.take_prefix _ _) hok
  | call op =>
      -- a call without a step creates nothing for a node
      have hcall : (∀ env, op ≠ .step env) → LifeOp.creations d l.state (.call op) = [] →
          Once (l.apply d (.call op)) := by
        intro hop hnil
        rw [Life.apply, hnil, List.filter_nil, List.append_nil]
        exact h.of_keeps (nodup_applyOp op h.nodup) fun k hk => linked_applyOp hop hk
      cases op with
      | step env => exact h.of_step env (List.prefix_refl _) hok
      | callback req => exact hcall (fun _ => by simp) rfl
      | cancelRun env g => exact hcall (fun _ => by simp) rfl
      | cancelRelease now g => exact hcall (fun _ => by simp) rfl
      | rollbackRun lower env g => exact hcall (fun _ => by simp) rfl
      | world release exec => exact hcall (fun _ => by simp) rfl

/-- The life of a new run. -/
def Life.start (D : Definition) (h : RunHeader) (release : Option Release) (exec : ExecDb) :
    Life where
  state := startRun h D.json release exec
  created := []

/-- Along a history, at most one task is created for the node. -/
def CreatedOnce (d : Json) (l : Life) (ops : List LifeOp) (k : String) : Prop :=
  ((Machine.run (Life.apply d) l ops).created.map Creation.node).count k ≤ 1

/-- **One task per node.** For every definition, every run of it and every history of calls,
stops and restarts in which no step ends right after the commit that stores a task, at most one
exec task is created for each node. -/
theorem one_task_per_node (D : Definition) (h : RunHeader) (release : Option Release)
    (exec : ExecDb) (ops : List LifeOp)
    (hok : Machine.Meets (Life.apply D.json) (LinksStored D.json) (Life.start D h release exec)
      ops) (k : String) : CreatedOnce D.json (Life.start D h release exec) ops k := by
  have hstart : Once (Life.start D h release exec) := by
    refine ⟨(sound_startRun D h release exec).nodup, fun e he => ?_, List.nodup_nil⟩
    cases he
  have honce : Once (Machine.run (Life.apply D.json) (Life.start D h release exec) ops) :=
    Machine.run_invariant_of_meets (fun l op hl hstored => hl.apply hstored) hstart hok
  exact List.nodup_iff_count_le_one.mp honce.once k

/-- One node that runs a command on a host. -/
def commandDefinition : Definition where
  json := .obj [("nodes", .arr [
    .obj [("key", .str "deploy"), ("type", .str "exec_task"),
      ("config", .obj [("host_ids", .arr [.int 1]), ("command", .str "uptime")])]])]
  valid := by decide +kernel

/-- A host to run commands on. -/
def deployHost : ExecDb := ExecDb.fresh [⟨1, none, "agent", some "agent-1"⟩] ⟨[], none, false⟩

/-- A stop after the commit of the link, and a restart: the second step finds the link. -/
theorem one_task_per_node_after_stop :
    CreatedOnce commandDefinition.json (Life.start commandDefinition manualHeader none deployHost)
      [.call (.step (StepEnv.atTime 0)), .stopped (StepEnv.atTime 1) 2,
        .call (.step (StepEnv.atTime 2))] "deploy" :=
  one_task_per_node commandDefinition manualHeader none deployHost _ (by decide +kernel) "deploy"

/-- A stop between the commit of the task and the commit of its link, and a restart: the node gets
a second task. -/
theorem stop_before_link_creates_twice :
    ¬ CreatedOnce commandDefinition.json (Life.start commandDefinition manualHeader none deployHost)
      [.call (.step (StepEnv.atTime 0)), .stopped (StepEnv.atTime 1) 1,
        .call (.step (StepEnv.atTime 2))] "deploy" := by
  unfold CreatedOnce
  decide +kernel

end LarkPlat
