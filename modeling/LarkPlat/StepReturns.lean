import LarkPlat.StepRows

/-!
# When a Step Returns

A step raises if one of its visits does, and a visit raises if something that it reads cannot be
read or if an identifier that it draws is taken. Both can be told from the rows before the step:
the activation loop changes nothing that the second loop reads, the second loop returns exactly if
its nodes fit, and the third loop reads the timeouts of the nodes that await something.

## Main results

* `Started.reads`: the activation loop changes nothing that the second loop reads.
* `waitingLoop_returns`: the third loop returns exactly if the timeouts it looks at can be read.
* `step_returns_iff`: when a step returns.
-/

namespace LarkPlat

variable {env : StepEnv} {d : Json} {s : RunState} {w w' : Work} {n n' : WorkflowNodeRun}
  {ks : List String}

/-! ### The activation loop -/

/-- The row of a node after the activation loop: a pending node may have been activated or
skipped. -/
inductive Begun (activated : List String) (n : WorkflowNodeRun) : WorkflowNodeRun → Prop
  | same (hnot : n.nodeKey ∉ activated) : Begun activated n n
  | activated (hst : n.status = .pending) (hmem : n.nodeKey ∈ activated) (t : ℚ) :
      Begun activated n (activate t n)
  | skipped (hst : n.status = .pending) (t : ℚ) : Begun activated n (skip t n)

theorem Begun.congr {act act' : List String} (h : Begun act n n')
    (hiff : n.nodeKey ∈ act' ↔ n.nodeKey ∈ act) : Begun act' n n' := by
  cases h with
  | same hnot => exact .same fun hc => hnot (hiff.mp hc)
  | activated hst hmem t => exact .activated hst (hiff.mpr hmem) t
  | skipped hst t => exact .skipped hst t

/-- The session `w'` has activated and skipped pending nodes of the session `w`, and done nothing
else. -/
structure Started (w w' : Work) : Prop where
  fresh : w.activated = []
  exec : w'.cur.exec = w.cur.exec
  run : w'.cur.run = w.cur.run
  inserted : w'.inserted = w.inserted
  commits : w'.commits = w.commits
  keys : w'.cur.keys = w.cur.keys
  rows : ∀ k, w.cur.node? k = none ∧ w'.cur.node? k = none ∨
    ∃ n n', w.cur.node? k = some n ∧ w'.cur.node? k = some n' ∧ Begun w'.activated n n'

theorem Started.refl (h : w.activated = []) : Started w w := by
  refine ⟨h, rfl, rfl, rfl, rfl, rfl, ?_⟩
  intro k
  rcases hn : w.cur.node? k with _ | n
  · exact Or.inl ⟨rfl, rfl⟩
  · refine Or.inr ⟨n, n, rfl, rfl, .same ?_⟩
    rw [h]
    exact List.not_mem_nil

theorem Started.put {act : List String} (h : Started w w')
    (hn : w'.cur.node? n.nodeKey = some n) (hst : n.status = .pending)
    (hkey : n'.nodeKey = n.nodeKey) (hact : ∀ j, j ≠ n.nodeKey → (j ∈ act ↔ j ∈ w'.activated))
    (hb : Begun act n n') : Started w { w'.put n' with activated := act } := by
  have hcur : (w'.put n').cur = w'.cur.setNode n.nodeKey fun _ => n' := by rw [← hkey]; rfl
  refine ⟨h.fresh, h.exec, h.run, h.inserted, h.commits, ?_, ?_⟩
  · show (w'.put n').cur.keys = _
    rw [hcur, keys_write hn hkey]
    exact h.keys
  · intro k
    show _ ∧ (w'.put n').cur.node? k = none ∨
      ∃ m m', _ ∧ (w'.put n').cur.node? k = some m' ∧ Begun act m m'
    rw [hcur]
    by_cases hk : k = n.nodeKey
    · subst hk
      rw [node?_write_self hn hkey]
      obtain ⟨-, hnone⟩ | ⟨m, m', hm, hm', hbm⟩ := h.rows n.nodeKey
      · cases hn.symm.trans hnone
      obtain rfl := Option.some.inj (hn.symm.trans hm')
      -- a node that is still pending has its row of the beginning
      cases hbm with
      | same hnot => exact Or.inr ⟨n, n', hm, rfl, hb⟩
      | activated hst' hmem t => cases hst
      | skipped hst' t => cases hst
    · rw [node?_write_ne hn hkey hk]
      obtain hnone | ⟨m, m', hm, hm', hbm⟩ := h.rows k
      · exact Or.inl hnone
      · obtain rfl : m.nodeKey = k := Table.key_of_find hm
        exact Or.inr ⟨m, m', hm, hm', hbm.congr (hact _ hk)⟩

theorem Started.activateAt (h : Started w w') (env : StepEnv) (d : Json) (k : String) :
    Started w (activateAt env d w' k) := by
  unfold LarkPlat.activateAt
  rcases hn : w'.cur.node? k with _ | n
  · exact h
  obtain rfl : n.nodeKey = k := Table.key_of_find hn
  dsimp only
  split_ifs with hst
  · split
    · refine h.put hn hst rfl ?_ (.activated hst List.mem_cons_self _)
      intro j hj
      rw [List.mem_cons]
      exact or_iff_right hj
    · exact h.put hn hst rfl (fun _ _ => Iff.rfl) (.skipped hst _)
    · exact h
  · exact h

theorem Started.foldl (h : Started w w') (env : StepEnv) (d : Json) (ks : List String) :
    Started w (ks.foldl (LarkPlat.activateAt env d) w') := by
  induction ks generalizing w' with
  | nil => exact h
  | cons k ks ih => exact ih (h.activateAt env d k)

theorem started_beginStep (env : StepEnv) (d : Json) (s : RunState) (ks : List String) :
    Started (beginStep env s) (ks.foldl (activateAt env d) (beginStep env s)) :=
  (Started.refl rfl).foldl env d ks

theorem Begun.advances (h : Begun w'.activated n n') (hw : w.activated = []) :
    advances w' n' = advances w n := by
  unfold LarkPlat.advances
  rw [hw]
  cases h with
  | same hnot => simp [hnot]
  | activated hst hmem t => simp [activate, hst, hmem]
  | skipped hst t => simp [skip, hst]

/-- A node that is not advanced draws nothing, reads nothing and begins no waiting. -/
theorem reads_of_not_advances (hadv : advances w n = false) :
    need env d w n = .nothing ∧ readable env d w n = true ∧
      (n.status ≠ .waiting → awaiting env d w n = false) := by
  have hneed : need env d w n = .nothing := by
    unfold need
    rw [hadv]
    rfl
  refine ⟨hneed, ?_, ?_⟩
  · unfold readable
    rw [hadv]
    rfl
  · intro hst
    unfold awaiting
    rw [hadv, hneed]
    cases hs : n.status <;> first | rfl | exact absurd hs hst

theorem reads_of_pending (hw : w.activated = []) (hb : Begun w'.activated n n')
    (hst : n.status = .pending) (hst' : n'.status ≠ .waiting) :
    need env d w' n' = need env d w n ∧ readable env d w' n' = readable env d w n ∧
      awaiting env d w' n' = awaiting env d w n := by
  have hadv : advances w n = false := by
    unfold advances
    rw [hst]
    rfl
  have hpend : n.status ≠ .waiting := by
    rw [hst]
    exact NodeStatus.noConfusion
  obtain ⟨hneed, hread, haw⟩ := @reads_of_not_advances env d w n hadv
  obtain ⟨hneed', hread', haw'⟩ :=
    @reads_of_not_advances env d w' n' ((hb.advances hw).trans hadv)
  exact ⟨hneed'.trans hneed.symm, hread'.trans hread.symm, (haw' hst').trans (haw hpend).symm⟩

theorem Started.undecided (h : Started w w') : undecided env w' n = undecided env w n := by
  unfold LarkPlat.undecided pollExecTask approvalDecision seenStatus
  rw [h.exec, h.inserted]

/-- **The activation loop changes nothing that the second loop reads.** -/
theorem Started.reads (h : Started w w') (hb : Begun w'.activated n n') :
    need env d w' n' = need env d w n ∧ readable env d w' n' = readable env d w n ∧
      awaiting env d w' n' = awaiting env d w n := by
  have hadv := hb.advances h.fresh
  have hverdict : taskVerdict env d w' n = taskVerdict env d w n := by
    unfold taskVerdict
    rw [h.run, h.exec]
  cases hb with
  | same hnot =>
      have hneed : need env d w' n = need env d w n := by
        unfold need
        rw [hadv, hverdict]
      refine ⟨hneed, ?_, ?_⟩
      · unfold readable
        rw [hadv, hverdict]
      · unfold awaiting
        rw [hadv, hneed, h.undecided]
  | activated hst hmem t =>
      exact reads_of_pending h.fresh (.activated hst hmem t) hst NodeStatus.noConfusion
  | skipped hst t => exact reads_of_pending h.fresh (.skipped hst t) hst NodeStatus.noConfusion

theorem Begun.eq_of_awaiting {act : List String} (h : Begun act n n')
    (haw : awaiting env d w n = true) : n' = n := by
  have hst : n.status ≠ .pending := by
    intro hc
    unfold awaiting at haw
    rw [hc] at haw
    cases haw
  cases h with
  | same _ => rfl
  | activated hc _ _ => exact absurd hc hst
  | skipped hc _ => exact absurd hc hst

theorem Started.fits (h : Started w w') : Fits env d w' ks ↔ Fits env d w ks := by
  have hneeds : needs env d w' ks = needs env d w ks := by
    unfold needs
    refine List.filterMap_congr fun k _ => ?_
    obtain ⟨hn, hn'⟩ | ⟨n, n', hn, hn', hb⟩ := h.rows k
    · rw [hn, hn']
      rfl
    · rw [hn, hn', Option.map_some, Option.map_some, (h.reads hb).1]
  have hreads : (∀ k ∈ ks, ∀ n, w'.cur.node? k = some n → readable env d w' n = true) ↔
      ∀ k ∈ ks, ∀ n, w.cur.node? k = some n → readable env d w n = true := by
    refine forall₂_congr fun k _ => ?_
    obtain ⟨hn, hn'⟩ | ⟨n, n', hn, hn', hb⟩ := h.rows k
    · simp only [hn, hn', reduceCtorEq, false_imp_iff, implies_true]
    · simp only [hn, hn', Option.some.injEq, forall_eq', (h.reads hb).2.1]
  unfold Fits
  rw [hneeds, hreads, h.exec]

theorem Started.stored (h : Started w w') (hs : Stored w.cur) : Stored w'.cur where
  nodup := by
    rw [h.keys]
    exact hs.nodup
  kept := by
    rw [h.exec]
    exact hs.kept
  links k m hm := by
    rw [h.exec]
    obtain ⟨-, hn'⟩ | ⟨n, n', hn, hn', hb⟩ := h.rows k
    · cases hn'.symm.trans hm
    obtain rfl := Option.some.inj (hn'.symm.trans hm)
    have hl := hs.links k n hn
    cases hb with
    | same _ => exact hl
    | activated hst _ t => exact hl.of_same rfl rfl rfl fun _ => hst
    | skipped hst t => exact hl.of_same rfl rfl rfl fun _ => hst

/-! ### The third loop -/

/-- The timeout of the node can be read. -/
def timeoutReads (d : Json) (n : WorkflowNodeRun) : Bool :=
  (timeoutSec (defnode d n.nodeKey) d n.nodeType).toOption.isSome

theorem timedOut_of_reads (h : timeoutReads d n = true) :
    ∃ late, timedOut env n (defnode d n.nodeKey) d = .ok late := by
  unfold timeoutReads at h
  unfold timedOut
  rcases hsec : timeoutSec (defnode d n.nodeKey) d n.nodeType with e | limit
  · rw [hsec] at h
    cases h
  · rcases limit with _ | t
    · exact ⟨false, rfl⟩
    · exact ⟨_, rfl⟩

theorem timedOut_of_not_reads (h : timeoutReads d n = false) :
    ∃ e, timedOut env n (defnode d n.nodeKey) d = .error e := by
  unfold timeoutReads at h
  unfold timedOut
  rcases hsec : timeoutSec (defnode d n.nodeKey) d n.nodeType with e | limit
  · exact ⟨e, rfl⟩
  · rw [hsec] at h
    cases h

/-- If the third loop looks at the timeout of the node, it can be read. -/
def WaitsReadably (env : StepEnv) (d : Json) (w : Work) (n : WorkflowNodeRun) : Prop :=
  n.status = .waiting → undecided env w n = true → timeoutReads d n = true

/-- A visit of the third loop changes at most the row of its node, and ends or resumes it. -/
def Released (w : Work) (n : WorkflowNodeRun) (w' : Work) : Prop :=
  w' = w ∨ ∃ n', n'.nodeKey = n.nodeKey ∧ n'.status ≠ .waiting ∧ w' = w.put n'

/-- **The third loop at one node.** -/
theorem stepWaiting_visit (env : StepEnv) (d : Json) (w : Work) (n : WorkflowNodeRun) :
    (WaitsReadably env d w n → ∃ w', stepWaiting env d w n = .ok w' ∧ Released w n w') ∧
    (¬ WaitsReadably env d w n → ∃ e, stepWaiting env d w n = .error e) := by
  unfold stepWaiting WaitsReadably
  split_ifs with hst
  swap
  · exact ⟨fun _ => ⟨w, rfl, Or.inl rfl⟩, fun hc => absurd (fun h => absurd h hst) hc⟩
  rcases hund : undecided env w n with _ | _
  · obtain ⟨n', hok, hdec⟩ := @advanceWaiting_of_decided env d w n hund
    obtain ⟨hkey, -, -, -, hst', -⟩ := hdec.links
    refine ⟨fun _ => ⟨_, hok, Or.inr ⟨n', hkey, hst', rfl⟩⟩, fun hc => ?_⟩
    refine absurd (fun _ h => ?_) hc
    cases h
  rw [advanceWaiting_of_undecided hund, expireWaiting]
  rcases hreads : timeoutReads d n with _ | _
  · obtain ⟨e, he⟩ := @timedOut_of_not_reads env d n hreads
    rw [he]
    refine ⟨fun hc => ?_, fun _ => ⟨e, rfl⟩⟩
    cases hc hst rfl
  · obtain ⟨late, hlate⟩ := @timedOut_of_reads env d n hreads
    rw [hlate]
    refine ⟨fun _ => ?_, fun hc => absurd (fun _ _ => rfl) hc⟩
    cases late with
    | true =>
        refine ⟨_, rfl, Or.inr ⟨fail (env.clock n.nodeKey 2) "timeout" "timeout" n, rfl, ?_, rfl⟩⟩
        exact NodeStatus.noConfusion
    | false => exact ⟨w, rfl, Or.inl rfl⟩

theorem Released.exec (h : Released w n w') : w'.cur.exec = w.cur.exec := by
  obtain rfl | ⟨n', -, -, rfl⟩ := h
  · rfl
  · rfl

theorem Released.undecided (h : Released w n w') (m : WorkflowNodeRun) :
    undecided env w' m = undecided env w m := by
  obtain rfl | ⟨n', -, -, rfl⟩ := h
  · rfl
  · rfl

theorem Released.node?_ne (h : Released w n w') (hn : w.cur.node? n.nodeKey = some n)
    {k : String} (hk : k ≠ n.nodeKey) : w'.cur.node? k = w.cur.node? k := by
  obtain rfl | ⟨n', hkey, -, rfl⟩ := h
  · rfl
  · have hcur : (w.put n').cur = w.cur.setNode n.nodeKey fun _ => n' := by rw [← hkey]; rfl
    rw [hcur]
    exact node?_write_ne hn hkey hk

/-- The timeouts that the third loop looks at can be read. -/
def TimeoutsRead (env : StepEnv) (d : Json) (w : Work) (ks : List String) : Prop :=
  ∀ k ∈ ks, ∀ n, w.cur.node? k = some n → WaitsReadably env d w n

theorem Released.timeoutsRead (h : Released w n w') (hn : w.cur.node? n.nodeKey = some n)
    (hk : n.nodeKey ∉ ks) : TimeoutsRead env d w' ks ↔ TimeoutsRead env d w ks := by
  unfold TimeoutsRead WaitsReadably
  refine forall₂_congr fun j hj => ?_
  have hne : j ≠ n.nodeKey := by
    rintro rfl
    exact hk hj
  rw [h.node?_ne hn hne]
  simp only [h.undecided]

/-- **The third loop** returns exactly if the timeouts it looks at can be read. -/
theorem waitingLoop_returns (ks : List String) : ∀ w : Work, ks.Nodup →
    ((∃ w', ks.foldlM (forNodes (stepWaiting env d)) w = .ok w') ↔ TimeoutsRead env d w ks) := by
  induction ks with
  | nil =>
      intro w _
      refine ⟨fun _ k hk => ?_, fun _ => ⟨w, rfl⟩⟩
      cases hk
  | cons k ks ih =>
      intro w hnodup
      obtain ⟨hk, hks⟩ := List.nodup_cons.mp hnodup
      rw [TimeoutsRead, List.forall_mem_cons]
      simp only [List.foldlM_cons, bind, Except.bind, forNodes]
      rcases hn : w.cur.node? k with _ | n
      · refine (ih w hks).trans (and_iff_right ?_).symm
        intro n hc
        cases hc
      obtain rfl : n.nodeKey = k := Table.key_of_find hn
      obtain ⟨hfit, hmisfit⟩ := stepWaiting_visit env d w n
      by_cases hone : WaitsReadably env d w n
      · obtain ⟨w₀, hok, hrel⟩ := hfit hone
        simp only [hok]
        rw [show (∃ w', ks.foldlM (forNodes (stepWaiting env d)) w₀ = .ok w') ↔ _ from ih w₀ hks,
          hrel.timeoutsRead hn hk]
        refine (and_iff_right ?_).symm
        intro m hm
        obtain rfl := Option.some.inj hm
        exact hone
      · obtain ⟨e, he⟩ := hmisfit hone
        simp only [he]
        refine ⟨?_, fun hc => absurd (hc.1 n rfl) hone⟩
        rintro ⟨w', hw'⟩
        cases hw'

theorem RunningRows.timeoutsRead (h : RunningRows env d ks w w') :
    TimeoutsRead env d w' ks ↔ ∀ k ∈ ks, ∀ n, w.cur.node? k = some n →
      awaiting env d w n = true → timeoutReads d n = true := by
  have hsame : ∀ {n n' : WorkflowNodeRun}, Turned env d w n w' n' →
      timeoutReads d n' = timeoutReads d n := by
    intro n n' ht
    unfold timeoutReads
    rw [ht.key, ht.type]
  constructor
  · intro hread k hk n hn haw
    obtain ⟨n', hn', ht⟩ := h.rows k hk n hn
    obtain ⟨hst, hund⟩ := ht.awaits.mpr haw
    rw [← hsame ht]
    exact hread k hk n' hn' hst hund
  · intro hread k hk n' hn' hst hund
    have hmem : k ∈ w.cur.keys := by
      rw [← h.keys]
      exact List.mem_map.mpr ⟨n', Table.mem_of_find hn', Table.key_of_find hn'⟩
    obtain ⟨n, hn⟩ := Table.exists_find_of_mem_keys hmem
    obtain ⟨m, hm, ht⟩ := h.rows k hk n hn
    obtain rfl := Option.some.inj (hn'.symm.trans hm)
    rw [hsame ht]
    exact hread k hk n hn (ht.awaits.mp ⟨hst, hund⟩)

/-! ### The step -/

theorem mem_beginStep {env : StepEnv} : n ∈ (beginStep env s).cur.nodes ↔ n ∈ s.nodes :=
  (env.order.perm s.nodes).mem_iff

theorem node?_beginStep (env : StepEnv) (hn : s.keys.Nodup) (k : String) :
    (beginStep env s).cur.node? k = s.node? k :=
  RunState.node?_of_perm hn (env.order.perm s.nodes) k

theorem Stored.beginStep (h : Stored s) (env : StepEnv) : Stored (beginStep env s).cur where
  nodup := ((env.order.perm s.nodes).map _).nodup_iff.mpr h.nodup
  kept := h.kept
  links k n hn := h.links k n ((node?_beginStep env h.nodup k).symm.trans hn)

/-- A statement about the nodes that a step finds is one about the stored rows. -/
theorem forall_found_iff {P : WorkflowNodeRun → Prop} (hs : s.keys.Nodup) :
    (∀ k ∈ s.keys, ∀ n, s.node? k = some n → P n) ↔ ∀ n ∈ s.nodes, P n := by
  constructor
  · intro h n hn
    exact h n.nodeKey (List.mem_map_of_mem hn) n ((RunState.node?_eq_some_iff hs).mpr ⟨hn, rfl⟩)
  · intro h k _ n hn
    exact h n (Table.mem_of_find hn)

/-- The step can be carried out at every node: the run has ended; or everything that is read for
the running nodes can be read, the identifiers of their requests are free, and the timeouts of the
nodes that await something can be read. -/
def RunsThrough (env : StepEnv) (d : Json) (s : RunState) : Prop :=
  s.run.status.terminal = true ∨
    Fits env d (beginStep env s) (beginStep env s).cur.keys ∧
      ∀ n ∈ s.nodes, awaiting env d (beginStep env s) n = true → timeoutReads d n = true

/-- The loops of a step that may raise. -/
def stepLoops (env : StepEnv) (d : Json) (s : RunState) : Except Aborted Work := do
  let w ← (beginStep env s).cur.keys.foldlM (forNodes (stepRunning env d))
    ((beginStep env s).cur.keys.foldl (activateAt env d) (beginStep env s))
  (beginStep env s).cur.keys.foldlM (forNodes (stepWaiting env d)) w

theorem step_eq_loops (hrun : s.run.status.terminal = false) :
    step env d s = match stepLoops env d s with
      | .error a => ⟨a.commits, .error a.error⟩
      | .ok w => ⟨(finalise env w).commits ++ [(finalise env w).cur],
          .ok (finalise env w).progressed⟩ := by
  rw [step, if_neg (by rw [hrun]; exact Bool.false_ne_true)]
  rfl

/-- The loops of a step return exactly if it can be carried out at every node. -/
theorem stepLoops_returns_iff (hs : Stored s) :
    (∃ w, stepLoops env d s = .ok w) ↔
      Fits env d (beginStep env s) (beginStep env s).cur.keys ∧
        ∀ n ∈ s.nodes, awaiting env d (beginStep env s) n = true → timeoutReads d n = true := by
  have hs₀ := hs.beginStep env
  have hawait : (∀ n ∈ s.nodes, awaiting env d (beginStep env s) n = true →
      timeoutReads d n = true) ↔ ∀ n ∈ (beginStep env s).cur.nodes,
        awaiting env d (beginStep env s) n = true → timeoutReads d n = true :=
    forall_congr' fun n => imp_congr mem_beginStep.symm Iff.rfl
  rw [hawait, ← forall_found_iff hs₀.nodup]
  unfold stepLoops
  set w₀ := beginStep env s
  set keys := w₀.cur.keys
  have hstarted : Started w₀ (keys.foldl (activateAt env d) w₀) := started_beginStep env d s keys
  set w₁ := keys.foldl (activateAt env d) w₀
  have hawait₁ : (∀ k ∈ keys, ∀ n, w₁.cur.node? k = some n → awaiting env d w₁ n = true →
      timeoutReads d n = true) ↔ ∀ k ∈ keys, ∀ n, w₀.cur.node? k = some n →
        awaiting env d w₀ n = true → timeoutReads d n = true := by
    refine forall₂_congr fun k _ => ?_
    obtain ⟨hn, hn'⟩ | ⟨n, n', hn, hn', hb⟩ := hstarted.rows k
    · simp only [hn, hn', reduceCtorEq, false_imp_iff, implies_true]
    · simp only [hn, hn', Option.some.injEq, forall_eq', (hstarted.reads hb).2.2]
      exact forall_congr' fun haw => by rw [hb.eq_of_awaiting haw]
  obtain ⟨hfit, hmisfit⟩ := @runningLoop_rows env d keys w₁ hs₀.nodup (hstarted.stored hs₀)
  rw [← hstarted.fits, ← hawait₁]
  by_cases hf : Fits env d w₁ keys
  · obtain ⟨w₂, hok, hrows⟩ := hfit hf
    rw [hok, and_iff_right hf, ← hrows.timeoutsRead]
    exact waitingLoop_returns keys w₂ hs₀.nodup
  · obtain ⟨a, ha⟩ := hmisfit hf
    rw [ha]
    refine ⟨?_, fun hc => absurd hc.1 hf⟩
    rintro ⟨w, hw⟩
    cases hw

/-- **When a step returns.** -/
theorem step_returns_iff (hs : Stored s) :
    (∃ progressed, (step env d s).result = .ok progressed) ↔ RunsThrough env d s := by
  unfold RunsThrough
  rcases hrun : s.run.status.terminal with _ | _
  · rw [step_eq_loops hrun, ← stepLoops_returns_iff hs, or_iff_right Bool.false_ne_true]
    rcases stepLoops env d s with a | w
    · refine ⟨?_, ?_⟩
      · rintro ⟨b, hb⟩
        cases hb
      · rintro ⟨w, hw⟩
        cases hw
    · exact ⟨fun _ => ⟨w, rfl⟩, fun _ => ⟨_, rfl⟩⟩
  · rw [step, if_pos hrun]
    exact ⟨fun _ => Or.inl rfl, fun _ => ⟨false, rfl⟩⟩

end LarkPlat
