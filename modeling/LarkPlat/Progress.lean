import LarkPlat.RunInvariants

/-!
# Progress of a Run

When no node is in flight, only the engine can move a run on. It does so as long as the
holds of the pending nodes are sound: nothing waits in a circle, and nothing waits for the
success of a node that was skipped. The validator guarantees neither. It checks the cycles of
a relation in which the success routes are turned around, it admits an empty node list, and
the activation rule abandons a node whose prerequisite was skipped but not one whose success
route starts at a skipped node.

## Main results

* `progresses_of_canProceed`: in every state reached, a quiet open run whose holds are sound
  is moved on by the next step.
* `deadlocks_reached`: three accepted definitions whose runs stop for ever.
-/

namespace LarkPlat

variable {d : Json} {s s' : RunState}

/-- A step activates or skips a node, or finalises the run. -/
def Progresses (s s' : RunState) : Prop :=
  (∃ k, s.status k = some .pending ∧
    (s'.status k = some .running ∨ s'.status k = some .skipped)) ∨
  s'.run.status.terminal = true

/-- A run never stops: in every state it reaches, if it is open and no node is in flight, then
every step moves it on. -/
def NeverDeadlocks (d : Json) (s : RunState) : Prop :=
  ∀ ops env, (runFrom d s ops).run.status.terminal = false →
    (runFrom d s ops).quiet = true →
    Progresses (runFrom d s ops) (stepState env d (runFrom d s ops))

/-- The holds of the pending nodes are sound: there are nodes, no undecided node waits for
itself through others, and no undecided node is the target of a success route whose source was
skipped. -/
structure CanProceed (d : Json) (s : RunState) : Prop where
  nonempty : s.nodes ≠ []
  acyclic : Flow.WaitsAcyclic (edges d) s.status
  unorphaned : ∀ k, ¬ Flow.Orphaned (edges d) s.status k

/-! ### References are known -/

theorem Accepted.deps_known (h : Accepted d) {k j : String} (hk : k ∈ definitionKeys d)
    (hj : j ∈ (edges d).deps k) : j ∈ definitionKeys d :=
  h.known _ (defnode_mem hk).1 "depends_on" (by simp [refFields]) j hj

theorem succ_known {k j : String} (hj : j ∈ (edges d).succ k) : j ∈ definitionKeys d :=
  List.mem_of_mem_filter hj

theorem Sound.status_isSome (h : Sound d s) {k : String} (hk : k ∈ definitionKeys d) :
    (s.status k).isSome = true := by
  obtain ⟨n, hn⟩ := Table.exists_find_of_mem_keys (h.keys.mem_iff.mpr hk)
  rw [RunState.status_of_node? hn]
  rfl

/-! ### No cancelled nodes -/

/-- No call ever writes the node status `cancelled`. -/
theorem uncancelled_applyOp (h : Sound d s) (hc : Flow.Uncancelled s.status)
    (op : RunOp) : Flow.Uncancelled (applyOp d s op).status := by
  rcases applyOp_cases d s op with hm | ⟨env, g, -, -, hcancel⟩ | hn
  · exact hc.moves (Micros.moves hm h.nodup)
  · rw [hcancel]
    intro k hk
    rw [status_cancelRows] at hk
    obtain ⟨st, hst, hnew⟩ := Option.map_eq_some_iff.mp hk
    split_ifs at hnew
    exact hc k (by rw [hst, hnew])
  · rw [status_congr hn]; exact hc

theorem uncancelled_run (D : Definition) (h : RunHeader) (release : Option Release)
    (exec : ExecDb) (ops : List RunOp) :
    Flow.Uncancelled (runFrom D.json (startRun h D.json release exec) ops).status := by
  have hinv : Sound D.json (runFrom D.json (startRun h D.json release exec) ops) ∧
      Flow.Uncancelled (runFrom D.json (startRun h D.json release exec) ops).status := by
    refine Machine.run_invariant (P := fun s => Sound D.json s ∧ Flow.Uncancelled s.status)
      (fun s op hs => ⟨hs.1.applyOp op, uncancelled_applyOp hs.1 hs.2 op⟩)
      ⟨sound_startRun D h release exec, ?_⟩ ops
    intro k hk
    rcases startRun_status_eq h D.json release exec k with h₀ | h₀ <;> rw [h₀] at hk <;> simp at hk
  exact hinv.2

/-! ### Progress -/

theorem quiet_status (hq : s.quiet = true) {k : String} {st : NodeStatus}
    (h : s.status k = some st) : st.inFlight = false := by
  obtain ⟨n, hn, rfl⟩ := RunState.exists_node?_of_status h
  have := List.all_eq_true.mp hq n (Table.mem_of_find hn)
  simpa using this

/-- The pending keys of a run. -/
def pendingKeys (s : RunState) : List String :=
  s.keys.filter fun k => decide (s.status k = some .pending)

theorem mem_pendingKeys {k : String} : k ∈ pendingKeys s ↔ s.status k = some .pending := by
  rw [pendingKeys]
  rw [List.mem_filter, decide_eq_true_iff]
  refine ⟨And.right, fun h => ⟨?_, h⟩⟩
  obtain ⟨n, hn, -⟩ := RunState.exists_node?_of_status h
  rw [← Table.key_of_find hn]
  exact List.mem_map_of_mem (Table.mem_of_find hn)

theorem allTerminal_of_quiet (hn : s.keys.Nodup) (hq : s.quiet = true)
    (hnone : pendingKeys s = []) : s.allTerminal = true := by
  refine allTerminal_eq_true.mpr fun n hmem => ?_
  have hfree := List.all_eq_true.mp hq n hmem
  have hp : n.status ≠ .pending := by
    intro hp
    have hnode := (RunState.node?_eq_some_iff hn).mpr ⟨hmem, rfl⟩
    have hk : n.nodeKey ∈ pendingKeys s :=
      mem_pendingKeys.mpr (by rw [RunState.status_of_node? hnode, hp])
    rw [hnone] at hk
    exact absurd hk (by simp)
  cases hst : n.status <;> simp_all [NodeStatus.inFlight, NodeStatus.terminal]

theorem finalise_terminal {env : StepEnv} {w : Work} (hopen : w.cur.run.status.terminal = false)
    (hne : w.cur.nodes ≠ []) (hall : w.cur.allTerminal = true) :
    (finalise env w).cur.run.status.terminal = true := by
  have hnc : w.cur.run.status ≠ .cancelled := by
    intro hc
    rw [hc] at hopen
    exact absurd hopen (by decide)
  rw [finalise]
  dsimp only
  rw [if_pos ⟨hnc, hne, hall⟩]
  dsimp only
  split <;> rfl

theorem activateAll_of_no_pending {env : StepEnv} {w : Work} {ks : List String}
    (h : ∀ k, w.cur.status k ≠ some .pending) : activateAll env d w ks = w := by
  induction ks with
  | nil => rfl
  | cons k ks ih => rw [activateAll_cons env, activateAt_of_ne_pending env (h k), ih]

/-- **Progress.** In every state that a run reaches by any calls: if the run is open, no node
is in flight and the holds of its pending nodes are sound, then every step activates or
skips a node or finalises the run. -/
theorem progresses_of_canProceed (D : Definition) (h : RunHeader) (release : Option Release)
    (exec : ExecDb) (ops : List RunOp) (env : StepEnv)
    (hopen : (runFrom D.json (startRun h D.json release exec) ops).run.status.terminal = false)
    (hquiet : (runFrom D.json (startRun h D.json release exec) ops).quiet = true)
    (hcan : CanProceed D.json (runFrom D.json (startRun h D.json release exec) ops)) :
    Progresses (runFrom D.json (startRun h D.json release exec) ops)
      (stepState env D.json (runFrom D.json (startRun h D.json release exec) ops)) := by
  have hsound : Sound D.json (runFrom D.json (startRun h D.json release exec) ops) :=
    (sound_startRun D h release exec).run ops
  have huncan := uncancelled_run D h release exec ops
  set s := runFrom D.json (startRun h D.json release exec) ops with hs
  have hbegin : (beginStep env s).cur.status = s.status := beginStep_status env hsound.nodup
  rw [stepState_of_quiet env hopen hquiet]
  by_cases hpend : pendingKeys s = []
  · -- every node has ended, so the run is finalised
    right
    have hquietWork : quietWork env D.json s = beginStep env s := by
      refine activateAll_of_no_pending fun k hk => ?_
      rw [hbegin] at hk
      have hmem := mem_pendingKeys.mpr hk
      rw [hpend] at hmem
      exact absurd hmem (by simp)
    rw [hquietWork]
    have hperm := env.order.perm s.nodes
    refine finalise_terminal (beginStep_open hopen) ?_ ?_
    · intro hnil
      refine hcan.nonempty (List.Perm.eq_nil ?_)
      exact hperm.symm.trans (List.Perm.of_eq hnil)
    · have hall := allTerminal_of_quiet hsound.nodup hquiet hpend
      exact allTerminal_eq_true.mpr fun n hn =>
        allTerminal_eq_true.mp hall n (hperm.subset hn)
  · -- some pending node is not on hold, so the activation loop decides a node
    left
    obtain ⟨k, hk, hv⟩ := Flow.exists_decided (l := pendingKeys s) (m := s.status)
      (G := edges D.json) (fun k => mem_pendingKeys) hpend (fun k st => quiet_status hquiet)
      huncan
      (fun k hk j hj => by
        have hmem : k ∈ definitionKeys D.json := by
          rw [← hsound.keys.mem_iff]
          exact List.mem_of_mem_filter hk
        rcases hj with hj | hj
        · exact hsound.status_isSome (D.accepted.deps_known hmem hj)
        · exact hsound.status_isSome (succ_known hj))
      hcan.acyclic hcan.unorphaned
    have hkeys : k ∈ (beginStep env s).cur.keys := by
      have hperm : (beginStep env s).cur.keys.Perm s.keys := (env.order.perm s.nodes).map _
      rw [hperm.mem_iff]
      exact List.mem_of_mem_filter hk
    obtain ⟨j, hj, hdecided⟩ := exists_decided_of_verdict env (d := D.json) (w := beginStep env s)
      ⟨k, hkeys, by rw [hbegin]; exact mem_pendingKeys.mp hk, by rw [hbegin]; exact hv⟩
    rw [hbegin] at hj
    rw [finalise_status]
    exact ⟨j, hj, hdecided⟩

/-! ### Sound holds -/

/-- A rank that decreases along prerequisites and success sources excludes circular holds in
every state. -/
theorem waitsAcyclic_of_rank {G : Flow.Graph String} {m : Flow.Marking String}
    (rank : String → ℕ) (h : ∀ k j, Flow.WaitsFor G m k j → rank j < rank k) :
    Flow.WaitsAcyclic G m := by
  have hlt : ∀ {k j}, Relation.TransGen (Flow.WaitsFor G m) k j → rank j < rank k := by
    intro k j hkj
    induction hkj with
    | single hr => exact h _ _ hr
    | tail _ hr ih => exact lt_trans (h _ _ hr) ih
  exact fun k hk => lt_irrefl _ (hlt hk)

theorem progresses_of_canProceed_timers :
    CanProceed timersDefinition.json
        (runFrom timersDefinition.json
          (startRun manualHeader timersDefinition.json none emptyExec) []) ∧
      Progresses
        (runFrom timersDefinition.json
          (startRun manualHeader timersDefinition.json none emptyExec) [])
        (stepState (StepEnv.atTime 0) timersDefinition.json
          (runFrom timersDefinition.json
            (startRun manualHeader timersDefinition.json none emptyExec) [])) := by
  have hkeys : ∀ {k}, (startRun manualHeader timersDefinition.json none emptyExec).status k =
      some .pending → k = "first" ∨ k = "second" := by
    intro k hk
    have hmem := List.mem_of_mem_filter (mem_pendingKeys.mpr hk)
    have hlist : (startRun manualHeader timersDefinition.json none emptyExec).keys =
        ["first", "second"] := by decide +kernel
    rw [hlist] at hmem
    simpa using hmem
  have hsucc : ∀ k, (edges timersDefinition.json).succ k = [] := by
    intro k
    refine List.filter_eq_nil_iff.mpr fun j hj hc => ?_
    have hnone : ∀ j ∈ definitionKeys timersDefinition.json,
        refs (defnode timersDefinition.json j) "on_success" = [] := by decide +kernel
    rw [hnone j hj] at hc
    simp at hc
  have hcan : CanProceed timersDefinition.json
      (startRun manualHeader timersDefinition.json none emptyExec) := by
    refine ⟨by decide +kernel, ?_, ?_⟩
    · refine waitsAcyclic_of_rank (fun k => if k = "second" then 1 else 0) ?_
      rintro k j ⟨hk, -, hj⟩
      rw [hsucc k] at hj
      rcases hkeys hk.pending with rfl | rfl
      · have hdeps : (edges timersDefinition.json).deps "first" = [] := by decide +kernel
        rw [hdeps] at hj
        simp at hj
      · have hdeps : (edges timersDefinition.json).deps "second" = ["first"] := by decide +kernel
        rw [hdeps] at hj
        obtain rfl : j = "first" := by simpa using hj
        decide
    · rintro k ⟨-, j, hj, -⟩
      rw [hsucc k] at hj
      simp at hj
  exact ⟨hcan, progresses_of_canProceed timersDefinition manualHeader none emptyExec []
    (StepEnv.atTime 0) (by decide +kernel) (by decide +kernel) hcan⟩

/-! ### Runs that stop -/

/-- The definition that `create_workflow` stores when none is given. -/
def emptyDefinition : Definition where
  json := .obj [("nodes", .arr [])]
  valid := by decide +kernel

/-- A node that waits for another and routes its success to it. The validator records both
references in the same direction and sees no cycle. -/
def circularDefinition : Definition where
  json := .obj [("nodes", .arr [
    .obj [("key", .str "build"), ("type", .str "sleep"), ("depends_on", .arr [.str "test"]),
      ("on_success", .arr [.str "test"])],
    .obj [("key", .str "test"), ("type", .str "sleep")]])]
  valid := by decide +kernel

/-- A chain of success routes whose first node times out at once. -/
def chainDefinition : Definition where
  json := .obj [("nodes", .arr [
    .obj [("key", .str "build"), ("type", .str "callback"),
      ("config", .obj [("timeout_sec", .int 0)]), ("on_success", .arr [.str "test"])],
    .obj [("key", .str "test"), ("type", .str "sleep"), ("on_success", .arr [.str "deploy"])],
    .obj [("key", .str "deploy"), ("type", .str "sleep")]])]
  valid := by decide +kernel

theorem not_neverDeadlocks (t : ℚ) (ops : List RunOp)
    (hopen : (runFrom d s ops).run.status.terminal = false)
    (hquiet : (runFrom d s ops).quiet = true)
    (hstuck : stepState (StepEnv.atTime t) d (runFrom d s ops) = runFrom d s ops) :
    ¬ NeverDeadlocks d s := by
  intro h
  have hp := h ops (StepEnv.atTime t) hopen hquiet
  rw [hstuck] at hp
  rcases hp with ⟨k, hk, hr | hr⟩ | hterm
  · rw [hk] at hr; simp at hr
  · rw [hk] at hr; simp at hr
  · rw [hopen] at hterm; simp at hterm

/-- **Deadlocks.** Three accepted definitions with a run that is open with nothing in flight
and that no further step changes: no nodes at all, a circular hold, and a success route whose
source was skipped. -/
theorem deadlocks_reached :
    ¬ NeverDeadlocks emptyDefinition.json
        (startRun manualHeader emptyDefinition.json none emptyExec) ∧
      ¬ NeverDeadlocks circularDefinition.json
        (startRun manualHeader circularDefinition.json none emptyExec) ∧
      ¬ NeverDeadlocks chainDefinition.json
        (startRun manualHeader chainDefinition.json none emptyExec) := by
  refine ⟨?_, ?_, ?_⟩
  · exact not_neverDeadlocks 9 [.step (StepEnv.atTime 0)]
      (by decide +kernel) (by decide +kernel) (by decide +kernel)
  · exact not_neverDeadlocks 9 [.step (StepEnv.atTime 0)]
      (by decide +kernel) (by decide +kernel) (by decide +kernel)
  · exact not_neverDeadlocks 9 (List.replicate 3 (.step (StepEnv.atTime 0)))
      (by decide +kernel) (by decide +kernel) (by decide +kernel)

end LarkPlat
