import LarkPlat.Progress

/-!
# The End of a Run

A run is ended by the engine's finalisation, by `cancel_run` or by `cancel_release`. The
first two leave only ended nodes behind. `cancel_release` writes the run row alone, so the
nodes of a run that it cancels can still be in flight, and a later callback changes them.

A run that has ended can be rolled back. The engine does not count `rolled_back` among the
terminal statuses: a driver that reads it finalises the run once more, after which a second
rollback compensates a second time.

## Main results

* `ends_frozen_iff`: after every history of steps, callbacks and cancellations, an ended run
  is frozen exactly when each release cancellation that ended it found its nodes ended.
* `rollback_final_iff`: a rollback is final and compensated once exactly when no driver read
  the run as rolled back.
-/

namespace LarkPlat

variable {d : Json} {s s' : RunState}

/-! ### Ended runs -/

/-- The calls of a run's lifecycle: everything but a rollback. -/
def RunOp.lifecycle : RunOp → Bool
  | .rollbackRun _ _ _ => false
  | _ => true

/-- An ended run is frozen along a history: whenever it has ended, its nodes have ended, and
no later call of the history changes its status or that of a node. -/
def EndsFrozen (d : Json) (s : RunState) (ops : List RunOp) : Prop :=
  ∀ p q, ops = p ++ q → (runFrom d s p).run.status.terminal = true →
    (runFrom d s p).allTerminal = true ∧
      (runFrom d s ops).run.status = (runFrom d s p).run.status ∧
      ∀ k, (runFrom d s ops).status k = (runFrom d s p).status k

/-- A release cancellation that ends the run finds its nodes ended. -/
def FindsNodesEnded (s : RunState) : RunOp → Prop
  | .cancelRelease _ g => g.check "release:cancel" = .ok () →
      (∃ r, s.release = some r ∧ r.status.cancellable = true ∧ r.workflowRunId = some s.run.id) →
      s.run.status.terminal = false → s.allTerminal = true
  | _ => True

/-- `cancel_release` ends the run, or leaves its row and its nodes alone. -/
theorem cancelRelease_cases {now : ℚ} {g : Gate} (h : cancelRelease now g s = .ok s') :
    s'.nodes = s.nodes ∧
      (s'.run = s.run ∨
        g.check "release:cancel" = .ok () ∧
          (∃ r, s.release = some r ∧ r.status.cancellable = true ∧
            r.workflowRunId = some s.run.id) ∧
          s.run.status.terminal = false ∧ s'.run.status = .cancelled) := by
  refine ⟨cancelRelease_nodes h, ?_⟩
  simp only [cancelRelease, bind, Except.bind] at h
  split at h
  · simp at h
  rename_i u hg
  split at h
  · simp at h
  rename_i r hr
  split_ifs at h with hc hlink
  · obtain rfl := Except.ok.inj h
    refine Or.inr ⟨hg, ⟨r, hr, by simpa using hc, hlink.1⟩, by simpa using hlink.2, rfl⟩
  · obtain rfl := Except.ok.inj h
    exact Or.inl rfl

theorem ended_cancelRows (env : ExecEnv) (s : RunState) : Ended (cancelRows env s) := by
  intro _
  refine allTerminal_eq_true.mpr fun n hn => ?_
  obtain ⟨m, -, rfl⟩ := List.mem_map.mp hn
  rw [cancelNode]
  split_ifs with ho
  · rfl
  · simpa [terminal_of_not_open] using ho

/-- Every call of the lifecycle leaves an ended run with ended nodes, under the condition on
release cancellations. -/
theorem ended_applyOp (h : Ended s) {op : RunOp} (hop : op.lifecycle = true)
    (hok : FindsNodesEnded s op) : Ended (applyOp d s op) := by
  cases op with
  | step env => exact EndedIn.micros rfl h (micros_stepState env d s)
  | callback req =>
      rw [applyOp]
      rcases hc : callbackNode s req with e | s₁
      · exact h
      · exact EndedIn.micro rfl h (callbackNode_micro (d := d) hc)
  | cancelRun env g =>
      rw [applyOp]
      rcases hc : LarkPlat.cancelRun env g s with e | s₁
      · exact h
      · obtain ⟨-, rfl⟩ := cancelRun_eq_ok hc
        exact ended_cancelRows env s
  | cancelRelease now g =>
      rw [applyOp]
      rcases hc : LarkPlat.cancelRelease now g s with e | s₁
      · exact h
      · obtain ⟨hn, hr | ⟨hg, hlink, hopen, -⟩⟩ := cancelRelease_cases hc
        · intro hterm
          rw [afterCall, hr] at hterm
          rw [afterCall, RunState.allTerminal, hn]
          exact h hterm
        · intro _
          rw [afterCall, RunState.allTerminal, hn]
          exact hok hg hlink hopen
  | rollbackRun lower env g => simp [RunOp.lifecycle] at hop
  | world release exec => exact h

theorem frozen_applyOp (hterm : s.run.status.terminal = true) (hall : s.allTerminal = true)
    {op : RunOp} (hop : op.lifecycle = true) :
    (applyOp d s op).run.status = s.run.status ∧ (applyOp d s op).nodes = s.nodes := by
  cases op with
  | step env =>
      have hstep : (step env d s).commits = [] := by rw [step, if_pos hterm]
      rw [applyOp, stepState]
      simp only [hstep, List.getLast_singleton, and_self]
  | callback req =>
      rw [applyOp]
      rcases hc : callbackNode s req with e | s₁
      · exact ⟨rfl, rfl⟩
      · obtain ⟨n, out, hn, -, hw, -⟩ := callbackNode_eq_ok hc
        have hended := allTerminal_eq_true.mp hall n (Table.mem_of_find hn)
        rw [hw] at hended
        exact absurd hended (by decide)
  | cancelRun env g =>
      rw [applyOp]
      rcases hc : LarkPlat.cancelRun env g s with e | s₁
      · exact ⟨rfl, rfl⟩
      · obtain ⟨hst | hst, -⟩ := cancelRun_eq_ok hc <;> rw [hst] at hterm <;>
          exact absurd hterm (by decide)
  | cancelRelease now g =>
      rw [applyOp]
      rcases hc : LarkPlat.cancelRelease now g s with e | s₁
      · exact ⟨rfl, rfl⟩
      · obtain ⟨hn, hr | ⟨-, -, hopen, -⟩⟩ := cancelRelease_cases hc
        · exact ⟨by rw [afterCall, hr], hn⟩
        · rw [hopen] at hterm
          exact absurd hterm (by simp)
  | rollbackRun lower env g => simp [RunOp.lifecycle] at hop
  | world release exec => exact ⟨rfl, rfl⟩

theorem frozen_run (hterm : s.run.status.terminal = true) (hall : s.allTerminal = true)
    {ops : List RunOp} (hops : ∀ op ∈ ops, op.lifecycle = true) :
    (runFrom d s ops).run.status = s.run.status ∧ (runFrom d s ops).nodes = s.nodes := by
  induction ops generalizing s with
  | nil => exact ⟨rfl, rfl⟩
  | cons op ops ih =>
      obtain ⟨hr, hn⟩ := frozen_applyOp (d := d) hterm hall (hops op List.mem_cons_self)
      have hall' : (applyOp d s op).allTerminal = true := by
        rw [RunState.allTerminal, hn]; exact hall
      obtain ⟨hr', hn'⟩ := ih (s := applyOp d s op) (by rw [hr]; exact hterm) hall'
        (fun o ho => hops o (List.mem_cons_of_mem op ho))
      exact ⟨hr'.trans hr, hn'.trans hn⟩

/-- A release cancellation that does not find the nodes ended leaves an ended run with an
unended node. -/
theorem not_ended_of_breaks {op : RunOp} (h : ¬ FindsNodesEnded s op) :
    (applyOp d s op).run.status.terminal = true ∧ (applyOp d s op).allTerminal = false := by
  cases op with
  | cancelRelease now g =>
      simp only [FindsNodesEnded, not_forall, exists_prop] at h
      obtain ⟨hg, ⟨r, hr, hcan, hlink⟩, hopen, hall⟩ := h
      have hcall : LarkPlat.cancelRelease now g s = .ok (RunState.setRun
          { s with release := some { r with status := .cancelled } } fun run =>
            { run with status := .cancelled, finishedAt := some now }) := by
        simp [LarkPlat.cancelRelease, bind, Except.bind, hg, hr, hcan, hlink, hopen, pure,
          Except.pure]
      have hopenNode : s.allTerminal = false := by simpa using hall
      rw [applyOp, hcall]
      exact ⟨rfl, hopenNode⟩
  | _ => exact absurd trivial h

/-- **Ended runs are frozen.** For every run and every history of steps, callbacks, run and
release cancellations: whenever the run has ended its nodes have ended and nothing changes
any more, if and only if every release cancellation that ended the run found all its nodes
ended. -/
theorem ends_frozen_iff (D : Definition) (h : RunHeader) (release : Option Release)
    (exec : ExecDb) (ops : List RunOp) (hops : ∀ op ∈ ops, op.lifecycle = true) :
    EndsFrozen D.json (startRun h D.json release exec) ops ↔
      Machine.Meets (applyOp D.json) FindsNodesEnded (startRun h D.json release exec) ops := by
  constructor
  · intro hfrozen
    by_contra hbreak
    obtain ⟨p, op, q, rfl, -, hop⟩ := Machine.exists_first_break hbreak
    obtain ⟨hterm, hall⟩ := not_ended_of_breaks (d := D.json) hop
    have hstate : runFrom D.json (startRun h D.json release exec) (p ++ [op]) =
        applyOp D.json (runFrom D.json (startRun h D.json release exec) p) op := by
      rw [runFrom, Machine.run_append]
      rfl
    obtain ⟨hall', -⟩ := hfrozen (p ++ [op]) q (by simp) (by rw [hstate]; exact hterm)
    rw [hstate] at hall'
    rw [hall'] at hall
    exact absurd hall (by simp)
  · rintro hmeets p q rfl hterm
    have hmeets₁ := (Machine.meets_append _ p q).mp hmeets
    have hok := Machine.meets_and
      (Machine.meets_of_forall fun op hop => hops op (List.mem_append_left q hop)) hmeets₁.1
    have hended : Ended (runFrom D.json (startRun h D.json release exec) p) :=
      Machine.run_invariant_of_meets (P := Ended)
        (fun s op hs hop => ended_applyOp hs hop.1 hop.2) (EndedIn.of_open rfl) hok
    have hall := hended hterm
    have hrest := frozen_run (d := D.json) hterm hall
      (fun op hop => hops op (List.mem_append_right p hop))
    have hsplit : runFrom D.json (startRun h D.json release exec) (p ++ q) =
        runFrom D.json (runFrom D.json (startRun h D.json release exec) p) q :=
      Machine.run_append _ p q
    refine ⟨hall, ?_, ?_⟩
    · rw [hsplit]; exact hrest.1
    · intro k
      rw [hsplit, status_congr hrest.2]

/-- The system definition of release runs: one callback. -/
def releaseDefinition : Definition where
  json := .obj [("nodes", .arr [
    .obj [("key", .str "deploy"), ("type", .str "callback"), ("config", .obj []),
      ("depends_on", .arr []), ("on_success", .arr []), ("on_failure", .arr [])]])]
  valid := by decide +kernel

/-- A release run, and its release in the canary stage. -/
def releaseRun : RunState :=
  startRun { manualHeader with triggerType := .release } releaseDefinition.json
    (some ⟨1, .canary, some 1⟩) emptyExec

/-- The callback of the `deploy` node. -/
def deployCallback (payload : Json) : CallbackReq where
  enabled := true
  nodeKey := "deploy"
  token := some "token:deploy"
  claims := some [("type", .str "wf_callback"), ("run_id", .int 1), ("node_key", .str "deploy")]
  payload := payload
  payloadSize := 4
  now := 2

theorem ends_frozen_iff_release :
    (∀ op ∈ [RunOp.step (StepEnv.atTime 0)], op.lifecycle = true) ∧
      (EndsFrozen releaseDefinition.json
          (startRun manualHeader releaseDefinition.json none emptyExec)
          [.step (StepEnv.atTime 0)] ↔
        Machine.Meets (applyOp releaseDefinition.json) FindsNodesEnded
          (startRun manualHeader releaseDefinition.json none emptyExec)
          [.step (StepEnv.atTime 0)]) := by
  have hops : ∀ op ∈ [RunOp.step (StepEnv.atTime 0)], op.lifecycle = true := by
    simp [RunOp.lifecycle]
  exact ⟨hops, ends_frozen_iff releaseDefinition manualHeader none emptyExec _ hops⟩

/-- The release is cancelled while its run waits for the callback: the run is cancelled with
the node still waiting, and the callback then changes the node. -/
theorem release_cancel_leaves_open_node :
    ¬ EndsFrozen releaseDefinition.json releaseRun
      [.step (StepEnv.atTime 0), .step (StepEnv.atTime 1), .cancelRelease 1 ⟨true, true⟩,
        .callback (deployCallback (.str "ok"))] := by
  intro h
  obtain ⟨-, -, hstatus⟩ := h
    [.step (StepEnv.atTime 0), .step (StepEnv.atTime 1), .cancelRelease 1 ⟨true, true⟩]
    [.callback (deployCallback (.str "ok"))] rfl (by decide +kernel)
  exact absurd (hstatus "deploy") (by decide +kernel)

/-! ### Rollback -/

/-- The calls around a rollback: a tick of the driver, the turn of the run in a timeout scan,
a rollback, and whatever happens elsewhere. -/
inductive RollbackOp
  | driver (env : StepEnv)
  | scan (env : StepEnv)
  | rollback (lower : String → String) (env : ExecEnv) (g : Gate)
  | world (release : Option Release) (exec : ExecDb)

/-- The rows of a run, with the compensating tasks created for it so far. -/
structure RollbackState where
  rows : RunState
  compensations : List ℕ

/-- One call. The driver steps a run whose status is outside its terminal set; the scan steps
a pending or running run. -/
def RollbackState.apply (d : Json) (s : RollbackState) : RollbackOp → RollbackState
  | .driver env =>
      if s.rows.run.status.terminal then s else { s with rows := stepState env d s.rows }
  | .scan env =>
      if s.rows.run.status = .pending ∨ s.rows.run.status = .running then
        { s with rows := stepState env d s.rows }
      else s
  | .rollback lower env g =>
      match rollbackRun lower env g s.rows with
      | .error _ => s
      | .ok (rows, comp) => ⟨rows, s.compensations ++ comp.toList⟩
  | .world release exec => { s with rows := { s.rows with release := release, exec := exec } }

/-- The states of a history. -/
abbrev rollbackFrom (d : Json) (s : RollbackState) (ops : List RollbackOp) : RollbackState :=
  Machine.run (RollbackState.apply d) s ops

/-- Rollback is final and single along a history: a run that is rolled back stays rolled back,
and at most one compensating task is created. -/
def RollbackFinal (d : Json) (s : RollbackState) (ops : List RollbackOp) : Prop :=
  (∀ p q r, ops = p ++ q ++ r → (rollbackFrom d s p).rows.run.status = .rolledBack →
    (rollbackFrom d s (p ++ q)).rows.run.status = .rolledBack) ∧
  (rollbackFrom d s ops).compensations.length ≤ 1

/-- The driver does not read the run as rolled back. -/
def NotReadRolledBack (s : RollbackState) : RollbackOp → Prop
  | .driver _ => s.rows.run.status ≠ .rolledBack
  | _ => True

/-- The statuses that only a finalisation, or a rollback after it, can give. -/
def RunStatus.finalised : RunStatus → Bool
  | .succeeded | .failed | .rolledBack => true
  | _ => false

/-- A finalised run has nodes, and they have ended. -/
structure Finalised (s : RunState) : Prop where
  ended : EndedIn RunStatus.finalised s
  nonempty : s.run.status.finalised = true → s.nodes ≠ []

theorem Finalised.micro (h : Finalised s) (hm : Micro d s s') : Finalised s' := by
  refine ⟨h.ended.micro rfl hm, ?_⟩
  have hset : ∀ {k n'}, s.run.status.finalised = true →
      (s.setNode k fun _ => n').nodes ≠ [] := by
    intro k n' hst hnil
    exact h.nonempty hst (List.map_eq_nil_iff.mp hnil)
  cases hm with
  | start hp => intro hc; exact absurd hc (by simp [RunStatus.finalised])
  | reorder hp =>
      intro hst hnil
      exact h.nonempty hst (List.Perm.eq_nil (hp.symm.trans (List.Perm.of_eq hnil)))
  | activate hn hp _ => exact hset
  | skip hn hp _ => exact hset
  | advance hn hf _ _ => exact hset
  | exec => exact h.nonempty
  | finalise _ hne _ _ => exact fun _ => hne

theorem Finalised.micros (h : Finalised s) (hm : Micros d s s') : Finalised s' := by
  induction hm with
  | refl => exact h
  | tail _ hmicro ih => exact ih.micro hmicro

theorem Finalised.congr (h : Finalised s) (hn : s'.nodes = s.nodes)
    (hst : s'.run.status.finalised = true → s.run.status.finalised = true) : Finalised s' := by
  refine ⟨fun hf => ?_, fun hf => ?_⟩
  · rw [RunState.allTerminal, hn]; exact h.ended (hst hf)
  · rw [hn]; exact h.nonempty (hst hf)

theorem Finalised.applyOp (h : Finalised s) {op : RunOp} (hop : op.lifecycle = true) :
    Finalised (applyOp d s op) := by
  have hcancelled : ∀ {s' : RunState}, s'.run.status = .cancelled → Finalised s' := by
    intro s' hst
    refine ⟨EndedIn.of_open (by rw [hst]; rfl), fun hf => ?_⟩
    rw [hst] at hf
    exact absurd hf (by decide)
  cases op with
  | step env => exact h.micros (micros_stepState env d s)
  | callback req =>
      rw [LarkPlat.applyOp]
      rcases hc : callbackNode s req with e | s₁
      · exact h
      · exact h.micro (callbackNode_micro (d := d) hc)
  | cancelRun env g =>
      rw [LarkPlat.applyOp]
      rcases hc : LarkPlat.cancelRun env g s with e | s₁
      · exact h
      · obtain ⟨-, rfl⟩ := cancelRun_eq_ok hc
        exact hcancelled rfl
  | cancelRelease now g =>
      rw [LarkPlat.applyOp]
      rcases hc : LarkPlat.cancelRelease now g s with e | s₁
      · exact h
      · obtain ⟨hn, hr | ⟨-, -, -, hst⟩⟩ := cancelRelease_cases hc
        · exact h.congr hn (by rw [afterCall, hr]; exact id)
        · exact hcancelled hst
  | rollbackRun lower env g => simp [RunOp.lifecycle] at hop
  | world release exec => exact h.congr rfl id

/-- A rollback that changes the run finds it succeeded or failed, keeps its nodes and leaves
it rolled back. -/
theorem rollbackRun_eq_ok {lower : String → String} {env : ExecEnv} {g : Gate}
    {comp : Option ℕ} (h : rollbackRun lower env g s = .ok (s', comp)) :
    s' = s ∧ comp = none ∧ s.run.status ≠ .succeeded ∧ s.run.status ≠ .failed ∨
      s'.nodes = s.nodes ∧ s'.run.status = .rolledBack ∧
        (s.run.status = .succeeded ∨ s.run.status = .failed) := by
  have hnodes := rollbackRun_nodes h
  rw [rollbackRun] at h
  obtain ⟨-, -, h⟩ := bind_eq_ok.mp h
  split_ifs at h with hst
  · obtain ⟨⟨exec, created⟩, -, h⟩ := bind_eq_ok.mp h
    obtain ⟨rfl, -⟩ := Prod.mk.inj (Except.ok.inj h)
    exact Or.inr ⟨rfl, rfl, hst⟩
  · obtain ⟨rfl, rfl⟩ := Prod.mk.inj (Except.ok.inj h)
    exact Or.inl ⟨rfl, rfl, fun hs => hst (Or.inl hs), fun hs => hst (Or.inr hs)⟩

theorem Finalised.apply {s : RollbackState} (h : Finalised s.rows) (op : RollbackOp) :
    Finalised (s.apply d op).rows := by
  cases op with
  | driver env =>
      rw [RollbackState.apply]
      split_ifs
      · exact h
      · exact h.micros (micros_stepState env d s.rows)
  | scan env =>
      rw [RollbackState.apply]
      split_ifs
      · exact h.micros (micros_stepState env d s.rows)
      · exact h
  | rollback lower env g =>
      rw [RollbackState.apply]
      split
      · exact h
      · rename_i rows comp hr
        rcases rollbackRun_eq_ok hr with ⟨rfl, -⟩ | ⟨hn, -, hst⟩
        · exact h
        · refine h.congr hn fun _ => ?_
          rcases hst with hst | hst <;> rw [hst] <;> rfl
  | world release exec => exact h.congr rfl id

theorem driver_leaves_rolledBack {s : RollbackState} (h : Finalised s.rows)
    (hst : s.rows.run.status = .rolledBack) (env : StepEnv) :
    (s.apply d (.driver env)).rows.run.status ≠ .rolledBack := by
  have hopen : s.rows.run.status.terminal = false := by rw [hst]; rfl
  have hfin : s.rows.run.status.finalised = true := by rw [hst]; rfl
  have hall := allTerminal_eq_true.mp (h.ended hfin)
  have hquiet : s.rows.quiet = true := by
    refine List.all_eq_true.mpr fun n hn => ?_
    have ht := hall n hn
    cases hs : n.status <;> simp_all [NodeStatus.terminal, NodeStatus.inFlight]
  have hnopend : ∀ k, (beginStep env s.rows).cur.status k ≠ some .pending := by
    intro k hk
    obtain ⟨n, hn, hp⟩ := RunState.exists_node?_of_status hk
    have hmem : n ∈ s.rows.nodes := (env.order.perm s.rows.nodes).subset (Table.mem_of_find hn)
    have ht := hall n hmem
    rw [hp] at ht
    exact absurd ht (by decide)
  have hstep : (s.apply d (.driver env)).rows = (finalise env (beginStep env s.rows)).cur := by
    rw [RollbackState.apply, if_neg (by simp [hopen])]
    show stepState env d s.rows = _
    rw [stepState_of_quiet env hopen hquiet, quietWork, activateAll_of_no_pending hnopend]
  have hperm := env.order.perm s.rows.nodes
  have hterm : (finalise env (beginStep env s.rows)).cur.run.status.terminal = true := by
    refine finalise_terminal (beginStep_open hopen) ?_ ?_
    · intro hnil
      exact h.nonempty hfin (List.Perm.eq_nil (hperm.symm.trans (List.Perm.of_eq hnil)))
    · exact allTerminal_eq_true.mpr fun n hn => hall n (hperm.subset hn)
  rw [hstep]
  intro hc
  rw [hc] at hterm
  exact absurd hterm (by decide)

/-- A compensation is recorded only for a run that is rolled back, and only one is. -/
structure Compensated (s : RollbackState) : Prop where
  single : s.compensations.length ≤ 1
  rolled : s.compensations ≠ [] → s.rows.run.status = .rolledBack

theorem rolledBack_apply {s : RollbackState} (hst : s.rows.run.status = .rolledBack)
    {op : RollbackOp} (hok : NotReadRolledBack s op) :
    (s.apply d op).rows.run.status = .rolledBack := by
  cases op with
  | driver env => exact absurd hst hok
  | scan env =>
      rw [RollbackState.apply, if_neg (by simp [hst])]
      exact hst
  | rollback lower env g =>
      rw [RollbackState.apply]
      split
      · exact hst
      · rename_i rows comp hr
        rcases rollbackRun_eq_ok hr with ⟨rfl, -⟩ | ⟨-, hnew, -⟩
        · exact hst
        · exact hnew
  | world release exec => exact hst

theorem Compensated.apply {s : RollbackState} (h : Compensated s) {op : RollbackOp}
    (hok : NotReadRolledBack s op) : Compensated (s.apply d op) := by
  have hnone : s.rows.run.status ≠ .rolledBack → s.compensations = [] := by
    intro hne
    by_contra hc
    exact hne (h.rolled hc)
  have hsame : ∀ rows, s.compensations = [] → Compensated { s with rows := rows } := by
    intro rows hnil
    exact ⟨by simp [hnil], fun hc => absurd hnil hc⟩
  cases op with
  | driver env =>
      rw [RollbackState.apply]
      split_ifs
      · exact h
      · exact hsame _ (hnone hok)
  | scan env =>
      rw [RollbackState.apply]
      split_ifs with hst
      · refine hsame _ (hnone ?_)
        rcases hst with hst | hst <;> rw [hst] <;> decide
      · exact h
  | rollback lower env g =>
      rw [RollbackState.apply]
      split
      · exact h
      · rename_i rows comp hr
        rcases rollbackRun_eq_ok hr with ⟨rfl, rfl, -⟩ | ⟨-, hnew, hst⟩
        · refine ⟨?_, fun hc => h.rolled ?_⟩
          · simpa using h.single
          · simpa using hc
        · have hnil : s.compensations = [] := by
            refine hnone ?_
            rcases hst with hst | hst <;> rw [hst] <;> decide
          refine ⟨?_, fun _ => hnew⟩
          rw [hnil, List.nil_append]
          cases comp <;> simp
  | world release exec => exact ⟨h.single, h.rolled⟩

/-- **Rollback is final and single.** From every reachable state of a run and for every history
of driver ticks, scan turns and rollbacks: a rolled back run stays rolled back and at most
one compensating task is created, if and only if no driver reads the run as rolled back. -/
theorem rollback_final_iff (D : Definition) (h : RunHeader) (release : Option Release)
    (exec : ExecDb) (pre : List RunOp) (hpre : ∀ op ∈ pre, op.lifecycle = true)
    (ops : List RollbackOp) :
    RollbackFinal D.json ⟨runFrom D.json (startRun h D.json release exec) pre, []⟩ ops ↔
      Machine.Meets (RollbackState.apply D.json) NotReadRolledBack
        ⟨runFrom D.json (startRun h D.json release exec) pre, []⟩ ops := by
  set s₀ : RollbackState := ⟨runFrom D.json (startRun h D.json release exec) pre, []⟩ with hs₀
  have hfin₀ : Finalised s₀.rows := by
    refine Machine.run_invariant_of_meets (P := Finalised) (fun s op hs hop => hs.applyOp hop)
      ?_ (Machine.meets_of_forall hpre)
    refine ⟨EndedIn.of_open rfl, fun hc => ?_⟩
    exact absurd hc (by simp [startRun, newRun, RunStatus.finalised])
  have hfin : ∀ p, Finalised (rollbackFrom D.json s₀ p).rows := fun p =>
    Machine.run_invariant (P := fun s : RollbackState => Finalised s.rows)
      (fun s op hs => hs.apply op) hfin₀ p
  constructor
  · rintro ⟨hstay, -⟩
    by_contra hbreak
    obtain ⟨p, op, q, rfl, -, hop⟩ := Machine.exists_first_break hbreak
    cases op with
    | driver env =>
        have hst : (rollbackFrom D.json s₀ p).rows.run.status = .rolledBack := by
          simpa [NotReadRolledBack] using hop
        have hafter := hstay p [.driver env] q (by simp) hst
        rw [rollbackFrom, Machine.run_append] at hafter
        exact driver_leaves_rolledBack (hfin p) hst env hafter
    | _ => exact hop trivial
  · intro hmeets
    refine ⟨?_, ?_⟩
    · rintro p q r rfl hst
      have hq := (Machine.meets_append _ p q).mp ((Machine.meets_append _ (p ++ q) r).mp hmeets).1
      rw [rollbackFrom, Machine.run_append]
      exact Machine.run_invariant_of_meets
        (P := fun s : RollbackState => s.rows.run.status = .rolledBack)
        (fun s op hs hop => rolledBack_apply hs hop) hst hq.2
    · have hcomp : Compensated (rollbackFrom D.json s₀ ops) :=
        Machine.run_invariant_of_meets (fun s op hs hop => hs.apply hop)
          ⟨by simp [hs₀], by simp [hs₀]⟩ hmeets
      exact hcomp.single

/-- A host, and no sensitive words. -/
def oneHost : ExecDb := ExecDb.fresh [⟨1, none, "agent", none⟩] ⟨[], none, false⟩

/-- A run that carries its own remediation. -/
def remediationHeader : RunHeader :=
  { manualHeader with
    context := [("remediation", .obj [("command", .str "systemctl restart app"),
      ("target_host_ids", .arr [.int 1])])] }

theorem rollback_final_iff_timers :
    (∀ op ∈ List.replicate 4 (RunOp.step (StepEnv.atTime 0)), op.lifecycle = true) ∧
      (RollbackFinal timersDefinition.json
          ⟨runFrom timersDefinition.json
            (startRun remediationHeader timersDefinition.json none oneHost)
            (List.replicate 4 (.step (StepEnv.atTime 0))), []⟩
          [.rollback id (StepEnv.atTime 1).dispatch.toExecEnv ⟨true, true⟩] ↔
        Machine.Meets (RollbackState.apply timersDefinition.json) NotReadRolledBack
          ⟨runFrom timersDefinition.json
            (startRun remediationHeader timersDefinition.json none oneHost)
            (List.replicate 4 (.step (StepEnv.atTime 0))), []⟩
          [.rollback id (StepEnv.atTime 1).dispatch.toExecEnv ⟨true, true⟩]) := by
  have hpre : ∀ op ∈ List.replicate 4 (RunOp.step (StepEnv.atTime 0)), op.lifecycle = true := by
    simp [RunOp.lifecycle]
  exact ⟨hpre, rollback_final_iff timersDefinition remediationHeader none oneHost _ hpre _⟩

/-- The driver reads the rolled back run once more and finalises it; the second rollback then
creates a second compensating task. -/
theorem second_rollback_compensates_again :
    ¬ RollbackFinal timersDefinition.json
      ⟨runFrom timersDefinition.json (startRun remediationHeader timersDefinition.json none oneHost)
        (List.replicate 4 (.step (StepEnv.atTime 0))), []⟩
      [.rollback id (StepEnv.atTime 1).dispatch.toExecEnv ⟨true, true⟩,
        .driver (StepEnv.atTime 2),
        .rollback id (StepEnv.atTime 3).dispatch.toExecEnv ⟨true, true⟩] := by
  rintro ⟨-, hsingle⟩
  exact absurd hsingle (by decide +kernel)

end LarkPlat
