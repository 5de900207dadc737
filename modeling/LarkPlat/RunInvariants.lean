import LarkPlat.Activation

/-!
# Invariants of a Run

What holds of the rows of a run in every state, whatever calls are made in whatever order:
the node rows are those of the definition, an activated node was entitled to its activation,
no node is activated twice, and a node that has ended keeps its status. All of it follows
from one inversion lemma, `applyOp_cases`: a call acts on the node rows by small changes of
the engine, by a cancellation, or not at all.

## Main results

* `activation_safe`: activation safety over every sequence of calls.
* `execution_confluent`: without failure routes, the final statuses depend on the outcomes
  of the nodes alone.
-/

namespace LarkPlat

variable {d : Json} {s s' : RunState}

/-! ### What a call does to the node rows -/

/-- The update of a callback that goes through finds its node waiting, and writes it. -/
theorem updateCallback_eq_some {k : String} {out : List (String × Json)} {now : ℚ}
    (h : updateCallback s k out now = some s') :
    ∃ n, s.node? k = some n ∧ n.nodeType = .callback ∧ n.status = .waiting ∧
      s' = s.setNode k fun _ => accept out now n := by
  rw [updateCallback] at h
  split at h
  · rename_i n hn
    split_ifs at h with hc
    exact ⟨n, hn, hc.1, hc.2, (Option.some.inj h).symm⟩
  · simp at h

theorem callbackNode_eq_ok {req : CallbackReq} (h : callbackNode s req = .ok s') :
    ∃ n out, s.node? req.nodeKey = some n ∧ n.nodeType = .callback ∧ n.status = .waiting ∧
      s' = s.setNode req.nodeKey fun _ => accept out req.now n := by
  rw [callbackNode] at h
  obtain ⟨out, -, h⟩ := bind_eq_ok.mp h
  split at h
  · simp at h
  rename_i s₁ hs₁
  obtain rfl : s₁ = s' := Except.ok.inj h
  obtain ⟨n, hn, htype, hw, hs'⟩ := updateCallback_eq_some hs₁
  exact ⟨n, out, hn, htype, hw, hs'⟩

theorem callbackNode_micro {req : CallbackReq} (h : callbackNode s req = .ok s') :
    Micro d s s' := by
  obtain ⟨n, out, hn, -, hw, rfl⟩ := callbackNode_eq_ok h
  refine Micro.advance hn (by rw [hw]; rfl) ?_ (Or.inr (Or.inl rfl))
  exact ⟨rfl, rfl, rfl, rfl, id⟩

theorem cancelRun_eq_ok {env : ExecEnv} {g : Gate} (h : cancelRun env g s = .ok s') :
    (s.run.status = .pending ∨ s.run.status = .running) ∧ s' = cancelRows env s := by
  rw [cancelRun] at h
  obtain ⟨-, -, h⟩ := bind_eq_ok.mp h
  split_ifs at h with hc
  exact ⟨hc, (Except.ok.inj h).symm⟩

theorem cancelRun_of_open (env : ExecEnv)
    (h : s.run.status = .pending ∨ s.run.status = .running) :
    cancelRun env ⟨true, true⟩ s = .ok (cancelRows env s) := by
  simp [cancelRun, Gate.check, bind, Except.bind, pure, Except.pure, h]

theorem cancelRelease_nodes {now : ℚ} {g : Gate} (h : cancelRelease now g s = .ok s') :
    s'.nodes = s.nodes := by
  simp only [cancelRelease, bind, Except.bind] at h
  split at h
  · simp at h
  split at h
  · simp at h
  · split_ifs at h
    · obtain rfl := Except.ok.inj h
      rfl
    · obtain rfl := Except.ok.inj h
      rfl

theorem cancelRelease_exec {now : ℚ} {g : Gate} (h : cancelRelease now g s = .ok s') :
    s'.exec = s.exec := by
  simp only [cancelRelease, bind, Except.bind] at h
  split at h
  · simp at h
  split at h
  · simp at h
  · split_ifs at h
    · obtain rfl := Except.ok.inj h
      rfl
    · obtain rfl := Except.ok.inj h
      rfl

theorem rollbackRun_nodes {lower : String → String} {env : ExecEnv} {g : Gate}
    {comp : Option ℕ} (h : rollbackRun lower env g s = .ok (s', comp)) : s'.nodes = s.nodes := by
  rw [rollbackRun] at h
  obtain ⟨-, -, h⟩ := bind_eq_ok.mp h
  split_ifs at h
  · obtain ⟨⟨exec, created⟩, -, h⟩ := bind_eq_ok.mp h
    obtain ⟨rfl, -⟩ := Prod.mk.inj (Except.ok.inj h)
    rfl
  · obtain ⟨rfl, -⟩ := Prod.mk.inj (Except.ok.inj h)
    rfl

/-- **What a call can do to the node rows.** -/
theorem applyOp_cases (d : Json) (s : RunState) (op : RunOp) :
    Micros d s (applyOp d s op) ∨
      (∃ env g, op = .cancelRun env g ∧
        (s.run.status = .pending ∨ s.run.status = .running) ∧
        applyOp d s op = cancelRows env s) ∨
      (applyOp d s op).nodes = s.nodes := by
  cases op with
  | step env => exact Or.inl (micros_stepState env d s)
  | callback req =>
      rw [applyOp]
      rcases h : callbackNode s req with e | s₁
      · exact Or.inr (Or.inr rfl)
      · exact Or.inl (Relation.ReflTransGen.single (callbackNode_micro h))
  | cancelRun env g =>
      rw [applyOp]
      rcases h : LarkPlat.cancelRun env g s with e | s₁
      · exact Or.inr (Or.inr rfl)
      · obtain ⟨hst, hs₁⟩ := cancelRun_eq_ok h
        exact Or.inr (Or.inl ⟨env, g, rfl, hst, hs₁⟩)
  | cancelRelease now g =>
      rw [applyOp]
      rcases h : LarkPlat.cancelRelease now g s with e | s₁
      · exact Or.inr (Or.inr rfl)
      · exact Or.inr (Or.inr (cancelRelease_nodes h))
  | rollbackRun lower env g =>
      rw [applyOp]
      rcases h : LarkPlat.rollbackRun lower env g s with e | ⟨s₁, comp⟩
      · exact Or.inr (Or.inr rfl)
      · exact Or.inr (Or.inr (rollbackRun_nodes h))
  | world release exec => exact Or.inr (Or.inr rfl)

/-! ### Cancellation -/

theorem cancelNode_key (t : ℚ) (n : WorkflowNodeRun) : (cancelNode t n).nodeKey = n.nodeKey := by
  rw [cancelNode]
  split_ifs <;> rfl

theorem keys_cancelRows (env : ExecEnv) (s : RunState) : (cancelRows env s).keys = s.keys := by
  show (s.nodes.map (cancelNode env.now)).map (·.nodeKey) = s.nodes.map (·.nodeKey)
  rw [List.map_map]
  exact List.map_congr_left fun n _ => cancelNode_key env.now n

theorem node?_cancelRows (env : ExecEnv) (s : RunState) (k : String) :
    (cancelRows env s).node? k = (s.node? k).map (cancelNode env.now) :=
  Table.find_map (cancelNode_key env.now)

theorem status_cancelRows (env : ExecEnv) (s : RunState) (k : String) :
    (cancelRows env s).status k =
      (s.status k).map fun st => if st.open? then .skipped else st := by
  rw [RunState.status, node?_cancelRows, RunState.status]
  rcases s.node? k with _ | n
  · rfl
  · simp only [Option.map_some, cancelNode]
    split_ifs <;> rfl

theorem terminal_of_not_open {st : NodeStatus} : st.open? = !st.terminal := by
  cases st <;> rfl

theorem later_cancelRows (env : ExecEnv) (s : RunState) :
    Flow.Later s.status (cancelRows env s).status := by
  intro k st hk ht
  rw [status_cancelRows, hk, Option.map_some, terminal_of_not_open, ht]
  rfl

/-! ### The invariant -/

/-- The invariant of a run of the definition `d`. -/
structure Sound (d : Json) (s : RunState) : Prop where
  keys : s.keys.Perm (definitionKeys d)
  nodup : s.keys.Nodup
  justified : Flow.Justified (edges d) s.status
  rows : ∀ n ∈ s.nodes, RowOk n

theorem sound_startRun (D : Definition) (h : RunHeader) (release : Option Release)
    (exec : ExecDb) : Sound D.json (startRun h D.json release exec) := by
  have hkeys : (startRun h D.json release exec).keys = definitionKeys D.json :=
    startRun_keys h release exec D.accepted
  refine ⟨List.Perm.of_eq hkeys, by rw [hkeys]; exact D.accepted.nodup, ?_, ?_⟩
  · intro k st hk hp _
    rcases startRun_status_eq h D.json release exec k with hs | hs <;> rw [hs] at hk
    · simp at hk
    · exact absurd (Option.some.inj hk).symm hp
  · intro n hn
    obtain ⟨hst, hat⟩ := newRow_of_mem hn
    refine ⟨by omega, fun _ => hat, fun hf => ?_⟩
    rw [hst] at hf
    exact absurd hf (by decide)

theorem status_congr (hn : s'.nodes = s.nodes) : s'.status = s.status := by
  funext k
  rw [RunState.status, RunState.node?, hn]
  rfl

theorem later_applyOp (hn : s.keys.Nodup) (op : RunOp) :
    Flow.Later s.status (applyOp d s op).status := by
  rcases applyOp_cases d s op with h | ⟨env, g, -, -, h⟩ | h
  · exact Flow.Moves.later (Micros.moves h hn)
  · rw [h]; exact later_cancelRows env s
  · rw [status_congr h]; exact Flow.Later.refl _

theorem Sound.applyOp (h : Sound d s) (op : RunOp) : Sound d (applyOp d s op) := by
  rcases applyOp_cases d s op with hm | ⟨env, g, -, -, hc⟩ | hn
  · exact ⟨(Micros.keys_perm hm).trans h.keys, Micros.nodup hm h.nodup,
      h.justified.moves (Micros.moves hm h.nodup), Micros.rows hm h.rows⟩
  · rw [hc]
    refine ⟨by rw [keys_cancelRows]; exact h.keys, by rw [keys_cancelRows]; exact h.nodup, ?_, ?_⟩
    · refine h.justified.later (later_cancelRows env s) ?_
      intro k st hk hp hs
      rw [status_cancelRows] at hk
      obtain ⟨st₀, h₀, hst⟩ := Option.map_eq_some_iff.mp hk
      split_ifs at hst with ho
      · exact absurd hst.symm hs
      · exact Or.inr ⟨st₀, h₀, by rw [hst]; exact hp, by rw [hst]; exact hs⟩
    · intro n hmem
      obtain ⟨n₀, hn₀, rfl⟩ := List.mem_map.mp hmem
      have hrow := h.rows n₀ hn₀
      rw [cancelNode]
      split_ifs with ho
      · refine ⟨hrow.attempt_le, fun hc => ?_, fun hc => ?_⟩
        · exact absurd hc (by simp)
        · exact absurd hc (by simp [NodeStatus.inFlight])
      · exact hrow
  · have hst := status_congr hn
    refine ⟨?_, ?_, by rw [hst]; exact h.justified, by rw [hn]; exact h.rows⟩
    · rw [RunState.keys, hn]; exact h.keys
    · rw [RunState.keys, hn]; exact h.nodup

theorem Sound.run (h : Sound d s) (ops : List RunOp) : Sound d (runFrom d s ops) :=
  Machine.run_invariant (fun _ op hs => hs.applyOp op) h ops

theorem Sound.later_run (h : Sound d s) (ops : List RunOp) :
    Flow.Later s.status (runFrom d s ops).status := by
  induction ops generalizing s with
  | nil => exact Flow.Later.refl _
  | cons op ops ih => exact (later_applyOp h.nodup op).trans (ih (h.applyOp op))

/-- **Activation safety.** For every definition, every run of it and every sequence of calls:
a node that has ever been neither pending nor skipped has a failed source of a failure
route, or all its prerequisites and success sources have succeeded; no node is activated
twice; and a node that succeeded, failed or was skipped keeps that status. -/
theorem activation_safe (D : Definition) (h : RunHeader) (release : Option Release)
    (exec : ExecDb) (ops ops' : List RunOp) :
    let s := runFrom D.json (startRun h D.json release exec) ops
    let s' := runFrom D.json s ops'
    (∀ k st, s.status k = some st → st ≠ .pending → st ≠ .skipped →
      (∃ j ∈ (edges D.json).fail k, s'.status j = some .failed) ∨
        (∀ j ∈ (edges D.json).deps k, s'.status j = some .succeeded) ∧
          ∀ j ∈ (edges D.json).succ k, s'.status j = some .succeeded) ∧
    (∀ n ∈ s'.nodes, n.attempt ≤ 1) ∧
    ∀ k st, s.status k = some st → st = .succeeded ∨ st = .failed ∨ st = .skipped →
      s'.status k = some st := by
  intro s s'
  have hs : Sound D.json s := (sound_startRun D h release exec).run ops
  have hlater : Flow.Later s.status s'.status := hs.later_run ops'
  refine ⟨?_, ?_, ?_⟩
  · intro k st hk hp hskip
    exact (hs.justified k st hk hp hskip).later hlater
  · intro n hn
    exact ((hs.run ops').rows n hn).attempt_le
  · rintro k st hk (rfl | rfl | rfl) <;> exact hlater k _ hk rfl

/-! ### Finalised runs -/

/-- The calls that drive a run: steps, callbacks, and whatever happens to the execution
tables; not the calls that cancel it or roll it back. -/
def RunOp.drives : RunOp → Bool
  | .step _ | .callback _ | .world _ _ => true
  | _ => false

theorem allTerminal_eq_true : s.allTerminal = true ↔ ∀ n ∈ s.nodes, n.status.terminal = true :=
  List.all_eq_true

/-- A run in one of the statuses `P` has ended nodes only. -/
def EndedIn (P : RunStatus → Bool) (s : RunState) : Prop :=
  P s.run.status = true → s.allTerminal = true

/-- A run that has ended has ended nodes only. -/
abbrev Ended (s : RunState) : Prop := EndedIn RunStatus.terminal s

variable {P : RunStatus → Bool}

theorem EndedIn.open_of_node (h : EndedIn P s) {k : String} {n : WorkflowNodeRun}
    (hn : s.node? k = some n) (ht : n.status.terminal = false) : P s.run.status = false := by
  by_contra hc
  have hall := allTerminal_eq_true.mp (h (by simpa using hc)) n (Table.mem_of_find hn)
  rw [ht] at hall
  exact absurd hall (by simp)

theorem EndedIn.of_open (h : P s.run.status = false) : EndedIn P s :=
  fun hc => absurd hc (by simp [h])

theorem EndedIn.micro (hP : P .running = false) (h : EndedIn P s) (hm : Micro d s s') :
    EndedIn P s' := by
  cases hm with
  | start hp => exact EndedIn.of_open hP
  | reorder hp =>
      intro hterm
      refine allTerminal_eq_true.mpr fun n hn => ?_
      exact allTerminal_eq_true.mp (h hterm) n (hp.subset hn)
  | activate hn hp _ => exact EndedIn.of_open (h.open_of_node hn (by rw [hp]; rfl))
  | skip hn hp _ => exact EndedIn.of_open (h.open_of_node hn (by rw [hp]; rfl))
  | advance hn hf _ _ =>
      exact EndedIn.of_open (h.open_of_node hn (NodeStatus.terminal_of_inFlight hf))
  | exec => exact h
  | finalise _ _ hall _ => exact fun _ => hall

theorem EndedIn.micros (hP : P .running = false) (h : EndedIn P s) (hm : Micros d s s') :
    EndedIn P s' := by
  induction hm with
  | refl => exact h
  | tail _ hmicro ih => exact ih.micro hP hmicro

/-- A run that has ended is the result of a finalisation: its nodes have ended, and its status
is the one computed from them. -/
structure Settled (s : RunState) : Prop where
  ended : Ended s
  final : s.run.status.terminal = true → s.run.status = finalStatus s

theorem Settled.of_open (h : s.run.status.terminal = false) : Settled s :=
  ⟨EndedIn.of_open h, fun hc => absurd hc (by simp [h])⟩

theorem finalStatus_of_perm (hp : s'.nodes.Perm s.nodes) : finalStatus s' = finalStatus s := by
  unfold finalStatus
  rw [hp.any_eq]

theorem Settled.micro (h : Settled s) (hm : Micro d s s') : Settled s' := by
  refine ⟨h.ended.micro rfl hm, ?_⟩
  cases hm with
  | start hp => exact (Settled.of_open rfl).final
  | reorder hp => exact fun hterm => (h.final hterm).trans (finalStatus_of_perm hp).symm
  | activate hn hp _ =>
      have hopen := h.ended.open_of_node hn (by rw [hp]; rfl)
      exact fun hc => absurd hc (by simp [hopen])
  | skip hn hp _ =>
      have hopen := h.ended.open_of_node hn (by rw [hp]; rfl)
      exact fun hc => absurd hc (by simp [hopen])
  | advance hn hf _ _ =>
      have hopen := h.ended.open_of_node hn (NodeStatus.terminal_of_inFlight hf)
      exact fun hc => absurd hc (by simp [hopen])
  | exec => exact h.final
  | finalise _ _ _ hst => exact fun _ => hst

theorem Settled.micros (h : Settled s) (hm : Micros d s s') : Settled s' := by
  induction hm with
  | refl => exact h
  | tail _ hmicro ih => exact ih.micro hmicro

/-- A driving call follows small changes, up to the release and the execution tables. -/
theorem drives_cases {op : RunOp} (hd : op.drives = true) :
    Micros d s (applyOp d s op) ∨
      (applyOp d s op).nodes = s.nodes ∧ (applyOp d s op).run = s.run := by
  cases op with
  | step env => exact Or.inl (micros_stepState env d s)
  | callback req =>
      rw [applyOp]
      rcases h : callbackNode s req with e | s₁
      · exact Or.inr ⟨rfl, rfl⟩
      · exact Or.inl (Relation.ReflTransGen.single (callbackNode_micro h))
  | world release exec => exact Or.inr ⟨rfl, rfl⟩
  | cancelRun env g => simp [RunOp.drives] at hd
  | cancelRelease now g => simp [RunOp.drives] at hd
  | rollbackRun lower env g => simp [RunOp.drives] at hd

theorem Settled.applyOp (h : Settled s) {op : RunOp} (hd : op.drives = true) :
    Settled (applyOp d s op) := by
  rcases drives_cases (d := d) (s := s) hd with hm | ⟨hn, hr⟩
  · exact h.micros hm
  · refine ⟨fun hterm => ?_, fun hterm => ?_⟩
    · rw [hr] at hterm
      rw [RunState.allTerminal, hn]
      exact h.ended hterm
    · rw [hr] at hterm ⊢
      rw [h.final hterm, finalStatus, finalStatus, hn]

/-- A run driven from its creation: settled, and its statuses are reached by moves. -/
theorem driven_run (D : Definition) (h : RunHeader) (release : Option Release) (exec : ExecDb)
    {ops : List RunOp} (hd : ∀ op ∈ ops, op.drives = true) :
    Settled (runFrom D.json (startRun h D.json release exec) ops) ∧
      Flow.Moves (edges D.json) (startRun h D.json release exec).status
        (runFrom D.json (startRun h D.json release exec) ops).status := by
  have hgen : ∀ (ops : List RunOp) (s : RunState), (∀ op ∈ ops, op.drives = true) →
      Sound D.json s → Settled s → Settled (runFrom D.json s ops) ∧
        Flow.Moves (edges D.json) s.status (runFrom D.json s ops).status := by
    intro ops
    induction ops with
    | nil => exact fun s _ _ hs => ⟨hs, Relation.ReflTransGen.refl⟩
    | cons op ops ih =>
        intro s hd hsound hsettled
        have hop := hd op List.mem_cons_self
        obtain ⟨hres, hmoves⟩ := ih (LarkPlat.applyOp D.json s op)
          (fun o ho => hd o (List.mem_cons_of_mem op ho)) (hsound.applyOp op) (hsettled.applyOp hop)
        refine ⟨hres, ?_⟩
        rcases drives_cases (d := D.json) (s := s) hop with hm | ⟨hn, -⟩
        · exact (Micros.moves hm hsound.nodup).trans hmoves
        · rw [status_congr hn] at hmoves
          exact hmoves
  exact hgen ops _ hd (sound_startRun D h release exec) (Settled.of_open rfl)

theorem finished_of_settled (hsettled : Settled s) (hterm : s.run.status.terminal = true)
    (hcan : Flow.Uncancelled s.status) : Flow.Finished s.status := by
  intro k st hk
  obtain ⟨n, hn, rfl⟩ := RunState.exists_node?_of_status hk
  have ht := allTerminal_eq_true.mp (hsettled.ended hterm) n (Table.mem_of_find hn)
  have hne : n.status ≠ .cancelled := fun hc => hcan k (by rw [hk, hc])
  cases hst : n.status <;> simp_all [NodeStatus.terminal]

theorem finalStatus_eq (hn : s.keys.Nodup) (hn' : s'.keys.Nodup) (h : s.status = s'.status) :
    finalStatus s = finalStatus s' := by
  have hany : ∀ {s : RunState}, s.keys.Nodup →
      ((s.nodes.any fun n => decide (n.status = .failed)) = true ↔
        ∃ k, s.status k = some .failed) := by
    intro s hn
    rw [List.any_eq_true]
    constructor
    · rintro ⟨n, hmem, hf⟩
      refine ⟨n.nodeKey, ?_⟩
      rw [RunState.status_of_node? ((RunState.node?_eq_some_iff hn).mpr ⟨hmem, rfl⟩),
        of_decide_eq_true hf]
    · rintro ⟨k, hk⟩
      obtain ⟨n, hnode, hf⟩ := RunState.exists_node?_of_status hk
      exact ⟨n, Table.mem_of_find hnode, decide_eq_true hf⟩
  unfold finalStatus
  have hiff : (s.nodes.any fun n => decide (n.status = .failed)) = true ↔
      (s'.nodes.any fun n => decide (n.status = .failed)) = true := by
    rw [hany hn, hany hn', h]
  rw [Bool.eq_iff_iff.mpr hiff]

/-! ### Confluence -/

/-- No node of the definition routes its failure. -/
def NoFailureRoutes (d : Json) : Prop :=
  ∀ n ∈ definitionNodes d, refs n "on_failure" = []

instance (d : Json) : Decidable (NoFailureRoutes d) :=
  inferInstanceAs (Decidable (∀ n ∈ definitionNodes d, refs n "on_failure" = []))

theorem NoFailureRoutes.fail_eq_nil (h : NoFailureRoutes d) (k : String) :
    (edges d).fail k = [] := by
  refine List.filter_eq_nil_iff.mpr fun j hj hc => ?_
  have hmem := of_decide_eq_true hc
  rw [h _ (defnode_mem hj).1] at hmem
  exact absurd hmem (by simp)

/-- The outcomes of the nodes are those assigned by `ω`: a node that has succeeded was
assigned success, and a node that has failed was assigned failure. -/
def RespectsOutcomes (ω : String → Bool) (s : RunState) : Prop :=
  ∀ n ∈ s.nodes, (n.status = .succeeded → ω n.nodeKey = true) ∧
    (n.status = .failed → ω n.nodeKey = false)

instance (ω : String → Bool) (s : RunState) : Decidable (RespectsOutcomes ω s) :=
  inferInstanceAs (Decidable (∀ n ∈ s.nodes, (n.status = .succeeded → ω n.nodeKey = true) ∧
    (n.status = .failed → ω n.nodeKey = false)))

theorem RespectsOutcomes.follows {ω : String → Bool} (h : RespectsOutcomes ω s) :
    Flow.Follows ω s.status := by
  have hnode : ∀ {k st}, s.status k = some st → ∃ n ∈ s.nodes, n.nodeKey = k ∧ n.status = st := by
    intro k st hk
    obtain ⟨n, hn, hst⟩ := RunState.exists_node?_of_status hk
    exact ⟨n, Table.mem_of_find hn, Table.key_of_find hn, hst⟩
  intro k
  constructor
  · intro hk
    obtain ⟨n, hmem, rfl, hst⟩ := hnode hk
    exact (h n hmem).1 hst
  · intro hk
    obtain ⟨n, hmem, rfl, hst⟩ := hnode hk
    exact (h n hmem).2 hst

/-- **Confluence.** Take a definition without failure routes and an assignment of outcomes to
its nodes. Any two executions that finalise a run of it and respect the assignment end with
the same status for every node and the same run status, whatever the row orders, the ticks
in which nodes complete, and the number of idle steps. -/
theorem execution_confluent (D : Definition) (hroutes : NoFailureRoutes D.json)
    (ω : String → Bool) (h h' : RunHeader) (release release' : Option Release)
    (exec exec' : ExecDb) (ops ops' : List RunOp)
    (hd : ∀ op ∈ ops, op.drives = true) (hd' : ∀ op ∈ ops', op.drives = true)
    (hω : RespectsOutcomes ω (runFrom D.json (startRun h D.json release exec) ops))
    (hω' : RespectsOutcomes ω (runFrom D.json (startRun h' D.json release' exec') ops'))
    (hfin : (runFrom D.json (startRun h D.json release exec) ops).run.status.terminal = true)
    (hfin' : (runFrom D.json (startRun h' D.json release' exec') ops').run.status.terminal = true) :
    (∀ k, (runFrom D.json (startRun h D.json release exec) ops).status k =
      (runFrom D.json (startRun h' D.json release' exec') ops').status k) ∧
    (runFrom D.json (startRun h D.json release exec) ops).run.status =
      (runFrom D.json (startRun h' D.json release' exec') ops').run.status := by
  obtain ⟨hset, hm⟩ := driven_run D h release exec hd
  obtain ⟨hset', hm'⟩ := driven_run D h' release' exec' hd'
  have hstart := startRun_status_eq h D.json release exec
  have hstart' := startRun_status_eq h' D.json release' exec'
  have hcan₀ : ∀ {m : Flow.Marking String}, (∀ k, m k = none ∨ m k = some .pending) →
      Flow.Uncancelled m := by
    intro m hs k hk
    rcases hs k with h₀ | h₀ <;> rw [h₀] at hk <;> simp at hk
  have hdom : ∀ k, ((startRun h D.json release exec).status k).isSome =
      ((startRun h' D.json release' exec').status k).isSome := by
    intro k
    have hnodes : ∀ (h : RunHeader) (release : Option Release) (exec : ExecDb),
        ((startRun h D.json release exec).status k).isSome =
          decide (k ∈ definitionKeys D.json) := by
      intro h release exec
      by_cases hk : k ∈ definitionKeys D.json
      · rw [startRun_status D.accepted hk, decide_eq_true hk]; rfl
      · have hnone : (startRun h D.json release exec).node? k = none := by
          refine Table.find_eq_none_iff.mpr fun hc => hk ?_
          rw [← startRun_keys h release exec D.accepted]
          exact hc
        rw [RunState.status, hnone, decide_eq_false hk]; rfl
    rw [hnodes, hnodes]
  have heq := Flow.finished_eq hroutes.fail_eq_nil hstart hstart' hdom hm hm'
    (finished_of_settled hset hfin ((hcan₀ hstart).moves hm))
    (finished_of_settled hset' hfin' ((hcan₀ hstart').moves hm'))
    hω.follows hω'.follows
  refine ⟨fun k => congrFun heq k, ?_⟩
  have hn := ((sound_startRun D h release exec).run ops).nodup
  have hn' := ((sound_startRun D h' release' exec').run ops').nodup
  rw [hset.final hfin, hset'.final hfin']
  exact finalStatus_eq hn hn' heq

/-- Two timers, one after the other. -/
def timersDefinition : Definition where
  json := .obj [("nodes", .arr [
    .obj [("key", .str "first"), ("type", .str "sleep")],
    .obj [("key", .str "second"), ("type", .str "wait"), ("depends_on", .arr [.str "first"])]])]
  valid := by decide +kernel

/-- A step at time `t` that reads the rows in reverse order. -/
def reversedStep (t : ℚ) : RunOp := .step { StepEnv.atTime t with order := RowOrder.reversed }

theorem execution_confluent_timers :
    (∀ k, (runFrom timersDefinition.json
        (startRun manualHeader timersDefinition.json none emptyExec)
        (List.replicate 4 (.step (StepEnv.atTime 0)))).status k =
      (runFrom timersDefinition.json
        (startRun manualHeader timersDefinition.json none emptyExec)
        [reversedStep 0, reversedStep 7, .step (StepEnv.atTime 8), reversedStep 9,
          .step (StepEnv.atTime 9)]).status k) ∧
    (runFrom timersDefinition.json
        (startRun manualHeader timersDefinition.json none emptyExec)
        (List.replicate 4 (.step (StepEnv.atTime 0)))).run.status =
      (runFrom timersDefinition.json
        (startRun manualHeader timersDefinition.json none emptyExec)
        [reversedStep 0, reversedStep 7, .step (StepEnv.atTime 8), reversedStep 9,
          .step (StepEnv.atTime 9)]).run.status :=
  execution_confluent timersDefinition (by decide +kernel) (fun _ => true) manualHeader
    manualHeader none none emptyExec emptyExec _ _ (by simp [RunOp.drives])
    (by simp [RunOp.drives, reversedStep]) (by decide +kernel) (by decide +kernel)
    (by decide +kernel) (by decide +kernel)

end LarkPlat
