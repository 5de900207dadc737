import LarkPlat.EngineMoves
import LarkPlat.Machine
import LarkPlat.RunService

/-!
# The Activation Loop and Quiet Steps

When no node is in flight, a step consists of its activation loop and the finalisation: the
two advancing loops find nothing to do, and nothing in the step can raise. This module
describes the activation loop node by node and derives what a quiet step does.

Failure handlers are the first application. The activation rule looks at a failure route
only to activate a node early; a node whose only routes are failure routes has nothing else
to wait for, so it is activated by the first step of its run.

## Main results

* `stepState_of_quiet`: a quiet step is the activation loop followed by the finalisation.
* `exists_decided_of_verdict`: a pending node that is not on hold makes the loop decide a
  node.
* `handler_never_gated`: a pure failure handler runs although no failure occurred.
-/

namespace LarkPlat

variable (env : StepEnv) {d : Json} {w : Work} {s : RunState} {j k : String}

/-! ### One node of the activation loop -/

/-- The status that the activation rule gives to a pending node. -/
def decided : Flow.Verdict → NodeStatus
  | .ready => .running
  | .skip => .skipped
  | .wait => .pending

theorem activateAt_status_self (h : w.cur.status k = some .pending) :
    (activateAt env d w k).cur.status k = some (decided ((edges d).verdict w.cur.status k)) := by
  obtain ⟨n, hn, hp⟩ := RunState.exists_node?_of_status h
  have hkey : n.nodeKey = k := Table.key_of_find hn
  have hwrite : ∀ n' : WorkflowNodeRun, n'.nodeKey = n.nodeKey →
      (w.cur.setNode n'.nodeKey fun _ => n').status k = some n'.status := by
    intro n' hk'
    rw [hk', hkey, status_write hn hk', Function.update_self]
  rw [activateAt]
  rw [hn]
  dsimp only
  rw [if_pos hp]
  rcases hv : (edges d).verdict w.cur.status k with _ | _ | _
  · exact hwrite (activate (env.clock k 0) n) rfl
  · exact hwrite (skip (env.clock k 0) n) rfl
  · exact h

theorem activateAt_of_ne_pending (h : w.cur.status k ≠ some .pending) :
    activateAt env d w k = w := by
  rw [activateAt]
  split
  · rfl
  · rename_i n hn
    rw [if_neg]
    intro hp
    exact h (by rw [RunState.status_of_node? hn, hp])

theorem activateAt_status_ne (hne : j ≠ k) :
    (activateAt env d w k).cur.status j = w.cur.status j := by
  rw [activateAt]
  split
  · rfl
  rename_i n hn
  have hkey : n.nodeKey = k := Table.key_of_find hn
  have hwrite : ∀ n' : WorkflowNodeRun, n'.nodeKey = n.nodeKey →
      (w.cur.setNode n'.nodeKey fun _ => n').status j = w.cur.status j := by
    intro n' hk'
    rw [hk', hkey, status_write hn hk', Function.update_of_ne hne]
  split_ifs
  swap
  · rfl
  split
  · exact hwrite (activate (env.clock k 0) n) rfl
  · exact hwrite (skip (env.clock k 0) n) rfl
  · rfl

/-- The loop body changes a status only from `pending`. -/
theorem activateAt_status_of_ne_pending (h : w.cur.status j ≠ some .pending) :
    (activateAt env d w k).cur.status j = w.cur.status j := by
  by_cases hjk : j = k
  · subst hjk
    rw [activateAt_of_ne_pending env h]
  · exact activateAt_status_ne env hjk

theorem activateAt_status_of_pending (h : w.cur.status j = some .pending) :
    ∃ v, (activateAt env d w k).cur.status j = some (decided v) := by
  by_cases hjk : j = k
  · subst hjk
    exact ⟨_, activateAt_status_self env h⟩
  · rw [activateAt_status_ne env hjk]
    exact ⟨.wait, h⟩

/-! ### The whole loop -/

/-- The activation loop over the given keys. -/
def activateAll (env : StepEnv) (d : Json) (w : Work) (ks : List String) : Work :=
  ks.foldl (activateAt env d) w

@[simp] theorem activateAll_cons (k : String) (ks : List String) :
    activateAll env d w (k :: ks) = activateAll env d (activateAt env d w k) ks := rfl

theorem activateAll_status_of_ne_pending {ks : List String} :
    ∀ {w : Work}, w.cur.status j ≠ some .pending →
      (activateAll env d w ks).cur.status j = w.cur.status j := by
  induction ks with
  | nil => intro w _; rfl
  | cons k ks ih =>
      intro w h
      have hone := activateAt_status_of_ne_pending env (d := d) (k := k) h
      rw [activateAll_cons env, ih (by rw [hone]; exact h), hone]

theorem activateAll_status_of_pending {ks : List String} :
    ∀ {w : Work}, w.cur.status j = some .pending →
      ∃ v, (activateAll env d w ks).cur.status j = some (decided v) := by
  induction ks with
  | nil => intro w h; exact ⟨.wait, h⟩
  | cons k ks ih =>
      intro w h
      obtain ⟨v, hv⟩ := activateAt_status_of_pending env (d := d) (k := k) h
      rw [activateAll_cons env]
      cases v with
      | wait => exact ih hv
      | ready =>
          refine ⟨.ready, ?_⟩
          rw [activateAll_status_of_ne_pending env (by simp [hv, decided]), hv]
      | skip =>
          refine ⟨.skip, ?_⟩
          rw [activateAll_status_of_ne_pending env (by simp [hv, decided]), hv]

theorem activateAll_status_eq {ks : List String} {st : NodeStatus}
    (h : (activateAll env d w ks).cur.status j = some st)
    (hst : st ≠ .pending ∧ st ≠ .running ∧ st ≠ .skipped) : w.cur.status j = some st := by
  by_cases hp : w.cur.status j = some .pending
  · obtain ⟨v, hv⟩ := activateAll_status_of_pending env (d := d) hp
    rw [hv, Option.some.injEq] at h
    subst h
    cases v <;> simp [decided] at hst
  · rwa [activateAll_status_of_ne_pending env hp] at h

/-- **Progress of the loop.** If some pending node of the loop is not on hold, the loop
decides a node. -/
theorem exists_decided_of_verdict {ks : List String} :
    ∀ {w : Work}, (∃ k ∈ ks, w.cur.status k = some .pending ∧
        (edges d).verdict w.cur.status k ≠ .wait) →
      ∃ j, w.cur.status j = some .pending ∧
        ((activateAll env d w ks).cur.status j = some .running ∨
          (activateAll env d w ks).cur.status j = some .skipped) := by
  induction ks with
  | nil => intro w h; simp at h
  | cons a ks ih =>
      intro w h
      rw [activateAll_cons env]
      by_cases ha : w.cur.status a = some .pending ∧ (edges d).verdict w.cur.status a ≠ .wait
      · -- the first node is decided, and later nodes do not change that
        obtain ⟨hp, hv⟩ := ha
        have hself := activateAt_status_self env (d := d) hp
        refine ⟨a, hp, ?_⟩
        cases hverdict : (edges d).verdict w.cur.status a with
        | ready =>
            rw [hverdict] at hself
            left
            rw [activateAll_status_of_ne_pending env (by simp [hself, decided]), hself, decided]
        | skip =>
            rw [hverdict] at hself
            right
            rw [activateAll_status_of_ne_pending env (by simp [hself, decided]), hself, decided]
        | wait => exact absurd hverdict hv
      · -- the first node stays as it is, so the statuses do not change before the rest
        have hsame : (activateAt env d w a).cur.status = w.cur.status := by
          funext i
          by_cases hi : i = a
          · subst hi
            by_cases hp : w.cur.status i = some .pending
            · have hwait : (edges d).verdict w.cur.status i = .wait := by
                by_contra hv
                exact ha ⟨hp, hv⟩
              rw [activateAt_status_self env hp, hwait, decided, hp]
            · rw [activateAt_of_ne_pending env hp]
          · exact activateAt_status_ne env hi
        obtain ⟨k, hk, hp, hv⟩ := h
        rcases List.mem_cons.mp hk with rfl | hk
        · exact absurd ⟨hp, hv⟩ ha
        · obtain ⟨i, hi, hres⟩ := ih (w := activateAt env d w a)
            ⟨k, hk, by rw [hsame]; exact hp, by rw [hsame]; exact hv⟩
          exact ⟨i, by rw [← hsame]; exact hi, hres⟩

/-! ### Quiet steps -/

/-- Nothing for the advancing loops to do: what is running was activated in this step, and
nothing is waiting. -/
def Idle (w : Work) : Prop :=
  ∀ n ∈ w.cur.nodes, (n.status = .running → n.nodeKey ∈ w.activated) ∧ n.status ≠ .waiting

theorem Idle.activateAt (h : Idle w) (k : String) : Idle (activateAt env d w k) := by
  rw [LarkPlat.activateAt]
  split
  · exact h
  rename_i n hn
  have hkey : n.nodeKey = k := Table.key_of_find hn
  split_ifs
  swap
  · exact h
  split
  · intro m hm
    rcases Table.mem_modify.mp hm with ⟨-, -, -, rfl⟩ | ⟨hm, -⟩
    · exact ⟨fun _ => List.mem_cons.mpr (Or.inl hkey), by simp [activate]⟩
    · exact ⟨fun hr => List.mem_cons_of_mem _ ((h m hm).1 hr), (h m hm).2⟩
  · intro m hm
    rcases Table.mem_modify.mp hm with ⟨-, -, -, rfl⟩ | ⟨hm, -⟩
    · exact ⟨fun hr => absurd hr (by simp [skip]), by simp [skip]⟩
    · exact h m hm
  · exact h

theorem Idle.activateAll (h : Idle w) (ks : List String) : Idle (activateAll env d w ks) := by
  induction ks generalizing w with
  | nil => exact h
  | cons k ks ih => exact ih (h.activateAt env k)

theorem foldlM_forNodes_eq {f : Work → WorkflowNodeRun → Except PyErr Work}
    (hf : ∀ n ∈ w.cur.nodes, f w n = .ok w) (ks : List String) :
    ks.foldlM (forNodes f) w = .ok w := by
  induction ks with
  | nil => rfl
  | cons k ks ih =>
      have hk : forNodes f w k = .ok w := by
        rw [forNodes]
        split
        · rfl
        · rename_i n hn
          rw [hf n (Table.mem_of_find hn)]
      rw [List.foldlM_cons, hk]
      exact ih

theorem Idle.stepRunning (h : Idle w) : ∀ n ∈ w.cur.nodes, stepRunning env d w n = .ok w := by
  intro n hn
  rw [LarkPlat.stepRunning]
  rw [if_neg]
  rintro ⟨hr, hna⟩
  exact hna ((h n hn).1 hr)

theorem Idle.stepWaiting (h : Idle w) : ∀ n ∈ w.cur.nodes, stepWaiting env d w n = .ok w := by
  intro n hn
  rw [LarkPlat.stepWaiting]
  rw [if_neg (h n hn).2]

theorem idle_beginStep (hq : s.quiet = true) : Idle (beginStep env s) := by
  intro n hn
  have hmem : n ∈ s.nodes := (env.order.perm s.nodes).subset hn
  have hfree : (!n.status.inFlight) = true := List.all_eq_true.mp hq n hmem
  constructor
  · intro hr
    rw [hr] at hfree
    exact absurd hfree (by decide)
  · intro hw
    rw [hw] at hfree
    exact absurd hfree (by decide)

/-- The session of a quiet step before its finalisation. -/
def quietWork (env : StepEnv) (d : Json) (s : RunState) : Work :=
  activateAll env d (beginStep env s) (beginStep env s).cur.keys

theorem activateAll_commits (ks : List String) (w : Work) :
    (activateAll env d w ks).commits = w.commits := by
  induction ks generalizing w with
  | nil => rfl
  | cons k ks ih =>
      rw [activateAll_cons env, ih]
      rw [activateAt]
      split
      · rfl
      · split_ifs
        · split <;> rfl
        · rfl

theorem finalise_commits (w : Work) : (finalise env w).commits = w.commits := by
  rw [finalise]
  dsimp only
  split_ifs <;> rfl

/-- **Quiet steps.** With no node in flight, a step on an open run runs through: it is the
activation loop followed by the finalisation and one commit. -/
theorem step_of_quiet (hopen : s.run.status.terminal = false) (hq : s.quiet = true) :
    (step env d s).commits = [(finalise env (quietWork env d s)).cur] := by
  have hidle : Idle (quietWork env d s) := (idle_beginStep env hq).activateAll env _
  have hfold : (beginStep env s).cur.keys.foldl (activateAt env d) (beginStep env s) =
      quietWork env d s := rfl
  have hrun := foldlM_forNodes_eq (hidle.stepRunning env (d := d)) (beginStep env s).cur.keys
  have hwait := foldlM_forNodes_eq (hidle.stepWaiting env (d := d)) (beginStep env s).cur.keys
  have hcommits : (finalise env (quietWork env d s)).commits = [] := by
    rw [finalise_commits, quietWork, activateAll_commits]
    rfl
  rw [step]
  rw [if_neg (by simp [hopen])]
  simp only [bind, Except.bind, hfold, hrun, hwait, hcommits, List.nil_append]

theorem stepState_of_quiet (hopen : s.run.status.terminal = false) (hq : s.quiet = true) :
    stepState env d s = (finalise env (quietWork env d s)).cur := by
  rw [stepState]
  simp only [step_of_quiet env hopen hq, List.getLast_cons_cons, List.getLast_singleton]

/-! ### Failure handlers -/

/-- A pure failure handler: some failure route leads to it, and nothing else does. -/
structure Handler (d : Json) (k : String) : Prop where
  mem : k ∈ definitionKeys d
  routed : (edges d).fail k ≠ []
  no_deps : (edges d).deps k = []
  no_succ : (edges d).succ k = []

/-- The runs of a definition, from the state in which a run is created. -/
abbrev runFrom (d : Json) (s : RunState) (ops : List RunOp) : RunState :=
  Machine.run (applyOp d) s ops

/-- A handler runs only on failure: in every state of every run, it is running only if a
source of its failure routes has failed; and once all sources have ended without failure it
has not run and will not. -/
def GatedByFailure (d : Json) (s : RunState) (k : String) : Prop :=
  ∀ ops,
    ((runFrom d s ops).status k = some .running →
      ∃ j ∈ (edges d).fail k, (runFrom d s ops).status j = some .failed) ∧
    ((∀ j ∈ (edges d).fail k, ∃ st, (runFrom d s ops).status j = some st ∧
        st.terminal = true ∧ st ≠ .failed) →
      (runFrom d s ops).status k = some .pending ∨ (runFrom d s ops).status k = some .skipped)

theorem Handler.ready (h : Handler d k) (m : Flow.Marking String) :
    (edges d).verdict m k = .ready := by
  simp [Flow.Graph.verdict, h.no_deps, h.no_succ]

theorem activateAll_handler (hh : Handler d k) {ks : List String} (hk : k ∈ ks) :
    ∀ {w : Work}, w.cur.status k = some .pending →
      (activateAll env d w ks).cur.status k = some .running := by
  induction ks with
  | nil => simp at hk
  | cons a ks ih =>
      intro w hp
      rw [activateAll_cons env]
      by_cases ha : k = a
      · subst ha
        have hself := activateAt_status_self env (d := d) hp
        rw [hh.ready, decided] at hself
        rw [activateAll_status_of_ne_pending env (by simp [hself]), hself]
      · have hmem : k ∈ ks := (List.mem_cons.mp hk).resolve_left ha
        exact ih hmem (by rw [activateAt_status_ne env ha]; exact hp)

theorem finalise_status (w : Work) : (finalise env w).cur.status = w.cur.status := by
  rw [finalise]
  dsimp only
  split_ifs
  · split <;> rfl
  · rfl

theorem beginStep_status (hn : s.keys.Nodup) : (beginStep env s).cur.status = s.status := by
  funext k
  have hnode : (beginStep env s).cur.node? k = s.node? k :=
    RunState.node?_of_perm hn (env.order.perm s.nodes) k
  rw [RunState.status, hnode, RunState.status]

theorem startRun_quiet (h : RunHeader) (d : Json) (release : Option Release) (exec : ExecDb) :
    (startRun h d release exec).quiet = true := by
  refine List.all_eq_true.mpr fun n hmem => ?_
  rw [(newRow_of_mem hmem).status]
  rfl

theorem handler_runs_first (D : Definition) {k : String} (hh : Handler D.json k)
    (h : RunHeader) (release : Option Release) (exec : ExecDb) :
    (stepState env D.json (startRun h D.json release exec)).status k = some .running ∧
      ∀ j, (stepState env D.json (startRun h D.json release exec)).status j ≠ some .failed := by
  set s := startRun h D.json release exec with hs
  have hkeys : s.keys = definitionKeys D.json := startRun_keys h release exec D.accepted
  have hn : s.keys.Nodup := by rw [hkeys]; exact D.accepted.nodup
  have hstatus : (stepState env D.json s).status =
      (activateAll env D.json (beginStep env s) (beginStep env s).cur.keys).cur.status := by
    rw [stepState_of_quiet env rfl (startRun_quiet h D.json release exec), finalise_status]
    rfl
  rw [hstatus]
  constructor
  · have hpend : (beginStep env s).cur.status k = some .pending := by
      rw [beginStep_status env hn]
      exact startRun_status D.accepted hh.mem
    have hperm : (beginStep env s).cur.keys.Perm s.keys := (env.order.perm s.nodes).map _
    have hmem : k ∈ (beginStep env s).cur.keys := by
      rw [hperm.mem_iff, hkeys]
      exact hh.mem
    exact activateAll_handler env hh hmem hpend
  · -- the loop ends no node by failure, and the run began with pending nodes
    intro j hj
    have hold := activateAll_status_eq env hj (by simp)
    rw [beginStep_status env hn] at hold
    rcases startRun_status_eq h D.json release exec j with hj' | hj' <;>
      rw [← hs, hold] at hj' <;> simp at hj'

/-- **Handlers are not gated.** No run of a definition with a pure failure handler keeps the
handler back until a failure: the first step activates it. -/
theorem handler_never_gated (D : Definition) (k : String) (hh : Handler D.json k)
    (h : RunHeader) (release : Option Release) (exec : ExecDb) :
    ¬ GatedByFailure D.json (startRun h D.json release exec) k := by
  intro hgated
  obtain ⟨hrunning, hnone⟩ := handler_runs_first (StepEnv.atTime 0) D hh h release exec
  obtain ⟨j, -, hj⟩ := (hgated [.step (StepEnv.atTime 0)]).1 hrunning
  exact hnone j hj

/-- A node `deploy` whose failure is routed to `alarm`. -/
def alarmDefinition : Definition where
  json := .obj [("nodes", .arr [
    .obj [("key", .str "deploy"), ("type", .str "callback"), ("on_failure", .arr [.str "alarm"])],
    .obj [("key", .str "alarm"), ("type", .str "sleep")]])]
  valid := by decide +kernel

/-- A run created by hand, with the first identifiers. -/
def manualHeader : RunHeader where
  id := 1
  firstNodeId := 1
  workflowId := 1
  workflowVersion := 1
  triggerType := .manual
  triggerRef := []
  context := []
  createdBy := some 1

/-- Tables with nothing in them. -/
def emptyExec : ExecDb := ExecDb.fresh [] ⟨[], none, false⟩

theorem handler_never_gated_alarm :
    Handler alarmDefinition.json "alarm" ∧
      ¬ GatedByFailure alarmDefinition.json
        (startRun manualHeader alarmDefinition.json none emptyExec) "alarm" := by
  have hh : Handler alarmDefinition.json "alarm" :=
    ⟨by decide +kernel, by decide +kernel, by decide +kernel, by decide +kernel⟩
  exact ⟨hh, handler_never_gated alarmDefinition "alarm" hh manualHeader none emptyExec⟩

/-- After the first step of the run, `alarm` is running while `deploy` has not failed. -/
theorem alarm_runs_without_failure :
    ¬ GatedByFailure alarmDefinition.json
      (startRun manualHeader alarmDefinition.json none emptyExec) "alarm" := by
  intro hgated
  have hsources : (edges alarmDefinition.json).fail "alarm" = ["deploy"] := by decide +kernel
  obtain ⟨j, hj, hfailed⟩ := (hgated [.step (StepEnv.atTime 0)]).1 (by decide +kernel)
  rw [hsources, List.mem_singleton] at hj
  subst hj
  exact absurd hfailed (by decide +kernel)

end LarkPlat
