import LarkPlat.Definition
import LarkPlat.ExecRows

/-!
# Workflow Rows

The rows of one workflow run: the run itself, its node rows, the release that triggered it
(if one did), and the execution tables that the nodes drive. `RunState` is one committed
state of these rows. Node keys are unique within a run, so a node row is addressed by its
key.

A row's JSON columns are dictionaries or null; a null column reads as the empty dictionary
everywhere (`node.output or {}`), and is represented by it.
-/

namespace LarkPlat

/-- The statuses of a node row. -/
inductive NodeStatus
  | pending
  | running
  | waiting
  | succeeded
  | failed
  | skipped
  | cancelled
  deriving DecidableEq, Repr

namespace NodeStatus

/-- `_NODE_TERMINAL`. -/
def terminal : NodeStatus → Bool
  | succeeded | failed | skipped | cancelled => true
  | _ => false

/-- The statuses of a prerequisite that make an AND-join unreachable. -/
def lost : NodeStatus → Bool
  | failed | skipped | cancelled => true
  | _ => false

/-- A node in flight. -/
def inFlight : NodeStatus → Bool
  | running | waiting => true
  | _ => false

theorem terminal_of_inFlight {st : NodeStatus} (h : st.inFlight = true) :
    st.terminal = false := by
  cases st <;> simp_all [inFlight, terminal]

end NodeStatus

/-- The statuses of a run row: `RUN_STATUSES` and the status set by `rollback_run`. -/
inductive RunStatus
  | pending
  | running
  | succeeded
  | failed
  | cancelled
  | rolledBack
  deriving DecidableEq, Repr

/-- `TERMINAL_RUN_STATUSES`. -/
def RunStatus.terminal : RunStatus → Bool
  | succeeded | failed | cancelled => true
  | _ => false

/-- `TRIGGER_TYPES`. -/
inductive TriggerType
  | manual
  | ticket
  | schedule
  | alert
  | release
  deriving DecidableEq, Repr

/-- A row of `workflow_node_run`. -/
structure WorkflowNodeRun where
  id : ℕ
  nodeKey : String
  nodeType : NodeType
  status : NodeStatus
  execTaskId : Option ℕ
  approvalId : Option ℕ
  attempt : ℕ
  output : List (String × Json)
  error : Option String
  startedAt : Option ℚ
  finishedAt : Option ℚ
  deriving DecidableEq

/-- A row of `workflow_run`. -/
structure WorkflowRun where
  id : ℕ
  workflowId : ℕ
  workflowVersion : ℕ
  status : RunStatus
  triggerType : TriggerType
  triggerRef : List (String × Json)
  context : List (String × Json)
  startedAt : Option ℚ
  finishedAt : Option ℚ
  error : Option String
  createdBy : Option ℕ
  deriving DecidableEq

/-- The statuses of a release. -/
inductive ReleaseStatus
  | pending
  | deploying
  | canary
  | succeeded
  | failed
  | rolledBack
  | cancelled
  deriving DecidableEq, Repr

/-- The columns of `release` that a run and its release read of each other. -/
structure Release where
  id : ℕ
  status : ReleaseStatus
  workflowRunId : Option ℕ
  deriving DecidableEq

/-- One committed state of the rows around a run. `release` is the release whose
`workflow_run_id` is the run. -/
structure RunState where
  run : WorkflowRun
  nodes : List WorkflowNodeRun
  release : Option Release
  exec : ExecDb
  deriving DecidableEq

namespace RunState

variable (s : RunState)

/-- The row of a node. -/
def node? (k : String) : Option WorkflowNodeRun :=
  Table.find WorkflowNodeRun.nodeKey s.nodes k

/-- `status.get(k)` on the dictionary of node statuses. -/
def status (k : String) : Option NodeStatus :=
  (s.node? k).map (·.status)

/-- Change the row of a node. -/
def setNode (k : String) (f : WorkflowNodeRun → WorkflowNodeRun) : RunState :=
  { s with nodes := Table.modify WorkflowNodeRun.nodeKey s.nodes k f }

/-- Change the run row. -/
def setRun (f : WorkflowRun → WorkflowRun) : RunState :=
  { s with run := f s.run }

/-- The node keys of the run. -/
def keys : List String :=
  s.nodes.map (·.nodeKey)

/-- Every node row is in a terminal status. -/
def allTerminal : Bool :=
  s.nodes.all (·.status.terminal)

/-- No node row is `running` or `waiting`. -/
def quiet : Bool :=
  s.nodes.all fun n => !n.status.inFlight

variable {s} {k k' : String} {f : WorkflowNodeRun → WorkflowNodeRun}
  {g : WorkflowRun → WorkflowRun}

@[simp] theorem setNode_run : (s.setNode k f).run = s.run := rfl

@[simp] theorem setRun_run : (s.setRun g).run = g s.run := rfl

theorem keys_setNode (hf : ∀ n, n.nodeKey = k → (f n).nodeKey = k) :
    (s.setNode k f).keys = s.keys :=
  Table.map_key_modify hf

theorem node?_setNode_self (hf : ∀ n, n.nodeKey = k → (f n).nodeKey = k) :
    (s.setNode k f).node? k = (s.node? k).map f :=
  Table.find_modify_self hf

theorem node?_setNode_ne (hf : ∀ n, n.nodeKey = k → (f n).nodeKey = k) (hne : k' ≠ k) :
    (s.setNode k f).node? k' = s.node? k' :=
  Table.find_modify_ne hf hne

theorem status_setNode {n n' : WorkflowNodeRun} (h : s.node? k = some n)
    (hf : ∀ m, m.nodeKey = k → (f m).nodeKey = k) (hn' : f n = n') :
    (s.setNode k f).status = Function.update s.status k (some n'.status) := by
  funext j
  by_cases hj : j = k
  · subst hj
    rw [status, node?_setNode_self hf, h, Function.update_self, Option.map_some, Option.map_some,
      hn']
  · rw [status, node?_setNode_ne hf hj, Function.update_of_ne hj, status]

theorem status_of_node? {n : WorkflowNodeRun} (h : s.node? k = some n) :
    s.status k = some n.status := by
  rw [status, h, Option.map_some]

theorem exists_node?_of_status {st : NodeStatus} (h : s.status k = some st) :
    ∃ n, s.node? k = some n ∧ n.status = st :=
  Option.map_eq_some_iff.mp h

theorem node?_eq_some_iff (hn : s.keys.Nodup) {n : WorkflowNodeRun} :
    s.node? k = some n ↔ n ∈ s.nodes ∧ n.nodeKey = k :=
  Table.find_eq_some_iff hn

theorem node?_of_perm {s' : RunState} (hn : s.keys.Nodup) (hp : s'.nodes.Perm s.nodes)
    (k : String) : s'.node? k = s.node? k :=
  Table.find_of_perm hp hn k

end RunState

end LarkPlat
