import LarkPlat.ExecDispatch
import LarkPlat.Flow

/-!
# The Workflow Engine

This module models `workflow_engine.step`: one call loads the run and its node rows,
activates or skips pending nodes, advances the nodes that were already in flight, finalises
the run when every node has ended, and commits. The call may commit several times (the
creation of an exec task commits what the session holds so far) and it may raise, which
rolls back to the last commit; `StepTrace` records the committed states and the answer.

Definitions are read from their JSON. The validator does not look into a node's `config`,
so a configuration of the wrong shape makes the readers here raise as Python does.

What a step reads from outside the rows is in `StepEnv`: clock readings, the order in which
the database returns the node rows, the token service, the ISO date parser, the answer of
the auto-approval policy and the environment of the in-process dispatch.
-/

namespace LarkPlat

open Flow (Graph Verdict)

/-! ### The environment of a step -/

/-- An order in which the database may return rows: a permutation of them. -/
structure RowOrder where
  rows : List WorkflowNodeRun → List WorkflowNodeRun
  perm : ∀ l, (rows l).Perm l

/-- The order of the stored list. -/
def RowOrder.stored : RowOrder := ⟨id, fun l => List.Perm.refl l⟩

/-- The reverse order. -/
def RowOrder.reversed : RowOrder := ⟨List.reverse, fun l => l.reverse_perm⟩

/-- What one step reads from outside the rows. `clock k i` is the `i`-th clock reading made
for node `k`, and `now` the one made for the run. -/
structure StepEnv where
  now : ℚ
  clock : String → ℕ → ℚ
  order : RowOrder
  lower : String → String
  token : ℕ → String → String
  isoFormat : ℚ → String
  fromIso : String → Option ℚ
  policy : Option String
  dispatch : DispatchEnv

/-- An environment in which every clock shows `t` and the services around the engine have
nothing to add. -/
def StepEnv.atTime (t : ℚ) : StepEnv where
  now := t
  clock := fun _ _ => t
  order := RowOrder.stored
  lower := id
  token := fun _ key => "token:" ++ key
  isoFormat := fun _ => ""
  fromIso := fun _ => none
  policy := none
  dispatch :=
    { now := t
      sshAvailable := false
      brokerUp := false
      acquires := fun _ => true
      agentAccepts := fun _ => false
      sshSucceeds := fun _ => false }

/-! ### Reading the definition -/

/-- `_edges`, with the `depends_on` lists: the routes of a definition, seen from the nodes
they lead to. -/
def edges (d : Json) : Graph String where
  deps := fun k => refs (defnode d k) "depends_on"
  succ := fun k => (definitionKeys d).filter fun s => decide (k ∈ refs (defnode d s) "on_success")
  fail := fun k => (definitionKeys d).filter fun s => decide (k ∈ refs (defnode d s) "on_failure")

/-- `_cfg`. -/
def cfg (defnode : Json) : Except PyErr Json := do
  let c ← (defnode.pyOr (.obj [])).get "config"
  pure (c.pyOr (.obj []))

/-- `_MAX_TIMEOUT`. -/
def maxTimeout : ℤ := 86400

/-- `_CALLBACK_DEFAULT_TIMEOUT`. -/
def callbackDefaultTimeout : ℤ := 86400

/-- The value that `_timeout_sec` converts: the node's own, the definition's default, or the
default of a callback. -/
def timeoutValue (defnode definition : Json) (nodeType : NodeType) : Except PyErr Json := do
  let c ← cfg defnode
  if ← c.contains "timeout_sec" then c.index "timeout_sec"
  else
    let defaults := (← definition.get "defaults").pyOr (.obj [])
    if ← defaults.contains "timeout_sec" then defaults.index "timeout_sec"
    else if nodeType = .callback then pure (.int callbackDefaultTimeout)
    else pure .null

/-- `_timeout_sec`: a value that is no integer means no timeout, and the range is
`[0, 86400]`. -/
def timeoutSec (defnode definition : Json) (nodeType : NodeType) : Except PyErr (Option ℤ) := do
  let t ← timeoutValue defnode definition nodeType
  match t.toInt with
  | .error _ => pure none
  | .ok t => pure (some (min (max t 0) maxTimeout))

/-- `_elapsed`. A node whose elapsed time is read has been activated, so `started_at` is
set and the row's other timestamps are not consulted. -/
def elapsed (now : ℚ) (node : WorkflowNodeRun) : ℚ :=
  node.startedAt.elim 0 fun start => now - start

/-! ### Node state -/

/-- `_succeed`. -/
def succeed (now : ℚ) (extra : List (String × Json)) (node : WorkflowNodeRun) :
    WorkflowNodeRun :=
  { node with
    status := .succeeded
    finishedAt := some now
    error := none
    output := extra.foldl (fun out p => Json.setField out p.1 p.2) node.output }

/-- `_fail`. -/
def fail (now : ℚ) (reason code : String) (node : WorkflowNodeRun) : WorkflowNodeRun :=
  { node with
    status := .failed
    error := some reason
    output := Json.setField node.output "reason" (.str code)
    finishedAt := some now }

/-- `_CALLBACK_TTL_HOURS`, in seconds. -/
def callbackTtl : ℚ := 24 * 3600

/-- `_pending_callback_info`. -/
def pendingCallbackInfo (env : StepEnv) (runId : ℕ) (node : WorkflowNodeRun) : Json :=
  .obj [
    ("token", .str (env.token runId node.nodeKey)),
    ("url", .str ("/api/v1/workflow-runs/" ++ toString runId ++ "/callback/" ++ node.nodeKey)),
    ("expires_at", .str (env.isoFormat (env.clock node.nodeKey 1 + callbackTtl)))]

/-- `_enter_waiting_callback`. -/
def enterWaitingCallback (env : StepEnv) (runId : ℕ) (node : WorkflowNodeRun) :
    WorkflowNodeRun :=
  { node with
    startedAt := node.startedAt.or (some (env.clock node.nodeKey 0))
    output := Json.setField node.output "callback" (pendingCallbackInfo env runId node)
    status := .waiting }

/-! ### The session of a step -/

/-- The session of a step: the rows as it sees them, the states it has committed, the exec
tasks it has inserted, the keys it has activated, and whether anything progressed. -/
structure Work where
  cur : RunState
  commits : List RunState
  inserted : List ℕ
  activated : List String
  progressed : Bool

namespace Work

/-- `db.commit()`. -/
def commit (w : Work) : Work :=
  { w with commits := w.commits ++ [w.cur] }

/-- Replace the row of a node; the step has progressed. -/
def put (w : Work) (node : WorkflowNodeRun) : Work :=
  { w with
    cur := w.cur.setNode node.nodeKey fun _ => node
    progressed := true }

/-- Replace the execution tables. -/
def setExec (w : Work) (exec : ExecDb) : Work :=
  { w with cur := { w.cur with exec := exec } }

end Work

/-! ### Exec tasks -/

/-- The identifiers of a list of JSON values. The driver rejects a value that does not fit
the column. -/
def idsOf : List Json → Except PyErr (List ℕ)
  | [] => .ok []
  | .int (.ofNat n) :: rest =>
      match idsOf rest with
      | .error e => .error e
      | .ok ids => .ok (n :: ids)
  | _ :: _ => .error .valueError

/-- `list(x or [])` as a list of identifiers; the elements of a string or the keys of a
dictionary are no identifiers. -/
def hostIdsOf (x : Json) : Except PyErr (List ℕ) :=
  match x.pyOr (.arr []) with
  | .arr items => idsOf items
  | .str _ | .obj _ => .error .valueError
  | _ => .error .typeError

/-- An optional identifier. -/
def id? : Json → Except PyErr (Option ℕ)
  | .null => .ok none
  | .int (.ofNat n) => .ok (some n)
  | _ => .error .valueError

/-- An optional text. -/
def text? : Json → Except PyErr (Option String)
  | .null => .ok none
  | .str s => .ok (some s)
  | _ => .error .valueError

/-- The arguments with which `_create_exec_task` calls the execution service. -/
def execSpec (c : Json) (run : WorkflowRun) (node : WorkflowNodeRun) :
    Except PyErr TaskSpec := do
  let hostIds ← hostIdsOf (← c.get "host_ids")
  let scriptId ← c.get "script_id"
  let kind ← text? ((← c.get "kind").pyOr
    (.str (if scriptId.truthy then "script" else "command")))
  let timeout ← ((← c.get "timeout_sec").pyOr (.int 300)).toInt
  pure {
    name := String.ofList (("workflow:" ++ node.nodeKey).toList.take 128)
    kind := kind.getD ""
    targetHostIds := hostIds
    scriptId := ← id? scriptId
    scriptVersion := ← id? (← c.get "script_version")
    command := ← text? (← c.get "command")
    params := (nodeFields (← c.get "params")).map fun p => (p.1, p.2.pyStr)
    mode := "batch"
    timeoutSec := timeout
    retry := 0
    createdBy := run.createdBy
    requesterId := run.createdBy
    visibleGroupIds := none }

/-- `_create_exec_task`. The creation commits the session; a task that needs no approval is
linked and committed before it is dispatched in process. -/
def createExecTask (env : StepEnv) (w : Work) (node : WorkflowNodeRun) (defnode : Json) :
    Except PyErr Work := do
  let spec ← execSpec (← cfg defnode) w.cur.run node
  let (exec, created) ←
    createExecTaskRecord env.lower env.dispatch.toExecEnv w.cur.exec spec env.policy
  let w := (w.setExec exec).commit
  let w := { w with inserted := created.id :: w.inserted }
  let node := { node with execTaskId := some created.id }
  if created.approveRequired then
    pure (w.put { node with
      approvalId := created.approvalId
      startedAt := node.startedAt.or (some (env.clock node.nodeKey 0))
      status := .waiting })
  else
    let w := (w.put node).commit
    pure (w.setExec (execDispatch env.lower env.dispatch w.cur.exec created.id).1).commit

/-- The status of an exec task as the session of the step sees it. A task that this session
inserted is still the object it added, in status `created`. -/
def seenStatus (w : Work) (taskId : ℕ) : Option ExecStatus :=
  if taskId ∈ w.inserted then some .created
  else (w.cur.exec.task? taskId).map (·.status)

/-- `_poll_exec_task` for a node linked to a task: the changed row, if it changes. -/
def pollExecTask (env : StepEnv) (w : Work) (node : WorkflowNodeRun) (taskId : ℕ) :
    Option WorkflowNodeRun :=
  let now := env.clock node.nodeKey 0
  match seenStatus w taskId with
  | none => some (fail now "engine_restart" "engine_restart" node)
  | some .success | some .partialSuccess =>
      some (succeed now [("exec_task_id", .int taskId)] node)
  | some .failed | some .timedOut | some .canceled =>
      some (fail now "exec_task_failed" "exec_task_failed" node)
  | some .running =>
      if node.status = .waiting then some { node with status := .running } else none
  | _ => none

/-! ### Approvals -/

/-- `_WORKFLOW_APPROVAL_BIZ_OFFSET`. -/
def workflowApprovalBizOffset : ℕ := 5000000000

/-- The approval request of a `manual_approval` node. -/
def workflowApproval (exec : ExecDb) (run : WorkflowRun) (node : WorkflowNodeRun) :
    ApprovalRequest where
  id := exec.nextApproval
  bizType := .workflow
  bizId := workflowApprovalBizOffset + node.id
  requesterId := run.createdBy.getD 0
  sensitiveHit := ""
  status := .pending
  approvalMode := "manual"
  policyRef := none
  approverId := none
  version := 0

/-- `_create_approval`; `biz_id` is unique over the table. -/
def createApproval (env : StepEnv) (w : Work) (node : WorkflowNodeRun) : Except PyErr Work :=
  let exec := w.cur.exec
  let approval := workflowApproval exec w.cur.run node
  if exec.approvals.any fun a => decide (a.bizId = approval.bizId) then .error .integrityError
  else
    let w := w.setExec { exec with
      approvals := exec.approvals ++ [approval]
      nextApproval := exec.nextApproval + 1 }
    .ok (w.put { node with
      approvalId := some approval.id
      startedAt := node.startedAt.or (some (env.clock node.nodeKey 0))
      status := .waiting })

/-! ### Advancing a node -/

/-- The due test of a `sleep` or `wait` node. -/
def dueReached (env : StepEnv) (c : Json) (node : WorkflowNodeRun) : Except PyErr Bool := do
  let now := env.clock node.nodeKey 1
  let until? ← if node.nodeType = .wait then c.get "until" else pure .null
  if until?.truthy then
    match env.fromIso (Text.replace until?.pyStr "Z" "+00:00") with
    | some dueAt => pure (decide (dueAt ≤ now))
    | none => pure true
  else
    let duration ← PyFloat.ofJson ((← c.get "duration_sec").pyOr (.int 0))
    pure (duration.leFin (elapsed now node))

/-- Whether the node's timeout has passed. -/
def timedOut (env : StepEnv) (node : WorkflowNodeRun) (defnode definition : Json) :
    Except PyErr Bool := do
  match ← timeoutSec defnode definition node.nodeType with
  | none => pure false
  | some t => pure (decide ((t : ℚ) ≤ elapsed (env.clock node.nodeKey 0) node))

/-- `_advance_running`: advance a node that was already running before this step. -/
def advanceRunning (env : StepEnv) (d : Json) (w : Work) (node : WorkflowNodeRun) :
    Except PyErr Work :=
  let dn := defnode d node.nodeKey
  match node.nodeType with
  | .sleep | .wait => do
      if ← timedOut env node dn d then
        pure (w.put (fail (env.clock node.nodeKey 2) "timeout" "timeout" node))
      else if ← dueReached env (← cfg dn) node then
        pure (w.put (succeed (env.clock node.nodeKey 2) [] node))
      else pure w
  | .callback => .ok (w.put (enterWaitingCallback env w.cur.run.id node))
  | .manualApproval =>
      match node.approvalId with
      | none => createApproval env w node
      | some _ => .ok w
  | .execTask =>
      match node.execTaskId with
      | none => createExecTask env w node dn
      | some taskId => .ok ((pollExecTask env w node taskId).elim w w.put)

/-- The decision of the approval that a waiting `manual_approval` node is linked to. -/
def approvalDecision (env : StepEnv) (w : Work) (node : WorkflowNodeRun) :
    Option WorkflowNodeRun :=
  let now := env.clock node.nodeKey 2
  (node.approvalId.bind w.cur.exec.approval?).bind fun approval =>
    match approval.status with
    | .approved => some (succeed now [] node)
    | .rejected | .canceled => some (fail now "approval_rejected" "approval_rejected" node)
    | .pending => none

/-- The timeout of a waiting node. -/
def expireWaiting (env : StepEnv) (d : Json) (w : Work) (node : WorkflowNodeRun) :
    Except PyErr Work := do
  if ← timedOut env node (defnode d node.nodeKey) d then
    pure (w.put (fail (env.clock node.nodeKey 2) "timeout" "timeout" node))
  else pure w

/-- `_advance_waiting`. A poll that changes the row also takes it out of `waiting`. -/
def advanceWaiting (env : StepEnv) (d : Json) (w : Work) (node : WorkflowNodeRun) :
    Except PyErr Work :=
  match node.nodeType with
  | .execTask =>
      match node.execTaskId.bind (pollExecTask env w node) with
      | some node' => .ok (w.put node')
      | none => expireWaiting env d w node
  | .manualApproval =>
      match approvalDecision env w node with
      | some node' => .ok (w.put node')
      | none => expireWaiting env d w node
  | _ => expireWaiting env d w node

/-! ### The step -/

/-- A step that raised: what it had committed, and the exception. -/
structure Aborted where
  commits : List RunState
  error : PyErr

/-- The committed states of a step, in order, and its answer. -/
structure StepTrace where
  commits : List RunState
  result : Except PyErr Bool

/-- The session at the start of a step: a pending run starts running, and the node rows are
loaded in the order of the database. -/
def beginStep (env : StepEnv) (s : RunState) : Work where
  cur :=
    { s with
      run :=
        if s.run.status = .pending then
          { s.run with status := .running, startedAt := s.run.startedAt.or (some env.now) }
        else s.run
      nodes := env.order.rows s.nodes }
  commits := []
  inserted := []
  activated := []
  progressed := decide (s.run.status = .pending)

/-- The activation of a ready node. -/
def activate (now : ℚ) (node : WorkflowNodeRun) : WorkflowNodeRun :=
  { node with status := .running, attempt := node.attempt + 1, startedAt := some now }

/-- The skipping of an abandoned node. -/
def skip (now : ℚ) (node : WorkflowNodeRun) : WorkflowNodeRun :=
  { node with status := .skipped, finishedAt := some now }

/-- The activation loop at one node. The verdict is read off the current statuses: the
source updates its status dictionary together with the row. -/
def activateAt (env : StepEnv) (d : Json) (w : Work) (k : String) : Work :=
  match w.cur.node? k with
  | none => w
  | some node =>
      if node.status = .pending then
        match (edges d).verdict w.cur.status k with
        | .ready =>
            { w.put (activate (env.clock k 0) node) with activated := k :: w.activated }
        | .skip => w.put (skip (env.clock k 0) node)
        | .wait => w
      else w

/-- A loop over the node rows that may raise. -/
def forNodes (f : Work → WorkflowNodeRun → Except PyErr Work) (w : Work) (k : String) :
    Except Aborted Work :=
  match w.cur.node? k with
  | none => .ok w
  | some node =>
      match f w node with
      | .error e => .error ⟨w.commits, e⟩
      | .ok w => .ok w

/-- The second loop at one node: a node that was running before this step is advanced. -/
def stepRunning (env : StepEnv) (d : Json) (w : Work) (node : WorkflowNodeRun) :
    Except PyErr Work :=
  if node.status = .running ∧ node.nodeKey ∉ w.activated then advanceRunning env d w node
  else .ok w

/-- The third loop at one node: a waiting node is advanced. -/
def stepWaiting (env : StepEnv) (d : Json) (w : Work) (node : WorkflowNodeRun) :
    Except PyErr Work :=
  if node.status = .waiting then advanceWaiting env d w node else .ok w

/-- `fail_release_for_run`: a release run that fails takes its release along, while the
release can still fail. -/
def failReleaseForRun (s : RunState) : Option Release :=
  s.release.map fun r =>
    if s.run.triggerType = .release ∧ (r.status = .deploying ∨ r.status = .canary) then
      { r with status := .failed }
    else r

/-- The finalisation: once every node has ended, the run fails if some node failed, and
succeeds otherwise. -/
def finalise (env : StepEnv) (w : Work) : Work :=
  let s := w.cur
  if s.run.status ≠ .cancelled ∧ s.nodes ≠ [] ∧ s.allTerminal then
    let cur :=
      match s.nodes.find? fun n => decide (n.status = .failed) with
      | some n =>
          { s with
            run := { s.run with
              status := .failed
              error := some (if n.error.getD "" = "" then "workflow node failed"
                else n.error.getD "")
              finishedAt := some env.now }
            release := failReleaseForRun s }
      | none => { s with run := { s.run with status := .succeeded, finishedAt := some env.now } }
    { w with cur := cur, progressed := true }
  else w

/-- `step`, from its first read to its last commit. -/
def step (env : StepEnv) (d : Json) (s : RunState) : StepTrace :=
  if s.run.status.terminal then ⟨[], .ok false⟩
  else
    let w := beginStep env s
    let keys := w.cur.keys
    let w := keys.foldl (activateAt env d) w
    let body : Except Aborted Work := do
      let w ← keys.foldlM (forNodes (stepRunning env d)) w
      keys.foldlM (forNodes (stepWaiting env d)) w
    match body with
    | .error a => ⟨a.commits, .error a.error⟩
    | .ok w =>
        let w := finalise env w
        ⟨w.commits ++ [w.cur], .ok w.progressed⟩

/-- The state after a step that no other session interferes with: the last one it
committed. -/
def stepState (env : StepEnv) (d : Json) (s : RunState) : RunState :=
  (s :: (step env d s).commits).getLast (List.cons_ne_nil _ _)

end LarkPlat
