import LarkPlat.Engine

/-!
# The Operations on a Run

The calls that create, answer, end or roll back a workflow run: the creation of its rows by
`_start_run`, `callback_node`, `cancel_run`, `cancel_release` and `rollback_run`. Each is
modelled as one complete call on the rows of the run; a call that raises leaves them as
they were. `RunOp` collects them with the engine's `step`, and `applyOp` is the machine
whose runs the later modules reason about.

The operation `world` stands for everything else that happens in the platform: it replaces
the execution tables and the release by arbitrary ones, so exec tasks end, approvals are
decided and releases move between any two calls.
-/

namespace LarkPlat

/-! ### Creation -/

/-- What `_start_run` is told about the new run, and the identifiers it is given. -/
structure RunHeader where
  id : ℕ
  firstNodeId : ℕ
  workflowId : ℕ
  workflowVersion : ℕ
  triggerType : TriggerType
  triggerRef : List (String × Json)
  context : List (String × Json)
  createdBy : Option ℕ

/-- The node rows of a new run, one for each node of the definition. -/
def newNodes (firstId : ℕ) (d : Json) : List WorkflowNodeRun :=
  (definitionNodes d).zipIdx.filterMap fun (n, i) =>
    (nodePair? n).map fun (key, type) =>
      { id := firstId + i
        nodeKey := key
        nodeType := type
        status := .pending
        execTaskId := none
        approvalId := none
        attempt := 0
        output := []
        error := none
        startedAt := none
        finishedAt := none }

/-- A node row that nothing has happened to yet. -/
structure NewRow (n : WorkflowNodeRun) : Prop where
  status : n.status = .pending
  attempt : n.attempt = 0
  execTaskId : n.execTaskId = none
  approvalId : n.approvalId = none

theorem newRow_of_mem {firstId : ℕ} {d : Json} {n : WorkflowNodeRun}
    (h : n ∈ newNodes firstId d) : NewRow n := by
  obtain ⟨⟨j, i⟩, -, hn⟩ := List.mem_filterMap.mp h
  obtain ⟨⟨k, t⟩, -, rfl⟩ := Option.map_eq_some_iff.mp hn
  exact ⟨rfl, rfl, rfl, rfl⟩

theorem newNodes_pairs (firstId : ℕ) (d : Json) :
    (newNodes firstId d).map (fun n => (n.nodeKey, n.nodeType)) = definitionPairs d := by
  have hgen : ∀ (l : List Json) (i : ℕ),
      (l.zipIdx i).filterMap (fun p => nodePair? p.1) = l.filterMap nodePair? := by
    intro l
    induction l with
    | nil => intro i; rfl
    | cons n l ih =>
        intro i
        rw [List.zipIdx_cons, List.filterMap_cons, List.filterMap_cons, ih]
  unfold newNodes definitionPairs
  rw [List.map_filterMap, ← hgen _ 0]
  congr 1
  funext ⟨n, i⟩
  dsimp only
  rcases nodePair? n with _ | ⟨k, t⟩ <;> rfl

/-- The run row of a new run. -/
def newRun (h : RunHeader) : WorkflowRun where
  id := h.id
  workflowId := h.workflowId
  workflowVersion := h.workflowVersion
  status := .pending
  triggerType := h.triggerType
  triggerRef := h.triggerRef
  context := h.context
  startedAt := none
  finishedAt := none
  error := none
  createdBy := h.createdBy

/-- The rows that `_start_run` inserts, among the given release and execution tables. -/
def startRun (h : RunHeader) (d : Json) (release : Option Release) (exec : ExecDb) : RunState where
  run := newRun h
  nodes := newNodes h.firstNodeId d
  release := release
  exec := exec

theorem startRun_keys (h : RunHeader) {d : Json} (release : Option Release) (exec : ExecDb)
    (ha : Accepted d) : (startRun h d release exec).keys = definitionKeys d := by
  rw [← ha.map_fst_pairs, ← newNodes_pairs h.firstNodeId d, List.map_map]
  rfl

theorem startRun_status {h : RunHeader} {d : Json} {release : Option Release} {exec : ExecDb}
    {k : String} (ha : Accepted d) (hk : k ∈ definitionKeys d) :
    (startRun h d release exec).status k = some .pending := by
  have hmem : k ∈ (startRun h d release exec).keys := by
    rw [startRun_keys h release exec ha]; exact hk
  obtain ⟨n, hn⟩ := Table.exists_find_of_mem_keys hmem
  rw [RunState.status_of_node? hn, (newRow_of_mem (Table.mem_of_find hn)).status]

theorem startRun_status_eq (h : RunHeader) (d : Json) (release : Option Release)
    (exec : ExecDb) (k : String) :
    (startRun h d release exec).status k = none ∨
      (startRun h d release exec).status k = some .pending := by
  rcases hn : (startRun h d release exec).node? k with _ | n
  · left; rw [RunState.status, hn, Option.map_none]
  · right
    rw [RunState.status_of_node? hn, (newRow_of_mem (Table.mem_of_find hn)).status]

/-! ### Gates -/

/-- What the gates of a call find: the feature flag and the permission of the caller. -/
structure Gate where
  enabled : Bool
  permitted : Bool

/-- `_require_feature` followed by `user.require_perm(code)`. -/
def Gate.check (g : Gate) (code : String) : Except PyErr Unit :=
  if g.enabled then
    if g.permitted then .ok () else .error (.forbidden ("permission denied: " ++ code))
  else .error (.badRequest "feature disabled")

/-! ### `callback_node` -/

/-- A callback request, with what the services around it answer: the claims of the decoded
token (`none` for a token that does not verify) and the size of the serialised payload. -/
structure CallbackReq where
  enabled : Bool
  nodeKey : String
  token : Option String
  claims : Option (List (String × Json))
  payload : Json
  payloadSize : ℕ
  now : ℚ

/-- `_MAX_CALLBACK_PAYLOAD`. -/
def maxCallbackPayload : ℕ := 65536

/-- Whether the claims bind the token to the run and the node. -/
def boundTo (claims : List (String × Json)) (runId : ℕ) (nodeKey : String) : Bool :=
  match (Json.field claims "run_id").toInt with
  | .ok n => decide (n = runId) && decide (Json.field claims "node_key" = .str nodeKey)
  | .error _ => false

/-- The token gate of a callback. -/
def checkToken (runId : ℕ) (req : CallbackReq) : Except PyErr Unit :=
  if req.token.getD "" = "" then .error (.unauthorized "callback token required")
  else
    match req.claims with
    | none => .error (.unauthorized "invalid callback token")
    | some claims =>
        if Json.field claims "type" = .str "wf_callback" ∧ boundTo claims runId req.nodeKey then
          .ok ()
        else .error (.unauthorized "invalid callback token")

/-- The part of `callback_node` before its update: the gates, the read of the node row, and
the output to be written. -/
def readCallback (s : RunState) (req : CallbackReq) : Except PyErr (List (String × Json)) := do
  if !req.enabled then throw (.badRequest "feature disabled")
  checkToken s.run.id req
  match s.node? req.nodeKey with
  | none => throw (.notFound "workflow node not found")
  | some node =>
      if node.nodeType ≠ .callback ∨ node.status ≠ .waiting then
        throw (.conflict "node is not awaiting callback")
      if maxCallbackPayload < req.payloadSize then
        throw (.validation "callback_payload_too_large")
      pure (Json.setField node.output "payload" req.payload)

/-- The row written by an accepted callback. -/
def accept (out : List (String × Json)) (now : ℚ) (node : WorkflowNodeRun) : WorkflowNodeRun :=
  { node with output := out, status := .succeeded, finishedAt := some now, error := none }

/-- The conditional update of `callback_node`: it writes only a callback node that is
waiting, and answers whether it did. -/
def updateCallback (s : RunState) (nodeKey : String) (out : List (String × Json)) (now : ℚ) :
    Option RunState :=
  match s.node? nodeKey with
  | some node =>
      if node.nodeType = .callback ∧ node.status = .waiting then
        some (s.setNode nodeKey fun _ => accept out now node)
      else none
  | none => none

/-- `callback_node`. -/
def callbackNode (s : RunState) (req : CallbackReq) : Except PyErr RunState := do
  let out ← readCallback s req
  match updateCallback s req.nodeKey out req.now with
  | none => throw (.conflict "node is not awaiting callback")
  | some s => pure s

/-! ### `cancel_run` -/

/-- The name of a run status in a message. -/
def RunStatus.name : RunStatus → String
  | pending => "pending"
  | running => "running"
  | succeeded => "succeeded"
  | failed => "failed"
  | cancelled => "cancelled"
  | rolledBack => "rolled_back"

/-- The node rows that `cancel_run` selects. -/
def NodeStatus.open? : NodeStatus → Bool
  | .pending | .running | .waiting => true
  | _ => false

/-- The cancellation of the exec task that an open node is linked to. -/
def cancelLinked (env : ExecEnv) (exec : ExecDb) (node : WorkflowNodeRun) : ExecDb :=
  if node.status.open? ∧ node.nodeType = .execTask then
    ((node.execTaskId.bind exec.task?).bind (cancelExecTaskRecord env exec)).getD exec
  else exec

/-- The node row after a cancellation. -/
def cancelNode (now : ℚ) (node : WorkflowNodeRun) : WorkflowNodeRun :=
  if node.status.open? then { node with status := .skipped, finishedAt := some now } else node

/-- The rows after a cancellation. -/
def cancelRows (env : ExecEnv) (s : RunState) : RunState :=
  { s with
    run := { s.run with status := .cancelled, finishedAt := some env.now }
    nodes := s.nodes.map (cancelNode env.now)
    exec := s.nodes.foldl (cancelLinked env) s.exec }

/-- `cancel_run`: only a pending or running run can be cancelled. -/
def cancelRun (env : ExecEnv) (g : Gate) (s : RunState) : Except PyErr RunState := do
  g.check "workflow:cancel"
  if s.run.status = .pending ∨ s.run.status = .running then pure (cancelRows env s)
  else throw (.conflict ("cannot cancel run in status '" ++ s.run.status.name ++ "'"))

/-! ### `cancel_release` -/

/-- The name of a release status in a message. -/
def ReleaseStatus.name : ReleaseStatus → String
  | pending => "pending"
  | deploying => "deploying"
  | canary => "canary"
  | succeeded => "succeeded"
  | failed => "failed"
  | rolledBack => "rolled_back"
  | cancelled => "cancelled"

/-- The statuses a release can be cancelled from. -/
def ReleaseStatus.cancellable : ReleaseStatus → Bool
  | pending | deploying | canary => true
  | _ => false

/-- `cancel_release`: the release is cancelled, and its run with it unless the run has
ended; the node rows are not touched. -/
def cancelRelease (now : ℚ) (g : Gate) (s : RunState) : Except PyErr RunState := do
  g.check "release:cancel"
  match s.release with
  | none => throw (.notFound "release not found")
  | some r =>
      if ¬ r.status.cancellable then
        throw (.conflict ("cannot cancel release in status '" ++ r.status.name ++ "'"))
      let s := { s with release := some { r with status := .cancelled } }
      if r.workflowRunId = some s.run.id ∧ ¬ s.run.status.terminal then
        pure (s.setRun fun run => { run with status := .cancelled, finishedAt := some now })
      else pure s

/-! ### `rollback_run` -/

/-- The arguments of the compensating task, read from the remediation of the run. -/
def compensationSpec (remediation : Json) (run : WorkflowRun) : Except PyErr TaskSpec := do
  let name := (← remediation.get "name").pyOr (.str ("rollback:" ++ toString run.id))
  let scriptId ← remediation.get "script_id"
  let kind ← text? ((← remediation.get "kind").pyOr
    (.str (if scriptId.truthy then "script" else "command")))
  pure {
    name := String.ofList (name.pyStr.toList.take 128)
    kind := kind.getD ""
    targetHostIds := ← hostIdsOf (← remediation.get "target_host_ids")
    scriptId := ← id? scriptId
    scriptVersion := ← id? (← remediation.get "script_version")
    command := ← text? (← remediation.get "command")
    params := (nodeFields (← remediation.get "params")).map fun p => (p.1, p.2.pyStr)
    mode := "batch"
    timeoutSec := 300
    retry := 0
    createdBy := run.createdBy
    requesterId := run.createdBy
    visibleGroupIds := none }

/-- The compensating task of a rollback: created when the run carries a remediation. The
creation gets no remediation of its own, so no policy approves it. -/
def compensate (lower : String → String) (env : ExecEnv) (s : RunState) :
    Except PyErr (ExecDb × Option ℕ) := do
  let remediation := Json.field s.run.context "remediation"
  if remediation.truthy then
    let spec ← compensationSpec remediation s.run
    let (exec, created) ← createExecTaskRecord lower env s.exec spec none
    pure (exec, some created.id)
  else pure (s.exec, none)

/-- The context of a rolled back run. -/
def rolledBackContext (context : List (String × Json)) (comp : Option ℕ) :
    List (String × Json) :=
  let compiled := Json.obj [("status", .str "rolled_back"), ("reason", .null),
    ("window_expires_at", Json.field context "window_expires_at")]
  let context' := Json.setField (Json.setField context "rollback" compiled)
    "rollback_window" (Json.field context "rollback_window")
  match comp with
  | some id => Json.setField context' "rollback_ref" (.str ("exec_task:" ++ toString id))
  | none => context'

/-- `rollback_run`: a succeeded or failed run is compensated and moves to `rolled_back`; any
other run is left alone. The second component is the compensating task it created. -/
def rollbackRun (lower : String → String) (env : ExecEnv) (g : Gate) (s : RunState) :
    Except PyErr (RunState × Option ℕ) := do
  g.check "ai:admin"
  if s.run.status = .succeeded ∨ s.run.status = .failed then
    let (exec, comp) ← compensate lower env s
    pure ({ s with
      run := { s.run with
        status := .rolledBack
        context := rolledBackContext s.run.context comp }
      exec := exec }, comp)
  else pure (s, none)

/-! ### The machine -/

/-- The calls on a run, with everything they read from outside its rows. -/
inductive RunOp
  | step (env : StepEnv)
  | callback (req : CallbackReq)
  | cancelRun (env : ExecEnv) (g : Gate)
  | cancelRelease (now : ℚ) (g : Gate)
  | rollbackRun (lower : String → String) (env : ExecEnv) (g : Gate)
  | world (release : Option Release) (exec : ExecDb)

/-- The rows after a call: a call that raises leaves them as they were. -/
def afterCall (s : RunState) : Except PyErr RunState → RunState
  | .ok s' => s'
  | .error _ => s

/-- One call on a run of the definition `d`. -/
def applyOp (d : Json) (s : RunState) : RunOp → RunState
  | .step env => stepState env d s
  | .callback req => afterCall s (callbackNode s req)
  | .cancelRun env g => afterCall s (cancelRun env g s)
  | .cancelRelease now g => afterCall s (cancelRelease now g s)
  | .rollbackRun lower env g => afterCall s ((rollbackRun lower env g s).map (·.1))
  | .world release exec => { s with release := release, exec := exec }

end LarkPlat
