import LarkPlat.RunService
import LarkPlat.Machine

/-!
# Workflow Versions and the Definition of a Run

A workflow has an append-only list of versions and a pointer to the current one. A run is
created from a definition and stamped with a version number; the engine later finds the
definition again through that number (`loadDefinition`). The two agree when a run is created
by `run_workflow`. `retry_run` takes the node rows from the version of the original run and
stamps the workflow's current version, so they agree only if the two versions have the same
nodes.

## Main results

* `runs_match_iff`: after every history, all runs match their definition exactly when every
  retry found the two versions with the same nodes.
* `retry_breaks_match`: a retry after a new version does not.
-/

namespace LarkPlat

/-- A row of `workflow`. -/
structure Workflow where
  id : ℕ
  name : String
  currentVersion : ℕ

/-- A row of `workflow_version`; only accepted definitions are stored. -/
structure WorkflowVersion where
  workflowId : ℕ
  version : ℕ
  definition : Definition

/-- A run with its node rows. -/
structure RunRows where
  run : WorkflowRun
  nodes : List WorkflowNodeRun

/-- The tables of the workflow service. -/
structure VersionDb where
  workflows : List Workflow
  versions : List WorkflowVersion
  runs : List RunRows
  nextWorkflow : ℕ
  nextRun : ℕ
  nextNode : ℕ

namespace VersionDb

/-- Nothing created yet. -/
def empty : VersionDb := ⟨[], [], [], 1, 1, 1⟩

/-- `_get_workflow`. -/
def getWorkflow (db : VersionDb) (id : ℕ) : Except PyErr Workflow :=
  match Table.find Workflow.id db.workflows id with
  | none => .error (.notFound "workflow not found")
  | some wf => .ok wf

/-- `_version_row`. -/
def versionRow (db : VersionDb) (workflowId version : ℕ) : Option WorkflowVersion :=
  Table.find (fun v => (v.workflowId, v.version)) db.versions (workflowId, version)

/-- `db.get(WorkflowRun, run_id)`. -/
def run? (db : VersionDb) (runId : ℕ) : Option RunRows :=
  Table.find (fun r => r.run.id) db.runs runId

/-- `_next_version`. -/
def nextVersion (db : VersionDb) (workflowId : ℕ) : ℕ :=
  (((db.versions.filter fun v => decide (v.workflowId = workflowId)).map
    (·.version)).foldl max 0) + 1

/-- `_load_definition`: the definition of a run is that of its version. -/
def loadDefinition (db : VersionDb) (run : WorkflowRun) : Json :=
  ((db.versionRow run.workflowId run.workflowVersion).map (·.definition.json)).getD (.obj [])

/-- `_start_run`: the run is stamped with the workflow's current version. -/
def startRun (db : VersionDb) (user : Option ℕ) (wf : Workflow) (d : Json)
    (triggerType : TriggerType) (triggerRef context : List (String × Json)) : VersionDb :=
  let header : RunHeader :=
    { id := db.nextRun
      firstNodeId := db.nextNode
      workflowId := wf.id
      workflowVersion := wf.currentVersion
      triggerType := triggerType
      triggerRef := triggerRef
      context := context
      createdBy := user }
  { db with
    runs := db.runs ++ [⟨newRun header, newNodes header.firstNodeId d⟩]
    nextRun := db.nextRun + 1
    nextNode := db.nextNode + (definitionNodes d).length }

end VersionDb

/-- `_validate_definition`, with the fact that it accepted. -/
def checkDefinition (d : Json) : Except PyErr Definition :=
  match h : validateDefinition d with
  | .error e => .error e
  | .ok _ => .ok ⟨d, by rw [h, (accepted_of_validate h).1]⟩

/-! ### The operations -/

/-- `create_workflow`; a missing definition is the empty node list. -/
def createWorkflow (g : Gate) (name : String) (definition : Option Json) (db : VersionDb) :
    Except PyErr VersionDb := do
  g.check "workflow:add"
  if db.workflows.any fun wf => decide (wf.name = name) then
    throw (.conflict "workflow name already exists")
  let d ← checkDefinition (definition.getD (.obj [("nodes", .arr [])]))
  pure { db with
    workflows := db.workflows ++ [⟨db.nextWorkflow, name, 1⟩]
    versions := db.versions ++ [⟨db.nextWorkflow, 1, d⟩]
    nextWorkflow := db.nextWorkflow + 1 }

/-- Move the pointer of a workflow. -/
def setCurrent (db : VersionDb) (workflowId version : ℕ) : VersionDb :=
  { db with workflows := Table.modify Workflow.id db.workflows workflowId fun wf =>
      { wf with currentVersion := version } }

/-- `create_version`. -/
def createVersion (g : Gate) (workflowId : ℕ) (definition : Json) (db : VersionDb) :
    Except PyErr VersionDb := do
  g.check "workflow:version"
  let wf ← db.getWorkflow workflowId
  let d ← checkDefinition definition
  let version := db.nextVersion wf.id
  pure (setCurrent { db with versions := db.versions ++ [⟨wf.id, version, d⟩] } wf.id version)

/-- `rollback_workflow`. -/
def rollbackWorkflow (g : Gate) (workflowId version : ℕ) (db : VersionDb) :
    Except PyErr VersionDb := do
  g.check "workflow:rollback"
  let wf ← db.getWorkflow workflowId
  match db.versionRow wf.id version with
  | none => throw (.notFound "workflow version not found")
  | some _ => pure (setCurrent db wf.id version)

/-- The body of a run request. -/
structure RunIn where
  triggerType : String
  triggerRef : List (String × Json)
  context : List (String × Json)

/-- The trigger type that a text names. -/
def TriggerType.ofString? : String → Option TriggerType
  | "manual" => some manual
  | "ticket" => some ticket
  | "schedule" => some schedule
  | "alert" => some alert
  | "release" => some release
  | _ => none

/-- A run of the workflow that was created under the idempotency key. -/
def existingRun (db : VersionDb) (workflowId : ℕ) (key : String) : Option RunRows :=
  db.runs.find? fun r => decide (r.run.workflowId = workflowId) &&
    decide (Json.field r.run.triggerRef "idempotency_key" = .str key)

/-- `run_workflow`. -/
def runWorkflow (g : Gate) (user : Option ℕ) (workflowId : ℕ) (key : Option String)
    (data : Option RunIn) (db : VersionDb) : Except PyErr VersionDb := do
  g.check "workflow:run"
  let wf ← db.getWorkflow workflowId
  match db.versionRow wf.id wf.currentVersion with
  | none => throw (.badRequest "workflow has no definition to run")
  | some v =>
      let name := (data.map (·.triggerType)).getD ""
      match TriggerType.ofString? (if name = "" then "manual" else name) with
      | none => throw (.validation ("trigger_type must be one of " ++
          "['alert', 'manual', 'release', 'schedule', 'ticket']"))
      | some triggerType =>
          let ref := (data.map (·.triggerRef)).getD []
          let context := (data.map (·.context)).getD []
          let key := key.getD ""
          if key = "" then
            pure (db.startRun user wf v.definition.json triggerType ref context)
          else
            match existingRun db wf.id key with
            | some _ => pure db
            | none =>
                pure (db.startRun user wf v.definition.json triggerType
                  (Json.setField ref "idempotency_key" (.str key)) context)

/-- `retry_run`: the node rows come from the version of the original run. -/
def retryRun (g : Gate) (user : Option ℕ) (runId : ℕ) (db : VersionDb) :
    Except PyErr VersionDb := do
  g.check "workflow:run"
  match db.run? runId with
  | none => throw (.notFound "workflow run not found")
  | some r =>
      let wf ← db.getWorkflow r.run.workflowId
      let d := ((db.versionRow wf.id r.run.workflowVersion).map (·.definition.json)).getD
        (.obj [("nodes", .arr [])])
      pure (db.startRun user wf d r.run.triggerType [("retry_of", .int r.run.id)] r.run.context)

/-- The calls of a history. -/
inductive VersionOp
  | createWorkflow (g : Gate) (name : String) (definition : Option Json)
  | createVersion (g : Gate) (workflowId : ℕ) (definition : Json)
  | rollbackWorkflow (g : Gate) (workflowId version : ℕ)
  | runWorkflow (g : Gate) (user : Option ℕ) (workflowId : ℕ) (key : Option String)
      (data : Option RunIn)
  | retryRun (g : Gate) (user : Option ℕ) (runId : ℕ)

/-- The answer of a call. -/
def VersionOp.call (db : VersionDb) : VersionOp → Except PyErr VersionDb
  | .createWorkflow g name definition => LarkPlat.createWorkflow g name definition db
  | .createVersion g workflowId definition => LarkPlat.createVersion g workflowId definition db
  | .rollbackWorkflow g workflowId version => LarkPlat.rollbackWorkflow g workflowId version db
  | .runWorkflow g user workflowId key data => LarkPlat.runWorkflow g user workflowId key data db
  | .retryRun g user runId => LarkPlat.retryRun g user runId db

/-- The tables after a call; a call that raises changes nothing. -/
def VersionDb.apply (db : VersionDb) (op : VersionOp) : VersionDb :=
  match op.call db with
  | .ok db' => db'
  | .error _ => db

/-! ### Runs and their definitions -/

/-- The nodes of a run are exactly the nodes of the definition that the engine loads for it:
the same keys with the same types. -/
def Matches (db : VersionDb) (r : RunRows) : Prop :=
  (r.nodes.map fun n => (n.nodeKey, n.nodeType)).Perm (definitionPairs (db.loadDefinition r.run))

/-- Every run matches its definition. -/
def AllMatch (db : VersionDb) : Prop :=
  ∀ r ∈ db.runs, Matches db r

/-- A retry that goes through finds the version of the original run with the same nodes as
the current version of the workflow. -/
def RetryKeepsNodes (db : VersionDb) : VersionOp → Prop
  | .retryRun g _ runId => g.check "workflow:run" = .ok () → ∀ r, db.run? runId = some r →
      ∀ wf, db.getWorkflow r.run.workflowId = .ok wf →
      ∀ old cur, db.versionRow wf.id r.run.workflowVersion = some old →
        db.versionRow wf.id wf.currentVersion = some cur →
        (definitionPairs old.definition.json).Perm (definitionPairs cur.definition.json)
  | _ => True

/-- The version pointers resolve: the current version of every workflow and the version of
every run exist. -/
structure VersionInv (db : VersionDb) : Prop where
  current : ∀ wf ∈ db.workflows, ∃ v, db.versionRow wf.id wf.currentVersion = some v
  stamped : ∀ r ∈ db.runs, ∃ v, db.versionRow r.run.workflowId r.run.workflowVersion = some v

variable {db db' : VersionDb}

theorem getWorkflow_eq_ok {id : ℕ} {wf : Workflow} (h : db.getWorkflow id = .ok wf) :
    wf ∈ db.workflows ∧ wf.id = id := by
  rw [VersionDb.getWorkflow] at h
  split at h
  · simp at h
  · rename_i wf' hfind
    obtain rfl := Except.ok.inj h
    exact ⟨Table.mem_of_find hfind, Table.key_of_find hfind⟩

/-! ### Calls that create no run -/

/-- The call creates no run, and every version it finds stays where it is. -/
structure Extends (db db' : VersionDb) : Prop where
  runs : db'.runs = db.runs
  versions : ∀ {workflowId version v}, db.versionRow workflowId version = some v →
    db'.versionRow workflowId version = some v

theorem Extends.inv (h : Extends db db') (hinv : VersionInv db)
    (hcur : ∀ wf ∈ db'.workflows, ∃ v, db'.versionRow wf.id wf.currentVersion = some v) :
    VersionInv db' := by
  refine ⟨hcur, ?_⟩
  rw [h.runs]
  intro r hr
  obtain ⟨v, hv⟩ := hinv.stamped r hr
  exact ⟨v, h.versions hv⟩

theorem Extends.allMatch_iff (h : Extends db db') (hinv : VersionInv db) :
    AllMatch db' ↔ AllMatch db := by
  rw [AllMatch]
  rw [h.runs]
  refine forall₂_congr fun r hr => ?_
  obtain ⟨v, hv⟩ := hinv.stamped r hr
  unfold Matches VersionDb.loadDefinition
  rw [hv, h.versions hv]

theorem extends_append (db : VersionDb) (rows : List WorkflowVersion) :
    Extends db { db with versions := db.versions ++ rows } :=
  ⟨rfl, fun hv => Table.find_append hv rows⟩

theorem extends_setCurrent (db : VersionDb) (workflowId version : ℕ) :
    Extends db (setCurrent db workflowId version) :=
  ⟨rfl, id⟩

theorem Extends.trans {db'' : VersionDb} (h : Extends db db') (h' : Extends db' db'') :
    Extends db db'' :=
  ⟨h'.runs.trans h.runs, fun hv => h'.versions (h.versions hv)⟩

theorem current_setCurrent {workflowId version : ℕ} {v : WorkflowVersion}
    (hcur : ∀ wf ∈ db.workflows, ∃ v, db.versionRow wf.id wf.currentVersion = some v)
    (hv : db.versionRow workflowId version = some v) :
    ∀ wf ∈ (setCurrent db workflowId version).workflows,
      ∃ v, (setCurrent db workflowId version).versionRow wf.id wf.currentVersion = some v := by
  intro wf hwf
  rcases Table.mem_modify.mp hwf with ⟨wf₀, -, hid, rfl⟩ | ⟨hwf, -⟩
  · exact ⟨v, by rw [← hv, ← hid]; rfl⟩
  · exact hcur wf hwf

theorem exists_versionRow_append (db : VersionDb) (row : WorkflowVersion) :
    ∃ v, ({ db with versions := db.versions ++ [row] } : VersionDb).versionRow
      row.workflowId row.version = some v := by
  refine Table.exists_find_of_mem_keys ?_
  rw [List.map_append]
  exact List.mem_append_right _ (List.mem_singleton_self _)

theorem createWorkflow_extends {g : Gate} {name : String} {definition : Option Json}
    (hinv : VersionInv db) (h : createWorkflow g name definition db = .ok db') :
    Extends db db' ∧ VersionInv db' := by
  rw [createWorkflow] at h
  obtain ⟨-, -, h⟩ := bind_eq_ok.mp h
  split_ifs at h
  · simp at h
  obtain ⟨d, -, h⟩ := bind_eq_ok.mp h
  obtain rfl := Except.ok.inj h
  have hext : Extends db { db with
      workflows := db.workflows ++ [⟨db.nextWorkflow, name, 1⟩]
      versions := db.versions ++ [⟨db.nextWorkflow, 1, d⟩]
      nextWorkflow := db.nextWorkflow + 1 } :=
    ⟨rfl, fun hv => Table.find_append hv _⟩
  refine ⟨hext, hext.inv hinv ?_⟩
  intro wf hwf
  rcases List.mem_append.mp hwf with hwf | hwf
  · obtain ⟨v, hv⟩ := hinv.current wf hwf
    exact ⟨v, hext.versions hv⟩
  · obtain rfl := List.mem_singleton.mp hwf
    exact exists_versionRow_append db ⟨db.nextWorkflow, 1, d⟩

theorem createVersion_extends {g : Gate} {workflowId : ℕ} {definition : Json}
    (hinv : VersionInv db) (h : createVersion g workflowId definition db = .ok db') :
    Extends db db' ∧ VersionInv db' := by
  rw [createVersion] at h
  obtain ⟨-, -, h⟩ := bind_eq_ok.mp h
  obtain ⟨wf, -, h⟩ := bind_eq_ok.mp h
  obtain ⟨d, -, h⟩ := bind_eq_ok.mp h
  obtain rfl := Except.ok.inj h
  set row : WorkflowVersion := ⟨wf.id, db.nextVersion wf.id, d⟩ with hrow
  have happ := extends_append db [row]
  have hext := happ.trans (extends_setCurrent _ wf.id (db.nextVersion wf.id))
  refine ⟨hext, hext.inv hinv ?_⟩
  obtain ⟨v, hv⟩ := exists_versionRow_append db row
  refine current_setCurrent ?_ hv
  intro wf₁ hwf₁
  obtain ⟨v₁, hv₁⟩ := hinv.current wf₁ hwf₁
  exact ⟨v₁, happ.versions hv₁⟩

theorem rollbackWorkflow_extends {g : Gate} {workflowId version : ℕ}
    (hinv : VersionInv db) (h : rollbackWorkflow g workflowId version db = .ok db') :
    Extends db db' ∧ VersionInv db' := by
  rw [rollbackWorkflow] at h
  obtain ⟨-, -, h⟩ := bind_eq_ok.mp h
  obtain ⟨wf, -, h⟩ := bind_eq_ok.mp h
  split at h
  · simp at h
  rename_i v hv
  obtain rfl := Except.ok.inj h
  have hext := extends_setCurrent db wf.id version
  exact ⟨hext, hext.inv hinv (current_setCurrent hinv.current hv)⟩

/-! ### Calls that create a run -/

section Start

variable {user : Option ℕ} {wf : Workflow} {d : Json} {t : TriggerType}
  {ref context : List (String × Json)}

/-- The new run matches its definition exactly when it was built from a definition with the
nodes of the current version. -/
theorem allMatch_startRun {cur : WorkflowVersion}
    (hcur : db.versionRow wf.id wf.currentVersion = some cur) :
    AllMatch (db.startRun user wf d t ref context) ↔
      AllMatch db ∧ (definitionPairs d).Perm (definitionPairs cur.definition.json) := by
  have hnew : ∀ h : RunHeader, h.workflowId = wf.id → h.workflowVersion = wf.currentVersion →
      (Matches db ⟨newRun h, newNodes h.firstNodeId d⟩ ↔
        (definitionPairs d).Perm (definitionPairs cur.definition.json)) := by
    intro h hid hver
    unfold Matches VersionDb.loadDefinition
    rw [newNodes_pairs, newRun, hid, hver, hcur]
    rfl
  constructor
  · intro hall
    refine ⟨fun r hr => hall r (List.mem_append_left _ hr), ?_⟩
    exact (hnew _ rfl rfl).mp (hall _ (List.mem_append_right _ (List.mem_singleton_self _)))
  · rintro ⟨hall, hperm⟩ r hr
    rcases List.mem_append.mp hr with hr | hr
    · exact hall r hr
    · obtain rfl := List.mem_singleton.mp hr
      exact (hnew _ rfl rfl).mpr hperm

theorem VersionInv.startRun (hinv : VersionInv db) (hwf : wf ∈ db.workflows) :
    VersionInv (db.startRun user wf d t ref context) := by
  refine ⟨hinv.current, ?_⟩
  intro r hr
  rcases List.mem_append.mp hr with hr | hr
  · exact hinv.stamped r hr
  · obtain rfl := List.mem_singleton.mp hr
    exact hinv.current wf hwf

end Start

/-- `run_workflow` creates a matching run, or returns an existing one. -/
theorem runWorkflow_spec {g : Gate} {user : Option ℕ} {workflowId : ℕ} {key : Option String}
    {data : Option RunIn} (hinv : VersionInv db)
    (h : runWorkflow g user workflowId key data db = .ok db') :
    VersionInv db' ∧ (AllMatch db' ↔ AllMatch db) := by
  rw [runWorkflow] at h
  obtain ⟨-, -, h⟩ := bind_eq_ok.mp h
  obtain ⟨wf, hwf, h⟩ := bind_eq_ok.mp h
  obtain ⟨hmem, -⟩ := getWorkflow_eq_ok hwf
  split at h
  · simp at h
  rename_i v hv
  have hstart : ∀ t ref context, VersionInv (db.startRun user wf v.definition.json t ref context) ∧
      (AllMatch (db.startRun user wf v.definition.json t ref context) ↔ AllMatch db) := by
    intro t ref context
    refine ⟨hinv.startRun hmem, ?_⟩
    rw [allMatch_startRun hv]
    exact and_iff_left (List.Perm.refl _)
  dsimp only at h
  split at h
  · simp at h
  split_ifs at h
  · obtain rfl := Except.ok.inj h
    exact hstart _ _ _
  · split at h
    · obtain rfl := Except.ok.inj h
      exact ⟨hinv, Iff.rfl⟩
    · obtain rfl := Except.ok.inj h
      exact hstart _ _ _

/-- `retry_run` creates a run that matches exactly when the retry keeps the nodes. -/
theorem retryRun_spec {g : Gate} {user : Option ℕ} {runId : ℕ} (hinv : VersionInv db) :
    VersionInv (db.apply (.retryRun g user runId)) ∧
      (AllMatch (db.apply (.retryRun g user runId)) ↔
        AllMatch db ∧ RetryKeepsNodes db (.retryRun g user runId)) := by
  -- a retry that raises changes nothing and meets the condition
  have hraise : db.apply (.retryRun g user runId) = db →
      RetryKeepsNodes db (.retryRun g user runId) →
      VersionInv (db.apply (.retryRun g user runId)) ∧
        (AllMatch (db.apply (.retryRun g user runId)) ↔
          AllMatch db ∧ RetryKeepsNodes db (.retryRun g user runId)) := by
    intro heq hok
    rw [heq]
    exact ⟨hinv, (and_iff_left hok).symm⟩
  rcases hg : g.check "workflow:run" with e | u
  · refine hraise ?_ ?_
    · simp [VersionDb.apply, VersionOp.call, retryRun, bind, Except.bind, hg]
    · intro hc
      rw [hg] at hc
      exact absurd hc (by simp)
  rcases hr : db.run? runId with _ | r
  · refine hraise ?_ ?_
    · simp [VersionDb.apply, VersionOp.call, retryRun, bind, Except.bind, hg, hr, throw, throwThe,
        MonadExceptOf.throw]
    · intro _ r' hr'
      rw [hr] at hr'
      exact absurd hr' (by simp)
  rcases hwf : db.getWorkflow r.run.workflowId with e | wf
  · refine hraise ?_ ?_
    · simp [VersionDb.apply, VersionOp.call, retryRun, bind, Except.bind, hg, hr, hwf]
    · intro _ r' hr' wf' hwf'
      obtain rfl := Option.some.inj (hr.symm.trans hr')
      rw [hwf] at hwf'
      exact absurd hwf' (by simp)
  obtain ⟨hmem, hid⟩ := getWorkflow_eq_ok hwf
  obtain ⟨cur, hcur⟩ := hinv.current wf hmem
  obtain ⟨old, hold⟩ := hinv.stamped r (Table.mem_of_find hr)
  rw [← hid] at hold
  have happly : db.apply (.retryRun g user runId) = db.startRun user wf old.definition.json
      r.run.triggerType [("retry_of", .int r.run.id)] r.run.context := by
    simp only [VersionDb.apply, VersionOp.call, retryRun, bind, Except.bind, hg, hr, hwf, hold,
      pure, Except.pure, Option.map_some, Option.getD_some]
  rw [happly]
  refine ⟨hinv.startRun hmem, ?_⟩
  rw [allMatch_startRun hcur]
  refine and_congr_right fun _ => ?_
  constructor
  · intro hperm _ r' hr' wf' hwf' old' cur' hold' hcur'
    obtain rfl := Option.some.inj (hr.symm.trans hr')
    obtain rfl := Except.ok.inj (hwf.symm.trans hwf')
    obtain rfl := Option.some.inj (hold.symm.trans hold')
    obtain rfl := Option.some.inj (hcur.symm.trans hcur')
    exact hperm
  · intro hkeep
    exact hkeep hg r hr wf hwf old cur hold hcur

/-- One call: all runs match afterwards exactly when they matched before and the call, if it
is a retry, keeps the nodes. -/
theorem allMatch_apply (hinv : VersionInv db) (op : VersionOp) :
    VersionInv (db.apply op) ∧
      (AllMatch (db.apply op) ↔ AllMatch db ∧ RetryKeepsNodes db op) := by
  -- the calls that create no run only extend the versions
  have hext : ∀ {op : VersionOp}, RetryKeepsNodes db op →
      (∀ db', op.call db = .ok db' → VersionInv db' ∧ (AllMatch db' ↔ AllMatch db)) →
      VersionInv (db.apply op) ∧
        (AllMatch (db.apply op) ↔ AllMatch db ∧ RetryKeepsNodes db op) := by
    intro op hkeep hcall
    rw [and_iff_left hkeep]
    rw [VersionDb.apply]
    rcases h : op.call db with e | db'
    · exact ⟨hinv, Iff.rfl⟩
    · exact hcall db' h
  cases op with
  | createWorkflow g name definition =>
      refine hext trivial fun db' h => ?_
      obtain ⟨hex, hinv'⟩ := createWorkflow_extends hinv h
      exact ⟨hinv', hex.allMatch_iff hinv⟩
  | createVersion g workflowId definition =>
      refine hext trivial fun db' h => ?_
      obtain ⟨hex, hinv'⟩ := createVersion_extends hinv h
      exact ⟨hinv', hex.allMatch_iff hinv⟩
  | rollbackWorkflow g workflowId version =>
      refine hext trivial fun db' h => ?_
      obtain ⟨hex, hinv'⟩ := rollbackWorkflow_extends hinv h
      exact ⟨hinv', hex.allMatch_iff hinv⟩
  | runWorkflow g user workflowId key data =>
      exact hext trivial fun db' h => runWorkflow_spec hinv h
  | retryRun g user runId => exact retryRun_spec hinv

/-- **A run executes its definition.** After every history of calls, every run matches the
definition that the engine loads for it if and only if every retry of the history found the
version of the original run with the same nodes as the current version. -/
theorem runs_match_iff (ops : List VersionOp) :
    AllMatch (Machine.run VersionDb.apply VersionDb.empty ops) ↔
      Machine.Meets VersionDb.apply RetryKeepsNodes VersionDb.empty ops := by
  have hgen : ∀ (ops : List VersionOp) (db : VersionDb), VersionInv db →
      (AllMatch (Machine.run VersionDb.apply db ops) ↔
        AllMatch db ∧ Machine.Meets VersionDb.apply RetryKeepsNodes db ops) := by
    intro ops
    induction ops with
    | nil => intro db _; simp
    | cons op ops ih =>
        intro db hinv
        obtain ⟨hinv', hiff⟩ := allMatch_apply hinv op
        rw [Machine.run_cons, ih _ hinv', hiff, Machine.meets_cons, and_assoc]
  have hempty : VersionInv VersionDb.empty := ⟨by simp [VersionDb.empty], by simp [VersionDb.empty]⟩
  rw [hgen ops _ hempty, and_iff_right]
  intro r hr
  simp [VersionDb.empty] at hr

instance (db : VersionDb) (r : RunRows) : Decidable (Matches db r) :=
  inferInstanceAs (Decidable (List.Perm _ _))

instance (db : VersionDb) : Decidable (AllMatch db) :=
  inferInstanceAs (Decidable (∀ r ∈ db.runs, Matches db r))

/-- A workflow is run, edited so that another node takes the place of its only node, and the
run is retried. -/
def editedThenRetried : List VersionOp :=
  let g : Gate := ⟨true, true⟩
  let single := fun key =>
    Json.obj [("nodes", .arr [.obj [("key", .str key), ("type", .str "sleep")]])]
  [.createWorkflow g "deploy" (some (single "old")), .runWorkflow g none 1 none none,
    .createVersion g 1 (single "new"), .retryRun g none 1]

/-- The retried run has the node `old`, and the engine loads a definition without it. -/
theorem retry_breaks_match :
    ¬ AllMatch (Machine.run VersionDb.apply VersionDb.empty editedThenRetried) := by
  decide +kernel

end LarkPlat
