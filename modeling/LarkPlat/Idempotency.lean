import LarkPlat.Versions

/-!
# Idempotency Keys under Concurrent Requests

`run_workflow` answers a request that carries an idempotency key with the run that already has
the key, and creates one otherwise. The look-up and the insertion are separate steps of a
READ COMMITTED transaction and no constraint of the table ties them together, so requests
with one key may all look before the first of them commits.

`readRunWorkflow` is the call up to its look-up and `RunPlan.commit` the rest of it; run one
after the other they are `runWorkflow` (`runWorkflow_eq_read_commit`). A history is a list of
look-ups and commits of any number of calls.

## Main results

* `one_run_iff`: one run has the key and all calls answer with it exactly if every commit of
  a new run finds no run with the key.
* `two_callers_two_runs`: two calls that look before either commits create two runs.
-/

namespace LarkPlat

/-! ### The two halves of `run_workflow` -/

/-- What `run_workflow` does after its look-up: answer with an existing run, or create one. -/
inductive RunPlan
  | existing (runId : ℕ)
  | start (user : Option ℕ) (wf : Workflow) (d : Json) (triggerType : TriggerType)
      (triggerRef context : List (String × Json))

/-- `run_workflow` up to and including the look-up of the key. -/
def readRunWorkflow (g : Gate) (user : Option ℕ) (workflowId : ℕ) (key : Option String)
    (data : Option RunIn) (db : VersionDb) : Except PyErr RunPlan := do
  g.check "workflow:run"
  let wf ← db.getWorkflow workflowId
  match db.versionRow wf.id wf.currentVersion with
  | none => throw (.badRequest "workflow has no definition to run")
  | some v =>
      let name := (data.map (·.triggerType)).getD ""
      match TriggerType.ofString? (if name = "" then "manual" else name) with
      | none => throw (.validation ("trigger_type must be one of " ++
          "['alert', 'manual', 'release', 'schedule', 'ticket']"))
      | some triggerType =>
          let ref := (data.map (·.triggerRef)).getD []
          let context := (data.map (·.context)).getD []
          let key := key.getD ""
          if key = "" then
            pure (.start user wf v.definition.json triggerType ref context)
          else
            match existingRun db wf.id key with
            | some r => pure (.existing r.run.id)
            | none => pure (.start user wf v.definition.json triggerType
                (Json.setField ref "idempotency_key" (.str key)) context)

/-- The rest of `run_workflow`: the tables after it, and the `run_id` that it answers. -/
def RunPlan.commit (db : VersionDb) : RunPlan → VersionDb × ℕ
  | .existing runId => (db, runId)
  | .start user wf d triggerType triggerRef context =>
      (db.startRun user wf d triggerType triggerRef context, db.nextRun)

/-- A call that nothing interrupts is its look-up followed by its commit. -/
theorem runWorkflow_eq_read_commit (g : Gate) (user : Option ℕ) (workflowId : ℕ)
    (key : Option String) (data : Option RunIn) (db : VersionDb) :
    runWorkflow g user workflowId key data db =
      (readRunWorkflow g user workflowId key data db).map fun plan => (plan.commit db).1 := by
  rw [runWorkflow, readRunWorkflow]
  rcases g.check "workflow:run" with e | u
  · rfl
  rcases db.getWorkflow workflowId with e | wf
  · rfl
  simp only [bind, Except.bind]
  rcases db.versionRow wf.id wf.currentVersion with _ | v
  · rfl
  dsimp only
  rcases TriggerType.ofString? _ with _ | triggerType
  · rfl
  by_cases hkey : key.getD "" = ""
  · simp only [hkey, if_true]
    rfl
  · simp only [hkey, if_false]
    rcases existingRun db wf.id (key.getD "") with _ | r <;> rfl

/-! ### Calls in progress -/

/-- The tables, the calls that have looked and will create a run, and the answers given. -/
structure RunCalls where
  db : VersionDb
  openCalls : List RunPlan
  returned : List ℕ

/-- No call yet. -/
def RunCalls.start (db : VersionDb) : RunCalls := ⟨db, [], []⟩

/-- The steps of calls that carry the key. -/
inductive RunCallOp
  /-- A call looks for a run with the key. -/
  | read (g : Gate) (user : Option ℕ) (data : Option RunIn)
  /-- The call at a place in the list of open calls creates its run and commits. -/
  | commit (i : ℕ)

/-- One step of the calls on a workflow with a key. A call that raises answers nothing. -/
def RunCalls.apply (workflowId : ℕ) (key : String) (s : RunCalls) : RunCallOp → RunCalls
  | .read g user data =>
      match readRunWorkflow g user workflowId (some key) data s.db with
      | .error _ => s
      | .ok (.existing runId) => { s with returned := s.returned ++ [runId] }
      | .ok plan => { s with openCalls := s.openCalls ++ [plan] }
  | .commit i =>
      match s.openCalls[i]? with
      | none => s
      | some plan =>
          { db := (plan.commit s.db).1
            openCalls := s.openCalls.eraseIdx i
            returned := s.returned ++ [(plan.commit s.db).2] }

/-- The run belongs to the workflow and carries the key. -/
def carriesKey (workflowId : ℕ) (key : String) (r : RunRows) : Bool :=
  decide (r.run.workflowId = workflowId) &&
    decide (Json.field r.run.triggerRef "idempotency_key" = .str key)

/-- The runs of the workflow with the key. -/
def keyedRuns (db : VersionDb) (workflowId : ℕ) (key : String) : List RunRows :=
  db.runs.filter (carriesKey workflowId key)

/-- One run has the key, and every call was answered with one and the same run. -/
def OneRun (workflowId : ℕ) (key : String) (s : RunCalls) : Prop :=
  (keyedRuns s.db workflowId key).length ≤ 1 ∧ ∀ a ∈ s.returned, ∀ b ∈ s.returned, a = b

/-- A call that creates its run finds no run with the key when it commits. -/
def CommitFindsNone (workflowId : ℕ) (key : String) (s : RunCalls) : RunCallOp → Prop
  | .read _ _ _ => True
  | .commit i => i < s.openCalls.length → keyedRuns s.db workflowId key = []

variable {workflowId : ℕ} {key : String} {db : VersionDb} {s : RunCalls}

theorem existingRun_eq_head? (db : VersionDb) (workflowId : ℕ) (key : String) :
    existingRun db workflowId key = (keyedRuns db workflowId key).head? :=
  List.head?_filter.symm

/-! ### Look-ups -/

/-- A plan that creates a run with the key. -/
def RunPlan.Creates (workflowId : ℕ) (key : String) : RunPlan → Prop
  | .existing _ => False
  | .start _ wf _ _ ref _ =>
      wf.id = workflowId ∧ Json.field ref "idempotency_key" = .str key

/-- What a look-up leads to: the first run with the key, or a plan to create one. -/
theorem readRunWorkflow_cases (hkey : key ≠ "") {g : Gate} {user : Option ℕ}
    {data : Option RunIn} {plan : RunPlan}
    (h : readRunWorkflow g user workflowId (some key) data db = .ok plan) :
    (∃ r, (keyedRuns db workflowId key).head? = some r ∧ plan = .existing r.run.id) ∨
      plan.Creates workflowId key := by
  rw [readRunWorkflow] at h
  obtain ⟨-, -, h⟩ := bind_eq_ok.mp h
  obtain ⟨wf, hwf, h⟩ := bind_eq_ok.mp h
  obtain ⟨-, hid⟩ := getWorkflow_eq_ok hwf
  split at h
  · simp at h
  dsimp only at h
  split at h
  · simp at h
  rw [Option.getD_some, if_neg hkey, hid] at h
  split at h
  · rename_i r hr
    obtain rfl := Except.ok.inj h
    exact Or.inl ⟨r, (existingRun_eq_head? db workflowId key) ▸ hr, rfl⟩
  · obtain rfl := Except.ok.inj h
    refine Or.inr ⟨hid, ?_⟩
    rw [Json.field, Json.lookup_setField_self, Option.getD_some]

theorem keyedRuns_commit {plan : RunPlan} (h : plan.Creates workflowId key) (db : VersionDb) :
    ∃ r, keyedRuns (plan.commit db).1 workflowId key = keyedRuns db workflowId key ++ [r] ∧
      r.run.id = (plan.commit db).2 := by
  cases plan with
  | existing runId => exact h.elim
  | start user wf d t ref context =>
      obtain ⟨hid, hfield⟩ := h
      refine ⟨⟨newRun ⟨db.nextRun, db.nextNode, wf.id, wf.currentVersion, t, ref, context, user⟩,
        newNodes db.nextNode d⟩, ?_, rfl⟩
      rw [RunPlan.commit, VersionDb.startRun, keyedRuns, List.filter_append, ← keyedRuns]
      congr 1
      rw [List.filter_singleton, carriesKey, newRun, hid, hfield]
      simp

/-! ### One step of the calls -/

/-- Every call in progress will create a run with the key. -/
def OpenCreate (workflowId : ℕ) (key : String) (s : RunCalls) : Prop :=
  ∀ plan ∈ s.openCalls, plan.Creates workflowId key

/-- What a step of the calls does: nothing, an answer with the first run that has the key, one
more call in progress, or one more run with the key. -/
theorem apply_cases (hkey : key ≠ "") (hopen : OpenCreate workflowId key s) (op : RunCallOp) :
    s.apply workflowId key op = s ∨
      (∃ r, (keyedRuns s.db workflowId key).head? = some r ∧
        s.apply workflowId key op = { s with returned := s.returned ++ [r.run.id] }) ∨
      (∃ plan, plan.Creates workflowId key ∧
        s.apply workflowId key op = { s with openCalls := s.openCalls ++ [plan] }) ∨
      (∃ i plan, op = .commit i ∧ s.openCalls[i]? = some plan ∧ plan.Creates workflowId key ∧
        s.apply workflowId key op = ⟨(plan.commit s.db).1, s.openCalls.eraseIdx i,
          s.returned ++ [(plan.commit s.db).2]⟩) := by
  cases op with
  | read g user data =>
      rcases hread : readRunWorkflow g user workflowId (some key) data s.db with e | plan
      · left
        simp only [RunCalls.apply, hread]
      · right
        rcases readRunWorkflow_cases hkey hread with ⟨r, hr, rfl⟩ | hc
        · exact Or.inl ⟨r, hr, by simp only [RunCalls.apply, hread]⟩
        · refine Or.inr (Or.inl ⟨plan, hc, ?_⟩)
          cases plan with
          | existing runId => exact hc.elim
          | start => simp only [RunCalls.apply, hread]
  | commit i =>
      rcases hi : s.openCalls[i]? with _ | plan
      · left
        simp only [RunCalls.apply, hi]
      · have hc := hopen plan (List.mem_of_getElem? hi)
        refine Or.inr (Or.inr (Or.inr ⟨i, plan, rfl, hi, hc, ?_⟩))
        simp only [RunCalls.apply, hi]

theorem OpenCreate.apply (hkey : key ≠ "") (h : OpenCreate workflowId key s) (op : RunCallOp) :
    OpenCreate workflowId key (s.apply workflowId key op) := by
  obtain heq | ⟨r, -, heq⟩ | ⟨plan, hc, heq⟩ | ⟨i, plan, -, -, -, heq⟩ := apply_cases hkey h op <;>
    rw [heq]
  · exact h
  · exact h
  · intro plan' hplan'
    rcases List.mem_append.mp hplan' with hplan' | hplan'
    · exact h plan' hplan'
    · obtain rfl := List.mem_singleton.mp hplan'
      exact hc
  · intro plan' hplan'
    exact h plan' (List.mem_of_mem_eraseIdx hplan')

theorem length_keyedRuns_apply (hkey : key ≠ "") (h : OpenCreate workflowId key s)
    (op : RunCallOp) : (keyedRuns s.db workflowId key).length ≤
      (keyedRuns (s.apply workflowId key op).db workflowId key).length := by
  obtain heq | ⟨r, -, heq⟩ | ⟨plan, -, heq⟩ | ⟨i, plan, -, -, hc, heq⟩ :=
    apply_cases hkey h op <;> rw [heq]
  obtain ⟨r, hr, -⟩ := keyedRuns_commit hc s.db
  rw [hr, List.length_append]
  omega

/-! ### Whole histories -/

/-- No run has the key and no call was answered, or one run has it and all calls were answered
with that run. -/
def Agreed (workflowId : ℕ) (key : String) (s : RunCalls) : Prop :=
  (keyedRuns s.db workflowId key = [] ∧ s.returned = []) ∨
    ∃ r, keyedRuns s.db workflowId key = [r] ∧ ∀ a ∈ s.returned, a = r.run.id

theorem Agreed.oneRun (h : Agreed workflowId key s) : OneRun workflowId key s := by
  rcases h with ⟨hnil, hret⟩ | ⟨r, hr, hret⟩
  · rw [OneRun, hnil, hret]
    simp
  · rw [OneRun, hr]
    exact ⟨le_rfl, fun a ha b hb => (hret a ha).trans (hret b hb).symm⟩

theorem Agreed.apply (hkey : key ≠ "") (hopen : OpenCreate workflowId key s)
    (h : Agreed workflowId key s) {op : RunCallOp} (hok : CommitFindsNone workflowId key s op) :
    Agreed workflowId key (s.apply workflowId key op) := by
  obtain heq | ⟨r, hr, heq⟩ | ⟨plan, hc, heq⟩ | ⟨i, plan, rfl, hi, hc, heq⟩ :=
    apply_cases hkey hopen op <;> rw [heq]
  · exact h
  · rcases h with ⟨hnil, -⟩ | ⟨r', hr', hret⟩
    · rw [hnil] at hr
      cases hr
    · rw [hr', List.head?_cons] at hr
      obtain rfl := Option.some.inj hr
      refine Or.inr ⟨r', hr', ?_⟩
      intro a ha
      rcases List.mem_append.mp ha with ha | ha
      · exact hret a ha
      · exact List.mem_singleton.mp ha
  · exact h
  · have hnil := hok (List.getElem?_eq_some_iff.mp hi).1
    rcases h with ⟨-, hret⟩ | ⟨r', hr', -⟩
    · obtain ⟨r, hr, hid⟩ := keyedRuns_commit hc s.db
      refine Or.inr ⟨r, by rw [hr, hnil, List.nil_append], ?_⟩
      rw [hret]
      intro a ha
      exact (List.mem_singleton.mp ha).trans hid.symm
    · rw [hr'] at hnil
      cases hnil

theorem two_runs_of_commit (hopen : OpenCreate workflowId key s)
    {op : RunCallOp} (hbad : ¬ CommitFindsNone workflowId key s op) :
    2 ≤ (keyedRuns (s.apply workflowId key op).db workflowId key).length := by
  cases op with
  | read g user data => exact absurd trivial hbad
  | commit i =>
      rw [CommitFindsNone, Classical.not_imp] at hbad
      obtain ⟨hlt, hne⟩ := hbad
      have hi := List.getElem?_eq_getElem hlt
      obtain ⟨r, hr, -⟩ := keyedRuns_commit (hopen _ (List.mem_of_getElem? hi)) s.db
      have hpos := List.length_pos_of_ne_nil hne
      simp only [RunCalls.apply, hi]
      rw [hr, List.length_append, List.length_singleton]
      omega

/-- **When a key is idempotent.** In every interleaving of calls on a workflow that carry one
key, one run has the key and all calls that answer do so with that run, if and only if every
call that creates a run finds no run with the key at its commit. -/
theorem one_run_iff (hkey : key ≠ "") (hdb : (keyedRuns db workflowId key).length ≤ 1)
    (ops : List RunCallOp) :
    OneRun workflowId key (Machine.run (RunCalls.apply workflowId key) (.start db) ops) ↔
      Machine.Meets (RunCalls.apply workflowId key) (CommitFindsNone workflowId key)
        (.start db) ops := by
  have hopen : OpenCreate workflowId key (.start db) := by
    intro plan hplan
    cases hplan
  have hagreed : Agreed workflowId key (.start db) := by
    rcases hk : keyedRuns db workflowId key with _ | ⟨r, rest⟩
    · exact Or.inl ⟨hk, rfl⟩
    · have hrest : rest = [] := by
        rw [hk, List.length_cons] at hdb
        exact List.eq_nil_of_length_eq_zero (by omega)
      rw [hrest] at hk
      exact Or.inr ⟨r, hk, fun a ha => by cases ha⟩
  constructor
  · intro hone
    by_contra hm
    obtain ⟨ops₁, op, ops₂, rfl, -, hbad⟩ := Machine.exists_first_break hm
    rw [Machine.run_append, Machine.run_cons] at hone
    set s₁ := Machine.run (RunCalls.apply workflowId key) (.start db) ops₁ with hs₁
    have hopen₁ : OpenCreate workflowId key s₁ :=
      Machine.run_invariant (P := OpenCreate workflowId key)
        (fun s op h => h.apply hkey op) hopen ops₁
    -- the second run is there after the break, and stays
    have hstay : OpenCreate workflowId key
          (Machine.run (RunCalls.apply workflowId key) (s₁.apply workflowId key op) ops₂) ∧
        2 ≤ (keyedRuns (Machine.run (RunCalls.apply workflowId key)
          (s₁.apply workflowId key op) ops₂).db workflowId key).length :=
      Machine.run_invariant
        (P := fun s => OpenCreate workflowId key s ∧ 2 ≤ (keyedRuns s.db workflowId key).length)
        (fun s op h => ⟨h.1.apply hkey op, h.2.trans (length_keyedRuns_apply hkey h.1 op)⟩)
        ⟨hopen₁.apply hkey op, two_runs_of_commit hopen₁ hbad⟩ ops₂
    have hle := hone.1
    have hge := hstay.2
    omega
  · intro hm
    have hinv := Machine.run_invariant_of_meets
      (P := fun s => OpenCreate workflowId key s ∧ Agreed workflowId key s)
      (fun s op h hok => ⟨h.1.apply hkey op, h.2.apply hkey h.1 hok⟩) ⟨hopen, hagreed⟩ hm
    exact hinv.2.oneRun

/-- One workflow whose only node is a timer. -/
def timerWorkflow : VersionDb :=
  VersionDb.empty.apply (.createWorkflow ⟨true, true⟩ "timer"
    (some (.obj [("nodes", .arr [.obj [("key", .str "wait"), ("type", .str "sleep")]])])))

/-- One call after the other: the second one is answered with the run of the first. -/
theorem one_run_iff_retried :
    OneRun 1 "k" (Machine.run (RunCalls.apply 1 "k") (.start timerWorkflow)
      [.read ⟨true, true⟩ none none, .commit 0, .read ⟨true, true⟩ none none]) := by
  refine (one_run_iff (by decide) (by decide +kernel) _).mpr ⟨trivial, ?_, trivial, trivial⟩
  intro _
  decide +kernel

/-- Two calls look before either commits: both create a run. -/
theorem two_callers_two_runs :
    ¬ OneRun 1 "k" (Machine.run (RunCalls.apply 1 "k") (.start timerWorkflow)
      [.read ⟨true, true⟩ none none, .read ⟨true, true⟩ none none, .commit 0, .commit 0]) := by
  rw [OneRun]
  decide +kernel

end LarkPlat
