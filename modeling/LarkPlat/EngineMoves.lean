import LarkPlat.Engine
import LarkPlat.Machine

/-!
# The Moves of a Step

A step is a long function with three loops, several commits and early exits. This module
says once what it can do to the rows: `Micro` lists the small changes it is made of, and
`step_tracks` shows that the states it commits are connected by them, whether it returns or
raises. Every invariant of the engine is then derived from `Micro` alone, and `Micro.moves`
projects the small changes onto the moves of the abstract model.

## Main results

* `step_tracks`: the start state and the committed states of a step are connected by small
  changes, in order.
* `Micros.moves`: small changes act on the node statuses as moves of the abstract model.
* `Micros.rows`: row facts (attempt counters, start times) that every small change keeps.
-/

namespace LarkPlat

open Flow (Moves Move Verdict)

/-- What advancing a node keeps of its row. -/
structure SameNode (n n' : WorkflowNodeRun) : Prop where
  id : n'.id = n.id
  key : n'.nodeKey = n.nodeKey
  type : n'.nodeType = n.nodeType
  attempt : n'.attempt = n.attempt
  started : n.startedAt.isSome = true → n'.startedAt.isSome = true

/-- The status that finalisation gives to a run. -/
def finalStatus (s : RunState) : RunStatus :=
  if s.nodes.any fun n => decide (n.status = .failed) then .failed else .succeeded

/-- The small changes a step is made of. -/
inductive Micro (d : Json) : RunState → RunState → Prop
  | start {s : RunState} {t : Option ℚ} (hp : s.run.status = .pending) :
      Micro d s (s.setRun fun r => { r with status := .running, startedAt := t })
  | reorder {s : RunState} {ns : List WorkflowNodeRun} (hp : ns.Perm s.nodes) :
      Micro d s { s with nodes := ns }
  | activate {s : RunState} {k : String} {n : WorkflowNodeRun} {t : ℚ}
      (hn : s.node? k = some n) (hp : n.status = .pending)
      (hv : (edges d).verdict s.status k = .ready) :
      Micro d s (s.setNode k fun _ => LarkPlat.activate t n)
  | skip {s : RunState} {k : String} {n : WorkflowNodeRun} {t : ℚ}
      (hn : s.node? k = some n) (hp : n.status = .pending)
      (hv : (edges d).verdict s.status k = .skip) :
      Micro d s (s.setNode k fun _ => LarkPlat.skip t n)
  | advance {s : RunState} {k : String} {n n' : WorkflowNodeRun}
      (hn : s.node? k = some n) (hf : n.status.inFlight = true) (hsame : SameNode n n')
      (ht : n'.status.inFlight = true ∨ n'.status = .succeeded ∨ n'.status = .failed) :
      Micro d s (s.setNode k fun _ => n')
  | exec {s : RunState} {e : ExecDb} : Micro d s { s with exec := e }
  | finalise {s : RunState} {r : WorkflowRun} {q : Option Release}
      (hopen : s.run.status.terminal = false) (hne : s.nodes ≠ [])
      (hall : s.allTerminal = true) (hst : r.status = finalStatus s) :
      Micro d s { s with run := r, release := q }

/-- A sequence of small changes. -/
abbrev Micros (d : Json) := Relation.ReflTransGen (Micro d)

/-! ### The session of a step follows small changes -/

variable {d : Json} {s : RunState}

/-- The states that a session has committed, and its current one, are connected by small
changes. -/
structure Tracks (d : Json) (s : RunState) (w : Work) : Prop where
  chain : (s :: w.commits).Pairwise (Micros d)
  cur : ∀ c ∈ s :: w.commits, Micros d c w.cur

theorem Tracks.micro {w w' : Work} (h : Tracks d s w) (hc : w'.commits = w.commits)
    (hm : Micro d w.cur w'.cur) : Tracks d s w' := by
  refine ⟨by rw [hc]; exact h.chain, ?_⟩
  rw [hc]
  intro c hmem
  exact (h.cur c hmem).tail hm

theorem Tracks.commit {w : Work} (h : Tracks d s w) : Tracks d s w.commit := by
  have hcomm : s :: w.commit.commits = (s :: w.commits) ++ [w.cur] := rfl
  refine ⟨?_, ?_⟩
  · rw [hcomm, List.pairwise_append]
    refine ⟨h.chain, List.pairwise_singleton _ _, ?_⟩
    intro a ha b hb
    obtain rfl := List.mem_singleton.mp hb
    exact h.cur a ha
  · rw [hcomm]
    intro c hmem
    rcases List.mem_append.mp hmem with hmem | hmem
    · exact h.cur c hmem
    · obtain rfl := List.mem_singleton.mp hmem
      exact Relation.ReflTransGen.refl

/-- The session moves on by small changes that do not touch the run row. -/
structure Evolves (d : Json) (w w' : Work) : Prop where
  tracks : ∀ {s}, Tracks d s w → Tracks d s w'
  run : w'.cur.run = w.cur.run

theorem Evolves.refl (w : Work) : Evolves d w w := ⟨id, rfl⟩

theorem Evolves.trans {w w' w'' : Work} (h : Evolves d w w') (h' : Evolves d w' w'') :
    Evolves d w w'' :=
  ⟨fun ht => h'.tracks (h.tracks ht), h'.run.trans h.run⟩

theorem evolves_commit (w : Work) : Evolves d w w.commit := ⟨Tracks.commit, rfl⟩

theorem evolves_setExec (w : Work) (e : ExecDb) : Evolves d w (w.setExec e) :=
  ⟨fun ht => ht.micro rfl Micro.exec, rfl⟩

theorem evolves_put {w : Work} {n n' : WorkflowNodeRun}
    (hn : w.cur.node? n.nodeKey = some n) (hf : n.status.inFlight = true)
    (hsame : SameNode n n')
    (ht : n'.status.inFlight = true ∨ n'.status = .succeeded ∨ n'.status = .failed) :
    Evolves d w (w.put n') := by
  refine ⟨fun htr => htr.micro rfl ?_, rfl⟩
  have hm := Micro.advance (d := d) hn hf hsame ht
  rw [← hsame.key] at hm
  exact hm

/-! ### Advancing a node -/

section Advance

variable {env : StepEnv} {w w' : Work} {n n' : WorkflowNodeRun}

theorem sameNode_succeed (t : ℚ) (extra : List (String × Json)) :
    SameNode n (succeed t extra n) :=
  ⟨rfl, rfl, rfl, rfl, id⟩

theorem sameNode_fail (t : ℚ) (reason code : String) : SameNode n (fail t reason code n) :=
  ⟨rfl, rfl, rfl, rfl, id⟩

theorem isSome_or_some {α : Type*} (o : Option α) (a : α) : (o.or (some a)).isSome = true := by
  cases o <;> rfl

theorem evolves_succeed (hn : w.cur.node? n.nodeKey = some n) (hf : n.status.inFlight = true)
    (t : ℚ) (extra : List (String × Json)) : Evolves d w (w.put (succeed t extra n)) :=
  evolves_put hn hf (sameNode_succeed t extra) (Or.inr (Or.inl rfl))

theorem evolves_fail (hn : w.cur.node? n.nodeKey = some n) (hf : n.status.inFlight = true)
    (t : ℚ) (reason code : String) : Evolves d w (w.put (fail t reason code n)) :=
  evolves_put hn hf (sameNode_fail t reason code) (Or.inr (Or.inr rfl))

theorem pollExecTask_spec {taskId : ℕ} (h : pollExecTask env w n taskId = some n') :
    SameNode n n' ∧ (n'.status.inFlight = true ∨ n'.status = .succeeded ∨ n'.status = .failed) := by
  unfold pollExecTask at h
  dsimp only at h
  split at h
  · obtain rfl := Option.some.inj h
    exact ⟨sameNode_fail _ _ _, Or.inr (Or.inr rfl)⟩
  · obtain rfl := Option.some.inj h
    exact ⟨sameNode_succeed _ _, Or.inr (Or.inl rfl)⟩
  · obtain rfl := Option.some.inj h
    exact ⟨sameNode_succeed _ _, Or.inr (Or.inl rfl)⟩
  · obtain rfl := Option.some.inj h
    exact ⟨sameNode_fail _ _ _, Or.inr (Or.inr rfl)⟩
  · obtain rfl := Option.some.inj h
    exact ⟨sameNode_fail _ _ _, Or.inr (Or.inr rfl)⟩
  · obtain rfl := Option.some.inj h
    exact ⟨sameNode_fail _ _ _, Or.inr (Or.inr rfl)⟩
  · split_ifs at h
    obtain rfl := Option.some.inj h
    exact ⟨⟨rfl, rfl, rfl, rfl, id⟩, Or.inl rfl⟩
  · simp at h

theorem createApproval_evolves (hn : w.cur.node? n.nodeKey = some n)
    (hf : n.status.inFlight = true) (h : createApproval env w n = .ok w') :
    Evolves d w w' := by
  rw [createApproval] at h
  dsimp only at h
  split_ifs at h
  obtain rfl := Except.ok.inj h
  refine (evolves_setExec w _).trans (evolves_put (n := n) hn hf ?_ (Or.inl rfl))
  exact ⟨rfl, rfl, rfl, rfl, fun _ => isSome_or_some _ _⟩

theorem createExecTask_evolves {dn : Json} (hn : w.cur.node? n.nodeKey = some n)
    (hf : n.status.inFlight = true) (h : createExecTask env w n dn = .ok w') :
    Evolves d w w' := by
  rw [createExecTask] at h
  obtain ⟨c, -, h⟩ := bind_eq_ok.mp h
  obtain ⟨spec, -, h⟩ := bind_eq_ok.mp h
  obtain ⟨⟨exec, created⟩, -, h⟩ := bind_eq_ok.mp h
  dsimp only at h
  have hcreated : Evolves d w (w.setExec exec).commit :=
    (evolves_setExec w exec).trans (evolves_commit _)
  set w₁ : Work := { (w.setExec exec).commit with
    inserted := created.id :: (w.setExec exec).commit.inserted } with hw₁
  have h₁ : Evolves d w w₁ :=
    ⟨fun ht => ⟨(hcreated.tracks ht).chain, (hcreated.tracks ht).cur⟩, hcreated.run⟩
  have hn₁ : w₁.cur.node? n.nodeKey = some n := hn
  split_ifs at h with happ
  · obtain rfl := Except.ok.inj h
    refine h₁.trans (evolves_put (n := n) hn₁ hf ?_ (Or.inl rfl))
    exact ⟨rfl, rfl, rfl, rfl, fun _ => isSome_or_some _ _⟩
  · obtain rfl := Except.ok.inj h
    have hlink : Evolves d w₁ (w₁.put { n with execTaskId := some created.id }) :=
      evolves_put (n := n) hn₁ hf ⟨rfl, rfl, rfl, rfl, id⟩ (Or.inl hf)
    exact ((h₁.trans hlink).trans (evolves_commit _)).trans
      ((evolves_setExec _ _).trans (evolves_commit _))

theorem advanceRunning_evolves (hn : w.cur.node? n.nodeKey = some n)
    (hf : n.status.inFlight = true) (h : advanceRunning env d w n = .ok w') :
    Evolves d w w' := by
  -- a timer ends the node by its timeout, by its due time, or leaves it
  have htimer : ∀ {x : Except PyErr Work}, x = .ok w' →
      (x = (do
        if ← timedOut env n (defnode d n.nodeKey) d then
          pure (w.put (fail (env.clock n.nodeKey 2) "timeout" "timeout" n))
        else if ← dueReached env (← cfg (defnode d n.nodeKey)) n then
          pure (w.put (succeed (env.clock n.nodeKey 2) [] n))
        else pure w)) → Evolves d w w' := by
    intro x hx hdef
    rw [hdef] at hx
    obtain ⟨late, -, hx⟩ := bind_eq_ok.mp hx
    split_ifs at hx
    · obtain rfl := Except.ok.inj hx
      exact evolves_fail hn hf _ _ _
    · obtain ⟨c, -, hx⟩ := bind_eq_ok.mp hx
      obtain ⟨due, -, hx⟩ := bind_eq_ok.mp hx
      split_ifs at hx
      · obtain rfl := Except.ok.inj hx
        exact evolves_succeed hn hf _ _
      · obtain rfl := Except.ok.inj hx
        exact Evolves.refl w
  unfold advanceRunning at h
  dsimp only at h
  split at h
  · exact htimer h rfl
  · exact htimer h rfl
  · obtain rfl := Except.ok.inj h
    refine evolves_put (n := n) hn hf ?_ (Or.inl rfl)
    exact ⟨rfl, rfl, rfl, rfl, fun _ => isSome_or_some _ _⟩
  · split at h
    · exact createApproval_evolves hn hf h
    · obtain rfl := Except.ok.inj h
      exact Evolves.refl w
  · split at h
    · exact createExecTask_evolves hn hf h
    · obtain rfl := Except.ok.inj h
      rename_i taskId _
      rcases hp : pollExecTask env w n taskId with _ | n'
      · exact Evolves.refl w
      · obtain ⟨hsame, ht⟩ := pollExecTask_spec hp
        exact evolves_put hn hf hsame ht

theorem expireWaiting_evolves (hn : w.cur.node? n.nodeKey = some n)
    (hf : n.status.inFlight = true) (h : expireWaiting env d w n = .ok w') :
    Evolves d w w' := by
  rw [expireWaiting] at h
  obtain ⟨late, -, h⟩ := bind_eq_ok.mp h
  split_ifs at h
  · obtain rfl := Except.ok.inj h
    exact evolves_fail hn hf _ _ _
  · obtain rfl := Except.ok.inj h
    exact Evolves.refl w

theorem approvalDecision_spec (h : approvalDecision env w n = some n') :
    SameNode n n' ∧ (n'.status.inFlight = true ∨ n'.status = .succeeded ∨ n'.status = .failed) := by
  rw [approvalDecision] at h
  obtain ⟨a, -, ha⟩ := Option.bind_eq_some_iff.mp h
  split at ha
  · obtain rfl := Option.some.inj ha
    exact ⟨sameNode_succeed _ _, Or.inr (Or.inl rfl)⟩
  · obtain rfl := Option.some.inj ha
    exact ⟨sameNode_fail _ _ _, Or.inr (Or.inr rfl)⟩
  · obtain rfl := Option.some.inj ha
    exact ⟨sameNode_fail _ _ _, Or.inr (Or.inr rfl)⟩
  · simp at ha

theorem advanceWaiting_evolves (hn : w.cur.node? n.nodeKey = some n)
    (hf : n.status.inFlight = true) (h : advanceWaiting env d w n = .ok w') :
    Evolves d w w' := by
  rw [advanceWaiting] at h
  split at h
  · split at h
    · rename_i n' hp
      obtain rfl := Except.ok.inj h
      obtain ⟨taskId, -, hpoll⟩ := Option.bind_eq_some_iff.mp hp
      obtain ⟨hsame, ht⟩ := pollExecTask_spec hpoll
      exact evolves_put hn hf hsame ht
    · exact expireWaiting_evolves hn hf h
  · split at h
    · rename_i n' hp
      obtain rfl := Except.ok.inj h
      obtain ⟨hsame, ht⟩ := approvalDecision_spec hp
      exact evolves_put hn hf hsame ht
    · exact expireWaiting_evolves hn hf h
  · exact expireWaiting_evolves hn hf h

end Advance

/-! ### The loops and the step -/

section Loops

variable {env : StepEnv} {w w' : Work}

theorem activateAt_evolves (k : String) : Evolves d w (activateAt env d w k) := by
  rw [activateAt]
  split
  · exact Evolves.refl w
  rename_i n hn
  have hkey : n.nodeKey = k := Table.key_of_find hn
  split_ifs with hp
  swap
  · exact Evolves.refl w
  split
  · rename_i hv
    refine ⟨fun htr => htr.micro rfl ?_, rfl⟩
    have hm := Micro.activate (t := env.clock k 0) hn hp hv
    rw [← hkey] at hm ⊢
    exact hm
  · rename_i hv
    refine ⟨fun htr => htr.micro rfl ?_, rfl⟩
    have hm := Micro.skip (t := env.clock k 0) hn hp hv
    rw [← hkey] at hm ⊢
    exact hm
  · exact Evolves.refl w

theorem foldl_activateAt_evolves (env : StepEnv) (ks : List String) :
    ∀ w, Evolves d w (ks.foldl (activateAt env d) w) := by
  induction ks with
  | nil => exact Evolves.refl
  | cons k ks ih => exact fun w => (activateAt_evolves k).trans (ih _)

/-- What a loop body does to the session: it follows small changes. -/
def BodyEvolves (d : Json) (f : Work → WorkflowNodeRun → Except PyErr Work) : Prop :=
  ∀ {w w' : Work} {n : WorkflowNodeRun}, w.cur.node? n.nodeKey = some n → f w n = .ok w' →
    Evolves d w w'

/-- A loop over the rows follows small changes, and when it raises it has committed a part
of what it followed. -/
theorem foldlM_forNodes_evolves {f : Work → WorkflowNodeRun → Except PyErr Work}
    (hf : BodyEvolves d f) (ks : List String) :
    ∀ w, (∀ w', ks.foldlM (forNodes f) w = .ok w' → Evolves d w w') ∧
      ∀ a, ks.foldlM (forNodes f) w = .error a → ∃ w₁, Evolves d w w₁ ∧ a.commits = w₁.commits := by
  induction ks with
  | nil =>
      intro w
      refine ⟨fun w' h => ?_, fun a h => ?_⟩
      · obtain rfl : w = w' := Except.ok.inj h
        exact Evolves.refl w
      · exact absurd h (by simp [pure, Except.pure])
  | cons k ks ih =>
      intro w
      simp only [List.foldlM_cons, bind, Except.bind]
      rcases hk : forNodes f w k with a₀ | w₀
      · refine ⟨fun w' h => absurd h (by simp), fun a h => ?_⟩
        obtain rfl : a₀ = a := Except.error.inj h
        rw [forNodes] at hk
        split at hk
        · simp at hk
        split at hk
        · obtain rfl := Except.error.inj hk
          exact ⟨w, Evolves.refl w, rfl⟩
        · simp at hk
      · have hw₀ : Evolves d w w₀ := by
          rw [forNodes] at hk
          split at hk
          · obtain rfl := Except.ok.inj hk
            exact Evolves.refl w
          rename_i n hn
          split at hk
          · simp at hk
          · rename_i w₁ hw₁
            obtain rfl := Except.ok.inj hk
            have hkey : n.nodeKey = k := Table.key_of_find hn
            exact hf (hkey ▸ hn) hw₁
        obtain ⟨hok, herr⟩ := ih w₀
        refine ⟨fun w' h => hw₀.trans (hok w' h), fun a h => ?_⟩
        obtain ⟨w₁, h₁, hc⟩ := herr a h
        exact ⟨w₁, hw₀.trans h₁, hc⟩

theorem stepRunning_evolves (env : StepEnv) : BodyEvolves d (stepRunning env d) := by
  intro w w' n hn h
  rw [stepRunning] at h
  split_ifs at h with hc
  · exact advanceRunning_evolves hn (by rw [hc.1]; rfl) h
  · obtain rfl := Except.ok.inj h
    exact Evolves.refl w

theorem stepWaiting_evolves (env : StepEnv) : BodyEvolves d (stepWaiting env d) := by
  intro w w' n hn h
  rw [stepWaiting] at h
  split_ifs at h with hc
  · exact advanceWaiting_evolves hn (by rw [hc]; rfl) h
  · obtain rfl := Except.ok.inj h
    exact Evolves.refl w

theorem finalise_nodes (env : StepEnv) (w : Work) : (finalise env w).cur.nodes = w.cur.nodes := by
  rw [finalise]
  dsimp only
  split_ifs
  · split <;> rfl
  · rfl

@[inherit_doc finalise_nodes]
theorem finalise_exec (env : StepEnv) (w : Work) : (finalise env w).cur.exec = w.cur.exec := by
  rw [finalise]
  dsimp only
  split_ifs
  · split <;> rfl
  · rfl

theorem finalise_tracks (h : Tracks d s w) (hopen : w.cur.run.status.terminal = false) :
    Tracks d s (finalise env w) := by
  rw [finalise]
  dsimp only
  split_ifs with hc
  swap
  · exact h
  refine h.micro rfl ?_
  dsimp only
  split
  · rename_i n hfound
    refine Micro.finalise hopen hc.2.1 hc.2.2 ?_
    have hfailed := List.find?_some hfound
    have hany : (w.cur.nodes.any fun n => decide (n.status = .failed)) = true :=
      List.any_eq_true.mpr ⟨n, List.mem_of_find?_eq_some hfound, hfailed⟩
    simp only [finalStatus, hany, if_true]
  · rename_i hnone
    have hany : (w.cur.nodes.any fun n => decide (n.status = .failed)) = false := by
      rw [List.any_eq_false]
      exact List.find?_eq_none.mp hnone
    have hst : RunStatus.succeeded = finalStatus w.cur := by simp [finalStatus, hany]
    exact Micro.finalise (q := w.cur.release) hopen hc.2.1 hc.2.2 hst

theorem beginStep_tracks : Tracks d s (beginStep env s) := by
  have hstart : Micros d s (beginStep env s).cur := by
    rw [beginStep]
    dsimp only
    split_ifs with hp
    · refine Relation.ReflTransGen.head
        (Micro.start (t := s.run.startedAt.or (some env.now)) hp) (Relation.ReflTransGen.single ?_)
      exact Micro.reorder (env.order.perm s.nodes)
    · exact Relation.ReflTransGen.single (Micro.reorder (env.order.perm s.nodes))
  refine ⟨List.pairwise_singleton _ _, fun c hc => ?_⟩
  obtain rfl := List.mem_singleton.mp hc
  exact hstart

theorem beginStep_open (h : s.run.status.terminal = false) :
    (beginStep env s).cur.run.status.terminal = false := by
  rw [beginStep]
  dsimp only
  split_ifs
  · rfl
  · exact h

/-- The session of a step on an open run evolves in the loops. It has committed what they did, or
has finalised the run and committed that as well. -/
theorem step_evolves (env : StepEnv) (d : Json) (hopen : s.run.status.terminal = false) :
    ∃ w, Evolves d (beginStep env s) w ∧ ((step env d s).commits = w.commits ∨
      (step env d s).commits = (finalise env w).commit.commits) := by
  rw [step, if_neg (by rw [hopen]; exact Bool.false_ne_true)]
  dsimp only
  set w₀ := beginStep env s with hw₀
  set keys := w₀.cur.keys with hkeys
  have h₁ := foldl_activateAt_evolves (d := d) env keys w₀
  set w₁ := keys.foldl (activateAt env d) w₀ with hw₁
  obtain ⟨hok₂, herr₂⟩ := foldlM_forNodes_evolves (stepRunning_evolves env) keys w₁
  simp only [bind, Except.bind]
  rcases h₂ : keys.foldlM (forNodes (stepRunning env d)) w₁ with a | w₂
  · obtain ⟨w, hev, hc⟩ := herr₂ a h₂
    exact ⟨w, h₁.trans hev, Or.inl hc⟩
  obtain ⟨hok₃, herr₃⟩ := foldlM_forNodes_evolves (stepWaiting_evolves env) keys w₂
  have h₂' := h₁.trans (hok₂ w₂ h₂)
  simp only
  rcases h₃ : keys.foldlM (forNodes (stepWaiting env d)) w₂ with a | w₃
  · obtain ⟨w, hev, hc⟩ := herr₃ a h₃
    exact ⟨w, h₂'.trans hev, Or.inl hc⟩
  · exact ⟨w₃, h₂'.trans (hok₃ w₃ h₃), Or.inr rfl⟩

/-- **What a step can do.** The start state and the states committed by a step are
connected, in order, by small changes. -/
theorem step_tracks (env : StepEnv) (d : Json) (s : RunState) :
    (s :: (step env d s).commits).Pairwise (Micros d) := by
  by_cases hterm : s.run.status.terminal = true
  · rw [step, if_pos hterm]
    exact List.pairwise_singleton _ _
  have hopen : s.run.status.terminal = false := by simpa using hterm
  obtain ⟨w, hev, hcommits⟩ := step_evolves env d hopen
  have htracks : Tracks d s w := hev.tracks beginStep_tracks
  rcases hcommits with hc | hc <;> rw [hc]
  · exact htracks.chain
  · have hrun : w.cur.run.status.terminal = false := by
      rw [hev.run]
      exact beginStep_open hopen
    exact (finalise_tracks htracks hrun).commit.chain

/-- The first element of a list of connected states is connected with the last. -/
theorem micros_getLast {cs : List RunState} (h : (s :: cs).Pairwise (Micros d)) :
    Micros d s ((s :: cs).getLast (List.cons_ne_nil _ _)) := by
  rcases cs with _ | ⟨c, cs⟩
  · exact Relation.ReflTransGen.refl
  · rw [List.getLast_cons (List.cons_ne_nil c cs)]
    exact (List.pairwise_cons.mp h).1 _ (List.getLast_mem _)

theorem micros_stepState (env : StepEnv) (d : Json) (s : RunState) :
    Micros d s (stepState env d s) :=
  micros_getLast (step_tracks env d s)

end Loops

/-! ### What small changes keep -/

section Keep

variable {s' : RunState}

theorem keys_write {k : String} {n n' : WorkflowNodeRun} (hn : s.node? k = some n)
    (h : n'.nodeKey = n.nodeKey) : (s.setNode k fun _ => n').keys = s.keys :=
  RunState.keys_setNode fun _ _ => h.trans (Table.key_of_find hn)

theorem node?_write_self {k : String} {n n' : WorkflowNodeRun} (hn : s.node? k = some n)
    (h : n'.nodeKey = n.nodeKey) : (s.setNode k fun _ => n').node? k = some n' := by
  rw [RunState.node?_setNode_self fun _ _ => h.trans (Table.key_of_find hn), hn, Option.map_some]

theorem node?_write_ne {k j : String} {n n' : WorkflowNodeRun} (hn : s.node? k = some n)
    (h : n'.nodeKey = n.nodeKey) (hne : j ≠ k) :
    (s.setNode k fun _ => n').node? j = s.node? j :=
  RunState.node?_setNode_ne (fun _ _ => h.trans (Table.key_of_find hn)) hne

theorem status_write {k : String} {n n' : WorkflowNodeRun} (hn : s.node? k = some n)
    (h : n'.nodeKey = n.nodeKey) :
    (s.setNode k fun _ => n').status = Function.update s.status k (some n'.status) :=
  RunState.status_setNode hn (fun _ _ => h.trans (Table.key_of_find hn)) rfl

theorem Micro.keys_perm (h : Micro d s s') : s'.keys.Perm s.keys := by
  cases h with
  | start _ => exact List.Perm.refl _
  | reorder hp => exact hp.map _
  | activate hn _ _ => exact List.Perm.of_eq (keys_write hn rfl)
  | skip hn _ _ => exact List.Perm.of_eq (keys_write hn rfl)
  | advance hn _ hsame _ => exact List.Perm.of_eq (keys_write hn hsame.key)
  | exec => exact List.Perm.refl _
  | finalise _ _ _ _ => exact List.Perm.refl _

theorem Micros.keys_perm (h : Micros d s s') : s'.keys.Perm s.keys := by
  induction h with
  | refl => exact List.Perm.refl _
  | tail _ hm ih => exact hm.keys_perm.trans ih

theorem Micros.nodup (h : Micros d s s') (hn : s.keys.Nodup) : s'.keys.Nodup :=
  h.keys_perm.nodup_iff.mpr hn

theorem Micro.node?_of_terminal (h : Micro d s s') (hn : s.keys.Nodup) {k : String}
    {n : WorkflowNodeRun} (hk : s.node? k = some n) (ht : n.status.terminal = true) :
    s'.node? k = some n := by
  -- a row that is written is another one, for it has not ended
  have hset : ∀ {j m m'}, s.node? j = some m → m.status.terminal = false →
      m'.nodeKey = m.nodeKey → (s.setNode j fun _ => m').node? k = some n := by
    intro j m m' hj hm hkey
    have hne : k ≠ j := by
      rintro rfl
      obtain rfl : n = m := Option.some.inj (hk.symm.trans hj)
      rw [ht] at hm
      exact absurd hm (by simp)
    rw [node?_write_ne hj hkey hne]
    exact hk
  cases h with
  | start _ => exact hk
  | reorder hp =>
      rename_i ns
      have hnode : ({ s with nodes := ns } : RunState).node? k = s.node? k :=
        RunState.node?_of_perm hn hp k
      rw [hnode, hk]
  | activate hj hp _ => exact hset hj (by rw [hp]; rfl) rfl
  | skip hj hp _ => exact hset hj (by rw [hp]; rfl) rfl
  | advance hj hf hsame _ => exact hset hj (NodeStatus.terminal_of_inFlight hf) hsame.key
  | exec => exact hk
  | finalise _ _ _ _ => exact hk

theorem Micros.node?_of_terminal (h : Micros d s s') (hn : s.keys.Nodup) {k : String}
    {n : WorkflowNodeRun} (hk : s.node? k = some n) (ht : n.status.terminal = true) :
    s'.node? k = some n := by
  induction h with
  | refl => exact hk
  | tail hprefix hm ih => exact hm.node?_of_terminal (Micros.nodup hprefix hn) ih ht

/-- A small change acts on the statuses as a sequence of moves. -/
theorem Micro.moves (h : Micro d s s') (hn : s.keys.Nodup) :
    Moves (edges d) s.status s'.status := by
  cases h with
  | start _ => exact Relation.ReflTransGen.refl
  | reorder hp =>
      rename_i ns
      have hst : ({ s with nodes := ns } : RunState).status = s.status := by
        funext k
        have hnode : ({ s with nodes := ns } : RunState).node? k = s.node? k :=
          RunState.node?_of_perm hn hp k
        rw [RunState.status, hnode, RunState.status]
      rw [hst]
  | activate hnode hp hv =>
      rw [status_write hnode (by rfl)]
      have hpend := RunState.status_of_node? hnode
      rw [hp] at hpend
      exact Relation.ReflTransGen.single (Move.activate hpend hv)
  | skip hnode hp hv =>
      rw [status_write hnode (by rfl)]
      have hpend := RunState.status_of_node? hnode
      rw [hp] at hpend
      exact Relation.ReflTransGen.single (Move.skip hpend hv)
  | advance hnode hf hsame ht =>
      rw [status_write hnode hsame.key]
      exact Relation.ReflTransGen.single (Move.advance (RunState.status_of_node? hnode) hf ht)
  | exec => exact Relation.ReflTransGen.refl
  | finalise _ _ _ _ => exact Relation.ReflTransGen.refl

/-- **Refinement.** Small changes act on the statuses as moves of the abstract model. -/
theorem Micros.moves (h : Micros d s s') (hn : s.keys.Nodup) :
    Moves (edges d) s.status s'.status := by
  induction h with
  | refl => exact Relation.ReflTransGen.refl
  | tail hprefix hm ih => exact ih.trans (hm.moves (Micros.nodup hprefix hn))

/-- What the engine maintains of a node row: one activation at most, none while the node is
pending, and a start time from the activation on. -/
structure RowOk (n : WorkflowNodeRun) : Prop where
  attempt_le : n.attempt ≤ 1
  pending : n.status = .pending → n.attempt = 0
  started : n.status.inFlight = true → n.startedAt.isSome = true

theorem Micro.rows (h : Micro d s s') (hok : ∀ n ∈ s.nodes, RowOk n) :
    ∀ n ∈ s'.nodes, RowOk n := by
  -- a row written under its key is judged alone, the others are old rows
  have hset : ∀ {k n'}, RowOk n' →
      ∀ m ∈ (s.setNode k fun _ => n').nodes, RowOk m := by
    intro k n' hn' m hm
    rcases Table.mem_modify.mp hm with ⟨-, -, -, rfl⟩ | ⟨hm, -⟩
    · exact hn'
    · exact hok m hm
  have hold : ∀ {k n}, s.node? k = some n → RowOk n :=
    fun hnode => hok _ (Table.mem_of_find hnode)
  cases h with
  | start _ => exact hok
  | reorder hp => exact fun n hn => hok n (hp.subset hn)
  | activate hnode hp _ =>
      refine hset ⟨?_, ?_, fun _ => rfl⟩
      · have h0 := (hold hnode).pending hp
        show _ + 1 ≤ 1
        omega
      · exact fun hc => absurd hc (by simp [LarkPlat.activate])
  | skip hnode hp _ =>
      refine hset ⟨(hold hnode).attempt_le, ?_, ?_⟩
      · exact fun hc => absurd hc (by simp [LarkPlat.skip])
      · exact fun hc => absurd hc (by simp [LarkPlat.skip, NodeStatus.inFlight])
  | advance hnode hf hsame ht =>
      refine hset ⟨?_, ?_, ?_⟩
      · rw [hsame.attempt]; exact (hold hnode).attempt_le
      · intro hc
        rw [hc] at ht
        simp [NodeStatus.inFlight] at ht
      · exact fun _ => hsame.started ((hold hnode).started hf)
  | exec => exact hok
  | finalise _ _ _ _ => exact hok

theorem Micros.rows (h : Micros d s s') (hok : ∀ n ∈ s.nodes, RowOk n) :
    ∀ n ∈ s'.nodes, RowOk n := by
  induction h with
  | refl => exact hok
  | tail _ hm ih => exact hm.rows ih

end Keep

end LarkPlat
