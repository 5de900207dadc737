import LarkPlat.Lifecycle
import LarkPlat.Sessions

/-!
# Interleaved Sessions

The calls on a run are transactions of different sessions. A session loads the rows when the
call begins, computes on its copies, and each of its commits writes back the attributes it
has changed, by primary key and without a condition. `_STEP_LOCK` orders the steps of one
process; `cancel_run`, callbacks and the steps of other processes do not take it, so the
machine below lets any number of sessions be open and commit in any order. `callback_node`
is the exception: it writes with a conditional update.

## Main results

* `step_undisturbed`: a step whose commits nothing interleaves is the `stepState` of the
  other modules.
-/

namespace LarkPlat

open Sessions (writeBack Session Store EachWrite)

/-! ### The commit of a session -/

/-- The run row after a commit. -/
def mergeRun (base image cur : WorkflowRun) : WorkflowRun where
  id := writeBack base.id image.id cur.id
  workflowId := writeBack base.workflowId image.workflowId cur.workflowId
  workflowVersion := writeBack base.workflowVersion image.workflowVersion cur.workflowVersion
  status := writeBack base.status image.status cur.status
  triggerType := writeBack base.triggerType image.triggerType cur.triggerType
  triggerRef := writeBack base.triggerRef image.triggerRef cur.triggerRef
  context := writeBack base.context image.context cur.context
  startedAt := writeBack base.startedAt image.startedAt cur.startedAt
  finishedAt := writeBack base.finishedAt image.finishedAt cur.finishedAt
  error := writeBack base.error image.error cur.error
  createdBy := writeBack base.createdBy image.createdBy cur.createdBy

/-- A node row after a commit; the key addresses the row. -/
def mergeNode (base image cur : WorkflowNodeRun) : WorkflowNodeRun where
  id := writeBack base.id image.id cur.id
  nodeKey := cur.nodeKey
  nodeType := writeBack base.nodeType image.nodeType cur.nodeType
  status := writeBack base.status image.status cur.status
  execTaskId := writeBack base.execTaskId image.execTaskId cur.execTaskId
  approvalId := writeBack base.approvalId image.approvalId cur.approvalId
  attempt := writeBack base.attempt image.attempt cur.attempt
  output := writeBack base.output image.output cur.output
  error := writeBack base.error image.error cur.error
  startedAt := writeBack base.startedAt image.startedAt cur.startedAt
  finishedAt := writeBack base.finishedAt image.finishedAt cur.finishedAt

/-- The commit of one node row: a row that the session does not hold is left alone. -/
def mergeAt (base image : RunState) (cur : WorkflowNodeRun) : WorkflowNodeRun :=
  match base.node? cur.nodeKey, image.node? cur.nodeKey with
  | some b, some i => mergeNode b i cur
  | _, _ => cur

/-- The release row after a commit. -/
def mergeRelease : Option Release → Option Release → Option Release → Option Release
  | some b, some i, some c => some
      { id := writeBack b.id i.id c.id
        status := writeBack b.status i.status c.status
        workflowRunId := writeBack b.workflowRunId i.workflowRunId c.workflowRunId }
  | base, image, cur => writeBack base image cur

/-- The rows after a session has written back what it changed from `base` to `image`. The
execution tables are written as a whole; what other sessions do to them in between is an
operation `world` after the commit. -/
def flush (base image db : RunState) : RunState where
  run := mergeRun base.run image.run db.run
  nodes := db.nodes.map (mergeAt base image)
  release := mergeRelease base.release image.release db.release
  exec := writeBack base.exec image.exec db.exec

section Flush

variable {base image db : RunState} {k : String}

theorem mergeAt_key (base image : RunState) (cur : WorkflowNodeRun) :
    (mergeAt base image cur).nodeKey = cur.nodeKey := by
  rw [mergeAt]
  split <;> rfl

theorem keys_flush (base image db : RunState) : (flush base image db).keys = db.keys := by
  show (db.nodes.map (mergeAt base image)).map (·.nodeKey) = db.nodes.map (·.nodeKey)
  rw [List.map_map]
  exact List.map_congr_left fun n _ => mergeAt_key base image n

theorem node?_flush (base image db : RunState) (k : String) :
    (flush base image db).node? k = (db.node? k).map (mergeAt base image) :=
  Table.find_map (mergeAt_key base image)

theorem mergeAt_of_node? {b i n : WorkflowNodeRun} (hb : base.node? k = some b)
    (hi : image.node? k = some i) (hn : db.node? k = some n) :
    mergeAt base image n = mergeNode b i n := by
  have hkey : n.nodeKey = k := Table.key_of_find hn
  simp only [mergeAt, hkey, hb, hi]

theorem node?_flush_of_held {b i n : WorkflowNodeRun} (hb : base.node? k = some b)
    (hi : image.node? k = some i) (hn : db.node? k = some n) :
    (flush base image db).node? k = some (mergeNode b i n) := by
  rw [node?_flush, hn, Option.map_some, mergeAt_of_node? hb hi hn]

/-- A property of a row holds after a commit when it holds of the row and of every value that
the session writes into it. -/
theorem flush_keeps_row {p : WorkflowNodeRun → Prop} {n : WorkflowNodeRun}
    (hn : db.node? k = some n) (hp : p n)
    (hkeep : ∀ b i, base.node? k = some b → image.node? k = some i → p (mergeNode b i n)) :
    ∃ n', (flush base image db).node? k = some n' ∧ p n' := by
  refine ⟨mergeAt base image n, by rw [node?_flush, hn, Option.map_some], ?_⟩
  rcases hb : base.node? k with _ | b
  · have hkey : n.nodeKey = k := Table.key_of_find hn
    simpa only [mergeAt, hkey, hb] using hp
  · rcases hi : image.node? k with _ | i
    · have hkey : n.nodeKey = k := Table.key_of_find hn
      simpa only [mergeAt, hkey, hb, hi] using hp
    · rw [mergeAt_of_node? hb hi hn]
      exact hkeep b i hb hi

end Flush

/-! ### A session that nothing interleaves -/

/-- Two states with the same rows, up to the order of the node rows. -/
structure SameRows (s t : RunState) : Prop where
  run : s.run = t.run
  node? : ∀ k, s.node? k = t.node? k
  release : s.release = t.release
  exec : s.exec = t.exec

theorem SameRows.refl (s : RunState) : SameRows s s := ⟨rfl, fun _ => rfl, rfl, rfl⟩

theorem mergeRun_base (base image : WorkflowRun) : mergeRun base image base = image := by
  simp [mergeRun]

theorem mergeRelease_base (base image : Option Release) :
    mergeRelease base image base = image := by
  cases base <;> cases image <;> simp [mergeRelease]

theorem mergeNode_base {base image : WorkflowNodeRun} (h : image.nodeKey = base.nodeKey) :
    mergeNode base image base = image := by
  simp [mergeNode, ← h]

/-- Written on the rows it was computed from, an image is what the commit leaves. -/
theorem SameRows.flush {base image db : RunState} (hkeys : image.keys.Perm base.keys)
    (h : SameRows db base) : SameRows (flush base image db) image := by
  refine ⟨?_, ?_, ?_, ?_⟩
  · show mergeRun base.run image.run db.run = image.run
    rw [h.run, mergeRun_base]
  · intro k
    rcases hb : base.node? k with _ | b
    · have hnone : k ∉ image.keys := fun hk =>
        Table.find_eq_none_iff.mp hb (hkeys.subset hk)
      rw [node?_flush, h.node?, hb, Option.map_none]
      exact (Table.find_eq_none_iff.mpr hnone).symm
    · have hmem : k ∈ image.keys := by
        by_contra hk
        have := Table.find_eq_none_iff.mpr fun hc => hk (hkeys.symm.subset hc)
        exact absurd (hb.symm.trans this) (by simp)
      obtain ⟨i, hi⟩ := Table.exists_find_of_mem_keys hmem
      rw [node?_flush_of_held hb hi ((h.node? k).trans hb)]
      have hkey : i.nodeKey = b.nodeKey :=
        (Table.key_of_find hi).trans (Table.key_of_find hb).symm
      rw [mergeNode_base hkey]
      exact hi.symm
  · show mergeRelease base.release image.release db.release = image.release
    rw [h.release, mergeRelease_base]
  · show writeBack base.exec image.exec db.exec = image.exec
    rw [h.exec, Sessions.writeBack_base]

/-! ### The machine -/

/-- A callback request that has read its node and is about to update it. The output it will
write carries its payload. -/
structure OpenCallback where
  req : CallbackReq
  out : List (String × Json)
  carries : out.lookup "payload" = some req.payload

theorem carries_of_readCallback {s : RunState} {req : CallbackReq} {out : List (String × Json)}
    (h : readCallback s req = .ok out) : out.lookup "payload" = some req.payload := by
  simp only [readCallback, bind, Except.bind, throw, throwThe, MonadExceptOf.throw] at h
  split at h
  · simp at h
  split at h
  · simp at h
  split at h
  · simp at h
  split at h
  · simp at h
  split at h
  · simp at h
  obtain rfl := Except.ok.inj h
  exact Json.lookup_setField_self _ _ _

/-- The committed rows of a run with the open sessions on them, the callback requests between
their read and their update, and the node keys and payloads of the accepted ones. -/
structure Interleaved where
  store : Store RunState
  callbacks : List OpenCallback
  accepted : List (String × Json)

/-- What a session does: it reads (`open…`) or commits. -/
inductive SessionOp
  | openStep (env : StepEnv)
  | openCancel (env : ExecEnv) (g : Gate)
  | commit (i : ℕ)
  | openCallback (req : CallbackReq)
  | commitCallback (j : ℕ)
  | world (release : Option Release) (exec : ExecDb)

namespace Interleaved

/-- The rows of a new run, before any session. -/
def start (h : RunHeader) (d : Json) (release : Option Release) (exec : ExecDb) : Interleaved where
  store := ⟨startRun h d release exec, []⟩
  callbacks := []
  accepted := []

variable (s : Interleaved)

/-- The committed rows. -/
abbrev db : RunState := s.store.db

/-- The update of a callback request. A request that finds its node no longer waiting rolls
back and answers with a conflict; the other is accepted. -/
def updateWith (c : OpenCallback) (rest : List OpenCallback) : Interleaved :=
  match updateCallback s.db c.req.nodeKey c.out c.req.now with
  | none => { s with callbacks := rest }
  | some db =>
      { store := { s.store with db := db }
        callbacks := rest
        accepted := s.accepted ++ [(c.req.nodeKey, c.req.payload)] }

/-- One operation of one session, on a run of the definition `d`. A call that raises before
its first commit opens nothing. -/
def apply (d : Json) : SessionOp → Interleaved
  | .openStep env => { s with store := s.store.openSession (step env d s.db).commits }
  | .openCancel env g =>
      match cancelRun env g s.db with
      | .error _ => s
      | .ok image => { s with store := s.store.openSession [image] }
  | .commit i => { s with store := s.store.commit flush i }
  | .openCallback req =>
      match h : readCallback s.db req with
      | .error _ => s
      | .ok out => { s with callbacks := s.callbacks ++ [⟨req, out, carries_of_readCallback h⟩] }
  | .commitCallback j => s.callbacks[j]?.elim s fun c => s.updateWith c (s.callbacks.eraseIdx j)
  | .world release exec =>
      { s with store := { s.store with db := { s.db with release := release, exec := exec } } }

end Interleaved

/-- The state after a history of session operations on a new run. -/
abbrev interleave (d : Json) (s : Interleaved) (ops : List SessionOp) : Interleaved :=
  Machine.run (Interleaved.apply · d ·) s ops

variable {d : Json} {s : Interleaved}

theorem interleave_commits (d : Json) (s : Interleaved) (i n : ℕ) :
    interleave d s (List.replicate n (.commit i)) =
      { s with store := Machine.run (Store.commit · flush ·) s.store (List.replicate n i) } := by
  induction n generalizing s with
  | zero => rfl
  | succ n ih =>
      rw [List.replicate_succ, List.replicate_succ, interleave, Machine.run_cons, Machine.run_cons]
      exact ih _

theorem step_keys (env : StepEnv) (d : Json) (s : RunState) :
    EachWrite (fun base image => image.keys.Perm base.keys) s (step env d s).commits :=
  (Sessions.eachWrite_of_pairwise (step_tracks env d s)).imp fun _ _ hm => Micros.keys_perm hm

/-- **An undisturbed step.** A step that reads the rows and makes all its commits with nothing
in between leaves the rows of `stepState`. -/
theorem step_undisturbed (env : StepEnv) (d : Json) (s : Interleaved) :
    SameRows
      (interleave d s (.openStep env ::
        List.replicate (step env d s.db).commits.length (.commit s.store.sessions.length))).db
      (stepState env d s.db) := by
  rw [interleave, Machine.run_cons]
  have hopened : (s.apply d (.openStep env)).store.sessions[s.store.sessions.length]? =
      some ⟨s.db, (step env d s.db).commits⟩ := List.getElem?_concat_length
  have hcommits := interleave_commits d (s.apply d (.openStep env)) s.store.sessions.length
    (step env d s.db).commits.length
  rw [interleave] at hcommits
  rw [hcommits]
  exact Store.commits_undisturbed (R := SameRows) (fun _ _ _ => SameRows.flush)
    (step_keys env d s.db) hopened (SameRows.refl s.db)

end LarkPlat
