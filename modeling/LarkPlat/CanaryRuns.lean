import LarkPlat.Interleaving
import LarkPlat.StatusRequests

/-!
# Canary Releases and their Runs

`canary_release` moves its release to `canary` and starts a run for it. The commit that creates the
run also lets its driver go, and the number of the run reaches the release in a later commit. A step
of the engine that fails the run looks for the release of that number (`fail_release_for_run`) and
fails it along, in the same commit; where it finds none it says nothing.

The machine lets one canary, any number of steps and any number of `promote`, `fail`, `rollback` and
`cancel` requests be under way at once. A step reads its rows when it opens and the release when it
has failed the run; each commit writes back what its session has changed. Callbacks, approvals and
tasks change the node rows and the execution tables as they like. What `canary_release` does after
its last commit is to read.

## Main results

* `valid_apply`: what the operations keep of the rows and of the open sessions.
* `failed_run_fails_release_iff`: in every state in which the canary has made its last commit and
  its run has failed the release is no longer deployed, exactly if the link is not committed to a
  release whose run has failed, and no step that looked for the release before the link fails the
  run after it.
-/

namespace LarkPlat

open Machine Sessions

/-! ### The sessions -/

/-- A session of `step`: the rows that it last read or wrote, the images that it has still to
commit, and the release that it has looked up. -/
structure StepSession where
  base : RunState
  pending : List RunState
  seam : Option ReleaseRow
  deriving DecidableEq

/-- The commit of an image fails the run. -/
def FailsRun (base image : RunState) : Prop :=
  base.run.status ≠ .failed ∧ image.run.status = .failed
  deriving Decidable

/-- The requests on a release whose run may be under way. -/
inductive SideRequest
  | promote (g : Gate)
  | fail (g : Gate)
  | rollback (g : Gate)
  | cancel (g : Gate) (now : ℚ)

namespace SideRequest

/-- The row that a request commits. -/
def row : SideRequest → ReleaseRow → Except PyErr ReleaseRow
  | promote g => promoteRelease g
  | fail g => failRelease g
  | rollback g => rollbackRelease g
  | cancel g _ => cancelReleaseRow g

/-- A cancellation cancels the run of its release, unless that has ended. -/
def runRow : SideRequest → WorkflowRun → WorkflowRun
  | cancel _ now, run =>
      if run.status.terminal then run else { run with status := .cancelled, finishedAt := some now }
  | _, run => run

end SideRequest

/-- A request between its read and its commit. `run` is the run that a cancellation has loaded. -/
structure RequestSession where
  request : SideRequest
  base : ReleaseRow
  image : ReleaseRow
  run : Option WorkflowRun

/-- A cancellation loads the run to which the release that it read is linked. -/
def RequestSession.loads (ses : RequestSession) (runId : ℕ) : Bool :=
  match ses.request with
  | .cancel _ _ => decide (ses.base.workflowRunId = some runId ∧ runId ≠ 0)
  | _ => false

/-- The header of a release run. -/
def releaseHeader (h : RunHeader) : RunHeader :=
  { h with triggerType := .release }

/-! ### The machine -/

/-- The committed release and run with the open sessions on them. `canary` is the session of
`canary_release`, once it has read the release. -/
structure CanaryRace where
  release : ReleaseRow
  canary : Option (Sessions.Session ReleaseRow)
  run : Option RunState
  steps : List StepSession
  requests : List RequestSession

/-- What a session does. -/
inductive CanaryOp
  | openCanary (g : Gate) (addsWorkflow : Bool)
  | commitCanary (exec : ExecDb)
  | openStep (env : StepEnv)
  | lookUp (i : ℕ)
  | commitStep (i : ℕ)
  | openRequest (q : SideRequest)
  | loadRun (i : ℕ)
  | commitRequest (i : ℕ)
  | world (nodes : List WorkflowNodeRun) (exec : ExecDb)

namespace CanaryRace

/-- A release before its canary. -/
def start (release : ReleaseRow) : CanaryRace where
  release := release
  canary := none
  run := none
  steps := []
  requests := []

variable (h : RunHeader) (d : Json) (st : CanaryRace)

/-- The next commit of `canary_release`. The commit before the last one creates the run. -/
def commitCanary (exec : ExecDb) : CanaryRace :=
  match st.canary with
  | some ⟨base, image :: rest⟩ =>
      { st with
        release := base.flush image st.release
        canary := some ⟨image, rest⟩
        run :=
          if rest.length = 1 then
            some (startRun (releaseHeader h) releaseDefinition.json none exec)
          else st.run }
  | _ => st

/-- `fail_release_for_run` reads the release, in a step that is about to fail the run. -/
def lookUp (i : ℕ) : CanaryRace :=
  match st.steps[i]? with
  | some ⟨base, image :: rest, none⟩ =>
      if FailsRun base image then
        { st with steps := st.steps.set i ⟨base, image :: rest, some st.release⟩ }
      else st
  | _ => st

/-- The next commit of a step. One that fails the run comes after the look-up. -/
def commitStep (i : ℕ) : CanaryRace :=
  match st.steps[i]?, st.run with
  | some ⟨base, image :: rest, seam⟩, some rows =>
      let next : CanaryRace := { st with
        run := some (flush base image rows)
        steps := st.steps.set i ⟨image, rest, seam⟩ }
      if FailsRun base image then
        match seam with
        | none => st
        | some r => { next with release := r.flush (failReleaseRow image.run r).1 st.release }
      else next
  | _, _ => st

/-- A cancellation loads the run of its release. -/
def loadRun (i : ℕ) : CanaryRace :=
  match st.requests[i]?, st.run with
  | some ses, some rows =>
      if ses.run = none ∧ ses.loads rows.run.id then
        { st with requests := st.requests.set i { ses with run := some rows.run } }
      else st
  | _, _ => st

/-- The run after the commit of a request. -/
def requestedRun (ses : RequestSession) (rows : RunState) : RunState :=
  match ses.run with
  | none => rows
  | some run => { rows with run := mergeRun run (ses.request.runRow run) rows.run }

/-- The commit of a request. A cancellation has loaded the run by then. -/
def commitRequest (i : ℕ) : CanaryRace :=
  match st.requests[i]? with
  | none => st
  | some ses =>
      if ses.run = none ∧ st.run.any (fun rows => ses.loads rows.run.id) then st
      else
        { st with
          release := ses.base.flush ses.image st.release
          run := st.run.map (requestedRun ses)
          requests := st.requests.eraseIdx i }

/-- One operation of one session. The engine runs the definition `d`. -/
def apply : CanaryOp → CanaryRace
  | .openCanary g addsWorkflow =>
      match st.canary, canaryRelease g addsWorkflow h.id st.release with
      | none, .ok pending => { st with canary := some ⟨st.release, pending⟩ }
      | _, _ => st
  | .commitCanary exec => st.commitCanary h exec
  | .openStep env =>
      match st.run with
      | none => st
      | some rows => { st with steps := st.steps ++ [⟨rows, (step env d rows).commits, none⟩] }
  | .lookUp i => st.lookUp i
  | .commitStep i => st.commitStep i
  | .openRequest q =>
      match q.row st.release with
      | .error _ => st
      | .ok image => { st with requests := st.requests ++ [⟨q, st.release, image, none⟩] }
  | .loadRun i => st.loadRun i
  | .commitRequest i => st.commitRequest i
  | .world nodes exec =>
      { st with run := st.run.map fun rows => { rows with nodes := nodes, exec := exec } }

/-! ### A failed run and its release -/

/-- The release is being deployed. -/
def Underway (s : ReleaseStatus) : Prop :=
  s = .deploying ∨ s = .canary
  deriving Decidable

/-- The canary has made its last commit. -/
def Returned : Prop :=
  ∃ base, st.canary = some ⟨base, []⟩

/-- The run has failed. -/
def RunFailed : Prop :=
  ∃ rows, st.run = some rows ∧ rows.run.status = .failed

/-- A failed run has failed its release. -/
def ReleaseFollows : Prop :=
  st.Returned → st.RunFailed → ¬ Underway st.release.status

/-- The link is not committed to a release that is being deployed by a run that has failed, and a
step that fails the run after it has found the release by its link, unless that is deployed no
longer. -/
def LinkInTime : CanaryOp → Prop
  | .commitCanary _ => ∀ base link, st.canary = some ⟨base, [link]⟩ → st.RunFailed →
      ¬ Underway st.release.status
  | .commitStep i => ∀ base image rest r, st.steps[i]? = some ⟨base, image :: rest, some r⟩ →
      FailsRun base image → st.Returned →
        r.workflowRunId = some h.id ∨ ¬ Underway st.release.status
  | _ => True

/-! ### What the operations keep -/

/-- The run row is that of the release run. -/
def OfRelease (h : RunHeader) (run : WorkflowRun) : Prop :=
  run.id = h.id ∧ run.triggerType = .release

/-- The committed rows and the open sessions fit together. The canary has written its status before
the run exists, so that its last commit leaves it. A step that found the release deployed no longer
finds it so when it commits. -/
structure Valid (h : RunHeader) (st : CanaryRace) : Prop where
  unread : st.canary = none → st.run = none
  images : ∀ ses, st.canary = some ses → ∀ i ∈ ses.pending, i.status = .canary
  started : ∀ ses, st.canary = some ses → st.run ≠ none →
    ses.base.status = .canary ∧ ses.pending.length ≤ 1
  unstarted : st.run = none → st.steps = []
  rows : ∀ rows, st.run = some rows → OfRelease h rows.run
  sessions : ∀ ses ∈ st.steps, OfRelease h ses.base.run ∧ ∀ i ∈ ses.pending, OfRelease h i.run
  seams : ∀ ses ∈ st.steps, ∀ r, ses.seam = some r → ¬ Underway r.status →
    ¬ Underway st.release.status
  requests : ∀ ses ∈ st.requests, ses.image.status ≠ ses.base.status ∧ ¬ Underway ses.image.status
  loaded : ∀ ses ∈ st.requests, ∀ run, ses.run = some run → OfRelease h run

variable {h d st} {release : ReleaseRow}

theorem valid_start (h : RunHeader) (release : ReleaseRow) : Valid h (start release) where
  unread _ := rfl
  images _ hses := by cases hses
  started _ hses := by cases hses
  unstarted _ := rfl
  rows _ hrows := by cases hrows
  sessions _ hses := absurd hses List.not_mem_nil
  seams _ hses := absurd hses List.not_mem_nil
  requests _ hses := absurd hses List.not_mem_nil
  loaded _ hses := absurd hses List.not_mem_nil

theorem OfRelease.mergeRun {base image cur : WorkflowRun} (himage : OfRelease h image)
    (hcur : OfRelease h cur) :
    OfRelease h (LarkPlat.mergeRun base image cur) := by
  constructor
  · exact writeBack_keeps (P := (· = h.id)) (.inr himage.1) hcur.1
  · exact writeBack_keeps (P := (· = TriggerType.release)) (.inr himage.2) hcur.2

theorem OfRelease.runRow {run : WorkflowRun} (hrun : OfRelease h run) (q : SideRequest) :
    OfRelease h (q.runRow run) := by
  cases q with
  | cancel g now =>
      rw [SideRequest.runRow]
      split_ifs
      · exact hrun
      · exact hrun
  | promote g => exact hrun
  | fail g => exact hrun
  | rollback g => exact hrun

theorem ofRelease_micros {s s' : RunState} (hm : Micros d s s')
    (hopen : s'.run.status.terminal = false) :
    s.run.status.terminal = false ∧ (OfRelease h s.run ↔ OfRelease h s'.run) := by
  induction hm with
  | refl => exact ⟨hopen, Iff.rfl⟩
  | @tail b c _ hm ih =>
      have hb : b.run.status.terminal = false ∧ (OfRelease h b.run ↔ OfRelease h c.run) := by
        cases hm with
        | start hp =>
            rw [hp]
            exact ⟨rfl, Iff.rfl⟩
        | finalise hrun hne hall hst =>
            exfalso
            have hterm : (finalStatus b).terminal = true := by
              rw [finalStatus]
              split_ifs <;> rfl
            rw [← hst] at hterm
            exact absurd (hterm.symm.trans hopen) (by decide)
        | reorder hp => exact ⟨hopen, Iff.rfl⟩
        | activate hn hp hv => exact ⟨hopen, Iff.rfl⟩
        | skip hn hp hv => exact ⟨hopen, Iff.rfl⟩
        | advance hn hf hsame ht => exact ⟨hopen, Iff.rfl⟩
        | exec => exact ⟨hopen, Iff.rfl⟩
      exact ⟨(ih hb.1).1, (ih hb.1).2.trans hb.2⟩

theorem ofRelease_beginStep {env : StepEnv} {s : RunState} :
    OfRelease h (beginStep env s).cur.run ↔ OfRelease h s.run := by
  rw [beginStep]
  dsimp only
  split_ifs <;> rfl

theorem ofRelease_finalise {env : StepEnv} {w : Work} :
    OfRelease h (finalise env w).cur.run ↔ OfRelease h w.cur.run := by
  rw [finalise]
  dsimp only
  split_ifs
  · split <;> rfl
  · rfl

theorem ofRelease_step {env : StepEnv} {s : RunState} (hs : OfRelease h s.run) :
    ∀ i ∈ (step env d s).commits, OfRelease h i.run := by
  intro i hi
  by_cases hterm : s.run.status.terminal = true
  · rw [step, if_pos hterm] at hi
    exact absurd hi List.not_mem_nil
  have hopen : s.run.status.terminal = false := by simpa using hterm
  obtain ⟨w, hev, hcommits⟩ := step_evolves env d hopen
  have htracks : Tracks d s w := hev.tracks beginStep_tracks
  have hrun : w.cur.run.status.terminal = false := by
    rw [hev.run]
    exact beginStep_open hopen
  have hw : OfRelease h w.cur.run := by
    rw [hev.run]
    exact ofRelease_beginStep.mpr hs
  have hbody : ∀ i ∈ w.commits, OfRelease h i.run := fun i hi =>
    (ofRelease_micros (htracks.cur i (List.mem_cons_of_mem s hi)) hrun).2.mpr hw
  rcases hcommits with hc | hc <;> rw [hc] at hi
  · exact hbody i hi
  · have hfinal : (finalise env w).commits = w.commits := by
      rw [finalise]
      dsimp only
      split_ifs <;> rfl
    rcases List.mem_append.mp hi with hi | hi
    · exact hbody i (hfinal ▸ hi)
    · rw [List.mem_singleton.mp hi]
      exact ofRelease_finalise.mpr hw

/-- What `canary_release` has to commit once it has read the release. -/
theorem canaryRelease_images {g : Gate} {addsWorkflow : Bool} {runId : ℕ} {r : ReleaseRow}
    {pending : List ReleaseRow} (hp : canaryRelease g addsWorkflow runId r = .ok pending) :
    ∀ i ∈ pending, i.status = .canary := by
  obtain ⟨image, himage, hp⟩ := bind_eq_ok.mp hp
  have hstatus : image.status = .canary := by
    obtain ⟨-, -, himage⟩ := bind_eq_ok.mp himage
    rw [applyReleaseTransition] at himage
    split_ifs at himage
    rw [← Except.ok.inj himage]
    rfl
  rw [← Except.ok.inj hp]
  intro i hi
  cases addsWorkflow with
  | false =>
      rcases List.mem_cons.mp hi with rfl | hi
      · exact hstatus
      · rw [List.mem_singleton.mp hi]
        exact hstatus
  | true =>
      rcases List.mem_cons.mp hi with rfl | hi
      · exact hstatus
      rcases List.mem_cons.mp hi with rfl | hi
      · exact hstatus
      · rw [List.mem_singleton.mp hi]
        exact hstatus

theorem SideRequest.row_settles {q : SideRequest} {r image : ReleaseRow}
    (hrow : q.row r = .ok image) :
    image.status ≠ r.status ∧ ¬ Underway image.status := by
  have route {g : Gate} {action : ReleaseAction} {perm : String} {image : ReleaseRow}
      (ht : releaseTransition g action perm r = .ok image)
      (hsource : releaseTransitions.target action ∉ releaseTransitions.allowedFrom action)
      (htarget : ¬ Underway (releaseTransitions.target action)) :
      image.status ≠ r.status ∧ ¬ Underway image.status := by
    obtain ⟨-, -, ht⟩ := bind_eq_ok.mp ht
    rw [applyReleaseTransition] at ht
    split_ifs at ht with hallowed
    rw [← Except.ok.inj ht]
    refine ⟨fun heq => hsource ?_, htarget⟩
    have htarget' : releaseTransitions.target action = r.status := heq
    rwa [htarget']
  cases q with
  | promote g => exact route hrow (by decide) (by simp [Underway, releaseTransitions])
  | fail g => exact route hrow (by decide) (by simp [Underway, releaseTransitions])
  | cancel g now => exact route hrow (by decide) (by simp [Underway, releaseTransitions])
  | rollback g =>
      obtain ⟨moved, hmoved, himage⟩ := bind_eq_ok.mp hrow
      have hsettles := route hmoved (by decide) (by simp [Underway, releaseTransitions])
      rw [← Except.ok.inj himage]
      exact hsettles

/-! ### Commits -/

theorem flush_status_same {base image cur : ReleaseRow} (hsame : image.status = base.status) :
    (base.flush image cur).status = cur.status :=
  if_pos hsame

theorem flush_status_ne {base image cur : ReleaseRow} (hne : image.status ≠ base.status) :
    (base.flush image cur).status = image.status :=
  if_neg hne

/-- What a step that fails the run does to the release that it has looked up. -/
theorem seam_status {run : WorkflowRun} (hrun : OfRelease h run) (r cur : ReleaseRow) :
    (r.flush (failReleaseRow run r).1 cur).status =
      if r.workflowRunId = some h.id ∧ Underway r.status then .failed else cur.status := by
  rw [failReleaseRow, if_neg (not_not.mpr hrun.2), hrun.1]
  have hallowed : r.status ∈ releaseTransitions.allowedFrom .fail ↔ Underway r.status := by
    simp [releaseTransitions, Underway]
  by_cases hlink : r.workflowRunId = some h.id
  · rw [if_neg (not_not.mpr hlink)]
    by_cases hunder : Underway r.status
    · rw [if_pos (hallowed.mpr hunder), if_pos ⟨hlink, hunder⟩]
      refine flush_status_ne fun heq => ?_
      have hfailed : ReleaseStatus.failed = r.status := heq
      rw [← hfailed] at hunder
      exact absurd hunder (by decide)
    · rw [if_neg (hallowed.not.mpr hunder), if_neg fun hc => hunder hc.2]
      exact flush_status_same rfl
  · rw [if_pos hlink, if_neg fun hc => hlink hc.1]
    exact flush_status_same rfl

/-- A step commits a release that is deployed no longer, or leaves its status. -/
theorem seam_settles {run : WorkflowRun} (hrun : OfRelease h run) {r cur : ReleaseRow}
    (hcur : ¬ Underway cur.status) :
    ¬ Underway (r.flush (failReleaseRow run r).1 cur).status := by
  rw [seam_status hrun]
  split_ifs
  · decide
  · exact hcur

theorem Valid.of_steps (hv : Valid h st) {steps : List StepSession} {rows : Option RunState}
    {cur : ReleaseRow} (hrun : rows = none ↔ st.run = none)
    (hrows : ∀ r, rows = some r → OfRelease h r.run)
    (hsteps : ∀ ses ∈ steps, (OfRelease h ses.base.run ∧ ∀ i ∈ ses.pending, OfRelease h i.run) ∧
      ∀ r, ses.seam = some r → ¬ Underway r.status → ¬ Underway cur.status)
    (hunstarted : rows = none → steps = []) :
    Valid h { st with run := rows, release := cur, steps := steps } where
  unread hread := hrun.mpr (hv.unread hread)
  images := hv.images
  started ses hses hne := hv.started ses hses fun hc => hne (hrun.mpr hc)
  unstarted := hunstarted
  rows := hrows
  sessions ses hses := (hsteps ses hses).1
  seams ses hses := (hsteps ses hses).2
  requests := hv.requests
  loaded := hv.loaded

theorem Valid.openStep (hv : Valid h st) (env : StepEnv) :
    Valid h (st.apply h d (.openStep env)) := by
  rw [apply.eq_def]
  dsimp only
  rcases hrun : st.run with _ | rows
  · exact hv
  dsimp only
  have hrows := hv.rows rows hrun
  refine hv.of_steps (by simp [hrun]) (fun r hr => hv.rows r (hrun.trans hr)) (fun ses hses => ?_)
    (fun hnone => ?_)
  · rcases List.mem_append.mp hses with hses | hses
    · exact ⟨hv.sessions ses hses, hv.seams ses hses⟩
    · rw [List.mem_singleton.mp hses]
      exact ⟨⟨hrows, ofRelease_step hrows⟩, fun r hr => by cases hr⟩
  · cases hnone

theorem Valid.lookUp (hv : Valid h st) (i : ℕ) : Valid h (st.lookUp i) := by
  rw [CanaryRace.lookUp]
  split
  swap
  · exact hv
  rename_i base image rest hi
  have hold := hv.sessions _ (List.mem_of_getElem? hi)
  split_ifs
  swap
  · exact hv
  refine hv.of_steps Iff.rfl hv.rows (fun ses hses => ?_) (fun hnone => ?_)
  · rcases List.mem_or_eq_of_mem_set hses with hses | rfl
    · exact ⟨hv.sessions ses hses, hv.seams ses hses⟩
    · refine ⟨hold, fun r hr hsettled => ?_⟩
      rwa [Option.some.inj hr]
  · rw [hv.unstarted hnone] at hi
    cases hi

theorem Valid.commitStep (hv : Valid h st) (i : ℕ) : Valid h (st.commitStep i) := by
  rw [CanaryRace.commitStep]
  split
  swap
  · exact hv
  rename_i base image rest seam rows hi hrun
  have hmem := List.mem_of_getElem? hi
  obtain ⟨-, hpending⟩ := hv.sessions _ hmem
  have himage := hpending image List.mem_cons_self
  have hrest : OfRelease h image.run ∧ ∀ i ∈ rest, OfRelease h i.run :=
    ⟨himage, fun i hi => hpending i (List.mem_cons_of_mem image hi)⟩
  have hflush : ∀ r, some (flush base image rows) = some r → OfRelease h r.run := by
    intro r hr
    rw [← Option.some.inj hr]
    exact himage.mergeRun (hv.rows rows hrun)
  have hsome : some (flush base image rows) = none ↔ st.run = none := by simp [hrun]
  -- The other sessions, and the rest of this one, next to a release that is as settled as before.
  have hsteps {cur : ReleaseRow} (hcur : ¬ Underway st.release.status → ¬ Underway cur.status) :
      ∀ ses ∈ st.steps.set i ⟨image, rest, seam⟩,
        (OfRelease h ses.base.run ∧ ∀ i ∈ ses.pending, OfRelease h i.run) ∧
          ∀ r, ses.seam = some r → ¬ Underway r.status → ¬ Underway cur.status := by
    intro ses hses
    rcases List.mem_or_eq_of_mem_set hses with hses | rfl
    · exact ⟨hv.sessions ses hses, fun r hr hs => hcur (hv.seams ses hses r hr hs)⟩
    · exact ⟨hrest, fun r hr hs => hcur (hv.seams _ hmem r hr hs)⟩
  dsimp only
  split_ifs with hfails
  · rcases seam with _ | r
    · exact hv
    · exact hv.of_steps hsome hflush (hsteps (seam_settles himage)) (fun hnone => by cases hnone)
  · exact hv.of_steps hsome hflush (hsteps id) (fun hnone => by cases hnone)

theorem Valid.of_requests (hv : Valid h st) {requests : List RequestSession}
    (hrequests : ∀ ses ∈ requests,
      (ses.image.status ≠ ses.base.status ∧ ¬ Underway ses.image.status) ∧
        ∀ run, ses.run = some run → OfRelease h run) :
    Valid h { st with requests := requests } where
  unread := hv.unread
  images := hv.images
  started := hv.started
  unstarted := hv.unstarted
  rows := hv.rows
  sessions := hv.sessions
  seams := hv.seams
  requests ses hses := (hrequests ses hses).1
  loaded ses hses := (hrequests ses hses).2

theorem Valid.openRequest (hv : Valid h st) (q : SideRequest) :
    Valid h (st.apply h d (.openRequest q)) := by
  rw [apply.eq_def]
  dsimp only
  rcases hrow : q.row st.release with err | image
  · exact hv
  refine hv.of_requests fun ses hses => ?_
  rcases List.mem_append.mp hses with hses | hses
  · exact ⟨hv.requests ses hses, hv.loaded ses hses⟩
  · rw [List.mem_singleton.mp hses]
    exact ⟨SideRequest.row_settles hrow, fun run hr => by cases hr⟩

theorem Valid.loadRun (hv : Valid h st) (i : ℕ) : Valid h (st.loadRun i) := by
  rw [CanaryRace.loadRun]
  split
  swap
  · exact hv
  rename_i ses rows hi hrun
  split_ifs
  swap
  · exact hv
  refine hv.of_requests fun ses' hses => ?_
  rcases List.mem_or_eq_of_mem_set hses with hses | rfl
  · exact ⟨hv.requests ses' hses, hv.loaded ses' hses⟩
  · refine ⟨hv.requests ses (List.mem_of_getElem? hi), fun run hr => ?_⟩
    rw [← Option.some.inj hr]
    exact hv.rows rows hrun

theorem ofRelease_requestedRun {ses : RequestSession} {rows : RunState}
    (hloaded : ∀ run, ses.run = some run → OfRelease h run) (hrows : OfRelease h rows.run) :
    OfRelease h (requestedRun ses rows).run := by
  rw [requestedRun]
  rcases hrun : ses.run with _ | run
  · exact hrows
  · exact ((hloaded run hrun).runRow ses.request).mergeRun hrows

theorem Valid.commitRequest (hv : Valid h st) (i : ℕ) : Valid h (st.commitRequest i) := by
  rw [CanaryRace.commitRequest]
  rcases hi : st.requests[i]? with _ | ses
  · exact hv
  dsimp only
  split_ifs
  · exact hv
  have hmem := List.mem_of_getElem? hi
  obtain ⟨hne, hsettled⟩ := hv.requests ses hmem
  have hstatus : ¬ Underway (ses.base.flush ses.image st.release).status := by
    rw [flush_status_ne hne]
    exact hsettled
  have hrun : st.run.map (requestedRun ses) = none ↔ st.run = none := Option.map_eq_none_iff
  have hvalid : Valid h { st with
      run := st.run.map (requestedRun ses)
      release := ses.base.flush ses.image st.release
      steps := st.steps } := by
    refine hv.of_steps hrun (fun r hr => ?_) (fun ses' hses => ?_) fun hnone => ?_
    · obtain ⟨rows, hrows, rfl⟩ := Option.map_eq_some_iff.mp hr
      exact ofRelease_requestedRun (hv.loaded ses hmem) (hv.rows rows hrows)
    · exact ⟨hv.sessions ses' hses, fun _ _ _ => hstatus⟩
    · exact hv.unstarted (hrun.mp hnone)
  exact hvalid.of_requests fun ses' hses =>
    ⟨hv.requests ses' (List.mem_of_mem_eraseIdx hses),
      hv.loaded ses' (List.mem_of_mem_eraseIdx hses)⟩

theorem Valid.openCanary (hv : Valid h st) (g : Gate) (addsWorkflow : Bool) :
    Valid h (st.apply h d (.openCanary g addsWorkflow)) := by
  rw [apply.eq_def]
  dsimp only
  split
  swap
  · exact hv
  rename_i pending hcanary hpending
  have hrun := hv.unread hcanary
  exact {
    unread := fun hc => by cases hc
    images := fun ses hses => by
      rw [← Option.some.inj hses]
      exact canaryRelease_images hpending
    started := fun ses _ hne => absurd hrun hne
    unstarted := hv.unstarted
    rows := hv.rows
    sessions := hv.sessions
    seams := hv.seams
    requests := hv.requests
    loaded := hv.loaded }

/-- The canary's commits. The one that creates the run comes when no step is open, and the one after
it leaves the status. -/
theorem Valid.commitCanary (hv : Valid h st) (exec : ExecDb) :
    Valid h (st.commitCanary h exec) := by
  rw [CanaryRace.commitCanary]
  split
  swap
  · exact hv
  rename_i base image rest hcanary
  have himages := hv.images _ hcanary
  have hcan : image.status = .canary := himages image List.mem_cons_self
  have himages' : ∀ i ∈ rest, i.status = .canary := fun i hi =>
    himages i (List.mem_cons_of_mem image hi)
  by_cases hrun : st.run = none
  · have hsteps := hv.unstarted hrun
    refine ⟨fun hc => (by cases hc), fun ses hses => ?_, fun ses hses hne => ?_, fun _ => hsteps,
      fun rows hrows => ?_, fun ses hses => ?_, fun ses hses => ?_, hv.requests, hv.loaded⟩
    · rwa [← Option.some.inj hses]
    · rw [← Option.some.inj hses]
      refine ⟨hcan, ?_⟩
      by_contra hlen
      refine hne ?_
      rw [← hrun]
      exact if_neg fun hone => hlen hone.le
    · dsimp only at hrows
      split_ifs at hrows
      · rw [← Option.some.inj hrows]
        exact ⟨rfl, rfl⟩
      · exact hv.rows rows hrows
    · rw [hsteps] at hses
      exact absurd hses List.not_mem_nil
    · rw [hsteps] at hses
      exact absurd hses List.not_mem_nil
  · obtain ⟨hbase, hlen⟩ := hv.started _ hcanary hrun
    have hrest : rest = [] :=
      List.length_eq_zero_iff.mp (Nat.le_zero.mp (Nat.le_of_succ_le_succ hlen))
    have hstatus : (base.flush image st.release).status = st.release.status :=
      flush_status_same (hcan.trans hbase.symm)
    rw [hrest, if_neg (by decide)]
    refine ⟨fun hc => (by cases hc), fun ses hses => ?_, fun ses hses _ => ?_, hv.unstarted,
      hv.rows, hv.sessions, fun ses hses r hr hs => ?_, hv.requests, hv.loaded⟩
    · rw [← Option.some.inj hses]
      exact fun i hi => absurd hi List.not_mem_nil
    · rw [← Option.some.inj hses]
      exact ⟨hcan, Nat.zero_le 1⟩
    · dsimp only
      rw [hstatus]
      exact hv.seams ses hses r hr hs

theorem Valid.world (hv : Valid h st) (nodes : List WorkflowNodeRun) (exec : ExecDb) :
    Valid h (st.apply h d (.world nodes exec)) := by
  have hrun : (st.run.map fun rows => { rows with nodes := nodes, exec := exec }) = none ↔
      st.run = none := Option.map_eq_none_iff
  rw [apply.eq_def]
  refine hv.of_steps hrun (fun r hr => ?_)
    (fun ses hses => ⟨hv.sessions ses hses, hv.seams ses hses⟩)
    fun hnone => hv.unstarted (hrun.mp hnone)
  obtain ⟨rows, hrows, rfl⟩ := Option.map_eq_some_iff.mp hr
  exact hv.rows rows hrows

/-- **What the operations keep.** -/
theorem valid_apply (hv : Valid h st) (op : CanaryOp) : Valid h (st.apply h d op) := by
  cases op with
  | openCanary g addsWorkflow => exact hv.openCanary g addsWorkflow
  | commitCanary exec => exact hv.commitCanary exec
  | openStep env => exact hv.openStep env
  | lookUp i => exact hv.lookUp i
  | commitStep i => exact hv.commitStep i
  | openRequest q => exact hv.openRequest q
  | loadRun i => exact hv.loadRun i
  | commitRequest i => exact hv.commitRequest i
  | world nodes exec => exact hv.world nodes exec

/-! ### What each commit does to a failed run and its release -/

/-- An operation that changes neither the release nor the canary, and fails no run. -/
theorem ReleaseFollows.of_same (hf : st.ReleaseFollows) {st' : CanaryRace}
    (hrelease : st'.release = st.release) (hcanary : st'.canary = st.canary)
    (hrun : st'.RunFailed → st.RunFailed) : st'.ReleaseFollows := by
  rintro ⟨base, hbase⟩ hfailed
  rw [hrelease]
  exact hf ⟨base, hcanary ▸ hbase⟩ (hrun hfailed)

theorem runFailed_world {nodes : List WorkflowNodeRun} {exec : ExecDb}
    (hfailed : (st.apply h d (.world nodes exec)).RunFailed) : st.RunFailed := by
  obtain ⟨rows, hrows, hst⟩ := hfailed
  obtain ⟨cur, hcur, rfl⟩ := Option.map_eq_some_iff.mp hrows
  exact ⟨cur, hcur, hst⟩

theorem follows_commitCanary (hv : Valid h st) (hf : st.ReleaseFollows) (exec : ExecDb) :
    (st.commitCanary h exec).ReleaseFollows ↔ st.LinkInTime h (.commitCanary exec) := by
  rw [CanaryRace.commitCanary, LinkInTime]
  rcases hcanary : st.canary with _ | ⟨base, _ | ⟨image, rest⟩⟩
  · exact iff_of_true hf fun base link hc => by cases hc
  · exact iff_of_true hf fun base link hc => by cases hc
  dsimp only
  rcases rest with _ | ⟨link, rest⟩
  · -- The link.
    have hsame (hrun : st.RunFailed) :
        (base.flush image st.release).status = st.release.status := by
      obtain ⟨rows, hrows, -⟩ := hrun
      have hbase := (hv.started _ hcanary (by rw [hrows]; exact Option.some_ne_none _)).1
      exact flush_status_same ((hv.images _ hcanary image List.mem_cons_self).trans hbase.symm)
    constructor
    · intro hfollows base' link' hc hrun
      have hunder := hfollows ⟨image, rfl⟩ hrun
      rwa [← hsame hrun]
    · intro hok _ hrun
      have hrun' : st.RunFailed := hrun
      dsimp only
      rw [hsame hrun']
      exact hok base image rfl hrun'
  · -- The canary has not returned.
    refine iff_of_true ?_ fun base' link' hc => by cases hc
    rintro ⟨base', hc⟩
    cases hc

theorem runFailed_of_flush {base image rows : RunState} (hrows : st.run = some rows)
    (hfails : ¬ FailsRun base image) (hst : (flush base image rows).run.status = .failed) :
    st.RunFailed := by
  refine ⟨rows, hrows, ?_⟩
  have hwrite : writeBack base.run.status image.run.status rows.run.status = .failed := hst
  rw [writeBack] at hwrite
  split_ifs at hwrite with hsame
  · exact hwrite
  · exact absurd ⟨fun hb => hsame (hwrite.trans hb.symm), hwrite⟩ hfails

/-- A step that fails the run fails the release that it has found by its link. -/
theorem follows_commitStep (hv : Valid h st) (hf : st.ReleaseFollows) (i : ℕ) :
    (st.commitStep i).ReleaseFollows ↔ st.LinkInTime h (.commitStep i) := by
  rw [CanaryRace.commitStep, LinkInTime]
  rcases hi : st.steps[i]? with _ | ⟨base, _ | ⟨image, rest⟩, seam⟩
  · exact iff_of_true hf fun _ _ _ _ hc => by cases hc
  · exact iff_of_true hf fun _ _ _ _ hc => by cases hc
  have hmem := List.mem_of_getElem? hi
  have himage := (hv.sessions _ hmem).2 image List.mem_cons_self
  rcases hrun : st.run with _ | rows
  · rw [hv.unstarted hrun] at hmem
    exact absurd hmem List.not_mem_nil
  dsimp only
  split_ifs with hfails
  swap
  · refine iff_of_true (hf.of_same rfl rfl ?_) fun base' image' rest' r hc hfails' => ?_
    · rintro ⟨cur, hcur, hst⟩
      rw [← Option.some.inj hcur] at hst
      exact runFailed_of_flush hrun hfails hst
    · obtain ⟨rfl, hpending, -⟩ := StepSession.mk.inj (Option.some.inj hc)
      obtain ⟨rfl, -⟩ := List.cons.inj hpending
      exact absurd hfails' hfails
  rcases seam with _ | r
  · exact iff_of_true (hf.of_same rfl rfl id) fun _ _ _ _ hc => by cases hc
  -- The run fails, and the release is written as it was found.
  have hfailed : ∀ release, RunFailed { st with
      run := some (flush base image rows)
      steps := st.steps.set i ⟨image, rest, some r⟩
      release := release } := by
    intro release
    refine ⟨_, rfl, ?_⟩
    refine (if_neg fun heq => hfails.1 ?_).trans hfails.2
    exact heq.symm.trans hfails.2
  constructor
  · intro hfollows base' image' rest' r' hc _ hreturned
    obtain ⟨rfl, -, hr⟩ := StepSession.mk.inj (Option.some.inj hc)
    obtain rfl := Option.some.inj hr
    have hunder := hfollows hreturned (hfailed _)
    rw [seam_status himage] at hunder
    split_ifs at hunder with hfound
    · exact .inl hfound.1
    · exact .inr hunder
  · intro hok hreturned _
    dsimp only
    rw [seam_status himage]
    rcases hok base image rest r rfl hfails hreturned with hlink | hsettled
    · by_cases hunder : Underway r.status
      · rw [if_pos ⟨hlink, hunder⟩]
        decide
      · rw [if_neg fun hc => hunder hc.2]
        exact hv.seams _ hmem r rfl hunder
    · split_ifs
      · decide
      · exact hsettled

/-- A request takes the release out of the deployment, whatever the run does. -/
theorem follows_commitRequest (hv : Valid h st) (hf : st.ReleaseFollows) (i : ℕ) :
    (st.commitRequest i).ReleaseFollows := by
  rw [CanaryRace.commitRequest]
  rcases hi : st.requests[i]? with _ | ses
  · exact hf
  dsimp only
  split_ifs
  · exact hf
  · obtain ⟨hne, hsettled⟩ := hv.requests ses (List.mem_of_getElem? hi)
    intro _ _
    dsimp only
    rw [flush_status_ne hne]
    exact hsettled

/-- **One operation.** -/
theorem follows_apply (hv : Valid h st) (hf : st.ReleaseFollows) (op : CanaryOp) :
    (st.apply h d op).ReleaseFollows ↔ st.LinkInTime h op := by
  cases op with
  | openCanary g addsWorkflow =>
      refine iff_of_true ?_ trivial
      rw [apply.eq_def]
      dsimp only
      split
      · rename_i hcanary _
        rintro _ ⟨rows, hrows, -⟩
        rw [hv.unread hcanary] at hrows
        cases hrows
      · exact hf
  | commitCanary exec => exact follows_commitCanary hv hf exec
  | openStep env =>
      refine iff_of_true ?_ trivial
      rw [apply.eq_def]
      dsimp only
      split
      · exact hf
      · exact hf.of_same rfl rfl id
  | lookUp i =>
      refine iff_of_true ?_ trivial
      show (st.lookUp i).ReleaseFollows
      rw [CanaryRace.lookUp]
      split
      · split_ifs
        · exact hf.of_same rfl rfl id
        · exact hf
      · exact hf
  | commitStep i => exact follows_commitStep hv hf i
  | openRequest q =>
      refine iff_of_true ?_ trivial
      rw [apply.eq_def]
      dsimp only
      split
      · exact hf
      · exact hf.of_same rfl rfl id
  | loadRun i =>
      refine iff_of_true ?_ trivial
      show (st.loadRun i).ReleaseFollows
      rw [CanaryRace.loadRun]
      split
      · split_ifs
        · exact hf.of_same rfl rfl id
        · exact hf
      · exact hf
  | commitRequest i => exact iff_of_true (follows_commitRequest hv hf i) trivial
  | world nodes exec => exact iff_of_true (hf.of_same rfl rfl runFailed_world) trivial

/-- **A failed run and its release.** In every state of every interleaving of a canary with the
steps of its run and with requests on its release, a run that has failed after the canary returned
has failed its release, exactly if the canary never links its run to a release that is being
deployed by a run that has failed, and each step that fails the run after that has found the release
by its link, unless that is deployed no longer. -/
theorem failed_run_fails_release_iff (h : RunHeader) (d : Json) (release : ReleaseRow)
    (ops : List CanaryOp) :
    (∀ pre, pre <+: ops → (Machine.run (apply h d) (start release) pre).ReleaseFollows) ↔
      Meets (apply h d) (LinkInTime h) (start release) ops := by
  refine always_iff_meets (P := Valid h) (fun st op hv => valid_apply hv op)
    (fun st op hv hf => follows_apply hv hf op) (valid_start h release) ?_ ops
  rintro ⟨base, hbase⟩
  cases hbase

/-- A new version of the release workflow, in which the callback does not wait. -/
def hastyDefinition : Definition where
  json := .obj [("nodes", .arr [
    .obj [("key", .str "deploy"), ("type", .str "callback"),
      ("config", .obj [("timeout_sec", .int 0)]),
      ("depends_on", .arr []), ("on_success", .arr []), ("on_failure", .arr [])]])]
  valid := by decide +kernel

/-- The canary starts its run; two steps fail it; then the canary links it to the release. -/
def failsBeforeLink : List CanaryOp :=
  [.openCanary ⟨true, true⟩ false, .commitCanary emptyExec,
    .openStep (StepEnv.atTime 0), .commitStep 0,
    .openStep (StepEnv.atTime 1), .lookUp 1, .commitStep 1,
    .commitCanary emptyExec]

/-- The release stays in the canary stage of a run that has failed. -/
theorem canary_without_run :
    ¬ ∀ pre, pre <+: failsBeforeLink →
      (Machine.run (apply manualHeader hastyDefinition.json) (start ⟨⟨4, .deploying, none⟩, none⟩)
        pre).ReleaseFollows := by
  intro h
  have hlast := h failsBeforeLink (List.prefix_refl _)
  set st := Machine.run (apply manualHeader hastyDefinition.json)
    (start ⟨⟨4, .deploying, none⟩, none⟩)
    failsBeforeLink with hst
  have hcanary : st.canary.map (·.pending) = some [] := by
    rw [hst]
    decide +kernel
  have hrun : st.run.map (·.run.status) = some .failed := by
    rw [hst]
    decide +kernel
  have hunder : Underway st.release.status := by
    rw [hst]
    decide +kernel
  obtain ⟨⟨base, pending⟩, hses, rfl⟩ := Option.map_eq_some_iff.mp hcanary
  obtain ⟨rows, hrows, hfailed⟩ := Option.map_eq_some_iff.mp hrun
  exact hlast ⟨base, hses⟩ ⟨rows, hrows, hfailed⟩ hunder

end CanaryRace

end LarkPlat
