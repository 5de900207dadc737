import LarkPlat.ResumeOffsets

/-!
# Results of Verified Transfers

The agent reports the end of a transfer in a `file_result` frame. If the task verifies and the
package has one file, the checksum in the frame is compared with the recorded one, unless one of the
two is missing; then the status of the frame is taken as it is.

## Main results

* `verified_iff`: a host succeeds with the recorded checksum only, in exactly the runs in which each
  frame that reports a success carries a checksum, and there is one to compare it with.
* `success_unchecked`: a frame without a checksum.
-/

namespace LarkPlat.Transfers

open Outcomes

/-! ### Frames -/

/-- A `file_result` frame. No text but the empty one is made empty by `str.lower`. -/
structure ResultFrame where
  env : FrameEnv
  data : Json
  lower_eq : ∀ s, env.lower s = "" ↔ s = ""

/-- The tables after a frame. -/
def ResultFrame.apply (st : TransferStore) (f : ResultFrame) : TransferStore :=
  after (transferResult f.env f.data) st

/-- The host is one of a push task that verifies, and the item is the only file of its package. -/
structure Verifies (env : FrameEnv) (st : TransferStore) (th : TransferHost) (item : FileItem) :
    Prop where
  task : ∃ task, st.task? th.transferTaskId = some task ∧ task.mode = "push" ∧ task.verify ≠ 0 ∧
    task.packageId = some item.packageId
  key : item.packageId ≠ 0
  only : (env.items.filter fun i => decide (i.packageId = item.packageId)) = [item]

/-- The frame carries the checksum of the file, in any case. -/
def ResultFrame.Carries (f : ResultFrame) (item : FileItem) : Prop :=
  ∃ sha256, f.data.get "sha256" = .ok (.str sha256) ∧ f.env.lower sha256 = f.env.lower item.sha256

/-- A host whose status becomes `success` was given it by a frame with the checksum of its file. -/
def SucceedsVerified (st : TransferStore) (f : ResultFrame) : Prop :=
  ∀ (i : ℤ) (th : TransferHost) (item : FileItem), hostById st i = some th →
    Verifies f.env st th item → th.status ≠ "success" →
    (hostById (f.apply st) i).map TransferHost.status = some "success" → f.Carries item

/-- The checksum of a frame: a text, or nothing. -/
def checksumOf (env : FrameEnv) (data : Json) : Except PyErr String := do
  match (← data.get "sha256").pyOr (.str "") with
  | .str s => pure (env.lower s)
  | _ => throw .attributeError

/-- The frame reports a success, and the columns take what it carries. -/
structure ResultFrame.Reports (f : ResultFrame) : Prop where
  status : ∃ status, getOr f.data "status" (.str "success") = .ok status ∧
    resultStatus status = "success"
  checksum : ∃ sha256, checksumOf f.env f.data = .ok sha256 ∧ sha256.length ≤ 64
  error : ∃ error column, f.data.get "error" = .ok error ∧ f.env.errorColumn error = .ok column

/-- A frame that reports the success of a verified host which has not succeeded carries a checksum,
and it is empty only if the recorded one is. -/
def Comparable (st : TransferStore) (f : ResultFrame) : Prop :=
  ∀ (i : ℤ) (th : TransferHost) (item : FileItem), hostIdOf f.data = .ok i →
    hostById st i = some th → Verifies f.env st th item → th.status ≠ "success" → f.Reports →
    ∃ sha256, f.data.get "sha256" = .ok (.str sha256) ∧ (sha256 = "" ↔ item.sha256 = "")

/-! ### What a frame leaves -/

section Frame

variable {env : FrameEnv} {st : TransferStore} {th : TransferHost} {task : TransferTask}
  {data : Json}

theorem maybeFinalize_hosts (env : TransferEnv) (task : TransferTask) {hosts : List TransferHost}
    {s : TransferSession} (h : s.committed.hosts = hosts) (h' : s.store.hosts = hosts) :
    Ends (maybeFinalize env task s) (fun _ s' => s'.committed.hosts = hosts)
      fun f => f.committed.hosts = hosts := by
  rw [maybeFinalize]
  split_ifs
  · exact h
  refine ends_bind (ends_get (Q := fun a s' => a = s ∧ s' = s) ⟨rfl, rfl⟩) ?_
  rintro _ _ ⟨rfl, rfl⟩
  split_ifs
  · exact h
  · exact h
  · refine ends_bind (ends_modify (Q := fun _ s' => s'.committed.hosts = hosts ∧
      s'.store.hosts = hosts) ⟨h, h'⟩) ?_
    rintro _ s' ⟨hc, hs⟩
    refine ends_bind (Q := fun _ s' => s'.committed.hosts = hosts) ?_ fun _ _ hs => ends_pure hs
    rw [Transfers.commit]
    split_ifs
    · exact hs
    · exact hc
  · exact h

theorem hostById_updateHost {i : ℤ} {f : TransferHost → TransferHost} (hf : ∀ h, (f h).id = h.id)
    {k : ℕ} : hostById (st.updateHost k f) i =
      (hostById st i).map fun h => if h.id = k then f h else h := by
  rw [hostById, hostById, TransferStore.updateHost, List.find?_map]
  congr 2
  funext h
  rw [Function.comp_apply]
  split_ifs
  · rw [hf]
  · rfl

/-- The rows of the hosts decide what `hostById` finds. -/
theorem hostById_congr {st st' : TransferStore} (h : st.hosts = st'.hosts) (i : ℤ) :
    hostById st i = hostById st' i := by
  rw [hostById, h]
  rfl

/-- The write of an outcome. -/
def Outcome.write (o : Outcome) (sha256 error : Option String) (t : ℚ) (h : TransferHost) :
    TransferHost :=
  { h with status := o.status, verifySha256 := sha256, error := error, finishedAt := some t }

theorem Outcome.write_id (o : Outcome) (sha256 error : Option String) (t : ℚ) (h : TransferHost) :
    (o.write sha256 error t h).id = h.id := rfl

/-- What a frame leaves: the hosts as they were, or the outcome in the row of its host. -/
inductive ResultLeaves (env : FrameEnv) (data : Json) (st st' : TransferStore) : Prop where
  | kept (h : st'.hosts = st.hosts)
  | stored {i : ℤ} {th : TransferHost} {task : TransferTask} {o : Outcome}
      {sha256 error : Option String} {t : ℚ} (hid : hostIdOf data = .ok i)
      (hth : hostById st i = some th) (htask : st.task? th.transferTaskId = some task)
      (ho : outcomeOf env task data = .ok o) (hsha256 : checksumColumn o.sha256 = .ok sha256)
      (herror : env.errorColumn o.error = .ok error)
      (h : st'.hosts = (st.updateHost th.id (o.write sha256 error t)).hosts)

theorem storeOutcome_eq (env : FrameEnv) (task : TransferTask) (th : TransferHost) {o : Outcome}
    {sha256 error : Option String} (hsha256 : checksumColumn o.sha256 = .ok sha256)
    (herror : env.errorColumn o.error = .ok error) (s : TransferSession) :
    storeOutcome env task th o s = (do
        Transfers.commit env.toTransferEnv
        let _ ← maybeFinalize env.toTransferEnv task : TransferM Unit)
      { s with store := s.store.updateHost th.id (o.write sha256 error (env.now s.commits)) } := by
  rw [storeOutcome, hsha256, herror]
  rfl

theorem finalized_hosts (env : TransferEnv) (task : TransferTask) {hosts : List TransferHost}
    {s : TransferSession} (hc : s.committed.hosts = hosts) (hs : s.store.hosts = hosts) :
    Ends ((do let _ ← maybeFinalize env task : TransferM Unit) s)
      (fun _ s' => s'.committed.hosts = hosts) fun f => f.committed.hosts = hosts :=
  ends_bind (maybeFinalize_hosts env task hc hs) fun _ _ h => ends_pure h

theorem storeOutcome_ends {s : TransferSession} (hc : s.committed.hosts = st.hosts)
    (hs : s.store.hosts = st.hosts) {o : Outcome} {P : TransferStore → Prop}
    (hkept : ∀ st', st'.hosts = st.hosts → P st')
    (hstored : ∀ sha256 error t st', checksumColumn o.sha256 = .ok sha256 →
      env.errorColumn o.error = .ok error →
      st'.hosts = (st.updateHost th.id (o.write sha256 error t)).hosts → P st') :
    Ends (storeOutcome env task th o s) (fun _ s' => P s'.committed) fun f => P f.committed := by
  cases hsha256 : checksumColumn o.sha256 with
  | error e =>
      rw [storeOutcome, hsha256]
      exact hkept _ hc
  | ok sha256 =>
      cases herror : env.errorColumn o.error with
      | error e =>
          rw [storeOutcome, hsha256, herror]
          exact hkept _ hc
      | ok error =>
          rw [storeOutcome_eq env task th hsha256 herror]
          set write := o.write sha256 error (env.now s.commits)
          have hwrite : (s.store.updateHost th.id write).hosts =
              (st.updateHost th.id write).hosts := congrArg (List.map _) hs
          refine ends_bind (Q := fun _ s' => s'.committed.hosts =
            (st.updateHost th.id write).hosts ∧ s'.store.hosts =
              (st.updateHost th.id write).hosts) ?_ fun _ s' hs' => ?_
          · rw [Transfers.commit]
            split_ifs
            · exact ⟨hwrite, hwrite⟩
            · exact hkept _ hc
          · have hdone {st' : TransferStore}
                (h : st'.hosts = (st.updateHost th.id write).hosts) : P st' :=
              hstored sha256 error _ st' hsha256 herror h
            exact (finalized_hosts env.toTransferEnv task hs'.1 hs'.2).mono
              (fun _ _ h => hdone h) fun _ h => hdone h

/-- **A frame** stores an outcome, or leaves the hosts as they were. -/
theorem transferResult_leaves (env : FrameEnv) (data : Json) (st : TransferStore) :
    ResultLeaves env data st (after (transferResult env data) st) := by
  refine after_of_ends ?_
  rw [transferResult]
  cases hid : hostIdOf data with
  | error e => exact .kept rfl
  | ok i =>
      refine ends_bind (Q := fun a s => i = a ∧ s = .opened st) ⟨rfl, rfl⟩ ?_
      rintro _ _ ⟨rfl, rfl⟩
      refine ends_bind (ends_get (Q := fun a s => a = .opened st ∧ s = .opened st) ⟨rfl, rfl⟩) ?_
      rintro _ _ ⟨rfl, rfl⟩
      dsimp only [TransferSession.opened]
      cases hth : hostById st i with
      | none => exact .kept rfl
      | some th =>
          dsimp only
          cases htask : st.task? th.transferTaskId with
          | none => exact .kept rfl
          | some task =>
              dsimp only
              rw [finishHost]
              cases ho : outcomeOf env task data with
              | error e => exact .kept rfl
              | ok o =>
                  refine ends_bind (Q := fun a s => o = a ∧ s = .opened st) ⟨rfl, rfl⟩ ?_
                  rintro _ _ ⟨rfl, rfl⟩
                  have hend {s : TransferSession} (hc : s.committed.hosts = st.hosts)
                      (hs : s.store.hosts = st.hosts) :
                      Ends (storeOutcome env task th o s)
                        (fun _ s' => ResultLeaves env data st s'.committed)
                        fun f => ResultLeaves env data st f.committed :=
                    storeOutcome_ends hc hs (fun _ => .kept) fun _ _ _ _ =>
                      .stored hid hth htask ho
                  split_ifs
                  · exact ends_bind (ends_modify (Q := fun _ s => s.committed.hosts = st.hosts ∧
                      s.store.hosts = st.hosts) ⟨rfl, rfl⟩) fun _ _ hs => hend hs.1 hs.2
                  · exact hend rfl rfl

theorem transferResult_stored {i : ℤ} {o : Outcome} {sha256 error : Option String}
    (hid : hostIdOf data = .ok i) (hth : hostById st i = some th)
    (htask : st.task? th.transferTaskId = some task) (hmode : task.mode = "push")
    (ho : outcomeOf env task data = .ok o) (hsha256 : checksumColumn o.sha256 = .ok sha256)
    (herror : env.errorColumn o.error = .ok error) :
    (after (transferResult env data) st).hosts =
      (st.updateHost th.id (o.write sha256 error (env.now 0))).hosts := by
  refine after_of_ends (Q := fun st' => st'.hosts = _) ?_
  have hpull : ¬ (task.mode = "pull" ∧ o.status = "success") := by
    rw [hmode]
    exact fun h => absurd h.1 (by decide)
  have hrun : transferResult env data (.opened st) = storeOutcome env task th o (.opened st) := by
    rw [transferResult, hid]
    refine (bind_of_ok (show attempt (.ok i) _ = .ok (i, .opened st) from rfl)).trans ?_
    refine (bind_of_ok (a := .opened st) rfl).trans ?_
    dsimp only [TransferSession.opened]
    rw [hth]
    dsimp only
    rw [htask]
    dsimp only
    rw [finishHost, ho]
    refine (bind_of_ok (show attempt (.ok o) _ = .ok (o, .opened st) from rfl)).trans ?_
    rw [if_neg hpull]
    rfl
  rw [hrun, storeOutcome_eq env task th hsha256 herror]
  refine ends_bind (Q := fun _ s' => s'.committed.hosts = _ ∧ s'.store.hosts = _) ?_ fun _ s' hs' =>
    finalized_hosts env.toTransferEnv task hs'.1 hs'.2
  rw [commit_clean rfl]
  exact ⟨rfl, rfl⟩

theorem outcomeOf_verified {item : FileItem} (hpush : task.mode = "push")
    (hverify : task.verify ≠ 0)
    (hpackage : task.packageId = some item.packageId) (hkey : item.packageId ≠ 0)
    (honly : (env.items.filter fun i => decide (i.packageId = item.packageId)) = [item]) :
    outcomeOf env task data = (do
      let status ← getOr data "status" (.str "success")
      let sha256 ← checksumOf env data
      let error ← data.get "error"
      if sha256 ≠ "" ∧ item.sha256 ≠ "" ∧ sha256 ≠ env.lower item.sha256 then
        pure ⟨"verify_failed", sha256,
          .str ("sha256 mismatch (expect " ++ item.sha256 ++ ", got " ++ sha256 ++ ")")⟩
      else pure ⟨resultStatus status, sha256, error⟩) := by
  have hexpected : expectedSha256 env task = some item.sha256 := by
    rw [expectedSha256, hpackage]
    dsimp only
    rw [if_pos ⟨hpush, hkey⟩, honly]
  have hcond (sha256 : String) : (task.verify ≠ 0 ∧ sha256 ≠ "" ∧ item.sha256 ≠ "" ∧
      sha256 ≠ env.lower item.sha256) ↔
        (sha256 ≠ "" ∧ item.sha256 ≠ "" ∧ sha256 ≠ env.lower item.sha256) := and_iff_right hverify
  rw [outcomeOf, hexpected, checksumOf]
  cases getOr data "status" (.str "success") with
  | error e => rfl
  | ok status =>
      cases data.get "sha256" with
      | error e => rfl
      | ok value =>
          change (match value.pyOr (.str "") with | .str s => _ | _ => _) =
            ((match value.pyOr (.str "") with | .str s => _ | _ => _) >>= _)
          cases value.pyOr (.str "") with
          | str s =>
              cases data.get "error" with
              | error e => rfl
              | ok error => exact if_congr (hcond (env.lower s)) rfl rfl
          | null | bool | int | float | arr | obj => rfl

end Frame

/-! ### Checksums -/

section Checksums

variable {st : TransferStore} {f : ResultFrame} {th : TransferHost} {item : FileItem} {i : ℤ}

theorem checksumOf_str {env : FrameEnv} {data : Json} {sha256 : String}
    (h : data.get "sha256" = .ok (.str sha256)) : checksumOf env data = .ok (env.lower sha256) := by
  rw [checksumOf, h]
  by_cases hempty : sha256 = ""
  · subst hempty
    rfl
  · have hor : (Json.str sha256).pyOr (.str "") = .str sha256 := if_pos (decide_eq_true hempty)
    change (match (Json.str sha256).pyOr (.str "") with | .str s => _ | _ => _) = _
    rw [hor]
    rfl

theorem str_of_checksumOf {c : String} (h : checksumOf f.env f.data = .ok c) (hc : c ≠ "") :
    ∃ sha256, f.data.get "sha256" = .ok (.str sha256) ∧ f.env.lower sha256 = c := by
  obtain ⟨value, hget, hvalue⟩ := bind_eq_ok.mp h
  cases hor : value.pyOr (.str "") with
  | str sha256 =>
      rw [hor] at hvalue
      obtain rfl := Except.ok.inj hvalue
      rw [Json.pyOr] at hor
      split_ifs at hor with htruthy
      · exact ⟨sha256, by rw [hget, hor], rfl⟩
      · obtain rfl := Json.str.inj hor
        exact absurd ((f.lower_eq "").mpr rfl) hc
  | null | bool | int | float | arr | obj =>
      rw [hor] at hvalue
      cases hvalue

theorem status_stored {f' : TransferHost → TransferHost} (hf : ∀ h, (f' h).id = h.id)
    (hth : hostById st i = some th) {st' : TransferStore}
    (hhosts : st'.hosts = (st.updateHost th.id f').hosts) :
    hostById st' i = some (f' th) := by
  rw [hostById_congr hhosts, hostById_updateHost hf, hth, Option.map_some, if_pos rfl]

/-- **One frame.** -/
theorem succeedsVerified_iff : SucceedsVerified st f ↔ Comparable st f := by
  constructor
  · intro h i th item hid hth hverifies hne hreports
    obtain ⟨task, htask, hmode, hverify, hpackage⟩ := hverifies.task
    obtain ⟨status, hstatus, hsuccess⟩ := hreports.status
    obtain ⟨c, hc, hlength⟩ := hreports.checksum
    obtain ⟨error, column, herror, hcolumn⟩ := hreports.error
    have hempty (sha256 : String) (heq : f.env.lower sha256 = f.env.lower item.sha256) :
        sha256 = "" ↔ item.sha256 = "" := by
      rw [← f.lower_eq sha256, heq, f.lower_eq]
    by_cases hcompared : c ≠ "" ∧ item.sha256 ≠ ""
    · obtain ⟨sha256, hget, hlower⟩ := str_of_checksumOf hc hcompared.1
      refine ⟨sha256, hget, iff_of_false (fun h => hcompared.1 ?_) hcompared.2⟩
      rw [← hlower, f.lower_eq]
      exact h
    · have ho : outcomeOf f.env task f.data = .ok ⟨"success", c, error⟩ := by
        rw [outcomeOf_verified hmode hverify hpackage hverifies.key hverifies.only, hstatus, hc,
          herror]
        refine (if_neg fun hm => hcompared ⟨hm.1, hm.2.1⟩).trans ?_
        rw [hsuccess]
        rfl
      have hhosts := transferResult_stored hid hth htask hmode ho (if_neg (not_lt.mpr hlength))
        hcolumn
      have hafter := status_stored (Outcome.write_id _ _ _ _) hth hhosts
      obtain ⟨sha256, hget, hlower⟩ := h i th item hth hverifies hne
        ((congrArg (Option.map TransferHost.status) hafter).trans rfl)
      exact ⟨sha256, hget, hempty sha256 hlower⟩
  · intro h i th item hth hverifies hne hafter
    obtain ⟨task, htask, hmode, hverify, hpackage⟩ := hverifies.task
    cases transferResult_leaves f.env f.data st with
    | kept hhosts =>
        rw [ResultFrame.apply, hostById_congr hhosts, hth] at hafter
        exact absurd (Option.some.inj hafter) hne
    | @stored i' th' task' o sha256 error t hid hth' htask' ho hsha256 herror hhosts =>
        rw [ResultFrame.apply, hostById_congr hhosts,
          hostById_updateHost (o.write_id sha256 error t), hth, Option.map_some] at hafter
        split_ifs at hafter with hsame
        swap
        · exact absurd (Option.some.inj hafter) hne
        have hi : i' = i := by rw [← id_of_hostById hth', ← id_of_hostById hth, hsame]
        subst hi
        obtain rfl := Option.some.inj (hth.symm.trans hth')
        obtain rfl := Option.some.inj (htask.symm.trans htask')
        have hsuccess : o.status = "success" := Option.some.inj hafter
        rw [outcomeOf_verified hmode hverify hpackage hverifies.key hverifies.only] at ho
        obtain ⟨status, hstatus, ho⟩ := bind_eq_ok.mp ho
        obtain ⟨c, hc, ho⟩ := bind_eq_ok.mp ho
        obtain ⟨error', herror', ho⟩ := bind_eq_ok.mp ho
        split_ifs at ho with hmismatch
        · obtain rfl := Except.ok.inj ho
          have hfailed : "verify_failed" = "success" := hsuccess
          exact absurd hfailed (by decide)
        obtain rfl := Except.ok.inj ho
        have hlength : c.length ≤ 64 := by
          by_contra hlong
          rw [checksumColumn, if_pos (not_le.mp hlong)] at hsha256
          cases hsha256
        obtain ⟨sha, hget, hiff⟩ := h i' th item hid hth hverifies hne
          ⟨⟨status, hstatus, hsuccess⟩, ⟨c, hc, hlength⟩, ⟨error', error, herror', herror⟩⟩
        refine ⟨sha, hget, ?_⟩
        obtain rfl := Except.ok.inj ((checksumOf_str hget).symm.trans hc)
        by_cases hsha : sha = ""
        · rw [hsha, hiff.mp hsha]
        · by_contra hdiffer
          exact hmismatch ⟨fun hl => hsha ((f.lower_eq sha).mp hl), fun hr => hsha (hiff.mpr hr),
            hdiffer⟩

end Checksums

/-- **Verified transfers.** In a run of frames, the hosts of push tasks that verify a single file
succeed with its checksum only, exactly if each frame that reports the success of such a host
carries a checksum, empty only if the recorded one is. -/
theorem verified_iff (st : TransferStore) (frames : List ResultFrame) :
    Machine.Meets ResultFrame.apply SucceedsVerified st frames ↔
      Machine.Meets ResultFrame.apply Comparable st frames :=
  Machine.meets_iff_of_invariant (P := fun _ => True) (fun _ _ _ => succeedsVerified_iff)
    (fun _ _ _ _ => trivial) trivial frames

/-! ### A frame for one host -/

/-- A host that is receiving the file of the task. -/
def receiving : TransferStore :=
  ⟨[PushEnv.greetingTask], [⟨1, 1, 7, "transferring", 3, none, none, none, none⟩], []⟩

/-- A frame that reports a success, with more fields. -/
def successFrame (fields : List (String × Json)) : ResultFrame where
  env := PushHistory.loneFrames
  data := .obj ([("transfer_host_id", .int 1), ("status", .str "success")] ++ fields)
  lower_eq _ := String.map_eq_empty

/-- **A frame without a checksum** makes its host succeed, which is to be verified. -/
theorem success_unchecked : ¬ Machine.Meets ResultFrame.apply SucceedsVerified receiving
    [successFrame []] := by
  rintro ⟨h, -⟩
  have hverifies : Verifies (successFrame []).env receiving
      ⟨1, 1, 7, "transferring", 3, none, none, none, none⟩ PushEnv.greetingItem :=
    ⟨⟨PushEnv.greetingTask, rfl, rfl, by decide, rfl⟩, by decide, rfl⟩
  obtain ⟨sha256, hget, -⟩ := h 1 _ _ rfl hverifies (by decide) (by decide +kernel)
  cases hget

end LarkPlat.Transfers
