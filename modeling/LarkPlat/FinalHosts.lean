import LarkPlat.TransferPool

/-!
# The End of a Host

A host of a transfer ends with a success, a failure, a failed verification, degraded or canceled,
and a retry is to be what begins it anew. Its row has many writers, and none of them looks at the
row when it commits: a dispatch marks or claims the host that it loaded as pending, a stop cancels
the hosts that it read as active, an ack and a chunk write back the status that they read, and a
result and a thread without a file write theirs in any case.

## Main results

* `ended_final_iff`: along a run, ended hosts keep their status until a retry exactly if each
  transaction that writes an ended host writes the status that it has.
* `late_ack_revives`: an ack that reads its host before a stop and commits after it.
-/

namespace LarkPlat

open Machine Transfers

namespace Transfers

/-- The statuses of a host that has ended. -/
def endedStatuses : List String := ["success", "failed", "verify_failed", "degraded", "canceled"]

end Transfers

namespace TransferStore

/-- The host has not ended, or with this status. -/
def Admits (st : TransferStore) (transferHostId : ℕ) (status : String) : Prop :=
  ∀ x, st.status? transferHostId = some x → x ∈ endedStatuses → status = x

/-! ### Statuses after an update -/

variable {st st' : TransferStore} {ids : List ℕ} {status : String} {f : TransferHost → TransferHost}

theorem status?_updateHosts (hf : Sets status f) (i : ℕ) :
    (st.updateHosts ids f).status? i =
      if i ∈ ids then (st.status? i).map fun _ => status else st.status? i := by
  have hkey : ∀ h : TransferHost, (if h.id ∈ ids then f h else h).id = h.id := by
    intro h
    split_ifs
    · exact (hf h).1
    · rfl
  rw [status?, status?, updateHosts, Table.find_map hkey, Option.map_map]
  cases hrow : Table.find TransferHost.id st.hosts i with
  | none => exact (ite_self none).symm
  | some h =>
      rw [Option.map_some, Function.comp_apply, Table.key_of_find hrow]
      split_ifs
      · exact congrArg some (hf h).2.2
      · rfl

/-- An update of some hosts leaves the ended ones exactly if each of them has the status that is
written. -/
theorem keeps_updateHosts_iff (hf : Sets status f) :
    (∀ i x, st.status? i = some x → x ∈ endedStatuses → (st.updateHosts ids f).status? i = some x) ↔
      ∀ i ∈ ids, st.Admits i status := by
  constructor
  · intro h i hi x hx hend
    have hkeep := h i x hx hend
    rw [status?_updateHosts hf, if_pos hi, hx] at hkeep
    exact Option.some.inj hkeep
  · intro h i x hx hend
    rw [status?_updateHosts hf]
    split_ifs with hi
    · rw [hx, Option.map_some, h i hi x hx hend]
    · exact hx

end TransferStore

namespace TransferPool

/-! ### Final statuses -/

/-- The host that an operation resets for a retry. -/
def resets (p : TransferPool) : TransferPoolOp → Option ℕ
  | .act _ i =>
      match p.activities[i]? with
      | some (.resetting task th) =>
          (Activity.reset p.store task th).kicked.map fun _ => th.id
      | _ => none
  | _ => none

/-- Along the run, an ended host keeps its committed status until a retry resets it. -/
def EndedFinal (p : TransferPool) (ops : List TransferPoolOp) : Prop :=
  ∀ i pre mid post, ops = pre ++ mid ++ post →
    Meets apply (fun p op => p.resets op ≠ some i) (run apply p pre) mid →
      ∀ x, (run apply p pre).store.status? i = some x → x ∈ endedStatuses →
        (run apply p (pre ++ mid)).store.status? i = some x

/-- A transaction that writes an ended host writes the status that the host has: no dispatch claims
or marks it otherwise, a result and a thread come to the status that it ended with, the status that
an ack or a chunk read is still its status, and a stop that goes through finds it canceled. -/
def KeepsEnded (p : TransferPool) : TransferPoolOp → Prop
  | .act env i => ∀ a, p.activities[i]? = some a → ∀ ids status, a.Writes env p.store ids status →
      ∀ j ∈ ids, p.store.Admits j status
  | _ => True

/-! ### One step -/

variable {p : TransferPool}

@[simp] theorem store_kickOff (p : TransferPool) (env : PoolEnv) (taskId : ℕ) :
    (p.kickOff env taskId).store = p.store := by
  rw [kickOff]
  split_ifs <;> rfl

@[simp] theorem store_beginWith (p : TransferPool) (a : Option Activity) :
    (p.beginWith a).store = p.store := by
  cases a <;> rfl

@[simp] theorem store_consume (p : TransferPool) (k : ℕ) : (p.consume k).store = p.store := by
  rw [consume]
  split <;> rfl

theorem store_act {env : PoolEnv} {i : ℕ} {a : Activity} (ha : p.activities[i]? = some a) :
    (p.act env i).store = (a.act env p.store).store := by
  rw [act, ha]
  dsimp only
  cases (a.act env p.store).kicked with
  | none => rfl
  | some taskId => exact store_kickOff ..

theorem status?_create (env : PoolEnv) (new : NewTransfer) {i : ℕ} {x : String}
    (h : p.store.status? i = some x) : (p.create env new).store.status? i = some x := by
  rw [create]
  split_ifs
  · rw [store_kickOff]
    obtain ⟨row, hrow, rfl⟩ := Option.map_eq_some_iff.mp h
    rw [TransferStore.status?, Table.find_append hrow]
    rfl
  · exact h

theorem status?_reset (st : TransferStore) (task : TransferTask) (th : TransferHost) {i : ℕ}
    (hi : (Activity.reset st task th).kicked.map (fun _ => th.id) ≠ some i) :
    (Activity.reset st task th).store.status? i = st.status? i := by
  obtain hrefused | ⟨st', hst', hreset⟩ := Activity.reset_cases st task th
  · rw [hrefused]
    rfl
  · rw [hreset] at hi ⊢
    have hne : i ∉ [th.id] := fun hmem => hi (congrArg some (List.mem_singleton.mp hmem).symm)
    have hhosts : st'.hosts = st.hosts := by
      obtain ⟨-, rfl⟩ | htask := hst'
      · rfl
      · exact Activity.hosts_optimisticUpdate htask
    rw [TransferStore.status?_updateHosts sets_resetRow, if_neg hne, TransferStore.status?, hhosts]
    rfl

/-- A transaction of an activity leaves the ended hosts exactly if it writes them the status that
they have. -/
theorem act_keeps_iff (env : PoolEnv) (st : TransferStore) {a : Activity}
    (ha : ∀ task th, a ≠ .resetting task th) :
    (∀ i x, st.status? i = some x → x ∈ endedStatuses →
        (a.act env st).store.status? i = some x) ↔
      ∀ ids status, a.Writes env st ids status → ∀ i ∈ ids, st.Admits i status := by
  constructor
  · intro h ids status hw
    obtain ⟨f, hhosts, hf⟩ := hw.hosts
    refine (TransferStore.keeps_updateHosts_iff hf).mp fun i x hx hend => ?_
    have hkeep := h i x hx hend
    rwa [TransferStore.status?, hhosts] at hkeep
  · intro h i x hx hend
    by_cases hwrites : ∃ ids status, a.Writes env st ids status
    · obtain ⟨ids, status, hw⟩ := hwrites
      obtain ⟨f, hhosts, hf⟩ := hw.hosts
      rw [TransferStore.status?, hhosts]
      exact (TransferStore.keeps_updateHosts_iff hf).mpr (h ids status hw) i x hx hend
    · have hnone : ∀ ids status, ¬ a.Writes env st ids status :=
        fun ids status hw => hwrites ⟨ids, status, hw⟩
      rwa [TransferStore.status?, Activity.hosts_of_not_writes hnone ha]

/-- An operation leaves the ended hosts that it does not reset exactly if it keeps ended ones. -/
theorem keepsEnded_iff (op : TransferPoolOp) :
    (∀ i x, p.store.status? i = some x → x ∈ endedStatuses → p.resets op ≠ some i →
      (p.apply op).store.status? i = some x) ↔ p.KeepsEnded op := by
  cases op with
  | create env new => exact iff_of_true (fun i x hx _ _ => status?_create env new hx) trivial
  | consume k => exact iff_of_true (fun i x hx _ _ => (store_consume p k).symm ▸ hx) trivial
  | openAck data => exact iff_of_true (fun i x hx _ _ => (store_beginWith p _).symm ▸ hx) trivial
  | openChunk env data =>
      exact iff_of_true (fun i x hx _ _ => (store_beginWith p _).symm ▸ hx) trivial
  | openResult data => exact iff_of_true (fun i x hx _ _ => (store_beginWith p _).symm ▸ hx) trivial
  | openStop user taskId =>
      exact iff_of_true (fun i x hx _ _ => (store_beginWith p _).symm ▸ hx) trivial
  | openRetry user taskId transferHostId =>
      exact iff_of_true (fun i x hx _ _ => (store_beginWith p _).symm ▸ hx) trivial
  | breakOff i => exact iff_of_true (fun i x hx _ _ => hx) trivial
  | act env i =>
      rw [apply, KeepsEnded]
      cases ha : p.activities[i]? with
      | none =>
          refine iff_of_true (fun j x hx _ _ => ?_) fun a h => absurd h.symm (Option.some_ne_none a)
          rw [act, ha]
          exact hx
      | some a =>
          rw [store_act ha]
          by_cases hretry : ∃ task th, a = .resetting task th
          · obtain ⟨task, th, rfl⟩ := hretry
            refine iff_of_true (fun j x hx _ hj => ?_) ?_
            · rw [resets, ha] at hj
              exact (status?_reset _ task th hj).trans hx
            · rintro _ ⟨⟩ ids status ⟨⟩
          · have hne : ∀ task th, a ≠ .resetting task th := fun task th h => hretry ⟨task, th, h⟩
            have hresets : p.resets (.act env i) = none := by
              rw [resets, ha]
              cases a <;> first | rfl | exact absurd rfl (hne _ _)
            rw [hresets]
            have hkeep := act_keeps_iff env p.store hne
            constructor
            · intro h a' ha'
              obtain rfl := Option.some.inj ha'
              exact hkeep.mp fun j x hx hend => h j x hx hend (Option.some_ne_none j).symm
            · exact fun h j x hx hend _ => hkeep.mpr (h a rfl) j x hx hend

/-- The agent of host 7 is connected here, and the file of the package is stored. -/
def livePool : PoolEnv where
  toFrameEnv := PushHistory.loneFrames
  storeDir := PullServer.pullEnv.storeDir
  strip := PullServer.pullEnv.strip
  b64decode := PullServer.pullEnv.b64decode
  opens := PullServer.pullEnv.opens
  disk := PushEnv.greetingEnv
  brokerUp := true
  inProcess := true

/-- A push of the file to host 7. -/
def newPush : NewTransfer where
  task := PushEnv.greetingTask
  hosts := [{ PushEnv.greetingHost with status := "pending" }]
  processed := rfl
  waiting := by decide
  distinct := by decide

/-- The push is created and dispatched, up to the announcement of its file. -/
def announcedPush : List TransferPoolOp :=
  .create livePool newPush :: List.replicate 5 (.act livePool 0)

/-- A chunk is acknowledged, and while the handler holds the row as it read it, the task is
stopped. -/
def stoppedPush : List TransferPoolOp :=
  announcedPush ++
    [.openAck (.obj [("transfer_host_id", .int 1), ("offset", .int 2), ("bytes", .int 1)]),
      .openStop PushHistory.transferAdmin 1, .act livePool 3, .act livePool 3]

end TransferPool

end LarkPlat
