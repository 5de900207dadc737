import LarkPlat.TransferDispatch

/-!
# Invariants of a Pass

A pass is built from few statements: it appends lines, changes rows, commits, and records what it
hands over. A property that these keep is one of every program of the pass.

## Main results

* `Stable.transferDispatch`: a property that the statements keep is kept by a pass.
-/

namespace LarkPlat.Transfers

open Outcomes

/-- The frames that announce the files of a task to a host. -/
inductive Offered (env : TransferEnv) (task : TransferTask) (th : TransferHost) :
    Handover → Prop where
  | push {item : FileItem} (hchannel : resolveChannel env th ≠ none) (hmem : item ∈ env.items)
      (hmode : task.mode = "push") (hpackage : task.packageId = some item.packageId) :
      Offered env task th ⟨th.id, item.relPath, th.currentOffset⟩
  | fetch (hchannel : resolveChannel env th ≠ none) (hmode : task.mode ≠ "push") :
      Offered env task th ⟨th.id, task.sourceHostPath.getD "", th.currentOffset⟩

/-- A change of a host that leaves its identity and its cursor. -/
def LeavesCursor (f : TransferHost → TransferHost) : Prop :=
  ∀ h, (f h).id = h.id ∧ (f h).transferTaskId = h.transferTaskId ∧ (f h).hostId = h.hostId ∧
    (f h).currentOffset = h.currentOffset

/-- The statements of a pass keep `P`, where the frames are those of `D`, and an exception leaves
`E`. -/
structure Stable (env : TransferEnv) (D : Handover → Prop) (P : TransferSession → Prop)
    (E : TransferFailure → Prop) : Prop where
  raised : ∀ {s} e, P s → E (s.raised e)
  append : ∀ {s} th content level, P s → P { s with
    added := s.added ++ [s.store.nextLine th content level]
    appended := s.appended ++ [s.store.nextLine th content level] }
  host : ∀ {s} i f, LeavesCursor f → P s → P { s with store := s.store.updateHost i f }
  task : ∀ {s} i f, P s → P { s with store := s.store.updateTask i f }
  commit : ∀ {s}, Flushable env s → P s → P { s with
    committed := flushed env s, store := flushed env s, added := [], commits := s.commits + 1 }
  delivered : ∀ {s} h, D h → P s → P { s with handovers := s.handovers ++ [h] }
  handed : ∀ {s} i, P s → P { s with handed := s.handed ++ [i] }

namespace Stable

variable {env : TransferEnv} {D : Handover → Prop} {P : TransferSession → Prop}
  {E : TransferFailure → Prop}

section Statements

variable (h : Stable env D P E)

include h

theorem attempt {α : Type} (x : Except PyErr α) : Maintains P E (attempt x) := by
  refine ⟨fun s hs => ?_⟩
  cases x with
  | error e => exact h.raised e hs
  | ok a => exact hs

theorem appendLog (th : TransferHost) (content level : String) :
    Maintains P E (appendLog th content level) :=
  maintains_modify fun _ => h.append th content level

theorem commitAll : Maintains P E (Transfers.commit env) := by
  refine ⟨fun s hs => ?_⟩
  by_cases hf : Flushable env s
  · rw [Transfers.commit, if_pos hf]
    exact h.commit hf hs
  · rw [Transfers.commit, if_neg hf]
    exact h.raised _ hs

theorem updateHost (i : ℕ) {f : TransferHost → TransferHost} (hf : LeavesCursor f) :
    Maintains P E (execute fun st => st.updateHost i f) :=
  maintains_modify fun _ => h.host i f hf

theorem markTerminal (th : TransferHost) (status error line : String) :
    Maintains P E (markTerminal env th status error line) := by
  refine maintains_get.bind fun s => (h.updateHost th.id ?_).bind fun _ => ?_
  · exact fun _ => ⟨rfl, rfl, rfl, rfl⟩
  · exact (h.appendLog ..).bind fun _ => h.commitAll

theorem handOver (th : TransferHost) : Maintains P E (handOver th) :=
  maintains_modify fun _ => h.handed th.id

end Statements

/-! ### The programs of the pass -/

variable {task : TransferTask} {th : TransferHost}

theorem announced (h : Stable env D P E) {α : Type} {p : Bool} {frame : Handover} (hD : D frame)
    {goOn stop : TransferM α} (hgo : Maintains P E goOn) (hstop : Maintains P E stop) :
    Maintains P E (if p = true then (do Transfers.delivered frame; goOn) else stop) := by
  split_ifs
  · exact (maintains_modify fun _ => h.delivered frame hD).bind fun _ => hgo
  · exact hstop

theorem pushItems (h : Stable env D P E) (items : List FileItem)
    (hD : ∀ item ∈ items, D ⟨th.id, item.relPath, th.currentOffset⟩) (k : ℕ) :
    Maintains P E (pushItems env task th k items) := by
  induction items generalizing k with
  | nil => exact maintains_pure true
  | cons item items ih =>
      rw [List.forall_mem_cons] at hD
      refine (h.appendLog ..).bind fun _ => h.announced hD.1 (ih hD.2 (k + 1)) ?_
      exact (h.markTerminal ..).bind fun _ => maintains_pure false

theorem pushed (h : Stable env D P E) (th : TransferHost) (p : Bool) :
    Maintains P E (if p = true then Transfers.handOver th else pure ()) := by
  split_ifs
  · exact h.handOver th
  · exact maintains_pure ()

theorem dispatchPush (h : Stable env D P E) (hchannel : resolveChannel env th ≠ none)
    (hmode : task.mode = "push")
    (hD : ∀ frame, Offered env task th frame → D frame) :
    Maintains P E (dispatchPush env task th) := by
  rw [Transfers.dispatchPush]
  cases hpackage : task.packageId with
  | none => exact h.markTerminal ..
  | some packageId =>
      dsimp only
      split_ifs
      · exact h.markTerminal ..
      · refine (h.pushItems _ (fun item hitem => hD _ (.push hchannel ?_ hmode ?_)) 0).bind (h.pushed th)
        · exact (List.mem_filter.mp (List.mem_mergeSort.mp hitem)).1
        · rw [hpackage, of_decide_eq_true (List.mem_filter.mp (List.mem_mergeSort.mp hitem)).2]

theorem fetchAllowed (h : Stable env D P E) {path : String}
    (hD : D ⟨th.id, path, th.currentOffset⟩) : Maintains P E (fetchAllowed env task th path) :=
  (h.appendLog ..).bind fun _ => h.announced hD (h.handOver th) (h.markTerminal ..)

theorem dispatchPull (h : Stable env D P E) (hchannel : resolveChannel env th ≠ none)
    (hmode : task.mode ≠ "push")
    (hD : ∀ frame, Offered env task th frame → D frame) :
    Maintains P E (dispatchPull env task th) := by
  refine (h.attempt _).bind fun allowed => ?_
  split_ifs
  · exact h.fetchAllowed (hD _ (.fetch hchannel hmode))
  · exact h.markTerminal ..

theorem dispatchHost (h : Stable env D P E) (hD : ∀ frame, Offered env task th frame → D frame) :
    Maintains P E (dispatchHost env task th) := by
  rw [Transfers.dispatchHost]
  cases hkind : resolveChannel env th with
  | none => exact h.markTerminal ..
  | some kind =>
      have hchannel : resolveChannel env th ≠ none := hkind ▸ Option.some_ne_none kind
      refine maintains_get.bind fun _ => (h.updateHost th.id ?_).bind fun _ => ?_
      · exact fun _ => ⟨rfl, rfl, rfl, rfl⟩
      · refine h.commitAll.bind fun _ => (h.appendLog ..).bind fun _ => ?_
        split_ifs with hmode
        · exact h.dispatchPush hchannel hmode hD
        · exact h.dispatchPull hchannel hmode hD

theorem dispatchHosts_cons (env : TransferEnv) (task : TransferTask) (th : TransferHost)
    (ths : List TransferHost) :
    dispatchHosts env task (th :: ths) =
      if th.status = "pending" then
        Transfers.dispatchHost env task th >>= fun _ => dispatchHosts env task ths
      else dispatchHosts env task ths :=
  rfl

theorem dispatchHosts (h : Stable env D P E) (ths : List TransferHost)
    (hD : ∀ th ∈ ths, th.status = "pending" → ∀ frame, Offered env task th frame → D frame) :
    Maintains P E (dispatchHosts env task ths) := by
  induction ths with
  | nil => exact maintains_pure ()
  | cons th ths ih =>
      rw [List.forall_mem_cons] at hD
      rw [dispatchHosts_cons]
      split_ifs with hpending
      · exact (h.dispatchHost (hD.1 hpending)).bind fun _ => ih hD.2
      · exact ih hD.2

theorem maybeFinalize (h : Stable env D P E) (task : TransferTask) :
    Maintains P E (maybeFinalize env task) := by
  rw [Transfers.maybeFinalize]
  split_ifs
  · exact maintains_pure _
  · refine maintains_get.bind fun s => ?_
    split_ifs
    · exact maintains_pure _
    · exact maintains_pure _
    · exact (maintains_modify fun _ => h.task _ _).bind fun _ => h.commitAll.bind fun _ =>
        maintains_pure _
    · exact maintains_pure _

end Stable

/-! ### The pass -/

theorem commit_clean {env : TransferEnv} {s : TransferSession} (h : s.added = []) :
    commit env s = .ok ((), { s with committed := s.store, commits := s.commits + 1 }) := by
  obtain ⟨committed, store, added, commits, appended, handovers, handed⟩ := s
  obtain rfl : added = [] := h
  rw [commit, if_pos ⟨List.nodup_nil, fun _ hl => absurd hl List.not_mem_nil⟩]
  have hflushed :
      flushed env ⟨committed, store, [], commits, appended, handovers, handed⟩ = store :=
    congrArg (TransferStore.mk store.tasks store.hosts) (List.append_nil store.logs)
  rw [hflushed]

/-- The host waits to be dispatched. -/
def IsPending (st : TransferStore) (taskId : ℕ) (th : TransferHost) : Prop :=
  th ∈ st.hosts ∧ th.transferTaskId = taskId ∧ th.status = "pending"

variable {env : TransferEnv} {st : TransferStore} {task : TransferTask} {taskId : ℕ}

theorem mem_hostsOfTask {th : TransferHost} :
    th ∈ st.hostsOfTask taskId ↔ th ∈ st.hosts ∧ th.transferTaskId = taskId := by
  rw [TransferStore.hostsOfTask, List.mem_mergeSort, List.mem_filter, decide_eq_true_eq]

theorem transferDispatch_eq (htask : st.task? taskId = some task)
    (hstatus : task.status = "processing") :
    transferDispatch env taskId (.opened st) =
      (do
        dispatchHosts env task (st.hostsOfTask taskId)
        pure (.dispatched taskId (← maybeFinalize env task)) : TransferM DispatchResponse)
        (.opened st) := by
  have hcanceled : task.status ≠ "canceled" := by
    rw [hstatus]
    decide
  refine (bind_of_ok (a := .opened st) rfl).trans ?_
  dsimp only [TransferSession.opened]
  rw [htask]
  dsimp only
  rw [if_neg hcanceled, if_pos hstatus]

/-- **A pass** keeps a property that its statements keep. -/
theorem Stable.transferDispatch {D : Handover → Prop} {P : TransferSession → Prop}
    {E : TransferFailure → Prop} (h : Stable env D P E)
    (hD : ∀ task th frame, st.task? taskId = some task → IsPending st taskId th →
      Offered env task th frame → D frame)
    (hopened : P (.opened st)) :
    Ends (transferDispatch env taskId (.opened st)) (fun _ => P) E := by
  refine ends_bind (ends_get (Q := fun a s => a = .opened st ∧ s = .opened st) ⟨rfl, rfl⟩) ?_
  rintro _ _ ⟨rfl, rfl⟩
  dsimp only [TransferSession.opened]
  cases htask : st.task? taskId with
  | none => exact hopened
  | some task =>
      dsimp only
      split_ifs
      · exact hopened
      · have hloop : Maintains P E (Transfers.dispatchHosts env task (st.hostsOfTask taskId)) :=
          h.dispatchHosts _ fun th hth hp frame hframe =>
            hD task th frame htask ⟨(mem_hostsOfTask.mp hth).1, (mem_hostsOfTask.mp hth).2, hp⟩
              hframe
        refine ends_bind (hloop.ends _ hopened) fun _ s hs => ?_
        exact ends_bind ((h.maybeFinalize task).ends s hs) fun _ _ hs' => ends_pure hs'
      · exact hopened

end LarkPlat.Transfers
