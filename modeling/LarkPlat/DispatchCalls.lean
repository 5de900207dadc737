import LarkPlat.Faults
import LarkPlat.ExecDispatch
import LarkPlat.Semaphore

/-!
# The Calls of a Dispatch

`execDispatch` models a dispatch as one step. Here the same function is modelled call by call:
the Redis commands of its semaphores, its commits, its executors and its broadcasts, each of
which may raise. A dispatch claims its pending hosts in one loop, where an exception ends the
loop and is swallowed, and hands them over in a second one, where an exception ends the
dispatch; the permits of a host are acquired in the first loop and released in the second.

The model is of one dispatch with the tables to itself; `DispatchCall` names every call that
may raise.
-/

namespace LarkPlat

/-! ### Calls, answers and state -/

/-- The semaphores of a dispatch: `exec:global` and `exec:host:<id>`. -/
inductive Sem where
  | global
  | host (hostId : ℕ)
  deriving DecidableEq, Repr

/-- The Redis commands of a semaphore. -/
inductive SemCommand where
  | setLock
  | getValue
  | setValue
  | delLock
  | decr
  deriving DecidableEq, Repr

/-- The calls of a dispatch. A call for a host row carries the identifier of the row, and is
made at most once for it. -/
inductive DispatchCall where
  /-- The reads before the claiming loop. -/
  | load
  | command (c : SemCommand) (sem : Sem) (row : ℕ)
  /-- The commit that claims a row. -/
  | claim (row : ℕ)
  | rollback
  | byId (row : ℕ)
  /-- The approval gate and the sensitivity gate of `run_exec`. -/
  | gates (row : ℕ)
  /-- `_write_log` of `run_exec`, or the log lines of `_execute_via_mock`. -/
  | log (row : ℕ)
  /-- The guarded update that records the outcome of a row. -/
  | finish (row : ℕ)
  | frame (row : ℕ)
  | broadcastRunning (row : ℕ)
  | refresh (row : ℕ)
  | broadcast (row : ℕ)
  | reload
  | stats
  | enqueue
  | settle
  deriving DecidableEq, Repr

/-- What a dispatch meets: the calls that raise, the limits of the configuration rules, and the
answers of the executors. -/
structure CallEnv extends ExecEnv where
  raises : DispatchCall → Bool
  globalLimit : ℤ
  hostLimit : ℤ
  agentAccepts : ℕ → Bool
  sshSucceeds : ℕ → Bool

/-- What a dispatch did to permits and rows. -/
inductive DispatchEvent where
  | acquired (sem : Sem)
  | released (sem : Sem)
  | claimed (row : ℕ)
  | handed (row : ℕ) (via : Via) (content : String)
  deriving DecidableEq, Repr

/-- The tables, the semaphores, the identifiers of the rows started so far and the events of a
dispatch. -/
structure DispatchState where
  db : ExecDb
  sems : Sem → SemKey
  started : List ℕ
  events : List DispatchEvent

/-- `ExecTaskHostRepository.by_id`. -/
def ExecDb.taskHost? (db : ExecDb) (id : ℕ) : Option ExecTaskHost :=
  Table.find ExecTaskHost.id db.taskHosts id

/-- A dispatch that has not begun. -/
def DispatchState.begin (db : ExecDb) (sems : Sem → SemKey) : DispatchState := ⟨db, sems, [], []⟩

/-- A part of a dispatch. -/
abbrev Dispatch := EStateM DispatchCall DispatchState

namespace Dispatch

variable (env : CallEnv)

/-- A call that only changes the state. -/
def perform (c : DispatchCall) (f : DispatchState → DispatchState) : Dispatch Unit :=
  Faults.call env.raises c fun s => ((), f s)

/-- A call whose effect the dispatch does not see. -/
def touch (c : DispatchCall) : Dispatch Unit := perform env c id

variable {env} {c : DispatchCall} {f : DispatchState → DispatchState} {s : DispatchState}

theorem perform_of_raises (h : env.raises c = true) : (perform env c f).run s = .error c s :=
  Faults.call_of_raises h

theorem perform_of_quiet (h : env.raises c = false) : (perform env c f).run s = .ok () (f s) :=
  Faults.call_of_quiet h

theorem touch_of_raises (h : env.raises c = true) : (touch env c).run s = .error c s :=
  Faults.call_of_raises h

theorem touch_of_quiet (h : env.raises c = false) : (touch env c).run s = .ok () s :=
  Faults.call_of_quiet h

end Dispatch

/-- Change one semaphore. -/
def DispatchState.setSem (s : DispatchState) (sem : Sem) (key : SemKey) : DispatchState :=
  { s with sems := Function.update s.sems sem key }

/-- Append an event. -/
def DispatchState.log (s : DispatchState) (e : DispatchEvent) : DispatchState :=
  { s with events := s.events ++ [e] }

/-- Append an event if it happens. -/
def noteIf (b : Bool) (e : DispatchEvent) : Dispatch Unit :=
  modify fun s => if b then s.log e else s

/-- Change one host row. -/
def DispatchState.setRow (s : DispatchState) (row : ℕ) (f : ExecTaskHost → ExecTaskHost) :
    DispatchState :=
  { s with db := s.db.setTaskHost row f }

@[simp] theorem setSem_sems_self (s : DispatchState) (sem : Sem) (key : SemKey) :
    (s.setSem sem key).sems sem = key := by
  simp [DispatchState.setSem]

@[simp] theorem setSem_setSem (s : DispatchState) (sem : Sem) (key key' : SemKey) :
    (s.setSem sem key).setSem sem key' = s.setSem sem key' := by
  simp [DispatchState.setSem]

@[simp] theorem log_sems (s : DispatchState) (e : DispatchEvent) : (s.log e).sems = s.sems := rfl

theorem log_setSem (s : DispatchState) (e : DispatchEvent) (sem : Sem) (key : SemKey) :
    (s.log e).setSem sem key = (s.setSem sem key).log e := rfl

/-! ### The semaphores -/

section Program

open Dispatch Faults

variable (env : CallEnv)

/-- The body of the `try` in `acquire_semaphore`: read the counter, and write it if it is below
the limit. A permit is acquired with the write. -/
def countUp (sem : Sem) (limit : ℤ) (row : ℕ) : Dispatch Bool := do
  let cur ← call env.raises (.command .getValue sem row) fun s => ((s.sems sem).value, s)
  if cur < limit then do
    perform env (.command .setValue sem row) fun s =>
      (s.setSem sem ((s.sems sem).setValue (cur + 1))).log (.acquired sem)
    pure true
  else pure false

/-- `acquire_semaphore`; without Redis there is no limit. -/
def acquireSemaphore (sem : Sem) (limit : ℤ) (row : ℕ) : Dispatch Bool :=
  if env.brokerUp then do
    let acquiredLock ← call env.raises (.command .setLock sem row) fun s =>
      ((s.sems sem).setLock.1, s.setSem sem (s.sems sem).setLock.2)
    if acquiredLock then
      protect (countUp env sem limit row)
        (perform env (.command .delLock sem row) fun s => s.setSem sem (s.sems sem).delLock)
    else pure false
  else pure true

/-- `release_semaphore`. -/
def releaseSemaphore (sem : Sem) (row : ℕ) : Dispatch Unit :=
  if env.brokerUp then
    perform env (.command .decr sem row) fun s =>
      (s.setSem sem (s.sems sem).decr).log (.released sem)
  else pure ()

/-- `release_semaphore` of the host, then of `exec:global`. -/
def releaseBoth (th : ExecTaskHost) : Dispatch Unit := do
  releaseSemaphore env (.host th.hostId) th.id
  releaseSemaphore env .global th.id

/-! ### The claiming loop -/

/-- The commit of a claim. -/
def commitClaim (th : ExecTaskHost) : Dispatch Unit :=
  perform env (.claim th.id) fun s =>
    (s.setRow th.id fun r => { r with status := .running, startedAt := some env.now }).log
      (.claimed th.id)

/-- One pass of the claiming loop over a pending row; `false` leaves the loop. -/
def claimRow (th : ExecTaskHost) : Dispatch Bool := do
  if ← acquireSemaphore env .global env.globalLimit th.id then
    if ← acquireSemaphore env (.host th.hostId) env.hostLimit th.id then do
      cleanup (commitClaim env th) (releaseBoth env th)
      modify fun s => { s with started := s.started ++ [th.id] }
      pure true
    else do
      releaseSemaphore env .global th.id
      pure false
  else pure false

/-- The claiming loop over the pending rows. -/
def claimLoop : List ExecTaskHost → Dispatch Unit
  | [] => pure ()
  | th :: rest => do
      if ← claimRow env th then claimLoop rest else pure ()

/-! ### The handover loop -/

/-- The outcome of a row that is still running. -/
def recordOutcome (ok : Bool) (r : ExecTaskHost) : ExecTaskHost :=
  if r.status = .running then
    { r with
      status := if ok then .success else .failed
      exitCode := some (if ok then 0 else 1)
      finishedAt := some env.now }
  else r

/-- The guarded update that records the outcome of a row. -/
def finishIfRunning (row : ℕ) (ok : Bool) : Dispatch Unit :=
  perform env (.finish row) fun s => s.setRow row (recordOutcome env ok)

/-- What follows an execution: its log, the record of its outcome, the refresh of the row and
the broadcast. The log and the record are in `_run_ssh_executor` and in `_execute_via_mock`. -/
def conclude (row : ℕ) (ok : Bool) : Dispatch Unit := do
  touch env (.log row)
  finishIfRunning env row ok
  touch env (.refresh row)
  touch env (.broadcast row)

/-- The ssh branch. An exception of the executor itself is an outcome: `run_exec` catches it. -/
def handSsh (admitted : Bool) (content : String) (th : ExecTaskHost) : Dispatch Unit := do
  touch env (.gates th.id)
  noteIf admitted (.handed th.id .ssh content)
  conclude env th.id (admitted && env.sshSucceeds th.id)

/-- The agent branch: a frame for a connected agent, or the mock executor. -/
def handAgent (accepted : Bool) (content : String) (th : ExecTaskHost) : Dispatch Unit := do
  touch env (.frame th.id)
  noteIf accepted (.handed th.id .agent content)
  touch env (.broadcastRunning th.id)
  if accepted then pure ()
  else do
    noteIf true (.handed th.id .mock content)
    conclude env th.id true

/-- What the executors of a dispatch read: the content, whether the gates of `run_exec` admit
it, and whether an agent accepts the frame of a row with an executor and a host. -/
structure HandEnv where
  content : String
  admitted : Bool
  accepted (executor : String) (hostId row : ℕ) : Bool

variable (hand : HandEnv)

/-- The handover of one row, inside its `try`. -/
def handBody (th : ExecTaskHost) : Dispatch Unit :=
  if th.executor = "ssh" then handSsh env hand.admitted hand.content th
  else handAgent env (hand.accepted th.executor th.hostId th.id) hand.content th

/-- The handover loop over the started rows. -/
def handLoop : List ℕ → Dispatch Unit
  | [] => pure ()
  | row :: rest => do
      let found ← call env.raises (.byId row) fun s => (s.db.taskHost? row, s)
      match found with
      | none => handLoop rest
      | some th => do
          protect (handBody env hand th) (releaseBoth env th)
          handLoop rest

/-! ### `exec_dispatch` -/

/-- The end of `exec_dispatch`: a task with live hosts is enqueued again while one of them is
pending, any other gets its aggregate status. -/
def settleCalls (task : ExecTask) : Dispatch Unit := do
  touch env .reload
  touch env .stats
  let s ← get
  let statuses := (s.db.hostsOfTask task.id).map (·.status)
  if .running ∈ statuses ∨ .pending ∈ statuses then
    if .pending ∈ statuses ∧ env.brokerUp then
      perform env .enqueue fun s => { s with db := settleTask env.toExecEnv s.db task }
    else pure ()
  else
    perform env .settle fun s => { s with db := settleTask env.toExecEnv s.db task }

/-- What the executors read, from the tables that the dispatch loads. -/
def handEnv (lower : String → String) (db : ExecDb) (task : ExecTask) : HandEnv :=
  let content := resolveContent db task
  { content := content
    admitted := sshGate lower db task content (db.hostsOfTask task.id).length
    accepted := fun executor hostId row => decide (executor = "agent") &&
      ((db.host? hostId).bind (·.agentId)).any (· ≠ "") && env.agentAccepts row }

/-- The pending rows of a task, in the order in which they are claimed. -/
def pendingRows (db : ExecDb) (taskId : ℕ) : List ExecTaskHost :=
  (db.hostsOfTask taskId).filter fun th => decide (th.status = .pending)

/-- The body of `exec_dispatch` for a running task. -/
def dispatchRunning (hand : HandEnv) (task : ExecTask) (rows : List ExecTaskHost) :
    Dispatch Unit := do
  recover (claimLoop env rows) (touch env .rollback)
  let s ← get
  if s.started.isEmpty then pure ()
  else do
    handLoop env hand s.started
    settleCalls env task

/-- `exec_dispatch`. -/
def dispatchCalls (lower : String → String) (taskId : ℕ) : Dispatch Unit := do
  touch env .load
  let s ← get
  match s.db.task? taskId with
  | none => pure ()
  | some task =>
      if task.status = .running then
        dispatchRunning env (handEnv env lower s.db task) task (pendingRows s.db taskId)
      else pure ()

end Program

end LarkPlat
