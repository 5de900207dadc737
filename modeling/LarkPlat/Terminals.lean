import LarkPlat.ExecCalls

/-!
# Terminal Sessions

The second kind of subject that an approval request can be bound to. A session on a sensitive host
is inserted together with a request and awaits its approval; the approval opens it, the withdrawal
of the request closes it, and `close_session` closes an awaiting session together with its request.
`reject` has no linkage for sessions.

`Desk` joins the session table with the execution tables. The decisions of the approval service act
on both: on the execution tables as `ExecService` has them (`Desk.approve_exec` and its siblings),
and on the session that a terminal request is bound to.
-/

namespace LarkPlat

/-- The statuses of a terminal session. -/
inductive SessionStatus
  | open
  | awaitingApproval
  | closed
  deriving DecidableEq, Repr

/-- A row of `terminal_session`. -/
structure TerminalSession where
  id : ℕ
  hostId : ℕ
  userId : ℕ
  status : SessionStatus
  closeReason : String
  sensitive : Bool
  approvalId : Option ℕ
  version : ℕ
  startedAt : Option ℚ
  finishedAt : Option ℚ
  durationSec : ℤ
  deriving DecidableEq

/-- The caller of an endpoint. -/
structure Actor where
  id : ℕ
  isAdmin : Bool
  visibleGroupIds : List ℕ
  hasPerm : String → Bool

/-- `require_perm`. -/
def Actor.requirePerm (user : Actor) (code : String) : Except PyErr Unit :=
  if user.hasPerm code then .ok () else .error (.forbidden ("permission denied: " ++ code))

/-- The host lies in a group that the caller sees. -/
def Actor.sees (user : Actor) (host : Host) : Bool :=
  user.isAdmin || (user.visibleGroupIds.map some).contains host.groupId

/-- The execution tables with the sessions. `sensitiveHosts` lists the hosts whose sensitivity level
is `sensitive`; the limits are those of `_rules`. -/
structure Desk where
  exec : ExecDb
  sessions : List TerminalSession
  nextSession : ℕ
  sensitiveHosts : List ℕ
  userLimit : ℤ
  globalLimit : ℤ
  deriving DecidableEq

namespace Desk

/-- No session yet. -/
def fresh (hosts : List Host) (rules : ExecRules) (sensitiveHosts : List ℕ) : Desk where
  exec := ExecDb.fresh hosts rules
  sessions := []
  nextSession := 1
  sensitiveHosts := sensitiveHosts
  userLimit := 1
  globalLimit := 100

/-- `TerminalSessionRepository.get`. -/
def session? (d : Desk) (id : ℕ) : Option TerminalSession :=
  Table.find TerminalSession.id d.sessions id

/-- Change one session. -/
def setSession (d : Desk) (id : ℕ) (f : TerminalSession → TerminalSession) : Desk :=
  { d with sessions := Table.modify TerminalSession.id d.sessions id f }

/-- `count_open_by_user` and `count_open_global`: an awaiting session counts. -/
def countOpen (d : Desk) (p : TerminalSession → Bool) : ℤ :=
  (d.sessions.countP fun s => p s && decide (s.status ≠ .closed) : ℕ)

/-! ### The terminal service -/

/-- The session that `create_session` inserts. -/
def newSession (d : Desk) (now : ℚ) (user : Actor) (host : Host) : TerminalSession where
  id := d.nextSession
  hostId := host.id
  userId := user.id
  status := .open
  closeReason := ""
  sensitive := decide (host.id ∈ d.sensitiveHosts)
  approvalId := none
  version := 1
  startedAt := some now
  finishedAt := none
  durationSec := 0

/-- The tables after the commit of `create_session`. A session on a sensitive host awaits a request,
whose `biz_id` must be unique. -/
def insertSession (d : Desk) (session : TerminalSession) : Except PyErr Desk :=
  if session.sensitive then
    if d.exec.approvals.any (fun a => decide (a.bizId = session.id)) then .error .integrityError
    else
      let approval := terminalApproval d.exec session.id session.userId
      .ok { d with
        exec := d.exec.addRequest approval
        sessions := d.sessions ++ [{ session with
          approvalId := some approval.id, status := .awaitingApproval }]
        nextSession := d.nextSession + 1 }
  else .ok { d with sessions := d.sessions ++ [session], nextSession := d.nextSession + 1 }

/-- The checks of `create_session`, and the session that it goes on to insert. -/
def sessionToCreate (d : Desk) (now : ℚ) (user : Actor) (hostId : ℕ) :
    Except PyErr TerminalSession := do
  user.requirePerm "terminal:create"
  match d.exec.host? hostId with
  | none => throw (.notFound "host not found")
  | some host =>
      if ¬ user.sees host then
        throw (.forbidden ("no data permission for host " ++ toString host.id))
      if d.userLimit ≤ d.countOpen fun s => decide (s.userId = user.id) then
        throw (.rateLimit "user terminal session concurrency limit reached")
      if d.globalLimit ≤ d.countOpen fun _ => true then
        throw (.rateLimit "global terminal session concurrency limit reached")
      pure (d.newSession now user host)

/-- `create_session`. -/
def createSession (d : Desk) (now : ℚ) (user : Actor) (hostId : ℕ) : Except PyErr Desk :=
  d.sessionToCreate now user hostId >>= d.insertSession

/-- `_require_visible_session`. -/
def requireVisibleSession (d : Desk) (user : Actor) (sessionId : ℕ) :
    Except PyErr TerminalSession :=
  match d.session? sessionId with
  | none => .error (.notFound "terminal session not found")
  | some session =>
      if user.isAdmin ∨ session.userId = user.id ∨
          (d.exec.host? session.hostId).any user.sees then .ok session
      else .error (.forbidden "no permission to view this terminal session")

/-- `optimistic_close`. -/
def optimisticClose (d : Desk) (id version : ℕ) : Option Desk :=
  match d.session? id with
  | some s =>
      if s.status = .open ∧ s.version = version then
        some (d.setSession id fun s => { s with status := .closed, version := version + 1 })
      else none
  | none => none

/-- `int(total_seconds())`. -/
def wholeSeconds (q : ℚ) : ℤ := if 0 ≤ q then q.floor else q.ceil

/-- `close_session` on an awaiting session: its pending request is canceled with it. -/
def closeAwaiting (d : Desk) (now : ℚ) (session : TerminalSession) : Desk :=
  let exec :=
    match session.approvalId.bind d.exec.approval? with
    | some a =>
        if a.status = .pending then
          (d.exec.casApproval a.id .pending .canceled a.version).getD d.exec
        else d.exec
    | none => d.exec
  { d with exec := exec }.setSession session.id fun s =>
    { s with
      status := .closed, closeReason := "canceled_before_approval", finishedAt := some now }

/-- `close_session` and the two limits on an open session. -/
def closeOpen (d : Desk) (now : ℚ) (reason : String) (session : TerminalSession) :
    Option Desk :=
  (d.optimisticClose session.id session.version).map fun d =>
    d.setSession session.id fun s =>
      { s with
        status := .closed
        closeReason := reason
        finishedAt := some now
        durationSec := (session.startedAt.map fun start => wholeSeconds (now - start)).getD 0 }

/-- `close_session`. -/
def closeSession (d : Desk) (now : ℚ) (user : Actor) (sessionId : ℕ) : Except PyErr Desk := do
  user.requirePerm "terminal:close"
  let session ← d.requireVisibleSession user sessionId
  match session.status with
  | .awaitingApproval => pure (d.closeAwaiting now session)
  | .closed => throw (.badRequest "terminal session already closed")
  | .open =>
      match d.closeOpen now "manual" session with
      | none => throw (.badRequest "terminal session state changed concurrently")
      | some d => pure d

/-- `mark_idle_timeout` and `mark_duration_limit`. -/
def limitSession (d : Desk) (now : ℚ) (reason : String) (sessionId : ℕ) : Desk :=
  match d.session? sessionId with
  | some session =>
      if session.status = .open then (d.closeOpen now reason session).getD d else d
  | none => d

/-- Change the session that a request is bound to, if it awaits. -/
def linkSession (d : Desk) (a : ApprovalRequest) (f : TerminalSession → TerminalSession) : Desk :=
  if a.bizType = .terminal ∧
      (d.session? a.bizId).any fun s => decide (s.status = .awaitingApproval) then
    d.setSession a.bizId f
  else d

/-- `activate_on_approval`. -/
def activateOnApproval (d : Desk) (now : ℚ) (a : ApprovalRequest) : Desk :=
  d.linkSession a fun s => { s with status := .open, startedAt := some now }

/-- `close_on_cancel`. -/
def closeOnCancel (d : Desk) (now : ℚ) (a : ApprovalRequest) : Desk :=
  d.linkSession a fun s =>
    { s with
      status := .closed, closeReason := "canceled_before_approval", finishedAt := some now }

/-! ### Decisions with both linkages -/

/-- `approve`. -/
def approve (d : Desk) (env : ExecEnv) (userId approvalId : ℕ) : Except PyErr Desk := do
  let a ← requirePending d.exec approvalId
  let exec ← decide? d.exec a .approved (some userId)
  match a.bizType with
  | .terminal => pure ({ d with exec := exec }.activateOnApproval env.now a)
  | .exec => do
      let exec ← approveExec env exec a.bizId
      pure { d with exec := exec }
  | _ => pure { d with exec := exec }

/-- `reject`: an awaiting task is canceled, an awaiting session is left. -/
def reject (d : Desk) (env : ExecEnv) (userId approvalId : ℕ) : Except PyErr Desk := do
  let a ← requirePending d.exec approvalId
  let exec ← decide? d.exec a .rejected (some userId)
  if a.bizType = .exec then pure { d with exec := cancelAwaiting env exec a.bizId }
  else pure { d with exec := exec }

/-- `cancel`. -/
def cancelApproval (d : Desk) (env : ExecEnv) (userId : ℕ) (isAdmin : Bool) (approvalId : ℕ) :
    Except PyErr Desk := do
  let a ← requirePending d.exec approvalId
  if a.requesterId ≠ userId ∧ ¬ isAdmin then
    throw (.forbidden "only requester can cancel")
  let exec ← decide? d.exec a .canceled a.approverId
  match a.bizType with
  | .terminal => pure ({ d with exec := exec }.closeOnCancel env.now a)
  | .exec => pure { d with exec := cancelAwaiting env exec a.bizId }
  | _ => pure { d with exec := exec }

/-! ### The linkages leave the execution tables alone -/

variable {d d' : Desk} {env : ExecEnv} {userId approvalId : ℕ}

@[simp] theorem linkSession_exec (d : Desk) (a : ApprovalRequest)
    (f : TerminalSession → TerminalSession) : (d.linkSession a f).exec = d.exec := by
  unfold linkSession
  split_ifs <;> rfl

/-- On the execution tables, the decisions are those of the execution service. -/
theorem approve_exec (d : Desk) (env : ExecEnv) (userId approvalId : ℕ) :
    (d.approve env userId approvalId).map Desk.exec =
      LarkPlat.approve env d.exec userId approvalId := by
  unfold approve LarkPlat.approve
  rcases requirePending d.exec approvalId with e | a
  · rfl
  rcases hd : decide? d.exec a .approved (some userId) with e | exec
  · simp only [bind, Except.bind, hd]
    rfl
  simp only [bind, Except.bind, hd]
  rcases hb : a.bizType
  · rcases ha : approveExec env exec a.bizId with e | exec'
    · rfl
    · rfl
  · simp [activateOnApproval, pure, Except.pure, Except.map]
  · rfl
  · rfl

theorem reject_exec (d : Desk) (env : ExecEnv) (userId approvalId : ℕ) :
    (d.reject env userId approvalId).map Desk.exec =
      LarkPlat.reject env d.exec userId approvalId := by
  unfold reject LarkPlat.reject
  rcases requirePending d.exec approvalId with e | a
  · rfl
  rcases hd : decide? d.exec a .rejected (some userId) with e | exec
  · simp only [bind, Except.bind, hd]
    rfl
  simp only [bind, Except.bind, hd]
  split_ifs <;> rfl

theorem cancelApproval_exec (d : Desk) (env : ExecEnv) (userId : ℕ) (isAdmin : Bool)
    (approvalId : ℕ) :
    (d.cancelApproval env userId isAdmin approvalId).map Desk.exec =
      LarkPlat.cancelApproval env d.exec userId isAdmin approvalId := by
  unfold cancelApproval LarkPlat.cancelApproval
  rcases requirePending d.exec approvalId with e | a
  · rfl
  simp only [bind, Except.bind]
  by_cases hperm : a.requesterId ≠ userId ∧ ¬ isAdmin = true
  · rw [if_pos hperm, if_pos hperm]
    rfl
  rw [if_neg hperm, if_neg hperm]
  rcases hd : decide? d.exec a .canceled a.approverId with e | exec
  · rfl
  simp only [pure, Except.pure]
  rcases hb : a.bizType
  · rfl
  · simp [closeOnCancel, Except.map]
  · rfl
  · rfl

end Desk

end LarkPlat
