import LarkPlat.RunService
import LarkPlat.TransitionTables

/-!
# Tickets, Releases and their Tables

`ticket_service.py` and `cicd_service.py`: a transition request reads the row, checks its action
against the table, and commits what it changed by the primary key. A ticket counts its versions and
no commit compares them. `fail_release_for_run` is called by the engine, whose session commits
later.

A session writes back the columns that it changed. The audit rows of the release routes and the run
that `cancel_release` cancels are not part of the rows here.

## Main results

* `TicketRequest.images_edge`, `ReleaseRequest.images_edge`: what a request will write follows the
  table from what it read.
* `histories_follow_iff`: the committed statuses of a ticket and of a release follow their tables
  exactly if each commit that would change the status finds it as read, or does no harm.
-/

namespace LarkPlat

open Machine Sessions

/-! ### Tickets -/

/-- The statuses of a ticket. -/
inductive TicketStatus
  | create | assign | accept | processing | done | close | cancel
  deriving DecidableEq, Repr

/-- The actions on a ticket. -/
inductive TicketAction
  | assign | accept | process | done | close | reopen | cancel
  deriving DecidableEq, Repr

/-- The text of a status. -/
def TicketStatus.name : TicketStatus → String
  | create => "create"
  | assign => "assign"
  | accept => "accept"
  | processing => "processing"
  | done => "done"
  | close => "close"
  | cancel => "cancel"

/-- The key of an action. -/
def TicketAction.name : TicketAction → String
  | assign => "assign"
  | accept => "accept"
  | process => "process"
  | done => "done"
  | close => "close"
  | reopen => "reopen"
  | cancel => "cancel"

/-- `TICKET_TRANSITIONS`. -/
def ticketTransitions : TransitionTable TicketAction TicketStatus where
  allowedFrom
    | .assign => [.create, .assign]
    | .accept => [.assign]
    | .process => [.accept]
    | .done => [.processing]
    | .close => [.done]
    | .reopen => [.done, .close]
    | .cancel => [.create, .assign, .accept, .processing]
  target
    | .assign => .assign
    | .accept => .accept
    | .process => .processing
    | .done => .done
    | .close => .close
    | .reopen => .processing
    | .cancel => .cancel

/-- A ticket with the columns that transitions read or write, and the references that are added to
it. -/
structure Ticket where
  id : ℕ
  status : TicketStatus
  assigneeId : Option ℤ
  resolvedAt : Option ℚ
  closedAt : Option ℚ
  version : ℤ
  refs : List (String × ℤ)
  deriving DecidableEq

/-- `_apply_transition`. -/
def applyTransition (ticket : Ticket) (action : TicketAction) : Except PyErr Ticket :=
  if ticket.status ∈ ticketTransitions.allowedFrom action then
    .ok { ticket with status := ticketTransitions.target action, version := ticket.version + 1 }
  else
    .error (.badRequest
      ("cannot " ++ action.name ++ " ticket in status '" ++ ticket.status.name ++ "'"))

/-- `assign_ticket`. -/
def assignTicket (g : Gate) (assigneeId : ℤ) (ticket : Ticket) : Except PyErr Ticket := do
  g.check "ticket:assign"
  let ticket ← applyTransition ticket .assign
  return { ticket with assigneeId := some assigneeId }

/-- `_simple_transition`. -/
def simpleTransition (g : Gate) (now : ℚ) (action : TicketAction) (perm : String)
    (ticket : Ticket) : Except PyErr Ticket := do
  g.check perm
  let ticket ← applyTransition ticket action
  return if action = .close then { ticket with closedAt := some now } else ticket

/-- `accept_ticket`. -/
def acceptTicket (g : Gate) (now : ℚ) : Ticket → Except PyErr Ticket :=
  simpleTransition g now .accept "ticket:accept"

/-- `process_ticket`. -/
def processTicket (g : Gate) (now : ℚ) : Ticket → Except PyErr Ticket :=
  simpleTransition g now .process "ticket:process"

/-- `close_ticket`. -/
def closeTicket (g : Gate) (now : ℚ) : Ticket → Except PyErr Ticket :=
  simpleTransition g now .close "ticket:close"

/-- `reopen_ticket`. -/
def reopenTicket (g : Gate) (now : ℚ) : Ticket → Except PyErr Ticket :=
  simpleTransition g now .reopen "ticket:reopen"

/-- `cancel_ticket`. -/
def cancelTicket (g : Gate) (now : ℚ) : Ticket → Except PyErr Ticket :=
  simpleTransition g now .cancel "ticket:cancel"

/-- `done_ticket`. A task that is named is referred to. -/
def doneTicket (g : Gate) (now : ℚ) (execTaskId : Option ℤ) (ticket : Ticket) :
    Except PyErr Ticket := do
  g.check "ticket:done"
  let ticket ← applyTransition ticket .done
  let ticket := { ticket with resolvedAt := some now }
  match execTaskId with
  | some task =>
      return if task = 0 then ticket else { ticket with refs := ticket.refs ++ [("exec_task", task)] }
  | none => return ticket

/-- The transition requests on one ticket. -/
inductive TicketRequest
  | assign (g : Gate) (assigneeId : ℤ)
  | accept (g : Gate) (now : ℚ)
  | process (g : Gate) (now : ℚ)
  | close (g : Gate) (now : ℚ)
  | reopen (g : Gate) (now : ℚ)
  | cancel (g : Gate) (now : ℚ)
  | done (g : Gate) (now : ℚ) (execTaskId : Option ℤ)

/-- The row that a request commits. -/
def TicketRequest.row : TicketRequest → Ticket → Except PyErr Ticket
  | assign g assigneeId => assignTicket g assigneeId
  | accept g now => acceptTicket g now
  | process g now => processTicket g now
  | close g now => closeTicket g now
  | reopen g now => reopenTicket g now
  | cancel g now => cancelTicket g now
  | done g now execTaskId => doneTicket g now execTaskId

/-- A request commits once. -/
def TicketRequest.images (q : TicketRequest) (ticket : Ticket) : Except PyErr (List Ticket) :=
  (q.row ticket).map fun image => [image]

/-- The row after a session has written back what it changed. References are rows of their own. -/
def Ticket.flush (base image db : Ticket) : Ticket where
  id := db.id
  status := writeBack base.status image.status db.status
  assigneeId := writeBack base.assigneeId image.assigneeId db.assigneeId
  resolvedAt := writeBack base.resolvedAt image.resolvedAt db.resolvedAt
  closedAt := writeBack base.closedAt image.closedAt db.closedAt
  version := writeBack base.version image.version db.version
  refs := db.refs ++ image.refs.drop base.refs.length

/-- A ticket that is closed or cancelled. -/
def TicketStatus.Settled (s : TicketStatus) : Prop :=
  s = close ∨ s = cancel

theorem applyTransition_edge {ticket image : Ticket} {action : TicketAction}
    (h : applyTransition ticket action = .ok image) :
    ticketTransitions.Edge ticket.status image.status := by
  by_cases hallowed : ticket.status ∈ ticketTransitions.allowedFrom action
  · rw [applyTransition, if_pos hallowed] at h
    rw [← Except.ok.inj h]
    exact ⟨action, hallowed, rfl⟩
  · rw [applyTransition, if_neg hallowed] at h
    cases h

theorem simpleTransition_edge {g : Gate} {now : ℚ} {action : TicketAction} {perm : String}
    {ticket image : Ticket} (h : simpleTransition g now action perm ticket = .ok image) :
    ticketTransitions.Edge ticket.status image.status := by
  obtain ⟨-, -, h⟩ := bind_eq_ok.mp h
  obtain ⟨moved, hmoved, h⟩ := bind_eq_ok.mp h
  have hstatus : image.status = moved.status := by
    rw [← Except.ok.inj h]
    split_ifs <;> rfl
  rw [hstatus]
  exact applyTransition_edge hmoved

/-- The row that a request commits is one action away from the row that it read. -/
theorem TicketRequest.row_edge {q : TicketRequest} {ticket image : Ticket}
    (h : q.row ticket = .ok image) : ticketTransitions.Edge ticket.status image.status := by
  cases q with
  | assign g assigneeId =>
      obtain ⟨-, -, h⟩ := bind_eq_ok.mp h
      obtain ⟨moved, hmoved, h⟩ := bind_eq_ok.mp h
      have hstatus : image.status = moved.status := by rw [← Except.ok.inj h]
      rw [hstatus]
      exact applyTransition_edge hmoved
  | accept g now => exact simpleTransition_edge h
  | process g now => exact simpleTransition_edge h
  | close g now => exact simpleTransition_edge h
  | reopen g now => exact simpleTransition_edge h
  | cancel g now => exact simpleTransition_edge h
  | done g now execTaskId =>
      obtain ⟨-, -, h⟩ := bind_eq_ok.mp h
      obtain ⟨moved, hmoved, h⟩ := bind_eq_ok.mp h
      have hstatus : image.status = moved.status := by
        cases execTaskId with
        | none => rw [← Except.ok.inj h]
        | some task =>
            rw [← Except.ok.inj h]
            split_ifs <;> rfl
      rw [hstatus]
      exact applyTransition_edge hmoved

/-- What a request on a ticket will write follows the table. -/
theorem TicketRequest.images_edge {q : TicketRequest} {ticket : Ticket} {pending : List Ticket}
    (h : q.images ticket = .ok pending) :
    EachWrite (fun b i => i.status = b.status ∨ ticketTransitions.Edge b.status i.status) ticket
      pending := by
  rw [TicketRequest.images] at h
  cases hrow : q.row ticket with
  | error e =>
      rw [hrow] at h
      cases h
  | ok image =>
      rw [hrow] at h
      rw [← Except.ok.inj h]
      exact ⟨Or.inr (TicketRequest.row_edge hrow), trivial⟩

/-! ### Releases -/

/-- The actions on a release. -/
inductive ReleaseAction
  | deploy | canary | promote | fail | rollback | cancel
  deriving DecidableEq, Repr

/-- The key of an action. -/
def ReleaseAction.name : ReleaseAction → String
  | deploy => "deploy"
  | canary => "canary"
  | promote => "promote"
  | fail => "fail"
  | rollback => "rollback"
  | cancel => "cancel"

/-- `RELEASE_TRANSITIONS`. -/
def releaseTransitions : TransitionTable ReleaseAction ReleaseStatus where
  allowedFrom
    | .deploy => [.pending]
    | .canary => [.pending, .deploying]
    | .promote => [.canary]
    | .fail => [.deploying, .canary]
    | .rollback => [.deploying, .canary, .failed]
    | .cancel => [.pending, .deploying, .canary]
  target
    | .deploy => .deploying
    | .canary => .canary
    | .promote => .succeeded
    | .fail => .failed
    | .rollback => .rolledBack
    | .cancel => .cancelled

/-- A release with the columns that transitions read or write. -/
structure ReleaseRow extends Release where
  rolledBackFrom : Option ℕ
  deriving DecidableEq

/-- `_apply_release_transition`. -/
def applyReleaseTransition (r : ReleaseRow) (action : ReleaseAction) : Except PyErr ReleaseRow :=
  if r.status ∈ releaseTransitions.allowedFrom action then
    .ok { r with status := releaseTransitions.target action }
  else
    .error (.conflict ("cannot " ++ action.name ++ " release in status '" ++ r.status.name ++ "'"))

/-- `fail_release_for_run`, with the row that its session commits. -/
def failReleaseRow (run : WorkflowRun) (r : ReleaseRow) : ReleaseRow × Bool :=
  if run.triggerType ≠ .release then (r, false)
  else if r.workflowRunId ≠ some run.id then (r, false)
  else if r.status ∈ releaseTransitions.allowedFrom .fail then
    ({ r with status := releaseTransitions.target .fail }, true)
  else (r, false)

/-- A route that applies one action. -/
def releaseTransition (g : Gate) (action : ReleaseAction) (perm : String) (r : ReleaseRow) :
    Except PyErr ReleaseRow := do
  g.check perm
  applyReleaseTransition r action

/-- `deploy_release`. -/
def deployRelease (g : Gate) : ReleaseRow → Except PyErr ReleaseRow :=
  releaseTransition g .deploy "release:deploy"

/-- `promote_release`. -/
def promoteRelease (g : Gate) : ReleaseRow → Except PyErr ReleaseRow :=
  releaseTransition g .promote "release:promote"

/-- `fail_release`. -/
def failRelease (g : Gate) : ReleaseRow → Except PyErr ReleaseRow :=
  releaseTransition g .fail "release:fail"

/-- `cancel_release`, as far as the release is concerned. -/
def cancelReleaseRow (g : Gate) : ReleaseRow → Except PyErr ReleaseRow :=
  releaseTransition g .cancel "release:cancel"

/-- `rollback_release`. -/
def rollbackRelease (g : Gate) (r : ReleaseRow) : Except PyErr ReleaseRow := do
  let image ← releaseTransition g .rollback "release:rollback" r
  return { image with rolledBackFrom := r.workflowRunId }

/-- `canary_release`: starting the run commits, after its workflow if that had to be added, and the
number of the run is committed after it. -/
def canaryRelease (g : Gate) (addsWorkflow : Bool) (runId : ℕ) (r : ReleaseRow) :
    Except PyErr (List ReleaseRow) := do
  let image ← releaseTransition g .canary "release:canary" r
  let started := if addsWorkflow then [image, image] else [image]
  return started ++ [{ image with workflowRunId := some runId }]

/-- The transition requests on one release, that of the engine among them. -/
inductive ReleaseRequest
  | deploy (g : Gate)
  | canary (g : Gate) (addsWorkflow : Bool) (runId : ℕ)
  | promote (g : Gate)
  | fail (g : Gate)
  | rollback (g : Gate)
  | cancel (g : Gate)
  | failForRun (run : WorkflowRun)

/-- The rows that a request commits, in order. -/
def ReleaseRequest.images : ReleaseRequest → ReleaseRow → Except PyErr (List ReleaseRow)
  | deploy g, r => (deployRelease g r).map fun image => [image]
  | canary g addsWorkflow runId, r => canaryRelease g addsWorkflow runId r
  | promote g, r => (promoteRelease g r).map fun image => [image]
  | fail g, r => (failRelease g r).map fun image => [image]
  | rollback g, r => (rollbackRelease g r).map fun image => [image]
  | cancel g, r => (cancelReleaseRow g r).map fun image => [image]
  | failForRun run, r => .ok [(failReleaseRow run r).1]

/-- The row after a session has written back what it changed. -/
def ReleaseRow.flush (base image db : ReleaseRow) : ReleaseRow where
  id := db.id
  status := writeBack base.status image.status db.status
  workflowRunId := writeBack base.workflowRunId image.workflowRunId db.workflowRunId
  rolledBackFrom := writeBack base.rolledBackFrom image.rolledBackFrom db.rolledBackFrom

/-- A release that has succeeded, was rolled back or is cancelled. -/
def releaseSettled (s : ReleaseStatus) : Prop :=
  s = .succeeded ∨ s = .rolledBack ∨ s = .cancelled

/-- The engine's request does to the row what `failReleaseForRun` says. -/
theorem failReleaseRow_release (s : RunState) (r : ReleaseRow) (h : s.release = some r.toRelease)
    (hrun : r.workflowRunId = some s.run.id) :
    failReleaseForRun s = some (failReleaseRow s.run r).1.toRelease := by
  rw [failReleaseForRun, h, failReleaseRow]
  by_cases htrigger : s.run.triggerType = .release
  · by_cases hstatus : r.status = .deploying ∨ r.status = .canary
    · simp [htrigger, hrun, hstatus, releaseTransitions]
    · simp [htrigger, hrun, hstatus, releaseTransitions]
  · simp [htrigger]

theorem releaseTransition_edge {g : Gate} {action : ReleaseAction} {perm : String}
    {r image : ReleaseRow} (h : releaseTransition g action perm r = .ok image) :
    releaseTransitions.Edge r.status image.status := by
  obtain ⟨-, -, h⟩ := bind_eq_ok.mp h
  by_cases hallowed : r.status ∈ releaseTransitions.allowedFrom action
  · rw [applyReleaseTransition, if_pos hallowed] at h
    rw [← Except.ok.inj h]
    exact ⟨action, hallowed, rfl⟩
  · rw [applyReleaseTransition, if_neg hallowed] at h
    cases h

theorem failReleaseRow_edge (run : WorkflowRun) (r : ReleaseRow) :
    (failReleaseRow run r).1.status = r.status ∨
      releaseTransitions.Edge r.status (failReleaseRow run r).1.status := by
  rw [failReleaseRow]
  split_ifs with htrigger hrun hallowed
  · exact Or.inl rfl
  · exact Or.inl rfl
  · exact Or.inr ⟨.fail, hallowed, rfl⟩
  · exact Or.inl rfl

theorem eachWrite_of_route {x : Except PyErr ReleaseRow} {r : ReleaseRow}
    {pending : List ReleaseRow} (h : x.map (fun image => [image]) = .ok pending)
    (hedge : ∀ image, x = .ok image → releaseTransitions.Edge r.status image.status) :
    EachWrite (fun b i => i.status = b.status ∨ releaseTransitions.Edge b.status i.status) r
      pending := by
  cases x with
  | error e => cases h
  | ok image =>
      rw [← Except.ok.inj h]
      exact ⟨Or.inr (hedge image rfl), trivial⟩

/-- What a request on a release will write follows the table. The later commits of a canary leave
the status that the first one wrote. -/
theorem ReleaseRequest.images_edge {q : ReleaseRequest} {r : ReleaseRow}
    {pending : List ReleaseRow} (h : q.images r = .ok pending) :
    EachWrite (fun b i => i.status = b.status ∨ releaseTransitions.Edge b.status i.status) r
      pending := by
  cases q with
  | deploy g => exact eachWrite_of_route h fun image => releaseTransition_edge
  | promote g => exact eachWrite_of_route h fun image => releaseTransition_edge
  | fail g => exact eachWrite_of_route h fun image => releaseTransition_edge
  | cancel g => exact eachWrite_of_route h fun image => releaseTransition_edge
  | rollback g =>
      refine eachWrite_of_route h fun image himage => ?_
      obtain ⟨moved, hmoved, himage⟩ := bind_eq_ok.mp himage
      have hstatus : image.status = moved.status := by rw [← Except.ok.inj himage]
      rw [hstatus]
      exact releaseTransition_edge hmoved
  | canary g addsWorkflow runId =>
      obtain ⟨image, himage, h⟩ := bind_eq_ok.mp h
      have hedge := releaseTransition_edge himage
      rw [← Except.ok.inj h]
      cases addsWorkflow with
      | false => exact ⟨Or.inr hedge, Or.inl rfl, trivial⟩
      | true => exact ⟨Or.inr hedge, Or.inl rfl, Or.inl rfl, trivial⟩
  | failForRun run =>
      rw [← Except.ok.inj h]
      exact ⟨failReleaseRow_edge run r, trivial⟩

/-! ### Histories -/

/-- The committed statuses of a ticket along its requests. -/
def ticketStatuses (ticket : Ticket) (ops : List (RequestOp TicketRequest)) : List TicketStatus :=
  RequestOp.statuses TicketRequest.images Ticket.flush Ticket.status ⟨ticket, []⟩ ops

/-- The committed statuses of a release along its requests. -/
def releaseStatuses (r : ReleaseRow) (ops : List (RequestOp ReleaseRequest)) :
    List ReleaseStatus :=
  RequestOp.statuses ReleaseRequest.images ReleaseRow.flush (fun r => r.status) ⟨r, []⟩ ops

/-- No request moves a closed or cancelled ticket that it read in another status. -/
def TicketsSettle (ticket : Ticket) (ops : List (RequestOp TicketRequest)) : Prop :=
  Meets (RequestOp.apply TicketRequest.images Ticket.flush)
    (RequestOp.KeepsSettled Ticket.flush Ticket.status TicketStatus.Settled) ⟨ticket, []⟩ ops

/-- No request moves a release that has succeeded, was rolled back or is cancelled and that it read
in another status. -/
def ReleasesSettle (r : ReleaseRow) (ops : List (RequestOp ReleaseRequest)) : Prop :=
  Meets (RequestOp.apply ReleaseRequest.images ReleaseRow.flush)
    (RequestOp.KeepsSettled ReleaseRow.flush (fun r => r.status) releaseSettled) ⟨r, []⟩ ops

/-- **Tickets and releases follow their tables** exactly along the histories in which each commit
that would change the status finds the one that its request read, or its own target, or one that is
not settled and from which the table leads to the target. -/
theorem histories_follow_iff (ticket : Ticket) (ticketOps : List (RequestOp TicketRequest))
    (r : ReleaseRow) (releaseOps : List (RequestOp ReleaseRequest)) :
    ((ticketStatuses ticket ticketOps).IsChain ticketTransitions.Edge ∧
          TicketsSettle ticket ticketOps ↔
        Meets (RequestOp.apply TicketRequest.images Ticket.flush)
          (RequestOp.FindsCurrent Ticket.status ticketTransitions.Edge TicketStatus.Settled)
          ⟨ticket, []⟩ ticketOps) ∧
      ((releaseStatuses r releaseOps).IsChain releaseTransitions.Edge ∧
          ReleasesSettle r releaseOps ↔
        Meets (RequestOp.apply ReleaseRequest.images ReleaseRow.flush)
          (RequestOp.FindsCurrent (fun r => r.status) releaseTransitions.Edge releaseSettled)
          ⟨r, []⟩ releaseOps) := by
  constructor
  · exact RequestOp.follow_iff (fun q r pending => TicketRequest.images_edge)
      (fun b i d => rfl) ticket ticketOps
  · exact RequestOp.follow_iff (fun q r pending => ReleaseRequest.images_edge)
      (fun b i d => rfl) r releaseOps

/-- A new ticket. -/
def newTicket : Ticket := ⟨1, .create, none, none, none, 0, []⟩

/-- A release that is being deployed by run 9. -/
def deployingRelease : ReleaseRow := ⟨⟨4, .canary, some 9⟩, none⟩

/-- Its run, which has failed. -/
def failedReleaseRun : WorkflowRun where
  id := 9
  workflowId := 1
  workflowVersion := 1
  status := .failed
  triggerType := .release
  triggerRef := []
  context := []
  startedAt := none
  finishedAt := none
  error := none
  createdBy := none

/-- A cancelled ticket is assigned by a request that read it before, and a promoted release is
failed by the engine, which read it before. -/
theorem cancelled_then_assigned :
    ticketStatuses newTicket
        [.request (.cancel ⟨true, true⟩ 0), .request (.assign ⟨true, true⟩ 7), .commit 0,
          .commit 1] = [.create, .cancel, .assign] ∧
      releaseStatuses deployingRelease
          [.request (.failForRun failedReleaseRun), .request (.promote ⟨true, true⟩), .commit 1,
            .commit 0] = [.canary, .succeeded, .failed] ∧
      ¬ ticketTransitions.Edge .cancel .assign ∧
      ¬ releaseTransitions.Edge .succeeded .failed := by
  refine ⟨by decide, by decide, ?_, ?_⟩
  · rintro ⟨action, hallowed, -⟩
    cases action <;> exact absurd hallowed (by decide)
  · rintro ⟨action, hallowed, -⟩
    cases action <;> exact absurd hallowed (by decide)

end LarkPlat
