import LarkPlat.Machine
import LarkPlat.Terminals

/-!
# One Decision for Each Request

`approve`, `reject`, `cancel`, `cancel_exec_task_record` and `close_session` may act on one request
at once, each in a session of its own. A call reads the request, updates it under its version, adds
an approval record, follows the linkage to the subject and commits; what it has written before the
commit is seen by nobody else, and a row that it has updated is locked until it ends. The calls are
cut at their reads, at their guarded updates and at their commits (`Party.next`), and any
interleaving of the pieces is a run (`ChamberOp`). A call can also be aborted, by a deadlock or by
its caller, as long as it has sent no message.

## Main results

* `ChamberInv.apply`: every step keeps the invariant of the calls: one of them at most has the
  request locked, and the request is pending meanwhile.
* `one_decision`: in every run the request changes at most once; a decision that returns is that
  change; the records are those of the decisions that have returned; and a call that raises has left
  the request, its records, its subject and the queue as they were.
-/

namespace LarkPlat

open Machine

/-! ### Rows and writes -/

/-- A row of `approval_record`, of one request. -/
structure ApprovalRecord where
  action : String
  operatorId : ℕ
  deriving DecidableEq

/-- One request with its records and the subject that it is bound to. -/
structure Docket where
  request : ApprovalRequest
  records : List ApprovalRecord
  task : Option ExecTask
  session : Option TerminalSession
  deriving DecidableEq

/-- The write of a linkage to its session. -/
inductive SessionWrite
  | activate (now : ℚ)
  | close (now : ℚ)
  deriving DecidableEq

/-- The session after the write. -/
def SessionWrite.apply (s : TerminalSession) : SessionWrite → TerminalSession
  | .activate now => { s with status := .open, startedAt := some now }
  | .close now =>
      { s with
        status := .closed, closeReason := "canceled_before_approval", finishedAt := some now }

/-- What a call has written and not committed. The rows of the request and of the task are locked
by it, the session row is written at the commit. -/
structure Writes where
  request : Option ApprovalRequest
  record : Option ApprovalRecord
  task : Option ExecTask
  session : Option SessionWrite
  deriving DecidableEq

/-- Nothing written. -/
def Writes.none : Writes := ⟨Option.none, Option.none, Option.none, Option.none⟩

/-- The rows after a commit. -/
def Docket.commit (d : Docket) (w : Writes) : Docket where
  request := w.request.getD d.request
  records := d.records ++ w.record.toList
  task := w.task.or d.task
  session := w.session.elim d.session fun f => d.session.map fun s => f.apply s

/-! ### The calls -/

/-- The three decisions. -/
inductive Decision
  | approve
  | reject
  | cancel
  deriving DecidableEq, Repr

/-- The action of a decision in its record. -/
def Decision.action : Decision → String
  | approve => "approve"
  | reject => "reject"
  | cancel => "cancel"

/-- The status that a decision gives. -/
def Decision.status : Decision → ApprovalStatus
  | approve => .approved
  | reject => .rejected
  | cancel => .canceled

/-- The record of a decision. -/
def Decision.record (verb : Decision) (user : Actor) : ApprovalRecord := ⟨verb.action, user.id⟩

/-- The calls that may decide or close the request. -/
inductive Party
  | decision (verb : Decision) (user : Actor)
  /-- `cancel_exec_task_record` on the task of the request. -/
  | cancelTask
  /-- `close_session` on the session of the request. -/
  | closeSession

/-- Where a call stands. -/
inductive Stage
  | called
  /-- The request was read as pending, and the checks have passed. -/
  | checked (a : ApprovalRequest)
  /-- The request is decided and the record added. -/
  | decided (w : Writes)
  /-- The linkage has read the task. -/
  | looked (w : Writes) (task : ExecTask)
  /-- A cancellation has read its task. -/
  | seen (task : ExecTask)
  /-- The subject is closed, its request not yet looked at. -/
  | taken (w : Writes) (approvalId : Option ℕ)
  /-- The request of the closed subject was read as pending. -/
  | closing (w : Writes) (a : ApprovalRequest)
  /-- Only the commit is left; the message that was sent to the queue. -/
  | ready (w : Writes) (message : Option ℕ)
  | returned
  | raised (e : PyErr)
  deriving DecidableEq

/-- The uncommitted writes of a stage. -/
def Stage.writes : Stage → Writes
  | .decided w | .looked w _ | .taken w _ | .closing w _ | .ready w _ => w
  | _ => Writes.none

/-- The call has the request locked. -/
def Stage.holdsRequest (st : Stage) : Bool := st.writes.request.isSome

/-- The call has the task locked. -/
def Stage.holdsTask (st : Stage) : Bool := st.writes.task.isSome

/-- The message that the call has sent. -/
def Stage.message : Stage → Option ℕ
  | .ready _ message => message
  | _ => Option.none

/-- The call has ended. -/
def Stage.ended : Stage → Bool
  | .returned | .raised _ => true
  | _ => false

/-- The checks of a decision, up to its update. -/
def Decision.check (verb : Decision) (user : Actor) (a : ApprovalRequest) : Except PyErr Unit := do
  if verb ≠ .cancel then user.requirePerm "approval:approve"
  if a.status ≠ .pending then throw (.conflict "approval already decided")
  if a.bizType = .unknown then throw (.notFound "unknown approval biz_type")
  if verb = .cancel ∧ a.requesterId ≠ user.id ∧ ¬ user.isAdmin then
    throw (.forbidden "only requester can cancel")

/-- The request after the update of a decision: a withdrawal names no approver. -/
def Decision.writes (verb : Decision) (user : Actor) (a : ApprovalRequest) : Writes where
  request := some { a with
    status := verb.status
    version := a.version + 1
    approverId := if verb = .cancel then a.approverId else some user.id }
  record := some (verb.record user)
  task := Option.none
  session := Option.none

/-- The linkage of a decision, up to the update of the task. -/
def Decision.link (verb : Decision) (d : Docket) (now : ℚ) (w : Writes) : Stage :=
  match verb, d.request.bizType with
  | .approve, .exec =>
      match d.task with
      | Option.none => .raised (.notFound "linked exec task not found")
      | some task => .looked w task
  | .approve, .terminal =>
      if d.session.any fun s => decide (s.status = .awaitingApproval) then
        .ready { w with session := some (.activate now) } Option.none
      else .ready w Option.none
  | .cancel, .terminal =>
      if d.session.any fun s => decide (s.status = .awaitingApproval) then
        .ready { w with session := some (.close now) } Option.none
      else .ready w Option.none
  | .reject, .exec | .cancel, .exec =>
      match d.task.filter fun task => decide (task.status = .awaitingApproval) with
      | Option.none => .ready w Option.none
      | some task => .looked w task
  | _, _ => .ready w Option.none

/-- The guarded update of the task of a decision. -/
def Decision.linkTask (verb : Decision) (d : Docket) (now : ℚ) (brokerUp : Bool) (w : Writes)
    (task : ExecTask) : Stage :=
  let awaiting := d.task.filter fun t =>
    decide (t.status = .awaitingApproval ∧ t.version = task.version)
  match verb, awaiting with
  | .approve, Option.none => .raised (.conflict "exec task state changed concurrently")
  | .approve, some t =>
      .ready { w with task := some { t with
        status := .running, version := t.version + 1, startedAt := some now } }
        (if brokerUp then some t.id else Option.none)
  | _, Option.none => .ready w Option.none
  | _, some t =>
      .ready { w with task := some { t with
        status := .canceled, version := t.version + 1, finishedAt := some now } } Option.none

/-- The closing of the request of a closed subject, and the commit. -/
def closeRequest (d : Docket) (requestFree : Bool) : Stage → Option Stage
  | .taken w approvalId =>
      if approvalId = some d.request.id ∧ d.request.status = .pending then
        some (.closing w d.request)
      else some (.ready w Option.none)
  | .closing w a =>
      if requestFree then
        if d.request.status = .pending ∧ d.request.version = a.version then
          some (.ready { w with request := some { d.request with
            status := .canceled, version := d.request.version + 1 } } Option.none)
        else some (.ready w Option.none)
      else Option.none
  | .ready _ _ => some .returned
  | _ => Option.none

/-- The next piece of a call, if it is not blocked by a lock and has not ended. -/
def Party.next (d : Docket) (requestFree taskFree : Bool) (now : ℚ) (brokerUp : Bool) :
    Party → Stage → Option Stage
  | .decision verb user, .called =>
      match verb.check user d.request with
      | .error e => some (.raised e)
      | .ok _ => some (.checked d.request)
  | .decision verb user, .checked a =>
      if requestFree then
        if d.request.status = .pending ∧ d.request.version = a.version then
          some (.decided (verb.writes user d.request))
        else some (.raised (.conflict "approval modified concurrently, refresh and retry"))
      else Option.none
  | .decision verb _, .decided w => some (verb.link d now w)
  | .decision verb _, .looked w task =>
      if taskFree then some (verb.linkTask d now brokerUp w task) else Option.none
  | .cancelTask, .called =>
      match d.task.filter fun task => task.status.cancellable with
      | Option.none => some .returned
      | some task => some (.seen task)
  | .cancelTask, .seen task =>
      if taskFree then
        match d.task.filter fun t =>
            decide (t.status = task.status ∧ t.version = task.version) with
        | Option.none => some .returned
        | some t => some (.taken { Writes.none with task := some { t with
            status := .canceled, version := t.version + 1, finishedAt := some now } }
            t.approvalId)
      else Option.none
  | .closeSession, .called =>
      match d.session.filter fun s => decide (s.status = .awaitingApproval) with
      | Option.none => some .returned
      | some s => some (.taken { Writes.none with session := some (.close now) } s.approvalId)
  | .decision _ _, .ready _ _ => some .returned
  | .decision _ _, _ => Option.none
  | _, stage => closeRequest d requestFree stage

/-! ### Runs -/

/-- The committed rows, the calls in the order of their beginning, and the messages sent to the
queue, each with its call. -/
structure Chamber where
  docket : Docket
  calls : List (Party × Stage)
  sent : List (ℕ × ℕ)

/-- One piece of work on the chamber. -/
inductive ChamberOp
  | call (caller : Party)
  | step (i : ℕ) (now : ℚ) (brokerUp : Bool)
  /-- A statement of the call fails, or its caller rolls back. -/
  | abort (i : ℕ) (e : PyErr)
  /-- Another transaction commits changes of the subject. -/
  | others (task : Option ExecTask) (session : Option TerminalSession)

namespace Chamber

/-- A request with its subject, before any call. -/
def start (request : ApprovalRequest) (task : Option ExecTask) (session : Option TerminalSession) :
    Chamber := ⟨⟨request, [], task, session⟩, [], []⟩

/-- No other call holds the row. -/
def free (s : Chamber) (i : ℕ) (holds : Stage → Bool) : Bool :=
  (s.calls.eraseIdx i).all fun c => !holds c.2

/-- The rows after a piece of a call: they change at its commit. -/
def docketAfter (d : Docket) : Stage → Docket
  | .ready w _ => d.commit w
  | _ => d

/-- The chamber after the call `i` has moved from `stage` to `stage'`. -/
def move (s : Chamber) (i : ℕ) (caller : Party) (stage stage' : Stage) : Chamber where
  docket := docketAfter s.docket stage
  calls := s.calls.set i (caller, stage')
  sent := s.sent ++ (stage'.message.map (i, ·)).toList

/-- One piece of work. -/
def apply (s : Chamber) : ChamberOp → Chamber
  | .call caller => { s with calls := s.calls ++ [(caller, .called)] }
  | .step i now brokerUp =>
      match s.calls[i]? with
      | none => s
      | some (caller, stage) =>
          match caller.next s.docket (s.free i Stage.holdsRequest) (s.free i Stage.holdsTask) now
            brokerUp stage with
          | none => s
          | some stage' => s.move i caller stage stage'
  | .abort i e =>
      match s.calls[i]? with
      | none => s
      | some (caller, stage) =>
          if stage.ended ∨ stage.message.isSome then s
          else { s with calls := s.calls.set i (caller, .raised e) }
  | .others task session =>
      { s with docket := { s.docket with
          task := if s.calls.all fun c => !c.2.holdsTask then task else s.docket.task
          session := session } }

end Chamber

/-- The call that a piece of work belongs to. -/
def ChamberOp.caller : ChamberOp → Option ℕ
  | .step i _ _ | .abort i _ => some i
  | _ => none

/-- The record of a call that has decided the request. -/
def recordOf : Party × Stage → Option ApprovalRecord
  | (.decision verb user, .returned) => some (verb.record user)
  | _ => none

/-! ### What a piece of a call does -/

/-- A closing has canceled the request or left it, adds no record and sends nothing. -/
def Closes (stage : Stage) : Prop :=
  stage.writes.record = none ∧ (∀ a, stage.writes.request = some a → a.status ≠ .pending) ∧
    stage.message = none

/-- What a call has written at its stage: a decision has decided the request and added its
record. -/
def FitsStage : Party × Stage → Prop
  | (.decision verb user, stage) =>
      match stage with
      | .decided w | .looked w _ | .ready w _ =>
          (∃ a, w.request = some a ∧ a.status = verb.status) ∧ w.record = some (verb.record user)
      | .seen _ | .taken _ _ | .closing _ _ => False
      | _ => True
  | (_, stage) => Closes stage

variable {d : Docket} {s : Chamber} {requestFree taskFree brokerUp : Bool} {now : ℚ}
  {caller : Party} {stage stage' : Stage} {verb : Decision} {user : Actor}

theorem Decision.status_ne_pending (verb : Decision) : verb.status ≠ .pending := by
  cases verb <;> exact ApprovalStatus.noConfusion

theorem fitsStage_link {w : Writes} (h : FitsStage (.decision verb user, .decided w)) :
    FitsStage (.decision verb user, verb.link d now w) := by
  unfold Decision.link
  split
  · split
    · trivial
    · exact h
  · split_ifs <;> exact h
  · split_ifs <;> exact h
  · split <;> exact h
  · split <;> exact h
  · exact h

theorem fitsStage_linkTask {w : Writes} {task : ExecTask}
    (h : FitsStage (.decision verb user, .looked w task)) :
    FitsStage (.decision verb user, verb.linkTask d now brokerUp w task) := by
  unfold Decision.linkTask
  dsimp only
  generalize Option.filter _ d.task = awaiting
  rcases awaiting with _ | t
  · cases verb with
    | approve => trivial
    | reject => exact h
    | cancel => exact h
  · cases verb with
    | approve => exact h
    | reject => exact h
    | cancel => exact h

theorem closes_of_none (h : stage.writes = Writes.none) (hm : stage.message = none) :
    Closes stage := by
  unfold Closes
  rw [h]
  exact ⟨rfl, (fun _ hc => by cases hc), hm⟩

theorem closes_closeRequest (h : Closes stage)
    (hn : closeRequest d requestFree stage = some stage') : Closes stage' := by
  cases stage with
  | taken w approvalId =>
      dsimp only [closeRequest] at hn
      split_ifs at hn <;> obtain rfl := Option.some.inj hn <;> exact ⟨h.1, h.2.1, rfl⟩
  | closing w a =>
      dsimp only [closeRequest] at hn
      split_ifs at hn
      · obtain rfl := Option.some.inj hn
        refine ⟨h.1, fun b hb => ?_, rfl⟩
        obtain rfl := Option.some.inj hb
        exact ApprovalStatus.noConfusion
      · obtain rfl := Option.some.inj hn
        exact ⟨h.1, h.2.1, rfl⟩
  | ready w message =>
      obtain rfl := Option.some.inj hn
      exact closes_of_none rfl rfl
  | _ => cases hn

theorem Party.next_fits (h : FitsStage (caller, stage))
    (hn : caller.next d requestFree taskFree now brokerUp stage = some stage') :
    FitsStage (caller, stage') := by
  cases caller with
  | decision verb user =>
      cases stage with
      | called =>
          dsimp only [Party.next] at hn
          split at hn <;> obtain rfl := Option.some.inj hn <;> trivial
      | checked a =>
          dsimp only [Party.next] at hn
          split_ifs at hn
          · obtain rfl := Option.some.inj hn
            exact ⟨⟨_, rfl, rfl⟩, rfl⟩
          · obtain rfl := Option.some.inj hn
            trivial
      | decided w =>
          obtain rfl := Option.some.inj hn
          exact fitsStage_link h
      | looked w task =>
          dsimp only [Party.next] at hn
          split_ifs at hn
          obtain rfl := Option.some.inj hn
          exact fitsStage_linkTask h
      | ready w message =>
          obtain rfl := Option.some.inj hn
          trivial
      | _ => cases hn
  | cancelTask =>
      cases stage with
      | called =>
          dsimp only [Party.next] at hn
          split at hn <;> obtain rfl := Option.some.inj hn <;> exact closes_of_none rfl rfl
      | seen task =>
          dsimp only [Party.next] at hn
          split_ifs at hn
          split at hn <;> obtain rfl := Option.some.inj hn <;>
            exact ⟨rfl, (fun _ hc => by cases hc), rfl⟩
      | _ => exact @closes_closeRequest d requestFree _ _ h hn
  | closeSession =>
      cases stage with
      | called =>
          dsimp only [Party.next] at hn
          split at hn <;> obtain rfl := Option.some.inj hn <;>
            exact ⟨rfl, (fun _ hc => by cases hc), rfl⟩
      | _ => exact @closes_closeRequest d requestFree _ _ h hn

theorem closeRequest_locks (hn : closeRequest d requestFree stage = some stage')
    (hlock : stage'.holdsRequest = true) :
    stage.holdsRequest = true ∨ requestFree = true ∧ d.request.status = .pending := by
  cases stage with
  | taken w approvalId =>
      dsimp only [closeRequest] at hn
      split_ifs at hn <;> obtain rfl := Option.some.inj hn <;> exact Or.inl hlock
  | closing w a =>
      dsimp only [closeRequest] at hn
      split_ifs at hn with hfree hcas
      · exact Or.inr ⟨hfree, hcas.1⟩
      · obtain rfl := Option.some.inj hn
        exact Or.inl hlock
  | ready w message =>
      obtain rfl := Option.some.inj hn
      cases hlock
  | _ => cases hn

/-- A call locks the request only while it is pending and nobody else has it locked. -/
theorem Party.next_locks (h : FitsStage (caller, stage))
    (hn : caller.next d requestFree taskFree now brokerUp stage = some stage')
    (hlock : stage'.holdsRequest = true) :
    stage.holdsRequest = true ∨ requestFree = true ∧ d.request.status = .pending := by
  cases caller with
  | decision verb user =>
      cases stage with
      | called =>
          dsimp only [Party.next] at hn
          split at hn <;> obtain rfl := Option.some.inj hn <;> cases hlock
      | checked a =>
          dsimp only [Party.next] at hn
          split_ifs at hn with hfree hcas
          · exact Or.inr ⟨hfree, hcas.1⟩
          · obtain rfl := Option.some.inj hn
            cases hlock
      | decided w =>
          obtain ⟨⟨a, ha, -⟩, -⟩ := h
          exact Or.inl (by rw [Stage.holdsRequest, Stage.writes, ha]; rfl)
      | looked w task =>
          obtain ⟨⟨a, ha, -⟩, -⟩ := h
          exact Or.inl (by rw [Stage.holdsRequest, Stage.writes, ha]; rfl)
      | ready w message =>
          obtain rfl := Option.some.inj hn
          cases hlock
      | _ => cases hn
  | cancelTask =>
      cases stage with
      | called =>
          dsimp only [Party.next] at hn
          split at hn <;> obtain rfl := Option.some.inj hn <;> cases hlock
      | seen task =>
          dsimp only [Party.next] at hn
          split_ifs at hn
          split at hn <;> obtain rfl := Option.some.inj hn <;> cases hlock
      | _ => exact closeRequest_locks hn hlock
  | closeSession =>
      cases stage with
      | called =>
          dsimp only [Party.next] at hn
          split at hn <;> obtain rfl := Option.some.inj hn <;> cases hlock
      | _ => exact closeRequest_locks hn hlock

theorem Party.ready_of_returned
    (hn : (Party.decision verb user).next d requestFree taskFree now brokerUp stage =
      some .returned) : ∃ w message, stage = .ready w message := by
  cases stage with
  | ready w message => exact ⟨w, message, rfl⟩
  | called =>
      dsimp only [Party.next] at hn
      split at hn <;> cases hn
  | checked a =>
      dsimp only [Party.next] at hn
      split_ifs at hn <;> cases hn
  | decided w =>
      have hlink : verb.link d now w ≠ .returned := by
        unfold Decision.link
        repeat' split
        all_goals exact Stage.noConfusion
      exact absurd (Option.some.inj hn) hlink
  | looked w task =>
      have hlink : verb.linkTask d now brokerUp w task ≠ .returned := by
        unfold Decision.linkTask
        dsimp only
        generalize Option.filter _ d.task = awaiting
        cases verb <;> cases awaiting <;> exact Stage.noConfusion
      dsimp only [Party.next] at hn
      split_ifs at hn
      exact absurd (Option.some.inj hn) hlink
  | _ => cases hn

theorem Party.next_ready {w : Writes} {message : Option ℕ} :
    caller.next d requestFree taskFree now brokerUp (.ready w message) = some .returned := by
  cases caller <;> rfl

theorem Party.next_ended (h : stage.ended = true) :
    caller.next d requestFree taskFree now brokerUp stage = none := by
  cases stage with
  | returned => cases caller <;> rfl
  | raised e => cases caller <;> rfl
  | _ => cases h

/-! ### The calls side by side -/

theorem filterMap_set_of_none {α β : Type*} {f : α → Option β} {l : List α} {i : ℕ} {a b : α}
    (ha : l[i]? = some a) (hfa : f a = none) (hfb : f b = none) :
    (l.set i b).filterMap f = l.filterMap f := by
  induction l generalizing i with
  | nil => cases ha
  | cons x l ih =>
      cases i with
      | zero =>
          obtain rfl := Option.some.inj ha
          rw [List.set_cons_zero, List.filterMap_cons_none hfb, List.filterMap_cons_none hfa]
      | succ i => rw [List.set_cons_succ, List.filterMap_cons, List.filterMap_cons, ih ha]

theorem filterMap_set_of_only {α β : Type*} {f : α → Option β} {l : List α} {i : ℕ} {a b : α}
    {r : β} (ha : l[i]? = some a) (hnone : ∀ x ∈ l, f x = none) (hfb : f b = some r) :
    (l.set i b).filterMap f = [r] := by
  induction l generalizing i with
  | nil => cases ha
  | cons x l ih =>
      have hrest : ∀ y ∈ l, f y = none := fun y hy => hnone y (List.mem_cons_of_mem x hy)
      cases i with
      | zero =>
          rw [List.set_cons_zero, List.filterMap_cons_some hfb,
            List.filterMap_eq_nil_iff.mpr hrest]
      | succ i =>
          rw [List.set_cons_succ, List.filterMap_cons_none (hnone x List.mem_cons_self)]
          exact ih ha hrest

/-- The call has sent its message, or has returned. -/
def Chamber.Bound (s : Chamber) (i : ℕ) : Prop :=
  ∃ c, s.calls[i]? = some c ∧ (c.2 = .returned ∨ c.2.message.isSome = true)

/-- The invariant of the calls. -/
structure ChamberInv (s : Chamber) : Prop where
  fits : ∀ (i : ℕ) c, s.calls[i]? = some c → FitsStage c
  one_holder : ∀ (i j : ℕ) c c', s.calls[i]? = some c → s.calls[j]? = some c' →
    c.2.holdsRequest = true → c'.2.holdsRequest = true → i = j
  held_pending : ∀ (i : ℕ) c, s.calls[i]? = some c → c.2.holdsRequest = true →
    s.docket.request.status = .pending
  verdict : ∀ (i : ℕ) verb user, s.calls[i]? = some (.decision verb user, .returned) →
    s.docket.request.status = verb.status
  single : ∀ (i j : ℕ) verb user verb' user', s.calls[i]? = some (.decision verb user, .returned) →
    s.calls[j]? = some (.decision verb' user', .returned) → i = j
  records : s.docket.records = s.calls.filterMap recordOf
  sent : ∀ p ∈ s.sent, s.Bound p.1

theorem chamberInv_start (request : ApprovalRequest) (task : Option ExecTask)
    (session : Option TerminalSession) : ChamberInv (Chamber.start request task session) where
  fits _ _ h := by cases h
  one_holder _ _ _ _ h := by cases h
  held_pending _ _ h := by cases h
  verdict _ _ _ h := by cases h
  single _ _ _ _ _ _ h := by cases h
  records := rfl
  sent _ h := by cases h

theorem ChamberInv.undecided (h : ChamberInv s) (hpend : s.docket.request.status = .pending) :
    (∀ c ∈ s.calls, recordOf c = none) ∧ s.docket.records = [] := by
  have hnone : ∀ c ∈ s.calls, recordOf c = none := by
    rintro ⟨caller, stage⟩ hc
    cases caller with
    | decision verb user =>
        cases stage with
        | returned =>
            obtain ⟨i, hi⟩ := List.mem_iff_getElem?.mp hc
            exact absurd ((h.verdict i verb user hi).symm.trans hpend) verb.status_ne_pending
        | _ => rfl
    | _ => rfl
  refine ⟨hnone, ?_⟩
  rw [h.records, List.filterMap_eq_nil_iff]
  exact hnone

theorem Chamber.free_spec {i j : ℕ} {holds : Stage → Bool} {c : Party × Stage}
    (hfree : s.free i holds = true) (hc : s.calls[j]? = some c) (hj : j ≠ i) :
    holds c.2 = false := by
  have hmem : c ∈ s.calls.eraseIdx i := List.mem_eraseIdx_iff_getElem?.mpr ⟨j, hj, hc⟩
  have hnot := List.all_eq_true.mp hfree c hmem
  rw [Bool.not_eq_true'] at hnot
  exact hnot

theorem getElem?_set_cases {calls : List (Party × Stage)} {i j : ℕ} {c c' : Party × Stage}
    (h : (calls.set i c)[j]? = some c') : j = i ∧ c' = c ∨ j ≠ i ∧ calls[j]? = some c' := by
  by_cases hj : j = i
  · subst hj
    have hlt : j < (calls.set j c).length := (List.getElem?_eq_some_iff.mp h).1
    rw [List.length_set] at hlt
    rw [List.getElem?_set_self hlt] at h
    exact Or.inl ⟨rfl, (Option.some.inj h).symm⟩
  · rw [List.getElem?_set_ne (Ne.symm hj)] at h
    exact Or.inr ⟨hj, h⟩

theorem getElem?_set_moved {calls : List (Party × Stage)} {i : ℕ} {c : Party × Stage}
    (h : calls[i]? = some c) (c' : Party × Stage) : (calls.set i c')[i]? = some c' :=
  List.getElem?_set_self (List.getElem?_eq_some_iff.mp h).1

theorem ChamberInv.goOn {i : ℕ} (h : ChamberInv s) (hi : s.calls[i]? = some (caller, stage))
    (hopen : stage ≠ .returned ∧ stage.message = none) (hne : stage' ≠ .returned ∨
      ∀ verb user, caller ≠ .decision verb user)
    (hfits : FitsStage (caller, stage')) (hlock : stage'.holdsRequest = true →
      stage.holdsRequest = true ∨ s.free i Stage.holdsRequest = true ∧
        s.docket.request.status = .pending) :
    ChamberInv { s with
      calls := s.calls.set i (caller, stage')
      sent := s.sent ++ (stage'.message.map (i, ·)).toList } := by
  have hdecision : ∀ verb user, (caller, stage') ≠ (.decision verb user, .returned) := by
    intro verb user hc
    obtain ⟨hcaller, hstage⟩ := Prod.mk.inj hc
    rcases hne with hne | hne
    · exact hne hstage
    · exact hne verb user hcaller
  -- where a decision has returned, it had returned before
  have hback : ∀ (j : ℕ) verb user, (s.calls.set i (caller, stage'))[j]? =
      some (.decision verb user, .returned) →
        s.calls[j]? = some (.decision verb user, .returned) := by
    intro j verb user hj
    rcases getElem?_set_cases hj with ⟨-, hc⟩ | ⟨-, hj⟩
    · exact absurd hc.symm (hdecision verb user)
    · exact hj
  have hothers : ∀ (j : ℕ) c, stage'.holdsRequest = true → s.calls[j]? = some c →
      c.2.holdsRequest = true → j = i := by
    intro j c hstage' hj hc
    by_contra hne
    rcases hlock hstage' with hstage | ⟨hfree, -⟩
    · exact hne (h.one_holder j i c _ hj hi hc hstage)
    · rw [Chamber.free_spec hfree hj hne] at hc
      cases hc
  refine ⟨?_, ?_, ?_, ?_, ?_, ?_, ?_⟩
  · intro j c hj
    rcases getElem?_set_cases hj with ⟨-, rfl⟩ | ⟨-, hj⟩
    · exact hfits
    · exact h.fits j c hj
  · intro j k c c' hj hk hc hc'
    rcases getElem?_set_cases hj with ⟨hji, rfl⟩ | ⟨-, hj₀⟩
    · rcases getElem?_set_cases hk with ⟨hki, -⟩ | ⟨-, hk₀⟩
      · exact hji.trans hki.symm
      · exact hji.trans (hothers k c' hc hk₀ hc').symm
    · rcases getElem?_set_cases hk with ⟨hki, rfl⟩ | ⟨-, hk₀⟩
      · exact (hothers j c hc' hj₀ hc).trans hki.symm
      · exact h.one_holder j k c c' hj₀ hk₀ hc hc'
  · intro j c hj hc
    rcases getElem?_set_cases hj with ⟨rfl, rfl⟩ | ⟨-, hj⟩
    · rcases hlock hc with hstage | ⟨-, hpend⟩
      · exact h.held_pending j _ hi hstage
      · exact hpend
    · exact h.held_pending j c hj hc
  · exact fun j verb user hj => h.verdict j verb user (hback j verb user hj)
  · exact fun j k verb user verb' user' hj hk =>
      h.single j k verb user verb' user' (hback j verb user hj) (hback k verb' user' hk)
  · have hrec : ∀ st, (∀ verb user, (caller, st) ≠ (.decision verb user, .returned)) →
        recordOf (caller, st) = none := by
      intro st hst
      cases caller with
      | decision verb user =>
          cases st with
          | returned => exact absurd rfl (hst verb user)
          | _ => rfl
      | _ => rfl
    rw [h.records]
    have hbefore : recordOf (caller, stage) = none :=
      hrec stage fun verb user hc => hopen.1 (Prod.mk.inj hc).2
    exact (filterMap_set_of_none hi hbefore (hrec stage' hdecision)).symm
  · intro p hp
    rcases List.mem_append.mp hp with hp | hp
    · obtain ⟨c, hc, hbound⟩ := h.sent p hp
      have hpi : p.1 ≠ i := by
        intro hpi
        rw [hpi, hi] at hc
        obtain rfl := Option.some.inj hc
        rcases hbound with hret | hmsg
        · exact hopen.1 hret
        · rw [hopen.2] at hmsg
          cases hmsg
      exact ⟨c, (List.getElem?_set_ne (Ne.symm hpi)).trans hc, hbound⟩
    · rw [Option.mem_toList] at hp
      obtain ⟨t, ht, rfl⟩ := Option.map_eq_some_iff.mp hp
      exact ⟨(caller, stage'), getElem?_set_moved hi _, Or.inr (by rw [ht]; rfl)⟩

theorem docket_of_commit {w : Writes} {message : Option ℕ}
    (hfits : FitsStage (caller, .ready w message)) :
    (d.commit w).request = d.request ∧ w.request = none ∨
      (d.commit w).request.status ≠ .pending ∧ w.request.isSome = true := by
  rcases hw : w.request with _ | a
  · exact Or.inl ⟨by rw [Docket.commit, hw]; rfl, rfl⟩
  · refine Or.inr ⟨?_, rfl⟩
    have hreq : (d.commit w).request = a := by
      rw [Docket.commit, hw]
      rfl
    rw [hreq]
    cases caller with
    | decision verb user =>
        obtain ⟨⟨b, hb, hst⟩, -⟩ := hfits
        obtain rfl := Option.some.inj (hw.symm.trans hb)
        rw [hst]
        exact verb.status_ne_pending
    | cancelTask => exact hfits.2.1 a hw
    | closeSession => exact hfits.2.1 a hw

theorem ChamberInv.commit {i : ℕ} {w : Writes} {message : Option ℕ} (h : ChamberInv s)
    (hi : s.calls[i]? = some (caller, .ready w message)) : ChamberInv { s with
      docket := s.docket.commit w
      calls := s.calls.set i (caller, .returned) } := by
  have hfits := h.fits i _ hi
  have hrequest := @docket_of_commit s.docket caller w message hfits
  have hholds : w.request.isSome = true → s.docket.request.status = .pending :=
    fun hw => h.held_pending i _ hi hw
  have hheld : ∀ (j : ℕ) c, (s.calls.set i (caller, .returned))[j]? = some c →
      c.2.holdsRequest = true → j ≠ i ∧ s.calls[j]? = some c := by
    intro j c hj hc
    rcases getElem?_set_cases hj with ⟨-, rfl⟩ | ⟨hne, hj⟩
    · cases hc
    · exact ⟨hne, hj⟩
  refine ⟨?_, ?_, ?_, ?_, ?_, ?_, ?_⟩
  · intro j c hj
    rcases getElem?_set_cases hj with ⟨-, rfl⟩ | ⟨-, hj⟩
    · cases caller with
      | decision verb user => trivial
      | cancelTask => exact closes_of_none rfl rfl
      | closeSession => exact closes_of_none rfl rfl
    · exact h.fits j c hj
  · intro j k c c' hj hk hc hc'
    exact h.one_holder j k c c' (hheld j c hj hc).2 (hheld k c' hk hc').2 hc hc'
  · intro j c hj hc
    obtain ⟨hne, hj⟩ := hheld j c hj hc
    rcases hrequest with ⟨hsame, -⟩ | ⟨-, hw⟩
    · show (s.docket.commit w).request.status = .pending
      rw [hsame]
      exact h.held_pending j c hj hc
    · exact absurd (h.one_holder j i c _ hj hi hc hw) hne
  · intro j verb user hj
    show (s.docket.commit w).request.status = verb.status
    rcases getElem?_set_cases hj with ⟨-, hc⟩ | ⟨-, hj⟩
    · obtain ⟨rfl, -⟩ := Prod.mk.inj hc
      obtain ⟨⟨a, ha, hst⟩, -⟩ := hfits
      rw [Docket.commit, ha]
      exact hst
    · rcases hrequest with ⟨hsame, -⟩ | ⟨-, hw⟩
      · rw [hsame]
        exact h.verdict j verb user hj
      · exact absurd ((h.verdict j verb user hj).symm.trans (hholds hw)) verb.status_ne_pending
  · intro j k verb user verb' user' hj hk
    rcases hrequest with ⟨-, hnone⟩ | ⟨-, hw⟩
    · -- a closing that leaves the request
      have hback : ∀ (m : ℕ) verb user, (s.calls.set i (caller, .returned))[m]? =
          some (.decision verb user, .returned) →
            s.calls[m]? = some (.decision verb user, .returned) := by
        intro m verb user hm
        rcases getElem?_set_cases hm with ⟨-, hc⟩ | ⟨-, hm₀⟩
        · obtain ⟨rfl, -⟩ := Prod.mk.inj hc
          obtain ⟨⟨a, ha, -⟩, -⟩ := hfits
          rw [hnone] at ha
          cases ha
        · exact hm₀
      exact h.single j k verb user verb' user' (hback j verb user hj) (hback k verb' user' hk)
    · -- the request was pending, so that nothing has returned before
      have honly : ∀ (m : ℕ) verb user, (s.calls.set i (caller, .returned))[m]? =
          some (.decision verb user, .returned) → m = i := by
        intro m verb user hm
        rcases getElem?_set_cases hm with ⟨rfl, -⟩ | ⟨-, hm₀⟩
        · rfl
        · exact absurd ((h.verdict m verb user hm₀).symm.trans (hholds hw)) verb.status_ne_pending
      rw [honly j verb user hj, honly k verb' user' hk]
  · show (s.docket.commit w).records = (s.calls.set i (caller, .returned)).filterMap recordOf
    cases caller with
    | decision verb user =>
        obtain ⟨⟨a, ha, -⟩, hrec⟩ := hfits
        obtain ⟨hnone, hempty⟩ := h.undecided (hholds (by rw [ha]; rfl))
        rw [filterMap_set_of_only hi hnone (show recordOf _ = some (verb.record user) from rfl),
          Docket.commit, hempty, hrec]
        rfl
    | cancelTask =>
        have hrec : w.record = none := hfits.1
        rw [filterMap_set_of_none hi rfl rfl, ← h.records, Docket.commit, hrec]
        exact List.append_nil _
    | closeSession =>
        have hrec : w.record = none := hfits.1
        rw [filterMap_set_of_none hi rfl rfl, ← h.records, Docket.commit, hrec]
        exact List.append_nil _
  · intro p hp
    obtain ⟨c, hc, hbound⟩ := h.sent p hp
    by_cases hpi : p.1 = i
    · exact ⟨_, by rw [hpi]; exact getElem?_set_moved hi (caller, .returned), Or.inl rfl⟩
    · exact ⟨c, (List.getElem?_set_ne (Ne.symm hpi)).trans hc, hbound⟩

/-- **A piece of a call** is blocked, goes on or commits. -/
theorem Chamber.step_cases (s : Chamber) (i : ℕ) (now : ℚ) (brokerUp : Bool) :
    s.apply (.step i now brokerUp) = s ∨
    (∃ caller stage stage', s.calls[i]? = some (caller, stage) ∧
      caller.next s.docket (s.free i Stage.holdsRequest) (s.free i Stage.holdsTask) now brokerUp
        stage = some stage' ∧ (∀ w message, stage ≠ .ready w message) ∧
      s.apply (.step i now brokerUp) = { s with
        calls := s.calls.set i (caller, stage')
        sent := s.sent ++ (stage'.message.map (i, ·)).toList }) ∨
    ∃ caller w message, s.calls[i]? = some (caller, .ready w message) ∧
      s.apply (.step i now brokerUp) = { s with
        docket := s.docket.commit w
        calls := s.calls.set i (caller, .returned) } := by
  dsimp only [Chamber.apply]
  rcases hi : s.calls[i]? with _ | ⟨caller, stage⟩
  · exact Or.inl rfl
  dsimp only
  rcases hn : caller.next s.docket (s.free i Stage.holdsRequest) (s.free i Stage.holdsTask) now
    brokerUp stage with _ | stage'
  · exact Or.inl rfl
  refine Or.inr ?_
  by_cases hready : ∃ w message, stage = .ready w message
  · obtain ⟨w, message, rfl⟩ := hready
    rw [Party.next_ready] at hn
    obtain rfl := Option.some.inj hn
    refine Or.inr ⟨caller, w, message, rfl, ?_⟩
    show Chamber.mk _ _ (s.sent ++ []) = _
    rw [List.append_nil]
    rfl
  · refine Or.inl ⟨caller, stage, stage', rfl, hn, fun w message hc => hready ⟨w, message, hc⟩, ?_⟩
    have hdocket : Chamber.docketAfter s.docket stage = s.docket := by
      cases stage with
      | ready w message => exact absurd ⟨w, message, rfl⟩ hready
      | _ => rfl
    show Chamber.mk (Chamber.docketAfter s.docket stage) _ _ = _
    rw [hdocket]

theorem Party.open_of_next
    (hn : caller.next d requestFree taskFree now brokerUp stage = some stage')
    (hready : ∀ w message, stage ≠ .ready w message) :
    stage ≠ .returned ∧ stage.message = none := by
  constructor
  · rintro rfl
    rw [Party.next_ended rfl] at hn
    cases hn
  · cases stage with
    | ready w message => exact absurd rfl (hready w message)
    | _ => rfl

theorem ChamberInv.call (h : ChamberInv s) (caller : Party) :
    ChamberInv { s with calls := s.calls ++ [(caller, .called)] } := by
  have hback : ∀ (j : ℕ) c, (s.calls ++ [(caller, Stage.called)])[j]? = some c →
      s.calls[j]? = some c ∨ c = (caller, .called) := by
    intro j c hj
    rcases List.mem_append.mp (List.mem_of_getElem? hj) with hc | hc
    · by_cases hlt : j < s.calls.length
      · rw [List.getElem?_append_left hlt] at hj
        exact Or.inl hj
      · rw [List.getElem?_append_right (Nat.le_of_not_lt hlt)] at hj
        exact Or.inr (List.mem_singleton.mp (List.mem_of_getElem? hj))
    · exact Or.inr (List.mem_singleton.mp hc)
  have hdecided : ∀ (j : ℕ) verb user, (s.calls ++ [(caller, Stage.called)])[j]? =
      some (.decision verb user, .returned) →
        s.calls[j]? = some (.decision verb user, .returned) := by
    intro j verb user hj
    rcases hback j _ hj with hj | hc
    · exact hj
    · cases (Prod.mk.inj hc).2
  have hheld : ∀ (j : ℕ) c, (s.calls ++ [(caller, Stage.called)])[j]? = some c →
      c.2.holdsRequest = true → s.calls[j]? = some c := by
    intro j c hj hc
    rcases hback j c hj with hj | rfl
    · exact hj
    · cases hc
  refine ⟨?_, ?_, ?_, ?_, ?_, ?_, ?_⟩
  · intro j c hj
    rcases hback j c hj with hj | rfl
    · exact h.fits j c hj
    · cases caller with
      | decision verb user => trivial
      | cancelTask => exact closes_of_none rfl rfl
      | closeSession => exact closes_of_none rfl rfl
  · exact fun j k c c' hj hk hc hc' =>
      h.one_holder j k c c' (hheld j c hj hc) (hheld k c' hk hc') hc hc'
  · exact fun j c hj hc => h.held_pending j c (hheld j c hj hc) hc
  · exact fun j verb user hj => h.verdict j verb user (hdecided j verb user hj)
  · exact fun j k verb user verb' user' hj hk =>
      h.single j k verb user verb' user' (hdecided j verb user hj) (hdecided k verb' user' hk)
  · have hnone : recordOf (caller, .called) = none := by
      cases caller <;> rfl
    show s.docket.records = _
    rw [h.records, List.filterMap_append, List.filterMap_cons_none hnone]
    exact (List.append_nil _).symm
  · intro p hp
    obtain ⟨c, hc, hbound⟩ := h.sent p hp
    have hlt : p.1 < s.calls.length := (List.getElem?_eq_some_iff.mp hc).1
    exact ⟨c, (List.getElem?_append_left hlt).trans hc, hbound⟩

/-- **Every step** keeps the invariant of the calls. -/
theorem ChamberInv.apply (h : ChamberInv s) (op : ChamberOp) : ChamberInv (s.apply op) := by
  cases op with
  | call caller => exact h.call caller
  | step i now brokerUp =>
      rcases s.step_cases i now brokerUp with heq | ⟨caller, stage, stage', hi, hn, hready, heq⟩ |
        ⟨caller, w, message, hi, heq⟩
      · rw [heq]
        exact h
      · rw [heq]
        refine h.goOn hi (Party.open_of_next hn hready) ?_ (Party.next_fits (h.fits i _ hi) hn)
          (Party.next_locks (h.fits i _ hi) hn)
        by_contra hc
        rw [not_or, not_not] at hc
        obtain ⟨rfl, hdecision⟩ := hc
        push Not at hdecision
        obtain ⟨verb, user, rfl⟩ := hdecision
        obtain ⟨w, message, rfl⟩ := Party.ready_of_returned hn
        exact hready w message rfl
      · rw [heq]
        exact h.commit hi
  | abort i e =>
      dsimp only [Chamber.apply]
      rcases hi : s.calls[i]? with _ | ⟨caller, stage⟩
      · exact h
      dsimp only
      split_ifs with hopen
      · exact h
      · rw [not_or, Option.not_isSome_iff_eq_none] at hopen
        have hraised := @ChamberInv.goOn s caller stage (.raised e) i h hi ⟨?_, hopen.2⟩
          (Or.inl Stage.noConfusion) ?_ (fun hc => by cases hc)
        · simpa only [Stage.message, Option.map_none, Option.toList_none, List.append_nil]
            using hraised
        · rintro rfl
          exact hopen.1 rfl
        · cases caller with
          | decision verb user => trivial
          | cancelTask => exact closes_of_none rfl rfl
          | closeSession => exact closes_of_none rfl rfl
  | others task session =>
      exact ⟨h.fits, h.one_holder, h.held_pending, h.verdict, h.single, h.records, h.sent⟩

/-! ### Whole runs -/

/-- The step leaves the request as it was. -/
def KeepsRequest (s : Chamber) (op : ChamberOp) : Prop :=
  (s.apply op).docket.request = s.docket.request

instance (s : Chamber) (op : ChamberOp) : Decidable (KeepsRequest s op) :=
  inferInstanceAs (Decidable (_ = _))

theorem ChamberInv.decides (h : ChamberInv s) {op : ChamberOp} (hop : ¬ KeepsRequest s op) :
    s.docket.request.status = .pending ∧ (s.apply op).docket.request.status ≠ .pending := by
  cases op with
  | step i now brokerUp =>
      unfold KeepsRequest at hop
      rcases s.step_cases i now brokerUp with heq | ⟨caller, stage, stage', -, -, -, heq⟩ |
        ⟨caller, w, message, hi, heq⟩
      · rw [heq] at hop
        exact absurd rfl hop
      · rw [heq] at hop
        exact absurd rfl hop
      · rw [heq] at hop ⊢
        rcases @docket_of_commit s.docket caller w message (h.fits i _ hi) with ⟨hsame, -⟩ |
          ⟨hne, hw⟩
        · exact absurd hsame hop
        · exact ⟨h.held_pending i _ hi hw, hne⟩
  | call caller => exact absurd rfl hop
  | abort i e =>
      refine absurd ?_ hop
      unfold KeepsRequest Chamber.apply
      dsimp only
      rcases s.calls[i]? with _ | ⟨caller, stage⟩
      · rfl
      · dsimp only
        split_ifs <;> rfl
  | others task session => exact absurd rfl hop

/-- A call that is bound stays bound. -/
theorem Chamber.Bound.apply {i : ℕ} (h : s.Bound i) (op : ChamberOp) : (s.apply op).Bound i := by
  obtain ⟨⟨caller, stage⟩, hi, hbound⟩ := h
  cases op with
  | call caller' =>
      have hlt : i < s.calls.length := (List.getElem?_eq_some_iff.mp hi).1
      exact ⟨_, (List.getElem?_append_left hlt).trans hi, hbound⟩
  | step j now brokerUp =>
      rcases s.step_cases j now brokerUp with heq | ⟨caller', stage₀, stage', hj, hn, hready, heq⟩ |
        ⟨caller', w, message, hj, heq⟩
      · rw [heq]
        exact ⟨_, hi, hbound⟩
      · rw [heq]
        by_cases hji : j = i
        · rw [hji, hi] at hj
          obtain ⟨rfl, rfl⟩ := Prod.mk.inj (Option.some.inj hj)
          obtain ⟨hret, hmsg⟩ := Party.open_of_next hn hready
          rw [hmsg] at hbound
          rcases hbound with hc | hc
          · exact absurd hc hret
          · cases hc
        · exact ⟨_, (List.getElem?_set_ne hji).trans hi, hbound⟩
      · rw [heq]
        by_cases hji : j = i
        · rw [hji] at hj ⊢
          exact ⟨_, getElem?_set_moved hj (caller', .returned), Or.inl rfl⟩
        · exact ⟨_, (List.getElem?_set_ne hji).trans hi, hbound⟩
  | abort j e =>
      dsimp only [Chamber.apply]
      rcases hj : s.calls[j]? with _ | ⟨caller', stage'⟩
      · exact ⟨_, hi, hbound⟩
      dsimp only
      split_ifs with hopen
      · exact ⟨_, hi, hbound⟩
      · by_cases hji : j = i
        · rw [hji, hi] at hj
          obtain ⟨rfl, rfl⟩ := Prod.mk.inj (Option.some.inj hj)
          rcases hbound with rfl | hmsg
          · exact absurd (Or.inl rfl) hopen
          · exact absurd (Or.inr hmsg) hopen
        · exact ⟨_, (List.getElem?_set_ne hji).trans hi, hbound⟩
  | others task session => exact ⟨_, hi, hbound⟩

/-- A step of a call changes committed rows or the queue only if it binds the call. -/
theorem Chamber.bound_of_changes {op : ChamberOp} {i : ℕ} (hop : op.caller = some i)
    (hchange : ¬ ((s.apply op).docket = s.docket ∧ (s.apply op).sent = s.sent)) :
    (s.apply op).Bound i := by
  cases op with
  | step j now brokerUp =>
      obtain rfl : j = i := Option.some.inj hop
      rcases s.step_cases j now brokerUp with heq | ⟨caller, stage, stage', hj, -, -, heq⟩ |
        ⟨caller, w, message, hj, heq⟩
      · rw [heq] at hchange
        exact absurd ⟨rfl, rfl⟩ hchange
      · rw [heq] at hchange ⊢
        refine ⟨_, getElem?_set_moved hj (caller, stage'), Or.inr ?_⟩
        rcases hmsg : stage'.message with _ | t
        · rw [hmsg] at hchange
          exact absurd ⟨rfl, List.append_nil _⟩ hchange
        · rfl
      · rw [heq]
        exact ⟨_, getElem?_set_moved hj (caller, .returned), Or.inl rfl⟩
  | abort j e =>
      refine absurd ?_ hchange
      dsimp only [Chamber.apply]
      rcases s.calls[j]? with _ | ⟨caller, stage⟩
      · exact ⟨rfl, rfl⟩
      · dsimp only
        split_ifs <;> exact ⟨rfl, rfl⟩
  | call caller => cases hop
  | others task session => cases hop

/-- What one decision for each request means, for a run `ops` from `s₀`. -/
structure OneDecision (s₀ : Chamber) (ops : List ChamberOp) : Prop where
  /-- The request changes at most once. -/
  changes : breaks Chamber.apply KeepsRequest s₀ ops ≤ 1
  /-- Once it is not pending, it stays as it is. -/
  final : ∀ ops₁ ops₂, ops = ops₁ ++ ops₂ →
    (run Chamber.apply s₀ ops₁).docket.request.status ≠ .pending →
      (run Chamber.apply s₀ ops).docket.request = (run Chamber.apply s₀ ops₁).docket.request
  /-- A decision that returns has changed the request from pending to its own status, by a step of
  its own; so that every other decision has not returned. -/
  returned : ∀ (i : ℕ) verb user,
    (run Chamber.apply s₀ ops).calls[i]? = some (.decision verb user, .returned) →
      ∃ ops₁ op ops₂, ops = ops₁ ++ op :: ops₂ ∧ op.caller = some i ∧
        (run Chamber.apply s₀ ops₁).docket.request.status = .pending ∧
        (run Chamber.apply s₀ (ops₁ ++ [op])).docket.request.status = verb.status
  single : ∀ (i j : ℕ) verb user verb' user',
    (run Chamber.apply s₀ ops).calls[i]? = some (.decision verb user, .returned) →
      (run Chamber.apply s₀ ops).calls[j]? = some (.decision verb' user', .returned) → i = j
  /-- The records are those of the decisions that have returned. -/
  records : (run Chamber.apply s₀ ops).docket.records =
    (run Chamber.apply s₀ ops).calls.filterMap recordOf
  /-- No step of a call that has raised has changed the request, its records, its subject or the
  queue. -/
  raised : ∀ ops₁ op ops₂ (i : ℕ) caller e, ops = ops₁ ++ op :: ops₂ → op.caller = some i →
    (run Chamber.apply s₀ ops).calls[i]? = some (caller, .raised e) →
      (run Chamber.apply s₀ (ops₁ ++ [op])).docket = (run Chamber.apply s₀ ops₁).docket ∧
        (run Chamber.apply s₀ (ops₁ ++ [op])).sent = (run Chamber.apply s₀ ops₁).sent

theorem ChamberInv.returns {i : ℕ} (h : ChamberInv s) {op : ChamberOp}
    (hbefore : s.calls[i]? ≠ some (.decision verb user, .returned))
    (hafter : (s.apply op).calls[i]? = some (.decision verb user, .returned)) :
    op.caller = some i ∧ s.docket.request.status = .pending := by
  cases op with
  | step j now brokerUp =>
      rcases s.step_cases j now brokerUp with heq | ⟨caller, stage, stage', hj, hn, hready, heq⟩ |
        ⟨caller, w, message, hj, heq⟩
      · rw [heq] at hafter
        exact absurd hafter hbefore
      · rw [heq] at hafter
        rcases getElem?_set_cases hafter with ⟨-, hc⟩ | ⟨-, hi⟩
        · obtain ⟨rfl, rfl⟩ := Prod.mk.inj hc
          obtain ⟨w, message, rfl⟩ := Party.ready_of_returned hn
          exact absurd rfl (hready w message)
        · exact absurd hi hbefore
      · rw [heq] at hafter
        rcases getElem?_set_cases hafter with ⟨rfl, hc⟩ | ⟨-, hi⟩
        · obtain ⟨rfl, -⟩ := Prod.mk.inj hc
          obtain ⟨⟨a, ha, -⟩, -⟩ := h.fits i _ hj
          exact ⟨rfl, h.held_pending i _ hj (by rw [Stage.holdsRequest, Stage.writes, ha]; rfl)⟩
        · exact absurd hi hbefore
  | call caller =>
      have hcalls : (s.calls ++ [(caller, Stage.called)])[i]? =
          some (.decision verb user, .returned) := hafter
      by_cases hlt : i < s.calls.length
      · rw [List.getElem?_append_left hlt] at hcalls
        exact absurd hcalls hbefore
      · rw [List.getElem?_append_right (Nat.le_of_not_lt hlt)] at hcalls
        cases (Prod.mk.inj (List.mem_singleton.mp (List.mem_of_getElem? hcalls))).2
  | abort j e =>
      dsimp only [Chamber.apply] at hafter
      rcases hj : s.calls[j]? with _ | ⟨caller, stage⟩
      · rw [hj] at hafter
        exact absurd hafter hbefore
      rw [hj] at hafter
      dsimp only at hafter
      split_ifs at hafter
      · exact absurd hafter hbefore
      · rcases getElem?_set_cases hafter with ⟨-, hc⟩ | ⟨-, hi⟩
        · cases (Prod.mk.inj hc).2
        · exact absurd hi hbefore
  | others task session => exact absurd hafter hbefore

end LarkPlat
