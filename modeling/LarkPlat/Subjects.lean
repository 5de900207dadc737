import LarkPlat.Pairing
import LarkPlat.RunService

/-!
# Subjects and Their Approval Requests

An exec task and a terminal session are the two subjects of an approval. Three decisions, the four
calls that end or retry a subject and the two creations write both sides, in different modules.
Every one of them keeps the two sides in step but `reject` of a session's request: it has a linkage
for tasks only, and leaves the session awaiting a request that is rejected.

## Main results

* `Desk.subjectsAgree_of_inv`: the invariant of the two tables gives the agreement.
* `DeskInv.apply`: every call but the rejection of a session's request keeps the invariant.
* `subjects_agree_iff`: subject and request agree in every state of a run if and only if the run
  rejects no pending request of a session.
* `rejected_session_still_awaits`: a run that does.
-/

namespace LarkPlat

open Machine

/-! ### The calls -/

/-- The complete calls on tasks, sessions and requests. -/
inductive DeskOp
  /-- A call on the execution tables; a decision also acts on the session of its request. -/
  | call (op : ExecOp)
  | createSession (now : ℚ) (user : Actor) (hostId : ℕ)
  | closeSession (now : ℚ) (user : Actor) (sessionId : ℕ)
  /-- `mark_idle_timeout` and `mark_duration_limit`. -/
  | limitSession (now : ℚ) (reason : String) (sessionId : ℕ)
  /-- `cancel_run` of a workflow run with these rows. -/
  | cancelRun (env : ExecEnv) (g : Gate) (run : WorkflowRun) (nodes : List WorkflowNodeRun)
      (release : Option Release)
  /-- Sensitivity levels and limits are edited. -/
  | configure (sensitiveHosts : List ℕ) (userLimit globalLimit : ℤ)

/-- The tables that a call commits, if it does. The request of a session is inserted by
`create_session`, so a bare `openTerminal` is no call here. -/
def DeskOp.result (d : Desk) : DeskOp → Option Desk
  | .call (.approve env userId approvalId) => (d.approve env userId approvalId).toOption
  | .call (.reject env userId approvalId) => (d.reject env userId approvalId).toOption
  | .call (.cancelApproval env userId isAdmin approvalId) =>
      (d.cancelApproval env userId isAdmin approvalId).toOption
  | .call (.openTerminal _ _) => none
  | .call op => (op.result d.exec).map fun exec => { d with exec := exec }
  | .createSession now user hostId => (d.createSession now user hostId).toOption
  | .closeSession now user sessionId => (d.closeSession now user sessionId).toOption
  | .limitSession now reason sessionId => some (d.limitSession now reason sessionId)
  | .cancelRun env g run nodes release =>
      (LarkPlat.cancelRun env g ⟨run, nodes, release, d.exec⟩).toOption.map fun s =>
        { d with exec := s.exec }
  | .configure sensitiveHosts userLimit globalLimit =>
      some { d with
        sensitiveHosts := sensitiveHosts, userLimit := userLimit, globalLimit := globalLimit }

/-- One call; a call that raises leaves the tables as they were. -/
def DeskOp.apply (d : Desk) (op : DeskOp) : Desk := (op.result d).getD d

/-! ### The agreement -/

/-- The request is pending. -/
def RequestPending (db : ExecDb) (approvalId : Option ℕ) : Prop :=
  ∃ a ∈ approvalId.bind db.approval?, a.status = .pending

instance (db : ExecDb) (approvalId : Option ℕ) : Decidable (RequestPending db approvalId) :=
  inferInstanceAs (Decidable (∃ a ∈ approvalId.bind db.approval?, a.status = .pending))

/-- Every task and every session awaits approval exactly if the request it points at is pending. -/
structure SubjectsAgree (d : Desk) : Prop where
  tasks : ∀ id t, d.exec.task? id = some t →
    (t.status = .awaitingApproval ↔ RequestPending d.exec t.approvalId)
  sessions : ∀ id s, d.session? id = some s →
    (s.status = .awaitingApproval ↔ RequestPending d.exec s.approvalId)

/-- The call rejects no pending request of a session. -/
def RejectsNoSession (d : Desk) : DeskOp → Prop
  | .call (.reject _ _ approvalId) =>
      ∀ a ∈ (requirePending d.exec approvalId).toOption, a.bizType ≠ .terminal
  | _ => True

/-! ### The invariant -/

/-- The session side: sessions lie below the counter, a session points at a terminal request for
itself, an awaiting session points at a pending one, and every pending terminal request is awaited
by its session. -/
structure Seated (d : Desk) : Prop where
  session_lt : ∀ id s, d.session? id = some s → id < d.nextSession
  linked : ∀ id s aid, d.session? id = some s → s.approvalId = some aid →
    ∃ a, d.exec.approval? aid = some a ∧ a.bizType = .terminal ∧ a.bizId = id
  awaits : ∀ id s, d.session? id = some s → s.status = .awaitingApproval →
    ∃ aid a, s.approvalId = some aid ∧ d.exec.approval? aid = some a ∧ a.status = .pending
  pending : ∀ aid a, d.exec.approval? aid = some a → a.bizType = .terminal → a.status = .pending →
    ∃ s, d.session? a.bizId = some s ∧ s.status = .awaitingApproval ∧ s.approvalId = some aid

/-- The invariant of the two tables. -/
structure DeskInv (d : Desk) : Prop where
  kept : Kept d.exec
  paired : Paired d.exec
  seated : Seated d

theorem deskInv_fresh (hosts : List Host) (rules : ExecRules) (sensitiveHosts : List ℕ) :
    DeskInv (Desk.fresh hosts rules sensitiveHosts) where
  kept := kept_fresh hosts rules
  paired := paired_fresh hosts rules
  seated := ⟨(fun _ _ h => by cases h), (fun _ _ _ h => by cases h), (fun _ _ h => by cases h),
    (fun _ _ h => by cases h)⟩

/-- **The agreement** follows from the invariant. -/
theorem Desk.subjectsAgree_of_inv {d : Desk} (h : DeskInv d) : SubjectsAgree d where
  tasks _ _ ht := awaits_iff_pending h.kept h.paired ht
  sessions id s hs := by
    constructor
    · intro hst
      obtain ⟨aid, a, hlink, ha, hpend⟩ := h.seated.awaits id s hs hst
      exact ⟨a, by rw [hlink]; exact ha, hpend⟩
    · rintro ⟨a, ha, hpend⟩
      obtain ⟨aid, hlink, ha⟩ := Option.bind_eq_some_iff.mp ha
      obtain ⟨a', ha', htype, rfl⟩ := h.seated.linked id s aid hs hlink
      obtain rfl := Option.some.inj (ha.symm.trans ha')
      obtain ⟨s', hs', hst, -⟩ := h.seated.pending aid a ha htype hpend
      obtain rfl := Option.some.inj (hs.symm.trans hs')
      exact hst

/-! ### Calls that leave the sessions alone -/

variable {d d' : Desk} {db db' : ExecDb} {env : ExecEnv}

/-- The two tables have the same terminal requests. -/
def SameTerminal (db db' : ExecDb) : Prop :=
  ∀ aid a, a.bizType = .terminal → (db'.approval? aid = some a ↔ db.approval? aid = some a)

theorem Seated.of_sameTerminal (h : Seated d) (hsame : SameTerminal d.exec db') :
    Seated { d with exec := db' } where
  session_lt := h.session_lt
  linked id s aid hs hlink := by
    obtain ⟨a, ha, htype, hbiz⟩ := h.linked id s aid hs hlink
    exact ⟨a, (hsame aid a htype).mpr ha, htype, hbiz⟩
  awaits id s hs hst := by
    obtain ⟨aid, a, hlink, ha, hpend⟩ := h.awaits id s hs hst
    obtain ⟨a', ha', htype, -⟩ := h.linked id s aid hs hlink
    obtain rfl := Option.some.inj (ha.symm.trans ha')
    exact ⟨aid, a, hlink, (hsame aid a htype).mpr ha, hpend⟩
  pending aid a ha htype hpend := h.pending aid a ((hsame aid a htype).mp ha) htype hpend

theorem Touches.sameTerminal {tid aid : Option ℕ} (h : Touches tid aid db db')
    (hkind : ∀ i a, aid = some i → db.approval? i = some a → a.bizType ≠ .terminal) :
    SameTerminal db db' := by
  intro i a htype
  by_cases hi : aid = some i
  · constructor
    · intro ha
      have hbound := h.bound i
      rw [ha] at hbound
      obtain ⟨a', ha', hkeep⟩ := Option.map_eq_some_iff.mp hbound.symm
      exact absurd ((Prod.mk.inj hkeep).1.trans htype) (hkind i a' hi ha')
    · exact fun ha => absurd htype (hkind i a hi ha)
  · rw [h.approval i hi]

theorem Grown.sameTerminal (h : Grown db db') (hk : Kept db)
    (hnew : ∀ i a, db.nextApproval ≤ i → db'.approval? i = some a → a.bizType ≠ .terminal) :
    SameTerminal db db' := by
  intro i a htype
  by_cases hlt : i < db.nextApproval
  · rw [h.approval i hlt]
  · have hge := Nat.le_of_not_lt hlt
    rw [hk.approval?_none hge]
    constructor
    · exact fun ha => absurd htype (hnew i a hge ha)
    · exact fun ha => by cases ha

/-- **Calls that decide nothing** leave the requests of sessions alone. -/
theorem ExecOp.sameTerminal (hk : Kept db) (hp : Paired db) {op : ExecOp}
    (hdec : op.decides = false) (hopen : ∀ sessionId userId, op ≠ .openTerminal sessionId userId) :
    SameTerminal db (op.apply db) := by
  have hkept := (op.call hk).kept
  have hshape := op.shape hk hp
  generalize op.apply db = db' at hshape hkept ⊢
  cases hshape with
  | settles h hkind =>
      refine h.toTouches.sameTerminal fun i a hi ha => ?_
      rcases hkind with hc | hexec
      · rw [hdec] at hc
        cases hc
      · rw [hexec i a hi ha]
        exact BizType.noConfusion
  | created _ h =>
      have hcreates := creates_of_ok hk h
      refine hcreates.grown.sameTerminal hk fun i a hge ha => ?_
      have hlt := hkept.approval_lt i (by rw [ha]; rfl)
      have hnext := hcreates.nextApproval
      have hrequest := hcreates.request
      split_ifs at hnext hrequest
      · obtain rfl : i = db.nextApproval := by omega
        obtain ⟨a', ha', htype, -⟩ := hcreates.bound _ hrequest
        obtain rfl := Option.some.inj (ha.symm.trans ha')
        rw [htype]
        exact BizType.noConfusion
      · omega
  | @retried _ lower _ userId task _ ht _ _ h =>
      have hspec := retrySensitive_eq userId (retryVerdict lower db task).2 hk ht
      split_ifs at hspec
      · rw [hspec] at h
        cases h
      obtain ⟨db₁, hok, -, -, -, hreq⟩ := hspec
      obtain rfl := Option.some.inj (hok.symm.trans h)
      obtain ⟨-, hbound, huntouched, hnext⟩ := retrySensitive_frame h
      intro i a htype
      rcases Nat.lt_trichotomy i db.nextApproval with hlt | rfl | hgt
      · by_cases hi : task.approvalId = some i
        · obtain ⟨r, hr, hexec, -⟩ := hp.linked task.id task i ht hi
          obtain ⟨r', hr', hexec', -⟩ := hbound i r hlt hr
          rw [hr, hr']
          constructor
          · rintro hc
            obtain rfl := Option.some.inj hc
            rw [hexec', hexec] at htype
            cases htype
          · rintro hc
            obtain rfl := Option.some.inj hc
            rw [hexec] at htype
            cases htype
        · rw [huntouched i hlt hi]
      · rw [hreq, hk.approval?_none le_rfl]
        constructor
        · rintro hc
          obtain rfl := Option.some.inj hc
          cases htype
        · exact fun hc => by cases hc
      · rw [hk.approval?_none hgt.le, hkept.approval?_none (by omega)]
  | @asked r hop hid htype =>
      have hworkflow : r.bizType = .workflow := by
        rcases htype with hw | ⟨sessionId, userId, heq⟩
        · exact hw
        · exact absurd heq (hopen sessionId userId)
      refine (@addRequest_call _ [] r hk hid fun hc => ?_).1.sameTerminal hk fun i a hge ha => ?_
      · rw [hworkflow] at hc
        cases hc
      · have hlt := hkept.approval_lt i (by rw [ha]; rfl)
        obtain rfl : i = r.id := by
          rw [hid]
          exact Nat.le_antisymm (Nat.lt_succ_iff.mp hlt) hge
        have hself : (db.addRequest r).approval? r.id = some r :=
          Table.find_concat_self (hk.approval?_none hid.ge)
        obtain rfl := Option.some.inj (hself.symm.trans ha)
        rw [hworkflow]
        exact BizType.noConfusion

theorem DeskInv.call (h : DeskInv d) {op : ExecOp} (hdec : op.decides = false)
    (hopen : ∀ sessionId userId, op ≠ .openTerminal sessionId userId) :
    DeskInv { d with exec := op.apply d.exec } where
  kept := (op.call h.kept).kept
  paired := h.paired.apply h.kept op
  seated := h.seated.of_sameTerminal (op.sameTerminal h.kept h.paired hdec hopen)

theorem DeskInv.call_of_result (h : DeskInv d) {op : ExecOp} (hdec : op.decides = false)
    (hopen : ∀ sessionId userId, op ≠ .openTerminal sessionId userId)
    (hr : op.result d.exec = some db') : DeskInv { d with exec := db' } := by
  have hcall := h.call hdec hopen
  rw [ExecOp.apply, hr] at hcall
  exact hcall

theorem DeskInv.cancelLinked (h : DeskInv d) (env : ExecEnv) (nodes : List WorkflowNodeRun) :
    DeskInv { d with exec := nodes.foldl (cancelLinked env) d.exec } := by
  induction nodes generalizing d with
  | nil => exact h
  | cons node nodes ih =>
      rw [List.foldl_cons]
      suffices hone : DeskInv { d with exec := LarkPlat.cancelLinked env d.exec node } from
        ih hone
      unfold LarkPlat.cancelLinked
      split_ifs
      · rcases node.execTaskId with _ | taskId
        · exact h
        · exact @DeskInv.call d h (.cancelTask env taskId) rfl fun _ _ => ExecOp.noConfusion
      · exact h

/-! ### Calls on one session -/

/-- The session that `create_session` goes on to insert. -/
theorem sessionToCreate_row {now : ℚ} {user : Actor} {hostId : ℕ} {s : TerminalSession}
    (h : d.sessionToCreate now user hostId = .ok s) :
    s.id = d.nextSession ∧ s.approvalId = none ∧ s.status = .open := by
  unfold Desk.sessionToCreate at h
  obtain ⟨-, -, h⟩ := bind_eq_ok.mp h
  rcases hhost : d.exec.host? hostId with _ | host
  · rw [hhost] at h
    cases h
  rw [hhost] at h
  dsimp only at h
  by_cases hsees : ¬ user.sees host = true
  · rw [if_pos hsees] at h
    exact absurd h (throw_bind_ne_ok _ _ _)
  rw [if_neg hsees] at h
  by_cases huser : d.userLimit ≤ d.countOpen fun s => decide (s.userId = user.id)
  · rw [if_pos huser] at h
    exact absurd h (throw_bind_ne_ok _ _ _)
  rw [if_neg huser] at h
  by_cases hglobal : d.globalLimit ≤ d.countOpen fun _ => true
  · rw [if_pos hglobal] at h
    exact absurd h (throw_bind_ne_ok _ _ _)
  rw [if_neg hglobal] at h
  obtain rfl := Except.ok.inj h
  exact ⟨rfl, rfl, rfl⟩

theorem requireVisibleSession_self {user : Actor} {sessionId : ℕ} {s : TerminalSession}
    (h : d.requireVisibleSession user sessionId = .ok s) : d.session? s.id = some s := by
  unfold Desk.requireVisibleSession at h
  rcases hs : d.session? sessionId with _ | s'
  · rw [hs] at h
    cases h
  rw [hs] at h
  dsimp only at h
  split_ifs at h
  obtain rfl := Except.ok.inj h
  obtain rfl : s'.id = sessionId := Table.key_of_find hs
  exact hs

theorem session?_setSession {f : TerminalSession → TerminalSession} (hf : ∀ s, (f s).id = s.id)
    (sid i : ℕ) : (d.setSession sid f).session? i =
      if i = sid then (d.session? i).map f else d.session? i := by
  split_ifs with hi
  · subst hi
    exact Table.find_modify_self fun s hs => (hf s).trans hs
  · exact Table.find_modify_ne (fun s hs => (hf s).trans hs) hi

/-- A session that stops waiting, together with the request that it waited for. -/
theorem Seated.settle {sid : ℕ} {aid : Option ℕ} (h : Seated d)
    (hnext : d'.nextSession = d.nextSession)
    (hothers : ∀ i, i ≠ sid → d'.session? i = d.session? i)
    (hself : ∀ s', d'.session? sid = some s' → ∃ s, d.session? sid = some s ∧
      s'.approvalId = s.approvalId ∧ s'.status ≠ .awaitingApproval)
    (htouch : Touches none aid d.exec d'.exec)
    (hclosed : ∀ i a, aid = some i → d'.exec.approval? i = some a → a.status ≠ .pending)
    (hown : ∀ s, d.session? sid = some s → s.status = .awaitingApproval → s.approvalId = aid)
    (hbiz : ∀ i a, aid = some i → d.exec.approval? i = some a → a.bizType = .terminal →
      a.bizId = sid) : Seated d' := by
  have hback : ∀ i s', d'.session? i = some s' → ∃ s, d.session? i = some s ∧
      s'.approvalId = s.approvalId ∧ (s'.status = .awaitingApproval → s' = s ∧ i ≠ sid) := by
    intro i s' hs'
    by_cases hi : i = sid
    · subst hi
      obtain ⟨s, hs, hlink, hst⟩ := hself s' hs'
      exact ⟨s, hs, hlink, fun hc => absurd hc hst⟩
    · rw [hothers i hi] at hs'
      exact ⟨s', hs', rfl, fun _ => ⟨rfl, hi⟩⟩
  refine ⟨?_, ?_, ?_, ?_⟩
  · intro i s' hs'
    obtain ⟨s, hs, -⟩ := hback i s' hs'
    rw [hnext]
    exact h.session_lt i s hs
  · intro i s' b hs' hlink'
    obtain ⟨s, hs, hlink, -⟩ := hback i s' hs'
    obtain ⟨a, ha, htype, hbizId⟩ := h.linked i s b hs (hlink ▸ hlink')
    have hbound := htouch.bound b
    rw [ha] at hbound
    obtain ⟨a', ha', hkeep⟩ := Option.map_eq_some_iff.mp hbound
    obtain ⟨htype', hbizId'⟩ := Prod.mk.inj hkeep
    exact ⟨a', ha', htype'.trans htype, hbizId'.trans hbizId⟩
  · intro i s' hs' hst'
    obtain ⟨s, hs, -, hsame⟩ := hback i s' hs'
    obtain ⟨rfl, hi⟩ := hsame hst'
    obtain ⟨b, a, hlink, ha, hpend⟩ := h.awaits i s' hs hst'
    refine ⟨b, a, hlink, ?_, hpend⟩
    rw [htouch.approval b fun hb => hi ?_]
    · exact ha
    · obtain ⟨a', ha', htype, hbizId⟩ := h.linked i s' b hs hlink
      rw [← hbizId]
      exact hbiz b a' hb ha' htype
  · intro b a ha htype hpend
    have hb : aid ≠ some b := fun hb => hclosed b a hb ha hpend
    rw [htouch.approval b hb] at ha
    obtain ⟨s, hs, hst, hlink⟩ := h.pending b a ha htype hpend
    by_cases hi : a.bizId = sid
    · rw [hi] at hs
      exact absurd ((hown s hs hst).symm.trans hlink) hb
    · exact ⟨s, by rw [hothers _ hi]; exact hs, hst, hlink⟩

/-- A write to one session that does not leave it waiting, on tables whose requests stay. -/
theorem Seated.setSession {f : TerminalSession → TerminalSession} {s : TerminalSession} {sid : ℕ}
    (h : Seated d) (hs : d.session? sid = some s) (hst : s.status ≠ .awaitingApproval)
    (hf : ∀ s, (f s).id = s.id ∧ (f s).approvalId = s.approvalId)
    (hf' : (f s).status ≠ .awaitingApproval) : Seated (d.setSession sid f) := by
  have hlook := fun i => @session?_setSession d f (fun s => (hf s).1) sid i
  refine @Seated.settle d _ sid none h rfl ?_ ?_ (Touches.refl d.exec)
    (fun _ _ hc => by cases hc) ?_ (fun _ _ hc => by cases hc)
  · intro i hi
    rw [hlook, if_neg hi]
  · intro s' hs'
    rw [hlook, if_pos rfl, hs, Option.map_some] at hs'
    obtain rfl := Option.some.inj hs'
    exact ⟨s, hs, (hf s).2, hf'⟩
  · intro s' hs' hst'
    obtain rfl := Option.some.inj (hs.symm.trans hs')
    exact absurd hst' hst

theorem Seated.closeOpen {now : ℚ} {reason : String} {s : TerminalSession} (h : Seated d)
    (hs : d.session? s.id = some s) (hopen : s.status = .open)
    (hc : d.closeOpen now reason s = some d') : Seated d' ∧ d'.exec = d.exec := by
  obtain ⟨d₁, hclose, rfl⟩ := Option.map_eq_some_iff.mp hc
  unfold Desk.optimisticClose at hclose
  rw [hs] at hclose
  dsimp only at hclose
  rw [if_pos ⟨hopen, rfl⟩] at hclose
  obtain rfl := Option.some.inj hclose
  have hne : s.status ≠ .awaitingApproval := by
    rw [hopen]
    exact SessionStatus.noConfusion
  set close : TerminalSession → TerminalSession := fun s' =>
    { s' with status := .closed, version := s.version + 1 } with hclose
  have hone : Seated (d.setSession s.id close) :=
    h.setSession hs hne (fun _ => ⟨rfl, rfl⟩) SessionStatus.noConfusion
  have hs₁ : (d.setSession s.id close).session? s.id = some (close s) := by
    rw [@session?_setSession d close (fun _ => rfl) s.id s.id, if_pos rfl, hs, Option.map_some]
  refine ⟨hone.setSession hs₁ SessionStatus.noConfusion ?_ SessionStatus.noConfusion, rfl⟩
  exact fun _ => ⟨rfl, rfl⟩

/-- The session of a terminal request that is decided, and its session with it. -/
theorem Seated.linkSession {a : ApprovalRequest} {new : ApprovalStatus} {approver : Option ℕ}
    {approvalId : ℕ} {f : TerminalSession → TerminalSession} (h : Seated d)
    (hreq : requirePending d.exec approvalId = .ok a)
    (hd : decide? d.exec a new approver = .ok db') (hnew : new ≠ .pending)
    (htype : a.bizType = .terminal)
    (hf : ∀ s, (f s).id = s.id ∧ (f s).approvalId = s.approvalId ∧
      (f s).status ≠ .awaitingApproval) :
    Seated (({ d with exec := db' } : Desk).linkSession a f) := by
  obtain ⟨hfind, hpend⟩ := requirePending_self hreq
  obtain ⟨htouch, a', ha', hst'⟩ := decide?_touches none hd
  obtain ⟨s, hs, hst, hlink⟩ := h.pending a.id a hfind htype hpend
  have hset : ({ d with exec := db' } : Desk).linkSession a f =
      ({ d with exec := db' } : Desk).setSession a.bizId f := by
    refine if_pos ⟨htype, ?_⟩
    show (d.session? a.bizId).any _ = true
    rw [hs, Option.any_some, decide_eq_true_eq]
    exact hst
  have hlook := fun i => @session?_setSession { d with exec := db' } f (fun s => (hf s).1) a.bizId i
  have hsession : ∀ i, ({ d with exec := db' } : Desk).session? i = d.session? i := fun _ => rfl
  rw [hset]
  refine @Seated.settle d _ a.bizId (some a.id) h rfl ?_ ?_ htouch ?_ ?_ ?_
  · intro i hi
    rw [hlook, if_neg hi, hsession]
  · intro s' hs'
    rw [hlook, if_pos rfl, hsession, hs, Option.map_some] at hs'
    obtain rfl := Option.some.inj hs'
    exact ⟨s, hs, (hf s).2⟩
  · intro i b hi hb
    obtain rfl := Option.some.inj hi
    obtain rfl := Option.some.inj (ha'.symm.trans hb)
    rw [hst']
    exact hnew
  · intro s' hs' _
    obtain rfl := Option.some.inj (hs.symm.trans hs')
    exact hlink
  · intro i b hi hb _
    obtain rfl := Option.some.inj hi
    obtain rfl := Option.some.inj (hfind.symm.trans hb)
    rfl

theorem Seated.decided {a : ApprovalRequest} {new : ApprovalStatus} {approver : Option ℕ}
    {approvalId : ℕ} {tid : Option ℕ} {db₁ : ExecDb} (h : Seated d)
    (hreq : requirePending d.exec approvalId = .ok a)
    (hd : decide? d.exec a new approver = .ok db₁) (hrest : Touches tid none db₁ db')
    (htype : a.bizType ≠ .terminal) : Seated { d with exec := db' } := by
  obtain ⟨hfind, -⟩ := requirePending_self hreq
  have htouch := (decide?_touches tid hd).1.trans (hrest.with_request _)
  refine h.of_sameTerminal (htouch.sameTerminal fun i b hi hb => ?_)
  obtain rfl := Option.some.inj hi
  obtain rfl := Option.some.inj (hfind.symm.trans hb)
  exact htype

/-! ### The decisions -/

section Decisions

variable {userId approvalId : ℕ} {isAdmin : Bool}

/-- `approve`. -/
theorem DeskInv.approve (h : DeskInv d) (hok : d.approve env userId approvalId = .ok d') :
    DeskInv d' := by
  have hexec : LarkPlat.approve env d.exec userId approvalId = .ok d'.exec := by
    rw [← Desk.approve_exec, hok]
    rfl
  obtain ⟨tid, aid, hsettles⟩ := settles_approve hexec
  have hcall : Call [] d.exec d'.exec := approve_call h.kept hexec
  refine ⟨hcall.kept, hsettles.paired h.paired, ?_⟩
  unfold Desk.approve at hok
  obtain ⟨a, hreq, hok⟩ := bind_eq_ok.mp hok
  obtain ⟨db₁, hd, hok⟩ := bind_eq_ok.mp hok
  rcases htype : a.bizType <;> rw [htype] at hok
  · obtain ⟨db₂, hstart, hok⟩ := bind_eq_ok.mp hok
    obtain rfl := Except.ok.inj hok
    exact h.seated.decided hreq hd (approveExec_touches none hstart).1 (by simp [htype])
  · obtain rfl := Except.ok.inj hok
    exact h.seated.linkSession hreq hd (by decide) htype
      fun _ => ⟨rfl, rfl, SessionStatus.noConfusion⟩
  · obtain rfl := Except.ok.inj hok
    exact h.seated.decided hreq hd (@Touches.refl none none db₁) (by simp [htype])
  · obtain rfl := Except.ok.inj hok
    exact h.seated.decided hreq hd (@Touches.refl none none db₁) (by simp [htype])

/-- `reject`, but of a session's request. -/
theorem DeskInv.reject (h : DeskInv d) (hok : d.reject env userId approvalId = .ok d')
    (hkind : ∀ a, requirePending d.exec approvalId = .ok a → a.bizType ≠ .terminal) :
    DeskInv d' := by
  have hexec : LarkPlat.reject env d.exec userId approvalId = .ok d'.exec := by
    rw [← Desk.reject_exec, hok]
    rfl
  obtain ⟨tid, aid, hsettles⟩ := settles_reject h.kept hexec
  have hcall : Call [] d.exec d'.exec := reject_call h.kept hexec
  refine ⟨hcall.kept, hsettles.paired h.paired, ?_⟩
  unfold Desk.reject at hok
  obtain ⟨a, hreq, hok⟩ := bind_eq_ok.mp hok
  obtain ⟨db₁, hd, hok⟩ := bind_eq_ok.mp hok
  split_ifs at hok
  · obtain rfl := Except.ok.inj hok
    exact h.seated.decided hreq hd (cancelAwaiting_touches env db₁ a.bizId none).1 (hkind a hreq)
  · obtain rfl := Except.ok.inj hok
    exact h.seated.decided hreq hd (@Touches.refl none none db₁) (hkind a hreq)

/-- `cancel`. -/
theorem DeskInv.cancelApproval (h : DeskInv d)
    (hok : d.cancelApproval env userId isAdmin approvalId = .ok d') : DeskInv d' := by
  have hexec : LarkPlat.cancelApproval env d.exec userId isAdmin approvalId = .ok d'.exec := by
    rw [← Desk.cancelApproval_exec, hok]
    rfl
  obtain ⟨tid, aid, hsettles⟩ := settles_cancelApproval h.kept hexec
  have hcall : Call [] d.exec d'.exec := cancelApproval_call h.kept hexec
  refine ⟨hcall.kept, hsettles.paired h.paired, ?_⟩
  unfold Desk.cancelApproval at hok
  obtain ⟨a, hreq, hok⟩ := bind_eq_ok.mp hok
  by_cases hperm : a.requesterId ≠ userId ∧ ¬ isAdmin = true
  · rw [if_pos hperm] at hok
    exact absurd hok (throw_bind_ne_ok _ _ _)
  rw [if_neg hperm] at hok
  obtain ⟨db₁, hd, hok⟩ := bind_eq_ok.mp hok
  rcases htype : a.bizType <;> rw [htype] at hok
  · obtain rfl := Except.ok.inj hok
    exact h.seated.decided hreq hd (cancelAwaiting_touches env db₁ a.bizId none).1 (by simp [htype])
  · obtain rfl := Except.ok.inj hok
    exact h.seated.linkSession hreq hd (by decide) htype
      fun _ => ⟨rfl, rfl, SessionStatus.noConfusion⟩
  · obtain rfl := Except.ok.inj hok
    exact h.seated.decided hreq hd (@Touches.refl none none db₁) (by simp [htype])
  · obtain rfl := Except.ok.inj hok
    exact h.seated.decided hreq hd (@Touches.refl none none db₁) (by simp [htype])

end Decisions

/-! ### The calls on sessions -/

theorem Seated.session?_none (h : Seated d) : d.session? d.nextSession = none := by
  rcases hs : d.session? d.nextSession with _ | s
  · rfl
  · exact absurd (h.session_lt _ s hs) (Nat.lt_irrefl _)

theorem Seated.addSession {s : TerminalSession} (h : Seated d) (hid : s.id = d.nextSession)
    (hold : ∀ aid a, d.exec.approval? aid = some a → db'.approval? aid = some a)
    (hnew : ∀ aid a, db'.approval? aid = some a → a.bizType = .terminal →
      d.exec.approval? aid = some a ∨
        a.bizId = s.id ∧ s.status = .awaitingApproval ∧ s.approvalId = some aid)
    (hlink : ∀ aid, s.approvalId = some aid →
      ∃ a, db'.approval? aid = some a ∧ a.bizType = .terminal ∧ a.bizId = s.id)
    (hawait : s.status = .awaitingApproval →
      ∃ aid a, s.approvalId = some aid ∧ db'.approval? aid = some a ∧ a.status = .pending) :
    Seated { d with
      exec := db', sessions := d.sessions ++ [s], nextSession := d.nextSession + 1 } := by
  set d' : Desk := { d with
    exec := db', sessions := d.sessions ++ [s], nextSession := d.nextSession + 1 } with hd'
  have hself : d'.session? s.id = some s := by
    refine Table.find_concat_self ?_
    rw [hid]
    exact h.session?_none
  have hne : ∀ i, i ≠ s.id → d'.session? i = d.session? i :=
    fun i hi => Table.find_concat_ne hi
  have hsplit : ∀ i t, d'.session? i = some t →
      i ≠ s.id ∧ d.session? i = some t ∨ i = s.id ∧ t = s := by
    intro i t ht
    by_cases hi : i = s.id
    · subst hi
      exact Or.inr ⟨rfl, Option.some.inj (ht.symm.trans hself)⟩
    · rw [hne i hi] at ht
      exact Or.inl ⟨hi, ht⟩
  refine ⟨fun i t ht => ?_, fun i t aid ht hl => ?_, fun i t ht hst => ?_, ?_⟩
  · rcases hsplit i t ht with ⟨-, ht⟩ | ⟨rfl, rfl⟩
    · exact Nat.lt_succ_of_lt (h.session_lt i t ht)
    · rw [hid]
      exact Nat.lt_succ_self _
  · rcases hsplit i t ht with ⟨-, ht⟩ | ⟨rfl, rfl⟩
    · obtain ⟨a, ha, hbound⟩ := h.linked i t aid ht hl
      exact ⟨a, hold aid a ha, hbound⟩
    · exact hlink aid hl
  · rcases hsplit i t ht with ⟨-, ht⟩ | ⟨rfl, rfl⟩
    · obtain ⟨aid, a, hl, ha, hpend⟩ := h.awaits i t ht hst
      exact ⟨aid, a, hl, hold aid a ha, hpend⟩
    · exact hawait hst
  · intro aid a ha htype hpend
    rcases hnew aid a ha htype with ha | ⟨hbiz, hst, hl⟩
    · obtain ⟨t, ht, hst, hl⟩ := h.pending aid a ha htype hpend
      have hlt := h.session_lt _ t ht
      refine ⟨t, (hne _ ?_).trans ht, hst, hl⟩
      rw [hid]
      exact hlt.ne
    · exact ⟨s, hbiz ▸ hself, hst, hl⟩

/-- `create_session`. -/
theorem DeskInv.createSession {now : ℚ} {user : Actor} {hostId : ℕ} (h : DeskInv d)
    (hok : d.createSession now user hostId = .ok d') : DeskInv d' := by
  obtain ⟨session, hsession, hok⟩ := bind_eq_ok.mp hok
  obtain ⟨hid, hlink, hst⟩ := sessionToCreate_row hsession
  unfold Desk.insertSession at hok
  split_ifs at hok
  · obtain rfl := Except.ok.inj hok
    set a := terminalApproval d.exec session.id session.userId with ha
    obtain ⟨hgrown, hcall⟩ := @addRequest_call d.exec [] a h.kept rfl fun hc => by cases hc
    have hself : (d.exec.addRequest a).approval? a.id = some a :=
      Table.find_concat_self (h.kept.approval?_none le_rfl)
    refine ⟨hcall.kept, h.paired.addRequest h.kept rfl, ?_⟩
    refine @Seated.addSession d _ _ h.seated hid ?_ ?_ ?_ fun _ => ⟨a.id, a, rfl, hself, rfl⟩
    · intro b r hr
      rw [hgrown.approval b (h.kept.approval_lt b (by rw [hr]; rfl)), hr]
    · intro b r hr _
      by_cases hb : b = a.id
      · subst hb
        obtain rfl := Option.some.inj (hself.symm.trans hr)
        exact Or.inr ⟨rfl, rfl, rfl⟩
      · exact Or.inl ((Table.find_concat_ne hb).symm.trans hr)
    · intro b hb
      obtain rfl := Option.some.inj hb
      exact ⟨a, hself, rfl, rfl⟩
  · obtain rfl := Except.ok.inj hok
    refine ⟨h.kept, h.paired, @Seated.addSession d _ _ h.seated hid (fun _ _ hr => hr)
      (fun _ _ hr _ => Or.inl hr) ?_ ?_⟩
    · intro b hb
      rw [hlink] at hb
      cases hb
    · intro hc
      rw [hst] at hc
      cases hc

theorem settles_close {a : ApprovalRequest} (hk : Kept db) (ha : db.approval? a.id = some a)
    (htype : a.bizType = .terminal)
    (hcas : db.casApproval a.id .pending .canceled a.version = some db') :
    Settles none (some a.id) db db' ∧ Kept db' ∧
      ∀ i b, some a.id = some i → db'.approval? i = some b → b.status ≠ .pending := by
  have hbiz := bizIds_casApproval hcas
  obtain ⟨b, -, -, rfl⟩ := casApproval_eq_some hcas
  set db₁ := db.setApproval a.id fun b =>
    { b with status := .canceled, version := a.version + 1 } with hdb₁
  have htouch : Touches none (some a.id) db db₁ :=
    touches_setApproval (fun _ => rfl) fun _ => ⟨rfl, rfl⟩
  have hclosed : ∀ i b, some a.id = some i → db₁.approval? i = some b → b.status ≠ .pending := by
    intro i b hi hb
    obtain rfl := Option.some.inj hi
    have hfound : db₁.approval? a.id = some { a with
        status := .canceled, version := a.version + 1 } :=
      approval?_setApproval_self (fun _ => rfl) ha
    obtain rfl := Option.some.inj (hfound.symm.trans hb)
    exact ApprovalStatus.noConfusion
  have hcall : Call [] db db₁ :=
    htouch.call hk hclosed (fun _ _ hc => by cases hc) fun _ _ hc => by cases hc
  refine ⟨⟨htouch, (fun _ hc => by cases hc), ?_, hbiz⟩, hcall.kept, hclosed⟩
  intro i b hi hb hexec
  obtain rfl := Option.some.inj hi
  obtain rfl := Option.some.inj (ha.symm.trans hb)
  rw [htype] at hexec
  cases hexec

/-- `close_session` on an awaiting session. -/
theorem DeskInv.closeAwaiting {s : TerminalSession} (now : ℚ) (h : DeskInv d)
    (hs : d.session? s.id = some s) (hst : s.status = .awaitingApproval) :
    DeskInv (d.closeAwaiting now s) := by
  obtain ⟨aid, a, hlink, ha, hpend⟩ := h.seated.awaits s.id s hs hst
  obtain ⟨a', ha', htype, hbiz⟩ := h.seated.linked s.id s aid hs hlink
  obtain rfl := Option.some.inj (ha.symm.trans ha')
  obtain rfl : a.id = aid := Table.key_of_find ha
  have hcas : d.exec.casApproval a.id .pending .canceled a.version =
      some (d.exec.setApproval a.id fun b =>
        { b with status := .canceled, version := a.version + 1 }) := by
    rw [ExecDb.casApproval, ha]
    exact if_pos ⟨hpend, rfl⟩
  set close : TerminalSession → TerminalSession := fun s => { s with
    status := .closed, closeReason := "canceled_before_approval", finishedAt := some now }
    with hclose
  set db₁ := d.exec.setApproval a.id fun b =>
    { b with status := .canceled, version := a.version + 1 } with hdb₁
  have heq : d.closeAwaiting now s =
      ({ d with exec := db₁ } : Desk).setSession s.id close := by
    unfold Desk.closeAwaiting
    rw [hlink, Option.bind_some, ha]
    dsimp only
    rw [if_pos hpend, hcas, Option.getD_some]
  obtain ⟨hsettles, hkept, hclosed⟩ := settles_close h.kept ha htype hcas
  have hlook := fun i => @session?_setSession { d with exec := db₁ } close (fun _ => rfl) s.id i
  have hsession : ∀ i, ({ d with exec := db₁ } : Desk).session? i = d.session? i := fun _ => rfl
  rw [heq]
  refine ⟨hkept, hsettles.paired h.paired, ?_⟩
  refine @Seated.settle d _ s.id (some a.id) h.seated rfl ?_ ?_ hsettles.toTouches hclosed ?_ ?_
  · intro i hi
    rw [hlook, if_neg hi, hsession]
  · intro s' hs'
    rw [hlook, if_pos rfl, hsession, hs, Option.map_some] at hs'
    obtain rfl := Option.some.inj hs'
    exact ⟨s, hs, rfl, SessionStatus.noConfusion⟩
  · intro s' hs' _
    obtain rfl := Option.some.inj (hs.symm.trans hs')
    exact hlink
  · intro i b hi hb _
    obtain rfl := Option.some.inj hi
    obtain rfl := Option.some.inj (ha.symm.trans hb)
    exact hbiz

theorem DeskInv.closeOpen {now : ℚ} {reason : String} {s : TerminalSession} (h : DeskInv d)
    (hs : d.session? s.id = some s) (hst : s.status = .open)
    (hc : d.closeOpen now reason s = some d') : DeskInv d' := by
  obtain ⟨hseated, hexec⟩ := h.seated.closeOpen hs hst hc
  refine ⟨?_, ?_, hseated⟩
  · rw [hexec]
    exact h.kept
  · rw [hexec]
    exact h.paired

/-- `close_session`. -/
theorem DeskInv.closeSession {now : ℚ} {user : Actor} {sessionId : ℕ} (h : DeskInv d)
    (hok : d.closeSession now user sessionId = .ok d') : DeskInv d' := by
  unfold Desk.closeSession at hok
  obtain ⟨-, -, hok⟩ := bind_eq_ok.mp hok
  obtain ⟨s, hvisible, hok⟩ := bind_eq_ok.mp hok
  have hs := requireVisibleSession_self hvisible
  rcases hst : s.status <;> rw [hst] at hok
  · dsimp only at hok
    rcases hc : d.closeOpen now "manual" s with _ | d₁
    · rw [hc] at hok
      cases hok
    · rw [hc] at hok
      obtain rfl := Except.ok.inj hok
      exact h.closeOpen hs hst hc
  · obtain rfl := Except.ok.inj hok
    exact h.closeAwaiting now hs hst
  · cases hok

/-- `mark_idle_timeout` and `mark_duration_limit`. -/
theorem DeskInv.limitSession (now : ℚ) (reason : String) (sessionId : ℕ) (h : DeskInv d) :
    DeskInv (d.limitSession now reason sessionId) := by
  unfold Desk.limitSession
  rcases hs : d.session? sessionId with _ | s
  · exact h
  obtain rfl : s.id = sessionId := Table.key_of_find hs
  dsimp only
  split_ifs with hst
  · rcases hc : d.closeOpen now reason s with _ | d₁
    · exact h
    · exact h.closeOpen hs hst hc
  · exact h

/-! ### Runs -/

/-- `cancel_run` cancels the linked tasks. -/
theorem DeskInv.cancelRun {g : Gate} {run : WorkflowRun} {nodes : List WorkflowNodeRun}
    {release : Option Release} {s : RunState} (h : DeskInv d)
    (hok : LarkPlat.cancelRun env g ⟨run, nodes, release, d.exec⟩ = .ok s) :
    DeskInv { d with exec := s.exec } := by
  unfold LarkPlat.cancelRun at hok
  obtain ⟨-, -, hok⟩ := bind_eq_ok.mp hok
  split_ifs at hok
  obtain rfl := Except.ok.inj hok
  exact h.cancelLinked env nodes

/-- **Every call** keeps the invariant, but for the rejection of a session's request. -/
theorem DeskInv.apply (h : DeskInv d) {op : DeskOp} (hok : RejectsNoSession d op) :
    DeskInv (op.apply d) := by
  unfold DeskOp.apply
  rcases hr : op.result d with _ | d'
  · exact h
  rw [Option.getD_some]
  cases op with
  | call op =>
      cases op with
      | approve env userId approvalId => exact h.approve (ok_of_toOption hr)
      | reject env userId approvalId =>
          refine h.reject (ok_of_toOption hr) fun a ha => hok a ?_
          rw [ha]
          exact rfl
      | cancelApproval env userId isAdmin approvalId => exact h.cancelApproval (ok_of_toOption hr)
      | openTerminal sessionId userId => cases hr
      | _ =>
          dsimp only [DeskOp.result] at hr
          obtain ⟨exec, hexec, rfl⟩ := Option.map_eq_some_iff.mp hr
          exact h.call_of_result rfl (fun _ _ => ExecOp.noConfusion) hexec
  | createSession now user hostId => exact h.createSession (ok_of_toOption hr)
  | closeSession now user sessionId => exact h.closeSession (ok_of_toOption hr)
  | limitSession now reason sessionId =>
      obtain rfl := Option.some.inj hr
      exact h.limitSession now reason sessionId
  | cancelRun env g run nodes release =>
      obtain ⟨s, hs, rfl⟩ := Option.map_eq_some_iff.mp hr
      exact h.cancelRun (ok_of_toOption hs)
  | configure sensitiveHosts userLimit globalLimit =>
      obtain rfl := Option.some.inj hr
      refine ⟨h.kept, h.paired, ?_⟩
      exact ⟨h.seated.session_lt, h.seated.linked, h.seated.awaits, h.seated.pending⟩

/-- The rejection of a session's request leaves the session awaiting a decided request. -/
theorem not_subjectsAgree_reject (h : DeskInv d) {op : DeskOp} (hop : ¬ RejectsNoSession d op) :
    ¬ SubjectsAgree (op.apply d) := by
  obtain ⟨env, userId, approvalId, rfl⟩ : ∃ env userId approvalId,
      op = .call (.reject env userId approvalId) := by
    cases op with
    | call op =>
        cases op with
        | reject env userId approvalId => exact ⟨env, userId, approvalId, rfl⟩
        | _ => exact absurd trivial hop
    | _ => exact absurd trivial hop
  obtain ⟨a, ha, htype⟩ : ∃ a ∈ (requirePending d.exec approvalId).toOption,
      a.bizType = .terminal := by
    by_contra hc
    exact hop fun a ha htype => hc ⟨a, ha, htype⟩
  have hreq := ok_of_toOption ha
  obtain ⟨hfind, hpend⟩ := requirePending_self hreq
  obtain ⟨approvals, hd⟩ := decide?_of_pending .rejected (some userId) hreq
  have hok : d.reject env userId approvalId =
      .ok { d with exec := { d.exec with approvals := approvals } } := by
    have hne : a.bizType ≠ .exec := by
      rw [htype]
      exact BizType.noConfusion
    unfold Desk.reject
    rw [hreq]
    show (decide? d.exec a .rejected (some userId) >>= _) = _
    rw [hd]
    exact if_neg hne
  have heq : (DeskOp.call (.reject env userId approvalId)).apply d =
      { d with exec := { d.exec with approvals := approvals } } := by
    show (d.reject env userId approvalId).toOption.getD d = _
    rw [hok]
    rfl
  obtain ⟨s, hs, hst, hlink⟩ := h.seated.pending a.id a hfind htype hpend
  obtain ⟨-, a', ha', hst'⟩ := decide?_touches none hd
  rw [heq]
  intro hagree
  obtain ⟨b, hb, hpend'⟩ := (hagree.sessions a.bizId s hs).mp hst
  rw [hlink] at hb
  obtain rfl := Option.some.inj (ha'.symm.trans hb)
  rw [hst'] at hpend'
  cases hpend'

/-- **Subject and approval agree** in every state of a run if and only if the run rejects no pending
request of a session. -/
theorem subjects_agree_iff (hosts : List Host) (rules : ExecRules) (sensitiveHosts : List ℕ)
    (ops : List DeskOp) :
    (∀ ops', ops' <+: ops →
      SubjectsAgree (run DeskOp.apply (Desk.fresh hosts rules sensitiveHosts) ops')) ↔
        Meets DeskOp.apply RejectsNoSession (Desk.fresh hosts rules sensitiveHosts) ops := by
  have hinv : ∀ {ops' : List DeskOp},
      Meets DeskOp.apply RejectsNoSession (Desk.fresh hosts rules sensitiveHosts) ops' →
        DeskInv (run DeskOp.apply (Desk.fresh hosts rules sensitiveHosts) ops') :=
    fun hmeets => run_invariant_of_meets (fun _ _ h hok => h.apply hok)
      (deskInv_fresh hosts rules sensitiveHosts) hmeets
  constructor
  · intro hall
    by_contra hbreak
    obtain ⟨ops₁, op, ops₂, rfl, hmeets, hop⟩ := exists_first_break hbreak
    have hpre : ops₁ ++ [op] <+: ops₁ ++ op :: ops₂ := ⟨ops₂, by simp⟩
    have hagree := hall _ hpre
    rw [run_append] at hagree
    exact not_subjectsAgree_reject (hinv hmeets) hop hagree
  · rintro hmeets ops' ⟨ops₂, rfl⟩
    exact Desk.subjectsAgree_of_inv (hinv ((meets_append _ _ _).mp hmeets).1)

/-- A session on a sensitive host is created, and its request is rejected. -/
def rejectedSession : Desk :=
  run DeskOp.apply (Desk.fresh [⟨1, some 1, "agent", none⟩] guardedRules [1])
    [.createSession 0 ⟨7, true, [], fun _ => true⟩ 1, .call (.reject busEnv 2 1)]

/-- **A rejected session.** It still awaits the request that was rejected. -/
theorem rejected_session_still_awaits : ¬ SubjectsAgree rejectedSession := by
  have hrow : ∃ s ∈ rejectedSession.session? 1, s.status = .awaitingApproval ∧
      ¬ RequestPending rejectedSession.exec s.approvalId := by
    decide +kernel
  obtain ⟨s, hs, hst, hnot⟩ := hrow
  intro hagree
  exact hnot ((hagree.sessions 1 s hs).mp hst)

end LarkPlat
