import LarkPlat.Subjects

/-!
# The Keys of Approval Requests

`biz_id` is unique over all approval requests, and three kinds of subject feed it: an exec task and
a terminal session give their own identifiers, a workflow node gives its identifier above an offset.
The counters of tasks and sessions are independent, and a sensitive retry asks again for its task.

A request is never deleted, so a key stays taken. The tables show which keys are taken without
looking at the requests: `sensitive_flag` of a task and `sensitive` of a session say that the
subject has asked once (`OfficeInv.keys`).

## Main results

* `ExecOp.inserts`, `DeskOp.inserts`: what a call adds to the keys, and that a call that reaches its
  insert fails exactly if the key is taken.
* `OfficeInv.apply`: every call keeps the account of the taken keys.
* `unique_keys_iff`: every insert of a run finds its key free, and the call commits, if and only if
  every call of the run asks for a key that no flagged task and no sensitive session has.
* `asked_twice_collides`: a retried task that had a request, and a task with the identifier of a
  session that has one.
-/

namespace LarkPlat

open Machine

variable {env : ExecEnv} {lower : String → String} {db db' db'' : ExecDb} {d d' : Desk}
  {key new : Option ℕ}

/-! ### Keys of the execution tables -/

/-- The task has asked for an approval once. -/
def ExecDb.flagged (db : ExecDb) (id : ℕ) : Bool := (db.task? id).any (·.sensitiveFlag)

/-- The key, if no request has it. -/
def ExecDb.freeKey (db : ExecDb) (key : Option ℕ) : Option ℕ :=
  key.filter fun b => decide (b ∉ db.bizIds)

/-- The change adds the key `new` to the requests and flags its task, and no other. -/
structure AddsKey (new : Option ℕ) (db db' : ExecDb) : Prop where
  kept : Kept db'
  paired : Paired db'
  bound : ∀ id a, db.approval? id = some a →
    ∃ a', db'.approval? id = some a' ∧ a'.bizType = a.bizType
  bizIds : db'.bizIds = db.bizIds ++ new.toList
  flagged : ∀ id, db'.flagged id = (db.flagged id || decide (new = some id))

/-- A call that asks for a key: it adds the key if it is free, and it commits exactly then. -/
structure Inserts (key : Option ℕ) (db : ExecDb) (committed : Option ExecDb) : Prop where
  adds : AddsKey (db.freeKey key) db (committed.getD db)
  commits : ∀ b, key = some b → (committed.isSome = true ↔ b ∉ db.bizIds)

theorem ExecDb.freeKey_of_free {b : ℕ} (h : b ∉ db.bizIds) : db.freeKey (some b) = some b := by
  simp [ExecDb.freeKey, h]

theorem ExecDb.freeKey_of_taken {b : ℕ} (h : b ∈ db.bizIds) : db.freeKey (some b) = none := by
  simp [ExecDb.freeKey, h]

theorem AddsKey.refl (hk : Kept db) (hp : Paired db) : AddsKey none db db :=
  ⟨hk, hp, fun _ a ha => ⟨a, ha, rfl⟩, (List.append_nil _).symm, fun _ => (Bool.or_false _).symm⟩

theorem AddsKey.trans (h : AddsKey none db db') (h' : AddsKey none db' db'') :
    AddsKey none db db'' := by
  refine ⟨h'.kept, h'.paired, fun id a ha => ?_, ?_, fun id => ?_⟩
  · obtain ⟨a', ha', htype'⟩ := h.bound id a ha
    obtain ⟨a'', ha'', htype''⟩ := h'.bound id a' ha'
    exact ⟨a'', ha'', htype''.trans htype'⟩
  · rw [h'.bizIds, h.bizIds, List.append_assoc]
    rfl
  · rw [h'.flagged, h.flagged, Bool.or_assoc]
    rfl

theorem Inserts.of_none {committed : Option ExecDb}
    (h : AddsKey none db (committed.getD db)) : Inserts none db committed :=
  ⟨h, fun _ hc => by cases hc⟩

theorem Inserts.of_taken {b : ℕ} (hk : Kept db) (hp : Paired db) (htaken : b ∈ db.bizIds) :
    Inserts (some b) db none := by
  refine ⟨?_, ?_⟩
  · rw [ExecDb.freeKey_of_taken htaken]
    exact AddsKey.refl hk hp
  · intro i hi
    obtain rfl := Option.some.inj hi
    exact ⟨fun hc => Bool.noConfusion hc, fun hc => absurd htaken hc⟩

theorem Inserts.of_free {b : ℕ} (hfree : b ∉ db.bizIds) (h : AddsKey (some b) db db') :
    Inserts (some b) db (some db') := by
  refine ⟨?_, ?_⟩
  · rw [ExecDb.freeKey_of_free hfree]
    exact h
  · intro i hi
    obtain rfl := Option.some.inj hi
    exact ⟨fun _ => hfree, fun _ => rfl⟩

theorem Settles.addsNone {tid aid : Option ℕ} (h : Settles tid aid db db') (hk : Kept db')
    (hp : Paired db') : AddsKey none db db' := by
  refine ⟨hk, hp, fun id a ha => ?_, h.bizIds.trans (List.append_nil _).symm, fun id => ?_⟩
  · obtain ⟨a', ha', htype, -⟩ := h.toTouches.binding ha
    exact ⟨a', ha', htype⟩
  have hsome := h.task_isSome id
  unfold ExecDb.flagged
  rcases ht : db'.task? id with _ | t'
  · rw [ht] at hsome
    have hnone : db.task? id = none := by
      refine Option.not_isSome_iff_eq_none.mp ?_
      rw [← hsome]
      exact Bool.false_ne_true
    rw [hnone]
    rfl
  · obtain ⟨t, ht, -, hflag, -⟩ := h.task_keeps ht
    rw [ht, Option.any_some, Option.any_some, hflag]
    exact (Bool.or_false _).symm

/-! ### Creations -/

/-- The key that a creation asks for. -/
def creationKey (lower : String → String) (db : ExecDb) (spec : TaskSpec) : Option ℕ :=
  if (creationVerdict lower db spec).toOption = some true then some db.nextTask else none

/-- **A creation** asks for the identifier of its task. -/
theorem create_inserts (lower : String → String) (env : ExecEnv) (spec : TaskSpec)
    (policy : Option String) (hk : Kept db) (hp : Paired db) :
    Inserts (creationKey lower db spec) db
      ((createExecTaskRecord lower env db spec policy).toOption.map (·.1)) := by
  have hspec := createExecTaskRecord_creates lower env spec policy hk
  unfold creationKey
  rcases hv : creationVerdict lower db spec with e | sensitive
  · rw [hv] at hspec
    dsimp only at hspec
    rw [hspec]
    exact Inserts.of_none (AddsKey.refl hk hp)
  rw [hv] at hspec
  dsimp only at hspec
  split_ifs at hspec with htaken
  · obtain ⟨rfl, htaken⟩ := htaken
    rw [hspec]
    exact Inserts.of_taken hk hp htaken
  obtain ⟨db₁, c, hok, hreq, hcreates⟩ := hspec
  obtain ⟨t, ht, hflag, -⟩ := created_row hk hok
  have hpaired : Paired db₁ := hp.create hk hok
  have hflagged : ∀ id, db₁.flagged id =
      (db.flagged id || decide (id = db.nextTask ∧ c.approveRequired = true)) := by
    intro id
    unfold ExecDb.flagged
    rcases Nat.lt_trichotomy id db.nextTask with hlt | rfl | hgt
    · rw [hcreates.grown.task id hlt, decide_eq_false fun hc => hlt.ne hc.1]
      exact (Bool.or_false _).symm
    · rw [ht, hk.task?_none le_rfl, Option.any_some, hflag]
      simp
    · have hnone : db₁.task? id = none := by
        refine hcreates.kept.task?_none ?_
        rw [hcreates.nextTask]
        exact hgt
      rw [hnone, hk.task?_none hgt.le, decide_eq_false fun hc => hgt.ne' hc.1]
      rfl
  have hbound : ∀ id a, db.approval? id = some a →
      ∃ a', db₁.approval? id = some a' ∧ a'.bizType = a.bizType := by
    intro id a ha
    rw [← hcreates.grown.approval id (hk.approval_lt id (by rw [ha]; rfl))] at ha
    exact ⟨a, ha, rfl⟩
  rw [hok]
  rcases sensitive with _ | _
  · refine Inserts.of_none ⟨hcreates.kept, hpaired, hbound, ?_, fun id => ?_⟩
    · show db₁.bizIds = _
      rw [hcreates.bizIds, hreq]
      rfl
    · show db₁.flagged id = _
      rw [hflagged, hreq]
      simp
  · refine Inserts.of_free (fun hc => htaken ⟨rfl, hc⟩)
      ⟨hcreates.kept, hpaired, hbound, ?_, fun id => ?_⟩
    · rw [hcreates.bizIds, hreq]
      rfl
    · rw [hflagged, hreq]
      simp [eq_comm]

/-! ### Retries -/

/-- The key that a retry asks for. -/
def retryKey (lower : String → String) (db : ExecDb) (task : ExecTask) : Option ℕ :=
  if (retryVerdict lower db task).1 then some task.id else none

/-- **A retry** asks for the identifier of its task once more. -/
theorem retry_inserts (lower : String → String) (env : ExecEnv) (userId : ℕ) {task : ExecTask}
    (hk : Kept db) (hp : Paired db) (ht : db.task? task.id = some task)
    (hst : task.status.retryable = true) : Inserts (retryKey lower db task) db
      (retryBranch env db userId task (retryVerdict lower db task)) := by
  have hkept : Kept ((retryBranch env db userId task (retryVerdict lower db task)).getD db) := by
    rw [← retryCall_of_task ht hst]
    exact ((ExecOp.retryTask lower env userId task.id).call hk).kept
  unfold retryKey
  unfold retryBranch at hkept ⊢
  split_ifs at hkept ⊢ with hsens
  · have hspec := retrySensitive_eq userId (retryVerdict lower db task).2 hk ht
    split_ifs at hspec with htaken
    · rw [hspec]
      exact Inserts.of_taken hk hp htaken
    · obtain ⟨db₁, hok, -, hbiz, htask, -⟩ := hspec
      rw [hok] at hkept ⊢
      obtain ⟨hothers, hbound, -⟩ := retrySensitive_frame hok
      refine Inserts.of_free htaken ⟨hkept, hp.retrySensitive hk ht hok, ?_, hbiz, ?_⟩
      · intro id a ha
        obtain ⟨a', ha', htype, -⟩ := hbound id a (hk.approval_lt id (by rw [ha]; rfl)) ha
        exact ⟨a', ha', htype⟩
      · intro id
        unfold ExecDb.flagged
        by_cases hid : id = task.id
        · subst hid
          rw [htask]
          simp
        · rw [hothers id hid, decide_eq_false fun hc => hid (Option.some.inj hc).symm]
          exact (Bool.or_false _).symm
  · refine Inserts.of_none ?_
    rcases hr : retryTask env db task (db.rowsWhere task.id HostStatus.retryable) with _ | db₁
    · exact AddsKey.refl hk hp
    · rw [hr] at hkept
      have hset := settles_retryTask hp ht hr
      exact hset.addsNone hkept (hset.paired hp)

/-- The key that a call on the execution tables asks for. -/
def ExecOp.askedKey (db : ExecDb) : ExecOp → Option ℕ
  | .create lower _ spec _ => creationKey lower db spec
  | .retryTask lower _ _ taskId =>
      ((db.task? taskId).filter fun task => task.status.retryable).bind (retryKey lower db)
  | _ => none

/-- **Every call** on the execution tables asks for its key. -/
theorem ExecOp.inserts (hk : Kept db) (hp : Paired db) {op : ExecOp} (hop : op.opens = false) :
    Inserts (op.askedKey db) db (op.result db) := by
  have hkept : Kept (op.apply db) := (op.call hk).kept
  have hpaired := hp.apply hk op
  have hshape := op.shape hk hp
  cases op with
  | create lower env spec policy => exact create_inserts lower env spec policy hk hp
  | retryTask lower env userId taskId =>
      dsimp only [ExecOp.askedKey, ExecOp.result]
      rcases ht : db.task? taskId with _ | task
      · have hnone : retryCall lower env db userId taskId = none := by
          rw [retryCall, ht]
          rfl
        rw [hnone, Option.filter_none, Option.bind_none]
        exact Inserts.of_none (AddsKey.refl hk hp)
      obtain rfl : task.id = taskId := Table.key_of_find ht
      rcases hst : task.status.retryable with _ | _
      · have hnone : retryCall lower env db userId task.id = none := by
          rw [retryCall, ht]
          show (if task.status.retryable = true then _ else none) = none
          rw [hst]
          rfl
        rw [hnone, Option.filter_some, hst, if_neg Bool.false_ne_true, Option.bind_none]
        exact Inserts.of_none (AddsKey.refl hk hp)
      · rw [retryCall_of_task ht hst, Option.filter_some, hst]
        exact retry_inserts lower env userId hk hp ht hst
  | openTerminal sessionId userId => cases hop
  | openWorkflow run node => cases hop
  | _ =>
      refine Inserts.of_none ?_
      unfold ExecOp.apply at hkept hpaired hshape
      generalize (ExecOp.result db _).getD db = db' at hkept hpaired hshape ⊢
      cases hshape with
      | settles h _ => exact h.addsNone hkept hpaired
      | created hc _ => cases hc
      | retried hc _ _ _ _ => cases hc
      | asked hc _ _ => cases hc

/-! ### Keys of the sessions -/

/-- A task or a session with the identifier has asked for an approval once. -/
def Desk.flagged (d : Desk) (id : ℕ) : Bool :=
  d.exec.flagged id || (d.session? id).any (·.sensitive)

/-- The rows of the two tables: sessions lie below their counter and point at terminal requests. -/
structure DeskRows (d : Desk) : Prop where
  kept : Kept d.exec
  paired : Paired d.exec
  session_lt : ∀ i s, d.session? i = some s → i < d.nextSession
  linked : ∀ i s aid, d.session? i = some s → s.approvalId = some aid →
    ∃ a, d.exec.approval? aid = some a ∧ a.bizType = .terminal

/-- The change adds the key `new` to the requests and flags its subject, and no other. -/
structure DeskAdds (new : Option ℕ) (d d' : Desk) : Prop extends DeskRows d' where
  bizIds : d'.exec.bizIds = d.exec.bizIds ++ new.toList
  flagged : ∀ i, d'.flagged i = (d.flagged i || decide (new = some i))

/-- A call on the two tables that asks for a key. -/
structure DeskInserts (key : Option ℕ) (d : Desk) (committed : Option Desk) : Prop where
  adds : DeskAdds (d.exec.freeKey key) d (committed.getD d)
  commits : ∀ b, key = some b → (committed.isSome = true ↔ b ∉ d.exec.bizIds)

theorem DeskAdds.refl (h : DeskRows d) : DeskAdds none d d :=
  ⟨h, (List.append_nil _).symm, fun _ => (Bool.or_false _).symm⟩

theorem DeskInserts.of_none {committed : Option Desk}
    (h : DeskAdds none d (committed.getD d)) : DeskInserts none d committed :=
  ⟨h, fun _ hc => by cases hc⟩

/-- The sessions have only moved on. -/
structure SameSessions (d d' : Desk) : Prop where
  nextSession : d'.nextSession = d.nextSession
  rows : ∀ i, (d'.session? i).map (fun s => (s.sensitive, s.approvalId)) =
    (d.session? i).map fun s => (s.sensitive, s.approvalId)

theorem SameSessions.refl (d : Desk) : SameSessions d d := ⟨rfl, fun _ => rfl⟩

theorem SameSessions.trans {d'' : Desk} (h : SameSessions d d') (h' : SameSessions d' d'') :
    SameSessions d d'' :=
  ⟨h'.nextSession.trans h.nextSession, fun i => (h'.rows i).trans (h.rows i)⟩

theorem sameSessions_setSession {f : TerminalSession → TerminalSession} (d : Desk) (sid : ℕ)
    (hf : ∀ s, (f s).id = s.id ∧ (f s).sensitive = s.sensitive ∧
      (f s).approvalId = s.approvalId) : SameSessions d (d.setSession sid f) := by
  refine ⟨rfl, fun i => ?_⟩
  rw [session?_setSession (fun s => (hf s).1)]
  split_ifs
  · rw [Option.map_map]
    congr 1
    funext s
    exact Prod.ext (hf s).2.1 (hf s).2.2
  · rfl

theorem sameSessions_linkSession {f : TerminalSession → TerminalSession} (d : Desk) (exec : ExecDb)
    (a : ApprovalRequest) (hf : ∀ s, (f s).id = s.id ∧ (f s).sensitive = s.sensitive ∧
      (f s).approvalId = s.approvalId) :
    SameSessions d (({ d with exec := exec } : Desk).linkSession a f) := by
  unfold Desk.linkSession
  split_ifs
  · exact ⟨rfl, (sameSessions_setSession { d with exec := exec } a.bizId hf).rows⟩
  · exact ⟨rfl, fun _ => rfl⟩

theorem AddsKey.desk (h : AddsKey new d.exec d'.exec) (hd : DeskRows d) (hs : SameSessions d d') :
    DeskAdds new d d' := by
  have hback : ∀ i s', d'.session? i = some s' →
      ∃ s, d.session? i = some s ∧ s'.approvalId = s.approvalId := by
    intro i s' hs'
    have hrow := hs.rows i
    rw [hs'] at hrow
    obtain ⟨s, hs, heq⟩ := Option.map_eq_some_iff.mp hrow.symm
    exact ⟨s, hs, (Prod.mk.inj heq).2.symm⟩
  refine ⟨⟨h.kept, h.paired, fun i s' hs' => ?_, fun i s' aid hs' hlink => ?_⟩, h.bizIds, ?_⟩
  · obtain ⟨s, hs₀, -⟩ := hback i s' hs'
    rw [hs.nextSession]
    exact hd.session_lt i s hs₀
  · obtain ⟨s, hs₀, heq⟩ := hback i s' hs'
    obtain ⟨a, ha, htype⟩ := hd.linked i s aid hs₀ (heq ▸ hlink)
    obtain ⟨a', ha', htype'⟩ := h.bound aid a ha
    exact ⟨a', ha', htype'.trans htype⟩
  · intro i
    have hany : (d'.session? i).any (·.sensitive) = (d.session? i).any (·.sensitive) := by
      have hrow := congrArg (Option.any Prod.fst) (hs.rows i)
      rw [Option.any_map, Option.any_map] at hrow
      exact hrow
    unfold Desk.flagged
    rw [h.flagged, hany, Bool.or_right_comm]

/-! ### The calls -/

/-- The key that a call on the two tables asks for. -/
def DeskOp.askedKey (d : Desk) : DeskOp → Option ℕ
  | .call op => op.askedKey d.exec
  | .createSession now user hostId =>
      (d.sessionToCreate now user hostId).toOption.bind fun s =>
        if s.sensitive then some s.id else none
  | _ => none

theorem DeskInserts.of_exec (h : DeskRows d) {op : ExecOp} (hop : op.opens = false)
    {committed : Option Desk} (hexec : committed.map Desk.exec = op.result d.exec)
    (hs : ∀ d', committed = some d' → SameSessions d d') :
    DeskInserts (op.askedKey d.exec) d committed := by
  have hins := op.inserts h.kept h.paired hop
  rw [← hexec] at hins
  rcases committed with _ | d'
  · have hadds : AddsKey (d.exec.freeKey (op.askedKey d.exec)) d.exec d.exec := hins.adds
    exact ⟨hadds.desk h (SameSessions.refl d), hins.commits⟩
  · have hadds : AddsKey (d.exec.freeKey (op.askedKey d.exec)) d.exec d'.exec := hins.adds
    exact ⟨hadds.desk h (hs d' rfl), hins.commits⟩

theorem toOption_map {α β : Type} (f : α → β) (x : Except PyErr α) :
    (x.map f).toOption = x.toOption.map f := by
  cases x <;> rfl

section Decisions

variable {userId approvalId : ℕ} {isAdmin : Bool}

theorem sameSessions_approve (h : d.approve env userId approvalId = .ok d') :
    SameSessions d d' := by
  unfold Desk.approve at h
  obtain ⟨a, -, h⟩ := bind_eq_ok.mp h
  obtain ⟨db₁, -, h⟩ := bind_eq_ok.mp h
  rcases htype : a.bizType <;> rw [htype] at h
  · obtain ⟨db₂, -, h⟩ := bind_eq_ok.mp h
    obtain rfl := Except.ok.inj h
    exact ⟨rfl, fun _ => rfl⟩
  · obtain rfl := Except.ok.inj h
    exact sameSessions_linkSession d db₁ a fun _ => ⟨rfl, rfl, rfl⟩
  · obtain rfl := Except.ok.inj h
    exact ⟨rfl, fun _ => rfl⟩
  · obtain rfl := Except.ok.inj h
    exact ⟨rfl, fun _ => rfl⟩

theorem sameSessions_reject (h : d.reject env userId approvalId = .ok d') :
    SameSessions d d' := by
  unfold Desk.reject at h
  obtain ⟨a, -, h⟩ := bind_eq_ok.mp h
  obtain ⟨db₁, -, h⟩ := bind_eq_ok.mp h
  split_ifs at h
  · obtain rfl := Except.ok.inj h
    exact ⟨rfl, fun _ => rfl⟩
  · obtain rfl := Except.ok.inj h
    exact ⟨rfl, fun _ => rfl⟩

theorem sameSessions_cancelApproval (h : d.cancelApproval env userId isAdmin approvalId = .ok d') :
    SameSessions d d' := by
  unfold Desk.cancelApproval at h
  obtain ⟨a, -, h⟩ := bind_eq_ok.mp h
  by_cases hperm : a.requesterId ≠ userId ∧ ¬ isAdmin = true
  · rw [if_pos hperm] at h
    exact absurd h (throw_bind_ne_ok _ _ _)
  rw [if_neg hperm] at h
  obtain ⟨db₁, -, h⟩ := bind_eq_ok.mp h
  rcases htype : a.bizType <;> rw [htype] at h
  · obtain rfl := Except.ok.inj h
    exact ⟨rfl, fun _ => rfl⟩
  · obtain rfl := Except.ok.inj h
    exact sameSessions_linkSession d db₁ a fun _ => ⟨rfl, rfl, rfl⟩
  · obtain rfl := Except.ok.inj h
    exact ⟨rfl, fun _ => rfl⟩
  · obtain rfl := Except.ok.inj h
    exact ⟨rfl, fun _ => rfl⟩

end Decisions

theorem DeskAdds.addSession {t : TerminalSession} (h : DeskRows d) (hid : t.id = d.nextSession)
    (hk : Kept db') (hp : Paired db') (hflagged : ∀ i, db'.flagged i = d.exec.flagged i)
    (hold : ∀ aid a, d.exec.approval? aid = some a → db'.approval? aid = some a)
    (hlink : ∀ aid, t.approvalId = some aid →
      ∃ a, db'.approval? aid = some a ∧ a.bizType = .terminal)
    (hbiz : db'.bizIds = d.exec.bizIds ++ (if t.sensitive then some t.id else none).toList) :
    DeskAdds (if t.sensitive then some t.id else none) d { d with
      exec := db', sessions := d.sessions ++ [t], nextSession := d.nextSession + 1 } := by
  have hnone : d.session? t.id = none := by
    rcases hfind : d.session? t.id with _ | s
    · rfl
    · exact absurd (h.session_lt _ s hfind) (by rw [hid]; exact Nat.lt_irrefl _)
  set d' : Desk := { d with
    exec := db', sessions := d.sessions ++ [t], nextSession := d.nextSession + 1 } with hd'
  have hself : d'.session? t.id = some t := Table.find_concat_self hnone
  have hne : ∀ i, i ≠ t.id → d'.session? i = d.session? i := fun i hi => Table.find_concat_ne hi
  refine ⟨⟨hk, hp, fun i s hs => ?_, fun i s aid hs hl => ?_⟩, hbiz, fun i => ?_⟩
  · by_cases hi : i = t.id
    · rw [hi, hid]
      exact Nat.lt_succ_self _
    · rw [hne i hi] at hs
      exact Nat.lt_succ_of_lt (h.session_lt i s hs)
  · by_cases hi : i = t.id
    · subst hi
      obtain rfl := Option.some.inj (hs.symm.trans hself)
      exact hlink aid hl
    · rw [hne i hi] at hs
      obtain ⟨a, ha, htype⟩ := h.linked i s aid hs hl
      exact ⟨a, hold aid a ha, htype⟩
  · show (db'.flagged i || (d'.session? i).any (·.sensitive)) =
      ((d.exec.flagged i || (d.session? i).any (·.sensitive)) ||
        decide ((if t.sensitive = true then some t.id else none) = some i))
    rw [hflagged]
    by_cases hi : i = t.id
    · subst hi
      rw [hself, hnone, Option.any_some, Option.any_none, Bool.or_false]
      cases t.sensitive <;> simp
    · rw [hne i hi]
      have hdec : ¬ (if t.sensitive = true then some t.id else none) = some i := by
        split_ifs
        · exact fun hc => hi (Option.some.inj hc).symm
        · exact fun hc => by cases hc
      rw [decide_eq_false hdec, Bool.or_false]

/-- **`create_session`** asks for the identifier of its session. -/
theorem createSession_inserts (h : DeskRows d) (now : ℚ) (user : Actor) (hostId : ℕ) :
    DeskInserts ((DeskOp.createSession now user hostId).askedKey d) d
      (d.createSession now user hostId).toOption := by
  unfold Desk.createSession
  dsimp only [DeskOp.askedKey]
  rcases hs : d.sessionToCreate now user hostId with e | s
  · exact DeskInserts.of_none (DeskAdds.refl h)
  obtain ⟨hid, hlink, -⟩ := sessionToCreate_row hs
  show DeskInserts (if s.sensitive = true then some s.id else none) d (d.insertSession s).toOption
  have hany : d.exec.approvals.any (fun a => decide (a.bizId = s.id)) = true ↔
      s.id ∈ d.exec.bizIds := by
    rw [List.any_eq_true, ExecDb.bizIds, List.mem_map]
    simp
  rcases hsens : s.sensitive with _ | _
  · have hok : d.insertSession s = .ok { d with
        sessions := d.sessions ++ [s], nextSession := d.nextSession + 1 } := by
      unfold Desk.insertSession
      rw [if_neg (by rw [hsens]; exact Bool.false_ne_true)]
    have hadds := @DeskAdds.addSession d.exec d s h hid h.kept h.paired (fun _ => rfl)
      (fun _ _ ha => ha) (fun aid hc => by rw [hlink] at hc; cases hc)
      (by rw [hsens]; exact (List.append_nil _).symm)
    rw [hsens] at hadds
    rw [hok]
    exact DeskInserts.of_none hadds
  by_cases hmem : s.id ∈ d.exec.bizIds
  · have herr : d.insertSession s = .error .integrityError := by
      unfold Desk.insertSession
      rw [if_pos hsens, if_pos (hany.mpr hmem)]
    rw [herr, if_pos rfl]
    refine ⟨?_, fun b hb => ?_⟩
    · rw [ExecDb.freeKey_of_taken hmem]
      exact DeskAdds.refl h
    · obtain rfl := Option.some.inj hb
      exact ⟨fun hc => Bool.noConfusion hc, fun hc => absurd hmem hc⟩
  · set a := terminalApproval d.exec s.id s.userId with ha
    set t : TerminalSession := { s with
      approvalId := some a.id, status := .awaitingApproval } with ht
    have hok : d.insertSession s = .ok { d with
        exec := d.exec.addRequest a
        sessions := d.sessions ++ [t]
        nextSession := d.nextSession + 1 } := by
      unfold Desk.insertSession
      rw [if_pos hsens, if_neg fun hc => hmem (hany.mp hc)]
    obtain ⟨hgrown, hcall⟩ := @addRequest_call d.exec [] a h.kept rfl fun hc => by cases hc
    have hself : (d.exec.addRequest a).approval? a.id = some a :=
      Table.find_concat_self (h.kept.approval?_none le_rfl)
    have hadds := @DeskAdds.addSession (d.exec.addRequest a) d t h hid hcall.kept
      (h.paired.addRequest h.kept rfl) (fun _ => rfl) ?_ ?_ ?_
    · rw [show t.sensitive = true from hsens] at hadds
      rw [hok, if_pos rfl]
      refine ⟨?_, fun b hb => ?_⟩
      · rw [ExecDb.freeKey_of_free hmem]
        exact hadds
      · obtain rfl := Option.some.inj hb
        exact ⟨fun _ => hmem, fun _ => rfl⟩
    · intro aid r hr
      exact (hgrown.approval aid (h.kept.approval_lt aid (by rw [hr]; rfl))).trans hr
    · intro aid hl
      obtain rfl := Option.some.inj hl
      exact ⟨a, hself, rfl⟩
    · rw [show t.sensitive = true from hsens, if_pos rfl]
      exact List.map_append

/-- `close_session` on an awaiting session. -/
theorem closeAwaiting_adds (h : DeskRows d) (now : ℚ) {s : TerminalSession}
    (hs : d.session? s.id = some s) : DeskAdds none d (d.closeAwaiting now s) := by
  have hmain : ∀ exec, AddsKey none d.exec exec →
      DeskAdds none d (({ d with exec := exec } : Desk).setSession s.id fun s => { s with
        status := .closed
        closeReason := "canceled_before_approval"
        finishedAt := some now }) := by
    intro exec hadds
    refine AddsKey.desk hadds h
      ⟨rfl, (sameSessions_setSession { d with exec := exec } s.id ?_).rows⟩
    exact fun _ => ⟨rfl, rfl, rfl⟩
  have hkeep : AddsKey none d.exec d.exec := AddsKey.refl h.kept h.paired
  refine hmain _ ?_
  rcases haid : s.approvalId with _ | aid
  · exact hkeep
  rw [Option.bind_some]
  rcases ha : d.exec.approval? aid with _ | a
  · exact hkeep
  dsimp only
  split_ifs with hpend
  · obtain ⟨a', ha', htype⟩ := h.linked s.id s aid hs haid
    obtain rfl := Option.some.inj (ha.symm.trans ha')
    obtain rfl : a.id = aid := Table.key_of_find ha
    rcases hcas : d.exec.casApproval a.id .pending .canceled a.version with _ | db₁
    · exact hkeep
    obtain ⟨hsettles, hkept, -⟩ := settles_close h.kept ha htype hcas
    exact hsettles.addsNone hkept (hsettles.paired h.paired)
  · exact hkeep

theorem closeOpen_adds {now : ℚ} {reason : String} {s : TerminalSession} (h : DeskRows d)
    (hc : d.closeOpen now reason s = some d') : DeskAdds none d d' := by
  obtain ⟨d₁, hclose, rfl⟩ := Option.map_eq_some_iff.mp hc
  have hsame : SameSessions d d₁ ∧ d₁.exec = d.exec := by
    unfold Desk.optimisticClose at hclose
    rcases hs : d.session? s.id with _ | t
    · rw [hs] at hclose
      cases hclose
    rw [hs] at hclose
    dsimp only at hclose
    split_ifs at hclose
    obtain rfl := Option.some.inj hclose
    refine ⟨sameSessions_setSession d s.id ?_, rfl⟩
    exact fun _ => ⟨rfl, rfl, rfl⟩
  have hkeep : AddsKey none d.exec d₁.exec := by
    rw [hsame.2]
    exact AddsKey.refl h.kept h.paired
  refine AddsKey.desk hkeep h (hsame.1.trans (sameSessions_setSession d₁ s.id ?_))
  exact fun _ => ⟨rfl, rfl, rfl⟩

/-- `close_session`. -/
theorem closeSession_adds {now : ℚ} {user : Actor} {sessionId : ℕ} (h : DeskRows d)
    (hok : d.closeSession now user sessionId = .ok d') : DeskAdds none d d' := by
  unfold Desk.closeSession at hok
  obtain ⟨-, -, hok⟩ := bind_eq_ok.mp hok
  obtain ⟨s, hvisible, hok⟩ := bind_eq_ok.mp hok
  have hs := requireVisibleSession_self hvisible
  rcases hst : s.status <;> rw [hst] at hok
  · dsimp only at hok
    rcases hc : d.closeOpen now "manual" s with _ | d₁
    · rw [hc] at hok
      cases hok
    · rw [hc] at hok
      obtain rfl := Except.ok.inj hok
      exact closeOpen_adds h hc
  · obtain rfl := Except.ok.inj hok
    exact closeAwaiting_adds h now hs
  · cases hok

/-- `mark_idle_timeout` and `mark_duration_limit`. -/
theorem limitSession_adds (h : DeskRows d) (now : ℚ) (reason : String) (sessionId : ℕ) :
    DeskAdds none d (d.limitSession now reason sessionId) := by
  unfold Desk.limitSession
  rcases d.session? sessionId with _ | s
  · exact DeskAdds.refl h
  dsimp only
  split_ifs
  · rcases hc : d.closeOpen now reason s with _ | d₁
    · exact DeskAdds.refl h
    · exact closeOpen_adds h hc
  · exact DeskAdds.refl h

theorem foldl_cancelLinked_adds (hk : Kept db) (hp : Paired db) (env : ExecEnv)
    (nodes : List WorkflowNodeRun) : AddsKey none db (nodes.foldl (cancelLinked env) db) := by
  induction nodes generalizing db with
  | nil => exact AddsKey.refl hk hp
  | cons node nodes ih =>
      have hone : AddsKey none db (cancelLinked env db node) := by
        unfold cancelLinked
        split_ifs
        · rcases node.execTaskId with _ | taskId
          · exact AddsKey.refl hk hp
          · exact (@ExecOp.inserts db hk hp (.cancelTask env taskId) rfl).adds
        · exact AddsKey.refl hk hp
      exact hone.trans (ih hone.kept hone.paired)

/-- **Every call** on the two tables asks for its key. -/
theorem DeskOp.inserts (h : DeskRows d) {op : DeskOp}
    (hop : ∀ run node, op ≠ .call (.openWorkflow run node)) :
    DeskInserts (op.askedKey d) d (op.result d) := by
  cases op with
  | call op =>
      dsimp only [DeskOp.askedKey]
      cases op with
      | approve env userId approvalId =>
          refine DeskInserts.of_exec h rfl ?_ fun d' hd' =>
            sameSessions_approve (ok_of_toOption hd')
          dsimp only [DeskOp.result, ExecOp.result]
          rw [← toOption_map, Desk.approve_exec]
      | reject env userId approvalId =>
          refine DeskInserts.of_exec h rfl ?_ fun d' hd' =>
            sameSessions_reject (ok_of_toOption hd')
          dsimp only [DeskOp.result, ExecOp.result]
          rw [← toOption_map, Desk.reject_exec]
      | cancelApproval env userId isAdmin approvalId =>
          refine DeskInserts.of_exec h rfl ?_ fun d' hd' =>
            sameSessions_cancelApproval (ok_of_toOption hd')
          dsimp only [DeskOp.result, ExecOp.result]
          rw [← toOption_map, Desk.cancelApproval_exec]
      | openTerminal sessionId userId => exact DeskInserts.of_none (DeskAdds.refl h)
      | openWorkflow run node => exact absurd rfl (hop run node)
      | _ =>
          refine DeskInserts.of_exec h rfl ?_ ?_
          · dsimp only [DeskOp.result]
            rw [Option.map_map]
            exact Option.map_id'
          · intro d' hd'
            dsimp only [DeskOp.result] at hd'
            obtain ⟨exec, -, rfl⟩ := Option.map_eq_some_iff.mp hd'
            exact ⟨rfl, fun _ => rfl⟩
  | createSession now user hostId => exact createSession_inserts h now user hostId
  | closeSession now user sessionId =>
      refine DeskInserts.of_none ?_
      dsimp only [DeskOp.result]
      rcases hc : d.closeSession now user sessionId with e | d'
      · exact DeskAdds.refl h
      · exact closeSession_adds h hc
  | limitSession now reason sessionId =>
      exact DeskInserts.of_none (limitSession_adds h now reason sessionId)
  | cancelRun env g run nodes release =>
      refine DeskInserts.of_none ?_
      dsimp only [DeskOp.result]
      rcases hc : LarkPlat.cancelRun env g ⟨run, nodes, release, d.exec⟩ with e | s
      · exact DeskAdds.refl h
      obtain ⟨-, -, hc⟩ := bind_eq_ok.mp hc
      split_ifs at hc
      obtain rfl := Except.ok.inj hc
      exact (foldl_cancelLinked_adds h.kept h.paired env nodes).desk h ⟨rfl, fun _ => rfl⟩
  | configure sensitiveHosts userLimit globalLimit =>
      refine DeskInserts.of_none (AddsKey.desk ?_ h ?_)
      · exact AddsKey.refl h.kept h.paired
      · exact ⟨rfl, fun _ => rfl⟩

/-! ### Schedule runs -/

/-- The key that a run of a schedule asks for. -/
def spawnKey (lower : String → String) (db : ScheduleDb) (sched : ScheduleTask) (requesterId : ℕ)
    (namePrefix : String) : Option ℕ :=
  creationKey lower db.exec
    (spawnSpec sched (pinnedVersion db.exec sched) requesterId namePrefix)

/-- `_spawn_run` asks for the identifier of its task. -/
theorem spawnRun_inserts {db : ScheduleDb} (hk : Kept db.exec) (hp : Paired db.exec)
    (env : ExecEnv) (sched : ScheduleTask) (requesterId : ℕ) (namePrefix : String) :
    Inserts (spawnKey lower db sched requesterId namePrefix) db.exec
      ((spawnRun lower env db sched requesterId namePrefix).toOption.map (·.1.exec)) := by
  have hins := create_inserts lower env.noFallback
    (spawnSpec sched (pinnedVersion db.exec sched) requesterId namePrefix) none hk hp
  rw [spawnRun_eq, toOption_map, Option.map_map]
  exact hins

/-- The key that `retry_run` asks for. -/
def retryRunKey (lower : String → String) (db : ScheduleDb) (userId scheduleId runId : ℕ) :
    Option ℕ :=
  (db.run? runId).bind fun run =>
    if run.scheduleTaskId ≠ scheduleId then none
    else (db.schedule? scheduleId).bind fun sched =>
      match retryTarget db run with
      | some task => retryKey lower db.exec task
      | none => spawnKey lower db sched userId "[retry]"

/-- The task that `retry_run` takes up is stored and retryable. -/
theorem retryTarget_eq_some {db : ScheduleDb} {run : ScheduleRun} {task : ExecTask}
    (h : retryTarget db run = some task) :
    db.exec.task? task.id = some task ∧ task.status.retryable = true := by
  unfold retryTarget at h
  rcases hid : orDefault run.taskId 0 with _ | taskId
  · rw [hid] at h
    cases h
  rw [hid] at h
  obtain ⟨ht, hst⟩ := Option.filter_eq_some_iff.mp h
  have hkey : task.id = taskId + 1 := Table.key_of_find ht
  rw [hkey]
  exact ⟨ht, hst⟩

/-- `retry_run` asks for the identifier of the task that it retries or spawns. -/
theorem retryRun_inserts {db : ScheduleDb} (hk : Kept db.exec) (hp : Paired db.exec)
    (env : ExecEnv) (userId scheduleId runId : ℕ) :
    Inserts (retryRunKey lower db userId scheduleId runId) db.exec
      ((db.retryRun lower env userId scheduleId runId).toOption.map (·.1.exec)) := by
  have hnone : Inserts none db.exec (none : Option ExecDb) := Inserts.of_none (AddsKey.refl hk hp)
  unfold retryRunKey
  rcases hrun : db.run? runId with _ | run
  · have herr : db.retryRun lower env userId scheduleId runId =
        .error (.notFound "run not found") := by
      rw [ScheduleDb.retryRun, hrun]
    rw [herr]
    exact hnone
  obtain rfl : run.id = runId := Table.key_of_find hrun
  rw [Option.bind_some]
  by_cases hbelongs : run.scheduleTaskId = scheduleId
  swap
  · have herr : db.retryRun lower env userId scheduleId run.id =
        .error (.notFound "run not found") := by
      rw [ScheduleDb.retryRun, hrun]
      exact if_pos hbelongs
    rw [herr, if_pos hbelongs]
    exact hnone
  rw [if_neg (not_not.mpr hbelongs)]
  rcases hsched : db.schedule? scheduleId with _ | sched
  · have herr : db.retryRun lower env userId scheduleId run.id =
        .error (.notFound "schedule not found") := by
      rw [ScheduleDb.retryRun, hrun]
      dsimp only
      rw [if_neg (not_not.mpr hbelongs), hsched]
    rw [herr]
    exact hnone
  rw [Option.bind_some]
  rcases htarget : retryTarget db run with _ | task
  · have hspawn : db.retryRun lower env userId scheduleId run.id =
        spawnRun lower env db sched userId "[retry]" := by
      rw [ScheduleDb.retryRun, hrun]
      dsimp only
      rw [if_neg (not_not.mpr hbelongs), hsched]
      dsimp only
      rw [htarget]
    rw [hspawn]
    exact spawnRun_inserts hk hp env sched userId "[retry]"
  · obtain ⟨ht, hst⟩ := retryTarget_eq_some htarget
    have heq := @ScheduleDb.retryRun_of_task env lower db userId scheduleId run task hrun hbelongs
      (by rw [hsched]; rfl) htarget
    have hexec : (db.retryRun lower env userId scheduleId run.id).toOption.map (·.1.exec) =
        retryBranch env db.exec userId task (retryVerdict lower db.exec task) := by
      have hmap := congrArg (Option.map ScheduleDb.exec) heq
      rw [Option.map_map, Option.map_map] at hmap
      exact hmap.trans Option.map_id'
    rw [hexec]
    exact retry_inserts lower env userId hk hp ht hst

/-! ### The whole platform -/

/-- The two tables with the schedules and the workflow nodes. -/
structure Office where
  desk : Desk
  schedules : List ScheduleTask
  runs : List ScheduleRun
  nextRun : ℕ
  nodes : List WorkflowNodeRun
  nextNode : ℕ
  deriving DecidableEq

namespace Office

/-- Nothing created yet. -/
def fresh (hosts : List Host) (rules : ExecRules) (sensitiveHosts : List ℕ)
    (schedules : List ScheduleTask) : Office where
  desk := Desk.fresh hosts rules sensitiveHosts
  schedules := schedules
  runs := []
  nextRun := 1
  nodes := []
  nextNode := 1

/-- The tables that the scheduler sees. -/
def scheduleDb (o : Office) : ScheduleDb := ⟨o.desk.exec, o.schedules, o.runs, o.nextRun⟩

/-- The tables after a commit of the scheduler. -/
def withSchedules (o : Office) (db : ScheduleDb) : Office :=
  { o with
    desk := { o.desk with exec := db.exec }
    schedules := db.schedules, runs := db.runs, nextRun := db.nextRun }

/-- The stored node. -/
def node? (o : Office) (id : ℕ) : Option WorkflowNodeRun :=
  Table.find WorkflowNodeRun.id o.nodes id

/-- Change one node. -/
def setNode (o : Office) (id : ℕ) (f : WorkflowNodeRun → WorkflowNodeRun) : Office :=
  { o with nodes := Table.modify WorkflowNodeRun.id o.nodes id f }

end Office

/-- The calls on the platform. -/
inductive OfficeOp
  | desk (op : DeskOp)
  | runNow (lower : String → String) (env : ExecEnv) (userId scheduleId : ℕ)
  | triggerDue (lower : String → String) (env : ExecEnv) (describe : PyErr → String)
      (scheduleId : ℕ)
  | retryRun (lower : String → String) (env : ExecEnv) (userId scheduleId runId : ℕ)
  | editSchedules (schedules : List ScheduleTask)
  /-- A run is started: a row for each of its nodes, this one among them. -/
  | addNode (node : WorkflowNodeRun)
  /-- The engine writes a row; the request of an approval node is written by `_create_approval`
  only. -/
  | writeNode (node : WorkflowNodeRun)
  /-- `_create_approval`, which the engine calls for a running approval node without a request. -/
  | createApproval (now : ℚ) (run : WorkflowRun) (nodeId : ℕ)
  /-- Calls that were rolled back have drawn identifiers. -/
  | skip (tasks sessions nodes approvals : ℕ)

namespace OfficeOp

/-- The node that `_create_approval` is called for. -/
def approvalNode (o : Office) (nodeId : ℕ) : Option WorkflowNodeRun :=
  (o.node? nodeId).filter fun n =>
    decide (n.nodeType = .manualApproval ∧ n.status = .running ∧ n.approvalId = none)

/-- The key that a call asks for. -/
def askedKey (o : Office) : OfficeOp → Option ℕ
  | .desk op => op.askedKey o.desk
  | .runNow lower _ userId scheduleId =>
      (o.scheduleDb.schedule? scheduleId).bind fun sched =>
        spawnKey lower o.scheduleDb sched userId "[run-now]"
  | .triggerDue lower _ _ scheduleId =>
      (o.scheduleDb.schedule? scheduleId).bind fun sched =>
        spawnKey lower o.scheduleDb sched (sched.createdBy.getD 0) "[schedule]"
  | .retryRun lower _ userId scheduleId runId =>
      retryRunKey lower o.scheduleDb userId scheduleId runId
  | .createApproval _ _ nodeId =>
      (approvalNode o nodeId).map fun n => workflowApprovalBizOffset + n.id
  | _ => none

/-- What a call commits, if it does. The request of a node is inserted by `_create_approval`, so a
bare `openWorkflow` is no call here. -/
def attempt (o : Office) : OfficeOp → Option Office
  | .desk (.call (.openWorkflow _ _)) => none
  | .desk op => (op.result o.desk).map fun desk => { o with desk := desk }
  | .runNow lower env userId scheduleId =>
      (LarkPlat.runNow lower env o.scheduleDb userId scheduleId).toOption.map fun r =>
        o.withSchedules r.1
  | .triggerDue lower env _ scheduleId =>
      (o.scheduleDb.schedule? scheduleId).bind fun sched =>
        (spawnRun lower env o.scheduleDb sched (sched.createdBy.getD 0)
          "[schedule]").toOption.map fun r => o.withSchedules r.1
  | .retryRun lower env userId scheduleId runId =>
      (o.scheduleDb.retryRun lower env userId scheduleId runId).toOption.map fun r =>
        o.withSchedules r.1
  | .editSchedules schedules => some { o with schedules := schedules }
  | .addNode node => some { o with
      nodes := o.nodes ++ [{ node with id := o.nextNode, approvalId := none }]
      nextNode := o.nextNode + 1 }
  | .writeNode node =>
      ((o.node? node.id).filter fun n => decide (n.nodeType = node.nodeType ∧
        (n.nodeType = .manualApproval → n.approvalId = node.approvalId))).map fun _ =>
          o.setNode node.id fun _ => node
  | .createApproval now run nodeId =>
      (approvalNode o nodeId).bind fun n =>
        (ExecOp.result o.desk.exec (.openWorkflow run n)).map fun exec =>
          { o with desk := { o.desk with exec := exec } }.setNode nodeId fun n =>
            { n with
              approvalId := some o.desk.exec.nextApproval
              startedAt := n.startedAt.or (some now)
              status := .waiting }
  | .skip tasks sessions nodes approvals => some { o with
      desk := { o.desk with
        exec := { o.desk.exec with
          nextTask := o.desk.exec.nextTask + tasks
          nextApproval := o.desk.exec.nextApproval + approvals }
        nextSession := o.desk.nextSession + sessions }
      nextNode := o.nextNode + nodes }

/-- One call. A call that raises leaves the tables as they were; `trigger_due` records a failed
run. -/
def apply (o : Office) : OfficeOp → Office
  | .triggerDue lower env describe scheduleId =>
      match o.scheduleDb.schedule? scheduleId with
      | none => o
      | some sched => o.withSchedules (LarkPlat.triggerDue lower env o.scheduleDb sched describe)
  | op => (op.attempt o).getD o

end OfficeOp

/-- Every request that the call inserts has a key of its own, and the call commits. -/
def InsertsUnique (o : Office) (op : OfficeOp) : Prop :=
  ∀ b ∈ op.askedKey o, b ∉ o.desk.exec.bizIds ∧ (op.attempt o).isSome = true

instance (o : Office) (op : OfficeOp) : Decidable (InsertsUnique o op) :=
  inferInstanceAs (Decidable (∀ b ∈ op.askedKey o, _))

/-- The call asks for no key that belongs to a task or a session that has asked before. -/
def AsksFirst (o : Office) (op : OfficeOp) : Prop :=
  ∀ b ∈ op.askedKey o, o.desk.flagged b = false

instance (o : Office) (op : OfficeOp) : Decidable (AsksFirst o op) :=
  inferInstanceAs (Decidable (∀ b ∈ op.askedKey o, _))

/-- The counters of tasks and sessions lie below the offset of the nodes. -/
def BelowOffset (o : Office) : Prop :=
  o.desk.exec.nextTask < workflowApprovalBizOffset ∧ o.desk.nextSession < workflowApprovalBizOffset

instance (o : Office) : Decidable (BelowOffset o) := inferInstanceAs (Decidable (_ ∧ _))

/-! ### The account of the keys -/

/-- An approval node has asked with this key. -/
def Office.Asked (o : Office) (b : ℕ) : Prop :=
  ∃ n, o.node? n.id = some n ∧ n.nodeType = .manualApproval ∧ n.approvalId.isSome = true ∧
    b = workflowApprovalBizOffset + n.id

/-- The account of the keys: a key is taken exactly if its subject has asked. -/
structure OfficeInv (o : Office) : Prop where
  rows : DeskRows o.desk
  node_lt : ∀ i n, o.node? i = some n → i < o.nextNode
  keys : ∀ b, b ∈ o.desk.exec.bizIds ↔ o.desk.flagged b = true ∨ o.Asked b

variable {o o' : Office}

theorem OfficeInv.desk (h : OfficeInv o) (hadds : DeskAdds new o.desk o'.desk)
    (hnodes : o'.nodes = o.nodes) (hnext : o'.nextNode = o.nextNode) : OfficeInv o' := by
  have hnode : ∀ i, o'.node? i = o.node? i := by
    intro i
    rw [Office.node?, hnodes, Office.node?]
  refine ⟨hadds.toDeskRows, fun i n hn => ?_, fun b => ?_⟩
  · rw [hnode] at hn
    rw [hnext]
    exact h.node_lt i n hn
  · have hasked : o'.Asked b ↔ o.Asked b := by
      unfold Office.Asked
      simp only [hnode]
    rw [hadds.bizIds, List.mem_append, h.keys, hadds.flagged, hasked, Option.mem_toList,
      Bool.or_eq_true, decide_eq_true_eq]
    tauto

theorem OfficeInv.withSchedules {sched : ScheduleDb} (h : OfficeInv o)
    (hadds : AddsKey new o.desk.exec sched.exec) : OfficeInv (o.withSchedules sched) := by
  have hdesk : DeskAdds new o.desk (o.withSchedules sched).desk :=
    AddsKey.desk hadds h.rows ⟨rfl, fun _ => rfl⟩
  exact h.desk hdesk rfl rfl

theorem OfficeInv.scheduled {α : Type} {committed : Option (ScheduleDb × α)} (h : OfficeInv o)
    (hins : Inserts key o.desk.exec (committed.map (·.1.exec))) :
    OfficeInv ((committed.map fun r => o.withSchedules r.1).getD o) := by
  rcases committed with _ | r
  · exact h
  · exact h.withSchedules hins.adds

/-- Nodes that keep their identifiers, their types and the requests of approval nodes. -/
theorem OfficeInv.writeNode {node n : WorkflowNodeRun} (h : OfficeInv o)
    (hn : o.node? node.id = some n) (htype : n.nodeType = node.nodeType)
    (hlink : n.nodeType = .manualApproval → n.approvalId = node.approvalId) :
    OfficeInv (o.setNode node.id fun _ => node) := by
  have hself : (o.setNode node.id fun _ => node).node? node.id = some node := by
    have hfind : (o.setNode node.id fun _ => node).node? node.id =
        (o.node? node.id).map fun _ => node := Table.find_modify_self fun _ _ => rfl
    rw [hfind, hn, Option.map_some]
  have hne : ∀ i, i ≠ node.id → (o.setNode node.id fun _ => node).node? i = o.node? i :=
    fun i hi => Table.find_modify_ne (fun _ _ => rfl) hi
  have hid : n.id = node.id := Table.key_of_find hn
  refine ⟨h.rows, fun i m hm => ?_, fun b => (h.keys b).trans (or_congr_right ?_)⟩
  · by_cases hi : i = node.id
    · rw [hi]
      exact h.node_lt _ n hn
    · rw [hne i hi] at hm
      exact h.node_lt i m hm
  · constructor
    · rintro ⟨m, hm, hmtype, hasked, hb⟩
      by_cases hi : m.id = node.id
      · obtain rfl := Option.some.inj (hm.symm.trans (hi ▸ hn))
        exact ⟨node, hself, htype ▸ hmtype, hlink hmtype ▸ hasked, hi ▸ hb⟩
      · exact ⟨m, (hne _ hi).trans hm, hmtype, hasked, hb⟩
    · rintro ⟨m, hm, hmtype, hasked, hb⟩
      by_cases hi : m.id = node.id
      · rw [hi] at hm
        obtain rfl := Option.some.inj (hself.symm.trans hm)
        have hntype : n.nodeType = .manualApproval := htype.trans hmtype
        exact ⟨n, hid ▸ hn, hntype, by rw [hlink hntype]; exact hasked, by rw [hid]; exact hb⟩
      · exact ⟨m, (hne _ hi).symm.trans hm, hmtype, hasked, hb⟩

theorem OfficeInv.addNode (node : WorkflowNodeRun) (h : OfficeInv o) :
    OfficeInv { o with
      nodes := o.nodes ++ [{ node with id := o.nextNode, approvalId := none }]
      nextNode := o.nextNode + 1 } := by
  set row : WorkflowNodeRun := { node with id := o.nextNode, approvalId := none } with hrow
  set o' : Office := { o with nodes := o.nodes ++ [row], nextNode := o.nextNode + 1 } with ho'
  have hnone : o.node? row.id = none := by
    rcases hfind : o.node? row.id with _ | n
    · rfl
    · exact absurd (h.node_lt _ n hfind) (Nat.lt_irrefl _)
  have hself : o'.node? row.id = some row := Table.find_concat_self hnone
  have hne : ∀ i, i ≠ row.id → o'.node? i = o.node? i := fun i hi => Table.find_concat_ne hi
  refine ⟨h.rows, fun i m hm => ?_, fun b => (h.keys b).trans (or_congr_right ?_)⟩
  · by_cases hi : i = row.id
    · rw [hi]
      exact Nat.lt_succ_self _
    · rw [hne i hi] at hm
      exact Nat.lt_succ_of_lt (h.node_lt i m hm)
  · constructor
    · rintro ⟨m, hm, hrest⟩
      have hi : m.id ≠ row.id := by
        intro hi
        rw [hi, hnone] at hm
        cases hm
      exact ⟨m, (hne _ hi).trans hm, hrest⟩
    · rintro ⟨m, hm, hmtype, hasked, hb⟩
      by_cases hi : m.id = row.id
      · obtain rfl := Option.some.inj (hm.symm.trans (hi ▸ hself))
        cases hasked
      · exact ⟨m, (hne _ hi).symm.trans hm, hmtype, hasked, hb⟩

/-- `_create_approval` asks for the key of its node. -/
theorem OfficeInv.createApproval {n : WorkflowNodeRun} {run : WorkflowRun} {now : ℚ} {nodeId : ℕ}
    {exec : ExecDb} (h : OfficeInv o) (hn : OfficeOp.approvalNode o nodeId = some n)
    (hr : ExecOp.result o.desk.exec (.openWorkflow run n) = some exec) :
    OfficeInv ({ o with desk := { o.desk with exec := exec } }.setNode nodeId fun n =>
      { n with
        approvalId := some o.desk.exec.nextApproval
        startedAt := n.startedAt.or (some now)
        status := .waiting }) := by
  obtain ⟨hfind, hcond⟩ := Option.filter_eq_some_iff.mp hn
  obtain ⟨htype, -, -⟩ := of_decide_eq_true hcond
  obtain rfl : n.id = nodeId := Table.key_of_find hfind
  dsimp only [ExecOp.result] at hr
  split_ifs at hr
  obtain rfl := Option.some.inj hr
  set a := workflowApproval o.desk.exec run n with ha
  obtain ⟨hgrown, hcall⟩ := @addRequest_call o.desk.exec [] a h.rows.kept rfl fun hc => by cases hc
  set f : WorkflowNodeRun → WorkflowNodeRun := fun n => { n with
    approvalId := some o.desk.exec.nextApproval
    startedAt := n.startedAt.or (some now)
    status := .waiting } with hf
  set o' : Office := { o with
    desk := { o.desk with exec := o.desk.exec.addRequest a } }.setNode n.id f with ho'
  have hself : o'.node? n.id = some (f n) := by
    have hmod : o'.node? n.id = (o.node? n.id).map f := Table.find_modify_self fun _ h => h
    rw [hmod, hfind, Option.map_some]
  have hne : ∀ i, i ≠ n.id → o'.node? i = o.node? i :=
    fun i hi => Table.find_modify_ne (fun _ h => h) hi
  refine ⟨⟨hcall.kept, h.rows.paired.addRequest h.rows.kept rfl, h.rows.session_lt, ?_⟩, ?_, ?_⟩
  · intro i s aid hs hl
    obtain ⟨r, hr, hrtype⟩ := h.rows.linked i s aid hs hl
    refine ⟨r, ?_, hrtype⟩
    exact (hgrown.approval aid (h.rows.kept.approval_lt aid (by rw [hr]; rfl))).trans hr
  · intro i m hm
    by_cases hi : i = n.id
    · rw [hi]
      exact h.node_lt _ n hfind
    · rw [hne i hi] at hm
      exact h.node_lt i m hm
  · intro b
    have hbiz : o'.desk.exec.bizIds =
        o.desk.exec.bizIds ++ [workflowApprovalBizOffset + n.id] := List.map_append
    have hflag : o'.desk.flagged b = o.desk.flagged b := rfl
    have hasked : o'.Asked b ↔ o.Asked b ∨ b = workflowApprovalBizOffset + n.id := by
      constructor
      · rintro ⟨m, hm, hmtype, hasked, hb⟩
        by_cases hi : m.id = n.id
        · exact Or.inr (hi ▸ hb)
        · exact Or.inl ⟨m, (hne _ hi).symm.trans hm, hmtype, hasked, hb⟩
      · rintro (⟨m, hm, hmtype, hasked, hb⟩ | hb)
        · by_cases hi : m.id = n.id
          · exact ⟨f n, hself, htype, rfl, hi ▸ hb⟩
          · exact ⟨m, (hne _ hi).trans hm, hmtype, hasked, hb⟩
        · exact ⟨f n, hself, htype, rfl, hb⟩
    rw [hbiz, List.mem_append, List.mem_singleton, h.keys, hflag, hasked, or_assoc]

theorem OfficeInv.skip (tasks sessions nodes approvals : ℕ) (h : OfficeInv o) :
    OfficeInv ((OfficeOp.attempt o (.skip tasks sessions nodes approvals)).getD o) where
  rows :=
    { kept :=
        { task_lt := fun i hi => Nat.lt_add_right tasks (h.rows.kept.task_lt i hi)
          approval_lt := fun i hi => Nat.lt_add_right approvals (h.rows.kept.approval_lt i hi)
          awaits := h.rows.kept.awaits
          not_rejected := h.rows.kept.not_rejected }
      paired := ⟨h.rows.paired.linked, h.rows.paired.awaits⟩
      session_lt := fun i s hs => Nat.lt_add_right sessions (h.rows.session_lt i s hs)
      linked := h.rows.linked }
  node_lt i n hn := Nat.lt_add_right nodes (h.node_lt i n hn)
  keys := h.keys

theorem OfficeOp.attempt_desk {op : DeskOp}
    (hop : ∀ run node, op ≠ .call (.openWorkflow run node)) :
    (OfficeOp.desk op).attempt o = (op.result o.desk).map fun desk => { o with desk := desk } := by
  cases op with
  | call op =>
      cases op with
      | openWorkflow run node => exact absurd rfl (hop run node)
      | _ => rfl
  | _ => rfl

theorem OfficeInv.attempt (h : OfficeInv o) (op : OfficeOp) :
    OfficeInv ((op.attempt o).getD o) := by
  cases op with
  | desk op =>
      by_cases hop : ∃ run node, op = .call (.openWorkflow run node)
      · obtain ⟨run, node, rfl⟩ := hop
        exact h
      have hins := @DeskOp.inserts o.desk h.rows op fun run node hc => hop ⟨run, node, hc⟩
      rw [OfficeOp.attempt_desk fun run node hc => hop ⟨run, node, hc⟩]
      have hadds := hins.adds
      rcases hr : op.result o.desk with _ | d'
      · exact h
      · rw [hr] at hadds
        exact h.desk hadds rfl rfl
  | runNow lower env userId scheduleId =>
      dsimp only [OfficeOp.attempt, LarkPlat.runNow]
      rcases o.scheduleDb.schedule? scheduleId with _ | sched
      · exact h
      · exact h.scheduled (@spawnRun_inserts lower o.scheduleDb h.rows.kept h.rows.paired env sched
          userId "[run-now]")
  | triggerDue lower env describe scheduleId =>
      dsimp only [OfficeOp.attempt]
      rcases o.scheduleDb.schedule? scheduleId with _ | sched
      · exact h
      · exact h.scheduled (@spawnRun_inserts lower o.scheduleDb h.rows.kept h.rows.paired env sched
          (sched.createdBy.getD 0) "[schedule]")
  | retryRun lower env userId scheduleId runId =>
      exact h.scheduled (@retryRun_inserts lower o.scheduleDb h.rows.kept h.rows.paired env userId
        scheduleId runId)
  | editSchedules schedules => exact h.desk (DeskAdds.refl h.rows) rfl rfl
  | addNode node => exact h.addNode node
  | writeNode node =>
      dsimp only [OfficeOp.attempt]
      rcases hf : (o.node? node.id).filter _ with _ | n
      · exact h
      · obtain ⟨hn, hcond⟩ := Option.filter_eq_some_iff.mp hf
        obtain ⟨htype, hlink⟩ := of_decide_eq_true hcond
        exact h.writeNode hn htype hlink
  | createApproval now run nodeId =>
      dsimp only [OfficeOp.attempt]
      rcases hn : OfficeOp.approvalNode o nodeId with _ | n
      · exact h
      rw [Option.bind_some]
      rcases hr : ExecOp.result o.desk.exec (.openWorkflow run n) with _ | exec
      · exact h
      · exact h.createApproval hn hr
  | skip tasks sessions nodes approvals => exact h.skip tasks sessions nodes approvals

/-- **Every call** keeps the account of the keys. -/
theorem OfficeInv.apply (h : OfficeInv o) (op : OfficeOp) : OfficeInv (op.apply o) := by
  cases op with
  | triggerDue lower env describe scheduleId =>
      have hattempt := h.attempt (.triggerDue lower env describe scheduleId)
      dsimp only [OfficeOp.attempt] at hattempt
      dsimp only [OfficeOp.apply]
      rcases hsched : o.scheduleDb.schedule? scheduleId with _ | sched
      · exact h
      rw [hsched, Option.bind_some] at hattempt
      dsimp only
      unfold LarkPlat.triggerDue
      rcases hspawn : spawnRun lower env o.scheduleDb sched (sched.createdBy.getD 0) "[schedule]"
        with e | r
      · exact h.desk (DeskAdds.refl h.rows) rfl rfl
      · rw [hspawn] at hattempt
        exact hattempt
  | desk op => exact h.attempt (.desk op)
  | runNow lower env userId scheduleId => exact h.attempt (.runNow lower env userId scheduleId)
  | retryRun lower env userId scheduleId runId =>
      exact h.attempt (.retryRun lower env userId scheduleId runId)
  | editSchedules schedules => exact h.attempt (.editSchedules schedules)
  | addNode node => exact h.attempt (.addNode node)
  | writeNode node => exact h.attempt (.writeNode node)
  | createApproval now run nodeId => exact h.attempt (.createApproval now run nodeId)
  | skip tasks sessions nodes approvals => exact h.attempt (.skip tasks sessions nodes approvals)

theorem officeInv_fresh (hosts : List Host) (rules : ExecRules) (sensitiveHosts : List ℕ)
    (schedules : List ScheduleTask) :
    OfficeInv (Office.fresh hosts rules sensitiveHosts schedules) where
  rows := ⟨kept_fresh hosts rules, paired_fresh hosts rules, (fun _ _ h => by cases h),
    (fun _ _ _ h => by cases h)⟩
  node_lt _ _ h := by cases h
  keys b := by
    constructor
    · exact fun hb => by cases hb
    · rintro (hb | ⟨n, hn, -⟩)
      · cases hb
      · cases hn

/-! ### The keys that calls ask for -/

theorem creationKey_le {spec : TaskSpec} {b : ℕ} (h : b ∈ creationKey lower db spec) :
    b ≤ db.nextTask := by
  unfold creationKey at h
  split_ifs at h
  · exact (Option.some.inj h).ge
  · cases h

theorem retryKey_le {task : ExecTask} {b : ℕ} (hk : Kept db) (ht : db.task? task.id = some task)
    (h : b ∈ retryKey lower db task) : b ≤ db.nextTask := by
  unfold retryKey at h
  split_ifs at h
  · obtain rfl := Option.some.inj h
    exact (hk.task_lt task.id (by rw [ht]; rfl)).le
  · cases h

theorem DeskOp.askedKey_le {op : DeskOp} {b : ℕ} (h : DeskRows d) (hb : b ∈ op.askedKey d) :
    b ≤ d.exec.nextTask ∨ b ≤ d.nextSession := by
  cases op with
  | call op =>
      cases op with
      | create lower env spec policy => exact Or.inl (creationKey_le hb)
      | retryTask lower env userId taskId =>
          obtain ⟨task, htask, hkey⟩ := Option.bind_eq_some_iff.mp hb
          obtain ⟨ht, -⟩ := Option.filter_eq_some_iff.mp htask
          obtain rfl : task.id = taskId := Table.key_of_find ht
          exact Or.inl (retryKey_le h.kept ht hkey)
      | _ => cases hb
  | createSession now user hostId =>
      obtain ⟨s, hs, hkey⟩ := Option.bind_eq_some_iff.mp hb
      split_ifs at hkey
      obtain rfl := Option.some.inj hkey
      exact Or.inr (sessionToCreate_row (ok_of_toOption hs)).1.le
  | _ => cases hb

theorem retryRunKey_le {db : ScheduleDb} {userId scheduleId runId b : ℕ} (hk : Kept db.exec)
    (hb : b ∈ retryRunKey lower db userId scheduleId runId) : b ≤ db.exec.nextTask := by
  obtain ⟨run, -, hb⟩ := Option.bind_eq_some_iff.mp hb
  split_ifs at hb
  obtain ⟨sched, -, hb⟩ := Option.bind_eq_some_iff.mp hb
  rcases htarget : retryTarget db run with _ | task
  · rw [htarget] at hb
    exact creationKey_le hb
  · rw [htarget] at hb
    exact retryKey_le hk (retryTarget_eq_some htarget).1 hb

/-- A key that no node has used: it is taken exactly if its subject is flagged. -/
theorem OfficeInv.taken_iff {op : OfficeOp} {b : ℕ} (h : OfficeInv o) (hbelow : BelowOffset o)
    (hb : b ∈ op.askedKey o) : b ∈ o.desk.exec.bizIds ↔ o.desk.flagged b = true := by
  have hfree : ¬ o.Asked b := by
    rintro ⟨n, hn, htype, hasked, rfl⟩
    have hlarge : ∀ {k : ℕ}, k < workflowApprovalBizOffset →
        ¬ workflowApprovalBizOffset + n.id ≤ k := by
      intro k hk hle
      exact absurd (Nat.le_add_right _ n.id) (Nat.not_le.mpr (lt_of_le_of_lt hle hk))
    cases op with
    | desk op =>
        rcases DeskOp.askedKey_le h.rows hb with hle | hle
        · exact hlarge hbelow.1 hle
        · exact hlarge hbelow.2 hle
    | runNow lower env userId scheduleId =>
        obtain ⟨sched, -, hb⟩ := Option.bind_eq_some_iff.mp hb
        exact hlarge hbelow.1 (creationKey_le hb)
    | triggerDue lower env describe scheduleId =>
        obtain ⟨sched, -, hb⟩ := Option.bind_eq_some_iff.mp hb
        exact hlarge hbelow.1 (creationKey_le hb)
    | retryRun lower env userId scheduleId runId =>
        exact hlarge hbelow.1 (@retryRunKey_le lower o.scheduleDb _ _ _ _ h.rows.kept hb)
    | createApproval now run nodeId =>
        obtain ⟨m, hm, heq⟩ := Option.map_eq_some_iff.mp hb
        obtain ⟨hfind, hcond⟩ := Option.filter_eq_some_iff.mp hm
        obtain rfl : m.id = nodeId := Table.key_of_find hfind
        rw [Nat.add_left_cancel heq, hn] at hfind
        obtain rfl := Option.some.inj hfind
        rw [(of_decide_eq_true hcond).2.2] at hasked
        cases hasked
    | _ => cases hb
  rw [h.keys]
  exact or_iff_left hfree

theorem OfficeInv.commits {op : OfficeOp} {b : ℕ} (h : OfficeInv o) (hb : b ∈ op.askedKey o) :
    (op.attempt o).isSome = true ↔ b ∉ o.desk.exec.bizIds := by
  cases op with
  | desk op =>
      have hop : ∀ run node, op ≠ .call (.openWorkflow run node) := by
        rintro run node rfl
        cases hb
      rw [OfficeOp.attempt_desk hop, Option.isSome_map]
      exact (DeskOp.inserts h.rows hop).commits b hb
  | runNow lower env userId scheduleId =>
      obtain ⟨sched, hsched, hb⟩ := Option.bind_eq_some_iff.mp hb
      have hins := @spawnRun_inserts lower o.scheduleDb h.rows.kept h.rows.paired env sched userId
        "[run-now]"
      have hcommits := hins.commits b hb
      dsimp only [OfficeOp.attempt, LarkPlat.runNow]
      rw [hsched]
      rw [Option.isSome_map] at hcommits ⊢
      exact hcommits
  | triggerDue lower env describe scheduleId =>
      obtain ⟨sched, hsched, hb⟩ := Option.bind_eq_some_iff.mp hb
      have hins := @spawnRun_inserts lower o.scheduleDb h.rows.kept h.rows.paired env sched
        (sched.createdBy.getD 0) "[schedule]"
      have hcommits := hins.commits b hb
      dsimp only [OfficeOp.attempt]
      rw [hsched, Option.bind_some]
      rw [Option.isSome_map] at hcommits ⊢
      exact hcommits
  | retryRun lower env userId scheduleId runId =>
      have hins := @retryRun_inserts lower o.scheduleDb h.rows.kept h.rows.paired env userId
        scheduleId runId
      have hcommits := hins.commits b hb
      dsimp only [OfficeOp.attempt]
      rw [Option.isSome_map] at hcommits ⊢
      exact hcommits
  | createApproval now run nodeId =>
      obtain ⟨n, hn, rfl⟩ := Option.map_eq_some_iff.mp hb
      dsimp only [OfficeOp.attempt]
      rw [hn, Option.bind_some, Option.isSome_map]
      have hany : o.desk.exec.approvals.any (fun a => decide (a.bizId =
          (workflowApproval o.desk.exec run n).bizId)) = true ↔
            workflowApprovalBizOffset + n.id ∈ o.desk.exec.bizIds := by
        rw [List.any_eq_true, ExecDb.bizIds, List.mem_map]
        exact exists_congr fun a => and_congr_right fun _ => decide_eq_true_iff
      dsimp only [ExecOp.result]
      split_ifs with htaken
      · exact ⟨fun hc => Bool.noConfusion hc, fun hc => absurd (hany.mp htaken) hc⟩
      · exact ⟨fun _ hc => htaken (hany.mpr hc), fun _ => rfl⟩
  | _ => cases hb

/-- At one call: the key is unique exactly if the subject asks for the first time. -/
theorem OfficeInv.insertsUnique_iff (h : OfficeInv o) (hbelow : BelowOffset o) (op : OfficeOp) :
    InsertsUnique o op ↔ AsksFirst o op := by
  refine forall₂_congr fun b hb => ?_
  rw [h.commits hb, and_self_iff, h.taken_iff hbelow hb, Bool.not_eq_true]

/-- **The keys of a run.** As long as the identifiers of tasks and sessions lie below the offset,
every request of a run is inserted under a key of its own, by a call that commits, if and only if
every call asks for a key that no flagged task and no sensitive session has. -/
theorem unique_keys_iff (hosts : List Host) (rules : ExecRules) (sensitiveHosts : List ℕ)
    (schedules : List ScheduleTask) (ops : List OfficeOp)
    (hbelow : Meets OfficeOp.apply (fun o _ => BelowOffset o)
      (Office.fresh hosts rules sensitiveHosts schedules) ops) :
    Meets OfficeOp.apply InsertsUnique (Office.fresh hosts rules sensitiveHosts schedules) ops ↔
      Meets OfficeOp.apply AsksFirst (Office.fresh hosts rules sensitiveHosts schedules) ops := by
  have hinv := officeInv_fresh hosts rules sensitiveHosts schedules
  generalize Office.fresh hosts rules sensitiveHosts schedules = o at hbelow hinv ⊢
  induction ops generalizing o with
  | nil => exact Iff.rfl
  | cons op ops ih =>
      obtain ⟨hop, hrest⟩ := hbelow
      rw [meets_cons, meets_cons, hinv.insertsUnique_iff hop]
      exact and_congr_right fun _ => ih _ hrest (hinv.apply op)

/-- One host, sensitive for sessions. -/
def sensitiveOffice : Office := Office.fresh [⟨1, some 1, "agent", none⟩] guardedRules [1] []

/-- The creation of a sensitive task. -/
def createGuarded : OfficeOp :=
  .desk (.call (.create (fun s => s) busEnv { demoSpec with command := some "uptime" } none))

/-- The creation of a session on the sensitive host. -/
def createSeat : OfficeOp := .desk (.createSession 0 ⟨7, true, [], fun _ => true⟩ 1)

/-- A sensitive task whose request is rejected: one request, one key. -/
theorem unique_keys_rejected :
    Meets OfficeOp.apply InsertsUnique sensitiveOffice
      [createGuarded, .desk (.call (.reject busEnv 2 1))] :=
  (unique_keys_iff [⟨1, some 1, "agent", none⟩] guardedRules [1] []
    [createGuarded, .desk (.call (.reject busEnv 2 1))] (by decide +kernel)).mpr
      (by decide +kernel)

/-- **Keys asked for twice.** The retry of a task whose request was rejected, and a sensitive task
with the identifier of a sensitive session. -/
theorem asked_twice_collides :
    ¬ Meets OfficeOp.apply InsertsUnique sensitiveOffice
      [createGuarded, .desk (.call (.reject busEnv 2 1)),
        .desk (.call (.retryTask (fun s => s) busEnv 7 1))] ∧
    ¬ Meets OfficeOp.apply InsertsUnique sensitiveOffice [createSeat, createGuarded] := by
  constructor
  · decide +kernel
  · decide +kernel

end LarkPlat
