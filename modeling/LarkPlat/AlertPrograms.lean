import LarkPlat.AlertRows
import LarkPlat.LockedTable

/-!
# The Alert Engine, Statement by Statement

The engine of `Alerts` as programs: what the functions of `monitor_service` issue to the database,
in the order in which the session flushes it, and what they hand to `notify_service`. A guarded
update goes out where it is called; what is assigned to a row goes out with the next flush, which
`_log_alert_event` does, so after the guarded update of the same row.

A program works on the objects that its session has loaded. Alone, on current objects, it does what
the functions of `Alerts` do; what it sends is then recorded in the `Monitor`.

## Main results

* `evaluateEvent_alone`, `sweepActiveAlerts_alone`, `acknowledgeAlert_alone`, `resolveAlert_alone`:
  a program alone does what the function does.
-/

namespace LarkPlat

open Programs LockedTable

/-! ### What the programs are about -/

/-- The reasons of a notification: an alert fires or fires on, escalates, or is resolved. -/
inductive NoticeKind where
  | trigger
  | escalation
  | recovery
  deriving DecidableEq, Repr

/-- A call of `_send_alert_notify` that reaches `notify_service`. -/
structure Notice where
  alertId : ℕ
  kind : NoticeKind
  channels : List ℕ
  time : ℚ
  deriving DecidableEq, Repr

/-- The status change that an entry records: none if the status is the same. -/
def AlertLog.change (e : AlertLog) : Option (Change AlertStatus) :=
  if e.fromStatus = some e.toStatus then none else some ⟨e.alertId, e.fromStatus, e.toStatus⟩

/-- The table of alerts with its event log. -/
abbrev alertSchema : Schema where
  View := MonDb
  Row := MonAlert
  Entry := AlertLog
  Message := Notice
  Error := PyErr
  Status := AlertStatus
  status := MonAlert.status
  change := AlertLog.change

instance : DecidableEq alertSchema.Status := inferInstanceAs (DecidableEq AlertStatus)

/-- The programs of the sessions of the monitor. -/
abbrev AlertProg (α : Type) : Type 1 := Prog (Stmt alertSchema) α

namespace AlertProg

/-! ### Statements -/

/-- The tables, as the session sees them. -/
def tables : AlertProg MonDb := Prog.issue .select

/-- `MonAlertRepository.optimistic_update`. -/
def optimisticUpdate (id : ℕ) (old new : AlertStatus) (version : ℕ)
    (fields : MonAlert → MonAlert) : AlertProg Bool :=
  Prog.issue (.cas id old new (fun a => decide (a.version = version)) fun a =>
    { fields a with status := new, version := version + 1 })

/-- What is assigned to a row, as its flush writes it. -/
def update (id : ℕ) (f : MonAlert → MonAlert) : AlertProg Unit := Prog.issue (.write id f)

/-- `_log_alert_event`. -/
def logEvent (alertId : ℕ) (action : AlertAction) (fromStatus : Option AlertStatus)
    (toStatus : AlertStatus) (severity : String) (time : ℚ) : AlertProg Unit :=
  Prog.issue (.log ⟨alertId, action, fromStatus, toStatus, severity, time⟩)

/-- An exception. -/
def throwing {α : Type} (e : PyErr) : AlertProg α := .stmt (.raise e) Empty.elim

/-- `_send_alert_notify`, for the channels of the rules: it does nothing if the rule has none. -/
def sendAlertNotify (channels : ℕ → List ℕ) (a : MonAlert) (rule : MonRule) (kind : NoticeKind)
    (time : ℚ) : AlertProg Unit :=
  if channels rule.id = [] then pure () else Prog.issue (.send ⟨a.id, kind, channels rule.id, time⟩)

/-! ### The engine -/

/-- `_resolve_alert_engine`. -/
def resolveAlertEngine (channels : ℕ → List ℕ) (a : MonAlert) (t : Readings) : AlertProg Bool := do
  if a.status = .resolved then pure false
  else
    let ok ← optimisticUpdate a.id a.status .resolved a.version fun x =>
      { x with resolvedAt := some t.closed }
    if ok then
      update a.id (MonAlert.setResolved (a.version + 1) t.closedRow)
      logEvent a.id .resolve (some a.status) .resolved a.severity t.logged
      let db ← tables
      match (a.ruleId.filter (· ≠ 0)).bind db.rule? with
      | none => pure true
      | some rule =>
          sendAlertNotify channels a rule .recovery t.closedRow
          pure true
    else pure false

/-- `_try_converge`. -/
def tryConverge (rule : MonRule) (event : MonEvent) (t : Readings) :
    AlertProg (Option MonAlert) := do
  if rule.convergeSec ≤ 0 then pure none
  else
    let db ← tables
    match db.recentlyResolved rule.id event.entityId rule.convergeSec t.cutoff with
    | none => pure none
    | some recent =>
        let ok ← optimisticUpdate recent.id .resolved .pending recent.version fun x =>
          { x with resolvedAt := none, firedAt := none }
        if ok then
          let set := MonAlert.setReopened (recent.version + 1) (recent.hitCount + 1) t.reopened
          update recent.id set
          logEvent recent.id .fire (some .resolved) .pending recent.severity t.logged
          pure (some (set recent))
        else pure none

/-- The last `fire` entry of an alert. -/
def lastFire (log : List AlertLog) (id : ℕ) : Option ℚ :=
  ((log.filter fun e => decide (e.alertId = id ∧ e.action = .fire)).map (·.time)).max?

/-- The last `fire` entry is younger than the cooldown. -/
def cooling (log : List AlertLog) (id : ℕ) (rule : MonRule) (now : ℚ) : Bool :=
  decide (0 < max rule.cooldownSeconds 0) &&
    (lastFire log id).any fun last => decide (now - last < max rule.cooldownSeconds 0)

/-- `_maybe_notify`. -/
def maybeNotify (channels : ℕ → List ℕ) (a : MonAlert) (rule : MonRule) (t : Readings) :
    AlertProg AlertAction := do
  let db ← tables
  if cooling db.log a.id rule t.notified then
    logEvent a.id .suppress (some a.status) a.status a.severity t.logged
    pure .suppress
  else
    sendAlertNotify channels a rule .trigger t.notified
    pure .fire

/-- The level that `_maybe_escalate` moves an alert to, if it does. -/
def escalation (rule : MonRule) (a : MonAlert) (now : ℚ) : Option String :=
  match a.firedAt with
  | none => none
  | some fired =>
      let after := rule.escalationAfterSeconds.getD 0
      if rule.escalationEnabled = 0 ∨ after ≤ 0 then none
      else
        let next := nextLevel rule.escalateLevels a.severity
        match rule.escalateLevels[next]? with
        | none => none
        | some target => if now - fired < after * (next + 1) then none else some target

/-- `_maybe_escalate`. -/
def maybeEscalate (channels : ℕ → List ℕ) (a : MonAlert) (rule : MonRule) (t : Readings) :
    AlertProg Bool := do
  match escalation rule a t.escalated with
  | none => pure false
  | some target =>
      update a.id fun x => { x with severity := target }
      logEvent a.id .escalate (some a.status) a.status target t.logged
      sendAlertNotify channels a rule .escalation t.escalated
      pure true

/-- What follows the guarded update of a firing. -/
def announceFiring (channels : ℕ → List ℕ) (a : MonAlert) (rule : MonRule) (t : Readings)
    (ok : Bool) : AlertProg (Option AlertAction) := do
  if ok then
    let set := MonAlert.setFiring (a.version + 1) t.now
    update a.id set
    logEvent a.id .fire (some .pending) .firing a.severity t.logged
    let action ← maybeNotify channels (set a) rule t
    pure (some action)
  else pure none

/-- The move of an active alert from `pending` to `firing`; `touch` is what was assigned to its row
before. -/
def fireAlert (channels : ℕ → List ℕ) (touch : AlertProg Unit) (a : MonAlert) (rule : MonRule)
    (t : Readings) : AlertProg (Option AlertAction) := do
  let ok ← optimisticUpdate a.id .pending .firing a.version fun x =>
    { x with firedAt := some t.now }
  touch
  announceFiring channels a rule t ok

/-- What `evaluate_event` does for an alert that fires already. -/
def remind (channels : ℕ → List ℕ) (a : MonAlert) (rule : MonRule) (t : Readings) :
    AlertProg (List Outcome) := do
  let action ← maybeNotify channels a rule t
  let escalated ← maybeEscalate channels a rule t
  pure [⟨rule.id, .log (if escalated then .escalate else action), some a.status⟩]

/-- The part of `evaluate_event` for an alert that fires already. -/
def hitFiring (channels : ℕ → List ℕ) (touch : AlertProg Unit) (a : MonAlert) (rule : MonRule)
    (t : Readings) : AlertProg (List Outcome) := do
  let ok ← optimisticUpdate a.id a.status a.status a.version id
  touch
  if ok then
    update a.id fun x => { x with version := a.version + 1 }
    remind channels { a with version := a.version + 1 } rule t
  else remind channels a rule t

/-- The part of `evaluate_event` for an active alert that is hit again. -/
def hitAlert (channels : ℕ → List ℕ) (a : MonAlert) (rule : MonRule) (t : Readings) :
    AlertProg (List Outcome) := do
  let touch := update a.id (MonAlert.stamp (a.hitCount + 1) t.now)
  let a := a.stamp (a.hitCount + 1) t.now
  match a.status with
  | .pending =>
      if rule.conditionDurationSeconds ≤ t.now - a.pendingSince.getD a.createdAt then
        let action ← fireAlert channels touch a rule t
        pure (action.map fun action => ⟨rule.id, .log action, some .firing⟩).toList
      else
        touch
        logEvent a.id .suppress (some .pending) .pending a.severity t.logged
        pure [⟨rule.id, .log .suppress, none⟩]
  | .firing | .acknowledged => hitFiring channels touch a rule t
  | .resolved =>
      touch
      pure []

/-- The body of the loop of `evaluate_event`. -/
def evaluateRule (channels : ℕ → List ℕ) (py : PyText) (rule : MonRule) (event : MonEvent)
    (t : Readings) : AlertProg (List Outcome) := do
  let db ← tables
  let alert := db.activeByRuleEntity rule.id event.entityId
  if !rulePertains py rule event then pure []
  else if !conditionMet rule event then
    match alert with
    | none => pure []
    | some a =>
        let _ ← resolveAlertEngine channels a t
        pure [⟨rule.id, .log .resolve, none⟩]
  else
    match alert with
    | some a => hitAlert channels a rule t
    | none =>
        let reopened ← tryConverge rule event t
        match reopened with
        | some a => pure [⟨rule.id, .converge, some a.status⟩]
        | none =>
            let id ← Prog.issue (.insert (newAlert rule event t))
            logEvent id .fire none .pending (newAlert rule event t id).severity t.logged
            pure [⟨rule.id, .log .fire, some .pending⟩]

/-- The loop of `evaluate_event`. -/
def evaluateRules (channels : ℕ → List ℕ) (py : PyText) (event : MonEvent)
    (readings : ℕ → Readings) : List MonRule → AlertProg (List Outcome)
  | [] => pure []
  | rule :: rest => do
      let out ← evaluateRule channels py rule event (readings rule.id)
      let outs ← evaluateRules channels py event readings rest
      pure (out ++ outs)

/-- `evaluate_event`. -/
def evaluateEvent (channels : ℕ → List ℕ) (py : PyText) (order : RuleOrder)
    (readings : ℕ → Readings) (event : MonEvent) : AlertProg (List Outcome) := do
  let db ← tables
  evaluateRules channels py event readings (order.rules db.enabledRules)

/-- The body of the loop of `sweep_active_alerts`. -/
def sweepAlert (channels : ℕ → List ℕ) (env : SweepEnv) (a : MonAlert) : AlertProg Unit := do
  let db ← tables
  match (a.ruleId.filter (· ≠ 0)).bind db.rule? with
  | none => pure ()
  | some rule =>
      if rule.deleted ∨ rule.enabled = 0 ∨ isStale a env.now env.freshness then pure ()
      else if a.status = .pending then
        if rule.conditionDurationSeconds ≤ env.now - a.pendingSince.getD a.createdAt then
          let _ ← fireAlert channels (pure ()) a rule { env.readings a.id with now := env.now }
          pure ()
        else pure ()
      else
        let _ ← maybeEscalate channels a rule (env.readings a.id)
        pure ()

/-- The loop of `sweep_active_alerts`. -/
def sweepAlerts (channels : ℕ → List ℕ) (env : SweepEnv) : List MonAlert → AlertProg Unit
  | [] => pure ()
  | a :: rest => do
      sweepAlert channels env a
      sweepAlerts channels env rest

/-- `sweep_active_alerts`, which commits at its end. -/
def sweepActiveAlerts (channels : ℕ → List ℕ) (env : SweepEnv) : AlertProg Unit := do
  if env.featureEnabled ∧ env.due then
    let db ← tables
    sweepAlerts channels env (db.activeAlerts 500)
    Prog.issue .commit
  else pure ()

/-! ### The calls of users -/

/-- A permission that a call requires. -/
def requirePerm (user : Actor) (code : String) : AlertProg Unit :=
  match user.requirePerm code with
  | .ok () => pure ()
  | .error e => throwing e

/-- A call of a user on an alert that the user may see. -/
def onAlert (user : Actor) (code : String) (visible : Option (List String)) (alertId : ℕ)
    (call : MonAlert → AlertProg Unit) : AlertProg Unit := do
  requirePerm user code
  let db ← tables
  match (db.alert? alertId).filter (entityInScope visible) with
  | none => throwing (.notFound "alert not found")
  | some a => call a

/-- The body of `acknowledge_alert`. -/
def acknowledge (t : Readings) (a : MonAlert) : AlertProg Unit :=
  if a.status ≠ .firing then
    throwing (.badRequest ("alert not firing (status=" ++ a.status.text ++ ")"))
  else do
    let ok ← optimisticUpdate a.id .firing .acknowledged a.version id
    if !ok then throwing (.forbidden "alert changed concurrently")
    else
      update a.id fun x => { x with version := a.version + 1, status := .acknowledged }
      logEvent a.id .acknowledge (some .firing) .acknowledged a.severity t.logged
      Prog.issue .commit

/-- `acknowledge_alert`. -/
def acknowledgeAlert (user : Actor) (visible : Option (List String)) (t : Readings)
    (alertId : ℕ) : AlertProg Unit :=
  onAlert user "monitor:alert:ack" visible alertId (acknowledge t)

/-- The body of `resolve_alert`, which is that of `_resolve_alert_engine` without the
notification. -/
def resolve (t : Readings) (a : MonAlert) : AlertProg Unit :=
  if a.status = .resolved then
    throwing (.badRequest ("alert already resolved (status=" ++ a.status.text ++ ")"))
  else do
    let ok ← optimisticUpdate a.id a.status .resolved a.version fun x =>
      { x with resolvedAt := some t.closed }
    if !ok then throwing (.forbidden "alert changed concurrently")
    else
      update a.id (MonAlert.setResolved (a.version + 1) t.closedRow)
      logEvent a.id .resolve (some a.status) .resolved a.severity t.logged
      Prog.issue .commit

/-- `resolve_alert`. -/
def resolveAlert (user : Actor) (visible : Option (List String)) (t : Readings) (alertId : ℕ) :
    AlertProg Unit :=
  onAlert user "monitor:alert:resolve" visible alertId (resolve t)

end AlertProg

/-! ### A session alone -/

/-- The tables with the notifications that were sent. -/
structure Monitor where
  db : MonDb
  sent : List Notice

namespace Monitor

/-- The statements of a session alone. -/
def serve : ∀ β, Stmt alertSchema β → Monitor → Except PyErr (β × Monitor)
  | _, .select, m => .ok (m.db, m)
  | _, .cas id old _ guard set, m =>
      if m.db.alerts.any fun a => decide (a.id = id ∧ a.status = old ∧ guard a = true) then
        (m.db.update id fun a => if a.status = old ∧ guard a = true then set a else a).map fun db =>
          (true, { m with db := db })
      else .ok (false, m)
  | _, .write id set, m => (m.db.update id set).map fun db => ((), { m with db := db })
  | _, .insert row, m => (m.db.insert row).map fun db => (m.db.nextAlert, { m with db := db })
  | _, .log e, m => .ok ((), { m with db := { m.db with log := m.db.log ++ [e] } })
  | _, .send n, m => .ok ((), { m with sent := m.sent ++ [n] })
  | _, .commit, m => .ok ((), m)
  | _, .raise e, _ => .error e

/-- What the tables show of an execution. -/
def shown {α : Type} (r : Except PyErr (α × Monitor)) : Except PyErr (α × MonDb) :=
  r.map fun x => (x.1, x.2.db)

end Monitor

namespace AlertProg

open Monitor

/-- The execution of a program by a session alone. -/
def alone {α : Type} (p : AlertProg α) (m : Monitor) : Except PyErr (α × Monitor) := p.run serve m

variable {α β : Type}

/-- Alone, the program does what the function does, whatever was sent before. -/
def Does (p : AlertProg α) (f : MonDb → Except PyErr (α × MonDb)) : Prop :=
  ∀ m, shown (p.alone m) = f m.db

variable {k : α → AlertProg β} (m : Monitor)

theorem alone_bind (p : AlertProg α) : (p >>= k).alone m = (p.alone m).bind fun r =>
    (k r.1).alone r.2 :=
  Prog.run_bind serve p k m

theorem shown_bind {p : AlertProg α} {r : Except PyErr (α × MonDb)} (hp : shown (p.alone m) = r)
    {h : α × MonDb → Except PyErr (β × MonDb)}
    (hk : ∀ x m', r = .ok (x, m'.db) → shown ((k x).alone m') = h (x, m'.db)) :
    shown ((p >>= k).alone m) = r >>= h := by
  subst hp
  rw [alone_bind]
  cases hrun : p.alone m with
  | error e => rfl
  | ok y => exact hk y.1 y.2 (congrArg shown hrun)

theorem Does.shown_bind {p : AlertProg α} {f : MonDb → Except PyErr (α × MonDb)} (hp : Does p f)
    {h : α × MonDb → Except PyErr (β × MonDb)}
    (hk : ∀ x m', shown ((k x).alone m') = h (x, m'.db)) :
    shown ((p >>= k).alone m) = f m.db >>= h :=
  AlertProg.shown_bind m (hp m) fun x m' _ => hk x m'

theorem does_optimisticUpdate (id : ℕ) (old new : AlertStatus) (version : ℕ)
    (fields : MonAlert → MonAlert) :
    Does (optimisticUpdate id old new version fields) fun db =>
      db.optimisticUpdate id old new version fields := by
  intro m
  change shown ((serve _ _ m).bind fun r => Except.ok r) = _
  simp only [serve, MonDb.optimisticUpdate, decide_eq_true_eq]
  split_ifs
  · cases m.db.update id _ <;> rfl
  · rfl

theorem shown_update (id : ℕ) (f : MonAlert → MonAlert) {k : Unit → AlertProg β}
    {h : MonDb → Except PyErr (β × MonDb)}
    (hk : ∀ db', shown ((k ()).alone { m with db := db' }) = h db') :
    shown ((update id f >>= k).alone m) = m.db.update id f >>= h := by
  change shown ((serve _ _ m).bind _) = _
  rw [serve]
  cases m.db.update id f with
  | error e => rfl
  | ok db' => exact hk db'

theorem alone_tables (k : MonDb → AlertProg β) : (tables >>= k).alone m = (k m.db).alone m := rfl

theorem alone_logEvent (a : MonAlert) (action : AlertAction) (fromStatus : Option AlertStatus)
    (toStatus : AlertStatus) (severity : String) (time : ℚ) (k : Unit → AlertProg β) :
    (logEvent a.id action fromStatus toStatus severity time >>= k).alone m =
      (k ()).alone
        { m with db := m.db.logEvent a action fromStatus toStatus severity time } :=
  rfl

theorem shown_sendAlertNotify (channels : ℕ → List ℕ) (a : MonAlert) (rule : MonRule)
    (kind : NoticeKind) (time : ℚ) (k : Unit → AlertProg β) {r : Except PyErr (β × MonDb)}
    (hk : ∀ sent, shown ((k ()).alone { m with sent := sent }) = r) :
    shown ((sendAlertNotify channels a rule kind time >>= k).alone m) = r := by
  rw [sendAlertNotify]
  split_ifs
  · exact hk m.sent
  · exact hk _

/-! ### The engine alone -/

variable (channels : ℕ → List ℕ) (a : MonAlert) (rule : MonRule) (event : MonEvent) (t : Readings)

theorem does_resolveAlertEngine :
    Does (resolveAlertEngine channels a t) fun db => LarkPlat.resolveAlertEngine db a t := by
  intro m
  change _ = LarkPlat.resolveAlertEngine m.db a t
  rw [resolveAlertEngine, LarkPlat.resolveAlertEngine]
  split_ifs with hres
  · rfl
  refine (does_optimisticUpdate _ _ _ _ _).shown_bind m fun ok m' => ?_
  cases ok with
  | false => rfl
  | true =>
      refine shown_update m' _ _ fun db' => ?_
      rw [alone_logEvent, alone_tables]
      dsimp only
      split
      · rfl
      · exact shown_sendAlertNotify _ _ _ _ _ _ _ fun _ => rfl

theorem does_tryConverge :
    Does (tryConverge rule event t) fun db => LarkPlat.tryConverge db rule event t := by
  intro m
  change _ = LarkPlat.tryConverge m.db rule event t
  rw [tryConverge, LarkPlat.tryConverge]
  split_ifs with hw
  · rfl
  rw [alone_tables]
  cases m.db.recentlyResolved rule.id event.entityId rule.convergeSec t.cutoff with
  | none => rfl
  | some recent =>
      refine (does_optimisticUpdate _ _ _ _ _).shown_bind m fun ok m' => ?_
      cases ok with
      | false => rfl
      | true =>
          refine shown_update m' _ _ fun db' => ?_
          rw [alone_logEvent]
          rfl

theorem does_maybeNotify :
    Does (maybeNotify channels a rule t) fun db => .ok (LarkPlat.maybeNotify db a rule t) := by
  intro m
  change _ = Except.ok (LarkPlat.maybeNotify m.db a rule t)
  rw [maybeNotify, alone_tables, LarkPlat.maybeNotify, cooling, lastFire]
  generalize ((m.db.log.filter fun e => decide (e.alertId = a.id ∧ e.action = .fire)).map
    (·.time)).max? = last
  cases last with
  | none =>
      rw [Option.any_none, Bool.and_false, if_neg Bool.false_ne_true]
      exact shown_sendAlertNotify _ _ _ _ _ _ _ fun _ => rfl
  | some last =>
      rw [Option.any_some]
      dsimp only
      by_cases hc : 0 < max rule.cooldownSeconds 0 ∧
          t.notified - last < max rule.cooldownSeconds 0
      · rw [if_pos hc, if_pos (by simpa using hc), alone_logEvent]
        rfl
      · rw [if_neg hc, if_neg (by simpa using hc)]
        exact shown_sendAlertNotify _ _ _ _ _ _ _ fun _ => rfl

theorem shown_maybeNotify {k : AlertAction → AlertProg β} {r : Except PyErr (β × MonDb)}
    (hk : ∀ m', m'.db = (LarkPlat.maybeNotify m.db a rule t).2 →
      shown ((k (LarkPlat.maybeNotify m.db a rule t).1).alone m') = r) :
    shown ((maybeNotify channels a rule t >>= k).alone m) = r := by
  have hdoes := does_maybeNotify channels a rule t m
  rw [alone_bind]
  cases h : (maybeNotify channels a rule t).alone m with
  | error e =>
      rw [h] at hdoes
      cases hdoes
  | ok x =>
      rw [h] at hdoes
      have hx := Except.ok.inj hdoes
      rw [← congrArg Prod.fst hx] at hk
      exact hk x.2 (congrArg Prod.snd hx)

theorem does_maybeEscalate :
    Does (maybeEscalate channels a rule t) fun db => LarkPlat.maybeEscalate db a rule t := by
  intro m
  change _ = LarkPlat.maybeEscalate m.db a rule t
  rw [maybeEscalate, LarkPlat.maybeEscalate, escalation]
  cases a.firedAt with
  | none => rfl
  | some fired =>
      dsimp only
      by_cases hoff : rule.escalationEnabled = 0 ∨ rule.escalationAfterSeconds.getD 0 ≤ 0
      · rw [if_pos hoff, if_pos hoff]
        rfl
      rw [if_neg hoff, if_neg hoff]
      cases rule.escalateLevels[nextLevel rule.escalateLevels a.severity]? with
      | none => rfl
      | some target =>
          dsimp only
          by_cases hearly : t.escalated - fired < rule.escalationAfterSeconds.getD 0 *
              (nextLevel rule.escalateLevels a.severity + 1)
          · rw [if_pos hearly, if_pos hearly]
            rfl
          rw [if_neg hearly, if_neg hearly]
          refine shown_update m _ _ fun db' => ?_
          rw [alone_logEvent]
          exact shown_sendAlertNotify _ _ _ _ _ _ _ fun _ => rfl

theorem does_fireAlert :
    Does (fireAlert channels (pure ()) a rule t) fun db => LarkPlat.fireAlert db a rule t := by
  intro m
  change _ = LarkPlat.fireAlert m.db a rule t
  rw [fireAlert, LarkPlat.fireAlert]
  refine (does_optimisticUpdate _ _ _ _ _).shown_bind m fun ok m' => ?_
  cases ok with
  | false => rfl
  | true =>
      refine shown_update m' _ _ fun db' => ?_
      rw [alone_logEvent]
      refine shown_maybeNotify _ _ _ _ _ fun m'' hm'' => ?_
      exact congrArg (fun db => Except.ok (_, db)) hm''

theorem map_bind {ε γ δ : Type} (x : Except ε α) (h : α → Except ε γ) (f : γ → δ) :
    (x >>= h).map f = x >>= fun y => (h y).map f := by
  cases x <;> rfl

theorem does_remind :
    Does (remind channels a rule t) fun db =>
      (LarkPlat.remind db a rule t).map fun r => (r.2, r.1) := by
  intro m
  change _ = (LarkPlat.remind m.db a rule t).map fun r => (r.2, r.1)
  rw [remind, LarkPlat.remind]
  refine shown_maybeNotify _ _ _ _ _ fun m' hm' => ?_
  generalize LarkPlat.maybeNotify m.db a rule t = r at hm' ⊢
  obtain ⟨action, db⟩ := r
  obtain rfl : m'.db = db := hm'
  dsimp only
  rw [map_bind]
  exact (does_maybeEscalate _ _ _ _).shown_bind m' fun _ _ => rfl

theorem does_hitFiring :
    Does (hitFiring channels (pure ()) a rule t) fun db =>
      (LarkPlat.hitFiring db a rule t).map fun r => (r.2, r.1) := by
  intro m
  change _ = (LarkPlat.hitFiring m.db a rule t).map fun r => (r.2, r.1)
  rw [hitFiring, LarkPlat.hitFiring, map_bind]
  refine (does_optimisticUpdate _ _ _ _ _).shown_bind m fun ok m' => ?_
  cases ok with
  | false => exact does_remind channels a rule t m'
  | true =>
      dsimp only
      rw [if_pos rfl, if_pos rfl, map_bind]
      exact shown_update m' _ _ fun db' => does_remind channels _ rule t { m' with db := db' }

/-! ### Current alerts -/

theorem alone_optimisticUpdate {m : Monitor} {a : MonAlert} (h : m.db.Current a)
    {new : AlertStatus} {fields : MonAlert → MonAlert}
    (hr : MonDb.Replaces m.db a { fields a with status := new, version := a.version + 1 })
    (k : Bool → AlertProg β) :
    (optimisticUpdate a.id a.status new a.version fields >>= k).alone m =
      (k true).alone
        { m with
          db := m.db.put { fields a with status := new, version := a.version + 1 } [] } := by
  have hserve : serve _ (.cas a.id a.status new (fun x => decide (x.version = a.version)) fun x =>
      { fields x with status := new, version := a.version + 1 }) m = .ok (true, { m with
        db := m.db.put { fields a with status := new, version := a.version + 1 } [] }) := by
    have hany : (m.db.alerts.any fun x => decide (x.id = a.id ∧ x.status = a.status ∧
        decide (x.version = a.version) = true)) = true :=
      List.any_eq_true.mpr ⟨a, h.mem, by simp⟩
    rw [serve, if_pos hany, MonDb.update_put h (by simpa using hr)]
    simp
    rfl
  change (serve _ _ m).bind _ = _
  rw [hserve]
  rfl

theorem alone_update {m : Monitor} {a : MonAlert} (h : m.db.Current a)
    {f : MonAlert → MonAlert} (hr : MonDb.Replaces m.db a (f a)) (k : Unit → AlertProg β) :
    (update a.id f >>= k).alone m = (k ()).alone { m with db := m.db.put (f a) [] } := by
  change (serve _ (.write a.id f) m).bind _ = _
  rw [serve, MonDb.update_put h hr]
  rfl

/-- On a current alert the guarded update and the write of a hit's stamp may be exchanged. -/
theorem alone_stamp_first {m : Monitor} {a : MonAlert} (h : m.db.Current a)
    (new : AlertStatus) (fields : MonAlert → MonAlert) (hits : ℕ) (now : ℚ)
    (hact : a.status.active = true) (hnew : new.active = true)
    (hfields : ∀ x, (fields x).id = x.id ∧ (fields x).ruleId = x.ruleId ∧
      (fields x).entityId = x.entityId)
    (hcomm : fields (a.stamp hits now) = (fields a).stamp hits now) (k : Bool → AlertProg β) :
    (do let ok ← optimisticUpdate a.id a.status new a.version fields
        update a.id (MonAlert.stamp hits now)
        k ok : AlertProg β).alone m =
      (do update a.id (MonAlert.stamp hits now)
          let ok ← optimisticUpdate a.id a.status new a.version fields
          k ok : AlertProg β).alone m := by
  set b : MonAlert := { fields a with status := new, version := a.version + 1 } with hb
  obtain ⟨hid, hr, he⟩ := hfields a
  have hab : MonDb.Replaces m.db a b := MonDb.replaces_of_active hact hid hr he
  have hbid : b.id = a.id := hid
  have hbcur : (m.db.put b []).Current b := h.put hab []
  have hat : MonDb.Replaces m.db a (a.stamp hits now) := MonDb.replaces_of_active hact rfl rfl rfl
  have htcur : (m.db.put (a.stamp hits now) []).Current (a.stamp hits now) := h.put hat []
  have hlast : { fields (a.stamp hits now) with status := new, version := a.version + 1 } =
      b.stamp hits now := by
    rw [hcomm]
    rfl
  have hleft := alone_update (m := { m with db := m.db.put b [] }) hbcur
    (f := MonAlert.stamp hits now) (MonDb.replaces_of_active hnew rfl rfl rfl) fun _ => k true
  have hat' : MonDb.Replaces (m.db.put (a.stamp hits now) []) (a.stamp hits now)
      { fields (a.stamp hits now) with status := new, version := a.version + 1 } :=
    MonDb.replaces_of_active hact (hfields _).1 (hfields _).2.1 (hfields _).2.2
  have hright := alone_optimisticUpdate (m := { m with db := m.db.put (a.stamp hits now) [] })
    htcur hat' k
  rw [hbid] at hleft
  rw [alone_optimisticUpdate h hab, alone_update h hat, hleft]
  refine Eq.trans ?_ hright.symm
  have hput : (m.db.put b []).put (b.stamp hits now) [] =
      (m.db.put (a.stamp hits now) []).put (b.stamp hits now) [] := by
    rw [MonDb.put_put (show (b.stamp hits now).id = b.id from rfl),
      MonDb.put_put (show (b.stamp hits now).id = (a.stamp hits now).id from hbid)]
  change (k true).alone { m with db := (m.db.put b []).put (b.stamp hits now) [] } = _
  rw [hput, ← hlast]
  rfl

theorem alone_fireAlert_stamp {m : Monitor} {a : MonAlert} (h : m.db.Current a)
    (hst : a.status = .pending) (hits : ℕ) (now : ℚ) (f : Option AlertAction → AlertProg β) :
    (fireAlert channels (update a.id (MonAlert.stamp hits now)) (a.stamp hits now) rule t >>= f).alone
        m =
      (do update a.id (MonAlert.stamp hits now)
          let action ← fireAlert channels (pure ()) (a.stamp hits now) rule t
          f action : AlertProg β).alone m := by
  have hact : a.status.active = true := by rw [hst]; rfl
  have hswap := fun k : Bool → AlertProg β => alone_stamp_first h .firing
    (fun x => { x with firedAt := some t.now }) hits now hact rfl (fun _ => ⟨rfl, rfl, rfl⟩) rfl k
  rw [hst] at hswap
  exact hswap fun ok => announceFiring channels (a.stamp hits now) rule t ok >>= f

theorem alone_hitFiring_stamp {m : Monitor} {a : MonAlert} (h : m.db.Current a)
    (hact : a.status.active = true) (hits : ℕ) (now : ℚ) :
    (hitFiring channels (update a.id (MonAlert.stamp hits now)) (a.stamp hits now) rule t).alone m =
      (do update a.id (MonAlert.stamp hits now)
          hitFiring channels (pure ()) (a.stamp hits now) rule t : AlertProg _).alone m :=
  alone_stamp_first h a.status id hits now hact hact (fun _ => ⟨rfl, rfl, rfl⟩) rfl _

theorem alone_hitAlert {m : Monitor} {a : MonAlert} (h : m.db.Current a)
    (hact : a.status.active = true) :
    shown ((hitAlert channels a rule t).alone m) =
      (LarkPlat.hitAlert m.db a rule t).map fun r => (r.2, r.1) := by
  rw [hitAlert, LarkPlat.hitAlert, map_bind]
  set b := a.stamp (a.hitCount + 1) t.now with hb
  have hst : b.status = a.status := rfl
  dsimp only
  cases hst' : b.status with
  | pending =>
      rw [hst] at hst'
      dsimp only
      by_cases hdue : rule.conditionDurationSeconds ≤ t.now - b.pendingSince.getD b.createdAt
      · simp only [if_pos hdue]
        rw [alone_fireAlert_stamp _ _ _ h hst']
        refine shown_update m _ _ fun db' => ?_
        rw [map_bind]
        exact (does_fireAlert _ _ _ _).shown_bind _ fun _ _ => rfl
      · simp only [if_neg hdue]
        refine shown_update m _ _ fun db' => ?_
        rw [alone_logEvent]
        rfl
  | firing | acknowledged =>
      dsimp only
      rw [alone_hitFiring_stamp _ _ _ h hact]
      exact shown_update m _ _ fun db' => does_hitFiring _ _ _ _ _
  | resolved => exact shown_update m _ _ fun db' => rfl

/-! ### The calls alone -/

variable (py : PyText) (order : RuleOrder) (readings : ℕ → Readings)

theorem alone_insert (row : ℕ → MonAlert) {k : ℕ → AlertProg β}
    {h : MonDb → Except PyErr (β × MonDb)}
    (hk : ∀ db', shown ((k m.db.nextAlert).alone { m with db := db' }) = h db') :
    shown (alone (Prog.issue (.insert row) >>= k) m) = m.db.insert row >>= h := by
  change shown ((serve _ _ m).bind _) = _
  rw [serve]
  cases m.db.insert row with
  | error e => rfl
  | ok db' => exact hk db'

theorem alone_evaluateRule {m : Monitor} (hv : m.db.Valid) :
    shown ((evaluateRule channels py rule event t).alone m) =
      (LarkPlat.evaluateRule py m.db rule event t).map fun r => (r.2, r.1) := by
  rw [evaluateRule, LarkPlat.evaluateRule, alone_tables]
  dsimp only
  split_ifs with hp hc
  · rfl
  · cases m.db.activeByRuleEntity rule.id event.entityId with
    | none => rfl
    | some a =>
        dsimp only
        rw [map_bind]
        exact (does_resolveAlertEngine _ _ _).shown_bind m fun _ _ => rfl
  · cases hact : m.db.activeByRuleEntity rule.id event.entityId with
    | some a =>
        obtain ⟨hmem, -, hst⟩ := MonDb.activeByRuleEntity_some hact
        exact alone_hitAlert _ _ _ ⟨hv, (MonDb.mem_ofRule.mp hmem).1⟩ hst
    | none =>
        dsimp only
        rw [map_bind]
        refine (does_tryConverge _ _ _).shown_bind m fun reopened m' => ?_
        cases reopened with
        | some a => rfl
        | none =>
            dsimp only
            rw [map_bind]
            exact alone_insert m' _ fun db' => rfl

theorem alone_evaluateRules (rules : List MonRule) {m : Monitor} (hv : m.db.Valid) :
    shown ((evaluateRules channels py event readings rules).alone m) =
      (LarkPlat.evaluateRules py event readings rules m.db).map fun r => (r.2, r.1) := by
  induction rules generalizing m with
  | nil => rfl
  | cons rule rest ih =>
      rw [evaluateRules, LarkPlat.evaluateRules, map_bind]
      obtain ⟨db', out, heval, hstep, -⟩ := evaluateRule_step py hv rule event (readings rule.id)
      have hfirst := alone_evaluateRule channels rule event (readings rule.id) py hv
      rw [heval] at hfirst ⊢
      have hrest : ∀ m', Except.ok (out, db') = Except.ok (ε := PyErr) (out, m'.db) →
          shown ((do let outs ← evaluateRules channels py event readings rest
                     pure (out ++ outs) : AlertProg _).alone m') =
            (LarkPlat.evaluateRules py event readings rest m'.db).map fun x =>
              (out ++ x.2, x.1) := by
        intro m' hm'
        have hdb : db' = m'.db := congrArg Prod.snd (Except.ok.inj hm')
        refine (shown_bind m' (ih (hdb ▸ hstep.valid)) (h := fun x => .ok (out ++ x.1, x.2))
          fun _ _ _ => rfl).trans ?_
        cases LarkPlat.evaluateRules py event readings rest m'.db <;> rfl
      refine (shown_bind m hfirst (h := fun x =>
        (LarkPlat.evaluateRules py event readings rest x.2).map fun y => (x.1 ++ y.2, y.1))
        fun out' m' hm' => ?_).trans ?_
      · obtain rfl : out = out' := congrArg Prod.fst (Except.ok.inj hm')
        exact hrest m' hm'
      · change (LarkPlat.evaluateRules py event readings rest db').map _ =
          (LarkPlat.evaluateRules py event readings rest db' >>= _).map _
        cases LarkPlat.evaluateRules py event readings rest db' <;> rfl

/-- **`evaluate_event` alone.** -/
theorem evaluateEvent_alone {m : Monitor} (hv : m.db.Valid) :
    shown ((evaluateEvent channels py order readings event).alone m) =
      (LarkPlat.evaluateEvent py order readings m.db event).map fun r => (r.2, r.1) :=
  alone_evaluateRules channels event py readings _ hv

variable (env : SweepEnv)

theorem does_sweepAlert :
    Does (sweepAlert channels env a) fun db =>
      (LarkPlat.sweepAlert env db a).map fun db => ((), db) := by
  intro m
  change _ = (LarkPlat.sweepAlert env m.db a).map fun db => ((), db)
  rw [sweepAlert, LarkPlat.sweepAlert, alone_tables]
  cases (a.ruleId.filter (· ≠ 0)).bind m.db.rule? with
  | none => rfl
  | some rule =>
      dsimp only
      split_ifs
      · rfl
      · rw [map_bind]
        exact (does_fireAlert _ _ _ _).shown_bind m fun _ _ => rfl
      · rfl
      · rw [map_bind]
        exact (does_maybeEscalate _ _ _ _).shown_bind m fun _ _ => rfl

theorem does_sweepAlerts (rows : List MonAlert) :
    Does (sweepAlerts channels env rows) fun db =>
      (LarkPlat.sweepAlerts env rows db).map fun db => ((), db) := by
  induction rows with
  | nil => exact fun _ => rfl
  | cons a rest ih =>
      intro m
      change _ = (LarkPlat.sweepAlerts env (a :: rest) m.db).map fun db => ((), db)
      rw [sweepAlerts, LarkPlat.sweepAlerts, map_bind]
      refine ((does_sweepAlert channels a env).shown_bind m
        (h := fun x => (LarkPlat.sweepAlerts env rest x.2).map fun db => ((), db))
        fun _ m' => ih m').trans ?_
      cases LarkPlat.sweepAlert env m.db a <;> rfl

/-- **`sweep_active_alerts` alone.** -/
theorem sweepActiveAlerts_alone :
    Does (sweepActiveAlerts channels env) fun db =>
      (LarkPlat.sweepActiveAlerts env db).map fun db => ((), db) := by
  intro m
  change _ = (LarkPlat.sweepActiveAlerts env m.db).map fun db => ((), db)
  rw [sweepActiveAlerts, LarkPlat.sweepActiveAlerts]
  split_ifs with hdue
  · rw [alone_tables]
    refine ((does_sweepAlerts channels env (m.db.activeAlerts 500)).shown_bind m
      (h := .ok) fun _ _ => rfl).trans ?_
    cases LarkPlat.sweepAlerts env (m.db.activeAlerts 500) m.db <;> rfl
  · rfl

/-! ### The calls of users alone -/

variable (user : Actor) (visible : Option (List String)) (alertId : ℕ)

theorem shown_onAlert (code : String) {call : MonAlert → AlertProg Unit}
    {f : MonAlert → Except PyErr MonDb}
    (hcall : ∀ a, shown ((call a).alone m) = (f a).map fun db => ((), db)) :
    shown ((onAlert user code visible alertId call).alone m) =
      ((user.requirePerm code >>= fun _ =>
        match (m.db.alert? alertId).filter (entityInScope visible) with
        | none => .error (.notFound "alert not found")
        | some a => f a).map fun db => ((), db)) := by
  rw [onAlert, requirePerm]
  cases user.requirePerm code with
  | error e => rfl
  | ok _ =>
      change shown ((tables >>= _ : AlertProg Unit).alone m) = _
      rw [alone_tables]
      cases (m.db.alert? alertId).filter (entityInScope visible) with
      | none => rfl
      | some a => exact hcall a

/-- **`acknowledge_alert` alone.** -/
theorem acknowledgeAlert_alone :
    Does (acknowledgeAlert user visible t alertId) fun db =>
      (LarkPlat.acknowledgeAlert user visible t db alertId).map fun db => ((), db) := by
  intro m
  refine (shown_onAlert m user visible alertId _ fun a => ?_).trans rfl
  rw [acknowledge]
  split_ifs with hst
  · rfl
  refine ((does_optimisticUpdate _ _ _ _ _).shown_bind m fun ok m' => ?_).trans (map_bind _ _ _).symm
  cases ok with
  | false => rfl
  | true =>
      refine (shown_update m' _ _ (h := fun db => .ok ((), db.logEvent a .acknowledge
        (some .firing) .acknowledged a.severity t.logged)) fun db' => ?_).trans ?_
      · rw [alone_logEvent]
        rfl
      · change _ = (m'.db.update a.id _ >>= _).map _
        rw [map_bind]
        rfl

/-- **`resolve_alert` alone.** -/
theorem resolveAlert_alone :
    Does (resolveAlert user visible t alertId) fun db =>
      (LarkPlat.resolveAlert user visible t db alertId).map fun db => ((), db) := by
  intro m
  refine (shown_onAlert m user visible alertId _ fun a => ?_).trans rfl
  rw [resolve]
  split_ifs with hst
  · rfl
  rw [map_bind, LarkPlat.resolveAlertEngine, if_neg hst, bind_assoc]
  refine (does_optimisticUpdate _ _ _ _ _).shown_bind m fun ok m' => ?_
  cases ok with
  | false => rfl
  | true =>
      refine (shown_update m' _ _ (h := fun db => .ok ((), db.logEvent a .resolve
        (some a.status) .resolved a.severity t.logged)) fun db' => ?_).trans ?_
      · rw [alone_logEvent]
        rfl
      · dsimp only
        rw [if_pos rfl]
        cases m'.db.update a.id _ <;> rfl

end AlertProg

end LarkPlat
