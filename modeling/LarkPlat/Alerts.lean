import LarkPlat.Terminals

/-!
# The Alert Engine

Rules, events and alerts of the monitor, and the calls that open, move and close alerts:
`evaluate_event` runs one event through every enabled rule, `sweep_active_alerts` moves alerts by
the clock, `acknowledge_alert` and `resolve_alert` are the calls of users, and the rules are
created, edited, disabled and deleted in between.

Every statement on the alerts is checked against the partial unique index
`uq_mon_alert_active_rule_entity`: one that leaves two active alerts with one rule and one entity
fails with an integrity error, and so does the call that issued it. What is only shown or sent to
users (names, last values, remarks, the text of notifications) is left out.
-/

namespace LarkPlat

/-! ### Numbers -/

/-- A number of Python, of either type. -/
inductive Num where
  | finite (q : ℚ)
  | posInf
  | negInf
  | nan
  deriving DecidableEq, Repr

namespace Num

/-- `==`. -/
def eq : Num → Num → Bool
  | finite a, finite b => decide (a = b)
  | posInf, posInf => true
  | negInf, negInf => true
  | _, _ => false

/-- `<`. -/
def lt : Num → Num → Bool
  | finite a, finite b => decide (a < b)
  | negInf, finite _ => true
  | negInf, posInf => true
  | finite _, posInf => true
  | _, _ => false

/-- `<=`. -/
def le (a b : Num) : Bool := lt a b || eq a b

end Num

/-! ### Rows -/

/-- `mon_rule`. -/
structure MonRule where
  id : ℕ
  enabled : ℤ
  deleted : Bool
  eventSource : Option String
  eventKind : String
  metricName : Option String
  conditionOperator : String
  conditionThreshold : Num
  conditionDurationSeconds : ℤ
  scopeType : Option String
  scopeIds : List String
  level : String
  cooldownSeconds : ℤ
  convergeSec : ℤ
  escalationEnabled : ℤ
  escalationAfterSeconds : Option ℤ
  escalateLevels : List String
  deriving DecidableEq

/-- `mon_alert.status`. -/
inductive AlertStatus where
  | pending
  | firing
  | acknowledged
  | resolved
  deriving DecidableEq, Repr

namespace AlertStatus

/-- The text of a status. -/
def text : AlertStatus → String
  | pending => "pending"
  | firing => "firing"
  | acknowledged => "acknowledged"
  | resolved => "resolved"

/-- The statuses of the partial index. -/
def active : AlertStatus → Bool
  | resolved => false
  | _ => true

end AlertStatus

/-- `mon_alert`; `entityId` is the text of `entity ->> 'entity_id'`. -/
structure MonAlert where
  id : ℕ
  ruleId : Option ℕ
  entityId : Option String
  status : AlertStatus
  severity : String
  hitCount : ℕ
  firedAt : Option ℚ
  resolvedAt : Option ℚ
  lastEventAt : Option ℚ
  pendingSince : Option ℚ
  createdAt : ℚ
  version : ℕ
  deriving DecidableEq

/-- The key of an alert in the partial unique index, if the index holds it. A key with a null in
it is never equal to another one. -/
def MonAlert.activeKey (a : MonAlert) : Option (ℕ × String) :=
  if a.status.active then a.ruleId.bind fun r => a.entityId.map fun e => (r, e) else none

/-- `mon_alert_event_log.action`. -/
inductive AlertAction where
  | fire
  | acknowledge
  | escalate
  | resolve
  | suppress
  deriving DecidableEq, Repr

/-- `mon_alert_event_log`. -/
structure AlertLog where
  alertId : ℕ
  action : AlertAction
  fromStatus : Option AlertStatus
  toStatus : AlertStatus
  severity : String
  time : ℚ
  deriving DecidableEq

/-- The tables of the monitor. -/
structure MonDb where
  rules : List MonRule
  alerts : List MonAlert
  log : List AlertLog
  nextRule : ℕ
  nextAlert : ℕ

/-! ### Statements -/

namespace MonDb

/-- The partial unique index `uq_mon_alert_active_rule_entity`. -/
def indexed (alerts : List MonAlert) : Prop := (alerts.filterMap MonAlert.activeKey).Nodup

instance (alerts : List MonAlert) : Decidable (indexed alerts) :=
  inferInstanceAs (Decidable (List.Nodup _))

/-- A statement on the alerts; it fails if the index does not hold afterwards. -/
def write (db : MonDb) (alerts : List MonAlert) : Except PyErr MonDb :=
  if indexed alerts then .ok { db with alerts := alerts } else .error .integrityError

/-- The update of one alert by its identifier. -/
def update (db : MonDb) (id : ℕ) (f : MonAlert → MonAlert) : Except PyErr MonDb :=
  db.write (Table.modify MonAlert.id db.alerts id f)

/-- The insert of an alert, with the identifier that it gets. -/
def insert (db : MonDb) (a : ℕ → MonAlert) : Except PyErr MonDb := do
  let db' ← db.write (db.alerts ++ [a db.nextAlert])
  pure { db' with nextAlert := db.nextAlert + 1 }

/-- `MonAlertRepository.optimistic_update`. -/
def optimisticUpdate (db : MonDb) (id : ℕ) (old new : AlertStatus) (version : ℕ)
    (fields : MonAlert → MonAlert) : Except PyErr (Bool × MonDb) := do
  if db.alerts.any fun a => decide (a.id = id ∧ a.status = old ∧ a.version = version) then
    let db' ← db.update id fun a =>
      if a.status = old ∧ a.version = version then
        { fields a with status := new, version := version + 1 }
      else a
    pure (true, db')
  else pure (false, db)

/-- `BaseRepository.get` of an alert. -/
def alert? (db : MonDb) (id : ℕ) : Option MonAlert := Table.find MonAlert.id db.alerts id

/-- `BaseRepository.get` of a rule. -/
def rule? (db : MonDb) (id : ℕ) : Option MonRule := Table.find MonRule.id db.rules id

/-- `MonRuleRepository.enabled_rules`. -/
def enabledRules (db : MonDb) : List MonRule :=
  db.rules.filter fun r => !r.deleted && decide (r.enabled = 1)

/-- The last row under the order of the identifiers. -/
def newest (rows : List MonAlert) : Option MonAlert :=
  rows.foldl (fun best a =>
    match best with
    | none => some a
    | some b => if b.id < a.id then some a else some b) none

/-- `MonAlertRepository.active_by_rule_entity`. -/
def activeByRuleEntity (db : MonDb) (ruleId : ℕ) (entityId : String) : Option MonAlert :=
  newest (db.alerts.filter fun a =>
    decide (a.ruleId = some ruleId ∧ a.entityId = some entityId) && a.status.active)

/-- `MonAlertRepository.recently_resolved`, at the time `now`. -/
def recentlyResolved (db : MonDb) (ruleId : ℕ) (entityId : String) (windowSec : ℤ) (now : ℚ) :
    Option MonAlert :=
  newest (db.alerts.filter fun a =>
    decide (a.ruleId = some ruleId ∧ a.entityId = some entityId ∧ a.status = .resolved) &&
      a.resolvedAt.any fun t => decide (now - max windowSec 0 ≤ t))

/-- `MonAlertRepository.active`, in the order of the identifiers. -/
def activeAlerts (db : MonDb) (limit : ℕ) : List MonAlert :=
  ((db.alerts.filter fun a => a.status.active).mergeSort fun a b => decide (a.id ≤ b.id)).take limit

/-- Append to the event log. -/
def logEvent (db : MonDb) (a : MonAlert) (action : AlertAction) (fromStatus : Option AlertStatus)
    (toStatus : AlertStatus) (severity : String) (time : ℚ) : MonDb :=
  { db with log := db.log ++ [⟨a.id, action, fromStatus, toStatus, severity, time⟩] }

end MonDb

/-! ### Events and conditions -/

/-- The value of an event: absent, a number (a boolean is one), or something else, with what
`float(str(value))` makes of it. -/
inductive EventValue where
  | absent
  | number (x : Num)
  | other (parsed : Option Num)
  deriving DecidableEq

/-- A normalized event with a string as its entity identifier. -/
structure MonEvent where
  source : Option String
  kind : Option String
  entityId : String
  value : EventValue
  severity : Option String
  labelMetricName : Option String
  labelName : Option String
  metricName : Option String
  name : Option String

/-- The string methods that the engine uses. -/
structure PyText where
  strip : String → String
  lower : String → String

/-- A text that is present and not empty. -/
def given (text : Option String) : Option String := text.filter (· ≠ "")

/-- `_resolve_metric_name`. -/
def resolveMetricName (py : PyText) (event : MonEvent) : Option String :=
  let named := (given event.labelMetricName).or ((given event.labelName).or
    ((given event.metricName).or (given event.name)))
  (named.map py.strip).filter fun name => decide (name ≠ "" ∧ py.lower name ≠ "unknown")

/-- `_check_condition`; a comparison with a missing value raises a `TypeError`, which is caught. -/
def checkCondition (rule : MonRule) (value : Option Num) : Bool :=
  match rule.conditionOperator, value with
  | "==", some v => v.eq rule.conditionThreshold
  | "!=", some v => !v.eq rule.conditionThreshold
  | "!=", none => true
  | ">", some v => Num.lt rule.conditionThreshold v
  | "<", some v => v.lt rule.conditionThreshold
  | ">=", some v => Num.le rule.conditionThreshold v
  | "<=", some v => v.le rule.conditionThreshold
  | _, _ => false

/-- `_condition_met`. -/
def conditionMet (rule : MonRule) (event : MonEvent) : Bool :=
  match event.value with
  | .absent => true
  | .number x => checkCondition rule (some x)
  | .other parsed => checkCondition rule parsed

/-- `_rule_pertains`. -/
def rulePertains (py : PyText) (rule : MonRule) (event : MonEvent) : Bool :=
  decide (event.kind = some rule.eventKind) &&
    (given rule.eventSource).all (fun source => decide (event.source = some source)) &&
    (decide (rule.eventKind ≠ "metric") || (given rule.metricName).all fun name =>
      decide ((resolveMetricName py event).getD "" = name)) &&
    (decide (given rule.scopeType = none) || rule.scopeIds.isEmpty ||
      decide (event.entityId ∈ rule.scopeIds))

/-! ### The engine -/

/-- The clock readings of the calls on one alert or one rule. -/
structure Readings where
  /-- Of the loop body. -/
  now : ℚ
  /-- Of `recently_resolved`. -/
  cutoff : ℚ
  /-- Of `_try_converge`. -/
  reopened : ℚ
  /-- The two of a resolution: in its update, and on the row. -/
  closed : ℚ
  closedRow : ℚ
  /-- Of `_maybe_notify` and of `_maybe_escalate`. -/
  notified : ℚ
  escalated : ℚ
  /-- The time of the transaction, which the event log records. -/
  logged : ℚ

/-- What `evaluate_event` reports of one rule. -/
inductive RuleAction where
  | log (action : AlertAction)
  | converge
  deriving DecidableEq, Repr

/-- An entry of the list that `evaluate_event` returns. -/
structure Outcome where
  ruleId : ℕ
  action : RuleAction
  toStatus : Option AlertStatus
  deriving DecidableEq, Repr

namespace MonAlert

/-- What a resolution writes through the row. -/
def setResolved (version : ℕ) (time : ℚ) (x : MonAlert) : MonAlert :=
  { x with version := version, status := .resolved, resolvedAt := some time }

/-- What a reopening writes through the row. -/
def setReopened (version hitCount : ℕ) (time : ℚ) (x : MonAlert) : MonAlert :=
  { x with
    version := version
    status := .pending
    resolvedAt := none
    firedAt := none
    pendingSince := some time
    lastEventAt := some time
    hitCount := hitCount }

/-- What a firing writes through the row. -/
def setFiring (version : ℕ) (time : ℚ) (x : MonAlert) : MonAlert :=
  { x with version := version, status := .firing, firedAt := some time }

/-- What every hit writes on an active alert. -/
def stamp (hitCount : ℕ) (time : ℚ) (x : MonAlert) : MonAlert :=
  { x with lastEventAt := some time, hitCount := hitCount }

end MonAlert

/-- `_resolve_alert_engine`. -/
def resolveAlertEngine (db : MonDb) (a : MonAlert) (t : Readings) :
    Except PyErr (Bool × MonDb) := do
  if a.status = .resolved then pure (false, db)
  else
    let (ok, db) ← db.optimisticUpdate a.id a.status .resolved a.version fun x =>
      { x with resolvedAt := some t.closed }
    if ok then
      let db ← db.update a.id (MonAlert.setResolved (a.version + 1) t.closedRow)
      pure (true, db.logEvent a .resolve (some a.status) .resolved a.severity t.logged)
    else pure (false, db)

/-- `_try_converge`: the alert that was reopened. -/
def tryConverge (db : MonDb) (rule : MonRule) (event : MonEvent) (t : Readings) :
    Except PyErr (Option MonAlert × MonDb) := do
  if rule.convergeSec ≤ 0 then pure (none, db)
  else
    match db.recentlyResolved rule.id event.entityId rule.convergeSec t.cutoff with
    | none => pure (none, db)
    | some recent =>
        let (ok, db) ← db.optimisticUpdate recent.id .resolved .pending recent.version fun x =>
          { x with resolvedAt := none, firedAt := none }
        if ok then
          let set := MonAlert.setReopened (recent.version + 1) (recent.hitCount + 1) t.reopened
          let db ← db.update recent.id set
          pure (some (set recent),
            db.logEvent recent .fire (some .resolved) .pending recent.severity t.logged)
        else pure (none, db)

/-- `_maybe_notify`: whether the notification is sent or suppressed. -/
def maybeNotify (db : MonDb) (a : MonAlert) (rule : MonRule) (t : Readings) : AlertAction × MonDb :=
  let sends := (db.log.filter fun e => decide (e.alertId = a.id ∧ e.action = .fire)).map (·.time)
  match sends.max? with
  | some last =>
      if 0 < max rule.cooldownSeconds 0 ∧ t.notified - last < max rule.cooldownSeconds 0 then
        (.suppress, db.logEvent a .suppress (some a.status) a.status a.severity t.logged)
      else (.fire, db)
  | none => (.fire, db)

/-- The place in the escalation path after a severity; one outside it starts at the first level. -/
def nextLevel (levels : List String) (severity : String) : ℕ :=
  if severity ∈ levels then levels.idxOf severity + 1 else 0

/-- `_maybe_escalate`. -/
def maybeEscalate (db : MonDb) (a : MonAlert) (rule : MonRule) (t : Readings) :
    Except PyErr (Bool × MonDb) := do
  match a.firedAt with
  | none => pure (false, db)
  | some fired =>
      let after := rule.escalationAfterSeconds.getD 0
      if rule.escalationEnabled = 0 ∨ after ≤ 0 then pure (false, db)
      else
        let next := nextLevel rule.escalateLevels a.severity
        match rule.escalateLevels[next]? with
        | none => pure (false, db)
        | some target =>
            if t.escalated - fired < after * (next + 1) then pure (false, db)
            else
              let db ← db.update a.id fun x => { x with severity := target }
              pure (true, db.logEvent a .escalate (some a.status) a.status target t.logged)

/-- The move of an active alert from `pending` to `firing`. -/
def fireAlert (db : MonDb) (a : MonAlert) (rule : MonRule) (t : Readings) :
    Except PyErr (Option AlertAction × MonDb) := do
  let (ok, db) ← db.optimisticUpdate a.id .pending .firing a.version fun x =>
    { x with firedAt := some t.now }
  if ok then
    let set := MonAlert.setFiring (a.version + 1) t.now
    let fired := set a
    let db ← db.update a.id set
    let db := db.logEvent fired .fire (some .pending) .firing fired.severity t.logged
    let (action, db) := maybeNotify db fired rule t
    pure (some action, db)
  else pure (none, db)

/-- What `evaluate_event` sends for an alert that fires already. -/
def remind (db : MonDb) (a : MonAlert) (rule : MonRule) (t : Readings) :
    Except PyErr (MonDb × List Outcome) := do
  let (action, db) := maybeNotify db a rule t
  let (escalated, db) ← maybeEscalate db a rule t
  pure (db, [⟨rule.id, .log (if escalated then .escalate else action), some a.status⟩])

/-- The part of `evaluate_event` for an alert that fires already; its guarded update counts the
version only. -/
def hitFiring (db : MonDb) (a : MonAlert) (rule : MonRule) (t : Readings) :
    Except PyErr (MonDb × List Outcome) := do
  let (ok, db) ← db.optimisticUpdate a.id a.status a.status a.version id
  if ok then
    let db ← db.update a.id fun x => { x with version := a.version + 1 }
    remind db { a with version := a.version + 1 } rule t
  else remind db a rule t

/-- The part of `evaluate_event` for an active alert that is hit again. -/
def hitAlert (db : MonDb) (a : MonAlert) (rule : MonRule) (t : Readings) :
    Except PyErr (MonDb × List Outcome) := do
  let db ← db.update a.id (MonAlert.stamp (a.hitCount + 1) t.now)
  let a := a.stamp (a.hitCount + 1) t.now
  match a.status with
  | .pending =>
      if rule.conditionDurationSeconds ≤ t.now - a.pendingSince.getD a.createdAt then
        let (action, db) ← fireAlert db a rule t
        pure (db, (action.map fun action => ⟨rule.id, .log action, some .firing⟩).toList)
      else
        pure (db.logEvent a .suppress (some .pending) .pending a.severity t.logged,
          [⟨rule.id, .log .suppress, none⟩])
  | .firing | .acknowledged => hitFiring db a rule t
  | .resolved => pure (db, [])

/-- The alert that a first hit creates. -/
def newAlert (rule : MonRule) (event : MonEvent) (t : Readings) (id : ℕ) : MonAlert where
  id := id
  ruleId := some rule.id
  entityId := some event.entityId
  status := .pending
  severity := (given (some rule.level)).getD ((given event.severity).getD "warning")
  hitCount := 1
  firedAt := none
  resolvedAt := none
  lastEventAt := some t.now
  pendingSince := some t.now
  createdAt := t.logged
  version := 0

/-- The body of the loop of `evaluate_event`. -/
def evaluateRule (py : PyText) (db : MonDb) (rule : MonRule) (event : MonEvent) (t : Readings) :
    Except PyErr (MonDb × List Outcome) := do
  let alert := db.activeByRuleEntity rule.id event.entityId
  if !rulePertains py rule event then pure (db, [])
  else if !conditionMet rule event then
    match alert with
    | none => pure (db, [])
    | some a =>
        let (_, db) ← resolveAlertEngine db a t
        pure (db, [⟨rule.id, .log .resolve, none⟩])
  else
    match alert with
    | some a => hitAlert db a rule t
    | none =>
        let (reopened, db) ← tryConverge db rule event t
        match reopened with
        | some a => pure (db, [⟨rule.id, .converge, some a.status⟩])
        | none =>
            let a := newAlert rule event t db.nextAlert
            let db ← db.insert (newAlert rule event t)
            pure (db.logEvent a .fire none .pending a.severity t.logged,
              [⟨rule.id, .log .fire, some .pending⟩])

/-- The loop of `evaluate_event` over the enabled rules. -/
def evaluateRules (py : PyText) (event : MonEvent) (readings : ℕ → Readings) :
    List MonRule → MonDb → Except PyErr (MonDb × List Outcome)
  | [], db => pure (db, [])
  | rule :: rest, db => do
      let (db, out) ← evaluateRule py db rule event (readings rule.id)
      let (db, outs) ← evaluateRules py event readings rest db
      pure (db, out ++ outs)

/-- An order in which the database may return the rules. -/
structure RuleOrder where
  rules : List MonRule → List MonRule
  perm : ∀ l, (rules l).Perm l

/-- `evaluate_event`. -/
def evaluateEvent (py : PyText) (order : RuleOrder) (readings : ℕ → Readings) (db : MonDb)
    (event : MonEvent) : Except PyErr (MonDb × List Outcome) :=
  evaluateRules py event readings (order.rules db.enabledRules) db

/-! ### The sweep -/

/-- What a sweep meets: the feature flag, whether it is due, the configured freshness, its clock
reading and those for each alert. -/
structure SweepEnv where
  featureEnabled : Bool
  due : Bool
  freshness : ℤ
  now : ℚ
  readings : ℕ → Readings

/-- `_is_stale`. -/
def isStale (a : MonAlert) (now : ℚ) (freshness : ℤ) : Bool :=
  a.lastEventAt.any fun last => decide (freshness < now - last)

/-- The body of the loop of `sweep_active_alerts`. -/
def sweepAlert (env : SweepEnv) (db : MonDb) (a : MonAlert) : Except PyErr MonDb := do
  match (a.ruleId.filter (· ≠ 0)).bind db.rule? with
  | none => pure db
  | some rule =>
      if rule.deleted ∨ rule.enabled = 0 ∨ isStale a env.now env.freshness then pure db
      else if a.status = .pending then
        if rule.conditionDurationSeconds ≤ env.now - a.pendingSince.getD a.createdAt then
          let (_, db) ← fireAlert db a rule { env.readings a.id with now := env.now }
          pure db
        else pure db
      else
        let (_, db) ← maybeEscalate db a rule (env.readings a.id)
        pure db

/-- The loop of `sweep_active_alerts`. -/
def sweepAlerts (env : SweepEnv) : List MonAlert → MonDb → Except PyErr MonDb
  | [], db => pure db
  | a :: rest, db => do
      let db ← sweepAlert env db a
      sweepAlerts env rest db

/-- `sweep_active_alerts`. -/
def sweepActiveAlerts (env : SweepEnv) (db : MonDb) : Except PyErr MonDb :=
  if env.featureEnabled ∧ env.due then sweepAlerts env (db.activeAlerts 500) db else pure db

/-! ### The calls of users -/

/-- `_entity_in_scope`. -/
def entityInScope (visible : Option (List String)) (a : MonAlert) : Bool :=
  visible.all fun ids => decide (a.entityId.getD "None" ∈ ids)

/-- `acknowledge_alert`. -/
def acknowledgeAlert (user : Actor) (visible : Option (List String)) (t : Readings) (db : MonDb)
    (alertId : ℕ) : Except PyErr MonDb := do
  user.requirePerm "monitor:alert:ack"
  match (db.alert? alertId).filter (entityInScope visible) with
  | none => throw (.notFound "alert not found")
  | some a =>
      if a.status ≠ .firing then
        throw (.badRequest ("alert not firing (status=" ++ a.status.text ++ ")"))
      let (ok, db) ← db.optimisticUpdate a.id .firing .acknowledged a.version id
      if !ok then throw (.forbidden "alert changed concurrently")
      let db ← db.update a.id fun x =>
        { x with version := a.version + 1, status := .acknowledged }
      pure (db.logEvent a .acknowledge (some .firing) .acknowledged a.severity t.logged)

/-- `resolve_alert`. -/
def resolveAlert (user : Actor) (visible : Option (List String)) (t : Readings) (db : MonDb)
    (alertId : ℕ) : Except PyErr MonDb := do
  user.requirePerm "monitor:alert:resolve"
  match (db.alert? alertId).filter (entityInScope visible) with
  | none => throw (.notFound "alert not found")
  | some a =>
      if a.status = .resolved then
        throw (.badRequest ("alert already resolved (status=" ++ a.status.text ++ ")"))
      let (ok, db) ← resolveAlertEngine db a t
      if !ok then throw (.forbidden "alert changed concurrently")
      pure db

/-! ### The rules -/

/-- `_VALID_OPS`. -/
def validOps : List String := [">", "<", ">=", "<=", "==", "!="]

/-- `create_rule`; the identifier of `data` is not read. -/
def createRule (user : Actor) (featureEnabled : Bool) (data : MonRule) (db : MonDb) :
    Except PyErr MonDb := do
  user.requirePerm "monitor:rule:add"
  if !featureEnabled then throw (.badRequest "monitor feature disabled")
  if data.conditionOperator ∉ validOps then
    throw (.badRequest ("invalid operator: " ++ data.conditionOperator))
  pure { db with
    rules := db.rules ++ [{ data with id := db.nextRule, deleted := false }]
    nextRule := db.nextRule + 1 }

/-- The body of an edit of a rule: a field that is given is set. -/
structure MonRuleUpdate where
  enabled : Option ℤ
  eventSource : Option String
  eventKind : Option String
  metricName : Option String
  conditionOperator : Option String
  conditionThreshold : Option Num
  conditionDurationSeconds : Option ℤ
  cooldownSeconds : Option ℤ
  scopeType : Option String
  level : Option String
  convergeSec : Option ℤ
  escalationEnabled : Option ℤ
  escalationAfterSeconds : Option ℤ
  scopeIds : Option (List String)
  escalateLevels : Option (List String)

/-- The fields of an edit, set on a rule. -/
def MonRuleUpdate.set (data : MonRuleUpdate) (rule : MonRule) : MonRule :=
  { rule with
    enabled := data.enabled.getD rule.enabled
    eventSource := data.eventSource.or rule.eventSource
    eventKind := data.eventKind.getD rule.eventKind
    metricName := data.metricName.or rule.metricName
    conditionOperator := data.conditionOperator.getD rule.conditionOperator
    conditionThreshold := data.conditionThreshold.getD rule.conditionThreshold
    conditionDurationSeconds := data.conditionDurationSeconds.getD rule.conditionDurationSeconds
    cooldownSeconds := data.cooldownSeconds.getD rule.cooldownSeconds
    scopeType := data.scopeType.or rule.scopeType
    level := data.level.getD rule.level
    convergeSec := data.convergeSec.getD rule.convergeSec
    escalationEnabled := data.escalationEnabled.getD rule.escalationEnabled
    escalationAfterSeconds := data.escalationAfterSeconds.or rule.escalationAfterSeconds
    scopeIds := data.scopeIds.getD rule.scopeIds
    escalateLevels := data.escalateLevels.getD rule.escalateLevels }

/-- The three calls that change a rule that is not deleted. -/
def changeRule (user : Actor) (perm : String) (ruleId : ℕ) (set : MonRule → MonRule) (db : MonDb) :
    Except PyErr MonDb := do
  user.requirePerm perm
  match (db.rule? ruleId).filter fun rule => !rule.deleted with
  | none => throw (.notFound "rule not found")
  | some _ => pure { db with rules := Table.modify MonRule.id db.rules ruleId set }

/-- `update_rule`. -/
def updateRule (user : Actor) (ruleId : ℕ) (data : MonRuleUpdate) (db : MonDb) :
    Except PyErr MonDb :=
  changeRule user "monitor:rule:edit" ruleId data.set db

/-- `delete_rule`. -/
def deleteRule (user : Actor) (ruleId : ℕ) (db : MonDb) : Except PyErr MonDb :=
  changeRule user "monitor:rule:del" ruleId (fun rule => { rule with deleted := true }) db

/-- `set_rule_status`. -/
def setRuleStatus (user : Actor) (ruleId : ℕ) (enabled : ℤ) (db : MonDb) : Except PyErr MonDb :=
  changeRule user "monitor:rule:status" ruleId (fun rule => { rule with enabled := enabled }) db

/-! ### Complete calls -/

/-- A call, with what it meets. -/
inductive MonOp where
  | evaluateEvent (py : PyText) (order : RuleOrder) (readings : ℕ → Readings) (event : MonEvent)
  | sweepActiveAlerts (env : SweepEnv)
  | acknowledgeAlert (user : Actor) (visible : Option (List String)) (t : Readings) (alertId : ℕ)
  | resolveAlert (user : Actor) (visible : Option (List String)) (t : Readings) (alertId : ℕ)
  | createRule (user : Actor) (featureEnabled : Bool) (data : MonRule)
  | updateRule (user : Actor) (ruleId : ℕ) (data : MonRuleUpdate)
  | deleteRule (user : Actor) (ruleId : ℕ)
  | setRuleStatus (user : Actor) (ruleId : ℕ) (enabled : ℤ)

namespace MonDb

/-- The call, up to its commit. -/
def exec (db : MonDb) : MonOp → Except PyErr MonDb
  | .evaluateEvent py order readings event =>
      (LarkPlat.evaluateEvent py order readings db event).map Prod.fst
  | .sweepActiveAlerts env => LarkPlat.sweepActiveAlerts env db
  | .acknowledgeAlert user visible t alertId =>
      LarkPlat.acknowledgeAlert user visible t db alertId
  | .resolveAlert user visible t alertId => LarkPlat.resolveAlert user visible t db alertId
  | .createRule user featureEnabled data => LarkPlat.createRule user featureEnabled data db
  | .updateRule user ruleId data => LarkPlat.updateRule user ruleId data db
  | .deleteRule user ruleId => LarkPlat.deleteRule user ruleId db
  | .setRuleStatus user ruleId enabled => LarkPlat.setRuleStatus user ruleId enabled db

/-- The tables after a call; one that raises is rolled back. -/
def apply (db : MonDb) (op : MonOp) : MonDb :=
  match db.exec op with
  | .ok db' => db'
  | .error _ => db

end MonDb

end LarkPlat
