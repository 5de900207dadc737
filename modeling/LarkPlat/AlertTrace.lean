import LarkPlat.AlertPrograms

/-!
# The Alert Event Log as a Trace

Each place of the engine that changes the status of an alert is a guarded update, the assignments to
the row, and an entry of the event log. Whatever the objects are that its session has loaded, a
program of the monitor logs the change before it does anything but write the row again: it obeys
`settling AlertEdge`. So the log is a trace of the state machine under every interleaving, also
when sessions work on stale objects, commit in between or break off.

## Main results

* `monitorCall_obeys`: every call logs what it changes.
* `alert_log_faithful`: the entries of an alert that record a change are its status changes, and
  they form a path of `AlertEdge` from its creation to its status.
-/

namespace LarkPlat

open Programs LockedTable

/-- The edges of the alert state machine. -/
inductive AlertEdge : Option AlertStatus → AlertStatus → Prop where
  | create : AlertEdge none .pending
  | fire : AlertEdge (some .pending) .firing
  | acknowledge : AlertEdge (some .firing) .acknowledged
  | resolvePending : AlertEdge (some .pending) .resolved
  | resolveFiring : AlertEdge (some .firing) .resolved
  | resolveAcknowledged : AlertEdge (some .acknowledged) .resolved
  | reopen : AlertEdge (some .resolved) .pending

theorem AlertEdge.resolve {old : AlertStatus} (h : old ≠ .resolved) :
    AlertEdge (some old) .resolved := by
  cases old with
  | pending => exact .resolvePending
  | firing => exact .resolveFiring
  | acknowledged => exact .resolveAcknowledged
  | resolved => exact (h rfl).elim

/-- The programs of the monitor's sessions. A session that has evaluated events commits at its own
time. -/
inductive MonitorCall : AlertProg Unit → Prop where
  | evaluateEvent (channels : ℕ → List ℕ) (py : PyText) (order : RuleOrder)
      (readings : ℕ → Readings) (event : MonEvent) :
      MonitorCall (do
        let _ ← AlertProg.evaluateEvent channels py order readings event
        pure ())
  | sweepActiveAlerts (channels : ℕ → List ℕ) (env : SweepEnv) :
      MonitorCall (AlertProg.sweepActiveAlerts channels env)
  | acknowledgeAlert (user : Actor) (visible : Option (List String)) (t : Readings)
      (alertId : ℕ) : MonitorCall (AlertProg.acknowledgeAlert user visible t alertId)
  | resolveAlert (user : Actor) (visible : Option (List String)) (t : Readings) (alertId : ℕ) :
      MonitorCall (AlertProg.resolveAlert user visible t alertId)
  | commit : MonitorCall (Prog.issue .commit)

/-- The discipline of the alert table. -/
abbrev settlingAlerts : Discipline (Stmt alertSchema) (Option (Change AlertStatus)) :=
  settling (𝒮 := alertSchema) AlertEdge

namespace AlertProg

variable {α : Type} {d : Option (Change AlertStatus)}

/-! ### Statements under the discipline -/

theorem obeys_tables {k : MonDb → AlertProg α} (hk : ∀ db, (k db).Obeys settlingAlerts none d) :
    (tables >>= k).Obeys settlingAlerts none d :=
  ⟨trivial, hk⟩

theorem obeys_optimisticUpdate {id : ℕ} {old new : AlertStatus} {version : ℕ}
    {fields : MonAlert → MonAlert} {k : Bool → AlertProg α} (hne : old ≠ new)
    (hedge : AlertEdge (some old) new)
    (hhit : (k true).Obeys settlingAlerts none (some ⟨id, some old, new⟩))
    (hmiss : (k false).Obeys settlingAlerts none none) :
    (optimisticUpdate id old new version fields >>= k).Obeys settlingAlerts none none := by
  refine ⟨⟨rfl, fun _ => hedge, fun _ _ _ => rfl⟩, fun ok => ?_⟩
  cases ok with
  | false => exact hmiss
  | true =>
      have hafter : settlingAlerts.after none (.cas id old new
          (fun a : MonAlert => decide (a.version = version)) fun a : MonAlert =>
            { fields a with status := new, version := version + 1 }) true =
          some ⟨id, some old, new⟩ := if_pos ⟨rfl, hne⟩
      exact hafter ▸ hhit

theorem obeys_count {id : ℕ} {old : AlertStatus} {version : ℕ} {fields : MonAlert → MonAlert}
    {k : Bool → AlertProg α} (hk : ∀ ok, (k ok).Obeys settlingAlerts none none) :
    (optimisticUpdate id old old version fields >>= k).Obeys settlingAlerts none none := by
  refine ⟨⟨rfl, fun hne => (hne rfl).elim, fun _ _ _ => rfl⟩, fun ok => ?_⟩
  have hafter : settlingAlerts.after none (.cas id old old
      (fun a : MonAlert => decide (a.version = version)) fun a : MonAlert =>
        { fields a with status := old, version := version + 1 }) ok = none :=
    if_neg fun h => h.2 rfl
  exact hafter ▸ hk ok

theorem obeys_insert {row : ℕ → MonAlert} {k : ℕ → AlertProg α}
    (hrow : ∀ id, (row id).status = .pending)
    (hk : ∀ id, (k id).Obeys settlingAlerts none (some ⟨id, none, .pending⟩)) :
    (Prog.issue (.insert row) >>= k).Obeys settlingAlerts none none := by
  have hedge : ∀ id, AlertEdge none (row id).status := fun id => by
    rw [hrow]
    exact .create
  refine ⟨⟨rfl, hedge⟩, fun id => ?_⟩
  have hafter : settlingAlerts.after none (.insert row) id = some ⟨id, none, .pending⟩ :=
    congrArg (fun status => some (Change.mk id none status)) (hrow id)
  exact hafter ▸ hk id

theorem obeys_touch {id : ℕ} {f : MonAlert → MonAlert} (hf : ∀ x, (f x).status = x.status) :
    (update id f).Obeys settlingAlerts d d :=
  ⟨fun r _ => hf r, fun _ => rfl⟩

theorem obeys_echo {id : ℕ} {old : Option AlertStatus} {new : AlertStatus}
    {f : MonAlert → MonAlert} (hf : ∀ x, (f x).status = new) :
    (update id f).Obeys settlingAlerts (some ⟨id, old, new⟩) (some ⟨id, old, new⟩) :=
  ⟨fun r h => (hf r).trans (h _ rfl rfl).symm, fun _ => rfl⟩

theorem obeys_settle {id : ℕ} {old : Option AlertStatus} {new : AlertStatus}
    (hne : old ≠ some new) (action : AlertAction) (severity : String) (time : ℚ) :
    (logEvent id action old new severity time).Obeys settlingAlerts none
      (some ⟨id, old, new⟩) :=
  Prog.obeys_issue (if_neg hne) fun _ => rfl

theorem obeys_note {id : ℕ} {status : AlertStatus} (action : AlertAction) (severity : String)
    (time : ℚ) :
    (logEvent id action (some status) status severity time).Obeys settlingAlerts none none :=
  Prog.obeys_issue (if_pos rfl) fun _ => rfl

theorem obeys_commit :
    (Prog.issue .commit : AlertProg Unit).Obeys settlingAlerts none none :=
  Prog.obeys_issue rfl fun _ => rfl

theorem obeys_throwing (e : PyErr) : (throwing e : AlertProg α).Obeys settlingAlerts none d :=
  ⟨trivial, fun x => x.elim⟩

variable (channels : ℕ → List ℕ) (a : MonAlert) (rule : MonRule) (event : MonEvent) (t : Readings)

theorem obeys_sendAlertNotify (kind : NoticeKind) (time : ℚ) :
    (sendAlertNotify channels a rule kind time).Obeys settlingAlerts none none := by
  rw [sendAlertNotify]
  split_ifs
  · exact rfl
  · exact Prog.obeys_issue rfl fun _ => rfl

/-! ### The engine under the discipline -/

theorem obeys_resolveAlertEngine :
    (resolveAlertEngine channels a t).Obeys settlingAlerts none none := by
  rw [resolveAlertEngine]
  split_ifs with hst
  · exact rfl
  refine obeys_optimisticUpdate hst (.resolve hst) ?_ rfl
  refine Prog.obeys_bind (obeys_echo fun _ => rfl) fun _ => ?_
  refine Prog.obeys_bind (obeys_settle (fun h => hst (Option.some.inj h)) _ _ _) fun _ => ?_
  refine obeys_tables fun db => ?_
  cases (a.ruleId.filter (· ≠ 0)).bind db.rule? with
  | none => exact rfl
  | some rule => exact Prog.obeys_bind (obeys_sendAlertNotify _ _ _ _ _) fun _ => rfl

theorem obeys_tryConverge : (tryConverge rule event t).Obeys settlingAlerts none none := by
  rw [tryConverge]
  split_ifs
  · exact rfl
  refine obeys_tables fun db => ?_
  cases db.recentlyResolved rule.id event.entityId rule.convergeSec t.cutoff with
  | none => exact rfl
  | some recent =>
      refine obeys_optimisticUpdate (by decide) .reopen ?_ rfl
      refine Prog.obeys_bind (obeys_echo fun _ => rfl) fun _ => ?_
      exact Prog.obeys_bind (obeys_settle (by decide) _ _ _) fun _ => rfl

theorem obeys_maybeNotify : (maybeNotify channels a rule t).Obeys settlingAlerts none none := by
  refine obeys_tables fun db => ?_
  split_ifs
  · exact Prog.obeys_bind (obeys_note _ _ _) fun _ => rfl
  · exact Prog.obeys_bind (obeys_sendAlertNotify _ _ _ _ _) fun _ => rfl

theorem obeys_maybeEscalate :
    (maybeEscalate channels a rule t).Obeys settlingAlerts none none := by
  rw [maybeEscalate]
  cases escalation rule a t.escalated with
  | none => exact rfl
  | some target =>
      refine Prog.obeys_bind (obeys_touch fun _ => rfl) fun _ => ?_
      refine Prog.obeys_bind (obeys_note _ _ _) fun _ => ?_
      exact Prog.obeys_bind (obeys_sendAlertNotify _ _ _ _ _) fun _ => rfl

variable {touch : AlertProg Unit}

theorem obeys_fireAlert (htouch : ∀ d, touch.Obeys settlingAlerts d d) :
    (fireAlert channels touch a rule t).Obeys settlingAlerts none none := by
  refine obeys_optimisticUpdate (by decide) .fire ?_ ?_
  · refine Prog.obeys_bind (htouch _) fun _ => ?_
    refine Prog.obeys_bind (obeys_echo fun _ => rfl) fun _ => ?_
    refine Prog.obeys_bind (obeys_settle (by decide) _ _ _) fun _ => ?_
    exact Prog.obeys_bind (obeys_maybeNotify _ _ _ _) fun _ => rfl
  · exact Prog.obeys_bind (htouch _) fun _ => rfl

theorem obeys_remind : (remind channels a rule t).Obeys settlingAlerts none none :=
  Prog.obeys_bind (obeys_maybeNotify _ _ _ _) fun _ =>
    Prog.obeys_bind (obeys_maybeEscalate _ _ _ _) fun _ => rfl

theorem obeys_hitFiring (htouch : ∀ d, touch.Obeys settlingAlerts d d) :
    (hitFiring channels touch a rule t).Obeys settlingAlerts none none := by
  refine obeys_count fun ok => Prog.obeys_bind (htouch none) fun _ => ?_
  cases ok with
  | false => exact obeys_remind _ _ _ _
  | true => exact Prog.obeys_bind (obeys_touch fun _ => rfl) fun _ => obeys_remind _ _ _ _

theorem obeys_hitAlert : (hitAlert channels a rule t).Obeys settlingAlerts none none := by
  have htouch : ∀ d, (update a.id (MonAlert.stamp (a.hitCount + 1) t.now)).Obeys
      settlingAlerts d d := fun _ => obeys_touch fun _ => rfl
  rw [hitAlert]
  cases (a.stamp (a.hitCount + 1) t.now).status with
  | pending =>
      dsimp only
      split_ifs
      · exact Prog.obeys_bind (obeys_fireAlert _ _ _ _ htouch) fun _ => rfl
      · exact Prog.obeys_bind (htouch none) fun _ =>
          Prog.obeys_bind (obeys_note _ _ _) fun _ => rfl
  | firing | acknowledged => exact obeys_hitFiring _ _ _ _ htouch
  | resolved => exact Prog.obeys_bind (htouch none) fun _ => rfl

variable (py : PyText) (order : RuleOrder) (readings : ℕ → Readings)

theorem obeys_evaluateRule :
    (evaluateRule channels py rule event t).Obeys settlingAlerts none none := by
  refine obeys_tables fun db => ?_
  dsimp only
  split_ifs
  · exact rfl
  · cases db.activeByRuleEntity rule.id event.entityId with
    | none => exact rfl
    | some a => exact Prog.obeys_bind (obeys_resolveAlertEngine _ _ _) fun _ => rfl
  · cases db.activeByRuleEntity rule.id event.entityId with
    | some a => exact obeys_hitAlert _ _ _ _
    | none =>
        refine Prog.obeys_bind (obeys_tryConverge _ _ _) fun reopened => ?_
        cases reopened with
        | some a => exact rfl
        | none =>
            refine obeys_insert (fun _ => rfl) fun id => ?_
            exact Prog.obeys_bind (obeys_settle (by decide) _ _ _) fun _ => rfl

theorem obeys_evaluateRules (rules : List MonRule) :
    (evaluateRules channels py event readings rules).Obeys settlingAlerts none none := by
  induction rules with
  | nil => exact rfl
  | cons rule rest ih =>
      exact Prog.obeys_bind (obeys_evaluateRule _ _ _ _ _) fun _ =>
        Prog.obeys_bind ih fun _ => rfl

variable (env : SweepEnv)

theorem obeys_sweepAlert : (sweepAlert channels env a).Obeys settlingAlerts none none := by
  refine obeys_tables fun db => ?_
  cases (a.ruleId.filter (· ≠ 0)).bind db.rule? with
  | none => exact rfl
  | some rule =>
      dsimp only
      split_ifs
      · exact rfl
      · exact Prog.obeys_bind (obeys_fireAlert _ _ _ _ fun _ => rfl) fun _ => rfl
      · exact rfl
      · exact Prog.obeys_bind (obeys_maybeEscalate _ _ _ _) fun _ => rfl

theorem obeys_sweepAlerts (rows : List MonAlert) :
    (sweepAlerts channels env rows).Obeys settlingAlerts none none := by
  induction rows with
  | nil => exact rfl
  | cons a rest ih => exact Prog.obeys_bind (obeys_sweepAlert _ _ _) fun _ => ih

theorem obeys_sweepActiveAlerts :
    (sweepActiveAlerts channels env).Obeys settlingAlerts none none := by
  rw [sweepActiveAlerts]
  split_ifs
  · exact obeys_tables fun _ => Prog.obeys_bind (obeys_sweepAlerts _ _ _) fun _ => obeys_commit
  · exact rfl

/-! ### The calls of users under the discipline -/

variable (user : Actor) (visible : Option (List String)) (alertId : ℕ)

theorem obeys_requirePerm (code : String) :
    (requirePerm user code).Obeys settlingAlerts none none := by
  rw [requirePerm]
  cases user.requirePerm code with
  | ok _ => exact rfl
  | error e => exact obeys_throwing e

theorem obeys_onAlert (code : String) {call : MonAlert → AlertProg Unit}
    (hcall : ∀ a, (call a).Obeys settlingAlerts none none) :
    (onAlert user code visible alertId call).Obeys settlingAlerts none none := by
  refine Prog.obeys_bind (obeys_requirePerm _ _) fun _ => obeys_tables fun db => ?_
  cases (db.alert? alertId).filter (entityInScope visible) with
  | none => exact obeys_throwing _
  | some a => exact hcall a

theorem obeys_acknowledge : (acknowledge t a).Obeys settlingAlerts none none := by
  rw [acknowledge]
  split_ifs
  · exact obeys_throwing _
  refine obeys_optimisticUpdate (by decide) .acknowledge ?_ (obeys_throwing _)
  refine Prog.obeys_bind (obeys_echo fun _ => rfl) fun _ => ?_
  exact Prog.obeys_bind (obeys_settle (by decide) _ _ _) fun _ => obeys_commit

theorem obeys_resolve : (resolve t a).Obeys settlingAlerts none none := by
  rw [resolve]
  split_ifs with hst
  · exact obeys_throwing _
  refine obeys_optimisticUpdate hst (.resolve hst) ?_ (obeys_throwing _)
  refine Prog.obeys_bind (obeys_echo fun _ => rfl) fun _ => ?_
  exact Prog.obeys_bind (obeys_settle (fun h => hst (Option.some.inj h)) _ _ _) fun _ =>
    obeys_commit

end AlertProg

/-! ### Every interleaving -/

/-- Every call of the monitor logs what it changes. -/
theorem monitorCall_obeys (p : AlertProg Unit) (hp : MonitorCall p) :
    p.Obeys settlingAlerts none none := by
  cases hp with
  | evaluateEvent channels py order readings event =>
      exact Prog.obeys_bind
        (AlertProg.obeys_tables fun _ => AlertProg.obeys_evaluateRules _ _ _ _ _) fun _ => rfl
  | sweepActiveAlerts channels env => exact AlertProg.obeys_sweepActiveAlerts _ _
  | acknowledgeAlert user visible t alertId =>
      exact AlertProg.obeys_onAlert _ _ _ _ fun a => AlertProg.obeys_acknowledge a t
  | resolveAlert user visible t alertId =>
      exact AlertProg.obeys_onAlert _ _ _ _ fun a => AlertProg.obeys_resolve a t
  | commit => exact AlertProg.obeys_commit

/-- The configurations that the sessions of the monitor reach from empty tables. -/
abbrev MonitorReaches (c : Config (Stmt alertSchema) (Store alertSchema)) : Prop :=
  Relation.ReflTransGen (Step (server alertSchema) MonitorCall) ⟨Store.fresh, fun _ => none⟩ c

variable {c : Config (Stmt alertSchema) (Store alertSchema)}

/-- **The event log is a trace of the state machine.** After every interleaving of the sessions:
the committed entries of an alert with different statuses are its committed status changes, one for
each and in order, and they form a path of the edges from its creation to its status. -/
theorem alert_log_faithful (h : MonitorReaches c) (id : ℕ) :
    settled (c.store.recorded id) = settled (c.store.changed id) ∧
      Path AlertEdge (settled (c.store.recorded id)) ((c.store.stable id).map MonAlert.status) :=
  log_faithful monitorCall_obeys h id

theorem MonitorReaches.stmt (h : MonitorReaches c) (i : ℕ) {β : Type} (s : Stmt alertSchema β)
    {next : β → AlertProg Unit} {b : β} {store' : Store alertSchema}
    (hrun : c.running i = some (.stmt s next)) (hexec : Exec i s c.store b store') :
    MonitorReaches ⟨store', Function.update c.running i (some (next b))⟩ :=
  Relation.ReflTransGen.tail h (.stmt i s next b store' hrun hexec)

/-- The first hit of the load rule: its session commits, while another session evaluates the same
event on the same empty table. -/
theorem alert_log_faithful_first_hit :
    ∃ c : Config (Stmt alertSchema) (Store alertSchema), MonitorReaches c ∧
      settled (c.store.recorded 0) = [⟨0, none, .pending⟩] ∧
      Path AlertEdge (settled (c.store.recorded 0)) (some .pending) := by
  set view : MonDb := { calmMonitor with alerts := [] }
  have hcall := MonitorCall.evaluateEvent (fun _ => []) ⟨id, id⟩ ⟨id, fun _ => List.Perm.refl _⟩
    (fun _ => ⟨30, 30, 30, 30, 30, 30, 30, 30⟩) loadEvent
  have h0 : MonitorReaches ⟨Store.fresh, _⟩ := .single (.start 0 _ rfl hcall)
  have h1 := (h0.stmt 0 .select rfl (.select _ view)).tail (.start 1 _ rfl hcall)
  have h2 := (MonitorReaches.stmt h1 1 .select rfl (.select _ view)).stmt 0 .select rfl
    (.select _ view)
  have h3 := (h2.stmt 0 .select rfl (.select _ view)).stmt 0
    (.insert (newAlert loadRule loadEvent ⟨30, 30, 30, 30, 30, 30, 30, 30⟩)) rfl (.insert _ _)
  have h4 := h3.stmt 0 (.log ⟨0, .fire, none, .pending, "warning", 30⟩) rfl (.log _ _)
  have h5 := (h4.tail (.finish 0 rfl)).tail (.start 0 _ rfl .commit)
  have h6 := MonitorReaches.stmt h5 0 .commit rfl (.commit _)
  exact ⟨_, h6, rfl, (alert_log_faithful h6 0).2⟩

end LarkPlat
