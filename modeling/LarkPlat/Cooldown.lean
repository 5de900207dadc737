import LarkPlat.SustainedFiring
import Mathlib.Tactic.Linarith

/-!
# The Cooldown of Notifications

`_maybe_notify` asks the event log when the alert was last sent, and takes the `fire` entries for
the notifications. The entries and the notifications are two different things. A firing has logged
its own entry before it asks, so it finds an entry as old as its transaction; a reminder sends
without an entry, so the next one does not find it.

## Main results

* `call_announces`: what a complete call adds to the `fire` entries and to the trigger
  notifications of an alert.
* `firing_notified_iff`: when the notification of a firing is sent.
* `triggers_spaced_iff`: when the trigger notifications of an alert keep the distance of the
  cooldown.
-/

namespace LarkPlat

open MonDb AlertEffect

/-! ### Entries and notifications -/

/-- The times of the `fire` entries of an alert. -/
def fireTimes (log : List AlertLog) (id : ℕ) : List ℚ := (entriesOf .fire log id).map (·.time)

/-- The times of the trigger notifications among others. -/
def triggerTimes (notices : List Notice) : List ℚ :=
  (notices.filter fun n => decide (n.kind = .trigger)).map (·.time)

/-- The trigger notifications of an alert. -/
def Monitor.triggers (m : Monitor) (id : ℕ) : List ℚ := triggerTimes (m.view id).sent

section Times

variable {channels : ℕ → List ℕ} {rule : MonRule} {t : Readings} {id : ℕ} {now : ℚ}
  {log : List AlertLog} {e : AlertEffect} {a : MonAlert}

theorem fireTimes_append (log entries : List AlertLog) (id : ℕ) :
    fireTimes (log ++ entries) id = fireTimes log id ++ fireTimes entries id := by
  rw [fireTimes, entriesOf_append, List.map_append]
  rfl

theorem triggerTimes_append (notices notices' : List Notice) :
    triggerTimes (notices ++ notices') = triggerTimes notices ++ triggerTimes notices' := by
  rw [triggerTimes, List.filter_append, List.map_append]
  rfl

theorem fireTimes_singleton (x : AlertLog) (id : ℕ) :
    fireTimes [x] id = if x.alertId = id ∧ x.action = .fire then [x.time] else [] := by
  rw [fireTimes, entriesOf_singleton]
  split_ifs <;> rfl

theorem triggerTimes_singleton (n : Notice) :
    triggerTimes [n] = if n.kind = .trigger then [n.time] else [] := by
  rw [triggerTimes, List.filter_cons]
  simp only [decide_eq_true_eq, List.filter_nil]
  split_ifs <;> rfl

/-- The view of an alert has all its `fire` entries. -/
theorem fireTimes_view (m : Monitor) (id : ℕ) :
    fireTimes (m.view id).log id = fireTimes m.db.log id :=
  congrArg (List.map _) (entriesOf_own .fire m.db.log id)

/-- The gate of `_maybe_notify` is closed if the rule has a cooldown and some `fire` entry is
younger. -/
theorem cooling_iff :
    AlertProg.cooling log id rule now = true ↔
      0 < rule.cooldownSeconds ∧ ∃ s ∈ fireTimes log id, now - s < rule.cooldownSeconds := by
  have hmax : AlertProg.lastFire log id = (fireTimes log id).max? := rfl
  rw [AlertProg.cooling, hmax, Bool.and_eq_true, decide_eq_true_eq]
  by_cases hpos : 0 < rule.cooldownSeconds
  swap
  · exact iff_of_false (fun h => hpos (by omega)) fun h => hpos h.1
  have hcast : (max rule.cooldownSeconds 0 : ℤ) = rule.cooldownSeconds := max_eq_left hpos.le
  rw [hcast, Option.any_eq_true]
  refine and_congr_right fun _ => ?_
  constructor
  · rintro ⟨s, hs, hyoung⟩
    exact ⟨s, List.max?_mem hs, of_decide_eq_true hyoung⟩
  · rintro ⟨s, hs, hyoung⟩
    cases hlast : (fireTimes log id).max? with
    | none => exact absurd (List.max?_eq_none_iff.mp hlast) (List.ne_nil_of_mem hs)
    | some last =>
        have hle := (List.max?_eq_some_iff.mp hlast).2 s hs
        exact ⟨last, rfl, decide_eq_true (by linarith)⟩

/-! ### What effects add -/

/-- An entry that is no `fire` entry. -/
theorem fireTimes_note (e : AlertEffect) {action : AlertAction} (hne : action ≠ .fire)
    (severity : String) (time : ℚ) (id : ℕ) :
    fireTimes (e.note action severity time).entries id = fireTimes e.entries id :=
  congrArg (List.map _) (entriesOf_note e hne severity time id)

theorem triggerTimes_notice (id : ℕ) (kind : NoticeKind) (time : ℚ) :
    triggerTimes (notice channels rule id kind time) =
      if kind = .trigger ∧ channels rule.id ≠ [] then [time] else [] := by
  rw [notice]
  by_cases hch : channels rule.id = []
  · rw [if_pos hch, if_neg fun h => h.2 hch]
    rfl
  · rw [if_neg hch, triggerTimes_singleton]
    exact if_congr (iff_self_and.mpr fun _ => hch) rfl rfl

theorem triggerTimes_send (e : AlertEffect) (kind : NoticeKind) (time : ℚ) :
    triggerTimes (e.send channels rule kind time).notices = triggerTimes e.notices ++
      if kind = .trigger ∧ channels rule.id ≠ [] then [time] else [] := by
  rw [AlertEffect.send, triggerTimes_append, triggerTimes_notice]

theorem fireTimes_notifying (e : AlertEffect) (id : ℕ) :
    fireTimes (notifying channels log rule t e).entries id = fireTimes e.entries id := by
  rw [notifying]
  split_ifs
  · exact fireTimes_note e (by decide) _ _ id
  · rfl

/-- What the gate lets through. -/
def passing (channels : ℕ → List ℕ) (log : List AlertLog) (id : ℕ) (rule : MonRule) (now : ℚ) :
    List ℚ :=
  if AlertProg.cooling log id rule now = false ∧ channels rule.id ≠ [] then [now] else []

theorem triggerTimes_notifying (e : AlertEffect) :
    triggerTimes (notifying channels log rule t e).notices =
      triggerTimes e.notices ++ passing channels (log ++ e.entries) e.row.id rule t.notified := by
  rw [notifying, passing]
  cases AlertProg.cooling (log ++ e.entries) e.row.id rule t.notified with
  | true => exact (List.append_nil _).symm
  | false =>
      refine (triggerTimes_send e .trigger t.notified).trans ?_
      simp only [true_and]

theorem fireTimes_escalating (e : AlertEffect) (id : ℕ) :
    fireTimes (escalating channels rule t e).entries id = fireTimes e.entries id := by
  rw [escalating]
  cases AlertProg.escalation rule e.row t.escalated with
  | none => rfl
  | some target => exact fireTimes_note _ (by decide) _ _ id

theorem triggerTimes_escalating (e : AlertEffect) :
    triggerTimes (escalating channels rule t e).notices = triggerTimes e.notices := by
  rw [escalating]
  cases AlertProg.escalation rule e.row t.escalated with
  | none => rfl
  | some target =>
      refine (triggerTimes_send _ .escalation t.escalated).trans ?_
      rw [if_neg fun h => absurd h.1 (by decide), List.append_nil]
      rfl

theorem resolution_times (found : Option MonRule) (a : MonAlert) (id : ℕ) :
    fireTimes (resolution channels found t a).entries id = [] ∧
      triggerTimes (resolution channels found t a).notices = [] := by
  constructor
  · exact (fireTimes_singleton _ _).trans (if_neg fun h => AlertAction.noConfusion h.2)
  · cases found with
    | none => rfl
    | some rule =>
        exact (triggerTimes_notice _ _ _).trans (if_neg fun h => absurd h.1 (by decide))

/-- A firing logs one `fire` entry, and then asks the log. -/
theorem firing_times (a : MonAlert) :
    fireTimes (firing channels log rule t a).entries a.id = [t.logged] ∧
      triggerTimes (firing channels log rule t a).notices =
        passing channels (log ++ (ignition t a).entries) a.id rule t.notified := by
  constructor
  · rw [firing, fireTimes_notifying, ignition, fireTimes_singleton, if_pos ⟨rfl, rfl⟩]
  · rw [firing, triggerTimes_notifying]
    rfl

theorem reminding_times (a : MonAlert) :
    fireTimes (reminding channels log rule t a).entries a.id = [] ∧
      triggerTimes (reminding channels log rule t a).notices =
        passing channels log a.id rule t.notified := by
  constructor
  · rw [reminding, fireTimes_escalating, fireTimes_notifying]
    rfl
  · rw [reminding, triggerTimes_escalating, triggerTimes_notifying]
    change [] ++ passing channels (log ++ []) a.id rule t.notified = _
    rw [List.append_nil, List.nil_append]

end Times

/-! ### Who asks the gate -/

/-- The call reaches `_maybe_notify` for the alert, with these clock readings: an event of the alert
hits it while it is ripe or fires already, or the sweep finds it ripe. -/
inductive MonDb.Announces (db : MonDb) (rule : MonRule) (a : MonAlert) :
    MonOp → Readings → Prop where
  | event (py : PyText) (order : RuleOrder) (readings : ℕ → Readings) (event : MonEvent)
      (hrule : rule ∈ db.enabledRules) (hr : a.ruleId = some rule.id)
      (hact : a.status.active = true) (hc : Concerns py rule event a)
      (hmet : conditionMet rule event = true)
      (hripe : a.status = .pending → Ripe rule (readings rule.id).now a) :
      db.Announces rule a (.evaluateEvent py order readings event) (readings rule.id)
  | sweep (env : SweepEnv) (hdue : env.featureEnabled = true ∧ env.due = true)
      (hmem : a ∈ db.activeAlerts 500) (hrule : AlertProg.ruleOf db.rules a = some rule)
      (hlive : ¬ Skips rule env a) (hst : a.status = .pending) (hripe : Ripe rule env.now a) :
      db.Announces rule a (.sweepActiveAlerts env) { env.readings a.id with now := env.now }

/-- The gate is open: the rule has no cooldown, or all `fire` entries of the alert are as old, with
the one that a firing has just logged itself. -/
def Due (rule : MonRule) (a : MonAlert) (t : Readings) (log : List AlertLog) : Prop :=
  rule.cooldownSeconds ≤ 0 ∨
    (a.status = .pending → rule.cooldownSeconds ≤ t.notified - t.logged) ∧
      ∀ s ∈ fireTimes log a.id, rule.cooldownSeconds ≤ t.notified - s

instance (rule : MonRule) (a : MonAlert) (t : Readings) (log : List AlertLog) :
    Decidable (Due rule a t log) :=
  inferInstanceAs (Decidable (_ ∨ (_ → _) ∧ ∀ s ∈ fireTimes log a.id, _))

/-- The time of the entries that the engine logs in this call, of an alert of a rule. -/
def MonOp.logs (op : MonOp) (ruleId id : ℕ) : Option ℚ :=
  match op with
  | .evaluateEvent _ _ readings _ => some (readings ruleId).logged
  | .sweepActiveAlerts env => some (env.readings id).logged
  | _ => none

section Calls

variable {channels : ℕ → List ℕ} {db : MonDb} {rule : MonRule} {a : MonAlert} {t : Readings}
  {log : List AlertLog} {op : MonOp} {v v' : AlertView} {id : ℕ}

theorem cooling_eq_false_iff {now : ℚ} :
    AlertProg.cooling log id rule now = false ↔
      rule.cooldownSeconds ≤ 0 ∨ ∀ s ∈ fireTimes log id, rule.cooldownSeconds ≤ now - s := by
  rw [← Bool.not_eq_true, cooling_iff]
  constructor
  · intro h
    by_cases hpos : rule.cooldownSeconds ≤ 0
    · exact Or.inl hpos
    · exact Or.inr fun s hs => not_lt.mp fun hlt => h ⟨not_le.mp hpos, s, hs, hlt⟩
  · rintro (hpos | hall) ⟨hlt, s, hs, hyoung⟩
    · exact absurd hlt (not_lt.mpr hpos)
    · exact absurd hyoung (not_lt.mpr (hall s hs))

theorem passing_firing (hst : a.status = .pending) :
    passing channels (log ++ (ignition t a).entries) a.id rule t.notified =
      if Due rule a t log ∧ channels rule.id ≠ [] then [t.notified] else [] := by
  rw [passing]
  refine if_congr (and_congr_left fun _ => ?_) rfl rfl
  have hfire : fireTimes (ignition t a).entries a.id = [t.logged] :=
    (fireTimes_singleton _ _).trans (if_pos ⟨rfl, rfl⟩)
  rw [cooling_eq_false_iff, Due, fireTimes_append, hfire]
  simp only [List.mem_append, List.mem_singleton, or_imp, forall_and, forall_eq, hst,
    forall_const, and_comm]

theorem passing_reminder (hst : a.status ≠ .pending) :
    passing channels log a.id rule t.notified =
      if Due rule a t log ∧ channels rule.id ≠ [] then [t.notified] else [] := by
  rw [passing]
  refine if_congr (and_congr_left fun _ => ?_) rfl rfl
  rw [cooling_eq_false_iff, Due]
  simp only [hst, false_imp_iff, true_and]

theorem MonDb.Announces.visits (h : db.Announces rule a op t) : db.Visits op a := by
  cases h with
  | event py order readings event hrule hr hact hc _ _ => exact ⟨hact, rule, hrule, hr, hc⟩
  | sweep env hdue hmem _ _ _ _ => exact ⟨hdue, hmem⟩

/-- A call that reaches the gate. -/
structure Announced (channels : ℕ → List ℕ) (db : MonDb) (rule : MonRule) (a : MonAlert)
    (op : MonOp) (v v' : AlertView) (t : Readings) : Prop where
  announces : db.Announces rule a op t
  fires : fireTimes v'.log a.id =
    fireTimes v.log a.id ++ if a.status = .pending then [t.logged] else []
  triggers : triggerTimes v'.sent = triggerTimes v.sent ++
    if Due rule a t v.log ∧ channels rule.id ≠ [] then [t.notified] else []

/-- A call that does not. -/
structure Unannounced (db : MonDb) (rule : MonRule) (a : MonAlert) (op : MonOp)
    (v v' : AlertView) : Prop where
  silent : ∀ t, ¬ db.Announces rule a op t
  waits : a.status = .pending → ∀ b, v'.row = some b → b.status ≠ .firing
  fires : ∃ xs, fireTimes v'.log a.id = fireTimes v.log a.id ++ xs ∧
    ∀ x ∈ xs, op.logs rule.id a.id = some x
  triggers : triggerTimes v'.sent = triggerTimes v.sent

theorem fireTimes_perform (e : AlertEffect) (id : ℕ) :
    fireTimes (v.perform e).log id = fireTimes v.log id ++ fireTimes e.entries id :=
  fireTimes_append _ _ _

theorem triggerTimes_perform (e : AlertEffect) :
    triggerTimes (v.perform e).sent = triggerTimes v.sent ++ triggerTimes e.notices :=
  triggerTimes_append _ _

theorem unannounced_of_quiet {e : AlertEffect} (hno : ∀ t, ¬ db.Announces rule a op t)
    (hwaits : a.status = .pending → e.row.status ≠ .firing)
    (hfires : fireTimes e.entries a.id = []) (htriggers : triggerTimes e.notices = []) :
    Unannounced db rule a op v (v.perform e) where
  silent := hno
  waits hst b hb := Option.some.inj hb ▸ hwaits hst
  fires := ⟨[], by rw [fireTimes_perform, hfires], fun _ hx => (List.not_mem_nil hx).elim⟩
  triggers := by rw [triggerTimes_perform, htriggers, List.append_nil]

theorem hit_announces {py : PyText} {order : RuleOrder} {readings : ℕ → Readings}
    {event : MonEvent} (hrule : rule ∈ db.enabledRules) (hr : a.ruleId = some rule.id)
    (hact : a.status.active = true) (hc : Concerns py rule event a)
    (hmet : conditionMet rule event = true) :
    (∃ t, Announced channels db rule a (.evaluateEvent py order readings event) v
        (v.perform (hit channels v.log rule (readings rule.id) a)) t) ∨
      Unannounced db rule a (.evaluateEvent py order readings event) v
        (v.perform (hit channels v.log rule (readings rule.id) a)) := by
  set t := readings rule.id with ht
  by_cases hst : a.status = .pending
  · by_cases hripe : Ripe rule t.now a
    · have hann := MonDb.Announces.event py order readings event hrule hr hact hc hmet
        fun _ => hripe
      have hhit : hit channels v.log rule t a =
          firing channels v.log rule t (a.stamp (a.hitCount + 1) t.now) := by
        rw [hit, hst]
        exact if_pos hripe
      have htimes := @firing_times channels rule t v.log (a.stamp (a.hitCount + 1) t.now)
      refine Or.inl ⟨t, hann, ?_, ?_⟩
      · rw [fireTimes_perform, hhit, if_pos hst]
        exact congrArg _ htimes.1
      · rw [triggerTimes_perform, hhit, htimes.2]
        exact congrArg _ (passing_firing hst)
    · have hhit : hit channels v.log rule t a =
          (nothing (a.stamp (a.hitCount + 1) t.now)).note .suppress a.severity t.logged := by
        rw [hit, hst]
        exact if_neg hripe
      rw [hhit]
      refine Or.inr (unannounced_of_quiet (fun t' hann => ?_) (fun _ hfire => ?_)
        (fireTimes_note _ (by decide) _ _ _) rfl)
      · cases hann with
        | event _ _ _ _ _ _ _ _ _ hripe' => exact hripe (hripe' hst)
      · exact AlertStatus.noConfusion (hst.symm.trans hfire)
  · have hfiring : a.status = .firing ∨ a.status = .acknowledged := by
      cases h : a.status with
      | pending => exact absurd h hst
      | firing => exact Or.inl rfl
      | acknowledged => exact Or.inr rfl
      | resolved => rw [h] at hact; cases hact
    have hann := MonDb.Announces.event py order readings event hrule hr hact hc hmet
      fun h => absurd h hst
    have htimes := @reminding_times channels rule t v.log
      { a.stamp (a.hitCount + 1) t.now with version := a.version + 1 }
    refine Or.inl ⟨t, hann, ?_, ?_⟩
    · rw [fireTimes_perform, hit_of_firing _ _ _ hfiring, if_neg hst]
      exact congrArg _ htimes.1
    · rw [triggerTimes_perform, hit_of_firing _ _ _ hfiring, htimes.2]
      exact congrArg _ (passing_reminder hst)

theorem sweep_announces {env : SweepEnv} (hv : db.Valid) (hrule : rule ∈ db.rules)
    (hr : a.ruleId = some rule.id) (hdue : env.featureEnabled = true ∧ env.due = true)
    (hmem : a ∈ db.activeAlerts 500) :
    (∃ t, Announced channels db rule a (.sweepActiveAlerts env) v
        (v.perform (sweeping channels v.log (AlertProg.ruleOf db.rules a) env a)) t) ∨
      Unannounced db rule a (.sweepActiveAlerts env) v
        (v.perform (sweeping channels v.log (AlertProg.ruleOf db.rules a) env a)) := by
  rcases @sweeping_cases channels v.log (AlertProg.ruleOf db.rules a) env a with
    hsame | ⟨found, hfound, hlive, hst, hripe, hfires⟩ | ⟨found, -, -, hne, hesc⟩
  · rw [hsame]
    refine Or.inr (unannounced_of_quiet (fun t hann => ?_) (fun hst hfire => ?_) rfl rfl)
    · cases hann with
      | sweep _ _ _ hfound hlive hst hripe =>
          rw [hfound, sweeping_of_ripe _ _ hlive hst hripe] at hsame
          have hrow := congrArg (fun e => e.row.status) hsame.symm
          dsimp only at hrow
          rw [firing_row] at hrow
          exact AlertStatus.noConfusion (hst.symm.trans hrow)
    · exact AlertStatus.noConfusion (hst.symm.trans hfire)
  · obtain rfl := (ruleOf_eq hv hrule hr hfound).symm
    rw [hfires]
    refine Or.inl ⟨_, .sweep env hdue hmem hfound hlive hst hripe, ?_, ?_⟩
    · rw [fireTimes_perform, if_pos hst]
      exact congrArg _ (firing_times a).1
    · rw [triggerTimes_perform, (firing_times a).2]
      exact congrArg _ (passing_firing hst)
  · rw [hesc]
    refine Or.inr (unannounced_of_quiet (fun t hann => ?_) (fun hst => absurd hst hne)
      (fireTimes_escalating _ _) (triggerTimes_escalating _))
    cases hann with
    | sweep _ _ _ _ _ hst _ => exact hne hst

/-- **What a complete call adds** to the `fire` entries and to the trigger notifications of an alert
of a rule. -/
theorem call_announces (hv : db.Valid) (hrule : rule ∈ db.rules) (hrow : v.row = some a)
    (hid : a.id = id) (hr : a.ruleId = some rule.id) (h : ViewStep channels db id op v v') :
    (∃ t, Announced channels db rule a op v v' t) ∨ Unannounced db rule a op v v' := by
  subst hid
  cases h with
  | pass _ _ hno =>
      refine Or.inr ⟨fun t hann => hno a hrow hann.visits, fun hst b hb hfire => ?_,
        ⟨[], (List.append_nil _).symm, fun _ hx => (List.not_mem_nil hx).elim⟩, rfl⟩
      obtain rfl := Option.some.inj (hrow.symm.trans hb)
      exact AlertStatus.noConfusion (hst.symm.trans hfire)
  | event py order readings event hrule' hview =>
      obtain rfl := (rule_eq_of_id hv hrule (mem_rules_of_enabled hrule')
        (Option.some.inj ((hview.ruleId_of_row hrow).symm.trans hr))).symm
      cases hview with
      | hit hrow' _ hact hc hmet =>
          obtain rfl := Option.some.inj (hrow'.symm.trans hrow)
          exact hit_announces hrule' hr hact hc hmet
      | resolve hrow' _ hact hc hmet =>
          obtain rfl := Option.some.inj (hrow'.symm.trans hrow)
          refine Or.inr (unannounced_of_quiet (fun t hann => ?_)
            (fun _ h => AlertStatus.noConfusion h) (resolution_times _ _ _).1
            (resolution_times _ _ 0).2)
          cases hann with
          | event _ _ _ _ _ _ _ _ hmet' _ =>
              rw [hmet] at hmet'
              cases hmet'
      | reopen hrow' _ hst _ _ =>
          obtain rfl := Option.some.inj (hrow'.symm.trans hrow)
          refine Or.inr ⟨fun t hann => ?_, fun h => AlertStatus.noConfusion (h.symm.trans hst),
            ⟨[(readings rule.id).logged], ?_, ?_⟩, ?_⟩
          · cases hann with
            | event _ _ _ _ _ _ hact _ _ _ =>
                rw [hst] at hact
                cases hact
          · rw [fireTimes_perform]
            exact congrArg _ ((fireTimes_singleton _ _).trans (if_pos ⟨rfl, rfl⟩))
          · rintro x hx
            rw [List.mem_singleton.mp hx]
            rfl
          · rw [triggerTimes_perform]
            exact List.append_nil _
      | create hnone _ _ =>
          rw [hrow] at hnone
          cases hnone
  | sweep env hrow' hdue hmem =>
      obtain rfl := Option.some.inj (hrow'.symm.trans hrow)
      exact sweep_announces hv hrule hr hdue hmem
  | acknowledge user visible t hrow' hst =>
      obtain rfl := Option.some.inj (hrow'.symm.trans hrow)
      refine Or.inr (unannounced_of_quiet (fun t hann => by cases hann)
        (fun h => AlertStatus.noConfusion (h.symm.trans hst)) ?_ rfl)
      exact (fireTimes_singleton _ _).trans (if_neg fun h => AlertAction.noConfusion h.2)
  | close user visible t hrow' hst =>
      obtain rfl := Option.some.inj (hrow'.symm.trans hrow)
      exact Or.inr (unannounced_of_quiet (fun t hann => by cases hann)
        (fun _ h => AlertStatus.noConfusion h) (resolution_times _ _ _).1
        (resolution_times _ _ 0).2)

theorem MonDb.Announces.logs (h : db.Announces rule a op t) :
    op.logs rule.id a.id = some t.logged := by
  cases h <;> rfl

theorem MonDb.Announces.unique {t' : Readings} (h : db.Announces rule a op t)
    (h' : db.Announces rule a op t') : t = t' := by
  cases h <;> cases h' <;> rfl

theorem due_view {m : Monitor} : Due rule a t (m.view a.id).log ↔ Due rule a t m.db.log := by
  rw [Due, Due, fireTimes_view]

theorem ViewStep.row_kept (h : ViewStep channels db id op v v') (hrow : v.row = some a) :
    ∃ b, v'.row = some b ∧ b.ruleId = a.ruleId := by
  cases h with
  | pass => exact ⟨a, hrow, rfl⟩
  | event _ _ _ _ _ hview =>
      obtain ⟨b, hb, hr⟩ := hview.row_ruleId
      exact ⟨b, hb, hr.trans (hview.ruleId_of_row hrow).symm⟩
  | sweep env hrow' =>
      obtain rfl := Option.some.inj (hrow'.symm.trans hrow)
      exact ⟨_, rfl, (about_sweeping _ _ _ _).ruleId⟩
  | acknowledge _ _ _ hrow' =>
      obtain rfl := Option.some.inj (hrow'.symm.trans hrow)
      exact ⟨_, rfl, rfl⟩
  | close _ _ _ hrow' =>
      obtain rfl := Option.some.inj (hrow'.symm.trans hrow)
      exact ⟨_, rfl, rfl⟩

theorem ViewStep.triggers_grow (h : ViewStep channels db id op v v') :
    triggerTimes v.sent <+: triggerTimes v'.sent := by
  have hperform : ∀ e : AlertEffect, triggerTimes v.sent <+: triggerTimes (v.perform e).sent :=
    fun e => ⟨_, (triggerTimes_perform e).symm⟩
  cases h with
  | pass => exact List.prefix_refl _
  | event _ _ _ _ _ hview => cases hview <;> exact hperform _
  | sweep => exact hperform _
  | acknowledge => exact hperform _
  | close => exact hperform _

theorem ViewStep.created (h : ViewStep channels db id op v v') (hnone : v.row = none)
    (hr : ∀ b, v'.row = some b → b.ruleId = some rule.id) :
    triggerTimes v'.sent = triggerTimes v.sent ∧
      ∃ xs, fireTimes v'.log id = fireTimes v.log id ++ xs ∧
        ∀ x ∈ xs, op.logs rule.id id = some x := by
  cases h with
  | pass =>
      exact ⟨rfl, [], (List.append_nil _).symm, fun _ hx => (List.not_mem_nil hx).elim⟩
  | @event py order readings event rule' _ _ hrule' hview =>
      obtain ⟨b, hb, hbr⟩ := hview.row_ruleId
      have hid : rule'.id = rule.id := Option.some.inj (hbr.symm.trans (hr b hb))
      cases hview with
      | create _ _ _ =>
          refine ⟨(triggerTimes_perform _).trans (List.append_nil _),
            [(readings rule'.id).logged], ?_, ?_⟩
          · rw [fireTimes_perform]
            exact congrArg _ ((fireTimes_singleton _ _).trans (if_pos ⟨rfl, rfl⟩))
          · intro x hx
            rw [List.mem_singleton.mp hx, hid]
            rfl
      | hit hrow => cases hnone.symm.trans hrow
      | resolve hrow => cases hnone.symm.trans hrow
      | reopen hrow => cases hnone.symm.trans hrow
  | sweep _ hrow => cases hnone.symm.trans hrow
  | acknowledge _ _ _ hrow => cases hnone.symm.trans hrow
  | close _ _ _ hrow => cases hnone.symm.trans hrow

end Calls

/-! ### Histories -/

/-- What a call does to the `fire` entries and to the trigger notifications of an alert of the
rule: it visits the gate, or it sends none. -/
inductive GateStep (channels : ℕ → List ℕ) (rule : MonRule) (id : ℕ) (op : MonOp)
    (m m' : Monitor) : Prop where
  | visit (a : MonAlert) (t : Readings) (hrow : m.db.alert? id = some a)
      (hann : m.db.Announces rule a op t)
      (hfires : fireTimes m'.db.log id =
        fireTimes m.db.log id ++ if a.status = .pending then [t.logged] else [])
      (htriggers : m'.triggers id = m.triggers id ++
        if Due rule a t m.db.log ∧ channels rule.id ≠ [] then [t.notified] else [])
  | silent (hno : ∀ a t, m.db.alert? id = some a → ¬ m.db.Announces rule a op t) (xs : List ℚ)
      (hxs : ∀ x ∈ xs, op.logs rule.id id = some x)
      (hfires : fireTimes m'.db.log id = fireTimes m.db.log id ++ xs)
      (htriggers : m'.triggers id = m.triggers id)

section Histories

variable {channels : ℕ → List ℕ} {m m₀ : Monitor} {ops : List MonOp} {op : MonOp} {rule : MonRule}
  {a b : MonAlert} {t : Readings} {id : ℕ} {s : ℚ}

theorem Announced.gateStep
    (hrow : m.db.alert? a.id = some a)
    (h : Announced channels m.db rule a op (m.view a.id) ((m.apply channels op).view a.id) t) :
    GateStep channels rule a.id op m (m.apply channels op) := by
  have hfires := h.fires
  have htriggers := h.triggers
  rw [fireTimes_view, fireTimes_view] at hfires
  simp only [due_view] at htriggers
  exact .visit a t hrow h.announces hfires htriggers

theorem apply_gateStep (hv : m.db.Valid) (hrule : rule ∈ m.db.rules)
    (hr : ∀ b, (m.apply channels op).db.alert? id = some b → b.ruleId = some rule.id) :
    GateStep channels rule id op m (m.apply channels op) := by
  have hstep := apply_view channels hv op id
  cases hrow : m.db.alert? id with
  | some a =>
      have hid : a.id = id := Table.key_of_find hrow
      subst hid
      obtain ⟨b, hb, hbr⟩ := hstep.row_kept hrow
      rcases call_announces hv hrule hrow rfl (hbr.symm.trans (hr b hb)) hstep with
        ⟨t, h⟩ | ⟨hno, -, ⟨xs, hfires, hxs⟩, htriggers⟩
      · exact h.gateStep hrow
      · rw [fireTimes_view, fireTimes_view] at hfires
        refine .silent (fun a' t hrow' => ?_) xs hxs hfires htriggers
        rw [← Option.some.inj (hrow.symm.trans hrow')]
        exact hno t
  | none =>
      have hno : ∀ a t, m.db.alert? id = some a → ¬ m.db.Announces rule a op t := by
        intro a t hrow'
        cases hrow.symm.trans hrow'
      obtain ⟨htriggers, xs, hfires, hxs⟩ := hstep.created hrow hr
      rw [fireTimes_view, fireTimes_view] at hfires
      exact .silent hno xs hxs hfires htriggers

theorem monitorRun_valid (hv : m₀.db.Valid) (ops : List MonOp) :
    (Machine.run (Monitor.apply channels) m₀ ops).db.Valid :=
  Machine.run_invariant (P := fun m : Monitor => m.db.Valid)
    (fun _ op h => Monitor.apply_valid channels h op) hv ops

/-- No trigger notification of the alert is younger than the cooldown. -/
def Monitor.Quiet (m : Monitor) (rule : MonRule) (id : ℕ) (now : ℚ) : Prop :=
  ∀ s ∈ m.triggers id, rule.cooldownSeconds ≤ now - s

/-- **When a firing is notified.** In every history of complete calls, and for every call that moves
an alert of a rule with a channel from `pending` to `firing`: that the notification is sent if none
is younger than the cooldown, holds exactly if then the gate is open to the entry which the firing
has just logged, and to the earlier `fire` entries. -/
theorem firing_notified_iff (hv : m₀.db.Valid) (ops : List MonOp) (op : MonOp)
    (hm : m = Machine.run (Monitor.apply channels) m₀ ops)
    (hrule : rule ∈ m.db.rules) (hchannels : channels rule.id ≠ [])
    (ha : a ∈ m.db.alerts) (hr : a.ruleId = some rule.id) (hst : a.status = .pending)
    (hb : b ∈ (m.apply channels op).db.alerts) (hid : b.id = a.id) (hfiring : b.status = .firing) :
    ∃ t, m.db.Announces rule a op t ∧
      ((m.Quiet rule a.id t.notified →
          (m.apply channels op).triggers a.id = m.triggers a.id ++ [t.notified]) ↔
        (m.Quiet rule a.id t.notified →
          rule.cooldownSeconds ≤ 0 ∨ rule.cooldownSeconds ≤ t.notified - t.logged ∧
            ∀ s ∈ fireTimes m.db.log a.id, rule.cooldownSeconds ≤ t.notified - s)) := by
  have hvm : m.db.Valid := hm ▸ monitorRun_valid hv ops
  have hrow : (m.view a.id).row = some a := Table.find_of_mem hvm.keyed ha
  have hrow' : ((m.apply channels op).view a.id).row = some b :=
    hid ▸ Table.find_of_mem (Monitor.apply_valid channels hvm op).keyed hb
  rcases call_announces hvm hrule hrow rfl hr (apply_view channels hvm op a.id) with ⟨t, h⟩ | h
  · refine ⟨t, h.announces, imp_congr_right fun _ => ?_⟩
    have hsent : (m.apply channels op).triggers a.id = m.triggers a.id ++ [t.notified] ↔
        Due rule a t m.db.log := by
      rw [Monitor.triggers, h.triggers, Monitor.triggers, List.append_cancel_left_eq,
        ite_eq_left_iff, due_view]
      constructor
      · intro hsend
        by_contra hno
        exact List.cons_ne_nil _ _ (hsend fun h => hno h.1).symm
      · intro hdue hno
        exact absurd ⟨hdue, hchannels⟩ hno
    rw [hsent, Due, hst]
    simp only [forall_const]
  · exact absurd hfiring (h.waits hst b hrow')

/-! ### Spacing -/

/-- The call visits the alert at the open gate. -/
structure DueVisit (m : Monitor) (rule : MonRule) (id : ℕ) (op : MonOp) (a : MonAlert)
    (t : Readings) : Prop where
  row : m.db.alert? id = some a
  announces : m.db.Announces rule a op t
  due : Due rule a t m.db.log

/-- The clock of the call is not behind the trigger notifications that were sent before it. -/
def FollowsTriggers (rule : MonRule) (id : ℕ) (m : Monitor) (op : MonOp) : Prop :=
  ∀ x ∈ op.logs rule.id id, ∀ s ∈ m.triggers id, s ≤ x

instance (rule : MonRule) (id : ℕ) (m : Monitor) (op : MonOp) :
    Decidable (FollowsTriggers rule id m op) :=
  inferInstanceAs (Decidable (∀ x ∈ op.logs rule.id id, ∀ s ∈ m.triggers id, s ≤ x))

/-- Two visits at the open gate of which the later one is a reminder keep the distance of the
cooldown, unless a `fire` entry of the alert was logged in between. -/
def RemindersApart (channels : ℕ → List ℕ) (m₀ : Monitor) (ops : List MonOp) (rule : MonRule)
    (id : ℕ) : Prop :=
  ∀ pre op mid op' post, ops = pre ++ op :: mid ++ op' :: post →
    ∀ a t a' t', DueVisit (Machine.run (Monitor.apply channels) m₀ pre) rule id op a t →
      DueVisit (Machine.run (Monitor.apply channels) m₀ (pre ++ op :: mid)) rule id op' a' t' →
      a'.status ≠ .pending →
      fireTimes (Machine.run (Monitor.apply channels) m₀ (pre ++ op :: mid)).db.log id =
        fireTimes (Machine.run (Monitor.apply channels) m₀ (pre ++ [op])).db.log id →
      t.notified + rule.cooldownSeconds ≤ t'.notified

/-- Where a trigger notification comes from: a visit at the open gate, after which no `fire` entry
was logged, or one that is not older. -/
def FromVisit (channels : ℕ → List ℕ) (m₀ : Monitor) (ops : List MonOp) (rule : MonRule) (id : ℕ)
    (s : ℚ) : Prop :=
  ∃ pre op mid a t, ops = pre ++ op :: mid ∧
    DueVisit (Machine.run (Monitor.apply channels) m₀ pre) rule id op a t ∧ t.notified = s ∧
    (fireTimes (Machine.run (Monitor.apply channels) m₀ ops).db.log id =
        fireTimes (Machine.run (Monitor.apply channels) m₀ (pre ++ [op])).db.log id ∨
      ∃ x ∈ fireTimes (Machine.run (Monitor.apply channels) m₀ ops).db.log id, s ≤ x)

theorem FromVisit.step (h : FromVisit channels m₀ ops rule id s) {xs : List ℚ}
    (hfires : fireTimes (Machine.run (Monitor.apply channels) m₀ (ops ++ [op])).db.log id =
      fireTimes (Machine.run (Monitor.apply channels) m₀ ops).db.log id ++ xs)
    (hxs : ∀ x ∈ xs, s ≤ x) : FromVisit channels m₀ (ops ++ [op]) rule id s := by
  obtain ⟨pre, op', mid, a, t, rfl, hvisit, ht, hold⟩ := h
  refine ⟨pre, op', mid ++ [op], a, t, by rw [List.append_assoc, List.cons_append], hvisit, ht, ?_⟩
  rw [hfires]
  rcases hold with hsame | ⟨x, hx, hle⟩
  · cases xs with
    | nil => exact Or.inl (by rw [List.append_nil, hsame])
    | cons x xs =>
        exact Or.inr ⟨x, List.mem_append_right _ List.mem_cons_self, hxs x List.mem_cons_self⟩
  · exact Or.inr ⟨x, List.mem_append_left _ hx, hle⟩

/-- The alert is of the rule, as far as the history knows it. -/
def OfRule (channels : ℕ → List ℕ) (m₀ : Monitor) (ops : List MonOp) (rule : MonRule) (id : ℕ) :
    Prop :=
  ∀ b, (Machine.run (Monitor.apply channels) m₀ ops).db.alert? id = some b → b.ruleId = some rule.id

theorem OfRule.before (hv : m₀.db.Valid) {rest : List MonOp}
    (h : OfRule channels m₀ (ops ++ rest) rule id) : OfRule channels m₀ ops rule id := by
  induction rest using List.reverseRecOn with
  | nil => rwa [List.append_nil] at h
  | append_singleton rest op ih =>
      refine ih fun b hb => ?_
      have hvr := @monitorRun_valid channels m₀ hv (ops ++ rest)
      obtain ⟨c, hc, hr⟩ := (apply_view channels hvr op id).row_kept hb
      rw [← hr]
      refine h c ?_
      rw [← List.append_assoc, Machine.run_append]
      exact hc

theorem RemindersApart.before (h : RemindersApart channels m₀ (ops ++ [op]) rule id) :
    RemindersApart channels m₀ ops rule id := by
  rintro pre op₁ mid op₂ post rfl
  refine h pre op₁ mid op₂ (post ++ [op]) ?_
  rw [List.append_assoc, List.cons_append]

/-- **Spaced triggers.** In a history whose reminders come apart, so do the trigger
notifications. -/
theorem triggers_spaced (hv : m₀.db.Valid) (hsent : m₀.triggers id = [])
    (hpos : 0 < rule.cooldownSeconds)
    (hrule : ∀ pre, pre <+: ops → rule ∈ (Machine.run (Monitor.apply channels) m₀ pre).db.rules)
    (hr : OfRule channels m₀ ops rule id)
    (hclock : Machine.Meets (Monitor.apply channels) (FollowsTriggers rule id) m₀ ops)
    (hapart : channels rule.id ≠ [] → RemindersApart channels m₀ ops rule id) :
    ((Machine.run (Monitor.apply channels) m₀ ops).triggers id).Pairwise
        (fun s t : ℚ => s + rule.cooldownSeconds ≤ t) ∧
      ∀ s ∈ (Machine.run (Monitor.apply channels) m₀ ops).triggers id,
        FromVisit channels m₀ ops rule id s := by
  induction ops using List.reverseRecOn with
  | nil =>
      rw [Machine.run_nil, hsent]
      exact ⟨List.Pairwise.nil, fun _ hs => (List.not_mem_nil hs).elim⟩
  | append_singleton ops op ih =>
      obtain ⟨hclock, hfollows, -⟩ := (Machine.meets_append _ _ _).mp hclock
      obtain ⟨hspaced, horigin⟩ :=
        ih (fun pre hpre => hrule pre (hpre.trans (List.prefix_append _ _))) (hr.before hv) hclock
          fun h => (hapart h).before
      have hrun : Machine.run (Monitor.apply channels) m₀ (ops ++ [op]) =
          (Machine.run (Monitor.apply channels) m₀ ops).apply channels op :=
        Machine.run_append _ _ _
      rw [OfRule, hrun] at hr
      have hgate := apply_gateStep (monitorRun_valid hv ops) (hrule ops (List.prefix_append _ _)) hr
      rw [← hrun] at hgate
      cases hgate with
      | silent hno xs hxs hfires htriggers =>
          rw [htriggers]
          exact ⟨hspaced, fun s hs => (horigin s hs).step hfires fun x hx =>
            hfollows x (hxs x hx) s hs⟩
      | visit a t hrow hann hfires htriggers =>
          have hid : a.id = id := Table.key_of_find hrow
          have hlogged : ∀ s ∈ (Machine.run (Monitor.apply channels) m₀ ops).triggers id,
              s ≤ t.logged := hfollows t.logged (hid ▸ hann.logs)
          have hkept : ∀ s ∈ (Machine.run (Monitor.apply channels) m₀ ops).triggers id,
              FromVisit channels m₀ (ops ++ [op]) rule id s := by
            refine fun s hs => (horigin s hs).step hfires fun x hx => ?_
            split_ifs at hx
            · rw [List.mem_singleton.mp hx]
              exact hlogged s hs
            · exact (List.not_mem_nil hx).elim
          rw [htriggers]
          split_ifs with hopen
          swap
          · rw [List.append_nil]
            exact ⟨hspaced, hkept⟩
          have hvisit : DueVisit (Machine.run (Monitor.apply channels) m₀ ops) rule id op a t :=
            ⟨hrow, hann, hopen.1⟩
          have hnew : ∀ s ∈ (Machine.run (Monitor.apply channels) m₀ ops).triggers id,
              s + rule.cooldownSeconds ≤ t.notified := by
            intro s hs
            rcases hopen.1 with hoff | ⟨hown, hall⟩
            · exact absurd hpos (not_lt.mpr hoff)
            by_cases hst : a.status = .pending
            · linarith [hown hst, hlogged s hs]
            obtain ⟨pre, op', mid, a', t', rfl, hvisit', rfl, hold⟩ := horigin s hs
            rcases hold with hsame | ⟨x, hx, hle⟩
            · exact hapart hopen.2 pre op' mid op [] rfl a' t' a t hvisit' hvisit hst hsame
            · linarith [hall x (hid ▸ hx)]
          refine ⟨List.pairwise_append.mpr
            ⟨hspaced, List.pairwise_singleton _ _, fun s hs u hu => ?_⟩, fun s hs => ?_⟩
          · rw [List.mem_singleton.mp hu]
            exact hnew s hs
          · rcases List.mem_append.mp hs with hs | hs
            · exact hkept s hs
            · exact ⟨ops, op, [], a, t, rfl, hvisit, (List.mem_singleton.mp hs).symm, Or.inl rfl⟩

/-- The trigger notifications of an alert of the rule, before and after a visit at the open
gate. -/
theorem DueVisit.triggers (hv : m.db.Valid) (hrule : rule ∈ m.db.rules)
    (hr : ∀ b, (m.apply channels op).db.alert? id = some b → b.ruleId = some rule.id)
    (hchannels : channels rule.id ≠ []) (h : DueVisit m rule id op a t) :
    (m.apply channels op).triggers id = m.triggers id ++ [t.notified] := by
  cases apply_gateStep hv hrule hr with
  | silent hno => exact absurd h.announces (hno a t h.row)
  | visit a' t' hrow hann _ htriggers =>
      obtain rfl := Option.some.inj (hrow.symm.trans h.row)
      obtain rfl := hann.unique h.announces
      rw [htriggers, if_pos ⟨h.due, hchannels⟩]

theorem triggers_grow (hv : m₀.db.Valid) (pre rest : List MonOp) (id : ℕ) :
    (Machine.run (Monitor.apply channels) m₀ pre).triggers id <+:
      (Machine.run (Monitor.apply channels) m₀ (pre ++ rest)).triggers id := by
  induction rest using List.reverseRecOn with
  | nil => rw [List.append_nil]
  | append_singleton rest op ih =>
      refine ih.trans ?_
      rw [← List.append_assoc, Machine.run_append _ (pre ++ rest)]
      exact (apply_view channels (monitorRun_valid hv _) op id).triggers_grow

/-- **When the cooldown spaces the notifications.** In every history of complete calls through which
the rule is unchanged, and whose clock is not behind what was sent, any two trigger notifications of
an alert of the rule are the cooldown apart exactly if its reminders at the open gate are, unless a
`fire` entry was logged in between: the gate itself does not space them. -/
theorem triggers_spaced_iff (hv : m₀.db.Valid) (hsent : m₀.sent = [])
    (hpos : 0 < rule.cooldownSeconds)
    (hrule : ∀ pre, pre <+: ops → rule ∈ (Machine.run (Monitor.apply channels) m₀ pre).db.rules)
    (ha : a ∈ (Machine.run (Monitor.apply channels) m₀ ops).db.alerts)
    (hr : a.ruleId = some rule.id)
    (hclock : Machine.Meets (Monitor.apply channels) (FollowsTriggers rule a.id) m₀ ops) :
    ((Machine.run (Monitor.apply channels) m₀ ops).triggers a.id).Pairwise
        (fun s t : ℚ => s + rule.cooldownSeconds ≤ t) ↔
      (channels rule.id ≠ [] → RemindersApart channels m₀ ops rule a.id) := by
  have hkeyed := (@monitorRun_valid channels m₀ hv ops).keyed
  have hof : OfRule channels m₀ ops rule a.id := by
    intro b hb
    rw [← Option.some.inj ((Table.find_of_mem hkeyed ha).symm.trans hb)]
    exact hr
  have hnone : m₀.triggers a.id = [] := by
    rw [Monitor.triggers, Monitor.view, hsent]
    rfl
  constructor
  · intro hspaced hchannels pre op mid op' post hops b t b' t' hvisit hvisit' _ _
    have hsends : ∀ pre op post b t, ops = pre ++ op :: post →
        DueVisit (Machine.run (Monitor.apply channels) m₀ pre) rule a.id op b t →
        (Machine.run (Monitor.apply channels) m₀ (pre ++ [op])).triggers a.id =
          (Machine.run (Monitor.apply channels) m₀ pre).triggers a.id ++ [t.notified] := by
      rintro pre op post b t rfl hvisit
      have hof' : OfRule channels m₀ (pre ++ [op]) rule a.id := by
        have hall : OfRule channels m₀ (pre ++ [op] ++ post) rule a.id := by
          rwa [List.append_assoc, List.singleton_append]
        exact hall.before hv
      rw [OfRule, Machine.run_append] at hof'
      rw [Machine.run_append]
      exact hvisit.triggers (monitorRun_valid hv pre) (hrule pre (List.prefix_append _ _)) hof'
        hchannels
    have hmid := @triggers_grow channels m₀ hv (pre ++ [op]) mid a.id
    have hlast := @triggers_grow channels m₀ hv (pre ++ op :: mid ++ [op']) post a.id
    have hops' : ops = pre ++ op :: (mid ++ op' :: post) := by
      rw [hops, List.append_assoc, List.cons_append]
    rw [hsends pre op _ b t hops' hvisit, List.append_assoc pre, List.singleton_append] at hmid
    rw [hsends (pre ++ op :: mid) op' post b' t' hops hvisit', List.append_assoc _ [op'],
      List.singleton_append, ← hops] at hlast
    exact (List.pairwise_append.mp (hspaced.sublist hlast.sublist)).2.2 t.notified
      (hmid.subset (List.mem_append_right _ List.mem_cons_self)) t'.notified List.mem_cons_self
  · exact fun hapart => (triggers_spaced hv hnone hpos hrule hof hclock hapart).1

end Histories

/-! ### A rule with a cooldown of five minutes -/

/-- The load rule, with a duration of ten seconds and a cooldown of five minutes. -/
def cooledRule : MonRule :=
  { loadRule with conditionDurationSeconds := 10, cooldownSeconds := 300 }

/-- The rule before its first event, with nothing sent. -/
def cooledMonitor : Monitor := ⟨{ patientMonitor with rules := [cooledRule] }, []⟩

/-- Every rule has one channel. -/
def oneChannel : ℕ → List ℕ := fun _ => [7]

theorem cooledMonitor_valid : cooledMonitor.db.Valid :=
  ⟨(MonDb.indexed_iff _).mp (by decide), by decide, by decide, by decide, by decide⟩

/-- The alert of the load, with its status, its hits, the time of its firing, that of its last
event, and its version. -/
def loadAlert (status : AlertStatus) (hits : ℕ) (fired : Option ℚ) (last : ℚ) (version : ℕ) :
    MonAlert :=
  ⟨2, some 1, some "10.0.0.1", status, "warning", hits, fired, none, some last, some 30, 30,
    version⟩

/-- The event at second 30 and again at second 41: the alert fires, nothing was ever sent, and
nothing is sent. -/
theorem firing_not_notified :
    (Machine.run (Monitor.apply oneChannel) cooledMonitor [loadHitAt 30]).db.alerts =
        [loadAlert .pending 1 none 30 0] ∧
      (Machine.run (Monitor.apply oneChannel) cooledMonitor
        [loadHitAt 30, loadHitAt 41]).db.alerts = [loadAlert .firing 2 (some 41) 41 1] ∧
      (Machine.run (Monitor.apply oneChannel) cooledMonitor
        [loadHitAt 30, loadHitAt 41]).triggers 2 = [] := by
  decide +kernel

/-- The same rule without a cooldown. -/
def uncooledMonitor : Monitor :=
  ⟨{ patientMonitor with rules := [{ cooledRule with cooldownSeconds := 0 }] }, []⟩

theorem uncooledMonitor_valid : uncooledMonitor.db.Valid :=
  ⟨(MonDb.indexed_iff _).mp (by decide), by decide, by decide, by decide, by decide⟩

/-- Without a cooldown the same firing is notified. -/
theorem firing_notified_without_cooldown :
    ∃ t : Readings, (Machine.run (Monitor.apply oneChannel) uncooledMonitor
        [loadHitAt 30, loadHitAt 41]).triggers 2 = [t.notified] := by
  obtain ⟨t, -, hnotified⟩ := @firing_notified_iff oneChannel _ uncooledMonitor
    { cooledRule with cooldownSeconds := 0 } (loadAlert .pending 1 none 30 0)
    (loadAlert .firing 2 (some 41) 41 1) uncooledMonitor_valid [loadHitAt 30] (loadHitAt 41) rfl
    (by decide +kernel) (by decide) (by decide +kernel) rfl rfl (by decide +kernel) rfl rfl
  have hnone : (Machine.run (Monitor.apply oneChannel) uncooledMonitor
      [loadHitAt 30]).triggers 2 = [] := by
    decide +kernel
  have hsent := hnotified.mpr (fun _ => Or.inl (by decide)) fun s hs => by
    rw [show (loadAlert .pending 1 none 30 0).id = 2 from rfl, hnone] at hs
    exact (List.not_mem_nil hs).elim
  exact ⟨t, hsent.trans (congrArg (· ++ [t.notified]) hnone)⟩

/-- Five minutes after the firing two events come within a second: both are notified. -/
theorem reminders_not_spaced :
    (Machine.run (Monitor.apply oneChannel) cooledMonitor
      [loadHitAt 30, loadHitAt 41, loadHitAt 341, loadHitAt 342]).triggers 2 = [341, 342] := by
  decide +kernel

/-- With another five minutes in between they are apart. -/
theorem reminders_apart_in_five_minutes :
    RemindersApart oneChannel cooledMonitor
      [loadHitAt 30, loadHitAt 41, loadHitAt 341, loadHitAt 641] cooledRule 2 := by
  have hrule : ∀ pre ∈ List.inits [loadHitAt 30, loadHitAt 41, loadHitAt 341, loadHitAt 641],
      cooledRule ∈ (Machine.run (Monitor.apply oneChannel) cooledMonitor pre).db.rules := by
    decide +kernel
  exact (@triggers_spaced_iff oneChannel cooledMonitor
    [loadHitAt 30, loadHitAt 41, loadHitAt 341, loadHitAt 641] cooledRule
    (loadAlert .firing 4 (some 41) 641 3) cooledMonitor_valid rfl (by decide)
    (fun pre hpre => hrule pre ((List.mem_inits pre _).mpr hpre)) (by decide +kernel) rfl
    (by decide +kernel)).mp (by decide +kernel) (by decide)

end LarkPlat
