import LarkPlat.DistinctAlerts

/-!
# Resolved Alerts

The event of an alert has no value, and an event without a value meets every condition. So what an
alert says of its own status does not matter to the rules: one that is resolved is a hit like one
that fires. It raises an alert unless it is discarded as a duplicate, or every rule that it belongs
to has an active alert already that the hit leaves where it is.

## Main results

* `raised_iff`: an event without a value raises no alert exactly if its rules are settled.
* `alert_honoured_iff`: the processing of an alert honours its status exactly if a resolved one is
  known or its rules are settled, and a firing one is not known.
* `resolved_raises`: a resolved alert creates an alert.
-/

namespace LarkPlat

open MonDb AlertEffect Outcomes IngestSession

/-! ### Raised alerts -/

/-- The alert with an identifier was created, reopened or moved to `firing`. -/
inductive Raised (db db' : MonDb) (id : ℕ) : Prop where
  | created {b : MonAlert} (h : db.alert? id = none) (h' : db'.alert? id = some b)
  | reopened {a b : MonAlert} (h : db.alert? id = some a) (hst : a.status = .resolved)
      (h' : db'.alert? id = some b) (hst' : b.status ≠ .resolved)
  | advanced {a b : MonAlert} (h : db.alert? id = some a) (hst : a.status = .pending)
      (h' : db'.alert? id = some b) (hst' : b.status = .firing)

/-- The rule has an active alert of the entity that a hit does not move to `firing`. -/
def SettledFor (rule : MonRule) (entityId : String) (now : ℚ) (db : MonDb) : Prop :=
  ∃ b ∈ db.alerts, b.activeKey = some (rule.id, entityId) ∧ ¬ (b.status = .pending ∧ Ripe rule now b)

theorem active_of_key {a : MonAlert} {r : ℕ} {entity : String}
    (h : a.activeKey = some (r, entity)) :
    a.status.active = true ∧ a.ruleId = some r ∧ a.entityId = some entity := by
  rw [MonAlert.activeKey] at h
  split_ifs at h with hact
  cases hr : a.ruleId with
  | none => rw [hr] at h; cases h
  | some r' =>
      cases he : a.entityId with
      | none => rw [hr, he] at h; cases h
      | some entity' =>
          rw [hr, he] at h
          obtain ⟨rfl, rfl⟩ := Prod.mk.inj (Option.some.inj h)
          exact ⟨hact, rfl, rfl⟩

/-- A hit moves a ripe alert to `firing` and leaves every other one where it is. -/
theorem hit_status (channels : ℕ → List ℕ) (log : List AlertLog) (rule : MonRule) (t : Readings)
    {a : MonAlert} (hact : a.status.active = true) :
    (hit channels log rule t a).row.status =
      if a.status = .pending ∧ Ripe rule t.now a then .firing else a.status := by
  cases hst : a.status with
  | pending =>
      rw [hit_row_of_pending log rule t hst]
      by_cases hripe : Ripe rule t.now a
      · rw [if_pos hripe, if_pos ⟨rfl, hripe⟩]
        rfl
      · rw [if_neg hripe, if_neg fun hc => hripe hc.2]
        exact hst
  | firing =>
      rw [hit_of_firing log rule t (Or.inl hst), reminding_row, if_neg fun hc => by cases hc.1]
      exact hst
  | acknowledged =>
      rw [hit_of_firing log rule t (Or.inr hst), reminding_row, if_neg fun hc => by cases hc.1]
      exact hst
  | resolved =>
      rw [hst] at hact
      cases hact

theorem hit_activeKey {channels : ℕ → List ℕ} (log : List AlertLog) (rule : MonRule) (t : Readings)
    {a : MonAlert} (hact : a.status.active = true) :
    (hit channels log rule t a).row.activeKey = a.activeKey := by
  have habout : (hit channels log rule t a).About a := about_hit _ _ _ _
  have hst : (hit channels log rule t a).row.status.active = true := by
    rw [hit_status channels log rule t hact]
    split_ifs
    · rfl
    · exact hact
  rw [MonAlert.activeKey, MonAlert.activeKey, hst, hact, habout.ruleId, habout.entityId]

section Rules

variable {channels : ℕ → List ℕ} {py : PyText} {event : MonEvent} {readings : ℕ → Readings}
  {rules : List MonRule} {m m' : Monitor} {rule : MonRule} {a b : MonAlert} {id : ℕ}

theorem active_stays (hvisit : RulesVisit channels py event readings rules m m')
    (hmet : ∀ rule, conditionMet rule event = true) (hb : (m.view id).row = some b)
    (hact : b.status.active = true) :
    ∃ b', (m'.view id).row = some b' ∧ b'.activeKey = b.activeKey := by
  rcases hvisit.view id with ⟨rule, hrule, hview⟩ | ⟨hsame, -⟩
  swap
  · exact ⟨b, hsame ▸ hb, rfl⟩
  generalize m'.view id = v' at hview
  cases hview with
  | hit hrow hr hact' hc hm =>
      obtain rfl := Option.some.inj (hb.symm.trans hrow)
      exact ⟨_, rfl, hit_activeKey _ _ _ hact⟩
  | resolve hrow hr hact' hc hm => cases hm.symm.trans (hmet rule)
  | reopen hrow hr hst hc hm =>
      obtain rfl := Option.some.inj (hb.symm.trans hrow)
      rw [hst] at hact
      cases hact
  | create hrow hp hm => cases hb.symm.trans hrow

theorem sole_active (hvisit : RulesVisit channels py event readings rules m m')
    (hmet : ∀ rule, conditionMet rule event = true) {r : ℕ} {entity : String}
    (hb : b ∈ m.db.alerts) (hkb : b.activeKey = some (r, entity)) (hv : m.db.Valid)
    (ha : (m'.view id).row = some a) (hka : a.activeKey = some (r, entity)) : id = b.id := by
  obtain ⟨b', hb', hkb'⟩ :=
    active_stays hvisit hmet (view_of_mem hv hb) (active_of_key hkb).1
  obtain ⟨hmem, hid⟩ := view_row ha
  obtain ⟨hmem', hid'⟩ := view_row hb'
  rw [← hid, ← hid', hvisit.valid.active_unique hmem hmem' hka (hkb'.trans hkb)]

/-- **Nothing is raised** by an event that meets every condition, exactly if the rules that it
belongs to are settled. -/
theorem raised_iff (hv : m.db.Valid) (hvisit : RulesVisit channels py event readings rules m m')
    (hmet : ∀ rule, conditionMet rule event = true) :
    (∀ id, ¬ Raised m.db m'.db id) ↔
      ∀ rule ∈ rules, rulePertains py rule event = true →
        SettledFor rule event.entityId (readings rule.id).now m.db := by
  constructor
  · intro hnone rule hrule hp
    obtain ⟨id, hview⟩ := hvisit.acted rule hrule hp (hmet rule)
    have hno := hnone id
    have hrow' : (m'.view id).row = m'.db.alert? id := rfl
    generalize m'.view id = v' at hview hrow'
    cases hview with
    | @hit a hrow hr hact hc hm =>
        refine ⟨a, (view_row hrow).1, activeKey_eq hact hr hc.2, fun hripe => hno ?_⟩
        refine .advanced hrow hripe.1 hrow'.symm ?_
        rw [hit_status _ _ _ _ hact, if_pos hripe]
    | resolve hrow hr hact hc hm => cases hm.symm.trans (hmet rule)
    | reopen hrow hr hst hc hm =>
        exact absurd (.reopened hrow hst hrow'.symm fun hc => by cases hc) hno
    | create hrow hp hm => exact absurd (.created hrow hrow'.symm) hno
  · intro hsettled id hraised
    rcases hvisit.view id with ⟨rule, hrule, hview⟩ | ⟨hsame, -⟩
    swap
    · have hrow : m'.db.alert? id = m.db.alert? id := congrArg AlertView.row hsame
      cases hraised with
      | created h h' => cases h.symm.trans (hrow.symm.trans h')
      | reopened h hst h' hst' =>
          obtain rfl := Option.some.inj (h.symm.trans (hrow.symm.trans h'))
          exact hst' hst
      | advanced h hst h' hst' =>
          obtain rfl := Option.some.inj (h.symm.trans (hrow.symm.trans h'))
          cases hst.symm.trans hst'
    have hrow' : m'.db.alert? id = (m'.view id).row := rfl
    generalize hview' : m'.view id = v' at hview hrow'
    cases hview with
    | @hit a hrow hr hact hc hm =>
        obtain ⟨b, hb, hkb, hcalm⟩ := hsettled rule hrule hc.1
        obtain rfl := hv.active_unique (view_row hrow).1 hb (activeKey_eq hact hr hc.2) hkb
        have hst := hit_status channels (m.view id).log rule (readings rule.id) hact
        rw [if_neg hcalm] at hst
        cases hraised with
        | created h h' => cases h.symm.trans hrow
        | reopened h hres h' hst' =>
            obtain rfl := Option.some.inj (h.symm.trans hrow)
            rw [hres] at hact
            cases hact
        | advanced h hpend h' hfire =>
            obtain rfl := Option.some.inj (h.symm.trans hrow)
            obtain rfl := Option.some.inj (h'.symm.trans hrow')
            exact absurd (hst.symm.trans hfire) (by rw [hpend]; decide)
    | resolve hrow hr hact hc hm => cases hm.symm.trans (hmet rule)
    | @reopen a hrow hr hst hc hm =>
        obtain ⟨b, hb, hkb, -⟩ := hsettled rule hrule hc.1
        have hid := sole_active hvisit hmet hb hkb hv (congrArg AlertView.row hview')
          (activeKey_eq rfl hr hc.2)
        have hsame := (hid ▸ view_of_mem hv hb).symm.trans hrow
        obtain rfl := Option.some.inj hsame
        have hact := (active_of_key hkb).1
        rw [hst] at hact
        cases hact
    | create hrow hp hm =>
        obtain ⟨b, hb, hkb, -⟩ := hsettled rule hrule hp
        have hid := sole_active hvisit hmet hb hkb hv (congrArg AlertView.row hview')
          (activeKey_eq rfl rfl rfl)
        cases (hid ▸ view_of_mem hv hb).symm.trans hrow

end Rules

/-! ### Alerts of a webhook -/

section Alerts

variable {env : IngestEnv} {nowIso : String} {turn : Turn} {w : Webhook} {a : WebhookAlert}
  {s : IngestSession}

/-- The event of an alert as the rules see it. -/
def Webhook.seen (env : EventEnv) (nowIso : String) (w : Webhook) (a : WebhookAlert) : MonEvent :=
  monEvent env (w.event env nowIso a) a.entityId

/-- The processing of an alert honours its own status: one that is resolved raises no alert, and one
that fires is taken and evaluated as a hit of every condition. -/
structure Honoured (env : IngestEnv) (nowIso : String) (turn : Turn) (w : Webhook)
    (a : WebhookAlert) (s : IngestSession) : Prop where
  resolved : a.status = "resolved" → ∀ out s',
    ingestEvent env turn (some (w.event env.toEventEnv nowIso a)) s = .ok (out, s') →
      ∀ id, ¬ Raised s.store.monitor.db s'.store.monitor.db id
  firing : a.status = "firing" →
    (∃ s' row samples,
      ingestEvent env turn (some (w.event env.toEventEnv nowIso a)) s = .ok (.taken, s') ∧
        s'.intake = s.intake.append
          ⟨[row], samples, [(w.event env.toEventEnv nowIso a).origin]⟩) ∧
      ∀ rule, conditionMet rule (w.seen env.toEventEnv nowIso a) = true

/-- The rules that the alert belongs to are settled. -/
def RulesSettled (env : IngestEnv) (nowIso : String) (turn : Turn) (w : Webhook)
    (a : WebhookAlert) (s : IngestSession) : Prop :=
  ∀ rule ∈ s.store.monitor.db.enabledRules,
    rulePertains env.toPyText rule (w.seen env.toEventEnv nowIso a) = true →
      SettledFor rule a.entityId (turn.readings rule.id).now s.store.monitor.db

/-- **The status of an alert is honoured** exactly if one that is resolved is known or its rules are
settled, and one that fires is not known. -/
theorem alert_honoured_iff (hfits : w.Fits env nowIso turn.now a) (hready : Ready env.columns s) :
    Honoured env nowIso turn w a s ↔
      (a.status = "resolved" →
        a.key.any s.knows = true ∨ RulesSettled env nowIso turn w a s) ∧
      (a.status = "firing" → a.key.any s.knows = false) := by
  have hmet : ∀ rule, conditionMet rule (w.seen env.toEventEnv nowIso a) = true := fun _ => rfl
  by_cases hknown : a.key.any s.knows = true
  · have hrun := webhook_duplicate hfits hknown
    constructor
    · intro h
      refine ⟨fun _ => Or.inl hknown, fun hst => ?_⟩
      obtain ⟨s', -, -, htaken, -⟩ := (h.firing hst).1
      cases hrun.symm.trans htaken
    · intro h
      refine ⟨fun _ out s' hrun' id hraised => ?_, fun hst => ?_⟩
      · obtain ⟨-, rfl⟩ := returns_inj hrun hrun'
        cases hraised with
        | created h h' => cases h.symm.trans h'
        | reopened h hres h' hst' =>
            obtain rfl := Option.some.inj (h.symm.trans h')
            exact hst' hres
        | advanced h hpend h' hfire =>
            obtain rfl := Option.some.inj (h.symm.trans h')
            cases hpend.symm.trans hfire
      · rw [h.2 hst] at hknown
        cases hknown
  · have hnew := Bool.eq_false_iff.mpr hknown
    obtain ⟨s', hrun, -, hvisit⟩ := webhook_taken hfits hready hnew
    have hiff := raised_iff hready.valid hvisit hmet
    have hsettled : RulesSettled env nowIso turn w a s ↔
        ∀ id, ¬ Raised s.store.monitor.db s'.store.monitor.db id := by
      rw [hiff]
      exact ⟨fun h rule hrule => h rule ((turn.order.perm _).mem_iff.mp hrule),
        fun h rule hrule => h rule ((turn.order.perm _).mem_iff.mpr hrule)⟩
    constructor
    · intro h
      exact ⟨fun hst => Or.inr (hsettled.mpr (h.resolved hst _ _ hrun)), fun _ => hnew⟩
    · intro h
      refine ⟨fun hst out s'' hrun' => ?_, fun hst => ⟨?_, hmet⟩⟩
      · obtain ⟨-, rfl⟩ := returns_inj hrun hrun'
        rcases h.1 hst with hk | hs
        · exact absurd hk hknown
        · exact hsettled.mp hs
      · obtain ⟨added, hleaves, hgrows⟩ := (ingestEvent_ends env turn _ s).of_ok hrun
        cases hleaves with
        | @taken _ _ row _ _ _ _ samples _ _ => exact ⟨s', row, samples, hrun, hgrows.intake⟩

end Alerts

/-! ### A resolved alert -/

/-- A rule for the alerts of all hosts. -/
def alertRule : MonRule :=
  ⟨1, 1, false, none, "alert", none, ">", .finite 0, 0, none, [], "warning", 0, 0, 0, none, []⟩

/-- Tables with this rule. -/
def watchedStore : MonStore := ⟨.none, [], ⟨⟨[alertRule], [], [], 2, 1⟩, []⟩⟩

theorem watchedStore_valid : watchedStore.monitor.db.Valid where
  oneActive _ _ := Nat.zero_le _
  keyed := List.nodup_nil
  below _ h := by cases h
  rulesKeyed := by decide
  rulesBelow := by decide

/-- The load of `web-01`, with its status. -/
def loadOfWeb (status : String) : WebhookAlert := sampleAlert status "HighCPU" "web-01" "a1"

/-- An alert that fires is honoured at first. -/
theorem firing_honoured :
    Honoured smallEnv "2026-01-01T00:00:01Z" smallTurn (sampleWebhook "firing" [loadOfWeb "firing"])
      (loadOfWeb "firing") (.opened watchedStore) := by
  refine (alert_honoured_iff (smallEnv_fits _ _ _ _) ⟨by decide, watchedStore_valid⟩).mpr ⟨?_, ?_⟩
  · intro hst
    exact absurd hst (by decide)
  · exact fun _ => rfl

/-- **A resolved alert is created.** In a group that fires, the alert of a host that is resolved
creates an alert. -/
theorem resolved_raises :
    ¬ Honoured smallEnv "2026-01-01T00:00:01Z" smallTurn
      (sampleWebhook "firing" [loadOfWeb "resolved"]) (loadOfWeb "resolved")
      (.opened watchedStore) := by
  intro h
  have hcreated : ((ingestEvent smallEnv smallTurn (some ((sampleWebhook "firing"
      [loadOfWeb "resolved"]).event smallEnv.toEventEnv "2026-01-01T00:00:01Z"
        (loadOfWeb "resolved"))) (.opened watchedStore)).toOption.bind
      fun r => r.2.store.monitor.db.alert? 1).isSome = true := by
    decide +kernel
  cases hrun : ingestEvent smallEnv smallTurn (some ((sampleWebhook "firing"
      [loadOfWeb "resolved"]).event smallEnv.toEventEnv "2026-01-01T00:00:01Z"
        (loadOfWeb "resolved"))) (.opened watchedStore) with
  | error f =>
      rw [hrun] at hcreated
      cases hcreated
  | ok r =>
      rw [hrun] at hcreated
      obtain ⟨b, hb⟩ := Option.isSome_iff_exists.mp hcreated
      exact h.resolved rfl r.1 r.2 hrun 1 (.created rfl hb)

end LarkPlat
