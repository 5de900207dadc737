import LarkPlat.AlertEffects

/-!
# Calls as One Alert Sees Them

What concerns one alert is its row, its entries of the event log, and the notifications about it. A
complete call on valid tables changes these in one step, which depends on the call, on the rules
and on the alert itself, whatever the other alerts are: the call hits, resolves or reopens the
alert, creates it, sweeps it, or passes it by.

## Main results

* `apply_db`: the tables after a call are those of `MonDb.apply`.
* `apply_view`: every call is one `ViewStep` of every alert.
-/

namespace LarkPlat

open Programs LockedTable MonDb AlertEffect Monitor

/-! ### Views -/

/-- What concerns one alert. -/
structure AlertView where
  row : Option MonAlert
  log : List AlertLog
  sent : List Notice

/-- The view of the alert with an identifier. -/
def Monitor.view (m : Monitor) (id : ℕ) : AlertView where
  row := m.db.alert? id
  log := m.db.log.filter fun e => decide (e.alertId = id)
  sent := m.sent.filter fun n => decide (n.alertId = id)

/-- The view after an effect. -/
def AlertView.perform (v : AlertView) (e : AlertEffect) : AlertView :=
  ⟨some e.row, v.log ++ e.entries, v.sent ++ e.notices⟩

/-- The insert of an alert with its first entry. -/
def Monitor.create (m : Monitor) (rule : MonRule) (event : MonEvent) (t : Readings) : Monitor :=
  let e := creation rule event t m.db.nextAlert
  { m with
    db := { m.db with
      alerts := m.db.alerts ++ [e.row]
      log := m.db.log ++ e.entries
      nextAlert := m.db.nextAlert + 1 } }

section Views

variable {m : Monitor} {a : MonAlert} {e : AlertEffect} {id : ℕ}

theorem filter_entries_self (h : e.About a) :
    (e.entries.filter fun x => decide (x.alertId = a.id)) = e.entries :=
  List.filter_eq_self.mpr fun x hx => decide_eq_true (h.entries x hx)

theorem filter_entries_ne (h : e.About a) (hne : id ≠ a.id) :
    (e.entries.filter fun x => decide (x.alertId = id)) = [] :=
  List.filter_eq_nil_iff.mpr fun x hx hc => hne ((of_decide_eq_true hc).symm.trans (h.entries x hx))

theorem filter_notices_self (h : e.About a) :
    (e.notices.filter fun x => decide (x.alertId = a.id)) = e.notices :=
  List.filter_eq_self.mpr fun x hx => decide_eq_true (h.notices x hx)

theorem filter_notices_ne (h : e.About a) (hne : id ≠ a.id) :
    (e.notices.filter fun x => decide (x.alertId = id)) = [] :=
  List.filter_eq_nil_iff.mpr fun x hx hc => hne ((of_decide_eq_true hc).symm.trans (h.notices x hx))

theorem view_perform_self (h : m.db.Current a) (he : e.About a) :
    (m.perform e).view a.id = (m.view a.id).perform e := by
  have hrow : (m.db.put e.row e.entries).alert? a.id = some e.row := by
    have hfind := Table.find_of_mem h.valid.keyed h.mem
    rw [alert?, MonDb.put, he.id, Table.find_modify_self fun _ _ => he.id, hfind]
    rfl
  rw [Monitor.view, AlertView.perform, Monitor.perform, hrow, put_log, List.filter_append,
    List.filter_append, filter_entries_self he, filter_notices_self he]
  rfl

theorem view_perform_ne (he : e.About a) (hne : id ≠ a.id) :
    (m.perform e).view id = m.view id := by
  have hrow : (m.db.put e.row e.entries).alert? id = m.db.alert? id := by
    rw [alert?, alert?, MonDb.put, he.id]
    exact Table.find_modify_ne (fun _ _ => he.id) hne
  rw [Monitor.view, Monitor.view, Monitor.perform, hrow, put_log, List.filter_append,
    List.filter_append, filter_entries_ne he hne, filter_notices_ne he hne, List.append_nil,
    List.append_nil]

theorem view_create_self (hv : m.db.Valid) (rule : MonRule) (event : MonEvent) (t : Readings) :
    (m.create rule event t).view m.db.nextAlert =
      (m.view m.db.nextAlert).perform (creation rule event t m.db.nextAlert) := by
  have hnone :
      Table.find MonAlert.id m.db.alerts (newAlert rule event t m.db.nextAlert).id = none := by
    refine Table.find_eq_none_iff.mpr fun hc => ?_
    obtain ⟨x, hx, hid⟩ := List.mem_map.mp hc
    exact lt_irrefl _ (lt_of_eq_of_lt hid.symm (hv.below x hx))
  have hrow : (m.create rule event t).db.alert? m.db.nextAlert =
      some (newAlert rule event t m.db.nextAlert) := Table.find_concat_self hnone
  have hlog : ((creation rule event t m.db.nextAlert).entries.filter fun x =>
      decide (x.alertId = m.db.nextAlert)) = (creation rule event t m.db.nextAlert).entries :=
    filter_entries_self (about_creation rule t event m.db.nextAlert)
  rw [Monitor.view, hrow, AlertView.perform, Monitor.create]
  dsimp only
  rw [List.filter_append, hlog]
  exact congrArg (AlertView.mk _ _) (List.append_nil _).symm

theorem view_create_ne (rule : MonRule) (event : MonEvent) (t : Readings)
    (hne : id ≠ m.db.nextAlert) : (m.create rule event t).view id = m.view id := by
  have hrow : (m.create rule event t).db.alert? id = m.db.alert? id := Table.find_concat_ne hne
  have hlog := filter_entries_ne (about_creation rule t event m.db.nextAlert) hne
  rw [Monitor.view, hrow, Monitor.view, Monitor.create]
  dsimp only
  rw [List.filter_append, hlog, List.append_nil]

theorem view_row (hrow : (m.view id).row = some a) : a ∈ m.db.alerts ∧ a.id = id :=
  ⟨Table.mem_of_find hrow, Table.key_of_find hrow⟩

theorem view_of_mem (hv : m.db.Valid) (ha : a ∈ m.db.alerts) : (m.view a.id).row = some a :=
  Table.find_of_mem hv.keyed ha

/-! ### Entries of one action -/

/-- The entries of an alert with an action. -/
def entriesOf (action : AlertAction) (log : List AlertLog) (id : ℕ) : List AlertLog :=
  log.filter fun e => decide (e.alertId = id ∧ e.action = action)

theorem entriesOf_append (action : AlertAction) (log entries : List AlertLog) (id : ℕ) :
    entriesOf action (log ++ entries) id = entriesOf action log id ++ entriesOf action entries id :=
  List.filter_append _ _

theorem entriesOf_singleton (action : AlertAction) (x : AlertLog) (id : ℕ) :
    entriesOf action [x] id = if x.alertId = id ∧ x.action = action then [x] else [] := by
  rw [entriesOf, List.filter_cons]
  simp only [decide_eq_true_eq, List.filter_nil]

theorem entriesOf_own (action : AlertAction) (log : List AlertLog) (id : ℕ) :
    entriesOf action (log.filter fun e => decide (e.alertId = id)) id = entriesOf action log id := by
  rw [entriesOf, List.filter_filter]
  refine List.filter_congr fun x _ => ?_
  by_cases hx : x.alertId = id <;> simp [hx]

theorem entriesOf_note {action action' : AlertAction} (e : AlertEffect) (hne : action' ≠ action)
    (severity : String) (time : ℚ) (id : ℕ) :
    entriesOf action (e.note action' severity time).entries id = entriesOf action e.entries id := by
  rw [note, entriesOf_append, entriesOf_singleton, if_neg fun h => hne h.2, List.append_nil]

/-! ### The cooldown sees the entries of its alert only -/

theorem lastFire_own (log entries : List AlertLog) (id : ℕ) :
    AlertProg.lastFire ((log.filter fun e => decide (e.alertId = id)) ++ entries) id =
      AlertProg.lastFire (log ++ entries) id := by
  have hlast : ∀ l, AlertProg.lastFire l id = ((entriesOf .fire l id).map (·.time)).max? :=
    fun _ => rfl
  rw [hlast, hlast, entriesOf_append, entriesOf_append, entriesOf_own]

variable (channels : ℕ → List ℕ) (log : List AlertLog) (rule : MonRule) (t : Readings)

theorem notifying_own (hid : e.row.id = id) :
    notifying channels (log.filter fun x => decide (x.alertId = id)) rule t e =
      notifying channels log rule t e := by
  rw [notifying, notifying, AlertProg.cooling, AlertProg.cooling, hid, lastFire_own]

theorem hit_own (a : MonAlert) :
    hit channels (log.filter fun x => decide (x.alertId = a.id)) rule t a =
      hit channels log rule t a := by
  rw [hit, hit]
  cases a.status with
  | pending =>
      dsimp only
      split_ifs
      · exact notifying_own channels log rule t rfl
      · rfl
  | firing | acknowledged =>
      exact congrArg (escalating channels rule t) (notifying_own channels log rule t rfl)
  | resolved => rfl

theorem sweeping_own (env : SweepEnv) (rule : Option MonRule) (a : MonAlert) :
    sweeping channels (log.filter fun x => decide (x.alertId = a.id)) rule env a =
      sweeping channels log rule env a := by
  cases rule with
  | none => rfl
  | some rule =>
      rw [sweeping, sweeping]
      dsimp only
      split_ifs
      · rfl
      · exact notifying_own channels log rule _ rfl
      · rfl
      · rfl

end Views

/-! ### One rule -/

/-- The event belongs to the rule and to the alert. -/
def Concerns (py : PyText) (rule : MonRule) (event : MonEvent) (a : MonAlert) : Prop :=
  rulePertains py rule event = true ∧ a.entityId = some event.entityId

/-- What the evaluation of a rule does to an alert that it does not pass by. -/
inductive RuleView (channels : ℕ → List ℕ) (rules : List MonRule) (py : PyText) (rule : MonRule)
    (event : MonEvent) (t : Readings) (id : ℕ) (v : AlertView) : AlertView → Prop where
  | hit {a : MonAlert} (hrow : v.row = some a) (hr : a.ruleId = some rule.id)
      (hact : a.status.active = true) (hc : Concerns py rule event a)
      (hmet : conditionMet rule event = true) :
      RuleView channels rules py rule event t id v (v.perform (hit channels v.log rule t a))
  | resolve {a : MonAlert} (hrow : v.row = some a) (hr : a.ruleId = some rule.id)
      (hact : a.status.active = true) (hc : Concerns py rule event a)
      (hmet : conditionMet rule event = false) :
      RuleView channels rules py rule event t id v
        (v.perform (resolution channels (AlertProg.ruleOf rules a) t a))
  | reopen {a : MonAlert} (hrow : v.row = some a) (hr : a.ruleId = some rule.id)
      (hst : a.status = .resolved) (hc : Concerns py rule event a)
      (hmet : conditionMet rule event = true) :
      RuleView channels rules py rule event t id v (v.perform (reopening t a))
  | create (hrow : v.row = none) (hp : rulePertains py rule event = true)
      (hmet : conditionMet rule event = true) :
      RuleView channels rules py rule event t id v (v.perform (creation rule event t id))

section OneRule

variable {m m' : Monitor} {a b : MonAlert} (channels : ℕ → List ℕ) (py : PyText) (rule : MonRule)
  (event : MonEvent) (t : Readings)

/-- The evaluation of a rule passes an alert by. -/
def Passes (py : PyText) (rule : MonRule) (event : MonEvent) (v : AlertView) : Prop :=
  ∀ a, v.row = some a → a.ruleId = some rule.id → a.status.active = true →
    ¬ Concerns py rule event a

/-- The evaluation of a rule, as the alerts see it. -/
structure RuleVisit (channels : ℕ → List ℕ) (py : PyText) (rule : MonRule) (event : MonEvent)
    (t : Readings) (m m' : Monitor) : Prop where
  valid : m'.db.Valid
  rules : m'.db.rules = m.db.rules
  view : ∀ id, RuleView channels m.db.rules py rule event t id (m.view id) (m'.view id) ∨
    (m'.view id = m.view id ∧ Passes py rule event (m.view id))
  acted : rulePertains py rule event = true → conditionMet rule event = true →
    ∃ id, RuleView channels m.db.rules py rule event t id (m.view id) (m'.view id)

theorem MonDb.Valid.active_unique {db : MonDb} (hv : db.Valid) {r : ℕ} {entity : String}
    (ha : a ∈ db.alerts) (hb : b ∈ db.alerts) (hka : a.activeKey = some (r, entity))
    (hkb : b.activeKey = some (r, entity)) : a = b := by
  have hone := hv.oneActive r entity
  rw [activeCount, List.countP_eq_length_filter] at hone
  have hmem : ∀ x ∈ db.alerts, x.activeKey = some (r, entity) →
      x ∈ db.alerts.filter fun x => decide (x.activeKey = some (r, entity)) :=
    fun x hx hk => List.mem_filter.mpr ⟨hx, decide_eq_true hk⟩
  obtain ⟨x, hx⟩ := List.length_eq_one_iff.mp
    (le_antisymm hone (List.length_pos_of_mem (hmem a ha hka)))
  have ha' := hx ▸ hmem a ha hka
  have hb' := hx ▸ hmem b hb hkb
  rw [List.mem_singleton.mp ha', List.mem_singleton.mp hb']

theorem activeKey_eq {r : ℕ} {entity : String} (hact : a.status.active = true)
    (hr : a.ruleId = some r) (he : a.entityId = some entity) :
    a.activeKey = some (r, entity) := by
  rw [MonAlert.activeKey, if_pos hact, hr, he]
  rfl

theorem ruleVisit_active {e : AlertEffect} (h : m.db.Current a)
    (hrep : Replaces m.db a e.row) (habout : e.About a) (hr : a.ruleId = some rule.id)
    (hact : a.status.active = true) (he : a.entityId = some event.entityId)
    (hview : RuleView channels m.db.rules py rule event t a.id (m.view a.id)
      ((m.view a.id).perform e)) :
    RuleVisit channels py rule event t m (m.perform e) where
  valid := (h.put hrep e.entries).valid
  rules := rfl
  view id := by
    by_cases hid : id = a.id
    · subst hid
      rw [view_perform_self h habout]
      exact Or.inl hview
    · rw [view_perform_ne habout hid]
      refine Or.inr ⟨rfl, fun b hb hbr hbact hc => hid ?_⟩
      obtain ⟨hbmem, hbid⟩ := view_row hb
      rw [← hbid, h.valid.active_unique hbmem h.mem (activeKey_eq hbact hbr hc.2)
        (activeKey_eq hact hr he)]
  acted _ _ := ⟨a.id, by rw [view_perform_self h habout]; exact hview⟩

/-- Where no alert is active, every alert is passed by that is not reopened. -/
theorem passes_of_free (hfree : activeCount m.db.alerts (rule.id, event.entityId) = 0) (id : ℕ) :
    Passes py rule event (m.view id) := by
  intro b hb hbr hbact hc
  have hpos : 0 < activeCount m.db.alerts (rule.id, event.entityId) :=
    List.countP_pos_iff.mpr ⟨b, (view_row hb).1, decide_eq_true (activeKey_eq hbact hbr hc.2)⟩
  exact absurd hfree hpos.ne'

theorem ruleVisit_pass (hv : m.db.Valid) (h : ∀ id, Passes py rule event (m.view id))
    (hno : ¬ (rulePertains py rule event = true ∧ conditionMet rule event = true)) :
    RuleVisit channels py rule event t m m :=
  ⟨hv, rfl, fun id => Or.inr ⟨rfl, h id⟩, fun hp hmet => absurd ⟨hp, hmet⟩ hno⟩

theorem ruleVisit_reopen (h : m.db.Current a) (hr : a.ruleId = some rule.id)
    (hst : a.status = .resolved) (hc : Concerns py rule event a)
    (hmet : conditionMet rule event = true)
    (hfree : activeCount m.db.alerts (rule.id, event.entityId) = 0) :
    RuleVisit channels py rule event t m (m.perform (reopening t a)) where
  valid := by
    have hrep : Replaces m.db a (reopening t a).row :=
      ⟨rfl, rfl, rfl, admits_of_free hr hc.2 hfree⟩
    exact (h.put hrep _).valid
  rules := rfl
  view id := by
    by_cases hid : id = a.id
    · subst hid
      rw [view_perform_self h (about_reopening t a)]
      exact Or.inl (.reopen (view_of_mem h.valid h.mem) hr hst hc hmet)
    · rw [view_perform_ne (about_reopening t a) hid]
      exact Or.inr ⟨rfl, passes_of_free py rule event hfree id⟩
  acted _ _ := ⟨a.id, by
    rw [view_perform_self h (about_reopening t a)]
    exact .reopen (view_of_mem h.valid h.mem) hr hst hc hmet⟩

theorem insert_newAlert (hv : m.db.Valid)
    (hfree : activeCount m.db.alerts (rule.id, event.entityId) = 0) :
    m.db.insert (newAlert rule event t) = .ok { m.db with
        alerts := m.db.alerts ++ [newAlert rule event t m.db.nextAlert]
        nextAlert := m.db.nextAlert + 1 } ∧
      (m.create rule event t).db.Valid := by
  obtain ⟨db', hins, -, -, hvalid⟩ := insert_valid hv (newAlert rule event t) rfl rfl rfl hfree
  have heq := hins
  rw [MonDb.insert, write] at heq
  split_ifs at heq with hindexed
  · obtain rfl := Except.ok.inj heq
    exact ⟨hins, hvalid.oneActive, hvalid.keyed, hvalid.below, hvalid.rulesKeyed,
      hvalid.rulesBelow⟩
  · cases heq

theorem ruleVisit_create (hv : m.db.Valid) (hp : rulePertains py rule event = true)
    (hmet : conditionMet rule event = true)
    (hfree : activeCount m.db.alerts (rule.id, event.entityId) = 0) :
    RuleVisit channels py rule event t m (m.create rule event t) := by
  have hrow : (m.view m.db.nextAlert).row = none := by
    refine Table.find_eq_none_iff.mpr fun hc => ?_
    obtain ⟨x, hx, hxid⟩ := List.mem_map.mp hc
    exact lt_irrefl _ (lt_of_eq_of_lt hxid.symm (hv.below x hx))
  have hnew : RuleView channels m.db.rules py rule event t m.db.nextAlert
      (m.view m.db.nextAlert) ((m.create rule event t).view m.db.nextAlert) := by
    rw [view_create_self hv]
    exact .create hrow hp hmet
  refine ⟨(insert_newAlert rule event t hv hfree).2, rfl, fun id => ?_, fun _ _ => ⟨_, hnew⟩⟩
  by_cases hid : id = m.db.nextAlert
  · exact hid ▸ Or.inl hnew
  · rw [view_create_ne rule event t hid]
    exact Or.inr ⟨rfl, passes_of_free py rule event hfree id⟩

theorem alone_tryConverge_none (hno : rule.convergeSec ≤ 0 ∨
    m.db.recentlyResolved rule.id event.entityId rule.convergeSec t.cutoff = none) :
    (AlertProg.tryConverge rule event t).alone m = .ok (none, m) := by
  rw [AlertProg.tryConverge]
  by_cases hw : rule.convergeSec ≤ 0
  · rw [if_pos hw]
    rfl
  · rw [if_neg hw, AlertProg.alone_tables, hno.resolve_left hw]
    rfl

theorem firstHit_visit (hv : m.db.Valid) (hp : rulePertains py rule event = true)
    (hmet : conditionMet rule event = true)
    (hfree : activeCount m.db.alerts (rule.id, event.entityId) = 0)
    {k : Option MonAlert → AlertProg (List Outcome)} (hsome : ∀ x, ∃ out, k (some x) = pure out)
    (hnone : k none = do
      let id ← Prog.issue (.insert (newAlert rule event t))
      AlertProg.logEvent id .fire none .pending (newAlert rule event t id).severity t.logged
      pure [⟨rule.id, .log .fire, some .pending⟩]) :
    ∃ out m', (AlertProg.tryConverge rule event t >>= k).alone m = .ok (out, m') ∧
      RuleVisit channels py rule event t m m' := by
  by_cases hno : rule.convergeSec ≤ 0 ∨
      m.db.recentlyResolved rule.id event.entityId rule.convergeSec t.cutoff = none
  · refine ⟨[⟨rule.id, .log .fire, some .pending⟩], _, ?_,
      ruleVisit_create channels py rule event t hv hp hmet hfree⟩
    rw [AlertProg.alone_bind, alone_tryConverge_none rule event t hno]
    change (k none).alone m = _
    rw [hnone]
    change (serve _ (.insert _) m).bind _ = _
    rw [serve, (insert_newAlert rule event t hv hfree).1]
    rfl
  · rw [not_or] at hno
    obtain ⟨a, hrec⟩ := Option.ne_none_iff_exists'.mp hno.2
    obtain ⟨hmem, he, hst⟩ := recentlyResolved_some hrec
    obtain ⟨hmem, hr⟩ := mem_ofRule.mp hmem
    have hcur : m.db.Current a := ⟨hv, hmem⟩
    have hk : ∀ x, (k (some x)).Performs m (reopening t a) (reopening t a) := fun x => by
      obtain ⟨out, hout⟩ := hsome x
      rw [hout]
      exact AlertProg.performs_pure out
    obtain ⟨out, hout⟩ := AlertProg.performs_tryConverge hcur hst
      (fun r hrr hre => admits_of_free (hrr.trans hr) (hre.trans he) hfree) hno.1 hrec hk
    rw [AlertProg.perform_nothing hcur] at hout
    exact ⟨out, _, hout, ruleVisit_reopen channels py rule event t hcur hr hst ⟨hp, he⟩ hmet hfree⟩

/-- **One rule.** The evaluation of a rule, as every alert sees it. -/
theorem evaluateRule_visit (hv : m.db.Valid) :
    ∃ out m', (AlertProg.evaluateRule channels py rule event t).alone m = .ok (out, m') ∧
      RuleVisit channels py rule event t m m' := by
  rw [AlertProg.evaluateRule, AlertProg.alone_tables]
  dsimp only
  by_cases hp : rulePertains py rule event = true
  swap
  · rw [if_pos (by simpa using hp)]
    exact ⟨[], m, rfl, ruleVisit_pass _ _ _ _ _ hv (fun id b hb hbr hbact hc => hp hc.1)
      fun hc => hp hc.1⟩
  rw [if_neg (by simpa using hp)]
  cases hactive : m.db.activeByRuleEntity rule.id event.entityId with
  | none =>
      have hfree := activeByRuleEntity_none hactive
      by_cases hmet : conditionMet rule event = true
      swap
      · rw [if_pos (by simpa using hmet)]
        exact ⟨[], m, rfl, ruleVisit_pass _ _ _ _ _ hv (passes_of_free py rule event hfree)
          fun hc => hmet hc.2⟩
      rw [if_neg (by simpa using hmet)]
      exact firstHit_visit channels py rule event t hv hp hmet hfree (fun _ => ⟨_, rfl⟩) rfl
  | some a =>
      obtain ⟨hmem, he, hact⟩ := activeByRuleEntity_some hactive
      obtain ⟨hmem, hr⟩ := mem_ofRule.mp hmem
      have hcur : m.db.Current a := ⟨hv, hmem⟩
      by_cases hmet : conditionMet rule event = true
      · rw [if_neg (by simpa using hmet)]
        obtain ⟨out, hout⟩ := AlertProg.performs_hitAlert (t := t) hcur hact
        rw [AlertProg.perform_nothing hcur] at hout
        have habout : (hit channels m.db.log rule t a).About a := about_hit _ _ _ _
        refine ⟨out, _, hout, ruleVisit_active _ _ _ _ _ hcur
          (replaces_of_active hact habout.id habout.ruleId habout.entityId) habout hr hact he ?_⟩
        rw [← hit_own]
        exact .hit (view_of_mem hv hmem) hr hact ⟨hp, he⟩ hmet
      · rw [if_pos (by simpa using hmet)]
        obtain ⟨out, hout⟩ := (AlertProg.performs_resolveAlertEngine hcur hact).bind_pure
          fun _ => [Outcome.mk rule.id (.log .resolve) none]
        rw [AlertProg.perform_nothing hcur] at hout
        refine ⟨out, _, hout, ruleVisit_active _ _ _ _ _ hcur
          (replaces_of_resolved rfl rfl rfl rfl) (about_resolution t _ a) hr hact he ?_⟩
        exact .resolve (view_of_mem hv hmem) hr hact ⟨hp, he⟩ (by simpa using hmet)

end OneRule

/-! ### All rules -/

section Rules

variable {m m' : Monitor} {channels : ℕ → List ℕ} {rules : List MonRule} {py : PyText}
  {rule : MonRule} {event : MonEvent} {t : Readings} {id : ℕ} {v v' : AlertView} {a : MonAlert}

theorem RuleView.ruleId_of_row (h : RuleView channels rules py rule event t id v v')
    (hrow : v.row = some a) : a.ruleId = some rule.id := by
  cases h with
  | hit hrow' hr _ _ _ => exact Option.some.inj (hrow'.symm.trans hrow) ▸ hr
  | resolve hrow' hr _ _ _ => exact Option.some.inj (hrow'.symm.trans hrow) ▸ hr
  | reopen hrow' hr _ _ _ => exact Option.some.inj (hrow'.symm.trans hrow) ▸ hr
  | create hrow' _ _ => cases hrow'.symm.trans hrow

theorem RuleView.row_ruleId (h : RuleView channels rules py rule event t id v v') :
    ∃ a, v'.row = some a ∧ a.ruleId = some rule.id := by
  cases h with
  | hit _ hr _ _ _ => exact ⟨_, rfl, (about_hit _ _ _ _).ruleId.trans hr⟩
  | resolve _ hr _ _ _ => exact ⟨_, rfl, hr⟩
  | reopen _ hr _ _ _ => exact ⟨_, rfl, hr⟩
  | create _ _ _ => exact ⟨_, rfl, rfl⟩

/-- The evaluation of a list of rules, as the alerts see it. -/
structure RulesVisit (channels : ℕ → List ℕ) (py : PyText) (event : MonEvent)
    (readings : ℕ → Readings) (rules : List MonRule) (m m' : Monitor) : Prop where
  valid : m'.db.Valid
  sameRules : m'.db.rules = m.db.rules
  view : ∀ id,
    (∃ rule ∈ rules, RuleView channels m.db.rules py rule event (readings rule.id) id (m.view id)
      (m'.view id)) ∨
    (m'.view id = m.view id ∧ ∀ rule ∈ rules, Passes py rule event (m.view id))
  acted : ∀ rule ∈ rules, rulePertains py rule event = true → conditionMet rule event = true →
    ∃ id, RuleView channels m.db.rules py rule event (readings rule.id) id (m.view id) (m'.view id)

theorem RulesVisit.cons {m₁ : Monitor} {readings : ℕ → Readings}
    (hfirst : RuleVisit channels py rule event (readings rule.id) m m₁)
    (hrest : RulesVisit channels py event readings rules m₁ m')
    (hn : rule.id ∉ rules.map MonRule.id) :
    RulesVisit channels py event readings (rule :: rules) m m' := by
  -- no later rule has the identifier that the alert has now
  have hnot : ∀ rule' ∈ rules, ∀ id,
      RuleView channels m.db.rules py rule event (readings rule.id) id (m.view id) (m₁.view id) →
      ¬ RuleView channels m₁.db.rules py rule' event (readings rule'.id) id (m₁.view id)
        (m'.view id) := by
    intro rule' hmem id hview hlater
    obtain ⟨a, hrow, hr⟩ := hview.row_ruleId
    have hid := Option.some.inj (hr.symm.trans (hlater.ruleId_of_row hrow))
    exact hn (hid ▸ List.mem_map_of_mem hmem)
  have hkept : ∀ id,
      RuleView channels m.db.rules py rule event (readings rule.id) id (m.view id) (m₁.view id) →
      m'.view id = m₁.view id := by
    intro id hview
    rcases hrest.view id with ⟨rule', hmem, hlater⟩ | ⟨hsame, -⟩
    · exact absurd hlater (hnot rule' hmem id hview)
    · exact hsame
  refine ⟨hrest.valid, hrest.sameRules.trans hfirst.rules, fun id => ?_, fun rule' hmem hp hmet => ?_⟩
  · rcases hfirst.view id with hview | ⟨hsame, hpass⟩
    · refine Or.inl ⟨rule, List.mem_cons_self, ?_⟩
      rw [hkept id hview]
      exact hview
    · have hlater := hrest.view id
      rw [hfirst.rules, hsame] at hlater
      rcases hlater with ⟨rule', hmem, hlater⟩ | ⟨hsame', hpasses⟩
      · exact Or.inl ⟨rule', List.mem_cons_of_mem rule hmem, hlater⟩
      · refine Or.inr ⟨hsame', fun rule' hmem => ?_⟩
        rcases List.mem_cons.mp hmem with rfl | hmem
        · exact hpass
        · exact hpasses rule' hmem
  · rcases List.mem_cons.mp hmem with rfl | hmem
    · obtain ⟨id, hview⟩ := hfirst.acted hp hmet
      refine ⟨id, ?_⟩
      rw [hkept id hview]
      exact hview
    · obtain ⟨id, hlater⟩ := hrest.acted rule' hmem hp hmet
      rcases hfirst.view id with hview | ⟨hsame, -⟩
      · exact absurd hlater (hnot rule' hmem id hview)
      · rw [hfirst.rules, hsame] at hlater
        exact ⟨id, hlater⟩

/-- The loop of `evaluate_event`, as the alerts see it. -/
theorem evaluateRules_visit (channels : ℕ → List ℕ) (py : PyText) (event : MonEvent)
    (readings : ℕ → Readings) (hn : (rules.map MonRule.id).Nodup) (hv : m.db.Valid) :
    ∃ out m', (AlertProg.evaluateRules channels py event readings rules).alone m = .ok (out, m') ∧
      RulesVisit channels py event readings rules m m' := by
  induction rules generalizing m with
  | nil =>
      exact ⟨[], m, rfl, hv, rfl, (fun id => Or.inr ⟨rfl, fun _ h => by cases h⟩),
        fun _ h => by cases h⟩
  | cons rule rest ih =>
      rw [List.map_cons, List.nodup_cons] at hn
      obtain ⟨out, m₁, heval, hfirst⟩ :=
        evaluateRule_visit channels py rule event (readings rule.id) hv
      obtain ⟨outs, m', hrun, hrest⟩ := ih hn.2 hfirst.valid
      refine ⟨out ++ outs, m', ?_, RulesVisit.cons hfirst hrest hn.1⟩
      rw [AlertProg.evaluateRules, AlertProg.alone_bind, heval]
      change (_ >>= _ : AlertProg _).alone m₁ = _
      rw [AlertProg.alone_bind, hrun]
      rfl

/-- **`evaluate_event`**, as the alerts see it. -/
theorem evaluateEvent_visit (channels : ℕ → List ℕ) (py : PyText) (order : RuleOrder)
    (event : MonEvent) (readings : ℕ → Readings) (hv : m.db.Valid) :
    ∃ out m', (AlertProg.evaluateEvent channels py order readings event).alone m = .ok (out, m') ∧
      RulesVisit channels py event readings (order.rules m.db.enabledRules) m m' :=
  evaluateRules_visit channels py event readings (enabledRules_nodup hv order) hv

/-! ### The sweep -/

/-- The sweep of a list of alerts, as the alerts see it. -/
structure SweepVisit (channels : ℕ → List ℕ) (env : SweepEnv) (rows : List MonAlert)
    (m m' : Monitor) : Prop where
  valid : m'.db.Valid
  sameRules : m'.db.rules = m.db.rules
  visited : ∀ a ∈ rows, m'.view a.id =
    (m.view a.id).perform
      (sweeping channels (m.view a.id).log (AlertProg.ruleOf m.db.rules a) env a)
  unvisited : ∀ id, id ∉ rows.map MonAlert.id → m'.view id = m.view id

theorem replaces_sweeping {db : MonDb} (log : List AlertLog) (found : Option MonRule)
    (env : SweepEnv) (hact : a.status.active = true) :
    Replaces db a (sweeping channels log found env a).row := by
  have habout : (sweeping channels log found env a).About a := about_sweeping _ _ _ _
  exact replaces_of_active hact habout.id habout.ruleId habout.entityId

theorem sweepAlerts_visit (channels : ℕ → List ℕ) (env : SweepEnv) {rows : List MonAlert}
    (hn : (rows.map MonAlert.id).Nodup)
    (hrows : ∀ x ∈ rows, x ∈ m.db.alerts ∧ x.status.active = true) (hv : m.db.Valid) :
    ∃ m', (AlertProg.sweepAlerts channels env rows).alone m = .ok ((), m') ∧
      SweepVisit channels env rows m m' := by
  induction rows generalizing m with
  | nil => exact ⟨m, rfl, hv, rfl, (fun _ h => by cases h), fun _ _ => rfl⟩
  | cons a rest ih =>
      rw [List.map_cons, List.nodup_cons] at hn
      obtain ⟨hmem, hact⟩ := hrows a List.mem_cons_self
      have hcur : m.db.Current a := ⟨hv, hmem⟩
      set e := sweeping channels m.db.log (AlertProg.ruleOf m.db.rules a) env a with he
      have habout : e.About a := about_sweeping _ _ _ _
      have hrep : Replaces m.db a e.row := replaces_sweeping _ _ _ hact
      obtain ⟨⟨⟩, hsweep⟩ : (AlertProg.sweepAlert channels env a).Performs m (nothing a) e :=
        AlertProg.performs_sweepAlert hcur env
      rw [AlertProg.perform_nothing hcur] at hsweep
      have hrest : ∀ x ∈ rest, x ∈ (m.perform e).db.alerts ∧ x.status.active = true := by
        intro x hx
        obtain ⟨hx', hxact⟩ := hrows x (List.mem_cons_of_mem a hx)
        refine ⟨(put_moves hcur hrep e.entries).mem_of_ne hx' fun hc => ?_, hxact⟩
        exact hn.1 (hc ▸ List.mem_map_of_mem hx)
      obtain ⟨m', hrun, hvisit⟩ := ih hn.2 hrest (hcur.put hrep e.entries).valid
      refine ⟨m', ?_, hvisit.valid, hvisit.sameRules, ?_, ?_⟩
      · rw [AlertProg.sweepAlerts, AlertProg.alone_bind, hsweep]
        exact hrun
      · intro x hx
        rcases List.mem_cons.mp hx with rfl | hx
        · rw [hvisit.unvisited _ hn.1, view_perform_self hcur habout, he, ← sweeping_own]
          rfl
        · have hne : x.id ≠ a.id := fun hc => hn.1 (hc ▸ List.mem_map_of_mem hx)
          rw [hvisit.visited x hx, view_perform_ne habout hne]
          rfl
      · intro id hid
        rw [List.map_cons, List.mem_cons, not_or] at hid
        rw [hvisit.unvisited id hid.2, view_perform_ne habout hid.1]

end Rules

/-! ### The calls of users -/

section Users

variable {m : Monitor} {a : MonAlert} (user : Actor) (visible : Option (List String))
  (t : Readings) (alertId : ℕ)

/-- A call of a user raises, or does this to an alert with the identifier. -/
def UserVisit (p : AlertProg Unit) (m : Monitor) (alertId : ℕ) (P : MonAlert → Prop)
    (effect : MonAlert → AlertEffect) : Prop :=
  (∃ e, p.alone m = .error e) ∨
    ∃ a, m.db.Current a ∧ a.id = alertId ∧ P a ∧ p.alone m = .ok ((), m.perform (effect a))

/-- A call begins with the check of a permission and the lookup of the alert. -/
theorem userVisit_onAlert (code : String) (hv : m.db.Valid) {call : MonAlert → AlertProg Unit}
    {P : MonAlert → Prop} {effect : MonAlert → AlertEffect}
    (hcall : ∀ a, m.db.Current a → (∃ e, (call a).alone m = .error e) ∨
      P a ∧ (call a).Performs m (nothing a) (effect a)) :
    UserVisit (AlertProg.onAlert user code visible alertId call) m alertId P effect := by
  rw [UserVisit, AlertProg.onAlert, AlertProg.requirePerm]
  cases user.requirePerm code with
  | error e => exact Or.inl ⟨e, rfl⟩
  | ok _ =>
      change (∃ e, (AlertProg.tables >>= _ : AlertProg Unit).alone m = .error e) ∨
        ∃ a, _ ∧ _ ∧ _ ∧ (AlertProg.tables >>= _ : AlertProg Unit).alone m = _
      rw [AlertProg.alone_tables]
      cases hlook : (m.db.alert? alertId).filter (entityInScope visible) with
      | none => exact Or.inl ⟨_, rfl⟩
      | some a =>
          have hcur : m.db.Current a := ⟨hv, mem_of_lookup hlook⟩
          have hid : a.id = alertId := Table.key_of_find (Option.eq_some_of_filter_eq_some hlook)
          rcases hcall a hcur with herr | ⟨hP, ⟨⟨⟩, hok⟩⟩
          · exact Or.inl herr
          · rw [AlertProg.perform_nothing hcur] at hok
            exact Or.inr ⟨a, hcur, hid, hP, hok⟩

theorem performs_acknowledge (h : m.db.Current a) (hst : a.status = .firing) :
    (AlertProg.acknowledge t a).Performs m (nothing a) (acknowledgement t a) := by
  have hrep : ∀ {r : MonAlert}, r.id = a.id → r.ruleId = a.ruleId → r.entityId = a.entityId →
      Replaces m.db a r := replaces_of_active (by rw [hst]; rfl)
  rw [AlertProg.acknowledge, if_neg (not_not_intro hst), ← hst]
  refine AlertProg.performs_optimisticUpdate h (hrep rfl rfl rfl) ?_
  refine (AlertProg.performs_update h (hrep rfl rfl rfl) (hrep rfl rfl rfl)).bind fun _ => ?_
  rw [hst]
  exact (AlertProg.performs_logEvent _ _ _ _ _ _).bind fun _ => ⟨(), rfl⟩

theorem acknowledgeAlert_visit (hv : m.db.Valid) :
    UserVisit (AlertProg.acknowledgeAlert user visible t alertId) m alertId
      (fun a => a.status = .firing) (acknowledgement t) := by
  refine userVisit_onAlert user visible alertId _ hv fun a hcur => ?_
  by_cases hst : a.status = .firing
  · exact Or.inr ⟨hst, performs_acknowledge t hcur hst⟩
  · rw [AlertProg.acknowledge, if_pos hst]
    exact Or.inl ⟨_, rfl⟩

theorem performs_resolve (h : m.db.Current a) (hst : a.status ≠ .resolved)
    (channels : ℕ → List ℕ) :
    (AlertProg.resolve t a).Performs m (nothing a) (resolution channels none t a) := by
  rw [AlertProg.resolve, if_neg hst]
  refine AlertProg.performs_optimisticUpdate h (replaces_of_resolved rfl rfl rfl rfl) ?_
  refine (AlertProg.performs_update h (replaces_of_resolved rfl rfl rfl rfl)
    (replaces_of_resolved rfl rfl rfl rfl)).bind fun _ => ?_
  exact (AlertProg.performs_logEvent _ _ _ _ _ _).bind fun _ => ⟨(), rfl⟩

theorem resolveAlert_visit (hv : m.db.Valid) (channels : ℕ → List ℕ) :
    UserVisit (AlertProg.resolveAlert user visible t alertId) m alertId
      (fun a => a.status ≠ .resolved) (resolution channels none t) := by
  refine userVisit_onAlert user visible alertId _ hv fun a hcur => ?_
  by_cases hst : a.status = .resolved
  · rw [AlertProg.resolve, if_pos hst]
    exact Or.inl ⟨_, rfl⟩
  · exact Or.inr ⟨hst, performs_resolve t hcur hst channels⟩

end Users

/-! ### Complete calls -/

namespace Monitor

/-- The call, up to its commit. -/
def exec (channels : ℕ → List ℕ) (m : Monitor) : MonOp → Except PyErr Monitor
  | .evaluateEvent py order readings event =>
      ((AlertProg.evaluateEvent channels py order readings event).alone m).map Prod.snd
  | .sweepActiveAlerts env => ((AlertProg.sweepActiveAlerts channels env).alone m).map Prod.snd
  | .acknowledgeAlert user visible t alertId =>
      ((AlertProg.acknowledgeAlert user visible t alertId).alone m).map Prod.snd
  | .resolveAlert user visible t alertId =>
      ((AlertProg.resolveAlert user visible t alertId).alone m).map Prod.snd
  | op => (m.db.exec op).map fun db => { m with db := db }

/-- The state after a call; one that raises is rolled back. -/
def apply (channels : ℕ → List ℕ) (m : Monitor) (op : MonOp) : Monitor :=
  match m.exec channels op with
  | .ok m' => m'
  | .error _ => m

theorem apply_of_exec {channels : ℕ → List ℕ} {m m' : Monitor} {op : MonOp}
    (h : m.exec channels op = .ok m') : m.apply channels op = m' := by
  rw [apply, h]

theorem map_snd_of_shown {α : Type} {r : Except PyErr (α × Monitor)}
    {s : Except PyErr (α × MonDb)} (h : shown r = s) :
    (r.map Prod.snd).map Monitor.db = s.map Prod.snd := by
  subst h
  cases r <;> rfl

theorem map_snd_unit {ε σ : Type} (r : Except ε σ) :
    (r.map fun x => ((), x)).map Prod.snd = r := by
  cases r <;> rfl

theorem map_db (m : Monitor) (r : Except PyErr MonDb) :
    (r.map fun db => ({ m with db := db } : Monitor)).map Monitor.db = r := by
  cases r <;> rfl

theorem exec_db (channels : ℕ → List ℕ) {m : Monitor} (hv : m.db.Valid) (op : MonOp) :
    (m.exec channels op).map Monitor.db = m.db.exec op := by
  cases op with
  | evaluateEvent py order readings event =>
      refine (map_snd_of_shown (AlertProg.evaluateEvent_alone channels event py order readings
        hv)).trans ?_
      rw [MonDb.exec]
      cases LarkPlat.evaluateEvent py order readings m.db event <;> rfl
  | sweepActiveAlerts env =>
      exact (map_snd_of_shown (AlertProg.sweepActiveAlerts_alone channels env m)).trans
        (map_snd_unit _)
  | acknowledgeAlert user visible t alertId =>
      exact (map_snd_of_shown (AlertProg.acknowledgeAlert_alone t user visible alertId m)).trans
        (map_snd_unit _)
  | resolveAlert user visible t alertId =>
      exact (map_snd_of_shown (AlertProg.resolveAlert_alone t user visible alertId m)).trans
        (map_snd_unit _)
  | createRule user featureEnabled data => exact map_db _ _
  | updateRule user ruleId data => exact map_db _ _
  | deleteRule user ruleId => exact map_db _ _
  | setRuleStatus user ruleId enabled => exact map_db _ _

/-- **The monitor refines the tables.** -/
theorem apply_db (channels : ℕ → List ℕ) {m : Monitor} (hv : m.db.Valid) (op : MonOp) :
    (m.apply channels op).db = m.db.apply op := by
  have h := exec_db channels hv op
  rw [apply, MonDb.apply, ← h]
  cases m.exec channels op <;> rfl

theorem apply_valid (channels : ℕ → List ℕ) {m : Monitor} (hv : m.db.Valid) (op : MonOp) :
    (m.apply channels op).db.Valid := by
  rw [apply_db channels hv]
  exact (exec_sound hv op).2

end Monitor

/-! ### Calls on one alert -/

/-- The call works on the alert. -/
def MonDb.Visits (db : MonDb) : MonOp → MonAlert → Prop
  | .evaluateEvent py _ _ event, a => a.status.active = true ∧
      ∃ rule ∈ db.enabledRules, a.ruleId = some rule.id ∧ Concerns py rule event a
  | .sweepActiveAlerts env, a =>
      (env.featureEnabled = true ∧ env.due = true) ∧ a ∈ db.activeAlerts 500
  | _, _ => False

/-- What a complete call does to one alert. -/
inductive ViewStep (channels : ℕ → List ℕ) (db : MonDb) (id : ℕ) :
    MonOp → AlertView → AlertView → Prop where
  | pass (op : MonOp) (v : AlertView) (h : ∀ a, v.row = some a → ¬ db.Visits op a) :
      ViewStep channels db id op v v
  | event (py : PyText) (order : RuleOrder) (readings : ℕ → Readings) (event : MonEvent)
      {rule : MonRule} {v v' : AlertView} (hrule : rule ∈ db.enabledRules)
      (h : RuleView channels db.rules py rule event (readings rule.id) id v v') :
      ViewStep channels db id (.evaluateEvent py order readings event) v v'
  | sweep (env : SweepEnv) {v : AlertView} {a : MonAlert} (hrow : v.row = some a)
      (hdue : env.featureEnabled = true ∧ env.due = true) (hmem : a ∈ db.activeAlerts 500) :
      ViewStep channels db id (.sweepActiveAlerts env) v
        (v.perform (sweeping channels v.log (AlertProg.ruleOf db.rules a) env a))
  | acknowledge (user : Actor) (visible : Option (List String)) (t : Readings) {v : AlertView}
      {a : MonAlert} (hrow : v.row = some a) (hst : a.status = .firing) :
      ViewStep channels db id (.acknowledgeAlert user visible t id) v
        (v.perform (acknowledgement t a))
  | close (user : Actor) (visible : Option (List String)) (t : Readings) {v : AlertView}
      {a : MonAlert} (hrow : v.row = some a) (hst : a.status ≠ .resolved) :
      ViewStep channels db id (.resolveAlert user visible t id) v
        (v.perform (resolution channels none t a))

section Steps

variable {m : Monitor} (channels : ℕ → List ℕ)

theorem userVisit_view {p : AlertProg Unit} {op : MonOp} {alertId : ℕ} {P : MonAlert → Prop}
    {effect : MonAlert → AlertEffect} (h : UserVisit p m alertId P effect)
    (hop : m.exec channels op = (p.alone m).map Prod.snd) (hpass : ∀ a, ¬ m.db.Visits op a)
    (habout : ∀ a, (effect a).About a) (id : ℕ)
    (hstep : ∀ a, (m.view alertId).row = some a → P a →
      ViewStep channels m.db alertId op (m.view alertId) ((m.view alertId).perform (effect a))) :
    ViewStep channels m.db id op (m.view id) ((m.apply channels op).view id) := by
  rcases h with ⟨e, herr⟩ | ⟨a, hcur, rfl, hP, hok⟩
  · have happly : m.apply channels op = m := by
      rw [Monitor.apply, hop, herr]
      rfl
    rw [happly]
    exact .pass op _ fun a _ => hpass a
  · have happly : m.apply channels op = m.perform (effect a) := by
      rw [Monitor.apply, hop, hok]
      rfl
    rw [happly]
    by_cases hid : id = a.id
    · subst hid
      rw [view_perform_self hcur (habout a)]
      exact hstep a (view_of_mem hcur.valid hcur.mem) hP
    · rw [view_perform_ne (habout a) hid]
      exact .pass op _ fun b _ => hpass b

theorem pass_of_same {m' : Monitor} {op : MonOp} {id : ℕ} (hpass : ∀ a, ¬ m.db.Visits op a)
    (halerts : m'.db.alerts = m.db.alerts) (hlog : m'.db.log = m.db.log)
    (hsent : m'.sent = m.sent) :
    ViewStep channels m.db id op (m.view id) (m'.view id) := by
  have hview : m'.view id = m.view id := by
    rw [Monitor.view, Monitor.view, alert?, alert?, halerts, hlog, hsent]
  rw [hview]
  exact .pass op _ fun a _ => hpass a

theorem ruleCall_view {op : MonOp} {id : ℕ} (hpass : ∀ a, ¬ m.db.Visits op a)
    (hop : m.exec channels op = (m.db.exec op).map fun db => { m with db := db })
    (hsame : ∀ db', m.db.exec op = .ok db' → db'.alerts = m.db.alerts ∧ db'.log = m.db.log) :
    ViewStep channels m.db id op (m.view id) ((m.apply channels op).view id) := by
  rw [Monitor.apply, hop]
  cases hexec : m.db.exec op with
  | error e => exact pass_of_same channels hpass rfl rfl rfl
  | ok db' => exact pass_of_same channels hpass (hsame db' hexec).1 (hsame db' hexec).2 rfl

theorem changeRule_same {db db' : MonDb} {user : Actor} {perm : String} {ruleId : ℕ}
    {set : MonRule → MonRule} (h : changeRule user perm ruleId set db = .ok db') :
    db'.alerts = db.alerts ∧ db'.log = db.log := by
  rw [changeRule] at h
  rcases requirePerm_cases user perm with hp | ⟨msg, hp⟩ <;> rw [hp] at h
  swap
  · cases h
  dsimp only [bind, Except.bind] at h
  split at h
  · cases h
  · obtain rfl := Except.ok.inj h
    exact ⟨rfl, rfl⟩

theorem createRule_same {db db' : MonDb} {user : Actor} {featureEnabled : Bool} {data : MonRule}
    (h : createRule user featureEnabled data db = .ok db') :
    db'.alerts = db.alerts ∧ db'.log = db.log := by
  rw [createRule] at h
  rcases requirePerm_cases user "monitor:rule:add" with hp | ⟨msg, hp⟩ <;> rw [hp] at h
  swap
  · cases h
  dsimp only [bind, Except.bind, pure, Except.pure] at h
  split_ifs at h
  all_goals cases h
  exact ⟨rfl, rfl⟩

/-- **One call, one step of every alert.** -/
theorem apply_view (hv : m.db.Valid) (op : MonOp) (id : ℕ) :
    ViewStep channels m.db id op (m.view id) ((m.apply channels op).view id) := by
  have hnot : ∀ {op}, (∀ a, m.db.Visits op a = False) → ∀ a, ¬ m.db.Visits op a :=
    fun h a hc => (h a).mp hc
  cases op with
  | evaluateEvent py order readings event =>
      obtain ⟨out, m', hrun, hvisit⟩ := evaluateEvent_visit channels py order event readings hv
      have happly : m.apply channels (.evaluateEvent py order readings event) = m' := by
        refine apply_of_exec ?_
        rw [Monitor.exec, hrun]
        rfl
      rw [happly]
      rcases hvisit.view id with ⟨rule, hrule, hview⟩ | ⟨hsame, hpass⟩
      · exact .event py order readings event ((order.perm _).mem_iff.mp hrule) hview
      · rw [hsame]
        refine .pass _ _ fun a hrow hvisits => ?_
        obtain ⟨hact, rule, hrule, hr, hc⟩ := hvisits
        exact hpass rule ((order.perm _).mem_iff.mpr hrule) a hrow hr hact hc
  | sweepActiveAlerts env =>
      by_cases hdue : env.featureEnabled = true ∧ env.due = true
      · obtain ⟨hn, hrows⟩ := activeAlerts_spec hv 500
        obtain ⟨m', hrun, hvisit⟩ := sweepAlerts_visit channels env hn hrows hv
        have happly : m.apply channels (.sweepActiveAlerts env) = m' := by
          refine apply_of_exec ?_
          rw [Monitor.exec, AlertProg.sweepActiveAlerts, if_pos hdue, AlertProg.alone_tables,
            AlertProg.alone_bind, hrun]
          rfl
        rw [happly]
        by_cases hmem : id ∈ (m.db.activeAlerts 500).map MonAlert.id
        · obtain ⟨a, ha, rfl⟩ := List.mem_map.mp hmem
          rw [hvisit.visited a ha]
          exact .sweep env (view_of_mem hv (hrows a ha).1) hdue ha
        · rw [hvisit.unvisited id hmem]
          refine .pass _ _ fun a hrow hvisits => hmem ?_
          rw [← (view_row hrow).2]
          exact List.mem_map_of_mem hvisits.2
      · have happly : m.apply channels (.sweepActiveAlerts env) = m := by
          refine apply_of_exec ?_
          rw [Monitor.exec, AlertProg.sweepActiveAlerts, if_neg hdue]
          rfl
        rw [happly]
        exact .pass _ _ fun a _ hvisits => hdue hvisits.1
  | acknowledgeAlert user visible t alertId =>
      exact userVisit_view channels (acknowledgeAlert_visit user visible t alertId hv) rfl
        (hnot fun _ => rfl) (about_acknowledgement t) id
        fun a hrow hst => .acknowledge user visible t hrow hst
  | resolveAlert user visible t alertId =>
      exact userVisit_view channels (resolveAlert_visit user visible t alertId hv channels) rfl
        (hnot fun _ => rfl) (about_resolution t none) id
        fun a hrow hst => .close user visible t hrow hst
  | createRule user featureEnabled data =>
      exact ruleCall_view channels (hnot fun _ => rfl) rfl fun _ => createRule_same
  | updateRule user ruleId data =>
      exact ruleCall_view channels (hnot fun _ => rfl) rfl fun _ => changeRule_same
  | deleteRule user ruleId =>
      exact ruleCall_view channels (hnot fun _ => rfl) rfl fun _ => changeRule_same
  | setRuleStatus user ruleId enabled =>
      exact ruleCall_view channels (hnot fun _ => rfl) rfl fun _ => changeRule_same

end Steps

end LarkPlat
