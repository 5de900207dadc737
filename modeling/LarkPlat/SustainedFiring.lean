import LarkPlat.AlertViews

/-!
# Alerts Fire on a Sustained Condition

A pending alert carries the time at which it was put into `pending`. The engine sets that time
with the creation and with every reopening, keeps it while the alert waits, and resolves the alert
at the first event of its entity that pertains to the rule and does not meet the condition. Both
triggers of a firing, the next hit and the sweep, ask for the duration of the rule since that time.

## Main results

* `pending_step`: a pending alert was pending before a call that does not refute it, or the call
  has put it into `pending`.
* `fires_after_sustained_condition`: in every history of complete calls, the condition has held for
  the duration of the rule before an alert of it fires.
-/

namespace LarkPlat

open MonDb AlertEffect

/-- The call processes an event of the entity that pertains to the rule and does not meet its
condition. -/
def MonOp.Refutes (op : MonOp) (rule : MonRule) (entityId : Option String) : Prop :=
  ∃ py order readings event, op = .evaluateEvent py order readings event ∧
    rulePertains py rule event = true ∧ entityId = some event.entityId ∧
    conditionMet rule event = false

/-- At the time `s`, the call puts the alert into `pending`, by its creation or by reopening it: it
processes an event of the alert's entity that pertains to the rule and meets its condition. -/
structure MonDb.Arms (db : MonDb) (op : MonOp) (rule : MonRule) (a : MonAlert) (s : ℚ) : Prop where
  event : ∃ py order readings event, op = .evaluateEvent py order readings event ∧
    rulePertains py rule event = true ∧ a.entityId = some event.entityId ∧
    conditionMet rule event = true ∧
    (s = (readings rule.id).now ∨ s = (readings rule.id).reopened)
  before : ∀ b, db.alert? a.id = some b → b.status = .resolved
  after : ∃ b, (db.apply op).alert? a.id = some b ∧ b.status = .pending ∧ b.pendingSince = some s

section Steps

variable {db : MonDb} {op : MonOp} {rule : MonRule} {a b : MonAlert} {id : ℕ}

theorem exists_viewStep (hv : db.Valid) (op : MonOp) (id : ℕ) :
    ∃ v v', ViewStep (fun _ => []) db id op v v' ∧ v.row = db.alert? id ∧
      v'.row = (db.apply op).alert? id := by
  set m : Monitor := ⟨db, []⟩
  have hstep := apply_view (m := m) (fun _ => []) hv op id
  refine ⟨_, _, hstep, rfl, ?_⟩
  rw [Monitor.view, m.apply_db _ hv]

theorem rule_eq_of_id {rule' : MonRule} (hv : db.Valid) (h : rule ∈ db.rules)
    (h' : rule' ∈ db.rules) (hid : rule'.id = rule.id) : rule' = rule := by
  have hfind := Table.find_of_mem hv.rulesKeyed h
  rw [← hid, Table.find_of_mem hv.rulesKeyed h'] at hfind
  exact Option.some.inj hfind

theorem mem_rules_of_enabled (h : rule ∈ db.enabledRules) : rule ∈ db.rules :=
  List.mem_of_mem_filter h

theorem ruleOf_eq {rule' : MonRule} (hv : db.Valid) (h : rule ∈ db.rules)
    (hr : a.ruleId = some rule.id) (hfound : AlertProg.ruleOf db.rules a = some rule') :
    rule' = rule := by
  obtain ⟨r, hfilter, hfind⟩ := Option.bind_eq_some_iff.mp hfound
  have hid : r = rule.id := by
    rw [hr] at hfilter
    exact (Option.some.inj (Option.eq_some_of_filter_eq_some hfilter)).symm
  refine rule_eq_of_id hv h (Table.mem_of_find hfind) ?_
  rw [Table.key_of_find hfind, hid]

/-- A call that leaves an alert in `pending` does not refute it, or has put it there. -/
theorem pending_step (hv : db.Valid) (hrule : rule ∈ db.enabledRules)
    (hb : (db.apply op).alert? id = some b) (hr : b.ruleId = some rule.id)
    (hst : b.status = .pending) :
    (∃ a, db.alert? id = some a ∧ a.ruleId = some rule.id ∧ a.status = .pending ∧
      a.entityId = b.entityId ∧ a.pendingSince = b.pendingSince ∧ ¬ op.Refutes rule b.entityId) ∨
    ∃ s, db.Arms op rule b s ∧ b.pendingSince = some s := by
  obtain ⟨v, v', hstep, hrow, hrow'⟩ := exists_viewStep hv op id
  rw [hb] at hrow'
  have hid : b.id = id := Table.key_of_find hb
  have hbefore : v.row = db.alert? b.id := by rw [hid, hrow]
  have hafter : (db.apply op).alert? b.id = some b := by rw [hid, hb]
  cases hstep with
  | pass _ _ h =>
      have hrow := hrow.symm.trans hrow'
      refine Or.inl ⟨b, hrow, hr, hst, rfl, rfl, ?_⟩
      rintro ⟨py, order, readings, event, rfl, hp, he, -⟩
      have hact : b.status.active = true := by
        rw [hst]
        rfl
      exact h b hrow' ⟨hact, rule, hrule, hr, hp, he⟩
  | event py order readings event hrule' hview =>
      obtain ⟨b', hb', hr'⟩ := hview.row_ruleId
      obtain rfl := Option.some.inj (hb'.symm.trans hrow')
      obtain rfl := rule_eq_of_id hv (mem_rules_of_enabled hrule) (mem_rules_of_enabled hrule')
        (Option.some.inj (hr'.symm.trans hr))
      have hrow'' := hrow'
      cases hview with
      | hit ha hra hact hc hmet =>
          obtain rfl := Option.some.inj hrow'
          obtain ⟨hst', hstamp⟩ := hit_row_pending _ _ _ hact hst
          rw [hstamp]
          refine Or.inl ⟨_, hrow.symm.trans ha, hra, hst', rfl, rfl, ?_⟩
          rintro ⟨_, _, _, _, heq, -, -, hmet'⟩
          cases heq
          rw [hmet] at hmet'
          cases hmet'
      | resolve =>
          obtain rfl := Option.some.inj hrow'
          cases hst
      | reopen ha hra hres hc hmet =>
          obtain rfl := Option.some.inj hrow'
          refine Or.inr ⟨_, ⟨⟨py, order, readings, event, rfl, hc.1, hc.2, hmet, Or.inr rfl⟩, ?_,
            _, hafter, hst, rfl⟩, rfl⟩
          intro x hx
          rw [Option.some.inj ((hx.symm.trans hbefore.symm).trans ha)]
          exact hres
      | create hnone hp hmet =>
          obtain rfl := Option.some.inj hrow'
          refine Or.inr ⟨_, ⟨⟨py, order, readings, event, rfl, hp, rfl, hmet, Or.inl rfl⟩, ?_,
            _, hafter, hst, rfl⟩, rfl⟩
          intro x hx
          rw [← hbefore, hnone] at hx
          cases hx
  | @sweep env _ a ha hdue hmem =>
      obtain rfl := Option.some.inj hrow'
      rcases sweeping_cases v.log (AlertProg.ruleOf db.rules a) env a with
        hsame | ⟨found, -, -, -, -, hfires⟩ | ⟨found, -, -, hne, hesc⟩
      · rw [hsame] at hr hst ⊢
        refine Or.inl ⟨_, hrow.symm.trans ha, hr, hst, rfl, rfl, ?_⟩
        rintro ⟨_, _, _, _, heq, -⟩
        cases heq
      · rw [hfires, firing_row] at hst
        cases hst
      · rw [hesc, escalating_row] at hst
        exact absurd hst hne
  | acknowledge user visible t ha hst' =>
      obtain rfl := Option.some.inj hrow'
      cases hst
  | close user visible t ha hst' =>
      obtain rfl := Option.some.inj hrow'
      cases hst

/-- An alert that a call moves from `pending` to `firing` was ripe. -/
theorem firing_step (hv : db.Valid) (hrule : rule ∈ db.enabledRules)
    (ha : db.alert? id = some a) (hr : a.ruleId = some rule.id) (hst : a.status = .pending)
    (hb : (db.apply op).alert? id = some b) (hfiring : b.status = .firing) :
    ∃ t, b.firedAt = some t ∧ Ripe rule t a := by
  obtain ⟨v, v', hstep, hrow, hrow'⟩ := exists_viewStep hv op id
  rw [ha] at hrow
  rw [hb] at hrow'
  cases hstep with
  | pass _ _ h =>
      obtain rfl := Option.some.inj (hrow.symm.trans hrow')
      rw [hst] at hfiring
      cases hfiring
  | event py order readings event hrule' hview =>
      obtain rfl := rule_eq_of_id hv (mem_rules_of_enabled hrule) (mem_rules_of_enabled hrule')
        (Option.some.inj ((hview.ruleId_of_row hrow).symm.trans hr))
      cases hview with
      | hit hrow'' _ _ _ _ =>
          obtain rfl := Option.some.inj (hrow''.symm.trans hrow)
          obtain rfl := Option.some.inj hrow'
          rw [hit_row_of_pending _ _ _ hst] at hfiring ⊢
          split_ifs at hfiring ⊢ with hripe
          · exact ⟨_, rfl, hripe⟩
          · exact absurd (hst.symm.trans hfiring) (by decide)
      | resolve =>
          obtain rfl := Option.some.inj hrow'
          cases hfiring
      | reopen =>
          obtain rfl := Option.some.inj hrow'
          cases hfiring
      | create hnone =>
          rw [hrow] at hnone
          cases hnone
  | sweep env hrow'' hdue hmem =>
      obtain rfl := Option.some.inj (hrow''.symm.trans hrow)
      obtain rfl := Option.some.inj hrow'
      rcases sweeping_cases v.log (AlertProg.ruleOf db.rules _) env _ with
        hsame | ⟨found, hfound, -, -, hripe, hfires⟩ | ⟨found, -, -, hne, -⟩
      · rw [hsame] at hfiring
        exact absurd (hst.symm.trans hfiring) (by decide)
      · obtain rfl := ruleOf_eq hv (mem_rules_of_enabled hrule) hr hfound
        exact ⟨env.now, by rw [hfires, firing_row]; rfl, hripe⟩
      · exact absurd hst hne
  | acknowledge user visible t hrow'' hst' =>
      obtain rfl := Option.some.inj (hrow''.symm.trans hrow)
      exact absurd (hst.symm.trans hst') (by decide)
  | close user visible t hrow'' hst' =>
      obtain rfl := Option.some.inj hrow'
      cases hfiring

end Steps

/-! ### Histories -/

section Histories

variable {db : MonDb} {rule : MonRule} {ops : List MonOp}

theorem run_valid (hv : db.Valid) (ops : List MonOp) : (Machine.run MonDb.apply db ops).Valid :=
  Machine.run_invariant (P := MonDb.Valid) (fun _ op h => (exec_sound h op).2) hv ops

/-- The history has put the alert into `pending` at the time `s`, and no call since then refutes
it. -/
def Armed (db : MonDb) (ops : List MonOp) (rule : MonRule) (a : MonAlert) (s : ℚ) : Prop :=
  ∃ before op after, ops = before ++ op :: after ∧
    (Machine.run MonDb.apply db before).Arms op rule a s ∧
    ∀ x ∈ after, ¬ x.Refutes rule a.entityId

theorem MonDb.Arms.congr {op : MonOp} {a b : MonAlert} {s : ℚ} (h : db.Arms op rule a s)
    (hid : b.id = a.id) (he : b.entityId = a.entityId) : db.Arms op rule b s :=
  ⟨he ▸ h.event, hid ▸ h.before, hid ▸ h.after⟩

/-- **Every pending alert of the rule is armed** at the time that its row carries. -/
theorem pending_armed (hv : db.Valid) (hfresh : ∀ a ∈ db.alerts, a.ruleId ≠ some rule.id)
    (hrule : ∀ pre, pre <+: ops → rule ∈ (Machine.run MonDb.apply db pre).enabledRules)
    {a : MonAlert} (ha : a ∈ (Machine.run MonDb.apply db ops).alerts)
    (hr : a.ruleId = some rule.id) (hst : a.status = .pending) :
    ∃ s, a.pendingSince = some s ∧ Armed db ops rule a s := by
  induction ops using List.reverseRecOn generalizing a with
  | nil => exact absurd hr (hfresh a ha)
  | append_singleton ops op ih =>
      have hvr := run_valid hv ops
      rw [Machine.run_append] at ha
      have hb : ((Machine.run MonDb.apply db ops).apply op).alert? a.id = some a :=
        Table.find_of_mem (exec_sound hvr op).2.keyed ha
      rcases pending_step hvr (hrule ops (List.prefix_append _ _)) hb hr hst with
        ⟨b, hfind, hbr, hbst, hbe, hsince, hno⟩ | ⟨s, harms, hsince⟩
      · -- the alert was pending before, and the call does not refute it
        obtain ⟨s, hs, before, op', after, rfl, harms, hafter⟩ :=
          ih (fun pre hpre => hrule pre (hpre.trans (List.prefix_append _ _)))
            (Table.mem_of_find hfind) hbr hbst
        refine ⟨s, hsince.symm.trans hs, before, op', after ++ [op], ?_,
          harms.congr (Table.key_of_find hfind).symm hbe.symm, fun x hx => ?_⟩
        · rw [List.append_assoc, List.cons_append]
        · rcases List.mem_append.mp hx with hx | hx
          · exact hbe ▸ hafter x hx
          · rw [List.mem_singleton.mp hx]
            exact hno
      · exact ⟨s, hsince, ops, op, [], rfl, harms, fun _ hx => (List.not_mem_nil hx).elim⟩

/-- **Alerts fire on a sustained condition.** In every history of complete calls through which the
rule is enabled and unchanged, and for every call that moves an alert of it from `pending` to
`firing`: the firing comes the duration of the rule or more after the time at which a call put the
alert into `pending`, by an event of its entity that pertains to the rule and meets the condition,
and no call in between has processed an event of the entity that pertains and does not meet it. -/
theorem fires_after_sustained_condition (hv : db.Valid)
    (hfresh : ∀ a ∈ db.alerts, a.ruleId ≠ some rule.id)
    (hrule : ∀ pre, pre <+: ops → rule ∈ (Machine.run MonDb.apply db pre).enabledRules)
    {op : MonOp} {a b : MonAlert} (ha : a ∈ (Machine.run MonDb.apply db ops).alerts)
    (hr : a.ruleId = some rule.id) (hst : a.status = .pending)
    (hb : b ∈ ((Machine.run MonDb.apply db ops).apply op).alerts) (hid : b.id = a.id)
    (hfiring : b.status = .firing) :
    ∃ t s, b.firedAt = some t ∧ rule.conditionDurationSeconds ≤ t - s ∧ Armed db ops rule a s := by
  have hvr := run_valid hv ops
  obtain ⟨s, hs, harmed⟩ := pending_armed hv hfresh hrule ha hr hst
  have hbefore := Table.find_of_mem hvr.keyed ha
  have hafter := Table.find_of_mem (exec_sound hvr op).2.keyed hb
  rw [hid] at hafter
  obtain ⟨t, ht, hripe⟩ :=
    firing_step hvr (hrule ops (List.prefix_refl _)) hbefore hr hst hafter hfiring
  rw [Ripe, hs] at hripe
  exact ⟨t, s, ht, hripe, harmed⟩

end Histories

/-! ### A rule that waits ten seconds -/

/-- The load rule with a duration of ten seconds, and no alert. -/
def patientMonitor : MonDb :=
  { calmMonitor with rules := [{ loadRule with conditionDurationSeconds := 10 }], alerts := [] }

/-- The event at a time. -/
def loadHitAt (now : ℚ) : MonOp :=
  .evaluateEvent ⟨id, id⟩ ⟨id, List.Perm.refl⟩
    (fun _ => ⟨now, now, now, now, now, now, now, now⟩) loadEvent

theorem patientMonitor_valid : patientMonitor.Valid :=
  ⟨(MonDb.indexed_iff _).mp (by decide), by decide, by decide, by decide, by decide⟩

/-- The event at second 30 and again at second 41. -/
theorem fires_after_ten_seconds :
    ∃ a s t, 10 ≤ t - s ∧ Armed patientMonitor [loadHitAt 30]
      { loadRule with conditionDurationSeconds := 10 } a s := by
  have hrule : ∀ pre, pre <+: [loadHitAt 30] → { loadRule with conditionDurationSeconds := 10 } ∈
      (Machine.run MonDb.apply patientMonitor pre).enabledRules := by
    intro pre hpre
    rcases List.prefix_cons_iff.mp hpre with rfl | ⟨rest, rfl, hrest⟩
    · decide +kernel
    · rw [List.prefix_nil.mp hrest]
      decide +kernel
  obtain ⟨t, s, -, hlong, harmed⟩ := @fires_after_sustained_condition patientMonitor
    { loadRule with conditionDurationSeconds := 10 } [loadHitAt 30] patientMonitor_valid
    (by decide) hrule (loadHitAt 41)
    ⟨2, some 1, some "10.0.0.1", .pending, "warning", 1, none, none, some 30, some 30, 30, 0⟩
    ⟨2, some 1, some "10.0.0.1", .firing, "warning", 2, some 41, none, some 41, some 30, 30, 1⟩
    (by decide +kernel) rfl rfl (by decide +kernel) rfl rfl
  exact ⟨_, s, t, hlong, harmed⟩

end LarkPlat
