import LarkPlat.Cooldown

/-!
# The Pace of Escalations

`_maybe_escalate` finds the position of an alert on the path of its rule by the first occurrence of
the severity in the list, and lets an alert wait one window for each position of the path. While an
alert is on its way through a list without repetitions, which it entered from outside, the position
is the number of its escalations, and the windows are counted from the firing. A severity that the
list holds at the firing already, and a level that occurs twice, break the count.

## Main results

* `call_examines`: what a complete call adds to the escalations of a firing alert.
* `escalations_in_order`: from a firing of an alert that enters its path from outside, until its
  next resolution, the escalations move forward on the path, at most once for each level, and each
  comes with the first examination in its window.
-/

namespace LarkPlat

open MonDb AlertEffect

/-! ### The next level -/

section Levels

variable {levels : List String} {severity : String} {n : ℕ} {rule : MonRule} {a : MonAlert}
  {fired now : ℚ} {w : ℤ}

theorem nextLevel_of_not_mem (h : severity ∉ levels) : nextLevel levels severity = 0 :=
  if_neg h

theorem nextLevel_of_getElem (hn : levels.Nodup) (h : levels[n]? = some severity) :
    nextLevel levels severity = n + 1 := by
  obtain ⟨hlt, rfl⟩ := List.getElem?_eq_some_iff.mp h
  rw [nextLevel, if_pos (List.getElem_mem hlt), hn.idxOf_getElem]

/-- `_maybe_escalate`, for a rule that escalates and an alert that has fired. -/
theorem escalation_eq (hfired : a.firedAt = some fired) (hen : rule.escalationEnabled ≠ 0)
    (hw : rule.escalationAfterSeconds = some w) (hpos : 0 < w) :
    AlertProg.escalation rule a now =
      if now - fired < w * (nextLevel rule.escalateLevels a.severity + 1) then none
      else rule.escalateLevels[nextLevel rule.escalateLevels a.severity]? := by
  rw [AlertProg.escalation, hfired, hw]
  dsimp only [Option.getD_some]
  rw [if_neg (by omega)]
  cases rule.escalateLevels[nextLevel rule.escalateLevels a.severity]? with
  | none => split_ifs <;> rfl
  | some target => rfl

end Levels

/-! ### Escalations of one alert -/

/-- The severities that the `escalate` entries of an alert record. -/
def escalations (log : List AlertLog) (id : ℕ) : List String :=
  (entriesOf .escalate log id).map (·.severity)

/-- The call reaches `_maybe_escalate` for the alert, with these clock readings: an event of the
alert hits it while it fires, or the sweep finds it firing. -/
inductive MonDb.Examines (db : MonDb) (rule : MonRule) (a : MonAlert) : MonOp → Readings → Prop where
  | event (py : PyText) (order : RuleOrder) (readings : ℕ → Readings) (event : MonEvent)
      (hrule : rule ∈ db.enabledRules) (hr : a.ruleId = some rule.id)
      (hst : a.status = .firing ∨ a.status = .acknowledged) (hc : Concerns py rule event a)
      (hmet : conditionMet rule event = true) :
      db.Examines rule a (.evaluateEvent py order readings event) (readings rule.id)
  | sweep (env : SweepEnv) (hdue : env.featureEnabled = true ∧ env.due = true)
      (hmem : a ∈ db.activeAlerts 500) (hrule : AlertProg.ruleOf db.rules a = some rule)
      (hlive : ¬ Skips rule env a) (hst : a.status = .firing ∨ a.status = .acknowledged) :
      db.Examines rule a (.sweepActiveAlerts env) (env.readings a.id)

section Calls

variable {channels : ℕ → List ℕ} {db : MonDb} {rule : MonRule} {a b : MonAlert} {t : Readings}
  {log : List AlertLog} {op : MonOp} {v v' : AlertView} {id : ℕ}

theorem ne_pending_of_fires (h : a.status = .firing ∨ a.status = .acknowledged) :
    a.status ≠ .pending := by
  rcases h with h | h <;> rw [h] <;> decide

theorem escalations_append (log entries : List AlertLog) (id : ℕ) :
    escalations (log ++ entries) id = escalations log id ++ escalations entries id := by
  rw [escalations, entriesOf_append, List.map_append]
  rfl

theorem escalations_view (m : Monitor) (id : ℕ) :
    escalations (m.view id).log id = escalations m.db.log id :=
  congrArg (List.map _) (entriesOf_own .escalate m.db.log id)

theorem escalations_escalating (e : AlertEffect) (hid : e.row.id = id) :
    escalations (escalating channels rule t e).entries id =
      escalations e.entries id ++ (AlertProg.escalation rule e.row t.escalated).toList := by
  rw [escalating]
  cases AlertProg.escalation rule e.row t.escalated with
  | none => exact (List.append_nil _).symm
  | some target =>
      refine (escalations_append _ _ _).trans (congrArg _ ?_)
      rw [escalations, entriesOf_singleton, if_pos ⟨hid, rfl⟩]
      rfl

theorem escalations_notifying (e : AlertEffect) (id : ℕ) :
    escalations (notifying channels log rule t e).entries id = escalations e.entries id := by
  rw [notifying]
  split_ifs
  · exact congrArg (List.map _) (entriesOf_note e (by decide) _ _ id)
  · rfl

theorem MonDb.Examines.visits (h : db.Examines rule a op t) : db.Visits op a := by
  cases h with
  | event py order readings event hrule hr hst hc _ =>
      refine ⟨?_, rule, hrule, hr, hc⟩
      rcases hst with hst | hst <;> rw [hst] <;> rfl
  | sweep env hdue hmem _ _ _ => exact ⟨hdue, hmem⟩

theorem MonDb.Examines.unique {t' : Readings} (h : db.Examines rule a op t)
    (h' : db.Examines rule a op t') : t = t' := by
  cases h <;> cases h' <;> rfl

/-- A call that examines a firing alert. -/
structure Examined (db : MonDb) (rule : MonRule) (a b : MonAlert) (op : MonOp) (v v' : AlertView)
    (t : Readings) : Prop where
  examines : db.Examines rule a op t
  fires : b.status = .firing ∨ b.status = .acknowledged
  firedAt : b.firedAt = a.firedAt
  severity : b.severity = (AlertProg.escalation rule a t.escalated).getD a.severity
  log : escalations v'.log a.id =
    escalations v.log a.id ++ (AlertProg.escalation rule a t.escalated).toList

/-- A call that does not. -/
structure Unexamined (db : MonDb) (rule : MonRule) (a b : MonAlert) (op : MonOp)
    (v v' : AlertView) : Prop where
  silent : ∀ t, ¬ db.Examines rule a op t
  fires : b.status = .firing ∨ b.status = .acknowledged
  firedAt : b.firedAt = a.firedAt
  severity : b.severity = a.severity
  log : escalations v'.log a.id = escalations v.log a.id

theorem hit_examined {py : PyText} {order : RuleOrder} {readings : ℕ → Readings}
    {event : MonEvent} (hrule : rule ∈ db.enabledRules) (hr : a.ruleId = some rule.id)
    (hst : a.status = .firing ∨ a.status = .acknowledged) (hc : Concerns py rule event a)
    (hmet : conditionMet rule event = true) :
    Examined db rule a (hit channels v.log rule (readings rule.id) a).row
      (.evaluateEvent py order readings event) v
      (v.perform (hit channels v.log rule (readings rule.id) a)) (readings rule.id) where
  examines := .event py order readings event hrule hr hst hc hmet
  fires := by
    rw [hit_of_firing _ _ _ hst, reminding_row]
    exact hst
  firedAt := by
    rw [hit_of_firing _ _ _ hst, reminding_row]
    rfl
  severity := by
    rw [hit_of_firing _ _ _ hst, reminding_row]
    rfl
  log := by
    refine (escalations_append _ _ _).trans (congrArg _ ?_)
    rw [hit_of_firing _ _ _ hst, reminding, escalations_escalating _ (by rw [notifying_row]; rfl),
      escalations_notifying, notifying_row]
    rfl

theorem sweep_examines {env : SweepEnv} (hv : db.Valid) (hrule : rule ∈ db.rules)
    (hr : a.ruleId = some rule.id) (hst : a.status = .firing ∨ a.status = .acknowledged)
    (hdue : env.featureEnabled = true ∧ env.due = true) (hmem : a ∈ db.activeAlerts 500) :
    (∃ t, Examined db rule a (sweeping channels v.log (AlertProg.ruleOf db.rules a) env a).row
        (.sweepActiveAlerts env) v
        (v.perform (sweeping channels v.log (AlertProg.ruleOf db.rules a) env a)) t) ∨
      sweeping channels v.log (AlertProg.ruleOf db.rules a) env a = nothing a ∧
        ∀ t, ¬ db.Examines rule a (.sweepActiveAlerts env) t := by
  cases hfound : AlertProg.ruleOf db.rules a with
  | none =>
      refine Or.inr ⟨rfl, fun t h => ?_⟩
      cases h with
      | sweep _ _ _ hfound' _ _ => cases hfound.symm.trans hfound'
  | some found =>
      obtain rfl := (ruleOf_eq hv hrule hr hfound).symm
      by_cases hskip : Skips rule env a
      · refine Or.inr ⟨by rw [sweeping]; exact if_pos hskip, fun t h => ?_⟩
        cases h with
        | sweep _ _ _ _ hlive _ => exact hlive hskip
      · have hrow := @escalating_row channels rule (env.readings a.id) (nothing a)
        rw [sweeping_of_firing _ _ hskip (ne_pending_of_fires hst)]
        refine Or.inl ⟨_, .sweep env hdue hmem hfound hskip hst, ?_, ?_, ?_, ?_⟩
        · rw [hrow]
          exact hst
        · rw [hrow]
          rfl
        · rw [hrow]
          rfl
        · exact (escalations_append _ _ _).trans (congrArg _ (escalations_escalating _ rfl))

/-- **What a complete call adds** to the escalations of a firing alert, unless it resolves it. -/
theorem call_examines (hv : db.Valid) (hrule : rule ∈ db.rules) (hrow : v.row = some a)
    (hid : a.id = id) (hr : a.ruleId = some rule.id)
    (hst : a.status = .firing ∨ a.status = .acknowledged) (h : ViewStep channels db id op v v')
    (hrow' : v'.row = some b) (hopen : b.status ≠ .resolved) :
    (∃ t, Examined db rule a b op v v' t) ∨ Unexamined db rule a b op v v' := by
  subst hid
  cases h with
  | pass _ _ hno =>
      obtain rfl := Option.some.inj (hrow.symm.trans hrow')
      exact Or.inr ⟨fun t h => hno _ hrow h.visits, hst, rfl, rfl, rfl⟩
  | event py order readings event hrule' hview =>
      obtain rfl := (rule_eq_of_id hv hrule (mem_rules_of_enabled hrule')
        (Option.some.inj ((hview.ruleId_of_row hrow).symm.trans hr))).symm
      cases hview with
      | hit hrow'' _ _ hc hmet =>
          obtain rfl := Option.some.inj (hrow''.symm.trans hrow)
          obtain rfl := Option.some.inj hrow'
          exact Or.inl ⟨_, hit_examined hrule' hr hst hc hmet⟩
      | resolve =>
          obtain rfl := Option.some.inj hrow'
          exact absurd rfl hopen
      | reopen hrow'' _ hres _ _ =>
          obtain rfl := Option.some.inj (hrow''.symm.trans hrow)
          rcases hst with hst | hst <;> exact AlertStatus.noConfusion (hres.symm.trans hst)
      | create hnone => cases hnone.symm.trans hrow
  | sweep env hrow'' hdue hmem =>
      obtain rfl := Option.some.inj (hrow''.symm.trans hrow)
      obtain rfl := Option.some.inj hrow'
      rcases sweep_examines hv hrule hr hst hdue hmem with hexam | ⟨hsame, hno⟩
      · exact Or.inl hexam
      · rw [hsame]
        exact Or.inr ⟨hno, hst, rfl, rfl, (escalations_append _ _ _).trans (List.append_nil _)⟩
  | acknowledge user visible t hrow'' hfiring =>
      obtain rfl := Option.some.inj (hrow''.symm.trans hrow)
      obtain rfl := Option.some.inj hrow'
      refine Or.inr ⟨fun t h => (by cases h), Or.inr rfl, rfl, rfl, ?_⟩
      refine (escalations_append _ _ _).trans ?_
      rw [acknowledgement, escalations, escalations, entriesOf_singleton,
        if_neg fun h => AlertAction.noConfusion h.2]
      exact List.append_nil _
  | close =>
      obtain rfl := Option.some.inj hrow'
      exact absurd rfl hopen

end Calls

/-! ### From a firing to the next resolution -/

/-- The escalations of an alert that were logged since a state. -/
def Monitor.escalationsSince (m m' : Monitor) (id : ℕ) : List String :=
  (escalations m'.db.log id).drop (escalations m.db.log id).length

/-- The call escalates the alert. -/
def Escalates (channels : ℕ → List ℕ) (id : ℕ) (m : Monitor) (op : MonOp) : Prop :=
  (escalations m.db.log id).length < (escalations (m.apply channels op).db.log id).length

instance (channels : ℕ → List ℕ) (id : ℕ) (m : Monitor) (op : MonOp) :
    Decidable (Escalates channels id m op) :=
  inferInstanceAs (Decidable (_ < _))

/-- The call does not escalate the alert for the `n`-th time before `n` windows have passed since
the firing, and an examination does so as soon as they have, unless the alert is at the end of its
path. -/
structure Paced (channels : ℕ → List ℕ) (rule : MonRule) (id : ℕ) (fired : ℚ) (w : ℤ) (n : ℕ)
    (m : Monitor) (op : MonOp) : Prop where
  notBefore : Escalates channels id m op → ∃ b t, m.db.alert? id = some b ∧
    m.db.Examines rule b op t ∧ fired + n * w ≤ t.escalated
  asSoonAs : ∀ b t, m.db.alert? id = some b → m.db.Examines rule b op t →
    fired + n * w ≤ t.escalated → Escalates channels id m op ∨
      rule.escalateLevels.length ≤ nextLevel rule.escalateLevels b.severity

/-- Since the state `m`, the escalations of the alert move to increasing positions of the path, are
no more than the path has levels, and keep the pace. -/
structure EscalatesInOrder (channels : ℕ → List ℕ) (rule : MonRule) (id : ℕ) (fired : ℚ) (w : ℤ)
    (m : Monitor) (ops : List MonOp) : Prop where
  forward : ∃ positions : List ℕ, positions.Pairwise (· < ·) ∧
    (m.escalationsSince (Machine.run (Monitor.apply channels) m ops) id).map some =
      positions.map fun p => rule.escalateLevels[p]?
  bounded : (m.escalationsSince (Machine.run (Monitor.apply channels) m ops) id).length ≤
    rule.escalateLevels.length
  paced : Machine.Meets (Monitor.apply channels) (fun m' op => Paced channels rule id fired w
    ((m.escalationsSince m' id).length + 1) m' op) m ops

/-- The call moves the alert from `pending` to `firing`, which leaves the row `a`. -/
structure Fires (channels : ℕ → List ℕ) (m : Monitor) (op : MonOp) (a : MonAlert) : Prop where
  before : ∃ b, m.db.alert? a.id = some b ∧ b.status = .pending
  after : (m.apply channels op).db.alert? a.id = some a
  status : a.status = .firing

/-- An alert on its way: it has taken the first `n` levels, and the level that it is on tells so,
or it was at the end of its path from the beginning. -/
structure OnPath (rule : MonRule) (fired : ℚ) (m₁ m : Monitor) (b : MonAlert) (n : ℕ) : Prop where
  row : m.db.alert? b.id = some b
  ruleId : b.ruleId = some rule.id
  fires : b.status = .firing ∨ b.status = .acknowledged
  firedAt : b.firedAt = some fired
  level : rule.escalateLevels.Nodup ∧ nextLevel rule.escalateLevels b.severity = n ∨
    n = 0 ∧ rule.escalateLevels.length ≤ nextLevel rule.escalateLevels b.severity
  le : n ≤ rule.escalateLevels.length
  log : escalations m.db.log b.id =
    escalations m₁.db.log b.id ++ rule.escalateLevels.take n

section Histories

variable {channels : ℕ → List ℕ} {m m₀ m₁ : Monitor} {ops : List MonOp} {op : MonOp}
  {rule : MonRule} {a b c : MonAlert} {t : Readings} {id n : ℕ} {fired : ℚ} {w : ℤ}

theorem OnPath.since (h : OnPath rule fired m₁ m b n) :
    m₁.escalationsSince m b.id = rule.escalateLevels.take n := by
  rw [Monitor.escalationsSince, h.log, List.drop_left]

theorem OnPath.since_length (h : OnPath rule fired m₁ m b n) :
    (m₁.escalationsSince m b.id).length = n := by
  rw [h.since, List.length_take, min_eq_left h.le]

theorem OnPath.stay (h : OnPath rule fired m₁ m b n) (hid : c.id = b.id)
    (hrow : (m.apply channels op).db.alert? b.id = some c) (hr : c.ruleId = b.ruleId)
    (hfires : c.status = .firing ∨ c.status = .acknowledged) (hfired : c.firedAt = b.firedAt)
    (hsev : c.severity = b.severity)
    (hlog : escalations (m.apply channels op).db.log b.id = escalations m.db.log b.id) :
    OnPath rule fired m₁ (m.apply channels op) c n where
  row := hid ▸ hrow
  ruleId := hr.trans h.ruleId
  fires := hfires
  firedAt := hfired.trans h.firedAt
  level := hsev ▸ h.level
  le := h.le
  log := by rw [hid, hlog, h.log]

theorem not_escalates
    (hlog : escalations (m.apply channels op).db.log id = escalations m.db.log id) :
    ¬ Escalates channels id m op := by
  rw [Escalates, hlog]
  exact lt_irrefl _

/-- A call that examines the alert without escalating it comes too early, or the alert is at the
end of its path. -/
theorem paced_of_stay (hrow : m.db.alert? id = some b)
    (hlog : escalations (m.apply channels op).db.log id = escalations m.db.log id)
    (hwhy : ∀ t, m.db.Examines rule b op t → fired + n * w ≤ t.escalated →
      rule.escalateLevels.length ≤ nextLevel rule.escalateLevels b.severity) :
    Paced channels rule id fired w n m op where
  notBefore h := absurd h (not_escalates hlog)
  asSoonAs b' t hrow' hexam hdue := by
    obtain rfl := Option.some.inj (hrow.symm.trans hrow')
    exact Or.inr (hwhy t hexam hdue)

/-- **One call of an alert on its way.** -/
theorem OnPath.step (hv : m.db.Valid) (hrule : rule ∈ m.db.rules)
    (hen : rule.escalationEnabled ≠ 0) (hw : rule.escalationAfterSeconds = some w) (hpos : 0 < w)
    (h : OnPath rule fired m₁ m b n)
    (hopen : ∀ c, (m.apply channels op).db.alert? b.id = some c → c.status ≠ .resolved) :
    (∃ c n', c.id = b.id ∧ OnPath rule fired m₁ (m.apply channels op) c n') ∧
      Paced channels rule b.id fired w (n + 1) m op := by
  have hstep := apply_view channels hv op b.id
  obtain ⟨c, hrow, hr⟩ := hstep.row_kept h.row
  have hid : c.id = b.id := Table.key_of_find hrow
  have hcall := call_examines hv hrule h.row rfl h.ruleId h.fires hstep hrow (hopen c hrow)
  rcases hcall with ⟨t, hexam⟩ | hun
  · have hlog := hexam.log
    have hsev := hexam.severity
    rw [escalations_view, escalations_view] at hlog
    rw [escalation_eq h.firedAt hen hw hpos] at hlog hsev
    -- without a target nothing is logged
    have hstay : ∀ {o : Option String}, o = none → c.severity = o.getD b.severity →
        escalations (m.apply channels op).db.log b.id =
          escalations m.db.log b.id ++ o.toList →
        (fired + (n + 1 : ℕ) * w ≤ t.escalated →
          rule.escalateLevels.length ≤ nextLevel rule.escalateLevels b.severity) →
        (∃ c n', c.id = b.id ∧ OnPath rule fired m₁ (m.apply channels op) c n') ∧
          Paced channels rule b.id fired w (n + 1) m op := by
      rintro _ rfl hsev hlog hwhy
      have hlog := hlog.trans (List.append_nil _)
      refine ⟨⟨c, n, hid, h.stay hid hrow hr hexam.fires hexam.firedAt hsev hlog⟩,
        paced_of_stay h.row hlog fun t' hexam' hdue => hwhy ?_⟩
      rwa [hexam'.unique hexam.examines] at hdue
    have hwindow : ((n + 1 : ℕ) : ℚ) * w = w * (n + 1) := by
      rw [Nat.cast_add_one, mul_comm]
    rcases h.level with ⟨hn, hnext⟩ | ⟨-, hend⟩
    swap
    · exact hstay (by rw [List.getElem?_eq_none hend, ite_self]) hsev hlog fun _ => hend
    rw [hnext] at hsev hlog
    by_cases hearly : t.escalated - fired < w * (n + 1)
    · refine hstay (if_pos hearly) hsev hlog fun hdue => ?_
      rw [hwindow] at hdue
      linarith
    rw [if_neg hearly] at hsev hlog
    cases htarget : rule.escalateLevels[n]? with
    | none =>
        exact hstay htarget hsev hlog fun _ => hnext ▸ List.getElem?_eq_none_iff.mp htarget
    | some target =>
        rw [htarget] at hsev hlog
        have hlt : n < rule.escalateLevels.length := (List.getElem?_eq_some_iff.mp htarget).1
        refine ⟨⟨c, n + 1, hid, hid ▸ hrow, hr.trans h.ruleId, hexam.fires,
          hexam.firedAt.trans h.firedAt, Or.inl ⟨hn, ?_⟩, hlt, ?_⟩, ?_, ?_⟩
        · rw [hsev]
          exact nextLevel_of_getElem hn htarget
        · rw [hid, hlog, h.log, List.append_assoc, List.take_add_one, htarget]
        · refine fun _ => ⟨b, t, h.row, hexam.examines, ?_⟩
          rw [hwindow]
          linarith
        · refine fun _ _ _ _ _ => Or.inl ?_
          rw [Escalates, hlog]
          simp
  · have hlog := hun.log
    rw [escalations_view, escalations_view] at hlog
    exact ⟨⟨c, n, hid, h.stay hid hrow hr hun.fires hun.firedAt hun.severity hlog⟩,
      paced_of_stay h.row hlog fun t hexam => absurd hexam (hun.silent t)⟩

/-- An alert that fires stands before its path, if it enters it from outside, or at its end. -/
theorem Fires.onPath (h : Fires channels m op a) (hr : a.ruleId = some rule.id)
    (hfired : a.firedAt = some fired)
    (hlevel : rule.escalateLevels.Nodup ∧ a.severity ∉ rule.escalateLevels ∨
      rule.escalateLevels.length ≤ nextLevel rule.escalateLevels a.severity) :
    OnPath rule fired (m.apply channels op) (m.apply channels op) a 0 where
  row := h.after
  ruleId := hr
  fires := Or.inl h.status
  firedAt := hfired
  level := hlevel.imp (fun hl => ⟨hl.1, nextLevel_of_not_mem hl.2⟩) fun hl => ⟨rfl, hl⟩
  le := Nat.zero_le _
  log := (List.append_nil _).symm

theorem onPath_run (hv : m₁.db.Valid) (hen : rule.escalationEnabled ≠ 0)
    (hw : rule.escalationAfterSeconds = some w) (hpos : 0 < w)
    (h : OnPath rule fired m₁ m₁ a 0)
    (hrule : ∀ pre, pre <+: ops → rule ∈ (Machine.run (Monitor.apply channels) m₁ pre).db.rules)
    (hopen : ∀ pre, pre <+: ops → ∀ b,
      (Machine.run (Monitor.apply channels) m₁ pre).db.alert? a.id = some b → b.status ≠ .resolved) :
    (∃ b n, b.id = a.id ∧
      OnPath rule fired m₁ (Machine.run (Monitor.apply channels) m₁ ops) b n) ∧
    Machine.Meets (Monitor.apply channels) (fun m op => Paced channels rule a.id fired w
      ((m₁.escalationsSince m a.id).length + 1) m op) m₁ ops := by
  induction ops using List.reverseRecOn with
  | nil => exact ⟨⟨a, 0, rfl, h⟩, trivial⟩
  | append_singleton ops op ih =>
      obtain ⟨⟨b, n, hid, hpath⟩, hmeets⟩ :=
        ih (fun pre hpre => hrule pre (hpre.trans (List.prefix_append _ _)))
          fun pre hpre => hopen pre (hpre.trans (List.prefix_append _ _))
      have hopen' := hopen (ops ++ [op]) (List.prefix_refl _)
      rw [Machine.run_append, ← hid] at hopen'
      obtain ⟨⟨c, n', hid', hpath'⟩, hpaced⟩ := hpath.step (monitorRun_valid hv ops)
        (hrule ops (List.prefix_append _ _)) hen hw hpos hopen'
      refine ⟨⟨c, n', hid'.trans hid, ?_⟩, (Machine.meets_append _ _ _).mpr ⟨hmeets, ?_, trivial⟩⟩
      · rw [Machine.run_append]
        exact hpath'
      · have hlength := hpath.since_length
        rw [hid] at hlength hpaced
        dsimp only
        rw [hlength]
        exact hpaced

/-- **Escalations in order.** In every history of complete calls, for every firing of an alert of a
rule that escalates, with a window of `w` seconds, and for what follows it while the rule is
unchanged and the alert is not resolved: if the list of levels has no repetition and does not hold
the severity with which the alert fires, or this severity is at its end, then the escalations move
forward on the path, are no more than its levels, and the `n`-th one comes not before `n` windows
after the firing and with the first examination from then on. -/
theorem escalations_in_order (hv : m₀.db.Valid) (before : List MonOp)
    (hm : m = Machine.run (Monitor.apply channels) m₀ before) (hfires : Fires channels m op a)
    (hr : a.ruleId = some rule.id) (hfired : a.firedAt = some fired)
    (hen : rule.escalationEnabled ≠ 0) (hw : rule.escalationAfterSeconds = some w) (hpos : 0 < w)
    (hrule : ∀ pre, pre <+: ops →
      rule ∈ (Machine.run (Monitor.apply channels) (m.apply channels op) pre).db.rules)
    (hopen : ∀ pre, pre <+: ops → ∀ b,
      (Machine.run (Monitor.apply channels) (m.apply channels op) pre).db.alert? a.id = some b →
        b.status ≠ .resolved)
    (hlevel : rule.escalateLevels.Nodup ∧ a.severity ∉ rule.escalateLevels ∨
      rule.escalateLevels.length ≤ nextLevel rule.escalateLevels a.severity) :
    EscalatesInOrder channels rule a.id fired w (m.apply channels op) ops := by
  have hvm : (m.apply channels op).db.Valid :=
    Monitor.apply_valid channels (hm ▸ monitorRun_valid hv before) op
  obtain ⟨⟨b, n, hid, hpath⟩, hmeets⟩ :=
    onPath_run hvm hen hw hpos (hfires.onPath hr hfired hlevel) hrule hopen
  have hsince := hpath.since
  rw [hid] at hsince
  refine ⟨⟨List.range n, List.pairwise_lt_range, ?_⟩, ?_, hmeets⟩
  · rw [hsince]
    refine List.ext_getElem (by simp [hpath.le]) fun i hi _ => ?_
    rw [List.getElem_map, List.getElem_map, List.getElem_take, List.getElem_range]
    exact (List.getElem?_eq_getElem _).symm
  · rw [hsince, List.length_take]
    exact min_le_right _ _

end Histories

/-! ### Paths with and without the severity of the firing -/

/-- The load rule with a window of a minute and a path. -/
def steepRule (levels : List String) : MonRule :=
  { cooledRule with
    escalationEnabled := 1, escalationAfterSeconds := some 60, escalateLevels := levels }

/-- The rule before its first event. -/
def steepMonitor (levels : List String) : Monitor :=
  ⟨{ patientMonitor with rules := [steepRule levels] }, []⟩

theorem steepMonitor_valid : (steepMonitor ["critical"]).db.Valid :=
  ⟨(MonDb.indexed_iff _).mp (by decide), by decide, by decide, by decide, by decide⟩

/-- The state after the firing at second 41. -/
def steepFiring (levels : List String) : Monitor :=
  Machine.run (Monitor.apply oneChannel) (steepMonitor levels) [loadHitAt 30, loadHitAt 41]

/-- An alert fires with the first level of its path and is not escalated one window later; one whose
path repeats a level is escalated three times through its two positions. -/
theorem escalations_out_of_order :
    ¬ EscalatesInOrder oneChannel (steepRule ["warning", "critical"]) 2 41 60
        (steepFiring ["warning", "critical"]) [loadHitAt 101] ∧
      ¬ EscalatesInOrder oneChannel (steepRule ["critical", "critical"]) 2 41 60
        (steepFiring ["critical", "critical"]) [loadHitAt 101, loadHitAt 161, loadHitAt 162] := by
  constructor
  · intro h
    have hexam : (steepFiring ["warning", "critical"]).db.Examines
        (steepRule ["warning", "critical"]) (loadAlert .firing 2 (some 41) 41 1) (loadHitAt 101)
        ⟨101, 101, 101, 101, 101, 101, 101, 101⟩ :=
      .event _ _ _ _ (by decide +kernel) rfl (Or.inl rfl) ⟨by decide, rfl⟩ (by decide)
    rcases h.paced.1.asSoonAs _ _ (by decide +kernel) hexam (by decide +kernel) with hesc | hend
    · revert hesc
      decide +kernel
    · revert hend
      decide +kernel
  · intro h
    have hbounded := h.bounded
    revert hbounded
    decide +kernel

/-- On a path that starts above the severity of the firing, an event before the minute is over, one
right then and one much later. -/
theorem escalations_in_order_once :
    EscalatesInOrder oneChannel (steepRule ["critical"]) 2 41 60 (steepFiring ["critical"])
      [loadHitAt 100, loadHitAt 101, loadHitAt 500] := by
  have hrule : ∀ pre ∈ List.inits [loadHitAt 100, loadHitAt 101, loadHitAt 500],
      steepRule ["critical"] ∈
        (Machine.run (Monitor.apply oneChannel) (steepFiring ["critical"]) pre).db.rules := by
    decide +kernel
  have hopen : ∀ pre ∈ List.inits [loadHitAt 100, loadHitAt 101, loadHitAt 500],
      ∀ b ∈ (Machine.run (Monitor.apply oneChannel) (steepFiring ["critical"]) pre).db.alert? 2,
        b.status ≠ .resolved := by
    decide +kernel
  exact @escalations_in_order oneChannel _ (steepMonitor ["critical"])
    [loadHitAt 100, loadHitAt 101, loadHitAt 500] (loadHitAt 41) (steepRule ["critical"])
    (loadAlert .firing 2 (some 41) 41 1) 41 60 steepMonitor_valid [loadHitAt 30] rfl
    ⟨⟨loadAlert .pending 1 none 30 0, by decide +kernel, rfl⟩, by decide +kernel, rfl⟩ rfl rfl
    (by decide) rfl (by decide) (fun pre hpre => hrule pre ((List.mem_inits pre _).mpr hpre))
    (fun pre hpre => hopen pre ((List.mem_inits pre _).mpr hpre)) (Or.inl (by decide))

end LarkPlat
