import LarkPlat.Alerts
import LarkPlat.Machine

/-!
# One Active Alert for Each Rule and Entity

Every call of the monitor writes the alerts of one rule and entity at a time, and opens one only
where it has found none that is active. `Moves` is what such a call does to one row; a move keeps
the tables valid if it `Admits` the new row: the row was active under its key already, or no
active row has that key.

## Main results

* `exec_sound`: a call on valid tables fails with no integrity error, leaves valid tables, and a hit
  within the convergence window reopens a row.
* `one_active_alert`: the same along every history of calls.
-/

namespace LarkPlat

namespace MonDb

/-! ### Valid tables -/

/-- The number of active alerts under a key of the index. -/
def activeCount (alerts : List MonAlert) (k : ℕ × String) : ℕ :=
  alerts.countP fun a => decide (a.activeKey = some k)

/-- For every rule and entity at most one alert is active. -/
def OneActive (alerts : List MonAlert) : Prop :=
  ∀ ruleId entityId, activeCount alerts (ruleId, entityId) ≤ 1

theorem indexed_iff (alerts : List MonAlert) : indexed alerts ↔ OneActive alerts := by
  have hcount : ∀ k, (alerts.filterMap MonAlert.activeKey).count k = activeCount alerts k := by
    intro k
    rw [List.count, List.countP_filterMap, activeCount]
    refine List.countP_congr fun a _ => ?_
    cases a.activeKey <;> simp
  rw [indexed, List.nodup_iff_count_le_one]
  constructor
  · intro h ruleId entityId
    exact hcount _ ▸ h (ruleId, entityId)
  · rintro h ⟨ruleId, entityId⟩
    exact hcount _ ▸ h ruleId entityId

/-- The primary keys and the partial unique index. -/
structure Valid (db : MonDb) : Prop where
  oneActive : OneActive db.alerts
  keyed : (db.alerts.map MonAlert.id).Nodup
  below : ∀ a ∈ db.alerts, a.id < db.nextAlert
  rulesKeyed : (db.rules.map MonRule.id).Nodup
  rulesBelow : ∀ r ∈ db.rules, r.id < db.nextRule

variable {db db' db'' : MonDb} {a a' a'' : MonAlert}

theorem Valid.logEvent (h : db.Valid) (x : MonAlert) (action : AlertAction)
    (fromStatus : Option AlertStatus) (toStatus : AlertStatus) (severity : String) (time : ℚ) :
    (db.logEvent x action fromStatus toStatus severity time).Valid :=
  ⟨h.oneActive, h.keyed, h.below, h.rulesKeyed, h.rulesBelow⟩

/-! ### Moves of one row -/

/-- The row may take the place of the other: its key was that of the other row, or no active row
has it. -/
def Admits (db : MonDb) (a a' : MonAlert) : Prop :=
  ∀ k, a'.activeKey = some k → a.activeKey = some k ∨ activeCount db.alerts k = 0

/-- A row has taken the place of another one with the same identifier, rule and entity. -/
structure Moves (a a' : MonAlert) (db db' : MonDb) : Prop where
  mem : a ∈ db.alerts
  id : a'.id = a.id
  ruleId : a'.ruleId = a.ruleId
  entityId : a'.entityId = a.entityId
  alerts : db'.alerts = Table.modify MonAlert.id db.alerts a.id fun _ => a'
  rules : db'.rules = db.rules
  nextRule : db'.nextRule = db.nextRule
  nextAlert : db'.nextAlert = db.nextAlert

theorem Moves.mem' (h : Moves a a' db db') : a' ∈ db'.alerts := by
  rw [h.alerts]
  exact Table.mem_modify.mpr (Or.inl ⟨a, h.mem, rfl, rfl⟩)

theorem Moves.trans (h : Moves a a' db db') (h' : Moves a' a'' db' db'') :
    Moves a a'' db db'' where
  mem := h.mem
  id := h'.id.trans h.id
  ruleId := h'.ruleId.trans h.ruleId
  entityId := h'.entityId.trans h.entityId
  alerts := by
    rw [h'.alerts, h.alerts, h.id]
    exact Table.modify_modify fun _ _ => h.id
  rules := h'.rules.trans h.rules
  nextRule := h'.nextRule.trans h.nextRule
  nextAlert := h'.nextAlert.trans h.nextAlert

theorem Moves.logEvent (h : Moves a a' db db') (x : MonAlert) (action : AlertAction)
    (fromStatus : Option AlertStatus) (toStatus : AlertStatus) (severity : String) (time : ℚ) :
    Moves a a' db (db'.logEvent x action fromStatus toStatus severity time) :=
  ⟨h.mem, h.id, h.ruleId, h.entityId, h.alerts, h.rules, h.nextRule, h.nextAlert⟩

theorem Moves.ids (h : Moves a a' db db') :
    db'.alerts.map MonAlert.id = db.alerts.map MonAlert.id := by
  rw [h.alerts]
  exact Table.map_key_modify fun _ _ => h.id

theorem oneActive_modify (hv : db.Valid) (hmem : a ∈ db.alerts) (hadm : Admits db a a') :
    OneActive (Table.modify MonAlert.id db.alerts a.id fun _ => a') := by
  intro ruleId entityId
  have hcount := @Table.countP_modify _ _ _ MonAlert.id db.alerts (fun _ => a') a
    (fun x => decide (x.activeKey = some (ruleId, entityId))) hv.keyed hmem
  have hone := hv.oneActive ruleId entityId
  have hadm := hadm (ruleId, entityId)
  unfold activeCount at hone hadm ⊢
  by_cases hnew : a'.activeKey = some (ruleId, entityId)
  · by_cases hold : a.activeKey = some (ruleId, entityId)
    · simp only [hnew, hold, decide_true, if_true] at hcount
      omega
    · have hzero := (hadm hnew).resolve_left hold
      simp only [hnew, hold, decide_true, decide_false, if_true, Bool.false_eq_true, if_false]
        at hcount
      omega
  · simp only [hnew, decide_false, Bool.false_eq_true, if_false] at hcount
    omega

theorem Moves.valid (h : Moves a a' db db') (hv : db.Valid) (hadm : Admits db a a') :
    db'.Valid where
  oneActive := by
    rw [h.alerts]
    exact oneActive_modify hv h.mem hadm
  keyed := h.ids ▸ hv.keyed
  below := by
    intro x hx
    obtain ⟨y, hy, hid⟩ := List.mem_map.mp (h.ids ▸ List.mem_map_of_mem hx)
    rw [h.nextAlert, ← hid]
    exact hv.below y hy
  rulesKeyed := h.rules ▸ hv.rulesKeyed
  rulesBelow := by
    rw [h.rules, h.nextRule]
    exact hv.rulesBelow

theorem admits_of_active (hact : a.status.active = true) (hr : a'.ruleId = a.ruleId)
    (he : a'.entityId = a.entityId) : Admits db a a' := by
  intro k hk
  left
  unfold MonAlert.activeKey at hk ⊢
  rw [hr, he] at hk
  rw [if_pos hact]
  split_ifs at hk
  exact hk

theorem admits_of_resolved (h : a'.status = .resolved) : Admits db a a' := by
  intro k hk
  rw [MonAlert.activeKey, h] at hk
  cases hk

theorem admits_of_free {ruleId : ℕ} {entityId : String} (hr : a'.ruleId = some ruleId)
    (he : a'.entityId = some entityId) (hfree : activeCount db.alerts (ruleId, entityId) = 0) :
    Admits db a a' := by
  intro k hk
  right
  unfold MonAlert.activeKey at hk
  split_ifs at hk
  rw [hr, he] at hk
  obtain rfl := Option.some.inj hk
  exact hfree

/-! ### Statements on valid tables -/

/-- Only the row itself has its identifier, so its update is an update by the row. -/
theorem modify_row (hv : db.Valid) (hmem : a ∈ db.alerts) (f : MonAlert → MonAlert) :
    Table.modify MonAlert.id db.alerts a.id f =
      Table.modify MonAlert.id db.alerts a.id fun _ => f a := by
  refine List.map_congr_left fun x hx => ?_
  by_cases hxa : x.id = a.id
  · have hfind := Table.find_of_mem hv.keyed hx
    rw [hxa, Table.find_of_mem hv.keyed hmem] at hfind
    rw [(Option.some.inj hfind).symm]
  · rw [if_neg hxa, if_neg hxa]

theorem update_moves (hv : db.Valid) (hmem : a ∈ db.alerts) {f : MonAlert → MonAlert}
    (hf : f a = a') (hid : a'.id = a.id) (hr : a'.ruleId = a.ruleId)
    (he : a'.entityId = a.entityId) (hadm : Admits db a a') :
    ∃ db', db.update a.id f = .ok db' ∧ Moves a a' db db' ∧ db'.Valid := by
  have hmoves : Moves a a' db
      { db with alerts := Table.modify MonAlert.id db.alerts a.id fun _ => a' } :=
    ⟨hmem, hid, hr, he, rfl, rfl, rfl, rfl⟩
  refine ⟨_, ?_, hmoves, hmoves.valid hv hadm⟩
  rw [update, write, modify_row hv hmem, hf,
    if_pos ((indexed_iff _).mpr (oneActive_modify hv hmem hadm))]

/-- The guarded update of a row, from the status and the version that it has. -/
theorem optimisticUpdate_moves (hv : db.Valid) (hmem : a ∈ db.alerts) (new : AlertStatus)
    (fields : MonAlert → MonAlert) (hid : (fields a).id = a.id)
    (hr : (fields a).ruleId = a.ruleId) (he : (fields a).entityId = a.entityId)
    (hadm : Admits db a { fields a with status := new, version := a.version + 1 }) :
    ∃ db', db.optimisticUpdate a.id a.status new a.version fields = .ok (true, db') ∧
      Moves a { fields a with status := new, version := a.version + 1 } db db' ∧ db'.Valid := by
  obtain ⟨db', hupd, hmoves, hvalid⟩ := update_moves hv hmem
    (f := fun x => if x.status = a.status ∧ x.version = a.version then
      { fields x with status := new, version := a.version + 1 } else x)
    (if_pos ⟨rfl, rfl⟩) hid hr he hadm
  refine ⟨db', ?_, hmoves, hvalid⟩
  have hany : (db.alerts.any fun x =>
      decide (x.id = a.id ∧ x.status = a.status ∧ x.version = a.version)) = true :=
    List.any_eq_true.mpr ⟨a, hmem, by simp⟩
  rw [optimisticUpdate, if_pos hany, hupd]
  rfl

theorem insert_valid (hv : db.Valid) (a : ℕ → MonAlert) {ruleId : ℕ} {entityId : String}
    (hid : (a db.nextAlert).id = db.nextAlert) (hr : (a db.nextAlert).ruleId = some ruleId)
    (he : (a db.nextAlert).entityId = some entityId)
    (hfree : activeCount db.alerts (ruleId, entityId) = 0) :
    ∃ db', db.insert a = .ok db' ∧ db'.alerts = db.alerts ++ [a db.nextAlert] ∧
      db'.rules = db.rules ∧ db'.Valid := by
  have hone : OneActive (db.alerts ++ [a db.nextAlert]) := by
    intro r e
    have hold := hv.oneActive r e
    unfold activeCount at hold hfree ⊢
    rw [List.countP_append, List.countP_singleton]
    by_cases hk : (a db.nextAlert).activeKey = some (r, e)
    · have hkey := hk
      unfold MonAlert.activeKey at hkey
      split_ifs at hkey
      rw [hr, he] at hkey
      obtain ⟨rfl, rfl⟩ := Prod.mk.inj (Option.some.inj hkey)
      rw [hfree]
      split_ifs <;> omega
    · rw [if_neg (by simpa using hk)]
      omega
  refine ⟨{ db with alerts := db.alerts ++ [a db.nextAlert], nextAlert := db.nextAlert + 1 }, ?_,
    rfl, rfl, hone, ?_, ?_, hv.rulesKeyed, hv.rulesBelow⟩
  · rw [insert, write, if_pos ((indexed_iff _).mpr hone)]
    rfl
  · refine Table.nodup_concat hv.keyed ?_
    rw [hid]
    exact Table.new_of_below hv.below
  · exact Table.below_concat hv.below hid (Nat.lt_succ_self _)

end MonDb

/-! ### What the calls do to one row -/

section Engine

open MonDb

variable {db : MonDb} {a : MonAlert} {rule : MonRule} {event : MonEvent} {t : Readings}

theorem resolveAlertEngine_moves (hv : db.Valid) (hmem : a ∈ db.alerts)
    (hact : a.status.active = true) (t : Readings) :
    ∃ a' db', resolveAlertEngine db a t = .ok (true, db') ∧ Moves a a' db db' ∧ db'.Valid ∧
      a'.status = .resolved := by
  have hne : a.status ≠ .resolved := by
    intro hc
    rw [hc] at hact
    cases hact
  obtain ⟨db₁, hcas, hm₁, hv₁⟩ := optimisticUpdate_moves hv hmem .resolved
    (fun x => { x with resolvedAt := some t.closed }) rfl rfl rfl
    (admits_of_resolved rfl)
  obtain ⟨db₂, hupd, hm₂, hv₂⟩ := update_moves hv₁ hm₁.mem'
    (f := MonAlert.setResolved (a.version + 1) t.closedRow)
    rfl rfl rfl rfl (admits_of_resolved rfl)
  refine ⟨_, _, ?_, (hm₁.trans hm₂).logEvent a .resolve (some a.status) .resolved a.severity
    t.logged, hv₂.logEvent _ _ _ _ _ _, rfl⟩
  rw [resolveAlertEngine, if_neg hne, hcas]
  dsimp only [bind, Except.bind]
  rw [if_pos rfl, hupd]
  rfl

theorem maybeNotify_moves {a' : MonAlert} {db' : MonDb} (hm : Moves a a' db db') (hv : db'.Valid)
    (x : MonAlert) (rule : MonRule) (t : Readings) :
    Moves a a' db (maybeNotify db' x rule t).2 ∧ (maybeNotify db' x rule t).2.Valid := by
  unfold maybeNotify
  dsimp only
  split
  · split_ifs
    · exact ⟨hm.logEvent _ _ _ _ _ _, hv.logEvent _ _ _ _ _ _⟩
    · exact ⟨hm, hv⟩
  · exact ⟨hm, hv⟩

theorem moves_self (hv : db.Valid) (hmem : a ∈ db.alerts) : Moves a a db db := by
  refine ⟨hmem, rfl, rfl, rfl, ?_, rfl, rfl, rfl⟩
  refine ((List.map_congr_left fun x hx => ?_).trans (List.map_id _)).symm
  rw [id]
  split_ifs with hxa
  · have h := Table.find_of_mem hv.keyed hx
    rw [hxa, Table.find_of_mem hv.keyed hmem] at h
    exact Option.some.inj h
  · rfl

theorem maybeEscalate_moves (hv : db.Valid) (hmem : a ∈ db.alerts)
    (hact : a.status.active = true) (rule : MonRule) (t : Readings) :
    ∃ ok a' db', maybeEscalate db a rule t = .ok (ok, db') ∧ Moves a a' db db' ∧ db'.Valid := by
  have hself := moves_self hv hmem
  unfold maybeEscalate
  split
  · exact ⟨_, _, _, rfl, hself, hv⟩
  dsimp only
  split
  · exact ⟨_, _, _, rfl, hself, hv⟩
  split
  · exact ⟨_, _, _, rfl, hself, hv⟩
  rename_i target _
  split
  · exact ⟨_, _, _, rfl, hself, hv⟩
  obtain ⟨db₁, hupd, hm₁, hv₁⟩ := update_moves hv hmem
    (f := fun x => { x with severity := target }) rfl rfl rfl rfl
    (admits_of_active hact rfl rfl)
  rw [hupd]
  exact ⟨_, _, _, rfl, hm₁.logEvent _ _ _ _ _ _, hv₁.logEvent _ _ _ _ _ _⟩

theorem fireAlert_moves (hv : db.Valid) (hmem : a ∈ db.alerts) (hst : a.status = .pending)
    (rule : MonRule) (t : Readings) :
    ∃ action a' db', fireAlert db a rule t = .ok (action, db') ∧ Moves a a' db db' ∧
      db'.Valid := by
  have hact : a.status.active = true := by
    rw [hst]
    rfl
  obtain ⟨db₁, hcas, hm₁, hv₁⟩ := optimisticUpdate_moves hv hmem .firing
    (fun x => { x with firedAt := some t.now }) rfl rfl rfl
    (admits_of_active hact rfl rfl)
  obtain ⟨db₂, hupd, hm₂, hv₂⟩ := update_moves hv₁ hm₁.mem'
    (f := MonAlert.setFiring (a.version + 1) t.now)
    rfl rfl rfl rfl (admits_of_active rfl rfl rfl)
  rw [hst] at hcas
  set fired := a.setFiring (a.version + 1) t.now with hfired
  have hlog := (hm₁.trans hm₂).logEvent fired .fire (some .pending) .firing fired.severity t.logged
  obtain ⟨hm, hv'⟩ := maybeNotify_moves hlog (hv₂.logEvent _ _ _ _ _ _) fired rule t
  refine ⟨some (maybeNotify (db₂.logEvent fired .fire (some .pending) .firing fired.severity
    t.logged) fired rule t).1, _, _, ?_, hm, hv'⟩
  rw [fireAlert, hcas]
  dsimp only [bind, Except.bind]
  rw [if_pos rfl, hupd]
  rfl

theorem remind_moves (hv : db.Valid) (hmem : a ∈ db.alerts) (hact : a.status.active = true)
    (rule : MonRule) (t : Readings) :
    ∃ out a' db', remind db a rule t = .ok (db', out) ∧ Moves a a' db db' ∧ db'.Valid := by
  obtain ⟨hm₁, hv₁⟩ := maybeNotify_moves (moves_self hv hmem) hv a rule t
  obtain ⟨ok, a', db₂, hesc, hm₂, hv₂⟩ := maybeEscalate_moves hv₁ hm₁.mem' hact rule t
  refine ⟨[⟨rule.id, .log (if ok then .escalate else (maybeNotify db a rule t).1),
    some a.status⟩], a', db₂, ?_, hm₁.trans hm₂, hv₂⟩
  rw [remind]
  dsimp only
  rw [hesc]
  rfl

theorem hitFiring_moves (hv : db.Valid) (hmem : a ∈ db.alerts) (hact : a.status.active = true)
    (rule : MonRule) (t : Readings) :
    ∃ out a' db', hitFiring db a rule t = .ok (db', out) ∧ Moves a a' db db' ∧ db'.Valid := by
  obtain ⟨db₁, hcas, hm₁, hv₁⟩ := optimisticUpdate_moves hv hmem a.status id
    rfl rfl rfl (admits_of_active hact rfl rfl)
  obtain ⟨db₂, hupd, hm₂, hv₂⟩ := update_moves hv₁ hm₁.mem'
    (f := fun x => { x with version := a.version + 1 })
    rfl rfl rfl rfl (admits_of_active hact rfl rfl)
  change db₁.update a.id _ = _ at hupd
  obtain ⟨out, a', db₃, hrem, hm₃, hv₃⟩ := remind_moves hv₂ hm₂.mem' hact rule t
  refine ⟨out, a', db₃, ?_, (hm₁.trans hm₂).trans hm₃, hv₃⟩
  rw [hitFiring, hcas]
  dsimp only [bind, Except.bind]
  rw [if_pos rfl, hupd]
  exact hrem

theorem hitAlert_moves (hv : db.Valid) (hmem : a ∈ db.alerts) (hact : a.status.active = true)
    (rule : MonRule) (t : Readings) :
    ∃ out a' db', hitAlert db a rule t = .ok (db', out) ∧ Moves a a' db db' ∧ db'.Valid := by
  obtain ⟨db₁, hupd, hm₁, hv₁⟩ := update_moves hv hmem
    (f := MonAlert.stamp (a.hitCount + 1) t.now)
    rfl rfl rfl rfl (admits_of_active hact rfl rfl)
  set b := a.stamp (a.hitCount + 1) t.now with hb
  have hact' : b.status.active = true := hact
  rw [hitAlert, hupd]
  dsimp only [bind, Except.bind]
  rw [← hb]
  cases hst : b.status with
  | pending =>
      dsimp only
      split
      · obtain ⟨action, a', db₂, hfire, hm₂, hv₂⟩ := fireAlert_moves hv₁ hm₁.mem' hst rule t
        rw [hfire]
        exact ⟨_, _, _, rfl, hm₁.trans hm₂, hv₂⟩
      · exact ⟨_, _, _, rfl, hm₁.logEvent _ _ _ _ _ _, hv₁.logEvent _ _ _ _ _ _⟩
  | firing | acknowledged =>
      obtain ⟨out, a', db₂, hrest, hm₂, hv₂⟩ := hitFiring_moves hv₁ hm₁.mem' hact' rule t
      exact ⟨out, a', db₂, hrest, hm₁.trans hm₂, hv₂⟩
  | resolved =>
      rw [hst] at hact'
      cases hact'

end Engine

/-! ### One rule -/

namespace MonDb

/-- The alerts of a rule. -/
def ofRule (db : MonDb) (ruleId : ℕ) : List MonAlert :=
  db.alerts.filter fun a => decide (a.ruleId = some ruleId)

variable {db db' : MonDb} {a a' : MonAlert}

theorem mem_ofRule {ruleId : ℕ} :
    a ∈ db.ofRule ruleId ↔ a ∈ db.alerts ∧ a.ruleId = some ruleId := by
  rw [ofRule, List.mem_filter, decide_eq_true_eq]

theorem Valid.eq_of_id (hv : db.Valid) {x : MonAlert} (hx : x ∈ db.alerts) (ha : a ∈ db.alerts)
    (hid : x.id = a.id) : x = a := by
  have h := Table.find_of_mem hv.keyed hx
  rw [hid, Table.find_of_mem hv.keyed ha] at h
  exact (Option.some.inj h).symm

theorem Moves.others (h : Moves a a' db db') (hv : db.Valid) {ruleId : ℕ}
    (hne : a.ruleId ≠ some ruleId) : db'.ofRule ruleId = db.ofRule ruleId := by
  rw [ofRule, ofRule, h.alerts]
  refine Table.filter_modify_of_neg fun x hx hid => ?_
  rw [hv.eq_of_id hx h.mem hid, h.ruleId]
  simpa using hne

theorem Moves.ofRule_ids (h : Moves a a' db db') (hv : db.Valid) (ruleId : ℕ) :
    (db'.ofRule ruleId).map MonAlert.id = (db.ofRule ruleId).map MonAlert.id := by
  have hkeep : ∀ x ∈ db.alerts, (if x.id = a.id then a' else x).ruleId = x.ruleId ∧
      (if x.id = a.id then a' else x).id = x.id := by
    intro x hx
    split_ifs with hid
    · rw [hv.eq_of_id hx h.mem hid]
      exact ⟨h.ruleId, h.id⟩
    · exact ⟨rfl, rfl⟩
  rw [ofRule, ofRule, h.alerts, Table.modify, List.filter_map, List.map_map]
  have hfilter : db.alerts.filter ((fun x => decide (x.ruleId = some ruleId)) ∘
      fun x => if x.id = a.id then a' else x) =
        db.alerts.filter fun x => decide (x.ruleId = some ruleId) := by
    refine List.filter_congr fun x hx => ?_
    rw [Function.comp_apply, (hkeep x hx).1]
  rw [hfilter]
  refine List.map_congr_left fun x hx => ?_
  exact (hkeep x (List.mem_of_mem_filter hx)).2

/-- A fold that keeps the best row so far or takes the next one ends with one of the rows, if there
are any. -/
theorem foldl_choice (pick : Option MonAlert → MonAlert → Option MonAlert)
    (hpick : ∀ best x, pick best x = some x ∨ best ≠ none ∧ pick best x = best)
    (rows : List MonAlert) (best : Option MonAlert) :
    (∀ x, rows.foldl pick best = some x → x ∈ rows ∨ best = some x) ∧
      (rows.foldl pick best = none → rows = [] ∧ best = none) := by
  induction rows generalizing best with
  | nil => exact ⟨fun x hx => Or.inr hx, fun hx => ⟨rfl, hx⟩⟩
  | cons y rest ih =>
      obtain ⟨hsome, hnone⟩ := ih (pick best y)
      constructor
      · intro x hx
        rcases hsome x hx with hmem | hx
        · exact Or.inl (List.mem_cons_of_mem y hmem)
        · rcases hpick best y with hy | ⟨-, hy⟩ <;> rw [hy] at hx
          · exact Or.inl (Option.some.inj hx ▸ List.mem_cons_self)
          · exact Or.inr hx
      · intro hx
        have hend := (hnone hx).2
        rcases hpick best y with hy | ⟨hne, hy⟩ <;> rw [hy] at hend
        · cases hend
        · exact absurd hend hne

theorem newest_spec (rows : List MonAlert) :
    (∀ x, newest rows = some x → x ∈ rows) ∧ (newest rows = none → rows = []) := by
  have hchoice : (∀ x, newest rows = some x → x ∈ rows ∨ none = some x) ∧
      (newest rows = none → rows = [] ∧ (none : Option MonAlert) = none) := by
    refine foldl_choice _ (fun best x => ?_) rows none
    rcases best with _ | b
    · exact Or.inl rfl
    · dsimp only
      split_ifs
      · exact Or.inl rfl
      · exact Or.inr ⟨Option.some_ne_none b, rfl⟩
  refine ⟨fun x hx => (hchoice.1 x hx).resolve_right ?_, fun hx => (hchoice.2 hx).1⟩
  exact (Option.some_ne_none x).symm

theorem activeByRuleEntity_some {ruleId : ℕ} {entityId : String}
    (h : db.activeByRuleEntity ruleId entityId = some a) :
    a ∈ db.ofRule ruleId ∧ a.entityId = some entityId ∧ a.status.active = true := by
  obtain ⟨hmem, hcond⟩ := List.mem_filter.mp ((newest_spec _).1 a h)
  rw [Bool.and_eq_true, decide_eq_true_eq] at hcond
  exact ⟨mem_ofRule.mpr ⟨hmem, hcond.1.1⟩, hcond.1.2, hcond.2⟩

theorem activeByRuleEntity_none {ruleId : ℕ} {entityId : String}
    (h : db.activeByRuleEntity ruleId entityId = none) :
    activeCount db.alerts (ruleId, entityId) = 0 := by
  have hnil := (newest_spec _).2 h
  rw [activeCount, List.countP_eq_zero]
  intro x hx hkey
  rw [decide_eq_true_eq, MonAlert.activeKey] at hkey
  split_ifs at hkey with hact
  have hmem : x ∈ db.alerts.filter fun a =>
      decide (a.ruleId = some ruleId ∧ a.entityId = some entityId) && a.status.active := by
    obtain ⟨r, hr, hkey⟩ := Option.bind_eq_some_iff.mp hkey
    obtain ⟨e, he, hkey⟩ := Option.map_eq_some_iff.mp hkey
    obtain ⟨rfl, rfl⟩ := Prod.mk.inj hkey
    exact List.mem_filter.mpr ⟨hx, by simp [hr, he, hact]⟩
  rw [hnil] at hmem
  cases hmem

theorem recentlyResolved_some {ruleId : ℕ} {entityId : String} {window : ℤ} {now : ℚ}
    (h : db.recentlyResolved ruleId entityId window now = some a) :
    a ∈ db.ofRule ruleId ∧ a.entityId = some entityId ∧ a.status = .resolved := by
  obtain ⟨hmem, hcond⟩ := List.mem_filter.mp ((newest_spec _).1 a h)
  rw [Bool.and_eq_true, decide_eq_true_eq] at hcond
  exact ⟨mem_ofRule.mpr ⟨hmem, hcond.1.1⟩, hcond.1.2⟩

theorem recentlyResolved_ne_none {ruleId : ℕ} {entityId : String} {window : ℤ} {now time : ℚ}
    (hmem : a ∈ db.ofRule ruleId) (he : a.entityId = some entityId) (hst : a.status = .resolved)
    (htime : a.resolvedAt = some time) (hwindow : 0 < window) (hrecent : now - window ≤ time) :
    db.recentlyResolved ruleId entityId window now ≠ none := by
  intro h
  have hnil := (newest_spec _).2 h
  obtain ⟨hmem, hr⟩ := mem_ofRule.mp hmem
  have hmax : max window 0 = window := max_eq_left hwindow.le
  have hfound : a ∈ db.alerts.filter fun a =>
      decide (a.ruleId = some ruleId ∧ a.entityId = some entityId ∧ a.status = .resolved) &&
        a.resolvedAt.any fun t => decide (now - max window 0 ≤ t) := by
    refine List.mem_filter.mpr ⟨hmem, ?_⟩
    rw [hmax]
    simpa [hr, he, hst, htime] using hrecent
  rw [hnil] at hfound
  cases hfound

/-- The event hits the rule while no alert of the pair is active, within the convergence window of
the latest resolution: some resolution, and then the latest one, is not older than the window. -/
structure Hit (py : PyText) (db : MonDb) (rule : MonRule) (event : MonEvent) (now : ℚ) : Prop where
  pertains : rulePertains py rule event = true
  met : conditionMet rule event = true
  inactive : ∀ a ∈ db.ofRule rule.id, a.entityId = some event.entityId → a.status = .resolved
  window : 0 < rule.convergeSec
  recent : ∃ a ∈ db.ofRule rule.id, a.entityId = some event.entityId ∧
    ∃ time, a.resolvedAt = some time ∧ now - rule.convergeSec ≤ time

/-- A resolved row of the pair is `pending` again, and the rule has no row that it had not. -/
def Reopens (ruleId : ℕ) (entityId : String) (db db' : MonDb) : Prop :=
  (∃ a ∈ db.ofRule ruleId, a.entityId = some entityId ∧ a.status = .resolved ∧
    ∃ a' ∈ db'.ofRule ruleId, a'.id = a.id ∧ a'.status = .pending) ∧
  (db'.ofRule ruleId).map MonAlert.id = (db.ofRule ruleId).map MonAlert.id

/-- What the evaluation of one rule does to the tables. -/
structure RuleStep (ruleId : ℕ) (db db' : MonDb) : Prop where
  valid : db'.Valid
  rules : db'.rules = db.rules
  others : ∀ r, r ≠ ruleId → db'.ofRule r = db.ofRule r

theorem RuleStep.refl (hv : db.Valid) (ruleId : ℕ) : RuleStep ruleId db db :=
  ⟨hv, rfl, fun _ _ => rfl⟩

theorem Moves.ruleStep (h : Moves a a' db db') (hv : db.Valid) (hv' : db'.Valid) {ruleId : ℕ}
    (hr : a.ruleId = some ruleId) : RuleStep ruleId db db' := by
  refine ⟨hv', h.rules, fun r hne => h.others hv ?_⟩
  rw [hr]
  exact fun hc => hne (Option.some.inj hc).symm

end MonDb

section Rules

open MonDb

variable {db : MonDb}

/-- The convergence of a hit with no active alert: it reopens a resolved row, or none was resolved
within the window. -/
theorem tryConverge_moves (hv : db.Valid) (rule : MonRule) (event : MonEvent) (t : Readings)
    (hfree : activeCount db.alerts (rule.id, event.entityId) = 0) :
    (tryConverge db rule event t = .ok (none, db) ∧
      ¬ (0 < rule.convergeSec ∧ db.recentlyResolved rule.id event.entityId rule.convergeSec
        t.cutoff ≠ none)) ∨
    ∃ a a' x db', tryConverge db rule event t = .ok (some x, db') ∧
      a ∈ db.ofRule rule.id ∧ a.entityId = some event.entityId ∧ a.status = .resolved ∧
      Moves a a' db db' ∧ db'.Valid ∧ a'.status = .pending := by
  rw [tryConverge]
  by_cases hw : rule.convergeSec ≤ 0
  · rw [if_pos hw]
    exact Or.inl ⟨rfl, fun hc => absurd hc.1 (not_lt.mpr hw)⟩
  rw [if_neg hw]
  cases hrec : db.recentlyResolved rule.id event.entityId rule.convergeSec t.cutoff with
  | none => exact Or.inl ⟨rfl, fun hc => hc.2 rfl⟩
  | some a =>
      right
      obtain ⟨hmem, he, hst⟩ := recentlyResolved_some hrec
      obtain ⟨hmem', hr⟩ := mem_ofRule.mp hmem
      obtain ⟨db₁, hcas, hm₁, hv₁⟩ := optimisticUpdate_moves hv hmem' .pending
        (fun x => { x with resolvedAt := none, firedAt := none }) rfl rfl rfl
        (admits_of_free hr he hfree)
      rw [hst] at hcas
      obtain ⟨db₂, hupd, hm₂, hv₂⟩ := update_moves hv₁ hm₁.mem'
        (f := MonAlert.setReopened (a.version + 1) (a.hitCount + 1) t.reopened)
        rfl rfl rfl rfl (admits_of_active rfl rfl rfl)
      refine ⟨a, _, a.setReopened (a.version + 1) (a.hitCount + 1) t.reopened, _, ?_, hmem, he,
        hst, (hm₁.trans hm₂).logEvent a .fire (some .resolved) .pending a.severity t.logged,
        hv₂.logEvent _ _ _ _ _ _, rfl⟩
      dsimp only
      rw [hcas]
      dsimp only [bind, Except.bind]
      rw [if_pos rfl, hupd]
      rfl

theorem insert_ruleStep (hv : db.Valid) (rule : MonRule) (event : MonEvent) (t : Readings)
    (hfree : activeCount db.alerts (rule.id, event.entityId) = 0) :
    ∃ db', db.insert (newAlert rule event t) = .ok db' ∧ RuleStep rule.id db db' := by
  obtain ⟨db', hins, halerts, hrules, hv'⟩ := insert_valid hv (newAlert rule event t) rfl rfl rfl
    hfree
  refine ⟨db', hins, hv', hrules, fun r hne => ?_⟩
  have hnot : decide ((newAlert rule event t db.nextAlert).ruleId = some r) = false :=
    decide_eq_false fun hc => hne (Option.some.inj hc).symm
  rw [ofRule, ofRule, halerts, List.filter_append, List.filter_cons, hnot]
  exact List.append_nil _

/-- **One rule.** The evaluation of a rule issues no statement that the index refuses, writes
alerts of this rule only, and reopens a row if the event hits within the window. -/
theorem evaluateRule_step (py : PyText) (hv : db.Valid) (rule : MonRule) (event : MonEvent)
    (t : Readings) :
    ∃ db' out, evaluateRule py db rule event t = .ok (db', out) ∧ RuleStep rule.id db db' ∧
      (Hit py db rule event t.cutoff → Reopens rule.id event.entityId db db') := by
  rw [evaluateRule]
  dsimp only
  by_cases hp : rulePertains py rule event = true
  swap
  · rw [if_pos (by simpa using hp)]
    exact ⟨db, [], rfl, RuleStep.refl hv _, fun hh => absurd hh.pertains hp⟩
  rw [if_neg (by simpa using hp)]
  by_cases hc : conditionMet rule event = true
  swap
  · rw [if_pos (by simpa using hc)]
    cases hact : db.activeByRuleEntity rule.id event.entityId with
    | none => exact ⟨db, [], rfl, RuleStep.refl hv _, fun hh => absurd hh.met hc⟩
    | some a =>
        obtain ⟨hmem, -, hst⟩ := activeByRuleEntity_some hact
        obtain ⟨hmem, hr⟩ := mem_ofRule.mp hmem
        obtain ⟨a', db', hres, hm, hv', -⟩ := resolveAlertEngine_moves hv hmem hst t
        dsimp only
        rw [hres]
        exact ⟨db', _, rfl, hm.ruleStep hv hv' hr, fun hh => absurd hh.met hc⟩
  rw [if_neg (by simpa using hc)]
  cases hact : db.activeByRuleEntity rule.id event.entityId with
  | some a =>
      obtain ⟨hmem, he, hst⟩ := activeByRuleEntity_some hact
      have hno : ¬ Hit py db rule event t.cutoff := by
        intro hh
        rw [hh.inactive a hmem he] at hst
        cases hst
      obtain ⟨hmem, hr⟩ := mem_ofRule.mp hmem
      obtain ⟨out, a', db', hhit, hm, hv'⟩ := hitAlert_moves hv hmem hst rule t
      exact ⟨db', out, hhit, hm.ruleStep hv hv' hr, fun hh => absurd hh hno⟩
  | none =>
      dsimp only
      rcases tryConverge_moves hv rule event t (activeByRuleEntity_none hact) with
        ⟨hnone, hno⟩ | ⟨a, a', x, db', hsome, hmem, he, hst, hm, hv', hpending⟩
      · obtain ⟨db', hins, hstep⟩ := insert_ruleStep hv rule event t (activeByRuleEntity_none hact)
        rw [hnone]
        dsimp only [bind, Except.bind]
        rw [hins]
        refine ⟨_, _, rfl, ⟨hstep.valid.logEvent _ _ _ _ _ _, hstep.rules, hstep.others⟩, ?_⟩
        intro hh
        obtain ⟨b, hb, hbe, time, htime, hrecent⟩ := hh.recent
        exact absurd ⟨hh.window, recentlyResolved_ne_none hb hbe (hh.inactive b hb hbe) htime
          hh.window hrecent⟩ hno
      · rw [hsome]
        obtain ⟨-, hr⟩ := mem_ofRule.mp hmem
        refine ⟨db', _, rfl, hm.ruleStep hv hv' hr, fun _ => ⟨⟨a, hmem, he, hst, a', ?_, hm.id,
          hpending⟩, hm.ofRule_ids hv rule.id⟩⟩
        exact mem_ofRule.mpr ⟨hm.mem', hm.ruleId.trans hr⟩

theorem MonDb.Hit.congr {db' : MonDb} {py : PyText} {rule : MonRule} {event : MonEvent} {now : ℚ}
    (h : Hit py db rule event now) (heq : db'.ofRule rule.id = db.ofRule rule.id) :
    Hit py db' rule event now :=
  ⟨h.pertains, h.met, heq ▸ h.inactive, h.window, heq ▸ h.recent⟩

/-- What the loop over the rules does to the tables. -/
structure RulesStep (py : PyText) (event : MonEvent) (readings : ℕ → Readings)
    (rules : List MonRule) (db db' : MonDb) : Prop where
  valid : db'.Valid
  sameRules : db'.rules = db.rules
  others : ∀ r, r ∉ rules.map MonRule.id → db'.ofRule r = db.ofRule r
  reopens : ∀ rule ∈ rules, Hit py db rule event (readings rule.id).cutoff →
    Reopens rule.id event.entityId db db'

/-- The loop over rules with distinct identifiers: each of them finds its alerts as they were
before the loop, and they stay as it leaves them. -/
theorem evaluateRules_step (py : PyText) (event : MonEvent) (readings : ℕ → Readings)
    {rules : List MonRule} (hn : (rules.map MonRule.id).Nodup) (hv : db.Valid) :
    ∃ db' out, evaluateRules py event readings rules db = .ok (db', out) ∧
      RulesStep py event readings rules db db' := by
  induction rules generalizing db with
  | nil => exact ⟨db, [], rfl, hv, rfl, fun _ _ => rfl, fun _ h => by cases h⟩
  | cons rule rest ih =>
      rw [List.map_cons, List.nodup_cons] at hn
      obtain ⟨db₁, out, heval, hstep, hreopen⟩ :=
        evaluateRule_step py hv rule event (readings rule.id)
      obtain ⟨db₂, outs, hrest, hsteps⟩ := ih hn.2 hstep.valid
      refine ⟨db₂, out ++ outs, ?_, hsteps.valid,
        hsteps.sameRules.trans hstep.rules, ?_, ?_⟩
      · rw [evaluateRules, heval]
        dsimp only [bind, Except.bind]
        rw [hrest]
        rfl
      · intro r hr
        rw [List.map_cons, List.mem_cons, not_or] at hr
        rw [hsteps.others r hr.2, hstep.others r hr.1]
      · intro rule' hmem hhit
        rcases List.mem_cons.mp hmem with rfl | hmem
        · have hlast := hsteps.others rule'.id hn.1
          unfold Reopens at hreopen ⊢
          rw [hlast]
          exact hreopen hhit
        · have hne : rule'.id ≠ rule.id := by
            intro hc
            exact hn.1 (hc ▸ List.mem_map_of_mem hmem)
          have hfirst := hstep.others rule'.id hne
          have hres := hsteps.reopens rule' hmem (hhit.congr hfirst)
          unfold Reopens at hres ⊢
          rw [hfirst] at hres
          exact hres

theorem enabledRules_nodup (hv : db.Valid) (order : RuleOrder) :
    ((order.rules db.enabledRules).map MonRule.id).Nodup := by
  have hsub : (db.enabledRules.map MonRule.id).Nodup :=
    hv.rulesKeyed.sublist (List.filter_sublist.map MonRule.id)
  exact ((order.perm db.enabledRules).map MonRule.id).nodup_iff.mpr hsub

end Rules

/-! ### The sweep -/

section Sweep

open MonDb

variable {db : MonDb} {a : MonAlert}

theorem sweepAlert_moves (env : SweepEnv) (hv : db.Valid) (hmem : a ∈ db.alerts)
    (hact : a.status.active = true) :
    ∃ a' db', sweepAlert env db a = .ok db' ∧ Moves a a' db db' ∧ db'.Valid := by
  have hself := moves_self hv hmem
  unfold sweepAlert
  split
  · exact ⟨a, db, rfl, hself, hv⟩
  rename_i rule _
  split
  · exact ⟨a, db, rfl, hself, hv⟩
  split
  · rename_i hst
    split
    · obtain ⟨action, a', db', hfire, hm, hv'⟩ := fireAlert_moves hv hmem hst rule
        { env.readings a.id with now := env.now }
      rw [hfire]
      exact ⟨a', db', rfl, hm, hv'⟩
    · exact ⟨a, db, rfl, hself, hv⟩
  · obtain ⟨ok, a', db', hesc, hm, hv'⟩ := maybeEscalate_moves hv hmem hact rule
      (env.readings a.id)
    rw [hesc]
    exact ⟨a', db', rfl, hm, hv'⟩

theorem MonDb.Moves.mem_of_ne {db' : MonDb} {a' x : MonAlert} (h : Moves a a' db db')
    (hx : x ∈ db.alerts) (hne : x.id ≠ a.id) : x ∈ db'.alerts := by
  rw [h.alerts]
  exact Table.mem_modify.mpr (Or.inr ⟨hx, hne⟩)

theorem sweepAlerts_valid (env : SweepEnv) {rows : List MonAlert}
    (hn : (rows.map MonAlert.id).Nodup)
    (hrows : ∀ x ∈ rows, x ∈ db.alerts ∧ x.status.active = true) (hv : db.Valid) :
    ∃ db', sweepAlerts env rows db = .ok db' ∧ db'.Valid := by
  induction rows generalizing db with
  | nil => exact ⟨db, rfl, hv⟩
  | cons x rest ih =>
      rw [List.map_cons, List.nodup_cons] at hn
      obtain ⟨hmem, hact⟩ := hrows x List.mem_cons_self
      obtain ⟨x', db₁, hsweep, hm, hv₁⟩ := sweepAlert_moves env hv hmem hact
      have hrest : ∀ y ∈ rest, y ∈ db₁.alerts ∧ y.status.active = true := by
        intro y hy
        obtain ⟨hy', hyact⟩ := hrows y (List.mem_cons_of_mem x hy)
        refine ⟨hm.mem_of_ne hy' ?_, hyact⟩
        intro hc
        exact hn.1 (hc ▸ List.mem_map_of_mem hy)
      obtain ⟨db₂, hsweeps, hv₂⟩ := ih hn.2 hrest hv₁
      refine ⟨db₂, ?_, hv₂⟩
      rw [sweepAlerts, hsweep]
      exact hsweeps

theorem activeAlerts_spec (hv : db.Valid) (limit : ℕ) :
    ((db.activeAlerts limit).map MonAlert.id).Nodup ∧
      ∀ x ∈ db.activeAlerts limit, x ∈ db.alerts ∧ x.status.active = true := by
  have hperm := List.mergeSort_perm (db.alerts.filter fun a => a.status.active)
    fun a b => decide (a.id ≤ b.id)
  have hsorted : (((db.alerts.filter fun a => a.status.active).mergeSort fun a b =>
      decide (a.id ≤ b.id)).map MonAlert.id).Nodup := by
    rw [(hperm.map MonAlert.id).nodup_iff]
    exact hv.keyed.sublist (List.filter_sublist.map MonAlert.id)
  exact ⟨hsorted.sublist ((List.take_sublist _ _).map MonAlert.id), fun x hx =>
    List.mem_filter.mp (hperm.subset ((List.take_sublist _ _).subset hx))⟩

theorem sweepActiveAlerts_valid (env : SweepEnv) (hv : db.Valid) :
    ∃ db', sweepActiveAlerts env db = .ok db' ∧ db'.Valid := by
  rw [sweepActiveAlerts]
  split
  · obtain ⟨hn, hrows⟩ := activeAlerts_spec hv 500
    exact sweepAlerts_valid env hn hrows hv
  · exact ⟨db, rfl, hv⟩

end Sweep

/-! ### The other calls -/

section Calls

open MonDb

variable {db db' : MonDb}

/-- A call fails with no integrity error and leaves valid tables. -/
def KeepsValid : Except PyErr MonDb → Prop
  | .ok db' => db'.Valid
  | .error e => e ≠ .integrityError

theorem mem_of_lookup {visible : Option (List String)} {id : ℕ} {a : MonAlert}
    (h : (db.alert? id).filter (entityInScope visible) = some a) : a ∈ db.alerts :=
  Table.mem_of_find (Option.eq_some_of_filter_eq_some h)

/-- A permission that is refused raises a `ForbiddenError`. -/
theorem requirePerm_cases (user : Actor) (code : String) :
    user.requirePerm code = .ok () ∨ ∃ msg, user.requirePerm code = .error (.forbidden msg) := by
  rw [Actor.requirePerm]
  split
  · exact Or.inl rfl
  · exact Or.inr ⟨_, rfl⟩

theorem acknowledgeAlert_keepsValid (user : Actor) (visible : Option (List String)) (t : Readings)
    (hv : db.Valid) (alertId : ℕ) : KeepsValid (acknowledgeAlert user visible t db alertId) := by
  rw [acknowledgeAlert]
  rcases requirePerm_cases user "monitor:alert:ack" with hp | ⟨msg, hp⟩ <;> rw [hp]
  swap
  · exact PyErr.noConfusion
  dsimp only [bind, Except.bind]
  split
  · exact PyErr.noConfusion
  rename_i a hlook
  have hmem := mem_of_lookup hlook
  by_cases hst : a.status = .firing
  swap
  · rw [if_pos hst]
    exact PyErr.noConfusion
  rw [if_neg (not_not_intro hst)]
  have hact : a.status.active = true := by
    rw [hst]
    rfl
  obtain ⟨db₁, hcas, hm₁, hv₁⟩ := optimisticUpdate_moves hv hmem .acknowledged id
    rfl rfl rfl (admits_of_active hact rfl rfl)
  obtain ⟨db₂, hupd, hm₂, hv₂⟩ := update_moves hv₁ hm₁.mem'
    (f := fun x => { x with version := a.version + 1, status := .acknowledged })
    rfl rfl rfl rfl (admits_of_active rfl rfl rfl)
  rw [hst] at hcas
  change db₁.update a.id _ = _ at hupd
  rw [hcas]
  dsimp only
  rw [if_neg (by decide), hupd]
  exact hv₂.logEvent _ _ _ _ _ _

theorem resolveAlert_keepsValid (user : Actor) (visible : Option (List String)) (t : Readings)
    (hv : db.Valid) (alertId : ℕ) : KeepsValid (resolveAlert user visible t db alertId) := by
  rw [resolveAlert]
  rcases requirePerm_cases user "monitor:alert:resolve" with hp | ⟨msg, hp⟩ <;> rw [hp]
  swap
  · exact PyErr.noConfusion
  dsimp only [bind, Except.bind]
  split
  · exact PyErr.noConfusion
  rename_i a hlook
  by_cases hst : a.status = .resolved
  · rw [if_pos hst]
    exact PyErr.noConfusion
  rw [if_neg hst]
  have hact : a.status.active = true := by
    cases h : a.status <;> first | rfl | exact absurd h hst
  obtain ⟨a', db', hres, -, hv', -⟩ := resolveAlertEngine_moves hv (mem_of_lookup hlook) hact t
  rw [hres]
  dsimp only
  rw [if_neg (by decide)]
  exact hv'

theorem createRule_keepsValid (user : Actor) (featureEnabled : Bool) (data : MonRule)
    (hv : db.Valid) : KeepsValid (createRule user featureEnabled data db) := by
  rw [createRule]
  rcases requirePerm_cases user "monitor:rule:add" with hp | ⟨msg, hp⟩ <;> rw [hp]
  swap
  · exact PyErr.noConfusion
  dsimp only [bind, Except.bind]
  split
  · exact PyErr.noConfusion
  split
  · exact PyErr.noConfusion
  refine ⟨hv.oneActive, hv.keyed, hv.below, ?_, ?_⟩
  · exact Table.nodup_concat hv.rulesKeyed (Table.new_of_below hv.rulesBelow)
  · exact Table.below_concat hv.rulesBelow rfl (Nat.lt_succ_self _)

/-- An edit, a deletion or a change of status, each of which keeps the identifier of its rule. -/
theorem changeRule_keepsValid (user : Actor) (perm : String) (ruleId : ℕ) {set : MonRule → MonRule}
    (hset : ∀ r, (set r).id = r.id) (hv : db.Valid) :
    KeepsValid (changeRule user perm ruleId set db) := by
  rw [changeRule]
  rcases requirePerm_cases user perm with hp | ⟨msg, hp⟩ <;> rw [hp]
  swap
  · exact PyErr.noConfusion
  dsimp only [bind, Except.bind]
  split
  · exact PyErr.noConfusion
  have hkeys : (Table.modify MonRule.id db.rules ruleId set).map MonRule.id =
      db.rules.map MonRule.id :=
    Table.map_key_modify fun r hr => (hset r).trans hr
  refine ⟨hv.oneActive, hv.keyed, hv.below, hkeys ▸ hv.rulesKeyed, ?_⟩
  intro r hr
  obtain ⟨x, hx, hid⟩ := List.mem_map.mp (hkeys ▸ List.mem_map_of_mem hr)
  exact hid ▸ hv.rulesBelow x hx

/-! ### Histories of calls -/

/-- What a call promises: it fails with no integrity error, it leaves at most one active alert for
each rule and entity, and a hit within the convergence window reopens a row and creates none. -/
structure MonDb.Sound (db : MonDb) (op : MonOp) : Prop where
  noConflict : db.exec op ≠ .error .integrityError
  oneActive : OneActive (db.apply op).alerts
  converges : ∀ py order readings event, op = .evaluateEvent py order readings event →
    ∀ rule ∈ db.enabledRules, Hit py db rule event (readings rule.id).cutoff →
      Reopens rule.id event.entityId db (db.apply op)

theorem apply_valid {op : MonOp} (hv : db.Valid) (h : KeepsValid (db.exec op)) :
    (db.apply op).Valid ∧ db.exec op ≠ .error .integrityError := by
  unfold MonDb.apply
  cases hx : db.exec op with
  | ok db' =>
      rw [hx] at h
      exact ⟨h, fun hc => by cases hc⟩
  | error e =>
      rw [hx] at h
      refine ⟨hv, ?_⟩
      rintro ⟨rfl⟩
      exact h rfl

/-- **One call.** -/
theorem exec_sound (hv : db.Valid) (op : MonOp) : db.Sound op ∧ (db.apply op).Valid := by
  have hother : (∀ py order readings event, op ≠ .evaluateEvent py order readings event) →
      KeepsValid (db.exec op) → db.Sound op ∧ (db.apply op).Valid := by
    intro hno h
    obtain ⟨hv', hne⟩ := apply_valid hv h
    exact ⟨⟨hne, hv'.oneActive, fun py order readings event he => absurd he (hno _ _ _ _)⟩, hv'⟩
  cases op with
  | evaluateEvent py order readings event =>
      obtain ⟨db', out, heval, hsteps⟩ :=
        evaluateRules_step py event readings (enabledRules_nodup hv order) hv
      have hexec : db.exec (.evaluateEvent py order readings event) = .ok db' := by
        change (LarkPlat.evaluateEvent py order readings db event).map Prod.fst = _
        rw [evaluateEvent, heval]
        rfl
      have happly : db.apply (.evaluateEvent py order readings event) = db' := by
        rw [MonDb.apply, hexec]
      refine ⟨⟨?_, ?_, ?_⟩, happly ▸ hsteps.valid⟩
      · rw [hexec]
        exact fun hc => by cases hc
      · rw [happly]
        exact hsteps.valid.oneActive
      · intro py' order' readings' event' he rule hrule hhit
        cases he
        rw [happly]
        exact hsteps.reopens rule ((order.perm _).mem_iff.mpr hrule) hhit
  | sweepActiveAlerts env =>
      refine hother (fun _ _ _ _ => MonOp.noConfusion) ?_
      obtain ⟨db', hsweep, hv'⟩ := sweepActiveAlerts_valid env hv
      change KeepsValid (LarkPlat.sweepActiveAlerts env db)
      rw [hsweep]
      exact hv'
  | acknowledgeAlert user visible t alertId =>
      exact hother (fun _ _ _ _ => MonOp.noConfusion)
        (acknowledgeAlert_keepsValid user visible t hv alertId)
  | resolveAlert user visible t alertId =>
      exact hother (fun _ _ _ _ => MonOp.noConfusion)
        (resolveAlert_keepsValid user visible t hv alertId)
  | createRule user featureEnabled data =>
      exact hother (fun _ _ _ _ => MonOp.noConfusion)
        (createRule_keepsValid user featureEnabled data hv)
  | updateRule user ruleId data =>
      exact hother (fun _ _ _ _ => MonOp.noConfusion)
        (changeRule_keepsValid user _ ruleId (fun _ => rfl) hv)
  | deleteRule user ruleId =>
      exact hother (fun _ _ _ _ => MonOp.noConfusion)
        (changeRule_keepsValid user _ ruleId (fun _ => rfl) hv)
  | setRuleStatus user ruleId enabled =>
      exact hother (fun _ _ _ _ => MonOp.noConfusion)
        (changeRule_keepsValid user _ ruleId (fun _ => rfl) hv)

/-- **At most one active alert for each rule and entity.** From valid tables, every call of every
history keeps the promise: no insert or reopening violates the index, and a hit within the
convergence window reopens a row. -/
theorem one_active_alert (db : MonDb) (hv : db.Valid) (ops : List MonOp) :
    Machine.Meets MonDb.apply MonDb.Sound db ops := by
  induction ops generalizing db with
  | nil => trivial
  | cons op ops ih => exact ⟨(exec_sound hv op).1, ih _ (exec_sound hv op).2⟩

end Calls

/-! ### A rule with a convergence window -/

/-- Load above 90 on any host, with a convergence window of one minute. -/
def loadRule : MonRule where
  id := 1
  enabled := 1
  deleted := false
  eventSource := none
  eventKind := "metric"
  metricName := some "load"
  conditionOperator := ">"
  conditionThreshold := .finite 90
  conditionDurationSeconds := 0
  scopeType := none
  scopeIds := []
  level := "warning"
  cooldownSeconds := 300
  convergeSec := 60
  escalationEnabled := 0
  escalationAfterSeconds := none
  escalateLevels := []

/-- The rule, and an alert of it that was resolved at second 10. -/
def calmMonitor : MonDb where
  rules := [loadRule]
  alerts := [⟨1, some 1, some "10.0.0.1", .resolved, "warning", 1, some 0, some 10, some 5, some 0,
    0, 2⟩]
  log := []
  nextRule := 2
  nextAlert := 2

/-- A load of 95 on the host of the alert. -/
def loadEvent : MonEvent :=
  ⟨some "prometheus", some "metric", "10.0.0.1", .number (.finite 95), none, some "load", none,
    none, none⟩

/-- The event at second 30, within the window. -/
def loadHit : MonOp :=
  .evaluateEvent ⟨id, id⟩ ⟨id, fun _ => List.Perm.refl _⟩
    (fun _ => ⟨30, 30, 30, 30, 30, 30, 30, 30⟩) loadEvent

theorem calmMonitor_valid : calmMonitor.Valid :=
  ⟨(MonDb.indexed_iff _).mp (by decide), by decide, by decide, by decide, by decide⟩

/-- Two hits in a row, the first of which reopens the resolved alert. -/
theorem one_active_alert_two_hits :
    calmMonitor.Valid ∧ Machine.Meets MonDb.apply MonDb.Sound calmMonitor [loadHit, loadHit] :=
  ⟨calmMonitor_valid, one_active_alert calmMonitor calmMonitor_valid [loadHit, loadHit]⟩

/-- The hit moves the resolved alert to `pending` again. -/
example : (calmMonitor.apply loadHit).alerts.map (fun a => (a.id, a.status)) = [(1, .pending)] := by
  decide +kernel

end LarkPlat
