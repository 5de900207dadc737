import LarkPlat.AlertTrace

/-!
# What a Call Does to One Alert

Alone and on valid tables, a call of the engine touches the row of one alert, appends entries about
it to the log, and sends notifications about it. An `AlertEffect` is these three together, as a
function of the row and of the log; the programs of `AlertPrograms` perform it, and the other
alerts do not see it.
-/

namespace LarkPlat

open Programs LockedTable MonDb

/-- The row that a call leaves for an alert, the entries that it logs and the notifications that it
sends. -/
structure AlertEffect where
  row : MonAlert
  entries : List AlertLog
  notices : List Notice

namespace AlertEffect

/-- The alert is left as it is. -/
def nothing (a : MonAlert) : AlertEffect := ⟨a, [], []⟩

/-- What a rule with channels sends. -/
def notice (channels : ℕ → List ℕ) (rule : MonRule) (id : ℕ) (kind : NoticeKind) (time : ℚ) :
    List Notice :=
  if channels rule.id = [] then [] else [⟨id, kind, channels rule.id, time⟩]

/-- An entry about the alert that changes no status. -/
def note (e : AlertEffect) (action : AlertAction) (severity : String) (time : ℚ) : AlertEffect :=
  { e with
    entries := e.entries ++ [⟨e.row.id, action, some e.row.status, e.row.status, severity, time⟩] }

/-- A notification about the alert. -/
def send (e : AlertEffect) (channels : ℕ → List ℕ) (rule : MonRule) (kind : NoticeKind)
    (time : ℚ) : AlertEffect :=
  { e with notices := e.notices ++ notice channels rule e.row.id kind time }

/-! ### The parts of the engine -/

/-- A resolution, with the rule that it finds. -/
def resolution (channels : ℕ → List ℕ) (rule : Option MonRule) (t : Readings) (a : MonAlert) :
    AlertEffect where
  row := a.setResolved (a.version + 1) t.closedRow
  entries := [⟨a.id, .resolve, some a.status, .resolved, a.severity, t.logged⟩]
  notices := rule.elim [] fun rule => notice channels rule a.id .recovery t.closedRow

/-- A reopening. -/
def reopening (t : Readings) (a : MonAlert) : AlertEffect where
  row := a.setReopened (a.version + 1) (a.hitCount + 1) t.reopened
  entries := [⟨a.id, .fire, some .resolved, .pending, a.severity, t.logged⟩]
  notices := []

/-- The gate of the cooldown, on the log with what the call has appended. -/
def notifying (channels : ℕ → List ℕ) (log : List AlertLog) (rule : MonRule) (t : Readings)
    (e : AlertEffect) : AlertEffect :=
  if AlertProg.cooling (log ++ e.entries) e.row.id rule t.notified then
    e.note .suppress e.row.severity t.logged
  else e.send channels rule .trigger t.notified

/-- The next level of the escalation path, if it is due. -/
def escalating (channels : ℕ → List ℕ) (rule : MonRule) (t : Readings) (e : AlertEffect) :
    AlertEffect :=
  match AlertProg.escalation rule e.row t.escalated with
  | none => e
  | some target =>
      (({ e with row := { e.row with severity := target } }).note .escalate target t.logged).send
        channels rule .escalation t.escalated

/-- The move to `firing` before its notification. -/
def ignition (t : Readings) (a : MonAlert) : AlertEffect where
  row := a.setFiring (a.version + 1) t.now
  entries := [⟨a.id, .fire, some .pending, .firing, a.severity, t.logged⟩]
  notices := []

/-- The move to `firing`. -/
def firing (channels : ℕ → List ℕ) (log : List AlertLog) (rule : MonRule) (t : Readings)
    (a : MonAlert) : AlertEffect :=
  notifying channels log rule t (ignition t a)

/-- A hit of an alert that fires already. -/
def reminding (channels : ℕ → List ℕ) (log : List AlertLog) (rule : MonRule) (t : Readings)
    (a : MonAlert) : AlertEffect :=
  escalating channels rule t (notifying channels log rule t (nothing a))

/-- The condition of a pending alert has held for the duration of its rule. -/
def Ripe (rule : MonRule) (now : ℚ) (a : MonAlert) : Prop :=
  rule.conditionDurationSeconds ≤ now - a.pendingSince.getD a.createdAt

instance (rule : MonRule) (now : ℚ) (a : MonAlert) : Decidable (Ripe rule now a) :=
  inferInstanceAs (Decidable (_ ≤ _))

/-- A hit of an active alert. -/
def hit (channels : ℕ → List ℕ) (log : List AlertLog) (rule : MonRule) (t : Readings)
    (a : MonAlert) : AlertEffect :=
  let b := a.stamp (a.hitCount + 1) t.now
  match a.status with
  | .pending =>
      if Ripe rule t.now a then firing channels log rule t b
      else (nothing b).note .suppress b.severity t.logged
  | .firing | .acknowledged =>
      reminding channels log rule t { b with version := a.version + 1 }
  | .resolved => nothing b

/-- The sweep leaves the alerts of the rule alone, or this alert, which is stale. -/
abbrev Skips (rule : MonRule) (env : SweepEnv) (a : MonAlert) : Prop :=
  rule.deleted = true ∨ rule.enabled = 0 ∨ isStale a env.now env.freshness = true

/-- What the sweep does to an alert that it visits, with the rule that it finds. -/
def sweeping (channels : ℕ → List ℕ) (log : List AlertLog) (rule : Option MonRule) (env : SweepEnv)
    (a : MonAlert) : AlertEffect :=
  match rule with
  | none => nothing a
  | some rule =>
      if Skips rule env a then nothing a
      else if a.status = .pending then
        if Ripe rule env.now a then
          firing channels log rule { env.readings a.id with now := env.now } a
        else nothing a
      else escalating channels rule (env.readings a.id) (nothing a)

/-- An acknowledgement. -/
def acknowledgement (t : Readings) (a : MonAlert) : AlertEffect where
  row := { a with version := a.version + 1, status := .acknowledged }
  entries := [⟨a.id, .acknowledge, some .firing, .acknowledged, a.severity, t.logged⟩]
  notices := []

/-- The creation of an alert by a first hit. -/
def creation (rule : MonRule) (event : MonEvent) (t : Readings) (id : ℕ) : AlertEffect where
  row := newAlert rule event t id
  entries := [⟨id, .fire, none, .pending, (newAlert rule event t id).severity, t.logged⟩]
  notices := []

/-! ### What an effect is about -/

/-- The effect keeps the identity of the alert, and logs and sends of this alert only. -/
structure About (e : AlertEffect) (a : MonAlert) : Prop where
  id : e.row.id = a.id
  ruleId : e.row.ruleId = a.ruleId
  entityId : e.row.entityId = a.entityId
  entries : ∀ x ∈ e.entries, x.alertId = a.id
  notices : ∀ x ∈ e.notices, x.alertId = a.id

variable {a : MonAlert} {e : AlertEffect} {channels : ℕ → List ℕ}

theorem about_nothing (a : MonAlert) : (nothing a).About a :=
  ⟨rfl, rfl, rfl, (fun _ hx => (List.not_mem_nil hx).elim),
    (fun _ hx => (List.not_mem_nil hx).elim)⟩

theorem mem_notice {rule : MonRule} {id : ℕ} {kind : NoticeKind} {time : ℚ} {x : Notice}
    (hx : x ∈ notice channels rule id kind time) : x = ⟨id, kind, channels rule.id, time⟩ := by
  rw [notice] at hx
  split_ifs at hx
  · exact (List.not_mem_nil hx).elim
  · exact List.mem_singleton.mp hx

theorem About.note (h : e.About a) (action : AlertAction) (severity : String) (time : ℚ) :
    (e.note action severity time).About a where
  id := h.id
  ruleId := h.ruleId
  entityId := h.entityId
  entries x hx := by
    rcases List.mem_append.mp hx with hx | hx
    · exact h.entries x hx
    · rw [List.mem_singleton.mp hx]
      exact h.id
  notices := h.notices

theorem About.send (h : e.About a) (rule : MonRule) (kind : NoticeKind) (time : ℚ) :
    (e.send channels rule kind time).About a where
  id := h.id
  ruleId := h.ruleId
  entityId := h.entityId
  entries := h.entries
  notices x hx := by
    rcases List.mem_append.mp hx with hx | hx
    · exact h.notices x hx
    · rw [mem_notice hx]
      exact h.id

theorem About.notifying (h : e.About a) (log : List AlertLog) (rule : MonRule) (t : Readings) :
    (notifying channels log rule t e).About a := by
  rw [AlertEffect.notifying]
  split_ifs
  · exact h.note _ _ _
  · exact h.send _ _ _

theorem About.escalating (h : e.About a) (rule : MonRule) (t : Readings) :
    (escalating channels rule t e).About a := by
  rw [AlertEffect.escalating]
  cases AlertProg.escalation rule e.row t.escalated with
  | none => exact h
  | some target =>
      have hrow : ({ e with row := { e.row with severity := target } } : AlertEffect).About a :=
        ⟨h.id, h.ruleId, h.entityId, h.entries, h.notices⟩
      exact (hrow.note _ _ _).send _ _ _

theorem About.of_eq {b : MonAlert} (h : e.About b) (hid : b.id = a.id)
    (hr : b.ruleId = a.ruleId) (he : b.entityId = a.entityId) : e.About a :=
  ⟨h.id.trans hid, h.ruleId.trans hr, h.entityId.trans he,
    (fun x hx => (h.entries x hx).trans hid), (fun x hx => (h.notices x hx).trans hid)⟩

variable (log : List AlertLog) (rule : MonRule) (t : Readings)

theorem about_resolution (rule : Option MonRule) (a : MonAlert) :
    (resolution channels rule t a).About a where
  id := rfl
  ruleId := rfl
  entityId := rfl
  entries x hx := by rw [List.mem_singleton.mp hx]
  notices x hx := by
    cases rule with
    | none => exact (List.not_mem_nil hx).elim
    | some rule => rw [mem_notice hx]

theorem about_reopening (a : MonAlert) : (reopening t a).About a :=
  ⟨rfl, rfl, rfl, (fun x hx => by rw [List.mem_singleton.mp hx]),
    (fun _ hx => (List.not_mem_nil hx).elim)⟩

theorem about_ignition (a : MonAlert) : (ignition t a).About a :=
  ⟨rfl, rfl, rfl, (fun x hx => by rw [List.mem_singleton.mp hx]),
    (fun _ hx => (List.not_mem_nil hx).elim)⟩

theorem about_creation (event : MonEvent) (id : ℕ) :
    (creation rule event t id).About (newAlert rule event t id) :=
  ⟨rfl, rfl, rfl, (fun x hx => by rw [List.mem_singleton.mp hx]; rfl),
    (fun _ hx => (List.not_mem_nil hx).elim)⟩

theorem about_acknowledgement (a : MonAlert) : (acknowledgement t a).About a :=
  ⟨rfl, rfl, rfl, (fun x hx => by rw [List.mem_singleton.mp hx]),
    (fun _ hx => (List.not_mem_nil hx).elim)⟩

/-! ### The rows that effects leave -/

@[simp] theorem notifying_row (e : AlertEffect) :
    (notifying channels log rule t e).row = e.row := by
  rw [notifying]
  split_ifs <;> rfl

theorem escalating_row (e : AlertEffect) :
    (escalating channels rule t e).row = { e.row with
      severity := (AlertProg.escalation rule e.row t.escalated).getD e.row.severity } := by
  rw [escalating]
  cases AlertProg.escalation rule e.row t.escalated <;> rfl

@[simp] theorem firing_row (a : MonAlert) :
    (firing channels log rule t a).row = a.setFiring (a.version + 1) t.now :=
  notifying_row log rule t _

theorem hit_row_of_pending (hst : a.status = .pending) :
    (hit channels log rule t a).row =
      if Ripe rule t.now a then
        (a.stamp (a.hitCount + 1) t.now).setFiring (a.version + 1) t.now
      else a.stamp (a.hitCount + 1) t.now := by
  rw [hit, hst]
  dsimp only
  split_ifs
  · exact firing_row log rule t _
  · rfl

theorem hit_of_firing (hst : a.status = .firing ∨ a.status = .acknowledged) :
    hit channels log rule t a =
      reminding channels log rule t
        { a.stamp (a.hitCount + 1) t.now with version := a.version + 1 } := by
  rcases hst with hst | hst <;> rw [hit, hst]

theorem reminding_row (a : MonAlert) :
    (reminding channels log rule t a).row = { a with
      severity := (AlertProg.escalation rule a t.escalated).getD a.severity } := by
  rw [reminding, escalating_row, notifying_row]
  rfl

/-- A hit leaves an alert in `pending` only if it waits on. -/
theorem hit_row_pending (hact : a.status.active = true)
    (h : (hit channels log rule t a).row.status = .pending) :
    a.status = .pending ∧ (hit channels log rule t a).row = a.stamp (a.hitCount + 1) t.now := by
  cases hst : a.status with
  | pending =>
      refine ⟨rfl, ?_⟩
      rw [hit_row_of_pending log rule t hst] at h ⊢
      split_ifs at h ⊢
      · cases h
      · rfl
  | firing =>
      rw [hit_of_firing log rule t (Or.inl hst), reminding_row] at h
      exact absurd (hst.symm.trans h) (by decide)
  | acknowledged =>
      rw [hit_of_firing log rule t (Or.inr hst), reminding_row] at h
      exact absurd (hst.symm.trans h) (by decide)
  | resolved =>
      rw [hst] at hact
      cases hact

theorem sweeping_of_ripe {env : SweepEnv} (hlive : ¬ Skips rule env a) (hst : a.status = .pending)
    (hripe : Ripe rule env.now a) :
    sweeping channels log (some rule) env a =
      firing channels log rule { env.readings a.id with now := env.now } a := by
  rw [sweeping]
  dsimp only
  rw [if_neg hlive, if_pos hst, if_pos hripe]

theorem sweeping_of_firing {env : SweepEnv} (hlive : ¬ Skips rule env a)
    (hst : a.status ≠ .pending) :
    sweeping channels log (some rule) env a =
      escalating channels rule (env.readings a.id) (nothing a) := by
  rw [sweeping]
  dsimp only
  rw [if_neg hlive, if_neg hst]

theorem sweeping_cases (found : Option MonRule) (env : SweepEnv) (a : MonAlert) :
    sweeping channels log found env a = nothing a ∨
      (∃ rule, found = some rule ∧ ¬ Skips rule env a ∧ a.status = .pending ∧
        Ripe rule env.now a ∧
        sweeping channels log found env a =
          firing channels log rule { env.readings a.id with now := env.now } a) ∨
      ∃ rule, found = some rule ∧ ¬ Skips rule env a ∧ a.status ≠ .pending ∧
        sweeping channels log found env a =
          escalating channels rule (env.readings a.id) (nothing a) := by
  cases found with
  | none => exact Or.inl rfl
  | some rule =>
      rw [sweeping]
      dsimp only
      split_ifs with hskip hst hripe
      · exact Or.inl rfl
      · exact Or.inr (Or.inl ⟨rule, rfl, hskip, hst, hripe, rfl⟩)
      · exact Or.inl rfl
      · exact Or.inr (Or.inr ⟨rule, rfl, hskip, hst, rfl⟩)

/-! ### Effects keep to their alert -/

theorem about_firing (a : MonAlert) : (firing channels log rule t a).About a :=
  (about_ignition t a).notifying log rule t

theorem about_reminding (a : MonAlert) : (reminding channels log rule t a).About a :=
  ((about_nothing a).notifying log rule t).escalating rule t

theorem about_hit (a : MonAlert) : (hit channels log rule t a).About a := by
  rw [hit]
  cases a.status with
  | pending =>
      dsimp only
      split_ifs
      · exact (about_firing log rule t _).of_eq rfl rfl rfl
      · exact ((about_nothing _).note _ _ _).of_eq rfl rfl rfl
  | firing | acknowledged => exact (about_reminding log rule t _).of_eq rfl rfl rfl
  | resolved => exact (about_nothing _).of_eq rfl rfl rfl

theorem about_sweeping (env : SweepEnv) (rule : Option MonRule) (a : MonAlert) :
    (sweeping channels log rule env a).About a := by
  cases rule with
  | none => exact about_nothing a
  | some rule =>
      rw [sweeping]
      dsimp only
      split_ifs
      · exact about_nothing a
      · exact about_firing log rule _ a
      · exact about_nothing a
      · exact (about_nothing a).escalating rule _

end AlertEffect

/-! ### Performing an effect -/

/-- The tables and the notifications after an effect. -/
def Monitor.perform (m : Monitor) (e : AlertEffect) : Monitor :=
  ⟨m.db.put e.row e.entries, m.sent ++ e.notices⟩

namespace AlertProg

open Monitor AlertEffect

/-- After one effect, the program completes another one. -/
def Performs {α : Type} (p : AlertProg α) (m : Monitor) (e e' : AlertEffect) : Prop :=
  ∃ x, p.alone (m.perform e) = .ok (x, m.perform e')

variable {α β : Type} {m : Monitor} {a : MonAlert} {e e' e'' : AlertEffect}
  {channels : ℕ → List ℕ} {rule : MonRule} {t : Readings}

theorem performs_pure (x : α) : Performs (pure x) m e e := ⟨x, rfl⟩

theorem Performs.bind {p : AlertProg α} {k : α → AlertProg β} (hp : Performs p m e e')
    (hk : ∀ x, Performs (k x) m e' e'') : Performs (p >>= k) m e e'' := by
  obtain ⟨x, hx⟩ := hp
  obtain ⟨y, hy⟩ := hk x
  refine ⟨y, ?_⟩
  rw [alone_bind, hx]
  exact hy

theorem Performs.bind_pure {p : AlertProg α} (hp : Performs p m e e') (f : α → β) :
    Performs (do let x ← p; pure (f x)) m e e' :=
  hp.bind fun _ => performs_pure _

theorem performs_tables {k : MonDb → AlertProg β} (hk : Performs (k (m.perform e).db) m e e') :
    Performs (tables >>= k) m e e' :=
  hk

theorem perform_nothing (h : m.db.Current a) : m.perform (nothing a) = m := by
  rw [perform, nothing, put_self h, List.append_nil]

theorem performs_optimisticUpdate (h : m.db.Current a) {new : AlertStatus}
    {fields : MonAlert → MonAlert}
    (hr : Replaces m.db a { fields a with status := new, version := a.version + 1 })
    {k : Bool → AlertProg β}
    (hk : Performs (k true) m
      (nothing { fields a with status := new, version := a.version + 1 }) e') :
    Performs (optimisticUpdate a.id a.status new a.version fields >>= k) m (nothing a) e' := by
  obtain ⟨x, hx⟩ := hk
  refine ⟨x, ?_⟩
  rw [perform_nothing h, alone_optimisticUpdate h hr, ← hx, perform, nothing, List.append_nil]

theorem performs_update (h : m.db.Current a) (he : Replaces m.db a e.row)
    {f : MonAlert → MonAlert} (hf : Replaces m.db a (f e.row)) :
    Performs (update a.id f) m e { e with row := f e.row } := by
  refine ⟨(), ?_⟩
  change (serve _ (.write a.id f) (m.perform e)).bind _ = _
  rw [serve, perform, put_update h he hf]
  rfl

theorem performs_logEvent (id : ℕ) (action : AlertAction) (fromStatus : Option AlertStatus)
    (toStatus : AlertStatus) (severity : String) (time : ℚ) :
    Performs (logEvent id action fromStatus toStatus severity time) m e
      { e with entries := e.entries ++ [⟨id, action, fromStatus, toStatus, severity, time⟩] } := by
  refine ⟨(), ?_⟩
  rw [perform, perform, MonDb.put, MonDb.put, ← List.append_assoc]
  rfl

theorem performs_sendAlertNotify {x : MonAlert} (hid : x.id = e.row.id) (kind : NoticeKind)
    (time : ℚ) :
    Performs (sendAlertNotify channels x rule kind time) m e
      (e.send channels rule kind time) := by
  refine ⟨(), ?_⟩
  rw [sendAlertNotify, AlertEffect.send, notice, hid, perform, perform]
  split_ifs
  · rw [List.append_nil]
    rfl
  · rw [← List.append_assoc]
    rfl

/-! ### The engine -/

theorem performs_resolveAlertEngine (h : m.db.Current a) (hact : a.status.active = true) :
    Performs (resolveAlertEngine channels a t) m (nothing a)
      (resolution channels ((a.ruleId.filter (· ≠ 0)).bind m.db.rule?) t a) := by
  have hne : a.status ≠ .resolved := by
    intro hc
    rw [hc] at hact
    cases hact
  rw [resolveAlertEngine, if_neg hne]
  refine performs_optimisticUpdate h (replaces_of_resolved rfl rfl rfl rfl) ?_
  refine (performs_update h (replaces_of_resolved rfl rfl rfl rfl)
    (replaces_of_resolved rfl rfl rfl rfl)).bind fun _ => ?_
  refine (performs_logEvent _ _ _ _ _ _).bind fun _ => performs_tables ?_
  change Performs (match (a.ruleId.filter (· ≠ 0)).bind m.db.rule? with
    | none => _
    | some rule => _) m _ _
  cases (a.ruleId.filter (· ≠ 0)).bind m.db.rule? with
  | none => exact performs_pure _
  | some rule => exact (performs_sendAlertNotify (x := a) (by rfl) _ _).bind_pure fun _ => true

theorem performs_maybeNotify :
    Performs (maybeNotify channels e.row rule t) m e (notifying channels m.db.log rule t e) := by
  rw [maybeNotify, notifying]
  refine performs_tables ?_
  change Performs (if cooling (m.db.log ++ e.entries) e.row.id rule t.notified then _ else _) m e _
  split_ifs
  · exact (performs_logEvent _ _ _ _ _ _).bind_pure _
  · exact (performs_sendAlertNotify rfl _ _).bind_pure _

theorem performs_maybeEscalate (h : m.db.Current a) (he : Replaces m.db a e.row) :
    Performs (maybeEscalate channels e.row rule t) m e (escalating channels rule t e) := by
  rw [maybeEscalate, escalating]
  cases escalation rule e.row t.escalated with
  | none => exact performs_pure _
  | some target =>
      have hup := performs_update h he (f := fun x => { x with severity := target })
        (he.congr rfl rfl rfl rfl)
      rw [← he.id] at hup
      exact hup.bind fun _ => (performs_logEvent _ _ _ _ _ _).bind fun _ =>
        (performs_sendAlertNotify (x := e.row) (by rfl) _ _).bind_pure fun _ => true

theorem performs_remind (h : m.db.Current a) (he : Replaces m.db a e.row) :
    Performs (remind channels e.row rule t) m e
      (escalating channels rule t (notifying channels m.db.log rule t e)) := by
  have hrow : (notifying channels m.db.log rule t e).row = e.row :=
    notifying_row _ _ _ _
  have hesc : Performs (maybeEscalate channels (notifying channels m.db.log rule t e).row rule t) m
      _ (escalating channels rule t (notifying channels m.db.log rule t e)) :=
    performs_maybeEscalate h (hrow ▸ he)
  rw [hrow] at hesc
  exact performs_maybeNotify.bind fun action => hesc.bind_pure _

/-! ### Hits -/

/-- What was assigned to the row of an alert before its guarded update: nothing, or the stamp of a
hit. -/
def touching (id : ℕ) : Option (ℕ × ℚ) → AlertProg Unit
  | none => pure ()
  | some (hits, now) => update id (MonAlert.stamp hits now)

/-- The row with what was assigned to it. -/
def touched (a : MonAlert) : Option (ℕ × ℚ) → MonAlert
  | none => a
  | some (hits, now) => a.stamp hits now

theorem performs_touching (h : m.db.Current a) (he : Replaces m.db a e.row)
    (s : Option (ℕ × ℚ)) :
    Performs (touching a.id s) m e { e with row := touched e.row s } := by
  cases s with
  | none => exact performs_pure _
  | some x => exact performs_update h he (he.congr rfl rfl rfl rfl)

/-- What follows a guarded update of the row of `b`. -/
theorem performs_announceFiring (h : m.db.Current a) (he : Replaces m.db a e.row) {b : MonAlert}
    (hid : b.id = a.id) (hb : Replaces m.db a (b.setFiring (b.version + 1) t.now))
    (hrow : e.row.setFiring (b.version + 1) t.now = b.setFiring (b.version + 1) t.now) :
    Performs (announceFiring channels b rule t true) m e
      (notifying channels m.db.log rule t
        { e with
          row := b.setFiring (b.version + 1) t.now
          entries := e.entries ++
            [⟨b.id, .fire, some .pending, .firing, b.severity, t.logged⟩] }) := by
  have hup := performs_update h he (f := MonAlert.setFiring (b.version + 1) t.now) (hrow ▸ hb)
  rw [hrow, ← hid] at hup
  rw [announceFiring, if_pos rfl]
  refine hup.bind fun _ => (performs_logEvent _ _ _ _ _ _).bind fun _ => ?_
  exact Performs.bind_pure (performs_maybeNotify (e := { e with row := _, entries := _ })) some

theorem performs_fireAlert (h : m.db.Current a) (hst : a.status = .pending)
    (s : Option (ℕ × ℚ)) :
    Performs (fireAlert channels (touching a.id s) (touched a s) rule t) m (nothing a)
      (firing channels m.db.log rule t (touched a s)) := by
  have hact : a.status.active = true := by
    rw [hst]
    rfl
  have hrep : ∀ {r : MonAlert}, r.id = a.id → r.ruleId = a.ruleId → r.entityId = a.entityId →
      Replaces m.db a r := replaces_of_active hact
  have hprog : fireAlert channels (touching a.id s) (touched a s) rule t =
      (do
        let ok ← optimisticUpdate a.id a.status .firing a.version fun x =>
          { x with firedAt := some t.now }
        touching a.id s
        announceFiring channels (touched a s) rule t ok) := by
    rw [hst]
    cases s <;> rfl
  rw [hprog]
  refine performs_optimisticUpdate h (hrep rfl rfl rfl) ?_
  refine (performs_touching h (hrep rfl rfl rfl) s).bind fun _ => ?_
  cases s <;>
    exact performs_announceFiring h (hrep rfl rfl rfl) rfl (hrep rfl rfl rfl) rfl

theorem performs_hitFiring (h : m.db.Current a) (hact : a.status.active = true)
    (s : Option (ℕ × ℚ)) :
    Performs (hitFiring channels (touching a.id s) (touched a s) rule t) m (nothing a)
      (reminding channels m.db.log rule t { touched a s with version := a.version + 1 }) := by
  have hrep : ∀ {r : MonAlert}, r.id = a.id → r.ruleId = a.ruleId → r.entityId = a.entityId →
      Replaces m.db a r := replaces_of_active hact
  have hprog : hitFiring channels (touching a.id s) (touched a s) rule t =
      (do
        let ok ← optimisticUpdate a.id a.status a.status a.version id
        touching a.id s
        if ok then
          update a.id fun x => { x with version := a.version + 1 }
          remind channels { touched a s with version := a.version + 1 } rule t
        else remind channels (touched a s) rule t) := by
    cases s <;> rfl
  rw [hprog]
  refine performs_optimisticUpdate h (hrep rfl rfl rfl) ?_
  refine (performs_touching h (hrep rfl rfl rfl) s).bind fun _ => ?_
  rw [if_pos rfl]
  cases s with
  | none =>
      exact (performs_update h (hrep rfl rfl rfl) (hrep rfl rfl rfl)).bind fun _ =>
        performs_remind (e := nothing { a with version := a.version + 1 }) h (hrep rfl rfl rfl)
  | some x =>
      exact (performs_update h (hrep rfl rfl rfl) (hrep rfl rfl rfl)).bind fun _ =>
        performs_remind (e := nothing { a.stamp x.1 x.2 with version := a.version + 1 }) h
          (hrep rfl rfl rfl)

theorem performs_hitAlert (h : m.db.Current a) (hact : a.status.active = true) :
    Performs (hitAlert channels a rule t) m (nothing a) (hit channels m.db.log rule t a) := by
  have hrep : ∀ {r : MonAlert}, r.id = a.id → r.ruleId = a.ruleId → r.entityId = a.entityId →
      Replaces m.db a r := replaces_of_active hact
  have htouch := performs_touching h (e := nothing a) (hrep rfl rfl rfl)
    (some (a.hitCount + 1, t.now))
  rw [hitAlert, hit]
  change Performs (match a.status with
    | .pending => _
    | .firing => _
    | .acknowledged => _
    | .resolved => _) m _ _
  cases hst : a.status with
  | pending =>
      dsimp only
      -- the stamp touches neither the anchor of the duration nor its fallback
      change Performs (if Ripe rule t.now a then _ else _) m _ (if Ripe rule t.now a then _ else _)
      split_ifs
      · exact (performs_fireAlert h hst (some (a.hitCount + 1, t.now))).bind_pure _
      · refine htouch.bind fun _ => ?_
        change Performs _ m _ ⟨a.stamp (a.hitCount + 1) t.now,
          [] ++ [⟨a.id, .suppress, some a.status, a.status, a.severity, t.logged⟩], []⟩
        rw [hst]
        exact (performs_logEvent _ _ _ _ _ _).bind fun _ => performs_pure _
  | firing | acknowledged =>
      exact performs_hitFiring h hact (some (a.hitCount + 1, t.now))
  | resolved =>
      rw [hst] at hact
      cases hact

/-! ### Convergence -/

theorem performs_tryConverge {event : MonEvent} (h : m.db.Current a) (hst : a.status = .resolved)
    (hadm : ∀ r : MonAlert, r.ruleId = a.ruleId → r.entityId = a.entityId → Admits m.db a r)
    (hw : ¬ rule.convergeSec ≤ 0)
    (hrec : m.db.recentlyResolved rule.id event.entityId rule.convergeSec t.cutoff = some a)
    {k : Option MonAlert → AlertProg β} (hk : ∀ x, Performs (k (some x)) m (reopening t a) e') :
    Performs (tryConverge rule event t >>= k) m (nothing a) e' := by
  have hrep : ∀ {r : MonAlert}, r.id = a.id → r.ruleId = a.ruleId → r.entityId = a.entityId →
      Replaces m.db a r := fun hid hr he => ⟨hid, hr, he, hadm _ hr he⟩
  rw [tryConverge, if_neg hw, Prog.bind_assoc]
  refine performs_tables ?_
  rw [perform_nothing h, hrec]
  dsimp only
  rw [Prog.bind_assoc, ← hst]
  refine performs_optimisticUpdate h (hrep rfl rfl rfl) ?_
  rw [if_pos rfl, Prog.bind_assoc]
  refine (performs_update h (hrep rfl rfl rfl) (hrep rfl rfl rfl)).bind fun _ => ?_
  rw [Prog.bind_assoc, hst]
  exact (performs_logEvent _ _ _ _ _ _).bind fun _ => hk _

/-! ### The sweep -/

/-- The rule that the engine finds for an alert. -/
def ruleOf (rules : List MonRule) (a : MonAlert) : Option MonRule :=
  (a.ruleId.filter (· ≠ 0)).bind (Table.find MonRule.id rules)

theorem performs_sweepAlert (h : m.db.Current a) (env : SweepEnv) :
    Performs (sweepAlert channels env a) m (nothing a)
      (sweeping channels m.db.log (ruleOf m.db.rules a) env a) := by
  rw [sweepAlert]
  refine performs_tables ?_
  change Performs (match ruleOf m.db.rules a with
    | none => _
    | some rule => _) m _ _
  cases ruleOf m.db.rules a with
  | none => exact performs_pure _
  | some rule =>
      rw [sweeping]
      dsimp only
      by_cases hskip : Skips rule env a
      · rw [if_pos hskip, if_pos hskip]
        exact performs_pure _
      rw [if_neg hskip, if_neg hskip]
      by_cases hst : a.status = .pending
      · rw [if_pos hst, if_pos hst]
        change Performs (if Ripe rule env.now a then _ else _) m _
          (if Ripe rule env.now a then _ else _)
        split_ifs
        · exact (performs_fireAlert h hst none).bind_pure _
        · exact performs_pure _
      · rw [if_neg hst, if_neg hst]
        exact (performs_maybeEscalate (e := nothing a) h (replaces_self m.db a)).bind_pure _

end AlertProg

end LarkPlat
