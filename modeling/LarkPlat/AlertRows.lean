import LarkPlat.ActiveAlerts

/-!
# What a Session Alone Writes

On valid tables and for an alert that is in them as the session has loaded it, a statement cannot
fail: it puts a new row in the place of the alert. `put` is that, with the entries that go to the
log; the statements of a call on one alert are one `put` together.
-/

namespace LarkPlat.MonDb

variable {db : MonDb} {a a' a'' : MonAlert} {entries entries' : List AlertLog}

/-- A row takes the place of the one with its identifier, and entries go to the log. -/
def put (db : MonDb) (a : MonAlert) (entries : List AlertLog) : MonDb :=
  { db with
    alerts := Table.modify MonAlert.id db.alerts a.id fun _ => a
    log := db.log ++ entries }

/-- The tables are valid, and the alert is in them as it is. -/
structure Current (db : MonDb) (a : MonAlert) : Prop where
  valid : db.Valid
  mem : a ∈ db.alerts

/-- The row may take the place of the alert. -/
structure Replaces (db : MonDb) (a a' : MonAlert) : Prop where
  id : a'.id = a.id
  ruleId : a'.ruleId = a.ruleId
  entityId : a'.entityId = a.entityId
  admits : Admits db a a'

theorem replaces_of_active (hact : a.status.active = true) (hid : a'.id = a.id)
    (hr : a'.ruleId = a.ruleId) (he : a'.entityId = a.entityId) : Replaces db a a' :=
  ⟨hid, hr, he, admits_of_active hact hr he⟩

theorem replaces_of_resolved (hst : a'.status = .resolved) (hid : a'.id = a.id)
    (hr : a'.ruleId = a.ruleId) (he : a'.entityId = a.entityId) : Replaces db a a' :=
  ⟨hid, hr, he, admits_of_resolved hst⟩

theorem replaces_self (db : MonDb) (a : MonAlert) : Replaces db a a :=
  ⟨rfl, rfl, rfl, fun _ hk => Or.inl hk⟩

theorem Replaces.congr (h : Replaces db a a') (hid : a''.id = a'.id) (hr : a''.ruleId = a'.ruleId)
    (he : a''.entityId = a'.entityId) (hst : a''.status = a'.status) : Replaces db a a'' where
  id := hid.trans h.id
  ruleId := hr.trans h.ruleId
  entityId := he.trans h.entityId
  admits := by
    have hkey : a''.activeKey = a'.activeKey := by
      rw [MonAlert.activeKey, MonAlert.activeKey, hst, hr, he]
    intro k hk
    exact h.admits k (hkey ▸ hk)

@[simp] theorem put_rules (db : MonDb) (a : MonAlert) (entries : List AlertLog) :
    (db.put a entries).rules = db.rules := rfl

@[simp] theorem put_log (db : MonDb) (a : MonAlert) (entries : List AlertLog) :
    (db.put a entries).log = db.log ++ entries := rfl

theorem put_moves (h : db.Current a) (hr : Replaces db a a') (entries : List AlertLog) :
    Moves a a' db (db.put a' entries) :=
  ⟨h.mem, hr.id, hr.ruleId, hr.entityId, by rw [put, hr.id], rfl, rfl, rfl⟩

/-- The new row is current. -/
theorem Current.put (h : db.Current a) (hr : Replaces db a a') (entries : List AlertLog) :
    (db.put a' entries).Current a' :=
  ⟨(put_moves h hr entries).valid h.valid hr.admits, (put_moves h hr entries).mem'⟩

theorem put_put (hid : a''.id = a'.id) :
    (db.put a' entries).put a'' entries' = db.put a'' (entries ++ entries') := by
  rw [put, put, put, List.append_assoc, hid]
  congr 1
  exact Table.modify_modify fun _ _ => rfl

theorem put_self (h : db.Current a) : db.put a [] = db := by
  have halerts := (moves_self h.valid h.mem).alerts
  rw [put, ← halerts, List.append_nil]

/-! ### Statements -/

theorem update_put (h : db.Current a) {f : MonAlert → MonAlert} (hr : Replaces db a (f a)) :
    db.update a.id f = .ok (db.put (f a) []) := by
  rw [update, write, modify_row h.valid h.mem,
    if_pos ((indexed_iff _).mpr (oneActive_modify h.valid h.mem hr.admits)), put, hr.id,
    List.append_nil]

/-- A write of a row that has taken the place of an alert, by the place that it takes then. -/
theorem put_update (h : db.Current a) (ha : Replaces db a a') {f : MonAlert → MonAlert}
    (hf : Replaces db a (f a')) :
    (db.put a' entries).update a.id f = .ok (db.put (f a') entries) := by
  have hcur := h.put ha entries
  have halerts : Table.modify MonAlert.id (db.put a' entries).alerts a'.id (fun _ => f a') =
      (db.put (f a') entries).alerts := by
    rw [put, put, hf.id, ← ha.id]
    exact Table.modify_modify fun _ _ => rfl
  rw [update, write, ← ha.id, modify_row hcur.valid hcur.mem, halerts,
    if_pos ((indexed_iff _).mpr (h.put hf entries).valid.oneActive)]
  rfl

end LarkPlat.MonDb
