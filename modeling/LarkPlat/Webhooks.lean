import LarkPlat.EventTaken

/-!
# Webhooks of Alertmanager

The payloads that Alertmanager sends: a status for the group, and alerts, each with its own status,
with labels that are texts, with its start and with its fingerprint. A payload may have any other
fields. `ingest` recognizes one event for each alert, in order, and every part of it can be read.

## Main results

* `webhook_events`: the events of a webhook.
* `webhook_taken`: the event of an alert whose key is not known is taken.
-/

namespace LarkPlat

open Outcomes IngestSession

/-! ### Payloads -/

/-- An alert of a webhook: a dictionary, with what it says of the alert. -/
structure WebhookAlert where
  fields : List (String × Json)
  status : String
  labels : List (String × String)
  startsAt : String
  fingerprint : String
  statusField : Json.field fields "status" = .str status
  labelsField : Json.field fields "labels" = .obj (labels.map fun l => (l.1, .str l.2))
  startsAtField : Json.field fields "startsAt" = .str startsAt
  fingerprintField : Json.field fields "fingerprint" = .str fingerprint
  started : startsAt ≠ ""

/-- A webhook. It has no source of its own, so it is not taken for an event. -/
structure Webhook where
  fields : List (String × Json)
  status : String
  alerts : List WebhookAlert
  statusField : Json.field fields "status" = .str status
  alertsField : Json.field fields "alerts" = .arr (alerts.map fun a => .obj a.fields)
  bare : Json.field fields "source" = .null

/-- `a or b` of texts. -/
def orText (a b : String) : String := if a = "" then b else a

namespace WebhookAlert

/-- The labels as the payload has them. -/
def labelFields (a : WebhookAlert) : List (String × Json) := a.labels.map fun l => (l.1, .str l.2)

/-- A label; one that is missing is empty. -/
def label (a : WebhookAlert) (k : String) : String := (a.labels.lookup k).getD ""

/-- The entity: the label `instance` or `host`. -/
def entityId (a : WebhookAlert) : String :=
  orText (a.label "instance") (orText (a.label "host") "unknown")

/-- The identifier of the event: the label `alertname`, or the fingerprint. -/
def eventId (a : WebhookAlert) : String := orText (a.label "alertname") a.fingerprint

/-- The key of the event. -/
def key (a : WebhookAlert) : Option String :=
  if a.eventId = "" then none else some ("alertmanager" ++ ":" ++ a.eventId)

end WebhookAlert

/-- `_severity_from_status` of a text. -/
def severityOfText (env : EventEnv) (text : String) : String :=
  (severityOfStatus.lookup (env.lower text)).getD "warning"

namespace Webhook

/-- The status of an alert: that of the group, if it has one. -/
def statusOf (w : Webhook) (a : WebhookAlert) : String :=
  orText w.status (orText a.status "firing")

/-- The event of an alert. -/
def event (env : EventEnv) (nowIso : String) (w : Webhook) (a : WebhookAlert) : RawEvent :=
  alertmanagerEvent env nowIso w.fields a.fields a.labelFields
    (severityOfText env (orText (a.label "severity") (w.statusOf a)))

end Webhook

/-! ### The events of a webhook -/

section Read

variable {env : EventEnv} {nowIso : String} {w : Webhook} {a : WebhookAlert}

theorem pyOr_assoc (x y z : Json) : (x.pyOr y).pyOr z = x.pyOr (y.pyOr z) := by
  rw [Json.pyOr, Json.pyOr, Json.pyOr]
  by_cases h : x.truthy = true
  · rw [if_pos h, if_pos h, if_pos h]
  · rw [if_neg h, if_neg h]
    rfl

theorem pyOr_str (s t : String) : (Json.str s).pyOr (.str t) = .str (orText s t) := by
  rw [Json.pyOr, orText]
  by_cases h : s = "" <;> simp [Json.truthy, h]

theorem orText_ne (s : String) {t : String} (h : t ≠ "") : orText s t ≠ "" := by
  rw [orText]
  split_ifs with hs
  · exact h
  · exact hs

theorem label_pyOr (a : WebhookAlert) (k t : String) :
    (Json.field a.labelFields k).pyOr (.str t) = .str (orText (a.label k) t) := by
  have hlook : ∀ labels : List (String × String),
      (labels.map fun l => (l.1, Json.str l.2)).lookup k = (labels.lookup k).map Json.str := by
    intro labels
    induction labels with
    | nil => rfl
    | cons l rest ih =>
        rw [List.map_cons, List.lookup_cons, List.lookup_cons, ih]
        cases k == l.1 <;> rfl
  rw [Json.field, WebhookAlert.labelFields, hlook, WebhookAlert.label]
  cases a.labels.lookup k with
  | none => rfl
  | some v => exact pyOr_str v t

theorem event_entity (w : Webhook) (a : WebhookAlert) :
    (w.event env nowIso a).entityId = .str a.entityId := by
  change ((Json.field a.labelFields "instance").pyOr _).pyOr _ = _
  rw [pyOr_assoc, label_pyOr, label_pyOr]
  rfl

theorem event_id (w : Webhook) (a : WebhookAlert) :
    (w.event env nowIso a).get "event_id" = .str a.eventId := by
  change (Json.field a.labelFields "alertname").pyOr
    (.str (env.str ((Json.field a.fields "fingerprint").pyOr (.str "")))) = _
  rw [a.fingerprintField, pyOr_str, label_pyOr]
  have hempty : orText a.fingerprint "" = a.fingerprint := by
    rw [orText]
    split_ifs with h
    · exact h.symm
    · rfl
  rw [EventEnv.str, hempty]
  rfl

theorem event_key (w : Webhook) (a : WebhookAlert) : (w.event env nowIso a).key env = a.key := by
  rw [RawEvent.key, event_id, WebhookAlert.key, buildEventKey]
  by_cases h : a.eventId = ""
  · rw [if_pos h, h]
    rfl
  · have htrue : (Json.str a.eventId).truthy = true := decide_eq_true h
    rw [if_neg h, if_pos htrue]
    rfl

theorem severityFromStatus_str (t : String) :
    severityFromStatus env (.str t) = .ok (severityOfText env t) := by
  have hempty : orText t "" = t := by
    rw [orText]
    split_ifs with h
    · exact h.symm
    · rfl
  rw [severityFromStatus, pyOr_str, hempty]
  rfl

theorem statusField_pyOr (w : Webhook) (a : WebhookAlert) :
    ((Json.field w.fields "status").pyOr (Json.field a.fields "status")).pyOr (.str "firing") =
      .str (w.statusOf a) := by
  rw [w.statusField, a.statusField, pyOr_str, pyOr_str, Webhook.statusOf]
  congr 1
  rw [orText, orText, orText, orText]
  by_cases h : w.status = ""
  · rw [if_pos h, if_pos h]
  · rw [if_neg h, if_neg h, if_neg h]

theorem normalizeAlert_eq (w : Webhook) (a : WebhookAlert) :
    normalizeAlert env nowIso w.fields (.obj a.fields) = .ok (w.event env nowIso a) := by
  have hlabels : pyDict env ((Json.field a.fields "labels").pyOr (.obj [])) = .ok a.labelFields := by
    rw [a.labelsField, Json.pyOr]
    split_ifs with h
    · rfl
    · have hnil : a.labels = [] := by simpa [Json.truthy] using h
      rw [WebhookAlert.labelFields, hnil]
      rfl
  rw [normalizeAlert, fieldsOf]
  change (pyDict env _ >>= _) = _
  rw [hlabels]
  change (severityFromStatus env _ >>= _) = _
  rw [statusField_pyOr, label_pyOr, severityFromStatus_str]
  rfl

/-- **The events of a webhook**: one for each alert. -/
theorem webhook_events (w : Webhook) :
    recognize env nowIso "alertmanager" (.obj w.fields) =
      .ok (w.alerts.map fun a => some (w.event env nowIso a)) := by
  have hmapM : ∀ alerts : List WebhookAlert,
      ((alerts.map fun a => Json.obj a.fields).mapM (normalizeAlert env nowIso w.fields)) =
        .ok (alerts.map (w.event env nowIso)) := by
    intro alerts
    induction alerts with
    | nil => rfl
    | cons a rest ih =>
        rw [List.map_cons, List.mapM_cons, normalizeAlert_eq, ih]
        rfl
  have halerts : pyIter ((Json.field w.fields "alerts").pyOr (.arr [])) =
      .ok (w.alerts.map fun a => .obj a.fields) := by
    rw [w.alertsField, Json.pyOr]
    split_ifs with h
    · rfl
    · have hnil : w.alerts = [] := by simpa [Json.truthy] using h
      rw [hnil]
      rfl
  have hnormal : normalizeEvent env nowIso "alertmanager" (.obj w.fields) =
      .ok (w.alerts.map (w.event env nowIso)) := by
    rw [normalizeEvent, if_neg (by decide), if_pos (Or.inl rfl), normalizeAlertmanager, fieldsOf]
    change (pyIter _ >>= _) = _
    rw [halerts]
    exact hmapM w.alerts
  rw [recognize, hnormal]
  have hbare : ¬ ((Json.field w.fields "source").truthy = true ∧
      Json.field w.fields "adapter" = .null) := by
    rw [w.bare]
    exact fun hc => Bool.false_ne_true hc.1
  dsimp only
  rw [if_neg hbare, Except.map, List.map_map]
  rfl

/-! ### Processing -/

/-- What is read from the event of an alert. -/
def Webhook.reading (env : EventEnv) (now : Stamp) (w : Webhook) (a : WebhookAlert) : Reading where
  severity := env.lower (orText (severityOfText env (orText (a.label "severity") (w.statusOf a)))
    "warning")
  ts := (env.fromIso (Text.replace a.startsAt "Z" "+00:00")).getD now
  metricName := none
  value := (PyFloat.ofString (env.str .null)).map Num.ofFloat

/-- The row of an alert with the hash of its event. -/
def Webhook.row (env : EventEnv) (nowIso : String) (now : Stamp) (w : Webhook) (a : WebhookAlert)
    (hash : String) : InboxRow :=
  let r := w.reading env now a
  inboxRow env (w.event env nowIso a) r.ts r.value r.severity (.str hash)

/-- The event of the alert can be hashed, and the database takes its row. -/
def Webhook.Fits (env : IngestEnv) (nowIso : String) (now : Stamp) (w : Webhook)
    (a : WebhookAlert) : Prop :=
  ∃ hash, env.fingerprint (w.event env.toEventEnv nowIso a) = .ok hash ∧
    env.columns.inbox (w.row env.toEventEnv nowIso now a hash) = true

theorem event_ts (w : Webhook) (a : WebhookAlert) :
    (w.event env nowIso a).get "ts" = .str a.startsAt := by
  have htrue : (Json.str a.startsAt).truthy = true := decide_eq_true a.started
  change ((Json.field a.fields "startsAt").pyOr _).pyOr _ = _
  rw [a.startsAtField, pyOr_assoc, Json.pyOr, if_pos htrue]

theorem event_valid (w : Webhook) (a : WebhookAlert) :
    validateEvent env (w.event env nowIso a) = .ok none := by
  have hne : a.entityId ≠ "" := orText_ne _ (orText_ne _ (by decide))
  have hentity : (Json.str a.entityId).truthy = true := decide_eq_true hne
  have hts : (Json.str a.startsAt).truthy = true := decide_eq_true a.started
  rw [validateEvent]
  change (if !(w.event env nowIso a).entityId.truthy then _ else _ : Except PyErr _) = _
  rw [event_entity, hentity, event_ts, hts]
  rfl

theorem event_reads (now : Stamp) (w : Webhook) (a : WebhookAlert) :
    Reads env now (w.event env nowIso a) (w.reading env now a) := by
  have hkind : ¬ (w.event env nowIso a).get "kind" = .str "metric" := by
    change ¬ Json.str "alert" = .str "metric"
    decide
  have hvalue : (w.event env nowIso a).value = .json .null := rfl
  refine ⟨?_, ?_, ?_, fun hc => absurd hc hkind, ?_⟩
  · change env.lowered ((Json.str _).pyOr _) = _
    rw [pyOr_str]
    rfl
  · rw [event_ts]
    rfl
  · rw [if_neg hkind]
    rfl
  · rw [hvalue, toFloat, Webhook.reading]
    all_goals exact nofun

end Read

section Process

variable {env : IngestEnv} {nowIso : String} {turn : Turn} {w : Webhook} {a : WebhookAlert}
  {s : IngestSession}

theorem event_named :
    namedEvent env.toEventEnv (w.event env.toEventEnv nowIso a) =
      .ok (w.event env.toEventEnv nowIso a) :=
  if_neg (show ¬ Json.str "alert" = .str "metric" by decide)

theorem Ready.add {row : InboxRow} (h : Ready env.columns s) (hrow : env.columns.inbox row = true) :
    Ready env.columns (s.add ⟨[row], [], []⟩) := by
  obtain ⟨⟨hinbox, hsamples, hdaily⟩, hv⟩ := h
  refine ⟨⟨fun r hr => ?_, fun x hx => hsamples x ?_, hdaily⟩, hv⟩
  · rcases List.mem_append.mp hr with hr | hr
    · exact hinbox r hr
    · rw [List.mem_singleton.mp hr]
      exact hrow
  · simpa [IngestSession.add, Intake.append] using hx

theorem event_fingerprint {hash : String}
    (h : env.fingerprint (w.event env.toEventEnv nowIso a) = .ok hash) :
    fingerprintOf env.toEventEnv (w.event env.toEventEnv nowIso a) = .ok (.str hash) := by
  have hnone : (w.event env.toEventEnv nowIso a).get "fingerprint" = .null := rfl
  rw [fingerprintOf, hnone, if_neg (by decide), h]
  rfl

theorem event_stored (hash : String) :
    s.stored env.toEventEnv (w.event env.toEventEnv nowIso a) (.str hash)
        (w.reading env.toEventEnv turn.now a) =
      s.add ⟨[w.row env.toEventEnv nowIso turn.now a hash], [], []⟩ := by
  rw [stored, Webhook.row]
  cases (w.reading env.toEventEnv turn.now a).value <;> rfl

/-- **An alert that is taken.** -/
theorem webhook_taken (hfits : w.Fits env nowIso turn.now a) (hready : Ready env.columns s)
    (hnew : a.key.any s.knows = false) :
    ∃ s', ingestEvent env turn (some (w.event env.toEventEnv nowIso a)) s = .ok (.taken, s') ∧
      Ready env.columns s' ∧
      RulesVisit env.channels env.toPyText
        (monEvent env.toEventEnv (w.event env.toEventEnv nowIso a) a.entityId) turn.readings
        (turn.order.rules s.store.monitor.db.enabledRules) s.store.monitor s'.store.monitor := by
  obtain ⟨hash, hhash, hrow⟩ := hfits
  rw [← event_key w a] at hnew
  have hstored := hready.add hrow
  rw [← event_stored] at hstored
  obtain ⟨s', hprocess, hready', hvisit⟩ := processEvent_taken (event_valid w a) event_named
    (event_fingerprint hhash) (event_reads turn.now w a) (event_entity w a) hnew hstored
  exact ⟨s', bind_of_ok hprocess, hready', hvisit⟩

theorem webhook_duplicate (hfits : w.Fits env nowIso turn.now a) (hknown : a.key.any s.knows = true) :
    ingestEvent env turn (some (w.event env.toEventEnv nowIso a)) s = .ok (.duplicate, s) := by
  obtain ⟨hash, hhash, -⟩ := hfits
  have hprocess : processEvent env turn (some (w.event env.toEventEnv nowIso a)) s =
      .ok (.duplicate, s) := by
    rw [processEvent_lookup (event_valid w a) event_named (event_fingerprint hhash), event_key,
      hknown, if_pos rfl]
  exact bind_of_ok hprocess

end Process

end LarkPlat
