import LarkPlat.DailyRows
import LarkPlat.EventTaken

/-!
# Events That Pass

What one event does to a session that can go on. If it passes, it is processed, and the session can
go on: a known event leaves nothing, an invalid one and a metric without a name leave a dead letter
if it can be written, and the others leave a row, at most one sample with its daily row, and what
the rules make of them. If a valid event does not pass, the call is lost: it raises at once, or what
waits cannot be flushed any more.

## Main results

* `ingestEvent_invalid`, `ingestEvent_known`, `ingestEvent_nameless`, `ingestEvent_stored`: what an
  event leaves, exactly.
* `EventPasses.returns`: an event that passes is processed.
* `ingestEvent_doomed`: a valid event that does not pass is fatal.
-/

namespace LarkPlat

open Programs LockedTable Outcomes IngestSession

/-! ### Rows that can be flushed -/

/-- The database takes the sample: its daily row is there already, or no row that is flushed or
waits has its place. -/
def IngestSession.TakesSample (columns : Columns) (s : IngestSession) (x : MetricSample) : Prop :=
  columns.sample x = true ∧
    ((∃ r ∈ s.store.daily, r.lookup = x.dailyRow.lookup) ∨
      columns.daily x.dailyRow = true ∧ ∀ r ∈ s.daily, r.key ≠ x.dailyRow.key)

section Flushable

variable {columns : Columns} {s : IngestSession}

theorem flushable_row (row : InboxRow) :
    (s.add ⟨[row], [], []⟩).Flushable columns ↔ s.Flushable columns ∧ columns.inbox row = true := by
  have hinbox : (s.add ⟨[row], [], []⟩).fresh.inbox = s.fresh.inbox ++ [row] := rfl
  have hsamples : (s.add ⟨[row], [], []⟩).fresh.samples = s.fresh.samples := List.append_nil _
  rw [Flushable, hinbox, hsamples, List.forall_mem_append, List.forall_mem_singleton]
  exact ⟨fun h => ⟨⟨h.1.1, h.2⟩, h.1.2⟩, fun h => ⟨⟨h.1.1, h.2⟩, h.1.2⟩⟩

theorem flushable_evaluated (origin : Origin) :
    (s.add ⟨[], [], [origin]⟩).Flushable columns ↔ s.Flushable columns := by
  have hinbox : (s.add ⟨[], [], [origin]⟩).fresh.inbox = s.fresh.inbox := List.append_nil _
  have hsamples : (s.add ⟨[], [], [origin]⟩).fresh.samples = s.fresh.samples := List.append_nil _
  rw [Flushable, hinbox, hsamples]
  rfl

/-- **A sample** can be flushed exactly if the database takes it. -/
theorem flushable_sample (x : MetricSample) :
    ((s.add ⟨[], [x], []⟩).upsertDaily x.dailyRow x.value).Flushable columns ↔
      s.Flushable columns ∧ s.TakesSample columns x := by
  set s₁ := s.add ⟨[], [x], []⟩ with hs₁
  have hinbox : s₁.fresh.inbox = s.fresh.inbox := List.append_nil _
  have hsamples : s₁.fresh.samples = s.fresh.samples ++ [x] := rfl
  rcases upsertDaily_cases s₁ x with ⟨hold, heq⟩ | ⟨hnew, heq⟩
  · have hkeys : (recorded x s₁.store.daily ++ s₁.freshDaily).map DailyRow.key =
        (s.store.daily ++ s.freshDaily).map DailyRow.key := by
      rw [List.map_append, recorded_keys, ← List.map_append]
      rfl
    rw [heq, Flushable, hinbox, hsamples, hkeys, List.forall_mem_append,
      List.forall_mem_singleton]
    exact ⟨fun h => ⟨⟨h.1, h.2.1.1, h.2.2⟩, h.2.1.2, .inl hold⟩,
      fun h => ⟨h.1.1, ⟨h.1.2.1, h.2.1⟩, h.1.2.2⟩⟩
  · have hold : ¬ ∃ r ∈ s.store.daily, r.lookup = x.dailyRow.lookup :=
      fun ⟨r, hr, hk⟩ => hnew r hr hk
    have hnodup : ((s₁.store.daily ++ (s₁.freshDaily ++ [x.dailyRow])).map DailyRow.key).Nodup ↔
        (s.daily.map DailyRow.key).Nodup ∧ ∀ r ∈ s.daily, r.key ≠ x.dailyRow.key := by
      rw [← List.append_assoc, List.map_append, List.map_singleton, List.nodup_append]
      constructor
      · exact fun h => ⟨h.1, fun r hr => h.2.2 _ (List.mem_map_of_mem hr) _ List.mem_cons_self⟩
      · refine fun h => ⟨h.1, List.nodup_singleton _, fun k hk k' hk' => ?_⟩
        obtain ⟨r, hr, rfl⟩ := List.mem_map.mp hk
        exact List.mem_singleton.mp hk' ▸ h.2 r hr
    have hdaily : s₁.freshDaily = s.freshDaily := rfl
    rw [heq, Flushable, hinbox, hsamples, hnodup, List.forall_mem_append,
      List.forall_mem_singleton, hdaily, List.forall_mem_append, List.forall_mem_singleton]
    constructor
    · rintro ⟨hrows, ⟨hxs, hx⟩, ⟨hds, hd⟩, hn, hfree⟩
      exact ⟨⟨hrows, hxs, hds, hn⟩, hx, .inr ⟨hd, hfree⟩⟩
    · rintro ⟨⟨hrows, hxs, hds, hn⟩, hx, hplace⟩
      obtain ⟨hd, hfree⟩ := hplace.resolve_left hold
      exact ⟨hrows, ⟨hxs, hx⟩, ⟨hds, hd⟩, hn, hfree⟩

theorem doomed_stable (columns : Columns) :
    SessionStable columns (fun s => ¬ s.Flushable columns) fun _ => True where
  raise _ _ _ := trivial
  row _ row h := fun hc => h ((flushable_row row).mp hc).1
  evaluated _ origin h := fun hc => h ((flushable_evaluated origin).mp hc)
  sample _ x h := fun hc => h ((flushable_sample x).mp hc).1
  engine _ _ h := h
  flush _ h hf := absurd hf h
  commit _ h hf := absurd hf h
  dead _ _ h := h

end Flushable

/-! ### What is left, exactly -/

/-- The session can go on, with these rows added, and with these daily rows and alerts. -/
structure Leads (columns : Columns) (s s' : IngestSession) (added : Intake)
    (daily : List DailyRow) (monitor : Monitor) : Prop where
  ready : Ready columns s'
  intake : s'.intake = s.intake.append added
  daily : s'.daily = daily
  monitor : s'.store.monitor = monitor

/-- The daily rows with one more sample, if there is one. -/
def tally : Option MetricSample → List DailyRow → List DailyRow
  | none, rows => rows
  | some x, rows =>
      if ∃ r ∈ rows, r.lookup = x.dailyRow.lookup then recorded x rows else rows ++ [x.dailyRow]

/-- The alerts after the rules have seen an event. -/
def rulesAfter (env : IngestEnv) (turn : Turn) (e : RawEvent) (m : Monitor) : Monitor :=
  match e.entityId with
  | .str entityId =>
      match AlertProg.alone (AlertProg.evaluateEvent env.channels env.toPyText turn.order
          turn.readings (monEvent env.toEventEnv e entityId)) m with
      | .ok (_, m') => m'
      | .error _ => m
  | _ => m

/-- The dead letter, if it can be written. -/
def letterRows (env : IngestEnv) (now : Stamp) (raw : Option RawEvent) (error : String)
    (detail : Option String) : List InboxRow :=
  match deadLetterRow env.toEventEnv now raw error detail with
  | .ok row => if env.columns.inbox row then [row] else []
  | .error _ => []

/-- The sample that an event leaves, if it has a value and a name. -/
def Reading.sample (env : EventEnv) (e : RawEvent) (fingerprint : Json) (r : Reading) :
    Option MetricSample :=
  match r.value, r.metricName with
  | some value, some metricName => some (metricSample env e r.ts fingerprint value metricName)
  | _, _ => none

section Left

variable {env : IngestEnv} {turn : Turn} {s : IngestSession} {e e' : RawEvent} {r : Reading}
  {fingerprint : Json}

theorem upsertDaily_daily {columns : Columns} (hflush : s.Flushable columns) {x : MetricSample}
    (htakes : s.TakesSample columns x) :
    ((s.add ⟨[], [x], []⟩).upsertDaily x.dailyRow x.value).daily = tally (some x) s.daily := by
  rw [tally]
  rcases upsertDaily_cases (s.add ⟨[], [x], []⟩) x with ⟨⟨r, hr, hk⟩, heq⟩ | ⟨hnew, heq⟩
  · have hothers : ∀ r' ∈ s.freshDaily, r'.key ≠ x.dailyRow.key := by
      intro r' hr' hkey
      have hnodup := hflush.2.2.2
      rw [List.map_append, List.nodup_append] at hnodup
      exact hnodup.2.2 _ (List.mem_map_of_mem hr) _ (List.mem_map_of_mem hr')
        ((key_of_lookup hk).trans hkey.symm)
    rw [if_pos ⟨r, List.mem_append_left _ hr, hk⟩, heq]
    change recorded x s.store.daily ++ s.freshDaily = recorded x (s.store.daily ++ s.freshDaily)
    rw [recorded_append, recorded_others hothers]
  · obtain ⟨-, hfree⟩ := htakes.2.resolve_left fun ⟨r, hr, hk⟩ => hnew r hr hk
    rw [if_neg fun ⟨r, hr, hk⟩ => hfree r hr (key_of_lookup hk), heq]
    exact (List.append_assoc _ _ _).symm

theorem alertRun_daily {α : Type} (p : AlertProg α) (columns : Columns) (s : IngestSession) :
    Ends (p.run (serveAlert columns) s) (fun _ s' => s'.daily = s.daily) fun _ => True := by
  refine Prog.run_ends (fun st s' h => ?_) p rfl
  rw [serveAlert]
  cases Monitor.serve _ st s'.store.monitor with
  | error e => exact trivial
  | ok r =>
      set s₁ : IngestSession := { s' with store := { s'.store with monitor := r.2 } }
      have hdaily : s₁.daily = s.daily := h
      change Ends ((settle columns st s₁).map _) _ _
      cases st with
      | insert | log =>
          rw [settle]
          rcases s₁.flush_cases columns with ⟨-, hr⟩ | hr <;> rw [hr]
          · exact (flushed_daily s₁).trans hdaily
          · exact trivial
      | send | commit =>
          rw [settle]
          rcases s₁.commit_cases columns with ⟨-, hr⟩ | hr <;> rw [hr]
          · exact (flushed_daily s₁).trans hdaily
          · exact trivial
      | select | cas | write | raise => exact hdaily

/-- **The evaluation** of an event that the rules can compare. -/
theorem evaluateRaw_leads (turn : Turn) (h : Ready env.columns s)
    (hentity : (∃ entityId, e.entityId = .str entityId) ∨ s.store.monitor.db.enabledRules = []) :
    ∃ s', evaluateRaw env turn e s = .ok ((), s') ∧
      Leads env.columns s s' ⟨[], [], [e.origin]⟩ s.daily (rulesAfter env turn e s.store.monitor) := by
  set s₁ := s.add ⟨[], [], [e.origin]⟩ with hs₁
  have hflush₁ : s₁.Flushable env.columns := (flushable_evaluated _).mpr h.flushable
  have hrun : evaluateRaw env turn e s = _ :=
    bind_of_ok (show IngestM.change _ s = .ok ((), s₁) from rfl)
  rw [hrun, rulesAfter]
  by_cases hid : ∃ entityId, e.entityId = .str entityId
  · obtain ⟨entityId, hid⟩ := hid
    obtain ⟨out, m', halone, hvisit⟩ := evaluateEvent_visit env.channels env.toPyText turn.order
      (monEvent env.toEventEnv e entityId) turn.readings h.valid
    obtain ⟨s', hprog, hm, hflush⟩ := alertRun_alone _ hflush₁
      (show AlertProg.alone _ s₁.store.monitor = _ from halone)
    rw [hid]
    dsimp only
    rw [halone]
    refine ⟨s', bind_of_ok hprog, ⟨hflush, hm ▸ hvisit.valid⟩, ?_, ?_, hm⟩
    · have hgrows := (alertRun_ends env.columns _ s₁).of_ok hprog
      rw [hgrows.intake, Intake.append_none, hs₁, add_intake]
    · exact (alertRun_daily _ env.columns s₁).of_ok hprog
  · have hempty : s₁.store.monitor.db.enabledRules.isEmpty = true :=
      List.isEmpty_iff.mpr (hentity.resolve_left hid)
    have hleads : Leads env.columns s s₁ ⟨[], [], [e.origin]⟩ s.daily s.store.monitor :=
      ⟨⟨hflush₁, h.valid⟩, add_intake _ _, rfl, rfl⟩
    cases hentity' : e.entityId with
    | str id => exact absurd ⟨id, hentity'⟩ hid
    | null | bool | int | float | arr | obj =>
        refine ⟨s₁, ?_, hleads⟩
        refine (bind_of_ok (show (get : IngestM IngestSession) s₁ = .ok (s₁, s₁) from rfl)).trans ?_
        rw [if_pos hempty]
        rfl

/-- **A dead letter**, in a session that can go on. -/
theorem deadLetter_leads (env : IngestEnv) (now : Stamp) (raw : Option RawEvent) (error : String)
    (detail : Option String) (h : Ready env.columns s) :
    ∃ s', deadLetter env now raw error detail s = .ok ((), s') ∧
      Leads env.columns s s' ⟨letterRows env now raw error detail, [], []⟩ s.daily
        s.store.monitor := by
  have hflush : s.flush env.columns = .ok s.flushed := if_pos h.flushable
  have hready : Ready env.columns s.flushed := ⟨flushable_flushed h.flushable, h.valid⟩
  have hnone : Leads env.columns s s.flushed ⟨[], [], []⟩ s.daily s.store.monitor :=
    ⟨hready, by rw [flushed_intake]; exact (Intake.append_none _).symm, flushed_daily s, rfl⟩
  rw [deadLetter, IngestM.change, hflush, letterRows]
  dsimp only [Except.map]
  cases deadLetterRow env.toEventEnv now raw error detail with
  | error e => exact ⟨_, rfl, hnone⟩
  | ok row =>
      dsimp only
      split_ifs
      · exact ⟨_, rfl, ⟨hready.flushable, hready.valid⟩, Intake.append_none _, flushed_daily s, rfl⟩
      · exact ⟨_, rfl, hnone⟩

theorem flushable_stored (e' : RawEvent) (fingerprint : Json) (r : Reading) :
    (s.stored env.toEventEnv e' fingerprint r).Flushable env.columns ↔
      s.Flushable env.columns ∧
        env.columns.inbox (inboxRow env.toEventEnv e' r.ts r.value r.severity fingerprint) = true ∧
        ∀ x ∈ r.sample env.toEventEnv e' fingerprint, s.TakesSample env.columns x := by
  rw [stored, Reading.sample, ← and_assoc, ← flushable_row]
  cases r.value with
  | none => exact (and_iff_left fun _ hx => by cases hx).symm
  | some value =>
      cases r.metricName with
      | none => exact (and_iff_left fun _ hx => by cases hx).symm
      | some metricName =>
          rw [persistMetricSample]
          refine (flushable_sample _).trans (and_congr_right fun _ => ?_)
          exact ⟨fun h x hx => Option.some.inj hx ▸ h, fun h => h _ rfl⟩

theorem stored_intake (e' : RawEvent) (fingerprint : Json) (r : Reading) (s : IngestSession) :
    (s.stored env.toEventEnv e' fingerprint r).intake = s.intake.append
      ⟨[inboxRow env.toEventEnv e' r.ts r.value r.severity fingerprint],
        (r.sample env.toEventEnv e' fingerprint).toList, []⟩ := by
  rw [stored, Reading.sample]
  cases r.value with
  | none => exact add_intake _ _
  | some value =>
      cases r.metricName with
      | none => exact add_intake _ _
      | some metricName =>
          rw [persistMetricSample, upsertDaily_intake, add_intake, add_intake,
            Intake.append_assoc]
          rfl

theorem stored_leads (h : Ready env.columns s)
    (hrow : env.columns.inbox
      (inboxRow env.toEventEnv e' r.ts r.value r.severity fingerprint) = true)
    (hsample : ∀ x ∈ r.sample env.toEventEnv e' fingerprint, s.TakesSample env.columns x) :
    Leads env.columns s (s.stored env.toEventEnv e' fingerprint r)
      ⟨[inboxRow env.toEventEnv e' r.ts r.value r.severity fingerprint],
        (r.sample env.toEventEnv e' fingerprint).toList, []⟩
      (tally (r.sample env.toEventEnv e' fingerprint) s.daily) s.store.monitor where
  ready := ⟨(flushable_stored e' fingerprint r).mpr ⟨h.flushable, hrow, hsample⟩,
    (stored_monitor env.toEventEnv e' fingerprint r s).symm ▸ h.valid⟩
  intake := stored_intake e' fingerprint r s
  daily := by
    have hflush : (s.add ⟨[inboxRow env.toEventEnv e' r.ts r.value r.severity fingerprint], [],
        []⟩).Flushable env.columns := (flushable_row _).mpr ⟨h.flushable, hrow⟩
    rw [stored]
    rw [Reading.sample] at hsample ⊢
    cases hvalue : r.value with
    | none => rfl
    | some value =>
        cases hname : r.metricName with
        | none => rfl
        | some metricName =>
            rw [hvalue, hname] at hsample
            rw [hvalue] at hflush
            exact upsertDaily_daily hflush (hsample _ rfl)
  monitor := stored_monitor env.toEventEnv e' fingerprint r s

end Left

/-! ### Events that pass -/

/-- A valid event, with the name of its metric and with its fingerprint. -/
structure Prepared (env : EventEnv) (e e' : RawEvent) (fingerprint : Json) : Prop where
  valid : validateEvent env e = .ok none
  named : namedEvent env e = .ok e'
  fingerprint : fingerprintOf env e' = .ok fingerprint

/-- A valid event passes in the session: it is known, or its metric has no name and it becomes a
dead letter, or every part of it can be read, the database takes its row and its sample, and the
rules can compare its entity. -/
inductive EventPasses (env : IngestEnv) (turn : Turn) (s : IngestSession) (e : RawEvent) :
    Prop where
  | known {e' : RawEvent} {fingerprint : Json} (h : Prepared env.toEventEnv e e' fingerprint)
      (hknown : (e'.key env.toEventEnv).any s.knows = true)
  | nameless {e' : RawEvent} {fingerprint : Json} (h : Prepared env.toEventEnv e e' fingerprint)
      (hnew : (e'.key env.toEventEnv).any s.knows = false)
      (hmetric : e'.get "kind" = .str "metric") {severity : String}
      (hseverity : env.lowered ((e'.get "severity").pyOr (.str "warning")) = .ok severity)
      {ts : Stamp} (hts : coerceTs env.toEventEnv turn.now (e'.get "ts") = .ok ts)
      (hname : metricNameOf env.toEventEnv e' = .ok none)
  | stored {e' : RawEvent} {fingerprint : Json} (h : Prepared env.toEventEnv e e' fingerprint)
      (hnew : (e'.key env.toEventEnv).any s.knows = false) {r : Reading}
      (hr : Reads env.toEventEnv turn.now e' r)
      (hrow : env.columns.inbox
        (inboxRow env.toEventEnv e' r.ts r.value r.severity fingerprint) = true)
      (hsample : ∀ x ∈ r.sample env.toEventEnv e' fingerprint, s.TakesSample env.columns x)
      (hentity : (∃ entityId, e'.entityId = .str entityId) ∨
        s.store.monitor.db.enabledRules = [])

section Event

variable {env : IngestEnv} {turn : Turn} {s : IngestSession} {e e' : RawEvent} {r : Reading}
  {fingerprint : Json}

theorem evaluateRaw_raises (turn : Turn) (hrules : s.store.monitor.db.enabledRules ≠ [])
    (hentity : ∀ id, e.entityId ≠ .str id) :
    evaluateRaw env turn e s = .error ⟨.typeError, s.committed⟩ := by
  set s₁ := s.add ⟨[], [], [e.origin]⟩
  rw [evaluateRaw, bind_of_ok (show IngestM.change _ s = .ok ((), s₁) from rfl)]
  have hempty : ¬ s₁.store.monitor.db.enabledRules.isEmpty = true :=
    fun hc => hrules (List.isEmpty_iff.mp hc)
  cases hid : e.entityId with
  | str id => exact absurd hid (hentity id)
  | null | bool | int | float | arr | obj =>
      refine (bind_of_ok (show (get : IngestM IngestSession) s₁ = .ok (s₁, s₁) from rfl)).trans ?_
      rw [if_neg hempty]
      rfl

theorem takeEvent_nameless (hkind : e.get "kind" = .str "metric") {severity : String}
    (hseverity : env.lowered ((e.get "severity").pyOr (.str "warning")) = .ok severity)
    {ts : Stamp} (hts : coerceTs env.toEventEnv turn.now (e.get "ts") = .ok ts)
    (hname : metricNameOf env.toEventEnv e = .ok none) :
    takeEvent env turn e fingerprint s =
      (deadLetter env turn.now (some e) "unresolvable metric_name" none >>= fun _ =>
        pure (.rejected "unresolvable metric_name" true)) s := by
  rw [takeEvent, hseverity, attempt_bind, hts, attempt_bind]
  simp only [decide_eq_true_eq]
  rw [if_pos hkind, hname, attempt_bind, decide_eq_true hkind]
  rfl

theorem ingestEvent_of_processed {raw : Option RawEvent} {out : EventOutcome} {s' : IngestSession}
    (h : processEvent env turn raw s = .ok (out, s')) (hout : ∀ error, out ≠ .rejected error false) :
    ingestEvent env turn raw s = .ok (out, s') := by
  refine (bind_of_ok h).trans ?_
  cases out with
  | duplicate => rfl
  | taken => rfl
  | rejected error deadLettered =>
      cases deadLettered with
      | true => rfl
      | false => exact absurd rfl (hout error)

/-- A known event leaves nothing. -/
theorem ingestEvent_known (h : Prepared env.toEventEnv e e' fingerprint)
    (hknown : (e'.key env.toEventEnv).any s.knows = true) :
    ingestEvent env turn (some e) s = .ok (.duplicate, s) := by
  refine ingestEvent_of_processed ?_ fun _ hc => (by cases hc)
  rw [processEvent_lookup h.valid h.named h.fingerprint, if_pos hknown]

/-- A metric without a name leaves a dead letter. -/
theorem ingestEvent_nameless (h : Prepared env.toEventEnv e e' fingerprint)
    (hnew : (e'.key env.toEventEnv).any s.knows = false) (hmetric : e'.get "kind" = .str "metric")
    {severity : String}
    (hseverity : env.lowered ((e'.get "severity").pyOr (.str "warning")) = .ok severity)
    {ts : Stamp} (hts : coerceTs env.toEventEnv turn.now (e'.get "ts") = .ok ts)
    (hname : metricNameOf env.toEventEnv e' = .ok none) (hready : Ready env.columns s) :
    ∃ s', ingestEvent env turn (some e) s =
        .ok (.rejected "unresolvable metric_name" true, s') ∧
      Leads env.columns s s'
        ⟨letterRows env turn.now (some e') "unresolvable metric_name" none, [], []⟩ s.daily
        s.store.monitor := by
  obtain ⟨s', hdead, hleads⟩ :=
    deadLetter_leads env turn.now (some e') "unresolvable metric_name" none hready
  refine ⟨s', ingestEvent_of_processed ?_ fun _ hc => (by cases hc), hleads⟩
  rw [processEvent_lookup h.valid h.named h.fingerprint, hnew, if_neg Bool.false_ne_true,
    takeEvent_nameless hmetric hseverity hts hname]
  exact bind_of_ok hdead

/-- **An event that is stored** leaves its row, its sample, and what the rules make of it. -/
theorem ingestEvent_stored (h : Prepared env.toEventEnv e e' fingerprint)
    (hnew : (e'.key env.toEventEnv).any s.knows = false)
    (hr : Reads env.toEventEnv turn.now e' r)
    (hrow : env.columns.inbox
      (inboxRow env.toEventEnv e' r.ts r.value r.severity fingerprint) = true)
    (hsample : ∀ x ∈ r.sample env.toEventEnv e' fingerprint, s.TakesSample env.columns x)
    (hentity : (∃ entityId, e'.entityId = .str entityId) ∨ s.store.monitor.db.enabledRules = [])
    (hready : Ready env.columns s) :
    ∃ s', ingestEvent env turn (some e) s = .ok (.taken, s') ∧
      Leads env.columns s s'
        ⟨[inboxRow env.toEventEnv e' r.ts r.value r.severity fingerprint],
          (r.sample env.toEventEnv e' fingerprint).toList, [e'.origin]⟩
        (tally (r.sample env.toEventEnv e' fingerprint) s.daily)
        (rulesAfter env turn e' s.store.monitor) := by
  have hstored := stored_leads hready hrow hsample
  rw [← hstored.monitor] at hentity
  obtain ⟨s', hrun, heval⟩ := evaluateRaw_leads turn hstored.ready hentity
  refine ⟨s', ingestEvent_of_processed ?_ fun _ hc => (by cases hc), heval.ready, ?_, ?_, ?_⟩
  · rw [processEvent_lookup h.valid h.named h.fingerprint, hnew, if_neg Bool.false_ne_true,
      takeEvent_reads hr]
    exact bind_of_ok hrun
  · rw [heval.intake, hstored.intake, Intake.append_assoc]
    simp only [Intake.append, List.append_nil, List.nil_append]
  · rw [heval.daily, hstored.daily]
  · rw [heval.monitor, hstored.monitor]

/-- What is wrong with an event has a name, and the value of a valid metric is a number. -/
theorem validateEvent_cases {env : EventEnv} {fault : Option String}
    (h : validateEvent env e = .ok fault) :
    (∃ error, fault = some error ∧ error ≠ "") ∨
      (fault = none ∧ (e.get "kind" = .str "metric" → e.value.numeric = true)) := by
  have happend {s : String} (hs : s ≠ "") (t : String) : s ++ t ≠ "" := fun hc =>
    hs (String.append_eq_empty_iff.mp hc).1
  rw [validateEvent] at h
  obtain ⟨known, -, h⟩ := bind_eq_ok.mp h
  by_cases hsource : (!known) = true
  · rw [if_pos hsource] at h
    exact .inl ⟨_, (Except.ok.inj h).symm, happend (by decide) _⟩
  rw [if_neg hsource] at h
  obtain ⟨known', -, h⟩ := bind_eq_ok.mp h
  split_ifs at h with _ _ _ hvalue
  · exact .inl ⟨_, (Except.ok.inj h).symm, happend (by decide) _⟩
  · exact .inl ⟨_, (Except.ok.inj h).symm, by decide⟩
  · exact .inl ⟨_, (Except.ok.inj h).symm, by decide⟩
  · exact .inl ⟨_, (Except.ok.inj h).symm, by decide⟩
  · refine .inr ⟨(Except.ok.inj h).symm, fun hkind => ?_⟩
    by_contra hnot
    exact hvalue ⟨hkind, by rw [Bool.eq_false_iff.mpr hnot]; rfl⟩

/-- An invalid event leaves a dead letter. -/
theorem ingestEvent_invalid {error : String}
    (h : validateEvent env.toEventEnv e = .ok (some error)) (hready : Ready env.columns s) :
    ∃ s', ingestEvent env turn (some e) s = .ok (.rejected error false, s') ∧
      Leads env.columns s s' ⟨letterRows env turn.now (some e) error none, [], []⟩ s.daily
        s.store.monitor := by
  obtain ⟨s', hdead, hleads⟩ := deadLetter_leads env turn.now (some e) error none hready
  have hprocess : processEvent env turn (some e) s = .ok (.rejected error false, s) := by
    rw [processEvent, h, attempt_bind]
    rfl
  refine ⟨s', ?_, hleads⟩
  have hne : error ≠ "" := by
    rcases validateEvent_cases h with ⟨_, heq, hne⟩ | ⟨hnone, -⟩
    · exact Option.some.inj heq ▸ hne
    · cases hnone
  rw [ingestEvent, bind_of_ok hprocess]
  dsimp only
  rw [if_pos hne]
  exact bind_of_ok hdead

/-- **An event that passes** is processed, and the session can go on. -/
theorem EventPasses.returns (hpass : EventPasses env turn s e) (hready : Ready env.columns s) :
    ∃ out s', ingestEvent env turn (some e) s = .ok (out, s') ∧ Ready env.columns s' := by
  cases hpass with
  | known h hknown => exact ⟨.duplicate, s, ingestEvent_known h hknown, hready⟩
  | nameless h hnew hmetric hseverity hts hname =>
      obtain ⟨s', hrun, hleads⟩ := ingestEvent_nameless h hnew hmetric hseverity hts hname hready
      exact ⟨_, s', hrun, hleads.ready⟩
  | stored h hnew hr hrow hsample hentity =>
      obtain ⟨s', hrun, hleads⟩ := ingestEvent_stored h hnew hr hrow hsample hentity hready
      exact ⟨_, s', hrun, hleads.ready⟩

/-- An event that can be read does not pass if the database does not take it, or if the rules cannot
compare its entity. -/
theorem evaluateRaw_doomed (h : Prepared env.toEventEnv e e' fingerprint)
    (hnew : (e'.key env.toEventEnv).any s.knows = false)
    (hr : Reads env.toEventEnv turn.now e' r) (hnot : ¬ EventPasses env turn s e) :
    Ends (evaluateRaw env turn e' (s.stored env.toEventEnv e' fingerprint r))
      (fun _ s' => ¬ s'.Flushable env.columns) fun _ => True := by
  by_cases hflush : (s.stored env.toEventEnv e' fingerprint r).Flushable env.columns
  swap
  · exact ((doomed_stable env.columns).evaluateRaw turn e').ends _ hflush
  obtain ⟨-, hrow, hsample⟩ := (flushable_stored e' fingerprint r).mp hflush
  have hentity : ¬ ((∃ entityId, e'.entityId = .str entityId) ∨
      s.store.monitor.db.enabledRules = []) :=
    fun hc => hnot (.stored h hnew hr hrow hsample hc)
  obtain ⟨hid, hrules⟩ := not_or.mp hentity
  rw [evaluateRaw_raises turn (by rw [stored_monitor]; exact hrules) fun id hc => hid ⟨id, hc⟩]
  exact trivial

/-- An event that is not known does not pass if a part of it cannot be read, either. -/
theorem takeEvent_doomed (h : Prepared env.toEventEnv e e' fingerprint)
    (hnew : (e'.key env.toEventEnv).any s.knows = false)
    (hnot : ¬ EventPasses env turn s e) :
    Ends (takeEvent env turn e' fingerprint s) (fun out s' =>
      ¬ s'.Flushable env.columns ∧ ∀ error, out ≠ .rejected error false) fun _ => True := by
  rw [takeEvent]
  refine ends_bind (Q := fun v s' =>
      env.lowered ((e'.get "severity").pyOr (.str "warning")) = .ok v ∧ s' = s)
    (ends_attempt _ (fun _ h => ⟨h, rfl⟩) fun _ => trivial) fun severity s₁ hseverity => ?_
  obtain ⟨hseverity, rfl⟩ := hseverity
  refine ends_bind (Q := fun v s' =>
      coerceTs env.toEventEnv turn.now (e'.get "ts") = .ok v ∧ s' = s₁)
    (ends_attempt _ (fun _ h => ⟨h, rfl⟩) fun _ => trivial) fun ts s' hts => ?_
  obtain ⟨hts, rfl⟩ := hts
  simp only [decide_eq_true_eq]
  refine ends_bind (Q := fun v s₁ => (if e'.get "kind" = .str "metric" then
      metricNameOf env.toEventEnv e' else .ok none) = .ok v ∧ s₁ = s')
    (ends_attempt _ (fun _ h => ⟨h, rfl⟩) fun _ => trivial) fun metricName s₁ hname => ?_
  obtain ⟨hname, rfl⟩ := hname
  split_ifs with hnameless
  · rw [Bool.and_eq_true, decide_eq_true_eq, Option.isNone_iff_eq_none] at hnameless
    obtain ⟨hmetric, rfl⟩ := hnameless
    rw [if_pos hmetric] at hname
    exact absurd (.nameless h hnew hmetric hseverity hts hname) hnot
  · refine ends_bind (Q := fun v s' => toFloat env.toEventEnv e'.value = .ok v ∧ s' = s₁)
      (ends_attempt _ (fun _ h => ⟨h, rfl⟩) fun _ => trivial) fun value s' hvalue => ?_
    obtain ⟨hvalue, rfl⟩ := hvalue
    set r : Reading := ⟨severity, ts, metricName, value⟩
    have hnamed : e'.get "kind" = .str "metric" → r.metricName.isSome = true := by
      intro hmetric
      rw [decide_eq_true hmetric, Bool.true_and] at hnameless
      cases metricName with
      | none => exact absurd rfl hnameless
      | some name => rfl
    have hdoomed := evaluateRaw_doomed h hnew ⟨hseverity, hts, hname, hnamed, hvalue⟩ hnot
    set row := inboxRow env.toEventEnv e' ts value severity fingerprint
    refine ends_bind (Q := fun _ s₁ => s₁ = s'.add ⟨[row], [], []⟩) (ends_change _ rfl)
      fun _ s₁ hs₁ => ?_
    subst hs₁
    refine ends_bind (Q := fun _ s₁ => s₁ = s'.stored env.toEventEnv e' fingerprint r)
      (ends_change _ rfl) fun _ s₂ hs₂ => ?_
    subst hs₂
    exact ends_bind hdoomed fun _ s₂ hs₂ => ⟨hs₂, fun _ hc => (by cases hc)⟩

/-- **A valid event that does not pass** is fatal: the call raises, or what waits cannot be flushed
any more. -/
theorem ingestEvent_doomed (hvalid : validateEvent env.toEventEnv e = .ok none)
    (hnot : ¬ EventPasses env turn s e) :
    Ends (ingestEvent env turn (some e) s) (fun _ s' => ¬ s'.Flushable env.columns)
      fun _ => True := by
  have hprocess : Ends (processEvent env turn (some e) s) (fun out s' =>
      ¬ s'.Flushable env.columns ∧ ∀ error, out ≠ .rejected error false) fun _ => True := by
    rw [processEvent, hvalid, attempt_bind]
    refine ends_bind (Q := fun e' s' => namedEvent env.toEventEnv e = .ok e' ∧ s' = s)
      (ends_attempt _ (fun _ h => ⟨h, rfl⟩) fun _ => trivial) fun e' s' hnamed => ?_
    obtain ⟨hnamed, rfl⟩ := hnamed
    refine ends_bind (Q := fun fp s₁ => fingerprintOf env.toEventEnv e' = .ok fp ∧ s₁ = s')
      (ends_attempt _ (fun _ h => ⟨h, rfl⟩) fun _ => trivial) fun fingerprint s₁ hfp => ?_
    obtain ⟨hfingerprint, rfl⟩ := hfp
    have h : Prepared env.toEventEnv e e' fingerprint := ⟨hvalid, hnamed, hfingerprint⟩
    refine ends_bind (Q := fun x s' => x = s₁ ∧ s' = s₁) (ends_get ⟨rfl, rfl⟩) fun x s' hs' => ?_
    obtain ⟨rfl, rfl⟩ := hs'
    split_ifs with hknown
    · exact absurd (.known h hknown) hnot
    · exact takeEvent_doomed h (Bool.eq_false_iff.mpr hknown) hnot
  rw [ingestEvent]
  refine ends_bind hprocess fun out s' h => ?_
  cases out with
  | duplicate => exact h.1
  | taken => exact h.1
  | rejected error deadLettered =>
      cases deadLettered with
      | true => exact h.1
      | false => exact absurd rfl (h.2 error)

end Event

/-! ### Calls -/

section Call

variable {env : IngestEnv} {s t : IngestSession}

theorem commit_returns_iff {columns : Columns} :
    IngestM.change (·.commit columns) s = .ok ((), t) ↔
      s.Flushable columns ∧ t = { s.flushed with committed := s.flushed.store } := by
  rw [IngestM.change]
  constructor
  · intro h
    rcases s.commit_cases columns with ⟨hflush, hr⟩ | hr
    · rw [hr] at h
      exact ⟨hflush, (Prod.mk.inj (Except.ok.inj h)).2.symm⟩
    · rw [hr] at h
      cases h
  · rintro ⟨hflush, rfl⟩
    rw [commit_flushable hflush]
    rfl

theorem ingest_of_events {call : IngestCall} (hne : call.events env ≠ []) (s : IngestSession) :
    ingest env call s = (ingestEvents env call.turn 0 (call.events env) >>= fun outcomes =>
      IngestM.change (·.commit env.columns) >>= fun _ => pure (.counted outcomes)) s := by
  rw [IngestCall.events] at hne ⊢
  cases ha : call.adapter with
  | none =>
      rw [ha] at hne
      exact absurd rfl hne
  | some adapter =>
      rw [ha] at hne
      dsimp only at hne ⊢
      by_cases hon : call.featureEnabled = true ∧ adapter.enabled = 1
      swap
      · rw [if_neg hon] at hne
        exact absurd rfl hne
      rw [if_pos hon] at hne ⊢
      cases hr : recognize env.toEventEnv call.nowIso adapter.type call.payload with
      | error e =>
          rw [hr] at hne
          exact absurd rfl hne
      | ok events =>
          rw [hr] at hne
          have hnonempty : ¬ events.isEmpty = true := fun hc => hne (List.isEmpty_iff.mp hc)
          rw [ingest, ha, if_neg (by rw [hon.1]; exact Bool.false_ne_true)]
          dsimp only
          rw [if_neg (not_not_intro hon.2), hr, attempt_bind, if_neg hnonempty]

end Call

end LarkPlat
