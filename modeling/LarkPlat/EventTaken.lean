import LarkPlat.EventIntake

/-!
# Events That Are Taken

If the database takes the rows that wait in the session, a program of the alert engine runs in the
session of `ingest` as it runs alone. So on valid tables an event of which every part can be read is
taken, and the rules are evaluated on it.

## Main results

* `alertRun_alone`: a program of the engine in the session.
* `evaluateRaw_returns`: the evaluation of an event returns.
* `processEvent_taken`: an event that can be read and is not known is taken.
-/

namespace LarkPlat

open Programs LockedTable Outcomes IngestSession

/-- The session can go on: the database takes the rows that wait, and the tables of the engine are
valid. -/
structure Ready (columns : Columns) (s : IngestSession) : Prop where
  flushable : s.Flushable columns
  valid : s.store.monitor.db.Valid

section Engine

variable {s : IngestSession} {columns : Columns}

theorem flushable_flushed (h : s.Flushable columns) : s.flushed.Flushable columns := by
  obtain ⟨-, -, -, hdaily⟩ := h
  refine ⟨(fun _ h => by cases h), (fun _ h => by cases h), (fun _ h => by cases h), ?_⟩
  rw [flushed, List.append_nil]
  exact hdaily

theorem settle_flushable {β : Type} (st : Stmt alertSchema β) (h : s.Flushable columns) :
    ∃ s', settle columns st s = .ok s' ∧ s'.store.monitor = s.store.monitor ∧
      s'.Flushable columns := by
  have hflush : s.flush columns = .ok s.flushed := if_pos h
  have hcommit :
      s.commit columns = .ok { s.flushed with committed := s.flushed.store } := by
    rw [IngestSession.commit, hflush]
    rfl
  cases st with
  | insert | log => exact ⟨_, hflush, rfl, flushable_flushed h⟩
  | send | commit => exact ⟨_, hcommit, rfl, flushable_flushed h⟩
  | select | cas | write | raise => exact ⟨s, rfl, rfl, h⟩

/-- **The engine in the session.** If the database takes the rows that wait, a program does what it
does alone. -/
theorem alertRun_alone {α : Type} (p : AlertProg α) (h : s.Flushable columns) {x : α} {m : Monitor}
    (hrun : p.alone s.store.monitor = .ok (x, m)) :
    ∃ s', p.run (serveAlert columns) s = .ok (x, s') ∧ s'.store.monitor = m ∧
      s'.Flushable columns := by
  refine Prog.run_lockstep
    (R := fun m (s : IngestSession) => s.store.monitor = m ∧ s.Flushable columns) ?_ p ⟨rfl, h⟩ hrun
  rintro γ st m s ⟨rfl, hs⟩ b m' hserve
  set s₁ : IngestSession := { s with store := { s.store with monitor := m' } } with hs₁
  obtain ⟨s', hsettle, hmonitor, hflush⟩ := settle_flushable st (show s₁.Flushable columns from hs)
  refine ⟨s', ?_, hmonitor, hflush⟩
  rw [serveAlert, hserve]
  dsimp only
  rw [← hs₁, hsettle]
  rfl

end Engine

section Session

variable {s : IngestSession} {columns : Columns}

theorem commit_flushable (h : s.Flushable columns) :
    s.commit columns = .ok { s.flushed with committed := s.flushed.store } := by
  rw [IngestSession.commit, IngestSession.flush, if_pos h]
  rfl

theorem ready_opened {st : MonStore} (hvalid : st.monitor.db.Valid)
    (hunique : (st.daily.map DailyRow.key).Nodup) : Ready columns (.opened st) := by
  refine ⟨⟨(fun _ h => by cases h), (fun _ h => by cases h), (fun _ h => by cases h), ?_⟩, hvalid⟩
  rw [IngestSession.opened, List.append_nil]
  exact hunique

theorem deadLetter_ready (env : IngestEnv) (now : Stamp) (raw : Option RawEvent) (error : String)
    (detail : Option String) (h : Ready env.columns s) :
    ∃ s' added, deadLetter env now raw error detail s = .ok ((), s') ∧ DeadLetters added ∧
      Ready env.columns s' ∧ s'.intake = s.intake.append added ∧
      s'.store.monitor = s.store.monitor := by
  have hflush : s.flush env.columns = .ok s.flushed := if_pos h.flushable
  have hready : Ready env.columns s.flushed := ⟨flushable_flushed h.flushable, h.valid⟩
  have hnone : s.flushed.intake = s.intake.append .none := by
    rw [flushed_intake, Intake.append_none]
  rw [deadLetter, IngestM.change, hflush]
  dsimp only [Except.map]
  cases hrow : deadLetterRow env.toEventEnv now raw error detail with
  | error e => exact ⟨_, .none, rfl, deadLetters_none, hready, hnone, rfl⟩
  | ok row =>
      dsimp only
      split_ifs with hcol
      · refine ⟨_, ⟨[row], [], []⟩, rfl, ⟨?_, rfl, rfl⟩, ⟨hready.flushable, hready.valid⟩, ?_, rfl⟩
        · intro r hr
          rw [List.mem_singleton.mp hr]
          exact deadLetterRow_ok hrow
        · exact Intake.append_none _
      · exact ⟨_, .none, rfl, deadLetters_none, hready, hnone, rfl⟩

end Session

/-! ### One event -/

/-- What `_process_event` reads from an event. -/
structure Reading where
  severity : String
  ts : Stamp
  metricName : Option String
  value : Option Num

/-- Every part of the event can be read, and a metric has a name. -/
structure Reads (env : EventEnv) (now : Stamp) (e : RawEvent) (r : Reading) : Prop where
  severity : env.lowered ((e.get "severity").pyOr (.str "warning")) = .ok r.severity
  ts : coerceTs env now (e.get "ts") = .ok r.ts
  name : (if e.get "kind" = .str "metric" then metricNameOf env e else .ok none) = .ok r.metricName
  named : e.get "kind" = .str "metric" → r.metricName.isSome = true
  value : toFloat env e.value = .ok r.value

/-- The session with the row and the sample of the event. -/
def IngestSession.stored (env : EventEnv) (e : RawEvent) (fingerprint : Json) (r : Reading)
    (s : IngestSession) : IngestSession :=
  persistMetricSample env e r.ts fingerprint r.value r.metricName
    (s.add ⟨[inboxRow env e r.ts r.value r.severity fingerprint], [], []⟩)

section Event

variable {env : IngestEnv} {turn : Turn} {e e' : RawEvent} {s : IngestSession} {r : Reading}
  {fingerprint : Json}

/-- **The evaluation returns**, for an event with an entity. -/
theorem evaluateRaw_returns (turn : Turn) {entityId : String} (hentity : e.entityId = .str entityId)
    (h : Ready env.columns s) :
    ∃ s', evaluateRaw env turn e s = .ok ((), s') ∧ Ready env.columns s' ∧
      RulesVisit env.channels env.toPyText (monEvent env.toEventEnv e entityId) turn.readings
        (turn.order.rules s.store.monitor.db.enabledRules) s.store.monitor s'.store.monitor := by
  obtain ⟨out, m', halone, hvisit⟩ := evaluateEvent_visit env.channels env.toPyText turn.order
    (monEvent env.toEventEnv e entityId) turn.readings h.valid
  set s₁ := s.add ⟨[], [], [e.origin]⟩ with hs₁
  have hflush₁ : s₁.Flushable env.columns := by
    obtain ⟨hinbox, hsamples, hdaily⟩ := h.flushable
    refine ⟨fun r hr => hinbox r ?_, fun x hx => hsamples x ?_, hdaily⟩
    · simpa [hs₁, IngestSession.add, Intake.append] using hr
    · simpa [hs₁, IngestSession.add, Intake.append] using hx
  obtain ⟨s', hrun, rfl, hflush⟩ := alertRun_alone _ hflush₁
    (show AlertProg.alone _ s₁.store.monitor = _ from halone)
  refine ⟨s', ?_, ⟨hflush, hvisit.valid⟩, hvisit⟩
  rw [evaluateRaw, bind_of_ok (show IngestM.change _ s = .ok ((), s₁) from rfl), hentity]
  exact bind_of_ok hrun

theorem attempt_bind {α β : Type} (a : α) (k : α → IngestM β) (s : IngestSession) :
    (IngestM.attempt (.ok a) >>= k) s = k a s :=
  rfl

theorem stored_monitor (env : EventEnv) (e : RawEvent) (fingerprint : Json) (r : Reading)
    (s : IngestSession) : (s.stored env e fingerprint r).store.monitor = s.store.monitor := by
  rw [stored]
  cases r.value with
  | none => rfl
  | some value =>
      cases r.metricName with
      | none => rfl
      | some name =>
          rw [persistMetricSample, upsertDaily]
          split_ifs <;> rfl

theorem takeEvent_reads (hr : Reads env.toEventEnv turn.now e r) :
    takeEvent env turn e fingerprint s =
      (evaluateRaw env turn e >>= fun _ => pure .taken)
        (s.stored env.toEventEnv e fingerprint r) := by
  have hnamed : ¬ (decide (e.get "kind" = .str "metric") && r.metricName.isNone) = true := by
    intro hc
    rw [Bool.and_eq_true, decide_eq_true_eq] at hc
    have hsome := hr.named hc.1
    rw [Option.isNone_iff_eq_none.mp hc.2] at hsome
    cases hsome
  have hname := hr.name
  rw [takeEvent, hr.severity, attempt_bind, hr.ts, attempt_bind]
  simp only [decide_eq_true_eq]
  rw [hname, attempt_bind, if_neg hnamed, hr.value, attempt_bind]
  rfl

theorem processEvent_lookup (hvalid : validateEvent env.toEventEnv e = .ok none)
    (hnamed : namedEvent env.toEventEnv e = .ok e')
    (hfingerprint : fingerprintOf env.toEventEnv e' = .ok fingerprint) :
    processEvent env turn (some e) s =
      if (e'.key env.toEventEnv).any s.knows then .ok (.duplicate, s)
      else takeEvent env turn e' fingerprint s := by
  rw [processEvent, hvalid, attempt_bind]
  dsimp only
  rw [hnamed, attempt_bind, hfingerprint, attempt_bind]
  refine (bind_of_ok (show (get : IngestM IngestSession) s = .ok (s, s) from rfl)).trans ?_
  split_ifs <;> rfl

/-- **An event that is taken.** It is valid, every part of it can be read, it has an entity, its key
is not known, and the database takes what it stores. -/
theorem processEvent_taken (hvalid : validateEvent env.toEventEnv e = .ok none)
    (hnamed : namedEvent env.toEventEnv e = .ok e')
    (hfingerprint : fingerprintOf env.toEventEnv e' = .ok fingerprint)
    (hr : Reads env.toEventEnv turn.now e' r) {entityId : String}
    (hentity : e'.entityId = .str entityId)
    (hnew : (e'.key env.toEventEnv).any s.knows = false)
    (hready : Ready env.columns (s.stored env.toEventEnv e' fingerprint r)) :
    ∃ s', processEvent env turn (some e) s = .ok (.taken, s') ∧ Ready env.columns s' ∧
      RulesVisit env.channels env.toPyText (monEvent env.toEventEnv e' entityId) turn.readings
        (turn.order.rules s.store.monitor.db.enabledRules) s.store.monitor s'.store.monitor := by
  obtain ⟨s', heval, hready', hvisit⟩ := evaluateRaw_returns turn hentity hready
  rw [stored_monitor] at hvisit
  refine ⟨s', ?_, hready', hvisit⟩
  rw [processEvent_lookup hvalid hnamed hfingerprint, hnew, if_neg Bool.false_ne_true,
    takeEvent_reads hr]
  exact bind_of_ok heval

end Event

end LarkPlat
