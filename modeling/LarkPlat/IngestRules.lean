import LarkPlat.EventIntake

/-!
# Invariants of Ingest

A property of sessions that every change keeps is kept by every call of `ingest`, wherever the call
stops: a row is added, a sample is stored with its daily row, the engine writes its own tables, the
session flushes and commits, and a dead letter is written. The traversal of the programs is made
once, for every such property.

## Main results

* `SessionStable.ingestEvents`: the loop of a call keeps the property.
* `SessionStable.ingest_ends`: a call ends in a session that is committed and has the property.
-/

namespace LarkPlat

open Programs LockedTable Outcomes IngestSession

/-- Every change of a session keeps `P`, and where a call raises in a session with `P`, `E`
holds. -/
structure SessionStable (columns : Columns) (P : IngestSession → Prop)
    (E : IngestFailure → Prop) : Prop where
  raise : ∀ s e, P s → E ⟨e, s.committed⟩
  row : ∀ s row, P s → P (s.add ⟨[row], [], []⟩)
  evaluated : ∀ s origin, P s → P (s.add ⟨[], [], [origin]⟩)
  sample : ∀ s x, P s → P ((s.add ⟨[], [x], []⟩).upsertDaily x.dailyRow x.value)
  engine : ∀ s m, P s → P { s with store := { s.store with monitor := m } }
  flush : ∀ s, P s → s.Flushable columns → P s.flushed
  commit : ∀ s, P s → s.Flushable columns → P { s.flushed with committed := s.flushed.store }
  dead : ∀ s row, P s →
    P { s with store := { s.store with intake := s.store.intake.append ⟨[row], [], []⟩ } }

namespace SessionStable

variable {env : IngestEnv} {P : IngestSession → Prop} {E : IngestFailure → Prop} {α : Type}

theorem changing {f : IngestSession → IngestSession} (hf : ∀ s, P s → P (f s)) :
    Maintains P E (IngestM.change fun s => .ok (f s)) :=
  ⟨fun s hs => hf s hs⟩

section Statements

variable (h : SessionStable env.columns P E)

include h

theorem raised (e : PyErr) : Maintains P E (IngestM.raise e : IngestM α) :=
  ⟨fun s hs => h.raise s e hs⟩

theorem attempt (x : Except PyErr α) : Maintains P E (IngestM.attempt x) := by
  cases x with
  | ok a => exact maintains_pure a
  | error e => exact h.raised e

theorem flushing : Maintains P E (IngestM.change (·.flush env.columns)) where
  ends s hs := by
    rw [IngestM.change]
    rcases s.flush_cases env.columns with ⟨hf, hr⟩ | hr <;> rw [hr]
    · exact h.flush s hs hf
    · exact h.raise s _ hs

theorem committing : Maintains P E (IngestM.change (·.commit env.columns)) where
  ends s hs := by
    rw [IngestM.change]
    rcases s.commit_cases env.columns with ⟨hf, hr⟩ | hr <;> rw [hr]
    · exact h.commit s hs hf
    · exact h.raise s _ hs

theorem serveAlert {β : Type} (st : Stmt alertSchema β) {s : IngestSession} (hs : P s) :
    Ends (serveAlert env.columns β st s) (fun _ => P) E := by
  rw [LarkPlat.serveAlert]
  cases Monitor.serve β st s.store.monitor with
  | error e => exact h.raise s e hs
  | ok r =>
      have hengine := h.engine s r.2 hs
      set s₁ : IngestSession := { s with store := { s.store with monitor := r.2 } }
      have hflush := h.flushing.ends s₁ hengine
      have hcommit := h.committing.ends s₁ hengine
      change Ends ((settle env.columns st s₁).map _) _ _
      rw [IngestM.change] at hflush hcommit
      cases st with
      | insert | log =>
          rw [settle]
          cases hr : s₁.flush env.columns <;> rw [hr] at hflush <;> exact hflush
      | send | commit =>
          rw [settle]
          cases hr : s₁.commit env.columns <;> rw [hr] at hcommit <;> exact hcommit
      | select | cas | write | raise => exact hengine

theorem deadLetter (now : Stamp) (raw : Option RawEvent) (error : String)
    (detail : Option String) : Maintains P E (deadLetter env now raw error detail) where
  ends s hs := by
    rw [LarkPlat.deadLetter, IngestM.change]
    rcases s.flush_cases env.columns with ⟨hf, hr⟩ | hr <;> rw [hr]
    swap
    · exact h.raise s _ hs
    have hflushed := h.flush s hs hf
    dsimp only [Except.map]
    cases deadLetterRow env.toEventEnv now raw error detail with
    | error e => exact hflushed
    | ok row =>
        dsimp only
        split_ifs
        · exact h.dead _ row hflushed
        · exact hflushed

end Statements

/-! ### The programs -/

section Programs

variable (h : SessionStable env.columns P E) (turn : Turn)

include h

theorem persist (e : RawEvent) (ts : Stamp) (fingerprint : Json) (value : Option Num)
    (metricName : Option String) {s : IngestSession} (hs : P s) :
    P (persistMetricSample env.toEventEnv e ts fingerprint value metricName s) := by
  cases value with
  | none => exact hs
  | some value =>
      cases metricName with
      | none => exact hs
      | some metricName => exact h.sample s _ hs

theorem evaluateRaw (e : RawEvent) : Maintains P E (evaluateRaw env turn e) := by
  refine (changing fun s => h.evaluated s e.origin).bind fun _ => ?_
  cases e.entityId with
  | str entityId =>
      refine Maintains.bind ⟨fun s hs => ?_⟩ fun _ => maintains_pure _
      exact Prog.run_ends (fun st s => h.serveAlert st) _ hs
  | null | bool | int | float | arr | obj =>
      refine maintains_get.bind fun s => ?_
      split_ifs
      · exact maintains_pure _
      · exact h.raised _

theorem takeEvent (e : RawEvent) (fingerprint : Json) :
    Maintains P E (takeEvent env turn e fingerprint) := by
  refine (h.attempt _).bind fun severity => (h.attempt _).bind fun ts =>
    (h.attempt _).bind fun metricName => ?_
  split_ifs
  · exact (h.deadLetter _ _ _ _).bind fun _ => maintains_pure _
  · refine (h.attempt _).bind fun value => (changing fun s => h.row s _).bind fun _ => ?_
    refine (changing (P := P) fun s => h.persist e ts fingerprint value metricName).bind fun _ => ?_
    exact (h.evaluateRaw turn e).bind fun _ => maintains_pure _

theorem processEvent (raw : Option RawEvent) : Maintains P E (processEvent env turn raw) := by
  cases raw with
  | none => exact h.raised _
  | some e =>
      refine (h.attempt _).bind fun checked => ?_
      cases checked with
      | some error => exact maintains_pure _
      | none =>
          refine (h.attempt _).bind fun e => (h.attempt _).bind fun fingerprint =>
            maintains_get.bind fun s => ?_
          split_ifs
          · exact maintains_pure _
          · exact h.takeEvent turn e fingerprint

theorem ingestEvent (raw : Option RawEvent) : Maintains P E (ingestEvent env turn raw) := by
  refine (h.processEvent turn raw).bind fun out => ?_
  cases out with
  | duplicate => exact maintains_pure _
  | taken => exact maintains_pure _
  | rejected error deadLettered =>
      cases deadLettered with
      | true => exact maintains_pure _
      | false =>
          dsimp only
          split_ifs
          · exact (h.deadLetter _ _ _ _).bind fun _ => maintains_pure _
          · exact maintains_pure _

end Programs

/-! ### Calls -/

/-- **The loop** keeps the property. -/
theorem ingestEvents (h : SessionStable env.columns P E) (turn : ℕ → Turn) (i : ℕ)
    (events : List (Option RawEvent)) : Maintains P E (ingestEvents env turn i events) := by
  induction events generalizing i with
  | nil => exact maintains_pure _
  | cons raw rest ih =>
      exact (h.ingestEvent (turn i) raw).bind fun _ => (ih (i + 1)).bind fun _ => maintains_pure _

theorem commit_ends (h : SessionStable env.columns P E) {s : IngestSession} (hs : P s) :
    Ends (IngestM.change (·.commit env.columns) s)
      (fun _ s' => P s' ∧ s'.committed = s'.store) E := by
  rw [IngestM.change]
  rcases s.commit_cases env.columns with ⟨hf, hr⟩ | hr <;> rw [hr]
  · exact ⟨h.commit s hs hf, rfl⟩
  · exact h.raise s _ hs

/-- **A call.** -/
theorem ingest_ends (h : SessionStable env.columns P E) (call : IngestCall) {s : IngestSession}
    (hs : P s) :
    Ends (ingest env call s) (fun _ s' => P s' ∧ s'.committed = s'.store) E := by
  rw [ingest]
  by_cases hf : (!call.featureEnabled) = true
  · rw [if_pos hf]
    exact h.raise s _ hs
  rw [if_neg hf]
  cases call.adapter with
  | none => exact h.raise s _ hs
  | some adapter =>
      dsimp only
      by_cases he : adapter.enabled ≠ 1
      · rw [if_pos he]
        exact h.raise s _ hs
      rw [if_neg he]
      refine ends_bind ((h.attempt _).ends s hs) fun events s₁ hs₁ => ?_
      split_ifs
      · refine ends_bind ((h.deadLetter _ _ _ _).ends s₁ hs₁) fun _ s₂ hs₂ => ?_
        exact ends_bind (h.commit_ends hs₂) fun _ _ h => h
      · refine ends_bind ((h.ingestEvents call.turn 0 events).ends s₁ hs₁) fun _ s₂ hs₂ => ?_
        exact ends_bind (h.commit_ends hs₂) fun _ _ h => h

end SessionStable

end LarkPlat
