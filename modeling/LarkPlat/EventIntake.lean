import LarkPlat.Ingest

/-!
# What an Event Leaves

`ingest` on one event, whatever the session is: it raises, or it leaves a part of an `Intake` behind
that depends on its outcome. A duplicate leaves nothing, a rejected event leaves dead letters only,
and an event that is taken leaves its row, at most one sample, and one evaluation. Whether an event
is taken is decided by the rows that the session has flushed.

The alert engine adds nothing; it may commit what the event has left. So what is committed is what
was committed before, or all that the session has added.

## Main results

* `alertRun_ends`: a program of the alert engine adds nothing.
* `ingestEvent_ends`: one event.
* `ingest_holds`: what every event of a call keeps, the call keeps.
-/

namespace LarkPlat

open Programs LockedTable Outcomes

/-! ### The session -/

namespace IngestSession

variable {s s' s'' : IngestSession} {a b : Intake}

/-- The session has added these rows, and has committed nothing or all. -/
structure Grows (s s' : IngestSession) (added : Intake) : Prop where
  intake : s'.intake = s.intake.append added
  committed : s'.committed = s.committed ∨ s'.committed.intake = s'.intake

theorem grows_self (s : IngestSession) : s.Grows s .none :=
  ⟨(Intake.append_none _).symm, Or.inl rfl⟩

theorem Grows.trans_none (h : s.Grows s' a) (h' : s'.Grows s'' .none) : s.Grows s'' a where
  intake := by rw [h'.intake, Intake.append_none, h.intake]
  committed := by
    have hsame : s''.intake = s'.intake := by rw [h'.intake, Intake.append_none]
    rcases h'.committed with hc | hc
    · rw [hc, hsame]
      exact h.committed
    · exact Or.inr hc

theorem Grows.trans (h : s.Grows s' a) (hc : s'.committed = s.committed) (h' : s'.Grows s'' b) :
    s.Grows s'' (a.append b) where
  intake := by rw [h'.intake, h.intake, Intake.append_assoc]
  committed := by
    rw [← hc]
    exact h'.committed

@[simp] theorem opened_intake (st : MonStore) : (opened st).intake = st.intake :=
  Intake.append_none _

@[simp] theorem flushed_intake (s : IngestSession) : s.flushed.intake = s.intake :=
  Intake.append_none _

@[simp] theorem add_intake (s : IngestSession) (added : Intake) :
    (s.add added).intake = s.intake.append added :=
  (Intake.append_assoc _ _ _).symm

@[simp] theorem upsertDaily_intake (s : IngestSession) (row : DailyRow) (value : Num) :
    (s.upsertDaily row value).intake = s.intake := by
  rw [upsertDaily]
  split_ifs <;> rfl

@[simp] theorem upsertDaily_committed (s : IngestSession) (row : DailyRow) (value : Num) :
    (s.upsertDaily row value).committed = s.committed := by
  rw [upsertDaily]
  split_ifs <;> rfl

variable (columns : Columns)

theorem flush_cases (s : IngestSession) :
    (s.Flushable columns ∧ s.flush columns = .ok s.flushed) ∨
      s.flush columns = .error ⟨.integrityError, s.committed⟩ := by
  rw [flush]
  split_ifs with h
  · exact Or.inl ⟨h, rfl⟩
  · exact Or.inr rfl

theorem commit_cases (s : IngestSession) :
    (s.Flushable columns ∧
        s.commit columns = .ok { s.flushed with committed := s.flushed.store }) ∨
      s.commit columns = .error ⟨.integrityError, s.committed⟩ := by
  rw [commit]
  rcases s.flush_cases columns with ⟨hf, h⟩ | h
  · rw [h]
    exact Or.inl ⟨hf, rfl⟩
  · rw [h]
    exact Or.inr rfl

theorem grows_flushed (s : IngestSession) : s.Grows s.flushed .none :=
  ⟨by rw [flushed_intake, Intake.append_none], Or.inl rfl⟩

theorem grows_committed (s : IngestSession) :
    s.Grows { s.flushed with committed := s.flushed.store } .none where
  intake := by
    rw [Intake.append_none]
    exact flushed_intake s
  committed := Or.inr (Intake.append_none _).symm

end IngestSession

open IngestSession

/-! ### The alert engine -/

section Engine

variable {s : IngestSession} (columns : Columns)

theorem settle_ends {β : Type} (st : Stmt alertSchema β) (s : IngestSession) (x : β) :
    Ends ((settle columns st s).map fun s => (x, s)) (fun _ s' => s.Grows s' .none)
      fun f => f.committed = s.committed := by
  have hflush : Ends ((s.flush columns).map fun s => (x, s)) (fun _ s' => s.Grows s' .none)
      fun f => f.committed = s.committed := by
    rcases s.flush_cases columns with ⟨-, h⟩ | h <;> rw [h]
    · exact s.grows_flushed
    · rfl
  have hcommit : Ends ((s.commit columns).map fun s => (x, s)) (fun _ s' => s.Grows s' .none)
      fun f => f.committed = s.committed := by
    rcases s.commit_cases columns with ⟨-, h⟩ | h <;> rw [h]
    · exact s.grows_committed
    · rfl
  cases st with
  | insert | log => exact hflush
  | send | commit => exact hcommit
  | select | cas | write | raise => exact s.grows_self

theorem serveAlert_ends {β : Type} (st : Stmt alertSchema β) (s : IngestSession) :
    Ends (serveAlert columns β st s) (fun _ s' => s.Grows s' .none)
      fun f => f.committed = s.committed := by
  rw [serveAlert]
  cases Monitor.serve β st s.store.monitor with
  | error e => exact rfl
  | ok r =>
      set s₁ : IngestSession := { s with store := { s.store with monitor := r.2 } }
      exact (settle_ends columns st s₁ r.1).mono (fun _ s' h => ⟨h.intake, h.committed⟩)
        fun f h => h

/-- **The engine adds nothing.** Where a program of it raises, nothing is committed or all that was
added before. -/
theorem alertRun_ends {α : Type} (p : AlertProg α) (s : IngestSession) :
    Ends (p.run (serveAlert columns) s) (fun _ s' => s.Grows s' .none)
      fun f => f.committed = s.committed ∨ f.committed.intake = s.intake := by
  refine Prog.run_ends (fun st s' h => ?_) p s.grows_self
  have hsame : s'.intake = s.intake := by rw [h.intake, Intake.append_none]
  refine (serveAlert_ends columns st s').mono (fun _ _ h' => h.trans_none h') fun f hf => ?_
  rw [hf]
  rcases h.committed with hc | hc
  · exact Or.inl hc
  · exact Or.inr (hc.trans hsame)

end Engine

/-! ### The steps of the pipeline -/

section Steps

variable {α : Type} {s : IngestSession} {E : IngestFailure → Prop}

theorem ends_attempt {Q : α → IngestSession → Prop} (x : Except PyErr α)
    (hok : ∀ a, x = .ok a → Q a s) (herr : ∀ e, E ⟨e, s.committed⟩) :
    Ends (IngestM.attempt x s) Q E := by
  cases x with
  | ok a => exact hok a rfl
  | error e => exact herr e

theorem ends_change {Q : Unit → IngestSession → Prop} (f : IngestSession → IngestSession)
    (h : Q () (f s)) : Ends (IngestM.change (fun s => .ok (f s)) s) Q E :=
  h

/-- The rows are dead letters. -/
structure DeadLetters (added : Intake) : Prop where
  inbox : ∀ r ∈ added.inbox, r.status = .deadLetter ∧ r.eventKey = none ∧ r.origin = none
  samples : added.samples = []
  evaluated : added.evaluated = []

theorem deadLetters_none : DeadLetters .none := ⟨(fun _ h => by cases h), rfl, rfl⟩

theorem deadLetterRow_ok {env : EventEnv} {now : Stamp} {raw : Option RawEvent} {error : String}
    {detail : Option String} {row : InboxRow}
    (h : deadLetterRow env now raw error detail = .ok row) :
    row.status = .deadLetter ∧ row.eventKey = none ∧ row.origin = none := by
  unfold deadLetterRow at h
  obtain ⟨ts, -, h⟩ := bind_eq_ok.mp h
  obtain ⟨value, -, h⟩ := bind_eq_ok.mp h
  obtain rfl := Except.ok.inj h
  exact ⟨rfl, rfl, rfl⟩

theorem deadLetter_ends (env : IngestEnv) (now : Stamp) (raw : Option RawEvent) (error : String)
    (detail : Option String) (s : IngestSession) :
    Ends (deadLetter env now raw error detail s)
      (fun _ s' => ∃ added, DeadLetters added ∧ s.Grows s' added)
      fun f => f.committed = s.committed := by
  rw [deadLetter, IngestM.change]
  rcases s.flush_cases env.columns with ⟨-, h⟩ | h
  swap
  · rw [h]
    exact rfl
  rw [h]
  dsimp only [Except.map]
  have hnone : ∃ added, DeadLetters added ∧ s.Grows s.flushed added :=
    ⟨.none, deadLetters_none, s.grows_flushed⟩
  cases hrow : deadLetterRow env.toEventEnv now raw error detail with
  | error e => exact hnone
  | ok row =>
      dsimp only
      split_ifs with hcol
      · refine ⟨⟨[row], [], []⟩, ⟨?_, rfl, rfl⟩, ?_, Or.inl rfl⟩
        · intro r hr
          rw [List.mem_singleton.mp hr]
          exact deadLetterRow_ok hrow
        · exact (Intake.append_none _).trans rfl
      · exact hnone

end Steps

/-! ### One event -/

/-- What an event leaves, processed in a session, by its outcome. -/
inductive Leaves (env : IngestEnv) (s : IngestSession) :
    Option RawEvent → EventOutcome → Intake → Prop where
  | rejected (raw : Option RawEvent) (error : String) (deadLettered : Bool) {added : Intake}
      (h : DeadLetters added) : Leaves env s raw (.rejected error deadLettered) added
  | duplicate {e : RawEvent} {key : String} (hkey : e.key env.toEventEnv = some key)
      (hknown : s.knows key = true) : Leaves env s (some e) .duplicate .none
  | taken {e : RawEvent} (hnew : ∀ key, e.key env.toEventEnv = some key → s.knows key = false)
      {row : InboxRow} (horigin : row.origin = some e.origin)
      (hkey : row.eventKey = e.key env.toEventEnv) (hstatus : row.status = .pending)
      (hraw : row.raw = .field (e.get "raw"))
      {samples : List MetricSample} (hone : samples.length ≤ 1)
      (hsamples : ∀ x ∈ samples, x.origin = e.origin) :
      Leaves env s (some e) .taken ⟨[row], samples, [e.origin]⟩

section Event

variable (env : IngestEnv) (turn : Turn) {e e' : RawEvent} {s : IngestSession}

/-- An event is left as it is, or the name of the metric goes to its labels. -/
theorem namedEvent_cases {env : EventEnv} (h : namedEvent env e = .ok e') :
    (e' = e ∧ (e.get "kind" = .str "metric" → metricNameOf env e = .ok none)) ∨
      ∃ name labels, metricNameOf env e = .ok (some name) ∧
        e' = ⟨Json.setField e.fields "labels"
          (.obj (Json.setField labels "metric_name" (.str name))), e.value⟩ := by
  rw [namedEvent] at h
  split_ifs at h with hkind
  · rw [normalizeMetricName] at h
    obtain ⟨found, hfound, h⟩ := bind_eq_ok.mp h
    cases found with
    | none => exact .inl ⟨(Except.ok.inj h).symm, fun _ => hfound⟩
    | some name =>
        obtain ⟨labels, -, h⟩ := bind_eq_ok.mp h
        exact .inr ⟨name, labels, hfound, (Except.ok.inj h).symm⟩
  · exact .inl ⟨(Except.ok.inj h).symm, fun hc => absurd hc hkind⟩

theorem namedEvent_get (h : namedEvent env.toEventEnv e = .ok e') {k : String} (hk : k ≠ "labels") :
    e'.get k = e.get k := by
  rcases namedEvent_cases h with ⟨rfl, -⟩ | ⟨name, labels, -, rfl⟩
  · rfl
  · exact Json.field_setField_ne _ hk

theorem namedEvent_origin (h : namedEvent env.toEventEnv e = .ok e') : e'.origin = e.origin := by
  rw [RawEvent.origin, RawEvent.origin, namedEvent_get env h (by decide),
    namedEvent_get env h (by decide)]

theorem namedEvent_key (h : namedEvent env.toEventEnv e = .ok e') :
    e'.key env.toEventEnv = e.key env.toEventEnv := by
  rw [RawEvent.key, RawEvent.key, namedEvent_get env h (by decide),
    namedEvent_get env h (by decide)]

theorem persistMetricSample_grows (e : RawEvent) (ts : Stamp) (fingerprint : Json)
    (value : Option Num) (metricName : Option String) (s : IngestSession) :
    (persistMetricSample env.toEventEnv e ts fingerprint value metricName s).committed =
        s.committed ∧
      ∃ samples, samples.length ≤ 1 ∧ (∀ x ∈ samples, x.origin = e.origin) ∧
        s.Grows (persistMetricSample env.toEventEnv e ts fingerprint value metricName s)
          ⟨[], samples, []⟩ := by
  have hnone : ∃ samples : List MetricSample, samples.length ≤ 1 ∧
      (∀ x ∈ samples, x.origin = e.origin) ∧ s.Grows s ⟨[], samples, []⟩ :=
    ⟨[], Nat.zero_le _, (fun _ h => by cases h), s.grows_self⟩
  cases value with
  | none => exact ⟨rfl, hnone⟩
  | some value =>
      cases metricName with
      | none => exact ⟨rfl, hnone⟩
      | some metricName =>
          set sample := metricSample env.toEventEnv e ts fingerprint value metricName
          rw [persistMetricSample]
          refine ⟨by rw [upsertDaily_committed]; rfl, [sample], le_refl _, ?_, ?_, Or.inl ?_⟩
          · intro x hx
            rw [List.mem_singleton.mp hx]
            rfl
          · rw [upsertDaily_intake, add_intake]
          · rw [upsertDaily_committed]
            rfl

theorem evaluateRaw_ends (e : RawEvent) (s : IngestSession) :
    Ends (evaluateRaw env turn e s) (fun _ s' => s.Grows s' ⟨[], [], [e.origin]⟩)
      fun f => f.committed = s.committed ∨
        f.committed.intake = s.intake.append ⟨[], [], [e.origin]⟩ := by
  set s₁ := s.add ⟨[], [], [e.origin]⟩ with hs₁
  have hgrows : s.Grows s₁ ⟨[], [], [e.origin]⟩ := ⟨add_intake _ _, Or.inl rfl⟩
  rw [evaluateRaw]
  refine ends_bind (Q := fun _ s' => s' = s₁) (ends_change _ rfl) fun _ s' hs' => ?_
  subst hs'
  cases e.entityId with
  | str entityId =>
      refine ends_bind ((alertRun_ends env.columns _ s₁).mono (fun _ _ h => h) fun f hf => ?_)
        fun _ s' h => hgrows.trans_none h
      rw [← add_intake]
      exact hf
  | null | bool | int | float | arr | obj =>
      refine ends_bind (Q := fun _ s' => s' = s₁) (ends_get rfl) fun x s' hs' => ?_
      subst hs'
      split_ifs
      · exact hgrows
      · exact Or.inl rfl

theorem takeEvent_ends (fingerprint : Json)
    (hnew : ∀ key, e.key env.toEventEnv = some key → s.knows key = false) :
    Ends (takeEvent env turn e fingerprint s)
      (fun out s' => (∃ added, Leaves env s (some e) out added ∧ s.Grows s' added) ∧
        ∀ error, out ≠ .rejected error false)
      fun f => f.committed = s.committed ∨
        ∃ added, Leaves env s (some e) .taken added ∧
          f.committed.intake = s.intake.append added := by
  rw [takeEvent]
  refine ends_bind (Q := fun _ s' => s' = s) (ends_attempt _ (fun _ _ => rfl) fun _ => Or.inl rfl)
    fun severity s' hs' => ?_
  subst hs'
  refine ends_bind (Q := fun _ s'' => s'' = s')
    (ends_attempt _ (fun _ _ => rfl) fun _ => Or.inl rfl)
    fun ts s'' hs'' => ?_
  subst hs''
  refine ends_bind (Q := fun _ s' => s' = s'') (ends_attempt _ (fun _ _ => rfl) fun _ => Or.inl rfl)
    fun metricName s' hs' => ?_
  subst hs'
  split_ifs with hname
  · refine ends_bind ((deadLetter_ends env turn.now (some e) _ none s').mono (fun _ _ h => h)
      fun _ hf => Or.inl hf) fun _ s₁ h => ?_
    obtain ⟨added, hdead, hgrows⟩ := h
    exact ⟨⟨added, .rejected _ _ _ hdead, hgrows⟩, fun _ h => by cases h⟩
  refine ends_bind (Q := fun _ s'' => s'' = s')
    (ends_attempt _ (fun _ _ => rfl) fun _ => Or.inl rfl)
    fun value s'' hs'' => ?_
  subst hs''
  set row := inboxRow env.toEventEnv e ts value severity fingerprint
  set s₁ := s''.add ⟨[row], [], []⟩
  refine ends_bind (Q := fun _ s' => s' = s₁) (ends_change _ rfl) fun _ s' hs' => ?_
  subst hs'
  set s₂ := persistMetricSample env.toEventEnv e ts fingerprint value metricName s₁
  obtain ⟨hcommitted, samples, hone, hsamples, hgrows⟩ :=
    persistMetricSample_grows env e ts fingerprint value metricName s₁
  refine ends_bind (Q := fun _ s' => s' = s₂) (ends_change _ rfl) fun _ s' hs' => ?_
  subst hs'
  have hleaves : Leaves env s'' (some e) .taken ⟨[row], samples, [e.origin]⟩ :=
    .taken hnew rfl rfl rfl rfl hone hsamples
  have hrow : s''.Grows s₁ ⟨[row], [], []⟩ := ⟨add_intake _ _, Or.inl rfl⟩
  have hboth : s''.Grows s₂ ⟨[row], samples, []⟩ := by
    have h := hrow.trans rfl hgrows
    exact h
  refine ends_bind ((evaluateRaw_ends env turn e s₂).mono (fun _ _ h => h) fun f hf => ?_)
    fun _ s' h => ⟨⟨_, hleaves, ?_⟩, fun _ h => by cases h⟩
  · rcases hf with hf | hf
    · exact Or.inl (hf.trans hcommitted)
    · refine Or.inr ⟨_, hleaves, ?_⟩
      rw [hf, hboth.intake, Intake.append_assoc]
      simp [Intake.append]
  · have h' := hboth.trans hcommitted h
    simpa [Intake.append] using h'

/-- `_process_event`; an event that is rejected without a dead letter leaves the session as it
was. -/
theorem processEvent_ends (raw : Option RawEvent) (s : IngestSession) :
    Ends (processEvent env turn raw s)
      (fun out s' => (∃ added, Leaves env s raw out added ∧ s.Grows s' added) ∧
        ∀ error, out = .rejected error false → s' = s)
      fun f => f.committed = s.committed ∨
        ∃ added, Leaves env s raw .taken added ∧ f.committed.intake = s.intake.append added := by
  cases raw with
  | none => exact Or.inl rfl
  | some e =>
      rw [processEvent]
      refine ends_bind (Q := fun _ s' => s' = s)
        (ends_attempt _ (fun _ _ => rfl) fun _ => Or.inl rfl) fun checked s' hs' => ?_
      subst hs'
      cases checked with
      | some error =>
          exact ⟨⟨.none, .rejected _ _ _ deadLetters_none, s'.grows_self⟩, fun _ _ => rfl⟩
      | none =>
          refine ends_bind (Q := fun e' s'' => namedEvent env.toEventEnv e = .ok e' ∧ s'' = s')
            (ends_attempt _ (fun _ h => ⟨h, rfl⟩) fun _ => Or.inl rfl) fun e' s'' hs'' => ?_
          obtain ⟨hnamed, rfl⟩ := hs''
          refine ends_bind (Q := fun _ s' => s' = s'')
            (ends_attempt _ (fun _ _ => rfl) fun _ => Or.inl rfl) fun fingerprint s' hs' => ?_
          subst hs'
          refine ends_bind (Q := fun x s'' => x = s' ∧ s'' = s') (ends_get ⟨rfl, rfl⟩)
            fun x s'' hs'' => ?_
          rw [hs''.1, hs''.2]
          have horigin := namedEvent_origin env hnamed
          have hkey := namedEvent_key env hnamed
          split_ifs with hknown
          · obtain ⟨key, hk, hs⟩ := (Option.any_eq_true _ _).mp hknown
            exact ⟨⟨.none, .duplicate (hkey ▸ hk) hs, s'.grows_self⟩, fun _ h => by cases h⟩
          · have hnew : ∀ key, e'.key env.toEventEnv = some key → s'.knows key = false := by
              intro key hk
              rw [hk] at hknown
              exact Bool.eq_false_iff.mpr hknown
            have hleaves : ∀ out added, Leaves env s' (some e') out added →
                Leaves env s' (some e) out added := by
              intro out added h
              cases h with
              | rejected _ _ _ hd => exact .rejected _ _ _ hd
              | duplicate hk hs => exact .duplicate (hkey ▸ hk) hs
              | taken hn ho hk hst hraw hone hsamples =>
                  rw [horigin] at ho hsamples ⊢
                  rw [namedEvent_get env hnamed (by decide)] at hraw
                  exact .taken (hkey ▸ hn) ho (hk.trans hkey) hst hraw hone hsamples
            refine (takeEvent_ends env turn fingerprint hnew).mono ?_ ?_
            · rintro out s₁ ⟨⟨added, h, hg⟩, hpending⟩
              exact ⟨⟨added, hleaves _ _ h, hg⟩, fun error ho => absurd ho (hpending error)⟩
            · rintro f (hf | ⟨added, h, hf⟩)
              · exact Or.inl hf
              · exact Or.inr ⟨added, hleaves _ _ h, hf⟩

/-- **One event** of a call. -/
theorem ingestEvent_ends (raw : Option RawEvent) (s : IngestSession) :
    Ends (ingestEvent env turn raw s)
      (fun out s' => ∃ added, Leaves env s raw out added ∧ s.Grows s' added)
      fun f => f.committed = s.committed ∨
        ∃ added, Leaves env s raw .taken added ∧ f.committed.intake = s.intake.append added := by
  rw [ingestEvent]
  refine ends_bind (processEvent_ends env turn raw s) fun out s₁ h => ?_
  cases out with
  | duplicate => exact h.1
  | taken => exact h.1
  | rejected error deadLettered =>
      cases deadLettered with
      | true => exact h.1
      | false =>
          rw [h.2 error rfl]
          have hpure : ∀ s' added, DeadLetters added → s.Grows s' added →
              ∃ added, Leaves env s raw (.rejected error false) added ∧ s.Grows s' added :=
            fun s' added hdead hg => ⟨added, .rejected _ _ _ hdead, hg⟩
          dsimp only
          split_ifs
          · refine ends_bind ((deadLetter_ends env turn.now raw error none s).mono
              (fun _ _ h => h) fun _ hf => Or.inl hf) fun _ s' hd => ?_
            obtain ⟨added, hdead, hg⟩ := hd
            exact hpure s' added hdead hg
          · exact hpure s .none deadLetters_none s.grows_self

end Event

/-! ### One call -/

/-- Every event that the loop gets to meets the condition `ok` in the session in which it is
processed. -/
def EventsMeet (env : IngestEnv) (turn : ℕ → Turn) (ok : IngestSession → Option RawEvent → Prop) :
    ℕ → List (Option RawEvent) → IngestSession → Prop
  | _, [], _ => True
  | i, raw :: rest, s => ok s raw ∧
      match ingestEvent env (turn i) raw s with
      | .ok (_, s') => EventsMeet env turn ok (i + 1) rest s'
      | .error _ => True

instance eventsMeetDecidable (env : IngestEnv) (turn : ℕ → Turn)
    (ok : IngestSession → Option RawEvent → Prop) [∀ s raw, Decidable (ok s raw)] :
    ∀ i events s, Decidable (EventsMeet env turn ok i events s)
  | _, [], _ => inferInstanceAs (Decidable True)
  | i, raw :: rest, s =>
      @instDecidableAnd _ _ _ <|
        match ingestEvent env (turn i) raw s with
        | .ok (_, s') => eventsMeetDecidable env turn ok (i + 1) rest s'
        | .error _ => inferInstanceAs (Decidable True)

/-- The events that a call processes. -/
def IngestCall.events (env : IngestEnv) (call : IngestCall) : List (Option RawEvent) :=
  match call.adapter with
  | none => []
  | some adapter =>
      if call.featureEnabled = true ∧ adapter.enabled = 1 then
        match recognize env.toEventEnv call.nowIso adapter.type call.payload with
        | .ok events => events
        | .error _ => []
      else []

/-- The tables hold `I`, as they are committed and with all that the session has added. -/
structure Holds (I : Intake → Prop) (s : IngestSession) : Prop where
  committed : I s.committed.intake
  intake : I s.intake

section Call

variable {env : IngestEnv} {turn : ℕ → Turn} {ok : IngestSession → Option RawEvent → Prop}
  {I : Intake → Prop} {s s' : IngestSession}

theorem Holds.grows {added : Intake} (h : Holds I s) (hg : s.Grows s' added)
    (hI : I (s.intake.append added)) : Holds I s' := by
  rw [← hg.intake] at hI
  refine ⟨?_, hI⟩
  rcases hg.committed with hc | hc
  · exact hc ▸ h.committed
  · exact hc ▸ hI

theorem ingestEvents_holds
    (hstep : ∀ s raw out added, ok s raw → Leaves env s raw out added → I s.intake →
      I (s.intake.append added))
    {i : ℕ} {events : List (Option RawEvent)} (h : EventsMeet env turn ok i events s)
    (hI : Holds I s) :
    Ends (ingestEvents env turn i events s) (fun _ s' => Holds I s')
      fun f => I f.committed.intake := by
  induction events generalizing i s with
  | nil => exact hI
  | cons raw rest ih =>
      obtain ⟨hok, hrest⟩ := h
      have hone := ingestEvent_ends env (turn i) raw s
      rw [ingestEvents]
      change Ends ((ingestEvent env (turn i) raw s).bind _) _ _
      cases hr : ingestEvent env (turn i) raw s with
      | error f =>
          rw [hr] at hone
          change I f.committed.intake
          rcases hone with hf | ⟨added, hl, hf⟩ <;> rw [hf]
          · exact hI.committed
          · exact hstep s raw _ added hok hl hI.intake
      | ok r =>
          rw [hr] at hone hrest
          obtain ⟨added, hl, hg⟩ := hone
          have hI' := hI.grows hg (hstep s raw _ added hok hl hI.intake)
          exact ends_bind (ih hrest hI') fun _ _ h => h

theorem commit_holds (columns : Columns) (hI : Holds I s) :
    Ends (IngestM.change (·.commit columns) s) (fun _ s' => I s'.store.intake)
      fun f => I f.committed.intake := by
  rw [IngestM.change]
  rcases s.commit_cases columns with ⟨-, h⟩ | h <;> rw [h]
  · exact hI.intake
  · exact hI.committed

theorem events_eq {env : IngestEnv} {call : IngestCall} {adapter : MonAdapter}
    {events : List (Option RawEvent)} (hf : call.featureEnabled = true)
    (ha : call.adapter = some adapter) (he : adapter.enabled = 1)
    (hr : recognize env.toEventEnv call.nowIso adapter.type call.payload = .ok events) :
    call.events env = events := by
  rw [IngestCall.events, ha]
  dsimp only
  rw [if_pos ⟨hf, he⟩, hr]

/-- **One call.** What every event of the call keeps, and a dead letter, the call keeps. -/
theorem ingest_holds (env : IngestEnv) (call : IngestCall) (st : MonStore)
    (hstep : ∀ s raw out added, ok s raw → Leaves env s raw out added → I s.intake →
      I (s.intake.append added))
    (hdead : ∀ a added, DeadLetters added → I a → I (a.append added))
    (h : EventsMeet env call.turn ok 0 (call.events env) (.opened st)) (hI : I st.intake) :
    I (st.ingest env call).intake := by
  have hopened : Holds I (.opened st) := ⟨hI, by rw [opened_intake]; exact hI⟩
  have hends : Ends (ingest env call (.opened st)) (fun _ s' => I s'.store.intake)
      fun f => I f.committed.intake := by
    rw [ingest]
    by_cases hf : call.featureEnabled = true
    swap
    · rw [if_pos (by simpa using hf)]
      exact hI
    rw [if_neg (by simpa using hf)]
    cases ha : call.adapter with
    | none => exact hI
    | some adapter =>
        dsimp only
        by_cases he : adapter.enabled = 1
        swap
        · rw [if_pos he]
          exact hI
        rw [if_neg (not_not_intro he)]
        cases hr : recognize env.toEventEnv call.nowIso adapter.type call.payload with
        | error e => exact hI
        | ok events =>
            rw [events_eq hf ha he hr] at h
            refine ends_bind (Q := fun events' s' => events' = events ∧ s' = .opened st)
              ⟨rfl, rfl⟩ fun events' s' hs' => ?_
            obtain ⟨rfl, rfl⟩ := hs'
            split_ifs with hempty
            · refine ends_bind (Q := fun _ s₁ => Holds I s₁) ?_ fun _ s₁ h₁ =>
                ends_bind (commit_holds env.columns h₁) fun _ _ h => h
              refine (deadLetter_ends env _ none _ _ _).mono ?_ fun f hf => hf ▸ hI
              rintro _ s₁ ⟨added, hd, hg⟩
              exact hopened.grows hg (hdead _ _ hd hopened.intake)
            · refine ends_bind (ingestEvents_holds hstep h hopened) fun outcomes s₁ h₁ => ?_
              exact ends_bind (commit_holds env.columns h₁) fun _ _ h => h
  rw [MonStore.ingest]
  cases hr : ingest env call (.opened st) with
  | ok r => exact hends.of_ok (x := r.1) (s := r.2) hr
  | error f => exact hends.of_error hr

end Call

/-! ### Histories -/

/-- What others leave of the alerts and of the daily rows. -/
structure Elsewhere where
  monitor : Monitor
  valid : monitor.db.Valid
  daily : List DailyRow
  unique : (daily.map DailyRow.key).Nodup

/-- The operations of a history: a call of `ingest`, and whatever the others do, who do not touch
the inbox. -/
inductive IngestOp where
  | call (call : IngestCall)
  | others (left : Elsewhere)

/-- The tables after an operation. -/
def MonStore.apply (env : IngestEnv) (st : MonStore) : IngestOp → MonStore
  | .call call => st.ingest env call
  | .others left => { st with daily := left.daily, monitor := left.monitor }

end LarkPlat
