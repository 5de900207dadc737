import LarkPlat.IngestRules

/-!
# Daily Rows

Each sample of a metric is counted in a daily row, which keeps the number, the mean and the extremes
of the samples of its key. The row is looked up among the flushed rows, by more columns than the
unique constraint has. Whatever is ingested, the committed daily rows are those of the committed
samples: where a second row for one key is added, no flush succeeds any more.

## Main results

* `RollsUp.add`, `RollsUp.record`: the first sample of a key, and a further one.
* `ingest_tallied`: the daily rows agree with the samples after every call, whether it raises or
  not.
-/

namespace LarkPlat

open Outcomes IngestSession

/-! ### Daily rows and samples -/

/-- The columns that a daily row is looked up by. -/
structure DailyKey where
  source : Json
  entityType : Json
  entityId : String
  metricName : String
  day : ℤ
  deriving DecidableEq

/-- The columns of a row. -/
def DailyRow.lookup (r : DailyRow) : DailyKey :=
  ⟨r.source, r.entityType, r.entityId, r.metricName, r.day⟩

/-- The rows with these columns. -/
def rowsOf (k : DailyKey) (rows : List DailyRow) : List DailyRow :=
  rows.filter fun r => decide (r.lookup = k)

/-- The values of the samples with these columns. -/
def valuesOf (k : DailyKey) (samples : List MetricSample) : List Num :=
  (samples.filter fun x => decide (x.dailyRow.lookup = k)).map MetricSample.value

/-- The row counts the values, and has their mean and their extremes. -/
structure DailyRow.Summarizes (r : DailyRow) (values : List Num) : Prop where
  count : r.sampleCount = values.length
  avg : r.avgValue = Num.mean values
  max : Extreme Num.lt r.maxValue values
  min : Extreme (fun a b => Num.lt b a) r.minValue values

/-- For each key with a sample there is one row, which summarizes the samples, and for the others
there is none. -/
def RollsUp (rows : List DailyRow) (samples : List MetricSample) : Prop :=
  ∀ k, (rowsOf k rows = [] ∧ valuesOf k samples = []) ∨
    ∃ r, rowsOf k rows = [r] ∧ r.Summarizes (valuesOf k samples)

section Rows

variable {r row : DailyRow} {values : List Num} {rows : List DailyRow}
  {samples : List MetricSample} {x : MetricSample}

theorem same_iff : row.same r = true ↔ r.lookup = row.lookup := by
  rw [DailyRow.same, Bool.and_eq_true, decide_eq_true_eq, decide_eq_true_eq, DailyRow.key,
    DailyRow.key, DailyRow.lookup, DailyRow.lookup, DailyKey.mk.injEq, Prod.mk.injEq,
    Prod.mk.injEq, Prod.mk.injEq]
  tauto

/-- Rows with the same lookup columns are the same to the unique constraint. -/
theorem key_of_lookup (h : r.lookup = row.lookup) : r.key = row.key := by
  have hsame := same_iff.mpr h
  rw [DailyRow.same, Bool.and_eq_true] at hsame
  exact of_decide_eq_true hsame.1

/-- **One more value** in a row that summarizes others. -/
theorem DailyRow.Summarizes.record (h : r.Summarizes values) (v : Num) :
    (r.record v).Summarizes (values ++ [v]) where
  count := by
    rw [List.length_append, List.length_singleton, ← h.count]
    rfl
  avg := by
    rw [Num.mean_append (List.ne_nil_of_mem h.max.mem), ← h.avg, ← h.count]
    rfl
  max := h.max.append Num.lt_self (fun _ _ _ => Num.lt_of_lt) v
  min := h.min.append Num.lt_self (fun _ _ _ hab hbc => Num.lt_of_lt hbc hab) v

theorem summarizes_dailyRow (x : MetricSample) : x.dailyRow.Summarizes [x.value] where
  count := rfl
  avg := (Num.mean_singleton _).symm
  max := extreme_singleton _ Num.lt_self _
  min := extreme_singleton (fun a b => Num.lt b a) Num.lt_self _

theorem valuesOf_append_self (samples : List MetricSample) (x : MetricSample) :
    valuesOf x.dailyRow.lookup (samples ++ [x]) =
      valuesOf x.dailyRow.lookup samples ++ [x.value] := by
  rw [valuesOf, List.filter_append, List.map_append, List.filter_singleton, decide_eq_true rfl]
  rfl

theorem valuesOf_append_ne {k : DailyKey} (hk : x.dailyRow.lookup ≠ k) :
    valuesOf k (samples ++ [x]) = valuesOf k samples := by
  rw [valuesOf, List.filter_append, List.filter_singleton, decide_eq_false hk]
  exact congrArg _ (List.append_nil _)

/-- The first sample of a key, with its row. -/
theorem RollsUp.add (h : RollsUp rows samples) (hnew : rowsOf x.dailyRow.lookup rows = []) :
    RollsUp (rows ++ [x.dailyRow]) (samples ++ [x]) := by
  intro k
  rw [rowsOf, List.filter_append, List.filter_singleton]
  by_cases hk : x.dailyRow.lookup = k
  · subst hk
    have hnone : valuesOf x.dailyRow.lookup samples = [] := by
      rcases h x.dailyRow.lookup with ⟨-, hnone⟩ | ⟨r, hr, -⟩
      · exact hnone
      · rw [hnew] at hr
        cases hr
    refine .inr ⟨x.dailyRow, ?_, ?_⟩
    · rw [decide_eq_true rfl]
      exact congrArg (· ++ [x.dailyRow]) hnew
    · rw [valuesOf_append_self, hnone]
      exact summarizes_dailyRow x
  · rw [decide_eq_false hk, valuesOf_append_ne hk]
    exact (List.append_nil (rowsOf k rows)).symm ▸ h k

/-- The rows with one more sample. -/
def recorded (x : MetricSample) (rows : List DailyRow) : List DailyRow :=
  rows.map fun r => if x.dailyRow.same r then r.record x.value else r

theorem rowsOf_recorded (k : DailyKey) (x : MetricSample) (rows : List DailyRow) :
    rowsOf k (recorded x rows) = recorded x (rowsOf k rows) := by
  rw [rowsOf, recorded, List.filter_map, rowsOf, recorded]
  congr 1
  refine List.filter_congr fun r _ => ?_
  rw [Function.comp_apply]
  split_ifs <;> rfl

theorem recorded_keys (x : MetricSample) (rows : List DailyRow) :
    (recorded x rows).map DailyRow.key = rows.map DailyRow.key := by
  rw [recorded, List.map_map]
  refine List.map_congr_left fun r _ => ?_
  rw [Function.comp_apply]
  split_ifs <;> rfl

/-- A further sample of a key, in its row. -/
theorem RollsUp.record (h : RollsUp rows samples) (hold : rowsOf x.dailyRow.lookup rows ≠ []) :
    RollsUp (recorded x rows) (samples ++ [x]) := by
  intro k
  rw [rowsOf_recorded]
  by_cases hk : x.dailyRow.lookup = k
  · subst hk
    rcases h x.dailyRow.lookup with ⟨hnone, -⟩ | ⟨r, hr, hsum⟩
    · exact absurd hnone hold
    · have hmem : r ∈ rowsOf x.dailyRow.lookup rows := hr ▸ List.mem_singleton_self r
      have hsame : x.dailyRow.same r = true :=
        same_iff.mpr (of_decide_eq_true (List.mem_filter.mp hmem).2)
      refine .inr ⟨r.record x.value, ?_, ?_⟩
      · rw [hr, recorded, List.map_singleton, if_pos hsame]
      · rw [valuesOf_append_self]
        exact hsum.record x.value
  · rw [valuesOf_append_ne hk]
    have hself : recorded x (rowsOf k rows) = rowsOf k rows := by
      refine (List.map_congr_left fun r hr => if_neg fun hsame => hk ?_).trans (List.map_id _)
      rw [← same_iff.mp hsame]
      exact of_decide_eq_true (List.mem_filter.mp hr).2
    rw [hself]
    exact h k

theorem recorded_append (x : MetricSample) (rows rows' : List DailyRow) :
    recorded x (rows ++ rows') = recorded x rows ++ recorded x rows' :=
  List.map_append

theorem recorded_others (h : ∀ r ∈ rows, r.key ≠ x.dailyRow.key) : recorded x rows = rows :=
  (List.map_congr_left fun r hr => if_neg fun hsame =>
    h r hr (key_of_lookup (same_iff.mp hsame))).trans (List.map_id _)

end Rows

/-! ### Sessions -/

/-- The tables obey the unique constraint, and the daily rows summarize the samples. -/
structure MonStore.Tallied (st : MonStore) : Prop where
  unique : (st.daily.map DailyRow.key).Nodup
  rolls : RollsUp st.daily st.intake.samples

/-- The daily rows of a session, flushed or not. -/
def IngestSession.daily (s : IngestSession) : List DailyRow := s.store.daily ++ s.freshDaily

/-- What is committed is tallied, and so are the rows of the session, unless two of them are one to
the unique constraint. -/
structure IngestSession.Tallies (s : IngestSession) : Prop where
  committed : s.committed.Tallied
  session : (s.daily.map DailyRow.key).Nodup → RollsUp s.daily s.intake.samples

section Session

variable {s : IngestSession}

/-- A sample is recorded in the flushed row of its key, or gets a row that waits. -/
theorem upsertDaily_cases (s : IngestSession) (x : MetricSample) :
    ((∃ r ∈ s.store.daily, r.lookup = x.dailyRow.lookup) ∧
        s.upsertDaily x.dailyRow x.value =
          { s with store := { s.store with daily := recorded x s.store.daily } }) ∨
      (∀ r ∈ s.store.daily, r.lookup ≠ x.dailyRow.lookup) ∧
        s.upsertDaily x.dailyRow x.value =
          { s with freshDaily := s.freshDaily ++ [x.dailyRow] } := by
  rw [upsertDaily]
  by_cases hany : s.store.daily.any x.dailyRow.same = true
  · rw [if_pos hany]
    obtain ⟨r, hr, hsame⟩ := List.any_eq_true.mp hany
    exact .inl ⟨⟨r, hr, same_iff.mp hsame⟩, rfl⟩
  · rw [if_neg hany]
    refine .inr ⟨fun r hr hk => hany ?_, rfl⟩
    exact List.any_eq_true.mpr ⟨r, hr, same_iff.mpr hk⟩

/-- **A sample** is counted where no two rows are one to the unique constraint. -/
theorem IngestSession.Tallies.sample (h : s.Tallies) (x : MetricSample) :
    ((s.add ⟨[], [x], []⟩).upsertDaily x.dailyRow x.value).Tallies := by
  refine ⟨by rw [upsertDaily_committed]; exact h.committed, ?_⟩
  rw [upsertDaily_intake, add_intake]
  change _ → RollsUp _ (s.intake.samples ++ [x])
  rcases upsertDaily_cases (s.add ⟨[], [x], []⟩) x with ⟨⟨r, hr, hk⟩, heq⟩ | ⟨hnew, heq⟩
  · rw [heq]
    change ((recorded x s.store.daily ++ s.freshDaily).map DailyRow.key).Nodup →
      RollsUp (recorded x s.store.daily ++ s.freshDaily) _
    rw [List.map_append, recorded_keys, ← List.map_append]
    intro hnodup
    have hothers : ∀ r' ∈ s.freshDaily, r'.key ≠ x.dailyRow.key := by
      intro r' hr' hkey
      rw [List.map_append, List.nodup_append] at hnodup
      exact hnodup.2.2 _ (List.mem_map_of_mem hr) _ (List.mem_map_of_mem hr')
        ((key_of_lookup hk).trans hkey.symm)
    rw [← recorded_others hothers, ← recorded_append]
    refine (h.session hnodup).record (List.ne_nil_of_mem (a := r) ?_)
    exact List.mem_filter.mpr ⟨List.mem_append_left _ hr, decide_eq_true hk⟩
  · rw [heq]
    change ((s.store.daily ++ (s.freshDaily ++ [x.dailyRow])).map DailyRow.key).Nodup →
      RollsUp (s.store.daily ++ (s.freshDaily ++ [x.dailyRow])) _
    rw [← List.append_assoc, List.map_append]
    intro hnodup
    rw [List.nodup_append] at hnodup
    refine (h.session hnodup.1).add (List.filter_eq_nil_iff.mpr fun r hr hk => ?_)
    exact hnodup.2.2 _ (List.mem_map_of_mem hr) _ (List.mem_singleton_self _)
      (key_of_lookup (of_decide_eq_true hk))

theorem IngestSession.Tallies.congr (h : s.Tallies) {s' : IngestSession}
    (hcommitted : s'.committed.Tallied) (hdaily : s'.daily = s.daily)
    (hsamples : s'.intake.samples = s.intake.samples) : s'.Tallies :=
  ⟨hcommitted, by rw [hdaily, hsamples]; exact h.session⟩

theorem flushed_daily (s : IngestSession) : s.flushed.daily = s.daily := List.append_nil _

theorem add_samples (s : IngestSession) {added : Intake} (h : added.samples = []) :
    (s.add added).intake.samples = s.intake.samples := by
  rw [add_intake, Intake.append, h, List.append_nil]

theorem tallies_stable (columns : Columns) :
    SessionStable columns IngestSession.Tallies fun f => f.committed.Tallied where
  raise s e h := h.committed
  row s row h := h.congr h.committed rfl (add_samples s rfl)
  evaluated s origin h := h.congr h.committed rfl (add_samples s rfl)
  sample s x h := h.sample x
  engine s m h := ⟨h.committed, h.session⟩
  flush s h hf := h.congr h.committed (flushed_daily s) (congrArg _ (flushed_intake s))
  commit s h hf := by
    refine h.congr ⟨hf.2.2.2, h.session hf.2.2.2⟩ (flushed_daily s) ?_
    exact congrArg Intake.samples (flushed_intake s)
  dead s row h := by
    refine h.congr h.committed rfl ?_
    change (s.store.intake.samples ++ []) ++ s.fresh.samples = _
    rw [List.append_nil]
    rfl

end Session

theorem MonStore.Tallied.opened {st : MonStore} (h : st.Tallied) :
    (IngestSession.opened st).Tallies := by
  refine ⟨h, fun _ => ?_⟩
  rw [opened_intake, IngestSession.daily, IngestSession.opened, List.append_nil]
  exact h.rolls

/-- **Whatever is ingested**, the daily rows agree with the samples. -/
theorem ingest_tallied (env : IngestEnv) (call : IngestCall) {st : MonStore} (h : st.Tallied) :
    (st.ingest env call).Tallied := by
  have hends := (tallies_stable env.columns).ingest_ends call h.opened
  rw [MonStore.ingest]
  cases hr : ingest env call (.opened st) with
  | ok r =>
      obtain ⟨htallies, hlast⟩ := hends.of_ok hr
      have htallied := htallies.committed
      rw [hlast] at htallied
      exact htallied
  | error f => exact hends.of_error hr

end LarkPlat
