import LarkPlat.Json
import LarkPlat.Machine

/-!
# The Circuit Breaker

`ai_automation_service.py`: `resolve_threshold` and `record_verification_result`. One row, of the
scope `global`, holds the state of the breaker, the failures that are counted, and a threshold. The
threshold of the row is what an administrator has configured, until the breaker trips: a trip writes
the threshold under which it happened, be it that of the environment or of a policy.

`int` is a parameter: what `int()` makes of a text, if anything. The counter and the threshold are
columns of 32 bits, and a call that does not fit raises and is rolled back.

## Main results

* `matches_iff`: a call follows the machine under its threshold exactly if it is stored, and a call
  that brings no threshold finds the one that was configured.
* `breaker_matches_iff`: the same of a run, by the trips before the call.
-/

namespace LarkPlat.CircuitBreaker

open Machine

/-! ### The service -/

/-- The states: `closed`, `open` and `half`. -/
inductive BreakerPhase
  | closed | opened | half
  deriving DecidableEq, Repr

/-- A row of `circuit_breaker_state`. -/
structure BreakerRow where
  state : BreakerPhase
  current : ℤ
  threshold : Option ℤ
  lastTrippedAt : Option ℚ
  deriving DecidableEq

/-- The column of `remediation_policy` that is read. -/
structure RemediationPolicy where
  circuitThreshold : Option ℤ
  deriving DecidableEq

/-- A call of `record_verification_result`, with what the environment holds and the clock. -/
structure Verification where
  env : Option String
  policy : Option RemediationPolicy
  ok : Bool
  now : ℚ
  deriving DecidableEq

/-- `_DEFAULT_CIRCUIT_THRESHOLD`. -/
def defaultCircuitThreshold : ℤ := 3

/-- An integer column takes the number. -/
def Fits32 (n : ℤ) : Prop := -2 ^ 31 ≤ n ∧ n < 2 ^ 31

instance (n : ℤ) : Decidable (Fits32 n) := inferInstanceAs (Decidable (_ ∧ _))

/-- `_breaker_state`. -/
def breakerState (row : Option BreakerRow) : BreakerPhase :=
  (row.map BreakerRow.state).getD .closed

section Service

variable (int : String → Option ℤ)

/-- The override of the environment, if it is a number. -/
def envThreshold : Option String → Option ℤ
  | none => none
  | some raw => if raw = "" then none else int raw

/-- `resolve_threshold`. -/
def resolveThreshold (row : Option BreakerRow) (env : Option String)
    (policy : Option RemediationPolicy) : ℤ :=
  match envThreshold int env with
  | some n => n
  | none =>
      match policy.bind RemediationPolicy.circuitThreshold with
      | some n => n
      | none =>
          match row.bind BreakerRow.threshold with
          | some n => n
          | none => defaultCircuitThreshold

/-- `record_verification_result`. -/
def recordVerificationResult (row : Option BreakerRow) (v : Verification) :
    Except PyErr BreakerRow :=
  let threshold := resolveThreshold int row v.env v.policy
  let row := row.getD ⟨.closed, 0, none, none⟩
  match row.state with
  | .half =>
      if v.ok then .ok { row with state := .closed, current := 0, lastTrippedAt := none }
      else .ok { row with state := .opened, lastTrippedAt := some v.now }
  | .opened => if v.ok then .ok { row with state := .half } else .ok row
  | .closed =>
      if v.ok then .ok { row with current := 0 }
      else if ¬ Fits32 (row.current + 1) then .error .integrityError
      else if threshold ≤ row.current + 1 then
        if Fits32 threshold then
          .ok ⟨.opened, row.current + 1, some threshold, some v.now⟩
        else .error .integrityError
      else .ok { row with current := row.current + 1 }

/-- What a call leaves. -/
def recorded (row : Option BreakerRow) (v : Verification) : Option BreakerRow :=
  match recordVerificationResult int row v with
  | .ok row' => some row'
  | .error _ => row

end Service

/-! ### The machine -/

/-- What the machine sees of the row. -/
structure BreakerView where
  state : BreakerPhase
  count : ℤ
  deriving DecidableEq

/-- The row as the machine sees it. -/
def view (row : Option BreakerRow) : BreakerView :=
  ⟨breakerState row, (row.map BreakerRow.current).getD 0⟩

/-- One outcome under a threshold: consecutive failures open a closed breaker, and two successes
close an open one. -/
def BreakerView.next (threshold : ℤ) (ok : Bool) : BreakerView → BreakerView
  | ⟨.closed, count⟩ =>
      if ok then ⟨.closed, 0⟩
      else if threshold ≤ count + 1 then ⟨.opened, count + 1⟩
      else ⟨.closed, count + 1⟩
  | ⟨.opened, count⟩ => if ok then ⟨.half, count⟩ else ⟨.opened, count⟩
  | ⟨.half, count⟩ => if ok then ⟨.closed, 0⟩ else ⟨.opened, count⟩

section Thresholds

variable (int : String → Option ℤ)

/-- The threshold that a call brings with it: that of the environment, or that of its policy. -/
def Verification.own (v : Verification) : Option ℤ :=
  (envThreshold int v.env).or (v.policy.bind RemediationPolicy.circuitThreshold)

/-- The threshold without a call of its own. -/
def general (row : Option BreakerRow) : ℤ :=
  (row.bind BreakerRow.threshold).getD defaultCircuitThreshold

/-- A call follows the machine, under the threshold that it brings or else under the one that is
`configured`. -/
def Follows (configured : ℤ) (row : Option BreakerRow) (v : Verification) : Prop :=
  let threshold := (v.own int).getD configured
  resolveThreshold int row v.env v.policy = threshold ∧
    ∃ row', recordVerificationResult int row v = .ok row' ∧
      view (some row') = (view row).next threshold v.ok

/-- A failure that is counted fits the columns. -/
def Stored (row : Option BreakerRow) (v : Verification) : Prop :=
  breakerState row = .closed → v.ok = false →
    Fits32 ((view row).count + 1) ∧
      (resolveThreshold int row v.env v.policy ≤ (view row).count + 1 →
        Fits32 (resolveThreshold int row v.env v.policy))

/-- The call trips the breaker. -/
def Trips (row : Option BreakerRow) (v : Verification) : Prop :=
  Stored int row v ∧ breakerState row = .closed ∧ v.ok = false ∧
    resolveThreshold int row v.env v.policy ≤ (view row).count + 1

end Thresholds

/-! ### One call -/

section Calls

variable {int : String → Option ℤ} {row : Option BreakerRow} {v : Verification}

theorem view_eq (row : Option BreakerRow) :
    view row = ⟨(row.getD ⟨.closed, 0, none, none⟩).state,
      (row.getD ⟨.closed, 0, none, none⟩).current⟩ := by
  cases row <;> rfl

theorem general_eq (row : Option BreakerRow) :
    general row = (row.getD ⟨.closed, 0, none, none⟩).threshold.getD defaultCircuitThreshold := by
  cases row <;> rfl

/-- **`resolve_threshold`** takes what the call brings before what is there. -/
theorem resolveThreshold_eq (int : String → Option ℤ) (row : Option BreakerRow) (v : Verification) :
    resolveThreshold int row v.env v.policy = (v.own int).getD (general row) := by
  unfold resolveThreshold Verification.own general
  cases envThreshold int v.env with
  | some n => rfl
  | none =>
      cases v.policy.bind RemediationPolicy.circuitThreshold with
      | some n => rfl
      | none => cases row.bind BreakerRow.threshold <;> rfl

/-- **A call that is stored** moves as the machine does under the resolved threshold, and writes
this threshold if it trips the breaker. -/
theorem record_ok (h : Stored int row v) :
    ∃ row', recordVerificationResult int row v = .ok row' ∧
      view (some row') = (view row).next (resolveThreshold int row v.env v.policy) v.ok ∧
      (Trips int row v → general (some row') = resolveThreshold int row v.env v.policy) ∧
      (¬ Trips int row v → general (some row') = general row) := by
  have hstored := h
  unfold Stored at hstored
  rw [Trips, and_iff_right h, view_eq, general_eq, recordVerificationResult]
  have hstate : breakerState row = (view row).state := rfl
  rw [hstate, view_eq] at hstored ⊢
  generalize row.getD ⟨.closed, 0, none, none⟩ = r at hstored ⊢
  generalize resolveThreshold int row v.env v.policy = threshold at hstored ⊢
  obtain ⟨state, current, limit, tripped⟩ := r
  cases state with
  | half =>
      cases v.ok with
      | true => exact ⟨_, rfl, rfl, by simp, fun _ => rfl⟩
      | false => exact ⟨_, rfl, rfl, by simp, fun _ => rfl⟩
  | opened =>
      cases v.ok with
      | true => exact ⟨_, rfl, rfl, by simp, fun _ => rfl⟩
      | false => exact ⟨_, rfl, rfl, by simp, fun _ => rfl⟩
  | closed =>
      cases hok : v.ok with
      | true => exact ⟨_, rfl, rfl, by simp, fun _ => rfl⟩
      | false =>
          obtain ⟨hcount, hthreshold⟩ := hstored rfl hok
          by_cases htrips : threshold ≤ current + 1
          · refine ⟨⟨.opened, current + 1, some threshold, some v.now⟩, ?_, ?_, fun _ => rfl,
              fun hnot => absurd ⟨rfl, rfl, htrips⟩ hnot⟩
            · simp [hcount, htrips, hthreshold htrips]
            · simp [view, breakerState, BreakerView.next, htrips]
          · refine ⟨⟨.closed, current + 1, limit, tripped⟩, ?_, ?_,
              fun hyes => absurd hyes.2.2 htrips, fun _ => rfl⟩
            · simp [hcount, htrips]
            · simp [view, breakerState, BreakerView.next, htrips]

theorem record_error (h : ¬ Stored int row v) :
    recordVerificationResult int row v = .error .integrityError := by
  unfold Stored at h
  push Not at h
  obtain ⟨hclosed, hok, hfits⟩ := h
  have hstate : (row.getD ⟨.closed, 0, none, none⟩).state = .closed := by
    rw [← hclosed, breakerState]
    cases row <;> rfl
  rw [view_eq] at hfits
  rw [recordVerificationResult, hstate, hok]
  by_cases hcount : Fits32 ((row.getD ⟨.closed, 0, none, none⟩).current + 1)
  · obtain ⟨htrips, hthreshold⟩ := hfits hcount
    simp [hcount, htrips, hthreshold]
  · simp [hcount]

/-- **One call** follows the machine exactly if it is stored, and finds the configured threshold
where it brings none. -/
theorem follows_iff {configured : ℤ} :
    Follows int configured row v ↔
      Stored int row v ∧ (v.own int = none → general row = configured) := by
  have hthreshold : resolveThreshold int row v.env v.policy = (v.own int).getD configured ↔
      (v.own int = none → general row = configured) := by
    rw [resolveThreshold_eq]
    cases v.own int with
    | none => simp
    | some n => simp
  rw [Follows, hthreshold]
  constructor
  · rintro ⟨hgeneral, row', hok, -⟩
    refine ⟨by_contra fun hnot => ?_, hgeneral⟩
    rw [record_error hnot] at hok
    cases hok
  · rintro ⟨hstored, hgeneral⟩
    obtain ⟨row', hok, hview, -⟩ := record_ok hstored
    rw [hthreshold.mpr hgeneral] at hview
    exact ⟨hgeneral, row', hok, hview⟩

/-- The general threshold after a call is the one of the call if it tripped the breaker. -/
theorem general_recorded [Decidable (Trips int row v)] :
    general (recorded int row v) =
      if Trips int row v then (v.own int).getD (general row) else general row := by
  rw [← resolveThreshold_eq, recorded]
  by_cases hstored : Stored int row v
  · obtain ⟨row', hok, -, htrips, hquiet⟩ := record_ok hstored
    rw [hok]
    split_ifs with h
    · exact htrips h
    · exact hquiet h
  · rw [record_error hstored, if_neg fun h => hstored h.1]

end Calls

/-! ### Runs -/

section Runs

variable {int : String → Option ℤ}

variable (int) in
/-- The call trips the breaker under a threshold that it brings, which is not the configured one. -/
def Misleads (configured : ℤ) (row : Option BreakerRow) (v : Verification) : Prop :=
  Trips int row v ∧ ∃ n, v.own int = some n ∧ n ≠ configured

variable (int) in
/-- The call trips the breaker under a threshold that it brings, which is the configured one. -/
def Restates (configured : ℤ) (row : Option BreakerRow) (v : Verification) : Prop :=
  Trips int row v ∧ v.own int = some configured

variable (int) in
/-- The breaker has tripped under a threshold other than the configured one, and has not been
brought back by a later trip. -/
def Misled (configured : ℤ) (row : Option BreakerRow) (vs : List Verification) : Prop :=
  ∃ pre v post, vs = pre ++ v :: post ∧
    Misleads int configured (run (recorded int) row pre) v ∧
      Meets (recorded int) (fun row v => ¬ Restates int configured row v)
        (recorded int (run (recorded int) row pre) v) post

/-- The general threshold after a run is the configured one unless a trip has misled it. -/
theorem general_run_iff (row : Option BreakerRow) (vs : List Verification) :
    general (run (recorded int) row vs) ≠ general row ↔ Misled int (general row) row vs := by
  classical
  unfold Misled
  refine run_last_iff (P := fun _ => True) (Q := fun row' => general row' ≠ general row)
    (fun _ _ _ => trivial) (fun row' v _ => ?_) trivial (not_not.mpr rfl) vs
  rw [general_recorded, Misleads, Restates]
  by_cases htrips : Trips int row' v
  · rw [if_pos htrips]
    cases hown : v.own int with
    | none => simp [htrips]
    | some n =>
        simp only [htrips, true_and, Option.getD_some, Option.some_inj]
        grind
  · simp [htrips]

/-- **The breaker.** In a run each call follows the machine, under the threshold that it brings or
else under the one that the row had at first, exactly if each failure that is counted fits the
columns and no call that brings no threshold comes after a trip that has misled the breaker. -/
theorem breaker_matches_iff (row : Option BreakerRow) (vs : List Verification) :
    (∀ pre v post, vs = pre ++ v :: post →
        Follows int (general row) (run (recorded int) row pre) v) ↔
      ∀ pre v post, vs = pre ++ v :: post → Stored int (run (recorded int) row pre) v ∧
        (v.own int = none → ¬ Misled int (general row) row pre) := by
  refine forall_congr' fun pre => forall_congr' fun v => forall_congr' fun post =>
    imp_congr_right fun _ => ?_
  rw [follows_iff]
  refine and_congr_right fun _ => imp_congr_right fun _ => ?_
  rw [← general_run_iff, not_not]

end Runs

/-! ### A threshold that stays -/

/-- A failure under a policy that trips at once. -/
def strictFailure : Verification := ⟨none, some ⟨some 1⟩, false, 100⟩

/-- A success without a policy. -/
def plainSuccess : Verification := ⟨none, none, true, 200⟩

/-- A failure without a policy. -/
def plainFailure : Verification := ⟨none, none, false, 300⟩

/-- After a trip under a policy and two successes, one failure without a policy opens the breaker,
although no threshold is configured. -/
theorem policy_threshold_stays :
    ¬ ∀ pre v post, [strictFailure, plainSuccess, plainSuccess, plainFailure] = pre ++ v :: post →
      Follows Json.parseInt (general none) (run (recorded Json.parseInt) none pre) v := by
  intro h
  obtain ⟨hthreshold, -⟩ := h [strictFailure, plainSuccess, plainSuccess] plainFailure [] rfl
  revert hthreshold
  decide

end LarkPlat.CircuitBreaker
