import LarkPlat.DailyRollup

/-!
# The Value of a Metric

Three functions read the value of a metric. `validate_event` asks for an `int` or a `float`, which a
boolean is, too. `_to_float` makes a float of it for the row and for the sample, and nothing of a
boolean. `_condition_met` compares it as it is. The name is read twice, by one function, from the
labels in which it was put before.

## Main results

* `toFloat_evaluated_iff`: one value, for a number that is a float.
* `resolve_named`: one name, for every metric.
* `ingestEvent_taken`: what an event has gone through that is taken.
* `metric_agrees_iff`: what is stored of a metric is what the rules are evaluated on, exactly if its
  value is no boolean, and no integer that a float does not have.
-/

namespace LarkPlat

open Programs LockedTable Outcomes IngestSession

/-! ### What should hold -/

/-- The row and the sample have the name and the value that the rules read from the event. -/
structure Agrees (py : PyText) (row : InboxRow) (sample : MetricSample) (event : MonEvent) :
    Prop where
  name : resolveMetricName py event = some sample.metricName
  stored : row.value = some sample.value
  evaluated : event.value = .number sample.value

/-- The event has left one row and one sample, and the rules have been evaluated on an event that
agrees with them. -/
def MetricAgrees (env : IngestEnv) (turn : Turn) (e : RawEvent) (s s' : IngestSession) : Prop :=
  ∃ e' s₁ row sample, namedEvent env.toEventEnv e = .ok e' ∧
    s₁.intake = s.intake.append ⟨[row], [sample], []⟩ ∧
    evaluateRaw env turn e' s₁ = .ok ((), s') ∧
    s'.intake = s.intake.append ⟨[row], [sample], [e.origin]⟩ ∧
    ∀ entityId, Agrees env.toPyText row sample (monEvent env.toEventEnv e' entityId)

/-- The float is the value itself: it is no boolean, and an integer is one of 53 bits with zeros
after them. -/
def RawValue.Exact : RawValue → Prop
  | .json (.bool _) => False
  | .json (.int n) => ∃ m k, m < 2 ^ 53 ∧ n.natAbs = m * 2 ^ k
  | _ => True

/-! ### The value -/

section Value

variable {env : EventEnv} {e e' : RawEvent}

theorem numeric_of_valid (hkind : e.get "kind" = .str "metric")
    (hvalid : validateEvent env e = .ok none) : e.value.numeric = true := by
  rcases validateEvent_cases hvalid with ⟨_, hnone, -⟩ | ⟨-, hnumeric⟩
  · cases hnone
  · exact hnumeric hkind

theorem floatOfInt_eq_iff {n : ℤ} {x : Num} (h : floatOfInt n = .ok x) :
    .finite n = x ↔ ∃ m k, m < 2 ^ 53 ∧ n.natAbs = m * 2 ^ k := by
  rw [floatOfInt] at h
  split_ifs at h with hbound
  obtain rfl := Except.ok.inj h
  rw [← roundBits_eq_self_iff, Num.finite.injEq, Rat.intCast_inj]
  constructor
  · intro heq
    by_cases hzero : n = 0
    · rw [hzero]
      rfl
    · have habs := congrArg Int.natAbs heq
      rw [Int.natAbs_mul, Int.natAbs_sign_of_ne_zero hzero, Nat.one_mul, Int.natAbs_natCast] at habs
      exact habs.symm
  · intro heq
    rw [heq, Int.sign_mul_natAbs]

/-- **One value.** What `_to_float` makes of a number is what the rules compare, exactly if it is
the number itself. -/
theorem toFloat_evaluated_iff {v : Option Num} (hnumeric : e.value.numeric = true)
    (hread : toFloat env e.value = .ok v) (entityId : String) :
    (∃ x, v = some x ∧ (monEvent env e entityId).value = .number x) ↔ e.value.Exact := by
  rw [monEvent]
  cases hvalue : e.value with
  | float x =>
      rw [hvalue] at hnumeric hread
      obtain rfl := Except.ok.inj hread
      cases x with
      | none => cases hnumeric
      | some x => exact iff_of_true ⟨x, rfl, rfl⟩ trivial
  | json j =>
      rw [hvalue] at hnumeric hread
      cases j with
      | bool b =>
          obtain rfl := Except.ok.inj hread
          exact iff_of_false (fun ⟨_, h, _⟩ => by cases h) id
      | int n =>
          cases hfloat : floatOfInt n with
          | error err =>
              rw [toFloat, hfloat] at hread
              cases hread
          | ok x =>
              rw [toFloat, hfloat] at hread
              obtain rfl := Except.ok.inj hread
              refine Iff.trans ⟨?_, fun h => ⟨x, rfl, congrArg EventValue.number h⟩⟩
                (floatOfInt_eq_iff hfloat)
              rintro ⟨y, hy, hval⟩
              rw [Option.some.inj hy]
              exact EventValue.number.inj hval
      | float q =>
          obtain rfl := Except.ok.inj hread
          exact iff_of_true ⟨.finite q, rfl, rfl⟩ trivial
      | null | str | arr | obj => cases hnumeric

/-! ### The name -/

/-- The name that is made of the first field that has one. -/
def nameOf (env : EventEnv) (name : Json) : Option String :=
  if !name.truthy then none
  else if env.strip (env.str name) = "" ∨ env.lower (env.strip (env.str name)) = "unknown" then none
  else some (env.strip (env.str name))

theorem metricNameOf_labels {r : Option String} (h : metricNameOf env e = .ok r) :
    ∃ labels, (e.get "labels").pyOr (.obj []) = .obj labels := by
  rw [metricNameOf] at h
  obtain ⟨_, hget, -⟩ := bind_eq_ok.mp h
  cases hlabels : (e.get "labels").pyOr (.obj []) with
  | obj labels => exact ⟨labels, rfl⟩
  | null | bool | int | float | str | arr =>
      rw [hlabels] at hget
      cases hget

theorem metricNameOf_eq {labels : List (String × Json)}
    (hlabels : (e.get "labels").pyOr (.obj []) = .obj labels) :
    metricNameOf env e = .ok (nameOf env
      (((Json.field labels "metric_name").pyOr (Json.field labels "__name__")).pyOr
        ((e.get "metric_name").pyOr (e.get "name")))) := by
  rw [metricNameOf, hlabels]
  set name := ((Json.field labels "metric_name").pyOr (Json.field labels "__name__")).pyOr
    ((e.get "metric_name").pyOr (e.get "name"))
  change (if (!name.truthy) = true then Except.ok none
    else if _ then Except.ok none else Except.ok (some _)) = _
  rw [nameOf]
  split_ifs <;> rfl

theorem metricNameOf_ne {name : String} (h : metricNameOf env e = .ok (some name)) : name ≠ "" := by
  obtain ⟨labels, hlabels⟩ := metricNameOf_labels h
  rw [metricNameOf_eq hlabels, nameOf] at h
  split_ifs at h with htruthy hbad
  · cases Except.ok.inj h
  · cases Except.ok.inj h
  · rw [← Option.some.inj (Except.ok.inj h)]
    exact fun hempty => hbad (.inl hempty)

theorem namedEvent_value (hnamed : namedEvent env e = .ok e') : e'.value = e.value := by
  rcases namedEvent_cases hnamed with ⟨rfl, -⟩ | ⟨name, labels, -, rfl⟩ <;> rfl

/-- **One name.** The rules see the name that is stored. -/
theorem resolve_named {name : String} (hkind : e.get "kind" = .str "metric")
    (hnamed : namedEvent env e = .ok e') (hname : metricNameOf env e' = .ok (some name))
    (entityId : String) :
    resolveMetricName env.toPyText (monEvent env e' entityId) = some name := by
  rcases namedEvent_cases hnamed with ⟨rfl, hnone⟩ | ⟨found, labels, hfound, he'⟩
  · rw [hnone hkind] at hname
    cases Except.ok.inj hname
  set stored := Json.setField labels "metric_name" (.str found)
  have hlabels : e'.get "labels" = .obj stored := by
    rw [he', RawEvent.get, Json.field, Json.lookup_setField_self]
    rfl
  have hfield : Json.field stored "metric_name" = .str found := by
    rw [Json.field, Json.lookup_setField_self]
    rfl
  have hne : found ≠ "" := metricNameOf_ne hfound
  have htruthy : (Json.str found).truthy = true := decide_eq_true hne
  have hor (b : Json) : (Json.str found).pyOr b = .str found := if_pos htruthy
  have hdict : (e'.get "labels").pyOr (.obj []) = .obj stored := by
    rw [hlabels]
    generalize stored = fields at hfield
    cases fields with
    | nil => cases hfield
    | cons f fields => rfl
  rw [metricNameOf_eq hdict, hfield, hor, hor, nameOf, htruthy, if_neg (by decide)] at hname
  have hevent : given (monEvent env e' entityId).labelMetricName = some found := by
    simp only [monEvent, hlabels, hfield, htruthy]
    exact Option.filter_some_pos (decide_eq_true hne)
  rw [resolveMetricName, hevent, Option.some_or, Option.map_some]
  split_ifs at hname with hbad
  · cases Except.ok.inj hname
  · rw [← Except.ok.inj hname]
    exact Option.filter_some_pos (decide_eq_true (not_or.mp hbad))

end Value

/-! ### Events that are taken -/

section Event

variable {env : IngestEnv} {turn : Turn} {e e' : RawEvent} {s s' : IngestSession}
  {fingerprint : Json}

theorem attempt_bind_returns_iff {α β : Type} {x : Except PyErr α} {k : α → IngestM β}
    {b : β × IngestSession} :
    (IngestM.attempt x >>= k) s = .ok b ↔ ∃ a, x = .ok a ∧ k a s = .ok b := by
  cases x with
  | error err => exact iff_of_false (fun h => by cases h) fun ⟨_, h, _⟩ => by cases h
  | ok a =>
      rw [attempt_bind]
      constructor
      · exact fun h => ⟨a, rfl, h⟩
      · rintro ⟨a', h, hk⟩
        rw [Except.ok.inj h]
        exact hk

/-- Every part of an event that is taken can be read, and the rules have been evaluated on it after
it was stored. -/
theorem takeEvent_taken (hrun : takeEvent env turn e fingerprint s = .ok (.taken, s')) :
    ∃ r, Reads env.toEventEnv turn.now e r ∧
      evaluateRaw env turn e (s.stored env.toEventEnv e fingerprint r) = .ok ((), s') := by
  have htaken := hrun
  rw [takeEvent, attempt_bind_returns_iff] at hrun
  obtain ⟨severity, hseverity, hrun⟩ := hrun
  rw [attempt_bind_returns_iff] at hrun
  obtain ⟨ts, hts, hrun⟩ := hrun
  simp only [decide_eq_true_eq] at hrun
  rw [attempt_bind_returns_iff] at hrun
  obtain ⟨metricName, hname, hrun⟩ := hrun
  split_ifs at hrun with hnameless
  · rw [bind_returns_iff] at hrun
    obtain ⟨_, _, -, hrun⟩ := hrun
    cases hrun
  rw [attempt_bind_returns_iff] at hrun
  obtain ⟨value, hvalue, -⟩ := hrun
  have hnamed : e.get "kind" = .str "metric" → metricName.isSome = true := by
    intro hmetric
    rw [decide_eq_true hmetric, Bool.true_and] at hnameless
    cases metricName with
    | none => exact absurd rfl hnameless
    | some name => rfl
  have hreads : Reads env.toEventEnv turn.now e ⟨severity, ts, metricName, value⟩ :=
    ⟨hseverity, hts, hname, hnamed, hvalue⟩
  rw [takeEvent_reads hreads, bind_returns_iff] at htaken
  obtain ⟨_, _, heval, htaken⟩ := htaken
  obtain ⟨-, rfl⟩ := Prod.mk.inj (Except.ok.inj htaken)
  exact ⟨_, hreads, heval⟩

/-- What `ingest` takes, `_process_event` has taken. -/
theorem processEvent_of_ingestEvent {raw : Option RawEvent}
    (hrun : ingestEvent env turn raw s = .ok (.taken, s')) :
    processEvent env turn raw s = .ok (.taken, s') := by
  rw [ingestEvent, bind_returns_iff] at hrun
  obtain ⟨out, s₁, hprocess, hrun⟩ := hrun
  cases out with
  | duplicate => cases hrun
  | taken =>
      obtain ⟨-, rfl⟩ := Prod.mk.inj (Except.ok.inj hrun)
      exact hprocess
  | rejected error deadLettered =>
      cases deadLettered with
      | true => cases hrun
      | false =>
          dsimp only at hrun
          split_ifs at hrun
          · rw [bind_returns_iff] at hrun
            obtain ⟨_, _, -, hrun⟩ := hrun
            cases hrun
          · cases hrun

/-- What an event has gone through that is taken. -/
theorem ingestEvent_taken (hrun : ingestEvent env turn (some e) s = .ok (.taken, s')) :
    ∃ e' fingerprint r, Prepared env.toEventEnv e e' fingerprint ∧
      Reads env.toEventEnv turn.now e' r ∧
      evaluateRaw env turn e' (s.stored env.toEventEnv e' fingerprint r) = .ok ((), s') := by
  have hprocess := processEvent_of_ingestEvent hrun
  rw [processEvent, attempt_bind_returns_iff] at hprocess
  obtain ⟨fault, hvalid, hprocess⟩ := hprocess
  cases fault with
  | some fault => cases hprocess
  | none =>
      dsimp only at hprocess
      rw [attempt_bind_returns_iff] at hprocess
      obtain ⟨e', hnamed, hprocess⟩ := hprocess
      rw [attempt_bind_returns_iff] at hprocess
      obtain ⟨fingerprint, hfingerprint, hprocess⟩ := hprocess
      rw [bind_of_ok (show (get : IngestM IngestSession) s = .ok (s, s) from rfl)] at hprocess
      split_ifs at hprocess
      · cases hprocess
      · obtain ⟨r, hreads, heval⟩ := takeEvent_taken hprocess
        exact ⟨e', fingerprint, r, ⟨hvalid, hnamed, hfingerprint⟩, hreads, heval⟩

theorem metric_taken (hkind : e.get "kind" = .str "metric")
    (hrun : ingestEvent env turn (some e) s = .ok (.taken, s')) :
    ∃ e' fingerprint r name, namedEvent env.toEventEnv e = .ok e' ∧ r.metricName = some name ∧
      evaluateRaw env turn e' (s.stored env.toEventEnv e' fingerprint r) = .ok ((), s') ∧
      s'.intake = s.intake.append
        ⟨[inboxRow env.toEventEnv e' r.ts r.value r.severity fingerprint],
          (r.sample env.toEventEnv e' fingerprint).toList, [e.origin]⟩ ∧
      ∀ entityId,
        resolveMetricName env.toPyText (monEvent env.toEventEnv e' entityId) = some name ∧
        ((∃ x, r.value = some x ∧ (monEvent env.toEventEnv e' entityId).value = .number x) ↔
          e.value.Exact) := by
  obtain ⟨e', fingerprint, r, hprepared, hreads, heval⟩ := ingestEvent_taken hrun
  have hkind' : e'.get "kind" = .str "metric" := by
    rw [namedEvent_get env hprepared.named (by decide), hkind]
  obtain ⟨name, hname⟩ := Option.isSome_iff_exists.mp (hreads.named hkind')
  refine ⟨e', fingerprint, r, name, hprepared.named, hname, heval, ?_, fun entityId => ⟨?_, ?_⟩⟩
  · rw [((evaluateRaw_ends env turn e' _).of_ok heval).intake, stored_intake, Intake.append_assoc,
      namedEvent_origin env hprepared.named]
    simp [Intake.append]
  · have hread := hreads.name
    rw [if_pos hkind', hname] at hread
    exact resolve_named hkind hprepared.named hread entityId
  · have hsame := namedEvent_value hprepared.named
    rw [← hsame]
    exact toFloat_evaluated_iff (hsame ▸ numeric_of_valid hkind hprepared.valid) hreads.value
      entityId

theorem MetricAgrees.exact (hkind : e.get "kind" = .str "metric")
    (hrun : ingestEvent env turn (some e) s = .ok (.taken, s'))
    (h : MetricAgrees env turn e s s') : e.value.Exact := by
  obtain ⟨e', fingerprint, r, name, hnamed, hname, -, hintake, hseen⟩ := metric_taken hkind hrun
  obtain ⟨e'', s₁, row, sample, hnamed', -, -, hleft, hagrees⟩ := h
  obtain rfl := Except.ok.inj (hnamed.symm.trans hnamed')
  have hsample : (r.sample env.toEventEnv e' fingerprint).toList = [sample] :=
    List.append_cancel_left (congrArg Intake.samples (hintake.symm.trans hleft))
  cases hread : r.value with
  | none =>
      rw [Reading.sample, hread] at hsample
      cases hsample
  | some x =>
      rw [Reading.sample, hread, hname] at hsample
      obtain rfl := List.singleton_inj.mp hsample
      exact (hseen "").2.mp ⟨x, hread, (hagrees "").evaluated⟩

theorem metricAgrees_of_exact (hkind : e.get "kind" = .str "metric")
    (hrun : ingestEvent env turn (some e) s = .ok (.taken, s')) (hexact : e.value.Exact) :
    MetricAgrees env turn e s s' := by
  obtain ⟨e', fingerprint, r, name, hnamed, hname, heval, hintake, hseen⟩ := metric_taken hkind hrun
  obtain ⟨x, hread, -⟩ := (hseen "").2.mpr hexact
  set sample := metricSample env.toEventEnv e' r.ts fingerprint x name
  have hsample : (r.sample env.toEventEnv e' fingerprint).toList = [sample] := by
    rw [Reading.sample, hread, hname]
    rfl
  rw [hsample] at hintake
  refine ⟨e', _, _, sample, hnamed, ?_, heval, hintake, fun entityId => ?_⟩
  · rw [stored_intake, hsample]
  · obtain ⟨hresolve, hiff⟩ := hseen entityId
    obtain ⟨y, hy, hevaluated⟩ := hiff.mpr hexact
    obtain rfl := Option.some.inj (hread.symm.trans hy)
    exact ⟨hresolve, hread, hevaluated⟩

end Event

/-- **Stored and evaluated.** Of a metric that is taken there is one sample, with the name and the
value that the rules see and the row has, exactly if its value is no boolean, and no integer that a
float does not have. -/
theorem metric_agrees_iff (env : IngestEnv) (turn : Turn) (e : RawEvent) (s s' : IngestSession)
    (hkind : e.get "kind" = .str "metric")
    (hrun : ingestEvent env turn (some e) s = .ok (.taken, s')) :
    MetricAgrees env turn e s s' ↔ e.value.Exact :=
  ⟨MetricAgrees.exact hkind hrun, metricAgrees_of_exact hkind hrun⟩

/-! ### Three values -/

/-- An event with a value. -/
def valued (value : Json) : RawEvent where
  fields := [("source", .str "agent"), ("kind", .str "metric"),
    ("entity", .obj [("entity_id", .str "web-01")]), ("ts", .str "2026-01-01T00:00:00Z"),
    ("value", value), ("name", .str "cpu"), ("fingerprint", .str "0f1e")]
  value := .json value

/-- What `ingest` makes of it, with the session that it leaves. -/
def intakeOf (value : Json) : Except IngestFailure (EventOutcome × IngestSession) :=
  ingestEvent smallEnv smallTurn (some (valued value)) (.opened emptyStore)

theorem exists_taken (value : Json)
    (h : (intakeOf value).toOption.map Prod.fst = some .taken) :
    ∃ s', intakeOf value = .ok (.taken, s') := by
  cases hrun : intakeOf value with
  | error f =>
      rw [hrun] at h
      cases h
  | ok r =>
      rw [hrun] at h
      exact ⟨r.2, congrArg Except.ok (Prod.ext (Option.some.inj h) rfl)⟩

theorem three_agrees : ∃ s', intakeOf (.int 3) = .ok (.taken, s') ∧
    MetricAgrees smallEnv smallTurn (valued (.int 3)) (.opened emptyStore) s' := by
  obtain ⟨s', hrun⟩ := exists_taken (.int 3) (by decide +kernel)
  exact ⟨s', hrun, (metric_agrees_iff smallEnv smallTurn (valued (.int 3)) (.opened emptyStore) s'
    rfl hrun).mpr ⟨3, 0, by decide, rfl⟩⟩

/-- A boolean leaves no sample, but is compared, and an integer is compared that is longer than what
is stored. -/
theorem others_disagree :
    (∃ s', intakeOf (.bool true) = .ok (.taken, s') ∧
      ¬ MetricAgrees smallEnv smallTurn (valued (.bool true)) (.opened emptyStore) s') ∧
    ∃ s', intakeOf (.int (2 ^ 53 + 1)) = .ok (.taken, s') ∧
      ¬ MetricAgrees smallEnv smallTurn (valued (.int (2 ^ 53 + 1))) (.opened emptyStore) s' := by
  constructor
  · obtain ⟨s', hrun⟩ := exists_taken (.bool true) (by decide +kernel)
    exact ⟨s', hrun, fun h => h.exact rfl hrun⟩
  · obtain ⟨s', hrun⟩ := exists_taken (.int (2 ^ 53 + 1)) (by decide +kernel)
    refine ⟨s', hrun, fun h => ?_⟩
    have hself : roundBits 53 (2 ^ 53 + 1) = 2 ^ 53 + 1 :=
      roundBits_eq_self_iff.mpr (h.exact rfl hrun)
    exact absurd hself (by decide +kernel)

end LarkPlat
