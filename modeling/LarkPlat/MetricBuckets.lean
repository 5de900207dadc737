import LarkPlat.Aggregates
import LarkPlat.Grouping
import LarkPlat.KbConfinement
import LarkPlat.MetricConfinement
import Mathlib.Data.List.MinMax
import Mathlib.Data.Prod.Lex
import Mathlib.Data.Rat.Encodable
import Mathlib.Data.Rat.Floor
import Mathlib.Tactic.Linarith
import Mathlib.Tactic.Positivity
import Mathlib.Tactic.Ring

/-!
# Buckets of Samples

`query_bucketed` groups samples by their entity and a bucket of time, which is an hour, a day or five
minutes, as it is asked for. The database truncates to units of its own, and the unit for five
minutes is one minute.

The database is PostgreSQL in a session whose zone has a fixed offset: days begin at midnight of
the zone. Its aggregates are taken in exact arithmetic, and `NaN` is greater than all numbers.

## Main results

* `exact_of_floor`: the rows are those of the buckets that the unit makes.
* `buckets_exact_iff`: the rows are those of buckets of the length that is asked for, exactly if no
  sample in buckets of five minutes lies behind the first minute of its bucket.
-/

namespace LarkPlat

open Grouping

/-- `query_bucketed`, with the points that `query_metrics` makes of its rows. -/
def queryBucketed (env : MetricEnv) (samples : List MetricSample) (entityIds : Option (List String))
    (metricName : String) (startText endText : Option String) (agg : String) :
    Except PyErr (List BucketPoint) := do
  let first ← timeBound env startText
  let last ← timeBound env endText
  pure (bucketed env agg (matching entityIds metricName first last samples))

/-- `query_metrics` with a length of buckets. -/
theorem queryMetrics_buckets {env : MetricEnv} {db : MetricDb} {user : Actor} {q : MetricQuery}
    (hagg : q.agg ∈ ["5m", "1h", "1d"]) (hperm : user.hasPerm "monitor:metric:view" = true) :
    queryMetrics env db user q = (queryBucketed env db.samples
      (scopeMetricIds db.hosts user q.entityIds q.groupId) q.metricName q.startText q.endText
      q.agg).map (.buckets q.agg) := by
  rw [queryMetrics, Actor.requirePerm, if_pos hperm, queryWindow, queryBucketed]
  cases timeBound env q.startText with
  | error e => rfl
  | ok first =>
      cases timeBound env q.endText with
      | error e => rfl
      | ok last =>
          change Except.ok (answerQuery env q _) = _
          rw [answerQuery, if_pos hagg]
          rfl

/-! ### Buckets of time -/

/-- The beginning of the bucket of a time, in a zone. -/
def floorTo (zone len t : ℚ) : ℚ := ⌊(t + zone) / len⌋ * len - zone

/-- A bucket of the length begins at the time. -/
def Aligned (zone len b : ℚ) : Prop := ∃ k : ℤ, b = k * len - zone

/-- The time is in the bucket that begins at a time. -/
def InBucket (len b t : ℚ) : Prop := b ≤ t ∧ t < b + len

instance InBucket.decidable (len b t : ℚ) : Decidable (InBucket len b t) :=
  inferInstanceAs (Decidable (_ ∧ _))

section Buckets

variable {zone len b t : ℚ}

theorem floorTo_eq_iff (hlen : 0 < len) :
    floorTo zone len t = b ↔ Aligned zone len b ∧ InBucket len b t := by
  have hfloor : ∀ k : ℤ, ⌊(t + zone) / len⌋ = k ↔ InBucket len (k * len - zone) t := by
    intro k
    rw [Int.floor_eq_iff, le_div_iff₀ hlen, div_lt_iff₀ hlen, InBucket]
    constructor
    · rintro ⟨hle, hlt⟩
      constructor <;> linarith
    · rintro ⟨hle, hlt⟩
      constructor <;> linarith
  constructor
  · rintro rfl
    exact ⟨⟨_, rfl⟩, (hfloor _).mp rfl⟩
  · rintro ⟨⟨k, rfl⟩, hin⟩
    rw [floorTo, (hfloor k).mpr hin]

theorem aligned_floorTo (zone t : ℚ) (hlen : 0 < len) : Aligned zone len (floorTo zone len t) :=
  ((floorTo_eq_iff hlen).mp rfl).1

theorem inBucket_floorTo (zone t : ℚ) (hlen : 0 < len) : InBucket len (floorTo zone len t) t :=
  ((floorTo_eq_iff hlen).mp rfl).2

/-- The minute of a time begins with its five minutes exactly if it is their first one. -/
theorem floorTo_minute_iff :
    floorTo zone 60 t = floorTo zone 300 t ↔ t < floorTo zone 300 t + 60 := by
  constructor
  · intro h
    rw [← h]
    exact (inBucket_floorTo zone t (by norm_num)).2
  · intro hlt
    refine (floorTo_eq_iff (by norm_num)).mpr ⟨?_, (inBucket_floorTo zone t (by norm_num)).1, hlt⟩
    obtain ⟨k, hk⟩ : Aligned zone 300 (floorTo zone 300 t) := aligned_floorTo zone t (by norm_num)
    refine ⟨5 * k, hk.trans ?_⟩
    push_cast
    ring

end Buckets

/-! ### The database -/

/-- What the database compares of a number: `NaN` is greater than all others. -/
def Num.dbKey : Num → ℕ ×ₗ ℚ
  | .negInf => toLex (0, 0)
  | .finite q => toLex (1, q)
  | .posInf => toLex (2, 0)
  | .nan => toLex (3, 0)

/-- PostgreSQL in a session whose zone has a fixed offset. -/
structure Postgres (env : MetricEnv) (zone : ℚ) : Prop where
  minute : ∀ t, env.dateTrunc "minute" t = floorTo zone 60 t
  hour : ∀ t, env.dateTrunc "hour" t = floorTo zone 3600 t
  day : ∀ t, env.dateTrunc "day" t = floorTo zone 86400 t
  avg : ∀ values, values ≠ [] → env.avg values = Num.mean values
  max_mem : ∀ values, values ≠ [] → env.max values ∈ values
  le_max : ∀ values, ∀ v ∈ values, Num.dbKey v ≤ (env.max values).dbKey
  min_mem : ∀ values, values ≠ [] → env.min values ∈ values
  min_le : ∀ values, ∀ v ∈ values, (env.min values).dbKey ≤ Num.dbKey v
  text : ∀ b b', env.bucketText b = env.bucketText b' → b = b'

/-- The length of a bucket that is asked for. -/
def bucketLength (agg : String) : ℚ :=
  if agg = "5m" then 300 else if agg = "1d" then 86400 else 3600

/-- The length of the unit that the database truncates to. -/
def unitLength (agg : String) : ℚ :=
  if agg = "5m" then 60 else if agg = "1d" then 86400 else 3600

/-- The row has the number, the mean and the extremes of the samples. -/
structure Summarises (p : BucketPoint) (samples : List MetricSample) : Prop where
  count : p.count = samples.length
  avg : p.avg = Num.mean (samples.map MetricSample.value)
  max_mem : p.max ∈ samples.map MetricSample.value
  le_max : ∀ s ∈ samples, s.value.dbKey ≤ p.max.dbKey
  min_mem : p.min ∈ samples.map MetricSample.value
  min_le : ∀ s ∈ samples, p.min.dbKey ≤ s.value.dbKey

/-- The samples of an entity in a bucket. -/
def samplesIn (len : ℚ) (entityId : String) (b : ℚ) (samples : List MetricSample) :
    List MetricSample :=
  samples.filter fun s => decide (s.entityId = entityId ∧ InBucket len b s.ts.time)

/-- There is one row for each entity and bucket with a sample, which summarises its samples. -/
structure BucketsExactly (env : MetricEnv) (zone len : ℚ) (samples : List MetricSample)
    (points : List BucketPoint) : Prop where
  one : (points.map fun p => (p.entityId, p.bucket)).Nodup
  covers : ∀ s ∈ samples, ∃ p ∈ points, ∃ b, p.entityId = s.entityId ∧
    p.bucket = env.bucketText b ∧ Aligned zone len b ∧ InBucket len b s.ts.time
  own : ∀ p ∈ points, ∃ b, p.bucket = env.bucketText b ∧ Aligned zone len b ∧
    samplesIn len p.entityId b samples ≠ [] ∧ Summarises p (samplesIn len p.entityId b samples)
  total : (points.map BucketPoint.count).sum = samples.length

section Rows

variable {env : MetricEnv} {zone len : ℚ} {agg : String} {samples : List MetricSample}

theorem bucketLength_pos (agg : String) : 0 < bucketLength agg := by
  unfold bucketLength
  split_ifs <;> norm_num

theorem Postgres.trunc (h : Postgres env zone) (agg : String) (t : ℚ) :
    env.dateTrunc (truncUnit agg) t = floorTo zone (unitLength agg) t := by
  rw [truncUnit, unitLength]
  split_ifs
  · exact h.minute t
  · exact h.day t
  · exact h.hour t

theorem Postgres.summarises (h : Postgres env zone) (key : String × ℚ)
    (hne : samples ≠ []) : Summarises (bucketPoint env key samples) samples := by
  have hvalues : samples.map MetricSample.value ≠ [] :=
    fun hnil => hne (List.map_eq_nil_iff.mp hnil)
  exact ⟨rfl, h.avg _ hvalues, h.max_mem _ hvalues,
    fun s hs => h.le_max _ _ (List.mem_map_of_mem hs), h.min_mem _ hvalues,
    fun s hs => h.min_le _ _ (List.mem_map_of_mem hs)⟩

theorem mem_bucketed {p : BucketPoint} : p ∈ bucketed env agg samples ↔
    ∃ s ∈ samples, p = bucketPoint env (bucketKey env agg s)
      (rowsUnder (bucketKey env agg) (bucketKey env agg s) samples) := by
  rw [bucketed, List.mem_map]
  constructor
  · rintro ⟨key, hkey, rfl⟩
    rw [(List.mergeSort_perm _ _).mem_iff, List.mem_dedup] at hkey
    obtain ⟨s, hs, rfl⟩ := List.mem_map.mp hkey
    exact ⟨s, hs, rfl⟩
  · rintro ⟨s, hs, rfl⟩
    refine ⟨bucketKey env agg s, ?_, rfl⟩
    rw [(List.mergeSort_perm _ _).mem_iff, List.mem_dedup]
    exact List.mem_map_of_mem hs

theorem sum_counts (env : MetricEnv) (agg : String) (samples : List MetricSample) :
    ((bucketed env agg samples).map BucketPoint.count).sum = samples.length := by
  rw [bucketed, List.map_map, ← sum_length_rowsUnder (bucketKey env agg) samples]
  exact ((List.mergeSort_perm _ _).map _).sum_eq

theorem bucketed_one (h : Postgres env zone) (agg : String) (samples : List MetricSample) :
    ((bucketed env agg samples).map fun p => (p.entityId, p.bucket)).Nodup := by
  rw [bucketed, List.map_map]
  refine List.Nodup.map ?_ ((List.mergeSort_perm _ _).nodup_iff.mpr (List.nodup_dedup _))
  rintro ⟨e, b⟩ ⟨e', b'⟩ heq
  have hpair : (e, env.bucketText b) = (e', env.bucketText b') := heq
  rw [Prod.mk.injEq] at hpair
  exact Prod.ext hpair.1 (h.text _ _ hpair.2)

/-- **The rows** are those of the buckets that the unit makes of the samples. -/
theorem exact_of_floor (h : Postgres env zone) (hlen : 0 < len)
    (hfloor : ∀ s ∈ samples, env.dateTrunc (truncUnit agg) s.ts.time = floorTo zone len s.ts.time) :
    BucketsExactly env zone len samples (bucketed env agg samples) := by
  have hkey : ∀ s ∈ samples, ∀ s' ∈ samples, bucketKey env agg s' = bucketKey env agg s ↔
      s'.entityId = s.entityId ∧ InBucket len (floorTo zone len s.ts.time) s'.ts.time := by
    intro s hs s' hs'
    rw [bucketKey, bucketKey, Prod.mk.injEq, hfloor s hs, hfloor s' hs', floorTo_eq_iff hlen,
      and_iff_right (aligned_floorTo zone _ hlen)]
  refine ⟨bucketed_one h agg samples, fun s hs => ?_, fun p hp => ?_, sum_counts env agg samples⟩
  · refine ⟨_, mem_bucketed.mpr ⟨s, hs, rfl⟩, floorTo zone len s.ts.time, rfl, ?_,
      aligned_floorTo zone _ hlen, inBucket_floorTo zone _ hlen⟩
    exact congrArg env.bucketText (hfloor s hs)
  · obtain ⟨s, hs, rfl⟩ := mem_bucketed.mp hp
    have hrows : samplesIn len s.entityId (floorTo zone len s.ts.time) samples =
        rowsUnder (bucketKey env agg) (bucketKey env agg s) samples :=
      List.filter_congr fun s' hs' => decide_eq_decide.mpr (hkey s hs s' hs').symm
    have hne : rowsUnder (bucketKey env agg) (bucketKey env agg s) samples ≠ [] :=
      List.ne_nil_of_mem (mem_rowsUnder.mpr ⟨hs, rfl⟩)
    refine ⟨floorTo zone len s.ts.time, congrArg env.bucketText (hfloor s hs),
      aligned_floorTo zone _ hlen, ?_, ?_⟩
    · exact hrows ▸ hne
    · have hsum := h.summarises (bucketKey env agg s) hne
      exact hrows ▸ hsum

/-- Where the rows of minutes are those of five minutes, the samples lie in first minutes. -/
theorem firstMinute_of_exact (h : Postgres env zone)
    (hexact : BucketsExactly env zone 300 samples (bucketed env "5m" samples)) {s : MetricSample}
    (hs : s ∈ samples) : s.ts.time < floorTo zone 300 s.ts.time + 60 := by
  obtain ⟨p, hp, b, hentity, hbucket, haligned, hin⟩ := hexact.covers s hs
  obtain ⟨b', hbucket', -, -, hsum⟩ := hexact.own p hp
  obtain ⟨s₀, hs₀, rfl⟩ := mem_bucketed.mp hp
  obtain rfl := h.text _ _ (hbucket.symm.trans hbucket')
  have hminute : (bucketKey env "5m" s₀).2 = b := h.text _ _ hbucket
  have hkey : bucketKey env "5m" s₀ = (s.entityId, b) := Prod.ext hentity hminute
  rw [hkey] at hsum
  -- all samples of the minute are in the bucket, and there are as many of them
  have hsub : List.Sublist (rowsUnder (bucketKey env "5m") (s.entityId, b) samples)
      (samplesIn 300 s.entityId b samples) := by
    refine List.monotone_filter_right samples fun s' hs' => ?_
    have hs' := of_decide_eq_true hs'
    rw [bucketKey, Prod.mk.injEq, h.trunc] at hs'
    obtain ⟨hle, hlt⟩ := ((floorTo_eq_iff (by norm_num [unitLength])).mp hs'.2).2
    have hlen : unitLength "5m" = 60 := rfl
    exact decide_eq_true ⟨hs'.1, hle, by linarith⟩
  have hmem : s ∈ rowsUnder (bucketKey env "5m") (s.entityId, b) samples := by
    rw [hsub.eq_of_length hsum.count]
    exact List.mem_filter.mpr ⟨hs, decide_eq_true ⟨rfl, hin⟩⟩
  have hfloor : floorTo zone 60 s.ts.time = b := by
    have htrunc := congrArg Prod.snd (mem_rowsUnder.mp hmem).2
    exact (h.trunc "5m" s.ts.time).symm.trans htrunc
  have hfive : floorTo zone 300 s.ts.time = b := (floorTo_eq_iff (by norm_num)).mpr ⟨haligned, hin⟩
  exact floorTo_minute_iff.mp (hfloor.trans hfive.symm)

/-- **Buckets of the length that is asked for.** The rows of `query_bucketed` are those of the
buckets of this length exactly if no sample in buckets of five minutes lies behind the first minute
of its bucket. -/
theorem buckets_exact_iff (h : Postgres env zone) {entityIds : Option (List String)}
    {metricName : String} {startText endText : Option String} {first last : Option ℚ}
    (hfirst : timeBound env startText = .ok first) (hlast : timeBound env endText = .ok last) :
    (∃ points, queryBucketed env samples entityIds metricName startText endText agg = .ok points ∧
      BucketsExactly env zone (bucketLength agg)
        (matching entityIds metricName first last samples) points) ↔
      (agg = "5m" → ∀ s ∈ matching entityIds metricName first last samples,
        s.ts.time < floorTo zone 300 s.ts.time + 60) := by
  have hquery : queryBucketed env samples entityIds metricName startText endText agg =
      .ok (bucketed env agg (matching entityIds metricName first last samples)) := by
    rw [queryBucketed, hfirst, hlast]
    rfl
  constructor
  · rintro ⟨points, hpoints, hexact⟩ rfl s hs
    obtain rfl := Except.ok.inj (hquery.symm.trans hpoints)
    exact firstMinute_of_exact h hexact hs
  · intro hfirstMinute
    refine ⟨_, hquery, exact_of_floor h (bucketLength_pos agg) fun s hs => ?_⟩
    rw [h.trunc]
    by_cases hagg : agg = "5m"
    · subst hagg
      exact floorTo_minute_iff.mpr (hfirstMinute rfl s hs)
    · rw [unitLength, bucketLength, if_neg hagg, if_neg hagg]

end Rows

/-! ### Two samples in five minutes -/

/-- The texts of two times, and others for all other times. -/
def utcText (t : ℚ) : String :=
  if t = 0 then "1970-01-01 00:00:00+00:00"
  else if t = 60 then "1970-01-01 00:01:00+00:00"
  else toString (Encodable.encode t)

/-- A database whose sessions are in UTC. -/
def utcEnv : MetricEnv where
  castTime _ := .error .valueError
  dateTrunc unit t :=
    floorTo 0 (if unit = "minute" then 60 else if unit = "day" then 86400 else 3600) t
  collates a b := decide (a ≤ b)
  avg := Num.mean
  max values := (values.argmax Num.dbKey).getD .nan
  min values := (values.argmin Num.dbKey).getD .nan
  bucketText := utcText
  isoText _ := ""

/-- The time of a text. -/
def readUtc (text : String) : Option ℚ :=
  if text = "1970-01-01 00:00:00+00:00" then some 0
  else if text = "1970-01-01 00:01:00+00:00" then some 60
  else (Json.parseInt text).bind fun n => Encodable.decode n.toNat

theorem readUtc_utcText (t : ℚ) : readUtc (utcText t) = some t := by
  rw [utcText]
  split_ifs with hzero hsixty
  · exact congrArg some hzero.symm
  · rw [readUtc, if_neg (by decide +kernel), if_pos rfl, hsixty]
  · have hnumber : Json.parseInt (toString (Encodable.encode t)) = some _ :=
      Json.parseInt_toString _
    have hother : ∀ text, Json.parseInt text = none → toString (Encodable.encode t) ≠ text := by
      rintro _ hnone rfl
      exact Option.some_ne_none _ (hnumber.symm.trans hnone)
    rw [readUtc, if_neg (hother _ (by decide +kernel)), if_neg (hother _ (by decide +kernel)),
      hnumber]
    exact Encodable.encodek t

theorem getD_of_some {o : Option Num} {P : Num → Prop} (hne : o ≠ none)
    (h : ∀ m, o = some m → P m) : P (o.getD .nan) := by
  obtain ⟨m, rfl⟩ := Option.ne_none_iff_exists'.mp hne
  exact h m rfl

theorem postgres_utc : Postgres utcEnv 0 where
  minute _ := rfl
  hour _ := rfl
  day _ := rfl
  avg _ _ := rfl
  max_mem _ hne := getD_of_some (mt List.argmax_eq_none.mp hne) fun _ hm => List.argmax_mem hm
  le_max _ v hv := getD_of_some (P := fun m => v.dbKey ≤ m.dbKey)
    (mt List.argmax_eq_none.mp (List.ne_nil_of_mem hv)) fun _ hm => List.le_of_mem_argmax hv hm
  min_mem _ hne := getD_of_some (mt List.argmin_eq_none.mp hne) fun _ hm => List.argmin_mem hm
  min_le _ v hv := getD_of_some (P := fun m => m.dbKey ≤ v.dbKey)
    (mt List.argmin_eq_none.mp (List.ne_nil_of_mem hv)) fun _ hm => List.le_of_mem_argmin hv hm
  text b b' h := by
    have hread := congrArg readUtc h
    change readUtc (utcText b) = readUtc (utcText b') at hread
    rw [readUtc_utcText, readUtc_utcText] at hread
    exact Option.some.inj hread

/-- Two samples in the first minute are one row. -/
theorem first_minute_one_row : ∃ points,
    queryBucketed utcEnv [sampleOf "web-1" "cpu" 0, sampleOf "web-1" "cpu" 30] none "cpu" none none
        "5m" = .ok points ∧
      BucketsExactly utcEnv 0 (bucketLength "5m")
        (matching none "cpu" none none [sampleOf "web-1" "cpu" 0, sampleOf "web-1" "cpu" 30])
        points := by
  refine (buckets_exact_iff postgres_utc rfl rfl).mpr fun _ s hs => ?_
  have hs := (List.mem_filter.mp hs).1
  simp only [List.mem_cons, List.not_mem_nil, or_false] at hs
  rcases hs with rfl | rfl
  · decide +kernel
  · decide +kernel

/-- A sample at the beginning and one a minute later are two rows for one bucket of five minutes. -/
theorem later_minute_other_row : ¬ ∃ points,
    queryBucketed utcEnv [sampleOf "web-1" "cpu" 0, sampleOf "web-1" "cpu" 60] none "cpu" none none
        "5m" = .ok points ∧
      BucketsExactly utcEnv 0 (bucketLength "5m")
        (matching none "cpu" none none [sampleOf "web-1" "cpu" 0, sampleOf "web-1" "cpu" 60])
        points := by
  rintro ⟨points, hpoints, hexact⟩
  obtain rfl := Except.ok.inj hpoints
  have hlater := firstMinute_of_exact postgres_utc hexact
    (List.mem_filter.mpr ⟨List.mem_cons_of_mem _ List.mem_cons_self, rfl⟩)
  exact absurd hlater (by decide +kernel)

end LarkPlat
