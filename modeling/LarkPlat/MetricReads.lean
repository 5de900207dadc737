import LarkPlat.Ingest
import LarkPlat.Terminals
import LarkPlat.Visibility

/-!
# Reads of Metrics

`query_metrics` and `current_metrics` cut the requested entities down to the visible ones and pass
the list to a query. The queries take an empty list for no filter. The query behind
`current_metrics` reads the newest rows of the whole table before it looks at their entities.
-/

namespace LarkPlat

/-- The tables that the reads of metrics use. -/
structure MetricDb where
  hosts : List AssetHost
  samples : List MetricSample

/-- What the database computes, and the texts of times. -/
structure MetricEnv where
  /-- The time that a text denotes in a comparison, or the statement fails. -/
  castTime : String → Except PyErr ℚ
  /-- `date_trunc`. -/
  dateTrunc : String → ℚ → ℚ
  /-- The order of texts. -/
  collates : String → String → Bool
  avg : List Num → Num
  max : List Num → Num
  min : List Num → Num
  /-- `str(bucket)`. -/
  bucketText : ℚ → String
  /-- `ts.isoformat()`. -/
  isoText : Stamp → String

/-! ### Scopes -/

/-- `_visible_entity_ids`; the groups of a user are never `None`. -/
def scopeOf (hosts : List AssetHost) (user : Actor) : Option (List String) :=
  if user.isAdmin then none else some (visibleEntityIds hosts user.visibleGroupIds)

/-- The requested entities among some others. -/
def narrow (others : List String) : Option (List String) → List String
  | none => others
  | some ids => ids.filter fun e => decide (e ∈ others)

/-- The requested entities in a group, if one is given. -/
def groupScope (hosts : List AssetHost) (entityIds : Option (List String)) :
    Option ℕ → Option (List String)
  | none => entityIds
  | some g => if g = 0 then entityIds else some (narrow (visibleEntityIds hosts [g]) entityIds)

/-- `_scope_metric_ids`. -/
def scopeMetricIds (hosts : List AssetHost) (user : Actor) (entityIds : Option (List String))
    (groupId : Option ℕ) : Option (List String) :=
  match scopeOf hosts user with
  | none => groupScope hosts entityIds groupId
  | some visible => some (narrow visible (groupScope hosts entityIds groupId))

/-! ### Queries -/

/-- `if metric_name: ... metric_name == ...`. -/
def metricWanted (metricName : String) (s : MetricSample) : Bool :=
  decide (metricName = "" ∨ s.metricName = metricName)

/-- `if entity_ids: ... entity_id IN ...`. -/
def entityWanted (entityIds : Option (List String)) (s : MetricSample) : Bool :=
  match entityIds with
  | none => true
  | some ids => decide (ids = [] ∨ s.entityId ∈ ids)

/-- A bound on the time of a sample, if one is given. -/
def timeBound (env : MetricEnv) : Option String → Except PyErr (Option ℚ)
  | none => pure none
  | some text => if text = "" then pure none else some <$> env.castTime text

/-- The sample lies within the bounds. -/
def inWindow (first last : Option ℚ) (t : ℚ) : Bool :=
  first.all (fun lo => decide (lo ≤ t)) && last.all fun hi => decide (t ≤ hi)

/-- The rows that the conditions of a query select. -/
def matching (entityIds : Option (List String)) (metricName : String) (first last : Option ℚ)
    (samples : List MetricSample) : List MetricSample :=
  samples.filter fun s =>
    metricWanted metricName s && entityWanted entityIds s && inWindow first last s.ts.time

/-- `ORDER BY ts DESC`. -/
def newestFirst (samples : List MetricSample) : List MetricSample :=
  samples.mergeSort fun a b => decide (b.ts.time ≤ a.ts.time)

/-- The unit of the buckets. -/
def truncUnit (agg : String) : String :=
  if agg = "5m" then "minute" else if agg = "1d" then "day" else "hour"

/-- A point of a series. -/
structure MetricPoint where
  ts : String
  entityId : String
  value : Num
  source : Json
  deriving DecidableEq

/-- A bucket of a series, which is a point as well. -/
structure BucketPoint where
  entityId : String
  bucket : String
  avg : Num
  max : Num
  min : Num
  count : ℕ
  ts : String
  value : Num
  deriving DecidableEq

/-- The latest value of a metric. -/
structure CurrentPoint where
  entityId : String
  metricName : String
  value : Num
  ts : String
  deriving DecidableEq

/-- The bucket of a group of rows. -/
def bucketPoint (env : MetricEnv) (key : String × ℚ) (rows : List MetricSample) : BucketPoint where
  entityId := key.1
  bucket := env.bucketText key.2
  avg := env.avg (rows.map MetricSample.value)
  max := env.max (rows.map MetricSample.value)
  min := env.min (rows.map MetricSample.value)
  count := rows.length
  ts := env.bucketText key.2
  value := env.avg (rows.map MetricSample.value)

/-- The entity of a sample with its bucket. -/
def bucketKey (env : MetricEnv) (agg : String) (s : MetricSample) : String × ℚ :=
  (s.entityId, env.dateTrunc (truncUnit agg) s.ts.time)

/-- The order of the buckets. -/
def bucketOrder (env : MetricEnv) (a b : String × ℚ) : Bool :=
  if a.1 = b.1 then decide (a.2 ≤ b.2) else env.collates a.1 b.1

/-- `query_bucketed`, over the rows that are selected. -/
def bucketed (env : MetricEnv) (agg : String) (rows : List MetricSample) : List BucketPoint :=
  ((rows.map (bucketKey env agg)).dedup.mergeSort (bucketOrder env)).map fun key =>
    bucketPoint env key (rows.filter fun s => decide (bucketKey env agg s = key))

/-- The point of a row. -/
def metricPoint (env : MetricEnv) (s : MetricSample) : MetricPoint :=
  ⟨env.isoText s.ts, s.entityId, s.value, s.source⟩

/-- The first row of each entity and metric. -/
def firstOfEach (rows : List MetricSample) : List MetricSample :=
  rows.foldl (fun seen s =>
    if seen.any fun r => decide (r.entityId = s.entityId ∧ r.metricName = s.metricName) then seen
    else seen ++ [s]) []

/-- `latest_by_entity`. -/
def latestByEntity (entityIds : Option (List String)) (metricName : String)
    (samples : List MetricSample) : List MetricSample :=
  firstOfEach (((newestFirst samples).take 500).filter fun s =>
    metricWanted metricName s && entityWanted entityIds s)

/-! ### Calls -/

/-- The arguments of `query_metrics`. -/
structure MetricQuery where
  entityIds : Option (List String)
  groupId : Option ℕ
  metricName : String
  startText : Option String
  endText : Option String
  agg : String
  page : ℕ
  size : ℕ

/-- A read of metrics. -/
inductive MetricCall where
  | query (q : MetricQuery)
  | current (entityIds : Option (List String)) (metricName : Option String)

/-- The answer to a read. -/
inductive MetricAnswer where
  | buckets (agg : String) (points : List BucketPoint)
  | page (points : List MetricPoint) (total page size : ℕ)
  | current (list : List CurrentPoint)
  deriving DecidableEq

/-- The answer of `query_metrics` to the rows that are selected. -/
def answerQuery (env : MetricEnv) (q : MetricQuery) (rows : List MetricSample) : MetricAnswer :=
  if q.agg ∈ ["5m", "1h", "1d"] then .buckets q.agg (bucketed env q.agg rows)
  else
    .page ((((newestFirst rows).drop ((q.page - 1) * q.size)).take q.size).map (metricPoint env))
      rows.length q.page q.size

/-- The bounds of a query. -/
def queryWindow (env : MetricEnv) (q : MetricQuery) : Except PyErr (Option ℚ × Option ℚ) := do
  let first ← timeBound env q.startText
  let last ← timeBound env q.endText
  pure (first, last)

/-- `query_metrics`. -/
def queryMetrics (env : MetricEnv) (db : MetricDb) (user : Actor) (q : MetricQuery) :
    Except PyErr MetricAnswer := do
  user.requirePerm "monitor:metric:view"
  let entityIds := scopeMetricIds db.hosts user q.entityIds q.groupId
  let (first, last) ← queryWindow env q
  pure (answerQuery env q (matching entityIds q.metricName first last db.samples))

/-- `current_metrics`. -/
def currentMetrics (env : MetricEnv) (db : MetricDb) (user : Actor)
    (entityIds : Option (List String)) (metricName : Option String) :
    Except PyErr MetricAnswer := do
  user.requirePerm "monitor:metric:view"
  let entityIds := scopeMetricIds db.hosts user entityIds none
  pure (.current ((latestByEntity entityIds (metricName.getD "") db.samples).map fun s =>
    ⟨s.entityId, s.metricName, s.value, env.isoText s.ts⟩))

/-- The result of a read. -/
def MetricCall.result (env : MetricEnv) (db : MetricDb) (user : Actor) :
    MetricCall → Except PyErr MetricAnswer
  | .query q => queryMetrics env db user q
  | .current entityIds metricName => currentMetrics env db user entityIds metricName

end LarkPlat
