import LarkPlat.AlertViews

/-!
# From Payloads to Events

What `ingest` makes of a payload before it touches the database: the normalizers of the adapters
turn it into events, and each event is validated, gets its key, its metric name and its time.
Payloads are JSON of any shape; where Python aborts with an exception, so does the model.

An event is a dictionary. The value that a normalizer computes is a float, which may be infinite or
no number, and is kept beside the other fields. The length of an integer is not limited; an
`OverflowError` counts as a `ValueError`. What Python's own library decides (the text of a value
that is no string, the reading of a date) is a parameter, and so is the text of the clock, which
does not move while a payload is normalized.
-/

namespace LarkPlat

/-! ### Events -/

/-- A moment with its calendar day. -/
structure Stamp where
  time : ℚ
  day : ℤ
  deriving DecidableEq

/-- The value of an event: as it was pushed, or what `_to_float` has made of it. -/
inductive RawValue where
  | json (v : Json)
  | float (x : Option Num)
  deriving DecidableEq

/-- An event: its fields, and its value. -/
structure RawEvent where
  fields : List (String × Json)
  value : RawValue
  deriving DecidableEq

namespace RawEvent

/-- `raw.get(k)`. -/
def get (e : RawEvent) (k : String) : Json := Json.field e.fields k

/-- `raw.get(k, default)`. -/
def getOr (e : RawEvent) (k : String) (default : Json) : Json := (e.fields.lookup k).getD default

/-- An event that was pushed, if it is a dictionary. -/
def ofJson : Json → Option RawEvent
  | .obj fields => some ⟨fields, .json (Json.field fields "value")⟩
  | _ => none

end RawEvent

/-- What Python's library decides. -/
structure EventEnv extends PyText where
  /-- `str(x)` of what is no string. -/
  text : Json → String
  /-- `datetime.fromtimestamp`. -/
  fromTimestamp : ℚ → Except PyErr Stamp
  /-- `datetime.fromisoformat`. -/
  fromIso : String → Option Stamp
  /-- `build_fingerprint`. -/
  fingerprint : RawEvent → Except PyErr String

namespace EventEnv

/-- `str(x)`. -/
def str (env : EventEnv) : Json → String
  | .str s => s
  | v => env.text v

/-- `x.lower()`: only strings have the method. -/
def lowered (env : EventEnv) : Json → Except PyErr String
  | .str s => .ok (env.lower s)
  | _ => .error .attributeError

end EventEnv

/-! ### Python's containers -/

/-- `for item in x`. -/
def pyIter : Json → Except PyErr (List Json)
  | .arr items => .ok items
  | .obj fields => .ok (fields.map fun f => .str f.1)
  | .str s => .ok (s.toList.map fun c => .str (String.singleton c))
  | _ => .error .typeError

/-- An item of a list that `dict` reads as a key with its value. A key that is no string is kept
under its text. -/
def pyPair (env : EventEnv) (item : Json) : Except PyErr (String × Json) :=
  match pyIter item with
  | .ok [.arr _, _] => .error .typeError
  | .ok [.obj _, _] => .error .typeError
  | .ok [k, v] => .ok (env.str k, v)
  | .ok _ => .error .valueError
  | .error e => .error e

/-- `dict(x)`. -/
def pyDict (env : EventEnv) (x : Json) : Except PyErr (List (String × Json)) :=
  match x with
  | .obj fields => .ok fields
  | x => do
      let items ← pyIter x
      let pairs ← items.mapM (pyPair env)
      pure (pairs.foldl (fun fields p => Json.setField fields p.1 p.2) [])

/-- A number with so many bits, and zeros for the others: the nearest one, and an even one of two
that are as near. -/
def roundBits (bits n : ℕ) : ℕ :=
  let unit := 2 ^ (n.log2 + 1 - bits)
  let kept := n / unit
  let rest := n % unit
  unit * if 2 * rest < unit ∨ 2 * rest = unit ∧ kept % 2 = 0 then kept else kept + 1

theorem roundBits_eq_self_iff {bits n : ℕ} :
    roundBits bits n = n ↔ ∃ m k, m < 2 ^ bits ∧ n = m * 2 ^ k := by
  have hunit : roundBits bits n = n ↔ 2 ^ (n.log2 + 1 - bits) ∣ n := by
    have hpos : 0 < 2 ^ (n.log2 + 1 - bits) := Nat.two_pow_pos _
    rw [roundBits]
    generalize 2 ^ (n.log2 + 1 - bits) = unit at hpos ⊢
    have hsplit : unit * (n / unit) + n % unit = n := Nat.div_add_mod n unit
    have hrest : n % unit < unit := Nat.mod_lt n hpos
    rw [Nat.dvd_iff_mod_eq_zero]
    split_ifs with hdown
    · omega
    · rw [Nat.mul_succ]
      omega
  rw [hunit]
  constructor
  · rintro ⟨m, hm⟩
    refine ⟨m, n.log2 + 1 - bits, ?_, by rw [Nat.mul_comm]; exact hm⟩
    have hlt : 2 ^ (n.log2 + 1 - bits) * m < 2 ^ (n.log2 + 1 - bits) * 2 ^ bits := by
      rw [← hm, ← Nat.pow_add]
      exact Nat.lt_log2_self.trans_le (Nat.pow_le_pow_right Nat.two_pos (by omega))
    exact Nat.lt_of_mul_lt_mul_left hlt
  · rintro ⟨m, k, hm, hn⟩
    by_cases hzero : n = 0
    · rw [hzero]
      exact Nat.dvd_zero _
    have hlt : n < 2 ^ (bits + k) := by
      rw [hn, Nat.pow_add]
      exact Nat.mul_lt_mul_of_pos_right hm (Nat.two_pow_pos k)
    have hlog : n.log2 < bits + k := (Nat.log2_lt hzero).mpr hlt
    have hdvd : 2 ^ (n.log2 + 1 - bits) ∣ 2 ^ k := Nat.pow_dvd_pow 2 (by omega)
    rw [hn] at hdvd ⊢
    exact hdvd.mul_left m

/-- `float(n)` of an integer. -/
def floatOfInt (n : ℤ) : Except PyErr Num :=
  if n.natAbs < 2 ^ 1024 - 2 ^ 970 then .ok (.finite (n.sign * roundBits 53 n.natAbs : ℤ))
  else .error .valueError

theorem floatOfInt_small {n : ℤ} (h : n.natAbs < 2 ^ 53) : floatOfInt n = .ok (.finite n) := by
  have hself : roundBits 53 n.natAbs = n.natAbs :=
    roundBits_eq_self_iff.mpr ⟨n.natAbs, 0, h, (Nat.mul_one _).symm⟩
  rw [floatOfInt, if_pos (h.trans (by decide +kernel)), hself, Int.sign_mul_natAbs]

/-- A float. -/
def Num.ofFloat : PyFloat → Num
  | .fin q => .finite q
  | .inf false => .posInf
  | .inf true => .negInf
  | .nan => .nan

/-- `_to_float`. -/
def toFloat (env : EventEnv) : RawValue → Except PyErr (Option Num)
  | .float x => .ok x
  | .json (.bool _) => .ok none
  | .json (.int n) => (floatOfInt n).map some
  | .json (.float q) => .ok (some (.finite q))
  | .json v => .ok ((PyFloat.ofString (env.str v)).map Num.ofFloat)

/-! ### Validation -/

/-- `MON_SOURCES`. -/
def monSources : List String :=
  ["agent", "prometheus", "elk", "skywalking", "alertmanager", "webhook"]

/-- `MON_KINDS`. -/
def monKinds : List String := ["metric", "alert", "log", "apm"]

/-- `MON_LEVELS`. -/
def monLevels : List String := ["info", "warning", "critical"]

/-- `x in names` for a set of strings: lists and dictionaries have no hash. -/
def inSet (names : List String) : Json → Except PyErr Bool
  | .str s => .ok (decide (s ∈ names))
  | .arr _ => .error .typeError
  | .obj _ => .error .typeError
  | _ => .ok false

/-- `isinstance(value, (int, float))`. -/
def RawValue.numeric : RawValue → Bool
  | .float x => x.isSome
  | .json (.bool _) => true
  | .json (.int _) => true
  | .json (.float _) => true
  | .json _ => false

/-- `entity.get("entity_id")` of an event, if its entity is a dictionary. -/
def RawEvent.entityId (e : RawEvent) : Json :=
  match e.get "entity" with
  | .obj fields => Json.field fields "entity_id"
  | _ => .null

/-- `validate_event`: what is wrong with an event, if anything. -/
def validateEvent (env : EventEnv) (e : RawEvent) : Except PyErr (Option String) := do
  let source := e.get "source"
  let kind := e.get "kind"
  if !(← inSet monSources source) then pure (some ("invalid source: " ++ env.str source))
  else if !(← inSet monKinds kind) then pure (some ("invalid kind: " ++ env.str kind))
  else if !e.entityId.truthy then pure (some "entity.entity_id required")
  else if !(e.get "ts").truthy then pure (some "ts required")
  else if kind = .str "metric" ∧ !e.value.numeric then
    pure (some "metric kind requires numeric value")
  else pure none

/-- `build_event_key`. -/
def buildEventKey (env : EventEnv) (source eventId : Json) : Option String :=
  if eventId.truthy then some (env.str source ++ ":" ++ env.str eventId) else none

/-- `_coerce_ts`. -/
def coerceTs (env : EventEnv) (now : Stamp) : Json → Except PyErr Stamp
  | .bool b => env.fromTimestamp (if b then 1 else 0)
  | .int n => env.fromTimestamp (if 10 ^ 12 < n then n / 1000 else n)
  | .float q => env.fromTimestamp (if 10 ^ 12 < q then q / 1000 else q)
  | v => .ok ((env.fromIso (Text.replace (env.str v) "Z" "+00:00")).getD now)

/-- `_resolve_metric_name`. -/
def metricNameOf (env : EventEnv) (e : RawEvent) : Except PyErr (Option String) := do
  let labels := (e.get "labels").pyOr (.obj [])
  let name := ((← labels.get "metric_name").pyOr (← labels.get "__name__")).pyOr
    ((e.get "metric_name").pyOr (e.get "name"))
  if !name.truthy then pure none
  else
    let name := env.strip (env.str name)
    if name = "" ∨ env.lower name = "unknown" then pure none else pure (some name)

/-- `_normalize_metric_name`. -/
def normalizeMetricName (env : EventEnv) (e : RawEvent) : Except PyErr RawEvent := do
  match ← metricNameOf env e with
  | none => pure e
  | some name =>
      let labels ← pyDict env ((e.get "labels").pyOr (.obj []))
      let labels := Json.setField labels "metric_name" (.str name)
      pure { e with fields := Json.setField e.fields "labels" (.obj labels) }

/-! ### Normalization -/

/-- The levels that `_severity_from_status` knows. -/
def severityOfStatus : List (String × String) :=
  [("critical", "critical"), ("error", "warning"), ("warning", "warning"), ("warn", "warning"),
    ("info", "info"), ("firing", "warning"), ("pending", "info")]

/-- `_severity_from_status`. -/
def severityFromStatus (env : EventEnv) (status : Json) : Except PyErr String := do
  let status ← env.lowered (status.pyOr (.str ""))
  pure ((severityOfStatus.lookup status).getD "warning")

/-- The entity of an event. -/
def hostEntity (entityType : String) (entityId entityName : Json) : Json :=
  .obj [("entity_type", .str entityType), ("entity_id", entityId), ("entity_name", entityName)]

/-- The event of one alert of a webhook, from the fields of the payload and of the alert, from the
labels of the alert, and from its severity. -/
def alertmanagerEvent (env : EventEnv) (nowIso : String)
    (payload alert labels : List (String × Json)) (severity : String) : RawEvent :=
  let entityId := ((Json.field labels "instance").pyOr (Json.field labels "host")).pyOr
    (.str "unknown")
  let entityName := ((Json.field labels "hostname").pyOr (Json.field labels "node")).pyOr entityId
  let status := ((Json.field payload "status").pyOr (Json.field alert "status")).pyOr
    (.str "firing")
  { fields := [
      ("source", .str "alertmanager"),
      ("kind", .str "alert"),
      ("entity", hostEntity "host" entityId entityName),
      ("ts", ((Json.field alert "startsAt").pyOr (Json.field payload "now")).pyOr
        (.str nowIso)),
      ("severity", .str severity),
      ("labels", .obj labels),
      ("raw", .obj [("alert", .obj alert), ("status", status)]),
      ("event_id", (Json.field labels "alertname").pyOr
        (.str (env.str ((Json.field alert "fingerprint").pyOr (.str "")))))]
    value := .json .null }

/-- The fields of a dictionary; nothing else has `get`. -/
def fieldsOf : Json → Except PyErr (List (String × Json))
  | .obj fields => .ok fields
  | _ => .error .attributeError

/-- The body of the loop of `normalize_alertmanager`. -/
def normalizeAlert (env : EventEnv) (nowIso : String) (payload : List (String × Json))
    (alert : Json) : Except PyErr RawEvent := do
  let alert ← fieldsOf alert
  let labels ← pyDict env ((Json.field alert "labels").pyOr (.obj []))
  let status := ((Json.field payload "status").pyOr (Json.field alert "status")).pyOr
    (.str "firing")
  let severity ← severityFromStatus env ((Json.field labels "severity").pyOr status)
  pure (alertmanagerEvent env nowIso payload alert labels severity)

/-- `normalize_alertmanager`. -/
def normalizeAlertmanager (env : EventEnv) (nowIso : String) (payload : Json) :
    Except PyErr (List RawEvent) := do
  let payload ← fieldsOf payload
  let alerts ← pyIter ((Json.field payload "alerts").pyOr (.arr []))
  alerts.mapM (normalizeAlert env nowIso payload)

/-- A part of a sample, which is a dictionary or a list of two items or more. -/
def samplePart (key : String) (position : ℕ) : Json → Json
  | .obj fields => Json.field fields key
  | .arr items => if 1 < items.length then items.getD position .null else .null
  | _ => .null

/-- The body of the outer loop of `normalize_prometheus_remote`. -/
def normalizeSeries (env : EventEnv) (nowIso : String) (series : Json) :
    Except PyErr (List RawEvent) := do
  let series ← fieldsOf series
  let labels ← pyDict env ((Json.field series "labels").pyOr (.obj []))
  let values := ((Json.field series "samples").pyOr (Json.field series "values")).pyOr (.arr [])
  let entityId := (Json.field labels "instance").pyOr (.str "unknown")
  let entityName := (Json.field labels "hostname").pyOr entityId
  let name := ((Json.field labels "__name__").pyOr (Json.field labels "metric_name")).pyOr
    (Json.field series "name")
  let errors := (if entityId = .str "unknown" then ["missing_instance_label"] else []) ++
    if name.truthy then [] else ["missing_metric_name"]
  let job := ("job", Json.field labels "job")
  let samples ← pyIter values
  samples.mapM fun s => do
    let value ← toFloat env (.json (samplePart "value" 1 s))
    pure {
      fields := [
        ("source", .str "prometheus"),
        ("kind", .str "metric"),
        ("entity", hostEntity "host" entityId entityName),
        ("ts", (samplePart "ts" 0 s).pyOr (.str nowIso)),
        ("severity", .null),
        ("labels", .obj (if name.truthy then Json.setField labels "metric_name" name else labels)),
        ("raw", .obj (if errors = [] then [job]
          else [job, ("scrape_error", .str (",".intercalate errors))])),
        ("event_id", .null)]
      value := .float value }

/-- `normalize_prometheus_remote`. -/
def normalizePrometheusRemote (env : EventEnv) (nowIso : String) (payload : Json) :
    Except PyErr (List RawEvent) := do
  let payload ← fieldsOf payload
  let series ← pyIter ((Json.field payload "metric").pyOr (.arr []))
  let events ← series.mapM (normalizeSeries env nowIso)
  pure events.flatten

/-- `_source` of a document of a search, if there is one. -/
def documentSource : Json → List (String × Json)
  | .obj doc =>
      match Json.field doc "_source" with
      | .obj src => src
      | _ => []
  | _ => []

/-- The event of a document. -/
def normalizeDocument (env : EventEnv) (nowIso : String) (doc : Json) :
    Except PyErr RawEvent := do
  let src := documentSource doc
  let level := ((Json.field src "log.level").pyOr (Json.field src "level")).pyOr (.str "info")
  let lowered ← env.lowered level
  let severity ← severityFromStatus env level
  let host := (Json.field src "host.name").pyOr (.str "unknown")
  let service :=
    match Json.field src "service" with
    | .obj service => Json.field service "name"
    | service => service
  pure {
    fields := [
      ("source", .str "elk"),
      ("kind", .str (if lowered = "error" ∨ lowered = "fatal" then "alert" else "log")),
      ("entity", hostEntity "host" host host),
      ("ts", (Json.field src "@timestamp").pyOr (.str nowIso)),
      ("severity", .str severity),
      ("labels", .obj [("log_level", level), ("service", service)]),
      ("raw", .obj src),
      ("event_id", Json.field src "event_id")]
    value := .json .null }

/-- The event of a SkyWalking payload. -/
def normalizeTrace (env : EventEnv) (nowIso : String) (payload : Json) :
    Except PyErr RawEvent := do
  let fields ← fieldsOf payload
  let status := ((Json.field fields "status").pyOr (Json.field fields "statusCode")).pyOr
    (.str "UNKNOWN")
  let entity := Json.field fields "entity"
  let service := Json.field fields "service"
  let value ← toFloat env (.json (Json.field fields "value"))
  let severity ← severityFromStatus env status
  let labels ←
    match (Json.field fields "labels").pyOr (.obj []) with
    | .obj labels => pure labels
    | _ => throw .typeError
  pure {
    fields := [
      ("source", .str "skywalking"),
      ("kind", .str "apm"),
      ("entity", hostEntity "app" ((entity.pyOr service).pyOr (.str "unknown"))
        ((service.pyOr entity).pyOr (.str "unknown"))),
      ("ts", (Json.field fields "ts").pyOr (.str nowIso)),
      ("severity", .str severity),
      ("labels", .obj (labels.foldl (fun out f => Json.setField out f.1 f.2)
        [("statusCode", status)])),
      ("raw", payload),
      ("event_id", Json.field fields "event_id")]
    value := .float value }

/-- `"alerts" in payload` of a dictionary. -/
def hasAlerts : Json → Bool
  | .obj fields => (fields.lookup "alerts").isSome
  | _ => false

/-- `normalize_event`. -/
def normalizeEvent (env : EventEnv) (nowIso : String) (source : String) (payload : Json) :
    Except PyErr (List RawEvent) := do
  if source = "prometheus" then normalizePrometheusRemote env nowIso payload
  else if source = "alertmanager" ∨ source = "webhook" ∨ hasAlerts payload = true then
    normalizeAlertmanager env nowIso payload
  else if source = "elk" then
    let fields ← fieldsOf payload
    let docs ← pyIter (((Json.field fields "hits").pyOr (Json.field fields "docs")).pyOr (.arr []))
    docs.mapM (normalizeDocument env nowIso)
  else if source = "skywalking" then
    let event ← normalizeTrace env nowIso payload
    pure [event]
  else pure []

/-- The events that `ingest` reads from a payload, and those among them that are no dictionary: an
event that was pushed with its source, a list of such events, or what the normalizer of the adapter
makes of the payload. -/
def recognize (env : EventEnv) (nowIso : String) (adapterType : String) (payload : Json) :
    Except PyErr (List (Option RawEvent)) :=
  let normalized := (normalizeEvent env nowIso adapterType payload).map (·.map some)
  match payload with
  | .obj fields =>
      if (Json.field fields "source").truthy ∧ Json.field fields "adapter" = .null then
        match Json.field fields "kind" with
        | .str _ => .ok [RawEvent.ofJson payload]
        | _ =>
            let events := Json.field fields "events"
            if events.truthy then (pyIter events).map fun items => items.map RawEvent.ofJson
            else .ok []
      else normalized
  | _ => normalized

end LarkPlat
