import LarkPlat.Aggregates
import LarkPlat.Events

/-!
# Ingest

`ingest` takes a payload of an adapter: it reads the events from it and processes them one by one.
An event that is valid and not known yet gets a row in the inbox, a sample if it is a metric, and
is run through the rules; one that is rejected gets a dead letter.

The session does not flush by itself. A row that was added waits in the session until something
flushes it: the alert engine, when it logs or inserts, a dead letter, which opens a savepoint, or a
commit; and a query sees the flushed rows only. A notification commits. A call that raises leaves
what was committed last. Which rows the columns of the database take is a parameter; a flush of a
row that they do not take fails, and so does a second daily row for one source, metric, entity and
day. The averages of the daily rows are exact.

## Main results

* `run_alert`: a program of the alert engine runs in the session of `ingest` as it runs alone, as
  long as the rows that wait can be flushed.
-/

namespace LarkPlat

open Programs LockedTable

/-! ### Rows -/

/-- `mon_event_inbox.status`. -/
inductive InboxStatus where
  | pending
  | deadLetter
  deriving DecidableEq, Repr

/-- The pair that the key of an event is made of. -/
structure Origin where
  source : Json
  eventId : Json
  deriving DecidableEq

/-- What the inbox keeps of the event as it came: its `raw` field, or the event itself. -/
inductive StoredRaw where
  | field (v : Json)
  | event (e : Option RawEvent)
  deriving DecidableEq

/-- `mon_event_inbox`. The origin is not in the table, only the key made of it. -/
structure InboxRow where
  source : Json
  kind : Json
  entity : Json
  ts : Stamp
  value : Option Num
  severity : Json
  labels : Json
  raw : StoredRaw
  fingerprint : Json
  eventKey : Option String
  mappingWarning : ℕ
  status : InboxStatus
  error : Option String
  origin : Option Origin
  deriving DecidableEq

/-- `mon_metric_sample`, with the origin of the event. -/
structure MetricSample where
  entityType : Json
  entityId : String
  entityName : Json
  metricName : String
  value : Num
  source : Json
  ts : Stamp
  labels : Json
  fingerprint : Json
  origin : Origin
  deriving DecidableEq

/-- `mon_metric_daily`. -/
structure DailyRow where
  source : Json
  entityType : Json
  entityId : String
  metricName : String
  day : ℤ
  minValue : Num
  maxValue : Num
  avgValue : Num
  sampleCount : ℕ
  deriving DecidableEq

/-- The columns of the unique constraint. -/
def DailyRow.key (r : DailyRow) : Json × String × String × ℤ :=
  (r.source, r.metricName, r.entityId, r.day)

/-- What events leave: their rows, their samples, and the origins of those that were run through
the rules. -/
structure Intake where
  inbox : List InboxRow
  samples : List MetricSample
  evaluated : List Origin
  deriving DecidableEq

namespace Intake

/-- Nothing. -/
def none : Intake := ⟨[], [], []⟩

/-- One after the other. -/
def append (a b : Intake) : Intake :=
  ⟨a.inbox ++ b.inbox, a.samples ++ b.samples, a.evaluated ++ b.evaluated⟩

@[simp] theorem append_none (a : Intake) : a.append none = a := by
  simp [append, none]

theorem append_assoc (a b c : Intake) : (a.append b).append c = a.append (b.append c) := by
  simp [append]

end Intake

/-- The tables. -/
structure MonStore where
  intake : Intake
  daily : List DailyRow
  monitor : Monitor

/-- What the columns take. -/
structure Columns where
  inbox : InboxRow → Bool
  sample : MetricSample → Bool
  daily : DailyRow → Bool

/-- The surroundings of the service: Python's library, the database, and the channels of the
rules. -/
structure IngestEnv extends EventEnv where
  columns : Columns
  channels : ℕ → List ℕ

/-! ### Sessions -/

/-- A session: the tables as they are committed, the tables with what it has flushed, and the rows
that wait. -/
structure IngestSession where
  committed : MonStore
  store : MonStore
  fresh : Intake
  freshDaily : List DailyRow

/-- A call that raises, with the tables that stay. -/
structure IngestFailure where
  error : PyErr
  committed : MonStore

namespace IngestSession

/-- A session that begins. -/
def opened (st : MonStore) : IngestSession := ⟨st, st, .none, []⟩

/-- What the session has added, flushed or not, with what was there. -/
def intake (s : IngestSession) : Intake := s.store.intake.append s.fresh

/-- The database takes the rows that wait. -/
def Flushable (columns : Columns) (s : IngestSession) : Prop :=
  (∀ r ∈ s.fresh.inbox, columns.inbox r = true) ∧
    (∀ r ∈ s.fresh.samples, columns.sample r = true) ∧
      (∀ r ∈ s.freshDaily, columns.daily r = true) ∧
        ((s.store.daily ++ s.freshDaily).map DailyRow.key).Nodup

instance (columns : Columns) (s : IngestSession) : Decidable (Flushable columns s) :=
  inferInstanceAs (Decidable (_ ∧ _ ∧ _ ∧ _))

/-- The tables with the rows that waited. -/
def flushed (s : IngestSession) : IngestSession :=
  { s with
    store := { s.store with
      intake := s.store.intake.append s.fresh, daily := s.store.daily ++ s.freshDaily }
    fresh := .none
    freshDaily := [] }

/-- `db.flush()`. -/
def flush (columns : Columns) (s : IngestSession) : Except IngestFailure IngestSession :=
  if Flushable columns s then .ok s.flushed else .error ⟨.integrityError, s.committed⟩

/-- `db.commit()`. -/
def commit (columns : Columns) (s : IngestSession) : Except IngestFailure IngestSession :=
  (s.flush columns).map fun s => { s with committed := s.store }

end IngestSession

/-- The functions of the service on a session. -/
abbrev IngestM (α : Type) : Type := StateT IngestSession (Except IngestFailure) α

namespace IngestM

variable {α : Type}

/-- An exception. -/
def raise (e : PyErr) : IngestM α := fun s => .error ⟨e, s.committed⟩

/-- The value of a function that may raise. -/
def attempt (x : Except PyErr α) : IngestM α :=
  match x with
  | .ok a => pure a
  | .error e => raise e

/-- A change of the session. -/
def change (f : IngestSession → Except IngestFailure IngestSession) : IngestM Unit :=
  fun s => (f s).map fun s => ((), s)

end IngestM

/-! ### The alert engine in the session -/

/-- What a statement of the engine does to the rows that wait: an insert and an entry of the event
log flush them, and a notification and a commit commit them. -/
def settle (columns : Columns) {β : Type} (st : Stmt alertSchema β) (s : IngestSession) :
    Except IngestFailure IngestSession :=
  match st with
  | .insert _ | .log _ => s.flush columns
  | .send _ | .commit => s.commit columns
  | _ => .ok s

/-- The statements of the engine in the session. -/
def serveAlert (columns : Columns) (β : Type) (st : Stmt alertSchema β) (s : IngestSession) :
    Except IngestFailure (β × IngestSession) :=
  match Monitor.serve β st s.store.monitor with
  | .error e => .error ⟨e, s.committed⟩
  | .ok (x, m) =>
      (settle columns st { s with store := { s.store with monitor := m } }).map fun s => (x, s)

/-! ### The pipeline -/

/-- The pair that the key of the event is made of. -/
def RawEvent.origin (e : RawEvent) : Origin := ⟨e.get "source", e.get "event_id"⟩

/-- The key of the event. -/
def RawEvent.key (env : EventEnv) (e : RawEvent) : Option String :=
  buildEventKey env (e.get "source") (e.get "event_id")

/-- The clock readings and the order of the rules, while an event is processed. -/
structure Turn where
  now : Stamp
  order : RuleOrder
  readings : ℕ → Readings

/-- `mon_adapter`, as far as `ingest` reads it. -/
structure MonAdapter where
  id : ℕ
  type : String
  enabled : ℤ

/-- What `_process_event` returns. -/
inductive EventOutcome where
  | rejected (error : String) (deadLettered : Bool)
  | duplicate
  | taken
  deriving DecidableEq, Repr

/-- `result.get("accepted")`. -/
def EventOutcome.accepted : EventOutcome → Bool
  | .rejected _ _ => false
  | .duplicate | .taken => true

/-- The event as the rules see it. -/
def monEvent (env : EventEnv) (e : RawEvent) (entityId : String) : MonEvent :=
  let textOf : Json → Option String := fun v => if v.truthy then some (env.str v) else none
  let labels := match e.get "labels" with
    | .obj fields => fields
    | _ => []
  let string : Json → Option String := fun v => match v with
    | .str s => some s
    | _ => none
  { source := string (e.get "source")
    kind := string (e.get "kind")
    entityId := entityId
    value := match e.value with
      | .float none => .absent
      | .float (some x) => .number x
      | .json .null => .absent
      | .json (.bool b) => .number (.finite (if b then 1 else 0))
      | .json (.int n) => .number (.finite n)
      | .json (.float q) => .number (.finite q)
      | .json v => .other ((PyFloat.ofString (env.str v)).map Num.ofFloat)
    severity := string (e.get "severity")
    labelMetricName := textOf (Json.field labels "metric_name")
    labelName := textOf (Json.field labels "__name__")
    metricName := textOf (e.get "metric_name")
    name := textOf (e.get "name") }

/-- `_MAPPING_FALLBACK_ENTITY`. -/
def fallbackEntity : Json := hostEntity "host" (.str "unknown") (.str "unknown")

/-- The text of a dead letter. -/
def deadLetterText (error : String) : Option String → String
  | none => String.ofList (error.toList.take 512)
  | some detail => String.ofList (error.toList.take 464 ++ detail.toList.take 64)

/-- The row of a dead letter. -/
def deadLetterRow (env : EventEnv) (now : Stamp) (raw : Option RawEvent) (error : String)
    (detail : Option String) : Except PyErr InboxRow := do
  let e := raw.getD ⟨[], .json .null⟩
  let ts ← (if e.fields = [] then .ok now else coerceTs env now (e.get "ts"))
  let value ← (if e.fields = [] then .ok none else toFloat env e.value)
  pure {
    source := e.getOr "source" (.str "webhook")
    kind := e.getOr "kind" (.str "metric")
    entity := (e.get "entity").pyOr fallbackEntity
    ts := ts
    value := value
    severity := e.get "severity"
    labels := e.get "labels"
    raw := .event raw
    fingerprint := (e.get "fingerprint").pyOr (.str "dead-letter")
    eventKey := none
    mappingWarning := 0
    status := .deadLetter
    error := some (deadLetterText error detail)
    origin := none }

/-- `_dead_letter`. The savepoint flushes first; if that fails, the session is lost, and the next
statement raises. The row itself is added if it can be made and the columns take it. -/
def deadLetter (env : IngestEnv) (now : Stamp) (raw : Option RawEvent) (error : String)
    (detail : Option String) : IngestM Unit :=
  .change fun s => (s.flush env.columns).map fun s =>
    match deadLetterRow env.toEventEnv now raw error detail with
    | .error _ => s
    | .ok row =>
        if env.columns.inbox row then
          { s with store := { s.store with
              intake := s.store.intake.append ⟨[row], [], []⟩ } }
        else s

/-- `MonEventInboxRepository.by_event_key`. -/
def IngestSession.knows (s : IngestSession) (key : String) : Bool :=
  s.store.intake.inbox.any fun r => decide (r.eventKey = some key)

/-- Rows that are added to the session. -/
def IngestSession.add (s : IngestSession) (added : Intake) : IngestSession :=
  { s with fresh := s.fresh.append added }

/-- A daily row with one more value. -/
def DailyRow.record (r : DailyRow) (value : Num) : DailyRow :=
  let n := r.sampleCount + 1
  { r with
    sampleCount := n
    avgValue := ((r.avgValue.mulBy (n - 1)).add value).divBy n
    maxValue := r.maxValue.pyMax value
    minValue := r.minValue.pyMin value }

/-- The columns that a daily row is looked up by agree. -/
def DailyRow.same (row r : DailyRow) : Bool :=
  decide (r.key = row.key) && decide (r.entityType = row.entityType)

/-- `MonMetricSampleRepository.upsert_daily` of the row of one value, which sees the flushed
rows. -/
def IngestSession.upsertDaily (s : IngestSession) (row : DailyRow) (value : Num) : IngestSession :=
  if s.store.daily.any row.same then
    { s with store := { s.store with
        daily := s.store.daily.map fun r => if row.same r then r.record value else r } }
  else { s with freshDaily := s.freshDaily ++ [row] }

/-- The sample of a metric. -/
def metricSample (env : EventEnv) (e : RawEvent) (ts : Stamp) (fingerprint : Json) (value : Num)
    (metricName : String) : MetricSample :=
  let entity := match e.get "entity" with
    | .obj fields => fields
    | _ => []
  let entityId := env.str ((Json.field entity "entity_id").pyOr (.str "unknown"))
  { entityType := (Json.field entity "entity_type").pyOr (.str "host")
    entityId := entityId
    entityName := (Json.field entity "entity_name").pyOr (.str entityId)
    metricName := metricName
    value := value
    source := e.get "source"
    ts := ts
    labels := e.get "labels"
    fingerprint := fingerprint
    origin := e.origin }

/-- The daily row of one sample. -/
def MetricSample.dailyRow (x : MetricSample) : DailyRow :=
  ⟨x.source, x.entityType, x.entityId, x.metricName, x.ts.day, x.value, x.value, x.value, 1⟩

/-- `_persist_metric_sample`; it does nothing without a value or a name. -/
def persistMetricSample (env : EventEnv) (e : RawEvent) (ts : Stamp) (fingerprint : Json)
    (value : Option Num) (metricName : Option String) (s : IngestSession) : IngestSession :=
  match value, metricName with
  | some value, some metricName =>
      let sample := metricSample env e ts fingerprint value metricName
      (s.add ⟨[], [sample], []⟩).upsertDaily sample.dailyRow sample.value
  | _, _ => s

/-- `evaluate_event`. The query for the alert of a rule compares a text, and fails for an entity
identifier that is none. -/
def evaluateRaw (env : IngestEnv) (turn : Turn) (e : RawEvent) : IngestM Unit := do
  .change fun s => .ok (s.add ⟨[], [], [e.origin]⟩)
  match e.entityId with
  | .str entityId =>
      let _ ← (AlertProg.evaluateEvent env.channels env.toPyText turn.order turn.readings
        (monEvent env.toEventEnv e entityId)).run (serveAlert env.columns)
      pure ()
  | _ =>
      let s ← get
      if s.store.monitor.db.enabledRules.isEmpty then pure () else .raise .typeError

/-- The row of an event that is taken. -/
def inboxRow (env : EventEnv) (e : RawEvent) (ts : Stamp) (value : Option Num) (severity : String)
    (fingerprint : Json) : InboxRow where
  source := e.get "source"
  kind := e.get "kind"
  entity := e.get "entity"
  ts := ts
  value := value
  severity := .str (if severity ∈ monLevels then severity else "warning")
  labels := (e.get "labels").pyOr (.obj [])
  raw := .field (e.get "raw")
  fingerprint := fingerprint
  eventKey := e.key env
  mappingWarning := if severity ∉ monLevels ∨ e.entityId = .str "unknown" then 1 else 0
  status := .pending
  error := none
  origin := some e.origin

/-- What `_process_event` does with a valid event that is not known. -/
def takeEvent (env : IngestEnv) (turn : Turn) (e : RawEvent) (fingerprint : Json) :
    IngestM EventOutcome := do
  let severity ← .attempt (env.lowered ((e.get "severity").pyOr (.str "warning")))
  let ts ← .attempt (coerceTs env.toEventEnv turn.now (e.get "ts"))
  let metric := decide (e.get "kind" = .str "metric")
  let metricName ← .attempt (if metric then metricNameOf env.toEventEnv e else .ok none)
  if metric && metricName.isNone then
    deadLetter env turn.now (some e) "unresolvable metric_name" none
    pure (.rejected "unresolvable metric_name" true)
  else
    let value ← .attempt (toFloat env.toEventEnv e.value)
    .change fun s => .ok (s.add ⟨[inboxRow env.toEventEnv e ts value severity fingerprint], [], []⟩)
    .change fun s => .ok (persistMetricSample env.toEventEnv e ts fingerprint value metricName s)
    evaluateRaw env turn e
    pure .taken

/-- The event with the name of its metric in its labels. -/
def namedEvent (env : EventEnv) (e : RawEvent) : Except PyErr RawEvent :=
  if e.get "kind" = .str "metric" then normalizeMetricName env e else .ok e

/-- `raw.get("fingerprint") or build_fingerprint(raw)`. -/
def fingerprintOf (env : EventEnv) (e : RawEvent) : Except PyErr Json :=
  if (e.get "fingerprint").truthy then .ok (e.get "fingerprint")
  else (env.fingerprint e).map .str

/-- `_process_event`; an event that is no dictionary has no `get`. -/
def processEvent (env : IngestEnv) (turn : Turn) (raw : Option RawEvent) :
    IngestM EventOutcome :=
  match raw with
  | none => .raise .attributeError
  | some e => do
      match ← .attempt (validateEvent env.toEventEnv e) with
      | some error => pure (.rejected error false)
      | none =>
          let e ← .attempt (namedEvent env.toEventEnv e)
          let fingerprint ← .attempt (fingerprintOf env.toEventEnv e)
          let s ← get
          if (e.key env.toEventEnv).any s.knows then pure .duplicate
          else takeEvent env turn e fingerprint

/-- The body of the loop of `ingest`. -/
def ingestEvent (env : IngestEnv) (turn : Turn) (raw : Option RawEvent) :
    IngestM EventOutcome := do
  match ← processEvent env turn raw with
  | .rejected error false =>
      if error ≠ "" then deadLetter env turn.now raw error none
      pure (.rejected error false)
  | outcome => pure outcome

/-- The loop of `ingest`, with the outcome of each event. -/
def ingestEvents (env : IngestEnv) (turn : ℕ → Turn) :
    ℕ → List (Option RawEvent) → IngestM (List EventOutcome)
  | _, [] => pure []
  | i, raw :: rest => do
      let outcome ← ingestEvent env (turn i) raw
      let outcomes ← ingestEvents env turn (i + 1) rest
      pure (outcome :: outcomes)

/-- What `ingest` returns: the numbers of accepted and rejected events, here with all outcomes, or
the dead letter of a payload without events. -/
inductive IngestResponse where
  | counted (outcomes : List EventOutcome)
  | unsupported
  deriving DecidableEq, Repr

/-- `accepted`. -/
def IngestResponse.accepted : IngestResponse → ℕ
  | .counted outcomes => outcomes.countP (·.accepted)
  | .unsupported => 0

/-- `rejected`. -/
def IngestResponse.rejected : IngestResponse → ℕ
  | .counted outcomes => outcomes.countP (!·.accepted)
  | .unsupported => 0

/-- A call of `ingest`, with the adapter that it finds. -/
structure IngestCall where
  featureEnabled : Bool
  adapter : Option MonAdapter
  payload : Json
  nowIso : String
  turn : ℕ → Turn

/-- `ingest`. -/
def ingest (env : IngestEnv) (call : IngestCall) : IngestM IngestResponse := do
  if !call.featureEnabled then .raise (.badRequest "monitor feature disabled")
  else
    match call.adapter with
    | none => .raise (.notFound "adapter not found")
    | some adapter =>
        if adapter.enabled ≠ 1 then .raise (.badRequest "adapter disabled")
        else
          let events ← .attempt
            (recognize env.toEventEnv call.nowIso adapter.type call.payload)
          if events.isEmpty then
            let detail := "\x7b\"adapter_id\": " ++ toString adapter.id ++ "\x7d"
            deadLetter env (call.turn 0).now none "unsupported payload shape" (some detail)
            .change (·.commit env.columns)
            pure .unsupported
          else
            let outcomes ← ingestEvents env call.turn 0 events
            .change (·.commit env.columns)
            pure (.counted outcomes)

/-- The tables after a call. -/
def MonStore.ingest (env : IngestEnv) (st : MonStore) (call : IngestCall) : MonStore :=
  match LarkPlat.ingest env call (.opened st) with
  | .ok (_, s) => s.store
  | .error f => f.committed

end LarkPlat
