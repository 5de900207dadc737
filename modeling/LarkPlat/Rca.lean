import LarkPlat.Cmdb
import LarkPlat.Grouping
import LarkPlat.MetricReads
import Mathlib.Data.Prod.Lex
import Mathlib.Data.String.Basic

/-!
# Root Causes and Windows of Alerts

`rca_service.py`: `aggregate` puts the alerts that a caller sees into windows, one for each entity
and rule, and `run` lists the entities behind that of an alert, which it takes from `impact`. The
entity of an alert is a dictionary as it was pushed: its values are of any type.
-/

namespace LarkPlat.Rca

open Cmdb Grouping

/-! ### Rows -/

/-- The columns of `mon_alert` that the two calls read; `entity` are the fields of `entity or {}`.
-/
structure AlertRow where
  id : ℕ
  ruleId : Option ℕ
  ruleName : String
  entity : List (String × Json)
  status : String
  severity : String
  deriving DecidableEq

/-- The rows of `mon_alert`, with its primary key. -/
structure AlertTable where
  rows : List AlertRow
  key : (rows.map AlertRow.id).Nodup

/-- The tables. `rcaEnabled` is the truth value of the rule `ai.rca`. -/
structure RcaDb extends CmdbDb where
  rcaEnabled : Bool
  alerts : AlertTable

/-- What Python's library and the driver of the database decide. -/
structure RcaEnv where
  /-- `str(x)` of what is no string. -/
  text : Json → String
  /-- `int(s)`. -/
  readInt : String → Option ℤ
  /-- The error of a statement that compares a text with a number. -/
  refused : PyErr
  /-- `_now_iso()`. -/
  nowIso : String

/-- `str(x)`. -/
def RcaEnv.str (env : RcaEnv) : Json → String
  | .str s => s
  | v => env.text v

/-- `entity.get("entity_type")`. -/
def AlertRow.entityType (a : AlertRow) : Json := Json.field a.entity "entity_type"

/-- `entity.get("entity_id")`. -/
def AlertRow.entityId (a : AlertRow) : Json := Json.field a.entity "entity_id"

/-- `entity.get("entity_name")`. -/
def AlertRow.entityName (a : AlertRow) : Json := Json.field a.entity "entity_name"

/-- `str(entity_id) in visible`, which `_entity_in_scope` asks as well. -/
def AlertRow.inScope (env : RcaEnv) (visible : Option (List String)) (a : AlertRow) : Bool :=
  visible.all fun ids => decide (env.str a.entityId ∈ ids)

/-- `require_feature(db, "ai.rca")`. -/
def RcaDb.requireRca (db : RcaDb) : Except PyErr Unit :=
  if db.rcaEnabled then .ok () else .error (.badRequest "feature disabled")

/-! ### Windows -/

/-- `_window_rule`. -/
def AlertRow.windowRule (a : AlertRow) : String :=
  match a.ruleId with
  | some id => toString id
  | none => a.ruleName

/-- What a dictionary compares of a key. -/
inductive DictKey
  | none
  | number (q : ℚ)
  | text (s : String)
  deriving DecidableEq

/-- The hash of a value: a list and a dictionary have none. -/
def dictKey : Json → Except PyErr DictKey
  | .null => .ok .none
  | .bool b => .ok (.number (if b then 1 else 0))
  | .int n => .ok (.number n)
  | .float q => .ok (.number q)
  | .str s => .ok (.text s)
  | .arr _ => .error .typeError
  | .obj _ => .error .typeError

/-- The key of a window. -/
structure WindowKey where
  type : DictKey
  entityId : String
  rule : String
  deriving DecidableEq

/-- `_SEVERITY_RANK.get(severity, -1)`. -/
def severityRank : Option String → ℤ
  | none => -1
  | some s => if s ∈ monLevels then monLevels.idxOf s else -1

/-- A window. -/
structure Window where
  entityType : Json
  entityId : String
  rule : String
  count : ℕ
  maxSeverity : Option String
  alertIds : List ℕ
  deriving DecidableEq

/-- A new window for an alert. -/
def Window.start (env : RcaEnv) (a : AlertRow) : Window :=
  ⟨a.entityType, env.str a.entityId, a.windowRule, 0, none, []⟩

/-- The alert in its window. -/
def Window.add (w : Window) (a : AlertRow) : Window :=
  { w with
    count := w.count + 1
    alertIds := w.alertIds ++ [a.id]
    maxSeverity :=
      if severityRank w.maxSeverity < severityRank (some a.severity) then some a.severity
      else w.maxSeverity }

/-- The body of the loop of `aggregate`. -/
def addToWindow (env : RcaEnv) (windows : List (WindowKey × Window)) (a : AlertRow) :
    Except PyErr (List (WindowKey × Window)) := do
  let type ← dictKey a.entityType
  return insertAt ⟨type, env.str a.entityId, a.windowRule⟩ (Window.start env a) (Window.add · a)
    windows

/-- What the windows are sorted by. -/
def Window.sortKey (env : RcaEnv) (w : Window) : ℤ ×ₗ String ×ₗ String ×ₗ String :=
  toLex (-(w.count : ℤ), toLex (env.str w.entityType, toLex (w.entityId, w.rule)))

/-- The windows of rows, in the order of the list. -/
def groupWindows (env : RcaEnv) (rows : List AlertRow) : Except PyErr (List Window) := do
  let windows ← rows.foldlM (addToWindow env) []
  return (windows.map Prod.snd).mergeSort fun a b => decide (a.sortKey env ≤ b.sortKey env)

/-- The filters of `aggregate`. -/
structure WindowFilters where
  status : Option String
  severity : Option String

/-- The alert passes the filters. -/
def WindowFilters.pass (filters : WindowFilters) (a : AlertRow) : Bool :=
  (given filters.status).all (fun s => decide (a.status = s)) &&
    (given filters.severity).all fun s => decide (a.severity = s)

/-- The alerts that `aggregate` puts into windows. -/
def RcaDb.scanned (env : RcaEnv) (db : RcaDb) (user : Actor) (filters : WindowFilters) :
    List AlertRow :=
  (db.alerts.rows.mergeSort fun a b => decide (b.id ≤ a.id)).filter fun a =>
    a.inScope env (scopeOf db.hosts user) && filters.pass a

/-- A page of windows, with the number of all. -/
structure WindowPage where
  list : List Window
  total : ℕ
  page : ℕ
  size : ℕ
  generatedAt : String
  authoritative : Bool
  deriving DecidableEq

/-- A slice of a list, for a page that is at least one. -/
def pageOf {α : Type} (l : List α) (page size : ℕ) : List α :=
  (l.drop ((page - 1) * size)).take size

/-- `aggregate`. -/
def aggregate (env : RcaEnv) (db : RcaDb) (user : Actor) (filters : WindowFilters)
    (page size : ℕ) : Except PyErr WindowPage := do
  db.requireRca
  user.requirePerm "ai:use"
  let grouped ← groupWindows env (db.scanned env user filters)
  return ⟨pageOf grouped page size, grouped.length, page, size, env.nowIso, false⟩

/-! ### Root causes -/

/-- The evidence of a candidate. -/
structure Evidence where
  ruleId : Option ℕ
  severity : String
  deriving DecidableEq

/-- `RcaCandidate`. -/
structure RcaCandidate where
  entityType : String
  entityId : String
  score : ℚ
  reason : String
  evidence : List Evidence
  deriving DecidableEq

/-- The root of a report. -/
structure RcaRoot where
  type : Json
  id : Json
  name : Json
  deriving DecidableEq

/-- `RcaReport`. -/
structure RcaReport where
  alertId : ℤ
  rootEntity : RcaRoot
  depth : ℕ
  candidates : List RcaCandidate
  generatedAt : String
  authoritative : Bool
  deriving DecidableEq

/-- `_coerce_id`. -/
def coerceId (env : RcaEnv) : Json → Option ℤ
  | .bool b => some (if b then 1 else 0)
  | .int n => some n
  | .float q => some (q.num.tdiv q.den)
  | .str s => env.readInt s
  | _ => none

/-- The entities that `impact` answers for a root of any type. A list and a dictionary cannot be
among the visited ones, and the statement for another value that is no text fails. -/
def affectedBy (env : RcaEnv) (db : CmdbDb) (scan : Scan db.relations) (user : Actor) (etype : Json)
    (eid : ℤ) (depth : ℕ) : Except PyErr (List LabelledEntity) :=
  match etype with
  | .str type => do
      let imp ← impact db scan user ⟨type, eid⟩ (some "down") (some (depth : ℤ)) none
      return imp.affected
  | etype => do
      db.requireFeature
      user.requirePerm "asset:topo:view"
      let _ ← dictKey etype
      if depth = 0 then return [] else throw env.refused

/-- The candidate for an entity behind that of an alert. -/
def candidate (a : AlertRow) (e : Entity) : RcaCandidate :=
  ⟨e.type, toString e.id, 1, "downstream-of-alert-entity", [⟨a.ruleId, a.severity⟩]⟩

/-- The type of the entity of an alert, which is a host where none is given. -/
def AlertRow.rootType (a : AlertRow) : Json := a.entityType.pyOr (.str "host")

/-- `run`. -/
def run (env : RcaEnv) (db : RcaDb) (scan : Scan db.relations) (user : Actor) (alertId : ℤ)
    (depth : Option ℤ) : Except PyErr RcaReport := do
  db.requireRca
  user.requirePerm "ai:use"
  match db.alerts.rows.find? fun a => decide ((a.id : ℤ) = alertId) with
  | none => throw (.notFound "alert not found")
  | some a =>
      let depth ← clampDepth depth
      let affected ← (coerceId env a.entityId).elim (.ok []) fun eid =>
        affectedBy env db.toCmdbDb scan user a.rootType eid depth
      return {
        alertId := alertId
        rootEntity := ⟨a.rootType, a.entityId, a.entityName⟩
        depth := depth
        candidates := affected.map fun k => candidate a k.entity
        generatedAt := env.nowIso
        authoritative := false }

end LarkPlat.Rca
