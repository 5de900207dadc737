import LarkPlat.Machine
import LarkPlat.Terminals
import Mathlib.Data.Set.Basic

/-!
# Host Writes

`asset_service.py`: `create_host`, `update_host`, `delete_host` and `import_hosts`. A caller who is
no administrator sees the hosts of the groups of the caller's roles. `create_host` checks the group
that it writes, `update_host` and `delete_host` check the group that they find, and `import_hosts`
checks none.

A payload has passed its schema, which bounds texts that are bounded again by the columns. A file is
the rows that `csv.DictReader` yields, with whether decoding or reading it raises after them.

## Main results

* `createHost_step`, `updateHost_step`, `deleteHost_step`, `importHosts_step`: what each call does
  to the hosts of the groups that the caller does not see.
* `writes_confined_iff`: along a sequence of calls these hosts stay as they are exactly if no update
  that is stored names such a group and no imported row does.
-/

namespace LarkPlat

open Machine

/-! ### Rows -/

/-- The columns of `asset_host`. -/
structure HostRow where
  id : ℤ
  hostname : String
  ip : String
  osType : String
  osVersion : String
  groupId : Option ℤ
  env : String
  tags : Json
  sensitivityLevel : String
  status : String
  connector : String
  agentId : Option String
  agentVersion : String
  lastHeartbeatAt : Option ℚ
  remark : String
  createdBy : Option ℕ
  createdAt : ℚ
  updatedAt : ℚ
  deriving DecidableEq

/-- The columns of `asset_group` that are read. -/
structure AssetGroup where
  id : ℤ
  name : String
  deriving DecidableEq

/-- The table `asset_host`, with its primary key and its unique address. -/
structure HostTable where
  rows : List HostRow
  keyed : (rows.map HostRow.id).Nodup
  addressed : (rows.map HostRow.ip).Nodup

/-- What a call finds beside the hosts: the groups in the order of the statement, the next number of
the sequence, the clock, and how many task rows and schedules name a host. -/
structure HostEnv where
  groups : List AssetGroup
  nextId : ℤ
  now : ℚ
  taskRefs : ℤ → ℕ
  schedRefs : ℤ → ℕ

/-- The texts of a list of tags. -/
def tagTexts : Json → List String
  | .arr items => items.filterMap fun v => match v with
      | .str s => some s
      | _ => none
  | _ => []

/-- The texts that are written. -/
def HostRow.texts (h : HostRow) : List String :=
  [h.hostname, h.ip, h.osType, h.osVersion, h.env, h.sensitivityLevel, h.connector, h.remark] ++
    tagTexts h.tags

/-- What the columns take. The database has no text with a null character. -/
def HostRow.Fits (env : HostEnv) (h : HostRow) : Prop :=
  h.hostname.length ≤ 128 ∧ h.ip.length ≤ 64 ∧ h.osType.length ≤ 16 ∧ h.osVersion.length ≤ 128 ∧
    h.env.length ≤ 16 ∧ h.sensitivityLevel.length ≤ 16 ∧ h.connector.length ≤ 16 ∧
    h.remark.length ≤ 512 ∧ h.groupId.all (fun g => decide (g ∈ env.groups.map AssetGroup.id)) = true ∧
    ∀ s ∈ h.texts, Char.ofNat 0 ∉ s.toList

instance (env : HostEnv) (h : HostRow) : Decidable (h.Fits env) :=
  inferInstanceAs (Decidable (_ ∧ _ ∧ _ ∧ _ ∧ _ ∧ _ ∧ _ ∧ _ ∧ _ ∧ _))

/-- The rows can be committed, those among them that are written with it. -/
def Storable (env : HostEnv) (rows written : List HostRow) : Prop :=
  (rows.map HostRow.id).Nodup ∧ (rows.map HostRow.ip).Nodup ∧ ∀ h ∈ written, h.Fits env

instance (env : HostEnv) (rows written : List HostRow) : Decidable (Storable env rows written) :=
  inferInstanceAs (Decidable (_ ∧ _ ∧ _))

/-- `commit`: a row that the keys or the columns refuse raises, and nothing is written. -/
def commitRows (env : HostEnv) (rows written : List HostRow) : Except PyErr HostTable :=
  if h : Storable env rows written then .ok ⟨rows, h.1, h.2.1⟩ else .error .integrityError

namespace HostTable

/-- `HostRepository.get`. -/
def get (table : HostTable) (id : ℤ) : Option HostRow :=
  table.rows.find? fun h => h.id = id

/-- `HostRepository.by_ip`. -/
def byIp (table : HostTable) (ip : String) : Option HostRow :=
  table.rows.find? fun h => h.ip = ip

end HostTable

/-! ### Callers -/

/-- `group_id in user.visible_group_ids`, which an administrator is not asked. -/
def Actor.seesGroup (user : Actor) (groupId : Option ℤ) : Bool :=
  user.isAdmin || (user.visibleGroupIds.map fun v => some (v : ℤ)).contains groupId

/-- The group is none of the caller's. -/
def Actor.Hidden (user : Actor) (groupId : Option ℤ) : Prop :=
  ∃ g, groupId = some g ∧ g ∉ user.visibleGroupIds.map fun v => (v : ℤ)

theorem Actor.not_hidden_of_sees {user : Actor} {groupId : Option ℤ} (hadmin : user.isAdmin = false)
    (h : user.seesGroup groupId = true) : ¬ user.Hidden groupId := by
  rintro ⟨g, rfl, hg⟩
  rw [Actor.seesGroup, hadmin, Bool.false_or, List.contains_iff_mem, List.mem_map] at h
  obtain ⟨v, hv, heq⟩ := h
  exact hg (List.mem_map.mpr ⟨v, hv, Option.some.inj heq⟩)

/-- The hosts, with their fields, of the groups that the caller does not see. -/
def HostTable.hidden (user : Actor) (table : HostTable) : Set HostRow :=
  {h | h ∈ table.rows ∧ user.Hidden h.groupId}

/-! ### The four calls -/

/-- `HostCreate`. -/
structure HostCreate where
  hostname : String
  ip : String
  osType : String
  osVersion : String
  groupId : Option ℤ
  env : String
  tags : Option (List String)
  connector : String
  sensitivityLevel : String
  remark : String

/-- `HostUpdate`: a field that is absent is not written. -/
structure HostUpdate where
  hostname : Option String
  ip : Option String
  osType : Option String
  osVersion : Option String
  groupId : Option ℤ
  env : Option String
  tags : Option (List String)
  connector : Option String
  sensitivityLevel : Option String
  remark : Option String

/-- A list of tags as a column value. -/
def tagsValue (tags : List String) : Json :=
  .arr (tags.map Json.str)

/-- The host that `create_host` adds. -/
def HostCreate.row (env : HostEnv) (user : Actor) (data : HostCreate) : HostRow where
  id := env.nextId
  hostname := data.hostname
  ip := data.ip
  osType := data.osType
  osVersion := data.osVersion
  groupId := data.groupId
  env := data.env
  tags := (data.tags.map tagsValue).getD .null
  sensitivityLevel := data.sensitivityLevel
  status := "offline"
  connector := data.connector
  agentId := none
  agentVersion := ""
  lastHeartbeatAt := none
  remark := data.remark
  createdBy := some user.id
  createdAt := env.now
  updatedAt := env.now

/-- `create_host`. -/
def createHost (env : HostEnv) (user : Actor) (table : HostTable) (data : HostCreate) :
    Except PyErr (HostTable × ℤ) :=
  if user.seesGroup data.groupId = false then
    .error (.forbidden "no data permission for this host group")
  else if (table.byIp data.ip).isSome then
    .error (.conflict "ip already exists")
  else do
    let table ← commitRows env (table.rows ++ [data.row env user]) [data.row env user]
    return (table, env.nextId)

/-- The fields that `update_host` sets. -/
def HostUpdate.set (data : HostUpdate) (h : HostRow) : HostRow :=
  { h with
    hostname := data.hostname.getD h.hostname
    ip := data.ip.getD h.ip
    osType := data.osType.getD h.osType
    osVersion := data.osVersion.getD h.osVersion
    groupId := data.groupId.or h.groupId
    env := data.env.getD h.env
    tags := (data.tags.map tagsValue).getD h.tags
    connector := data.connector.getD h.connector
    sensitivityLevel := data.sensitivityLevel.getD h.sensitivityLevel
    remark := data.remark.getD h.remark }

/-- The row after an update. The clock is written where a field changed. -/
def HostUpdate.row (env : HostEnv) (data : HostUpdate) (h : HostRow) : HostRow :=
  if data.set h = h then h else { data.set h with updatedAt := env.now }

/-- The address of an update is another host's. -/
def HostUpdate.conflicts (table : HostTable) (data : HostUpdate) (h : HostRow) : Bool :=
  data.ip.any fun ip =>
    decide (ip ≠ h.ip) && (table.byIp ip).any fun existing => decide (existing.id ≠ h.id)

/-- The rows with one of them replaced. -/
def HostTable.replaced (table : HostTable) (h : HostRow) : List HostRow :=
  table.rows.map fun old => if old.id = h.id then h else old

/-- `update_host`. -/
def updateHost (env : HostEnv) (user : Actor) (table : HostTable) (hostId : ℤ) (data : HostUpdate) :
    Except PyErr HostTable :=
  match table.get hostId with
  | none => .error (.notFound "host not found")
  | some host =>
      if user.seesGroup host.groupId = false then
        .error (.forbidden "no data permission for this host")
      else if data.conflicts table host = true then
        .error (.conflict "ip already exists")
      else
        commitRows env (table.replaced (data.row env host)) [data.row env host]

/-- The table without a row. -/
def HostTable.erase (table : HostTable) (id : ℤ) : HostTable where
  rows := table.rows.filter fun h => decide (h.id ≠ id)
  keyed := table.keyed.sublist (List.filter_sublist.map _)
  addressed := table.addressed.sublist (List.filter_sublist.map _)

/-- `delete_host`. -/
def deleteHost (env : HostEnv) (user : Actor) (table : HostTable) (hostId : ℤ) :
    Except PyErr HostTable :=
  match table.get hostId with
  | none => .error (.notFound "host not found")
  | some host =>
      if user.seesGroup host.groupId = false then
        .error (.forbidden "no data permission for this host")
      else if env.taskRefs hostId ≠ 0 ∨ env.schedRefs hostId ≠ 0 then
        .error (.conflict "host referenced by tasks or schedules")
      else
        .ok (table.erase hostId)

/-! ### The import -/

/-- `row.get` of a row of the file. -/
abbrev CsvRow := String → Option String

/-- The rows of a file, and whether the file raises after them. -/
structure CsvFile where
  rows : List CsvRow
  raises : Option PyErr

/-- `row.get(k) or default`. -/
def CsvRow.getOr (row : CsvRow) (k default : String) : String :=
  match row k with
  | some s => if s = "" then default else s
  | none => default

/-- `s.strip()`. -/
def stripped (s : String) : String :=
  String.ofList (Json.strip s.toList)

/-- `_normalize_tags` of a cell. -/
def normalizeTags (cell : Option String) : List String :=
  match cell with
  | none => []
  | some s =>
      let tags := (s.toList.map fun c => if c = ';' then ',' else c).splitOn ','
      (tags.map fun t => String.ofList (Json.strip t)).filter fun t => decide (t ≠ "")

/-- The group that a row names: the first of that name, if there is one. -/
def CsvRow.groupId (env : HostEnv) (row : CsvRow) : Option ℤ :=
  if stripped (row.getOr "group" "") = "" then none
  else
    (env.groups.find? fun g => decide (g.name = stripped (row.getOr "group" ""))).map AssetGroup.id

/-- The level that a row names. -/
def CsvRow.sensitivity (row : CsvRow) : String :=
  if stripped (row.getOr "sensitivity_level" "") = "" then "normal"
  else stripped (row.getOr "sensitivity_level" "")

/-- Why a row is not imported. -/
def CsvRow.failure (table : HostTable) (row : CsvRow) : Option String :=
  if stripped (row.getOr "ip" "") = "" ∨ stripped (row.getOr "hostname" "") = "" then
    some "ip and hostname required"
  else if (table.byIp (stripped (row.getOr "ip" ""))).isSome then
    some "ip already exists"
  else if row.sensitivity ∉ ["normal", "sensitive"] then
    some "invalid sensitivity_level, must be normal or sensitive"
  else
    none

/-- The host that a row is imported as. -/
def CsvRow.host (env : HostEnv) (user : Actor) (id : ℤ) (row : CsvRow) : HostRow where
  id := id
  hostname := stripped (row.getOr "hostname" "")
  ip := stripped (row.getOr "ip" "")
  osType := row.getOr "os_type" "linux"
  osVersion := row.getOr "os_version" ""
  groupId := row.groupId env
  env := row.getOr "env" "prod"
  tags := tagsValue (normalizeTags (row "tags"))
  sensitivityLevel := row.sensitivity
  status := "offline"
  connector := row.getOr "connector" "agent"
  agentId := none
  agentVersion := ""
  lastHeartbeatAt := none
  remark := row.getOr "remark" ""
  createdBy := some user.id
  createdAt := env.now
  updatedAt := env.now

/-- The hosts that are added for the rows, numbered from `id`, and the failures, by the line. -/
def importRows (env : HostEnv) (user : Actor) (table : HostTable) :
    ℕ → ℤ → List CsvRow → List HostRow × List (ℕ × String)
  | _, _, [] => ([], [])
  | idx, id, row :: rows =>
      match row.failure table with
      | some error =>
          let rest := importRows env user table (idx + 1) id rows
          (rest.1, (idx, error) :: rest.2)
      | none =>
          let rest := importRows env user table (idx + 1) (id + 1) rows
          (row.host env user id :: rest.1, rest.2)

/-- `import_hosts`. The session does not flush before the commit, so that `by_ip` finds no row of
the same file. -/
def importHosts (env : HostEnv) (user : Actor) (table : HostTable) (file : CsvFile) :
    Except PyErr (HostTable × ℕ × List (ℕ × String)) :=
  let result := importRows env user table 2 env.nextId file.rows
  match file.raises with
  | some e => .error e
  | none => do
      let table ← commitRows env (table.rows ++ result.1) result.1
      return (table, result.1.length, result.2)

/-! ### What a write does to hidden hosts -/

section Writes

variable {env : HostEnv} {user : Actor} {table table' : HostTable}

theorem commitRows_ok {rows written : List HostRow} :
    commitRows env rows written = .ok table' ↔ Storable env rows written ∧ table'.rows = rows := by
  by_cases h : Storable env rows written
  · rw [commitRows, dif_pos h]
    constructor
    · intro heq
      exact ⟨h, Except.ok.inj heq ▸ rfl⟩
    · rintro ⟨-, hrows⟩
      cases table'
      cases hrows
      rfl
  · rw [commitRows, dif_neg h]
    exact iff_of_false (by simp) fun hrows => h hrows.1

theorem HostTable.get_some {id : ℤ} {h : HostRow} (hget : table.get id = some h) :
    h ∈ table.rows ∧ h.id = id :=
  ⟨List.mem_of_find?_eq_some hget,
    of_decide_eq_true (List.find?_some (p := fun h : HostRow => decide (h.id = id)) hget)⟩

theorem HostTable.eq_of_id {h h' : HostRow} (hmem : h ∈ table.rows) (hmem' : h' ∈ table.rows)
    (hid : h.id = h'.id) : h = h' :=
  List.inj_on_of_nodup_map table.keyed hmem hmem' hid

/-- Rows that are added leave the hidden hosts there, and leave them alone if none of them is
hidden. -/
theorem hidden_append {new : List HostRow} (hrows : table'.rows = table.rows ++ new) :
    table.hidden user ⊆ table'.hidden user ∧
      (table'.hidden user = table.hidden user ↔ ∀ h ∈ new, ¬ user.Hidden h.groupId) := by
  have hsub : table.hidden user ⊆ table'.hidden user := by
    rintro h ⟨hmem, hhidden⟩
    exact ⟨hrows ▸ List.mem_append_left _ hmem, hhidden⟩
  refine ⟨hsub, fun heq h hnew hhidden => ?_, fun hnone => Set.Subset.antisymm ?_ hsub⟩
  · have hold : h ∈ table.hidden user := heq ▸ ⟨hrows ▸ List.mem_append_right _ hnew, hhidden⟩
    have hnodup := table'.keyed
    rw [hrows, List.map_append] at hnodup
    exact List.disjoint_of_nodup_append hnodup (List.mem_map_of_mem hold.1)
      (List.mem_map_of_mem hnew)
  · rintro h ⟨hmem, hhidden⟩
    rw [hrows, List.mem_append] at hmem
    exact ⟨hmem.resolve_right fun hnew => hnone h hnew hhidden, hhidden⟩

/-- A row that is not hidden and is replaced leaves the hidden hosts there, and leaves them alone if
it stays so. -/
theorem hidden_replaced {old new : HostRow} (hold : old ∈ table.rows) (hid : new.id = old.id)
    (hsees : ¬ user.Hidden old.groupId) (hrows : table'.rows = table.replaced new) :
    table.hidden user ⊆ table'.hidden user ∧
      (table'.hidden user = table.hidden user ↔ ¬ user.Hidden new.groupId) := by
  have hother {h : HostRow} (hmem : h ∈ table.rows) (hhidden : user.Hidden h.groupId) :
      h.id ≠ new.id := by
    intro heq
    exact hsees (table.eq_of_id hmem hold (heq.trans hid) ▸ hhidden)
  have hsub : table.hidden user ⊆ table'.hidden user := by
    rintro h ⟨hmem, hhidden⟩
    refine ⟨?_, hhidden⟩
    rw [hrows, HostTable.replaced, List.mem_map]
    exact ⟨h, hmem, if_neg (hother hmem hhidden)⟩
  refine ⟨hsub, fun heq hhidden => ?_, fun hnew => Set.Subset.antisymm ?_ hsub⟩
  · have hstored : new ∈ table'.rows := by
      rw [hrows, HostTable.replaced, List.mem_map]
      exact ⟨old, hold, if_pos hid.symm⟩
    have hbefore : new ∈ table.hidden user := heq ▸ ⟨hstored, hhidden⟩
    exact hother hbefore.1 hhidden rfl
  · rintro h ⟨hmem, hhidden⟩
    rw [hrows, HostTable.replaced, List.mem_map] at hmem
    obtain ⟨before, hbefore, rfl⟩ := hmem
    by_cases hsame : before.id = new.id
    · rw [if_pos hsame] at hhidden
      exact absurd hhidden hnew
    · rw [if_neg hsame] at hhidden ⊢
      exact ⟨hbefore, hhidden⟩

theorem hidden_erase {old : HostRow} (hold : old ∈ table.rows)
    (hsees : ¬ user.Hidden old.groupId) :
    (table.erase old.id).hidden user = table.hidden user := by
  ext h
  constructor
  · rintro ⟨hmem, hhidden⟩
    exact ⟨(List.mem_filter.mp hmem).1, hhidden⟩
  · rintro ⟨hmem, hhidden⟩
    refine ⟨List.mem_filter.mpr ⟨hmem, decide_eq_true fun heq => ?_⟩, hhidden⟩
    exact hsees (table.eq_of_id hmem hold heq ▸ hhidden)

end Writes

/-! ### Calls -/

section Calls

variable {env : HostEnv} {user : Actor} {table : HostTable}

/-- A call of the four, with what it finds. -/
inductive HostCall
  | create (env : HostEnv) (data : HostCreate)
  | update (env : HostEnv) (hostId : ℤ) (data : HostUpdate)
  | delete (env : HostEnv) (hostId : ℤ)
  | importFile (env : HostEnv) (file : CsvFile)

/-- The table that a call returns with. -/
def HostCall.result (user : Actor) (table : HostTable) : HostCall → Except PyErr HostTable
  | .create env data => (createHost env user table data).map Prod.fst
  | .update env hostId data => updateHost env user table hostId data
  | .delete env hostId => deleteHost env user table hostId
  | .importFile env file => (importHosts env user table file).map Prod.fst

/-- The table after a call. One that raises is rolled back. -/
def HostCall.apply (user : Actor) (table : HostTable) (call : HostCall) : HostTable :=
  (call.result user table).toOption.getD table

/-- The update is stored: it finds a host of the caller's groups, its address is free, and its row
can be committed. -/
def HostUpdate.Stored (env : HostEnv) (user : Actor) (table : HostTable) (hostId : ℤ)
    (data : HostUpdate) : Prop :=
  ∃ host, table.get hostId = some host ∧ user.seesGroup host.groupId = true ∧
    data.conflicts table host = false ∧
    Storable env (table.replaced (data.row env host)) [data.row env host]

/-- The file is stored: it is read to its end, and the hosts of its rows can be committed. -/
def CsvFile.Stored (env : HostEnv) (user : Actor) (table : HostTable) (file : CsvFile) : Prop :=
  file.raises = none ∧
    Storable env (table.rows ++ (importRows env user table 2 env.nextId file.rows).1)
      (importRows env user table 2 env.nextId file.rows).1

/-- No update that is stored names a group that the caller does not see, and no row of a file that
is stored, unless it is among the failures. -/
def HostCall.StaysInside (user : Actor) (table : HostTable) : HostCall → Prop
  | .create _ _ => True
  | .update env hostId data =>
      data.Stored env user table hostId → ¬ user.Hidden data.groupId
  | .delete _ _ => True
  | .importFile env file =>
      file.Stored env user table →
        ∀ row ∈ file.rows, row.failure table = none → ¬ user.Hidden (row.groupId env)

theorem HostCall.apply_ok {call : HostCall} {table' : HostTable}
    (h : call.result user table = .ok table') : call.apply user table = table' := by
  rw [HostCall.apply, h]
  rfl

theorem HostCall.apply_error {call : HostCall} {e : PyErr} (h : call.result user table = .error e) :
    call.apply user table = table := by
  rw [HostCall.apply, h]
  rfl

/-- `create_host` writes in a group of the caller. -/
theorem createHost_step (hadmin : user.isAdmin = false) (data : HostCreate) :
    ((HostCall.create env data).apply user table).hidden user = table.hidden user := by
  by_cases hsees : user.seesGroup data.groupId = false
  · rw [HostCall.apply_error (by rw [HostCall.result, createHost, if_pos hsees]; rfl)]
  · by_cases hip : (table.byIp data.ip).isSome
    · rw [HostCall.apply_error (by rw [HostCall.result, createHost, if_neg hsees, if_pos hip]; rfl)]
    · cases hcommit : commitRows env (table.rows ++ [data.row env user]) [data.row env user] with
      | error e =>
          rw [HostCall.apply_error (by
            rw [HostCall.result, createHost, if_neg hsees, if_neg hip, hcommit]; rfl)]
      | ok table' =>
          rw [HostCall.apply_ok (by
            rw [HostCall.result, createHost, if_neg hsees, if_neg hip, hcommit]; rfl)]
          refine (hidden_append (commitRows_ok.mp hcommit).2).2.mpr fun h hmem => ?_
          rw [List.mem_singleton.mp hmem]
          exact Actor.not_hidden_of_sees hadmin (Bool.not_eq_false _ ▸ hsees)

/-- The group after an update is hidden exactly if the update names such a group. -/
theorem HostUpdate.hidden_row {data : HostUpdate} {host : HostRow}
    (hsees : ¬ user.Hidden host.groupId) :
    user.Hidden (data.row env host).groupId ↔ user.Hidden data.groupId := by
  have hset : (data.row env host).groupId = data.groupId.or host.groupId := by
    rw [HostUpdate.row]
    split_ifs with h
    · exact congrArg HostRow.groupId h.symm
    · rfl
  rw [hset]
  cases data.groupId with
  | none => exact iff_of_false hsees (by rintro ⟨g, hg, -⟩; cases hg)
  | some g => rfl

theorem HostUpdate.row_id (data : HostUpdate) (host : HostRow) :
    (data.row env host).id = host.id := by
  rw [HostUpdate.row]
  split_ifs <;> rfl

/-- `update_host` returns exactly if it stores, and then the row is replaced. -/
theorem updateHost_ok {hostId : ℤ} {data : HostUpdate} {table' : HostTable} :
    updateHost env user table hostId data = .ok table' ↔
      ∃ host, table.get hostId = some host ∧ user.seesGroup host.groupId = true ∧
        data.conflicts table host = false ∧
        Storable env (table.replaced (data.row env host)) [data.row env host] ∧
        table'.rows = table.replaced (data.row env host) := by
  rw [updateHost]
  cases hget : table.get hostId with
  | none => simp
  | some host =>
      by_cases hsees : user.seesGroup host.groupId = false
      · simp [hsees]
      · by_cases hconflict : data.conflicts table host = true
        · simp [hsees, hconflict]
        · simp [hsees, hconflict, commitRows_ok]

/-- `update_host` replaces a row of a group of the caller, and its new row is hidden exactly if the
update names a hidden group. -/
theorem updateHost_step (hadmin : user.isAdmin = false) (hostId : ℤ) (data : HostUpdate) :
    table.hidden user ⊆ ((HostCall.update env hostId data).apply user table).hidden user ∧
      (((HostCall.update env hostId data).apply user table).hidden user = table.hidden user ↔
        (HostCall.update env hostId data).StaysInside user table) := by
  cases hresult : updateHost env user table hostId data with
  | error e =>
      have happly : (HostCall.update env hostId data).apply user table = table :=
        HostCall.apply_error hresult
      rw [happly]
      refine ⟨subset_rfl, iff_of_true rfl fun hstored => ?_⟩
      obtain ⟨host, hget, hsees, hconflict, hstorable⟩ := hstored
      have hcommit : commitRows env (table.replaced (data.row env host)) [data.row env host] =
          .ok ⟨_, hstorable.1, hstorable.2.1⟩ := dif_pos hstorable
      have hok := updateHost_ok.mpr ⟨host, hget, hsees, hconflict, commitRows_ok.mp hcommit⟩
      rw [hresult] at hok
      cases hok
  | ok table' =>
      have happly : (HostCall.update env hostId data).apply user table = table' :=
        HostCall.apply_ok hresult
      rw [happly]
      obtain ⟨host, hget, hsees, hconflict, hstorable, hrows⟩ := updateHost_ok.mp hresult
      have hold := Actor.not_hidden_of_sees hadmin hsees
      have hwrite := hidden_replaced (HostTable.get_some hget).1 (data.row_id host) hold hrows
      rw [HostUpdate.hidden_row hold] at hwrite
      refine ⟨hwrite.1, hwrite.2.trans ⟨fun h _ => h, fun h => h ?_⟩⟩
      exact ⟨host, hget, hsees, hconflict, hstorable⟩

/-- `delete_host` deletes a row of a group of the caller. -/
theorem deleteHost_step (hadmin : user.isAdmin = false) (hostId : ℤ) :
    ((HostCall.delete env hostId).apply user table).hidden user = table.hidden user := by
  cases hresult : deleteHost env user table hostId with
  | error e =>
      have happly : (HostCall.delete env hostId).apply user table = table :=
        HostCall.apply_error hresult
      rw [happly]
  | ok table' =>
      have happly : (HostCall.delete env hostId).apply user table = table' :=
        HostCall.apply_ok hresult
      rw [happly]
      unfold deleteHost at hresult
      cases hget : table.get hostId with
      | none => simp [hget] at hresult
      | some host =>
          by_cases hsees : user.seesGroup host.groupId = false
          · simp [hget, hsees] at hresult
          · by_cases hrefs : env.taskRefs hostId ≠ 0 ∨ env.schedRefs hostId ≠ 0
            · simp only [hget, if_neg hsees, if_pos hrefs] at hresult
              cases hresult
            · simp only [hget, if_neg hsees, if_neg hrefs] at hresult
              obtain ⟨hmem, rfl⟩ := HostTable.get_some hget
              rw [← Except.ok.inj hresult]
              exact hidden_erase hmem
                (Actor.not_hidden_of_sees hadmin (Bool.not_eq_false _ ▸ hsees))

theorem importRows_hidden (rows : List CsvRow) (idx : ℕ) (id : ℤ) :
    (∀ h ∈ (importRows env user table idx id rows).1, ¬ user.Hidden h.groupId) ↔
      ∀ row ∈ rows, row.failure table = none → ¬ user.Hidden (row.groupId env) := by
  induction rows generalizing idx id with
  | nil => simp [importRows]
  | cons row rows ih =>
      rw [List.forall_mem_cons]
      cases hfailure : row.failure table with
      | some error =>
          simp only [importRows, hfailure]
          rw [ih]
          exact (and_iff_right fun h => by cases h).symm
      | none =>
          have hgroup : (row.host env user id).groupId = row.groupId env := by
            rw [CsvRow.host]
          simp only [importRows, hfailure]
          rw [List.forall_mem_cons, ih, hgroup]
          exact and_congr_left fun _ => true_imp_iff.symm

/-- `import_hosts` adds the hosts of its rows, in whatever groups these name. -/
theorem importHosts_step (file : CsvFile) :
    table.hidden user ⊆ ((HostCall.importFile env file).apply user table).hidden user ∧
      (((HostCall.importFile env file).apply user table).hidden user = table.hidden user ↔
        (HostCall.importFile env file).StaysInside user table) := by
  set hosts := (importRows env user table 2 env.nextId file.rows).1 with hhosts
  cases hraises : file.raises with
  | some e =>
      rw [HostCall.apply_error (by rw [HostCall.result, importHosts, hraises]; rfl)]
      refine ⟨subset_rfl, iff_of_true rfl fun hstored => ?_⟩
      cases hraises.symm.trans hstored.1
  | none =>
      cases hcommit : commitRows env (table.rows ++ hosts) hosts with
      | error e =>
          rw [HostCall.apply_error (by
            rw [HostCall.result, importHosts, hraises]
            simp only [← hhosts, hcommit]
            rfl)]
          refine ⟨subset_rfl, iff_of_true rfl fun hstored => ?_⟩
          rw [commitRows, dif_pos hstored.2] at hcommit
          cases hcommit
      | ok table' =>
          rw [HostCall.apply_ok (by
            rw [HostCall.result, importHosts, hraises]
            simp only [← hhosts, hcommit]
            rfl)]
          obtain ⟨hstorable, hrows⟩ := commitRows_ok.mp hcommit
          refine ⟨(hidden_append hrows).1, (hidden_append hrows).2.trans ?_⟩
          rw [hhosts, importRows_hidden]
          exact ⟨fun h _ => h, fun h => h ⟨hraises, hstorable⟩⟩

/-- **A call and the hidden hosts.** None is lost, and they stay as they are exactly if the call
stays inside. -/
theorem hidden_step (hadmin : user.isAdmin = false) (call : HostCall) :
    table.hidden user ⊆ (call.apply user table).hidden user ∧
      ((call.apply user table).hidden user = table.hidden user ↔ call.StaysInside user table) := by
  cases call with
  | create env data =>
      have hsame : ((HostCall.create env data).apply user table).hidden user = table.hidden user :=
        createHost_step hadmin data
      exact ⟨hsame.ge, iff_of_true hsame trivial⟩
  | update env hostId data => exact updateHost_step hadmin hostId data
  | delete env hostId =>
      have hsame : ((HostCall.delete env hostId).apply user table).hidden user = table.hidden user :=
        deleteHost_step hadmin hostId
      exact ⟨hsame.ge, iff_of_true hsame trivial⟩
  | importFile env file => exact importHosts_step file

end Calls

/-- **Host writes and the caller's groups.** Along any sequence of calls the hosts of the groups
that the caller does not see stay as they are, exactly if no update that is stored names such a
group and no row that is imported does. -/
theorem writes_confined_iff {user : Actor} (hadmin : user.isAdmin = false) (table : HostTable)
    (calls : List HostCall) :
    (run (HostCall.apply user) table calls).hidden user = table.hidden user ↔
      Meets (HostCall.apply user) (fun t call => call.StaysInside user t) table calls := by
  rw [run_same_iff fun t call => (hidden_step hadmin call).1]
  exact meets_iff_of_invariant (P := fun _ => True) (fun t call _ => (hidden_step hadmin call).2)
    (fun _ _ _ _ => trivial) trivial calls

/-! ### A move and an import out of sight -/

/-- A caller of group 1. -/
def groupOneUser : Actor := ⟨7, false, [1], fun _ => true⟩

/-- A host of group 1. -/
def groupOneHost : HostRow where
  id := 5
  hostname := "web-1"
  ip := "10.0.0.5"
  osType := "linux"
  osVersion := ""
  groupId := some 1
  env := "prod"
  tags := .arr []
  sensitivityLevel := "normal"
  status := "offline"
  connector := "agent"
  agentId := none
  agentVersion := ""
  lastHeartbeatAt := none
  remark := ""
  createdBy := none
  createdAt := 0
  updatedAt := 0

/-- The table with that host. -/
def groupOneTable : HostTable := ⟨[groupOneHost], by decide, by decide⟩

/-- The groups `web` and `db`. -/
def twoGroups : HostEnv := ⟨[⟨1, "web"⟩, ⟨2, "db"⟩], 6, 1, fun _ => 0, fun _ => 0⟩

/-- An update of a group alone. -/
def moveTo (groupId : ℤ) : HostUpdate :=
  ⟨none, none, none, none, some groupId, none, none, none, none, none⟩

/-- A row that names a group. -/
def namedRow (group : String) : CsvRow := fun k =>
  if k = "ip" then some "10.0.0.6"
  else if k = "hostname" then some "db-1"
  else if k = "group" then some group
  else none

/-- A file of one row. -/
def oneRowFile (group : String) : CsvFile := ⟨[namedRow group], none⟩

/-- **Hosts of hidden groups change.** A host is moved into the group `db`, and another is imported
into it, by a caller who does not see that group. -/
theorem moved_and_imported :
    ((run (HostCall.apply groupOneUser) groupOneTable [.update twoGroups 5 (moveTo 2)]).hidden
        groupOneUser ≠ groupOneTable.hidden groupOneUser) ∧
      (run (HostCall.apply groupOneUser) groupOneTable
        [.importFile twoGroups (oneRowFile "db")]).hidden groupOneUser ≠
          groupOneTable.hidden groupOneUser := by
  have hdb : groupOneUser.Hidden (some 2) := ⟨2, rfl, by decide⟩
  rw [run_cons, run_nil, run_cons, run_nil]
  constructor
  · have hrow : (moveTo 2).row twoGroups groupOneHost =
        { groupOneHost with groupId := some 2, updatedAt := 1 } := by decide +kernel
    refine (updateHost_step rfl 5 (moveTo 2)).2.not.mpr fun h => h ?_ hdb
    refine ⟨groupOneHost, rfl, by decide, by decide, ?_⟩
    rw [hrow]
    decide +kernel
  · have hgroup : (namedRow "db").groupId twoGroups = some 2 := by decide +kernel
    refine (importHosts_step (oneRowFile "db")).2.not.mpr fun h => ?_
    exact h ⟨rfl, by decide +kernel⟩ _ List.mem_cons_self (by decide +kernel) (hgroup ▸ hdb)

/-- The same calls within the caller's group leave the hidden hosts alone. -/
theorem moved_within :
    (run (HostCall.apply groupOneUser) groupOneTable
        [.update twoGroups 5 (moveTo 1), .importFile twoGroups (oneRowFile "web")]).hidden
          groupOneUser = groupOneTable.hidden groupOneUser := by
  refine (writes_confined_iff rfl groupOneTable _).mpr ⟨fun _ => ?_, fun _ row hrow _ => ?_, trivial⟩
  · rintro ⟨g, hg, hnot⟩
    rw [← Option.some.inj hg] at hnot
    exact hnot (by decide)
  · rw [List.mem_singleton.mp hrow]
    rintro ⟨g, hg, hnot⟩
    have hweb : (namedRow "web").groupId twoGroups = some 1 := by decide +kernel
    rw [Option.some.inj (hg.symm.trans hweb)] at hnot
    exact hnot (by decide)

end LarkPlat
