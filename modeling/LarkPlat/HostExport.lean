import LarkPlat.HostImport
import LarkPlat.Tags

/-!
# Exports That Are Imported

`export_hosts` writes the hosts that the caller sees as a CSV file, and `import_hosts` reads such a
file. Both sides go over the columns one by one, with their own defaults; a group is written by its
name and looked up by it, and tags are joined by semicolons.

The `csv` library is a writer and a reader of lists of cells, where the reader inverts the writer.

## Main results

* `dictRow_get`: a cell is found under its header.
* `export_imports`: an inventory that is exported by an administrator is imported again, host by
  host, into a database with the same groups.
-/

namespace LarkPlat

/-! ### The export -/

/-- The depth to which the interpreter nests calls. -/
def recursionLimit : ℕ := 1000

/-- The header of an export. -/
def exportHeader : List String :=
  ["hostname", "ip", "os_type", "os_version", "env", "group", "tags", "sensitivity_level", "status",
    "connector", "remark"]

/-- `groups.get(group_id, "")` of the names of the groups. -/
def groupName (groups : List AssetGroup) (groupId : Option ℤ) : String :=
  ((groups.find? fun g => decide (groupId = some g.id)).map AssetGroup.name).getD ""

/-- The cells of a host. -/
def HostRow.cells (groups : List AssetGroup) (h : HostRow) : Except PyErr (List String) := do
  let tags ← h.tags.normalizeTags recursionLimit
  pure [h.hostname, h.ip, h.osType, h.osVersion, h.env, groupName groups h.groupId,
    ";".intercalate tags,
    if h.sensitivityLevel = "" then "normal" else h.sensitivityLevel, h.status, h.connector,
    h.remark]

/-- `HostRepository.search` of what the caller sees: the newest first, no more than the size of the
page. -/
def HostTable.searched (user : Actor) (table : HostTable) (size : ℕ) : List HostRow :=
  ((table.rows.filter fun h => user.seesGroup h.groupId).mergeSort
    fun a b => decide (b.id ≤ a.id)).take size

/-- `export_hosts`: the cells of the file. -/
def exportHosts (groups : List AssetGroup) (user : Actor) (table : HostTable) :
    Except PyErr (List (List String)) := do
  let rows ← (table.searched user 100000).mapM (HostRow.cells groups)
  pure (exportHeader :: rows)

/-! ### The reader -/

/-- A row of `csv.DictReader`: the last cell under a header counts. -/
def dictRow (header cells : List String) : CsvRow := fun k => (header.zip cells).reverse.lookup k

/-- `csv.DictReader` of the cells of a file, which passes over empty rows. -/
def dictRows : List (List String) → List CsvRow
  | [] => []
  | header :: rows => (rows.filter fun cells => decide (cells ≠ [])).map (dictRow header)

theorem lookup_of_mem {l : List (String × String)} (hn : (l.map Prod.fst).Nodup)
    {k v : String} (h : (k, v) ∈ l) : l.lookup k = some v := by
  obtain ⟨l₁, l₂, rfl⟩ := List.append_of_mem h
  refine List.lookup_eq_some_iff.mpr ⟨l₁, l₂, rfl, fun p hp => ?_⟩
  rw [List.map_append, List.nodup_append] at hn
  exact bne_iff_ne.mpr fun heq =>
    hn.2.2 p.1 (List.mem_map_of_mem hp) k (List.mem_map_of_mem List.mem_cons_self) heq.symm

/-- A cell is found under its header. -/
theorem dictRow_get {header cells : List String} (hn : header.Nodup)
    (hlength : header.length = cells.length) {i : ℕ} {k v : String} (hk : header[i]? = some k)
    (hv : cells[i]? = some v) : dictRow header cells k = some v := by
  refine lookup_of_mem ?_ (List.mem_reverse.mpr ?_)
  · rw [List.map_reverse, List.nodup_reverse, List.map_fst_zip (le_of_eq hlength)]
    exact hn
  · exact List.mem_of_getElem? (List.getElem?_zip_eq_some.mpr ⟨hk, hv⟩)

/-! ### Portable hosts -/

/-- A host that can be exported and imported. The level is one of the schema's, and the columns
have taken it. -/
structure Portable (env : HostEnv) (h : HostRow) : Prop where
  fits : h.Fits env
  hostname : h.hostname ≠ "" ∧ stripped h.hostname = h.hostname
  ip : h.ip ≠ "" ∧ stripped h.ip = h.ip
  osType : h.osType ≠ ""
  env : h.env ≠ ""
  connector : h.connector ≠ ""
  tags : h.tags = .null ∨ ∃ tags, h.tags = tagsValue tags
  level : h.sensitivityLevel ∈ ["normal", "sensitive"]

/-- The groups have ids and names of their own, and nothing is stripped from a name. -/
structure NamedGroups (groups : List AssetGroup) : Prop where
  keyed : (groups.map AssetGroup.id).Nodup
  distinct : (groups.map AssetGroup.name).Nodup
  named : ∀ g ∈ groups, g.name ≠ "" ∧ stripped g.name = g.name

/-- The imported host is the exported one, with its tags normalized. -/
structure SameHost (h h' : HostRow) : Prop where
  hostname : h'.hostname = h.hostname
  ip : h'.ip = h.ip
  osType : h'.osType = h.osType
  osVersion : h'.osVersion = h.osVersion
  env : h'.env = h.env
  groupId : h'.groupId = h.groupId
  sensitivityLevel : h'.sensitivityLevel = h.sensitivityLevel
  connector : h'.connector = h.connector
  remark : h'.remark = h.remark
  tags : ∃ tags, h.tags.normalizeTags recursionLimit = .ok tags ∧ h'.tags = tagsValue tags

section Hosts

variable {env env' : HostEnv} {h : HostRow} {row : CsvRow} {tags : List String}
  {groups : List AssetGroup}

/-- The tags of a host are normalized, and have no null character if those of the host have none. -/
theorem Portable.normalizeTags (hh : Portable env h) :
    ∃ tags, h.tags.normalizeTags recursionLimit = .ok tags ∧ (∀ t ∈ tags, IsTag t) ∧
      ∀ t ∈ tags, Char.ofNat 0 ∉ t.toList := by
  rcases hh.tags with hnull | ⟨old, hold⟩
  · rw [hnull]
    exact ⟨[], rfl, fun t ht => absurd ht List.not_mem_nil, fun t ht => absurd ht List.not_mem_nil⟩
  have hcall : ∀ v ∈ old.map Json.str,
      ∃ tags, v.normalizeTags 999 = .ok tags ∧ ∀ t ∈ tags, IsTag t := by
    intro v hv
    obtain ⟨s, -, rfl⟩ := List.mem_map.mp hv
    exact ⟨_, rfl, fun t ht => isTag_normalizeTags ht⟩
  obtain ⟨tags, hres, htags⟩ := extendTags_returns hcall
  refine ⟨tags, by rw [hold]; exact hres, htags, fun t ht hnul => ?_⟩
  obtain ⟨v, hv, found, hfound, ht⟩ := mem_extendTags hres ht
  obtain ⟨s, hs, rfl⟩ := List.mem_map.mp hv
  obtain rfl : LarkPlat.normalizeTags (some s) = found := Except.ok.inj hfound
  have htexts : s ∈ h.texts := by
    rw [HostRow.texts, hold]
    refine List.mem_append_right _ (List.mem_filterMap.mpr ⟨.str s, List.mem_map_of_mem hs, rfl⟩)
  rcases mem_of_mem_normalizeTags ht hnul with hmem | hcomma
  · exact hh.fits.2.2.2.2.2.2.2.2.2 s htexts hmem
  · exact absurd hcomma (by decide)

theorem find?_of_nodup {α β : Type} {key : α → β} {l : List α} (hn : (l.map key).Nodup) {a : α}
    (ha : a ∈ l) {p : α → Bool} (hp : ∀ b, p b = true ↔ key b = key a) : l.find? p = some a := by
  cases hfind : l.find? p with
  | none => exact absurd ((hp a).mpr rfl) (List.find?_eq_none.mp hfind a ha)
  | some b =>
      have hkey : key b = key a := (hp b).mp (List.find?_some hfind)
      rw [List.inj_on_of_nodup_map hn (List.mem_of_find?_eq_some hfind) ha hkey]

theorem groupId_of_name (hgroups : NamedGroups env.groups) {groupId : Option ℤ}
    (hmem : groupId.all (fun g => decide (g ∈ env.groups.map AssetGroup.id)) = true)
    (hrow : row "group" = some (groupName env.groups groupId)) : row.groupId env = groupId := by
  have hget : row.getOr "group" "" = groupName env.groups groupId := by
    rw [CsvRow.getOr, hrow]
    dsimp only
    split_ifs with hempty
    · exact hempty.symm
    · rfl
  rw [CsvRow.groupId, hget]
  cases groupId with
  | none =>
      have hname : groupName env.groups none = "" := by
        rw [groupName, List.find?_eq_none.mpr fun g _ => by simp]
        rfl
      rw [hname]
      exact if_pos (by decide)
  | some id =>
      obtain ⟨g, hg, rfl⟩ := List.mem_map.mp (of_decide_eq_true hmem)
      have hfind : env.groups.find? (fun g' => decide (some g.id = some g'.id)) = some g :=
        find?_of_nodup hgroups.keyed hg fun g' => by
          rw [decide_eq_true_iff, Option.some.injEq, eq_comm]
      have hname : groupName env.groups (some g.id) = g.name := by
        rw [groupName, hfind]
        rfl
      obtain ⟨hne, hstrip⟩ := hgroups.named g hg
      rw [hname, hstrip, if_neg hne]
      have hback : env.groups.find? (fun g' => decide (g'.name = g.name)) = some g :=
        find?_of_nodup hgroups.distinct hg fun g' => decide_eq_true_iff
      rw [hback]
      rfl

theorem getOr_of_ne {k default s : String} (hrow : row k = some s) (hs : s ≠ "") :
    row.getOr k default = s := by
  rw [CsvRow.getOr, hrow]
  exact if_neg hs

theorem getOr_empty {k s : String} (hrow : row k = some s) : row.getOr k "" = s := by
  rw [CsvRow.getOr, hrow]
  dsimp only
  split_ifs with hempty
  · exact hempty.symm
  · rfl

/-- The cells of a host that is exported. -/
structure CellsOf (groups : List AssetGroup) (h : HostRow) (tags : List String) (row : CsvRow) :
    Prop where
  hostname : row "hostname" = some h.hostname
  ip : row "ip" = some h.ip
  osType : row "os_type" = some h.osType
  osVersion : row "os_version" = some h.osVersion
  env : row "env" = some h.env
  group : row "group" = some (groupName groups h.groupId)
  tags : row "tags" = some (";".intercalate tags)
  level : row "sensitivity_level" = some h.sensitivityLevel
  connector : row "connector" = some h.connector
  remark : row "remark" = some h.remark

theorem Portable.cells (hh : Portable env h) (groups : List AssetGroup) :
    ∃ cells tags, h.cells groups = .ok cells ∧ cells ≠ [] ∧
      h.tags.normalizeTags recursionLimit = .ok tags ∧ (∀ t ∈ tags, IsTag t) ∧
      (∀ t ∈ tags, Char.ofNat 0 ∉ t.toList) ∧
      CellsOf groups h tags (dictRow exportHeader cells) := by
  obtain ⟨tags, hres, htags, hnul⟩ := hh.normalizeTags
  have hlevel : h.sensitivityLevel ≠ "" := by
    intro hempty
    have hmem := hh.level
    rw [hempty] at hmem
    exact absurd hmem (by decide)
  set cells := [h.hostname, h.ip, h.osType, h.osVersion, h.env, groupName groups h.groupId,
    ";".intercalate tags, h.sensitivityLevel, h.status, h.connector, h.remark] with hcells
  have hheader : exportHeader.Nodup := by decide
  have hlength : exportHeader.length = cells.length := rfl
  have hget : ∀ (i : ℕ) {k v : String}, exportHeader[i]? = some k → cells[i]? = some v →
      dictRow exportHeader cells k = some v := fun i _ _ => dictRow_get hheader hlength
  refine ⟨cells, tags, ?_, List.cons_ne_nil _ _, hres, htags, hnul, ?_⟩
  · rw [HostRow.cells, hres, if_neg hlevel]
    rfl
  · exact {
      hostname := hget 0 rfl rfl
      ip := hget 1 rfl rfl
      osType := hget 2 rfl rfl
      osVersion := hget 3 rfl rfl
      env := hget 4 rfl rfl
      group := hget 5 rfl rfl
      tags := hget 6 rfl rfl
      level := hget 7 rfl rfl
      connector := hget 9 rfl rfl
      remark := hget 10 rfl rfl }

theorem tagTexts_tagsValue (tags : List String) : tagTexts (tagsValue tags) = tags := by
  change (tags.map Json.str).filterMap _ = tags
  rw [List.filterMap_map]
  exact List.filterMap_some

/-- The columns take the same host again, with tags that have no null character. -/
theorem SameHost.fits {h' : HostRow} (hsame : SameHost h h') (hgroups : env'.groups = env.groups)
    (htags : h'.tags = tagsValue tags) (hnul : ∀ t ∈ tags, Char.ofNat 0 ∉ t.toList)
    (hh : h.Fits env) : h'.Fits env' := by
  obtain ⟨hhost, hip, hos, hversion, henv, hlevel, hconnector, hremark, hgroup, htexts⟩ := hh
  refine ⟨hsame.hostname ▸ hhost, hsame.ip ▸ hip, hsame.osType ▸ hos, hsame.osVersion ▸ hversion,
    hsame.env ▸ henv, hsame.sensitivityLevel ▸ hlevel, hsame.connector ▸ hconnector,
    hsame.remark ▸ hremark, ?_, fun s hs => ?_⟩
  · rw [hsame.groupId, hgroups]
    exact hgroup
  · rw [HostRow.texts, htags, tagTexts_tagsValue, List.mem_append, hsame.hostname, hsame.ip,
      hsame.osType, hsame.osVersion, hsame.env, hsame.sensitivityLevel, hsame.connector,
      hsame.remark] at hs
    rcases hs with hs | hs
    · exact htexts s (List.mem_append_left _ hs)
    · exact hnul s hs

theorem host_groupId (row : CsvRow) (user : Actor) (id : ℤ) :
    (row.host env user id).groupId = row.groupId env := by
  rw [CsvRow.host]

theorem host_sensitivityLevel (row : CsvRow) (user : Actor) (id : ℤ) :
    (row.host env user id).sensitivityLevel = row.sensitivity := by
  rw [CsvRow.host]

theorem CellsOf.imported (hh : Portable env h) (hgroups : NamedGroups env.groups)
    (hsame : env'.groups = env.groups) (htags : ∀ t ∈ tags, IsTag t)
    (hnul : ∀ t ∈ tags, Char.ofNat 0 ∉ t.toList)
    (hnorm : h.tags.normalizeTags recursionLimit = .ok tags)
    (hcells : CellsOf env.groups h tags row) (user : Actor) (id : ℤ) :
    row.ip = h.ip ∧ SameHost h (row.host env' user id) ∧ (row.host env' user id).Fits env' := by
  have hip : row.ip = h.ip := by
    rw [CsvRow.ip, getOr_empty hcells.ip, hh.ip.2]
  have hlevel : row.sensitivity = h.sensitivityLevel := by
    have hstripped : stripped h.sensitivityLevel = h.sensitivityLevel ∧
        h.sensitivityLevel ≠ "" := by
      rcases List.mem_cons.mp hh.level with heq | hmem
      · rw [heq]
        decide
      · rw [List.mem_singleton.mp hmem]
        decide
    rw [CsvRow.sensitivity, getOr_empty hcells.level, hstripped.1, if_neg hstripped.2]
  have hgroup : row.groupId env' = h.groupId := by
    have hmem := hh.fits.2.2.2.2.2.2.2.2.1
    have hfound : row.groupId env = h.groupId := groupId_of_name hgroups hmem hcells.group
    rw [← hfound, CsvRow.groupId, CsvRow.groupId, hsame]
  have htagsrow : (row.host env' user id).tags = tagsValue tags := by
    rw [CsvRow.host, hcells.tags]
    exact congrArg tagsValue (normalizeTags_intercalate htags)
  have hhost : SameHost h (row.host env' user id) := {
    hostname := by rw [CsvRow.host, getOr_empty hcells.hostname, hh.hostname.2]
    ip := hip
    osType := getOr_of_ne hcells.osType hh.osType
    osVersion := getOr_empty hcells.osVersion
    env := getOr_of_ne hcells.env hh.env
    groupId := (host_groupId row user id).trans hgroup
    sensitivityLevel := (host_sensitivityLevel row user id).trans hlevel
    connector := getOr_of_ne hcells.connector hh.connector
    remark := getOr_empty hcells.remark
    tags := ⟨tags, hnorm, htagsrow⟩ }
  exact ⟨hip, hhost, hhost.fits hsame htagsrow hnul hh.fits⟩

end Hosts

/-! ### The round trip -/

section RoundTrip

variable {env env' : HostEnv} {admin user : Actor} {table : HostTable} {hosts : List HostRow}

/-- The table of a database without hosts. -/
def noHosts : HostTable := ⟨[], List.nodup_nil, List.nodup_nil⟩

/-- An administrator sees all hosts of a table that is not larger than the page. -/
theorem searched_perm (hadmin : admin.isAdmin = true) {size : ℕ}
    (hfew : table.rows.length ≤ size) : (table.searched admin size).Perm table.rows := by
  have hall : (table.rows.filter fun h => admin.seesGroup h.groupId) = table.rows := by
    refine List.filter_eq_self.mpr fun h _ => ?_
    rw [Actor.seesGroup, hadmin, Bool.true_or]
  have hperm := List.mergeSort_perm table.rows fun a b => decide (b.id ≤ a.id)
  rw [HostTable.searched, hall, List.take_of_length_le (by rw [hperm.length_eq]; exact hfew)]
  exact hperm

theorem failure_noHosts {row : CsvRow} (hip : stripped (row.getOr "ip" "") ≠ "")
    (hhostname : stripped (row.getOr "hostname" "") ≠ "")
    (hlevel : row.sensitivity ∈ ["normal", "sensitive"]) : row.failure noHosts = none := by
  have hknown : ¬ (noHosts.byIp (stripped (row.getOr "ip" ""))).isSome = true := Bool.noConfusion
  rw [CsvRow.failure, if_neg (not_or.mpr ⟨hip, hhostname⟩), if_neg hknown,
    if_neg (not_not.mpr hlevel)]

theorem exported_rows (hgroups : NamedGroups env.groups) (hsame : env'.groups = env.groups)
    (hhosts : ∀ h ∈ hosts, Portable env h) (user : Actor) :
    ∃ cells, hosts.mapM (HostRow.cells env.groups) = .ok cells ∧ (∀ c ∈ cells, c ≠ []) ∧
      List.Forall₂ (fun h row => row.failure noHosts = none ∧ row.ip = h.ip ∧
        ∀ id, SameHost h (row.host env' user id) ∧ (row.host env' user id).Fits env')
        hosts (cells.map (dictRow exportHeader)) := by
  induction hosts with
  | nil => exact ⟨[], rfl, fun c hc => absurd hc List.not_mem_nil, .nil⟩
  | cons h hosts ih =>
      obtain ⟨hh, hhosts⟩ := List.forall_mem_cons.mp hhosts
      obtain ⟨rest, hrest, hne, hrows⟩ := ih hhosts
      obtain ⟨cells, tags, hcells, hcell, hnorm, htags, hnul, hof⟩ := hh.cells env.groups
      have himported := hof.imported hh hgroups hsame htags hnul hnorm user
      refine ⟨cells :: rest, ?_, List.forall_mem_cons.mpr ⟨hcell, hne⟩, .cons ?_ hrows⟩
      · rw [List.mapM_cons, hcells, hrest]
        rfl
      · obtain ⟨hip, hhost, -⟩ := himported 0
        have hlevel : (dictRow exportHeader cells).sensitivity = h.sensitivityLevel := by
          rw [← hhost.sensitivityLevel, host_sensitivityLevel]
        refine ⟨failure_noHosts ?_ ?_ ?_, hip, fun id => (himported id).2⟩
        · rw [getOr_empty hof.ip, hh.ip.2]
          exact hh.ip.1
        · rw [getOr_empty hof.hostname, hh.hostname.2]
          exact hh.hostname.1
        · rw [hlevel]
          exact hh.level

theorem forall₂_right {α β : Type} {R : α → β → Prop} {l : List α} {l' : List β}
    (h : List.Forall₂ R l l') : ∀ b ∈ l', ∃ a, R a b := by
  induction h with
  | nil => exact fun b hb => absurd hb List.not_mem_nil
  | cons hab _ ih => exact List.forall_mem_cons.mpr ⟨⟨_, hab⟩, ih⟩

/-- What holds of two lists, item by item, holds when the second one is numbered. -/
theorem forall₂_mapIdx {α β γ : Type} {R : α → β → Prop} {S : α → γ → Prop} {f : ℕ → β → γ}
    {l : List α} {l' : List β} (hRS : ∀ i a b, R a b → S a (f i b)) (h : List.Forall₂ R l l') :
    List.Forall₂ S l (l'.mapIdx f) := by
  induction h generalizing f with
  | nil => exact .nil
  | cons hab _ ih =>
      rw [List.mapIdx_cons]
      exact .cons (hRS 0 _ _ hab) (ih fun i => hRS (i + 1))

/-- **The round trip.** The inventory of at most 100000 hosts that an administrator exports is
imported into a database with the same groups and no hosts: every row succeeds, and host by host the
imported inventory is the exported one, with its tags normalized. -/
theorem export_imports {File : Type} (write : List (List String) → File)
    (read : File → List (List String)) (hcsv : ∀ cells, read (write cells) = cells)
    (hgroups : NamedGroups env.groups) (hsame : env'.groups = env.groups)
    (hadmin : admin.isAdmin = true) (user : Actor) (table : HostTable)
    (hfew : table.rows.length ≤ 100000) (hportable : ∀ h ∈ table.rows, Portable env h) :
    ∃ cells table' hosts, exportHosts env.groups admin table = .ok cells ∧
      importHosts env' user noHosts ⟨dictRows (read (write cells)), none⟩ =
        .ok (table', table.rows.length, []) ∧
      hosts.Perm table.rows ∧ List.Forall₂ SameHost hosts table'.rows := by
  have hperm := searched_perm hadmin hfew
  obtain ⟨cells, hcells, hne, hrows⟩ := exported_rows hgroups hsame
    (fun h hh => hportable h (hperm.mem_iff.mp hh)) user
  set rows := cells.map (dictRow exportHeader) with hmap
  have hread : dictRows (exportHeader :: cells) = rows := by
    rw [dictRows, List.filter_eq_self.mpr fun c hc => decide_eq_true (hne c hc)]
  have htaken : ∀ row ∈ rows, row.failure noHosts = none := fun row hrow =>
    (forall₂_right hrows row hrow).elim fun _ h => h.1
  have hall : takenRows noHosts rows = rows :=
    List.filter_eq_self.mpr fun row hrow => by rw [htaken row hrow]; rfl
  have hips : (table.searched admin 100000).map HostRow.ip = rows.map CsvRow.ip := by
    rw [← List.forall₂_eq_eq_eq, List.forall₂_map_left_iff, List.forall₂_map_right_iff]
    exact hrows.imp fun _ _ h => h.2.1.symm
  have himportable : Importable env' user noHosts rows := by
    rw [Importable, hall, ← hips]
    refine ⟨(hperm.map HostRow.ip).nodup_iff.mpr table.addressed, fun row hrow => ?_⟩
    obtain ⟨h, -, -, hfits⟩ := forall₂_right hrows row hrow
    exact (hfits 0).2
  have hstorable := (storable_addedHosts (fun h hh => by cases hh)).mpr himportable
  have hlength : (addedHosts env' user noHosts rows).length = table.rows.length := by
    rw [addedHosts, hall, List.length_mapIdx, ← hrows.length_eq, hperm.length_eq]
  have hfailed : (importRows env' user noHosts 2 env'.nextId rows).2 = [] := by
    refine List.eq_nil_iff_forall_not_mem.mpr ?_
    rintro ⟨number, error⟩ hmem
    obtain ⟨i, row, -, hrow, herror⟩ := (importRows_failed ..).mp hmem
    rw [htaken row (List.mem_of_getElem? hrow)] at herror
    cases herror
  refine ⟨exportHeader :: cells, ⟨_, hstorable.1, hstorable.2.1⟩, table.searched admin 100000,
    ?_, ?_, hperm, ?_⟩
  · rw [exportHosts, hcells]
    rfl
  · rw [hcsv, hread, importHosts_rows, commitRows, dif_pos hstorable, hlength, hfailed]
    rfl
  · change List.Forall₂ SameHost _ ([] ++ addedHosts env' user noHosts rows)
    rw [List.nil_append, addedHosts, hall]
    exact forall₂_mapIdx (fun i h row hrow => (hrow.2.2 _).1) hrows

/-- A host with a group and two tags in one text. -/
def taggedHost : HostRow :=
  { groupOneHost with tags := tagsValue ["db; main"] }

/-- It is exported and imported. -/
theorem tagged_host_imported :
    ∃ cells table' hosts, exportHosts twoGroups.groups ⟨1, true, [], fun _ => true⟩
        ⟨[taggedHost], List.nodup_singleton _, List.nodup_singleton _⟩ = .ok cells ∧
      importHosts twoGroups groupOneUser noHosts ⟨dictRows cells, none⟩ = .ok (table', 1, []) ∧
      hosts.Perm [taggedHost] ∧ List.Forall₂ SameHost hosts table'.rows := by
  have hgroups : NamedGroups twoGroups.groups := ⟨by decide, by decide, by decide⟩
  have hportable : Portable twoGroups taggedHost :=
    ⟨by decide, by decide, by decide, by decide, by decide, by decide, .inr ⟨_, rfl⟩, by decide⟩
  exact export_imports id id (fun _ => rfl) hgroups rfl rfl groupOneUser
    ⟨[taggedHost], List.nodup_singleton _, List.nodup_singleton _⟩ (Nat.le_of_ble_eq_true rfl)
    fun h hh => List.mem_singleton.mp hh ▸ hportable

end RoundTrip

end LarkPlat
