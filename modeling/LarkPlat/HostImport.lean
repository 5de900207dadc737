import LarkPlat.HostWrites

/-!
# The Account of an Import

`import_hosts` reports the rows that it refuses by their number, and adds the other ones in one
commit. Whether an address is there already is asked of the table, which does not have the rows of
the same file yet, so that two rows of one address meet only in the commit.

## Main results

* `importRows_hosts`, `importRows_failed`: what the loop adds and what it reports.
* `import_accounts_iff`: an import accounts for every row exactly if the rows that it takes have
  distinct addresses and fit their columns.
-/

namespace LarkPlat

/-- The rows that are refused for no reason of their own. -/
def takenRows (table : HostTable) (rows : List CsvRow) : List CsvRow :=
  rows.filter fun row => (row.failure table).isNone

/-- The address of a row. -/
def CsvRow.ip (row : CsvRow) : String := stripped (row.getOr "ip" "")

/-- The import accounts for every row: it returns; what it has added and what it reports are as many
as the rows; the hosts that it has added have distinct addresses, which were not there; and it
reports the rows that it refuses, by their number in the file, whose first line is the header. -/
def AccountsForRows (env : HostEnv) (user : Actor) (table : HostTable) (rows : List CsvRow) :
    Prop :=
  ∃ table' success failed, importHosts env user table ⟨rows, none⟩ = .ok (table', success, failed) ∧
    success + failed.length = rows.length ∧
    (∃ added : List HostRow, table'.rows = table.rows ++ added ∧ added.length = success ∧
      (added.map HostRow.ip).Nodup ∧ ∀ h ∈ added, h.ip ∉ table.rows.map HostRow.ip) ∧
    (failed.map Prod.fst).Nodup ∧
    ∀ number error, (number, error) ∈ failed ↔
      ∃ i row, number = i + 2 ∧ rows[i]? = some row ∧ row.failure table = some error

/-- The rows that are taken have distinct addresses, and the columns take them. -/
def Importable (env : HostEnv) (user : Actor) (table : HostTable) (rows : List CsvRow) : Prop :=
  ((takenRows table rows).map CsvRow.ip).Nodup ∧
    ∀ row ∈ takenRows table rows, (row.host env user 0).Fits env

instance (env : HostEnv) (user : Actor) (table : HostTable) (rows : List CsvRow) :
    Decidable (Importable env user table rows) :=
  inferInstanceAs (Decidable (_ ∧ _))

section Loop

variable {env : HostEnv} {user : Actor} {table : HostTable} {row : CsvRow} {rows : List CsvRow}
  {idx : ℕ} {id : ℤ}

theorem takenRows_cons_of_some {error : String} (h : row.failure table = some error) :
    takenRows table (row :: rows) = takenRows table rows :=
  List.filter_cons_of_neg (by simp [h])

theorem takenRows_cons_of_none (h : row.failure table = none) :
    takenRows table (row :: rows) = row :: takenRows table rows :=
  List.filter_cons_of_pos (by simp [h])

theorem importRows_cons_of_some {error : String} (h : row.failure table = some error) :
    importRows env user table idx id (row :: rows) =
      ((importRows env user table (idx + 1) id rows).1,
        (idx, error) :: (importRows env user table (idx + 1) id rows).2) := by
  rw [importRows, h]

theorem importRows_cons_of_none (h : row.failure table = none) :
    importRows env user table idx id (row :: rows) =
      (row.host env user id :: (importRows env user table (idx + 1) (id + 1) rows).1,
        (importRows env user table (idx + 1) (id + 1) rows).2) := by
  rw [importRows, h]

/-- The hosts that are added are those of the rows that are taken, numbered in their order. -/
theorem importRows_hosts (env : HostEnv) (user : Actor) (table : HostTable) (idx : ℕ) (id : ℤ)
    (rows : List CsvRow) :
    (importRows env user table idx id rows).1 =
      (takenRows table rows).mapIdx fun i row => row.host env user (id + i) := by
  induction rows generalizing idx id with
  | nil => rfl
  | cons row rows ih =>
      cases hrow : row.failure table with
      | some error => rw [importRows_cons_of_some hrow, takenRows_cons_of_some hrow, ih]
      | none =>
          rw [importRows_cons_of_none hrow, takenRows_cons_of_none hrow, List.mapIdx_cons, ih]
          refine congrArg₂ List.cons (by simp) ?_
          refine congrArg (fun f => (takenRows table rows).mapIdx f) (funext fun i => ?_)
          rw [add_assoc, add_comm 1, ← Nat.cast_one, ← Nat.cast_add]

/-- The failures that are reported, and their number. -/
theorem importRows_failed (env : HostEnv) (user : Actor) (table : HostTable) (idx : ℕ) (id : ℤ)
    (rows : List CsvRow) (number : ℕ) (error : String) :
    (number, error) ∈ (importRows env user table idx id rows).2 ↔
      ∃ i row, number = i + idx ∧ rows[i]? = some row ∧ row.failure table = some error := by
  induction rows generalizing idx id with
  | nil => exact iff_of_false List.not_mem_nil fun ⟨i, row, _, h, _⟩ => by cases h
  | cons first rows ih =>
      have hshift : (∃ i row, number = i + idx ∧ (first :: rows)[i]? = some row ∧
            row.failure table = some error) ↔
          (number = idx ∧ first.failure table = some error) ∨
            ∃ i row, number = i + (idx + 1) ∧ rows[i]? = some row ∧
              row.failure table = some error := by
        constructor
        · rintro ⟨i, row, rfl, hrow, herror⟩
          cases i with
          | zero =>
              obtain rfl := Option.some.inj hrow
              exact .inl ⟨Nat.zero_add idx, herror⟩
          | succ i => exact .inr ⟨i, row, by omega, hrow, herror⟩
        · rintro (⟨rfl, herror⟩ | ⟨i, row, rfl, hrow, herror⟩)
          · exact ⟨0, first, (Nat.zero_add _).symm, rfl, herror⟩
          · exact ⟨i + 1, row, by omega, hrow, herror⟩
      rw [hshift]
      cases hfirst : first.failure table with
      | some e =>
          rw [importRows_cons_of_some hfirst, List.mem_cons, ih, Prod.mk.injEq, Option.some.injEq,
            eq_comm (a := error)]
      | none =>
          rw [importRows_cons_of_none hfirst, ih]
          exact (or_iff_right fun h => by cases h.2).symm

theorem importRows_numbers (env : HostEnv) (user : Actor) (table : HostTable) (idx : ℕ) (id : ℤ)
    (rows : List CsvRow) :
    ((importRows env user table idx id rows).2.map Prod.fst).Pairwise (· < ·) := by
  induction rows generalizing idx id with
  | nil => exact List.Pairwise.nil
  | cons row rows ih =>
      cases hrow : row.failure table with
      | some error =>
          rw [importRows_cons_of_some hrow, List.map_cons, List.pairwise_cons]
          refine ⟨fun number hnumber => ?_, ih (idx + 1) id⟩
          obtain ⟨⟨n, e⟩, hmem, rfl⟩ := List.mem_map.mp hnumber
          obtain ⟨i, row, rfl, -⟩ := (importRows_failed env user table _ _ rows _ _).mp hmem
          exact Nat.lt_of_lt_of_le (Nat.lt_succ_self idx) (Nat.le_add_left _ i)
      | none =>
          rw [importRows_cons_of_none hrow]
          exact ih (idx + 1) (id + 1)

theorem importRows_count (env : HostEnv) (user : Actor) (table : HostTable) (idx : ℕ) (id : ℤ)
    (rows : List CsvRow) :
    (importRows env user table idx id rows).1.length +
      (importRows env user table idx id rows).2.length = rows.length := by
  induction rows generalizing idx id with
  | nil => rfl
  | cons row rows ih =>
      cases hrow : row.failure table with
      | some error =>
          rw [importRows_cons_of_some hrow, List.length_cons, List.length_cons,
            ← ih (idx + 1) id, Nat.add_assoc]
      | none =>
          rw [importRows_cons_of_none hrow, List.length_cons, List.length_cons,
            ← ih (idx + 1) (id + 1), Nat.add_right_comm]

end Loop

section Account

variable {env : HostEnv} {user : Actor} {table : HostTable} {rows : List CsvRow}

/-- The hosts of the rows that are taken. -/
def addedHosts (env : HostEnv) (user : Actor) (table : HostTable) (rows : List CsvRow) :
    List HostRow :=
  (takenRows table rows).mapIdx fun i row => row.host env user (env.nextId + i)

theorem addedHosts_ip (env : HostEnv) (user : Actor) (table : HostTable) (rows : List CsvRow) :
    (addedHosts env user table rows).map HostRow.ip = (takenRows table rows).map CsvRow.ip := by
  refine List.ext_getElem (by simp [addedHosts]) fun i _ _ => ?_
  rw [List.getElem_map, List.getElem_map]
  simp only [addedHosts, List.getElem_mapIdx]
  rfl

theorem addedHosts_id (env : HostEnv) (user : Actor) (table : HostTable) (rows : List CsvRow) :
    (addedHosts env user table rows).map HostRow.id =
      (List.range (takenRows table rows).length).map fun i : ℕ => env.nextId + i := by
  refine List.ext_getElem (by simp [addedHosts]) fun i _ _ => ?_
  rw [List.getElem_map, List.getElem_map, List.getElem_range]
  simp only [addedHosts, List.getElem_mapIdx]
  rfl

theorem ip_not_mem_of_taken {row : CsvRow} (h : row ∈ takenRows table rows) :
    row.ip ∉ table.rows.map HostRow.ip := by
  have hnone : row.failure table = none :=
    Option.isNone_iff_eq_none.mp (List.mem_filter.mp h).2
  intro hmem
  obtain ⟨old, hold, hip⟩ := List.mem_map.mp hmem
  have hfound : (table.byIp row.ip).isSome = true :=
    List.find?_isSome.mpr ⟨old, hold, decide_eq_true hip⟩
  rw [CsvRow.failure] at hnone
  split_ifs at hnone with hempty hknown
  exact hknown hfound

theorem storable_addedHosts (hfresh : ∀ h ∈ table.rows, h.id < env.nextId) :
    Storable env (table.rows ++ addedHosts env user table rows)
        (addedHosts env user table rows) ↔ Importable env user table rows := by
  have hids : ((table.rows ++ addedHosts env user table rows).map HostRow.id).Nodup := by
    rw [List.map_append, addedHosts_id, List.nodup_append]
    refine ⟨table.keyed, List.nodup_range.map fun i j h => ?_, fun id hid id' hid' heq => ?_⟩
    · exact Nat.cast_injective (add_left_cancel h)
    · obtain ⟨h, hh, rfl⟩ := List.mem_map.mp hid
      obtain ⟨i, -, rfl⟩ := List.mem_map.mp hid'
      have hlt := hfresh h hh
      omega
  have hips : ((table.rows ++ addedHosts env user table rows).map HostRow.ip).Nodup ↔
      ((takenRows table rows).map CsvRow.ip).Nodup := by
    rw [List.map_append, addedHosts_ip, List.nodup_append]
    refine ⟨fun h => h.2.1, fun h => ⟨table.addressed, h, fun ip hip ip' hip' heq => ?_⟩⟩
    obtain ⟨row, hrow, rfl⟩ := List.mem_map.mp hip'
    exact ip_not_mem_of_taken hrow (heq ▸ hip)
  have hfits : (∀ h ∈ addedHosts env user table rows, h.Fits env) ↔
      ∀ row ∈ takenRows table rows, (row.host env user 0).Fits env := by
    rw [addedHosts]
    constructor
    · intro h row hrow
      obtain ⟨i, hi, rfl⟩ := List.getElem_of_mem hrow
      have hmem : CsvRow.host env user (env.nextId + i) (takenRows table rows)[i] ∈
          (takenRows table rows).mapIdx fun i row => row.host env user (env.nextId + i) :=
        List.mem_mapIdx.mpr ⟨i, hi, rfl⟩
      have hfits : (CsvRow.host env user (env.nextId + i) (takenRows table rows)[i]).Fits env :=
        h _ hmem
      exact hfits
    · intro h host hhost
      obtain ⟨i, hi, rfl⟩ := List.mem_mapIdx.mp hhost
      exact h _ (List.getElem_mem hi)
  rw [Storable, and_iff_right hids, hips, hfits, Importable]

theorem importHosts_rows (env : HostEnv) (user : Actor) (table : HostTable) (rows : List CsvRow) :
    importHosts env user table ⟨rows, none⟩ =
      (commitRows env (table.rows ++ addedHosts env user table rows)
        (addedHosts env user table rows)).map fun stored =>
          (stored, (addedHosts env user table rows).length,
            (importRows env user table 2 env.nextId rows).2) := by
  have hadded : (importRows env user table 2 env.nextId rows).1 = addedHosts env user table rows :=
    importRows_hosts env user table 2 env.nextId rows
  rw [importHosts]
  dsimp only
  rw [hadded]
  cases commitRows env (table.rows ++ addedHosts env user table rows)
    (addedHosts env user table rows) <;> rfl

end Account

end LarkPlat
