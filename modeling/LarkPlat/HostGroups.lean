import LarkPlat.Machine
import LarkPlat.ParentTrees
import LarkPlat.Terminals

/-!
# The Tree of Host Groups

`asset_service.py`: `create_group`, `update_group`, `delete_group` and `group_tree`. A group names
its parent, and `0` is no parent. A group is created under a parent that exists, and an update sets
any number as the parent except that of the group. The tree shows a caller who is no administrator
the groups of the caller's roles, under the nearest that they name.

A payload has passed its schema. The numbers come from a sequence, and an insert that is rolled back
draws one, too.

## Main results

* `groupTree_complete_iff`: every caller is shown every visible group once exactly if the parents of
  each group lead to a root.
* `groups_shown_iff`: along any calls the tree is complete exactly if no call that is stored writes
  a parent that leads back to the group.
-/

namespace LarkPlat

open Machine Forest

/-! ### The calls -/

/-- The columns of `asset_group`. -/
structure GroupRow where
  id : ℤ
  parentId : ℤ
  name : String
  sort : ℤ
  remark : String
  deriving DecidableEq

/-- `GroupCreate`. -/
structure GroupCreate where
  parentId : Option ℤ
  name : String
  sort : ℤ
  remark : String

/-- `GroupUpdate`: a field that is absent is not written. -/
structure GroupUpdate where
  name : Option String
  parentId : Option ℤ
  sort : Option ℤ
  remark : Option String

/-- The groups, with the next number of the sequence. -/
structure GroupDb where
  groups : List GroupRow
  nextGroup : ℤ
  deriving DecidableEq

/-- The columns take the row. -/
def GroupRow.Fits (g : GroupRow) : Prop :=
  g.name.length ≤ 64 ∧ g.remark.length ≤ 256 ∧ -2 ^ 31 ≤ g.sort ∧ g.sort < 2 ^ 31 ∧
    -2 ^ 63 ≤ g.parentId ∧ g.parentId < 2 ^ 63

instance GroupRow.fitsDecidable (g : GroupRow) : Decidable g.Fits :=
  inferInstanceAs (Decidable (_ ∧ _ ∧ _ ∧ _ ∧ _ ∧ _))

namespace GroupDb

/-- `repo.get`. -/
def get (db : GroupDb) (id : ℤ) : Option GroupRow :=
  Table.find GroupRow.id db.groups id

/-- `create_group`, after inserts that were rolled back have drawn some numbers. -/
def createGroup (db : GroupDb) (drawn : ℕ) (data : GroupCreate) : Except PyErr (GroupDb × ℤ) :=
  let parentId := data.parentId.getD 0
  let group : GroupRow := ⟨db.nextGroup + drawn, parentId, data.name, data.sort, data.remark⟩
  if parentId ≠ 0 ∧ db.get parentId = none then .error (.badRequest "parent group not found")
  else if group.Fits then .ok (⟨db.groups ++ [group], group.id + 1⟩, group.id)
  else .error .integrityError

/-- The row that `update_group` writes. -/
def updated (data : GroupUpdate) (g : GroupRow) : GroupRow :=
  ⟨g.id, data.parentId.getD g.parentId, data.name.getD g.name, data.sort.getD g.sort,
    data.remark.getD g.remark⟩

/-- `update_group`. -/
def updateGroup (db : GroupDb) (groupId : ℤ) (data : GroupUpdate) : Except PyErr GroupDb :=
  match db.get groupId with
  | none => .error (.notFound "group not found")
  | some g =>
      if data.parentId = some groupId then .error (.badRequest "cannot set self as parent")
      else if (updated data g).Fits then
        .ok { db with groups := Table.modify GroupRow.id db.groups groupId (updated data) }
      else .error .integrityError

/-- `children_count`. -/
def childrenCount (db : GroupDb) (groupId : ℤ) : ℕ :=
  db.groups.countP fun g => decide (g.parentId = groupId)

/-- `delete_group`, where `hosts` counts the hosts of the group. -/
def deleteGroup (db : GroupDb) (hosts : ℕ) (groupId : ℤ) : Except PyErr GroupDb :=
  if db.get groupId = none then .error (.notFound "group not found")
  else if 0 < db.childrenCount groupId then
    .error (.conflict "group has children, delete them first")
  else if 0 < hosts then .error (.conflict "group has hosts, move them first")
  else .ok { db with groups := db.groups.filter fun g => decide (g.id ≠ groupId) }

/-- `all_tree`: the rows in the order of the statement. -/
def allTree (db : GroupDb) : List GroupRow :=
  db.groups.mergeSort fun a b => decide (a.sort < b.sort ∨ (a.sort = b.sort ∧ a.id ≤ b.id))

/-- The caller sees the group. No caller is given where the tree is needed in full. -/
def shownTo (user : Option Actor) (g : GroupRow) : Bool :=
  match user with
  | none => true
  | some user => user.isAdmin || decide (g.id ∈ user.visibleGroupIds.map Nat.cast)

/-- The parent that a row names. -/
def named (g : GroupRow) : Option ℤ := if g.parentId = 0 then none else some g.parentId

/-- `group_tree`. -/
def groupTree (db : GroupDb) (user : Option Actor) : List (Node GroupRow) :=
  tree GroupRow.id named (db.allTree.filter (shownTo user))

/-- A call, of which any may raise. -/
inductive GroupOp
  | create (drawn : ℕ) (data : GroupCreate)
  | update (groupId : ℤ) (data : GroupUpdate)
  | delete (hosts : ℕ) (groupId : ℤ)

/-- One call. A call that raises is rolled back. -/
def apply (db : GroupDb) : GroupOp → GroupDb
  | .create drawn data =>
      match db.createGroup drawn data with
      | .ok (db', _) => db'
      | .error _ => db
  | .update groupId data =>
      match db.updateGroup groupId data with
      | .ok db' => db'
      | .error _ => db
  | .delete hosts groupId =>
      match db.deleteGroup hosts groupId with
      | .ok db' => db'
      | .error _ => db

/-! ### The tree -/

/-- The keys of the rows. -/
structure Keyed (db : GroupDb) : Prop where
  distinct : (db.groups.map GroupRow.id).Nodup
  below : ∀ g ∈ db.groups, g.id < db.nextGroup

/-- The caller is shown every visible group once, and nothing else, and the tree has no end before
that of its rows. -/
structure Complete (db : GroupDb) (user : Option Actor) : Prop where
  finite : ∀ fuel, db.groups.length ≤ fuel →
    let rows := db.allTree.filter (shownTo user)
    (rootsIn GroupRow.id named rows).map
      (unfold GroupRow.id (childrenIn GroupRow.id named rows) fuel) = db.groupTree user
  once : (rowsOf (db.groupTree user)).Nodup
  all : ∀ g, g ∈ rowsOf (db.groupTree user) ↔ g ∈ db.groups ∧ shownTo user g = true

/-- The parents of each group lead to a root. -/
def Grounded (db : GroupDb) : Prop :=
  ∀ g ∈ db.groups, ∃ n, Level (parentIn GroupRow.id named db.groups) g.id n

variable {db db' : GroupDb} {user : Option Actor}

theorem mem_shown {g : GroupRow} :
    g ∈ db.allTree.filter (shownTo user) ↔ g ∈ db.groups ∧ shownTo user g = true := by
  rw [List.mem_filter, allTree, (List.mergeSort_perm _ _).mem_iff]

theorem Keyed.shown (h : db.Keyed) (user : Option Actor) :
    ((db.allTree.filter (shownTo user)).map GroupRow.id).Nodup := by
  have hsub : (db.allTree.filter (shownTo user)).Sublist db.allTree := List.filter_sublist
  refine List.Nodup.sublist (hsub.map GroupRow.id) ?_
  exact ((List.mergeSort_perm _ _).map _).nodup_iff.mpr h.distinct

/-- **The tree is complete** for every caller exactly if parents lead to roots. -/
theorem groupTree_complete_iff (h : db.Keyed) : (∀ user, db.Complete user) ↔ db.Grounded := by
  constructor
  · intro hall g hg
    obtain ⟨-, n, hlevel⟩ := (mem_tree_iff (h.shown none)).mp (((hall none).all g).mpr ⟨hg, rfl⟩)
    exact hlevel.of_subset (h.shown none) h.distinct (fun r hr => mem_shown.mpr ⟨hr, rfl⟩) hg
  · intro hgrounded user
    have hlength : (db.allTree.filter (shownTo user)).length ≤ db.groups.length := by
      rw [← (List.mergeSort_perm db.groups _).length_eq]
      exact List.length_filter_le _ _
    refine ⟨fun fuel hfuel => tree_eq_of_le (h.shown user) (hlength.trans hfuel),
      nodup_tree (h.shown user), fun g => ?_⟩
    rw [groupTree, mem_tree_iff (h.shown user), mem_shown]
    refine and_iff_left_of_imp fun ⟨hg, hshown⟩ => ?_
    obtain ⟨n, hlevel⟩ := hgrounded g hg
    exact hlevel.of_subset h.distinct (h.shown user) (fun r hr => (mem_shown.mp hr).1)
      (mem_shown.mpr ⟨hg, hshown⟩)

/-! ### Calls -/

theorem createGroup_ok {drawn : ℕ} {data : GroupCreate} {id : ℤ}
    (h : db.createGroup drawn data = .ok (db', id)) :
    ∃ g : GroupRow, g.id = db.nextGroup + drawn ∧ g.parentId = data.parentId.getD 0 ∧
      db' = ⟨db.groups ++ [g], g.id + 1⟩ := by
  unfold createGroup at h
  dsimp only at h
  split_ifs at h
  exact ⟨_, rfl, rfl, (Prod.mk.inj (Except.ok.inj h)).1.symm⟩

theorem updateGroup_ok {groupId : ℤ} {data : GroupUpdate}
    (h : db.updateGroup groupId data = .ok db') :
    ∃ g, db.get groupId = some g ∧
      db' = { db with groups := Table.modify GroupRow.id db.groups groupId (updated data) } := by
  unfold updateGroup at h
  cases hget : db.get groupId with
  | none =>
      rw [hget] at h
      cases h
  | some g =>
      rw [hget] at h
      dsimp only at h
      split_ifs at h
      exact ⟨g, rfl, (Except.ok.inj h).symm⟩

theorem deleteGroup_ok {hosts : ℕ} {groupId : ℤ} (h : db.deleteGroup hosts groupId = .ok db') :
    hosts = 0 ∧
      db' = { db with groups := db.groups.filter fun g => decide (g.id ≠ groupId) } := by
  unfold deleteGroup at h
  split_ifs at h with _ _ hhosts
  exact ⟨Nat.eq_zero_of_not_pos hhosts, (Except.ok.inj h).symm⟩

theorem Keyed.create {g : GroupRow} {drawn : ℕ} (h : db.Keyed) (hid : g.id = db.nextGroup + drawn) :
    g.id ∉ db.groups.map GroupRow.id ∧ Keyed ⟨db.groups ++ [g], g.id + 1⟩ := by
  have hbelow : ∀ x ∈ db.groups, x.id < g.id := by
    intro x hx
    have hlt := h.below x hx
    omega
  have hnew : g.id ∉ db.groups.map GroupRow.id := Table.new_of_below hbelow
  exact ⟨hnew, Table.nodup_concat h.distinct hnew,
    Table.below_concat hbelow rfl (Int.lt_succ_self _)⟩

theorem Keyed.update (h : db.Keyed) (groupId : ℤ) (data : GroupUpdate) :
    Keyed { db with groups := Table.modify GroupRow.id db.groups groupId (updated data) } := by
  refine ⟨?_, fun g hg => ?_⟩
  · have hkeys : (Table.modify GroupRow.id db.groups groupId (updated data)).map GroupRow.id =
        db.groups.map GroupRow.id := Table.map_key_modify fun _ hr => hr
    exact hkeys ▸ h.distinct
  · rcases Table.mem_modify.mp hg with ⟨r, hr, -, rfl⟩ | ⟨hg, -⟩
    · exact h.below r hr
    · exact h.below g hg

theorem Keyed.delete (h : db.Keyed) (groupId : ℤ) :
    Keyed { db with groups := db.groups.filter fun g => decide (g.id ≠ groupId) } :=
  ⟨h.distinct.sublist (List.filter_sublist.map _), fun g hg =>
    h.below g (List.mem_of_mem_filter hg)⟩

theorem Keyed.apply (h : db.Keyed) (op : GroupOp) : (db.apply op).Keyed := by
  cases op with
  | create drawn data =>
      rw [GroupDb.apply]
      split
      next db' id hok =>
        obtain ⟨g, hid, -, rfl⟩ := createGroup_ok hok
        exact (h.create hid).2
      · exact h
  | update groupId data =>
      rw [GroupDb.apply]
      split
      next db' hok =>
        obtain ⟨-, -, rfl⟩ := updateGroup_ok hok
        exact h.update groupId data
      · exact h
  | delete hosts groupId =>
      rw [GroupDb.apply]
      split
      next db' hok =>
        obtain ⟨-, rfl⟩ := deleteGroup_ok hok
        exact h.delete groupId
      · exact h

/-! ### Loops -/

/-- The parent that a stored call writes does not lead back to the group of the call. -/
def NoLoop (db : GroupDb) : GroupOp → Prop
  | .create drawn data =>
      (∃ res, db.createGroup drawn data = .ok res) → ∀ p, data.parentId = some p → p ≠ 0 →
        ¬ Leads GroupRow.id named db.groups (db.nextGroup + drawn) p
  | .update groupId data =>
      (∃ db', db.updateGroup groupId data = .ok db') → ∀ p, data.parentId = some p → p ≠ 0 →
        ¬ Leads GroupRow.id named db.groups groupId p
  | .delete _ _ => True

theorem named_eq_some_iff {g : GroupRow} {p : ℤ} : named g = some p ↔ g.parentId = p ∧ p ≠ 0 := by
  unfold named
  split_ifs with hzero
  · simp only [false_iff, not_and, not_not]
    rintro rfl
    exact hzero
  · rw [Option.some_inj]
    exact ⟨fun h => ⟨h, h ▸ hzero⟩, And.left⟩

theorem grounded_create (h : db.Keyed) (hg : db.Grounded) {drawn : ℕ} {data : GroupCreate} {id : ℤ}
    (hok : db.createGroup drawn data = .ok (db', id)) :
    db'.Grounded ↔ db.NoLoop (.create drawn data) := by
  obtain ⟨g, hid, hparent, rfl⟩ := createGroup_ok hok
  obtain ⟨hnew, hkeyed⟩ := h.create hid
  have hwrite := levels_write_iff h.distinct hkeyed.distinct
    (fun j hj => Table.find_concat_ne hj)
    (Table.find_concat_self (Table.find_eq_none_iff.mpr hnew)) hg
  rw [Grounded, hwrite, NoLoop, hid]
  constructor
  · intro hall _ p hp hne
    exact hall p (named_eq_some_iff.mpr ⟨by rw [hparent, hp]; rfl, hne⟩)
  · intro hall p hp
    obtain ⟨hp, hne⟩ := named_eq_some_iff.mp hp
    rw [hparent] at hp
    cases hnamed : data.parentId with
    | none =>
        rw [hnamed] at hp
        exact absurd hp.symm hne
    | some q =>
        rw [hnamed] at hp
        exact hall ⟨_, hok⟩ p (hnamed.trans (congrArg some hp)) hne

theorem grounded_update (h : db.Keyed) (hg : db.Grounded) {groupId : ℤ} {data : GroupUpdate}
    (hok : db.updateGroup groupId data = .ok db') :
    db'.Grounded ↔ db.NoLoop (.update groupId data) := by
  obtain ⟨g, hget, rfl⟩ := updateGroup_ok hok
  have hkey : ∀ r : GroupRow, r.id = groupId → (updated data r).id = groupId := fun _ hr => hr
  have hwritten : Table.find GroupRow.id
      (Table.modify GroupRow.id db.groups groupId (updated data)) groupId =
        some (updated data g) :=
    (Table.find_modify_self hkey).trans (congrArg _ hget)
  have hwrite := levels_write_iff h.distinct (h.update groupId data).distinct
    (fun j hj => Table.find_modify_ne hkey hj) hwritten hg
  rw [Grounded, hwrite, NoLoop]
  constructor
  · intro hall _ p hp hne
    exact hall p (named_eq_some_iff.mpr ⟨by rw [updated, hp]; rfl, hne⟩)
  · intro hall p hp
    obtain ⟨hp, hne⟩ := named_eq_some_iff.mp hp
    cases hnamed : data.parentId with
    | none =>
        -- The parent is the one that the row had.
        rw [updated, hnamed] at hp
        have hsame := levels_write_iff h.distinct h.distinct (fun _ _ => rfl) hget hg
        exact hsame.mp hg p (named_eq_some_iff.mpr ⟨hp, hne⟩)
    | some q =>
        rw [updated, hnamed] at hp
        exact hall ⟨_, hok⟩ p (hnamed.trans (congrArg some hp)) hne

theorem grounded_delete (h : db.Keyed) (hg : db.Grounded) {hosts : ℕ} {groupId : ℤ}
    (hok : db.deleteGroup hosts groupId = .ok db') : db'.Grounded := by
  obtain ⟨-, rfl⟩ := deleteGroup_ok hok
  intro g hmem
  obtain ⟨n, hlevel⟩ := hg g (List.mem_of_mem_filter hmem)
  exact hlevel.of_subset h.distinct (h.delete groupId).distinct
    (fun r hr => List.mem_of_mem_filter hr) hmem

/-- **One call** leaves the groups grounded exactly if it writes no loop. -/
theorem grounded_apply_iff (h : db.Keyed) (hg : db.Grounded) (op : GroupOp) :
    (db.apply op).Grounded ↔ db.NoLoop op := by
  cases op with
  | create drawn data =>
      rw [GroupDb.apply]
      split
      next db' id hok => exact grounded_create h hg hok
      next e herror =>
        refine iff_of_true hg fun ⟨res, hok⟩ => ?_
        rw [herror] at hok
        cases hok
  | update groupId data =>
      rw [GroupDb.apply]
      split
      next db' hok => exact grounded_update h hg hok
      next e herror =>
        refine iff_of_true hg fun ⟨res, hok⟩ => ?_
        rw [herror] at hok
        cases hok
  | delete hosts groupId =>
      refine iff_of_true ?_ trivial
      rw [GroupDb.apply]
      split
      next db' hok => exact grounded_delete h hg hok
      · exact hg

theorem keyed_empty : Keyed ⟨[], 1⟩ :=
  ⟨List.nodup_nil, fun _ h => absurd h List.not_mem_nil⟩

/-- **The tree of groups.** Along any calls, every caller is shown every visible group once in every
state exactly if no call that is stored writes a parent that leads back to the group. -/
theorem groups_shown_iff (ops : List GroupOp) :
    (∀ pre, pre <+: ops → ∀ user, (run apply ⟨[], 1⟩ pre).Complete user) ↔
      Meets apply NoLoop ⟨[], 1⟩ ops := by
  refine always_iff_meets (P := Keyed) (Q := fun db => ∀ user, db.Complete user)
    (fun _ op h => h.apply op) (fun db op h hall => ?_) keyed_empty ?_ ops
  · rw [groupTree_complete_iff (h.apply op)]
    exact grounded_apply_iff h ((groupTree_complete_iff h).mp hall) op
  · exact (groupTree_complete_iff keyed_empty).mpr fun _ hg => absurd hg List.not_mem_nil

/-- Two groups, of which the upper one is moved below the other one. -/
def swapped : List GroupOp :=
  [.create 0 ⟨none, "dc", 0, ""⟩, .create 0 ⟨some 1, "rack", 0, ""⟩,
    .update 1 ⟨none, some 2, none, none⟩]

/-- The two are above each other, and neither has a root. -/
theorem swapped_not_shown :
    ¬ ∀ pre, pre <+: swapped → ∀ user, (run apply ⟨[], 1⟩ pre).Complete user := by
  intro h
  have hkeyed := run_invariant (P := Keyed) (fun _ op h => h.apply op) keyed_empty swapped
  have hgrounded := (groupTree_complete_iff hkeyed).mp (h swapped List.prefix_rfl)
  obtain ⟨n, hlevel⟩ := hgrounded ⟨1, 2, "dc", 0, ""⟩ (by decide)
  obtain ⟨m, rfl, hm⟩ := hlevel.of_child (j := 2) (by decide)
  obtain ⟨k, rfl, hk⟩ := hm.of_child (j := 1) (by decide)
  have hsame := hk.unique hlevel
  omega

end GroupDb

end LarkPlat
