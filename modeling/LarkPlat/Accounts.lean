import Mathlib.Data.List.Dedup
import LarkPlat.Json
import LarkPlat.Table

/-!
# Accounts, Roles and Permissions

The tables of users, roles and permissions, and the calls of `system_service.py` that write them.
A call checks its data, writes its rows in one transaction and commits; a call that raises leaves
the tables as they were. Users are never removed: `delete_user` marks them. The rows of
`sys_user_role`, `sys_role_permission` and `role_host_group` are pairs, unique and with foreign keys
at both ends; a role that is deleted takes its pairs with it.

`bcrypt` is a parameter: the salt of the `n`-th password that is hashed is known by its number.

## Main results

* `sound_apply`: ids, user names and role codes stay unique, every pair refers to rows that exist,
  and users keep their ids and names.
-/

namespace LarkPlat

/-! ### Rows -/

/-- `sys_user`. -/
structure SysUser where
  id : ℕ
  username : String
  passwordHash : String
  realName : String
  phone : String
  email : String
  status : ℤ
  lastLoginAt : Option ℚ
  isAdmin : ℤ
  authSource : String
  externalId : Option String
  lastExternalLoginAt : Option ℚ
  deleted : ℤ
  deriving DecidableEq

/-- `sys_role`. -/
structure SysRole where
  id : ℕ
  code : String
  name : String
  remark : String
  deriving DecidableEq

/-- `sys_permission`. -/
structure SysPermission where
  id : ℕ
  parentId : ℕ
  code : String
  name : String
  type : String
  path : String
  icon : String
  sort : ℕ
  deriving DecidableEq

/-- `sys_user_role`: a user with one of its roles. -/
structure UserRole where
  userId : ℕ
  roleId : ℕ
  deriving DecidableEq

/-- `sys_role_permission`. -/
structure RolePermission where
  roleId : ℕ
  permissionId : ℕ
  deriving DecidableEq

/-- `role_host_group`. -/
structure RoleHostGroup where
  roleId : ℕ
  groupId : ℕ
  deriving DecidableEq

/-- The tables, with the next values of their sequences and the number of the next salt. `groups`
are the ids of the host groups. -/
structure AccountDb where
  users : List SysUser
  roles : List SysRole
  permissions : List SysPermission
  userRoles : List UserRole
  rolePermissions : List RolePermission
  roleGroups : List RoleHostGroup
  groups : List ℕ
  nextUser : ℕ
  nextRole : ℕ
  nextPermission : ℕ
  salts : ℕ
  deriving DecidableEq

/-- What the services build on: `hash_password` with the `n`-th salt, `verify_password`, and whether
the columns take a row. -/
structure AccountEnv where
  hashPassword : ℕ → String → String
  verifyPassword : String → String → Bool
  userFits : SysUser → Bool
  roleFits : SysRole → Bool

/-! ### Requests -/

/-- `UserCreate`. -/
structure UserCreate where
  username : String
  password : String
  realName : String
  phone : String
  email : String
  roleIds : List ℕ
  status : ℤ

/-- `UserUpdate`. -/
structure UserUpdate where
  realName : Option String
  phone : Option String
  email : Option String
  status : Option ℤ

/-- `RoleCreate`. -/
structure RoleCreate where
  code : String
  name : String
  remark : String

/-- `RoleUpdate`. -/
structure RoleUpdate where
  name : Option String
  remark : Option String

namespace AccountDb

variable (env : AccountEnv) (db : AccountDb)

/-! ### Repositories -/

/-- `UserRepository.get`. -/
def getUser (userId : ℕ) : Option SysUser := Table.find SysUser.id db.users userId

/-- `UserRepository.by_username`. -/
def byUsername (username : String) : Option SysUser :=
  Table.find SysUser.username db.users username

/-- `UserRepository.by_email`: the first row that the database finds. -/
def byEmail (email : String) : Option SysUser := Table.find SysUser.email db.users email

/-- `RoleRepository.get`. -/
def getRole (roleId : ℕ) : Option SysRole := Table.find SysRole.id db.roles roleId

/-- `RoleRepository.by_code`. -/
def roleByCode (code : String) : Option SysRole := Table.find SysRole.code db.roles code

/-- `_role_ids`. -/
def roleIds (userId : ℕ) : List ℕ :=
  (db.userRoles.filter fun r => decide (r.userId = userId)).map UserRole.roleId

/-- `PermissionRepository.codes_by_user`: the join of the four tables, each code once. -/
def codesByUser (userId : ℕ) : List String :=
  ((db.permissions.filter fun p => db.rolePermissions.any fun rp =>
      decide (rp.permissionId = p.id) && (db.roles.any fun r => decide (r.id = rp.roleId)) &&
        decide (⟨userId, rp.roleId⟩ ∈ db.userRoles)).map SysPermission.code).dedup

/-- `RoleRepository.visible_group_ids`. -/
def visibleGroupIds (roleIds : List ℕ) : List ℕ :=
  if roleIds = [] then []
  else (db.roleGroups.filter fun r => decide (r.roleId ∈ roleIds)).map RoleHostGroup.groupId

/-- Insert pairs of the user with the roles; a role that does not exist breaks the foreign key. -/
def setUserRoles (userId : ℕ) (roleIds : List ℕ) : Except PyErr AccountDb :=
  if roleIds.all fun rid => db.roles.any fun r => decide (r.id = rid) then
    .ok { db with
      userRoles := (db.userRoles.filter fun r => decide (r.userId ≠ userId)) ++
        roleIds.dedup.map (⟨userId, ·⟩) }
  else .error .integrityError

/-! ### Users -/

/-- Set the roles of a new user, if there are any. -/
def initialRoles (userId : ℕ) (roleIds : List ℕ) : Except PyErr AccountDb :=
  if roleIds = [] then .ok db else db.setUserRoles userId roleIds

/-- `create_user`. -/
def createUser (data : UserCreate) : Except PyErr (ℕ × AccountDb) :=
  if (db.byUsername data.username).isSome then .error (.conflict "username already exists")
  else
    let user : SysUser :=
      ⟨db.nextUser, data.username, env.hashPassword db.salts data.password, data.realName,
        data.phone, data.email, data.status, none, 0, "local", none, none, 0⟩
    if env.userFits user then do
      let added := { db with
        users := db.users ++ [user], nextUser := db.nextUser + 1, salts := db.salts + 1 }
      let db' ← added.initialRoles user.id data.roleIds
      .ok (user.id, db')
    else .error .integrityError

/-- A call that changes the user with the id, and raises if there is none or the columns do not take
the new row. -/
def changeUser (userId : ℕ) (f : SysUser → SysUser) : Except PyErr AccountDb :=
  match db.getUser userId with
  | none => .error (.notFound "user not found")
  | some user =>
      if env.userFits (f user) then
        .ok { db with users := Table.modify SysUser.id db.users userId f }
      else .error .integrityError

/-- `update_user`. -/
def updateUser (userId : ℕ) (data : UserUpdate) : Except PyErr AccountDb :=
  db.changeUser env userId fun user => { user with
    realName := data.realName.getD user.realName
    phone := data.phone.getD user.phone
    email := data.email.getD user.email
    status := data.status.getD user.status }

/-- `delete_user`. -/
def deleteUser (userId operatorId : ℕ) : Except PyErr AccountDb :=
  if userId = operatorId then .error (.badRequest "cannot delete yourself")
  else db.changeUser env userId fun user => { user with deleted := 1 }

/-- `set_user_status`. -/
def setUserStatus (userId : ℕ) (status : ℤ) : Except PyErr AccountDb :=
  db.changeUser env userId fun user => { user with status := status }

/-- `reset_password`. -/
def resetPassword (userId : ℕ) (password : String) : Except PyErr AccountDb := do
  let hashed := env.hashPassword db.salts password
  let db' ← db.changeUser env userId fun user => { user with passwordHash := hashed }
  .ok { db' with salts := db.salts + 1 }

/-- The time of a login is noted. -/
def loggedIn (userId : ℕ) (now : ℚ) : AccountDb :=
  { db with users := Table.modify SysUser.id db.users userId fun u =>
      { u with lastLoginAt := some now } }

/-- `set_user_roles`. -/
def assignRoles (userId : ℕ) (roleIds : List ℕ) : Except PyErr AccountDb :=
  match db.getUser userId with
  | none => .error (.notFound "user not found")
  | some _ => db.setUserRoles userId roleIds

/-! ### Roles -/

/-- `create_role`. -/
def createRole (data : RoleCreate) : Except PyErr (ℕ × AccountDb) :=
  if (db.roleByCode data.code).isSome then .error (.conflict "role code already exists")
  else
    let role : SysRole := ⟨db.nextRole, data.code, data.name, data.remark⟩
    if env.roleFits role then
      .ok (role.id, { db with roles := db.roles ++ [role], nextRole := db.nextRole + 1 })
    else .error .integrityError

/-- `update_role`. -/
def updateRole (roleId : ℕ) (data : RoleUpdate) : Except PyErr AccountDb :=
  match db.getRole roleId with
  | none => .error (.notFound "role not found")
  | some role =>
      let f := fun r : SysRole =>
        { r with name := data.name.getD r.name, remark := data.remark.getD r.remark }
      if env.roleFits (f role) then
        .ok { db with roles := Table.modify SysRole.id db.roles roleId f }
      else .error .integrityError

/-- `delete_role`; the pairs of the role go with it. -/
def deleteRole (roleId : ℕ) : Except PyErr AccountDb :=
  match db.getRole roleId with
  | none => .error (.notFound "role not found")
  | some _ =>
      if db.userRoles.any fun r => decide (r.roleId = roleId) then
        .error (.conflict "role in use by users")
      else .ok { db with
        roles := db.roles.filter fun r => decide (r.id ≠ roleId)
        rolePermissions := db.rolePermissions.filter fun r => decide (r.roleId ≠ roleId)
        roleGroups := db.roleGroups.filter fun r => decide (r.roleId ≠ roleId) }

/-- `set_role_permissions`. -/
def setRolePermissions (roleId : ℕ) (permissionIds : List ℕ) : Except PyErr AccountDb :=
  match db.getRole roleId with
  | none => .error (.notFound "role not found")
  | some _ =>
      if permissionIds.all fun pid => db.permissions.any fun p => decide (p.id = pid) then
        .ok { db with
          rolePermissions := (db.rolePermissions.filter fun r => decide (r.roleId ≠ roleId)) ++
            permissionIds.dedup.map (⟨roleId, ·⟩) }
      else .error .integrityError

/-- `set_role_groups`. -/
def setRoleGroups (roleId : ℕ) (groupIds : List ℕ) : Except PyErr AccountDb :=
  match db.getRole roleId with
  | none => .error (.notFound "role not found")
  | some _ =>
      if groupIds.all fun gid => decide (gid ∈ db.groups) then
        .ok { db with
          roleGroups := (db.roleGroups.filter fun r => decide (r.roleId ≠ roleId)) ++
            groupIds.dedup.map (⟨roleId, ·⟩) }
      else .error .integrityError

/-! ### Histories -/

/-- The calls. -/
inductive Call where
  | createUser (data : UserCreate)
  | updateUser (userId : ℕ) (data : UserUpdate)
  | deleteUser (userId operatorId : ℕ)
  | setUserStatus (userId : ℕ) (status : ℤ)
  | resetPassword (userId : ℕ) (password : String)
  | assignRoles (userId : ℕ) (roleIds : List ℕ)
  | createRole (data : RoleCreate)
  | updateRole (roleId : ℕ) (data : RoleUpdate)
  | deleteRole (roleId : ℕ)
  | setRolePermissions (roleId : ℕ) (permissionIds : List ℕ)
  | setRoleGroups (roleId : ℕ) (groupIds : List ℕ)

/-- What a call returns, or the exception that it raises. -/
def Call.result (env : AccountEnv) (db : AccountDb) : Call → Except PyErr AccountDb
  | .createUser data => (db.createUser env data).map Prod.snd
  | .updateUser userId data => db.updateUser env userId data
  | .deleteUser userId operatorId => db.deleteUser env userId operatorId
  | .setUserStatus userId status => db.setUserStatus env userId status
  | .resetPassword userId password => db.resetPassword env userId password
  | .assignRoles userId roleIds => db.assignRoles userId roleIds
  | .createRole data => (db.createRole env data).map Prod.snd
  | .updateRole roleId data => db.updateRole env roleId data
  | .deleteRole roleId => db.deleteRole roleId
  | .setRolePermissions roleId permissionIds => db.setRolePermissions roleId permissionIds
  | .setRoleGroups roleId groupIds => db.setRoleGroups roleId groupIds

/-- The tables after a call. -/
def apply (env : AccountEnv) (db : AccountDb) (call : Call) : AccountDb :=
  match call.result env db with
  | .ok db' => db'
  | .error _ => db

/-! ### What stays true of the tables -/

section Sound

variable {env : AccountEnv} {db db' : AccountDb} {userId roleId : ℕ} {ids : List ℕ}

/-- The ids and names of the users, in the order of the table. -/
def userKeys (db : AccountDb) : List (ℕ × String) := db.users.map fun u => (u.id, u.username)

/-- Keys are unique, new ids are above those in use, and pairs are unique and refer to rows. -/
structure Sound (env : AccountEnv) (db : AccountDb) : Prop where
  userIds : (db.users.map SysUser.id).Nodup
  usernames : (db.users.map SysUser.username).Nodup
  usersFit : ∀ u ∈ db.users, env.userFits u = true
  usersBelow : ∀ u ∈ db.users, u.id < db.nextUser
  roleKeys : (db.roles.map SysRole.id).Nodup
  roleCodes : (db.roles.map SysRole.code).Nodup
  rolesBelow : ∀ r ∈ db.roles, r.id < db.nextRole
  userRoles : db.userRoles.Nodup
  userRolesRefer : ∀ r ∈ db.userRoles,
    r.userId ∈ db.users.map SysUser.id ∧ r.roleId ∈ db.roles.map SysRole.id
  rolePermissions : db.rolePermissions.Nodup
  rolePermissionsRefer : ∀ r ∈ db.rolePermissions,
    r.roleId ∈ db.roles.map SysRole.id ∧ r.permissionId ∈ db.permissions.map SysPermission.id
  roleGroups : db.roleGroups.Nodup
  roleGroupsRefer : ∀ r ∈ db.roleGroups, r.roleId ∈ db.roles.map SysRole.id ∧ r.groupId ∈ db.groups

theorem nodup_replaced {ρ : Type} {key : ρ → ℕ} {rows new : List ρ} {k : ℕ} (hrows : rows.Nodup)
    (hnew : new.Nodup) (hkey : ∀ r ∈ new, key r = k) :
    ((rows.filter fun r => decide (key r ≠ k)) ++ new).Nodup := by
  refine List.nodup_append'.mpr ⟨hrows.filter _, hnew, ?_⟩
  intro r hr hmem
  exact (of_decide_eq_true (List.mem_filter.mp hr).2) (hkey r hmem)

theorem nodup_map_pair {ρ : Type} {pair : ℕ → ρ} (hpair : Function.Injective pair)
    (ids : List ℕ) : (ids.dedup.map pair).Nodup :=
  (List.nodup_dedup ids).map hpair

theorem Sound.setUserRoles (h : db.Sound env) (huser : userId ∈ db.users.map SysUser.id)
    (hset : db.setUserRoles userId ids = .ok db') : db'.Sound env := by
  rw [AccountDb.setUserRoles] at hset
  split_ifs at hset with hroles
  obtain rfl := Except.ok.inj hset
  refine { h with
    userRoles := nodup_replaced h.userRoles
      (nodup_map_pair (fun _ _ heq => (UserRole.mk.inj heq).2) ids) ?_
    userRolesRefer := ?_ }
  · rintro r hr
    obtain ⟨rid, -, rfl⟩ := List.mem_map.mp hr
    rfl
  · intro r hr
    rcases List.mem_append.mp hr with hr | hr
    · exact h.userRolesRefer r (List.mem_filter.mp hr).1
    · obtain ⟨rid, hrid, rfl⟩ := List.mem_map.mp hr
      obtain ⟨role, hrole, hid⟩ :=
        List.any_eq_true.mp (List.all_eq_true.mp hroles rid (List.mem_dedup.mp hrid))
      exact ⟨huser, List.mem_map.mpr ⟨role, hrole, of_decide_eq_true hid⟩⟩

theorem Sound.addUser (h : db.Sound env) {user : SysUser} (hid : user.id = db.nextUser)
    (hname : db.byUsername user.username = none) (hfits : env.userFits user = true) (salts : ℕ) :
    Sound env { db with
      users := db.users ++ [user], nextUser := db.nextUser + 1, salts := salts } where
  userIds := Table.nodup_concat h.userIds (hid ▸ Table.new_of_below h.usersBelow)
  usernames := Table.nodup_concat h.usernames (Table.find_eq_none_iff.mp hname)
  usersFit u hu := by
    rcases List.mem_append.mp hu with hu | hu
    · exact h.usersFit u hu
    · rw [List.mem_singleton.mp hu]
      exact hfits
  usersBelow := Table.below_concat h.usersBelow hid (Nat.lt_succ_self _)
  roleKeys := h.roleKeys
  roleCodes := h.roleCodes
  rolesBelow := h.rolesBelow
  userRoles := h.userRoles
  userRolesRefer r hr := by
    rw [List.map_append]
    exact ⟨List.mem_append_left _ (h.userRolesRefer r hr).1, (h.userRolesRefer r hr).2⟩
  rolePermissions := h.rolePermissions
  rolePermissionsRefer := h.rolePermissionsRefer
  roleGroups := h.roleGroups
  roleGroupsRefer := h.roleGroupsRefer

theorem Sound.changeUser (h : db.Sound env) {f : SysUser → SysUser}
    (hset : db.changeUser env userId f = .ok db') (hid : ∀ u, (f u).id = u.id)
    (hname : ∀ u, (f u).username = u.username) :
    db'.Sound env ∧ db'.userKeys = db.userKeys := by
  rw [AccountDb.changeUser] at hset
  split at hset
  · cases hset
  next user hfind =>
    split_ifs at hset with hfits
    obtain rfl := Except.ok.inj hset
    have hids : (Table.modify SysUser.id db.users userId f).map SysUser.id =
        db.users.map SysUser.id := Table.map_modify fun u _ => hid u
    have hnames : (Table.modify SysUser.id db.users userId f).map SysUser.username =
        db.users.map SysUser.username := Table.map_modify fun u _ => hname u
    refine ⟨{ h with
      userIds := ?_
      usernames := ?_
      usersFit := fun u hu => ?_
      usersBelow := fun u hu => ?_
      userRolesRefer := fun r hr => ?_ }, ?_⟩
    · exact hids ▸ h.userIds
    · exact hnames ▸ h.usernames
    · rcases Table.mem_modify.mp hu with ⟨u₀, hu₀, hkey, rfl⟩ | ⟨hu, -⟩
      · have hsame : db.getUser userId = some u₀ :=
          (Table.find_eq_some_iff h.userIds).mpr ⟨hu₀, hkey⟩
        obtain rfl := Option.some.inj (hfind.symm.trans hsame)
        exact hfits
      · exact h.usersFit u hu
    · rcases Table.mem_modify.mp hu with ⟨u₀, hu₀, -, rfl⟩ | ⟨hu, -⟩
      · rw [hid]
        exact h.usersBelow u₀ hu₀
      · exact h.usersBelow u hu
    · exact hids ▸ h.userRolesRefer r hr
    · exact Table.map_modify fun u _ => by rw [hid, hname]

theorem Sound.initialRoles (h : db.Sound env) (huser : userId ∈ db.users.map SysUser.id)
    (hset : db.initialRoles userId ids = .ok db') : db'.Sound env ∧ db'.userKeys = db.userKeys := by
  rw [AccountDb.initialRoles] at hset
  split_ifs at hset
  · rw [← Except.ok.inj hset]
    exact ⟨h, rfl⟩
  · refine ⟨h.setUserRoles huser hset, ?_⟩
    rw [AccountDb.setUserRoles] at hset
    split_ifs at hset
    rw [← Except.ok.inj hset]
    rfl

theorem Sound.createUser (h : db.Sound env) {data : UserCreate} {i : ℕ}
    (hset : db.createUser env data = .ok (i, db')) :
    db'.Sound env ∧ db'.userKeys = db.userKeys ++ [(i, data.username)] := by
  rw [AccountDb.createUser] at hset
  split_ifs at hset with htaken
  dsimp only at hset
  split_ifs at hset with hfits
  obtain ⟨_, hassigned, hset⟩ := bind_eq_ok.mp hset
  obtain ⟨rfl, rfl⟩ := Prod.mk.inj (Except.ok.inj hset)
  obtain ⟨hsound, hkeys⟩ :=
    (h.addUser rfl (by simpa using htaken) hfits _).initialRoles (by simp) hassigned
  exact ⟨hsound, hkeys.trans List.map_append⟩

theorem Sound.createRole (h : db.Sound env) {data : RoleCreate} {i : ℕ}
    (hset : db.createRole env data = .ok (i, db')) :
    db'.Sound env ∧ db'.userKeys = db.userKeys := by
  rw [AccountDb.createRole] at hset
  split_ifs at hset with htaken
  dsimp only at hset
  split_ifs at hset
  obtain ⟨-, rfl⟩ := Prod.mk.inj (Except.ok.inj hset)
  have hcode : db.roleByCode data.code = none := by simpa using htaken
  have hgrow : ∀ role : SysRole, db.roles.map SysRole.id ⊆ (db.roles ++ [role]).map SysRole.id :=
    fun role => List.map_subset _ (List.subset_append_left _ _)
  refine ⟨{ h with
    roleKeys := Table.nodup_concat h.roleKeys (Table.new_of_below h.rolesBelow)
    roleCodes := Table.nodup_concat h.roleCodes (Table.find_eq_none_iff.mp hcode)
    rolesBelow := Table.below_concat h.rolesBelow rfl (Nat.lt_succ_self _)
    userRolesRefer := fun r hr => ⟨(h.userRolesRefer r hr).1, hgrow _ (h.userRolesRefer r hr).2⟩
    rolePermissionsRefer := fun r hr =>
      ⟨hgrow _ (h.rolePermissionsRefer r hr).1, (h.rolePermissionsRefer r hr).2⟩
    roleGroupsRefer := fun r hr =>
      ⟨hgrow _ (h.roleGroupsRefer r hr).1, (h.roleGroupsRefer r hr).2⟩ }, rfl⟩

theorem Sound.updateRole (h : db.Sound env) {data : RoleUpdate}
    (hset : db.updateRole env roleId data = .ok db') :
    db'.Sound env ∧ db'.userKeys = db.userKeys := by
  rw [AccountDb.updateRole] at hset
  split at hset
  · cases hset
  next role hfind =>
    dsimp only at hset
    split_ifs at hset
    obtain rfl := Except.ok.inj hset
    let f := fun r : SysRole =>
      { r with name := data.name.getD r.name, remark := data.remark.getD r.remark }
    have hids : (Table.modify SysRole.id db.roles roleId f).map SysRole.id =
        db.roles.map SysRole.id := Table.map_modify fun _ _ => rfl
    have hcodes : (Table.modify SysRole.id db.roles roleId f).map SysRole.code =
        db.roles.map SysRole.code := Table.map_modify fun _ _ => rfl
    refine ⟨{ h with
      roleKeys := hids ▸ h.roleKeys
      roleCodes := hcodes ▸ h.roleCodes
      rolesBelow := fun r hr => by
        rcases Table.mem_modify.mp hr with ⟨r₀, hr₀, -, rfl⟩ | ⟨hr, -⟩
        · exact h.rolesBelow r₀ hr₀
        · exact h.rolesBelow r hr
      userRolesRefer := fun r hr => hids ▸ h.userRolesRefer r hr
      rolePermissionsRefer := fun r hr => hids ▸ h.rolePermissionsRefer r hr
      roleGroupsRefer := fun r hr => hids ▸ h.roleGroupsRefer r hr }, rfl⟩

theorem Sound.deleteRole (h : db.Sound env) (hset : db.deleteRole roleId = .ok db') :
    db'.Sound env ∧ db'.userKeys = db.userKeys := by
  rw [AccountDb.deleteRole] at hset
  split at hset
  · cases hset
  next role hfind =>
    split_ifs at hset with hused
    obtain rfl := Except.ok.inj hset
    have hkept : ∀ {rid}, rid ∈ db.roles.map SysRole.id → rid ≠ roleId →
        rid ∈ (db.roles.filter fun r => decide (r.id ≠ roleId)).map SysRole.id := by
      intro rid hrid hne
      obtain ⟨r, hr, rfl⟩ := List.mem_map.mp hrid
      exact List.mem_map.mpr ⟨r, List.mem_filter.mpr ⟨hr, decide_eq_true hne⟩, rfl⟩
    refine ⟨{ h with
      roleKeys := h.roleKeys.sublist (List.filter_sublist.map _)
      roleCodes := h.roleCodes.sublist (List.filter_sublist.map _)
      rolesBelow := fun r hr => h.rolesBelow r (List.mem_filter.mp hr).1
      userRolesRefer := fun r hr => by
        refine ⟨(h.userRolesRefer r hr).1, hkept (h.userRolesRefer r hr).2 fun heq => hused ?_⟩
        exact List.any_eq_true.mpr ⟨r, hr, decide_eq_true heq⟩
      rolePermissions := h.rolePermissions.filter _
      rolePermissionsRefer := fun r hr => by
        obtain ⟨hr, hne⟩ := List.mem_filter.mp hr
        exact ⟨hkept (h.rolePermissionsRefer r hr).1 (of_decide_eq_true hne),
          (h.rolePermissionsRefer r hr).2⟩
      roleGroups := h.roleGroups.filter _
      roleGroupsRefer := fun r hr => by
        obtain ⟨hr, hne⟩ := List.mem_filter.mp hr
        exact ⟨hkept (h.roleGroupsRefer r hr).1 (of_decide_eq_true hne),
          (h.roleGroupsRefer r hr).2⟩ }, rfl⟩

theorem Sound.setRolePermissions (h : db.Sound env)
    (hset : db.setRolePermissions roleId ids = .ok db') :
    db'.Sound env ∧ db'.userKeys = db.userKeys := by
  rw [AccountDb.setRolePermissions] at hset
  split at hset
  · cases hset
  next role hfind =>
    split_ifs at hset with hexist
    obtain rfl := Except.ok.inj hset
    refine ⟨{ h with
      rolePermissions := nodup_replaced h.rolePermissions
        (nodup_map_pair (fun _ _ heq => (RolePermission.mk.inj heq).2) ids) ?_
      rolePermissionsRefer := ?_ }, rfl⟩
    · intro r hr
      obtain ⟨pid, -, rfl⟩ := List.mem_map.mp hr
      rfl
    · intro r hr
      rcases List.mem_append.mp hr with hr | hr
      · exact h.rolePermissionsRefer r (List.mem_filter.mp hr).1
      · obtain ⟨pid, hpid, rfl⟩ := List.mem_map.mp hr
        obtain ⟨p, hp, hid⟩ :=
          List.any_eq_true.mp (List.all_eq_true.mp hexist pid (List.mem_dedup.mp hpid))
        exact ⟨List.mem_map.mpr ⟨role, Table.mem_of_find hfind, Table.key_of_find hfind⟩,
          List.mem_map.mpr ⟨p, hp, of_decide_eq_true hid⟩⟩

theorem Sound.setRoleGroups (h : db.Sound env) (hset : db.setRoleGroups roleId ids = .ok db') :
    db'.Sound env ∧ db'.userKeys = db.userKeys := by
  rw [AccountDb.setRoleGroups] at hset
  split at hset
  · cases hset
  next role hfind =>
    split_ifs at hset with hexist
    obtain rfl := Except.ok.inj hset
    refine ⟨{ h with
      roleGroups := nodup_replaced h.roleGroups
        (nodup_map_pair (fun _ _ heq => (RoleHostGroup.mk.inj heq).2) ids) ?_
      roleGroupsRefer := ?_ }, rfl⟩
    · intro r hr
      obtain ⟨gid, -, rfl⟩ := List.mem_map.mp hr
      rfl
    · intro r hr
      rcases List.mem_append.mp hr with hr | hr
      · exact h.roleGroupsRefer r (List.mem_filter.mp hr).1
      · obtain ⟨gid, hgid, rfl⟩ := List.mem_map.mp hr
        have hgroup := of_decide_eq_true (List.all_eq_true.mp hexist gid (List.mem_dedup.mp hgid))
        exact ⟨List.mem_map.mpr ⟨role, Table.mem_of_find hfind, Table.key_of_find hfind⟩, hgroup⟩

/-- The state that a call leaves is that before it or the one that it returns. -/
theorem apply_cases (env : AccountEnv) (db : AccountDb) (call : Call) :
    db.apply env call = db ∨ call.result env db = .ok (db.apply env call) := by
  unfold apply
  split
  next h => exact .inr h
  next => exact .inl rfl

theorem Sound.result (h : db.Sound env) {call : Call} (hset : call.result env db = .ok db') :
    db'.Sound env ∧ db.userKeys <+: db'.userKeys := by
  have hprefix : ∀ {db' : AccountDb}, db'.Sound env ∧ db'.userKeys = db.userKeys →
      db'.Sound env ∧ db.userKeys <+: db'.userKeys :=
    fun h => ⟨h.1, h.2 ▸ List.prefix_rfl⟩
  have hchange : ∀ {userId : ℕ} {f : SysUser → SysUser} {db' : AccountDb},
      db.changeUser env userId f = .ok db' → (∀ u, (f u).id = u.id) →
      (∀ u, (f u).username = u.username) → db'.Sound env ∧ db.userKeys <+: db'.userKeys := by
    intro userId f db' hset hid hname
    exact hprefix (h.changeUser hset hid hname)
  cases call with
  | createUser data =>
      cases hcreate : db.createUser env data with
      | error e => simp [Call.result, hcreate, Except.map] at hset
      | ok r =>
          rw [Call.result, hcreate] at hset
          obtain rfl := Except.ok.inj hset
          obtain ⟨hsound, hkeys⟩ := h.createUser hcreate
          exact ⟨hsound, hkeys ▸ List.prefix_append _ _⟩
  | updateUser userId data => exact hchange hset (fun _ => rfl) fun _ => rfl
  | deleteUser userId operatorId =>
      rw [Call.result, AccountDb.deleteUser] at hset
      split_ifs at hset
      exact hchange hset (fun _ => rfl) fun _ => rfl
  | setUserStatus userId status => exact hchange hset (fun _ => rfl) fun _ => rfl
  | resetPassword userId password =>
      obtain ⟨_, hchanged, hset⟩ := bind_eq_ok.mp hset
      obtain rfl := Except.ok.inj hset
      obtain ⟨hsound, hkeys⟩ := hchange hchanged (fun _ => rfl) fun _ => rfl
      exact ⟨{ hsound with }, hkeys⟩
  | assignRoles userId roleIds =>
      rw [Call.result, AccountDb.assignRoles] at hset
      split at hset
      · cases hset
      next user hfind =>
        have huser := List.mem_map.mpr ⟨user, Table.mem_of_find hfind, Table.key_of_find hfind⟩
        refine ⟨h.setUserRoles huser hset, ?_⟩
        rw [AccountDb.setUserRoles] at hset
        split_ifs at hset
        rw [← Except.ok.inj hset]
        exact List.prefix_rfl
  | createRole data =>
      cases hcreate : db.createRole env data with
      | error e => simp [Call.result, hcreate, Except.map] at hset
      | ok r =>
          rw [Call.result, hcreate] at hset
          obtain rfl := Except.ok.inj hset
          exact hprefix (h.createRole hcreate)
  | updateRole roleId data => exact hprefix (h.updateRole hset)
  | deleteRole roleId => exact hprefix (h.deleteRole hset)
  | setRolePermissions roleId permissionIds => exact hprefix (h.setRolePermissions hset)
  | setRoleGroups roleId groupIds => exact hprefix (h.setRoleGroups hset)

/-- **Accounts stay sound**, and users keep their ids and names. -/
theorem sound_apply (h : db.Sound env) (call : Call) :
    (db.apply env call).Sound env ∧ db.userKeys <+: (db.apply env call).userKeys := by
  rcases apply_cases env db call with hsame | hset
  · rw [hsame]
    exact ⟨h, List.prefix_rfl⟩
  · exact h.result hset

end Sound

end AccountDb

end LarkPlat
