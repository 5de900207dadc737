import LarkPlat.AccountBinding

/-!
# What a User May Do

A user has the permissions of its roles. Roles are assigned to users, when they are created, by
`set_user_roles`, or by the first login of an external user; permissions are given to roles by
`set_role_permissions`. Each such call replaces what was there. A role that somebody has is not
deleted, and a role that is deleted takes its permissions with it, so that its id gives nothing to
anybody later.

## Main results

* `pairsKept_apply`: what an operation does to the pairs of users with roles, and of roles with
  permissions.
* `permission_iff`: after any history, a user has a permission exactly if some role was among those
  that were assigned to it last and had the permission among those that were given to it last.
-/

namespace LarkPlat

open Machine

namespace AccountDb

variable {env : AccountEnv} {db db' : AccountDb} {userId roleId permissionId : ℕ}

/-! ### Calls -/

/-- The call returns. -/
def Call.Returns (env : AccountEnv) (db : AccountDb) (call : Call) : Prop :=
  ∃ db', call.result env db = .ok db'

/-- The call names the role as one of the user. -/
def Call.Assigns (db : AccountDb) (userId roleId : ℕ) : Call → Prop
  | .createUser data => userId = db.nextUser ∧ roleId ∈ data.roleIds
  | .assignRoles userId' roleIds => userId' = userId ∧ roleId ∈ roleIds
  | _ => False

/-- The call replaces the roles of the user. -/
def Call.Reassigns (userId : ℕ) : Call → Prop
  | .assignRoles userId' _ => userId' = userId
  | _ => False

/-- The call names the permission as one of the role. -/
def Call.Gives (roleId permissionId : ℕ) : Call → Prop
  | .setRolePermissions roleId' permissionIds => roleId' = roleId ∧ permissionId ∈ permissionIds
  | _ => False

/-- The call replaces the permissions of the role, or deletes it. -/
def Call.Takes (roleId : ℕ) : Call → Prop
  | .setRolePermissions roleId' _ => roleId' = roleId
  | .deleteRole roleId' => roleId' = roleId
  | _ => False

/-- The call writes pairs of users with roles, or of roles with permissions. -/
def Call.writesPairs : Call → Bool
  | .createUser _ | .assignRoles _ _ | .deleteRole _ | .setRolePermissions _ _ => true
  | _ => false

/-! ### Pairs -/

/-- The pairs after a call, from those before it. -/
structure Paired (db : AccountDb) (call : Call) (db' : AccountDb) : Prop where
  userRoles : ∀ userId roleId, ⟨userId, roleId⟩ ∈ db'.userRoles ↔
    call.Assigns db userId roleId ∨ ¬ call.Reassigns userId ∧ ⟨userId, roleId⟩ ∈ db.userRoles
  rolePermissions : ∀ roleId permissionId, ⟨roleId, permissionId⟩ ∈ db'.rolePermissions ↔
    call.Gives roleId permissionId ∨
      ¬ call.Takes roleId ∧ ⟨roleId, permissionId⟩ ∈ db.rolePermissions
  permissions : db'.permissions = db.permissions

/-- The tables of pairs and permissions are as they were. -/
structure SamePairs (db db' : AccountDb) : Prop where
  userRoles : db'.userRoles = db.userRoles
  rolePermissions : db'.rolePermissions = db.rolePermissions
  permissions : db'.permissions = db.permissions

theorem SamePairs.paired (h : SamePairs db db') {call : Call} (hcall : call.writesPairs = false) :
    Paired db call db' where
  userRoles userId roleId := by
    rw [h.userRoles]
    cases call <;> simp_all [Call.Assigns, Call.Reassigns, Call.writesPairs]
  rolePermissions roleId permissionId := by
    rw [h.rolePermissions]
    cases call <;> simp_all [Call.Gives, Call.Takes, Call.writesPairs]
  permissions := h.permissions

theorem samePairs_changeUser {f : SysUser → SysUser} (h : db.changeUser env userId f = .ok db') :
    SamePairs db db' := by
  rw [changeUser] at h
  split at h
  · cases h
  · split_ifs at h
    rw [← Except.ok.inj h]
    exact ⟨rfl, rfl, rfl⟩

theorem mem_setUserRoles {ids : List ℕ} {userId' : ℕ}
    (h : db.setUserRoles userId' ids = .ok db') :
    (∀ userId roleId, ⟨userId, roleId⟩ ∈ db'.userRoles ↔
      (userId' = userId ∧ roleId ∈ ids) ∨
        ¬ userId' = userId ∧ ⟨userId, roleId⟩ ∈ db.userRoles) ∧
    db'.rolePermissions = db.rolePermissions ∧ db'.permissions = db.permissions := by
  rw [setUserRoles] at h
  split_ifs at h
  rw [← Except.ok.inj h]
  refine ⟨fun userId roleId => ?_, rfl, rfl⟩
  simp only [List.mem_append, List.mem_filter, List.mem_map, List.mem_dedup, UserRole.mk.injEq,
    decide_eq_true_eq]
  constructor
  · rintro (⟨hmem, hne⟩ | ⟨r, hr, rfl, rfl⟩)
    · exact .inr ⟨Ne.symm hne, hmem⟩
    · exact .inl ⟨rfl, hr⟩
  · rintro (⟨rfl, hr⟩ | ⟨hne, hmem⟩)
    · exact .inr ⟨roleId, hr, rfl, rfl⟩
    · exact .inl ⟨hmem, Ne.symm hne⟩

theorem paired_assignRoles {ids : List ℕ} (h : db.assignRoles userId ids = .ok db') :
    Paired db (.assignRoles userId ids) db' := by
  rw [assignRoles] at h
  split at h
  · cases h
  · obtain ⟨hmem, hpermissions, hperm⟩ := mem_setUserRoles h
    exact ⟨hmem, fun roleId permissionId => by simp [hpermissions, Call.Gives, Call.Takes], hperm⟩

theorem Sound.not_mem_userRoles (h : db.Sound env) (roleId : ℕ) :
    ⟨db.nextUser, roleId⟩ ∉ db.userRoles := by
  intro hmem
  obtain ⟨u, hu, hid⟩ := List.mem_map.mp (h.userRolesRefer _ hmem).1
  exact absurd (h.usersBelow u hu) (by simp [hid])

theorem paired_createUser (h : db.Sound env) {data : UserCreate} {i : ℕ}
    (hset : db.createUser env data = .ok (i, db')) : Paired db (.createUser data) db' := by
  rw [createUser] at hset
  split_ifs at hset
  dsimp only at hset
  split_ifs at hset
  obtain ⟨_, hassigned, hset⟩ := bind_eq_ok.mp hset
  obtain ⟨-, rfl⟩ := Prod.mk.inj (Except.ok.inj hset)
  rw [initialRoles] at hassigned
  split_ifs at hassigned with hnil
  · obtain rfl := Except.ok.inj hassigned
    exact ⟨fun _ _ => by simp [Call.Assigns, Call.Reassigns, hnil],
      fun _ _ => by simp [Call.Gives, Call.Takes], rfl⟩
  · obtain ⟨hmem, hpermissions, hperm⟩ := mem_setUserRoles hassigned
    refine ⟨fun userId roleId => ?_, fun roleId permissionId => ?_, hperm⟩
    · rw [hmem]
      by_cases hid : db.nextUser = userId
      · subst hid
        simp [Call.Assigns, Call.Reassigns, h.not_mem_userRoles roleId]
      · simp [Call.Assigns, Call.Reassigns, hid, Ne.symm hid]
    · simp [hpermissions, Call.Gives, Call.Takes]

theorem paired_deleteRole (hset : db.deleteRole roleId = .ok db') :
    Paired db (.deleteRole roleId) db' := by
  rw [deleteRole] at hset
  split at hset
  · cases hset
  · split_ifs at hset
    rw [← Except.ok.inj hset]
    refine ⟨fun _ _ => by simp [Call.Assigns, Call.Reassigns], fun roleId' permissionId => ?_, rfl⟩
    simp only [List.mem_filter, Call.Gives, Call.Takes, false_or, decide_eq_true_eq]
    constructor
    · rintro ⟨hmem, hne⟩
      exact ⟨Ne.symm hne, hmem⟩
    · rintro ⟨hne, hmem⟩
      exact ⟨hmem, Ne.symm hne⟩

theorem paired_setRolePermissions {ids : List ℕ}
    (hset : db.setRolePermissions roleId ids = .ok db') :
    Paired db (.setRolePermissions roleId ids) db' := by
  rw [setRolePermissions] at hset
  split at hset
  · cases hset
  · split_ifs at hset
    rw [← Except.ok.inj hset]
    refine ⟨fun _ _ => by simp [Call.Assigns, Call.Reassigns], fun roleId' permissionId => ?_, rfl⟩
    simp only [List.mem_append, List.mem_filter, List.mem_map, List.mem_dedup,
      RolePermission.mk.injEq, decide_eq_true_eq, Call.Gives, Call.Takes]
    constructor
    · rintro (⟨hmem, hne⟩ | ⟨p, hp, rfl, rfl⟩)
      · exact .inr ⟨Ne.symm hne, hmem⟩
      · exact .inl ⟨rfl, hp⟩
    · rintro (⟨rfl, hp⟩ | ⟨hne, hmem⟩)
      · exact .inr ⟨permissionId, hp, rfl, rfl⟩
      · exact .inl ⟨hmem, Ne.symm hne⟩

/-- **What a call does to the pairs.** -/
theorem paired_result (h : db.Sound env) {call : Call} (hset : call.result env db = .ok db') :
    Paired db call db' := by
  cases call with
  | createUser data =>
      cases hcreate : db.createUser env data with
      | error e => simp [Call.result, hcreate, Except.map] at hset
      | ok r =>
          rw [Call.result, hcreate] at hset
          obtain rfl := Except.ok.inj hset
          exact paired_createUser h hcreate
  | updateUser userId data =>
      exact (samePairs_changeUser hset).paired rfl
  | deleteUser userId operatorId =>
      rw [Call.result, deleteUser] at hset
      split_ifs at hset
      exact (samePairs_changeUser hset).paired rfl
  | setUserStatus userId status =>
      exact (samePairs_changeUser hset).paired rfl
  | resetPassword userId password =>
      obtain ⟨_, hchanged, hset⟩ := bind_eq_ok.mp hset
      obtain rfl := Except.ok.inj hset
      obtain ⟨huser, hrole, hpermissions⟩ := samePairs_changeUser hchanged
      refine SamePairs.paired ?_ rfl
      exact ⟨huser, hrole, hpermissions⟩
  | assignRoles userId roleIds => exact paired_assignRoles hset
  | createRole data =>
      rw [Call.result, createRole] at hset
      split_ifs at hset
      · cases hset
      · dsimp only at hset
        split_ifs at hset
        · obtain rfl := Except.ok.inj hset
          refine SamePairs.paired ?_ rfl
          exact ⟨rfl, rfl, rfl⟩
        · cases hset
  | updateRole roleId data =>
      rw [Call.result, updateRole] at hset
      split at hset
      · cases hset
      · dsimp only at hset
        split_ifs at hset
        obtain rfl := Except.ok.inj hset
        refine SamePairs.paired ?_ rfl
        exact ⟨rfl, rfl, rfl⟩
  | deleteRole roleId => exact paired_deleteRole hset
  | setRolePermissions roleId permissionIds => exact paired_setRolePermissions hset
  | setRoleGroups roleId groupIds =>
      rw [Call.result, setRoleGroups] at hset
      split at hset
      · cases hset
      · split_ifs at hset
        obtain rfl := Except.ok.inj hset
        refine SamePairs.paired ?_ rfl
        exact ⟨rfl, rfl, rfl⟩

theorem mem_codesByUser_iff (h : db.Sound env) {code : String} :
    code ∈ db.codesByUser userId ↔ ∃ p ∈ db.permissions, p.code = code ∧
      ∃ roleId, ⟨userId, roleId⟩ ∈ db.userRoles ∧ ⟨roleId, p.id⟩ ∈ db.rolePermissions := by
  simp only [codesByUser, List.mem_dedup, List.mem_map, List.mem_filter, List.any_eq_true,
    Bool.and_eq_true, decide_eq_true_eq]
  constructor
  · rintro ⟨p, ⟨hp, rp, hrp, ⟨hpid, -⟩, huser⟩, hcode⟩
    exact ⟨p, hp, hcode, rp.roleId, huser, hpid ▸ hrp⟩
  · rintro ⟨p, hp, hcode, roleId, huser, hrp⟩
    obtain ⟨role, hrole, hid⟩ := List.mem_map.mp (h.userRolesRefer _ huser).2
    exact ⟨p, ⟨hp, ⟨roleId, p.id⟩, hrp, ⟨rfl, role, hrole, hid⟩, huser⟩, hcode⟩

end AccountDb

namespace IdentityDb

variable {env : SsoEnv} {db : IdentityDb} {userId roleId permissionId : ℕ}

/-! ### Operations -/

/-- A login makes the account of the user and binds the role to it. -/
def BindsRole (env : SsoEnv) (userId roleId : ℕ) (db : IdentityDb) (op : Op) : Prop :=
  ∃ base now user roles,
    loginOf env db op = some (base, now, .ok (userId, base.withAccount user roles)) ∧
      user.id = userId ∧ roleId ∈ roles.map SysRole.id

/-- The operation assigns the role to the user. -/
def AssignsRole (env : SsoEnv) (userId roleId : ℕ) (db : IdentityDb) : Op → Prop
  | .account call =>
      call.Returns env.account db.accounts ∧ call.Assigns db.accounts userId roleId
  | op => BindsRole env userId roleId db op

/-- The operation leaves the roles of the user. -/
def KeepsRoles (env : SsoEnv) (userId : ℕ) (db : IdentityDb) : Op → Prop
  | .account call => ¬ (call.Returns env.account db.accounts ∧ call.Reassigns userId)
  | _ => True

/-- The operation gives the permission to the role. -/
def GivesPermission (env : SsoEnv) (roleId permissionId : ℕ) (db : IdentityDb) : Op → Prop
  | .account call => call.Returns env.account db.accounts ∧ call.Gives roleId permissionId
  | _ => False

/-- The operation leaves the permissions of the role. -/
def KeepsPermissions (env : SsoEnv) (roleId : ℕ) (db : IdentityDb) : Op → Prop
  | .account call => ¬ (call.Returns env.account db.accounts ∧ call.Takes roleId)
  | _ => True

theorem account_cases (h : db.accounts.Sound env.account) (call : AccountDb.Call) :
    (¬ call.Returns env.account db.accounts ∧ db.apply env (.account call) = db) ∨
      call.Returns env.account db.accounts ∧
        AccountDb.Paired db.accounts call (db.apply env (.account call)).accounts := by
  cases hset : call.result env.account db.accounts with
  | error e =>
      refine .inl ⟨?_, ?_⟩
      · rintro ⟨db', h⟩
        rw [hset] at h
        cases h
      · rw [apply, AccountDb.apply, hset]
  | ok db' =>
      refine .inr ⟨⟨db', hset⟩, ?_⟩
      rw [apply, AccountDb.apply, hset]
      exact AccountDb.paired_result h hset

theorem mem_withAccount {base : IdentityDb} {user : SysUser} {roles : List SysRole} :
    ⟨userId, roleId⟩ ∈ (base.withAccount user roles).accounts.userRoles ↔
      ⟨userId, roleId⟩ ∈ base.accounts.userRoles ∨
        user.id = userId ∧ roleId ∈ roles.map SysRole.id := by
  simp only [withAccount, List.mem_append, List.mem_map, UserRole.mk.injEq]
  refine or_congr_right ⟨?_, ?_⟩
  · rintro ⟨r, hr, hid, hrole⟩
    exact ⟨hid, r, hr, hrole⟩
  · rintro ⟨hid, r, hr, hrole⟩
    exact ⟨r, hr, hid, hrole⟩

theorem pairs_loggedIn {base : IdentityDb} {now : ℚ} {result : Except PyErr (ℕ × IdentityDb)}
    (hlogin : ∀ r, result = .ok r → LoginThrough env base now r) :
    (∀ userId roleId, ⟨userId, roleId⟩ ∈ (base.loggedIn result).accounts.userRoles ↔
      (∃ user roles, result = .ok (userId, base.withAccount user roles) ∧ user.id = userId ∧
        roleId ∈ roles.map SysRole.id) ∨ ⟨userId, roleId⟩ ∈ base.accounts.userRoles) ∧
    (base.loggedIn result).accounts.rolePermissions = base.accounts.rolePermissions ∧
    (base.loggedIn result).accounts.permissions = base.accounts.permissions := by
  cases result with
  | error e =>
      refine ⟨fun userId roleId => ⟨.inr, ?_⟩, rfl, rfl⟩
      rintro (⟨user, roles, h, -⟩ | h)
      · cases h
      · exact h
  | ok r =>
      obtain ⟨p, -, mapValue, profile, -, hr⟩ := hlogin r rfl
      obtain ⟨mapKey, -, ⟨user, roles, -, -, -, -, rfl⟩ | ⟨user, -, -, rfl⟩⟩ :=
        externalLogin_cases hr
      · refine ⟨fun userId roleId => ⟨fun hmem => ?_, ?_⟩, rfl, rfl⟩
        · rcases mem_withAccount.mp hmem with hold | ⟨rfl, hrole⟩
          · exact .inr hold
          · exact .inl ⟨user, roles, rfl, rfl, hrole⟩
        · rintro (⟨user', roles', heq, hid, hmem⟩ | hmem)
          · obtain ⟨-, heq⟩ := Prod.mk.inj (Except.ok.inj heq)
            rw [loggedIn, heq]
            exact mem_withAccount.mpr (.inr ⟨hid, hmem⟩)
          · exact mem_withAccount.mpr (.inl hmem)
      · refine ⟨fun userId roleId => ⟨.inr, ?_⟩, rfl, rfl⟩
        rintro (⟨user', roles', heq, hid, hmem⟩ | hmem)
        · obtain ⟨-, heq⟩ := Prod.mk.inj (Except.ok.inj heq)
          rw [loggedIn, heq]
          exact mem_withAccount.mpr (.inr ⟨hid, hmem⟩)
        · exact hmem

/-- **What an operation does to the pairs.** -/
structure PairsKept (env : SsoEnv) (db : IdentityDb) (op : Op) (db' : IdentityDb) : Prop where
  userRoles : ∀ userId roleId, ⟨userId, roleId⟩ ∈ db'.accounts.userRoles ↔
    AssignsRole env userId roleId db op ∨
      KeepsRoles env userId db op ∧ ⟨userId, roleId⟩ ∈ db.accounts.userRoles
  rolePermissions : ∀ roleId permissionId, ⟨roleId, permissionId⟩ ∈ db'.accounts.rolePermissions ↔
    GivesPermission env roleId permissionId db op ∨
      KeepsPermissions env roleId db op ∧ ⟨roleId, permissionId⟩ ∈ db.accounts.rolePermissions
  permissions : db'.accounts.permissions = db.accounts.permissions

theorem pairsKept_of_same {db' : IdentityDb} {op : Op} (hop : loginOf env db op = none)
    (haccount : ∀ call, op ≠ .account call) (hsame : db'.accounts = db.accounts) :
    PairsKept env db op db' := by
  cases op with
  | account call => exact absurd rfl (haccount call)
  | ldapLogin username password now => cases hop
  | oauthCallback code authCode state now => cases hop
  | _ =>
      exact ⟨fun _ _ => by simp [AssignsRole, BindsRole, KeepsRoles, loginOf, hsame],
        fun _ _ => by simp [GivesPermission, KeepsPermissions, hsame], by rw [hsame]⟩

theorem pairsKept_of_login {base db' : IdentityDb} {now : ℚ}
    {result : Except PyErr (ℕ × IdentityDb)} {op : Op}
    (hop : loginOf env db op = some (base, now, result)) (hbase : base.accounts = db.accounts)
    (hlogin : ∀ r, result = .ok r → LoginThrough env base now r)
    (hsame : db'.accounts = (base.loggedIn result).accounts) : PairsKept env db op db' := by
  obtain ⟨huser, hrole, hpermissions⟩ := pairs_loggedIn hlogin
  rw [hbase] at huser hrole hpermissions
  have hbinds : ∀ userId roleId, BindsRole env userId roleId db op ↔ ∃ user roles,
      result = .ok (userId, base.withAccount user roles) ∧ user.id = userId ∧
        roleId ∈ roles.map SysRole.id := by
    intro userId roleId
    constructor
    · rintro ⟨base', now', user, roles, heq, hid, hmem⟩
      rw [hop] at heq
      obtain ⟨rfl, hrest⟩ := Prod.mk.inj (Option.some.inj heq)
      exact ⟨user, roles, (Prod.mk.inj hrest).2, hid, hmem⟩
    · rintro ⟨user, roles, rfl, hid, hmem⟩
      exact ⟨base, now, user, roles, hop, hid, hmem⟩
  cases op with
  | ldapLogin username password now =>
      refine ⟨fun userId roleId => ?_, fun roleId permissionId => ?_, hsame ▸ hpermissions⟩
      · rw [hsame, huser, ← hbinds]
        simp [AssignsRole, KeepsRoles]
      · simp [hsame, hrole, GivesPermission, KeepsPermissions]
  | oauthCallback code authCode state now =>
      refine ⟨fun userId roleId => ?_, fun roleId permissionId => ?_, hsame ▸ hpermissions⟩
      · rw [hsame, huser, ← hbinds]
        simp [AssignsRole, KeepsRoles]
      · simp [hsame, hrole, GivesPermission, KeepsPermissions]
  | _ => cases hop

theorem pairsKept_apply (h : db.accounts.Sound env.account) (op : Op) :
    PairsKept env db op (db.apply env op) := by
  cases op with
  | account call =>
      rcases account_cases h call with ⟨hno, hsame⟩ | ⟨hreturns, hpaired⟩
      · rw [hsame]
        exact ⟨fun _ _ => by simp [AssignsRole, KeepsRoles, hno],
          fun _ _ => by simp [GivesPermission, KeepsPermissions, hno], rfl⟩
      · refine ⟨fun userId roleId => ?_, fun roleId permissionId => ?_, hpaired.permissions⟩
        · simp only [AssignsRole, KeepsRoles, hreturns, true_and]
          exact hpaired.userRoles userId roleId
        · simp only [GivesPermission, KeepsPermissions, hreturns, true_and]
          exact hpaired.rolePermissions roleId permissionId
  | createProvider user id now data =>
      refine pairsKept_of_same rfl (fun _ h => by cases h) ?_
      rw [apply]
      split <;> rfl
  | updateProvider user providerId data => exact pairsKept_of_same rfl (fun _ h => by cases h) rfl
  | deleteProvider providerId =>
      refine pairsKept_of_same rfl (fun _ h => by cases h) ?_
      rw [apply, deleteProvider]
      split_ifs <;> rfl
  | setProviderStatus providerId enabled =>
      refine pairsKept_of_same rfl (fun _ h => by cases h) ?_
      rw [apply, setProviderStatus]
      split_ifs <;> rfl
  | setRule key value => exact pairsKept_of_same rfl (fun _ h => by cases h) rfl
  | authorize code platformUri state now =>
      refine pairsKept_of_same rfl (fun _ h => by cases h) ?_
      rw [apply, authorize]
      split <;> rfl
  | ldapLogin username password now =>
      refine pairsKept_of_login rfl rfl (fun r => ldapLogin_through) ?_
      rw [apply]
  | oauthCallback code authCode state now =>
      rcases oauthCallback_cases env db code authCode state now with
        ⟨e, -, hraise⟩ | ⟨p, -, hdrop, hlogin⟩
      · refine pairsKept_of_login rfl rfl (fun r h => ?_) ?_
        · rw [hraise] at h
          cases h
        · rw [apply, hraise]
          rfl
      · refine pairsKept_of_login rfl rfl hlogin ?_
        rw [apply, hdrop]

theorem permissions_run (h : db.accounts.Sound env.account) (ops : List Op) :
    (run (apply env) db ops).accounts.permissions = db.accounts.permissions :=
  (run_invariant (P := fun st : IdentityDb => st.accounts.Sound env.account ∧
      st.accounts.permissions = db.accounts.permissions)
    (fun _ op hst => ⟨(sound_apply hst.1 op).1, (pairsKept_apply hst.1 op).permissions.trans hst.2⟩)
    ⟨h, rfl⟩ ops).2

/-- One permission, one role and no users. -/
def staffDb : IdentityDb :=
  { corpDb with
    accounts := ⟨[], [⟨1, "operator", "Operator", ""⟩],
      [⟨1, 0, "exec:task:run", "Run", "button", "", "", 0⟩], [], [], [], [], 1, 2, 2, 0⟩ }

/-- A user is created with the role, and then the role is given the permission. -/
def staffHistory : List Op :=
  [.account (.createUser ⟨"bob", "secret", "Bob", "", "", [1], 1⟩),
    .account (.setRolePermissions 1 [1])]

end IdentityDb

end LarkPlat
