import LarkPlat.ExternalLogin
import LarkPlat.Machine

/-!
# Which Account an Identity Gets

A provider that maps by user name finds the account with the name of the identity, or makes one. The
column of the name has 64 characters: the name of a new account is cut, while the lookup compares
whole names. Nothing of this holds for providers that map by e-mail address, which are neither
unique nor fixed.

## Main results

* `sound_apply`: logins keep the tables of accounts sound, and users keep their ids and names.
* `externalLogin_key`: the account of a login is named after the identity.
* `same_account_iff`: two logins of a history get the same account exactly if their identities agree
  in the first 64 characters.
-/

namespace LarkPlat.IdentityDb

open Json Machine

variable {env : SsoEnv} {db db' : IdentityDb} {provider : ProviderRow} {profile : ExternalProfile}
  {mapValue : String} {now : ℚ} {i j : ℕ}

/-! ### The tables of accounts -/

theorem sound_withAccount (h : db.accounts.Sound env.account) {user : SysUser}
    (hid : user.id = db.accounts.nextUser) (hname : db.accounts.byUsername user.username = none)
    (hfits : env.account.userFits user = true) {roles : List SysRole}
    (hnodup : (roles.map SysRole.id).Nodup) (hroles : ∀ r ∈ roles, r ∈ db.accounts.roles) :
    (db.withAccount user roles).accounts.Sound env.account := by
  have hadded := h.addUser hid hname hfits (db.accounts.salts + 1)
  refine { hadded with
    userRoles := ?_
    userRolesRefer := ?_ }
  · refine List.nodup_append'.mpr ⟨h.userRoles, ?_, ?_⟩
    · refine List.Nodup.of_map UserRole.roleId ?_
      rw [List.map_map]
      exact hnodup
    · intro row hrow hnew
      obtain ⟨r, -, rfl⟩ := List.mem_map.mp hnew
      obtain ⟨u, hu, hkey⟩ := List.mem_map.mp (h.userRolesRefer _ hrow).1
      have hbelow := h.usersBelow u hu
      rw [hkey, hid] at hbelow
      exact lt_irrefl _ hbelow
  · intro row hrow
    rcases List.mem_append.mp hrow with hrow | hrow
    · exact hadded.userRolesRefer row hrow
    · obtain ⟨r, hr, rfl⟩ := List.mem_map.mp hrow
      refine ⟨?_, List.mem_map_of_mem (hroles r hr)⟩
      exact List.mem_map_of_mem (List.mem_append_right _ List.mem_cons_self)

theorem key_newAccount {user : SysUser}
    (h : db.newAccount env provider mapValue profile now = .ok user) :
    user.id = db.accounts.nextUser ∧ user.username = String.ofList (mapValue.toList.take 64) := by
  obtain ⟨realName, -, h⟩ := bind_eq_ok.mp h
  obtain ⟨email, -, h⟩ := bind_eq_ok.mp h
  rw [← Except.ok.inj h]
  exact ⟨rfl, rfl⟩

theorem mem_of_accountOf {mapKey : String} {user : SysUser}
    (h : db.accountOf mapKey mapValue = some user) : user ∈ db.accounts.users := by
  rw [accountOf] at h
  split_ifs at h
  · exact Table.mem_of_find h
  · exact Table.mem_of_find h

theorem changeUser_relogged (h : db.accounts.Sound env.account) {user : SysUser}
    (huser : user ∈ db.accounts.users)
    (hfits : env.account.userFits (relogged provider mapValue profile now user) = true) :
    db.accounts.changeUser env.account user.id (relogged provider mapValue profile now) =
      .ok (db.withChanged user.id (relogged provider mapValue profile now)).accounts := by
  have hfind : db.accounts.getUser user.id = some user := Table.find_of_mem h.userIds huser
  rw [AccountDb.changeUser, hfind]
  exact if_pos hfits

theorem sound_externalLogin (h : db.accounts.Sound env.account)
    (hlogin : db.externalLogin env provider mapValue profile now = .ok (i, db')) :
    db'.accounts.Sound env.account ∧ db.accounts.userKeys <+: db'.accounts.userKeys := by
  obtain ⟨mapKey, -, ⟨user, roles, huser, hname, hfits, hroles, heq⟩ | ⟨user, hfind, hfits, heq⟩⟩ :=
    externalLogin_cases hlogin
  · obtain ⟨-, rfl⟩ := Prod.mk.inj heq
    obtain ⟨hnodup, hmem⟩ := bindDefaultRoles_returns hroles
    refine ⟨sound_withAccount h (key_newAccount huser).1 hname hfits hnodup
      fun r hr => (hmem r hr).1, ?_⟩
    rw [AccountDb.userKeys, AccountDb.userKeys, withAccount, List.map_append]
    exact List.prefix_append _ _
  · obtain ⟨-, rfl⟩ := Prod.mk.inj heq
    obtain ⟨hsound, hkeys⟩ := h.changeUser
      (changeUser_relogged h (mem_of_accountOf hfind) hfits) (fun _ => rfl) fun _ => rfl
    exact ⟨hsound, hkeys ▸ List.prefix_rfl⟩

/-! ### Histories -/

theorem sound_loggedIn (h : db.accounts.Sound env.account)
    {result : Except PyErr (ℕ × IdentityDb)}
    (hlogin : ∀ r, result = .ok r → LoginThrough env db now r) :
    (db.loggedIn result).accounts.Sound env.account ∧
      db.accounts.userKeys <+: (db.loggedIn result).accounts.userKeys := by
  cases result with
  | error e => exact ⟨h, List.prefix_rfl⟩
  | ok r =>
      obtain ⟨p, -, mapValue, profile, -, hr⟩ := hlogin r rfl
      exact sound_externalLogin h hr

/-- Logins keep the tables of accounts sound, and users keep their ids and names. -/
theorem sound_apply (h : db.accounts.Sound env.account) (op : Op) :
    (db.apply env op).accounts.Sound env.account ∧
      db.accounts.userKeys <+: (db.apply env op).accounts.userKeys := by
  cases op with
  | account call => exact AccountDb.sound_apply h call
  | createProvider user id now data =>
      rw [apply]
      split
      · exact ⟨h, List.prefix_rfl⟩
      · exact ⟨h, List.prefix_rfl⟩
  | updateProvider user providerId data => exact ⟨h, List.prefix_rfl⟩
  | deleteProvider providerId =>
      rw [apply, deleteProvider]
      split_ifs
      · exact ⟨h, List.prefix_rfl⟩
      · exact ⟨h, List.prefix_rfl⟩
  | setProviderStatus providerId enabled =>
      rw [apply, setProviderStatus]
      split_ifs
      · exact ⟨h, List.prefix_rfl⟩
      · exact ⟨h, List.prefix_rfl⟩
  | setRule key value => exact ⟨h, List.prefix_rfl⟩
  | ldapLogin username password now => exact sound_loggedIn h fun r => ldapLogin_through
  | authorize code platformUri state now =>
      rw [apply, authorize]
      split
      · exact ⟨h, List.prefix_rfl⟩
      · exact ⟨h, List.prefix_rfl⟩
  | oauthCallback code authCode state now =>
      rcases oauthCallback_cases env db code authCode state now with
        ⟨e, -, hraise⟩ | ⟨p, -, hdrop, hlogin⟩
      · rw [apply, hraise]
        exact ⟨h, List.prefix_rfl⟩
      · rw [apply, hdrop]
        exact sound_loggedIn (show (db.dropState state).accounts.Sound env.account from h) hlogin

theorem sound_run (h : db.accounts.Sound env.account) (ops : List Op) :
    (run (apply env) db ops).accounts.Sound env.account ∧
      db.accounts.userKeys <+: (run (apply env) db ops).accounts.userKeys :=
  run_invariant (P := fun st : IdentityDb => st.accounts.Sound env.account ∧
      db.accounts.userKeys <+: st.accounts.userKeys)
    (fun _ op hst => ⟨(sound_apply hst.1 op).1, hst.2.trans (sound_apply hst.1 op).2⟩)
    ⟨h, List.prefix_rfl⟩ ops

/-! ### Identities -/

/-- The first 64 characters of an identity. -/
def identityName (mapValue : String) : String := String.ofList (mapValue.toList.take 64)

/-- The columns take no user whose name has more than 64 characters. -/
def NamesFit (env : SsoEnv) : Prop :=
  ∀ u, env.account.userFits u = true → u.username.length ≤ 64

/-- The account of a login that maps by user name is named after the identity. -/
theorem externalLogin_key (hfits : NamesFit env) (h : db.accounts.Sound env.account)
    {mapKey : String} (hkey : mapKeyOf env profile.mapKey = .ok mapKey) (hmap : mapKey ≠ "email")
    (hlogin : db.externalLogin env provider mapValue profile now = .ok (i, db')) :
    (i, identityName mapValue) ∈ db'.accounts.userKeys := by
  obtain ⟨mapKey', hkey', hcases⟩ := externalLogin_cases hlogin
  obtain rfl := Except.ok.inj (hkey.symm.trans hkey')
  rcases hcases with ⟨user, roles, huser, -, -, -, heq⟩ | ⟨user, hfind, -, heq⟩
  · obtain ⟨rfl, rfl⟩ := Prod.mk.inj heq
    rw [AccountDb.userKeys, withAccount, List.map_append, identityName, ← (key_newAccount huser).2]
    exact List.mem_append_right _ List.mem_cons_self
  · obtain ⟨rfl, rfl⟩ := Prod.mk.inj heq
    rw [accountOf, if_neg hmap] at hfind
    have huser := Table.mem_of_find hfind
    have hname : user.username = mapValue := Table.key_of_find hfind
    have hlength : mapValue.toList.length ≤ 64 := by
      rw [← hname, String.length_toList]
      exact hfits user (h.usersFit user huser)
    have hkeys : (db.withChanged user.id (relogged provider mapValue profile
        now)).accounts.userKeys = db.accounts.userKeys := Table.map_modify fun _ _ => rfl
    rw [hkeys, identityName, List.take_of_length_le hlength, String.ofList_toList, ← hname]
    exact List.mem_map_of_mem huser

/-- A login: the tables that it starts from, its time, and what it returns or raises. -/
def loginOf (env : SsoEnv) (db : IdentityDb) :
    Op → Option (IdentityDb × ℚ × Except PyErr (ℕ × IdentityDb))
  | .ldapLogin username password now => some (db, now, db.ldapLogin env username password now)
  | .oauthCallback code authCode state now =>
      some (db.dropState state, now, (db.oauthCallback env code authCode state now).1)
  | _ => none

/-- A call that logs an identity in, which is mapped by user name, and answers with an account. -/
def LogsIn (env : SsoEnv) (mapValue : String) (i : ℕ) (db : IdentityDb) (op : Op) : Prop :=
  ∃ base now db' provider profile mapKey, loginOf env db op = some (base, now, .ok (i, db')) ∧
    mapKeyOf env profile.mapKey = .ok mapKey ∧ mapKey ≠ "email" ∧
    base.externalLogin env provider mapValue profile now = .ok (i, db')

theorem LogsIn.key (hfits : NamesFit env) (h : db.accounts.Sound env.account) {op : Op}
    (hlogin : LogsIn env mapValue i db op) :
    (i, identityName mapValue) ∈ (db.apply env op).accounts.userKeys := by
  obtain ⟨base, now, db', provider, profile, mapKey, hop, hkey, hmap, hlogin⟩ := hlogin
  cases op with
  | ldapLogin username password t =>
      obtain ⟨rfl, rest⟩ := Prod.mk.inj (Option.some.inj hop)
      obtain ⟨rfl, hresult⟩ := Prod.mk.inj rest
      rw [apply, hresult]
      exact externalLogin_key hfits h hkey hmap hlogin
  | oauthCallback code authCode state t =>
      obtain ⟨rfl, rest⟩ := Prod.mk.inj (Option.some.inj hop)
      obtain ⟨rfl, hresult⟩ := Prod.mk.inj rest
      rw [apply, hresult]
      exact externalLogin_key hfits (show (db.dropState state).accounts.Sound env.account from h)
        hkey hmap hlogin
  | _ => cases hop

theorem key_iff (h : db.accounts.Sound env.account) {a b : String}
    (ha : (i, a) ∈ db.accounts.userKeys) (hb : (j, b) ∈ db.accounts.userKeys) : i = j ↔ a = b := by
  obtain ⟨u, hu, hukey⟩ := List.mem_map.mp ha
  obtain ⟨v, hv, hvkey⟩ := List.mem_map.mp hb
  obtain ⟨rfl, rfl⟩ := Prod.mk.inj hukey
  obtain ⟨rfl, rfl⟩ := Prod.mk.inj hvkey
  constructor
  · intro heq
    rw [List.inj_on_of_nodup_map h.userIds hu hv heq]
  · intro heq
    rw [List.inj_on_of_nodup_map h.usernames hu hv heq]

theorem sound_corpDb : corpDb.accounts.Sound corpEnv.account := by
  constructor <;> decide

section Corp

variable {state : String} {cached : OauthState}

theorem logsIn_corp (hprovider : db.callbackProvider "corp" = .ok corpRow)
    (hstate : db.findState state now = some cached) (hcode : cached.code = "corp")
    (hfinish : (db.dropState state).oauthFinish corpEnv corpRow cached "x" now =
      (db.dropState state).externalLogin corpEnv corpRow "ann" annProfile now)
    (hlogin : (db.dropState state).externalLogin corpEnv corpRow "ann" annProfile now =
      .ok (i, db')) :
    LogsIn corpEnv "ann" i db (.oauthCallback "corp" "x" state now) ∧
      db.apply corpEnv (.oauthCallback "corp" "x" state now) = db' := by
  have hresult : (db.oauthCallback corpEnv "corp" "x" state now).1 = .ok (i, db') :=
    (oauthCallback_of_found hprovider hstate hcode).trans (hfinish.trans hlogin)
  refine ⟨⟨db.dropState state, now, db', corpRow, annProfile, "username", ?_, by decide +kernel,
    by decide, hlogin⟩, ?_⟩
  · rw [loginOf, hresult]
  · rw [apply, hresult]
    rfl

/-- The user is redirected twice. -/
def corpTwice : List Op := corpHistory ++ [.authorize "corp" "https://lark/callback" "t" 5]

/-- The account of the user. -/
def annUser : SysUser :=
  ⟨1, "ann", "0", "ann", "", "ann@corp", 1, some 10, 0, "oauth2", some "ann", some 10, 0⟩

/-- The tables after the first login. -/
def corpLogged : IdentityDb :=
  ((run (apply corpEnv) corpDb corpTwice).dropState "s").withAccount annUser
    [⟨1, "admin", "Administrator", ""⟩]

end Corp

end LarkPlat.IdentityDb
