import LarkPlat.ExternalLogin
import LarkPlat.Machine

/-!
# Privileged Roles of External Users

A new account gets its roles from three sources: the list of the provider, the claims of the
identity provider, or the list of the platform. Only the list of the provider may name privileged
roles, and the call that stores it writes a row of the audit log about them.

The list is checked when it is submitted and used when a user logs in. Between the two it is merged
into what is stored, encoded, and decoded again: dictionaries are merged key by key, and a text that
starts with `enc:` is taken for a ciphertext.

## Main results

* `listedCodes_stored`: the privileged codes that a stored list names are among those of the
  submitted list and of the list that was stored before.
* `externalLogin_bindsPermitted`: a login binds the roles that its provider lists, or roles that are
  not privileged.
* `privileged_grants_audited`: in every history, a login binds a privileged role only if the audit
  log has a row that names the role and the provider.
-/

namespace LarkPlat

open Json Machine

/-- What a loop over a value sees. -/
def listedCodes (v : Json) : List Json :=
  match pyIter v with
  | .ok items => items
  | .error _ => []

theorem listedCodes_of_not_truthy {v : Json} (h : v.truthy = false) : listedCodes v = [] := by
  cases v with
  | str s =>
      have hs : s = "" := by simpa [truthy] using h
      simp [listedCodes, pyIter, hs]
  | arr items =>
      have hitems : items = [] := by simpa [truthy] using h
      simp [listedCodes, pyIter, hitems]
  | obj fields =>
      have hfields : fields = [] := by simpa [truthy] using h
      simp [listedCodes, pyIter, hfields]
  | _ => rfl

theorem listedCodes_of_pyIter {v : Json} {items : List Json} (h : pyIter v = .ok items) :
    listedCodes v = items := by
  rw [listedCodes, h]

theorem mem_listedCodes_obj {fields : List (String × Json)} {code : String} :
    .str code ∈ listedCodes (.obj fields) ↔ code ∈ fields.map Prod.fst := by
  simp [listedCodes, pyIter]

/-! ### Lists that are stored -/

section Stored

variable {vault : Vault} {codec : ConfigCodec} {fields config merged : List (String × Json)}
  {k : String} {v : Json} {n : ℕ}

theorem map_fst_setField_subset (fields : List (String × Json)) (k : String) (v : Json) :
    (setField fields k v).map Prod.fst ⊆ k :: fields.map Prod.fst := by
  induction fields with
  | nil => simp [setField]
  | cons p fields ih =>
      obtain ⟨l, w⟩ := p
      rw [setField]
      split_ifs with hl
      · simp [hl]
      · rw [List.map_cons, List.map_cons]
        rintro x (_ | ⟨_, hx⟩)
        · exact List.mem_cons_of_mem _ List.mem_cons_self
        · rcases List.mem_cons.mp (ih hx) with rfl | hx
          · exact List.mem_cons_self
          · exact List.mem_cons_of_mem _ (List.mem_cons_of_mem _ hx)

/-- The keys of a dictionary that is stored are submitted, or were there before. -/
theorem map_fst_encryptFields_subset :
    (codec.encryptFields vault config merged n).1.map Prod.fst ⊆
      config.map Prod.fst ++ merged.map Prod.fst := by
  induction config generalizing merged n with
  | nil =>
      rw [ConfigCodec.encryptFields]
      exact List.subset_append_right _ _
  | cons p config ih =>
      obtain ⟨key, val⟩ := p
      rw [ConfigCodec.encryptFields]
      intro x hx
      rcases List.mem_append.mp (ih hx) with hx | hx
      · exact List.mem_append_left _ (List.mem_cons_of_mem _ hx)
      · rcases List.mem_cons.mp (map_fst_setField_subset _ _ _ hx) with rfl | hx
        · exact List.mem_append_left _ List.mem_cons_self
        · exact List.mem_append_right _ hx

@[simp] theorem map_fst_decryptFields (fields : List (String × Json)) :
    (vault.decryptFields fields).map Prod.fst = fields.map Prod.fst := by
  induction fields with
  | nil => rfl
  | cons p fields ih => rw [Vault.decryptFields, List.map_cons, List.map_cons, ih]

theorem field_decryptFields (fields : List (String × Json)) (k : String) :
    field (vault.decryptFields fields) k = vault.decryptValue (field fields k) := by
  induction fields with
  | nil => rfl
  | cons p fields ih =>
      obtain ⟨key, v⟩ := p
      rw [field, field] at ih
      rw [Vault.decryptFields, field, field, List.lookup_cons, List.lookup_cons]
      cases k == key with
      | true => rfl
      | false => exact ih

theorem mem_listedCodes_str {s code : String} (h : .str code ∈ listedCodes (.str s)) :
    ∃ c : Char, code = String.singleton c := by
  rw [listedCodes, pyIter] at h
  obtain ⟨c, -, hc⟩ := List.mem_map.mp h
  exact ⟨c, (Json.str.inj hc).symm⟩

/-- **Stored lists.** The codes that are read from what is stored under a key that is not secret
are submitted, were read before, or have one character. -/
theorem listedCodes_stored (hk : k ∉ codec.secretKeys) (hlists : codec.readsLists = false)
    (prev : Option Json) {code : String}
    (h : .str code ∈ listedCodes (vault.decryptValue (codec.encryptValue vault k v prev n).1)) :
    .str code ∈ listedCodes v ∨ .str code ∈ listedCodes (vault.decryptValue (prev.getD .null)) ∨
      ∃ c : Char, code = String.singleton c := by
  cases v with
  | str s =>
      rw [ConfigCodec.encryptValue, if_neg hk, Vault.decryptValue] at h
      refine .inr (.inr ?_)
      split_ifs at h <;> exact mem_listedCodes_str h
  | obj fields =>
      rw [ConfigCodec.encryptValue, Vault.decryptValue, mem_listedCodes_obj,
        map_fst_decryptFields] at h
      rcases List.mem_append.mp (map_fst_encryptFields_subset h) with h | h
      · exact .inl (mem_listedCodes_obj.mpr h)
      · refine .inr (.inl ?_)
        rcases prev with _ | (_ | _ | _ | _ | _ | _ | prev)
        case some.obj =>
          rw [Option.getD_some, Vault.decryptValue, mem_listedCodes_obj, map_fst_decryptFields]
          exact h
        all_goals cases h
  | arr items =>
      rw [ConfigCodec.encryptValue, hlists] at h
      exact .inl h
  | _ => cases h

end Stored

/-! ### Lists that are checked -/

namespace ConfigStore

variable {env : ConfigEnv} {st : ConfigStore}

theorem checkRoleCode_str {code found : String} (h : st.checkRoleCode (.str code) = .ok found) :
    found = code := by
  rw [checkRoleCode] at h
  split_ifs at h
  exact (Except.ok.inj h).symm

theorem mem_validateRoleCodes {v : Json} {privileged : List String} {code : String}
    (h : st.validateRoleCodes env v = .ok privileged) (hcode : .str code ∈ listedCodes v)
    (hpriv : isPrivileged env code = true) : code ∈ privileged := by
  rw [validateRoleCodes] at h
  split_ifs at h with htruthy
  · obtain ⟨items, hitems, h⟩ := bind_eq_ok.mp h
    obtain ⟨found, hfound, h⟩ := bind_eq_ok.mp h
    obtain rfl := Except.ok.inj h
    rw [listedCodes_of_pyIter hitems] at hcode
    obtain ⟨c, hc, hcheck⟩ := Traversals.exists_of_mapM hfound hcode
    obtain rfl := checkRoleCode_str hcheck
    exact List.mem_filter.mpr ⟨hc, hpriv⟩
  · rw [listedCodes_of_not_truthy (by simpa using htruthy)] at hcode
    cases hcode

end ConfigStore

namespace IdentityDb

variable {env : SsoEnv} {db db' : IdentityDb} {provider : ProviderRow} {profile : ExternalProfile}
  {mapValue code : String} {now : ℚ} {i : ℕ}

/-! ### The roles of a new account -/

/-- The code is one that the provider lists, or is not privileged. -/
def Permitted (env : SsoEnv) (profile : ExternalProfile) (code : String) : Prop :=
  .str code ∈ listedCodes profile.defaultRoleCodes ∨
    ConfigStore.isPrivileged env.config code = false

theorem listedCodes_of_listOrEmpty {v : Json} {items : List Json} (h : listOrEmpty v = .ok items) :
    listedCodes v = items := by
  rw [listOrEmpty] at h
  split_ifs at h with htruthy
  · exact listedCodes_of_pyIter h
  · rw [listedCodes_of_not_truthy (by simpa using htruthy)]
    exact Except.ok.inj h

theorem permitted_of_defaultCodes {codes : List Json} (h : db.defaultCodes env profile = .ok codes)
    (hcode : .str code ∈ codes) : Permitted env profile code := by
  rw [defaultCodes] at h
  split_ifs at h with hlisted
  · rw [← listedCodes_of_listOrEmpty h] at hcode
    exact .inl hcode
  · obtain ⟨runtime, -, h⟩ := bind_eq_ok.mp h
    split_ifs at h
    rw [← Except.ok.inj h, List.mem_filter, Bool.not_eq_true'] at hcode
    exact .inr hcode.2

/-- The roles that a login has bound are permitted. -/
def BindsPermitted (env : SsoEnv) (profile : ExternalProfile) (db db' : IdentityDb) : Prop :=
  ∀ row ∈ db'.accounts.userRoles, row ∈ db.accounts.userRoles ∨
    ∃ r ∈ db.accounts.roles, r.id = row.roleId ∧ Permitted env profile r.code

theorem externalLogin_bindsPermitted
    (h : db.externalLogin env provider mapValue profile now = .ok (i, db')) :
    BindsPermitted env profile db db' := by
  intro row hrow
  obtain ⟨mapKey, -, ⟨user, roles, -, -, -, hroles, heq⟩ | ⟨user, -, -, heq⟩⟩ :=
    externalLogin_cases h
  · obtain ⟨-, rfl⟩ := Prod.mk.inj heq
    rcases List.mem_append.mp hrow with hrow | hrow
    · exact .inl hrow
    · obtain ⟨r, hr, rfl⟩ := List.mem_map.mp hrow
      obtain ⟨hmem, codes, hcodes, hcode⟩ := (bindDefaultRoles_returns hroles).2 r hr
      exact .inr ⟨r, hmem, rfl, permitted_of_defaultCodes hcodes hcode⟩
  · obtain ⟨-, rfl⟩ := Prod.mk.inj heq
    exact .inl hrow

/-! ### What is audited -/

/-- The audit log has a row about a role of a provider. -/
def Audited (audits : List ProviderAudit) (providerCode roleCode : String) : Prop :=
  ∃ a ∈ audits, a.action = "sso.provider.privileged_roles" ∧ a.providerCode = providerCode ∧
    roleCode ∈ a.roleCodes

theorem Audited.mono {audits audits' : List ProviderAudit} {providerCode roleCode : String}
    (h : Audited audits providerCode roleCode) (hsub : audits ⊆ audits') :
    Audited audits' providerCode roleCode := by
  obtain ⟨a, ha, hrow⟩ := h
  exact ⟨a, hsub ha, hrow⟩

theorem subset_audited {st : ConfigStore} {user : Principal} {privileged : List String} :
    st.audits ⊆ st.audited user code privileged := by
  rw [ConfigStore.audited]
  split_ifs
  · exact List.Subset.refl _
  · exact List.subset_append_left _ _

theorem audited_of_mem {st : ConfigStore} {user : Principal} {privileged : List String}
    {roleCode : String} (h : roleCode ∈ privileged) :
    Audited (st.audited user code privileged) code roleCode := by
  rw [ConfigStore.audited, if_neg (List.ne_nil_of_mem h)]
  exact ⟨_, List.mem_append_right _ List.mem_cons_self, rfl, rfl, h⟩

/-- The roles that a provider lists. -/
def listed (env : SsoEnv) (p : ProviderRow) : List Json :=
  listedCodes (field (decryptConfig env p) "default_role_codes")

/-- The privileged roles that a provider lists are audited. -/
def ListAudited (env : SsoEnv) (audits : List ProviderAudit) (p : ProviderRow) : Prop :=
  ∀ code, .str code ∈ listed env p → ConfigStore.isPrivileged env.config code = true →
    Audited audits p.code code

/-- What the providers list is audited. -/
def ListsAudited (env : SsoEnv) (config : ConfigStore) : Prop :=
  ∀ p ∈ config.providers, ListAudited env config.audits p

/-- No privileged code has a single character. -/
def LongCodes (env : SsoEnv) : Prop :=
  ∀ c : Char, ConfigStore.isPrivileged env.config (String.singleton c) = false

/-- The privileged codes that a stored configuration lists were found in what was submitted, or
were listed before. -/
theorem mem_privileged_of_stored {st : ConfigStore} {config : JsonDict}
    {merged : List (String × Json)} {n : ℕ} {privileged : List String} (hlong : LongCodes env)
    (hvalid : st.validateRoleCodes env.config (field config.fields "default_role_codes") =
      .ok privileged)
    (hcode : .str code ∈ listedCodes (field (env.config.vault.decryptFields
      (ssoCodec.encryptFields env.config.vault config.fields merged n).1) "default_role_codes"))
    (hpriv : ConfigStore.isPrivileged env.config code = true) :
    code ∈ privileged ∨
      .str code ∈ listedCodes (field (env.config.vault.decryptFields merged)
        "default_role_codes") := by
  rw [field_decryptFields] at hcode ⊢
  cases hfind : config.fields.lookup "default_role_codes" with
  | none =>
      rw [field, ConfigCodec.lookup_encryptFields_of_none _ _ _ _ hfind] at hcode
      exact .inr hcode
  | some v =>
      obtain ⟨m, hm⟩ := ConfigCodec.lookup_encryptFields_of_some ssoCodec env.config.vault merged n
        config.proper.nodup hfind
      rw [field, hm, Option.getD_some] at hcode
      rw [field, hfind] at hvalid
      rcases listedCodes_stored (by decide) rfl _ hcode with hcode | hcode | ⟨c, rfl⟩
      · exact .inl (ConfigStore.mem_validateRoleCodes hvalid hcode hpriv)
      · exact .inr hcode
      · rw [hlong c] at hpriv
        cases hpriv

/-! ### What a call on the providers leaves -/

/-- A configuration that a call stores: the list was checked, and what was checked is audited. -/
structure Stored (env : SsoEnv) (st st' : ConfigStore) (row : ProviderRow) (config : JsonDict)
    (merged : List (String × Json)) : Prop where
  configEnc : ∃ n,
    row.configEnc = (ssoCodec.encryptFields env.config.vault config.fields merged n).1
  audits : ∃ user privileged,
    st.validateRoleCodes env.config (field config.fields "default_role_codes") = .ok privileged ∧
      st'.audits = st.audited user row.code privileged

theorem Stored.listAudited {st st' : ConfigStore} {row : ProviderRow} {config : JsonDict}
    {merged : List (String × Json)} (hlong : LongCodes env)
    (h : Stored env st st' row config merged)
    (hmerged : ∀ code, .str code ∈ listedCodes (field (env.config.vault.decryptFields merged)
      "default_role_codes") → ConfigStore.isPrivileged env.config code = true →
        Audited st.audits row.code code) :
    ListAudited env st'.audits row := by
  obtain ⟨n, hconfig⟩ := h.configEnc
  obtain ⟨user, privileged, hvalid, haudits⟩ := h.audits
  intro code hcode hpriv
  rw [listed, decryptConfig, hconfig] at hcode
  rw [haudits]
  rcases mem_privileged_of_stored hlong hvalid hcode hpriv with hmem | hmem
  · exact audited_of_mem hmem
  · exact (hmerged code hmem hpriv).mono subset_audited

theorem Stored.subset {st st' : ConfigStore} {row : ProviderRow} {config : JsonDict}
    {merged : List (String × Json)} (h : Stored env st st' row config merged) :
    st.audits ⊆ st'.audits := by
  obtain ⟨user, privileged, -, haudits⟩ := h.audits
  rw [haudits]
  exact subset_audited

theorem createProvider_returns {st st' : ConfigStore} {user : Principal} {enabled : Bool}
    {data : ProviderCreate} {out : ProviderOut}
    (h : st.createProvider env.config user enabled i now data = .ok (out, st')) :
    ∃ row, st'.providers = st.providers ++ [row] ∧ Stored env st st' row data.config [] := by
  rw [ConfigStore.createProvider] at h
  split_ifs at h
  obtain ⟨code, -, h⟩ := bind_eq_ok.mp h
  split_ifs at h
  obtain ⟨privileged, hvalid, h⟩ := bind_eq_ok.mp h
  dsimp only at h
  split_ifs at h
  obtain ⟨-, rfl⟩ := Prod.mk.inj (Except.ok.inj h)
  exact ⟨_, rfl, ⟨_, rfl⟩, user, privileged, hvalid, rfl⟩

/-- An update replaces the rows with the id of a row. The configuration is that of the row, or is
stored over it. -/
theorem updateProvider_returns {st st' : ConfigStore} {user : Principal} {data : ProviderUpdate}
    {out : ProviderOut}
    (h : st.updateProvider env.config user i data = .ok (out, st')) :
    ∃ p ∈ st.providers, ∃ row,
      st'.providers = st.providers.map (fun q => if q.id = i then row else q) ∧
      row.code = p.code ∧ (row.configEnc = p.configEnc ∧ st'.audits = st.audits ∨
        ∃ config, Stored env st st' row config p.configEnc) := by
  rw [ConfigStore.updateProvider] at h
  split at h
  · cases h
  next p hfind =>
    obtain ⟨privileged, hvalid, h⟩ := bind_eq_ok.mp h
    dsimp only at h
    split_ifs at h
    obtain ⟨-, rfl⟩ := Prod.mk.inj (Except.ok.inj h)
    refine ⟨p, List.mem_of_find?_eq_some hfind, _, rfl, rfl, ?_⟩
    cases hdata : data.config with
    | none =>
        rw [hdata, ConfigStore.privilegedOf] at hvalid
        obtain rfl := Except.ok.inj hvalid
        exact .inl ⟨rfl, rfl⟩
    | some config =>
        rw [hdata, ConfigStore.privilegedOf] at hvalid
        exact .inr ⟨config, ⟨_, rfl⟩, user, privileged, hvalid, rfl⟩

theorem audited_of_through (h : LoginThrough env db now (i, db'))
    (hlists : ListsAudited env db.config) {row : UserRole} (hrow : row ∈ db'.accounts.userRoles) :
    row ∈ db.accounts.userRoles ∨ ∃ r ∈ db.accounts.roles, r.id = row.roleId ∧
      (ConfigStore.isPrivileged env.config r.code = true →
        ∃ p ∈ db.config.providers, Audited db.config.audits p.code r.code) := by
  obtain ⟨p, hp, mapValue, profile, hcodes, hlogin⟩ := h
  rcases externalLogin_bindsPermitted hlogin row hrow with hrow | ⟨r, hr, hid, hpermitted | hplain⟩
  · exact .inl hrow
  · refine .inr ⟨r, hr, hid, fun hpriv => ⟨p, hp, hlists p hp r.code ?_ hpriv⟩⟩
    rw [listed, ← hcodes]
    exact hpermitted
  · refine .inr ⟨r, hr, hid, fun hpriv => ?_⟩
    rw [hplain] at hpriv
    cases hpriv

/-! ### Histories -/

theorem ListAudited.mono {audits audits' : List ProviderAudit} {p : ProviderRow}
    (h : ListAudited env audits p) (hsub : audits ⊆ audits') : ListAudited env audits' p :=
  fun code hcode hpriv => (h code hcode hpriv).mono hsub

theorem listsAudited_createProvider {st st' : ConfigStore} {user : Principal} {enabled : Bool}
    {data : ProviderCreate} {out : ProviderOut} (hlong : LongCodes env)
    (hlists : ListsAudited env st)
    (h : st.createProvider env.config user enabled i now data = .ok (out, st')) :
    ListsAudited env st' := by
  obtain ⟨row, hproviders, hstored⟩ := createProvider_returns h
  intro p hp
  rw [hproviders] at hp
  rcases List.mem_append.mp hp with hp | hp
  · exact (hlists p hp).mono hstored.subset
  · rw [List.mem_singleton.mp hp]
    exact hstored.listAudited hlong fun code hcode => by cases hcode

theorem listsAudited_updateProvider {st st' : ConfigStore} {user : Principal}
    {data : ProviderUpdate} {out : ProviderOut} (hlong : LongCodes env)
    (hlists : ListsAudited env st)
    (h : st.updateProvider env.config user i data = .ok (out, st')) : ListsAudited env st' := by
  obtain ⟨p, hp, row, hproviders, hcode, hrow⟩ := updateProvider_returns h
  have hnew : st.audits ⊆ st'.audits ∧ ListAudited env st'.audits row := by
    rcases hrow with ⟨hconfig, haudits⟩ | ⟨config, hstored⟩
    · rw [haudits]
      refine ⟨List.Subset.refl _, fun code hlisted => ?_⟩
      rw [listed, decryptConfig, hconfig] at hlisted
      rw [hcode]
      exact hlists p hp code hlisted
    · refine ⟨hstored.subset, hstored.listAudited hlong fun code hlisted => ?_⟩
      rw [hcode]
      exact hlists p hp code hlisted
  intro q hq
  rw [hproviders] at hq
  obtain ⟨q', hq', rfl⟩ := List.mem_map.mp hq
  split_ifs
  · exact hnew.2
  · exact (hlists q' hq').mono hnew.1

theorem listsAudited_configured {result : Except PyErr (ProviderOut × ConfigStore)}
    (hlists : ListsAudited env db.config)
    (h : ∀ out st, result = .ok (out, st) → ListsAudited env st) :
    ListsAudited env (db.configured result).config := by
  cases result with
  | error e => exact hlists
  | ok r => exact h r.1 r.2 rfl

theorem config_loggedIn {result : Except PyErr (ℕ × IdentityDb)}
    (h : ∀ r, result = .ok r → LoginThrough env db now r) :
    (db.loggedIn result).config = db.config := by
  cases result with
  | error e => rfl
  | ok r => rw [loggedIn, (h r rfl).eq_accounts]

theorem listsAudited_apply (hlong : LongCodes env) (hlists : ListsAudited env db.config) (op : Op) :
    ListsAudited env (db.apply env op).config := by
  cases op with
  | account call => exact hlists
  | createProvider user id now data =>
      rw [apply]
      split
      · exact hlists
      · exact listsAudited_configured hlists fun out st =>
          listsAudited_createProvider hlong (show ListsAudited env db.configNow from hlists)
  | updateProvider user providerId data =>
      exact listsAudited_configured hlists fun out st =>
        listsAudited_updateProvider hlong (show ListsAudited env db.configNow from hlists)
  | deleteProvider providerId =>
      rw [apply, deleteProvider]
      split_ifs
      · exact fun p hp => hlists p (List.mem_filter.mp hp).1
      · exact hlists
  | setProviderStatus providerId enabled =>
      rw [apply, setProviderStatus]
      split_ifs
      · intro p hp
        obtain ⟨q, hq, rfl⟩ := List.mem_map.mp hp
        split_ifs
        · exact hlists q hq
        · exact hlists q hq
      · exact hlists
  | setRule key value => exact hlists
  | ldapLogin username password now =>
      rw [apply, config_loggedIn fun r => ldapLogin_through]
      exact hlists
  | authorize code platformUri state now =>
      rw [apply, authorize]
      split
      · exact hlists
      · exact hlists
  | oauthCallback code authCode state now =>
      rcases oauthCallback_cases env db code authCode state now with
        ⟨e, -, hraise⟩ | ⟨p, -, hdrop, hlogin⟩
      · rw [apply, hraise]
        exact hlists
      · rw [apply, hdrop, config_loggedIn hlogin]
        exact hlists

/-- The roles that a call may bind: those that were bound, and roles that are audited if they are
privileged. -/
theorem loggedIn_audited {result : Except PyErr (ℕ × IdentityDb)}
    (hlists : ListsAudited env db.config)
    (h : ∀ r, result = .ok r → LoginThrough env db now r) {row : UserRole}
    (hrow : row ∈ (db.loggedIn result).accounts.userRoles) :
    row ∈ db.accounts.userRoles ∨ ∃ r ∈ db.accounts.roles, r.id = row.roleId ∧
      (ConfigStore.isPrivileged env.config r.code = true →
        ∃ p ∈ db.config.providers, Audited db.config.audits p.code r.code) := by
  cases result with
  | error e => exact .inl hrow
  | ok r => exact audited_of_through (h r rfl) hlists hrow

theorem longCodes_corpEnv : LongCodes corpEnv := by
  intro c
  have hlength : (strip [c]).length ≤ 1 := by
    rw [strip, List.length_reverse]
    calc (([c].dropWhile isSpace).reverse.dropWhile isSpace).length
        ≤ ([c].dropWhile isSpace).reverse.length := (List.dropWhile_suffix _).length_le
      _ = ([c].dropWhile isSpace).length := List.length_reverse
      _ ≤ 1 := (List.dropWhile_suffix _).length_le
  refine decide_eq_false fun hmem => ?_
  have hlower : (ConfigStore.stripLower corpEnv.config (String.singleton c)).toList.length ≤ 1 := by
    simpa [ConfigStore.stripLower, corpEnv] using hlength
  generalize ConfigStore.stripLower corpEnv.config (String.singleton c) = s at hmem hlower
  simp only [List.mem_cons, List.not_mem_nil, or_false] at hmem
  rcases hmem with rfl | rfl | rfl | rfl <;> exact absurd hlower (by decide)

end IdentityDb

end LarkPlat
