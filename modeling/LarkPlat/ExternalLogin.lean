import LarkPlat.Accounts
import LarkPlat.ConfigCalls
import LarkPlat.ExpiringKeys
import LarkPlat.Traversals

/-!
# External Logins

`sso_service.py`: users log in through LDAP directories and OAuth2 providers. A login asks the
provider who the user is, maps the answer to an account by its user name or e-mail address, makes
the account if the provider or the platform provisions accounts, and binds the default roles to a
new account. The state of an OAuth2 login is kept in Redis from the redirect to the callback.

The directory, the two HTTP calls of OAuth2 and the random texts are parameters. A call is one
step: what it writes stands if it returns, except that Redis keeps what was stored or consumed by a
call that raises later.

## Conventions

* The answer of `oauth_authorize_url` is the endpoint with the parameters; the text of the URL is
  not modelled. A login answers with the id of the user; tokens are issued in `AccessTokens`.
-/

namespace LarkPlat

open Json

/-- What the logins build on. -/
structure SsoEnv where
  config : ConfigEnv
  account : AccountEnv
  /-- The attributes of the entry that a bind and a search find; `none` where they raise. -/
  directory : List (String × Json) → String → String → Option (List (String × Json))
  /-- The JSON of the answer of a token endpoint to a form. -/
  tokenAnswer : Json → List (String × Json) → Except PyErr Json
  /-- The JSON of the answer of a userinfo endpoint to an access token. -/
  userInfo : Json → Json → Except PyErr Json
  /-- `secrets.token_urlsafe(24)` for the password of a new account. -/
  randomText : ℕ → String

/-- What is stored under the key `oauth:state:` of a login that was redirected. -/
structure OauthState where
  code : String
  redirectUri : Json

/-- The tables, the configuration rules and the states of Redis. -/
structure IdentityDb where
  accounts : AccountDb
  config : ConfigStore
  rules : List (String × Json)
  oauthStates : List (ExpiringKeys.Entry String OauthState ℚ)

/-- `profile`. -/
structure ExternalProfile where
  mapKey : Json
  email : Json
  displayName : Json
  externalId : Json
  autoProvision : Json
  defaultRoleCodes : Json
  claimRoles : Option (List String)

/-- The URL that a login is redirected to. -/
structure AuthorizeUrl where
  endpoint : Json
  params : List (String × Json)

/-- `OAUTH_STATE_TTL`. -/
def oauthStateTtl : ℚ := 300

namespace IdentityDb

variable (env : SsoEnv) (db : IdentityDb)

/-! ### Configuration rules -/

/-- `rule_value or {}`, read with `get`. -/
def ruleGet (rule : Json) (k : String) : Except PyErr Json :=
  if rule.truthy then rule.get k else .ok .null

/-- `x == 0`. -/
def isZero : Json → Bool
  | .bool b => !b
  | .int n => decide (n = 0)
  | .float q => decide (q = 0)
  | _ => false

/-- `_feature_enabled`. -/
def featureEnabled : Except PyErr Bool :=
  match db.rules.lookup "feature.sso" with
  | none => .ok true
  | some rule => (ruleGet rule "enabled").map fun v => !isZero v

/-- `_config_rule`. -/
def configRule (key : String) (default : Json) : Json :=
  match db.rules.lookup key with
  | some (.obj fields) => (fields.lookup "value").getD default
  | _ => default

/-! ### Providers -/

/-- The tables of configurations, with the codes of the roles of today. -/
def configNow : ConfigStore := { db.config with roles := db.accounts.roles.map SysRole.code }

/-- `_decrypt_config`. -/
def decryptConfig (p : ProviderRow) : List (String × Json) :=
  env.config.vault.decryptFields p.configEnc

/-- `AuthProviderRepository.list_enabled`. -/
def listEnabled : List ProviderRow :=
  (db.config.providers.filter fun p => decide (p.enabled = 1)).mergeSort
    fun a b => decide (a.id ≤ b.id)

/-- `_get_enabled_by_code`, for a provider of OAuth2. -/
def enabledByCode (code : String) : Except PyErr ProviderRow :=
  match db.config.providers.find? fun p => decide (p.code = code) with
  | none => .error (.notFound "provider not found or disabled")
  | some p =>
      if p.enabled ≠ 1 then .error (.notFound "provider not found or disabled")
      else if p.type ≠ "oauth2" then
        .error (.badRequest ("provider " ++ code ++ " is not a oauth2 provider"))
      else .ok p

/-- `delete_provider`. -/
def deleteProvider (providerId : ℕ) : Except PyErr IdentityDb :=
  if db.config.providers.any fun p => decide (p.id = providerId) then
    .ok { db with config := { db.config with
      providers := db.config.providers.filter fun p => decide (p.id ≠ providerId) } }
  else .error (.notFound "provider not found")

/-- `set_provider_status`. -/
def setProviderStatus (providerId : ℕ) (enabled : ℤ) : Except PyErr IdentityDb :=
  if db.config.providers.any fun p => decide (p.id = providerId) then
    .ok { db with config := { db.config with
      providers := db.config.providers.map fun p =>
        if p.id = providerId then { p with enabled := enabled } else p } }
  else .error (.notFound "provider not found")

/-! ### Mapping an identity -/

/-- `(x or "username").lower()`. -/
def mapKeyOf (x : Json) : Except PyErr String :=
  match pyOr x (.str "username") with
  | .str s => .ok (env.config.lower s)
  | _ => .error .attributeError

/-- `_claim_roles`. -/
def claimRoles (config attrs : List (String × Json)) : Except PyErr (Option (List String)) :=
  let claim := field config "roles_claim"
  if !claim.truthy then .ok none
  else
    match claim with
    | .str name =>
        match field attrs name with
        | .null => .ok none
        | .arr items => .ok (some (items.map pyStr))
        | raw => .ok (some [pyStr raw])
    | .arr _ | .obj _ => .error .typeError
    | _ => .ok none

/-- The text that a string column gets from a value. A missing value is no text, and lists and
dictionaries are refused by the driver. -/
def columnText : Json → Except PyErr String
  | .str s => .ok s
  | .bool b => .ok (if b then "true" else "false")
  | .int n => .ok (toString n)
  | .float q => .ok (pyStr (.float q))
  | .null => .error .integrityError
  | .arr _ | .obj _ => .error .typeError

/-- `x[:64]`. -/
def firstChars : Json → Except PyErr String
  | .str s => .ok (String.ofList (s.toList.take 64))
  | _ => .error .typeError

/-- The row of a new account, at the commit of its first login. -/
def newAccount (provider : ProviderRow) (mapValue : String) (profile : ExternalProfile) (now : ℚ) :
    Except PyErr SysUser := do
  let realName ← firstChars (pyOr profile.displayName (.str mapValue))
  let email ← columnText (pyOr profile.email .null)
  .ok { id := db.accounts.nextUser
        username := String.ofList (mapValue.toList.take 64)
        passwordHash :=
          env.account.hashPassword db.accounts.salts (env.randomText db.accounts.salts)
        realName := realName
        phone := ""
        email := email
        status := 1
        lastLoginAt := some now
        isAdmin := 0
        authSource := provider.type
        externalId := some (pyStr (pyOr profile.externalId (.str mapValue)))
        lastExternalLoginAt := some now
        deleted := 0 }

/-- The role with a code, which is compared with strings only. -/
def roleOf : Json → Except PyErr (Option SysRole)
  | .str code => .ok (db.accounts.roleByCode code)
  | .null => .ok none
  | _ => .error .typeError

/-- The code is a string. -/
def isText : Json → Bool
  | .str _ => true
  | _ => false

/-- `_is_privileged` of a code. -/
def privilegedCode : Json → Bool
  | .str code => ConfigStore.isPrivileged env.config code
  | _ => false

/-- `list(x or [])`. -/
def listOrEmpty (x : Json) : Except PyErr (List Json) :=
  if x.truthy then pyIter x else .ok []

/-- `runtime_codes`: the codes of the claims, or those of the platform. -/
def runtimeCodes (profile : ExternalProfile) : Except PyErr (List Json) :=
  match profile.claimRoles with
  | some codes => .ok (codes.map Json.str)
  | none => listOrEmpty (db.configRule "sso.default_role_codes" (.arr []))

/-- The codes whose roles a new account gets. -/
def defaultCodes (profile : ExternalProfile) : Except PyErr (List Json) :=
  if profile.defaultRoleCodes ≠ .null then listOrEmpty profile.defaultRoleCodes
  else do
    let codes ← db.runtimeCodes profile
    if codes.all isText then .ok (codes.filter fun code => !privilegedCode env code)
    else .error .attributeError

/-- `_bind_default_roles`: the roles that are bound. A role that is bound twice breaks the unique
constraint. -/
def bindDefaultRoles (profile : ExternalProfile) : Except PyErr (List SysRole) := do
  let codes ← db.defaultCodes env profile
  let roles ← codes.mapM db.roleOf
  let bound := roles.filterMap id
  if (bound.map SysRole.id).Nodup then .ok bound else .error .integrityError

/-- The account of an identity. -/
def accountOf (mapKey mapValue : String) : Option SysUser :=
  if mapKey = "email" then db.accounts.byEmail mapValue else db.accounts.byUsername mapValue

/-- Whether new identities get an account: the provider decides, or the platform. -/
def provisions (profile : ExternalProfile) : Bool :=
  if profile.autoProvision = .null then
    (db.configRule "sso.auto_provision" (.bool false)).truthy
  else profile.autoProvision.truthy

/-- The tables with a new account and its roles. -/
def withAccount (user : SysUser) (roles : List SysRole) : IdentityDb :=
  { db with accounts := { db.accounts with
      users := db.accounts.users ++ [user]
      userRoles := db.accounts.userRoles ++ roles.map fun r => ⟨user.id, r.id⟩
      nextUser := db.accounts.nextUser + 1
      salts := db.accounts.salts + 1 } }

/-- The branch of `_resolve_external_user` for an identity without an account, with the commit of
the login. -/
def provision (provider : ProviderRow) (mapValue : String) (profile : ExternalProfile) (now : ℚ) :
    Except PyErr (ℕ × IdentityDb) := do
  if !db.provisions profile then throw (.unauthorized "user not provisioned")
  else
    let user ← db.newAccount env provider mapValue profile now
    if (db.accounts.byUsername user.username).isSome ∨ env.account.userFits user = false then
      throw .integrityError
    else
      let roles ← db.bindDefaultRoles env profile
      pure (user.id, db.withAccount user roles)

/-- The row of an account after a login. -/
def relogged (provider : ProviderRow) (mapValue : String) (profile : ExternalProfile) (now : ℚ)
    (user : SysUser) : SysUser :=
  { user with
    authSource := provider.type
    externalId := some (pyStr (pyOr profile.externalId (.str mapValue)))
    lastExternalLoginAt := some now
    lastLoginAt := some now }

/-- The tables with a changed account. -/
def withChanged (userId : ℕ) (f : SysUser → SysUser) : IdentityDb :=
  { db with accounts := { db.accounts with
      users := Table.modify SysUser.id db.accounts.users userId f } }

/-- The branch for an identity with an account, with the commit of the login. -/
def relogin (provider : ProviderRow) (user : SysUser) (mapValue : String)
    (profile : ExternalProfile) (now : ℚ) : Except PyErr (ℕ × IdentityDb) :=
  if user.deleted ≠ 0 ∨ user.status ≠ 1 then throw (.unauthorized "user disabled or missing")
  else if env.account.userFits (relogged provider mapValue profile now user) then
    pure (user.id, db.withChanged user.id (relogged provider mapValue profile now))
  else throw .integrityError

/-- `_resolve_external_user` and `_finish_external_login`. -/
def externalLogin (provider : ProviderRow) (mapValue : String) (profile : ExternalProfile)
    (now : ℚ) : Except PyErr (ℕ × IdentityDb) := do
  if mapValue = "" then throw (.unauthorized "identity provider returned no subject")
  else
    let mapKey ← mapKeyOf env profile.mapKey
    match db.accountOf mapKey mapValue with
    | none => db.provision env provider mapValue profile now
    | some user => relogin env db provider user mapValue profile now

/-! ### LDAP -/

/-- `_ldap_map_value`. -/
def ldapMapValue (config attrs : List (String × Json)) (username : String) :
    Except PyErr String := do
  let mapKey ← mapKeyOf env (field config "map_key")
  if mapKey = "email" then
    pure (pyStr (pyOr (pyOr (field attrs "mail") (field attrs "email")) (.str "")))
  else
    pure (pyStr (pyOr (pyOr (field attrs "uid") (field attrs "sAMAccountName")) (.str username)))

/-- The profile of an entry of a directory. -/
def ldapProfile (config attrs : List (String × Json)) (mapValue : String)
    (claims : Option (List String)) : ExternalProfile where
  mapKey := (config.lookup "map_key").getD (.str "username")
  email := pyOr (field attrs "mail") (field attrs "email")
  displayName := pyOr (pyOr (field attrs "displayName") (field attrs "cn")) (.str mapValue)
  externalId := pyOr (pyOr (field attrs "uid") (field attrs "sAMAccountName")) (.str mapValue)
  autoProvision := field config "auto_provision"
  defaultRoleCodes := field config "default_role_codes"
  claimRoles := claims

/-- The body of the loop of `ldap_login`, after the directory has answered. -/
def ldapFinish (provider : ProviderRow) (attrs : List (String × Json)) (username : String)
    (now : ℚ) : Except PyErr (ℕ × IdentityDb) := do
  let config := decryptConfig env provider
  let mapValue ← ldapMapValue env config attrs username
  let claims ← claimRoles config attrs
  db.externalLogin env provider mapValue (ldapProfile config attrs mapValue claims) now

/-- The loop of `ldap_login`: the first directory that answers decides. -/
def ldapLoop (username password : String) (now : ℚ) :
    List ProviderRow → Except PyErr (ℕ × IdentityDb)
  | [] => throw (.unauthorized "invalid username or password")
  | p :: providers =>
      match env.directory (decryptConfig env p) username password with
      | none => ldapLoop username password now providers
      | some attrs => db.ldapFinish env p attrs username now

/-- `ldap_login`. -/
def ldapLogin (username password : String) (now : ℚ) : Except PyErr (ℕ × IdentityDb) := do
  let enabled ← db.featureEnabled
  if !enabled then throw (.badRequest "sso feature disabled")
  else
    let providers := db.listEnabled.filter fun p => decide (p.type = "ldap")
    if providers = [] then throw (.badRequest "ldap not configured")
    else db.ldapLoop env username password now providers

/-! ### OAuth2 -/

/-- `store_oauth_state`. -/
def storeState (state : String) (payload : OauthState) (expiresAt : ℚ) : IdentityDb :=
  { db with oauthStates := ExpiringKeys.setex db.oauthStates state payload expiresAt }

/-- `consume_oauth_state`: what was stored. The key is deleted by `dropState`. -/
def findState (state : String) (now : ℚ) : Option OauthState :=
  ExpiringKeys.get db.oauthStates state now

/-- The tables after a state was consumed. -/
def dropState (state : String) : IdentityDb :=
  { db with oauthStates := ExpiringKeys.delete db.oauthStates state }

/-- The answer of `oauth_authorize_url`. -/
def authorizeAnswer (config : List (String × Json)) (redirectUri : Json) (state : String) :
    Except PyErr AuthorizeUrl := do
  let clientId ← Json.index (.obj config) "client_id"
  let params := [("response_type", .str "code"), ("client_id", clientId),
    ("redirect_uri", redirectUri), ("state", .str state)]
  let scope := field config "scope"
  let endpoint ← Json.index (.obj config) "authorization_endpoint"
  let _ ← endpoint.contains "?"
  pure ⟨endpoint, if scope.truthy then params ++ [("scope", scope)] else params⟩

/-- `oauth_authorize_url`, with the redirect URI of the platform and the state that is drawn. The
state is stored before the answer is made. -/
def authorize (code platformUri state : String) (now : ℚ) :
    Except PyErr AuthorizeUrl × IdentityDb :=
  match db.enabledByCode code with
  | .error e => (.error e, db)
  | .ok p =>
      let config := decryptConfig env p
      let redirectUri := pyOr (field config "redirect_uri") (.str platformUri)
      (authorizeAnswer config redirectUri state,
        db.storeState state ⟨code, redirectUri⟩ (now + oauthStateTtl))

/-- `_oauth_exchange`. -/
def oauthExchange (config : List (String × Json)) (authCode : String) (redirectUri : Json) :
    Except PyErr Json := do
  let clientId ← Json.index (.obj config) "client_id"
  let endpoint ← Json.index (.obj config) "token_endpoint"
  let payload ← env.tokenAnswer endpoint [("grant_type", .str "authorization_code"),
    ("code", .str authCode), ("redirect_uri", redirectUri), ("client_id", clientId),
    ("client_secret", (config.lookup "client_secret").getD (.str ""))]
  let token ← payload.get "access_token"
  if token.truthy then pure token
  else throw (.unauthorized "token endpoint returned no access_token")

/-- `_oauth_profile`. -/
def oauthProfile (config : List (String × Json)) (accessToken : Json) : Except PyErr Json :=
  let url := field config "userinfo_endpoint"
  if url.truthy then env.userInfo url accessToken
  else throw (.badRequest "oauth2 provider missing userinfo_endpoint")

/-- `raw.get("data") if isinstance(raw.get("data"), dict) else raw`. -/
def oauthAttrs (raw : Json) : Except PyErr (List (String × Json)) :=
  match raw with
  | .obj fields =>
      match field fields "data" with
      | .obj data => .ok data
      | _ => .ok fields
  | _ => .error .attributeError

/-- The profile of a user of a provider. -/
def oauthProfileOf (config attrs : List (String × Json)) (mapKey mapValue : String)
    (claims : Option (List String)) : ExternalProfile where
  mapKey := .str mapKey
  email := field attrs "email"
  displayName := pyOr (pyOr (field attrs "name") (field attrs "display_name")) (.str mapValue)
  externalId := pyOr (field attrs "sub") (.str mapValue)
  autoProvision := field config "auto_provision"
  defaultRoleCodes := field config "default_role_codes"
  claimRoles := claims

/-- `oauth_callback`, after the state was consumed. -/
def oauthFinish (provider : ProviderRow) (cached : OauthState) (authCode : String) (now : ℚ) :
    Except PyErr (ℕ × IdentityDb) := do
  let config := decryptConfig env provider
  let redirectUri := pyOr (pyOr cached.redirectUri (field config "redirect_uri")) (.str "")
  let accessToken ← oauthExchange env config authCode redirectUri
  let raw ← oauthProfile env config accessToken
  let mapKey ← mapKeyOf env (field config "map_key")
  let attrs ← oauthAttrs raw
  let mapValue := pyStr (pyOr (pyOr (pyOr (field attrs mapKey) (field attrs "email"))
    (field attrs "sub")) (.str ""))
  let claims ← claimRoles config attrs
  db.externalLogin env provider mapValue (oauthProfileOf config attrs mapKey mapValue claims) now

/-- The provider of a callback that consumes its state. -/
def callbackProvider (code : String) : Except PyErr ProviderRow := do
  let enabled ← db.featureEnabled
  if !enabled then throw (.badRequest "sso feature disabled")
  else db.enabledByCode code

/-- `oauth_callback`. -/
def oauthCallback (code authCode state : String) (now : ℚ) :
    Except PyErr (ℕ × IdentityDb) × IdentityDb :=
  match db.callbackProvider code with
  | .error e => (.error e, db)
  | .ok provider =>
      let dropped := db.dropState state
      match db.findState state now with
      | none => (.error (.badRequest "invalid or expired state"), dropped)
      | some cached =>
          if cached.code ≠ code then (.error (.badRequest "invalid or expired state"), dropped)
          else (dropped.oauthFinish env provider cached authCode now, dropped)

/-! ### Logins -/

section Logins

variable {env : SsoEnv} {db : IdentityDb} {provider : ProviderRow} {code : String} {now : ℚ}
  {r : ℕ × IdentityDb}

/-- The login of an identity at a provider of the platform, with the roles that the provider
lists. -/
def LoginThrough (env : SsoEnv) (db : IdentityDb) (now : ℚ) (r : ℕ × IdentityDb) : Prop :=
  ∃ p ∈ db.config.providers, ∃ mapValue profile,
    profile.defaultRoleCodes = field (decryptConfig env p) "default_role_codes" ∧
      db.externalLogin env p mapValue profile now = .ok r

theorem ldapLoop_through {username password : String} {providers : List ProviderRow}
    (hsub : providers ⊆ db.config.providers)
    (h : db.ldapLoop env username password now providers = .ok r) : LoginThrough env db now r := by
  induction providers with
  | nil => cases h
  | cons p providers ih =>
      rw [ldapLoop] at h
      split at h
      · exact ih (List.subset_of_cons_subset hsub) h
      · obtain ⟨mapValue, -, h⟩ := bind_eq_ok.mp h
        obtain ⟨claims, -, h⟩ := bind_eq_ok.mp h
        exact ⟨p, hsub List.mem_cons_self, _, _, rfl, h⟩

theorem ldapLogin_through {username password : String}
    (h : db.ldapLogin env username password now = .ok r) : LoginThrough env db now r := by
  obtain ⟨enabled, -, h⟩ := bind_eq_ok.mp h
  dsimp only at h
  split_ifs at h
  refine ldapLoop_through (fun p hp => ?_) h
  have hp : p ∈ db.listEnabled := (List.mem_filter.mp hp).1
  exact (List.mem_filter.mp ((List.mergeSort_perm _ _).mem_iff.mp hp)).1

theorem mem_of_enabledByCode (h : db.enabledByCode code = .ok provider) :
    provider ∈ db.config.providers := by
  rw [enabledByCode] at h
  split at h
  · cases h
  next p hfind =>
    split_ifs at h
    rw [← Except.ok.inj h]
    exact List.mem_of_find?_eq_some hfind

theorem mem_of_callbackProvider (h : db.callbackProvider code = .ok provider) :
    provider ∈ db.config.providers := by
  obtain ⟨enabled, -, h⟩ := bind_eq_ok.mp h
  split_ifs at h
  exact mem_of_enabledByCode h

theorem oauthFinish_through {cached : OauthState} {authCode : String}
    (hmem : provider ∈ db.config.providers)
    (h : db.oauthFinish env provider cached authCode now = .ok r) : LoginThrough env db now r := by
  obtain ⟨accessToken, -, h⟩ := bind_eq_ok.mp h
  obtain ⟨raw, -, h⟩ := bind_eq_ok.mp h
  obtain ⟨mapKey, -, h⟩ := bind_eq_ok.mp h
  obtain ⟨attrs, -, h⟩ := bind_eq_ok.mp h
  obtain ⟨claims, -, h⟩ := bind_eq_ok.mp h
  exact ⟨provider, hmem, _, _, rfl, h⟩

/-- A callback that finds its provider consumes its state, and the login goes on from there. -/
theorem oauthCallback_cases (env : SsoEnv) (db : IdentityDb) (code authCode state : String)
    (now : ℚ) :
    (∃ e, db.callbackProvider code = .error e ∧
      db.oauthCallback env code authCode state now = (.error e, db)) ∨
    ∃ provider, db.callbackProvider code = .ok provider ∧
      (db.oauthCallback env code authCode state now).2 = db.dropState state ∧
      ∀ r, (db.oauthCallback env code authCode state now).1 = .ok r →
        LoginThrough env (db.dropState state) now r := by
  unfold oauthCallback
  cases hprovider : db.callbackProvider code with
  | error e => exact .inl ⟨e, rfl, rfl⟩
  | ok provider =>
      refine .inr ⟨provider, rfl, ?_⟩
      dsimp only
      split
      · exact ⟨rfl, nofun⟩
      · split_ifs
        · exact ⟨rfl, nofun⟩
        · exact ⟨rfl, fun r => oauthFinish_through (mem_of_callbackProvider hprovider)⟩

theorem oauthCallback_of_found {authCode state : String} {cached : OauthState}
    (hprovider : db.callbackProvider code = .ok provider)
    (hstate : db.findState state now = some cached) (hcode : cached.code = code) :
    (db.oauthCallback env code authCode state now).1 =
      (db.dropState state).oauthFinish env provider cached authCode now := by
  rw [oauthCallback, hprovider]
  simp [hstate, hcode]

/-- The roles that are bound are distinct roles of the platform with default codes. -/
theorem bindDefaultRoles_returns {profile : ExternalProfile} {roles : List SysRole}
    (h : db.bindDefaultRoles env profile = .ok roles) :
    (roles.map SysRole.id).Nodup ∧ ∀ r ∈ roles, r ∈ db.accounts.roles ∧
      ∃ codes, db.defaultCodes env profile = .ok codes ∧ .str r.code ∈ codes := by
  obtain ⟨codes, hcodes, h⟩ := bind_eq_ok.mp h
  obtain ⟨found, hfound, h⟩ := bind_eq_ok.mp h
  dsimp only at h
  split_ifs at h with hnodup
  obtain rfl := Except.ok.inj h
  refine ⟨hnodup, fun r hr => ?_⟩
  obtain ⟨_, hmem, rfl⟩ := List.mem_filterMap.mp hr
  obtain ⟨c, hc, hrole⟩ := Traversals.mem_of_mapM hfound hmem
  cases c with
  | str code =>
      have hfind := Except.ok.inj hrole
      have hkey : r.code = code := Table.key_of_find hfind
      exact ⟨Table.mem_of_find hfind, codes, hcodes, hkey ▸ hc⟩
  | null => cases Except.ok.inj hrole
  | _ => cases hrole

theorem externalLogin_cases {mapValue : String} {profile : ExternalProfile}
    (h : db.externalLogin env provider mapValue profile now = .ok r) :
    ∃ mapKey, mapKeyOf env profile.mapKey = .ok mapKey ∧
      ((∃ user roles, db.newAccount env provider mapValue profile now = .ok user ∧
          db.accounts.byUsername user.username = none ∧ env.account.userFits user = true ∧
          db.bindDefaultRoles env profile = .ok roles ∧
          r = (user.id, db.withAccount user roles)) ∨
        ∃ user, db.accountOf mapKey mapValue = some user ∧
          env.account.userFits (relogged provider mapValue profile now user) = true ∧
          r = (user.id, db.withChanged user.id (relogged provider mapValue profile now))) := by
  rw [externalLogin] at h
  split_ifs at h
  obtain ⟨mapKey, hkey, h⟩ := bind_eq_ok.mp h
  refine ⟨mapKey, hkey, ?_⟩
  split at h
  · rw [provision] at h
    split_ifs at h
    obtain ⟨user, huser, h⟩ := bind_eq_ok.mp h
    split_ifs at h with htaken
    obtain ⟨roles, hroles, h⟩ := bind_eq_ok.mp h
    simp only [not_or, Option.not_isSome_iff_eq_none, Bool.not_eq_false] at htaken
    exact .inl ⟨user, roles, huser, htaken.1, htaken.2, hroles, (Except.ok.inj h).symm⟩
  next user hfind =>
    rw [relogin] at h
    split_ifs at h with hlive hfits
    exact .inr ⟨user, hfind, hfits, (Except.ok.inj h).symm⟩

theorem LoginThrough.eq_accounts (h : LoginThrough env db now r) :
    r.2 = { db with accounts := r.2.accounts } := by
  obtain ⟨p, -, mapValue, profile, -, h⟩ := h
  obtain ⟨mapKey, -, ⟨user, roles, -, -, -, -, rfl⟩ | ⟨user, -, -, rfl⟩⟩ := externalLogin_cases h
  · rfl
  · rfl

end Logins

/-! ### Histories -/

/-- The calls. -/
inductive Op where
  | account (call : AccountDb.Call)
  | createProvider (user : Principal) (id : ℕ) (now : ℚ) (data : ProviderCreate)
  | updateProvider (user : Principal) (providerId : ℕ) (data : ProviderUpdate)
  | deleteProvider (providerId : ℕ)
  | setProviderStatus (providerId : ℕ) (enabled : ℤ)
  | setRule (key : String) (value : Json)
  | ldapLogin (username password : String) (now : ℚ)
  | authorize (code platformUri state : String) (now : ℚ)
  | oauthCallback (code authCode state : String) (now : ℚ)

/-- What a login leaves: its tables if it returns. -/
def loggedIn (db : IdentityDb) : Except PyErr (ℕ × IdentityDb) → IdentityDb
  | .ok r => r.2
  | .error _ => db

/-- What a call leaves: its tables if it returns. -/
def settled (db : IdentityDb) : Except PyErr IdentityDb → IdentityDb
  | .ok db' => db'
  | .error _ => db

/-- What a call on the providers leaves. -/
def configured (db : IdentityDb) (result : Except PyErr (ProviderOut × ConfigStore)) : IdentityDb :=
  { db with config := db.configNow.settled result }

/-- The state after a call. -/
def apply (env : SsoEnv) (db : IdentityDb) : Op → IdentityDb
  | .account call => { db with accounts := db.accounts.apply env.account call }
  | .createProvider user id now data =>
      match db.featureEnabled with
      | .error _ => db
      | .ok enabled =>
          db.configured (db.configNow.createProvider env.config user enabled id now data)
  | .updateProvider user providerId data =>
      db.configured (db.configNow.updateProvider env.config user providerId data)
  | .deleteProvider providerId => db.settled (db.deleteProvider providerId)
  | .setProviderStatus providerId enabled => db.settled (db.setProviderStatus providerId enabled)
  | .setRule key value => { db with rules := Json.setField db.rules key value }
  | .ldapLogin username password now => db.loggedIn (db.ldapLogin env username password now)
  | .authorize code platformUri state now => (db.authorize env code platformUri state now).2
  | .oauthCallback code authCode state now =>
      let r := db.oauthCallback env code authCode state now
      r.2.loggedIn r.1

/-! ### Example -/

/-- A platform whose provider knows one user. -/
def corpEnv : SsoEnv where
  config :=
    { vault := ⟨fun n _ => toString n, fun _ => none⟩
      lower := fun s => String.ofList (s.toList.map Char.toLower)
      adapterFits := fun _ => true
      providerFits := fun _ => true }
  account :=
    { hashPassword := fun n _ => toString n
      verifyPassword := fun _ _ => false
      userFits := fun u => decide (u.username.length ≤ 64)
      roleFits := fun _ => true }
  directory := fun _ _ _ => none
  tokenAnswer := fun _ _ => .ok (.obj [("access_token", .str "t")])
  userInfo := fun _ _ => .ok (.obj [("username", .str "ann"), ("email", .str "ann@corp")])
  randomText := fun n => toString n

/-- One role, and no users. -/
def corpDb : IdentityDb where
  accounts := ⟨[], [⟨1, "admin", "Administrator", ""⟩], [], [], [], [], [], 1, 2, 1, 0⟩
  config := ⟨[], [], [], [], 0⟩
  rules := []
  oauthStates := []

/-- The configuration of a provider that lists the role. -/
def corpConfig : JsonDict where
  fields := [("client_id", .str "c"), ("token_endpoint", .str "https://corp/token"),
    ("authorization_endpoint", .str "https://corp/authorize"),
    ("userinfo_endpoint", .str "https://corp/user"), ("auto_provision", .bool true),
    ("default_role_codes", .arr [.str "admin"])]
  distinct := by decide

/-- An administrator stores the provider. -/
def corpCreated : Op :=
  .createProvider ⟨1, true, []⟩ 1 0 ⟨"Corp", "oauth2", some "corp", corpConfig, 1⟩

/-- A user is redirected to the provider. -/
def corpHistory : List Op := [corpCreated, .authorize "corp" "https://lark/callback" "s" 0]

/-- The profile of the user of the provider. -/
def annProfile : ExternalProfile where
  mapKey := .str "username"
  email := .str "ann@corp"
  displayName := .str "ann"
  externalId := .str "ann"
  autoProvision := .bool true
  defaultRoleCodes := .arr [.str "admin"]
  claimRoles := none

/-- The provider, as it is stored. -/
def corpRow : ProviderRow := ⟨1, "corp", "Corp", "oauth2", corpConfig.fields, 1, 0⟩

end IdentityDb

end LarkPlat
