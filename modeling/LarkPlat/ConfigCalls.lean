import LarkPlat.ConfigSecrets
import LarkPlat.Events

/-!
# The Calls that Store Configurations

Adapters of the monitor and identity providers are created and updated by calls of their services. A
call checks the caller and the data, encodes the configuration, writes the row at its commit and
answers with the row, the configuration masked. The numbers of the draws for the nonces go on from
call to call. The configuration of a provider is stored as a JSON text; the model keeps the
dictionary that the text denotes.
-/

namespace LarkPlat

/-! ### Rows and requests -/

/-- `CurrentUser`, with `has_perm`. -/
structure Principal where
  id : ℕ
  isAdmin : Bool
  permissions : List String

/-- `CurrentUser.require_perm`. -/
def Principal.requirePerm (user : Principal) (code : String) : Except PyErr Unit :=
  if user.isAdmin = true ∨ code ∈ user.permissions then .ok ()
  else .error (.forbidden ("permission denied: " ++ code))

/-- `mon_adapter`. -/
structure AdapterRow where
  id : ℕ
  type : String
  name : String
  endpoint : String
  config : Option (List (String × Json))
  enabled : ℤ
  status : String
  errorMessage : Option String
  lastHeartbeat : Option ℚ
  metricsReceivedCount : ℕ
  createdBy : Option ℕ
  createdAt : ℚ

/-- `MonAdapterCreate`. -/
structure AdapterCreate where
  name : String
  type : String
  endpoint : String
  config : JsonDict
  enabled : ℤ

/-- `MonAdapterUpdate`. -/
structure AdapterUpdate where
  name : Option String
  type : Option String
  endpoint : Option String
  config : Option JsonDict
  enabled : Option ℤ

/-- `auth_provider`. -/
structure ProviderRow where
  id : ℕ
  code : String
  name : String
  type : String
  configEnc : List (String × Json)
  enabled : ℤ
  createdAt : ℚ

/-- `AuthProviderCreate`. -/
structure ProviderCreate where
  name : String
  type : String
  code : Option String
  config : JsonDict
  enabled : ℤ

/-- `AuthProviderUpdate`. -/
structure ProviderUpdate where
  name : Option String
  config : Option JsonDict
  enabled : Option ℤ

/-- A row of the audit log about a provider. -/
structure ProviderAudit where
  userId : ℕ
  action : String
  providerCode : String
  roleCodes : List String

/-- What an adapter looks like to clients. -/
structure AdapterOut where
  id : ℕ
  name : String
  type : String
  endpoint : String
  configMask : List (String × Json)
  enabled : ℤ
  status : String
  lastHeartbeat : Option ℚ
  metricsReceivedCount : ℕ
  errorMsg : Option String
  createdBy : Option ℕ
  createdAt : ℚ

/-- What a provider looks like to clients. -/
structure ProviderOut where
  id : ℕ
  code : String
  name : String
  type : String
  enabled : ℤ
  configMask : List (String × Json)
  createdAt : ℚ

/-- The tables, and the number of the next draw. -/
structure ConfigStore where
  adapters : List AdapterRow
  providers : List ProviderRow
  /-- The codes of the roles. -/
  roles : List String
  audits : List ProviderAudit
  draws : ℕ

/-- What the services build on. -/
structure ConfigEnv where
  vault : Vault
  lower : String → String
  /-- The columns take the row. -/
  adapterFits : AdapterRow → Bool
  providerFits : ProviderRow → Bool

namespace ConfigStore

variable (env : ConfigEnv) (st : ConfigStore)

/-! ### Adapters -/

/-- `_VALID_ADAPTER_TYPES`. -/
def monAdapterTypes : List String := ["prometheus", "elk", "skywalking", "alertmanager", "webhook"]

/-- `_adapter_out`. -/
def adapterOut (a : AdapterRow) : AdapterOut where
  id := a.id
  name := a.name
  type := a.type
  endpoint := a.endpoint
  configMask := monitorCodec.maskFields env.vault (a.config.getD [])
  enabled := a.enabled
  status := a.status
  lastHeartbeat := a.lastHeartbeat
  metricsReceivedCount := a.metricsReceivedCount
  errorMsg := a.errorMessage
  createdBy := a.createdBy
  createdAt := a.createdAt

/-- The commit of a call: the row is taken, and its name is that of no other adapter. -/
def adapterTaken (row : AdapterRow) : Bool :=
  env.adapterFits row && st.adapters.all fun a => decide (a.name = row.name → a.id = row.id)

/-- `create_adapter`; the row gets a new id. -/
def createAdapter (user : Principal) (featureEnabled : Bool) (id : ℕ) (now : ℚ)
    (data : AdapterCreate) : Except PyErr (AdapterOut × ConfigStore) := do
  user.requirePerm "monitor:rule:add"
  if !featureEnabled then throw (.badRequest "monitor feature disabled")
  else if data.type ∉ monAdapterTypes then
    throw (.badRequest ("invalid adapter type: " ++ data.type))
  else
    let r := monitorCodec.encryptFields env.vault data.config.fields [] st.draws
    let row : AdapterRow :=
      ⟨id, data.type, data.name, data.endpoint, some r.1, data.enabled, "healthy", none, none, 0,
        some user.id, now⟩
    if st.adapterTaken env row then
      pure (adapterOut env row, { st with adapters := st.adapters ++ [row], draws := r.2 })
    else throw .integrityError

/-- The configuration of an adapter after an update. -/
def updatedConfig (codec : ConfigCodec) (data : Option JsonDict)
    (existing : List (String × Json)) : List (String × Json) × ℕ :=
  match data with
  | none => (existing, st.draws)
  | some config => codec.encryptFields env.vault config.fields existing st.draws

/-- `update_adapter`. -/
def updateAdapter (user : Principal) (adapterId : ℕ) (data : AdapterUpdate) :
    Except PyErr (AdapterOut × ConfigStore) := do
  user.requirePerm "monitor:rule:edit"
  match st.adapters.find? fun a => decide (a.id = adapterId) with
  | none => throw (.notFound "adapter not found")
  | some a =>
      let r := st.updatedConfig env monitorCodec data.config (a.config.getD [])
      let row : AdapterRow := { a with
        name := data.name.getD a.name
        type := data.type.getD a.type
        endpoint := data.endpoint.getD a.endpoint
        enabled := data.enabled.getD a.enabled
        config := data.config.elim a.config fun _ => some r.1 }
      if st.adapterTaken env row then
        pure (adapterOut env row,
          { st with
            adapters := st.adapters.map fun b => if b.id = adapterId then row else b
            draws := r.2 })
      else throw .integrityError

/-! ### Providers -/

/-- `[a-z0-9]`. -/
def isSlugChar (c : Char) : Bool := decide ('a' ≤ c ∧ c ≤ 'z') || decide ('0' ≤ c ∧ c ≤ '9')

/-- `re.sub(r"[^a-z0-9]+", "-", s)`, after a dash if `dashed`. -/
def slug (dashed : Bool) : List Char → List Char
  | [] => []
  | c :: cs =>
      if isSlugChar c then c :: slug false cs
      else if dashed then slug true cs
      else '-' :: slug true cs

/-- `s.strip("-")`. -/
def stripDashes (cs : List Char) : List Char :=
  ((cs.dropWhile fun c => decide (c = '-')).reverse.dropWhile fun c => decide (c = '-')).reverse

/-- `_CODE_RE`. -/
def isCode : List Char → Bool
  | [] => false
  | c :: cs =>
      isSlugChar c && decide (cs.length ≤ 63) &&
        cs.all fun d => isSlugChar d || decide (d = '_') || decide (d = '-')

/-- `s.strip().lower()`. -/
def stripLower (s : String) : String := env.lower (String.ofList (Json.strip s.toList))

/-- `_normalize_code`. -/
def normalizeCode (raw : Option String) (name : String) : Except PyErr String :=
  let given := stripLower env (raw.getD "")
  let candidate :=
    if given = "" then String.ofList (stripDashes (slug false (stripLower env name).toList))
    else given
  if isCode candidate.toList then .ok candidate
  else .error (.badRequest "invalid provider code (expected [a-z0-9_-], <=64)")

/-- `_is_privileged`. -/
def isPrivileged (code : String) : Bool :=
  decide (stripLower env code ∈ ["admin", "superadmin", "super_admin", "super"])

/-- A code of the list is that of a role. The database compares a code with strings only. -/
def checkRoleCode : Json → Except PyErr String
  | .str code =>
      if code ∈ st.roles then .ok code else .error (.validation ("unknown role code: " ++ code))
  | .null => .error (.validation "unknown role code: None")
  | _ => .error .typeError

/-- `_validate_role_codes`. -/
def validateRoleCodes (codes : Json) : Except PyErr (List String) :=
  if codes.truthy then do
    let items ← pyIter codes
    let found ← items.mapM st.checkRoleCode
    pure (found.filter (isPrivileged env))
  else .ok []

/-- `_provider_out`. -/
def providerOut (p : ProviderRow) : ProviderOut where
  id := p.id
  code := p.code
  name := p.name
  type := p.type
  enabled := p.enabled
  configMask := ssoCodec.maskFields env.vault p.configEnc
  createdAt := p.createdAt

/-- `_audit_privileged_grant`, if there is a privileged code. -/
def audited (user : Principal) (code : String) (privileged : List String) : List ProviderAudit :=
  if privileged = [] then st.audits
  else st.audits ++ [⟨user.id, "sso.provider.privileged_roles", code, privileged⟩]

/-- `create_provider`; the row gets a new id. -/
def createProvider (user : Principal) (featureEnabled : Bool) (id : ℕ) (now : ℚ)
    (data : ProviderCreate) : Except PyErr (ProviderOut × ConfigStore) :=
  if !featureEnabled then throw (.badRequest "sso feature disabled")
  else if data.type ∉ ["ldap", "oauth2"] then
    throw (.validation ("invalid provider type: " ++ data.type))
  else do
    let code ← normalizeCode env data.code data.name
    if st.providers.any fun p => decide (p.code = code) then
      throw (.badRequest ("provider code already exists: " ++ code))
    else do
      let privileged ← st.validateRoleCodes env (Json.field data.config.fields "default_role_codes")
      let r := ssoCodec.encryptFields env.vault data.config.fields [] st.draws
      let row : ProviderRow := ⟨id, code, data.name, data.type, r.1, data.enabled, now⟩
      if env.providerFits row then
        pure (providerOut env row,
          { st with
            providers := st.providers ++ [row]
            audits := st.audited user code privileged
            draws := r.2 })
      else throw .integrityError

/-- The privileged codes of an updated configuration. -/
def privilegedOf (data : Option JsonDict) : Except PyErr (List String) :=
  match data with
  | none => .ok []
  | some config => st.validateRoleCodes env (Json.field config.fields "default_role_codes")

/-- `update_provider`. -/
def updateProvider (user : Principal) (providerId : ℕ) (data : ProviderUpdate) :
    Except PyErr (ProviderOut × ConfigStore) :=
  match st.providers.find? fun p => decide (p.id = providerId) with
  | none => throw (.notFound "provider not found")
  | some p => do
      let privileged ← st.privilegedOf env data.config
      let r := st.updatedConfig env ssoCodec data.config p.configEnc
      let row : ProviderRow := { p with
        name := data.name.getD p.name
        enabled := data.enabled.getD p.enabled
        configEnc := r.1 }
      if env.providerFits row then
        pure (providerOut env row,
          { st with
            providers := st.providers.map fun q => if q.id = providerId then row else q
            audits := st.audited user p.code privileged
            draws := r.2 })
      else throw .integrityError

/-! ### Histories -/

/-- The calls. -/
inductive Call where
  | createAdapter (user : Principal) (featureEnabled : Bool) (id : ℕ) (now : ℚ)
      (data : AdapterCreate)
  | updateAdapter (user : Principal) (adapterId : ℕ) (data : AdapterUpdate)
  | createProvider (user : Principal) (featureEnabled : Bool) (id : ℕ) (now : ℚ)
      (data : ProviderCreate)
  | updateProvider (user : Principal) (providerId : ℕ) (data : ProviderUpdate)

/-- The tables after a call that returns or raises. -/
def settled {α : Type} (result : Except PyErr (α × ConfigStore)) : ConfigStore :=
  match result with
  | .ok r => r.2
  | .error _ => st

/-- After a call. -/
def apply (env : ConfigEnv) (st : ConfigStore) : Call → ConfigStore
  | .createAdapter user featureEnabled id now data =>
      st.settled (st.createAdapter env user featureEnabled id now data)
  | .updateAdapter user adapterId data => st.settled (st.updateAdapter env user adapterId data)
  | .createProvider user featureEnabled id now data =>
      st.settled (st.createProvider env user featureEnabled id now data)
  | .updateProvider user providerId data => st.settled (st.updateProvider env user providerId data)

end ConfigStore

end LarkPlat
