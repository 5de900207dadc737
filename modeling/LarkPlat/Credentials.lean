import LarkPlat.ConfigRoundTrip
import LarkPlat.HostWrites
import LarkPlat.Machine
import LarkPlat.Table

/-!
# Credentials of Hosts

`asset_service.py`: `create_credential` and `update_credential`. A host has one credential, which is
a password, or a key with an optional passphrase. The password and the passphrase share a column,
and an update may change the type, so that what a column holds follows from all the calls before. An
empty string counts as absent.

`Ledger` keeps, beside the table, the calls that were accepted for each host. What a password, a key
and a passphrase should be is read off these calls alone.

## Main results

* `columns_match_type`: after any calls, the columns of a credential decrypt to what was accepted
  for its type, and a call that raises leaves the table as it was.
-/

namespace LarkPlat

open Machine

/-! ### The calls -/

/-- `value or None`. -/
def provided : Option String → Option String
  | none => none
  | some s => if s = "" then none else some s

/-- The columns of `host_credential` that are read. -/
structure HostCredential where
  id : ℤ
  hostId : ℤ
  type : String
  username : String
  secretEnc : Option String
  keyEnc : Option String
  keyVersion : ℕ
  updatedBy : Option ℕ
  deriving DecidableEq

/-- The credentials, with the next number of the sequence. -/
structure CredentialDb where
  credentials : List HostCredential
  nextCredential : ℤ
  deriving DecidableEq

/-- `CredentialCreate`. -/
structure CredentialCreate where
  hostId : ℤ
  type : String
  username : String
  secret : Option String
  key : Option String
  passphrase : Option String

/-- `CredentialUpdate`. -/
structure CredentialUpdate where
  type : Option String
  username : Option String
  secret : Option String
  key : Option String
  passphrase : Option String

/-- What a call finds beside the credentials: the hosts, the caller, and the nonces that it draws
for the two columns. -/
structure CredentialTurn where
  hosts : HostTable
  user : Actor
  secretNonce : ℕ
  keyNonce : ℕ

/-- The columns `secret_enc` and `key_enc`. -/
structure SecretColumns where
  secretEnc : Option String
  keyEnc : Option String

/-- What a call submits for the columns, where an empty string is absent. -/
structure Submission where
  type : Option String
  secret : Option String
  key : Option String
  passphrase : Option String

/-- The type and the secrets of a `CredentialCreate`. -/
def CredentialCreate.submission (data : CredentialCreate) : Submission :=
  ⟨provided (some data.type), provided data.secret, provided data.key, provided data.passphrase⟩

/-- The type and the secrets of a `CredentialUpdate`. -/
def CredentialUpdate.submission (data : CredentialUpdate) : Submission :=
  ⟨provided data.type, provided data.secret, provided data.key, provided data.passphrase⟩

/-- The types that `create_credential` and `update_credential` accept. -/
def Supported (type : String) : Prop := type = "password" ∨ type = "key"

instance (type : String) : Decidable (Supported type) := inferInstanceAs (Decidable (_ ∨ _))

section

variable (vault : Vault) (turn : CredentialTurn)

/-- The columns of a new credential. -/
def newColumns (type : String) (data : Submission) : Except PyErr SecretColumns :=
  if type = "password" then
    match data.secret with
    | none => .error (.badRequest "secret required for password credential")
    | some secret =>
        if data.key.isSome then
          .error (.badRequest "key not allowed for password credential")
        else if data.passphrase.isSome then
          .error (.badRequest "passphrase not allowed for password credential")
        else .ok ⟨some (vault.encryptSecret turn.secretNonce secret), none⟩
  else
    match data.key with
    | none => .error (.badRequest "key required for key credential")
    | some key =>
        if data.secret.isSome then .error (.badRequest "secret not allowed for key credential")
        else .ok ⟨data.passphrase.map (vault.encryptSecret turn.secretNonce),
          some (vault.encryptSecret turn.keyNonce key)⟩

/-- The fields that the type does not take. -/
def rejectFields (type : String) (data : Submission) : Except PyErr Unit :=
  if type = "password" then
    if data.passphrase.isSome then
      .error (.badRequest "passphrase not allowed for password credential")
    else if data.key.isSome then .error (.badRequest "key not allowed for password credential")
    else .ok ()
  else if data.secret.isSome then .error (.badRequest "secret not allowed for key credential")
  else .ok ()

/-- The columns of a credential that has changed its type. -/
def switchedColumns (type : String) (data : Submission) : Except PyErr SecretColumns :=
  if type = "key" then
    match data.key with
    | none => .error (.badRequest "key required when switching to key credential")
    | some key => .ok ⟨data.passphrase.map (vault.encryptSecret turn.secretNonce),
        some (vault.encryptSecret turn.keyNonce key)⟩
  else
    match data.secret with
    | none => .error (.badRequest "secret required when switching to password credential")
    | some secret => .ok ⟨some (vault.encryptSecret turn.secretNonce secret), none⟩

/-- The columns of a credential that keeps its type. -/
def keptColumns (type : String) (old : SecretColumns) (data : Submission) : SecretColumns :=
  if type = "key" then
    ⟨(data.passphrase.map (vault.encryptSecret turn.secretNonce)).or old.secretEnc,
      (data.key.map (vault.encryptSecret turn.keyNonce)).or old.keyEnc⟩
  else ⟨(data.secret.map (vault.encryptSecret turn.secretNonce)).or old.secretEnc, old.keyEnc⟩

namespace CredentialDb

/-- `CredentialRepository.get`. -/
def get (db : CredentialDb) (id : ℤ) : Option HostCredential :=
  Table.find HostCredential.id db.credentials id

/-- `CredentialRepository.by_host`. -/
def byHost (db : CredentialDb) (hostId : ℤ) : Option HostCredential :=
  Table.find HostCredential.hostId db.credentials hostId

/-- `create_credential`. -/
def createCredential (db : CredentialDb) (data : CredentialCreate) :
    Except PyErr (CredentialDb × ℤ) := do
  match turn.hosts.get data.hostId with
  | none => throw (.notFound "host not found")
  | some host =>
      if turn.user.seesGroup host.groupId = false then
        throw (.forbidden "no data permission for this host")
      if (db.byHost data.hostId).isSome then
        throw (.conflict "credential already exists for this host")
      let ctype := data.submission.type.getD "password"
      if ¬ Supported ctype then throw (.badRequest "unsupported credential type")
      let columns ← newColumns vault turn ctype data.submission
      if 64 < data.username.length then throw .integrityError
      return (⟨db.credentials ++ [⟨db.nextCredential, data.hostId, ctype, data.username,
          columns.secretEnc, columns.keyEnc, 1, some turn.user.id⟩], db.nextCredential + 1⟩,
        db.nextCredential)

/-- `update_credential`. -/
def updateCredential (db : CredentialDb) (credId : ℤ) (data : CredentialUpdate) :
    Except PyErr CredentialDb := do
  match db.get credId with
  | none => throw (.notFound "credential not found")
  | some cred =>
      if (turn.hosts.get cred.hostId).any (fun host => !turn.user.seesGroup host.groupId) then
        throw (.forbidden "no data permission for this host")
      let newType := data.submission.type
      if newType.any (fun type => decide (¬ Supported type)) then
        throw (.badRequest "unsupported credential type")
      let effectiveType := newType.getD cred.type
      rejectFields effectiveType data.submission
      let columns ←
        if effectiveType ≠ cred.type then switchedColumns vault turn effectiveType data.submission
        else
          pure (keptColumns vault turn effectiveType ⟨cred.secretEnc, cred.keyEnc⟩ data.submission)
      let username := (provided data.username).getD cred.username
      if 64 < username.length then throw .integrityError
      return { db with
        credentials := Table.modify HostCredential.id db.credentials credId fun cred =>
          { cred with
            type := effectiveType
            username := username
            secretEnc := columns.secretEnc
            keyEnc := columns.keyEnc
            updatedBy := some turn.user.id } }

end CredentialDb

end

/-! ### What was accepted -/

/-- The type after the submissions, of which the last one comes first. -/
def typeOf : List Submission → String
  | [] => "password"
  | s :: before => s.type.getD (typeOf before)

/-- The last password. -/
def passwordOf (accepted : List Submission) : Option String :=
  accepted.findSome? Submission.secret

/-- The last key. -/
def keyOf (accepted : List Submission) : Option String :=
  accepted.findSome? Submission.key

/-- The last passphrase since the credential became a key. -/
def passphraseOf : List Submission → Option String
  | [] => none
  | s :: before =>
      if typeOf (s :: before) ≠ "key" then none
      else if typeOf before ≠ "key" then s.passphrase
      else s.passphrase.or (passphraseOf before)

/-- The column is null where there is no text, and decrypts to the text where there is one. -/
def Seals (vault : Vault) (column plain : Option String) : Prop :=
  column.map vault.decryptSecret = plain.map some

/-- The type and the columns match the accepted submissions. -/
def ColumnsMatch (vault : Vault) (type : String) (columns : SecretColumns)
    (accepted : List Submission) : Prop :=
  type = typeOf accepted ∧
    (type = "password" ∧ columns.keyEnc = none ∧
        (∃ p, passwordOf accepted = some p ∧ Seals vault columns.secretEnc (some p)) ∨
      type = "key" ∧ (∃ k, keyOf accepted = some k ∧ Seals vault columns.keyEnc (some k)) ∧
        Seals vault columns.secretEnc (passphraseOf accepted))

variable {vault : Vault} {turn : CredentialTurn} {db db' : CredentialDb} {cred : HostCredential}
  {s : Submission} {before : List Submission} {type : String} {columns old : SecretColumns}
  {p k : String} {n m : ℕ}

theorem passwordOf_cons : passwordOf (s :: before) = s.secret.or (passwordOf before) := by
  rw [passwordOf, List.findSome?_cons]
  cases s.secret <;> rfl

theorem keyOf_cons : keyOf (s :: before) = s.key.or (keyOf before) := by
  rw [keyOf, List.findSome?_cons]
  cases s.key <;> rfl

theorem passphraseOf_kept (htype : typeOf (s :: before) = "key") (hbefore : typeOf before = "key") :
    passphraseOf (s :: before) = s.passphrase.or (passphraseOf before) := by
  rw [passphraseOf, if_neg (not_not.mpr htype), if_neg (not_not.mpr hbefore)]

/-- A submission that makes a key of a password leaves no passphrase but its own. -/
theorem passphraseOf_switched (htype : typeOf (s :: before) = "key")
    (hbefore : typeOf before ≠ "key") : passphraseOf (s :: before) = s.passphrase := by
  rw [passphraseOf, if_neg (not_not.mpr htype), if_pos hbefore]

/-! ### Columns -/

section

variable (hvault : ∀ n plain, vault.decryptSecret (vault.encryptSecret n plain) = some plain)

include hvault

theorem seals_encrypt (n : ℕ) (plain : Option String) :
    Seals vault (plain.map (vault.encryptSecret n)) plain := by
  cases plain with
  | none => rfl
  | some plain => exact congrArg some (hvault n plain)

theorem seals_or {column plain : Option String} (h : Seals vault column plain) (n : ℕ)
    (submitted : Option String) :
    Seals vault ((submitted.map (vault.encryptSecret n)).or column) (submitted.or plain) := by
  cases submitted with
  | none => exact h
  | some submitted => exact seals_encrypt hvault n (some submitted)

theorem matches_password (htype : typeOf (s :: before) = "password") (hp : s.secret = some p) :
    ColumnsMatch vault "password" ⟨some (vault.encryptSecret n p), none⟩ (s :: before) := by
  refine ⟨htype.symm, .inl ⟨rfl, rfl, p, ?_, seals_encrypt hvault n (some p)⟩⟩
  rw [passwordOf_cons, hp, Option.some_or]

theorem matches_key (htype : typeOf (s :: before) = "key") (hbefore : typeOf before ≠ "key")
    (hk : s.key = some k) :
    ColumnsMatch vault "key"
      ⟨s.passphrase.map (vault.encryptSecret n), some (vault.encryptSecret m k)⟩ (s :: before) := by
  refine ⟨htype.symm, .inr ⟨rfl, ⟨k, ?_, seals_encrypt hvault m (some k)⟩, ?_⟩⟩
  · rw [keyOf_cons, hk, Option.some_or]
  · rw [passphraseOf_switched htype hbefore]
    exact seals_encrypt hvault n s.passphrase

theorem matches_new (htype : Supported type) (hs : s.type.getD "password" = type)
    (hok : newColumns vault turn type s = .ok columns) : ColumnsMatch vault type columns [s] := by
  rw [newColumns] at hok
  rcases htype with rfl | rfl
  · rw [if_pos rfl] at hok
    cases hp : s.secret with
    | none => simp [hp] at hok
    | some p =>
        simp only [hp] at hok
        split_ifs at hok
        cases hok
        exact matches_password hvault hs hp
  · rw [if_neg (by decide)] at hok
    cases hk : s.key with
    | none => simp [hk] at hok
    | some k =>
        simp only [hk] at hok
        split_ifs at hok
        cases hok
        exact matches_key hvault hs (by decide) hk

theorem matches_switched (htype : Supported type) (hs : typeOf (s :: before) = type)
    (hbefore : type ≠ typeOf before) (hok : switchedColumns vault turn type s = .ok columns) :
    ColumnsMatch vault type columns (s :: before) := by
  rw [switchedColumns] at hok
  rcases htype with rfl | rfl
  · rw [if_neg (by decide)] at hok
    cases hp : s.secret with
    | none => simp [hp] at hok
    | some p =>
        simp only [hp] at hok
        cases hok
        exact matches_password hvault hs hp
  · rw [if_pos rfl] at hok
    cases hk : s.key with
    | none => simp [hk] at hok
    | some k =>
        simp only [hk] at hok
        cases hok
        exact matches_key hvault hs hbefore.symm hk

/-- What is submitted to a credential that keeps its type replaces what is there. -/
theorem matches_kept (h : ColumnsMatch vault type old before) (hs : typeOf (s :: before) = type) :
    ColumnsMatch vault type (keptColumns vault turn type old s) (s :: before) := by
  obtain ⟨hbefore, ⟨rfl, hkey, p, hp, hsecret⟩ | ⟨rfl, ⟨k, hk, hkey⟩, hsecret⟩⟩ := h
  · rw [keptColumns, if_neg (by decide)]
    have hseals := seals_or hvault hsecret turn.secretNonce s.secret
    rw [Option.or_some] at hseals
    refine ⟨hs.symm, .inl ⟨rfl, hkey, s.secret.getD p, ?_, hseals⟩⟩
    rw [passwordOf_cons, hp, Option.or_some]
  · rw [keptColumns, if_pos rfl]
    have hseals := seals_or hvault hkey turn.keyNonce s.key
    rw [Option.or_some] at hseals
    refine ⟨hs.symm, .inr ⟨rfl, ⟨s.key.getD k, ?_, hseals⟩, ?_⟩⟩
    · rw [keyOf_cons, hk, Option.or_some]
    · rw [passphraseOf_kept hs hbefore.symm]
      exact seals_or hvault hsecret turn.secretNonce s.passphrase

end

/-! ### What the calls write -/

/-- What a successful `create_credential` has checked, and its new row. -/
theorem createCredential_ok {data : CredentialCreate} {id : ℤ}
    (hok : CredentialDb.createCredential vault turn db data = .ok (db', id)) :
    db.byHost data.hostId = none ∧ ∃ columns username by',
      Supported (data.submission.type.getD "password") ∧
      newColumns vault turn (data.submission.type.getD "password") data.submission = .ok columns ∧
      db' = ⟨db.credentials ++ [⟨db.nextCredential, data.hostId,
        data.submission.type.getD "password", username, columns.secretEnc, columns.keyEnc, 1, by'⟩],
        db.nextCredential + 1⟩ := by
  rw [CredentialDb.createCredential] at hok
  split at hok
  · cases hok
  next host _ =>
    dsimp only at hok
    split at hok
    · exact absurd hok (throw_bind_ne_ok _ _ _)
    · split at hok
      · exact absurd hok (throw_bind_ne_ok _ _ _)
      next hnone =>
        split at hok
        · exact absurd hok (throw_bind_ne_ok _ _ _)
        next htype =>
          obtain ⟨columns, hcolumns, hok⟩ := bind_eq_ok.mp hok
          split at hok
          · exact absurd hok (throw_bind_ne_ok _ _ _)
          · cases hok
            exact ⟨by simpa using hnone, columns, _, _, not_not.mp htype, hcolumns, rfl⟩

/-- What a successful `update_credential` has checked, and the row that it writes. -/
theorem updateCredential_ok {credId : ℤ} {data : CredentialUpdate}
    (hok : CredentialDb.updateCredential vault turn db credId data = .ok db') :
    ∃ cred columns username by', db.get credId = some cred ∧
      (∀ type, data.submission.type = some type → Supported type) ∧
      (data.submission.type.getD cred.type ≠ cred.type ∧
          switchedColumns vault turn (data.submission.type.getD cred.type) data.submission =
            .ok columns ∨
        data.submission.type.getD cred.type = cred.type ∧
          columns = keptColumns vault turn (data.submission.type.getD cred.type)
            ⟨cred.secretEnc, cred.keyEnc⟩ data.submission) ∧
      db' = { db with
        credentials := Table.modify HostCredential.id db.credentials credId fun cred' =>
          { cred' with
            type := data.submission.type.getD cred.type
            username := username
            secretEnc := columns.secretEnc
            keyEnc := columns.keyEnc
            updatedBy := by' } } := by
  rw [CredentialDb.updateCredential] at hok
  split at hok
  · cases hok
  next cred hget =>
    dsimp only at hok
    split at hok
    · exact absurd hok (throw_bind_ne_ok _ _ _)
    · split at hok
      · exact absurd hok (throw_bind_ne_ok _ _ _)
      next htype =>
        obtain ⟨_, -, hok⟩ := bind_eq_ok.mp hok
        have hsupported : ∀ type, data.submission.type = some type → Supported type := by
          intro type hsome
          by_contra hnot
          exact htype (by simp [hsome, hnot])
        split at hok
        next hne =>
          obtain ⟨columns, hcolumns, hok⟩ := bind_eq_ok.mp hok
          split at hok
          · exact absurd hok (throw_bind_ne_ok _ _ _)
          · cases hok
            exact ⟨cred, columns, _, _, hget, hsupported, .inl ⟨hne, hcolumns⟩, rfl⟩
        next heq =>
          obtain ⟨columns, hcolumns, hok⟩ := bind_eq_ok.mp hok
          split at hok
          · exact absurd hok (throw_bind_ne_ok _ _ _)
          · cases hok
            exact ⟨cred, columns, _, _, hget, hsupported,
              .inr ⟨not_not.mp heq, (Except.ok.inj hcolumns).symm⟩, rfl⟩

/-! ### Runs -/

/-- A call, which may raise. -/
inductive CredentialOp
  | create (turn : CredentialTurn) (data : CredentialCreate)
  | update (turn : CredentialTurn) (credId : ℤ) (data : CredentialUpdate)

namespace CredentialOp

/-- The table after the call. -/
def call (vault : Vault) (db : CredentialDb) : CredentialOp → Except PyErr CredentialDb
  | create turn data => (db.createCredential vault turn data).map Prod.fst
  | update turn credId data => db.updateCredential vault turn credId data

/-- The host that the call is about, and what it submits. -/
def submits (db : CredentialDb) : CredentialOp → Option (ℤ × Submission)
  | create _ data => some (data.hostId, data.submission)
  | update _ credId data => (db.get credId).map fun cred => (cred.hostId, data.submission)

end CredentialOp

/-- The table, and the submissions that were accepted for each host, of which the last one comes
first. -/
structure Ledger where
  db : CredentialDb
  accepted : ℤ → List Submission

namespace Ledger

/-- No call was made. -/
def empty : Ledger := ⟨⟨[], 1⟩, fun _ => []⟩

/-- The submission is noted. -/
def note (accepted : ℤ → List Submission) : Option (ℤ × Submission) → ℤ → List Submission
  | none => accepted
  | some (hostId, s) => Function.update accepted hostId (s :: accepted hostId)

/-- One call. A call that raises is rolled back. -/
def apply (vault : Vault) (l : Ledger) (op : CredentialOp) : Ledger :=
  match op.call vault l.db with
  | .ok db' => ⟨db', note l.accepted (op.submits l.db)⟩
  | .error _ => l

/-- The credentials have keys of their own and match what was accepted for their hosts, and nothing
was accepted for a host without a credential. -/
structure Sound (vault : Vault) (l : Ledger) : Prop where
  keyed : (l.db.credentials.map HostCredential.id).Nodup
  below : ∀ cred ∈ l.db.credentials, cred.id < l.db.nextCredential
  hosts : (l.db.credentials.map HostCredential.hostId).Nodup
  columns : ∀ cred ∈ l.db.credentials,
    ColumnsMatch vault cred.type ⟨cred.secretEnc, cred.keyEnc⟩ (l.accepted cred.hostId)
  rest : ∀ hostId, hostId ∉ l.db.credentials.map HostCredential.hostId → l.accepted hostId = []

variable {l : Ledger}

theorem note_self (accepted : ℤ → List Submission) (hostId : ℤ) (s : Submission) :
    note accepted (some (hostId, s)) hostId = s :: accepted hostId :=
  Function.update_self ..

theorem note_ne (accepted : ℤ → List Submission) {hostId hostId' : ℤ} (hne : hostId' ≠ hostId)
    (s : Submission) : note accepted (some (hostId, s)) hostId' = accepted hostId' :=
  Function.update_of_ne hne ..

theorem sound_empty : Sound vault empty :=
  ⟨List.nodup_nil, fun _ h => absurd h List.not_mem_nil, List.nodup_nil,
    fun _ h => absurd h List.not_mem_nil, fun _ _ => rfl⟩

section

variable (hvault : ∀ n plain, vault.decryptSecret (vault.encryptSecret n plain) = some plain)

include hvault

theorem sound_create (h : l.Sound vault) {data : CredentialCreate} {id : ℤ}
    (hok : l.db.createCredential vault turn data = .ok (db', id)) :
    Sound vault ⟨db', note l.accepted (some (data.hostId, data.submission))⟩ := by
  obtain ⟨hnone, columns, username, by', htype, hcolumns, rfl⟩ := createCredential_ok hok
  have hfresh : data.hostId ∉ l.db.credentials.map HostCredential.hostId :=
    Table.find_eq_none_iff.mp hnone
  refine ⟨?_, ?_, ?_, ?_, ?_⟩
  · exact Table.nodup_concat h.keyed (Table.new_of_below h.below)
  · exact Table.below_concat h.below rfl (Int.lt_succ _)
  · exact Table.nodup_concat h.hosts hfresh
  · intro cred hcred
    rcases List.mem_append.mp hcred with hcred | hcred
    · have hne : cred.hostId ≠ data.hostId := fun heq =>
        hfresh (heq ▸ List.mem_map_of_mem hcred)
      dsimp only
      rw [note_ne _ hne]
      exact h.columns cred hcred
    · rw [List.mem_singleton.mp hcred]
      dsimp only
      rw [note_self, h.rest _ hfresh]
      exact matches_new hvault htype rfl hcolumns
  · intro hostId hnot
    rw [List.map_append, List.mem_append, not_or] at hnot
    have hne : hostId ≠ data.hostId := fun heq => hnot.2 (List.mem_singleton.mpr heq)
    dsimp only
    rw [note_ne _ hne]
    exact h.rest hostId hnot.1

/-- The columns that an update leaves match the submissions with the new one. -/
theorem matches_updated {cred : HostCredential} {data : CredentialUpdate} {columns : SecretColumns}
    {before : List Submission}
    (hold : ColumnsMatch vault cred.type ⟨cred.secretEnc, cred.keyEnc⟩ before)
    (htype : ∀ type, data.submission.type = some type → Supported type)
    (hcolumns : data.submission.type.getD cred.type ≠ cred.type ∧
        switchedColumns vault turn (data.submission.type.getD cred.type) data.submission =
          .ok columns ∨
      data.submission.type.getD cred.type = cred.type ∧
        columns = keptColumns vault turn (data.submission.type.getD cred.type)
          ⟨cred.secretEnc, cred.keyEnc⟩ data.submission) :
    ColumnsMatch vault (data.submission.type.getD cred.type) columns
      (data.submission :: before) := by
  have hs : typeOf (data.submission :: before) = data.submission.type.getD cred.type := by
    rw [typeOf, hold.1]
  rcases hcolumns with ⟨hne, hok⟩ | ⟨heq, rfl⟩
  · refine matches_switched hvault ?_ hs (fun heq => hne (heq.trans hold.1.symm)) hok
    cases hsubmitted : data.submission.type with
    | none => exact absurd (by rw [hsubmitted]; rfl) hne
    | some type => exact htype type hsubmitted
  · rw [heq] at hs ⊢
    exact matches_kept hvault hold hs

theorem sound_update (h : l.Sound vault) {credId : ℤ} {data : CredentialUpdate}
    (hok : l.db.updateCredential vault turn credId data = .ok db') :
    Sound vault ⟨db', note l.accepted
      ((l.db.get credId).map fun cred => (cred.hostId, data.submission))⟩ := by
  obtain ⟨cred, columns, username, by', hget, htype, hcolumns, rfl⟩ := updateCredential_ok hok
  have hmem : cred ∈ l.db.credentials := Table.mem_of_find hget
  rw [hget, Option.map_some]
  have hmatches := matches_updated hvault (h.columns cred hmem) htype hcolumns
  refine ⟨?_, ?_, ?_, ?_, ?_⟩
  · dsimp only
    rw [Table.map_key_modify]
    · exact h.keyed
    · exact fun _ hr => hr
  · intro r hr
    rcases Table.mem_modify.mp hr with ⟨r₀, hr₀, -, rfl⟩ | ⟨hr, -⟩
    · exact h.below r₀ hr₀
    · exact h.below r hr
  · dsimp only
    rw [Table.map_modify]
    · exact h.hosts
    · exact fun _ _ => rfl
  · intro r hr
    dsimp only
    rcases Table.mem_modify.mp hr with ⟨r₀, hr₀, hid, rfl⟩ | ⟨hr, hid⟩
    · have hsame : some r₀ = some cred := by
        rw [← hget, ← hid]
        exact (Table.find_of_mem h.keyed hr₀).symm
      obtain rfl := Option.some.inj hsame
      rw [note_self]
      exact hmatches
    · have hne : r.hostId ≠ cred.hostId := by
        intro heq
        obtain rfl := List.inj_on_of_nodup_map h.hosts hr hmem heq
        exact hid (Table.key_of_find hget)
      rw [note_ne _ hne]
      exact h.columns r hr
  · intro hostId hnot
    dsimp only at hnot
    rw [Table.map_modify] at hnot
    swap
    · exact fun _ _ => rfl
    have hne : hostId ≠ cred.hostId := fun heq => hnot (heq ▸ List.mem_map_of_mem hmem)
    dsimp only
    rw [note_ne _ hne]
    exact h.rest hostId hnot

theorem sound_apply (h : l.Sound vault) (op : CredentialOp) : (l.apply vault op).Sound vault := by
  rw [apply]
  split
  next db' hok =>
    cases op with
    | create turn data =>
        rw [CredentialOp.call] at hok
        cases hcreate : l.db.createCredential vault turn data with
        | error e =>
            rw [hcreate] at hok
            cases hok
        | ok result =>
            rw [hcreate] at hok
            cases hok
            exact sound_create hvault h hcreate
    | update turn credId data => exact sound_update hvault h hok
  · exact h

end

/-- **Columns match the type.** After any calls, a password has no key and its secret decrypts to
the last password that was accepted for its host; a key decrypts to the last key that was accepted,
and its secret is null or decrypts to the last passphrase since it became a key. A call that raises
leaves the table as it was. -/
theorem columns_match_type (vault : Vault)
    (hvault : ∀ n plain, vault.decryptSecret (vault.encryptSecret n plain) = some plain)
    (ops : List CredentialOp) :
    (∀ cred ∈ (run (apply vault) empty ops).db.credentials,
        ColumnsMatch vault cred.type ⟨cred.secretEnc, cred.keyEnc⟩
          ((run (apply vault) empty ops).accepted cred.hostId)) ∧
      ∀ op e, op.call vault (run (apply vault) empty ops).db = .error e →
        (run (apply vault) empty (ops ++ [op])).db = (run (apply vault) empty ops).db := by
  constructor
  · exact (run_invariant (P := Sound vault) (fun _ op h => sound_apply hvault h op) sound_empty
      ops).columns
  · intro op e hraise
    rw [run_append, run_cons, run_nil, apply, hraise]

/-- A call of an administrator. -/
def adminTurn : CredentialTurn := ⟨groupOneTable, ⟨1, true, [], fun _ => true⟩, 0, 1⟩

/-- A password becomes a key with a passphrase, then the key is replaced, and a password is
refused. -/
def switches : List CredentialOp :=
  [.create adminTurn ⟨5, "", "root", some "hunter2", some "", none⟩,
    .update adminTurn 1 ⟨some "key", none, none, some "key-1", some "open"⟩,
    .update adminTurn 1 ⟨none, none, some "", some "key-2", some ""⟩,
    .update adminTurn 1 ⟨none, none, some "hunter3", none, none⟩]

/-- The key is the last one, and the passphrase is kept. -/
theorem switches_match :
    (run (apply clearVault) empty switches).db.credentials =
        [⟨1, 5, "key", "root", some "v1:open", some "v1:key-2", 1, some 1⟩] ∧
      ∀ cred ∈ (run (apply clearVault) empty switches).db.credentials,
        ColumnsMatch clearVault cred.type ⟨cred.secretEnc, cred.keyEnc⟩
          ((run (apply clearVault) empty switches).accepted cred.hostId) :=
  ⟨by decide, (columns_match_type clearVault clearVault_inverts switches).1⟩

end Ledger

end LarkPlat
