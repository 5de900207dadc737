import LarkPlat.ConfigSecrets

/-!
# Decoding what was Encoded

A new configuration is encoded with nothing stored before. Its decoder undoes the encoder along
dictionaries. The encoder of the monitor also encrypts the secrets in the dictionaries of a list,
and no decoder looks there.

## Main results

* `config_round_trip`: the configuration of an adapter is read back as it was submitted exactly if
  no dictionary in a list holds a secret string, and the one of an identity provider always is.
* `listed_secret_stays_encrypted`: a secret in a list of servers is read back as its ciphertext.
-/

namespace LarkPlat

open ConfigCodec

namespace ConfigCodec

variable (codec : ConfigCodec) (vault : Vault)

/-! ### Plain configurations -/

mutual

/-- No string in the dictionary starts with `enc:`, and no string under a secret key has an
asterisk. -/
def plainFields : List (String × Json) → Bool
  | [] => true
  | (key, val) :: config => plainValue (decide (key ∈ codec.secretKeys)) val && plainFields config

/-- The same of a value, which may be under a secret key. -/
def plainValue (secret : Bool) : Json → Bool
  | .str s => !decide (IsEncoded s) && !(secret && decide (IsMaskedSecret s))
  | .obj fields => plainFields fields
  | .arr items => plainItems items
  | _ => true

/-- The same of the items of a list. -/
def plainItems : List Json → Bool
  | [] => true
  | item :: items => plainValue false item && plainItems items

end

/-! ### Secrets that the encoder reaches -/

/-- A string. -/
def isStr : Json → Bool
  | .str _ => true
  | _ => false

mutual

/-- The encoder reaches a secret string in the dictionary. -/
def holdsSecret : List (String × Json) → Bool
  | [] => false
  | (key, val) :: config =>
      (decide (key ∈ codec.secretKeys) && isStr val) || valueHoldsSecret val || holdsSecret config

/-- The encoder reaches a secret string below the value. -/
def valueHoldsSecret : Json → Bool
  | .obj fields => holdsSecret fields
  | .arr items => codec.readsLists && itemsHoldSecret items
  | _ => false

/-- The encoder reaches a secret string in a dictionary of the list. -/
def itemsHoldSecret : List Json → Bool
  | [] => false
  | .obj fields :: items => holdsSecret fields || itemsHoldSecret items
  | _ :: items => itemsHoldSecret items

end

mutual

/-- The encoder reaches a secret string in a list. -/
def listsHoldSecret : List (String × Json) → Bool
  | [] => false
  | (_, val) :: config => valueListsHoldSecret val || listsHoldSecret config

/-- The encoder reaches a secret string in a list that the value is or has. -/
def valueListsHoldSecret : Json → Bool
  | .obj fields => listsHoldSecret fields
  | .arr items => codec.readsLists && codec.itemsHoldSecret items
  | _ => false

end

/-! ### The encoder with nothing stored -/

/-- What becomes of the dictionary, key by key. -/
def encryptNew : List (String × Json) → ℕ → List (String × Json)
  | [], _ => []
  | (key, val) :: config, n =>
      let r := codec.encryptValue vault key val none n
      (key, r.1) :: encryptNew config r.2

variable {codec vault}

theorem encryptFields_append {config merged : List (String × Json)} {n : ℕ}
    (hnodup : (config.map Prod.fst).Nodup)
    (hfresh : ∀ k ∈ config.map Prod.fst, k ∉ merged.map Prod.fst) :
    (codec.encryptFields vault config merged n).1 = merged ++ codec.encryptNew vault config n := by
  induction config generalizing merged n with
  | nil => rw [encryptFields, encryptNew, List.append_nil]
  | cons p config ih =>
      obtain ⟨key, val⟩ := p
      rw [List.map_cons, List.nodup_cons] at hnodup
      have hkey : key ∉ merged.map Prod.fst := hfresh key List.mem_cons_self
      rw [encryptFields, Json.lookup_eq_none_of_not_mem hkey, Json.setField_of_not_mem _ hkey,
        ih hnodup.2, encryptNew, List.append_assoc]
      · rfl
      · intro k hk
        rw [List.map_append, List.mem_append, not_or]
        refine ⟨hfresh k (List.mem_cons_of_mem _ hk), ?_⟩
        rintro hin
        obtain rfl := List.mem_singleton.mp hin
        exact hnodup.1 hk

theorem encryptFields_nil {config : List (String × Json)} {n : ℕ}
    (hnodup : (config.map Prod.fst).Nodup) :
    (codec.encryptFields vault config [] n).1 = codec.encryptNew vault config n := by
  rw [encryptFields_append hnodup (by simp), List.nil_append]

/-- What is stored for a string under a secret key is none of the strings that are submitted. -/
theorem enc_ne_of_plain {s t : String} (h : ¬ IsEncoded s) : "enc:" ++ t ≠ s := by
  rintro rfl
  exact h (isEncoded_enc t)

/-! ### What the encoder leaves as it is -/

mutual

/-- A plain dictionary is stored as it is exactly if the encoder reaches no secret string in it. -/
theorem encryptNew_eq_iff : ∀ (fields : List (String × Json)) (n : ℕ),
    Json.distinctFields fields = true → codec.plainFields fields = true →
    (codec.encryptNew vault fields n = fields ↔ codec.holdsSecret fields = false)
  | [], n, _, _ => by simp [encryptNew, holdsSecret]
  | (key, val) :: fields, n, hd, hp => by
      rw [Json.distinctFields, Bool.and_eq_true] at hd
      rw [plainFields, Bool.and_eq_true] at hp
      rw [encryptNew, List.cons.injEq, Prod.mk.injEq,
        encryptValue_eq_iff key val n hd.1 hp.1, encryptNew_eq_iff fields _ hd.2 hp.2, holdsSecret]
      simp [and_assoc]

/-- A plain value is stored as it is exactly if it is no secret string and holds none that the
encoder reaches. -/
theorem encryptValue_eq_iff (key : String) : ∀ (val : Json) (n : ℕ),
    val.distinctKeys = true →
    codec.plainValue (decide (key ∈ codec.secretKeys)) val = true →
    ((codec.encryptValue vault key val none n).1 = val ↔
      (decide (key ∈ codec.secretKeys) && isStr val) = false ∧
        codec.valueHoldsSecret val = false)
  | .str s, n, _, hp => by
      rw [plainValue, Bool.and_eq_true, Bool.not_eq_true', decide_eq_false_iff_not] at hp
      by_cases hk : key ∈ codec.secretKeys
      · have hplain : ¬ (IsEncoded s ∨ IsMaskedSecret s) := by
          simpa [hk, not_or] using hp
        rw [encryptValue, if_pos hk, if_neg hplain]
        simp [hk, isStr, enc_ne_of_plain hp.1]
      · rw [encryptValue, if_neg hk]
        simp [hk, valueHoldsSecret]
  | .obj fields, n, hd, hp => by
      rw [Json.distinctKeys, Bool.and_eq_true, decide_eq_true_eq] at hd
      rw [plainValue] at hp
      rw [encryptValue, dictOf_none, encryptFields_nil hd.1, Json.obj.injEq,
        encryptNew_eq_iff fields n hd.2 hp, valueHoldsSecret]
      simp [isStr]
  | .arr items, n, hd, hp => by
      rw [Json.distinctKeys] at hd
      rw [plainValue] at hp
      by_cases hreads : codec.readsLists = true
      · rw [encryptValue, if_pos hreads, itemsOf_none, Json.arr.injEq,
          encryptItems_eq_iff items n hd hp, valueHoldsSecret, hreads]
        simp [isStr]
      · rw [encryptValue, if_neg hreads]
        simp [isStr, valueHoldsSecret, hreads]
  | .null, n, _, _ | .bool _, n, _, _ | .int _, n, _, _ | .float _, n, _, _ => by
      simp [encryptValue, isStr, valueHoldsSecret]

/-- A plain list is stored as it is exactly if no dictionary in it holds a secret string that the
encoder reaches. -/
theorem encryptItems_eq_iff : ∀ (items : List Json) (n : ℕ),
    Json.distinctItems items = true → codec.plainItems items = true →
    ((codec.encryptItems vault items [] n).1 = items ↔ codec.itemsHoldSecret items = false)
  | [], n, _, _ => by simp [encryptItems, itemsHoldSecret]
  | .obj fields :: items, n, hd, hp => by
      rw [Json.distinctItems, Bool.and_eq_true, Json.distinctKeys, Bool.and_eq_true,
        decide_eq_true_eq] at hd
      rw [plainItems, Bool.and_eq_true, plainValue] at hp
      rw [encryptItems, List.cons.injEq, Json.obj.injEq, List.head?_nil, dictOf_none,
        encryptFields_nil hd.1.1, encryptNew_eq_iff fields n hd.1.2 hp.1, List.tail_nil,
        encryptItems_eq_iff items _ hd.2 hp.2, itemsHoldSecret]
      simp
  | .str _ :: items, n, hd, hp | .arr _ :: items, n, hd, hp | .null :: items, n, hd, hp
  | .bool _ :: items, n, hd, hp | .int _ :: items, n, hd, hp | .float _ :: items, n, hd, hp => by
      rw [Json.distinctItems, Bool.and_eq_true] at hd
      rw [plainItems, Bool.and_eq_true] at hp
      simpa [encryptItems, itemsHoldSecret] using encryptItems_eq_iff items n hd.2 hp.2

end

/-! ### Decoding -/

variable {vault : Vault}

mutual

/-- A plain dictionary is read back as it was submitted exactly if the encoder reaches no secret
string in a list. -/
theorem decryptFields_encryptNew_iff
    (hvault : ∀ n plain, vault.decryptSecret (vault.encryptSecret n plain) = some plain) :
    ∀ (fields : List (String × Json)) (n : ℕ),
    Json.distinctFields fields = true → codec.plainFields fields = true →
    (vault.decryptFields (codec.encryptNew vault fields n) = fields ↔
      codec.listsHoldSecret fields = false)
  | [], n, _, _ => by simp [encryptNew, Vault.decryptFields, listsHoldSecret]
  | (key, val) :: fields, n, hd, hp => by
      rw [Json.distinctFields, Bool.and_eq_true] at hd
      rw [plainFields, Bool.and_eq_true] at hp
      rw [encryptNew, Vault.decryptFields, List.cons.injEq, Prod.mk.injEq,
        decryptValue_encryptValue_iff hvault key val n hd.1 hp.1,
        decryptFields_encryptNew_iff hvault fields _ hd.2 hp.2, listsHoldSecret]
      simp

/-- A plain value is read back as it was submitted exactly if the encoder reaches no secret string
in a list that it is or has. -/
theorem decryptValue_encryptValue_iff
    (hvault : ∀ n plain, vault.decryptSecret (vault.encryptSecret n plain) = some plain)
    (key : String) : ∀ (val : Json) (n : ℕ), val.distinctKeys = true →
    codec.plainValue (decide (key ∈ codec.secretKeys)) val = true →
    (vault.decryptValue (codec.encryptValue vault key val none n).1 = val ↔
      codec.valueListsHoldSecret val = false)
  | .str s, n, _, hp => by
      rw [plainValue, Bool.and_eq_true, Bool.not_eq_true', decide_eq_false_iff_not] at hp
      by_cases hk : key ∈ codec.secretKeys
      · have hplain : ¬ (IsEncoded s ∨ IsMaskedSecret s) := by
          simpa [hk, not_or] using hp
        rw [encryptValue, if_pos hk, if_neg hplain, Vault.decryptValue, if_pos (isEncoded_enc _),
          payloadOf_enc, hvault]
        simp [valueListsHoldSecret]
      · rw [encryptValue, if_neg hk, Vault.decryptValue, if_neg hp.1]
        simp [valueListsHoldSecret]
  | .obj fields, n, hd, hp => by
      rw [Json.distinctKeys, Bool.and_eq_true, decide_eq_true_eq] at hd
      rw [plainValue] at hp
      rw [encryptValue, dictOf_none, encryptFields_nil hd.1, Vault.decryptValue, Json.obj.injEq,
        decryptFields_encryptNew_iff hvault fields n hd.2 hp, valueListsHoldSecret]
  | .arr items, n, hd, hp => by
      rw [Json.distinctKeys] at hd
      rw [plainValue] at hp
      -- no decoder looks into a list, so it comes back as it was stored
      by_cases hreads : codec.readsLists = true
      · rw [encryptValue, if_pos hreads, itemsOf_none, Vault.decryptValue, Json.arr.injEq,
          encryptItems_eq_iff items n hd hp, valueListsHoldSecret, hreads, Bool.true_and]
        all_goals simp
      · rw [encryptValue, if_neg hreads]
        simp [Vault.decryptValue, valueListsHoldSecret, hreads]
  | .null, n, _, _ | .bool _, n, _, _ | .int _, n, _, _ | .float _, n, _, _ => by
      simp [encryptValue, Vault.decryptValue, valueListsHoldSecret]

end

mutual

theorem listsHoldSecret_eq_false (h : codec.readsLists = false) :
    ∀ fields : List (String × Json), codec.listsHoldSecret fields = false
  | [] => by rw [listsHoldSecret]
  | (_, val) :: fields => by
      rw [listsHoldSecret, valueListsHoldSecret_eq_false h val, listsHoldSecret_eq_false h fields]
      rfl

theorem valueListsHoldSecret_eq_false (h : codec.readsLists = false) :
    ∀ val : Json, codec.valueListsHoldSecret val = false
  | .obj fields => by rw [valueListsHoldSecret, listsHoldSecret_eq_false h fields]
  | .arr items => by rw [valueListsHoldSecret, h, Bool.false_and]
  | .null | .bool _ | .int _ | .float _ | .str _ => by simp [valueListsHoldSecret]

end

/-- The configuration that is read back after it was stored for the first time. -/
def readBack (codec : ConfigCodec) (vault : Vault) (config : JsonDict) (n : ℕ) :
    List (String × Json) :=
  vault.decryptFields (codec.encryptFields vault config.fields [] n).1

theorem readBack_eq_iff
    (hvault : ∀ n plain, vault.decryptSecret (vault.encryptSecret n plain) = some plain)
    {config : JsonDict} (hp : codec.plainFields config.fields = true) (n : ℕ) :
    codec.readBack vault config n = config.fields ↔
      codec.listsHoldSecret config.fields = false := by
  have hd := config.distinct
  rw [Json.distinctKeys, Bool.and_eq_true, decide_eq_true_eq] at hd
  rw [readBack, encryptFields_nil hd.1, decryptFields_encryptNew_iff hvault _ n hd.2 hp]

end ConfigCodec

/-! ### Main result -/

/-- **The round trip of a configuration.** If `decrypt_secret` inverts `encrypt_secret`, a plain
configuration of an adapter is read back as it was submitted exactly if no dictionary in a list
holds a secret string, and one of an identity provider is in any case. -/
theorem config_round_trip (vault : Vault)
    (hvault : ∀ n plain, vault.decryptSecret (vault.encryptSecret n plain) = some plain)
    (config : JsonDict) (n : ℕ) :
    (monitorCodec.plainFields config.fields = true →
      (monitorCodec.readBack vault config n = config.fields ↔
        monitorCodec.listsHoldSecret config.fields = false)) ∧
      (ssoCodec.plainFields config.fields = true →
        ssoCodec.readBack vault config n = config.fields) :=
  ⟨fun hp => readBack_eq_iff hvault hp n,
    fun hp => (readBack_eq_iff hvault hp n).mpr (listsHoldSecret_eq_false rfl config.fields)⟩

/-- A vault that shows the text. -/
def clearVault : Vault := ⟨fun _ plain => plain, some⟩

theorem clearVault_inverts (n : ℕ) (plain : String) :
    clearVault.decryptSecret (clearVault.encryptSecret n plain) = some plain :=
  clearVault.decryptSecret_encryptSecret n plain

/-- A password and a list of servers without secrets. -/
def sampleConfig : JsonDict :=
  ⟨[("url", .str "http://p"), ("auth", .obj [("password", .str "hunter2")]),
    ("servers", .arr [.obj [("host", .str "a")]])], by decide⟩

theorem sampleConfig_round_trip :
    monitorCodec.readBack clearVault sampleConfig 0 = sampleConfig.fields ∧
      ssoCodec.readBack clearVault sampleConfig 0 = sampleConfig.fields :=
  ⟨((config_round_trip clearVault clearVault_inverts sampleConfig 0).1 (by decide)).mpr (by decide),
    (config_round_trip clearVault clearVault_inverts sampleConfig 0).2 (by decide)⟩

/-- A list of servers, each with its password. -/
def serversConfig : JsonDict :=
  ⟨[("servers", .arr [.obj [("host", .str "a"), ("password", .str "hunter2")]])], by decide⟩

/-- The password of a server in a list is read back as its ciphertext. -/
theorem listed_secret_stays_encrypted :
    monitorCodec.plainFields serversConfig.fields = true ∧
      monitorCodec.readBack clearVault serversConfig 0 =
        [("servers", .arr [.obj [("host", .str "a"), ("password", .str "enc:v1:hunter2")]])] ∧
      monitorCodec.readBack clearVault serversConfig 0 ≠ serversConfig.fields := by
  refine ⟨by decide, by decide, by decide⟩

end LarkPlat
