import LarkPlat.JsonPaths

/-!
# Secrets in Configurations

The configurations of monitor adapters and of identity providers are dictionaries of any shape. A
string under a secret key is encrypted before it is stored, and shown to clients by a mask. An
update merges the submitted dictionary into the stored one: keys that are left out keep their
values, and a mask that comes back keeps the stored ciphertext.

The two services have their own copies of the codec. They differ in the secret keys, in what becomes
of lists (the one of the monitor looks into the dictionaries of a list, the other takes a list as it
is), and in the text that is masked. `encrypt_secret` draws a nonce from the operating system for
each call: the `n`-th draw is known by its number. AES-GCM and Base64 are parameters.

## Main results

* `lookup_encryptFields_of_some`, `lookup_encryptFields_of_none`: what the encoder stores under each
  key.
* `lookup_maskFields`: what the mask shows under each key.
-/

namespace LarkPlat

/-- AES-GCM with Base64: `cipher n plain` is the text of the `n`-th nonce with the ciphertext, and
`decipher` is `none` where decoding or decryption raises. -/
structure Vault where
  cipher : ℕ → String → String
  decipher : String → Option String

namespace Vault

variable (vault : Vault)

/-- `encrypt_secret`. -/
def encryptSecret (n : ℕ) (plain : String) : String := "v1:" ++ vault.cipher n plain

/-- `decrypt_secret`; `none` if it raises. -/
def decryptSecret (encrypted : String) : Option String :=
  let version := encrypted.toList.takeWhile fun c => decide (c ≠ ':')
  if ':' ∉ encrypted.toList then none
  else if version.head? ≠ some 'v' then none
  else vault.decipher (String.ofList (encrypted.toList.drop (version.length + 1)))

/-- `mask_secret`. -/
def maskSecret (encrypted : String) : Json :=
  if encrypted = "" then .null
  else
    match vault.decryptSecret encrypted with
    | none => .str "***"
    | some plain =>
        if plain.toList.length ≤ 4 then .str "****"
        else .str (String.ofList (plain.toList.take 2 ++ List.replicate 6 '*' ++
          plain.toList.drop (plain.toList.length - 2)))

end Vault

/-- The codec of a service. -/
structure ConfigCodec where
  /-- `_SECRET_KEYS`. -/
  secretKeys : List String
  /-- The encoder and the mask look into the dictionaries of a list. -/
  readsLists : Bool
  /-- The mask decrypts the text behind `enc:`, not the whole text. -/
  masksPayload : Bool

/-- The codec of `monitor_service`. -/
def monitorCodec : ConfigCodec where
  secretKeys := ["token", "password", "api_key", "secret", "client_secret", "secret_key",
    "access_key", "app_secret", "access_token"]
  readsLists := true
  masksPayload := false

/-- The codec of `sso_service`. -/
def ssoCodec : ConfigCodec where
  secretKeys := ["password", "client_secret", "secret", "token"]
  readsLists := false
  masksPayload := true

/-- `val.startswith("enc:")`. -/
def IsEncoded (s : String) : Prop := "enc:".toList <+: s.toList

instance (s : String) : Decidable (IsEncoded s) :=
  inferInstanceAs (Decidable (List.IsPrefix _ _))

/-- `_is_masked_secret`. -/
def IsMaskedSecret (s : String) : Prop := '*' ∈ s.toList

instance (s : String) : Decidable (IsMaskedSecret s) := inferInstanceAs (Decidable (_ ∈ _))

/-- `val[4:]`. -/
def payloadOf (s : String) : String := String.ofList (s.toList.drop 4)

/-- The dictionary that a value is merged into: the stored one, or an empty one. -/
def dictOf : Option Json → List (String × Json)
  | some (.obj fields) => fields
  | _ => []

@[simp] theorem dictOf_none : dictOf none = [] := rfl

/-- The list that a value is merged into: the stored one, or an empty one. -/
def itemsOf : Option Json → List Json
  | some (.arr items) => items
  | _ => []

@[simp] theorem itemsOf_none : itemsOf none = [] := rfl

/-! ### Texts -/

theorem toList_enc_append (s : String) :
    ("enc:" ++ s).toList = 'e' :: 'n' :: 'c' :: ':' :: s.toList := by
  rw [String.toList_append]
  rfl

/-- The encoded strings are those with `enc:` in front of something. -/
theorem isEncoded_iff {s : String} : IsEncoded s ↔ ∃ t, s = "enc:" ++ t := by
  constructor
  · rintro ⟨rest, hrest⟩
    refine ⟨String.ofList rest, String.toList_injective ?_⟩
    calc s.toList = "enc:".toList ++ rest := hrest.symm
      _ = ("enc:" ++ String.ofList rest).toList := by simp
  · rintro ⟨t, rfl⟩
    exact ⟨t.toList, String.toList_append.symm⟩

theorem isEncoded_enc (s : String) : IsEncoded ("enc:" ++ s) := isEncoded_iff.mpr ⟨s, rfl⟩

@[simp] theorem payloadOf_enc (s : String) : payloadOf ("enc:" ++ s) = s := by
  rw [payloadOf, toList_enc_append]
  exact String.ofList_toList

namespace Vault

variable (vault : Vault)

/-- The text of `encrypt_secret` is taken apart again. -/
theorem decryptSecret_encryptSecret (n : ℕ) (plain : String) :
    vault.decryptSecret (vault.encryptSecret n plain) =
      vault.decipher (vault.cipher n plain) := by
  have hlist : (vault.encryptSecret n plain).toList =
      'v' :: '1' :: ':' :: (vault.cipher n plain).toList := by
    rw [encryptSecret, String.toList_append]
    rfl
  simp [decryptSecret, hlist]

theorem maskSecret_masked {s : String} (h : s ≠ "") :
    ∃ m, vault.maskSecret s = .str m ∧ IsMaskedSecret m := by
  rw [maskSecret, if_neg h]
  cases vault.decryptSecret s with
  | none => exact ⟨_, rfl, by decide⟩
  | some plain =>
      by_cases hlen : plain.toList.length ≤ 4
      · exact ⟨"****", if_pos hlen, by decide⟩
      · refine ⟨_, if_neg hlen, ?_⟩
        rw [IsMaskedSecret, String.toList_ofList]
        simp

end Vault

namespace ConfigCodec

variable (codec : ConfigCodec) (vault : Vault)

/-! ### The encoder -/

mutual

/-- The loop of `_encrypt_config_secrets` over the submitted dictionary. The number of the next
draw goes with the dictionary that is built. -/
def encryptFields : List (String × Json) → List (String × Json) → ℕ → List (String × Json) × ℕ
  | [], merged, n => (merged, n)
  | (key, val) :: config, merged, n =>
      let r := encryptValue key val (merged.lookup key) n
      encryptFields config (Json.setField merged key r.1) r.2

/-- What the loop makes of the value under a key, given what is stored there. -/
def encryptValue (key : String) : Json → Option Json → ℕ → Json × ℕ
  | .str s, prev, n =>
      if key ∈ codec.secretKeys then
        if IsEncoded s ∨ IsMaskedSecret s then (prev.getD (.str s), n)
        else (.str ("enc:" ++ vault.encryptSecret n s), n + 1)
      else (.str s, n)
  | .obj fields, prev, n =>
      let r := encryptFields fields (dictOf prev) n
      (.obj r.1, r.2)
  | .arr items, prev, n =>
      if codec.readsLists then
        let r := encryptItems items (itemsOf prev) n
        (.arr r.1, r.2)
      else (.arr items, n)
  | val, _, n => (val, n)

/-- What the loop makes of a list, given the stored items at the same places. -/
def encryptItems : List Json → List Json → ℕ → List Json × ℕ
  | [], _, n => ([], n)
  | .obj fields :: items, prev, n =>
      let r := encryptFields fields (dictOf prev.head?) n
      let rest := encryptItems items prev.tail r.2
      (.obj r.1 :: rest.1, rest.2)
  | item :: items, prev, n =>
      let rest := encryptItems items prev.tail n
      (item :: rest.1, rest.2)

end

/-- What the loop makes of an item of a list. -/
def encryptItem : Json → Option Json → ℕ → Json
  | .obj fields, prev, n => .obj (codec.encryptFields vault fields (dictOf prev) n).1
  | item, _, _ => item

section Encoder

variable {config : List (String × Json)} (merged : List (String × Json)) {k : String} (n : ℕ)

/-- A key that is left out keeps its value. -/
theorem lookup_encryptFields_of_none (h : config.lookup k = none) :
    (codec.encryptFields vault config merged n).1.lookup k = merged.lookup k := by
  induction config generalizing merged n with
  | nil => rw [encryptFields]
  | cons p config ih =>
      obtain ⟨key, val⟩ := p
      rw [List.lookup_cons] at h
      cases hk : k == key with
      | true => simp [hk] at h
      | false =>
          rw [hk] at h
          rw [encryptFields, ih _ _ h, Json.lookup_setField_ne _ (ne_of_beq_false hk)]

/-- A key that is submitted gets what becomes of its value. -/
theorem lookup_encryptFields_of_some {val : Json} (hnodup : (config.map Prod.fst).Nodup)
    (h : config.lookup k = some val) : ∃ m,
    (codec.encryptFields vault config merged n).1.lookup k =
      some (codec.encryptValue vault k val (merged.lookup k) m).1 := by
  induction config generalizing merged n with
  | nil => simp at h
  | cons p config ih =>
      obtain ⟨key, v⟩ := p
      rw [List.map_cons, List.nodup_cons] at hnodup
      rw [List.lookup_cons] at h
      rw [encryptFields]
      cases hk : k == key with
      | true =>
          obtain rfl : k = key := eq_of_beq hk
          rw [hk, Option.some.injEq] at h
          subst h
          have hrest : config.lookup k = none := Json.lookup_eq_none_of_not_mem hnodup.1
          exact ⟨n, by
            rw [lookup_encryptFields_of_none codec vault _ _ hrest, Json.lookup_setField_self]⟩
      | false =>
          rw [hk] at h
          obtain ⟨m, hm⟩ := ih _ _ hnodup.2 h
          exact ⟨m, by rw [hm, Json.lookup_setField_ne _ (ne_of_beq_false hk)]⟩

theorem encryptItems_cons (item : Json) (items prev : List Json) : ∃ m,
    (codec.encryptItems vault (item :: items) prev n).1 =
      codec.encryptItem vault item prev.head? n ::
        (codec.encryptItems vault items prev.tail m).1 := by
  cases item with
  | obj fields => exact ⟨_, rfl⟩
  | _ => exact ⟨n, rfl⟩

theorem getElem?_encryptItems {items : List Json} (prev : List Json) {i : ℕ} {item : Json}
    (h : items[i]? = some item) : ∃ m,
    (codec.encryptItems vault items prev n).1[i]? =
      some (codec.encryptItem vault item prev[i]? m) := by
  induction items generalizing prev n i with
  | nil => simp at h
  | cons first items ih =>
      obtain ⟨l, hl⟩ := encryptItems_cons codec vault n first items prev
      rw [hl]
      cases i with
      | zero =>
          rw [List.getElem?_cons_zero, Option.some.injEq] at h
          exact ⟨n, by rw [List.getElem?_cons_zero, h, List.head?_eq_getElem?]⟩
      | succ i =>
          rw [List.getElem?_cons_succ] at h
          obtain ⟨m, hm⟩ := ih l prev.tail h
          exact ⟨m, by rw [List.getElem?_cons_succ, hm, List.getElem?_tail]⟩

theorem length_encryptItems (items prev : List Json) :
    (codec.encryptItems vault items prev n).1.length = items.length := by
  induction items generalizing prev n with
  | nil => rfl
  | cons first items ih =>
      obtain ⟨l, hl⟩ := encryptItems_cons codec vault n first items prev
      rw [hl, List.length_cons, List.length_cons, ih]

end Encoder

/-! ### The mask -/

mutual

/-- `_mask_adapter_config` and `_mask_config`. -/
def maskFields : List (String × Json) → List (String × Json)
  | [] => []
  | (key, val) :: config => (key, maskValue val) :: maskFields config

/-- What the mask shows of a value. -/
def maskValue : Json → Json
  | .str s =>
      if IsEncoded s then vault.maskSecret (if codec.masksPayload then payloadOf s else s)
      else .str s
  | .obj fields => .obj (maskFields fields)
  | .arr items => if codec.readsLists then .arr (maskItems items) else .arr items
  | val => val

/-- What the mask shows of a list. -/
def maskItems : List Json → List Json
  | [] => []
  | .obj fields :: items => .obj (maskFields fields) :: maskItems items
  | item :: items => item :: maskItems items

end

/-- What the mask shows of an item of a list. -/
def maskItem : Json → Json
  | .obj fields => .obj (codec.maskFields vault fields)
  | item => item

section Mask

variable {codec vault}

@[simp] theorem map_fst_maskFields (config : List (String × Json)) :
    (codec.maskFields vault config).map Prod.fst = config.map Prod.fst := by
  induction config with
  | nil => rfl
  | cons p config ih => rw [maskFields, List.map_cons, List.map_cons, ih]

/-- The mask shows something of the value under each key. -/
theorem lookup_maskFields (config : List (String × Json)) (k : String) :
    (codec.maskFields vault config).lookup k =
      (config.lookup k).map (codec.maskValue vault) := by
  induction config with
  | nil => rfl
  | cons p config ih =>
      obtain ⟨key, v⟩ := p
      rw [maskFields, List.lookup_cons, List.lookup_cons]
      cases k == key with
      | true => rfl
      | false => exact ih

theorem maskItems_cons (item : Json) (items : List Json) :
    codec.maskItems vault (item :: items) =
      codec.maskItem vault item :: codec.maskItems vault items := by
  cases item <;> rfl

theorem getElem?_maskItems (items : List Json) (i : ℕ) :
    (codec.maskItems vault items)[i]? = items[i]?.map (codec.maskItem vault) := by
  induction items generalizing i with
  | nil => rfl
  | cons first items ih =>
      rw [maskItems_cons]
      cases i with
      | zero => rfl
      | succ i => exact ih i

end Mask

end ConfigCodec

/-! ### The decoder -/

namespace Vault

variable (vault : Vault)

mutual

/-- `_decrypted_adapter_config`, `_decrypted_adapter_config_val` and `_decrypt_config_val`. -/
def decryptFields : List (String × Json) → List (String × Json)
  | [] => []
  | (key, val) :: config => (key, decryptValue val) :: decryptFields config

/-- What the decoder makes of a value. -/
def decryptValue : Json → Json
  | .str s =>
      if IsEncoded s then .str ((vault.decryptSecret (payloadOf s)).getD "") else .str s
  | .obj fields => .obj (decryptFields fields)
  | val => val

end

end Vault

end LarkPlat
