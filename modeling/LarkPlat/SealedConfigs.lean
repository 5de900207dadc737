import LarkPlat.ConfigCalls
import LarkPlat.Machine
import LarkPlat.MaskEcho

/-!
# No Secret in Clear

A configuration is safe if every string under a secret key is a ciphertext that `encrypt_secret` has
made. The encoder takes a string for what it looks like: one with an asterisk for a mask, one that
starts with `enc:` for a ciphertext. Where nothing is stored that the string could stand for, it is
stored as it is. Dictionaries that the encoder does not walk to are stored as they are, too.

## Main results

* `stored_secrets_sealed`: in a history whose calls submit no such string, every stored
  configuration is safe, and its mask shows every secret by a text with an asterisk.
* `look_alike_stored`: a password that starts with `enc:` is stored as it is, and so are the
  passwords in a list of servers of an identity provider.
-/

namespace LarkPlat

open ConfigCodec

/-! ### Safe configurations -/

/-- The string is a ciphertext of `encrypt_secret`. -/
def SealedText (vault : Vault) (s : String) : Prop :=
  ∃ n plain, s = "enc:" ++ vault.encryptSecret n plain

/-- Every string under a secret key is a ciphertext, at every path, unless it is empty. -/
def NoPlaintext (codec : ConfigCodec) (vault : Vault) (config : List (String × Json)) : Prop :=
  ∀ path k s, k ∈ codec.secretKeys → s ≠ "" →
    (Json.obj config).follow (path ++ [.key k]) = some (.str s) → SealedText vault s

/-- Every string under a secret key has an asterisk, at every path, unless it is empty. -/
def Veiled (codec : ConfigCodec) (config : List (String × Json)) : Prop :=
  ∀ path k s, k ∈ codec.secretKeys → s ≠ "" →
    (Json.obj config).follow (path ++ [.key k]) = some (.str s) → IsMaskedSecret s

/-- The configuration is safe, and the encoder walks to each dictionary with a secret in it. -/
def Guarded (codec : ConfigCodec) (vault : Vault) (config : List (String × Json)) : Prop :=
  ∀ path k s, k ∈ codec.secretKeys → s ≠ "" →
    (Json.obj config).follow (path ++ [.key k]) = some (.str s) →
      SealedText vault s ∧ codec.Walks path

instance walksDecidable (codec : ConfigCodec) : ∀ path, Decidable (codec.Walks path)
  | [] => inferInstanceAs (Decidable True)
  | .key _ :: .item _ :: path => @instDecidableAnd _ _ _ (walksDecidable codec path)
  | .key _ :: [] => inferInstanceAs (Decidable True)
  | .key _ :: .key l :: path => walksDecidable codec (.key l :: path)
  | .item _ :: _ => inferInstanceAs (Decidable False)

/-- The path ends at a secret key. -/
def ConfigCodec.secretPath (codec : ConfigCodec) (path : List PathStep) : Bool :=
  match path.getLast? with
  | some (.key k) => decide (k ∈ codec.secretKeys)
  | _ => false

/-- Every string that is submitted under a secret key is in a dictionary that the encoder walks to,
and if it looks like a mask or a ciphertext, something is stored at its place. -/
def Sealable (codec : ConfigCodec) (existing config : List (String × Json)) : Prop :=
  ∀ p ∈ (Json.obj config).strings, codec.secretPath p.1 = true → p.2 ≠ "" →
    codec.Walks p.1.dropLast ∧
      (IsEncoded p.2 ∨ IsMaskedSecret p.2 → ((Json.obj existing).follow p.1).isSome = true)

instance (codec : ConfigCodec) (existing config : List (String × Json)) :
    Decidable (Sealable codec existing config) :=
  inferInstanceAs (Decidable (∀ p ∈ (Json.obj config).strings, _))

variable {codec : ConfigCodec} {vault : Vault}

theorem Sealable.at_path {existing config : List (String × Json)}
    (h : Sealable codec existing config) {path : List PathStep} {k s : String}
    (hk : k ∈ codec.secretKeys) (hs : s ≠ "")
    (hp : (Json.obj config).follow (path ++ [.key k]) = some (.str s)) :
    codec.Walks path ∧ (IsEncoded s ∨ IsMaskedSecret s →
      ((Json.obj existing).follow (path ++ [.key k])).isSome = true) := by
  have := h _ (Json.mem_strings_of_follow hp) (by simp [secretPath, hk]) hs
  rwa [List.dropLast_concat] at this

theorem walks_of_key {a : String} {path : List PathStep} {fields : List (String × Json)} {k : String}
    {w : Json} (h : codec.Walks (.key a :: path))
    (hp : (Json.obj fields).follow (path ++ [.key k]) = some w) : codec.Walks path := by
  cases path with
  | nil => trivial
  | cons step path =>
      cases step with
      | key b => exact h
      | item i => cases hp

theorem walks_key {a : String} {path : List PathStep} {fields : List (String × Json)} {k : String}
    {w : Json} (h : codec.Walks path) (hp : (Json.obj fields).follow (path ++ [.key k]) = some w) :
    codec.Walks (.key a :: path) := by
  cases path with
  | nil => trivial
  | cons step path =>
      cases step with
      | key b => exact h
      | item i => cases hp

theorem obj_of_follow_snoc {v w : Json} {path : List PathStep} {k : String}
    (hwalks : codec.Walks path) (h : v.follow (path ++ [.key k]) = some w) :
    ∃ fields, v = .obj fields := by
  cases v with
  | obj fields => exact ⟨fields, rfl⟩
  | _ =>
      cases path with
      | nil => cases h
      | cons step path =>
          cases step with
          | key b => cases h
          | item i => cases hwalks

theorem follow_key_iff {fields : List (String × Json)} {k : String} {w : Json} :
    (Json.obj fields).follow [.key k] = some w ↔ fields.lookup k = some w := by
  rw [Json.follow_obj_key]
  cases fields.lookup k <;> rfl

theorem follow_snoc_of_list {items : List Json} {path : List PathStep} {k : String} {w : Json}
    (h : (Json.arr items).follow (path ++ [.key k]) = some w) :
    ∃ i rest item, path = .item i :: rest ∧ items[i]? = some item ∧
      item.follow (rest ++ [.key k]) = some w := by
  cases path with
  | nil => cases h
  | cons step path =>
      cases step with
      | key b => cases h
      | item i =>
          rw [List.cons_append, Json.follow_arr_item] at h
          obtain ⟨item, hitem, hrest⟩ := Option.bind_eq_some_iff.mp h
          exact ⟨i, path, item, rfl, hitem, hrest⟩

theorem not_follow_leaf {v w : Json} {path : List PathStep} {k : String}
    (hobj : ∀ fields, v ≠ .obj fields) (harr : ∀ items, v ≠ .arr items) :
    v.follow (path ++ [.key k]) ≠ some w := by
  cases v with
  | obj fields => exact absurd rfl (hobj fields)
  | arr items => exact absurd rfl (harr items)
  | _ =>
      intro h
      cases path with
      | nil => cases h
      | cons step path => cases step <;> cases h

theorem not_follow_str {t : String} {path : List PathStep} {k : String} {w : Json} :
    (Json.str t).follow (path ++ [.key k]) ≠ some w :=
  not_follow_leaf (by simp) (by simp)

/-- What is stored below a dictionary that a value is merged into is stored below the value. -/
theorem follow_dictOf_of_obj {prev : Option Json} {fields : List (String × Json)}
    {path : List PathStep} {k : String} {w : Json}
    (hp : (Json.obj fields).follow (path ++ [.key k]) = some w) :
    (Json.obj (dictOf prev)).follow (path ++ [.key k]) =
      prev.bind fun v => v.follow (path ++ [.key k]) := by
  cases prev with
  | none =>
      cases path with
      | nil => rfl
      | cons step path => cases step <;> rfl
  | some v =>
      cases path with
      | nil => cases v <;> rfl
      | cons step path =>
          cases step with
          | key b => cases v <;> rfl
          | item i => cases hp

/-! ### The encoder keeps configurations safe -/

/-- What `Sealable` says about each path. -/
def SealableBelow (codec : ConfigCodec) (existing config : List (String × Json)) : Prop :=
  ∀ path k s, k ∈ codec.secretKeys → s ≠ "" →
    (Json.obj config).follow (path ++ [.key k]) = some (.str s) →
      codec.Walks path ∧ (IsEncoded s ∨ IsMaskedSecret s →
        ((Json.obj existing).follow (path ++ [.key k])).isSome = true)

theorem Guarded.below {existing : List (String × Json)} (h : Guarded codec vault existing)
    (a : String) : Guarded codec vault (dictOf (existing.lookup a)) := by
  intro path k s hk hs hp
  obtain ⟨hsealed, hwalks⟩ := h (.key a :: path) k s hk hs (by
    rw [List.cons_append, Json.follow_obj_key, ← hp, follow_dictOf_of_obj hp])
  exact ⟨hsealed, walks_of_key hwalks hp⟩

theorem Guarded.below_item {existing : List (String × Json)} (h : Guarded codec vault existing)
    (a : String) (i : ℕ) :
    Guarded codec vault (dictOf (itemsOf (existing.lookup a))[i]?) := by
  intro path k s hk hs hp
  cases hprev : existing.lookup a with
  | none =>
      rw [hprev, itemsOf_none, List.getElem?_nil, dictOf_none] at hp
      cases path with
      | nil => cases hp
      | cons step path => cases step <;> cases hp
  | some prev =>
      rw [hprev] at hp
      cases prev with
      | arr items =>
          rw [itemsOf] at hp
          obtain ⟨hsealed, -, hwalks⟩ := h (.key a :: .item i :: path) k s hk hs (by
            rw [List.cons_append, Json.follow_obj_key, hprev, Option.bind_some, List.cons_append,
              Json.follow_arr_item, ← hp, follow_dictOf_of_obj hp])
          exact ⟨hsealed, hwalks⟩
      | _ =>
          cases path with
          | nil => cases hp
          | cons step path => cases step <;> cases hp

theorem SealableBelow.dict {existing config fields : List (String × Json)} {a : String}
    (h : SealableBelow codec existing config) (hval : config.lookup a = some (.obj fields)) :
    SealableBelow codec (dictOf (existing.lookup a)) fields := by
  intro path k s hk hs hp
  obtain ⟨hwalks, hstored⟩ := h (.key a :: path) k s hk hs (by
    rw [List.cons_append, Json.follow_obj_key, hval, Option.bind_some, hp])
  refine ⟨walks_of_key hwalks hp, fun hlooks => ?_⟩
  rw [follow_dictOf_of_obj hp]
  exact hstored hlooks

theorem SealableBelow.item {existing config fields : List (String × Json)} {a : String}
    {items : List Json} {i : ℕ} (h : SealableBelow codec existing config)
    (hval : config.lookup a = some (.arr items)) (hitem : items[i]? = some (.obj fields)) :
    SealableBelow codec (dictOf (itemsOf (existing.lookup a))[i]?) fields := by
  intro path k s hk hs hp
  obtain ⟨hwalks, hstored⟩ := h (.key a :: .item i :: path) k s hk hs (by
    rw [List.cons_append, Json.follow_obj_key, hval, Option.bind_some, List.cons_append,
      Json.follow_arr_item, hitem, Option.bind_some, hp])
  refine ⟨hwalks.2, fun hlooks => ?_⟩
  have hsome := hstored hlooks
  rw [follow_dictOf_of_obj hp]
  rw [List.cons_append, Json.follow_obj_key] at hsome
  cases hprev : existing.lookup a with
  | none =>
      rw [hprev] at hsome
      cases hsome
  | some prev =>
      rw [hprev] at hsome
      cases prev with
      | arr owned => exact hsome
      | _ => cases hsome

/-- **The encoder keeps a configuration safe**, if nothing is submitted that only looks like a mask
or a ciphertext, and nothing where the encoder does not go. -/
theorem guarded_encryptFields {existing config : List (String × Json)}
    (hproper : (Json.obj config).Proper) (hstored : Guarded codec vault existing)
    (hnew : SealableBelow codec existing config) (n : ℕ) :
    Guarded codec vault (codec.encryptFields vault config existing n).1 := by
  intro path k s hk hs hp
  induction path using path_induction generalizing config existing n with
  | nil =>
      rw [List.nil_append, follow_key_iff] at hp
      cases hval : config.lookup k with
      | none =>
          rw [lookup_encryptFields_of_none codec vault existing n hval] at hp
          exact hstored [] k s hk hs (follow_key_iff.mpr hp)
      | some val =>
          obtain ⟨l, hl⟩ := lookup_encryptFields_of_some codec vault existing n hproper.nodup hval
          rw [hl, Option.some.injEq] at hp
          cases val with
          | str t =>
              rw [encryptValue, if_pos hk] at hp
              by_cases hlooks : IsEncoded t ∨ IsMaskedSecret t
              · rw [if_pos hlooks] at hp
                cases hprev : existing.lookup k with
                | none =>
                    rw [hprev] at hp
                    obtain rfl : t = s := Json.str.inj hp
                    -- nothing is stored that the string could stand for
                    obtain ⟨-, hsome⟩ := hnew [] k t hk hs (follow_key_iff.mpr hval)
                    rw [List.nil_append, Json.follow_obj_key, hprev] at hsome
                    cases hsome hlooks
                | some prev =>
                    rw [hprev] at hp
                    exact hstored [] k s hk hs (follow_key_iff.mpr (hprev.trans (congrArg some hp)))
              · rw [if_neg hlooks] at hp
                exact ⟨⟨l, t, (Json.str.inj hp).symm⟩, trivial⟩
          | arr items =>
              rw [encryptValue] at hp
              split_ifs at hp
          | _ => cases hp
  | item i path => cases hp
  | key a path ih ihItem =>
      rw [List.cons_append, Json.follow_obj_key] at hp
      cases hval : config.lookup a with
      | none =>
          rw [lookup_encryptFields_of_none codec vault existing n hval] at hp
          exact hstored (.key a :: path) k s hk hs hp
      | some val =>
          obtain ⟨l, hl⟩ := lookup_encryptFields_of_some codec vault existing n hproper.nodup hval
          have hproper' : val.Proper := hproper.child (s := .key a) hval
          rw [hl, Option.bind_some] at hp
          cases val with
          | str t =>
              rw [encryptValue] at hp
              split_ifs at hp with hsecret hlooks
              · cases hprev : existing.lookup a with
                | none =>
                    rw [hprev] at hp
                    exact absurd hp not_follow_str
                | some prev =>
                    rw [hprev] at hp
                    exact hstored (.key a :: path) k s hk hs (by
                      rw [List.cons_append, Json.follow_obj_key, hprev]
                      exact hp)
              · exact absurd hp not_follow_str
              · exact absurd hp not_follow_str
          | obj fields =>
              rw [encryptValue] at hp
              obtain ⟨hsealed, hwalks⟩ := ih hproper' (hstored.below a) (hnew.dict hval) l hp
              exact ⟨hsealed, walks_key hwalks hp⟩
          | arr items =>
              rw [encryptValue] at hp
              split_ifs at hp with hreads
              · obtain ⟨i, rest, stored, rfl, hget, hrest⟩ := follow_snoc_of_list hp
                obtain ⟨item, hitem⟩ : ∃ item, items[i]? = some item := by
                  have hlt := (List.getElem?_eq_some_iff.mp hget).1
                  rw [length_encryptItems] at hlt
                  exact ⟨items[i], List.getElem?_eq_getElem hlt⟩
                obtain ⟨m, hm⟩ := getElem?_encryptItems codec vault l
                  (itemsOf (existing.lookup a)) hitem
                obtain rfl := Option.some.inj (hget.symm.trans hm)
                cases item with
                | obj fields =>
                    obtain ⟨hsealed, hwalks⟩ := ihItem i rest rfl
                      (hproper'.child (s := .item i) hitem) (hstored.below_item a i)
                      (hnew.item hval hitem) m hrest
                    exact ⟨hsealed, hreads, hwalks⟩
                | _ =>
                    -- an item that is no dictionary is stored as it is
                    obtain ⟨⟨-, hwalks⟩, -⟩ := hnew (.key a :: .item i :: rest) k s hk hs (by
                      rw [List.cons_append, Json.follow_obj_key, hval, Option.bind_some,
                        List.cons_append, Json.follow_arr_item, hitem]
                      exact hrest)
                    obtain ⟨fields, h⟩ := obj_of_follow_snoc hwalks hrest
                    cases h
              · obtain ⟨i, rest, item, rfl, hget, hrest⟩ := follow_snoc_of_list hp
                obtain ⟨⟨hreads', -⟩, -⟩ := hnew (.key a :: .item i :: rest) k s hk hs (by
                  rw [List.cons_append, Json.follow_obj_key, hval, Option.bind_some]
                  exact hp)
                exact absurd hreads' hreads
          | _ =>
              simp only [encryptValue] at hp
              exact absurd hp (not_follow_leaf (by simp) (by simp))

/-! ### The mask of a safe configuration -/

theorem maskSecret_eq_str {x s : String} (h : vault.maskSecret x = .str s) : IsMaskedSecret s := by
  by_cases hx : x = ""
  · rw [hx, Vault.maskSecret, if_pos rfl] at h
    cases h
  · obtain ⟨m, hm, hmasked⟩ := vault.maskSecret_masked hx
    rw [hm] at h
    exact Json.str.inj h ▸ hmasked

theorem not_follow_maskSecret (x : String) {path : List PathStep} {k : String} {w : Json} :
    (vault.maskSecret x).follow (path ++ [.key k]) ≠ some w := by
  by_cases hx : x = ""
  · rw [hx, Vault.maskSecret, if_pos rfl]
    exact not_follow_leaf (by simp) (by simp)
  · obtain ⟨m, hm, -⟩ := vault.maskSecret_masked hx
    rw [hm]
    exact not_follow_str

theorem Guarded.dict {config fields : List (String × Json)} {a : String}
    (h : Guarded codec vault config) (hval : config.lookup a = some (.obj fields)) :
    Guarded codec vault fields := by
  have := h.below a
  rwa [hval] at this

theorem Guarded.item {config fields : List (String × Json)} {a : String} {items : List Json}
    {i : ℕ} (h : Guarded codec vault config) (hval : config.lookup a = some (.arr items))
    (hitem : items[i]? = some (.obj fields)) : Guarded codec vault fields := by
  have := h.below_item a i
  rwa [hval, itemsOf, hitem] at this

/-- **The mask of a safe configuration shows no secret.** -/
theorem veiled_maskFields {config : List (String × Json)} (h : Guarded codec vault config) :
    Veiled codec (codec.maskFields vault config) := by
  intro path k s hk hs hp
  induction path using path_induction generalizing config with
  | nil =>
      rw [List.nil_append, follow_key_iff, lookup_maskFields, Option.map_eq_some_iff] at hp
      obtain ⟨val, hval, hshown⟩ := hp
      cases val with
      | str t =>
          rw [maskValue] at hshown
          by_cases hencoded : IsEncoded t
          · rw [if_pos hencoded] at hshown
            exact maskSecret_eq_str hshown
          · rw [if_neg hencoded] at hshown
            obtain rfl := Json.str.inj hshown
            obtain ⟨⟨n, plain, rfl⟩, -⟩ := h [] k t hk hs (follow_key_iff.mpr hval)
            exact absurd (isEncoded_enc _) hencoded
      | arr items =>
          rw [maskValue] at hshown
          split_ifs at hshown
      | _ => cases hshown
  | item i path => cases hp
  | key a path ih ihItem =>
      rw [List.cons_append, Json.follow_obj_key, lookup_maskFields] at hp
      cases hval : config.lookup a with
      | none =>
          rw [hval] at hp
          cases hp
      | some val =>
          rw [hval, Option.map_some, Option.bind_some] at hp
          cases val with
          | obj fields =>
              rw [maskValue] at hp
              exact ih (h.dict hval) hp
          | arr items =>
              -- what the mask shows of a list as it is, is not there in a safe configuration
              have hwalks : ∀ i rest, (Json.arr items).follow (.item i :: rest ++ [.key k]) =
                  some (.str s) → codec.readsLists = true ∧ codec.Walks rest := by
                intro i rest hrest
                exact (h (.key a :: .item i :: rest) k s hk hs (by
                  rw [List.cons_append, Json.follow_obj_key, hval, Option.bind_some]
                  exact hrest)).2
              rw [maskValue] at hp
              split_ifs at hp with hreads
              · obtain ⟨i, rest, shown, rfl, hget, hrest⟩ := follow_snoc_of_list hp
                rw [getElem?_maskItems, Option.map_eq_some_iff] at hget
                obtain ⟨item, hitem, rfl⟩ := hget
                cases item with
                | obj fields => exact ihItem i rest rfl (h.item hval hitem) hrest
                | _ =>
                    obtain ⟨fields, hobj⟩ := obj_of_follow_snoc (hwalks i rest (by
                      rw [List.cons_append, Json.follow_arr_item, hitem]
                      exact hrest)).2 hrest
                    cases hobj
              · obtain ⟨i, rest, item, rfl, hget, hrest⟩ := follow_snoc_of_list hp
                exact absurd (hwalks i rest hp).1 hreads
          | str t =>
              rw [maskValue] at hp
              by_cases hencoded : IsEncoded t
              · rw [if_pos hencoded] at hp
                exact absurd hp (not_follow_maskSecret _)
              · rw [if_neg hencoded] at hp
                exact absurd hp not_follow_str
          | _ =>
              simp only [maskValue] at hp
              exact absurd hp (not_follow_leaf (by simp) (by simp))

/-! ### What the calls store -/

namespace ConfigStore

variable {env : ConfigEnv} {st st' : ConfigStore} {user : Principal} {featureEnabled : Bool}
  {id : ℕ} {now : ℚ}

theorem createAdapter_ok {data : AdapterCreate} {out : AdapterOut}
    (h : st.createAdapter env user featureEnabled id now data = .ok (out, st')) :
    ∃ row : AdapterRow, st'.adapters = st.adapters ++ [row] ∧ st'.providers = st.providers ∧
      row.config = some (monitorCodec.encryptFields env.vault data.config.fields [] st.draws).1 := by
  rw [createAdapter, bind_eq_ok] at h
  obtain ⟨-, -, h⟩ := h
  split_ifs at h with hoff htype
  dsimp only at h
  split_ifs at h with htaken
  obtain ⟨-, rfl⟩ := Prod.mk.inj (Except.ok.inj h)
  exact ⟨_, rfl, rfl, rfl⟩

theorem updateAdapter_ok {data : AdapterUpdate} {out : AdapterOut}
    (h : st.updateAdapter env user id data = .ok (out, st')) :
    ∃ a row : AdapterRow, st.adapters.find? (fun a => decide (a.id = id)) = some a ∧
      st'.adapters = st.adapters.map (fun b => if b.id = id then row else b) ∧
      st'.providers = st.providers ∧ row.config.getD [] =
        (st.updatedConfig env monitorCodec data.config (a.config.getD [])).1 := by
  rw [updateAdapter, bind_eq_ok] at h
  obtain ⟨-, -, h⟩ := h
  cases hfind : st.adapters.find? fun a => decide (a.id = id) with
  | none =>
      rw [hfind] at h
      cases h
  | some a =>
      rw [hfind] at h
      dsimp only at h
      split_ifs at h with htaken
      obtain ⟨-, rfl⟩ := Prod.mk.inj (Except.ok.inj h)
      refine ⟨a, _, rfl, rfl, rfl, ?_⟩
      cases data.config <;> rfl

/-- A new provider has its configuration encoded with nothing stored before. -/
theorem createProvider_ok {data : ProviderCreate} {out : ProviderOut}
    (h : st.createProvider env user featureEnabled id now data = .ok (out, st')) :
    ∃ row : ProviderRow, st'.providers = st.providers ++ [row] ∧ st'.adapters = st.adapters ∧
      row.configEnc = (ssoCodec.encryptFields env.vault data.config.fields [] st.draws).1 := by
  rw [createProvider] at h
  split_ifs at h with hoff htype
  obtain ⟨code, -, h⟩ := bind_eq_ok.mp h
  split_ifs at h with hcode
  obtain ⟨privileged, -, h⟩ := bind_eq_ok.mp h
  dsimp only at h
  split_ifs at h with hfits
  obtain ⟨-, rfl⟩ := Prod.mk.inj (Except.ok.inj h)
  exact ⟨_, rfl, rfl, rfl⟩

theorem updateProvider_ok {data : ProviderUpdate} {out : ProviderOut}
    (h : st.updateProvider env user id data = .ok (out, st')) :
    ∃ p row : ProviderRow, st.providers.find? (fun p => decide (p.id = id)) = some p ∧
      st'.providers = st.providers.map (fun q => if q.id = id then row else q) ∧
      st'.adapters = st.adapters ∧ row.configEnc =
        (st.updatedConfig env ssoCodec data.config p.configEnc).1 := by
  rw [updateProvider] at h
  cases hfind : st.providers.find? fun p => decide (p.id = id) with
  | none =>
      rw [hfind] at h
      cases h
  | some p =>
      rw [hfind] at h
      obtain ⟨privileged, -, h⟩ := bind_eq_ok.mp h
      dsimp only at h
      split_ifs at h with hfits
      obtain ⟨-, rfl⟩ := Prod.mk.inj (Except.ok.inj h)
      exact ⟨p, _, rfl, rfl, rfl, rfl⟩

/-! ### Histories -/

/-- Every stored configuration is safe, and the encoder walks to each dictionary with a secret. -/
structure Safe (env : ConfigEnv) (st : ConfigStore) : Prop where
  adapters : ∀ a ∈ st.adapters, Guarded monitorCodec env.vault (a.config.getD [])
  providers : ∀ p ∈ st.providers, Guarded ssoCodec env.vault p.configEnc

/-- What the call submits over the stored configuration can be sealed. -/
def SubmitsSealable (st : ConfigStore) : Call → Prop
  | .createAdapter _ _ _ _ data => Sealable monitorCodec [] data.config.fields
  | .updateAdapter _ adapterId data =>
      ∀ a ∈ st.adapters.find? fun a => decide (a.id = adapterId), ∀ config ∈ data.config,
        Sealable monitorCodec (a.config.getD []) config.fields
  | .createProvider _ _ _ _ data => Sealable ssoCodec [] data.config.fields
  | .updateProvider _ providerId data =>
      ∀ p ∈ st.providers.find? fun p => decide (p.id = providerId), ∀ config ∈ data.config,
        Sealable ssoCodec p.configEnc config.fields

instance submitsSealableDecidable (st : ConfigStore) :
    ∀ call, Decidable (st.SubmitsSealable call)
  | .createAdapter _ _ _ _ data =>
      inferInstanceAs (Decidable (Sealable monitorCodec [] data.config.fields))
  | .updateAdapter _ adapterId data =>
      inferInstanceAs (Decidable (∀ a ∈ st.adapters.find? fun a => decide (a.id = adapterId),
        ∀ config ∈ data.config, Sealable monitorCodec (a.config.getD []) config.fields))
  | .createProvider _ _ _ _ data =>
      inferInstanceAs (Decidable (Sealable ssoCodec [] data.config.fields))
  | .updateProvider _ providerId data =>
      inferInstanceAs (Decidable (∀ p ∈ st.providers.find? fun p => decide (p.id = providerId),
        ∀ config ∈ data.config, Sealable ssoCodec p.configEnc config.fields))

theorem guarded_nil (codec : ConfigCodec) (vault : Vault) : Guarded codec vault [] := by
  intro path k s _ _ hp
  cases path with
  | nil => cases hp
  | cons step path => cases step <;> cases hp

theorem Sealable.below {codec : ConfigCodec} {existing config : List (String × Json)}
    (h : Sealable codec existing config) : SealableBelow codec existing config :=
  fun _ _ _ hk hs hp => h.at_path hk hs hp

theorem guarded_updatedConfig {codec : ConfigCodec} {data : Option JsonDict}
    {existing : List (String × Json)} (hstored : Guarded codec env.vault existing)
    (hnew : ∀ config ∈ data, Sealable codec existing config.fields) :
    Guarded codec env.vault (st.updatedConfig env codec data existing).1 := by
  cases data with
  | none => exact hstored
  | some config =>
      exact guarded_encryptFields config.proper hstored (Sealable.below (hnew config rfl)) _

theorem Safe.apply (h : Safe env st) (call : Call) (hok : st.SubmitsSealable call) :
    Safe env (st.apply env call) := by
  cases call with
  | createAdapter user featureEnabled id now data =>
      rw [ConfigStore.apply]
      cases hr : st.createAdapter env user featureEnabled id now data with
      | error e => exact h
      | ok r =>
          obtain ⟨row, hadapters, hproviders, hconfig⟩ := createAdapter_ok hr
          refine ⟨fun a ha => ?_, fun p hp => h.providers p (hproviders ▸ hp)⟩
          rw [settled, hadapters, List.mem_append, List.mem_singleton] at ha
          rcases ha with ha | rfl
          · exact h.adapters a ha
          · rw [hconfig]
            exact guarded_encryptFields data.config.proper (guarded_nil _ _) (Sealable.below hok) _
  | updateAdapter user id data =>
      rw [ConfigStore.apply]
      cases hr : st.updateAdapter env user id data with
      | error e => exact h
      | ok r =>
          obtain ⟨a, row, hfind, hadapters, hproviders, hconfig⟩ := updateAdapter_ok hr
          refine ⟨fun b hb => ?_, fun p hp => h.providers p (hproviders ▸ hp)⟩
          rw [settled, hadapters, List.mem_map] at hb
          obtain ⟨c, hc, rfl⟩ := hb
          split_ifs
          · rw [hconfig]
            exact guarded_updatedConfig (h.adapters a (List.mem_of_find?_eq_some hfind))
              (hok a hfind)
          · exact h.adapters c hc
  | createProvider user featureEnabled id now data =>
      rw [ConfigStore.apply]
      cases hr : st.createProvider env user featureEnabled id now data with
      | error e => exact h
      | ok r =>
          obtain ⟨row, hproviders, hadapters, hconfig⟩ := createProvider_ok hr
          refine ⟨fun a ha => h.adapters a (hadapters ▸ ha), fun p hp => ?_⟩
          rw [settled, hproviders, List.mem_append, List.mem_singleton] at hp
          rcases hp with hp | rfl
          · exact h.providers p hp
          · rw [hconfig]
            exact guarded_encryptFields data.config.proper (guarded_nil _ _) (Sealable.below hok) _
  | updateProvider user id data =>
      rw [ConfigStore.apply]
      cases hr : st.updateProvider env user id data with
      | error e => exact h
      | ok r =>
          obtain ⟨p, row, hfind, hproviders, hadapters, hconfig⟩ := updateProvider_ok hr
          refine ⟨fun a ha => h.adapters a (hadapters ▸ ha), fun q hq => ?_⟩
          rw [settled, hproviders, List.mem_map] at hq
          obtain ⟨q', hq', rfl⟩ := hq
          split_ifs
          · rw [hconfig]
            exact guarded_updatedConfig (h.providers p (List.mem_of_find?_eq_some hfind))
              (hok p hfind)
          · exact h.providers q' hq'

/-- No adapter and no provider. -/
def start (roles : List String) (draws : ℕ) : ConfigStore := ⟨[], [], roles, [], draws⟩

/-- No secret is stored in clear, and none is in a mask that clients see. -/
structure SecretsSealed (env : ConfigEnv) (st : ConfigStore) : Prop where
  adapters : ∀ a ∈ st.adapters, NoPlaintext monitorCodec env.vault (a.config.getD []) ∧
    Veiled monitorCodec (adapterOut env a).configMask
  providers : ∀ p ∈ st.providers, NoPlaintext ssoCodec env.vault p.configEnc ∧
    Veiled ssoCodec (providerOut env p).configMask

theorem Safe.sealed (h : Safe env st) : SecretsSealed env st where
  adapters := fun a ha =>
    ⟨fun path k s hk hs hp => (h.adapters a ha path k s hk hs hp).1,
      veiled_maskFields (h.adapters a ha)⟩
  providers := fun p hp =>
    ⟨fun path k s hk hs hp' => (h.providers p hp path k s hk hs hp').1,
      veiled_maskFields (h.providers p hp)⟩

/-- **No secret is stored in clear**, in a history whose calls submit no string under a secret key
that only looks like a mask or a ciphertext, and none where the encoder does not go. -/
theorem stored_secrets_sealed (env : ConfigEnv) (roles : List String) (draws : ℕ)
    {history : List Call}
    (h : Machine.Meets (ConfigStore.apply env) SubmitsSealable (start roles draws) history) :
    SecretsSealed env (Machine.run (ConfigStore.apply env) (start roles draws) history) := by
  have hstart : Safe env (start roles draws) :=
    ⟨fun _ ha => absurd ha List.not_mem_nil, fun _ hp => absurd hp List.not_mem_nil⟩
  exact (Machine.run_invariant_of_meets (fun _ call hsafe hok => hsafe.apply call hok) hstart
    h).sealed

/-! ### Examples -/

/-- An administrator. -/
def admin : Principal := ⟨1, true, []⟩

/-- The text of a ciphertext is the number of its nonce, and it is not decrypted. -/
def plainEnv : ConfigEnv where
  vault := ⟨fun n _ => toString n, fun _ => none⟩
  lower := fun s => s
  adapterFits := fun _ => true
  providerFits := fun _ => true

/-- The call that creates an adapter with a configuration. -/
def newAdapter (config : JsonDict) : Call :=
  .createAdapter admin true 1 0 ⟨"prom", "prometheus", "", config, 1⟩

/-- The call that creates an identity provider with a configuration. -/
def newProvider (config : JsonDict) : Call :=
  .createProvider admin true 1 0 ⟨"corp", "ldap", some "corp", config, 1⟩

/-- An adapter with a password, whose mask comes back with a new token. -/
def sealedHistory : List Call :=
  [newAdapter ⟨[("password", .str "hunter2")], by decide⟩,
    .updateAdapter admin 1 ⟨none, none, none,
      some ⟨[("password", .str "***"), ("auth", .obj [("token", .str "t")])], by decide⟩, none⟩]

theorem sealedHistory_sealed :
    SecretsSealed plainEnv
      (Machine.run (ConfigStore.apply plainEnv) (start [] 0) sealedHistory) :=
  stored_secrets_sealed plainEnv [] 0 (by decide)

/-- A string under a secret key that has an asterisk stands for something that is stored. -/
def MasksKnown (codec : ConfigCodec) (existing config : List (String × Json)) : Prop :=
  ∀ p ∈ (Json.obj config).strings, codec.secretPath p.1 = true → IsMaskedSecret p.2 →
    ((Json.obj existing).follow p.1).isSome = true

instance (codec : ConfigCodec) (existing config : List (String × Json)) :
    Decidable (MasksKnown codec existing config) :=
  inferInstanceAs (Decidable (∀ p ∈ (Json.obj config).strings, _))

/-- A password that starts with `enc:`. -/
def lookAlike : JsonDict := ⟨[("password", .str "enc:hunter2")], by decide⟩

/-- A list of servers, each with its password. -/
def listedPasswords : JsonDict :=
  ⟨[("servers", .arr [.obj [("password", .str "hunter2")]])], by decide⟩

/-- No mask is echoed in either call. The adapter's password is stored as it was submitted, because
it starts with `enc:`, and so is the one in the provider's list. -/
theorem look_alike_stored :
    (MasksKnown monitorCodec [] lookAlike.fields ∧
      ¬ SecretsSealed plainEnv
        (Machine.run (ConfigStore.apply plainEnv) (start [] 0) [newAdapter lookAlike])) ∧
      MasksKnown ssoCodec [] listedPasswords.fields ∧
        ¬ SecretsSealed plainEnv
          (Machine.run (ConfigStore.apply plainEnv) (start [] 0) [newProvider listedPasswords]) := by
  refine ⟨⟨by decide, fun h => ?_⟩, by decide, fun h => ?_⟩
  · obtain ⟨hclear, -⟩ := h.adapters _ (List.mem_singleton_self _)
    obtain ⟨n, plain, htext⟩ :=
      hclear [] "password" "enc:hunter2" (by decide) (by decide) (by decide)
    have hlist := congrArg String.toList htext
    rw [Vault.encryptSecret, String.toList_append, String.toList_append] at hlist
    simp at hlist
  · obtain ⟨hclear, -⟩ := h.providers _ (List.mem_singleton_self _)
    obtain ⟨n, plain, htext⟩ :=
      hclear [.key "servers", .item 0] "password" "hunter2" (by decide) (by decide) (by decide)
    have hlist := congrArg String.toList htext
    rw [String.toList_append] at hlist
    simp at hlist

end ConfigStore

end LarkPlat
