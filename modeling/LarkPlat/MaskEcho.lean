import LarkPlat.ConfigSecrets

/-!
# Echoing the Mask

A client reads a configuration with its secrets masked and sends it back with an update. The encoder
walks the submitted dictionary and the stored one in step, so each mask meets the ciphertext that it
stands for, and a key that is left out of a dictionary keeps what is stored under it.

## Main results

* `mask_echo_keeps`: the masked configuration leaves every ciphertext under a secret key as it is.
* `omitted_keeps`: what is left out of a dictionary that the encoder walks into stays as it is.
* `config_update_keeps`: both, for the two services.
-/

namespace LarkPlat

open ConfigCodec

variable {codec : ConfigCodec} {vault : Vault}

/-! ### Where the encoder goes -/

/-- The encoder walks to the dictionary at the path: through dictionaries, and through the items of
a list that is the value of a key, if it reads lists. -/
def ConfigCodec.Walks (codec : ConfigCodec) : List PathStep → Prop
  | [] => True
  | .key _ :: .item _ :: path => codec.readsLists = true ∧ codec.Walks path
  | .key _ :: path => codec.Walks path
  | .item _ :: _ => False

/-- Induction along a path from a dictionary: a key leads to the rest of the path, and through a
list to the rest behind the index. -/
theorem path_induction {P : List PathStep → Prop} (nil : P [])
    (item : ∀ i path, P (.item i :: path))
    (key : ∀ k path, P path → (∀ i rest, path = .item i :: rest → P rest) → P (.key k :: path)) :
    ∀ path, P path
  | [] => nil
  | .item i :: path => item i path
  | .key k :: .item i :: path => by
      refine key k _ (item i path) fun j rest h => ?_
      obtain ⟨-, rfl⟩ := List.cons.inj h
      exact path_induction nil item key path
  | .key k :: [] => key k [] nil fun _ _ h => absurd h (List.cons_ne_nil _ _).symm
  | .key k :: .key l :: path =>
      key k _ (path_induction nil item key (.key l :: path)) fun _ _ h => by cases h

theorem obj_of_follow {v : Json} {path : List PathStep} {fields : List (String × Json)}
    (hwalks : codec.Walks path) (h : v.follow path = some (.obj fields)) :
    ∃ own, v = .obj own := by
  cases path with
  | nil => exact ⟨fields, Option.some.inj h⟩
  | cons step path =>
      cases step with
      | item i => cases hwalks
      | key a =>
          cases v with
          | obj own => exact ⟨own, rfl⟩
          | _ => cases h

theorem arr_of_follow {v w : Json} {i : ℕ} {path : List PathStep}
    (h : v.follow (.item i :: path) = some w) :
    ∃ items item, v = .arr items ∧ items[i]? = some item ∧ item.follow path = some w := by
  cases v with
  | arr items =>
      rw [Json.follow_arr_item] at h
      obtain ⟨item, hitem, hrest⟩ := Option.bind_eq_some_iff.mp h
      exact ⟨items, item, rfl, hitem, hrest⟩
  | _ => cases h

/-! ### The mask comes back -/

theorem maskValue_enc (codec : ConfigCodec) (vault : Vault) {s : String} (h : s ≠ "") :
    ∃ m, codec.maskValue vault (.str ("enc:" ++ s)) = .str m ∧ IsMaskedSecret m := by
  rw [maskValue, if_pos (isEncoded_enc s)]
  apply Vault.maskSecret_masked
  cases codec.masksPayload with
  | true => simpa using h
  | false =>
      intro h0
      have hlist := congrArg String.toList h0
      rw [if_neg (by simp), toList_enc_append] at hlist
      cases hlist

/-- What the encoder stores under a key whose value is submitted as the mask shows it. -/
theorem lookup_echo (codec : ConfigCodec) (vault : Vault) {config : List (String × Json)}
    {a : String} {val : Json} (hproper : (Json.obj config).Proper)
    (hval : config.lookup a = some val) (n : ℕ) : ∃ l,
    (codec.encryptFields vault (codec.maskFields vault config) config n).1.lookup a =
      some (codec.encryptValue vault a (codec.maskValue vault val) (some val) l).1 := by
  have hnodup : ((codec.maskFields vault config).map Prod.fst).Nodup := by
    rw [map_fst_maskFields]
    exact hproper.nodup
  have hshown : (codec.maskFields vault config).lookup a = some (codec.maskValue vault val) := by
    rw [lookup_maskFields, hval, Option.map_some]
  rw [← hval]
  exact lookup_encryptFields_of_some codec vault config n hnodup hshown

/-- **The mask comes back.** Submitting the masked configuration leaves the ciphertext under a
secret key as it is, at every path. -/
theorem mask_echo_keeps {config : List (String × Json)} {path : List PathStep} {k s : String}
    (hproper : (Json.obj config).Proper) (hk : k ∈ codec.secretKeys) (hs : s ≠ "")
    (h : (Json.obj config).follow (path ++ [.key k]) = some (.str ("enc:" ++ s))) (n : ℕ) :
    (Json.obj (codec.encryptFields vault (codec.maskFields vault config) config n).1).follow
      (path ++ [.key k]) = some (.str ("enc:" ++ s)) := by
  induction path using path_induction generalizing config n with
  | nil =>
      rw [List.nil_append, Json.follow_obj_key] at h ⊢
      obtain ⟨val, hval, hleaf⟩ := Option.bind_eq_some_iff.mp h
      obtain rfl : val = .str ("enc:" ++ s) := Option.some.inj hleaf
      obtain ⟨m, hmask, hmasked⟩ := maskValue_enc codec vault hs
      obtain ⟨l, hstored⟩ := lookup_echo codec vault hproper hval n
      rw [hstored, hmask, encryptValue, if_pos hk, if_pos (.inr hmasked)]
      rfl
  | item i path => cases h
  | key a path ih ihItem =>
      rw [List.cons_append, Json.follow_obj_key] at h ⊢
      obtain ⟨val, hval, hrest⟩ := Option.bind_eq_some_iff.mp h
      obtain ⟨l, hstored⟩ := lookup_echo codec vault hproper hval n
      have hproper' : val.Proper := hproper.child (s := .key a) hval
      rw [hstored, Option.bind_some]
      cases val with
      | obj fields =>
          rw [maskValue, encryptValue]
          exact ih hproper' hrest l
      | arr items =>
          by_cases hreads : codec.readsLists = true
          · rw [maskValue, if_pos hreads, encryptValue, if_pos hreads]
            cases path with
            | nil => cases hrest
            | cons step path =>
                cases step with
                | key b => cases hrest
                | item i =>
                    rw [List.cons_append, Json.follow_arr_item] at hrest ⊢
                    obtain ⟨item, hitem, hbelow⟩ := Option.bind_eq_some_iff.mp hrest
                    have hshown : (codec.maskItems vault items)[i]? =
                        some (codec.maskItem vault item) := by
                      rw [getElem?_maskItems, hitem, Option.map_some]
                    obtain ⟨m, hm⟩ := getElem?_encryptItems codec vault l items hshown
                    rw [itemsOf, hm, hitem, Option.bind_some]
                    cases item with
                    | obj fields =>
                        exact ihItem i path rfl (hproper'.child (s := .item i) hitem) hbelow m
                    | _ => exact hbelow
          · rw [maskValue, if_neg hreads, encryptValue, if_neg hreads]
            exact hrest
      | _ =>
          cases path with
          | nil => cases hrest
          | cons step path => cases step <;> cases hrest

/-! ### What is left out -/

/-- **What is left out stays.** Where the encoder walks to a dictionary of the submitted
configuration and one of the stored configuration, a key that the first lacks keeps what the second
has under it. -/
theorem omitted_keeps {config stored sub old : List (String × Json)} {path : List PathStep}
    {k : String} (hproper : (Json.obj config).Proper) (hwalks : codec.Walks path)
    (hsub : (Json.obj config).follow path = some (.obj sub))
    (hold : (Json.obj stored).follow path = some (.obj old)) (homit : sub.lookup k = none) (n : ℕ) :
    (Json.obj (codec.encryptFields vault config stored n).1).follow (path ++ [.key k]) =
      old.lookup k := by
  induction path using path_induction generalizing config stored n with
  | nil =>
      obtain rfl : config = sub := Json.obj.inj (Option.some.inj hsub)
      obtain rfl : stored = old := Json.obj.inj (Option.some.inj hold)
      rw [List.nil_append, Json.follow_obj_key,
        lookup_encryptFields_of_none codec vault stored n homit]
      cases stored.lookup k <;> rfl
  | item i path => cases hwalks
  | key a path ih ihItem =>
      rw [Json.follow_obj_key] at hsub hold
      obtain ⟨val, hval, hsub⟩ := Option.bind_eq_some_iff.mp hsub
      obtain ⟨prev, hprev, hold⟩ := Option.bind_eq_some_iff.mp hold
      obtain ⟨l, hstored⟩ := lookup_encryptFields_of_some codec vault stored n
        hproper.nodup hval
      have hproper' : val.Proper := hproper.child (s := .key a) hval
      rw [List.cons_append, Json.follow_obj_key, hstored, hprev, Option.bind_some]
      by_cases hitem : ∃ i rest, path = .item i :: rest
      · obtain ⟨i, rest, rfl⟩ := hitem
        obtain ⟨hreads, hwalks⟩ := hwalks
        obtain ⟨items, item, rfl, hget, hsub⟩ := arr_of_follow hsub
        obtain ⟨owned, own, rfl, hgetOwn, hold⟩ := arr_of_follow hold
        obtain ⟨fields, rfl⟩ := obj_of_follow hwalks hsub
        obtain ⟨ownFields, rfl⟩ := obj_of_follow hwalks hold
        obtain ⟨m, hm⟩ := getElem?_encryptItems codec vault l owned hget
        rw [encryptValue, if_pos hreads, List.cons_append, Json.follow_arr_item, itemsOf, hm,
          hgetOwn, Option.bind_some]
        exact ihItem i rest rfl (hproper'.child (s := .item i) hget) hwalks hsub hold m
      · have hwalks' : codec.Walks path := by
          cases path with
          | nil => trivial
          | cons step path =>
              cases step with
              | key b => exact hwalks
              | item i => exact absurd ⟨i, path, rfl⟩ hitem
        obtain ⟨fields, rfl⟩ := obj_of_follow hwalks' hsub
        obtain ⟨own, rfl⟩ := obj_of_follow hwalks' hold
        exact ih hproper' hwalks' hsub hold l

/-! ### Main result -/

/-- What an update of a stored configuration leaves as it is: every ciphertext under a secret key,
if the mask is submitted, and what a submitted dictionary leaves out, wherever the encoder merges a
dictionary into a stored one. -/
structure UpdateKeeps (codec : ConfigCodec) (vault : Vault) (stored : JsonDict) : Prop where
  masked : ∀ n path k s, k ∈ codec.secretKeys → s ≠ "" →
    (Json.obj stored.fields).follow (path ++ [.key k]) = some (.str ("enc:" ++ s)) →
    (Json.obj (codec.encryptFields vault (codec.maskFields vault stored.fields)
      stored.fields n).1).follow (path ++ [.key k]) = some (.str ("enc:" ++ s))
  omitted : ∀ n (config : JsonDict) path sub old k, codec.Walks path →
    (Json.obj config.fields).follow path = some (.obj sub) →
    (Json.obj stored.fields).follow path = some (.obj old) → sub.lookup k = none →
    (Json.obj (codec.encryptFields vault config.fields stored.fields n).1).follow
      (path ++ [.key k]) = (Json.obj stored.fields).follow (path ++ [.key k])

/-- **Updates keep the secrets.** Both services keep every ciphertext when the mask comes back, and
what is left out of a dictionary. -/
theorem config_update_keeps (vault : Vault) (stored : JsonDict) :
    UpdateKeeps monitorCodec vault stored ∧ UpdateKeeps ssoCodec vault stored := by
  have hkeeps : ∀ codec, UpdateKeeps codec vault stored := fun codec =>
    { masked := fun n path k s hk hs h => mask_echo_keeps stored.proper hk hs h n
      omitted := fun n config path sub old k hwalks hsub hold homit => by
        rw [omitted_keeps config.proper hwalks hsub hold homit, Json.follow_snoc_key, hold]
        rfl }
  exact ⟨hkeeps monitorCodec, hkeeps ssoCodec⟩

end LarkPlat
