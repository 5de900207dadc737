import LarkPlat.HostWrites
import LarkPlat.Text
import Mathlib.Data.List.DropRight

/-!
# Tags

`_normalize_tags` of `schemas/asset.py` reads the tags of a host, which older rows keep as a text, a
list or an object. It splits texts at commas and semicolons, and calls itself on the parts of lists
and objects. On a value that is none of these it calls itself on the same value.

The calls are bounded by a depth, and what the function returns is what it returns with every depth
that is large enough.

## Main results

* `isTag_normalizeTags`, `normalizeTags_intercalate`: a text is split into tags, and tags that are
  joined by semicolons are found again.
* `normalizes_iff`: the function returns, with tags that it returns again, exactly if there is no
  number and no boolean in the value.
-/

namespace LarkPlat

/-! ### Stripping -/

section Strip

variable {cs : List Char} {c : Char}

theorem strip_eq (cs : List Char) :
    Json.strip cs = (cs.dropWhile Json.isSpace).rdropWhile Json.isSpace := rfl

theorem strip_strip (cs : List Char) : Json.strip (Json.strip cs) = Json.strip cs := by
  have hdrop : (Json.strip cs).dropWhile Json.isSpace = Json.strip cs := by
    obtain ⟨rest, hrest⟩ := List.rdropWhile_prefix Json.isSpace (cs.dropWhile Json.isSpace)
    rw [← strip_eq] at hrest
    cases hstrip : Json.strip cs with
    | nil => rfl
    | cons c l =>
        -- The first character is that of the text without its leading spaces.
        rw [hstrip, List.cons_append] at hrest
        have hself : (cs.dropWhile Json.isSpace).dropWhile Json.isSpace =
            cs.dropWhile Json.isSpace := List.dropWhile_idempotent ..
        refine List.dropWhile_cons_of_neg fun hc => ?_
        rw [← hrest, List.dropWhile_cons_of_pos hc] at hself
        have hlength := (List.dropWhile_suffix Json.isSpace (l := l ++ rest)).length_le
        rw [hself, List.length_cons] at hlength
        omega
  rw [strip_eq (Json.strip cs), hdrop, strip_eq]
  exact List.rdropWhile_idempotent ..

theorem mem_of_mem_strip (h : c ∈ Json.strip cs) : c ∈ cs :=
  (List.dropWhile_suffix Json.isSpace).mem
    ((show _ <+: _ from List.rdropWhile_prefix Json.isSpace (cs.dropWhile Json.isSpace)).mem h)

end Strip

/-! ### Tags of a text -/

/-- A tag: it is not empty, nothing is stripped from it, and it has no separator. -/
structure IsTag (t : String) : Prop where
  nonempty : t ≠ ""
  stripped : stripped t = t
  comma : ',' ∉ t.toList
  semicolon : ';' ∉ t.toList

/-- The text with commas for semicolons. -/
def commas (cs : List Char) : List Char :=
  cs.map fun c => if c = ';' then ',' else c

theorem normalizeTags_eq (s : String) :
    normalizeTags (some s) =
      (((commas s.toList).splitOn ',').map fun t => String.ofList (Json.strip t)).filter
        fun t => decide (t ≠ "") := rfl

/-- What a text is split into are tags. -/
theorem isTag_normalizeTags {s t : String} (h : t ∈ normalizeTags (some s)) : IsTag t := by
  rw [normalizeTags_eq, List.mem_filter, decide_eq_true_iff, List.mem_map] at h
  obtain ⟨⟨piece, hpiece, rfl⟩, hne⟩ := h
  obtain ⟨hcomma, hsub⟩ := Text.of_mem_splitOn hpiece
  refine ⟨hne, ?_, ?_, ?_⟩
  · rw [LarkPlat.stripped, String.toList_ofList, strip_strip]
  · rw [String.toList_ofList]
    exact fun h => hcomma (mem_of_mem_strip h)
  · rw [String.toList_ofList]
    intro h
    obtain ⟨c, -, hc⟩ := List.mem_map.mp (hsub (mem_of_mem_strip h))
    split_ifs at hc with hsemi
    · exact absurd hc (by decide)
    · exact hsemi hc

/-- A character of a tag is one of the text, or the comma that a semicolon is replaced by. -/
theorem mem_of_mem_normalizeTags {s t : String} (h : t ∈ normalizeTags (some s)) {c : Char}
    (hc : c ∈ t.toList) : c ∈ s.toList ∨ c = ',' := by
  rw [normalizeTags_eq, List.mem_filter, List.mem_map] at h
  obtain ⟨⟨piece, hpiece, rfl⟩, -⟩ := h
  rw [String.toList_ofList] at hc
  obtain ⟨d, hd, rfl⟩ := List.mem_map.mp ((Text.of_mem_splitOn hpiece).2 (mem_of_mem_strip hc))
  split_ifs
  · exact .inr rfl
  · exact .inl hd

theorem commas_of_not_mem {cs : List Char} (h : ';' ∉ cs) : commas cs = cs := by
  refine (List.map_congr_left (g := id) fun c hc => ?_).trans (List.map_id cs)
  exact if_neg fun heq : c = ';' => h (heq ▸ hc)

theorem splitOn_commas_intercalate {tags : List (List Char)} (hne : tags ≠ [])
    (htags : ∀ t ∈ tags, ',' ∉ t ∧ ';' ∉ t) :
    (commas ([';'].intercalate tags)).splitOn ',' = tags := by
  have hjoin : commas ([';'].intercalate tags) = [','].intercalate tags := by
    induction tags with
    | nil => exact absurd rfl hne
    | cons t tags ih =>
        have ht := commas_of_not_mem (htags t List.mem_cons_self).2
        cases tags with
        | nil => rw [List.intercalate_singleton, List.intercalate_singleton, ht]
        | cons u tags =>
            have ih := ih (List.cons_ne_nil u tags) fun t h => htags t (List.mem_cons_of_mem _ h)
            rw [List.intercalate_cons_cons, List.intercalate_cons_cons, commas, List.map_append,
              List.map_append]
            exact congrArg₂ _ (congrArg₂ _ ht rfl) ih
  rw [hjoin]
  exact List.splitOn_intercalate ',' (fun t h => (htags t h).1) hne

/-- Joined tags are found again. -/
theorem normalizeTags_intercalate {tags : List String} (htags : ∀ t ∈ tags, IsTag t) :
    normalizeTags (some (";".intercalate tags)) = tags := by
  rcases eq_or_ne tags [] with rfl | hne
  · decide
  have hlist : (";".intercalate tags).toList = [';'].intercalate (tags.map String.toList) :=
    String.toList_intercalate
  have hsplit : (commas ([';'].intercalate (tags.map String.toList))).splitOn ',' =
      tags.map String.toList := by
    refine splitOn_commas_intercalate (fun h => hne (List.map_eq_nil_iff.mp h)) fun cs hcs => ?_
    obtain ⟨t, ht, rfl⟩ := List.mem_map.mp hcs
    exact ⟨(htags t ht).comma, (htags t ht).semicolon⟩
  rw [normalizeTags_eq, hlist, hsplit, List.map_map]
  have hstrip : tags.map ((fun t => String.ofList (Json.strip t)) ∘ String.toList) = tags :=
    (List.map_congr_left fun t ht => (htags t ht).stripped).trans (List.map_id' tags)
  rw [hstrip, List.filter_eq_self]
  exact fun t ht => decide_eq_true (htags t ht).nonempty

theorem normalizeTags_tag {t : String} (ht : IsTag t) : normalizeTags (some t) = [t] := by
  have h : normalizeTags (some (";".intercalate [t])) = [t] :=
    normalizeTags_intercalate fun u hu => List.mem_singleton.mp hu ▸ ht
  rwa [String.intercalate_singleton] at h

/-! ### Tags of a value -/

/-- A loop of `_normalize_tags`, which extends a list by what it gets for each part. -/
def extendTags (f : Json → Except PyErr (List String)) : List Json → Except PyErr (List String)
  | [] => .ok []
  | v :: vs => do
      let tags ← f v
      let rest ← extendTags f vs
      pure (tags ++ rest)

/-- `_normalize_tags`, called no deeper than `depth`. -/
def Json.normalizeTags : ℕ → Json → Except PyErr (List String)
  | 0, _ => .error .recursionError
  | depth + 1, v =>
      match v with
      | .null => .ok []
      | .str s => .ok (LarkPlat.normalizeTags (some s))
      | .obj fields => extendTags (Json.normalizeTags depth) (fields.map Prod.snd)
      | .arr items => extendTags (Json.normalizeTags depth) items
      | v => do
          let tags ← Json.normalizeTags depth v
          if tags = [] then pure []
          else
            let again ← Json.normalizeTags depth v
            pure (again.take 1)

/-- There is no number and no boolean in the value. -/
inductive Json.Textual : Json → Prop
  | null : Textual .null
  | str (s : String) : Textual (.str s)
  | arr {items : List Json} (h : ∀ v ∈ items, Textual v) : Textual (.arr items)
  | obj {fields : List (String × Json)} (h : ∀ f ∈ fields, Textual f.2) : Textual (.obj fields)

/-- The tags of a value are normalized: with every depth that is large enough the function returns
the same tags, and returns them again for these tags. -/
def Normalizes (v : Json) : Prop :=
  ∃ depth tags, (∀ t ∈ tags, IsTag t) ∧ ∀ n, depth ≤ n →
    v.normalizeTags n = .ok tags ∧ (tagsValue tags).normalizeTags n = .ok tags

section Values

variable {f g : Json → Except PyErr (List String)} {v : Json} {vs : List Json}
  {tags : List String} {depth n : ℕ}

theorem extendTags_cons (v : Json) (vs : List Json) :
    extendTags f (v :: vs) = .ok tags ↔
      ∃ first rest, f v = .ok first ∧ extendTags f vs = .ok rest ∧ first ++ rest = tags := by
  rw [extendTags, bind_eq_ok]
  constructor
  · rintro ⟨first, hfirst, h⟩
    obtain ⟨rest, hrest, h⟩ := bind_eq_ok.mp h
    exact ⟨first, rest, hfirst, hrest, Except.ok.inj h⟩
  · rintro ⟨first, rest, hfirst, hrest, rfl⟩
    exact ⟨first, hfirst, bind_eq_ok.mpr ⟨rest, hrest, rfl⟩⟩

theorem returns_of_extendTags (h : extendTags f vs = .ok tags) :
    ∀ v ∈ vs, ∃ tags, f v = .ok tags := by
  induction vs generalizing tags with
  | nil => exact fun v hv => absurd hv List.not_mem_nil
  | cons v vs ih =>
      obtain ⟨first, rest, hfirst, hrest, -⟩ := (extendTags_cons v vs).mp h
      exact List.forall_mem_cons.mpr ⟨⟨first, hfirst⟩, ih hrest⟩

theorem mem_extendTags (h : extendTags f vs = .ok tags) {t : String} (ht : t ∈ tags) :
    ∃ v ∈ vs, ∃ some, f v = .ok some ∧ t ∈ some := by
  induction vs generalizing tags with
  | nil =>
      obtain rfl := Except.ok.inj h
      cases ht
  | cons v vs ih =>
      obtain ⟨first, rest, hfirst, hrest, rfl⟩ := (extendTags_cons v vs).mp h
      rcases List.mem_append.mp ht with ht | ht
      · exact ⟨v, List.mem_cons_self, first, hfirst, ht⟩
      · obtain ⟨w, hw, some, hsome, ht⟩ := ih hrest ht
        exact ⟨w, List.mem_cons_of_mem v hw, some, hsome, ht⟩

theorem extendTags_returns (h : ∀ v ∈ vs, ∃ tags, f v = .ok tags ∧ ∀ t ∈ tags, IsTag t) :
    ∃ tags, extendTags f vs = .ok tags ∧ ∀ t ∈ tags, IsTag t := by
  induction vs with
  | nil => exact ⟨[], rfl, fun t ht => absurd ht List.not_mem_nil⟩
  | cons v vs ih =>
      obtain ⟨⟨first, hfirst, htags⟩, hvs⟩ := List.forall_mem_cons.mp h
      obtain ⟨rest, hrest, hmore⟩ := ih hvs
      refine ⟨first ++ rest, (extendTags_cons v vs).mpr ⟨first, rest, hfirst, hrest, rfl⟩, ?_⟩
      exact fun t ht => (List.mem_append.mp ht).elim (htags t) (hmore t)

theorem extendTags_mono (hfg : ∀ v tags, f v = .ok tags → g v = .ok tags)
    (h : extendTags f vs = .ok tags) : extendTags g vs = .ok tags := by
  induction vs generalizing tags with
  | nil => exact h
  | cons v vs ih =>
      obtain ⟨first, rest, hfirst, hrest, heq⟩ := (extendTags_cons v vs).mp h
      exact (extendTags_cons v vs).mpr ⟨first, rest, hfg v first hfirst, ih hrest, heq⟩

theorem normalizeTags_mono (hle : depth ≤ n) (h : v.normalizeTags depth = .ok tags) :
    v.normalizeTags n = .ok tags := by
  have hsucc : ∀ depth v tags, Json.normalizeTags depth v = .ok tags →
      v.normalizeTags (depth + 1) = .ok tags := by
    intro depth
    induction depth with
    | zero => exact fun v tags h => by cases h
    | succ depth ih =>
        intro v tags h
        cases v with
        | null | str => exact h
        | arr | obj => exact extendTags_mono ih h
        | bool | int | float =>
            obtain ⟨first, hfirst, h⟩ := bind_eq_ok.mp h
            refine bind_eq_ok.mpr ⟨first, ih _ _ hfirst, ?_⟩
            split_ifs at h ⊢ with hnil
            · exact h
            · obtain ⟨again, hagain, h⟩ := bind_eq_ok.mp h
              exact bind_eq_ok.mpr ⟨again, ih _ _ hagain, h⟩
  induction hle with
  | refl => exact h
  | step _ ih => exact hsucc _ v tags ih

theorem exists_common_depth
    (h : ∀ v ∈ vs, ∃ depth tags, v.normalizeTags depth = .ok tags ∧ ∀ t ∈ tags, IsTag t) :
    ∃ depth, ∀ v ∈ vs, ∃ tags, v.normalizeTags depth = .ok tags ∧ ∀ t ∈ tags, IsTag t := by
  induction vs with
  | nil => exact ⟨0, fun v hv => absurd hv List.not_mem_nil⟩
  | cons v vs ih =>
      obtain ⟨⟨d, tags, hres, htags⟩, hvs⟩ := List.forall_mem_cons.mp h
      obtain ⟨d', hd'⟩ := ih hvs
      refine ⟨max d d', List.forall_mem_cons.mpr
        ⟨⟨tags, normalizeTags_mono (Nat.le_max_left d d') hres, htags⟩, fun w hw => ?_⟩⟩
      obtain ⟨tags, hres, htags⟩ := hd' w hw
      exact ⟨tags, normalizeTags_mono (Nat.le_max_right d d') hres, htags⟩

theorem Json.Textual.normalizes (h : v.Textual) :
    ∃ depth tags, v.normalizeTags depth = .ok tags ∧ ∀ t ∈ tags, IsTag t := by
  induction h with
  | null => exact ⟨1, [], rfl, fun t ht => absurd ht List.not_mem_nil⟩
  | str s => exact ⟨1, _, rfl, fun t ht => isTag_normalizeTags ht⟩
  | arr _ ih =>
      obtain ⟨depth, hdepth⟩ := exists_common_depth ih
      obtain ⟨tags, hres, htags⟩ := extendTags_returns hdepth
      exact ⟨depth + 1, tags, hres, htags⟩
  | @obj fields _ ih =>
      have ih : ∀ v ∈ fields.map Prod.snd,
          ∃ depth tags, v.normalizeTags depth = .ok tags ∧ ∀ t ∈ tags, IsTag t := by
        intro v hv
        obtain ⟨f, hf, rfl⟩ := List.mem_map.mp hv
        exact ih f hf
      obtain ⟨depth, hdepth⟩ := exists_common_depth ih
      obtain ⟨tags, hres, htags⟩ := extendTags_returns hdepth
      exact ⟨depth + 1, tags, hres, htags⟩

theorem textual_of_normalizeTags (h : v.normalizeTags depth = .ok tags) : v.Textual := by
  induction depth generalizing v tags with
  | zero => cases h
  | succ depth ih =>
      cases v with
      | null => exact .null
      | str s => exact .str s
      | arr items =>
          exact .arr fun v hv => (returns_of_extendTags h v hv).elim fun _ hres => ih hres
      | obj fields =>
          refine .obj fun f hf => ?_
          exact (returns_of_extendTags h f.2 (List.mem_map_of_mem hf)).elim fun _ hres => ih hres
      | bool | int | float =>
          -- The value is passed on as it is, one level deeper.
          obtain ⟨first, hfirst, -⟩ := bind_eq_ok.mp h
          cases ih hfirst

theorem normalizeTags_tagsValue (htags : ∀ t ∈ tags, IsTag t) (n : ℕ) :
    (tagsValue tags).normalizeTags (n + 2) = .ok tags := by
  change extendTags (Json.normalizeTags (n + 1)) (tags.map Json.str) = .ok tags
  induction tags with
  | nil => rfl
  | cons t tags ih =>
      obtain ⟨ht, htags⟩ := List.forall_mem_cons.mp htags
      refine (extendTags_cons _ _).mpr ⟨[t], tags, ?_, ih htags, rfl⟩
      exact congrArg Except.ok (normalizeTags_tag ht)

/-- **The tags of a value** are normalized exactly if there is no number and no boolean in it. -/
theorem normalizes_iff (v : Json) : Normalizes v ↔ v.Textual := by
  constructor
  · rintro ⟨depth, tags, -, h⟩
    exact textual_of_normalizeTags (h depth le_rfl).1
  · intro h
    obtain ⟨depth, tags, hres, htags⟩ := h.normalizes
    refine ⟨depth + 2, tags, htags, fun n hn => ⟨normalizeTags_mono (by omega) hres, ?_⟩⟩
    obtain ⟨m, rfl⟩ : ∃ m, n = m + 2 := ⟨n - 2, by omega⟩
    exact normalizeTags_tagsValue htags m

/-- The tags of a number are looked for without end. -/
theorem number_recurses :
    (∀ depth, (Json.int 7).normalizeTags depth = .error .recursionError) ∧
      ¬ Normalizes (.int 7) := by
  constructor
  · intro depth
    induction depth with
    | zero => rfl
    | succ depth ih =>
        change ((Json.int 7).normalizeTags depth >>= _) = _
        rw [ih]
        rfl
  · rw [normalizes_iff]
    exact nofun

end Values

end LarkPlat
